import Ctap.Rehearsal.Link

/-!
# Running conversations under a virtual clock

At one instant a conversation goes on until it stops or has to wait. Time passes only while it
waits, and then jumps to the next instant at which something can happen. A run may have a limit;
whatever ends at the very instant of the limit still counts.

## Main definitions

* `Progress`: how far something came at an instant.
* `converse`: a conversation on a scripted link at one instant.
* `Ending`, `await`: a run over several instants.
* `runOn`: a conversation on a scripted link from beginning to end.
-/

namespace Ctap.Rehearsal

open Link (Conversation)

/-- How far something came at an instant. -/
inductive Progress (α : Type) where
  | finished (result : α)
  /-- It waits until an instant, or until something else happens. -/
  | waiting (wake : Option Time)
deriving Repr

/-- Goes on with a conversation at one instant, for at most so many link operations. -/
def converseFor {σ α : Type} [Conversation σ α] (now : Time) :
    Nat → ScriptedLink → σ → Progress α × ScriptedLink × σ
  | 0, link, s => (.waiting (some now), link, s)
  | fuel + 1, link, s =>
    match Conversation.move s with
    | .stop result => (.finished result, link, s)
    | .send packet =>
      let r := link.send now packet
      converseFor now fuel r.2 (Conversation.sent s r.1)
    | .receive =>
      match link.receive now with
      | (.ended outcome, link) => converseFor now fuel link (Conversation.received s outcome)
      | (.waits wake, link) => (.waiting wake, link, s)

/-- Goes on with a conversation at one instant. `size` bounds the octets that it still sends on its
own account; what it sends and receives beyond that is bounded by what the link can still bring. -/
def converse {σ α : Type} [Conversation σ α] (now : Time) (size : Nat) (link : ScriptedLink)
    (s : σ) : Progress α × ScriptedLink × σ :=
  converseFor now (4 * (link.weight + size) + 64) link s

/-- How a run ends. -/
inductive Ending (α : Type) where
  | finished (result : α)
  | abandoned
  | stuck
deriving Repr

/-- Runs something until it ends, from one instant at which it can go on to the next; `steps` bounds
their number. -/
def await {S α : Type} (advance : Time → S → Progress α × S) (limit : Option Time) :
    Nat → Time → S → Ending α × Time × S
  | 0, now, s => (.stuck, now, s)
  | steps + 1, now, s =>
    match advance now s with
    | (.finished result, s) => (.finished result, now, s)
    | (.waiting wake, s) =>
      match wake, limit with
      | none, none => (.stuck, now, s)
      | none, some limit => (.abandoned, max now limit, s)
      | some wake, none => await advance limit steps (max now wake) s
      | some wake, some last =>
        if wake ≤ last then await advance limit steps (max now wake) s
        else (.abandoned, max now last, s)

/-- Runs a conversation on a link from an instant to its end, or until the limit. -/
def runOn {σ α : Type} [Conversation σ α] (size : Nat) (link : ScriptedLink) (now : Time)
    (limit : Option Time) (s : σ) : Ending α × Time × ScriptedLink :=
  let r := await (fun now (t : ScriptedLink × σ) => converse now size t.1 t.2) limit
    (2 * link.queue.length + 4) now (link, s)
  (r.1, r.2.1, r.2.2.1)

end Ctap.Rehearsal
