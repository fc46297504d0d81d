import Ctap.Proofs.Card.Applet
import Ctap.Proofs.Machine
import Mathlib.Data.List.Basic

/-!
# What an exchange with a card comes to

An exchange sends its commands one after the other and takes what comes of each: the reply of the
card, or the failure of the link. The commands in front of the last one are to succeed, each of
them. The reply to the last one may announce more, which is asked for part by part until the card
says that it is through, or has announced more once too often. The first reply that fails ends the
exchange. So the commands that were sent, and what came of them, determine how the exchange ends.

## Main definitions

* `Reply`, `Transcript`, `Behaviour`: what comes of a command, of several, and from whom.
* `Reply.Succeeds`, `Reply.Announces`, `Reply.Fails`: what a reply means.
* `Opening`, `Collecting`: the commands in front of the last one, and the last one with its parts.
* `Served`, `Failed`: the transcripts of exchanges that end with a response, and with an error.

## Main results

* `Exchange.ends_collecting_iff`, `Exchange.Heads.ends_iff`: how the two parts of an exchange end.
* `Exchange.ends_iff`: an exchange ends as its transcript says.
* `Exchange.concludes_as_replied`: an exchange with any card ends, and how.
-/

namespace Ctap.Card

open Link (Conversation)

/-! ### Replies -/

/-- What comes of a command: the reply of the card, or the failure of the link. -/
abbrev Reply : Type := Except Link.Error Bytes

/-- The commands that were sent, each with what came of it. -/
abbrev Transcript : Type := List (Bytes × Reply)

/-- How a card at its link behaves: what comes of a command may depend on all that was before. -/
abbrev Behaviour : Type := Transcript → Bytes → Reply

/-- Whether a card gives the replies of a transcript, after those of an earlier one. -/
def Behaviour.Gives (card : Behaviour) : Transcript → Transcript → Prop
  | _, [] => True
  | before, (command, reply) :: rest =>
    reply = card before command ∧ card.Gives (before ++ [(command, reply)]) rest

namespace Reply

/-- The data of a reply, which stands in front of the status word. -/
def data : Reply → Bytes
  | .ok raw => raw.take (raw.length - 2)
  | .error _ => []

/-- Whether a reply has the status word of success. -/
def Succeeds (reply : Reply) : Prop := ∃ data, reply = .ok (data ++ [0x90, 0x00])

/-- Whether a reply announces more. -/
def Announces (reply : Reply) : Prop := ∃ data left, reply = .ok (data ++ [0x61, left])

/-- What a reply fails with, if it does; a card may announce more where it is `awaited`. -/
inductive Fails (awaited : Bool) : Reply → Link.Error → Prop where
  | link (cause : Link.Error) : Fails awaited (.error cause) cause
  | truncated {raw : Bytes} (short : raw.length < 2) :
    Fails awaited (.ok raw) (.truncated 2 raw.length)
  | refused {data : Bytes} {hi lo : UInt8} (other : ¬ (hi = 0x90 ∧ lo = 0x00))
    (last : awaited = true → hi ≠ 0x61) :
    Fails awaited (.ok (data ++ [hi, lo])) (.apduStatus (Bytes.toUInt16 hi lo))

end Reply

namespace StatusWord

theorem split_append (data : Bytes) (hi lo : UInt8) :
    split (data ++ [hi, lo]) = .ok (data, ⟨Bytes.toUInt16 hi lo⟩) := by
  have hlength : (data ++ [hi, lo]).length - 2 = data.length := by simp
  rw [split, hlength, List.drop_left, List.take_left]

theorem split_short {raw : Bytes} (h : raw.length < 2) :
    split raw = .error (.truncated 2 raw.length) := by
  rcases raw with _ | ⟨first, _ | ⟨second, rest⟩⟩
  · rfl
  · rfl
  · simp only [List.length_cons] at h
    omega

theorem isSuccess_iff {hi lo : UInt8} :
    isSuccess ⟨Bytes.toUInt16 hi lo⟩ = true ↔ hi = 0x90 ∧ lo = 0x00 := by
  have hlo := lo.toNat_lt
  rw [isSuccess, success, beq_iff_eq, StatusWord.mk.injEq, ← UInt16.toNat_inj,
    Bytes.toNat_toUInt16, ← UInt8.toNat_inj, ← UInt8.toNat_inj]
  change hi.toNat * 256 + lo.toNat = 0x9000 ↔ hi.toNat = 0x90 ∧ lo.toNat = 0x00
  omega

/-- The status words that announce more are those whose high octet says so. -/
theorem isSome_moreData?_iff (hi lo : UInt8) :
    (moreData? ⟨Bytes.toUInt16 hi lo⟩).isSome = true ↔ hi = 0x61 := by
  have hlo := lo.toNat_lt
  have hshift : (Bytes.toUInt16 hi lo >>> 8).toNat = hi.toNat := by
    rw [UInt16.toNat_shiftRight, Bytes.toNat_toUInt16]
    change (hi.toNat * 256 + lo.toNat) >>> 8 = hi.toNat
    rw [Nat.shiftRight_eq_div_pow]
    omega
  have hannounces : Bytes.toUInt16 hi lo >>> 8 = 0x61 ↔ hi = 0x61 := by
    rw [← UInt16.toNat_inj, hshift, ← UInt8.toNat_inj]
    rfl
  rw [moreData?]
  split_ifs with h
  · exact iff_of_true rfl (hannounces.1 h)
  · exact iff_of_false Bool.false_ne_true fun hhi => h (hannounces.2 hhi)

end StatusWord

namespace Reply

variable {reply : Reply} {cause : Link.Error}

@[simp] theorem data_append (data : Bytes) (hi lo : UInt8) :
    Reply.data (.ok (data ++ [hi, lo])) = data := by
  have hlength : (data ++ [hi, lo]).length - 2 = data.length := by simp
  rw [Reply.data, hlength, List.take_left]

/-- **What a reply means**: it succeeds, or announces more where that is awaited, or fails. -/
theorem trichotomy (awaited : Bool) (reply : Reply) :
    reply.Succeeds ∨ awaited = true ∧ reply.Announces ∨ ∃ cause, reply.Fails awaited cause := by
  rcases reply with cause | raw
  · exact .inr (.inr ⟨cause, .link cause⟩)
  · by_cases hshort : raw.length < 2
    · exact .inr (.inr ⟨_, .truncated hshort⟩)
    · obtain ⟨hi, lo, hword⟩ : ∃ hi lo, raw.drop (raw.length - 2) = [hi, lo] :=
        List.length_eq_two.1 (by rw [List.length_drop]; omega)
      obtain ⟨data, rfl⟩ : ∃ data, raw = data ++ [hi, lo] :=
        ⟨raw.take (raw.length - 2), by rw [← hword, List.take_append_drop]⟩
      by_cases hsuccess : hi = 0x90 ∧ lo = 0x00
      · obtain ⟨rfl, rfl⟩ := hsuccess
        exact .inl ⟨data, rfl⟩
      · by_cases hmore : awaited = true ∧ hi = 0x61
        · obtain ⟨hawaited, rfl⟩ := hmore
          exact .inr (.inl ⟨hawaited, data, lo, rfl⟩)
        · exact .inr (.inr ⟨_, .refused hsuccess fun hawaited hhi => hmore ⟨hawaited, hhi⟩⟩)

end Reply

/-! ### One command -/

/-- Whether a card may announce more in its response to a command. -/
def Phase.awaitsParts : Phase → Bool
  | .collecting .. => true
  | _ => false

namespace Exchange

variable {x y : Exchange} {command : Bytes} {phase : Phase} {reply : Reply} {cause : Link.Error}
  {body : Bytes} {rounds : Nat} {t : Transcript} {result ended' : Except Link.Error Bytes}

/-- The state after the command that is to be sent came to something. -/
def transmit? (x : Exchange) (e : Bytes × Reply) : Option Exchange :=
  match Conversation.move x with
  | .send command => if e.1 = command then some ((x.sent (.ok ())).received e.2) else none
  | _ => none

instance : Machine Exchange (Bytes × Reply) where
  next? := transmit?

theorem sent_error (command : Bytes) (phase : Phase) (cause : Link.Error) :
    (Exchange.command command phase).sent (.error cause) =
      ((Exchange.command command phase).sent (.ok ())).received (.error cause) := rfl

/-- A reply that fails ends the exchange. -/
theorem received_of_fails (phase : Phase) (h : reply.Fails phase.awaitsParts cause) :
    (response phase).received reply = ended (.error cause) := by
  cases h with
  | link => rfl
  | truncated short => rw [received, StatusWord.split_short short]
  | @refused data hi lo other last =>
    have hsuccess : StatusWord.isSuccess ⟨Bytes.toUInt16 hi lo⟩ = false :=
      Bool.eq_false_iff.2 fun h => other (StatusWord.isSuccess_iff.1 h)
    rw [received, StatusWord.split_append]
    cases phase with
    | collecting body rounds =>
      have hmore : StatusWord.moreData? ⟨Bytes.toUInt16 hi lo⟩ = none := by
        rw [← Option.not_isSome_iff_eq_none, StatusWord.isSome_moreData?_iff]
        exact last rfl
      simp [answered, hsuccess, hmore]
    | _ => simp [answered, hsuccess]

theorem received_of_succeeds (h : reply.Succeeds) :
    (response phase).received reply = answered reply.data .success phase := by
  obtain ⟨data, rfl⟩ := h
  rw [received, StatusWord.split_append, Reply.data_append]
  rfl

/-- A reply that announces more is followed by another command, until that was done too often. -/
theorem received_of_announces (h : reply.Announces) :
    (response (.collecting body rounds)).received reply =
      if rounds = maxContinuations then ended (.error .timeout)
      else .command getResponse (.collecting (body ++ reply.data) (rounds + 1)) := by
  obtain ⟨data, left, rfl⟩ := h
  have hsuccess : StatusWord.isSuccess ⟨Bytes.toUInt16 0x61 left⟩ = false :=
    Bool.eq_false_iff.2 fun h => absurd (StatusWord.isSuccess_iff.1 h).1 (by decide)
  obtain ⟨more, hmore⟩ := Option.isSome_iff_exists.1
    ((StatusWord.isSome_moreData?_iff 0x61 left).2 rfl)
  rw [received, StatusWord.split_append, Reply.data_append]
  simp [answered, hsuccess, hmore]

/-- The first command of a transcript is the one that is to be sent. -/
theorem run?_command : Machine.run? Machine.free (Exchange.command command phase) t =
    some (ended result) ↔ ∃ reply rest, t = (command, reply) :: rest ∧
      Machine.run? Machine.free ((response phase).received reply) rest = some (ended result) := by
  constructor
  · intro h
    rcases t with _ | ⟨⟨sent, reply⟩, rest⟩
    · cases h
    · obtain ⟨-, u, hu, hrest⟩ := Machine.run?_cons.1 h
      simp only [Machine.next?, transmit?, Conversation.move] at hu
      split_ifs at hu with hsent
      cases hu
      exact ⟨reply, rest, by rw [hsent], hrest⟩
  · rintro ⟨reply, rest, rfl, hrest⟩
    refine Machine.run?_cons.2 ⟨rfl, _, ?_, hrest⟩
    simp only [Machine.next?, transmit?, Conversation.move, if_true]
    rfl

theorem run?_ended : Machine.run? Machine.free (ended ended') t = some (ended result) ↔
    t = [] ∧ ended' = result := by
  rcases t with _ | ⟨e, rest⟩
  · simp [Machine.run?]
  · refine iff_of_false (fun h => ?_) (by simp)
    obtain ⟨-, u, hu, -⟩ := Machine.run?_cons.1 h
    cases hu

end Exchange

/-! ### The response -/

/-- The last command of a request with the parts in front of the final one: every part but the final
one announces more, and is followed by a command that asks for it. -/
structure Collecting (last : Bytes) (parts : Transcript) (final : Bytes × Reply) : Prop where
  sent : (parts ++ [final]).map Prod.fst = last :: List.replicate parts.length getResponse
  announced : ∀ e ∈ parts, e.2.Announces

/-- How an exchange ends that has collected `body` in all parts but the final one. -/
inductive Conclusion (body : Bytes) (rounds : Nat) (final : Reply) :
    Except Link.Error Bytes → Prop where
  | served (succeeds : final.Succeeds) : Conclusion body rounds final (.ok (body ++ final.data))
  | failed {cause : Link.Error} (fails : final.Fails true cause) :
    Conclusion body rounds final (.error cause)
  | endless (announces : final.Announces) (full : rounds = maxContinuations) :
    Conclusion body rounds final (.error .timeout)

/-- The data of some replies, put together. -/
def bodyOf (t : Transcript) : Bytes := (t.map (·.2.data)).flatten

theorem bodyOf_cons (e : Bytes × Reply) (t : Transcript) : bodyOf (e :: t) = e.2.data ++ bodyOf t :=
  rfl

namespace Collecting

variable {last : Bytes} {parts : Transcript} {final : Bytes × Reply} {reply : Reply}

theorem single (last : Bytes) (reply : Reply) : Collecting last [] (last, reply) :=
  ⟨rfl, fun _ he => by cases he⟩

theorem cons (hreply : reply.Announces) (h : Collecting getResponse parts final) :
    Collecting last ((last, reply) :: parts) final := by
  refine ⟨?_, fun e he => ?_⟩
  · rw [List.cons_append, List.map_cons, h.sent, List.length_cons, List.replicate_succ]
  · rcases List.mem_cons.1 he with rfl | he
    · exact hreply
    · exact h.announced e he

theorem of_cons {e : Bytes × Reply} (h : Collecting last (e :: parts) final) :
    e.1 = last ∧ e.2.Announces ∧ Collecting getResponse parts final := by
  have hsent := h.sent
  rw [List.cons_append, List.map_cons, List.length_cons, List.replicate_succ] at hsent
  obtain ⟨hfirst, hrest⟩ := List.cons.inj hsent
  exact ⟨hfirst, h.announced e (List.mem_cons_self ..), hrest,
    fun e he => h.announced e (List.mem_cons_of_mem _ he)⟩

end Collecting

namespace Exchange

variable {last body : Bytes} {rounds : Nat} {t : Transcript} {result : Except Link.Error Bytes}

private theorem collecting_ends (hrounds : rounds ≤ maxContinuations)
    (h : Machine.run? Machine.free (Exchange.command last (.collecting body rounds)) t =
      some (ended result)) :
    ∃ parts final, t = parts ++ [final] ∧ Collecting last parts final ∧
      rounds + parts.length ≤ maxContinuations ∧
      Conclusion (body ++ bodyOf parts) (rounds + parts.length) final.2 result := by
  induction t generalizing last body rounds with
  | nil => cases h
  | cons e t ih =>
    obtain ⟨reply, rest, hcons, hrest⟩ := run?_command.1 h
    cases hcons
    -- The reply is the final one, unless the card announces more and may.
    have hfinal (hconclusion : Conclusion body rounds reply result) (hnil : t = []) :
        ∃ parts final, (last, reply) :: t = parts ++ [final] ∧ Collecting last parts final ∧
          rounds + parts.length ≤ maxContinuations ∧
          Conclusion (body ++ bodyOf parts) (rounds + parts.length) final.2 result :=
      ⟨[], (last, reply), by rw [hnil]; rfl, .single last reply, hrounds,
        by simpa [bodyOf] using hconclusion⟩
    rcases reply.trichotomy true with hsucceeds | ⟨-, hannounces⟩ | ⟨cause, hfails⟩
    · rw [received_of_succeeds hsucceeds] at hrest
      obtain ⟨hnil, rfl⟩ := run?_ended.1 hrest
      exact hfinal (.served hsucceeds) hnil
    · rw [received_of_announces hannounces] at hrest
      split_ifs at hrest with hfull
      · obtain ⟨hnil, rfl⟩ := run?_ended.1 hrest
        exact hfinal (.endless hannounces hfull) hnil
      · obtain ⟨parts, final, rfl, hparts, hless, hconclusion⟩ := ih (by omega) hrest
        refine ⟨(last, reply) :: parts, final, rfl, hparts.cons hannounces, ?_, ?_⟩
        · rw [List.length_cons]
          omega
        · rw [bodyOf_cons, ← List.append_assoc, List.length_cons,
            show rounds + (parts.length + 1) = rounds + 1 + parts.length by omega]
          exact hconclusion
    · rw [received_of_fails (.collecting body rounds) hfails] at hrest
      obtain ⟨hnil, rfl⟩ := run?_ended.1 hrest
      exact hfinal (.failed hfails) hnil

private theorem collecting_of_ends {parts : Transcript} {final : Bytes × Reply}
    (hparts : Collecting last parts final) (hrounds : rounds + parts.length ≤ maxContinuations)
    (h : Conclusion (body ++ bodyOf parts) (rounds + parts.length) final.2 result) :
    Machine.run? Machine.free (Exchange.command last (.collecting body rounds)) (parts ++ [final]) =
      some (ended result) := by
  induction parts generalizing last body rounds with
  | nil =>
    obtain ⟨command, reply⟩ := final
    obtain ⟨rfl, -⟩ := List.cons.inj hparts.sent
    refine run?_command.2 ⟨reply, [], rfl, ?_⟩
    have hbody : body ++ bodyOf [] = body := List.append_nil body
    rw [hbody] at h
    cases h with
    | served succeeds => rw [received_of_succeeds succeeds]; rfl
    | failed fails => rw [received_of_fails (.collecting body rounds) fails]; rfl
    | endless announces full =>
      rw [received_of_announces announces, if_pos (by simpa using full)]
      rfl
  | cons e parts ih =>
    obtain ⟨command, reply⟩ := e
    obtain ⟨rfl, hannounces, hrest⟩ := hparts.of_cons
    rw [List.length_cons] at hrounds h
    refine run?_command.2 ⟨reply, parts ++ [final], rfl, ?_⟩
    rw [received_of_announces hannounces, if_neg (by omega)]
    refine ih hrest (by omega) ?_
    rw [bodyOf_cons, ← List.append_assoc,
      show rounds + (parts.length + 1) = rounds + 1 + parts.length by omega] at h
    exact h

/-- **How the response ends** that a card gives in parts. -/
theorem ends_collecting_iff (hrounds : rounds ≤ maxContinuations) :
    Machine.run? Machine.free (Exchange.command last (.collecting body rounds)) t =
        some (ended result) ↔
      ∃ parts final, t = parts ++ [final] ∧ Collecting last parts final ∧
        rounds + parts.length ≤ maxContinuations ∧
        Conclusion (body ++ bodyOf parts) (rounds + parts.length) final.2 result := by
  constructor
  · exact collecting_ends hrounds
  · rintro ⟨parts, final, rfl, hparts, hless, hconclusion⟩
    exact collecting_of_ends hparts hless hconclusion

end Exchange

/-! ### The commands in front of the last one -/

/-- Commands that are sent one after the other, and succeed. -/
structure Opening (commands : List Bytes) (t : Transcript) : Prop where
  sent : t.map Prod.fst = commands
  succeeded : ∀ e ∈ t, e.2.Succeeds

/-- Commands that are sent one after the other until one fails, which is the final one. -/
structure Cut (commands : List Bytes) (passed : Transcript) (final : Bytes × Reply)
    (cause : Link.Error) : Prop where
  sent : (passed ++ [final]).map Prod.fst <+: commands
  succeeded : ∀ e ∈ passed, e.2.Succeeds
  fails : final.2.Fails false cause

theorem Opening.nil : Opening [] [] := ⟨rfl, fun _ he => by cases he⟩

theorem Opening.cons {commands : List Bytes} {t : Transcript} {command : Bytes} {reply : Reply}
    (hreply : reply.Succeeds) (h : Opening commands t) :
    Opening (command :: commands) ((command, reply) :: t) := by
  refine ⟨by rw [List.map_cons, h.sent], fun e he => ?_⟩
  rcases List.mem_cons.1 he with rfl | he
  · exact hreply
  · exact h.succeeded e he

theorem Cut.cons {commands : List Bytes} {passed : Transcript} {final : Bytes × Reply}
    {cause : Link.Error} {command : Bytes} {reply : Reply} (hreply : reply.Succeeds)
    (h : Cut commands passed final cause) :
    Cut (command :: commands) ((command, reply) :: passed) final cause := by
  refine ⟨?_, fun e he => ?_, h.fails⟩
  · rw [List.cons_append, List.map_cons]
    exact (List.prefix_cons_inj command).2 h.sent
  · rcases List.mem_cons.1 he with rfl | he
    · exact hreply
    · exact h.succeeded e he

namespace Exchange

/-- Whether an exchange sends some commands, each of which is to succeed, and then goes on. -/
inductive Heads : Exchange → List Bytes → Exchange → Prop where
  | here (x : Exchange) : Heads x [] x
  /-- A command is to be sent, and what follows if it succeeds. -/
  | more {apdu : Bytes} {phase : Phase} {next y : Exchange} {front : List Bytes}
    (strict : phase.awaitsParts = false)
    (leads : ∀ data, answered data .success phase = next) (rest : Heads next front y) :
    Heads (.command apdu phase) (apdu :: front) y

variable {x y : Exchange} {front : List Bytes} {t : Transcript} {result : Except Link.Error Bytes}

/-- **How an exchange ends** that sends some commands in front: one of them fails, or they succeed
and the rest ends. -/
theorem Heads.ends_iff (h : Heads x front y) :
    Machine.run? Machine.free x t = some (ended result) ↔
      (∃ passed final cause, t = passed ++ [final] ∧ Cut front passed final cause ∧
        result = .error cause) ∨
      ∃ opening rest, t = opening ++ rest ∧ Opening front opening ∧
        Machine.run? Machine.free y rest = some (ended result) := by
  induction h generalizing t with
  | here x =>
    constructor
    · intro h
      exact .inr ⟨[], t, rfl, .nil, h⟩
    · rintro (⟨passed, final, cause, -, hcut, -⟩ | ⟨opening, rest, rfl, hopening, hrest⟩)
      · have hnil := List.prefix_nil.1 hcut.sent
        simp at hnil
      · obtain rfl : opening = [] := List.map_eq_nil_iff.1 hopening.sent
        exact hrest
  | @more apdu phase next y front strict leads rest ih =>
    rw [run?_command]
    constructor
    · rintro ⟨reply, t, rfl, ht⟩
      rcases reply.trichotomy phase.awaitsParts with hsucceeds | ⟨hawaits, -⟩ | ⟨cause, hfails⟩
      · rw [received_of_succeeds hsucceeds, leads] at ht
        rcases ih.1 ht with ⟨passed, final, cause, rfl, hcut, hresult⟩ |
          ⟨opening, more, rfl, hopening, hmore⟩
        · exact .inl ⟨(apdu, reply) :: passed, final, cause, rfl, hcut.cons hsucceeds, hresult⟩
        · exact .inr ⟨(apdu, reply) :: opening, more, rfl, hopening.cons hsucceeds, hmore⟩
      · rw [strict] at hawaits
        cases hawaits
      · rw [received_of_fails _ hfails] at ht
        obtain ⟨rfl, rfl⟩ := run?_ended.1 ht
        rw [strict] at hfails
        have hsent : [apdu] <+: apdu :: front :=
          (List.prefix_cons_inj apdu).2 (List.nil_prefix ..)
        exact .inl ⟨[], (apdu, reply), cause, rfl, ⟨hsent, by simp, hfails⟩, rfl⟩
    · rintro (⟨passed, final, cause, rfl, hcut, rfl⟩ | ⟨opening, more, rfl, hopening, hmore⟩)
      · rcases passed with _ | ⟨⟨command, reply⟩, passed⟩
        · obtain ⟨rfl, -⟩ := List.cons_prefix_cons.1 hcut.sent
          refine ⟨final.2, [], rfl, ?_⟩
          rw [received_of_fails _ (strict ▸ hcut.fails)]
          rfl
        · obtain ⟨rfl, hsent⟩ := List.cons_prefix_cons.1 hcut.sent
          refine ⟨reply, passed ++ [final], rfl, ?_⟩
          rw [received_of_succeeds (hcut.succeeded _ (List.mem_cons_self ..)), leads]
          refine ih.2 (.inl ⟨passed, final, cause, rfl, ⟨hsent, fun e he => ?_, hcut.fails⟩, rfl⟩)
          exact hcut.succeeded e (List.mem_cons_of_mem _ he)
      · rcases opening with _ | ⟨⟨command, reply⟩, opening⟩
        · cases hopening.sent
        · obtain ⟨rfl, hsent⟩ := List.cons.inj hopening.sent
          refine ⟨reply, opening ++ more, rfl, ?_⟩
          rw [received_of_succeeds (hopening.succeeded _ (List.mem_cons_self ..)), leads]
          refine ih.2 (.inr ⟨opening, more, rfl, ⟨hsent, fun e he => ?_⟩, hmore⟩)
          exact hopening.succeeded e (List.mem_cons_of_mem _ he)

end Exchange

/-! ### Exchanges -/

/-- The command that selects the applet, if it is to be selected. -/
def selection (selectFirst : Bool) : List Bytes := if selectFirst then [selectApplet] else []

/-- The commands of a request, if there is room for it. -/
def commandsOf (payload : Bytes) (extended : Bool) : Except Link.Error (List Bytes) :=
  if extended then extendedCommand payload else .ok (chainedCommands payload)

/-- All that may be sent for a request. -/
def planned (payload : Bytes) (selectFirst extended : Bool) : List Bytes :=
  match commandsOf payload extended with
  | .ok commands =>
    selection selectFirst ++ commands ++ List.replicate maxContinuations getResponse
  | .error _ => selection selectFirst

/-- Whether a request is served: the applet is selected, if it is to be, and all commands succeed,
where the last one and the commands that ask for more announce more until the final part comes. -/
inductive Served (payload : Bytes) (selectFirst extended : Bool) : Transcript → Bytes → Prop where
  | intro {front : List Bytes} {last : Bytes} {opening parts : Transcript}
    {final : Bytes × Reply} (cut : commandsOf payload extended = .ok (front ++ [last]))
    (opens : Opening (selection selectFirst ++ front) opening)
    (collects : Collecting last parts final) (bounded : parts.length ≤ maxContinuations)
    (succeeds : final.2.Succeeds) :
    Served payload selectFirst extended (opening ++ parts ++ [final]) (bodyOf (parts ++ [final]))

/-- How a request fails, with the error of the first reply that fails. -/
inductive Failed (payload : Bytes) (selectFirst extended : Bool) :
    Transcript → Link.Error → Prop where
  /-- There is no room for the request, and none of it is sent. -/
  | tooLarge {opening : Transcript} (whole : extended = true)
    (long : maxExtendedPayload < payload.length)
    (opens : Opening (selection selectFirst) opening) :
    Failed payload selectFirst extended opening (.messageTooLarge payload.length)
  | unselected {final : Bytes × Reply} {cause : Link.Error}
    (cut : Cut (selection selectFirst) [] final cause) :
    Failed payload selectFirst extended [final] cause
  | opening {front : List Bytes} {last : Bytes} {passed : Transcript} {final : Bytes × Reply}
    {cause : Link.Error} (cut : commandsOf payload extended = .ok (front ++ [last]))
    (fails : Cut (selection selectFirst ++ front) passed final cause) :
    Failed payload selectFirst extended (passed ++ [final]) cause
  | collecting {front : List Bytes} {last : Bytes} {opening parts : Transcript}
    {final : Bytes × Reply} {cause : Link.Error}
    (cut : commandsOf payload extended = .ok (front ++ [last]))
    (opens : Opening (selection selectFirst ++ front) opening)
    (collects : Collecting last parts final) (bounded : parts.length ≤ maxContinuations)
    (fails : final.2.Fails true cause) :
    Failed payload selectFirst extended (opening ++ parts ++ [final]) cause
  | endless {front : List Bytes} {last : Bytes} {opening parts : Transcript}
    {final : Bytes × Reply} (cut : commandsOf payload extended = .ok (front ++ [last]))
    (opens : Opening (selection selectFirst ++ front) opening)
    (collects : Collecting last parts final) (full : parts.length = maxContinuations)
    (announces : final.2.Announces) :
    Failed payload selectFirst extended (opening ++ parts ++ [final]) .timeout

/-- How an exchange ends that has the transcript. -/
def Comes (payload : Bytes) (selectFirst extended : Bool) (t : Transcript) :
    Except Link.Error Bytes → Prop
  | .ok body => Served payload selectFirst extended t body
  | .error cause => Failed payload selectFirst extended t cause

variable {payload : Bytes} {selectFirst extended : Bool} {t : Transcript}
  {result : Except Link.Error Bytes}

private theorem commandsOf_long (hlong : maxExtendedPayload < payload.length) :
    commandsOf payload true = .error (.messageTooLarge payload.length) := by
  rw [commandsOf, if_pos rfl, extendedCommand, if_pos hlong]

/-- A request has commands, or there is no room for it. -/
theorem commandsOf_cases (payload : Bytes) (extended : Bool) :
    (∃ front last, commandsOf payload extended = .ok (front ++ [last])) ∨
      extended = true ∧ maxExtendedPayload < payload.length := by
  have hlast {commands : List Bytes} (hne : commands ≠ [])
      (h : commandsOf payload extended = .ok commands) :
      ∃ front last, commandsOf payload extended = .ok (front ++ [last]) :=
    ⟨commands.dropLast, commands.getLast hne, by rw [List.dropLast_append_getLast, h]⟩
  cases extended with
  | false => exact .inl (hlast (carries_chainedCommands payload).ne_nil rfl)
  | true =>
    by_cases hlong : maxExtendedPayload < payload.length
    · exact .inr ⟨rfl, hlong⟩
    · obtain ⟨command, hcommand⟩ : ∃ command, extendedCommand payload = .ok [command] := by
        rw [extendedCommand, if_neg hlong]
        exact ⟨_, rfl⟩
      exact .inl (hlast (List.cons_ne_nil command []) hcommand)

private theorem Cut.eq_nil {passed : Transcript} {final : Bytes × Reply} {cause : Link.Error}
    (h : Cut (selection selectFirst) passed final cause) : passed = [] := by
  have hlength := h.sent.length_le
  cases selectFirst with
  | false => simp [selection] at hlength
  | true => simpa [selection] using hlength

private theorem Cut.append {commands : List Bytes} {passed : Transcript} {final : Bytes × Reply}
    {cause : Link.Error} (h : Cut commands passed final cause) (more : List Bytes) :
    Cut (commands ++ more) passed final cause :=
  ⟨h.sent.trans (List.prefix_append ..), h.succeeded, h.fails⟩

namespace Exchange

private theorem heads_sendAll (front : List Bytes) (last : Bytes) :
    Heads (sendAll (.ok (front ++ [last]))) front (.command last (.collecting [] 0)) := by
  induction front with
  | nil => exact .here _
  | cons first front ih =>
    have hmore : sendAll (.ok (first :: (front ++ [last]))) =
        .command first (.chaining (front ++ [last])) := by
      cases front <;> rfl
    rw [List.cons_append, hmore]
    exact .more rfl (fun _ => rfl) ih

private theorem heads_start {front : List Bytes} {y : Exchange}
    (h : Heads (request payload extended) front y) (selectFirst : Bool) :
    Heads (start payload selectFirst extended) (selection selectFirst ++ front) y := by
  cases selectFirst with
  | false => exact h
  | true => exact .more rfl (fun _ => rfl) h

/-- All commands of a request but the last one are sent in front. -/
theorem heads_of_cut {front : List Bytes} {last : Bytes}
    (h : commandsOf payload extended = .ok (front ++ [last])) (selectFirst : Bool) :
    Heads (start payload selectFirst extended) (selection selectFirst ++ front)
      (.command last (.collecting [] 0)) := by
  refine heads_start ?_ selectFirst
  have hrequest : request payload extended = sendAll (.ok (front ++ [last])) :=
    congrArg sendAll h
  rw [hrequest]
  exact heads_sendAll front last

theorem heads_of_long (h : maxExtendedPayload < payload.length) (selectFirst : Bool) :
    Heads (start payload selectFirst true) (selection selectFirst)
      (.ended (.error (.messageTooLarge payload.length))) := by
  have hrequest : request payload true = .ended (.error (.messageTooLarge payload.length)) :=
    congrArg sendAll (commandsOf_long h)
  have hheads := heads_start (.here (request payload true)) selectFirst
  rwa [List.append_nil, hrequest] at hheads

private theorem comes_of_ends (h : Machine.run? Machine.free
    (start payload selectFirst extended) t = some (ended result)) :
    Comes payload selectFirst extended t result := by
  rcases commandsOf_cases payload extended with ⟨front, last, hcut⟩ | ⟨rfl, hlong⟩
  · rcases (heads_of_cut hcut selectFirst).ends_iff.1 h with
      ⟨passed, final, cause, rfl, hfails, rfl⟩ | ⟨opening, rest, rfl, hopens, hrest⟩
    · exact .opening hcut hfails
    · obtain ⟨parts, final, rfl, hcollects, hbounded, hconclusion⟩ :=
        (ends_collecting_iff (Nat.zero_le _)).1 hrest
      rw [Nat.zero_add] at hbounded hconclusion
      rw [← List.append_assoc]
      cases hconclusion with
      | served succeeds =>
        have hbody : [] ++ bodyOf parts ++ final.2.data = bodyOf (parts ++ [final]) := by
          simp [bodyOf]
        rw [hbody]
        exact .intro hcut hopens hcollects hbounded succeeds
      | failed fails => exact .collecting hcut hopens hcollects hbounded fails
      | endless announces full => exact .endless hcut hopens hcollects full announces
  · rcases (heads_of_long hlong selectFirst).ends_iff.1 h with
      ⟨passed, final, cause, rfl, hfails, rfl⟩ | ⟨opening, rest, rfl, hopens, hrest⟩
    · obtain rfl := hfails.eq_nil
      exact .unselected hfails
    · obtain ⟨rfl, rfl⟩ := run?_ended.1 hrest
      rw [List.append_nil]
      exact .tooLarge rfl hlong hopens

private theorem ends_of_served {body : Bytes} (h : Served payload selectFirst extended t body) :
    Machine.run? Machine.free (start payload selectFirst extended) t = some (ended (.ok body)) := by
  cases h with
  | @intro front last opening parts final cut opens collects bounded succeeds =>
    refine (heads_of_cut cut selectFirst).ends_iff.2
      (.inr ⟨opening, parts ++ [final], List.append_assoc .., opens, ?_⟩)
    refine (ends_collecting_iff (Nat.zero_le _)).2 ⟨parts, final, rfl, collects, by omega, ?_⟩
    have hbody : bodyOf (parts ++ [final]) = [] ++ bodyOf parts ++ final.2.data := by
      simp [bodyOf]
    rw [hbody]
    exact .served succeeds

private theorem ends_of_failed {cause : Link.Error}
    (h : Failed payload selectFirst extended t cause) :
    Machine.run? Machine.free (start payload selectFirst extended) t =
      some (ended (.error cause)) := by
  cases h with
  | tooLarge whole long opens =>
    subst whole
    exact (heads_of_long long selectFirst).ends_iff.2
      (.inr ⟨t, [], (List.append_nil t).symm, opens, rfl⟩)
  | @unselected final _ cut =>
    rcases commandsOf_cases payload extended with ⟨front, last, hcut⟩ | ⟨rfl, hlong⟩
    · exact (heads_of_cut hcut selectFirst).ends_iff.2
        (.inl ⟨[], final, cause, rfl, cut.append front, rfl⟩)
    · exact (heads_of_long hlong selectFirst).ends_iff.2 (.inl ⟨[], final, cause, rfl, cut, rfl⟩)
  | opening cut fails =>
    exact (heads_of_cut cut selectFirst).ends_iff.2 (.inl ⟨_, _, cause, rfl, fails, rfl⟩)
  | @collecting front last opening parts final _ cut opens collects bounded fails =>
    refine (heads_of_cut cut selectFirst).ends_iff.2
      (.inr ⟨opening, parts ++ [final], List.append_assoc .., opens, ?_⟩)
    exact (ends_collecting_iff (Nat.zero_le _)).2
      ⟨parts, final, rfl, collects, by omega, .failed fails⟩
  | @endless front last opening parts final cut opens collects full announces =>
    refine (heads_of_cut cut selectFirst).ends_iff.2
      (.inr ⟨opening, parts ++ [final], List.append_assoc .., opens, ?_⟩)
    exact (ends_collecting_iff (Nat.zero_le _)).2
      ⟨parts, final, rfl, collects, by omega, .endless announces (by omega)⟩

/-- **An exchange ends as its transcript says.** -/
theorem ends_iff : Machine.run? Machine.free (start payload selectFirst extended) t =
    some (ended result) ↔ Comes payload selectFirst extended t result := by
  refine ⟨comes_of_ends, fun h => ?_⟩
  cases result with
  | ok body => exact ends_of_served h
  | error cause => exact ends_of_failed h

end Exchange

/-- No more is sent than what may be sent for the request. -/
theorem Comes.planned (h : Comes payload selectFirst extended t result) :
    t.map Prod.fst <+: planned payload selectFirst extended := by
  have hcollecting {front : List Bytes} {last : Bytes} {opening parts : Transcript}
      {final : Bytes × Reply} (cut : commandsOf payload extended = .ok (front ++ [last]))
      (opens : Opening (selection selectFirst ++ front) opening)
      (collects : Collecting last parts final) (bounded : parts.length ≤ maxContinuations) :
      (opening ++ parts ++ [final]).map Prod.fst <+:
        Card.planned payload selectFirst extended := by
    obtain ⟨more, hmore⟩ := Nat.exists_eq_add_of_le bounded
    rw [List.append_assoc, List.map_append, opens.sent, collects.sent, Card.planned, cut, hmore,
      List.replicate_add]
    exact ⟨List.replicate more getResponse, by simp⟩
  have hselection : selection selectFirst <+: Card.planned payload selectFirst extended := by
    rw [Card.planned]
    split
    · rw [List.append_assoc]
      exact List.prefix_append ..
    · exact List.prefix_refl _
  cases result with
  | ok body =>
    cases h with
    | intro cut opens collects bounded succeeds => exact hcollecting cut opens collects bounded
  | error cause =>
    cases h with
    | tooLarge whole long opens => rwa [opens.sent]
    | unselected cut => exact cut.sent.trans hselection
    | @opening front last _ _ _ cut fails =>
      refine fails.sent.trans ?_
      rw [Card.planned, cut]
      exact ⟨last :: List.replicate maxContinuations getResponse, by simp⟩
    | collecting cut opens collects bounded fails => exact hcollecting cut opens collects bounded
    | endless cut opens collects full announces =>
      exact hcollecting cut opens collects (Nat.le_of_eq full)

/-! ### Any card -/

/-- Whether an exchange ends that is continued with a card, which has replied before. -/
def Behaviour.Ends (card : Behaviour) (before : Transcript) (x : Exchange) : Prop :=
  ∃ t result, card.Gives before t ∧ Machine.run? Machine.free x t = some (.ended result)

namespace Behaviour

variable {card : Behaviour} {before : Transcript} {command body : Bytes} {phase : Phase}
  {x y : Exchange} {front : List Bytes}

theorem ends_ended (card : Behaviour) (before : Transcript) (result : Except Link.Error Bytes) :
    card.Ends before (.ended result) := ⟨[], result, trivial, rfl⟩

theorem ends_command (h : ∀ reply, card.Ends (before ++ [(command, reply)])
      ((Exchange.response phase).received reply)) :
    card.Ends before (.command command phase) := by
  obtain ⟨t, result, hgives, hrun⟩ := h (card before command)
  exact ⟨(command, card before command) :: t, result, ⟨rfl, hgives⟩,
    Exchange.run?_command.2 ⟨_, t, rfl, hrun⟩⟩

private theorem received_collecting (body : Bytes) (rounds : Nat) (reply : Reply) :
    (∃ result, (Exchange.response (.collecting body rounds)).received reply = .ended result) ∨
      rounds ≠ maxContinuations ∧ ∃ more,
        (Exchange.response (.collecting body rounds)).received reply =
          .command getResponse (.collecting more (rounds + 1)) := by
  rcases Reply.trichotomy true reply with hsucceeds | ⟨-, hannounces⟩ | ⟨cause, hfails⟩
  · exact .inl ⟨_, Exchange.received_of_succeeds hsucceeds⟩
  · rw [Exchange.received_of_announces hannounces]
    split_ifs with hfull
    · exact .inl ⟨_, rfl⟩
    · exact .inr ⟨hfull, _, rfl⟩
  · exact .inl ⟨_, Exchange.received_of_fails (.collecting body rounds) hfails⟩

/-- A response ends, since there are only so many parts. -/
theorem ends_collecting (left : Nat) {rounds : Nat} (h : rounds + left = maxContinuations) :
    card.Ends before (.command command (.collecting body rounds)) := by
  induction left generalizing before command body rounds with
  | zero =>
    refine ends_command fun reply => ?_
    rcases received_collecting body rounds reply with ⟨result, hended⟩ | ⟨hless, -⟩
    · rw [hended]
      exact ends_ended ..
    · exact absurd h hless
  | succ left ih =>
    refine ends_command fun reply => ?_
    rcases received_collecting body rounds reply with ⟨result, hended⟩ | ⟨-, more, hmore⟩
    · rw [hended]
      exact ends_ended ..
    · rw [hmore]
      exact ih (by omega)

/-- An exchange ends if what follows its first commands does. -/
theorem ends_of_heads (h : Exchange.Heads x front y) (hy : ∀ before, card.Ends before y)
    (before : Transcript) : card.Ends before x := by
  induction h generalizing before with
  | here => exact hy before
  | @more apdu phase next y front strict leads rest ih =>
    refine ends_command fun reply => ?_
    rcases Reply.trichotomy phase.awaitsParts reply with
      hsucceeds | ⟨hawaits, -⟩ | ⟨cause, hfails⟩
    · rw [Exchange.received_of_succeeds hsucceeds, leads]
      exact ih hy _
    · rw [strict] at hawaits
      cases hawaits
    · rw [Exchange.received_of_fails _ hfails]
      exact ends_ended ..

/-- **An exchange with any card ends.** -/
theorem ends (card : Behaviour) (payload : Bytes) (selectFirst extended : Bool) :
    card.Ends [] (.start payload selectFirst extended) := by
  rcases commandsOf_cases payload extended with ⟨front, last, hcut⟩ | ⟨rfl, hlong⟩
  · exact ends_of_heads (Exchange.heads_of_cut hcut selectFirst)
      (fun _ => ends_collecting maxContinuations (Nat.zero_add _)) []
  · exact ends_of_heads (Exchange.heads_of_long hlong selectFirst) (fun _ => ends_ended ..) []

end Behaviour

/-- **An exchange concludes as the card replied.** Whatever the card replies, the exchange ends. It
has sent the commands in their order, and nothing behind the first reply that fails. It has a
response if and only if every command in front of the last one succeeded, and the last one and the
commands that ask for more, of which there are 256 at most, announced more until one succeeded; the
response is the data of all these parts. Otherwise it has the error of the reply that failed. -/
theorem Exchange.concludes_as_replied (card : Behaviour) (payload : Bytes)
    (selectFirst extended : Bool) : card.Ends [] (.start payload selectFirst extended) ∧
      ∀ t result, card.Gives [] t →
        Machine.run? Machine.free (start payload selectFirst extended) t = some (.ended result) →
        t.map Prod.fst <+: planned payload selectFirst extended ∧
        (∀ body, result = .ok body ↔ Served payload selectFirst extended t body) ∧
        ∀ cause, result = .error cause ↔ Failed payload selectFirst extended t cause := by
  refine ⟨card.ends payload selectFirst extended, fun t result _ hrun => ?_⟩
  have hsame (other : Except Link.Error Bytes)
      (h : Comes payload selectFirst extended t other) : result = other := by
    have hother := ends_iff.2 h
    rw [hrun] at hother
    cases hother
    rfl
  have hcomes : Comes payload selectFirst extended t result := ends_iff.1 hrun
  refine ⟨hcomes.planned, fun body => ⟨?_, hsame (.ok body)⟩,
    fun cause => ⟨?_, hsame (.error cause)⟩⟩
  · rintro rfl
    exact hcomes
  · rintro rfl
    exact hcomes

/-- A card that gives some replies, whatever it is sent, and then is gone. -/
def Behaviour.ofReplies (replies : List Reply) : Behaviour := fun before _ =>
  (replies[before.length]?).getD (.error .disconnected)

/-- The replies to SELECT, to the two commands of a chain, and to a command that asks for more. -/
def partedReplies : List Reply :=
  [.ok [0x55, 0x90, 0x00], .ok [0x90, 0x00], .ok [0x00, 0xA1, 0x61, 0x0A],
    .ok [0x01, 0x02, 0x90, 0x00]]

/-- The transcript of a request of 255 octets. -/
def partedTranscript : Transcript :=
  (selection true ++ chainedCommands (Bytes.zeros 255) ++ [getResponse]).zip partedReplies

set_option maxRecDepth 4000 in
/-- A chain is sent, and the response comes in two parts. -/
theorem Exchange.concludes_as_replied_in_parts :
    (Behaviour.ofReplies partedReplies).Gives [] partedTranscript ∧
      Machine.run? Machine.free (start (Bytes.zeros 255) true false) partedTranscript =
        some (.ended (.ok [0x00, 0xA1, 0x01, 0x02])) ∧
      partedTranscript.map Prod.fst <+: planned (Bytes.zeros 255) true false ∧
      Served (Bytes.zeros 255) true false partedTranscript [0x00, 0xA1, 0x01, 0x02] := by
  have hgives : (Behaviour.ofReplies partedReplies).Gives [] partedTranscript :=
    ⟨rfl, rfl, rfl, rfl, trivial⟩
  have hrun : Machine.run? Machine.free (start (Bytes.zeros 255) true false) partedTranscript =
      some (.ended (.ok [0x00, 0xA1, 0x01, 0x02])) := rfl
  obtain ⟨hplanned, hserved, -⟩ :=
    (concludes_as_replied (.ofReplies partedReplies) (Bytes.zeros 255) true false).2 _ _ hgives hrun
  exact ⟨hgives, hrun, hplanned, (hserved _).1 rfl⟩

end Ctap.Card
