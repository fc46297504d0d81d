import Ctap.Authenticator
import Mathlib.Tactic.Common

/-!
# Sessions of an authenticator with its peer

A session is an authenticator with its callers, and the peer at the other end of the link. Callers
come, take their turn, and may be dropped at any time. A packet that the call at work sends is
handed to the peer, unless the link fails; a packet that it receives is the next one that the peer
has put on the way. Whoever cancels sends its packets without a turn of its own, at any later time.
Events come in any order that the state permits, and a rule may restrict the runs further.

Besides what the authenticator and the peer know, a session records which requests were made, which
one the call at work makes, and the number under which the peer has taken it in full.

## Main definitions

* `Peer`: what the other end of a link does with packets, and what it does on its own.
* `Session`, `Session.Event`, `Session.step?`: the state, what can happen, and what follows.
* `Session.run?`: the state after a list of events that a rule permits.
* `Session.observe`: what is observed on the way.
* `Session.staying`, `Session.Leads`: the rule that a caller is not dropped, and where runs lead.

## Main results

* `Session.run?_induction`, `Session.run?_induction_observe`: what the start has and every step
  keeps, the end has.
-/

namespace Ctap

open Link (Move)

/-- The other end of a link. Choices `χ` are what it may decide when a packet comes, and acts `ε`
are what it does on its own. -/
class Peer (π : Type) (χ ε : outParam Type) where
  /-- The state after a packet came, if the choice is open to it. -/
  hear? : π → χ → Bytes → Option π
  /-- The next packet on its way to the authenticator, and the state after it was taken. -/
  next? : π → Option (Bytes × π)
  /-- The state after an act, if the state permits it. -/
  act? : π → ε → Option π
  /-- How many requests have come in full. -/
  taken : π → Nat

/-- An authenticator with its callers and its peer. -/
structure Session (σ ρ κ π : Type) where
  turns : Turns σ ρ κ
  peer : π
  /-- All requests that were made, in order. -/
  made : List ρ
  /-- What the call that got its turn last asked for. -/
  current : Option ρ
  /-- The number under which the peer took the request of that call, once it came in full. -/
  own : Option Nat
  cancels : List Bytes

namespace Session

/-- What can happen in a session. -/
inductive Event (ρ χ ε : Type) where
  | arrive (caller : Caller) (request : ρ)
  | start (now : Time) (caller : Caller)
  /-- The next packet of the call at work comes to the peer. -/
  | write (choice : χ)
  /-- It comes to the peer, but the link reports a failure. -/
  | breakOff (choice : χ) (cause : Link.Error)
  /-- It is lost instead, and the link reports a failure. -/
  | lose (cause : Link.Error)
  /-- The call at work takes the next packet from the peer. -/
  | take
  /-- It takes a failure of the link instead. -/
  | fail (cause : Link.Error)
  | leave (caller : Caller)
  /-- Somebody asks for the request in progress to be given up. -/
  | cancel
  /-- The next cancelling packet comes to the peer. -/
  | signal (choice : χ)
  /-- The next cancelling packet is lost. -/
  | unsignal
  | act (act : ε)

variable {σ ρ κ π χ ε : Type}

/-- A session in which nothing has happened. -/
def fresh (state : σ) (peer : π) : Session σ ρ κ π := ⟨.idle state, peer, [], none, none, []⟩

/-- The state after a packet came to the peer. -/
def handOver [Peer π χ ε] (s : Session σ ρ κ π) (peer : π) : Session σ ρ κ π :=
  { s with
    peer
    own := if Peer.taken peer = Peer.taken s.peer then s.own else some (Peer.taken s.peer) }

/-- The state in which the call at work has gone on. -/
def goOn (s : Session σ ρ κ π) (t : σ × κ) : Session σ ρ κ π :=
  { s with turns := s.turns.update t }

/-- The call at work. -/
def call? (s : Session σ ρ κ π) : Option κ := s.turns.working.map (·.call)

variable [Authenticator σ ρ κ]

/-- The call at work, if it sends a packet next, with the packet. -/
def writing? (s : Session σ ρ κ π) : Option (κ × Bytes) :=
  s.call?.bind fun call =>
    match Authenticator.move s.turns.state call with
    | .send packet => some (call, packet)
    | _ => none

/-- The call at work, if it receives a packet next. -/
def reading? (s : Session σ ρ κ π) : Option κ :=
  s.call?.bind fun call =>
    match Authenticator.move s.turns.state call with
    | .receive => some call
    | _ => none

/-- The result of the call at work, if it has ended. -/
def result? (s : Session σ ρ κ π) : Option (Except Error Bytes) :=
  s.call?.bind fun call =>
    match Authenticator.move s.turns.state call with
    | .stop result => some result
    | _ => none

variable [Peer π χ ε]

/-- The state after an event, if the state permits it. -/
def step? (s : Session σ ρ κ π) : Event ρ χ ε → Option (Session σ ρ κ π)
  | .arrive caller request =>
    some { s with turns := s.turns.enter caller request, made := s.made ++ [request] }
  | .start now caller =>
    match s.turns.working, s.turns.waiting with
    | none, (first, request) :: _ =>
      if first = caller then
        some { s with turns := s.turns.begin now caller, current := some request, own := none }
      else none
    | _, _ => none
  | .write choice =>
    s.writing?.bind fun w => (Peer.hear? s.peer choice w.2).map fun peer =>
      (s.handOver peer).goOn (Authenticator.sent s.turns.state w.1 (.ok ()))
  | .breakOff choice cause =>
    s.writing?.bind fun w => (Peer.hear? s.peer choice w.2).map fun peer =>
      (s.handOver peer).goOn (Authenticator.sent s.turns.state w.1 (.error cause))
  | .lose cause =>
    s.writing?.map fun w => s.goOn (Authenticator.sent s.turns.state w.1 (.error cause))
  | .take =>
    s.reading?.bind fun call => (Peer.next? s.peer).map fun r =>
      { s with peer := r.2 }.goOn (Authenticator.received s.turns.state call (.ok r.1))
  | .fail cause =>
    s.reading?.map fun call =>
      s.goOn (Authenticator.received s.turns.state call (.error cause))
  | .leave caller => some { s with turns := s.turns.leave caller }
  | .cancel =>
    match Authenticator.cancellation s.turns.state with
    | .ok packets => some { s with cancels := s.cancels ++ packets }
    | .error _ => some s
  | .signal choice =>
    match s.cancels with
    | packet :: rest =>
      (Peer.hear? s.peer choice packet).map fun peer => { s with peer, cancels := rest }
    | [] => none
  | .unsignal =>
    match s.cancels with
    | _ :: rest => some { s with cancels := rest }
    | [] => none
  | .act act => (Peer.act? s.peer act).map fun peer => { s with peer }

/-- The state after events that the rule permits one after the other. -/
def run? (permits : Session σ ρ κ π → Event ρ χ ε → Bool) :
    Session σ ρ κ π → List (Event ρ χ ε) → Option (Session σ ρ κ π)
  | s, [] => some s
  | s, e :: events => if permits s e then (s.step? e).bind (run? permits · events) else none

/-- The rule that a caller is not dropped either. -/
def staying (permits : Session σ ρ κ π → Event ρ χ ε → Bool) (caller : Caller)
    (s : Session σ ρ κ π) (e : Event ρ χ ε) : Bool :=
  permits s e &&
    match e with
    | .leave c => c != caller
    | _ => true

/-- Whether events that the rule permits lead from one state to another. -/
def Leads (permits : Session σ ρ κ π → Event ρ χ ε → Bool) (s t : Session σ ρ κ π) : Prop :=
  ∃ events, run? permits s events = some t

/-- What is observed in the steps of a run, in order. -/
def observe {α : Type} (f : Session σ ρ κ π → Event ρ χ ε → Session σ ρ κ π → List α) :
    Session σ ρ κ π → List (Event ρ χ ε) → List α
  | _, [] => []
  | s, e :: events =>
    match s.step? e with
    | some t => f s e t ++ observe f t events
    | none => []

/-! ### What a step can do -/

omit [Authenticator σ ρ κ] [Peer π χ ε] in
@[simp] theorem call?_goOn (s : Session σ ρ κ π) (t : σ × κ) :
    (s.goOn t).call? = s.call?.map fun _ => t.2 := by
  rw [call?, call?, goOn, Turns.update, Option.map_map, Option.map_map]
  rfl

omit [Peer π χ ε] in
theorem writing?_eq_some {s : Session σ ρ κ π} {call : κ} {packet : Bytes} :
    s.writing? = some (call, packet) ↔
      s.call? = some call ∧ Authenticator.move s.turns.state call = .send packet := by
  rw [writing?, Option.bind_eq_some_iff]
  constructor
  · rintro ⟨call', hcall, h⟩
    split at h <;> simp_all
  · rintro ⟨hcall, h⟩
    exact ⟨call, hcall, by rw [h]⟩

omit [Peer π χ ε] in
theorem writing?_eq_none {s : Session σ ρ κ π} {call : κ} (hcall : s.call? = some call)
    (hmove : ∀ packet, Authenticator.move s.turns.state call ≠ .send packet) :
    s.writing? = none := by
  rcases hw : s.writing? with _ | ⟨call', packet⟩
  · rfl
  · obtain ⟨hcall', hsend⟩ := writing?_eq_some.1 hw
    rw [hcall] at hcall'
    cases hcall'
    exact absurd hsend (hmove packet)

omit [Peer π χ ε] in
theorem reading?_eq_some {s : Session σ ρ κ π} {call : κ} :
    s.reading? = some call ↔
      s.call? = some call ∧ Authenticator.move s.turns.state call = .receive := by
  rw [reading?, Option.bind_eq_some_iff]
  constructor
  · rintro ⟨call', hcall, h⟩
    split at h <;> simp_all
  · rintro ⟨hcall, h⟩
    exact ⟨call, hcall, by rw [h]⟩

omit [Peer π χ ε] in
theorem result?_eq_some {s : Session σ ρ κ π} {result : Except Error Bytes} :
    s.result? = some result ↔ ∃ call, s.call? = some call ∧
      Authenticator.move s.turns.state call = .stop result := by
  rw [result?, Option.bind_eq_some_iff]
  refine exists_congr fun call => and_congr_right fun _ => ?_
  constructor
  · intro h
    split at h <;> simp_all
  · intro h
    rw [h]

/-- A caller gets its turn only while nobody is at work and it is the first that waits. -/
theorem step?_start {s t : Session σ ρ κ π} {now : Time} {caller : Caller} :
    s.step? (.start now caller) = some t ↔ ∃ request rest, s.turns.working = none ∧
      s.turns.waiting = (caller, request) :: rest ∧
      t = { s with
        turns :=
          { state := (Authenticator.engage s.turns.state request).1
            working := some ⟨caller, now, (Authenticator.engage s.turns.state request).2⟩
            waiting := rest }
        current := some request
        own := none } := by
  obtain ⟨⟨state, working, waiting⟩, peer, made, current, own, cancels⟩ := s
  rcases working with _ | w
  · rcases waiting with _ | ⟨⟨first, request⟩, rest⟩
    · simp [step?]
    · by_cases h : first = caller
      · subst h
        simp [step?, Turns.begin, eq_comm]
      · simp [step?, h]
  · simp [step?]

theorem step?_write {s t : Session σ ρ κ π} {choice : χ} :
    s.step? (.write choice) = some t ↔ ∃ call packet peer, s.writing? = some (call, packet) ∧
      Peer.hear? s.peer choice packet = some peer ∧
      t = (s.handOver peer).goOn (Authenticator.sent s.turns.state call (.ok ())) := by
  simp only [step?, Option.bind_eq_some_iff, Option.map_eq_some_iff, Prod.exists,
    @eq_comm _ _ t, exists_and_left]

theorem step?_breakOff {s t : Session σ ρ κ π} {choice : χ} {cause : Link.Error} :
    s.step? (.breakOff choice cause) = some t ↔ ∃ call packet peer,
      s.writing? = some (call, packet) ∧ Peer.hear? s.peer choice packet = some peer ∧
      t = (s.handOver peer).goOn (Authenticator.sent s.turns.state call (.error cause)) := by
  simp only [step?, Option.bind_eq_some_iff, Option.map_eq_some_iff, Prod.exists,
    @eq_comm _ _ t, exists_and_left]

theorem step?_lose {s t : Session σ ρ κ π} {cause : Link.Error} :
    s.step? (.lose cause) = some t ↔ ∃ call packet, s.writing? = some (call, packet) ∧
      t = s.goOn (Authenticator.sent s.turns.state call (.error cause)) := by
  simp only [step?, Option.map_eq_some_iff, Prod.exists, @eq_comm _ _ t]

theorem step?_take {s t : Session σ ρ κ π} :
    s.step? .take = some t ↔ ∃ call packet peer, s.reading? = some call ∧
      Peer.next? s.peer = some (packet, peer) ∧
      t = { s with peer }.goOn (Authenticator.received s.turns.state call (.ok packet)) := by
  simp only [step?, Option.bind_eq_some_iff, Option.map_eq_some_iff, Prod.exists,
    @eq_comm _ _ t, exists_and_left]

theorem step?_fail {s t : Session σ ρ κ π} {cause : Link.Error} :
    s.step? (.fail cause) = some t ↔ ∃ call, s.reading? = some call ∧
      t = s.goOn (Authenticator.received s.turns.state call (.error cause)) := by
  simp only [step?, Option.map_eq_some_iff, @eq_comm _ _ t]

/-- A caller that goes takes its call along, if it is the one at work, and its place in the queue. -/
theorem step?_leave {s t : Session σ ρ κ π} {caller : Caller}
    (h : s.step? (.leave caller) = some t) :
    t = { s with turns := s.turns.leave caller } ∧
      t.turns.working =
        if s.turns.working.any (·.caller == caller) then none else s.turns.working := by
  cases h
  refine ⟨rfl, ?_⟩
  rcases hw : s.turns.working with _ | w
  · simp [Turns.leave, hw]
  · by_cases hcaller : w.caller = caller <;> simp [Turns.leave, hw, hcaller]

/-- Whoever cancels leaves cancelling packets to be sent, if there are any. -/
theorem step?_cancel {s t : Session σ ρ κ π} (h : s.step? .cancel = some t) : ∃ packets,
    (Authenticator.cancellation s.turns.state = .ok packets ∨ packets = []) ∧
      t = { s with cancels := s.cancels ++ packets } := by
  simp only [step?] at h
  rcases hpackets : Authenticator.cancellation s.turns.state with cause | packets
  · rw [hpackets] at h
    cases h
    exact ⟨[], .inr rfl, by rw [List.append_nil]⟩
  · rw [hpackets] at h
    cases h
    exact ⟨packets, .inl rfl, rfl⟩

theorem step?_unsignal {s t : Session σ ρ κ π} :
    s.step? .unsignal = some t ↔
      ∃ packet rest, s.cancels = packet :: rest ∧ t = { s with cancels := rest } := by
  rcases h : s.cancels with _ | ⟨packet, rest⟩
  · simp [step?, h]
  · simp [step?, h, @eq_comm _ _ t]

theorem step?_signal {s t : Session σ ρ κ π} {choice : χ} :
    s.step? (.signal choice) = some t ↔ ∃ packet rest peer, s.cancels = packet :: rest ∧
      Peer.hear? s.peer choice packet = some peer ∧ t = { s with peer, cancels := rest } := by
  rcases h : s.cancels with _ | ⟨packet, rest⟩
  · simp [step?, h]
  · simp [step?, h, @eq_comm _ _ t]

theorem step?_act {s t : Session σ ρ κ π} {act : ε} :
    s.step? (.act act) = some t ↔ ∃ peer, Peer.act? s.peer act = some peer ∧
      t = { s with peer } := by
  simp only [step?, Option.map_eq_some_iff, @eq_comm _ _ t]

/-! ### Runs -/

variable {permits : Session σ ρ κ π → Event ρ χ ε → Bool}

/-- A run that is not empty is a step that is permitted and a run from there. -/
theorem run?_cons {s t : Session σ ρ κ π} {e : Event ρ χ ε} {events : List (Event ρ χ ε)} :
    run? permits s (e :: events) = some t ↔
      permits s e = true ∧ ∃ u, s.step? e = some u ∧ run? permits u events = some t := by
  rw [run?]
  split_ifs with h
  · simp only [Option.bind_eq_some_iff, h, true_and]
  · simp only [h, false_and, reduceCtorEq]

/-- Runs can be put together. -/
theorem run?_append {s t u : Session σ ρ κ π} {first more : List (Event ρ χ ε)}
    (hfirst : run? permits s first = some t) (hmore : run? permits t more = some u) :
    run? permits s (first ++ more) = some u := by
  induction first generalizing s with
  | nil =>
    cases hfirst
    exact hmore
  | cons e first ih =>
    obtain ⟨hpermits, v, hstep, hrest⟩ := run?_cons.mp hfirst
    exact run?_cons.mpr ⟨hpermits, v, hstep, ih hrest⟩

/-- What the start of a run has and every permitted step keeps, the end has, together with what was
observed on the way. -/
theorem run?_induction_observe {α : Type}
    {f : Session σ ρ κ π → Event ρ χ ε → Session σ ρ κ π → List α}
    {P : Session σ ρ κ π → List α → Prop}
    (hstep : ∀ s seen e t, P s seen → permits s e = true → s.step? e = some t →
      P t (seen ++ f s e t))
    {s t : Session σ ρ κ π} {seen : List α} (hs : P s seen) {events : List (Event ρ χ ε)}
    (hrun : run? permits s events = some t) : P t (seen ++ observe f s events) := by
  induction events generalizing s seen with
  | nil =>
    cases hrun
    rwa [observe, List.append_nil]
  | cons e events ih =>
    obtain ⟨hpermits, u, hu, hrest⟩ := run?_cons.mp hrun
    have hseen : observe f s (e :: events) = f s e u ++ observe f u events := by
      rw [observe, hu]
    rw [hseen, ← List.append_assoc]
    exact ih (hstep s seen e u hs hpermits hu) hrest

/-- What was observed in a run was observed in one of its steps. -/
theorem exists_of_mem_observe {α : Type}
    {f : Session σ ρ κ π → Event ρ χ ε → Session σ ρ κ π → List α} {x : α}
    {s t : Session σ ρ κ π} {events : List (Event ρ χ ε)} (hrun : run? permits s events = some t)
    (hx : x ∈ observe f s events) : ∃ before e after u v, events = before ++ e :: after ∧
      run? permits s before = some u ∧ permits u e = true ∧ u.step? e = some v ∧ x ∈ f u e v := by
  induction events generalizing s with
  | nil => cases hx
  | cons e events ih =>
    obtain ⟨hpermits, v, hv, hrest⟩ := run?_cons.mp hrun
    rw [observe, hv] at hx
    rcases List.mem_append.mp hx with hx | hx
    · exact ⟨[], e, events, s, v, rfl, rfl, hpermits, hv, hx⟩
    · obtain ⟨before, e', after, u, w, rfl, hbefore, hrule, hstep, hmem⟩ := ih hrest hx
      exact ⟨e :: before, e', after, u, w, rfl, run?_cons.mpr ⟨hpermits, v, hv, hbefore⟩, hrule,
        hstep, hmem⟩

/-- What the start of a run has and every permitted step keeps, the end has. -/
theorem run?_induction {P : Session σ ρ κ π → Prop}
    (hstep : ∀ s e t, P s → permits s e = true → s.step? e = some t → P t)
    {s t : Session σ ρ κ π} (hs : P s) {events : List (Event ρ χ ε)}
    (hrun : run? permits s events = some t) : P t := by
  induction events generalizing s with
  | nil =>
    cases hrun
    exact hs
  | cons e events ih =>
    obtain ⟨hpermits, u, hu, hrest⟩ := run?_cons.mp hrun
    exact ih (hstep s e u hs hpermits hu) hrest

theorem Leads.refl (s : Session σ ρ κ π) : Leads permits s s := ⟨[], rfl⟩

theorem Leads.trans {s t u : Session σ ρ κ π} (hfirst : Leads permits s t)
    (hmore : Leads permits t u) : Leads permits s u := by
  obtain ⟨first, hfirst⟩ := hfirst
  obtain ⟨more, hmore⟩ := hmore
  exact ⟨first ++ more, run?_append hfirst hmore⟩

theorem Leads.step {s t : Session σ ρ κ π} {e : Event ρ χ ε} (hpermits : permits s e = true)
    (hstep : s.step? e = some t) : Leads permits s t :=
  ⟨[e], run?_cons.mpr ⟨hpermits, t, hstep, rfl⟩⟩

/-! ### A caller that stays -/

/-- While a caller stays its call is the one at work, and with the same request. -/
theorem working_of_staying {s t : Session σ ρ κ π} {e : Event ρ χ ε} {caller : Caller}
    (hpermits : staying permits caller s e = true) (hstep : s.step? e = some t)
    {w : Working κ} (hw : s.turns.working = some w) (hcaller : w.caller = caller) :
    (∃ w, t.turns.working = some w ∧ w.caller = caller) ∧ t.current = s.current := by
  have hgoOn (u : Session σ ρ κ π) (x : σ × κ) (hu : u.turns.working = s.turns.working) :
      ∃ w, (u.goOn x).turns.working = some w ∧ w.caller = caller := by
    refine ⟨{ w with call := x.2 }, ?_, hcaller⟩
    rw [goOn, Turns.update, hu, hw]
    rfl
  cases e with
  | arrive caller' request =>
    cases hstep
    exact ⟨⟨w, hw, hcaller⟩, rfl⟩
  | start now caller' =>
    obtain ⟨request, rest, hnone, -⟩ := step?_start.1 hstep
    rw [hw] at hnone
    cases hnone
  | write choice =>
    obtain ⟨call, packet, peer, -, -, rfl⟩ := step?_write.1 hstep
    exact ⟨hgoOn _ _ rfl, rfl⟩
  | breakOff choice cause =>
    obtain ⟨call, packet, peer, -, -, rfl⟩ := step?_breakOff.1 hstep
    exact ⟨hgoOn _ _ rfl, rfl⟩
  | lose cause =>
    obtain ⟨call, packet, -, rfl⟩ := step?_lose.1 hstep
    exact ⟨hgoOn _ _ rfl, rfl⟩
  | take =>
    obtain ⟨call, packet, peer, -, -, rfl⟩ := step?_take.1 hstep
    exact ⟨hgoOn _ _ rfl, rfl⟩
  | fail cause =>
    obtain ⟨call, -, rfl⟩ := step?_fail.1 hstep
    exact ⟨hgoOn _ _ rfl, rfl⟩
  | leave caller' =>
    obtain ⟨ht, hworking⟩ := step?_leave hstep
    have hother : w.caller ≠ caller' := by
      simp only [staying, Bool.and_eq_true, bne_iff_ne] at hpermits
      rw [hcaller]
      exact hpermits.2.symm
    rw [hw, Option.any_some, if_neg (by simpa using hother)] at hworking
    exact ⟨⟨w, hworking, hcaller⟩, by rw [ht]⟩
  | cancel =>
    obtain ⟨packets, -, rfl⟩ := step?_cancel hstep
    exact ⟨⟨w, hw, hcaller⟩, rfl⟩
  | signal choice =>
    obtain ⟨packet, rest, peer, -, -, rfl⟩ := step?_signal.1 hstep
    exact ⟨⟨w, hw, hcaller⟩, rfl⟩
  | unsignal =>
    obtain ⟨packet, rest, -, rfl⟩ := step?_unsignal.1 hstep
    exact ⟨⟨w, hw, hcaller⟩, rfl⟩
  | act act =>
    obtain ⟨peer, -, rfl⟩ := step?_act.1 hstep
    exact ⟨⟨w, hw, hcaller⟩, rfl⟩

end Session

end Ctap
