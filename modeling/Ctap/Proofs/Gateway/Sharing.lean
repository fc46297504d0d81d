import Ctap.Ble.Authenticator
import Ctap.Hid.Authenticator
import Ctap.Proofs.Gateway.Books

/-!
# Requests that share an authenticator

Requests of several channels are relayed to one authenticator. It serves one call at a time, and the
others wait. When a request stops being relayed its call is dropped, wherever it stands, and then
the authenticator is asked to give up what it works on. It does not know for which request it is
asked: it cancels whatever is out. So a request that waits behind another one takes the other one
along when it stops.

## Main definitions

* `Shareable`: an authenticator to which CBOR requests are relayed.
* `Shared`, `Shared.Event`, `Shared.step?`: a gateway and its authenticator, what can happen, and
  what follows.
* `Shared.CancelsOther`: whether another request is cancelled for the sake of one that stopped.

## Main results

* `Shared.Inv.step`: the calls are those of the requests that a device works on.
* `Shared.cancels_other_iff`: when another request is cancelled.
-/

namespace Ctap

/-- An authenticator to which CBOR requests are relayed. -/
class Shareable (σ : Type) (ρ κ : outParam Type) [Authenticator σ ρ κ] where
  /-- What is asked of the authenticator to have octets relayed; the nonce is for a handshake. -/
  ask : Bytes → Bytes → ρ
  isOut : κ → Bool
  Fits : σ → κ → Prop
  fits_engage : ∀ s r, Fits (Authenticator.engage s r).1 (Authenticator.engage s r).2
  fits_sent : ∀ s k r, Fits s k → Fits (Authenticator.sent s k r).1 (Authenticator.sent s k r).2
  fits_received : ∀ s k r, Fits s k →
    Fits (Authenticator.received s k r).1 (Authenticator.received s k r).2
  cancels : ∀ s k, Fits s k → isOut k = true →
    ∃ packet rest, Authenticator.cancellation s = .ok (packet :: rest)

namespace Hid

/-- How the channel of an authenticator goes with the call at work. -/
def HidAuthenticator.Fits (a : HidAuthenticator) : Call → Prop
  | .exchanging channel _ => a.channel = .busy channel ∧ initialHeaderSize < a.packetSize
  | _ => True

namespace HidAuthenticator

private theorem fits_afterExchange {a : HidAuthenticator} {channel : ChannelId} {x : Exchange}
    (h : (∀ result, x ≠ .ended result) →
      a.channel = .busy channel ∧ initialHeaderSize < a.packetSize) :
    (a.afterExchange channel x).1.Fits (a.afterExchange channel x).2 := by
  cases x with
  | writing | reading => exact h nofun
  | ended result => cases result <;> trivial

private theorem fits_dispatch (a : HidAuthenticator) (channel : ChannelId) (request : Request) :
    (a.dispatch channel request).1.Fits (a.dispatch channel request).2 := by
  refine fits_afterExchange fun hgoes => ⟨rfl, ?_⟩
  change initialHeaderSize < a.packetSize
  by_contra hsize
  -- No packets can be cut, so the exchange has ended at once.
  refine hgoes (.error (.invalidArgument "HID packet size must exceed 7 bytes")) ?_
  rw [Exchange.transact, packetize, if_pos (Nat.not_lt.1 hsize)]
  rfl

private theorem fits_afterHandshake (a : HidAuthenticator) (request : Request) (h : Handshake) :
    (a.afterHandshake request h).1.Fits (a.afterHandshake request h).2 := by
  rw [afterHandshake]
  split
  · exact fits_dispatch ..
  · trivial
  · trivial

end HidAuthenticator

instance : Shareable HidAuthenticator Request Call where
  ask octets nonce := ⟨.cbor, octets, nonce⟩
  isOut
    | .exchanging .. => true
    | _ => false
  Fits := HidAuthenticator.Fits
  fits_engage a request := by
    change (a.engage request).1.Fits (a.engage request).2
    rw [HidAuthenticator.engage]
    split
    · exact HidAuthenticator.fits_dispatch ..
    · exact HidAuthenticator.fits_afterHandshake ..
    · exact HidAuthenticator.fits_afterHandshake ..
  fits_sent a call r h := by
    cases call with
    | opening request handshake => exact HidAuthenticator.fits_afterHandshake ..
    | exchanging channel x => exact HidAuthenticator.fits_afterExchange fun _ => h
    | ended => trivial
  fits_received a call r h := by
    cases call with
    | opening request handshake => exact HidAuthenticator.fits_afterHandshake ..
    | exchanging channel x => exact HidAuthenticator.fits_afterExchange fun _ => h
    | ended => trivial
  cancels a call h hout := by
    cases call with
    | exchanging channel x =>
      obtain ⟨hbusy, hsize⟩ := h
      have hfits : ¬ maxPayload a.packetSize < ([] : Bytes).length := Nat.not_lt_zero _
      have hcancel : Authenticator.cancellation a =
          .ok ((messagePackets Command.cancel.toByte channel [] a.packetSize).map
            (Packet.encode a.packetSize)) := by
        change a.cancellation = _
        rw [HidAuthenticator.cancellation, hbusy]
        change packetize .cancel channel [] a.packetSize = _
        rw [packetize, if_neg (Nat.not_le.2 hsize), if_neg hfits]
      exact ⟨_, _, hcancel⟩
    | opening | ended => cases hout

end Hid

namespace Ble

/-- How the count of an authenticator goes with the call at work. -/
def BleAuthenticator.Fits (a : BleAuthenticator) : Call → Prop
  | .writing .. => validatePacketSize a.packetSize = .ok a.packetSize
  | .reading stale _ => validatePacketSize a.packetSize = .ok a.packetSize ∧
      0 < a.outstanding ∧ (stale = true → 1 < a.outstanding)
  | .ended _ => True

namespace BleAuthenticator

private theorem fits_readNext {a : BleAuthenticator}
    (hsize : validatePacketSize a.packetSize = .ok a.packetSize) (hsome : 0 < a.outstanding) :
    a.readNext.1.Fits a.readNext.2 :=
  ⟨hsize, hsome, fun hstale => of_decide_eq_true hstale⟩

private theorem fits_answered {a : BleAuthenticator} {stale : Bool} {reader : Reader}
    (h : a.Fits (.reading stale reader)) (result : Except Link.Error Bytes) :
    (a.answered stale result).1.Fits (a.answered stale result).2 := by
  obtain ⟨hsize, -, hmore⟩ := h
  cases stale with
  | false => trivial
  | true => exact fits_readNext hsize (Nat.sub_pos_of_lt (hmore rfl))

private theorem fits_written {a : BleAuthenticator}
    (hsize : validatePacketSize a.packetSize = .ok a.packetSize) : a.written.1.Fits a.written.2 :=
  fits_readNext hsize (Nat.succ_pos _)

private theorem validatePacketSize_of_packetize {command : Command} {payload : Bytes} {size : Nat}
    {frames : List Bytes} (h : packetize command payload size = .ok frames) :
    validatePacketSize size = .ok size := by
  rw [packetize] at h
  split at h
  · cases h
  · rename_i hsize
    rw [validatePacketSize] at hsize ⊢
    split_ifs at hsize ⊢
    rfl

end BleAuthenticator

instance : Shareable BleAuthenticator Request Call where
  ask octets _ := ⟨.msg, octets⟩
  isOut
    | .reading .. => true
    | _ => false
  Fits := BleAuthenticator.Fits
  fits_engage a request := by
    change (a.engage request).1.Fits (a.engage request).2
    rw [BleAuthenticator.engage]
    split
    · trivial
    · rename_i hpackets
      exact BleAuthenticator.fits_written
        (BleAuthenticator.validatePacketSize_of_packetize hpackets)
    · rename_i hpackets
      exact BleAuthenticator.validatePacketSize_of_packetize hpackets
  fits_sent a call r h := by
    cases call with
    | writing frame rest =>
      cases r with
      | error cause => cases rest <;> trivial
      | ok =>
        cases rest with
        | nil => exact BleAuthenticator.fits_written h
        | cons frame rest => exact h
    | reading | ended => exact h
  fits_received a call r h := by
    cases call with
    | reading stale reader =>
      cases r with
      | error cause => exact BleAuthenticator.fits_answered h _
      | ok frame =>
        change (a.received _ _).1.Fits (a.received _ _).2
        rw [BleAuthenticator.received]
        split
        · exact BleAuthenticator.fits_answered h _
        · exact h
        · exact BleAuthenticator.fits_answered h _
    | writing | ended => exact h
  cancels a call h hout := by
    cases call with
    | reading stale reader =>
      obtain ⟨hsize, hsome, -⟩ := h
      have hfits : ¬ maxMessageSize < ([] : Bytes).length := Nat.not_lt_zero _
      have hcancel : Authenticator.cancellation a =
          .ok (messageFrames .cancel [] a.packetSize) := by
        change a.cancellation = _
        rw [BleAuthenticator.cancellation, if_neg (Nat.ne_of_gt hsome), packetize, hsize]
        exact if_neg hfits
      exact ⟨_, _, hcancel⟩
    | writing | ended => cases hout

end Ble

/-! ### The calls of an authenticator -/

namespace Turns

variable {σ ρ κ : Type}

/-- Whether a caller has a call, at work or waiting. -/
def HasCall (t : Turns σ ρ κ) (caller : Caller) : Prop :=
  (∃ w, t.working = some w ∧ w.caller = caller) ∨ ∃ request, (caller, request) ∈ t.waiting

theorem hasCall_enter (t : Turns σ ρ κ) (caller : Caller) (request : ρ) (x : Caller) :
    (t.enter caller request).HasCall x ↔ t.HasCall x ∨ x = caller := by
  simp only [HasCall, enter, List.mem_append, List.mem_singleton, Prod.mk.injEq, exists_or,
    or_assoc, exists_and_left, exists_eq, and_true]

theorem hasCall_leave (t : Turns σ ρ κ) (caller x : Caller) :
    (t.leave caller).HasCall x ↔ x ≠ caller ∧ t.HasCall x := by
  simp only [HasCall, leave, Option.filter_eq_some_iff, List.mem_filter, bne_iff_ne]
  constructor
  · rintro (⟨w, ⟨hw, hother⟩, rfl⟩ | ⟨request, hmem, hother⟩)
    · exact ⟨hother, .inl ⟨w, hw, rfl⟩⟩
    · exact ⟨hother, .inr ⟨request, hmem⟩⟩
  · rintro ⟨hother, ⟨w, hw, rfl⟩ | ⟨request, hmem⟩⟩
    · exact .inl ⟨w, ⟨hw, hother⟩, rfl⟩
    · exact .inr ⟨request, hmem, hother⟩

theorem hasCall_update (t : Turns σ ρ κ) (s : σ × κ) (x : Caller) :
    (t.update s).HasCall x ↔ t.HasCall x := by
  simp [HasCall, update]

/-- Whoever gets its turn has waited for it. -/
theorem hasCall_begin [Authenticator σ ρ κ] {t : Turns σ ρ κ} {first : Caller} {request : ρ}
    {rest : List (Caller × ρ)} (now : Time) (hworking : t.working = none)
    (hwaiting : t.waiting = (first, request) :: rest) (x : Caller) :
    (t.begin now first).HasCall x ↔ t.HasCall x := by
  have hbegin : t.begin now first = ⟨(Authenticator.engage t.state request).1,
      some ⟨first, now, (Authenticator.engage t.state request).2⟩, rest⟩ := by
    simp [begin, hworking, hwaiting]
  simp only [HasCall, hbegin, hworking, hwaiting, List.mem_cons, Prod.mk.injEq, Option.some.injEq,
    exists_eq_left', reduceCtorEq, false_and, exists_false, false_or, exists_or, exists_and_left,
    exists_eq, and_true, @eq_comm _ first x]

end Turns

namespace Gateway

/-! ### Which requests a device works on -/

/-- The device that works on a request. -/
def Relay.device? {δ : Type} : Relay δ → Option δ
  | exchanging device => some device
  | _ => none

/-- Whether a device works on the request with a number. -/
def System.IsActive {δ : Type} (s : System δ) (id : DispatchId) : Prop :=
  ∃ d, s.dispatch? id = some d ∧ d.activeDevice?.isSome = true

section

variable {δ : Type} {s t : System δ} {now : Time} {e : Event δ} {id : DispatchId}
  {d d' : Dispatch δ} {table : ChannelTable}

/-- A device works on a request while the request is relayed to it. -/
theorem Dispatch.activeDevice?_eq (d : Dispatch δ) :
    d.activeDevice? = d.stage.relay?.bind Relay.device? := by
  rw [activeDevice?]
  cases d.stage with
  | relaying relay | notifying relay => cases relay <;> rfl
  | cancelling | answering | ended => rfl

namespace System

/-- What an event that concerns a request changes. -/
theorem isActive_turn (hs : Books s) (hd : s.dispatch? id = some d)
    (hturn : d.Turn s.config now s.table e d' table) (x : DispatchId) :
    IsActive ({ s with table }.put d') x ↔
      if x = id then d'.activeDevice?.isSome = true else s.IsActive x := by
  rw [IsActive, dispatch?_turn hs.alive hd hturn]
  by_cases hx : x = id
  · rw [if_pos hx, if_pos hx]
    by_cases hover : isOver d' = true
    · have hnone : d'.activeDevice? = none := by
        rw [isOver] at hover
        split at hover
        · rename_i hstage
          rw [Dispatch.activeDevice?, hstage]
        · cases hover
      simp [hover, hnone]
    · simp [hover]
  · rw [if_neg hx, if_neg hx, IsActive]

/-- An event that concerns no request lets the devices work on. -/
theorem isActive_react (s : System δ) (now : Time) (l : Listener) (r : Reaction) (x : DispatchId) :
    (s.react now l r).IsActive x ↔ s.IsActive x := by
  rw [IsActive, IsActive, dispatch?_react]
  rcases hd : s.dispatch? x with _ | d
  · simp only [Option.map_none, Option.none_or, Option.map_eq_some_iff]
    constructor
    · rintro ⟨d, ⟨a, -, rfl⟩, hactive⟩
      cases hactive
    · rintro ⟨d, hnone, -⟩
      cases hnone
  · have hsame : (told r.signal d).activeDevice? = d.activeDevice? := by
      rw [Dispatch.activeDevice?_eq, Dispatch.activeDevice?_eq, (told_frame r.signal d).2.2.2.2]
    simp [hsame]

/-- Whether an event leaves every device at its work. -/
def leavesDevices : Event δ → Bool
  | .heard .. | .missed | .failed _ | .shutdown | .delivered _ | .undelivered _ | .rested _
  | .ticked _ | .deviceCancelled _ => true
  | _ => false

/-- Whether an event stops a request for another reason than its answer. -/
def stops : Event δ → Bool
  | .expired _ | .aborted _ => true
  | _ => false

theorem isActive_of_leavesDevices (hs : Books s) (h : s.step? now e = some t)
    (he : leavesDevices e = true) (x : DispatchId) : t.IsActive x ↔ s.IsActive x := by
  rcases step_cases h with ⟨id, d, d', table, -, hd, hturn, rfl⟩ | ⟨-, l, r, -, rfl⟩
  · have hsame : d'.activeDevice? = d.activeDevice? := by
      rw [Dispatch.activeDevice?_eq, Dispatch.activeDevice?_eq]
      cases hturn with
      | handed | unlisted | failed | answered | expired | aborted => cases he
      | rested stage | ticked stage | unnotified stage | untold stage =>
        rw [stage]
        rfl
      | notified stage =>
        rw [stage, Dispatch.relay?_notify]
        rfl
      | gaveUp stage | told stage =>
        rw [stage, Dispatch.relay?_answer]
        rfl
    rw [isActive_turn hs hd hturn]
    by_cases hx : x = id
    · subst hx
      rw [if_pos rfl, hsame, IsActive, hd]
      simp
    · rw [if_neg hx]
  · exact isActive_react ..

/-- A device that answers, or whose request is stopped, works on it no more. -/
theorem isActive_of_stops (hs : Books s) (h : s.step? now e = some t)
    (hsubject : e.subject? = some id) (he : stops e = true ∨ ∃ result, e = .answered id result)
    (x : DispatchId) : t.IsActive x ↔ x ≠ id ∧ s.IsActive x := by
  rcases step_cases h with ⟨id', d, d', table, hid', hd, hturn, rfl⟩ | ⟨hnone, -⟩
  · obtain rfl : id = id' := Option.some.inj (hsubject.symm.trans hid')
    have hnone : d'.activeDevice? = none := by
      rw [Dispatch.activeDevice?_eq]
      cases hturn with
      | failed => rfl
      | answered => rw [Dispatch.relay?_answer, Option.bind_none]
      | expired | aborted => rw [Dispatch.relay?_stageAfter, Option.bind_none]
      | _ => simp [stops] at he
    rw [isActive_turn hs hd hturn]
    by_cases hx : x = id <;> simp [hx, hnone]
  · rw [hsubject] at hnone
    cases hnone

/-- Listing the devices hands a request to a device if there is one. -/
theorem isActive_of_enumerated {listed : Except Error (DeviceList δ)} (hs : Books s)
    (h : s.step? now (.enumerated id listed) = some t) (x : DispatchId) :
    t.IsActive x ↔ s.IsActive x ∨ x = id ∧ t.IsActive id := by
  rcases step_cases h with ⟨id', d, d', table, hid', hd, hturn, rfl⟩ | ⟨hnone, -⟩
  · cases hid'
    have hidle : ¬ s.IsActive id := by
      rintro ⟨d₀, hd₀, hactive⟩
      cases hd.symm.trans hd₀
      rw [Dispatch.activeDevice?_eq] at hactive
      cases hturn with
      | handed stage | unlisted stage =>
        rw [stage] at hactive
        cases hactive
    have hall := isActive_turn hs hd hturn
    by_cases hx : x = id
    · subst hx
      simp [hidle]
    · simp [hall x, hx]
  · cases hnone

end System

end

/-! ### A gateway and its authenticator -/

/-- A gateway, and the authenticator that is its only device, with the calls for the requests. -/
structure Shared (σ ρ κ : Type) where
  gateway : System Unit
  /-- The authenticator and the calls, each known by the number of its request. -/
  turns : Turns σ ρ κ

namespace Shared

/-- What can happen to a gateway and its authenticator. -/
inductive Event where
  /-- Something happens in the gateway that leaves its device at its work. -/
  | apart (event : Gateway.Event Unit)
  /-- The devices are listed for a request; the nonce is for a handshake. -/
  | list (id : DispatchId) (listed : Except Error (DeviceList Unit)) (nonce : Bytes)
  | begin (id : DispatchId)
  /-- The call at work has sent a packet, or could not. -/
  | sent (result : Except Link.Error Unit)
  /-- The call at work has received a packet, or could not. -/
  | received (result : Except Link.Error Bytes)
  | finish
  | tire
  /-- A request is stopped, and its call is dropped. -/
  | stop (event : Gateway.Event Unit)

variable {σ ρ κ : Type} [Authenticator σ ρ κ] [Shareable σ ρ κ]

/-- A gateway that has served nobody, and an authenticator in a state. -/
def fresh (config : Config) (state : σ) : Shared σ ρ κ := ⟨.fresh config, .idle state⟩

/-- The call for a request, if a device works on it now. -/
def callFor (turns : Turns σ ρ κ) (gateway : System Unit) (id : DispatchId) (nonce : Bytes) :
    Turns σ ρ κ :=
  match (gateway.dispatch? id).filter (·.activeDevice?.isSome) with
  | some d => turns.enter id (Shareable.ask σ d.request nonce)
  | none => turns

/-- The call at work is over with a result. -/
def conclude (s : Shared σ ρ κ) (now : Time) (id : DispatchId) (result : Except Ctap.Error Bytes) :
    Option (Shared σ ρ κ) :=
  (s.gateway.step? now (.answered id result)).map fun gateway => ⟨gateway, s.turns.leave id⟩

/-- The state after an event, if the state permits it. -/
def step? (s : Shared σ ρ κ) (now : Time) : Event → Option (Shared σ ρ κ)
  | .apart event =>
    if System.leavesDevices event then
      (s.gateway.step? now event).map fun gateway => { s with gateway }
    else none
  | .list id listed nonce =>
    (s.gateway.step? now (.enumerated id listed)).map fun gateway =>
      ⟨gateway, callFor s.turns gateway id nonce⟩
  | .begin id =>
    match s.turns.working, s.turns.waiting with
    | none, (first, _) :: _ =>
      if first = id then some { s with turns := s.turns.begin now id } else none
    | _, _ => none
  | .sent result =>
    s.turns.working.bind fun w =>
      match Authenticator.move s.turns.state w.call with
      | .send _ =>
        some { s with turns := s.turns.update (Authenticator.sent s.turns.state w.call result) }
      | _ => none
  | .received result =>
    s.turns.working.bind fun w =>
      match Authenticator.move s.turns.state w.call with
      | .receive =>
        some { s with turns := s.turns.update (Authenticator.received s.turns.state w.call result) }
      | _ => none
  | .finish =>
    s.turns.working.bind fun w =>
      match Authenticator.move s.turns.state w.call with
      | .stop result => s.conclude now w.caller result
      | _ => none
  | .tire =>
    s.turns.working.bind fun w =>
      match Authenticator.patience s.turns.state with
      | some limit =>
        if w.since + limit ≤ now then s.conclude now w.caller (.error .timeout) else none
      | none => none
  | .stop event =>
    event.subject?.bind fun id =>
      if System.stops event then
        (s.gateway.step? now event).map fun gateway => ⟨gateway, s.turns.leave id⟩
      else none

instance : Machine (Shared σ ρ κ) (Time × Event) where
  next? s e := s.step? e.1 e.2

/-! ### The calls are those of the requests -/

private theorem callFor_frame (turns : Turns σ ρ κ) (gateway : System Unit) (id : DispatchId)
    (nonce : Bytes) : (callFor turns gateway id nonce).working = turns.working ∧
      (callFor turns gateway id nonce).state = turns.state := by
  rw [callFor]
  split <;> exact ⟨rfl, rfl⟩

private theorem hasCall_callFor (turns : Turns σ ρ κ) (gateway : System Unit) (id : DispatchId)
    (nonce : Bytes) (x : DispatchId) : (callFor turns gateway id nonce).HasCall x ↔
      turns.HasCall x ∨ x = id ∧ gateway.IsActive id := by
  rw [callFor]
  split
  · rename_i d hfilter
    have hactive : gateway.IsActive id := ⟨d, Option.filter_eq_some_iff.1 hfilter⟩
    rw [Turns.hasCall_enter, and_iff_left hactive]
  · rename_i hfilter
    have hidle : ¬ gateway.IsActive id := by
      rintro ⟨d, hd, hactive⟩
      rw [hd, Option.filter_some, if_pos hactive] at hfilter
      cases hfilter
    rw [iff_false_intro hidle, and_false, or_false]

/-- What is known of a gateway and its authenticator. -/
structure Inv (s : Shared σ ρ κ) : Prop where
  books : Books s.gateway
  /-- The state of the authenticator goes with the call at work. -/
  fits : ∀ w, s.turns.working = some w → Shareable.Fits s.turns.state w.call
  /-- There are calls for the requests that a device works on, and for no other. -/
  calls : ∀ id, s.turns.HasCall id ↔ s.gateway.IsActive id

namespace Inv

variable {s t : Shared σ ρ κ} {now : Time} {e : Event}

theorem fresh (config : Config) (state : σ) : Inv (fresh config state : Shared σ ρ κ) where
  books := .fresh config
  fits := nofun
  calls id := by simp [Shared.fresh, Turns.idle, Turns.HasCall, System.IsActive, System.fresh,
    System.dispatch?]

private theorem leave (hs : Inv s) {event : Gateway.Event Unit} {id : DispatchId}
    {gateway : System Unit} (hsubject : event.subject? = some id)
    (hevent : System.stops event = true ∨ ∃ result, event = .answered id result)
    (hstep : s.gateway.step? now event = some gateway) :
    Inv (⟨gateway, s.turns.leave id⟩ : Shared σ ρ κ) where
  books := hs.books.step hstep
  fits w hw := hs.fits w (Option.filter_eq_some_iff.1 hw).1
  calls x := by
    rw [Turns.hasCall_leave, System.isActive_of_stops hs.books hstep hsubject hevent, hs.calls]

private theorem update (hs : Inv s) {w : Working κ} (hw : s.turns.working = some w) {t : σ × κ}
    (hfits : Shareable.Fits s.turns.state w.call → Shareable.Fits t.1 t.2) :
    Inv { s with turns := s.turns.update t } where
  books := hs.books
  fits w' hw' := by
    rw [Turns.update, hw] at hw'
    cases hw'
    exact hfits (hs.fits w hw)
  calls x := by rw [Turns.hasCall_update, hs.calls]

/-- **Every event keeps the calls in order.** -/
theorem step (hs : Inv s) (h : s.step? now e = some t) : Inv t := by
  cases e with
  | apart event =>
    rw [step?] at h
    split_ifs at h with hevent
    obtain ⟨gateway, hstep, rfl⟩ := Option.map_eq_some_iff.1 h
    exact ⟨hs.books.step hstep, hs.fits, fun x => by
      rw [System.isActive_of_leavesDevices hs.books hstep hevent, hs.calls]⟩
  | list id listed nonce =>
    obtain ⟨gateway, hstep, rfl⟩ := Option.map_eq_some_iff.1 h
    obtain ⟨hworking, hstate⟩ := callFor_frame s.turns gateway id nonce
    refine ⟨hs.books.step hstep, fun w hw => ?_, fun x => ?_⟩
    · rw [hworking] at hw
      rw [hstate]
      exact hs.fits w hw
    · rw [hasCall_callFor, hs.calls]
      exact (System.isActive_of_enumerated hs.books hstep x).symm
  | begin id =>
    rw [step?] at h
    split at h
    · rename_i first request rest hworking hwaiting
      split_ifs at h with hfirst
      subst hfirst
      cases h
      refine ⟨hs.books, fun w hw => ?_, fun x => ?_⟩
      · simp only [Turns.begin, hworking, hwaiting, if_true, Option.some.injEq] at hw ⊢
        subst hw
        exact Shareable.fits_engage _ _
      · rw [Turns.hasCall_begin now hworking hwaiting, hs.calls]
    · cases h
  | sent result =>
    obtain ⟨w, hw, h⟩ := Option.bind_eq_some_iff.1 h
    split at h
    · cases h
      exact hs.update hw (Shareable.fits_sent _ _ _)
    · cases h
  | received result =>
    obtain ⟨w, hw, h⟩ := Option.bind_eq_some_iff.1 h
    split at h
    · cases h
      exact hs.update hw (Shareable.fits_received _ _ _)
    · cases h
  | finish =>
    obtain ⟨w, hw, h⟩ := Option.bind_eq_some_iff.1 h
    split at h
    · obtain ⟨gateway, hstep, rfl⟩ := Option.map_eq_some_iff.1 h
      exact hs.leave rfl (.inr ⟨_, rfl⟩) hstep
    · cases h
  | tire =>
    obtain ⟨w, hw, h⟩ := Option.bind_eq_some_iff.1 h
    split at h
    · split_ifs at h
      obtain ⟨gateway, hstep, rfl⟩ := Option.map_eq_some_iff.1 h
      exact hs.leave rfl (.inr ⟨_, rfl⟩) hstep
    · cases h
  | stop event =>
    obtain ⟨id, hsubject, h⟩ := Option.bind_eq_some_iff.1 h
    split_ifs at h with hevent
    obtain ⟨gateway, hstep, rfl⟩ := Option.map_eq_some_iff.1 h
    exact hs.leave hsubject (.inl hevent) hstep

theorem run {config : Config} {state : σ} {events : List (Time × Event)}
    (h : Machine.run? Machine.free (Shared.fresh config state : Shared σ ρ κ) events = some t) :
    Inv t :=
  Machine.run?_induction (fun _ _ _ hs _ hstep => step hs hstep) (fresh config state) h

end Inv

/-! ### Whose request is cancelled -/

/-- Whether the authenticator, asked to give up what it works on, writes a cancelling packet. -/
def Cancels (s : Shared σ ρ κ) : Prop :=
  ∃ packet rest, Authenticator.cancellation s.turns.state = .ok (packet :: rest)

/-- Whether the request of the call at work is out. -/
def IsOut (s : Shared σ ρ κ) (id : DispatchId) : Prop :=
  ∃ w, s.turns.working = some w ∧ w.caller = id ∧ Shareable.isOut σ w.call = true

/-- Whether another request is cancelled if the authenticator is asked for the sake of `id`. -/
def CancelsOther (s : Shared σ ρ κ) (id : DispatchId) : Prop :=
  s.Cancels ∧ ∃ other, other ≠ id ∧ s.IsOut other

namespace Inv

variable {s t : Shared σ ρ κ} {now : Time} {id : DispatchId}

theorem cancels (hs : Inv s) (hout : s.IsOut id) : s.Cancels := by
  obtain ⟨w, hw, -, hout⟩ := hout
  exact Shareable.cancels _ _ (hs.fits w hw) hout

theorem not_isOut (hs : Inv s) {d : Dispatch Unit} (hd : s.gateway.dispatch? id = some d)
    (hidle : d.activeDevice? = none) : ¬ s.IsOut id := by
  rintro ⟨w, hw, hcaller, -⟩
  obtain ⟨d', hd', hactive⟩ := (hs.calls id).1 (.inl ⟨w, hw, hcaller⟩)
  cases hd.symm.trans hd'
  rw [hidle] at hactive
  cases hactive

private theorem isOut_leave (s : Shared σ ρ κ) (gateway : System Unit) (id other : DispatchId) :
    (⟨gateway, s.turns.leave id⟩ : Shared σ ρ κ).IsOut other ↔ other ≠ id ∧ s.IsOut other := by
  simp only [IsOut, Turns.leave, Option.filter_eq_some_iff, bne_iff_ne]
  constructor
  · rintro ⟨w, ⟨hw, hne⟩, rfl, hout⟩
    exact ⟨hne, w, hw, rfl, hout⟩
  · rintro ⟨hne, w, hw, rfl, hout⟩
    exact ⟨w, ⟨hw, hne⟩, rfl, hout⟩

end Inv

private theorem cancelling_of_stop {g g' : System Unit} (hs : Books g) {now : Time}
    {event : Gateway.Event Unit} {id : DispatchId} {d : Dispatch Unit}
    (hd : g.dispatch? id = some d) (hstage : d.stage = .relaying (.exchanging ()))
    (hsubject : event.subject? = some id) (hevent : System.stops event = true)
    (hstep : g.step? now event = some g') :
    ∃ d' outcome, g'.dispatch? id = some d' ∧ d'.stage = .cancelling () outcome := by
  rcases System.step_cases hstep with ⟨id', d₀, d', table, hid', hd₀, hturn, rfl⟩ | ⟨hnone, -⟩
  · cases hsubject.symm.trans hid'
    cases hd.symm.trans hd₀
    rw [System.dispatch?_turn hs.alive hd hturn, if_pos rfl]
    cases hturn with
    | expired stage | aborted stage =>
      cases hstage.symm.trans stage
      exact ⟨_, _, rfl, rfl⟩
    | _ => cases hevent
  · rw [hsubject] at hnone
    cases hnone

/-- **When another request is cancelled.** Whenever the authenticator is asked for the sake of a
request that has stopped, it cancels another one if that is out then. Right after the stop, this is
so just if the request was waiting behind the other one; if its own request was out, that one is
cancelled, and nobody is at work. -/
theorem cancels_other_iff {config : Config} {state : σ} {events : List (Time × Event)}
    {s : Shared σ ρ κ} (hrun : Machine.run? Machine.free (fresh config state) events = some s)
    {id : DispatchId} {d : Dispatch Unit} (hd : s.gateway.dispatch? id = some d) :
    ((∃ outcome, d.stage = .cancelling () outcome) →
      (s.CancelsOther id ↔ ∃ other, s.IsOut other)) ∧
    (d.stage = .relaying (.exchanging ()) → ∀ now event t, event.subject? = some id →
      s.step? now (.stop event) = some t →
      (∃ d' outcome, t.gateway.dispatch? id = some d' ∧ d'.stage = .cancelling () outcome) ∧
      (t.CancelsOther id ↔
        ∃ other request, s.IsOut other ∧ other ≠ id ∧ (id, request) ∈ s.turns.waiting) ∧
      (s.IsOut id → t.Cancels ∧ t.turns.working = none)) := by
  have hs := Inv.run hrun
  refine ⟨?_, fun hstage now event t hsubject hstep => ?_⟩
  · rintro ⟨outcome, hstage⟩
    have hidle : ¬ s.IsOut id := hs.not_isOut hd (by rw [Dispatch.activeDevice?, hstage])
    constructor
    · rintro ⟨-, other, -, hout⟩
      exact ⟨other, hout⟩
    · rintro ⟨other, hout⟩
      refine ⟨hs.cancels hout, other, ?_, hout⟩
      rintro rfl
      exact hidle hout
  · have ht := hs.step hstep
    obtain ⟨id', hid', hstep⟩ := Option.bind_eq_some_iff.1 hstep
    cases hsubject.symm.trans hid'
    split_ifs at hstep with hevent
    obtain ⟨gateway, gstep, rfl⟩ := Option.map_eq_some_iff.1 hstep
    refine ⟨cancelling_of_stop hs.books hd hstage hsubject hevent gstep, ?_, fun hout => ?_⟩
    · constructor
      · rintro ⟨-, other, hne, hout⟩
        have hout := ((Inv.isOut_leave ..).1 hout).2
        have hactive : s.gateway.IsActive id := ⟨d, hd, by rw [Dispatch.activeDevice?, hstage]; rfl⟩
        rcases (hs.calls id).2 hactive with ⟨w, hw, hcaller⟩ | ⟨request, hwaiting⟩
        · obtain ⟨w', hw', hother, -⟩ := hout
          cases hw.symm.trans hw'
          exact absurd (hother.symm.trans hcaller) hne
        · exact ⟨other, request, hout, hne, hwaiting⟩
      · rintro ⟨other, request, hout, hne, -⟩
        have hout := (Inv.isOut_leave s gateway id other).2 ⟨hne, hout⟩
        exact ⟨ht.cancels hout, other, hne, hout⟩
    · obtain ⟨packet, rest, hcancel⟩ := hs.cancels hout
      obtain ⟨w, hw, hcaller, -⟩ := hout
      exact ⟨⟨packet, rest, hcancel⟩, by simp [Turns.leave, hw, hcaller]⟩

/-- The packet of a host that sends a message of one octet at most. -/
def hostPacket (channel : Hid.ChannelId) (command : Hid.Command) (payload : Bytes) : Bytes :=
  Hid.Packet.encode Hid.reportSize
    (.initial channel command.toByte (UInt16.ofNat payload.length) payload)

/-- The request of channel 5 goes out to an authenticator that grants channel 9. -/
def outRun : List (Time × Event) :=
  [(0, .apart (.heard (hostPacket 5 .cbor [4]) [])),
    (0, .list 0 (.ok (.ofList [()])) (Bytes.zeros Hid.nonceSize)), (0, .begin 0),
    (0, .sent (.ok ())),
    (0, .received (.ok (Hid.Packet.encode 64 (.initial Hid.broadcast Hid.Command.init.toByte 17
      (Hid.Welcome.encode ⟨Bytes.zeros Hid.nonceSize, 9, 2, [1, 0, 0], 4⟩))))),
    (0, .sent (.ok ()))]

/-- Behind it the request of channel 6 waits, until the host sends CANCEL on channel 6. -/
def queuedRun : List (Time × Event) :=
  outRun ++ [(1, .apart (.heard (hostPacket 6 .cbor [5]) [])),
    (1, .list 1 (.ok (.ofList [()])) (Bytes.zeros Hid.nonceSize)),
    (2, .apart (.heard (hostPacket 6 .cancel []) []))]

/-- The same with an authenticator behind a BLE connection. -/
def queuedBleRun : List (Time × Event) :=
  [(0, .apart (.heard (hostPacket 5 .cbor [4]) [])), (0, .list 0 (.ok (.ofList [()])) []),
    (0, .begin 0), (0, .sent (.ok ())), (1, .apart (.heard (hostPacket 6 .cbor [5]) [])),
    (1, .list 1 (.ok (.ofList [()])) []), (2, .apart (.heard (hostPacket 6 .cancel []) []))]

/-- A request that is out is cancelled when it is stopped, and no other is. -/
theorem cancels_own_alone : ∃ s t d,
    Machine.run? Machine.free (fresh .standard (Hid.HidAuthenticator.fresh 64)) outRun = some s ∧
    s.gateway.dispatch? 0 = some d ∧
    s.step? 30000 (.stop (.expired 0)) = some t ∧ t.Cancels ∧ ¬ t.CancelsOther 0 := by
  have hrun : Machine.run? Machine.free (fresh .standard (Hid.HidAuthenticator.fresh 64) :
      Shared Hid.HidAuthenticator Hid.Request Hid.Call) outRun = some _ := rfl
  have hfound := cancels_other_iff hrun (show System.dispatch? _ 0 = some _ from rfl)
  have hstop := hfound.2 rfl 30000 (.expired 0) _ rfl rfl
  refine ⟨_, _, _, hrun, rfl, rfl, (hstop.2.2 ⟨_, rfl, rfl, rfl⟩).1, fun hother => ?_⟩
  obtain ⟨other, request, -, -, hwaiting⟩ := hstop.2.1.1 hother
  cases hwaiting

/-- A request that waits cancels the one that is out. -/
theorem cancels_other_while_queued :
    (∃ s t packet, Machine.run? Machine.free (fresh .standard (Hid.HidAuthenticator.fresh 64))
        queuedRun = some s ∧ s.step? 2 (.stop (.aborted 1)) = some t ∧
      Authenticator.cancellation t.turns.state = .ok [packet] ∧
      Hid.Packet.decode packet = .ok (.initial 9 Hid.Command.cancel.toByte 0 (Bytes.zeros 57)) ∧
      t.IsOut 0 ∧ t.CancelsOther 1) ∧
    ∃ s t, Machine.run? Machine.free (fresh .standard (⟨64, 30000, 0⟩ : Ble.BleAuthenticator))
        queuedBleRun = some s ∧ s.step? 2 (.stop (.aborted 1)) = some t ∧
      Authenticator.cancellation t.turns.state = .ok (Ble.messageFrames .cancel [] 64) ∧
      t.IsOut 0 ∧ t.CancelsOther 1 := by
  refine ⟨⟨_, _, _, rfl, rfl, rfl, rfl, ⟨_, rfl, rfl, rfl⟩, ⟨_, _, rfl⟩, 0, by decide, _, rfl, rfl, rfl⟩,
    _, _, rfl, rfl, rfl, ⟨_, rfl, rfl, rfl⟩, ⟨_, _, rfl⟩, 0, by decide, _, rfl, rfl, rfl⟩

end Shared

end Gateway

end Ctap
