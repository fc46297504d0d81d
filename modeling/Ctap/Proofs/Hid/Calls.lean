import Ctap.Proofs.Hid.Invariant

/-!
# Calls behind a HID link send and fail

A call that begins sends its request at once on a ready channel, and INIT otherwise. INIT drops what
was pending on its channel, and the request is the first thing that is pending on a clean one. Where
the link fails the channel is closed. All that keeps the invariant.

## Main definitions

* `Relay.debt`: how many answers to INIT a call that begins finds ahead of its own.

## Main results

* `HidAuthenticator.dispatch_eq`, `HidAuthenticator.open_eq`: how a request and INIT go out.
* `Relay.Inv.start`, `Relay.Inv.write`, `Relay.Inv.breakOff`, `Relay.Inv.lose`, `Relay.Inv.fail`:
  steps of the call at work that keep the invariant.
-/

namespace Ctap.Hid

open Link (Conversation Move)

/-! ### What calls do -/

namespace HidAuthenticator

/-- A request goes out on a channel, or is refused for its length. -/
theorem dispatch_eq (a : HidAuthenticator) (c : ChannelId) {request : Request}
    (hrequest : request.command.isRequest = true) :
    (∃ cause, Relay.Refused a.packetSize request ∧
        a.dispatch c request = ({ a with channel := .closed }, .ended (.error (.link cause)))) ∨
      ∃ raw rest, (∀ p : Token, p.Expects c request.command.toByte request.payload raw rest) ∧
        a.dispatch c request = ({ a with channel := .busy c },
          .exchanging c (.writing raw rest (.awaiting c request.command.toByte false))) := by
  have hcommand : request.command ≠ .cancel := by
    rintro hcancel
    rw [hcancel] at hrequest
    cases hrequest
  rcases hpackets : packetize request.command c request.payload a.packetSize with cause | packets
  · refine .inl ⟨cause, ?_, by rw [dispatch, Exchange.transact, hpackets]; rfl⟩
    rw [packetize] at hpackets
    split_ifs at hpackets with hsmall hlarge
    · exact .inl hsmall
    · exact .inr hlarge
  · obtain ⟨raw, rest, rfl, -⟩ := Token.expects_packetize hcommand hpackets (Token.fresh 0)
    refine .inr ⟨raw, rest, fun p => ?_, by rw [dispatch, Exchange.transact, hpackets]; rfl⟩
    obtain ⟨raw', rest', hcons, hexpects⟩ := Token.expects_packetize hcommand hpackets p
    cases hcons
    exact hexpects

/-- INIT goes out on a channel, unless packets cannot carry it. -/
theorem open_eq (a : HidAuthenticator) (hs : ChannelId) {request : Request}
    (hnonce : request.nonce.length = nonceSize) :
    (∃ cause, a.packetSize ≤ initialHeaderSize ∧
        a.afterHandshake request (.start hs request.nonce a.packetSize) =
          ({ a with channel := .closed }, .ended (.error (.link cause)))) ∨
      ∃ raw rest, (∀ p : Token, p.Expects hs Command.init.toByte request.nonce raw rest) ∧
        a.afterHandshake request (.start hs request.nonce a.packetSize) =
          (a, .opening request
            ⟨request.nonce, .writing raw rest (.awaiting hs Command.init.toByte true)⟩) := by
  rcases hpackets : packetize .init hs request.nonce a.packetSize with cause | packets
  · refine .inl ⟨cause, ?_, by rw [Handshake.start, hpackets]; rfl⟩
    rw [packetize] at hpackets
    split_ifs at hpackets with hsmall hlarge
    · exact hsmall
    · simp only [maxPayload, initialHeaderSize, continuationHeaderSize, nonceSize] at *
      omega
  · obtain ⟨raw, rest, rfl, -⟩ := Token.expects_packetize (by decide) hpackets (Token.fresh 0)
    refine .inr ⟨raw, rest, fun p => ?_, by rw [Handshake.start, hpackets]; rfl⟩
    obtain ⟨raw', rest', hcons, hexpects⟩ := Token.expects_packetize (by decide) hpackets p
    cases hcons
    exact hexpects

/-- A packet that does not arrive ends a call and closes the channel. -/
theorem sent_error {a : HidAuthenticator} {call : Call} {raw : Bytes} (hmove : move call = .send raw)
    (cause : Link.Error) : a.sent call (.error cause) =
      ({ a with channel := .closed }, .ended (.error (.link cause))) := by
  rcases call with ⟨request, nonce, ⟨_, _ | _, _⟩ | _ | _⟩ | ⟨c, ⟨_, _ | _, _⟩ | _ | _⟩ | result
  any_goals cases hmove
  all_goals rfl

/-- A failure of the link ends a call that reads, and closes the channel. -/
theorem received_error {a : HidAuthenticator} {call : Call} (hmove : move call = .receive)
    (cause : Link.Error) : a.received call (.error cause) =
      ({ a with channel := .closed }, .ended (.error (.link cause))) := by
  rcases call with ⟨request, nonce, _ | _ | _⟩ | ⟨c, _ | _ | _⟩ | result
  any_goals cases hmove
  all_goals rfl

/-- What a packet makes of a call that reads the answer to INIT. -/
theorem received_opening (a : HidAuthenticator) (request : Request) (nonce raw : Bytes) (r : Reader) :
    a.received (.opening request ⟨nonce, .reading r⟩) (.ok raw) =
      match r.push raw with
      | .error cause => ({ a with channel := .closed }, .ended (.error (.link cause)))
      | .ok (next, none) => (a, .opening request ⟨nonce, .reading next⟩)
      | .ok (_, some payload) =>
        match Handshake.conclude nonce (.ok payload) with
        | .ok w => a.dispatch w.channel request
        | .error cause => ({ a with channel := .closed }, .ended (.error (.link cause))) := by
  rcases hpush : r.push raw with cause | ⟨next, _ | payload⟩
  · simp only [received, Conversation.received, Exchange.received, hpush]
    rfl
  · simp only [received, Conversation.received, Exchange.received, hpush]
    rfl
  · simp only [received, Conversation.received, Exchange.received, hpush, afterHandshake,
      Conversation.move, Move.map]
    rcases Handshake.conclude nonce (.ok payload) with cause | w <;> rfl

/-- What a packet makes of a call that reads the answer to its request. -/
theorem received_exchanging (a : HidAuthenticator) (c : ChannelId) (raw : Bytes) (r : Reader) :
    a.received (.exchanging c (.reading r)) (.ok raw) =
      match r.push raw with
      | .error cause => ({ a with channel := .closed }, .ended (.error (.link cause)))
      | .ok (next, none) => (a, .exchanging c (.reading next))
      | .ok (_, some payload) => ({ a with channel := .ready c }, .ended (.ok payload)) := by
  rcases hpush : r.push raw with cause | ⟨next, _ | payload⟩ <;>
    simp only [received, Exchange.received, hpush] <;> rfl

end HidAuthenticator

namespace Relay

variable {calm : Bool} {ahead : Nat} {s t : Relay}

/-! ### Steps of the call at work -/

variable {q : Token} {a : HidAuthenticator} {call call' : Call} {own : Option Nat}
  {request : Request} {c hs : ChannelId} {raw : Bytes}

/-- The call at work goes on, and with it the authenticator. -/
theorem Inv.goOn (h : Inv calm ahead s) (hcall : s.call? = some call)
    (ht : t = ({ s with peer := q, own } : Relay).goOn (a, call'))
    (hsize : q.packetSize = a.packetSize) (hsound : q.Sound calm)
    (hunspent : Unspent (s.made.map (·.nonce))
      (unsentBy (some call') ++ s.turns.waiting.map (·.2.nonce)) q)
    (hchannel : ∀ c, a.channel = .ready c ∨ a.channel = .busy c → c ∈ q.issued)
    (hready : ∀ c, a.channel = .ready c →
      q.Clean c ∧ q.inits = [] ∧ (calm = true → q.inbox = []))
    (hbusy : calm = true → ∀ c, ¬ (q.ports c).Quiet → a.channel = .busy c)
    (hstands : Stands calm ahead t (some call')) : Inv calm ahead t := by
  have hafter : t.call? = some call' := by
    rw [ht, Session.call?_goOn]
    exact congrArg (Option.map _) hcall
  refine ⟨?_, ?_, ?_, ?_, ?_, ?_, ?_, ?_, by rwa [hafter]⟩
  · rw [ht]
    exact hsize
  · rw [ht]
    exact hsound
  · rw [ht]
    exact h.waiting
  · rw [ht]
    exact h.cancels
  · rw [unsent, hafter, ht]
    exact hunspent
  · rw [ht]
    exact hchannel
  · rw [ht]
    exact hready
  · rw [ht]
    exact hbusy

/-- The call at work fails, and the channel is closed. -/
theorem Inv.close (h : Inv calm ahead s) {cause : Error} (hcall : s.call? = some call)
    (ht : t = ({ s with peer := q, own } : Relay).goOn
      ({ s.turns.state with channel := .closed }, .ended (.error cause)))
    (hcurrent : s.current = some request) (hsize : q.packetSize = s.peer.packetSize)
    (hsound : q.Sound calm)
    (hknows : ∀ n, q.Knows n → s.peer.Knows n ∨ n ∈ unsentBy (some call))
    (hquiet : calm = true → ∀ c, (q.ports c).Quiet)
    (hreason : calm = true → cause = .link .nonceMismatch ∧ 0 < ahead ∨
      Refused s.turns.state.packetSize request) : Inv calm ahead t := by
  have hunspent := h.unspent
  rw [unsent, hcall] at hunspent
  refine h.goOn hcall ht (hsize.trans h.packetSize) hsound (hunspent.give hknows) ?_ ?_ ?_ ?_
  · rintro c (hc | hc) <;> cases hc
  · intro c hc
    cases hc
  · exact fun hcalm c hpending => absurd (hquiet hcalm c) hpending
  · rw [ht]
    exact .failed hcurrent hreason

private theorem Stands.current (h : Stands calm ahead s (some call)) :
    ∃ request, s.current = some request := by
  cases h with
  | greeting opens => exact ⟨_, opens.current⟩
  | pending opens => exact ⟨_, opens.current⟩
  | greeted opens => exact ⟨_, opens.current⟩
  | misled opens => exact ⟨_, opens.current⟩
  | welcomed opens => exact ⟨_, opens.current⟩
  | asking exchanges => exact ⟨_, exchanges.current⟩
  | waiting exchanges => exact ⟨_, exchanges.current⟩
  | answered exchanges => exact ⟨_, exchanges.current⟩
  | served current => exact ⟨_, current⟩
  | failed current => exact ⟨_, current⟩

private theorem Inv.opens_issued (h : Inv calm ahead s) (hopens : Opens s request hs) :
    hs = broadcast ∨ hs ∈ s.peer.issued := by
  rcases hopens.channel with ⟨-, hbroadcast⟩ | hbusy
  · exact .inl hbroadcast
  · exact .inr (h.channel hs (.inr hbusy))

private theorem Inv.hear (h : Inv calm ahead s) (hwriting : s.writing? = some (call, raw)) :
    (s.peer.hear raw).packetSize = s.peer.packetSize ∧ (s.peer.hear raw).Sound calm ∧
      ∀ n, (s.peer.hear raw).Knows n → s.peer.Knows n ∨ n ∈ unsentBy (some call) := by
  obtain ⟨hcall, hmove⟩ := Session.writing?_eq_some.1 hwriting
  have hstands := h.stands
  rw [hcall] at hstands
  cases hstands with
  | @greeting request hs raw' rest opens expects owed =>
    cases hmove
    rcases Token.hear_expected expects with ⟨-, hq⟩ | ⟨next, more, intake, -, hq, -⟩ <;> rw [hq]
    · rw [Token.complete_init]
      refine ⟨rfl, ?_, ?_⟩
      · have hsound := h.sound.complete_init (h.opens_issued opens) opens.nonce
        rwa [Token.complete_init] at hsound
      · rintro n (⟨c, hc⟩ | hw)
        · rcases List.mem_append.1 hc with hc | hc
          · exact .inl (.inl ⟨c, hc⟩)
          · rw [List.mem_singleton] at hc
            cases hc
            exact .inr (List.mem_singleton_self _)
        · exact .inl (.inr hw)
    · exact ⟨rfl, h.sound.intake hs intake, fun n hn => .inl hn⟩
  | @asking request c raw' rest exchanges expects clean owed =>
    cases hmove
    have hissued := h.channel c (.inr exchanges.channel)
    rcases Token.hear_expected expects with ⟨-, hq⟩ | ⟨next, more, intake, -, hq, -⟩ <;> rw [hq]
    · have hsound := h.sound.complete_request hissued exchanges.command request.payload
      rw [Token.complete_request _ _ exchanges.command] at hsound ⊢
      exact ⟨rfl, hsound, fun n hn => .inl hn⟩
    · exact ⟨rfl, h.sound.intake c intake, fun n hn => .inl hn⟩
  | _ => cases hmove

/-- A failure of the link ends the call at work. -/
theorem Inv.broken (h : Inv calm ahead s) {cause : Error} (hcalm : (!calm) = true)
    (hcall : s.call? = some call)
    (ht : t = ({ s with peer := q, own } : Relay).goOn
      ({ s.turns.state with channel := .closed }, .ended (.error cause)))
    (hsize : q.packetSize = s.peer.packetSize) (hsound : q.Sound calm)
    (hknows : ∀ n, q.Knows n → s.peer.Knows n ∨ n ∈ unsentBy (some call)) : Inv calm ahead t := by
  have hstands := h.stands
  rw [hcall] at hstands
  obtain ⟨request, hcurrent⟩ := hstands.current
  have hnever : calm ≠ true := by
    rwa [Bool.not_eq_true', ← Bool.not_eq_true] at hcalm
  exact h.close hcall ht hcurrent hsize hsound hknows (absurd · hnever) (absurd · hnever)

/-- **The link fails while the call at work sends a packet**, which may have come through. -/
theorem Inv.breakOff (h : Inv calm ahead s) {cause : Link.Error}
    (hpermits : permits calm s (.breakOff () cause) = true)
    (hstep : s.step? (.breakOff () cause) = some t) : Inv calm ahead t := by
  obtain ⟨call, raw, q, hwriting, hhear, ht⟩ := Session.step?_breakOff.1 hstep
  obtain ⟨hcall, hmove⟩ := Session.writing?_eq_some.1 hwriting
  cases hhear
  obtain ⟨hsize, hsound, hknows⟩ := h.hear hwriting
  replace ht := ht.trans (congrArg _ (HidAuthenticator.sent_error hmove cause))
  exact h.broken hpermits hcall ht hsize hsound hknows

theorem Inv.lose (h : Inv calm ahead s) {cause : Link.Error}
    (hpermits : permits calm s (.lose cause) = true) (hstep : s.step? (.lose cause) = some t) :
    Inv calm ahead t := by
  obtain ⟨call, raw, hwriting, ht⟩ := Session.step?_lose.1 hstep
  obtain ⟨hcall, hmove⟩ := Session.writing?_eq_some.1 hwriting
  replace ht := ht.trans (congrArg _ (HidAuthenticator.sent_error hmove cause))
  exact h.broken hpermits hcall ht rfl h.sound fun n hn => .inl hn

theorem Inv.fail (h : Inv calm ahead s) {cause : Link.Error}
    (hpermits : permits calm s (.fail cause) = true) (hstep : s.step? (.fail cause) = some t) :
    Inv calm ahead t := by
  obtain ⟨call, hreading, ht⟩ := Session.step?_fail.1 hstep
  obtain ⟨hcall, hmove⟩ := Session.reading?_eq_some.1 hreading
  replace ht := ht.trans (congrArg _ (HidAuthenticator.received_error hmove cause))
  exact h.broken hpermits hcall ht rfl h.sound fun n hn => .inl hn

private theorem Inv.send_more (h : Inv calm ahead s) {intake : Option (UInt8 × Reader)}
    (hcall : s.call? = some call) (hq : q = s.peer.withPort c { s.peer.ports c with intake })
    (ht : t = ({ s with peer := q, own } : Relay).goOn (s.turns.state, call'))
    (hsame : unsentBy (some call') = unsentBy (some call))
    (hready : ∀ c, s.turns.state.channel ≠ .ready c)
    (hstands : Stands calm ahead t (some call')) : Inv calm ahead t := by
  have hunspent := h.unspent
  rw [unsent, hcall, ← hsame] at hunspent
  refine h.goOn hcall ht ?_ ?_ (hunspent.keep fun n hn => by rwa [hq] at hn) ?_ ?_ ?_ hstands
  · rw [hq]
    exact h.packetSize
  · rw [hq]
    exact h.sound.intake c intake
  · rw [hq]
    exact h.channel
  · exact fun c hc => absurd hc (hready c)
  · intro hcalm c' hpending
    rw [hq, Token.quiet_intake] at hpending
    exact h.busy hcalm c' hpending

/-- **INIT has come in full**: it drops what was pending on its channel, and is to be answered. -/
private theorem Inv.send_init (h : Inv calm ahead s)
    (hwriting : s.writing? = some (.opening request
      ⟨request.nonce, .writing raw [] (.awaiting hs Command.init.toByte true)⟩, raw))
    (hopens : Opens s request hs) (howed : s.peer.owed hs = ahead)
    (hq : s.peer.hear raw = s.peer.complete hs Command.init.toByte request.nonce)
    (ht : t = ({ s with peer := s.peer.hear raw, own } : Relay).goOn (s.turns.state,
      .opening request ⟨request.nonce, .reading (.awaiting hs Command.init.toByte true)⟩)) :
    Inv calm ahead t := by
  obtain ⟨hcall, -⟩ := Session.writing?_eq_some.1 hwriting
  obtain ⟨hsize, hsound, hknows⟩ := h.hear hwriting
  have hunspent := h.unspent
  rw [unsent, hcall] at hunspent
  rw [Token.complete_init] at hq
  have hport : (s.peer.hear raw).ports hs = .idle := by
    rw [hq]
    exact Token.withPort_self ..
  refine h.goOn hcall ht (hsize.trans h.packetSize) hsound (hunspent.give hknows) ?_ ?_ ?_ ?_
  · rw [hq]
    exact h.channel
  · exact fun c hc => absurd hc (hopens.not_ready c)
  · intro hcalm c hpending
    by_cases hc : c = hs
    · rw [hc, hport] at hpending
      exact absurd ⟨rfl, rfl⟩ hpending
    · rw [hq, show (s.peer.withPort hs .idle).ports c = _ from Token.withPort_other _ hc _]
        at hpending
      exact h.busy hcalm c hpending
  · have hunknown : ¬ s.peer.Knows request.nonce :=
      hunspent.unknown _ (List.mem_append_left _ (List.mem_singleton_self _))
    have hmine : (s.peer.hear raw).inits = s.peer.inits ++ [(hs, request.nonce)] := by rw [hq]
    have hmail : (s.peer.hear raw).mail = s.peer.mail := by rw [hq]; rfl
    rw [ht]
    refine .pending (hopens.mono rfl rfl) ?_ hmine ?_ ?_ ?_
    · change ((s.peer.hear raw).ports hs).Quiet
      rw [hport]
      exact ⟨rfl, rfl⟩
    · rintro ⟨c, n⟩ hi rfl
      exact hunknown (.inl ⟨c, hi⟩)
    · rintro c w hw hnonce
      exact hunknown (.inr ⟨c, w, hmail ▸ hw, hnonce⟩)
    · change _ + (s.peer.hear raw).mail.countP _ = ahead
      rw [hmail]
      exact howed

/-- **The request has come in full**: it is all that is pending on its channel. -/
private theorem Inv.send_request (h : Inv calm ahead s)
    (hwriting : s.writing? = some (.exchanging c
      (.writing raw [] (.awaiting c request.command.toByte false)), raw))
    (hexchanges : Exchanges calm s request c) (hclean : s.peer.Clean c) (howed : ahead = 0)
    (hq : s.peer.hear raw = s.peer.complete c request.command.toByte request.payload)
    (ht : t = (s.handOver (s.peer.hear raw)).goOn (s.turns.state,
      .exchanging c (.reading (.awaiting c request.command.toByte false)))) : Inv calm ahead t := by
  obtain ⟨hcall, -⟩ := Session.writing?_eq_some.1 hwriting
  obtain ⟨hsize, hsound, -⟩ := h.hear hwriting
  have hunspent := h.unspent
  rw [unsent, hcall] at hunspent
  rw [Token.complete_request _ _ hexchanges.command] at hq
  have hport : (s.peer.hear raw).ports c = { s.peer.ports c with
      intake := none
      debts := [(s.peer.requests.length, request.command.toByte)] } := by
    rw [hq, show (s.peer.withPort c _).ports c = _ from Token.withPort_self .., hclean.1.1]
    rfl
  have hqueued : (s.peer.hear raw).queued c = [] := by
    rw [hq]
    exact hclean.2
  refine h.goOn hcall ht (hsize.trans h.packetSize) hsound
    (hunspent.keep fun n hn => by rwa [hq] at hn) ?_ ?_ ?_ ?_
  · rw [hq]
    exact h.channel
  · exact fun c' hc => absurd hc (hexchanges.not_ready c')
  · intro hcalm c' hpending
    by_cases hc : c' = c
    · rw [hc]
      exact hexchanges.channel
    · rw [hq, show (s.peer.withPort c _).ports c' = _ from Token.withPort_other _ hc _] at hpending
      exact h.busy hcalm c' hpending
  · have hrequests : (s.peer.hear raw).requests =
        s.peer.requests ++ [(c, request.command.toByte, request.payload)] := by rw [hq]
    -- One more request has come in full, so its number is recorded as that of the call.
    have howns : Owns t request c s.peer.requests.length := by
      rw [ht]
      refine ⟨if_neg ?_, ?_⟩
      · change (s.peer.hear raw).requests.length ≠ s.peer.requests.length
        rw [hrequests, List.length_append, List.length_singleton]
        omega
      · change (s.peer.hear raw).requests[s.peer.requests.length]? = _
        rw [hrequests]
        exact List.getElem?_concat_length
    have hpeer : t.peer = s.peer.hear raw := by rw [ht]; rfl
    have hexchanges' : Exchanges calm t request c := by
      refine hexchanges.mono (by rw [ht]; rfl) (by rw [ht]; rfl) ?_ ?_
      · rw [hpeer, hq]
        rfl
      · rw [hpeer, hq]
        exact fun _ => id
    refine .waiting hexchanges' howns ?_ ?_ rfl rfl ?_ howed
    · rw [hpeer, hport]
    · rw [hpeer, hport]
      exact hclean.1.2
    · rw [hpeer, hqueued]
      rfl

/-- **The next packet of the call at work comes to the token.** -/
theorem Inv.write (h : Inv calm ahead s) (hstep : s.step? (.write ()) = some t) :
    Inv calm ahead t := by
  obtain ⟨call, raw, q, hwriting, hhear, ht⟩ := Session.step?_write.1 hstep
  obtain ⟨hcall, hmove⟩ := Session.writing?_eq_some.1 hwriting
  cases hhear
  have hstands := h.stands
  rw [hcall] at hstands
  cases hstands with
  | @greeting request hs raw' rest opens expects owed =>
    cases hmove
    rcases Token.hear_expected expects with
      ⟨rfl, hq⟩ | ⟨next, more, intake, rfl, hq, hexpects⟩
    · exact h.send_init hwriting opens owed hq ht
    · refine h.send_more hcall hq ht rfl opens.not_ready ?_
      rw [ht]
      refine .greeting (opens.mono rfl rfl) hexpects ?_
      change (s.peer.hear raw).owed hs = ahead
      rw [hq]
      exact owed
  | @asking request c raw' rest exchanges expects clean owed =>
    cases hmove
    rcases Token.hear_expected expects with
      ⟨rfl, hq⟩ | ⟨next, more, intake, rfl, hq, hexpects⟩
    · exact h.send_request hwriting exchanges clean owed hq ht
    · refine h.send_more hcall hq ht rfl exchanges.not_ready ?_
      have hpeer : t.peer = s.peer.hear raw := by rw [ht]; rfl
      refine .asking (exchanges.mono (by rw [ht]; rfl) (by rw [ht]; rfl) ?_ ?_) ?_ ?_ owed
      · rw [hpeer, hq]
        rfl
      · rw [hpeer, hq]
        exact fun _ => id
      · rw [hpeer]
        exact hexpects
      · rw [hpeer, hq]
        exact ⟨(Token.quiet_intake ..).2 clean.1, clean.2⟩
  | _ => cases hmove

/-! ### Beginning a call -/

/-- How many answers to INIT a call that begins finds ahead of its own. -/
def debt (s : Relay) : Nat :=
  match s.turns.state.channel with
  | .closed => s.peer.owed broadcast
  | .busy c => s.peer.owed c
  | .ready _ => 0

private theorem Inv.begin {ahead' : Nat} (h : Inv calm ahead s) {now : Time} {caller : Caller}
    {rest : List (Caller × Request)} (hidle : s.turns.working = none)
    (hwaiting : s.turns.waiting = (caller, request) :: rest)
    (ht : t = { s with
      turns := ⟨a, some ⟨caller, now, call⟩, rest⟩
      current := some request
      own := none })
    (hsize : a.packetSize = s.turns.state.packetSize)
    (hunsent : (unsentBy (some call)).Sublist [request.nonce])
    (hchannel : ∀ c, a.channel = .ready c ∨ a.channel = .busy c → c ∈ s.peer.issued)
    (hready : ∀ c, a.channel ≠ .ready c)
    (hbusy : calm = true → ∀ c, ¬ (s.peer.ports c).Quiet → a.channel = .busy c)
    (hstands : Stands calm ahead' t (some call)) : Inv calm ahead' t := by
  have hnone : s.call? = none := by rw [Session.call?, hidle, Option.map_none]
  have hafter : t.call? = some call := by rw [ht]; rfl
  have hunspent := h.unspent
  rw [unsent, hnone, hwaiting] at hunspent
  refine ⟨?_, ?_, ?_, ?_, ?_, ?_, ?_, ?_, ?_⟩
  · rw [ht]
    exact h.packetSize.trans hsize.symm
  · rw [ht]
    exact h.sound
  · rw [ht]
    intro w hw
    exact h.waiting w (by rw [hwaiting]; exact List.mem_cons_of_mem _ hw)
  · rw [ht]
    exact h.cancels
  · rw [unsent, hafter, ht]
    exact hunspent.sublist (hunsent.append (List.Sublist.refl _))
  · rw [ht]
    exact hchannel
  · rw [ht]
    exact fun c hc => absurd hc (hready c)
  · rw [ht]
    exact hbusy
  · rwa [hafter]

/-- **A call begins**: at once on a ready channel, and with INIT otherwise. -/
theorem Inv.start (h : Inv calm ahead s) {now : Time} {caller : Caller}
    (hstep : s.step? (.start now caller) = some t) : Inv calm s.debt t := by
  obtain ⟨request, rest, hidle, hwaiting, ht⟩ := Session.step?_start.1 hstep
  obtain ⟨hrequest, hnonce⟩ := h.waiting (caller, request) (by rw [hwaiting]; exact List.mem_cons_self ..)
  have hengage : Authenticator.engage s.turns.state request = s.turns.state.engage request := rfl
  rw [hengage, HidAuthenticator.engage] at ht
  rw [debt]
  cases hchannel : s.turns.state.channel with
  | ready c =>
    obtain ⟨hclean, hinits, hinbox⟩ := h.ready c hchannel
    have hall : calm = true → ∀ c, (s.peer.ports c).Quiet := by
      intro hcalm c
      by_contra hpending
      have hbusy := h.busy hcalm c hpending
      rw [hchannel] at hbusy
      cases hbusy
    simp only [hchannel] at ht ⊢
    rcases s.turns.state.dispatch_eq c hrequest with
      ⟨cause, hrefused, hdispatch⟩ | ⟨raw, more, hexpects, hdispatch⟩
    · rw [hdispatch] at ht
      refine h.begin hidle hwaiting ht rfl (List.nil_sublist _) ?_ ?_ ?_ ?_
      · rintro c (hc | hc) <;> cases hc
      · exact fun c => Channel.noConfusion
      · exact fun hcalm c hpending => absurd (hall hcalm c) hpending
      · rw [ht]
        exact .failed rfl fun _ => .inr hrefused
    · rw [hdispatch] at ht
      refine h.begin hidle hwaiting ht rfl (List.nil_sublist _) ?_ ?_ ?_ ?_
      · rintro c (hc | hc) <;> cases hc
        exact h.channel _ (.inl hchannel)
      · exact fun c => Channel.noConfusion
      · exact fun hcalm c hpending => absurd (hall hcalm c) hpending
      · rw [ht]
        refine .asking ⟨rfl, hrequest, rfl, hinits, fun hcalm raw' hraw => ?_⟩ (hexpects s.peer) hclean
          rfl
        change raw' ∈ s.peer.inbox at hraw
        rw [hinbox hcalm] at hraw
        cases hraw
  | busy c =>
    simp only [hchannel] at ht ⊢
    rcases s.turns.state.open_eq c hnonce with
      ⟨cause, hsmall, hopen⟩ | ⟨raw, more, hexpects, hopen⟩
    · -- Channels are granted in packets that hold a header.
      have hsize := h.sound.size (List.ne_nil_of_mem (h.channel c (.inr hchannel)))
      rw [h.packetSize] at hsize
      exact absurd hsmall (Nat.not_le.2 hsize)
    · rw [hopen] at ht
      refine h.begin hidle hwaiting ht rfl (List.Sublist.refl _) h.channel ?_ h.busy ?_
      · rw [hchannel]
        exact fun c => Channel.noConfusion
      · rw [ht]
        exact .greeting ⟨rfl, hrequest, hnonce, .inr hchannel⟩ (hexpects s.peer) rfl
  | closed =>
    simp only [hchannel] at ht ⊢
    rcases s.turns.state.open_eq broadcast hnonce with
      ⟨cause, hsmall, hopen⟩ | ⟨raw, more, hexpects, hopen⟩
    · rw [hopen] at ht
      refine h.begin hidle hwaiting ht rfl (List.nil_sublist _) ?_ ?_ ?_ ?_
      · rintro c (hc | hc) <;> cases hc
      · exact fun c => Channel.noConfusion
      · intro hcalm c hpending
        rw [← hchannel]
        exact h.busy hcalm c hpending
      · rw [ht]
        exact .failed rfl fun _ => .inr (.inl hsmall)
    · rw [hopen] at ht
      refine h.begin hidle hwaiting ht rfl (List.Sublist.refl _) h.channel ?_ h.busy ?_
      · rw [hchannel]
        exact fun c => Channel.noConfusion
      · rw [ht]
        exact .greeting ⟨rfl, hrequest, hnonce, .inl ⟨hchannel, rfl⟩⟩ (hexpects s.peer) rfl

end Relay

end Ctap.Hid
