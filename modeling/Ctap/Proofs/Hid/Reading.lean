import Ctap.Proofs.Hid.Calls

/-!
# Calls behind a HID link read

A handshake passes over what is left of an earlier answer, and ends at the first answer to INIT on
its channel: with its own nonce that grants a clean channel, and with another one the call fails. On
its channel a call reads keepalives and then the answer to its own request. Where it takes a packet of
another channel it fails.

## Main results

* `Relay.Inv.take`: taking a packet keeps the invariant.
-/

namespace Ctap.Hid

namespace Relay

variable {calm : Bool} {ahead : Nat} {s t : Relay} {q : Token} {request : Request}
  {c hs : ChannelId} {raw : Bytes}

/-! ### Reading the answer to INIT -/

theorem exists_of_next? {p : Token} (h : p.next? = some (raw, q)) :
    ∃ front mail, q = { p with front, mail } := by
  rcases Token.next?_eq_some.1 h with ⟨front, -, hq⟩ | ⟨-, letter, mail, front, -, -, hq⟩
  · exact ⟨front, p.mail, hq⟩
  · exact ⟨front, mail, hq⟩

private theorem Inv.next (h : Inv calm ahead s) (hnext : s.peer.next? = some (raw, q)) :
    q.Sound calm ∧ (∀ n, q.Knows n → s.peer.Knows n) ∧
      ∃ front mail, q = { s.peer with front, mail } :=
  ⟨h.sound.next? hnext, fun _ => Token.knows_of_next? hnext, exists_of_next? hnext⟩

private theorem Inv.all_quiet (h : Inv calm ahead s) (hopens : Opens s request hs)
    (hquiet : (s.peer.ports hs).Quiet) (hcalm : calm = true) (c : ChannelId) :
    (s.peer.ports c).Quiet := by
  by_contra hpending
  have hbusy := h.busy hcalm c hpending
  rcases hopens.channel with ⟨hclosed, -⟩ | hbusy'
  · rw [hclosed] at hbusy
    cases hbusy
  · rw [hbusy'] at hbusy
    cases hbusy
    exact hpending hquiet

private theorem push_front {p : Token} (h : p.Sound calm) (hraw : raw ∈ p.front) (hs : ChannelId) :
    (Reader.awaiting hs Command.init.toByte true).push raw =
      .ok (.awaiting hs Command.init.toByte true, none) := by
  obtain ⟨c, seq, data, hdecode, -⟩ := h.front raw hraw
  exact Reader.push_discard hdecode rfl

/-- A letter is passed over by whoever reads the answer to INIT, or it is an error message, or it is
an answer to INIT on its channel. -/
private theorem push_letter {p : Token} (h : p.Sound calm) {letter : Letter} (hletter : letter ∈ p.mail)
    {front : List Bytes} (hpackets : letter.packets p.packetSize = raw :: front) (hs : ChannelId) :
    (letter.greets hs = false ∧ (Reader.awaiting hs Command.init.toByte true).push raw =
        .ok (.awaiting hs Command.init.toByte true, none)) ∨
      (calm = false ∧ ∃ cause,
        (Reader.awaiting hs Command.init.toByte true).push raw = .error cause) ∨
      ∃ w, letter = .welcome hs w ∧ w.nonce.length = nonceSize ∧ w.deviceVersion.length = 3 ∧
        (Reader.awaiting hs Command.init.toByte true).feed (raw :: front) = .gave w.encode [] := by
  cases letter with
  | packet raw' =>
    cases hpackets
    obtain ⟨c, -, packet, hdecode, hc, hstray⟩ := h.packets raw hletter
    cases hopens : Reader.opensHandshake hs packet with
    | false => exact .inl ⟨rfl, Reader.push_discard hdecode hopens⟩
    | true =>
      have hhs : packet.channel = hs := by
        cases packet with
        | initial =>
          simp only [Reader.opensHandshake, Bool.and_eq_true, beq_iff_eq] at hopens
          exact hopens.1
        | continuation => cases hopens
      rw [← hc, hhs] at hstray
      obtain ⟨hcalm, length, data, hpacket⟩ := hstray hopens
      rw [hpacket] at hdecode
      exact .inr (.inl ⟨hcalm, _, Reader.push_error hdecode (by decide)⟩)
  | welcome c w =>
    obtain ⟨-, hnonce, hversion, hsize⟩ := h.welcomes c w hletter
    obtain ⟨first, rest, hall, ⟨length, data, hfirst⟩, -, hfeed⟩ :=
      Token.packets_welcome hnonce hversion hsize c
    rw [hall] at hpackets
    cases hpackets
    by_cases hc : c = hs
    · subst hc
      exact .inr (.inr ⟨w, rfl, hnonce, hversion, hfeed⟩)
    · have hother : (c == hs) = false := beq_eq_false_iff_ne.2 hc
      refine .inl ⟨hother, Reader.push_discard hfirst ?_⟩
      rw [Reader.opensHandshake, hother, Bool.false_and]

private theorem Inv.readOn (h : Inv calm ahead s) {call call' : Call} (hcall : s.call? = some call)
    (hnext : s.peer.next? = some (raw, q))
    (ht : t = ({ s with peer := q } : Relay).goOn (s.turns.state, call'))
    (hsame : unsentBy (some call') = unsentBy (some call))
    (hready : ∀ c, s.turns.state.channel ≠ .ready c)
    (hstands : Stands calm ahead t (some call')) : Inv calm ahead t := by
  have hunspent := h.unspent
  rw [unsent, hcall, ← hsame] at hunspent
  obtain ⟨hsound, hknows, front, mail, hq⟩ := h.next hnext
  refine h.goOn hcall ht ?_ hsound (hunspent.keep hknows) ?_ ?_ ?_ hstands
  · rw [hq]
    exact h.packetSize
  · rw [hq]
    exact h.channel
  · exact fun c hc => absurd hc (hready c)
  · rw [hq]
    exact h.busy

private theorem Inv.refuse (h : Inv calm ahead s) {call : Call} {cause : Error}
    (hcall : s.call? = some call) (hcalm : calm = false) (hnext : s.peer.next? = some (raw, q))
    (ht : t = ({ s with peer := q } : Relay).goOn
      ({ s.turns.state with channel := .closed }, .ended (.error cause))) : Inv calm ahead t := by
  obtain ⟨hsound, hknows, front, mail, hq⟩ := h.next hnext
  exact h.broken (by rw [hcalm]; rfl) hcall ht (by rw [hq]) hsound fun n hn => .inl (hknows n hn)

private theorem Inv.mislead (h : Inv calm ahead s) {r : Reader} {w : Welcome}
    (hcall : s.call? = some (.opening request ⟨request.nonce, .reading r⟩))
    (hopens : Opens s request hs) (hquiet : (s.peer.ports hs).Quiet)
    (hfeed : r.feed (raw :: q.front) = .gave w.encode []) (hnonce : w.nonce.length = nonceSize)
    (hversion : w.deviceVersion.length = 3) (hother : w.nonce ≠ request.nonce) (howed : 0 < ahead)
    (hnext : s.peer.next? = some (raw, q))
    (ht : t = ({ s with peer := q } : Relay).goOn (HidAuthenticator.received s.turns.state
      (.opening request ⟨request.nonce, .reading r⟩) (.ok raw))) : Inv calm ahead t := by
  obtain ⟨hsound, hknows, front, mail, hq⟩ := h.next hnext
  have hall := h.all_quiet hopens hquiet
  rw [HidAuthenticator.received_opening] at ht
  obtain ⟨_, _, hcons, ⟨next, hpush, -⟩ | ⟨next, hpush, hmore⟩⟩ := Reader.feed_eq_gave hfeed
  · cases hcons
    simp only [hpush, Handshake.conclude, Welcome.decode_encode hnonce hversion, if_neg hother] at ht
    refine h.close hcall ht hopens.current (by rw [hq]) hsound (fun n hn => .inl (hknows n hn)) ?_
      fun _ => .inl ⟨rfl, howed⟩
    rw [hq]
    exact hall
  · cases hcons
    simp only [hpush] at ht
    refine h.readOn hcall hnext ht rfl hopens.not_ready ?_
    rw [ht]
    refine .misled (hopens.mono rfl rfl) ?_ hmore hnonce hversion hother howed
    change (q.ports hs).Quiet
    rw [hq]
    exact hquiet

/-- **The call takes a packet of the answer to its INIT**, and asks on the channel that is granted
with the last of them. -/
private theorem Inv.welcome (h : Inv calm ahead s) {r : Reader} {w : Welcome}
    (hcall : s.call? = some (.opening request ⟨request.nonce, .reading r⟩))
    (hopens : Opens s request hs) (hquiet : (s.peer.ports hs).Quiet)
    (hfeed : r.feed (raw :: q.front) = .gave w.encode []) (hmine : w.nonce = request.nonce)
    (hgrants : Grants calm { s with peer := q } hs w q.mail) (howed : ahead = 0)
    (hnext : s.peer.next? = some (raw, q))
    (ht : t = ({ s with peer := q } : Relay).goOn (HidAuthenticator.received s.turns.state
      (.opening request ⟨request.nonce, .reading r⟩) (.ok raw))) : Inv calm ahead t := by
  have hunspent := h.unspent
  rw [unsent, hcall] at hunspent
  obtain ⟨hsound, hknows, front, mail, hq⟩ := h.next hnext
  have hall : calm = true → ∀ c, (q.ports c).Quiet := by
    rw [hq]
    exact h.all_quiet hopens hquiet
  have hsize : q.packetSize = s.peer.packetSize := by rw [hq]
  rw [HidAuthenticator.received_opening] at ht
  obtain ⟨_, _, hcons, ⟨next, hpush, hfront⟩ | ⟨next, hpush, hmore⟩⟩ := Reader.feed_eq_gave hfeed
  · cases hcons
    simp only [hpush, Handshake.conclude, Welcome.decode_encode hgrants.nonce hgrants.version,
      if_pos hmine] at ht
    rcases HidAuthenticator.dispatch_eq s.turns.state w.channel hopens.command with
      ⟨cause, hrefused, hdispatch⟩ | ⟨first, rest, hexpects, hdispatch⟩
    · rw [hdispatch] at ht
      exact h.close hcall ht hopens.current hsize hsound (fun n hn => .inl (hknows n hn)) hall
        fun _ => .inr hrefused
    · rw [hdispatch] at ht
      have hinbox : q.inbox = q.mail.flatMap (Letter.packets q.packetSize) := by
        rw [Token.inbox, hfront, List.nil_append]
      refine h.goOn hcall ht (hsize.trans h.packetSize) hsound (hunspent.keep hknows) ?_ ?_ ?_ ?_
      · rintro c (hc | hc) <;> cases hc
        exact hgrants.issued
      · intro c hc
        cases hc
      · exact fun hcalm c hpending => absurd (hall hcalm c) hpending
      · rw [ht]
        refine .asking ⟨hopens.current, hopens.command, rfl, hgrants.inits, fun hcalm raw' hraw => ?_⟩
          (hexpects q) ⟨hgrants.quiet, ?_⟩ howed
        · change raw' ∈ q.inbox at hraw
          rw [hinbox, hgrants.last hcalm] at hraw
          cases hraw
        -- Nothing behind the welcome is on the channel that it grants.
        · change q.queued w.channel = []
          rw [Token.queued, hinbox, List.filter_eq_nil_iff]
          exact fun raw' hraw => Bool.eq_false_iff.1 (hgrants.free raw' hraw)
  · cases hcons
    simp only [hpush] at ht
    refine h.readOn hcall hnext ht rfl hopens.not_ready ?_
    rw [ht]
    refine .welcomed (hopens.mono rfl rfl) ?_ hmore hmine ?_ howed
    · change (q.ports hs).Quiet
      rw [hq]
      exact hquiet
    · exact hgrants.mono ⟨_, _, rfl⟩

private theorem received_discard {a : HidAuthenticator} {r : Reader}
    (hpush : r.push raw = .ok (r, none)) :
    a.received (.opening request ⟨request.nonce, .reading r⟩) (.ok raw) =
      (a, .opening request ⟨request.nonce, .reading r⟩) := by
  rw [HidAuthenticator.received_opening, hpush]

private theorem received_refused {a : HidAuthenticator} {r : Reader} {cause : Link.Error}
    (hpush : r.push raw = .error cause) :
    a.received (.opening request ⟨request.nonce, .reading r⟩) (.ok raw) =
      ({ a with channel := .closed }, .ended (.error (.link cause))) := by
  rw [HidAuthenticator.received_opening, hpush]

/-- **A call that waits for the answer to INIT takes a packet** while the answer is not on its way. -/
private theorem Inv.take_pending (h : Inv calm ahead s) {older : List (ChannelId × Bytes)}
    (hcall : s.call? = some
      (.opening request ⟨request.nonce, .reading (.awaiting hs Command.init.toByte true)⟩))
    (hopens : Opens s request hs) (hquiet : (s.peer.ports hs).Quiet)
    (hmine : s.peer.inits = older ++ [(hs, request.nonce)])
    (hothers : ∀ i ∈ older, i.2 ≠ request.nonce)
    (hwelcomes : ∀ c w, Letter.welcome c w ∈ s.peer.mail → w.nonce ≠ request.nonce)
    (howed : older.countP (·.1 == hs) + s.peer.mail.countP (Letter.greets hs) = ahead)
    (hnext : s.peer.next? = some (raw, q))
    (ht : t = ({ s with peer := q } : Relay).goOn (HidAuthenticator.received s.turns.state
      (.opening request ⟨request.nonce, .reading (.awaiting hs Command.init.toByte true)⟩)
      (.ok raw))) : Inv calm ahead t := by
  rcases Token.next?_eq_some.1 hnext with ⟨front, hfront, hq⟩ |
    ⟨-, letter, mail, front, hmail, hpackets, hq⟩
  · have hpush := push_front h.sound (by rw [hfront]; exact List.mem_cons_self ..) hs
    rw [received_discard hpush] at ht
    refine h.readOn hcall hnext ht rfl hopens.not_ready ?_
    rw [ht, hq]
    exact .pending (hopens.mono rfl rfl) hquiet hmine hothers hwelcomes howed
  · have hletter : letter ∈ s.peer.mail := by simp [hmail]
    rw [hmail, List.countP_cons] at howed
    rcases push_letter h.sound hletter hpackets hs with
      ⟨hgreets, hpush⟩ | ⟨hcalm, cause, hpush⟩ | ⟨w, rfl, hnonce, hversion, hfeed⟩
    · rw [received_discard hpush] at ht
      refine h.readOn hcall hnext ht rfl hopens.not_ready ?_
      rw [ht, hq]
      refine .pending (hopens.mono rfl rfl) hquiet hmine hothers (fun c w hw => ?_) ?_
      · exact hwelcomes c w (by rw [hmail]; exact List.mem_cons_of_mem _ hw)
      · rw [hgreets] at howed
        exact howed
    · rw [received_refused hpush] at ht
      exact h.refuse hcall hcalm hnext ht
    · have hahead : 0 < ahead := by
        rw [Letter.greets, beq_self_eq_true, if_pos rfl] at howed
        omega
      refine h.mislead hcall hopens hquiet ?_ hnonce hversion (hwelcomes hs w hletter) hahead hnext ht
      rw [hq]
      exact hfeed

/-- **A call that waits for the answer to INIT takes a packet** while the answer is on its way. -/
private theorem Inv.take_greeted (h : Inv calm ahead s) {before behind : List Letter} {w : Welcome}
    (hcall : s.call? = some
      (.opening request ⟨request.nonce, .reading (.awaiting hs Command.init.toByte true)⟩))
    (hopens : Opens s request hs) (hquiet : (s.peer.ports hs).Quiet)
    (hmail : s.peer.mail = before ++ .welcome hs w :: behind)
    (hothers : ∀ c w, Letter.welcome c w ∈ before → w.nonce ≠ request.nonce)
    (hmine : w.nonce = request.nonce) (hgrants : Grants calm s hs w behind)
    (howed : before.countP (Letter.greets hs) = ahead)
    (hnext : s.peer.next? = some (raw, q))
    (ht : t = ({ s with peer := q } : Relay).goOn (HidAuthenticator.received s.turns.state
      (.opening request ⟨request.nonce, .reading (.awaiting hs Command.init.toByte true)⟩)
      (.ok raw))) : Inv calm ahead t := by
  rcases Token.next?_eq_some.1 hnext with ⟨front, hfront, hq⟩ |
    ⟨-, letter, mail, front, hmail', hpackets, hq⟩
  · have hpush := push_front h.sound (by rw [hfront]; exact List.mem_cons_self ..) hs
    rw [received_discard hpush] at ht
    refine h.readOn hcall hnext ht rfl hopens.not_ready ?_
    rw [ht, hq]
    exact .greeted (hopens.mono rfl rfl) hquiet hmail hothers hmine (hgrants.mono ⟨_, _, rfl⟩) howed
  · have hletter : letter ∈ s.peer.mail := by simp [hmail']
    rw [hmail'] at hmail
    rcases before with _ | ⟨first, before⟩
    · -- The answer itself comes next.
      obtain ⟨rfl, rfl⟩ := List.cons.inj hmail
      obtain ⟨-, -, -, hsize⟩ := h.sound.welcomes hs w hletter
      obtain ⟨raw', rest, hall, -, -, hfeed⟩ :=
        Token.packets_welcome hgrants.nonce hgrants.version hsize hs
      rw [hall] at hpackets
      cases hpackets
      refine h.welcome hcall hopens hquiet ?_ hmine ?_ howed.symm hnext ht
      · rw [hq]
        exact hfeed
      · rw [hq]
        exact hgrants.mono ⟨_, _, rfl⟩
    · obtain ⟨rfl, rfl⟩ := List.cons.inj hmail
      rw [List.countP_cons] at howed
      rcases push_letter h.sound hletter hpackets hs with
        ⟨hgreets, hpush⟩ | ⟨hcalm, cause, hpush⟩ | ⟨w', rfl, hnonce, hversion, hfeed⟩
      · rw [received_discard hpush] at ht
        refine h.readOn hcall hnext ht rfl hopens.not_ready ?_
        rw [ht, hq]
        refine .greeted (hopens.mono rfl rfl) hquiet rfl (fun c w' hw => ?_) hmine
          (hgrants.mono ⟨_, _, rfl⟩) ?_
        · exact hothers c w' (List.mem_cons_of_mem _ hw)
        · rw [hgreets] at howed
          exact howed
      · rw [received_refused hpush] at ht
        exact h.refuse hcall hcalm hnext ht
      · have hahead : 0 < ahead := by
          rw [Letter.greets, beq_self_eq_true, if_pos rfl] at howed
          omega
        refine h.mislead hcall hopens hquiet ?_ hnonce hversion
          (hothers hs w' (List.mem_cons_self ..)) hahead hnext ht
        rw [hq]
        exact hfeed

/-! ### Reading the answer to a request -/

private theorem push_other {r : Reader} (hselective : r.selective = false)
    (hchannel : r.reassembler.channel = c) (hraw : onChannel c raw = false) :
    ∃ cause, r.push raw = .error cause := by
  rcases hpush : r.push raw with cause | ⟨next, payload⟩
  · exact ⟨cause, rfl⟩
  · obtain ⟨-, -, packet, hdecode, hpacket⟩ := Reader.channel_of_push hselective hpush
    rw [Token.onChannel_of_decode hdecode, hpacket, hchannel, beq_self_eq_true] at hraw
    cases hraw

private theorem Inv.take_other (h : Inv calm ahead s) {r : Reader}
    (hcall : s.call? = some (.exchanging c (.reading r))) (hexchanges : Exchanges calm s request c)
    (hselective : r.selective = false) (hchannel : r.reassembler.channel = c)
    (hraw : onChannel c raw = false) (hnext : s.peer.next? = some (raw, q))
    (ht : t = ({ s with peer := q } : Relay).goOn (HidAuthenticator.received s.turns.state
      (.exchanging c (.reading r)) (.ok raw))) : Inv calm ahead t := by
  obtain ⟨cause, hpush⟩ := push_other hselective hchannel hraw
  rw [HidAuthenticator.received_exchanging] at ht
  simp only [hpush] at ht
  have hcalm : calm = false := by
    by_contra hcalm
    have hall := hexchanges.alone (Bool.not_eq_false _ ▸ hcalm) raw
      (by simp [Token.inbox_of_next? hnext])
    rw [hraw] at hall
    cases hall
  exact h.refuse hcall hcalm hnext ht

private theorem Exchanges.next (h : Exchanges calm s request c)
    (hnext : s.peer.next? = some (raw, q)) (hpeer : t.peer = q) (hcurrent : t.current = s.current)
    (hstate : t.turns.state = s.turns.state) : Exchanges calm t request c := by
  have hinbox := Token.inbox_of_next? hnext
  refine h.mono hcurrent (by rw [hstate]) ?_ fun raw' hraw => ?_
  · obtain ⟨front, mail, hq⟩ := exists_of_next? hnext
    rw [hpeer, hq]
  · rw [hpeer] at hraw
    rw [hinbox]
    exact List.mem_cons_of_mem _ hraw

private theorem Inv.take_waiting (h : Inv calm ahead s) {n : Nat} {r : Reader}
    (hcall : s.call? = some (.exchanging c (.reading r))) (hexchanges : Exchanges calm s request c)
    (howns : Owns s request c n)
    (hdebts : (s.peer.ports c).debts = [(n, request.command.toByte)])
    (hresponse : (s.peer.ports c).response = []) (hselective : r.selective = false)
    (hchannel : r.reassembler.channel = c)
    (hkeepalives : r.feed (s.peer.queued c) =
      .waiting (.awaiting c request.command.toByte false)) (howed : ahead = 0)
    (hraw : onChannel c raw = true) (hnext : s.peer.next? = some (raw, q))
    (ht : t = ({ s with peer := q } : Relay).goOn (HidAuthenticator.received s.turns.state
      (.exchanging c (.reading r)) (.ok raw))) : Inv calm ahead t := by
  rw [Token.queued_of_next? hnext, if_pos hraw] at hkeepalives
  rw [HidAuthenticator.received_exchanging] at ht
  rcases hpush : r.push raw with cause | ⟨next, _ | payload⟩
  · rw [Reader.feed_cons_error hpush] at hkeepalives
    cases hkeepalives
  · rw [Reader.feed_cons_none hpush] at hkeepalives
    obtain ⟨hselective', hchannel', -⟩ := Reader.channel_of_push hselective hpush
    simp only [hpush] at ht
    have hpeer : t.peer = q := by rw [ht]; rfl
    have hexchanges' : Exchanges calm t request c :=
      hexchanges.next hnext hpeer (by rw [ht]; rfl) (by rw [ht]; rfl)
    refine h.readOn hcall hnext ht rfl hexchanges.not_ready ?_
    obtain ⟨front, mail, hq⟩ := exists_of_next? hnext
    refine .waiting (n := n) hexchanges' ⟨?_, ?_⟩ ?_ ?_ hselective' (hchannel'.trans hchannel) ?_ howed
    · rw [ht]
      exact howns.own
    · rw [hpeer, hq]
      exact howns.taken
    · rw [hpeer, hq]
      exact hdebts
    · rw [hpeer, hq]
      exact hresponse
    · rw [hpeer]
      exact hkeepalives
  · rw [Reader.feed_cons_some hpush] at hkeepalives
    cases hkeepalives

/-- **The call takes a packet of the answer to its request**, and has the answer with the last. -/
private theorem Inv.take_answered (h : Inv calm ahead s) {n : Nat} {r : Reader} {a : Answer}
    (hcall : s.call? = some (.exchanging c (.reading r))) (hexchanges : Exchanges calm s request c)
    (howns : Owns s request c n) (hdebts : (s.peer.ports c).debts = [])
    (hanswer : s.peer.answers n = some a) (hselective : r.selective = false)
    (hchannel : r.reassembler.channel = c)
    (hrest : r.feed (s.peer.queued c ++ (s.peer.ports c).response) = a.outcome)
    (hmessage : calm = true → a.isMessage = true) (howed : ahead = 0)
    (hraw : onChannel c raw = true) (hnext : s.peer.next? = some (raw, q))
    (ht : t = ({ s with peer := q } : Relay).goOn (HidAuthenticator.received s.turns.state
      (.exchanging c (.reading r)) (.ok raw))) : Inv calm ahead t := by
  rw [Token.queued_of_next? hnext, if_pos hraw, List.cons_append] at hrest
  rcases hpush : r.push raw with cause | ⟨next, _ | payload⟩
  · rw [Reader.feed_cons_error hpush] at hrest
    rw [HidAuthenticator.received_exchanging] at ht
    simp only [hpush] at ht
    have hcalm : calm = false := by
      by_contra hcalm
      have hmessage := hmessage (Bool.not_eq_false _ ▸ hcalm)
      cases a with
      | message => cases hrest
      | error => cases hmessage
    exact h.refuse hcall hcalm hnext ht
  · rw [Reader.feed_cons_none hpush] at hrest
    rw [HidAuthenticator.received_exchanging] at ht
    obtain ⟨hselective', hchannel', -⟩ := Reader.channel_of_push hselective hpush
    simp only [hpush] at ht
    have hpeer : t.peer = q := by rw [ht]; rfl
    have hexchanges' : Exchanges calm t request c :=
      hexchanges.next hnext hpeer (by rw [ht]; rfl) (by rw [ht]; rfl)
    refine h.readOn hcall hnext ht rfl hexchanges.not_ready ?_
    obtain ⟨front, mail, hq⟩ := exists_of_next? hnext
    refine .answered (n := n) hexchanges' ⟨?_, ?_⟩ ?_ ?_ hselective' (hchannel'.trans hchannel) ?_
      hmessage howed
    · rw [ht]
      exact howns.own
    · rw [hpeer, hq]
      exact howns.taken
    · rw [hpeer, hq]
      exact hdebts
    · rw [hpeer, hq]
      exact hanswer
    · rw [hpeer]
      have hports : q.ports = s.peer.ports := by rw [hq]
      rw [hports]
      exact hrest
  · -- The answer is complete: nothing more is pending on the channel, and nothing arrives there.
    rw [Reader.feed_cons_some hpush] at hrest
    rw [HidAuthenticator.received_exchanging] at ht
    simp only [hpush] at ht
    cases a with
    | error => cases hrest
    | message answer =>
      obtain ⟨rfl, hnone⟩ := Reader.Outcome.gave.inj hrest
      obtain ⟨hqueued, hresponse⟩ := List.append_eq_nil_iff.1 hnone
      have hunspent := h.unspent
      rw [unsent, hcall] at hunspent
      obtain ⟨hsound, hknows, front, mail, hq⟩ := h.next hnext
      have hinbox := Token.inbox_of_next? hnext
      have hports : q.ports = s.peer.ports := by rw [hq]
      have hquiet : (s.peer.ports c).Quiet := ⟨hdebts, hresponse⟩
      refine h.goOn hcall ht ?_ hsound (hunspent.keep hknows) ?_ ?_ ?_ ?_
      · rw [hq]
        exact h.packetSize
      · rintro c' (hc | hc) <;> cases hc
        rw [hq]
        exact h.channel c (.inr hexchanges.channel)
      · intro c' hc
        cases hc
        refine ⟨⟨by rw [hports]; exact hquiet, hqueued⟩, by rw [hq]; exact hexchanges.inits, ?_⟩
        intro hcalm
        rw [Token.queued, List.filter_eq_self.2] at hqueued
        · exact hqueued
        · intro raw' hraw'
          exact hexchanges.alone hcalm raw' (by rw [hinbox]; exact List.mem_cons_of_mem _ hraw')
      · intro hcalm c' hpending
        rw [hports] at hpending
        have hbusy := h.busy hcalm c' hpending
        rw [hexchanges.channel] at hbusy
        cases hbusy
        exact absurd hquiet hpending
      · rw [ht]
        refine .served (n := n) hexchanges.current rfl ⟨howns.own, ?_⟩ ?_ howed
        · change q.requests[n]? = _
          rw [hq]
          exact howns.taken
        · change q.answers n = _
          rw [hq]
          exact hanswer

/-- **The call at work takes a packet**: what is left of an earlier letter, a packet of an answer to
INIT, or one of an answer to a request. -/
theorem Inv.take (h : Inv calm ahead s) (hstep : s.step? .take = some t) : Inv calm ahead t := by
  obtain ⟨call, raw, q, hreading, hnext, ht⟩ := Session.step?_take.1 hstep
  obtain ⟨hcall, hmove⟩ := Session.reading?_eq_some.1 hreading
  -- What a call in the middle of a welcome takes is the next packet of it.
  have hfront {r : Reader} {w : Welcome} (hrest : r.feed s.peer.front = .gave w.encode []) :
      r.feed (raw :: q.front) = .gave w.encode [] ∧ q.mail = s.peer.mail := by
    rcases Token.next?_eq_some.1 hnext with ⟨front, hfront, hq⟩ | ⟨hfront, -⟩
    · rw [hq]
      rw [hfront] at hrest
      exact ⟨hrest, rfl⟩
    · rw [hfront] at hrest
      cases hrest
  have hstands := h.stands
  rw [hcall] at hstands
  cases hstands with
  | pending opens quiet mine others welcomes owed =>
    exact h.take_pending hcall opens quiet mine others welcomes owed hnext ht
  | greeted opens quiet mail others mine grants owed =>
    exact h.take_greeted hcall opens quiet mail others mine grants owed hnext ht
  | misled opens quiet rest nonce version other owed =>
    exact h.mislead hcall opens quiet (hfront rest).1 nonce version other owed hnext ht
  | welcomed opens quiet rest mine grants owed =>
    obtain ⟨hfeed, hmail⟩ := hfront rest
    have hq := exists_of_next? hnext
    refine h.welcome hcall opens quiet hfeed mine ?_ owed hnext ht
    rw [hmail]
    exact grants.mono hq
  | @waiting request c n r exchanges owns debts response selective channel keepalives owed =>
    cases hraw : onChannel c raw with
    | false => exact h.take_other hcall exchanges selective channel hraw hnext ht
    | true =>
      exact h.take_waiting hcall exchanges owns debts response selective channel keepalives owed hraw
        hnext ht
  | @answered request c n r a exchanges owns debts answer selective channel rest message owed =>
    cases hraw : onChannel c raw with
    | false => exact h.take_other hcall exchanges selective channel hraw hnext ht
    | true =>
      exact h.take_answered hcall exchanges owns debts answer selective channel rest message owed hraw
        hnext ht
  | _ => cases hmove

end Relay

end Ctap.Hid
