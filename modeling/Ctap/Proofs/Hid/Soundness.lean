import Ctap.Proofs.Hid.Token

/-!
# What is always true of a token

Whatever is pending, is to go out or is on its way belongs to a channel that was granted, and apart
from answers to INIT also to the broadcast channel. An act other than an answer to INIT concerns one
channel, where something is pending, and leaves the others as they are. A channel that was never
granted is clean.

## Main definitions

* `Token.Sound`: what is always true of a token.
* `Token.Touches`: what an act that concerns one channel may change.
* `Token.Clean`: nothing is pending on a channel, and nothing arrives on it.

## Main results

* `Token.Sound.act?`, `Token.Sound.next?`, `Token.Sound.intake`, `Token.Sound.complete_init`,
  `Token.Sound.complete_request`: whatever happens to a token keeps it sound.
* `Token.Sound.clean`: channels that were never granted are clean.
-/

namespace Ctap.Hid

namespace Token

variable {p q : Token} {channel c : ChannelId} {raw : Bytes} {calm : Bool}

/-- What is always true of a token. Where `calm` holds there are no error messages. -/
structure Sound (calm : Bool) (p : Token) : Prop where
  broadcast : broadcast ∉ p.issued
  /-- Channels are granted in packets that hold a header. -/
  size : p.issued ≠ [] → initialHeaderSize < p.packetSize
  granted : ∀ c, ¬ (p.ports c).Quiet → c ∈ p.issued
  debts : ∀ c, ∀ d ∈ (p.ports c).debts, (∃ r, p.requests[d.1]? = some r ∧ r.1 = c) ∧
    ∃ command : Command, command.isRequest = true ∧ d.2 = command.toByte
  response : ∀ c, ∀ raw ∈ (p.ports c).response, Stray calm c raw
  /-- INIT comes on the broadcast channel or on a granted one. -/
  inits : ∀ i ∈ p.inits, (i.1 = Hid.broadcast ∨ i.1 ∈ p.issued) ∧ i.2.length = nonceSize
  front : ∀ raw ∈ p.front, ∃ c seq data, Packet.decode raw = .ok (.continuation c seq data) ∧
    (c = Hid.broadcast ∨ c ∈ p.issued)
  /-- Packets on their way belong to granted channels. -/
  packets : ∀ raw, Letter.packet raw ∈ p.mail → ∃ c ∈ p.issued, Stray calm c raw
  welcomes : ∀ c w, Letter.welcome c w ∈ p.mail → (c = Hid.broadcast ∨ c ∈ p.issued) ∧
    w.nonce.length = nonceSize ∧ w.deviceVersion.length = 3 ∧ initialHeaderSize < p.packetSize

/-- What an act that concerns channel `c` may change: only there, where something is pending,
answers are given, and packets go out. -/
structure Touches (calm : Bool) (c : ChannelId) (p q : Token) : Prop where
  pending : ¬ (p.ports c).Quiet
  intake : ∀ channel, (q.ports channel).intake = (p.ports channel).intake
  ports : ∀ channel, channel ≠ c → q.ports channel = p.ports channel
  packetSize : q.packetSize = p.packetSize
  requests : q.requests = p.requests
  inits : q.inits = p.inits
  issued : q.issued = p.issued
  front : q.front = p.front
  /-- Packets of the channel come behind what is on its way. -/
  mail : ∃ posted, q.mail = p.mail ++ posted ∧
    ∀ letter ∈ posted, ∃ raw, letter = .packet raw ∧ Stray calm c raw
  answers : ∀ n r, p.requests[n]? = some r → r.1 ≠ c → q.answers n = p.answers n

/-! ### What acts change -/

theorem act?_greet {w : Welcome} (h : p.act? (.greet w) = some q) : ∃ channel nonce inits,
    p.inits = (channel, nonce) :: inits ∧ p.suits channel nonce w = true ∧
      q = { p with
        inits
        issued := if channel = Hid.broadcast then p.issued ++ [w.channel] else p.issued
        mail := p.mail ++ [.welcome channel w] } := by
  rcases hinits : p.inits with _ | ⟨⟨channel, nonce⟩, inits⟩
  · simp only [act?, hinits, reduceCtorEq] at h
  · by_cases hsuits : p.suits channel nonce w = true
    · simp only [act?, hinits, if_pos hsuits, Option.some.injEq] at h
      exact ⟨channel, nonce, inits, rfl, hsuits, h.symm⟩
    · simp only [act?, hinits, if_neg hsuits, reduceCtorEq] at h

theorem act?_keepalive {status : UInt8} (h : p.act? (.keepalive c status) = some q) :
    (p.ports c).debts ≠ [] ∧ (p.ports c).response = [] ∧
      q = { p with mail := p.mail ++ [.packet (keepalivePacket p.packetSize c status)] } := by
  rw [act?] at h
  split_ifs at h with hpending
  exact ⟨hpending.1, hpending.2, (Option.some.inj h).symm⟩

theorem act?_answer {a : Answer} (h : p.act? (.answer c a) = some q) : ∃ n command debts,
    (p.ports c).debts = (n, command) :: debts ∧ a.fits p.packetSize = true ∧
      q = { p.withPort c
          { p.ports c with
            debts
            response := (p.ports c).response ++ a.packets p.packetSize c command } with
        answers := fun m => if m = n then some a else p.answers m } := by
  rw [act?] at h
  split at h
  · cases h
  · split_ifs at h with hfits
    exact ⟨_, _, _, ‹_›, hfits, (Option.some.inj h).symm⟩

theorem act?_emit (h : p.act? (.emit c) = some q) : ∃ raw response,
    (p.ports c).response = raw :: response ∧
      q = { p.withPort c { p.ports c with response } with
        mail := p.mail ++ [.packet raw] } := by
  rw [act?] at h
  split at h
  · cases h
  · exact ⟨_, _, ‹_›, (Option.some.inj h).symm⟩

/-- The channel that an act concerns, if it is none of greeting. -/
def Act.channel? : Act → Option ChannelId
  | .greet _ => none
  | .keepalive channel _ | .answer channel _ | .emit channel => some channel

/-- Whether an act reports no error. -/
def Act.isCalm : Act → Bool
  | .answer _ a => a.isMessage
  | _ => true

/-- **What acts that concern a channel may change.** -/
theorem Sound.touches (h : Sound calm p) {act : Act} (hchannel : act.channel? = some c)
    (hact : p.act? act = some q) : Touches calm c p q := by
  cases act with
  | greet => cases hchannel
  | keepalive channel status =>
    cases hchannel
    obtain ⟨hdebts, -, rfl⟩ := act?_keepalive hact
    refine ⟨fun hquiet => hdebts hquiet.1, fun _ => rfl, fun _ _ => rfl, rfl, rfl, rfl, rfl, rfl,
      ⟨_, rfl, ?_⟩, fun _ _ _ _ => rfl⟩
    intro letter hletter
    rw [List.mem_singleton] at hletter
    exact ⟨_, hletter, stray_keepalive calm p.packetSize c status⟩
  | answer channel a =>
    cases hchannel
    obtain ⟨n, command, debts, hdebts, -, rfl⟩ := act?_answer hact
    refine ⟨fun hquiet => ?_, fun channel => ?_, fun channel hne => withPort_other p hne _, rfl, rfl,
      rfl, rfl, rfl, ⟨[], (List.append_nil _).symm, by simp⟩, fun m r hr hne => if_neg ?_⟩
    · rw [hquiet.1] at hdebts
      cases hdebts
    · apply intake_withPort
      rfl
    · -- The request that is answered came on this channel.
      rintro rfl
      obtain ⟨⟨r', hr', hr'c⟩, -⟩ := h.debts c (m, command) (by rw [hdebts]; simp)
      rw [hr] at hr'
      cases hr'
      exact hne hr'c
  | emit channel =>
    cases hchannel
    obtain ⟨raw, response, hresponse, rfl⟩ := act?_emit hact
    refine ⟨fun hquiet => ?_, fun channel => ?_, fun channel hne => withPort_other p hne _, rfl, rfl,
      rfl, rfl, rfl, ⟨_, rfl, ?_⟩, fun _ _ _ _ => rfl⟩
    · rw [hquiet.2] at hresponse
      cases hresponse
    · apply intake_withPort
      rfl
    · intro letter hletter
      rw [List.mem_singleton] at hletter
      exact ⟨raw, hletter, h.response c raw (by rw [hresponse]; simp)⟩

private theorem Sound.touch (h : Sound calm p) (ht : Touches calm c p q)
    (hdebts : ∀ d ∈ (q.ports c).debts, d ∈ (p.ports c).debts)
    (hresponse : ∀ raw ∈ (q.ports c).response, Stray calm c raw) : Sound calm q := by
  obtain ⟨posted, hmail, hposted⟩ := ht.mail
  have hc := h.granted c ht.pending
  refine ⟨ht.issued ▸ h.broadcast, ?_, fun channel hpending => ?_, fun channel d hd => ?_,
    fun channel raw hraw => ?_, ?_, ?_, fun raw hraw => ?_, fun channel w hw => ?_⟩
  · rw [ht.issued, ht.packetSize]
    exact h.size
  · rw [ht.issued]
    by_cases hchannel : channel = c
    · exact hchannel ▸ hc
    · rw [ht.ports channel hchannel] at hpending
      exact h.granted channel hpending
  · rw [ht.requests]
    by_cases hchannel : channel = c
    · subst hchannel
      exact h.debts channel d (hdebts d hd)
    · rw [ht.ports channel hchannel] at hd
      exact h.debts channel d hd
  · by_cases hchannel : channel = c
    · subst hchannel
      exact hresponse raw hraw
    · rw [ht.ports channel hchannel] at hraw
      exact h.response channel raw hraw
  · rw [ht.inits, ht.issued]
    exact h.inits
  · rw [ht.front, ht.issued]
    exact h.front
  · rw [hmail] at hraw
    rw [ht.issued]
    rcases List.mem_append.1 hraw with hraw | hraw
    · exact h.packets raw hraw
    · obtain ⟨raw', hletter, hstray⟩ := hposted _ hraw
      cases hletter
      exact ⟨c, hc, hstray⟩
  · rw [hmail] at hw
    rw [ht.issued, ht.packetSize]
    rcases List.mem_append.1 hw with hw | hw
    · exact h.welcomes channel w hw
    · obtain ⟨raw, hletter, -⟩ := hposted _ hw
      cases hletter

/-- **Acts keep a token sound.** -/
theorem Sound.act? (h : Sound calm p) {act : Act} (hcalm : calm = true → act.isCalm = true)
    (hact : p.act? act = some q) : Sound calm q := by
  cases act with
  | greet w =>
    obtain ⟨channel, nonce, inits, hinits, hsuits, rfl⟩ := act?_greet hact
    obtain ⟨hchannel, hnonce⟩ := h.inits (channel, nonce) (by rw [hinits]; simp)
    simp only [suits, Bool.and_eq_true, beq_iff_eq, decide_eq_true_eq] at hsuits
    obtain ⟨⟨⟨hw, hversion⟩, hsize⟩, hgrant⟩ := hsuits
    have hmore {c : ChannelId} (hc : c ∈ p.issued) :
        c ∈ if channel = Hid.broadcast then p.issued ++ [w.channel] else p.issued := by
      split_ifs
      · exact List.mem_append_left _ hc
      · exact hc
    refine ⟨?_, fun _ => hsize, fun c hc => hmore (h.granted c hc), h.debts, h.response, fun i hi => ?_,
      fun raw hraw => ?_, fun raw hraw => ?_, fun c w' hw' => ?_⟩
    · split_ifs with hbroadcast
      · rw [if_pos hbroadcast, Bool.and_eq_true, bne_iff_ne] at hgrant
        rw [List.mem_append, List.mem_singleton, not_or]
        exact ⟨h.broadcast, hgrant.1.symm⟩
      · exact h.broadcast
    · obtain ⟨hi, hlength⟩ := h.inits i (by rw [hinits]; exact List.mem_cons_of_mem _ hi)
      exact ⟨hi.imp_right hmore, hlength⟩
    · obtain ⟨c, seq, data, hdecode, hc⟩ := h.front raw hraw
      exact ⟨c, seq, data, hdecode, hc.imp_right hmore⟩
    · rcases List.mem_append.1 hraw with hraw | hraw
      · obtain ⟨c, hc, hstray⟩ := h.packets raw hraw
        exact ⟨c, hmore hc, hstray⟩
      · simp at hraw
    · rcases List.mem_append.1 hw' with hw' | hw'
      · obtain ⟨hc, hrest⟩ := h.welcomes c w' hw'
        exact ⟨hc.imp_right hmore, hrest⟩
      · rw [List.mem_singleton] at hw'
        cases hw'
        exact ⟨hchannel.imp_right hmore, hw ▸ hnonce, hversion, hsize⟩
  | keepalive c status =>
    have ht := h.touches rfl hact
    obtain ⟨-, -, rfl⟩ := act?_keepalive hact
    exact h.touch ht (fun d hd => hd) (h.response c)
  | answer c a =>
    have ht := h.touches rfl hact
    obtain ⟨n, command, debts, hdebts, hfits, rfl⟩ := act?_answer hact
    obtain ⟨-, command', hrequest, rfl⟩ := h.debts c (n, command) (by rw [hdebts]; simp)
    refine h.touch ht (fun d hd => ?_) (fun raw hraw => ?_)
    · rw [hdebts]
      rw [show (p.withPort c _).ports c = _ from withPort_self ..] at hd
      exact List.mem_cons_of_mem _ hd
    · rw [show (p.withPort c _).ports c = _ from withPort_self ..] at hraw
      rcases List.mem_append.1 hraw with hraw | hraw
      · exact h.response c raw hraw
      · exact stray_answer hrequest hfits hcalm raw hraw
  | emit c =>
    have ht := h.touches rfl hact
    obtain ⟨raw, response, hresponse, rfl⟩ := act?_emit hact
    refine h.touch ht (fun d hd => ?_) (fun raw' hraw => ?_)
    · rwa [show (p.withPort c _).ports c = _ from withPort_self ..] at hd
    · rw [show (p.withPort c _).ports c = _ from withPort_self ..] at hraw
      exact h.response c raw' (by rw [hresponse]; exact List.mem_cons_of_mem _ hraw)

/-! ### What the host sends and takes keeps a token sound -/

/-- The packets of a welcome open a handshake and bring the welcome. -/
theorem packets_welcome {size : Nat} {w : Welcome} (hnonce : w.nonce.length = nonceSize)
    (hversion : w.deviceVersion.length = 3) (hsize : initialHeaderSize < size) (c : ChannelId) :
    ∃ raw rest, (Letter.welcome c w).packets size = raw :: rest ∧
      (∃ length data,
        Packet.decode raw = .ok (.initial c Command.init.toByte length data)) ∧
      (∀ raw' ∈ rest, ∃ seq data, Packet.decode raw' = .ok (.continuation c seq data)) ∧
      (Reader.awaiting c Command.init.toByte true).feed (raw :: rest) = .gave w.encode [] := by
  have hpayload : w.encode.length ≤ maxPayload size := by
    rw [Welcome.length_encode hnonce hversion]
    exact handshakeSize_le hsize
  have hfeed := @Reader.feed_message size hsize c Command.init.toByte rfl true (fun _ => rfl)
    w.encode hpayload []
  obtain ⟨raw, rest, hpackets, hfirst, hrest⟩ := @Reader.packets_eq_cons size hsize c
    Command.init.toByte rfl w.encode hpayload
  rw [List.append_nil, hpackets] at hfeed
  exact ⟨raw, rest, hpackets, hfirst, hrest, hfeed⟩

/-- **What was taken leaves a token sound.** -/
theorem Sound.next? (h : Sound calm p) (hnext : p.next? = some (raw, q)) : Sound calm q := by
  rcases next?_eq_some.1 hnext with ⟨front, hfront, rfl⟩ |
    ⟨hfront, letter, mail, front, hmail, hpackets, rfl⟩
  · refine { h with front := fun raw' hraw => h.front raw' ?_ }
    rw [hfront]
    exact List.mem_cons_of_mem _ hraw
  · have hletter {l : Letter} (hl : l ∈ mail) : l ∈ p.mail := by
      rw [hmail]
      exact List.mem_cons_of_mem _ hl
    refine { h with
      front := fun raw' hraw => ?_
      packets := fun raw' hraw => h.packets raw' (hletter hraw)
      welcomes := fun c w hw => h.welcomes c w (hletter hw) }
    cases letter with
    | packet raw'' =>
      cases hpackets
      cases hraw
    | welcome c w =>
      obtain ⟨hc, hnonce, hversion, hsize⟩ := h.welcomes c w (by rw [hmail]; simp)
      obtain ⟨raw'', rest, hall, -, hrest, -⟩ := packets_welcome hnonce hversion hsize c
      rw [hall] at hpackets
      cases hpackets
      obtain ⟨seq, data, hdecode⟩ := hrest raw' hraw
      exact ⟨c, seq, data, hdecode, hc⟩

/-- What is coming is nothing that a token has yet. -/
theorem Sound.intake (h : Sound calm p) (c : ChannelId) (intake : Option (UInt8 × Reader)) :
    Sound calm (p.withPort c { p.ports c with intake }) := by
  refine { h with granted := fun channel => ?_, debts := fun channel => ?_,
                  response := fun channel => ?_ }
  · rw [quiet_intake]
    exact h.granted channel
  · rw [(port_intake p c intake channel).1]
    exact h.debts channel
  · rw [(port_intake p c intake channel).2]
    exact h.response channel

/-- INIT drops what is pending on its channel. -/
theorem Sound.complete_init (h : Sound calm p) (hc : c = Hid.broadcast ∨ c ∈ p.issued)
    {nonce : Bytes} (hnonce : nonce.length = nonceSize) :
    Sound calm (p.complete c Command.init.toByte nonce) := by
  rw [Token.complete_init]
  refine ⟨h.broadcast, h.size, fun channel hpending => ?_, fun channel d hd => ?_,
    fun channel raw hraw => ?_, fun i hi => ?_, h.front, h.packets, h.welcomes⟩
  · by_cases hchannel : channel = c
    · rw [hchannel] at hpending
      exact absurd ⟨congrArg Port.debts (withPort_self ..), congrArg Port.response (withPort_self ..)⟩
        hpending
    · rw [show (p.withPort c _).ports channel = _ from withPort_other p hchannel _] at hpending
      exact h.granted channel hpending
  · by_cases hchannel : channel = c
    · rw [hchannel, show (p.withPort c _).ports c = _ from withPort_self ..] at hd
      cases hd
    · rw [show (p.withPort c _).ports channel = _ from withPort_other p hchannel _] at hd
      exact h.debts channel d hd
  · by_cases hchannel : channel = c
    · rw [hchannel, show (p.withPort c _).ports c = _ from withPort_self ..] at hraw
      cases hraw
    · rw [show (p.withPort c _).ports channel = _ from withPort_other p hchannel _] at hraw
      exact h.response channel raw hraw
  · rcases List.mem_append.1 hi with hi | hi
    · exact h.inits i hi
    · rw [List.mem_singleton] at hi
      rw [hi]
      exact ⟨hc, hnonce⟩

/-- A request is pending once it has come in full. -/
theorem Sound.complete_request (h : Sound calm p) (hc : c ∈ p.issued) {command : Command}
    (hcommand : command.isRequest = true) (payload : Bytes) :
    Sound calm (p.complete c command.toByte payload) := by
  rw [Token.complete_request p c hcommand]
  have hmore {n : Nat} {r : ChannelId × UInt8 × Bytes} (hr : p.requests[n]? = some r) :
      (p.requests ++ [(c, command.toByte, payload)])[n]? = some r :=
    (List.getElem?_append_left (List.getElem?_eq_some_iff.1 hr).1).trans hr
  refine ⟨h.broadcast, h.size, fun channel hpending => ?_, fun channel d hd => ?_,
    fun channel raw hraw => ?_, h.inits, h.front, h.packets, h.welcomes⟩
  · by_cases hchannel : channel = c
    · rw [hchannel]
      exact hc
    · rw [show (p.withPort c _).ports channel = _ from withPort_other p hchannel _] at hpending
      exact h.granted channel hpending
  · have hold (hd : d ∈ (p.ports channel).debts) :
        (∃ r, (p.requests ++ [(c, command.toByte, payload)])[d.1]? = some r ∧ r.1 = channel) ∧
          ∃ command : Command, command.isRequest = true ∧ d.2 = command.toByte := by
      obtain ⟨⟨r, hr, hrc⟩, hcommand⟩ := h.debts channel d hd
      exact ⟨⟨r, hmore hr, hrc⟩, hcommand⟩
    by_cases hchannel : channel = c
    · rw [hchannel, show (p.withPort c _).ports c = _ from withPort_self ..] at hd
      rcases List.mem_append.1 hd with hd | hd
      · exact hold (hchannel ▸ hd)
      · rw [List.mem_singleton] at hd
        rw [hd]
        exact ⟨⟨_, List.getElem?_concat_length, hchannel.symm⟩, command, hcommand, rfl⟩
    · rw [show (p.withPort c _).ports channel = _ from withPort_other p hchannel _] at hd
      exact hold hd
  · by_cases hchannel : channel = c
    · rw [hchannel, show (p.withPort c _).ports c = _ from withPort_self ..] at hraw
      rw [hchannel]
      exact h.response c raw hraw
    · rw [show (p.withPort c _).ports channel = _ from withPort_other p hchannel _] at hraw
      exact h.response channel raw hraw

/-! ### What arrives on a channel -/

/-- Whether nothing is pending on a channel and nothing arrives on it. -/
def Clean (p : Token) (c : ChannelId) : Prop := (p.ports c).Quiet ∧ p.queued c = []

theorem queued_of_next? (h : p.next? = some (raw, q)) (c : ChannelId) :
    p.queued c = if onChannel c raw then raw :: q.queued c else q.queued c := by
  rw [queued, inbox_of_next? h, List.filter_cons]
  rfl

theorem inbox_of_mail {posted : List Letter} (hfront : q.front = p.front)
    (hmail : q.mail = p.mail ++ posted) (hsize : q.packetSize = p.packetSize) :
    q.inbox = p.inbox ++ posted.flatMap (Letter.packets p.packetSize) := by
  rw [inbox, inbox, hfront, hmail, hsize, List.flatMap_append, List.append_assoc]

theorem queued_of_packet (hfront : q.front = p.front) (hmail : q.mail = p.mail ++ [.packet raw])
    (hsize : q.packetSize = p.packetSize) (hraw : onChannel c raw = true) :
    q.queued c = p.queued c ++ [raw] := by
  rw [queued, inbox_of_mail hfront hmail hsize, List.filter_append, queued]
  simp [Letter.packets, hraw]

/-- An act that concerns another channel changes nothing that arrives. -/
theorem Touches.queued (h : Touches calm c p q) (hchannel : channel ≠ c) :
    q.queued channel = p.queued channel := by
  obtain ⟨posted, hmail, hposted⟩ := h.mail
  have hnone : (posted.flatMap (Letter.packets p.packetSize)).filter (onChannel channel) = [] := by
    rw [List.filter_eq_nil_iff]
    intro raw hraw
    obtain ⟨letter, hletter, hraw⟩ := List.mem_flatMap.1 hraw
    obtain ⟨raw', rfl, hstray⟩ := hposted letter hletter
    rw [Letter.packets, List.mem_singleton] at hraw
    rw [hraw, hstray.onChannel, beq_iff_eq]
    exact hchannel.symm
  rw [Token.queued, inbox_of_mail h.front hmail h.packetSize, List.filter_append, hnone,
    List.append_nil, Token.queued]

theorem Touches.quiet (h : Touches calm c p q) (hquiet : (p.ports channel).Quiet) :
    (q.ports channel).Quiet := by
  have hchannel : channel ≠ c := by
    rintro rfl
    exact h.pending hquiet
  rwa [h.ports channel hchannel]

theorem Touches.clean (h : Touches calm c p q) (hclean : p.Clean channel) : q.Clean channel := by
  have hchannel : channel ≠ c := by
    rintro rfl
    exact h.pending hclean.1
  exact ⟨by rw [h.ports channel hchannel]; exact hclean.1, by rw [h.queued hchannel]; exact hclean.2⟩

/-- Whatever belongs to a channel that was never granted is none of the token's. -/
theorem Sound.clean (h : Sound calm p) (hbroadcast : c ≠ Hid.broadcast) (hc : c ∉ p.issued) :
    p.Clean c := by
  have hother {c' : ChannelId} (hc' : c' = Hid.broadcast ∨ c' ∈ p.issued) : c' ≠ c := by
    rintro rfl
    exact hc'.elim hbroadcast hc
  refine ⟨by_contra fun hpending => hc (h.granted c hpending), List.filter_eq_nil_iff.2 ?_⟩
  intro raw hraw
  rw [inbox, List.mem_append, List.mem_flatMap] at hraw
  rcases hraw with hraw | ⟨letter, hletter, hraw⟩
  · obtain ⟨c', seq, data, hdecode, hc'⟩ := h.front raw hraw
    rw [onChannel_of_decode hdecode, beq_iff_eq]
    exact hother hc'
  · cases letter with
    | packet raw' =>
      obtain ⟨c', hc', hstray⟩ := h.packets raw' hletter
      rw [Letter.packets, List.mem_singleton] at hraw
      rw [hraw, hstray.onChannel, beq_iff_eq]
      exact hother (.inr hc')
    | welcome c' w =>
      obtain ⟨hc', hnonce, hversion, hsize⟩ := h.welcomes c' w hletter
      obtain ⟨first, rest, hpackets, ⟨length, data, hfirst⟩, hrest, -⟩ :=
        packets_welcome hnonce hversion hsize c'
      rw [hpackets] at hraw
      rcases List.mem_cons.1 hraw with rfl | hraw
      · rw [onChannel_of_decode hfirst, beq_iff_eq]
        exact hother hc'
      · obtain ⟨seq, data, hdecode⟩ := hrest raw hraw
        rw [onChannel_of_decode hdecode, beq_iff_eq]
        exact hother hc'

/-- How many answers to INIT on a channel are still to be read. -/
def owed (p : Token) (c : ChannelId) : Nat :=
  p.inits.countP (·.1 == c) + p.mail.countP (Letter.greets c)

/-- What is owed is owed until it is read. -/
theorem owed_of_greet {w : Welcome} (hact : p.act? (.greet w) = some q) (c : ChannelId) :
    q.owed c = p.owed c := by
  obtain ⟨channel, nonce, inits, hinits, -, rfl⟩ := act?_greet hact
  have hinits' : p.inits.countP (·.1 == c) =
      inits.countP (·.1 == c) + if channel == c then 1 else 0 := by
    rw [hinits, List.countP_cons]
  have hmail : (p.mail ++ [Letter.welcome channel w]).countP (Letter.greets c) =
      p.mail.countP (Letter.greets c) + if channel == c then 1 else 0 := by
    rw [List.countP_append, List.countP_singleton]
    rfl
  simp only [owed, hinits', hmail]
  omega

theorem countP_greets_packets {posted : List Letter} {P : Bytes → Prop}
    (h : ∀ letter ∈ posted, ∃ raw, letter = .packet raw ∧ P raw) (c : ChannelId) :
    posted.countP (Letter.greets c) = 0 := by
  rw [List.countP_eq_zero]
  intro letter hletter
  obtain ⟨raw, rfl, -⟩ := h letter hletter
  exact Bool.false_ne_true

/-- Whether a token has a nonce that it sends back. -/
def Knows (p : Token) (nonce : Bytes) : Prop :=
  (∃ c, (c, nonce) ∈ p.inits) ∨ ∃ c w, Letter.welcome c w ∈ p.mail ∧ w.nonce = nonce

theorem Touches.knows (h : Touches calm c p q) {nonce : Bytes} (hknows : q.Knows nonce) :
    p.Knows nonce := by
  obtain ⟨posted, hmail, hposted⟩ := h.mail
  rcases hknows with ⟨c, hc⟩ | ⟨c, w, hw, hnonce⟩
  · exact .inl ⟨c, h.inits ▸ hc⟩
  · rw [hmail] at hw
    rcases List.mem_append.1 hw with hw | hw
    · exact .inr ⟨c, w, hw, hnonce⟩
    · obtain ⟨raw, hletter, -⟩ := hposted _ hw
      cases hletter

theorem knows_of_next? (h : p.next? = some (raw, q)) {nonce : Bytes} (hknows : q.Knows nonce) :
    p.Knows nonce := by
  rcases next?_eq_some.1 h with ⟨front, hfront, rfl⟩ |
    ⟨hfront, letter, mail, front, hmail, hpackets, rfl⟩
  · exact hknows
  · rcases hknows with hc | ⟨c, w, hw, hnonce⟩
    · exact .inl hc
    · exact .inr ⟨c, w, hmail ▸ List.mem_cons_of_mem _ hw, hnonce⟩

/-- The nonce that a token sends back is the one it was sent. -/
theorem knows_of_greet {w : Welcome} (hact : p.act? (.greet w) = some q) {nonce : Bytes}
    (hknows : q.Knows nonce) : p.Knows nonce := by
  obtain ⟨channel, nonce', inits, hinits, hsuits, rfl⟩ := act?_greet hact
  rcases hknows with ⟨c, hc⟩ | ⟨c, w', hw', hnonce⟩
  · exact .inl ⟨c, hinits ▸ List.mem_cons_of_mem _ hc⟩
  · rcases List.mem_append.1 hw' with hw' | hw'
    · exact .inr ⟨c, w', hw', hnonce⟩
    · rw [List.mem_singleton] at hw'
      cases hw'
      simp only [suits, Bool.and_eq_true, beq_iff_eq] at hsuits
      refine .inl ⟨channel, ?_⟩
      rw [hinits, ← hnonce, hsuits.1.1.1]
      exact List.mem_cons_self ..

end Token

end Ctap.Hid
