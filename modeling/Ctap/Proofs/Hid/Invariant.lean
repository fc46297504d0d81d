import Ctap.Proofs.Hid.Soundness

/-!
# What an authenticator behind a HID link relies on

Calls may be dropped between any two packets, and the link may fail at any of them. What ties an
authenticator to its token through all that: a ready channel is clean, and a call that exchanges
messages on a channel finds there what its own request brings and nothing else. A handshake makes
sure of it. Its nonce was never sent before, so the answer that carries it is the one to this INIT;
before it INIT has dropped what was pending on the channel, and behind it nothing arrives there.

Where the link does not fail and requests are not answered with errors (`calm`), more is known: only
the busy channel has anything pending, so that what a call finds ahead of its answer can only be
left of a handshake. The invariant counts the answers to INIT ahead of the one that a call waits
for.

## Main definitions

* `Relay`: an authenticator with its callers and its token, and `Relay.permits` what may happen there.
* `Relay.Stands`: where the call at work stands.
* `Relay.Inv`: the invariant.

## Main results

* `Relay.Stands.touch`, `Relay.Stands.greet`: what the token does leaves a call where it stands.
-/

namespace Ctap.Hid

/-- An authenticator with its callers and its token. -/
abbrev Relay : Type := Session HidAuthenticator Request Call Token

namespace Relay

/-- What can happen on a HID link. -/
abbrev Event : Type := Session.Event Request Unit Token.Act

/-- A link that was never used. -/
def fresh (packetSize : Nat) : Relay :=
  Session.fresh (HidAuthenticator.fresh packetSize) (Token.fresh packetSize)

/-- What may happen: requests are made, each with a nonce of its own. Callers may go at any time,
and unless all is calm the link may fail at any packet and requests may be answered with errors. -/
def permits (calm : Bool) (s : Relay) : Event → Bool
  | .arrive _ request => request.command.isRequest && request.nonce.length == nonceSize &&
      !(s.made.map (·.nonce)).contains request.nonce
  | .breakOff .. | .lose _ | .fail _ => !calm
  | .act act => !calm || act.isCalm
  | _ => true

/-- Whether packets of the given size cannot carry a handshake or the request. -/
def Refused (size : Nat) (request : Request) : Prop :=
  size ≤ initialHeaderSize ∨ maxPayload size < request.payload.length

/-- A call with a request that needs a handshake on a channel. -/
structure Opens (s : Relay) (request : Request) (hs : ChannelId) : Prop where
  current : s.current = some request
  command : request.command.isRequest = true
  nonce : request.nonce.length = nonceSize
  channel : s.turns.state.channel = .closed ∧ hs = broadcast ∨ s.turns.state.channel = .busy hs

/-- A welcome for INIT on channel `hs` grants a clean channel, if the given letters come behind it. -/
structure Grants (calm : Bool) (s : Relay) (hs : ChannelId) (w : Welcome) (behind : List Letter) :
    Prop where
  keeps : hs ≠ broadcast → w.channel = hs
  issued : w.channel ∈ s.peer.issued
  quiet : (s.peer.ports w.channel).Quiet
  free : ∀ raw ∈ behind.flatMap (Letter.packets s.peer.packetSize), onChannel w.channel raw = false
  inits : s.peer.inits = []
  nonce : w.nonce.length = nonceSize
  version : w.deviceVersion.length = 3
  /-- Where all is calm nothing comes behind the welcome. -/
  last : calm = true → behind = []

/-- A call exchanges messages on a channel. -/
structure Exchanges (calm : Bool) (s : Relay) (request : Request) (c : ChannelId) : Prop where
  current : s.current = some request
  command : request.command.isRequest = true
  channel : s.turns.state.channel = .busy c
  inits : s.peer.inits = []
  /-- Where all is calm nothing arrives on other channels. -/
  alone : calm = true → ∀ raw ∈ s.peer.inbox, onChannel c raw = true

/-- The request of the call was taken by the token as number `n`. -/
structure Owns (s : Relay) (request : Request) (c : ChannelId) (n : Nat) : Prop where
  own : s.own = some n
  taken : s.peer.requests[n]? = some (c, request.command.toByte, request.payload)

/-- Where the call at work stands, if `ahead` answers to INIT came before its own. -/
inductive Stands (calm : Bool) (ahead : Nat) (s : Relay) : Option Call → Prop where
  | idle : Stands calm ahead s none
  /-- The token expects what the call still writes of INIT. -/
  | greeting {request : Request} {hs : ChannelId} {raw : Bytes} {rest : List Bytes}
    (opens : Opens s request hs)
    (expects : s.peer.Expects hs Command.init.toByte request.nonce raw rest)
    (owed : s.peer.owed hs = ahead) :
    Stands calm ahead s (some (.opening request
      ⟨request.nonce, .writing raw rest (.awaiting hs Command.init.toByte true)⟩))
  | pending {request : Request} {hs : ChannelId} {older : List (ChannelId × Bytes)}
    (opens : Opens s request hs) (quiet : (s.peer.ports hs).Quiet)
    (mine : s.peer.inits = older ++ [(hs, request.nonce)])
    (others : ∀ i ∈ older, i.2 ≠ request.nonce)
    (welcomes : ∀ c w, Letter.welcome c w ∈ s.peer.mail → w.nonce ≠ request.nonce)
    (owed : older.countP (·.1 == hs) + s.peer.mail.countP (Letter.greets hs) = ahead) :
    Stands calm ahead s (some (.opening request
      ⟨request.nonce, .reading (.awaiting hs Command.init.toByte true)⟩))
  | greeted {request : Request} {hs : ChannelId} {before behind : List Letter} {w : Welcome}
    (opens : Opens s request hs) (quiet : (s.peer.ports hs).Quiet)
    (mail : s.peer.mail = before ++ .welcome hs w :: behind)
    (others : ∀ c w, Letter.welcome c w ∈ before → w.nonce ≠ request.nonce)
    (mine : w.nonce = request.nonce) (grants : Grants calm s hs w behind)
    (owed : before.countP (Letter.greets hs) = ahead) :
    Stands calm ahead s (some (.opening request
      ⟨request.nonce, .reading (.awaiting hs Command.init.toByte true)⟩))
  /-- The call is in the middle of an answer to another INIT. -/
  | misled {request : Request} {hs : ChannelId} {r : Reader} {w : Welcome}
    (opens : Opens s request hs) (quiet : (s.peer.ports hs).Quiet)
    (rest : r.feed s.peer.front = .gave w.encode []) (nonce : w.nonce.length = nonceSize)
    (version : w.deviceVersion.length = 3) (other : w.nonce ≠ request.nonce) (owed : 0 < ahead) :
    Stands calm ahead s (some (.opening request ⟨request.nonce, .reading r⟩))
  /-- The call is in the middle of the answer to INIT. -/
  | welcomed {request : Request} {hs : ChannelId} {r : Reader} {w : Welcome}
    (opens : Opens s request hs) (quiet : (s.peer.ports hs).Quiet)
    (rest : r.feed s.peer.front = .gave w.encode []) (mine : w.nonce = request.nonce)
    (grants : Grants calm s hs w s.peer.mail)
    (owed : ahead = 0) :
    Stands calm ahead s (some (.opening request ⟨request.nonce, .reading r⟩))
  /-- The token expects what the call still writes of its request, on a clean channel. -/
  | asking {request : Request} {c : ChannelId} {raw : Bytes} {rest : List Bytes}
    (exchanges : Exchanges calm s request c)
    (expects : s.peer.Expects c request.command.toByte request.payload raw rest)
    (clean : s.peer.Clean c) (owed : ahead = 0) :
    Stands calm ahead s (some (.exchanging c
      (.writing raw rest (.awaiting c request.command.toByte false))))
  | waiting {request : Request} {c : ChannelId} {n : Nat} {r : Reader}
    (exchanges : Exchanges calm s request c) (owns : Owns s request c n)
    (debts : (s.peer.ports c).debts = [(n, request.command.toByte)])
    (response : (s.peer.ports c).response = []) (selective : r.selective = false)
    (channel : r.reassembler.channel = c)
    (keepalives : r.feed (s.peer.queued c) = .waiting (.awaiting c request.command.toByte false))
    (owed : ahead = 0) :
    Stands calm ahead s (some (.exchanging c (.reading r)))
  | answered {request : Request} {c : ChannelId} {n : Nat} {r : Reader} {a : Answer}
    (exchanges : Exchanges calm s request c) (owns : Owns s request c n)
    (debts : (s.peer.ports c).debts = []) (answer : s.peer.answers n = some a)
    (selective : r.selective = false) (channel : r.reassembler.channel = c)
    (rest : r.feed (s.peer.queued c ++ (s.peer.ports c).response) = a.outcome)
    (message : calm = true → a.isMessage = true) (owed : ahead = 0) :
    Stands calm ahead s (some (.exchanging c (.reading r)))
  | served {request : Request} {c : ChannelId} {n : Nat} {payload : Bytes}
    (current : s.current = some request) (channel : s.turns.state.channel = .ready c)
    (owns : Owns s request c n) (answer : s.peer.answers n = some (.message payload))
    (owed : ahead = 0) : Stands calm ahead s (some (.ended (.ok payload)))
  /-- The call has failed. Where all is calm it has met the answer to another INIT, or the request
  is too long. -/
  | failed {request : Request} {cause : Error} (current : s.current = some request)
    (reason : calm = true → cause = .link .nonceMismatch ∧ 0 < ahead ∨
      Refused s.turns.state.packetSize request) :
    Stands calm ahead s (some (.ended (.error cause)))

/-- The nonce that a call has not sent in full. -/
def unsentBy : Option Call → List Bytes
  | some (.opening _ ⟨nonce, .writing ..⟩) => [nonce]
  | _ => []

/-- Nonces that have not been sent in full. -/
def unsent (s : Relay) : List Bytes := unsentBy s.call? ++ s.turns.waiting.map (·.2.nonce)

/-- Nonces are used once, and the token does not know those that were not sent. -/
structure Unspent (made unsent : List Bytes) (p : Token) : Prop where
  distinct : unsent.Nodup
  /-- The token does not know a nonce that was not sent. -/
  unknown : ∀ nonce ∈ unsent, ¬ p.Knows nonce
  made : ∀ nonce, nonce ∈ unsent ∨ p.Knows nonce → nonce ∈ made

/-- The invariant. -/
structure Inv (calm : Bool) (ahead : Nat) (s : Relay) : Prop where
  packetSize : s.peer.packetSize = s.turns.state.packetSize
  sound : s.peer.Sound calm
  waiting : ∀ w ∈ s.turns.waiting, w.2.command.isRequest = true ∧ w.2.nonce.length = nonceSize
  /-- Cancelling packets ask for requests to be given up. -/
  cancels : ∀ raw ∈ s.cancels, Token.isCancel raw = true
  unspent : Unspent (s.made.map (·.nonce)) s.unsent s.peer
  channel : ∀ c, s.turns.state.channel = .ready c ∨ s.turns.state.channel = .busy c →
    c ∈ s.peer.issued
  /-- A ready channel is clean, and no INIT is to be answered. -/
  ready : ∀ c, s.turns.state.channel = .ready c → s.peer.Clean c ∧ s.peer.inits = [] ∧
    (calm = true → s.peer.inbox = [])
  /-- Where all is calm only the busy channel has anything pending. -/
  busy : calm = true → ∀ c, ¬ (s.peer.ports c).Quiet → s.turns.state.channel = .busy c
  stands : Stands calm ahead s s.call?

/-! ### Nonces -/

section Unspent

variable {made unsent nonces rest : List Bytes} {p q : Token}

theorem Unspent.keep (h : Unspent made unsent p) (hknows : ∀ n, q.Knows n → p.Knows n) :
    Unspent made unsent q :=
  ⟨h.distinct, fun n hn hq => h.unknown n hn (hknows n hq),
    fun n hn => h.made n (hn.imp_right (hknows n))⟩

/-- A nonce that was sent may be known. -/
theorem Unspent.give (h : Unspent made (nonces ++ rest) p)
    (hknows : ∀ n, q.Knows n → p.Knows n ∨ n ∈ nonces) : Unspent made rest q := by
  obtain ⟨-, hdistinct, hdisjoint⟩ := List.nodup_append.1 h.distinct
  refine ⟨hdistinct, fun n hn hq => ?_, fun n hn => ?_⟩
  · rcases hknows n hq with hp | hmem
    · exact h.unknown n (List.mem_append_right _ hn) hp
    · exact hdisjoint n hmem n hn rfl
  · rcases hn with hn | hq
    · exact h.made n (.inl (List.mem_append_right _ hn))
    · rcases hknows n hq with hp | hmem
      · exact h.made n (.inr hp)
      · exact h.made n (.inl (List.mem_append_left _ hmem))

theorem Unspent.sublist (h : Unspent made unsent p) (hrest : rest.Sublist unsent) :
    Unspent made rest p :=
  ⟨h.distinct.sublist hrest, fun n hn => h.unknown n (hrest.subset hn),
    fun n hn => h.made n (hn.imp_left (hrest.subset ·))⟩

/-- A request comes with a nonce of its own. -/
theorem Unspent.arrive (h : Unspent made unsent p) {nonce : Bytes} (hnew : nonce ∉ made) :
    Unspent (made ++ [nonce]) (unsent ++ [nonce]) p := by
  refine ⟨?_, fun n hn => ?_, fun n hn => ?_⟩
  · rw [List.nodup_append]
    refine ⟨h.distinct, by simp, ?_⟩
    rintro n hn _ hn' rfl
    rw [List.mem_singleton] at hn'
    exact hnew (hn' ▸ h.made n (.inl hn))
  · rcases List.mem_append.1 hn with hn | hn
    · exact h.unknown n hn
    · rw [List.mem_singleton] at hn
      exact fun hknows => hnew (hn ▸ h.made n (.inr hknows))
  · rw [List.mem_append] at hn ⊢
    rcases hn with (hn | hn) | hn
    · exact .inl (h.made n (.inl hn))
    · exact .inr hn
    · exact .inl (h.made n (.inr hn))

end Unspent

/-! ### What the token does -/

variable {calm : Bool} {ahead : Nat} {s : Relay} {q : Token} {request : Request}
  {hs c c' : ChannelId} {w : Welcome} {behind : List Letter}

theorem Opens.mono {t : Relay} (h : Opens s request hs) (hcurrent : t.current = s.current)
    (hchannel : t.turns.state.channel = s.turns.state.channel) : Opens t request hs :=
  ⟨hcurrent.trans h.current, h.command, h.nonce, hchannel ▸ h.channel⟩

theorem Opens.peer (h : Opens s request hs) (q : Token) : Opens { s with peer := q } request hs :=
  h.mono rfl rfl

theorem Opens.not_ready (h : Opens s request hs) (c : ChannelId) :
    s.turns.state.channel ≠ .ready c := by
  rcases h.channel with ⟨hclosed, -⟩ | hbusy
  · rw [hclosed]
    exact Channel.noConfusion
  · rw [hbusy]
    exact Channel.noConfusion

/-- Where all is calm nothing is pending while a handshake is answered. -/
theorem Opens.not_touched (h : Opens s request hs) (hquiet : (s.peer.ports hs).Quiet)
    (hbusy : calm = true → ∀ c, ¬ (s.peer.ports c).Quiet → s.turns.state.channel = .busy c)
    (ht : Token.Touches calm c' s.peer q) : calm = false := by
  cases hcalm : calm with
  | false => rfl
  | true =>
    have hc' := hbusy hcalm c' ht.pending
    rcases h.channel with ⟨hclosed, -⟩ | hbusy'
    · rw [hclosed] at hc'
      cases hc'
    · rw [hbusy'] at hc'
      cases hc'
      exact absurd hquiet ht.pending

theorem Grants.mono {t : Relay} (h : Grants calm s hs w behind)
    (hpeer : ∃ front mail, t.peer = { s.peer with front, mail }) : Grants calm t hs w behind := by
  obtain ⟨front, mail, hpeer⟩ := hpeer
  refine ⟨h.keeps, ?_, ?_, ?_, ?_, h.nonce, h.version, h.last⟩ <;> rw [hpeer]
  · exact h.issued
  · exact h.quiet
  · exact h.free
  · exact h.inits

/-- A channel that is granted stays clean behind the welcome. -/
theorem Grants.touch (h : Grants calm s hs w behind) (hcalm : calm = false)
    (ht : Token.Touches calm c' s.peer q) {posted : List Letter}
    (hposted : ∀ letter ∈ posted, ∃ raw, letter = .packet raw ∧ Token.Stray calm c' raw) :
    Grants calm { s with peer := q } hs w (behind ++ posted) := by
  have hc' : c' ≠ w.channel := by
    rintro rfl
    exact ht.pending h.quiet
  refine ⟨h.keeps, ht.issued ▸ h.issued, ht.quiet h.quiet, fun raw hraw => ?_,
    ht.inits.trans h.inits, h.nonce, h.version, fun hcalm' => ?_⟩
  · rw [List.flatMap_append, List.mem_append] at hraw
    rcases hraw with hraw | hraw
    · exact h.free raw (ht.packetSize ▸ hraw)
    · obtain ⟨letter, hletter, hraw⟩ := List.mem_flatMap.1 hraw
      obtain ⟨raw', rfl, hstray⟩ := hposted letter hletter
      rw [Letter.packets, List.mem_singleton] at hraw
      rw [hraw, hstray.onChannel, beq_eq_false_iff_ne]
      exact hc'
  · rw [hcalm] at hcalm'
    cases hcalm'

theorem Exchanges.mono {t : Relay} (h : Exchanges calm s request c) (hcurrent : t.current = s.current)
    (hchannel : t.turns.state.channel = s.turns.state.channel) (hinits : t.peer.inits = s.peer.inits)
    (hinbox : ∀ raw ∈ t.peer.inbox, raw ∈ s.peer.inbox) : Exchanges calm t request c :=
  ⟨hcurrent.trans h.current, h.command, hchannel.trans h.channel, hinits.trans h.inits,
    fun hcalm raw hraw => h.alone hcalm raw (hinbox raw hraw)⟩

theorem Exchanges.not_ready (h : Exchanges calm s request c) (c' : ChannelId) :
    s.turns.state.channel ≠ .ready c' := by
  rw [h.channel]
  exact Channel.noConfusion

theorem Exchanges.touch (h : Exchanges calm s request c)
    (hbusy : calm = true → ∀ c, ¬ (s.peer.ports c).Quiet → s.turns.state.channel = .busy c)
    (ht : Token.Touches calm c' s.peer q) : Exchanges calm { s with peer := q } request c := by
  refine ⟨h.current, h.command, h.channel, ht.inits.trans h.inits, fun hcalm raw hraw => ?_⟩
  have hc' := hbusy hcalm c' ht.pending
  rw [h.channel] at hc'
  cases hc'
  obtain ⟨posted, hmail, hposted⟩ := ht.mail
  change raw ∈ q.inbox at hraw
  rw [Token.inbox_of_mail ht.front hmail ht.packetSize, List.mem_append] at hraw
  rcases hraw with hraw | hraw
  · exact h.alone hcalm raw hraw
  · obtain ⟨letter, hletter, hraw⟩ := List.mem_flatMap.1 hraw
    obtain ⟨raw', rfl, hstray⟩ := hposted letter hletter
    rw [Letter.packets, List.mem_singleton] at hraw
    rw [hraw, hstray.onChannel, beq_iff_eq]

theorem Owns.touch {n : Nat} (h : Owns s request c n) (ht : Token.Touches calm c' s.peer q) :
    Owns { s with peer := q } request c n :=
  ⟨h.own, ht.requests ▸ h.taken⟩

/-- The answer to the request of the call stays, whatever happens on other channels. -/
theorem Owns.answer {n : Nat} (h : Owns s request c n) (ht : Token.Touches calm c' s.peer q)
    (hc : c ≠ c') : q.answers n = s.peer.answers n :=
  ht.answers n _ h.taken hc

/-- What the token does on a channel leaves a call where it stands, unless the call exchanges
messages there. -/
theorem Stands.touch (h : Stands calm ahead s s.call?)
    (hbusy : calm = true → ∀ c, ¬ (s.peer.ports c).Quiet → s.turns.state.channel = .busy c)
    (hready : ∀ c, s.turns.state.channel = .ready c → s.peer.Clean c)
    (ht : Token.Touches calm c' s.peer q)
    (hown : ∀ x, s.call? = some (.exchanging c' x) →
      Stands calm ahead { s with peer := q } (some (.exchanging c' x))) :
    Stands calm ahead { s with peer := q } s.call? := by
  generalize s.call? = call at h hown ⊢
  obtain ⟨posted, hmail, hposted⟩ := ht.mail
  have howed (hs : ChannelId) : posted.countP (Letter.greets hs) = 0 :=
    Token.countP_greets_packets hposted hs
  have hwelcome {letters : List Letter} {c : ChannelId} {w : Welcome}
      (hw : Letter.welcome c w ∈ letters ++ posted) : Letter.welcome c w ∈ letters := by
    rcases List.mem_append.1 hw with hw | hw
    · exact hw
    · obtain ⟨raw, hletter, -⟩ := hposted _ hw
      cases hletter
  cases h with
  | idle => exact .idle
  | greeting opens expects owed =>
    refine .greeting (opens.peer q) (expects.mono (ht.intake _)) ?_
    change q.owed _ = ahead
    rw [Token.owed, ht.inits, hmail, List.countP_append, howed, Nat.add_zero]
    exact owed
  | pending opens quiet mine others welcomes owed =>
    refine .pending (opens.peer q) (ht.quiet quiet) (ht.inits.trans mine) others ?_ ?_
    · intro c w hw
      exact welcomes c w (hwelcome (hmail ▸ hw))
    · change _ + q.mail.countP _ = ahead
      rw [hmail, List.countP_append, howed, Nat.add_zero]
      exact owed
  | @greeted _ _ before behind w opens quiet mail others mine grants owed =>
    have hcalm := opens.not_touched quiet hbusy ht
    refine .greeted (opens.peer q) (ht.quiet quiet) ?_ others mine
      (grants.touch hcalm ht hposted) owed
    change q.mail = _
    rw [hmail, mail, List.append_assoc]
    rfl
  | misled opens quiet rest nonce version other owed =>
    refine .misled (opens.peer q) (ht.quiet quiet) ?_ nonce version other owed
    change Reader.feed _ q.front = _
    rw [ht.front]
    exact rest
  | welcomed opens quiet rest mine grants owed =>
    have hcalm := opens.not_touched quiet hbusy ht
    refine .welcomed (opens.peer q) (ht.quiet quiet) ?_ mine ?_ owed
    · change Reader.feed _ q.front = _
      rw [ht.front]
      exact rest
    · change Grants calm { s with peer := q } _ _ q.mail
      rw [hmail]
      exact grants.touch hcalm ht hposted
  | @asking request c raw rest exchanges expects clean owed =>
    exact .asking (exchanges.touch hbusy ht) (expects.mono (ht.intake _)) (ht.clean clean) owed
  | @waiting request c n r exchanges owns debts response selective channel keepalives owed =>
    by_cases hc : c = c'
    · subst hc
      exact hown _ rfl
    · refine .waiting (exchanges.touch hbusy ht) (owns.touch ht) ?_ ?_ selective channel ?_ owed
      · change (q.ports c).debts = _
        rw [ht.ports c hc, debts]
      · change (q.ports c).response = _
        rw [ht.ports c hc, response]
      · change Reader.feed _ (q.queued c) = _
        rw [ht.queued hc]
        exact keepalives
  | @answered request c n r a exchanges owns debts answer selective channel rest message owed =>
    by_cases hc : c = c'
    · subst hc
      exact hown _ rfl
    · refine .answered (exchanges.touch hbusy ht) (owns.touch ht) ?_ ?_ selective channel ?_ message
        owed
      · change (q.ports c).debts = _
        rw [ht.ports c hc, debts]
      · change q.answers n = _
        rw [owns.answer ht hc, answer]
      · change r.feed (q.queued c ++ (q.ports c).response) = _
        rw [ht.queued hc, ht.ports c hc]
        exact rest
  -- The channel is ready, hence clean, and the token does something only where it has something
  -- pending.
  | @served request c n payload current channel owns answer owed =>
    have hc : c ≠ c' := by
      rintro rfl
      exact ht.pending (hready c channel).1
    refine .served current channel (owns.touch ht) ?_ owed
    change q.answers n = _
    rw [owns.answer ht hc, answer]
  | failed current reason => exact .failed current reason

/-- A keepalive, the answer to its request, or a packet of it comes to a call that exchanges
messages. -/
private theorem Stands.touch_own {x : Exchange}
    (h : Stands calm ahead s (some (.exchanging c x))) (hsound : s.peer.Sound calm)
    (hbusy : calm = true → ∀ c, ¬ (s.peer.ports c).Quiet → s.turns.state.channel = .busy c)
    {act : Token.Act} (hchannel : act.channel? = some c) (hcalm : calm = true → act.isCalm = true)
    (hact : s.peer.act? act = some q) :
    Stands calm ahead { s with peer := q } (some (.exchanging c x)) := by
  have ht := hsound.touches hchannel hact
  cases h with
  | asking exchanges expects clean owed => exact absurd clean.1 ht.pending
  | @waiting request c n r exchanges owns debts response selective channel keepalives owed =>
    have hexchanges := exchanges.touch hbusy ht
    have howns := owns.touch ht
    cases act with
    | greet => cases hchannel
    | keepalive channel' status =>
      cases hchannel
      obtain ⟨-, -, hq⟩ := Token.act?_keepalive hact
      have hdecode := @Packet.decode_encode_initial s.peer.packetSize c Command.keepalive.toByte rfl
        1 [status]
      have hon : onChannel c (keepalivePacket s.peer.packetSize c status) = true :=
        (Token.onChannel_of_decode hdecode).trans (beq_self_eq_true c)
      have hqueued : q.queued c = s.peer.queued c ++
          [keepalivePacket s.peer.packetSize c status] :=
        Token.queued_of_packet ht.front (by rw [hq]) ht.packetSize hon
      refine .waiting hexchanges howns ?_ ?_ selective channel ?_ owed
      · change (q.ports c).debts = _
        rw [hq, debts]
      · change (q.ports c).response = _
        rw [hq, response]
      · change Reader.feed _ (q.queued c) = _
        rw [hqueued, Reader.feed_append, keepalives]
        refine Reader.feed_cons_none (Reader.push_keepalive hdecode ?_) []
        rw [Token.Command.toByte_masked]
        exact (Token.isRequest_ne exchanges.command).2.2.1.symm
    | answer channel' a =>
      cases hchannel
      obtain ⟨m, command, debts', hdebts, hfits, hq⟩ := Token.act?_answer hact
      -- The request of the call is all that is pending, so it is the one that is answered.
      rw [debts] at hdebts
      cases hdebts
      have hport : q.ports c = { s.peer.ports c with
          debts := []
          response := (s.peer.ports c).response ++
            a.packets s.peer.packetSize c request.command.toByte } := by
        rw [hq]
        exact Token.withPort_self ..
      have hqueued : q.queued c = s.peer.queued c := by rw [hq]; rfl
      refine .answered hexchanges howns ?_ ?_ selective channel ?_ hcalm owed
      · change (q.ports c).debts = _
        rw [hport]
      · change q.answers n = _
        rw [hq]
        exact if_pos rfl
      · change Reader.feed _ (q.queued c ++ (q.ports c).response) = _
        rw [hqueued, hport, response, List.nil_append, Reader.feed_append, keepalives]
        exact Token.feed_answer exchanges.command hfits
    | emit channel =>
      cases hchannel
      obtain ⟨raw, response', hresponse, -⟩ := Token.act?_emit hact
      rw [response] at hresponse
      cases hresponse
  -- Nothing is pending any more, so the token can only send what is left of the answer.
  | @answered request c n r a exchanges owns debts answer selective channel rest message owed =>
    cases act with
    | greet => cases hchannel
    | keepalive channel status =>
      cases hchannel
      exact absurd debts (Token.act?_keepalive hact).1
    | answer channel a =>
      cases hchannel
      obtain ⟨m, command, debts', hdebts, -⟩ := Token.act?_answer hact
      rw [debts] at hdebts
      cases hdebts
    | emit channel' =>
      cases hchannel
      obtain ⟨raw, response, hresponse, hq⟩ := Token.act?_emit hact
      have hport : q.ports c = { s.peer.ports c with response } := by
        rw [hq]
        exact Token.withPort_self ..
      have hon : onChannel c raw = true := by
        rw [(hsound.response c raw (by rw [hresponse]; simp)).onChannel, beq_self_eq_true]
      have hqueued : q.queued c = s.peer.queued c ++ [raw] :=
        Token.queued_of_packet ht.front (by rw [hq]) ht.packetSize hon
      refine .answered (exchanges.touch hbusy ht) (owns.touch ht) ?_ ?_ selective channel ?_ message
        owed
      · change (q.ports c).debts = _
        rw [hport, debts]
      · change q.answers n = _
        rw [hq]
        exact answer
      · change r.feed (q.queued c ++ (q.ports c).response) = _
        rw [hqueued, hport, List.append_assoc, ← rest, hresponse]
        rfl

/-- **The answer to an INIT leaves a call where it stands**, or is what the call waits for. -/
theorem Stands.greet (h : Stands calm ahead s s.call?) (hsound : s.peer.Sound calm)
    (hchannel : ∀ c, s.turns.state.channel = .ready c ∨ s.turns.state.channel = .busy c →
      c ∈ s.peer.issued)
    (hready : ∀ c, s.turns.state.channel = .ready c → s.peer.inits = [])
    (hact : s.peer.act? (.greet w) = some q) :
    Stands calm ahead { s with peer := q } s.call? := by
  have howed := Token.owed_of_greet hact
  obtain ⟨c₀, n₀, inits, hinits, hsuits, hq⟩ := Token.act?_greet hact
  have hne : s.peer.inits ≠ [] := by simp [hinits]
  generalize s.call? = call at h ⊢
  cases h with
  | idle => exact .idle
  | greeting opens expects owed =>
    refine .greeting (opens.peer q) (expects.mono (by rw [hq])) ?_
    exact (howed _).trans owed
  | @pending request hs older opens quiet mine others welcomes owed =>
    simp only [Token.suits, Bool.and_eq_true, beq_iff_eq, decide_eq_true_eq] at hsuits
    obtain ⟨⟨⟨hnonce, hversion⟩, hsize⟩, hgrant⟩ := hsuits
    rw [hinits] at mine
    rcases older with _ | ⟨first, older⟩
    · -- It is the answer to the INIT of the call.
      rw [List.nil_append] at mine
      cases mine
      have hgrants : Grants calm { s with peer := q } c₀ w [] := by
        refine ⟨fun hother => ?_, ?_, ?_, by simp, by rw [hq], ?_, hversion, fun _ => rfl⟩
        · rw [if_neg hother, beq_iff_eq] at hgrant
          exact hgrant
        · change w.channel ∈ q.issued
          rw [hq]
          by_cases hbroadcast : c₀ = broadcast
          · simp only [if_pos hbroadcast]
            exact List.mem_append_right _ (List.mem_singleton_self _)
          · rw [if_neg hbroadcast, beq_iff_eq] at hgrant
            simp only [if_neg hbroadcast, hgrant]
            rcases opens.channel with ⟨-, hc₀⟩ | hbusy
            · exact absurd hc₀ hbroadcast
            · exact hchannel c₀ (.inr hbusy)
        · change (q.ports w.channel).Quiet
          rw [hq]
          by_cases hbroadcast : c₀ = broadcast
          · rw [if_pos hbroadcast, Bool.and_eq_true, bne_iff_ne, Bool.not_eq_true',
              List.contains_eq_mem, decide_eq_false_iff_not] at hgrant
            exact (hsound.clean hgrant.1 hgrant.2).1
          · rw [if_neg hbroadcast, beq_iff_eq] at hgrant
            rw [hgrant]
            exact quiet
        · rw [hnonce]
          exact opens.nonce
      refine .greeted (opens.peer q) ?_ ?_ welcomes hnonce hgrants ?_
      · change (q.ports c₀).Quiet
        rw [hq]
        exact quiet
      · change q.mail = _
        rw [hq]
      · rwa [List.countP_nil, Nat.zero_add] at owed
    · -- It is the answer to an earlier one.
      rw [List.cons_append] at mine
      obtain ⟨rfl, rfl⟩ := List.cons.inj mine
      have hlater : ∀ i ∈ older, i.2 ≠ request.nonce :=
        fun i hi => others i (List.mem_cons_of_mem _ hi)
      refine .pending (opens.peer q) ?_ ?_ hlater ?_ ?_
      · change (q.ports hs).Quiet
        rw [hq]
        exact quiet
      · change q.inits = _
        rw [hq]
      · intro c w' hw'
        change _ ∈ q.mail at hw'
        rw [hq] at hw'
        rcases List.mem_append.1 hw' with hw' | hw'
        · exact welcomes c w' hw'
        · rw [List.mem_singleton] at hw'
          cases hw'
          rw [hnonce]
          exact others (c₀, n₀) (List.mem_cons_self ..)
      · change _ + q.mail.countP _ = ahead
        have hmail : q.mail.countP (Letter.greets hs) =
            s.peer.mail.countP (Letter.greets hs) + if c₀ == hs then 1 else 0 := by
          rw [hq, List.countP_append, List.countP_singleton]
          rfl
        have hfirst : ((c₀, n₀) :: older).countP (·.1 == hs) =
            older.countP (·.1 == hs) + if c₀ == hs then 1 else 0 := List.countP_cons
        omega
  | greeted opens quiet mail others mine grants owed => exact absurd grants.inits hne
  | misled opens quiet rest nonce version other owed =>
    refine .misled (opens.peer q) ?_ ?_ nonce version other owed
    · change (q.ports _).Quiet
      rw [hq]
      exact quiet
    · change Reader.feed _ q.front = _
      rw [hq]
      exact rest
  | welcomed opens quiet rest mine grants owed => exact absurd grants.inits hne
  | asking exchanges expects clean owed => exact absurd exchanges.inits hne
  | waiting exchanges => exact absurd exchanges.inits hne
  | answered exchanges => exact absurd exchanges.inits hne
  | served current channel => exact absurd (hready _ channel) hne
  | failed current reason => exact .failed current reason

/-- **What the token does leaves a call where it stands.** -/
theorem Inv.stands_of_act (h : Inv calm ahead s) {act : Token.Act}
    (hcalm : calm = true → act.isCalm = true) (hact : s.peer.act? act = some q) :
    Stands calm ahead { s with peer := q } s.call? := by
  cases hc : act.channel? with
  | none =>
    cases act with
    | greet w => exact h.stands.greet h.sound h.channel (fun c hc => (h.ready c hc).2.1) hact
    | _ => cases hc
  | some c =>
    refine h.stands.touch h.busy (fun c hc => (h.ready c hc).1) (h.sound.touches hc hact) ?_
    intro x hx
    have hstands := h.stands
    rw [hx] at hstands
    exact hstands.touch_own h.sound h.busy hc hcalm hact

end Relay

end Ctap.Hid
