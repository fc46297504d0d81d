import Ctap.Proofs.Card.Applet

/-!
# What a card executes

Calls may fail at any command and may be dropped at any time. What a call leaves in the chain of the
card is gone with the next selection, and the applet is selected for a call unless the last one that
ended was a success. A call that began without a selection and is dropped in the middle of its chain
does not end: the applet still counts as selected, and the next call sends its commands behind what
is left. So what the card executes is always the payload of the call at work, with what such a call
has left in front of it.

## Main definitions

* `Relay`: an authenticator with its callers and its card.
* `Relay.leaves`, `Relay.leftover`: what is left of a chain when a call is dropped and the applet
  counts as selected.
* `Relay.Inv`: the invariant.

## Main results

* `Relay.Inv.step`, `Relay.Inv.run`: every step and every run keeps the invariant.
* `Relay.executes_own_request_iff`: what the card executes, and when it is the request alone.
* `Relay.dropped_of_leftover`: where a leftover comes from.
-/

namespace Ctap.Card

open Link (Conversation Move)

/-- An authenticator with its callers and its card. -/
abbrev Relay : Type := Session CardAuthenticator Request Exchange Applet

namespace Relay

/-- What can happen at a card reader. -/
abbrev Event : Type := Session.Event Request Bytes Applet.Act

/-- A reader into which a card was just put. -/
def fresh (extended : Bool) : Relay := Session.fresh (CardAuthenticator.fresh extended) Applet.fresh

/-- The rule that forbids nothing. -/
def free (_ : Relay) (_ : Event) : Bool := true

/-- What a step leaves in the chain for later calls: nothing if the chain is empty, and all of it if
the call at work goes and the applet counts as selected. -/
def leaves (s : Relay) (_ : Event) (t : Relay) : List Bytes :=
  if t.peer.chain = [] then [[]]
  else if s.turns.working.isSome ∧ t.turns.working.isNone ∧ t.turns.state.selected then
    [t.peer.chain]
  else []

/-- What is left in front of the next request after some events. -/
def leftover (extended : Bool) (events : List Event) : Bytes :=
  (Session.observe leaves (fresh extended) events).getLastD []

/-- What the chain of the card has to do with the call at work. -/
inductive Stands (s : Relay) (left : Bytes) : Option Exchange → Prop where
  | idle (settled : s.turns.state.selected = true → s.peer.chain = left) : Stands s left none
  | preparing {request : Request} (asked : s.current = some request)
    (unselected : s.turns.state.selected = false) :
    Stands s left
      (some (.command selectApplet (.preparing request.payload s.turns.state.extended)))
  | prepared {request : Request} (asked : s.current = some request) (empty : s.peer.chain = []) :
    Stands s left (some (.response (.preparing request.payload s.turns.state.extended)))
  /-- A command that the chain goes on behind is to be sent. -/
  | chaining {request : Request} {past data apdu : Bytes} {rest : List Bytes}
    (asked : s.current = some request) (short : s.turns.state.extended = false)
    (payload : request.payload = past ++ data) (nonempty : rest ≠ [])
    (carries : Carries data (apdu :: rest))
    (chain : s.peer.selected = true → s.peer.chain = left ++ past) :
    Stands s left (some (.command apdu (.chaining rest)))
  | chained {request : Request} {past data : Bytes} {rest : List Bytes}
    (asked : s.current = some request) (short : s.turns.state.extended = false)
    (payload : request.payload = past ++ data) (carries : Carries data rest)
    (chain : s.peer.selected = true → s.peer.chain = left ++ past) :
    Stands s left (some (.response (.chaining rest)))
  | finishing {request : Request} {past data apdu : Bytes}
    (asked : s.current = some request) (payload : request.payload = past ++ data)
    (carries : Carries data [apdu])
    (chain : s.peer.selected = true → s.peer.chain = left ++ past) :
    Stands s left (some (.command apdu (.collecting [] 0)))
  | asking {body : Bytes} {rounds : Nat} (empty : s.peer.chain = []) :
    Stands s left (some (.command getResponse (.collecting body rounds)))
  | collecting {body : Bytes} {rounds : Nat} (empty : s.peer.chain = []) :
    Stands s left (some (.response (.collecting body rounds)))
  | served {body : Bytes} (empty : s.peer.chain = []) : Stands s left (some (.ended (.ok body)))
  | failed {cause : Link.Error} (unselected : s.turns.state.selected = false) :
    Stands s left (some (.ended (.error cause)))

/-- What holds after any events, where `left` is left in front of the next request. -/
structure Inv (extended : Bool) (s : Relay) (left : Bytes) : Prop where
  /-- Requests are sent whole, or in chains, as it was set. -/
  mode : s.turns.state.extended = extended
  cancels : s.cancels = []
  /-- There is no chain while the applet is not selected. -/
  unselected : s.peer.selected = false → s.peer.chain = []
  /-- Nothing is left in front of a request if there is no chain. -/
  clean : s.peer.chain = [] → left = []
  whole : extended = true → s.peer.chain = []
  stands : Stands s left s.call?

variable {extended : Bool} {s t : Relay} {left : Bytes}

/-! ### What is left -/

private theorem left_of_stay {e : Event}
    (hstay : s.turns.working.isSome = true → t.turns.working.isNone = false) :
    (leaves s e t).getLastD left = if t.peer.chain = [] then [] else left := by
  rw [leaves]
  split_ifs with hempty hgone
  · rfl
  · rw [hstay hgone.1] at hgone
    exact absurd hgone.2.1 Bool.false_ne_true
  · rfl

private theorem chain_eq_of_eq {chain past : Bytes} (h : chain = left ++ past) :
    chain = (if chain = [] then [] else left) ++ past := by
  split_ifs with hempty
  · rw [hempty, List.nil_append]
    rw [hempty] at h
    exact (List.append_eq_nil_iff.1 h.symm).2.symm
  · exact h

/-- Nothing changes for a call if the chain stays, or if the card is reset. -/
theorem Stands.mono {call : Option Exchange} {left' : Bytes} (h : Stands s left call)
    (hcurrent : t.current = s.current) (hstate : t.turns.state = s.turns.state)
    (hempty : s.peer.chain = [] → t.peer.chain = [])
    (hchain : t.peer.selected = true →
      s.peer.selected = true ∧ t.peer.chain = s.peer.chain ∧ left' = left)
    (hsettled : s.peer.chain = left → t.peer.chain = left') : Stands t left' call := by
  have hpast {past : Bytes} (hpast : s.peer.selected = true → s.peer.chain = left ++ past)
      (hselected : t.peer.selected = true) : t.peer.chain = left' ++ past := by
    obtain ⟨hbefore, hsame, hleft⟩ := hchain hselected
    rw [hsame, hleft]
    exact hpast hbefore
  cases h with
  | idle settled => exact .idle fun hselected => hsettled (settled (hstate ▸ hselected))
  | preparing asked unselected =>
    rw [← hstate]
    exact .preparing (hcurrent ▸ asked) (hstate ▸ unselected)
  | prepared asked empty =>
    rw [← hstate]
    exact .prepared (hcurrent ▸ asked) (hempty empty)
  | chaining asked short payload nonempty carries chain =>
    exact .chaining (hcurrent ▸ asked) (hstate ▸ short) payload nonempty carries (hpast chain)
  | chained asked short payload carries chain =>
    exact .chained (hcurrent ▸ asked) (hstate ▸ short) payload carries (hpast chain)
  | finishing asked payload carries chain =>
    exact .finishing (hcurrent ▸ asked) payload carries (hpast chain)
  | asking empty => exact .asking (hempty empty)
  | collecting empty => exact .collecting (hempty empty)
  | served empty => exact .served (hempty empty)
  | failed unselected => exact .failed (hstate ▸ unselected)

private theorem Inv.aside (h : Inv extended s left) {e : Event}
    (hstate : t.turns.state = s.turns.state) (hworking : t.turns.working = s.turns.working)
    (hcurrent : t.current = s.current) (hcancels : t.cancels = [])
    (hpeer : t.peer = s.peer ∨ t.peer.selected = false ∧ t.peer.chain = []) :
    Inv extended t ((leaves s e t).getLastD left) := by
  have hcall : t.call? = s.call? := by rw [Session.call?, Session.call?, hworking]
  rw [left_of_stay fun hsome => by rw [hworking, ← Option.not_isSome, hsome]; rfl]
  rcases hpeer with hpeer | ⟨hselected, hchain⟩
  · have hleft : (if t.peer.chain = [] then [] else left) = left := by
      split_ifs with hempty
      · exact (h.clean (hpeer ▸ hempty)).symm
      · rfl
    rw [hleft]
    refine ⟨hstate ▸ h.mode, hcancels, hpeer ▸ h.unselected, hpeer ▸ h.clean, hpeer ▸ h.whole, ?_⟩
    rw [hcall]
    exact h.stands.mono hcurrent hstate (fun hempty => hpeer ▸ hempty)
      (fun hselected => ⟨hpeer ▸ hselected, by rw [hpeer], rfl⟩) fun hsettled => hpeer ▸ hsettled
  · rw [if_pos hchain]
    refine ⟨hstate ▸ h.mode, hcancels, fun _ => hchain, fun _ => rfl, fun _ => hchain, ?_⟩
    rw [hcall]
    refine h.stands.mono hcurrent hstate (fun _ => hchain) ?_ fun _ => hchain
    intro htrue
    rw [hselected] at htrue
    cases htrue

/-! ### Steps of a call -/

private structure Comes (s t : Relay) (x : Exchange) : Prop where
  state : t.turns.state = (s.turns.state.record x).1
  call : t.call? = some (s.turns.state.record x).2
  cancels : t.cancels = s.cancels

private theorem comes_goOn {u : Relay} {call x : Exchange} (hcall : s.call? = some call)
    (hturns : u.turns = s.turns) (hcancels : u.cancels = s.cancels)
    (ht : t = u.goOn (s.turns.state.record x)) : Comes s t x := by
  subst ht
  refine ⟨rfl, ?_, hcancels⟩
  rw [Session.call?] at hcall
  rw [Session.call?_goOn, Session.call?, hturns, hcall, Option.map_some]

private theorem extended_record (a : CardAuthenticator) (x : Exchange) :
    (a.record x).1.extended = a.extended := by
  rcases x with _ | _ | ⟨_ | _⟩ <;> rfl

private theorem Inv.turn (h : Inv extended s left) {e : Event} {x : Exchange} (hx : Comes s t x)
    (hunselected : t.peer.selected = false → t.peer.chain = [])
    (hwhole : extended = true → t.peer.chain = [])
    (hstands : Stands t (if t.peer.chain = [] then [] else left)
      (some (s.turns.state.record x).2)) : Inv extended t ((leaves s e t).getLastD left) := by
  have hworking : t.turns.working.isNone = false := by
    have hcall := hx.call
    rcases hw : t.turns.working with _ | w
    · rw [Session.call?, hw] at hcall
      cases hcall
    · rfl
  rw [left_of_stay fun _ => hworking]
  refine ⟨?_, hx.cancels.trans h.cancels, hunselected, fun hempty => if_pos hempty, hwhole, ?_⟩
  · rw [hx.state, extended_record]
    exact h.mode
  · rw [hx.call]
    exact hstands

private theorem Inv.refuse (h : Inv extended s left) {e : Event} {cause : Link.Error}
    (hx : Comes s t (.ended (.error cause)))
    (hunselected : t.peer.selected = false → t.peer.chain = [])
    (hwhole : extended = true → t.peer.chain = []) :
    Inv extended t ((leaves s e t).getLastD left) :=
  h.turn hx hunselected hwhole (.failed (by rw [hx.state]; rfl))

private theorem stands_sendAll {request : Request} {past data : Bytes} {commands : List Bytes}
    (hasked : t.current = some request) (hpayload : request.payload = past ++ data)
    (hcarries : Carries data commands)
    (hshort : t.turns.state.extended = false ∨ ∃ command, commands = [command])
    (hchain : t.peer.selected = true → t.peer.chain = left ++ past) :
    Stands t left (some (Exchange.sendAll (.ok commands))) := by
  rcases commands with _ | ⟨apdu, _ | ⟨next, rest⟩⟩
  · exact absurd rfl hcarries.ne_nil
  · exact .finishing hasked hpayload hcarries hchain
  · rcases hshort with hshort | ⟨command, hone⟩
    · exact .chaining hasked hshort hpayload (List.cons_ne_nil _ _) hcarries hchain
    · cases hone

private theorem record_sendAll (a : CardAuthenticator) {commands : List Bytes}
    (hne : commands ≠ []) :
    a.record (Exchange.sendAll (.ok commands)) = (a, Exchange.sendAll (.ok commands)) := by
  rcases commands with _ | ⟨apdu, _ | ⟨next, rest⟩⟩
  · exact absurd rfl hne
  · rfl
  · rfl

private theorem request_cases (payload : Bytes) (extended : Bool) :
    (∃ cause, Exchange.request payload extended = .ended (.error cause)) ∨
      ∃ commands, Exchange.request payload extended = Exchange.sendAll (.ok commands) ∧
        Carries payload commands ∧ (extended = false ∨ ∃ command, commands = [command]) := by
  cases extended with
  | false => exact .inr ⟨_, rfl, carries_chainedCommands payload, .inl rfl⟩
  | true =>
    rcases hcommands : extendedCommand payload with cause | commands
    · exact .inl ⟨cause, by simp only [Exchange.request, if_true, hcommands, Exchange.sendAll]⟩
    · obtain ⟨command, hone, hcarries⟩ := carries_extendedCommand hcommands
      exact .inr ⟨commands, by simp only [Exchange.request, if_true, hcommands], hcarries,
        .inr ⟨command, hone⟩⟩

private theorem Inv.request (h : Inv extended s left) {e : Event} {request : Request}
    (hx : Comes s t (Exchange.request request.payload s.turns.state.extended))
    (hchain : t.peer.chain = s.peer.chain) (hselected : t.peer.selected = s.peer.selected)
    (hasked : t.current = some request) (hleft : s.peer.chain = left) :
    Inv extended t ((leaves s e t).getLastD left) := by
  have hunselected : t.peer.selected = false → t.peer.chain = [] := by
    rw [hselected, hchain]
    exact h.unselected
  have hwhole : extended = true → t.peer.chain = [] := by
    rw [hchain]
    exact h.whole
  rcases request_cases request.payload s.turns.state.extended with
    ⟨cause, hrefused⟩ | ⟨commands, hcommands, hcarries, hshort⟩
  · rw [hrefused] at hx
    exact h.refuse hx hunselected hwhole
  · rw [hcommands] at hx
    refine h.turn hx hunselected hwhole ?_
    have hstate := hx.state
    rw [record_sendAll _ hcarries.ne_nil] at hstate ⊢
    refine stands_sendAll hasked (List.nil_append _).symm hcarries (hstate ▸ hshort) fun _ => ?_
    exact chain_eq_of_eq ((hchain.trans hleft).trans (List.append_nil _).symm)

/-- What a command finds on the card and makes of it: the chain grows by its data or is executed
behind what was left. -/
private theorem Inv.hear (h : Inv extended s left) {call : Exchange} {packet : Bytes}
    (hwriting : s.writing? = some (call, packet)) (response : Bytes) :
    ∃ phase, call = .command packet phase ∧
      (extended = true → (s.peer.hear response packet).chain = []) ∧
      ((s.peer.hear response packet).selected = false →
        (s.peer.hear response packet).chain = []) ∧
      (∀ u : Relay, u.current = s.current → u.turns.state = s.turns.state →
        u.peer = s.peer.hear response packet →
        Stands u (if u.peer.chain = [] then [] else left) (some (.response phase))) ∧
      ((s.peer.hear response packet).executed = s.peer.executed ∨
        ∃ request, s.current = some request ∧
          (s.peer.hear response packet).executed =
            s.peer.executed ++ [left ++ request.payload]) := by
  obtain ⟨hcall, hmove⟩ := Session.writing?_eq_some.1 hwriting
  have hstands := h.stands
  rw [hcall] at hstands
  cases hstands with
  | @preparing request asked unselected =>
    cases hmove
    have hhear : s.peer.hear response selectApplet = _ := Applet.hear_select (by decide) response
    refine ⟨_, rfl, ?_, ?_, ?_, .inl ?_⟩
    · rw [hhear]
      exact fun _ => rfl
    · rw [hhear]
      exact fun _ => rfl
    · intro u hcurrent hstate hpeer
      rw [← hstate]
      exact .prepared (hcurrent ▸ asked) (by rw [hpeer, hhear])
    · rw [hhear]
  | @chaining request past data apdu rest asked short payload nonempty carries chain =>
    cases hmove
    cases carries with
    | last => exact absurd rfl nonempty
    | @more _ data _ hchained hrest =>
      have hwhole : extended = true → (s.peer.hear response packet).chain = [] := by
        intro hextended
        rw [← h.mode, short] at hextended
        cases hextended
      have hpayload : request.payload = (past ++ commandData packet) ++ data := by
        rw [payload, List.append_assoc]
      by_cases hselected : s.peer.selected = true
      · have hhear := Applet.hear_chaining hselected hchained response
        refine ⟨_, rfl, hwhole, ?_, ?_, .inl ?_⟩
        · rw [hhear]
          intro hfalse
          cases hfalse
        · intro u hcurrent hstate hpeer
          refine .chained (hcurrent ▸ asked) (hstate ▸ short) hpayload hrest fun _ => ?_
          apply chain_eq_of_eq
          rw [hpeer, hhear, chain hselected, List.append_assoc]
        · rw [hhear]
      · have hselected := Bool.not_eq_true _ ▸ hselected
        have hhear := Applet.hear_unselected hselected (Applet.isSelect_of_isChained hchained)
          response
        refine ⟨_, rfl, hwhole, ?_, ?_, .inl ?_⟩
        · rw [hhear]
          exact fun _ => h.unselected hselected
        · intro u hcurrent hstate hpeer
          -- The applet is not selected, and what is said of its chain holds for want of one.
          refine .chained (hcurrent ▸ asked) (hstate ▸ short) hpayload hrest fun htrue => ?_
          rw [hpeer, hhear, hselected] at htrue
          cases htrue
        · rw [hhear]
  | @finishing request past data apdu asked payload carries chain =>
    cases hmove
    cases carries with
    | more _ hrest => exact absurd rfl hrest.ne_nil
    | last hlast =>
      by_cases hselected : s.peer.selected = true
      · have hhear := Applet.hear_last hselected hlast response
        refine ⟨_, rfl, ?_, ?_, ?_, .inr ⟨request, asked, ?_⟩⟩
        · rw [hhear]
          exact fun _ => rfl
        · rw [hhear]
          exact fun _ => rfl
        · intro u hcurrent hstate hpeer
          exact .collecting (by rw [hpeer, hhear])
        · rw [hhear, chain hselected, payload, List.append_assoc]
      · have hselected := Bool.not_eq_true _ ▸ hselected
        have hhear := Applet.hear_unselected hselected (Applet.isSelect_of_isLast hlast) response
        have hempty : (s.peer.hear response packet).chain = [] := by
          rw [hhear]
          exact h.unselected hselected
        refine ⟨_, rfl, fun _ => hempty, fun _ => hempty, ?_, .inl ?_⟩
        · intro u hcurrent hstate hpeer
          exact .collecting (by rw [hpeer, hempty])
        · rw [hhear]
  | asking empty =>
    cases hmove
    have hhear := s.peer.hear_getResponse response
    have hempty : (s.peer.hear response getResponse).chain = [] := by
      rw [hhear]
      exact empty
    refine ⟨_, rfl, fun _ => hempty, fun _ => hempty, ?_, .inl ?_⟩
    · intro u hcurrent hstate hpeer
      exact .collecting (by rw [hpeer, hempty])
    · rw [hhear]
  -- A call that waits for a response or has ended sends no command.
  | prepared => cases hmove
  | chained => cases hmove
  | collecting => cases hmove
  | served => cases hmove
  | failed => cases hmove

/-- **A command comes to the card.** -/
theorem Inv.write (h : Inv extended s left) {response : Bytes}
    (hstep : s.step? (.write response) = some t) :
    Inv extended t ((leaves s (.write response) t).getLastD left) := by
  obtain ⟨call, packet, peer, hwriting, hhear, ht⟩ := Session.step?_write.1 hstep
  cases hhear
  obtain ⟨phase, rfl, hwhole, hunselected, hstands, -⟩ := h.hear hwriting response
  obtain ⟨hcall, -⟩ := Session.writing?_eq_some.1 hwriting
  have hx : Comes s t (.response phase) :=
    comes_goOn (u := s.handOver _) hcall rfl rfl ht
  subst ht
  exact h.turn hx hunselected hwhole (hstands _ rfl rfl rfl)

/-- A command comes to the card, and the call does not learn of it. -/
theorem Inv.breakOff (h : Inv extended s left) {response : Bytes} {cause : Link.Error}
    (hstep : s.step? (.breakOff response cause) = some t) :
    Inv extended t ((leaves s (.breakOff response cause) t).getLastD left) := by
  obtain ⟨call, packet, peer, hwriting, hhear, ht⟩ := Session.step?_breakOff.1 hstep
  cases hhear
  obtain ⟨phase, rfl, hwhole, hunselected, -, -⟩ := h.hear hwriting response
  obtain ⟨hcall, -⟩ := Session.writing?_eq_some.1 hwriting
  have hx : Comes s t (.ended (.error cause)) :=
    comes_goOn (u := s.handOver _) hcall rfl rfl ht
  subst ht
  exact h.refuse hx hunselected hwhole

theorem Inv.lose (h : Inv extended s left) {cause : Link.Error}
    (hstep : s.step? (.lose cause) = some t) :
    Inv extended t ((leaves s (.lose cause) t).getLastD left) := by
  obtain ⟨call, packet, hwriting, ht⟩ := Session.step?_lose.1 hstep
  obtain ⟨hcall, hmove⟩ := Session.writing?_eq_some.1 hwriting
  have hx : Comes s t (.ended (.error cause)) := by
    cases call with
    | command apdu phase => exact comes_goOn hcall rfl rfl ht
    | response => cases hmove
    | ended => cases hmove
  subst ht
  exact h.refuse hx h.unselected h.whole

private theorem eq_response {a : CardAuthenticator} {call : Exchange}
    (h : Authenticator.move a call = .receive) : ∃ phase, call = .response phase := by
  cases call with
  | command => cases h
  | response phase => exact ⟨phase, rfl⟩
  | ended => cases h

theorem Inv.fail (h : Inv extended s left) {cause : Link.Error}
    (hstep : s.step? (.fail cause) = some t) :
    Inv extended t ((leaves s (.fail cause) t).getLastD left) := by
  obtain ⟨call, hreading, ht⟩ := Session.step?_fail.1 hstep
  obtain ⟨hcall, hmove⟩ := Session.reading?_eq_some.1 hreading
  obtain ⟨phase, rfl⟩ := eq_response hmove
  have hx : Comes s t (.ended (.error cause)) := comes_goOn hcall rfl rfl ht
  subst ht
  exact h.refuse hx h.unselected h.whole

/-- **The answer to a command is taken.** -/
theorem Inv.take (h : Inv extended s left) (hstep : s.step? .take = some t) :
    Inv extended t ((leaves s .take t).getLastD left) := by
  obtain ⟨call, packet, peer, hreading, hnext, ht⟩ := Session.step?_take.1 hstep
  obtain ⟨hcall, hmove⟩ := Session.reading?_eq_some.1 hreading
  obtain ⟨phase, rfl⟩ := eq_response hmove
  obtain ⟨-, rfl⟩ := Applet.next?_eq_some.1 hnext
  have hx : Comes s t ((Exchange.response phase).received (.ok packet)) :=
    comes_goOn (u := { s with peer := { s.peer with response := none } }) hcall rfl rfl ht
  have hasked : t.current = s.current := by rw [ht]; rfl
  have hchain : t.peer.chain = s.peer.chain := by rw [ht]; rfl
  have hselected : t.peer.selected = s.peer.selected := by rw [ht]; rfl
  have hunselected : t.peer.selected = false → t.peer.chain = [] := by
    rw [hselected, hchain]
    exact h.unselected
  have hwhole : extended = true → t.peer.chain = [] := by
    rw [hchain]
    exact h.whole
  have hstands := h.stands
  rw [hcall] at hstands
  rw [Exchange.received] at hx
  rcases hsplit : StatusWord.split packet with cause | ⟨body, status⟩
  · rw [hsplit] at hx
    exact h.refuse hx hunselected hwhole
  · rw [hsplit] at hx
    simp only at hx
    cases hstands with
    | @prepared request asked empty =>
      rw [Exchange.answered] at hx
      split_ifs at hx
      · exact h.request hx hchain hselected (hasked.trans asked) (empty.trans (h.clean empty).symm)
      · exact h.refuse hx hunselected hwhole
    | @chained request past data rest asked short payload carries chain =>
      rw [Exchange.answered] at hx
      split_ifs at hx
      · refine h.turn hx hunselected hwhole ?_
        have hstate := hx.state
        rw [record_sendAll _ carries.ne_nil] at hstate ⊢
        refine stands_sendAll (hasked.trans asked) payload carries (.inl (hstate ▸ short)) ?_
        intro htrue
        exact chain_eq_of_eq (hchain.trans (chain (hselected ▸ htrue)))
      · exact h.refuse hx hunselected hwhole
    | collecting empty =>
      have hempty := hchain.trans empty
      rw [Exchange.answered] at hx
      by_cases hsuccess : status.isSuccess = true
      · rw [if_pos hsuccess] at hx
        exact h.turn hx hunselected hwhole (.served hempty)
      · rw [if_neg hsuccess] at hx
        rcases hmore : status.moreData? with _ | more
        · rw [hmore] at hx
          exact h.refuse hx hunselected hwhole
        · rw [hmore] at hx
          simp only at hx
          split_ifs at hx
          · exact h.refuse hx hunselected hwhole
          · exact h.turn hx hunselected hwhole (.asking hempty)

/-- **A call begins**, with the selection of the applet or behind what is left. -/
theorem Inv.start (h : Inv extended s left) {now : Time} {caller : Caller}
    (hstep : s.step? (.start now caller) = some t) :
    Inv extended t ((leaves s (.start now caller) t).getLastD left) := by
  obtain ⟨request, rest, hidle, -, ht⟩ := Session.step?_start.1 hstep
  have hstands := h.stands
  rw [Session.call?, hidle] at hstands
  obtain ⟨settled⟩ := hstands
  have hx : Comes s t
      (.start request.payload (!s.turns.state.selected) s.turns.state.extended) := by
    subst ht
    exact ⟨rfl, rfl, rfl⟩
  have hasked : t.current = some request := by rw [ht]
  have hpeer : t.peer = s.peer := by rw [ht]
  rw [Exchange.start] at hx
  cases hselected : s.turns.state.selected with
  | false =>
    rw [hselected, Bool.not_false, if_pos rfl] at hx
    refine h.turn hx (hpeer ▸ h.unselected) (hpeer ▸ h.whole) ?_
    have hstate : t.turns.state = s.turns.state := hx.state
    have hstands : Stands t (if t.peer.chain = [] then [] else left)
        (some (.command selectApplet (.preparing request.payload t.turns.state.extended))) :=
      .preparing hasked (hstate ▸ hselected)
    rwa [hstate] at hstands
  | true =>
    rw [hselected, Bool.not_true, if_neg Bool.false_ne_true] at hx
    exact h.request hx (by rw [hpeer]) (by rw [hpeer]) hasked (settled hselected)

/-- **A caller goes.** If its call was at work and the applet counts as selected, what the card has
of a chain is left. -/
theorem Inv.leave (h : Inv extended s left) {caller : Caller}
    (hstep : s.step? (.leave caller) = some t) :
    Inv extended t ((leaves s (.leave caller) t).getLastD left) := by
  obtain ⟨ht, hworking⟩ := Session.step?_leave hstep
  have hpeer : t.peer = s.peer := by rw [ht]
  have hstate : t.turns.state = s.turns.state := by rw [ht]; rfl
  have hcancels : t.cancels = [] := by
    rw [ht]
    exact h.cancels
  split_ifs at hworking with hgone
  · have hsome : s.turns.working.isSome = true := by
      rcases hw : s.turns.working with _ | w
      · rw [hw] at hgone
        cases hgone
      · rfl
    have hcall : t.call? = none := by rw [Session.call?, hworking, Option.map_none]
    rw [leaves]
    split_ifs with hempty hleft
    · refine ⟨hstate ▸ h.mode, hcancels, fun _ => hempty, fun _ => rfl, fun _ => hempty, ?_⟩
      rw [hcall]
      exact .idle fun _ => hempty
    · refine ⟨hstate ▸ h.mode, hcancels, hpeer ▸ h.unselected, fun hnil => hnil,
        hpeer ▸ h.whole, ?_⟩
      rw [hcall]
      exact .idle fun _ => rfl
    · refine ⟨hstate ▸ h.mode, hcancels, hpeer ▸ h.unselected, fun hnil => absurd hnil hempty,
        hpeer ▸ h.whole, ?_⟩
      rw [hcall]
      refine .idle fun hselected => absurd ⟨hsome, ?_, hselected⟩ hleft
      rw [hworking]
      rfl
  · exact h.aside hstate hworking (by rw [ht]) hcancels (.inl hpeer)

/-! ### Runs -/

/-- **Every step keeps the invariant.** -/
theorem Inv.step (h : Inv extended s left) {e : Event} (hstep : s.step? e = some t) :
    Inv extended t ((leaves s e t).getLastD left) := by
  cases e with
  | arrive caller request =>
    cases hstep
    exact h.aside rfl rfl rfl h.cancels (.inl rfl)
  | start now caller => exact h.start hstep
  | write response => exact h.write hstep
  | breakOff response cause => exact h.breakOff hstep
  | lose cause => exact h.lose hstep
  | take => exact h.take hstep
  | fail cause => exact h.fail hstep
  | leave caller => exact h.leave hstep
  | cancel =>
    obtain ⟨packets, hpackets, rfl⟩ := Session.step?_cancel hstep
    have hnone : packets = [] := by
      rcases hpackets with hpackets | hpackets
      · cases hpackets
        rfl
      · exact hpackets
    refine h.aside rfl rfl rfl ?_ (.inl rfl)
    rw [hnone, h.cancels, List.append_nil]
  | signal response =>
    obtain ⟨packet, rest, peer, hcancels, -⟩ := Session.step?_signal.1 hstep
    rw [h.cancels] at hcancels
    cases hcancels
  | unsignal =>
    obtain ⟨packet, rest, hcancels, -⟩ := Session.step?_unsignal.1 hstep
    rw [h.cancels] at hcancels
    cases hcancels
  | act act =>
    obtain ⟨peer, hact, rfl⟩ := Session.step?_act.1 hstep
    cases hact
    cases act with
    | reset => exact h.aside rfl rfl rfl h.cancels (.inr ⟨rfl, rfl⟩)

theorem Inv.fresh (extended : Bool) : Inv extended (fresh extended) [] where
  mode := rfl
  cancels := rfl
  unselected _ := rfl
  clean _ := rfl
  whole _ := rfl
  stands := .idle fun _ => rfl

/-- **Every run keeps the invariant.** -/
theorem Inv.run {events : List Event}
    (hrun : Session.run? free (Relay.fresh extended) events = some t) :
    Inv extended t (leftover extended events) := by
  let P (u : Relay) (seen : List Bytes) : Prop := Inv extended u (seen.getLastD [])
  have hstart : P (Relay.fresh extended) [] := Inv.fresh extended
  refine Session.run?_induction_observe (f := leaves) (P := P) ?_ hstart hrun
  intro u seen e v hu _ hstep
  have hlast : (seen ++ leaves u e v).getLastD [] = (leaves u e v).getLastD (seen.getLastD []) := by
    simp only [List.getLastD_eq_getLast?, List.getLast?_append, Option.getD_or]
  show Inv extended v _
  rw [hlast]
  exact hu.step hstep

/-! ### What is executed -/

private theorem Inv.executes (h : Inv extended s left) {e : Event} (hstep : s.step? e = some t) :
    t.peer.executed = s.peer.executed ∨ ∃ w request, s.turns.working = some w ∧
      s.current = some request ∧
      t.peer.executed = s.peer.executed ++ [left ++ request.payload] := by
  -- What is heard is written by the call at work.
  have hheard {call : Exchange} {packet response : Bytes}
      (hwriting : s.writing? = some (call, packet))
      (hpeer : t.peer = s.peer.hear response packet) :
      t.peer.executed = s.peer.executed ∨ ∃ w request, s.turns.working = some w ∧
        s.current = some request ∧
        t.peer.executed = s.peer.executed ++ [left ++ request.payload] := by
    obtain ⟨phase, -, -, -, -, hexecuted⟩ := h.hear hwriting response
    obtain ⟨hcall, -⟩ := Session.writing?_eq_some.1 hwriting
    obtain ⟨w, hw, -⟩ := Option.map_eq_some_iff.1 hcall
    rw [hpeer]
    rcases hexecuted with hsame | ⟨request, hasked, hmore⟩
    · exact .inl hsame
    · exact .inr ⟨w, request, hw, hasked, hmore⟩
  cases e with
  | write response =>
    obtain ⟨call, packet, peer, hwriting, hhear, rfl⟩ := Session.step?_write.1 hstep
    cases hhear
    exact hheard hwriting rfl
  | breakOff response cause =>
    obtain ⟨call, packet, peer, hwriting, hhear, rfl⟩ := Session.step?_breakOff.1 hstep
    cases hhear
    exact hheard hwriting rfl
  | signal response =>
    obtain ⟨packet, rest, peer, hcancels, -⟩ := Session.step?_signal.1 hstep
    rw [h.cancels] at hcancels
    cases hcancels
  | arrive caller request =>
    cases hstep
    exact .inl rfl
  | start now caller =>
    obtain ⟨request, rest, -, -, rfl⟩ := Session.step?_start.1 hstep
    exact .inl rfl
  | lose cause =>
    obtain ⟨call, packet, -, rfl⟩ := Session.step?_lose.1 hstep
    exact .inl rfl
  | take =>
    obtain ⟨call, packet, peer, -, hnext, rfl⟩ := Session.step?_take.1 hstep
    obtain ⟨-, rfl⟩ := Applet.next?_eq_some.1 hnext
    exact .inl rfl
  | fail cause =>
    obtain ⟨call, -, rfl⟩ := Session.step?_fail.1 hstep
    exact .inl rfl
  | leave caller =>
    obtain ⟨rfl, -⟩ := Session.step?_leave hstep
    exact .inl rfl
  | cancel =>
    obtain ⟨packets, -, rfl⟩ := Session.step?_cancel hstep
    exact .inl rfl
  | unsignal =>
    obtain ⟨packet, rest, -, rfl⟩ := Session.step?_unsignal.1 hstep
    exact .inl rfl
  | act act =>
    obtain ⟨peer, hact, rfl⟩ := Session.step?_act.1 hstep
    cases hact
    cases act
    exact .inl rfl

/-- **Where a leftover comes from.** A call that was at work while the applet counted as selected
was dropped, with that much of its chain on the card. -/
theorem dropped_of_leftover {events : List Event}
    (hrun : Session.run? free (fresh extended) events = some t)
    (hleft : leftover extended events ≠ []) : ∃ before caller after u w,
      events = before ++ .leave caller :: after ∧
      Session.run? free (fresh extended) before = some u ∧ u.turns.working = some w ∧
      w.caller = caller ∧ u.turns.state.selected = true ∧
      u.peer.chain = leftover extended events := by
  have hmem : leftover extended events ∈ Session.observe leaves (fresh extended) events := by
    rw [leftover, List.getLastD_eq_getLast?] at hleft ⊢
    rcases hlast : (Session.observe leaves (fresh extended) events).getLast? with _ | left
    · rw [hlast] at hleft
      exact absurd rfl hleft
    · exact List.mem_of_getLast? hlast
  obtain ⟨before, e, after, u, v, rfl, hbefore, -, hstep, hleaves⟩ :=
    Session.exists_of_mem_observe hrun hmem
  rw [leaves] at hleaves
  split_ifs at hleaves with hempty hgone
  · exact absurd (List.mem_singleton.1 hleaves) hleft
  · obtain ⟨w, hw⟩ := Option.isSome_iff_exists.1 hgone.1
    -- Nothing but the caller going takes a call away.
    have hgoes : e = .leave w.caller := by
      by_contra hother
      have hstays : Session.staying free w.caller u e = true := by
        cases e with
        | leave caller =>
          have hne : caller ≠ w.caller := fun hsame => hother (by rw [hsame])
          simpa [Session.staying, free] using hne
        | _ => rfl
      obtain ⟨⟨w', hw', -⟩, -⟩ := Session.working_of_staying hstays hstep hw rfl
      rw [hw', Option.isNone_some] at hgone
      exact absurd hgone.2.1 Bool.false_ne_true
    subst hgoes
    obtain ⟨rfl, -⟩ := Session.step?_leave hstep
    exact ⟨before, _, after, u, w, rfl, hbefore, hw, rfl, hgone.2.2,
      (List.mem_singleton.1 hleaves).symm⟩
  · cases hleaves

/-- **What a card executes.** After any run, a step executes nothing, or the payload of the request
of the call at work behind what is left. So it is the payload alone if and only if nothing is left;
and where requests are sent whole, nothing ever is. What is left was left by a call that was dropped
in the middle of its chain, which it had begun while the applet counted as selected. -/
theorem executes_own_request_iff {events : List Event}
    (hrun : Session.run? free (fresh extended) events = some s) {e : Event}
    (hstep : s.step? e = some t) :
    (t.peer.executed = s.peer.executed ∨ ∃ w request command, s.turns.working = some w ∧
      s.current = some request ∧ t.peer.executed = s.peer.executed ++ [command] ∧
      command = leftover extended events ++ request.payload ∧
      (command = request.payload ↔ leftover extended events = []) ∧
      (extended = true → command = request.payload)) ∧
    (leftover extended events ≠ [] → ∃ before caller after u w,
      events = before ++ .leave caller :: after ∧
      Session.run? free (fresh extended) before = some u ∧ u.turns.working = some w ∧
      w.caller = caller ∧ u.turns.state.selected = true ∧
      u.peer.chain = leftover extended events) := by
  have h := Inv.run hrun
  refine ⟨?_, dropped_of_leftover hrun⟩
  rcases h.executes hstep with hsame | ⟨w, request, hw, hasked, hmore⟩
  · exact .inl hsame
  · refine .inr ⟨w, request, _, hw, hasked, hmore, rfl, List.append_left_eq_self, ?_⟩
    intro hwhole
    rw [h.clean (h.whole hwhole), List.nil_append]

/-- What the card says to a command that it carries out. -/
def success : Bytes := [0x90, 0x00]

/-- A first call selects the applet, sends `01`, and ends. -/
def firstCall : List Event :=
  [.arrive 1 ⟨[1]⟩, .start 0 1, .write success, .take, .write ([0x00] ++ success), .take, .leave 1]

/-- A second call sends the first command of a chain of two. -/
def secondCall : List Event := [.arrive 2 ⟨Bytes.zeros 255⟩, .start 1 2, .write success]

set_option maxRecDepth 4000 in
/-- A chain of two commands is executed as one, and as the request alone. -/
theorem executes_own_request_of_two_commands : ∃ s t,
    Session.run? free (fresh false) (firstCall ++ secondCall ++ [.take]) = some s ∧
    s.step? (.write success) = some t ∧ ∃ w request command, s.turns.working = some w ∧
      s.current = some request ∧ t.peer.executed = s.peer.executed ++ [command] ∧
      command = Bytes.zeros 255 ∧ command = request.payload := by
  obtain ⟨s, t, hrun, hstep, hbefore, hafter, hleft⟩ : ∃ s t,
      Session.run? free (fresh false) (firstCall ++ secondCall ++ [.take]) = some s ∧
      s.step? (.write success) = some t ∧ s.peer.executed = [[1]] ∧
      t.peer.executed = [[1], Bytes.zeros 255] ∧
      leftover false (firstCall ++ secondCall ++ [.take]) = [] :=
    ⟨_, _, rfl, rfl, rfl, rfl, rfl⟩
  rcases (executes_own_request_iff hrun hstep).1 with
    hsame | ⟨w, request, command, hw, hasked, hmore, -, halone, -⟩
  · rw [hbefore, hafter] at hsame
    cases hsame
  · have hcommand : command = Bytes.zeros 255 := by
      rw [hbefore, hafter, List.singleton_append, List.cons.injEq] at hmore
      exact (List.singleton_inj.1 hmore.2).symm
    exact ⟨s, t, hrun, hstep, w, request, command, hw, hasked, hmore, hcommand, halone.2 hleft⟩

set_option maxRecDepth 4000 in
/-- **A chain that was dropped in the middle gets in front of the next request.** The third call has
asked for `03`, and the card executes 254 zeros before it. -/
theorem executes_dropped_chain : ∃ s t w request,
    Session.run? free (fresh false) (firstCall ++ secondCall ++
      [.leave 2, .arrive 3 ⟨[3]⟩, .start 2 3]) = some s ∧
    s.step? (.write success) = some t ∧ s.turns.working = some w ∧ w.caller = 3 ∧
    s.current = some request ∧ request.payload = [3] ∧
    t.peer.executed = s.peer.executed ++ [Bytes.zeros 254 ++ [3]] :=
  ⟨_, _, _, _, rfl, rfl, rfl, rfl, rfl, rfl, rfl⟩

end Relay

end Ctap.Card
