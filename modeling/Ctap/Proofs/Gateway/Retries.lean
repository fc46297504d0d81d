import Ctap.Proofs.Gateway.Answering
import Ctap.Proofs.Gateway.Polling
import Ctap.Proofs.Gateway.Sharing

/-!
# Retries within the time for a request

When the devices follow a script, it is known what is done about them for a request, and with what
the request ends. The polls follow each other as planned until an attempt succeeds, the time for the
request is up, or the host has it given up. If the first attempt to succeed does so in time, the
host is told its response, and otherwise that the time was up. A device that still works on the
request when it stops is asked once to give it up, and no other device ever is.

## Main definitions

* `Ending`: with what a request stops, when, after which deeds, and which device works on it then.
* `Settled`: what has been done about the devices when the host is told.
* `Polled.Stands`: how far a request has got.
* `Polled.Ends`: whether events lead to the end of a request.

## Main results

* `Polled.Inv.step`: every event takes the request along its plan.
* `Polled.Inv.ends`: the request comes to its end.
* `Polled.retries_within_budget`: what is done for a request, and with what it ends.
-/

namespace Ctap.Gateway

open Hid (ChannelId)

variable {δ : Type}

/-! ### How far a request has got -/

/-- With what a request stops, when, after which deeds, and which device works on it then. -/
inductive Ending (p : Plan δ) (a : Accepted) (heard : List (Time × Happening)) :
    Time → Outcome → List (Time × Deed δ) → Option δ → Prop where
  /-- The first attempt to succeed does so in time. -/
  | answered {k : Nat} {body : Bytes} {device : δ} (success : p.FirstSuccess k body)
    (first : (p.polls k).device? = some device) (inTime : p.ends k ≤ p.deadline) :
    Ending p a heard (p.ends k) (.response body) (p.done a.request k (.exchanging device)) none
  | timedOut {n : Nat} {relay : Relay δ} (reaches : p.Reaches n relay)
    (begun : p.since n relay ≤ p.deadline) (early : p.deadline < p.due n relay)
    (late : ∀ k body, p.FirstSuccess k body → p.deadline < p.ends k) :
    Ending p a heard p.deadline .timedOut (p.done a.request n relay) relay.device?
  | aborted {now : Time} {reason : Abort} {n : Nat} {relay : Relay δ} (reaches : p.Reaches n relay)
    (begun : p.since n relay ≤ now) (waits : now ≤ p.due n relay) (inTime : now ≤ p.deadline)
    (asked : reason.Heard a.channel heard) :
    Ending p a heard now (.aborted reason) (p.done a.request n relay) relay.device?

/-- How a request has stopped after what was heard: it comes to an end, and only keepalives have
been sent. -/
structure Stopped (p : Plan δ) (a : Accepted) (heard : List (Time × Happening)) (now : Time)
    (outcome : Outcome) (done : List (Time × Deed δ)) (pending : Option δ) : Prop where
  ending : Ending p a heard now outcome done pending
  keepalives : ∃ n, sentBy a.id heard = List.replicate n (keepalive a.channel)
  past : ∀ z ∈ heard, z.1 ≤ now

/-- What has been done about the devices for a request when the host is told its outcome. -/
inductive Settled (p : Plan δ) (a : Accepted) (deeds : List (Time × Deed δ))
    (heard : List (Time × Happening)) : Time → Outcome → Prop where
  /-- No device worked on it when it stopped, and none is asked to give it up. -/
  | quiet {now : Time} {outcome : Outcome} {done : List (Time × Deed δ)}
    (stopped : Stopped p a heard now outcome done none)
    (all : deeds = done ++ [(now, .stopped outcome)]) : Settled p a deeds heard now outcome
  /-- The device that worked on it has been asked once to give it up. -/
  | cancelled {now : Time} {outcome : Outcome} {done : List (Time × Deed δ)} {device : δ}
    (stopped : Stopped p a heard now outcome done (some device))
    (all : deeds = done ++ [(now, .stopped outcome), (now + p.asking, .cancelled device)]) :
    Settled p a deeds heard (now + p.asking) outcome

/-- Whether all that is recorded of a request is of one instant. -/
def AtOnce (id : DispatchId) (now : Time) (trace : List (Time × Happening)) : Prop :=
  ∀ z ∈ trace, z.2.subject? = some id → z.1 = now

theorem AtOnce.append {id : DispatchId} {now : Time} {trace more : List (Time × Happening)}
    (h : AtOnce id now trace) (hmore : AtOnce id now more) : AtOnce id now (trace ++ more) :=
  fun z hz => (List.mem_append.1 hz).elim (h z) (hmore z)

variable {p : Plan δ} {a : Accepted} {deeds done : List (Time × Deed δ)}
  {heard : List (Time × Happening)} {now : Time} {outcome : Outcome}

theorem Ending.le_deadline {pending : Option δ} (h : Ending p a heard now outcome done pending) :
    now ≤ p.deadline := by
  cases h with
  | answered success first inTime => exact inTime
  | timedOut => exact Nat.le_refl _
  | aborted reaches begun waits inTime => exact inTime

/-- The outcome of a request is told within its time, or once its device was asked to give it up. -/
theorem Settled.le (h : Settled p a deeds heard now outcome) : now ≤ p.deadline + p.asking := by
  cases h with
  | quiet stopped => exact Nat.le_trans stopped.ending.le_deadline (Nat.le_add_right ..)
  | cancelled stopped => exact Nat.add_le_add_right stopped.ending.le_deadline _

namespace Polled

/-- How far a request has got that is being relayed. -/
structure Relayed (p : Plan δ) (a : Accepted) (s : Polled p.toScript a.id)
    (deeds : List (Time × Deed δ)) (relay : Relay δ) : Prop where
  /-- The relay stands as it can in the course of the poll. -/
  reaches : p.Reaches s.round relay
  /-- It has stood like this since the poll has come to this. -/
  since : s.since = p.since s.round relay
  all : deeds = p.done a.request s.round relay
  begun : s.since ≤ s.clock
  waits : s.clock ≤ p.due s.round relay
  inTime : s.clock ≤ p.deadline

/-- How far a request has got: what is done about the devices follows the plan. -/
inductive Stands (p : Plan δ) (a : Accepted) (s : Polled p.toScript a.id)
    (deeds : List (Time × Deed δ)) (trace : List (Time × Happening)) : Prop where
  | relaying {d : Dispatch δ} {relay : Relay δ} (found : s.gateway.dispatch? a.id = some d)
    (stage : d.stage.relay? = some relay) (relayed : Relayed p a s deeds relay)
  /-- The request has stopped, and its device is asked to give it up. -/
  | cancelling {d : Dispatch δ} {device : δ} {outcome : Outcome} {done : List (Time × Deed δ)}
    {heard later : List (Time × Happening)} (found : s.gateway.dispatch? a.id = some d)
    (stage : d.stage = .cancelling device outcome)
    (stopped : Stopped p a heard s.since outcome done (some device))
    (all : deeds = done ++ [(s.since, .stopped outcome)]) (split : trace = heard ++ later)
    (silent : ∀ z ∈ later, z.2.subject? ≠ some a.id) (begun : s.since ≤ s.clock)
    (waits : s.clock ≤ s.since + p.asking)
  | answering {d : Dispatch δ} {report : Bytes} {rest : List Bytes} {outcome : Outcome}
    {heard later : List (Time × Happening)} (found : s.gateway.dispatch? a.id = some d)
    (stage : d.stage = .answering report rest) (settled : Settled p a deeds heard s.clock outcome)
    (split : trace = heard ++ later) (atOnce : AtOnce a.id s.clock later)
    (said : outcome.Told a.channel (sentBy a.id later ++ report :: rest))
  /-- The host was told its outcome, and no other. -/
  | told {now : Time} {outcome : Outcome} {heard later : List (Time × Happening)}
    (gone : s.gateway.dispatch? a.id = none) (settled : Settled p a deeds heard now outcome)
    (split : trace = heard ++ later) (atOnce : AtOnce a.id now later)
    (said : outcome.Told a.channel (sentBy a.id later))
  /-- The host was told its outcome up to a report that was lost. -/
  | cutShort {now : Time} {outcome : Outcome} {heard later : List (Time × Happening)}
    {report : Bytes} {rest : List Bytes} (gone : s.gateway.dispatch? a.id = none)
    (settled : Settled p a deeds heard now outcome) (split : trace = heard ++ later)
    (atOnce : AtOnce a.id now later) (lost : (now, .lost (.dispatch a.id) report) ∈ later)
    (said : outcome.Told a.channel (sentBy a.id later ++ report :: rest))

/-- What is known of a gateway and of the request that it has accepted after `before`. -/
structure Inv (before : List (Time × Happening)) (p : Plan δ) (a : Accepted)
    (s : Polled p.toScript a.id) (deeds : List (Time × Deed δ)) (trace : List (Time × Happening)) :
    Prop where
  accounts : Accounts p.config s.gateway (before ++ (p.start, .accepted a) :: trace)
  past : ∀ z ∈ trace, z.1 ≤ s.clock
  stands : Stands p a s deeds trace

variable {before trace : List (Time × Happening)} {s t : Polled p.toScript a.id} {g : System δ}
  {table : ChannelTable} {e : Event δ} {d d' : Dispatch δ} {relay : Relay δ}

namespace Inv

theorem known (hs : Inv before p a s deeds trace) (hd : s.gateway.dispatch? a.id = some d) :
    d.channel = a.channel ∧ d.request = a.request := by
  obtain ⟨-, -, hkept, -⟩ := hs.accounts.accounts _ _ _ _ rfl
  exact hkept d hd

/-- What is known of a request that is relayed. -/
theorem known_relayed (hs : Inv before p a s deeds trace)
    (hd : s.gateway.dispatch? a.id = some d) (hrelay : d.stage.relay? = some relay) :
    d.deadline = p.deadline ∧
      (d.stage = .relaying relay ∨ d.stage = .notifying relay (keepalive a.channel) []) ∧
      (∃ n, sentBy a.id trace = List.replicate n (keepalive a.channel)) ∧
      ∀ reason, d.signal = some reason → reason.Heard a.channel trace := by
  obtain ⟨-, -, -, -, haccount⟩ := hs.accounts.accounts _ _ _ _ rfl
  rw [hd] at haccount
  cases haccount with
  | @relayed _ _ relay' n stage deadline keepalives unanswered signal =>
    have hsame : relay' = relay := by
      rcases stage with hstage | hstage <;>
        · rw [hstage] at hrelay
          exact Option.some.inj hrelay
    exact ⟨deadline, hsame ▸ stage, ⟨n, keepalives⟩, signal⟩
  | answering stage =>
    rw [stage] at hrelay
    cases hrelay

/-- A request that is relayed has got as far as the plan says. -/
theorem relayed (hs : Inv before p a s deeds trace) (hd : s.gateway.dispatch? a.id = some d)
    (hrelay : d.stage.relay? = some relay) : Relayed p a s deeds relay := by
  cases hs.stands with
  | relaying found stage relayed =>
    cases hd.symm.trans found
    cases hrelay.symm.trans stage
    exact relayed
  | cancelling found stage | answering found stage =>
    cases hd.symm.trans found
    rw [stage] at hrelay
    cases hrelay
  | told gone | cutShort gone => cases hd.symm.trans gone

/-- A request whose device is asked to give it up has stopped as the plan says. -/
theorem cancelling {device : δ} (hs : Inv before p a s deeds trace)
    (hd : s.gateway.dispatch? a.id = some d) (hstage : d.stage = .cancelling device outcome) :
    ∃ done heard later, Stopped p a heard s.since outcome done (some device) ∧
      deeds = done ++ [(s.since, .stopped outcome)] ∧ trace = heard ++ later ∧
      (∀ z ∈ later, z.2.subject? ≠ some a.id) ∧ s.clock ≤ s.since + p.asking := by
  cases hs.stands with
  | cancelling found stage stopped all split silent begun waits =>
    cases hd.symm.trans found
    cases hstage.symm.trans stage
    exact ⟨_, _, _, stopped, all, split, silent, waits⟩
  | relaying found stage =>
    cases hd.symm.trans found
    rw [hstage] at stage
    cases stage
  | answering found stage =>
    cases hd.symm.trans found
    cases hstage.symm.trans stage
  | told gone | cutShort gone => cases hd.symm.trans gone

theorem past_append (hs : Inv before p a s deeds trace) (hprompt : prompt s (now, e) = true) :
    ∀ z ∈ trace ++ s.record (now, e), z.1 ≤ now := by
  intro z hz
  rcases List.mem_append.1 hz with hz | hz
  · exact Nat.le_trans (hs.past z hz) (clock_le_of_prompt hprompt)
  · exact Nat.le_of_eq (time_of_mem_record z hz)

/-- The outcome of a request that is told is the one of the plan. -/
theorem answering {report : Bytes} {rest : List Bytes} (hs : Inv before p a s deeds trace)
    (hd : s.gateway.dispatch? a.id = some d) (hstage : d.stage = .answering report rest) :
    ∃ outcome heard later, Settled p a deeds heard s.clock outcome ∧ trace = heard ++ later ∧
      AtOnce a.id s.clock later ∧
      outcome.Told a.channel (sentBy a.id later ++ report :: rest) := by
  cases hs.stands with
  | answering found stage settled split atOnce said =>
    cases hd.symm.trans found
    cases hstage.symm.trans stage
    exact ⟨_, _, _, settled, split, atOnce, said⟩
  | relaying found stage =>
    cases hd.symm.trans found
    rw [hstage] at stage
    cases stage
  | cancelling found stage =>
    cases hd.symm.trans found
    cases hstage.symm.trans stage
  | told gone | cutShort gone => cases hd.symm.trans gone

end Inv

/-! ### Every event takes the request along its plan -/

/-- What comes next for a request that is relayed is due as the plan says. -/
theorem Relayed.due_eq (h : Relayed p a s deeds relay) :
    s.due (.relaying relay) = p.due s.round relay := by
  obtain ⟨hreaches, hsince, -⟩ := h
  cases hreaches with
  | polling failing => rw [due, hsince]; rfl
  | exchanging failing first => rw [due, hsince, Plan.due, Plan.ends_of_device first]; rfl
  | resting failing => rfl

/-- Time passes neither what comes next for a request that is relayed, nor the end of its time. -/
theorem Inv.limits (hs : Inv before p a s deeds trace) (hd : s.gateway.dispatch? a.id = some d)
    (hrelay : d.stage.relay? = some relay) (hprompt : prompt s (now, e) = true) :
    s.clock ≤ now ∧ now ≤ p.due s.round relay ∧ now ≤ p.deadline := by
  obtain ⟨hlater, hdue, hlimit, -⟩ := (prompt_iff hd).1 hprompt
  have hrelayed := hs.relayed hd hrelay
  refine ⟨hlater, ?_, (hs.known_relayed hd hrelay).1 ▸ hlimit (by rw [hrelay]; rfl)⟩
  cases hstage : d.stage with
  | relaying relay' =>
    rw [hstage] at hrelay hdue
    cases hrelay
    rwa [hrelayed.due_eq] at hdue
  | notifying relay' report rest =>
    rw [hstage] at hdue
    exact Nat.le_trans hdue hrelayed.waits
  | cancelling | answering | ended =>
    rw [hstage] at hrelay
    cases hrelay

private theorem stands_still (hs : Inv before p a s deeds trace)
    (hd : s.gateway.dispatch? a.id = some d) (hrelay : d.stage.relay? = some relay)
    (hprompt : prompt s (now, e) = true) (hprogress : s.progress now e = (s.since, s.round))
    (hfound : g.dispatch? a.id = some d') (hrelay' : d'.stage.relay? = some relay)
    (trace : List (Time × Happening)) : Stands p a (s.after now e g) deeds trace := by
  obtain ⟨hlater, hdue, hinTime⟩ := hs.limits hd hrelay hprompt
  have h := hs.relayed hd hrelay
  have hsince : (s.after now e g).since = s.since := congrArg Prod.fst hprogress
  have hround : (s.after now e g).round = s.round := congrArg Prod.snd hprogress
  exact .relaying hfound hrelay' ⟨hround ▸ h.reaches, by rw [hsince, hround, h.since],
    hround ▸ h.all, hsince ▸ Nat.le_trans h.begun hlater, hround.symm ▸ hdue, hinTime⟩

private theorem stands_onward {n : Nat} (hprogress : s.progress now e = (now, n))
    (hfound : g.dispatch? a.id = some d') (hstage : d'.stage = .relaying relay)
    (hreaches : p.Reaches n relay) (hnow : now = p.since n relay) (hinTime : now ≤ p.deadline)
    (hall : deeds = p.done a.request n relay) : Stands p a (s.after now e g) deeds trace := by
  have hsince : (s.after now e g).since = now := congrArg Prod.fst hprogress
  have hround : (s.after now e g).round = n := congrArg Prod.snd hprogress
  exact .relaying hfound (by rw [hstage]; rfl) ⟨hround ▸ hreaches, by rw [hsince, hround, hnow],
    hround ▸ hall, Nat.le_of_eq hsince, hround.symm ▸ hnow ▸ p.since_le_due n relay, hinTime⟩

private theorem stands_resting {n : Nat} (hs : Inv before p a s deeds trace)
    (hprogress : s.progress now e = (now, n))
    (hfound : g.dispatch? a.id =
      some { d with stage := .relaying (.resting (now + s.gateway.config.pollDelay)) })
    (hfailing : p.Failing n) (hanswer : (p.polls n).answer? = none) (hnow : now = p.ends n)
    (hinTime : now ≤ p.deadline) (trace : List (Time × Happening)) :
    Stands p a (s.after now e g) (p.log a.request n ++ p.attempt a.request n) trace := by
  have hwake : now + s.gateway.config.pollDelay = p.begins (n + 1) := by
    rw [hnow, hs.accounts.settings, Plan.begins_succ]
  exact stands_onward hprogress hfound (by rw [hwake]) (.resting (hfailing.succ hanswer)) hnow
    hinTime rfl

private theorem found_alive (h : d.stage ≠ .ended) :
    (if System.isOver d then none else some d) = some d := by
  rw [System.isOver]
  split
  · exact absurd ‹_› h
  · rfl

private theorem found_ended (h : d.stage = .ended) :
    (if System.isOver d then none else some d) = none := by
  rw [System.isOver, h]
  rfl

private theorem stands_answer {reports : List Bytes} {later : List (Time × Happening)}
    (hfound : g.dispatch? a.id = if System.isOver d' then none else some d')
    (hstage : d'.stage = Dispatch.answer reports) (hsettled : Settled p a deeds heard now outcome)
    (hatOnce : AtOnce a.id now later)
    (hsaid : outcome.Told a.channel (sentBy a.id later ++ reports)) :
    Stands p a (s.after now e g) deeds (heard ++ later) := by
  cases reports with
  | nil =>
    rw [found_ended hstage] at hfound
    exact .told hfound hsettled rfl hatOnce (by rwa [List.append_nil] at hsaid)
  | cons report rest =>
    rw [found_alive (by rw [hstage]; nofun)] at hfound
    exact .answering hfound hstage hsettled rfl hatOnce hsaid

private theorem stands_stopped (relay : Relay δ) (hs : Inv before p a s deeds trace)
    (hd : s.gateway.dispatch? a.id = some d) (hrelay : d.stage.relay?.isSome = true)
    (hprompt : prompt s (now, e) = true) (hnone : sentBy a.id (s.record (now, e)) = [])
    (hprogress : (s.progress now e).1 = now)
    (hfound : g.dispatch? a.id = if System.isOver d' then none else some d')
    (hstage : d'.stage = Dispatch.stageAfter d.channel outcome relay)
    (hending : Ending p a (trace ++ s.record (now, e)) now outcome done relay.device?) :
    Stands p a (s.after now e g) (done ++ [(now, .stopped outcome)])
      (trace ++ s.record (now, e)) := by
  obtain ⟨relay', hrelay⟩ := Option.isSome_iff_exists.1 hrelay
  obtain ⟨-, -, ⟨n, keepalives⟩, -⟩ := hs.known_relayed hd hrelay
  rw [(hs.known hd).1] at hstage
  have hstopped :
      Stopped p a (trace ++ s.record (now, e)) now outcome done relay.device? :=
    ⟨hending, ⟨n, by rw [sentBy_append, hnone, List.append_nil, keepalives]⟩,
      hs.past_append hprompt⟩
  have hsince : (s.after now e g).since = now := hprogress
  rw [← List.append_nil (trace ++ s.record (now, e))]
  cases relay with
  | exchanging device =>
    rw [found_alive (by rw [hstage]; nofun)] at hfound
    exact .cancelling hfound hstage (by rw [hsince]; exact hstopped) (by rw [hsince]) rfl (by simp)
      (Nat.le_of_eq hsince) (hsince.symm ▸ Nat.le_add_right now p.asking)
  | polling | resting wake =>
    exact stands_answer hfound hstage (.quiet hstopped rfl) (by simp [AtOnce])
      (outcome.told_reports a.channel)

private theorem stands_listed (hs : Inv before p a s deeds trace)
    (hd : s.gateway.dispatch? a.id = some d) (hprompt : prompt s (now, .listed) = true)
    (hturn : d.Turn s.gateway.config now s.gateway.table (s.event .listed) d' table)
    (hfound : g.dispatch? a.id = if System.isOver d' then none else some d')
    (trace : List (Time × Happening)) :
    Stands p a (s.after now .listed g) (deeds ++ s.deeds (now, .listed)) trace := by
  obtain ⟨-, -, -, hfollows⟩ := (prompt_iff hd).1 hprompt
  have hnow : now = s.due d.stage := beq_iff_eq.1 hfollows
  rw [deeds_own hd rfl]
  rw [event] at hturn ⊢
  generalize hlisted : (p.polls s.round).listed = listed at hturn ⊢
  have hstage : d.stage = .relaying .polling := by cases hturn <;> assumption
  have hrelay : d.stage.relay? = some .polling := by rw [hstage]; rfl
  have h := hs.relayed hd hrelay
  obtain ⟨-, -, hinTime⟩ := hs.limits hd hrelay hprompt
  rw [hstage, h.due_eq] at hnow
  cases h.reaches with
  | polling failing =>
    cases hturn with
    | @handed x devices device stage first =>
      have hdevice : (p.polls s.round).device? = some device := by
        rw [Poll.device?, hlisted]
        exact first
      refine stands_onward (n := s.round) rfl hfound rfl (.exchanging failing hdevice) hnow
        hinTime ?_
      simp [h.all, Plan.done, Dispatch.deeds, first, hnow, Plan.due, (hs.known hd).2]
    | unlisted stage none =>
      have hdevice : (p.polls s.round).device? = .none := by
        rw [Poll.device?, hlisted]
        cases listed with
        | error cause => rfl
        | ok devices => exact none devices rfl
      have hnothing : d.deeds (.enumerated a.id listed) = [] := by
        cases listed with
        | error cause => rfl
        | ok devices => rw [Dispatch.deeds, none devices rfl]; rfl
      have hattempt : p.attempt a.request s.round = [] := by rw [Plan.attempt, hdevice]
      have hstands := stands_resting (n := s.round) (e := .listed) hs rfl hfound failing
        (by rw [Poll.answer?, hdevice]) (hnow.trans (Plan.ends_of_none hdevice).symm) hinTime trace
      rw [hattempt, show p.log a.request s.round = deeds from h.all.symm] at hstands
      rwa [hnothing]

private theorem stands_finished (hs : Inv before p a s deeds trace)
    (hd : s.gateway.dispatch? a.id = some d) (hprompt : prompt s (now, .finished) = true)
    (hturn : d.Turn s.gateway.config now s.gateway.table (s.event .finished) d' table)
    (hfound : g.dispatch? a.id = if System.isOver d' then none else some d') :
    Stands p a (s.after now .finished g) (deeds ++ s.deeds (now, .finished))
      (trace ++ s.record (now, .finished)) := by
  obtain ⟨-, -, -, hfollows⟩ := (prompt_iff hd).1 hprompt
  have hnow : now = s.due d.stage := beq_iff_eq.1 hfollows
  rw [deeds_own hd rfl]
  have hevent : s.event .finished = .answered a.id (p.polls s.round).result := rfl
  rw [hevent] at hturn ⊢
  obtain ⟨device, hstage⟩ : ∃ device, d.stage = .relaying (.exchanging device) := by
    generalize (p.polls s.round).result = result at hturn
    cases hturn <;> exact ⟨_, ‹_›⟩
  have hrelay : d.stage.relay? = some (.exchanging device) := by rw [hstage]; rfl
  have h := hs.relayed hd hrelay
  obtain ⟨-, -, hinTime⟩ := hs.limits hd hrelay hprompt
  rw [hstage, h.due_eq] at hnow
  cases h.reaches with
  | exchanging failing first =>
    rcases hresult : (p.polls s.round).result with cause | body
    · rw [hresult] at hturn
      cases hturn with
      | failed stage =>
        have hattempt : p.attempt a.request s.round =
            [(p.hands s.round, .tried device a.request), (now, .failed)] := by
          rw [Plan.attempt, first, hnow]
          rfl
        have hstands := stands_resting (n := s.round) (e := .finished) hs rfl hfound failing
          (by rw [Poll.answer?, first, hresult]) hnow hinTime (trace ++ s.record (now, .finished))
        rwa [hattempt, List.append_cons, show p.log a.request s.round ++ _ = deeds from h.all.symm]
          at hstands
    · rw [hresult] at hturn
      cases hturn with
      | answered stage =>
        rw [h.all]
        refine stands_stopped .polling hs hd (by rw [hrelay]; rfl) hprompt
          (by rw [record, hevent, hresult]; rfl) rfl hfound rfl ?_
        obtain rfl : now = p.ends s.round := hnow
        exact .answered ⟨failing, by rw [Poll.answer?, first, hresult]⟩ first hinTime

private theorem stands_asked (hs : Inv before p a s deeds trace)
    (hd : s.gateway.dispatch? a.id = some d) (hprompt : prompt s (now, .asked) = true)
    (hturn : d.Turn s.gateway.config now s.gateway.table (s.event .asked) d' table)
    (hfound : g.dispatch? a.id = if System.isOver d' then none else some d') :
    Stands p a (s.after now .asked g) (deeds ++ s.deeds (now, .asked))
      (trace ++ s.record (now, .asked)) := by
  obtain ⟨-, -, -, hfollows⟩ := (prompt_iff hd).1 hprompt
  have hnow : now = s.due d.stage := beq_iff_eq.1 hfollows
  have hrecord : s.record (now, .asked) = [] := rfl
  rw [deeds_own hd rfl, hrecord, List.append_nil]
  rw [event] at hturn ⊢
  cases hturn with
  | @gaveUp x device outcome hstage =>
    rw [hstage] at hnow
    obtain rfl : now = s.since + p.asking := hnow
    obtain ⟨done, heard, later, hstopped, hall, hsplit, hsilent, -⟩ := hs.cancelling hd hstage
    have hdeeds : deeds ++ (d.deeds (.deviceCancelled a.id)).map (s.since + p.asking, ·) =
        done ++ [(s.since, .stopped outcome), (s.since + p.asking, .cancelled device)] := by
      rw [hall, Dispatch.deeds, hstage, List.append_assoc]
      rfl
    rw [hdeeds, hsplit]
    exact stands_answer hfound rfl (.cancelled hstopped rfl)
      (fun z hz hid => absurd hid (hsilent z hz))
      (by rw [sentBy_eq_nil hsilent, List.nil_append, (hs.known hd).1]
          exact outcome.told_reports a.channel)

private theorem stands_told {event : Gateway.Event δ} {report : Bytes} {rest : List Bytes}
    (hs : Inv before p a s deeds trace) (hd : s.gateway.dispatch? a.id = some d)
    (hstage : d.stage = .answering report rest) (hprompt : prompt s (now, .other event) = true)
    (hevent : event = .delivered (.dispatch a.id) ∧ d' = { d with stage := Dispatch.answer rest } ∨
      event = .undelivered (.dispatch a.id) ∧ d' = { d with stage := .ended })
    (hfound : g.dispatch? a.id = if System.isOver d' then none else some d') :
    Stands p a (s.after now (.other event) g) deeds (trace ++ s.record (now, .other event)) := by
  obtain ⟨hlater, hdue, -⟩ := (prompt_iff hd).1 hprompt
  rw [hstage] at hdue
  obtain rfl : s.clock = now := Nat.le_antisymm hlater hdue
  obtain ⟨outcome, heard, later, hsettled, hsplit, hatOnce, hsaid⟩ := hs.answering hd hstage
  have hatOnce' : AtOnce a.id s.clock (later ++ s.record (s.clock, .other event)) :=
    hatOnce.append fun z hz _ => time_of_mem_record z hz
  rw [hsplit, List.append_assoc]
  rcases hevent with ⟨rfl, rfl⟩ | ⟨rfl, rfl⟩
  · have hrecord : s.record (s.clock, .other (.delivered (.dispatch a.id))) =
        [(s.clock, .sent (.dispatch a.id) report)] := by
      simp [record, event, System.record, System.happenings, System.pendingReport?,
        Dispatch.pendingReport?, hd, hstage]
    rw [hrecord] at hatOnce' ⊢
    refine stands_answer hfound rfl hsettled hatOnce' ?_
    rw [sentBy_append, List.append_assoc]
    simpa [sentBy] using hsaid
  · have hrecord : s.record (s.clock, .other (.undelivered (.dispatch a.id))) =
        [(s.clock, .lost (.dispatch a.id) report)] := by
      simp [record, event, System.record, System.happenings, System.pendingReport?,
        Dispatch.pendingReport?, hd, hstage]
    have hrest : outcome.Told a.channel
        (sentBy a.id (later ++ [(s.clock, .lost (.dispatch a.id) report)]) ++ report :: rest) := by
      rw [sentBy_append, List.append_assoc]
      simpa [sentBy] using hsaid
    rw [hrecord] at hatOnce' ⊢
    exact .cutShort hfound hsettled rfl hatOnce'
      (List.mem_append_right _ (List.mem_singleton_self _)) hrest

private theorem stands_other {event : Gateway.Event δ} (hs : Inv before p a s deeds trace)
    (hd : s.gateway.dispatch? a.id = some d) (he : event.subject? = some a.id)
    (hprompt : prompt s (now, .other event) = true)
    (hturn : d.Turn s.gateway.config now s.gateway.table event d' table)
    (hfound : g.dispatch? a.id = if System.isOver d' then none else some d') :
    Stands p a (s.after now (.other event) g) (deeds ++ s.deeds (now, .other event))
      (trace ++ s.record (now, .other event)) := by
  obtain ⟨hlater, -, -, hfollows⟩ := (prompt_iff hd).1 hprompt
  have hstill {relay : Relay δ} (hrelay : d.stage.relay? = some relay)
      (hprogress : s.progress now (.other event) = (s.since, s.round))
      (hrelay' : d'.stage.relay? = some relay) :
      Stands p a (s.after now (.other event) g) (deeds ++ [])
        (trace ++ s.record (now, .other event)) := by
    rw [Dispatch.not_isOver hrelay', if_neg Bool.false_ne_true] at hfound
    rw [List.append_nil]
    exact stands_still hs hd hrelay hprompt hprogress hfound hrelay' _
  rw [show s.deeds (now, .other event) = (d.deeds event).map (now, ·) from deeds_own hd he]
  cases hturn with
  | @rested x wake hstage due =>
    cases he
    have hrelay : d.stage.relay? = some (.resting wake) := by rw [hstage]; rfl
    have h := hs.relayed hd hrelay
    obtain ⟨-, hdue, hinTime⟩ := hs.limits hd hrelay hprompt
    cases h.reaches with
    | resting failing =>
      have hnow : now = p.begins (s.round + 1) := Nat.le_antisymm hdue due
      refine stands_onward progress_rested hfound rfl (.polling failing) hnow hinTime ?_
      simp [h.all, Plan.done, Dispatch.deeds, Plan.log, hnow]
  | ticked hstage | unnotified hstage => exact hstill (by rw [hstage]; rfl) rfl rfl
  | notified hstage => exact hstill (by rw [hstage]; rfl) rfl (Dispatch.relay?_notify ..)
  | @expired x relay hstage due =>
    cases he
    have hrelay : d.stage.relay? = some relay := by rw [hstage]; rfl
    have h := hs.relayed hd hrelay
    obtain ⟨-, hdue, hinTime⟩ := hs.limits hd hrelay hprompt
    obtain rfl : now = p.deadline :=
      Nat.le_antisymm hinTime ((hs.known_relayed hd hrelay).1 ▸ due)
    -- Were something due at the deadline, it would come before the request expires.
    have hearly : p.deadline < p.due s.round relay := by
      refine Nat.lt_of_le_of_ne hdue fun hsame => ?_
      rw [follows, hstage, h.due_eq, ← hsame] at hfollows
      simp at hfollows
    rw [h.all]
    exact stands_stopped relay hs hd (by rw [hrelay]; rfl) hprompt rfl
      (congrArg Prod.fst progress_expired) hfound rfl
      (.timedOut h.reaches (h.since ▸ Nat.le_trans h.begun hlater) hearly
        fun k body hfirst => Nat.lt_of_lt_of_le hearly (h.reaches.due_le_ends hfirst))
  | @aborted x relay reason hstage signal =>
    cases he
    have hrelay : d.stage.relay? = some relay := by rw [hstage]; rfl
    have h := hs.relayed hd hrelay
    obtain ⟨-, hdue, hinTime⟩ := hs.limits hd hrelay hprompt
    obtain ⟨-, -, -, hsignal⟩ := hs.known_relayed hd hrelay
    have hdeeds : d.deeds (.aborted a.id) = [.stopped (.aborted reason)] := by
      rw [Dispatch.deeds, signal]
      rfl
    rw [h.all, hdeeds]
    exact stands_stopped relay hs hd (by rw [hrelay]; rfl) hprompt rfl
      (congrArg Prod.fst progress_aborted) hfound rfl
      (.aborted h.reaches (h.since ▸ Nat.le_trans h.begun hlater) hdue hinTime
        ((hsignal reason signal).append _))
  | @told sender report rest hstage =>
    cases sender <;> cases he
    rw [show d.deeds (.delivered (.dispatch a.id)) = [] from rfl, List.map_nil, List.append_nil]
    exact stands_told hs hd hstage hprompt (.inl ⟨rfl, rfl⟩) hfound
  | @untold sender report rest hstage =>
    cases sender <;> cases he
    rw [show d.deeds (.undelivered (.dispatch a.id)) = [] from rfl, List.map_nil, List.append_nil]
    exact stands_told hs hd hstage hprompt (.inr ⟨rfl, rfl⟩) hfound
  | handed | unlisted | failed | answered | gaveUp =>
    cases he
    simp [follows] at hfollows

private theorem stands_aside (hs : Inv before p a s deeds trace)
    (hprompt : prompt s (now, e) = true) {f : Dispatch δ → Dispatch δ} (hf : ∀ d, (f d).stage = d.stage)
    (hfound : g.dispatch? a.id = (s.gateway.dispatch? a.id).map f)
    (he : (s.event e).subject? ≠ some a.id) :
    Stands p a (s.after now e g) deeds (trace ++ s.record (now, e)) := by
  obtain ⟨hprogress, -, hother⟩ := aside now he
  have hlater := clock_le_of_prompt hprompt
  have hsince : (s.after now e g).since = s.since := congrArg Prod.fst hprogress
  have hsent (later : List (Time × Happening)) :
      sentBy a.id (later ++ s.record (now, e)) = sentBy a.id later := by
    rw [sentBy_append, sentBy_eq_nil hother, List.append_nil]
  have hatOnce (told : Time) : AtOnce a.id told (s.record (now, e)) :=
    fun z hz hid => absurd hid (hother z hz)
  have hkept {d : Dispatch δ} (found : s.gateway.dispatch? a.id = some d) :
      g.dispatch? a.id = some (f d) := by rw [hfound, found, Option.map_some]
  have hover (gone : s.gateway.dispatch? a.id = none) : g.dispatch? a.id = none := by
    rw [hfound, gone, Option.map_none]
  cases hs.stands with
  | relaying found stage relayed =>
    exact stands_still hs found stage hprompt hprogress (hkept found) (by rw [hf, stage]) _
  | cancelling found stage stopped all split silent begun waits =>
    obtain ⟨-, hdue, -⟩ := (prompt_iff found).1 hprompt
    rw [stage] at hdue
    rw [split, List.append_assoc]
    refine .cancelling (hkept found) (by rw [hf, stage]) (by rw [hsince]; exact stopped)
      (by rw [hsince, all]) rfl (fun z hz => ?_) (hsince ▸ Nat.le_trans begun hlater)
      (hsince.symm ▸ hdue)
    exact (List.mem_append.1 hz).elim (silent z) (hother z)
  | answering found stage settled split atOnce said =>
    obtain ⟨-, hdue, -⟩ := (prompt_iff found).1 hprompt
    rw [stage] at hdue
    obtain rfl : s.clock = now := Nat.le_antisymm hlater hdue
    rw [split, List.append_assoc]
    exact .answering (hkept found) (by rw [hf, stage]) settled rfl
      (atOnce.append (hatOnce _)) (by rwa [hsent])
  | told gone settled split atOnce said =>
    rw [split, List.append_assoc]
    exact .told (hover gone) settled rfl (atOnce.append (hatOnce _)) (by rwa [hsent])
  | cutShort gone settled split atOnce lost said =>
    rw [split, List.append_assoc]
    exact .cutShort (hover gone) settled rfl (atOnce.append (hatOnce _))
      (List.mem_append_left _ lost) (by rwa [hsent])

/-- **Every event takes the request along its plan.** -/
theorem Inv.step (hs : Inv before p a s deeds trace) (hprompt : prompt s (now, e) = true)
    (hstep : s.step? now e = some t) :
    Inv before p a t (deeds ++ s.deeds (now, e)) (trace ++ s.record (now, e)) := by
  obtain ⟨g, hgateway, rfl⟩ := Option.map_eq_some_iff.1 hstep
  have haccounts := hs.accounts.step hgateway
  rw [List.append_assoc, List.cons_append] at haccounts
  refine ⟨haccounts, hs.past_append hprompt, ?_⟩
  obtain ⟨hnumber, -⟩ := hs.accounts.accounts _ _ _ _ rfl
  rcases System.step_cases hgateway with
    ⟨x, d, d', table, hsubject, hd, hturn, rfl⟩ | ⟨hnone, l, r, hturn, rfl⟩
  · have hfound := System.dispatch?_turn hs.accounts.books.alive hd hturn a.id
    by_cases hx : a.id = x
    · subst hx
      rw [if_pos rfl] at hfound
      cases e with
      | listed => exact stands_listed hs hd hprompt hturn hfound _
      | finished => exact stands_finished hs hd hprompt hturn hfound
      | asked => exact stands_asked hs hd hprompt hturn hfound
      | other event => exact stands_other hs hd hsubject hprompt hturn hfound
    · have he : (s.event e).subject? ≠ some a.id := by simpa [hsubject] using Ne.symm hx
      rw [if_neg hx] at hfound
      rw [(aside now he).2.1, List.append_nil]
      exact stands_aside hs hprompt (f := id) (fun _ => rfl) (by rw [hfound, Option.map_id]; rfl) he
  · have he : (s.event e).subject? ≠ some a.id := by simp [hnone]
    rw [(aside now he).2.1, List.append_nil]
    exact stands_aside hs hprompt (fun d => (System.told_frame r.signal d).2.2.2.2)
      (System.dispatch?_listen hturn hnumber) he

/-! ### The end of a request -/

private theorem exists_step (d' : Dispatch δ) (table : ChannelTable)
    (hs : Inv before p a s deeds trace) (hd : s.gateway.dispatch? a.id = some d)
    (hprompt : prompt s (now, e) = true) (he : (s.event e).subject? = some a.id)
    (hafter : d.after? s.gateway.config now s.gateway.table (s.event e) = some (d', table)) :
    ∃ g, Machine.next? s (now, e) = some (s.after now e g) ∧
      Inv before p a (s.after now e g) (deeds ++ s.deeds (now, e)) (trace ++ s.record (now, e)) ∧
      g.dispatch? a.id = if System.isOver d' then none else some d' := by
  have hstep : s.step? now e = some (s.after now e ({ s.gateway with table }.put d')) := by
    rw [step?, System.step?_of_after? he hd hafter, Option.map_some]
  refine ⟨_, hstep, hs.step hprompt hstep, ?_⟩
  rw [System.dispatch?_turn hs.accounts.books.alive hd (Dispatch.turn_of_after? hafter), if_pos rfl]

/-- Whether events lead to a state in which the request is over. -/
def Ends (s : Polled p.toScript a.id) : Prop :=
  ∃ u, Machine.Leads prompt s u ∧ u.gateway.dispatch? a.id = none

theorem Ends.head (hprompt : prompt s (now, e) = true) (hnext : Machine.next? s (now, e) = some t)
    (h : Ends t) : Ends s := by
  obtain ⟨u, hleads, hover⟩ := h
  exact ⟨u, hleads.head hprompt hnext, hover⟩

private theorem ends_answer {reports : List Bytes} (hs : Inv before p a s deeds trace)
    (hfound : s.gateway.dispatch? a.id = if System.isOver d then none else some d)
    (hstage : d.stage = Dispatch.answer reports) : Ends s := by
  induction reports generalizing s d deeds trace with
  | nil => exact ⟨s, .refl s, hfound.trans (found_ended hstage)⟩
  | cons report rest ih =>
    rw [found_alive (by rw [hstage]; nofun)] at hfound
    rw [Dispatch.answer] at hstage
    have hprompt : prompt s (s.clock, .other (.delivered (.dispatch a.id))) = true :=
      (prompt_iff hfound).2 ⟨Nat.le_refl _, by rw [hstage]; exact Nat.le_refl _,
        by simp [hstage, Stage.relay?], rfl⟩
    obtain ⟨g, hnext, ht, hg⟩ := exists_step { d with stage := Dispatch.answer rest }
      s.gateway.table hs hfound hprompt rfl
      (by simp [event, Dispatch.after?, Dispatch.delivered, hstage])
    exact (ih ht hg rfl).head hprompt hnext

private theorem ends_stopped (channel : ChannelId) (relay : Relay δ)
    (hs : Inv before p a s deeds trace)
    (hfound : s.gateway.dispatch? a.id = if System.isOver d then none else some d)
    (hstage : d.stage = Dispatch.stageAfter channel outcome relay) : Ends s := by
  cases relay with
  | polling | resting => exact ends_answer hs hfound hstage
  | exchanging device =>
    rw [found_alive (by rw [hstage]; nofun)] at hfound
    rw [Dispatch.stageAfter] at hstage
    obtain ⟨-, -, -, -, -, -, -, hwaits⟩ := hs.cancelling hfound hstage
    have hprompt : prompt s (s.since + p.asking, .asked) = true :=
      (prompt_iff hfound).2 ⟨hwaits, by rw [hstage]; exact Nat.le_refl _,
        by simp [hstage, Stage.relay?], by simp [follows, hstage, due]⟩
    obtain ⟨g, hnext, ht, hg⟩ := exists_step
      { d with stage := Dispatch.answer (outcome.reports d.channel) } s.gateway.table hs hfound
      hprompt rfl (by simp [event, Dispatch.after?, Dispatch.deviceCancelled, hstage])
    exact (ends_answer ht hg rfl).head hprompt hnext

private theorem ends_expired (hs : Inv before p a s deeds trace)
    (hd : s.gateway.dispatch? a.id = some d) (hstage : d.stage = .relaying relay)
    (hlate : p.deadline < p.due s.round relay) : Ends s := by
  have hrelay : d.stage.relay? = some relay := by rw [hstage]; rfl
  have hrelayed := hs.relayed hd hrelay
  have hdeadline := (hs.known_relayed hd hrelay).1
  have hprompt : prompt s (p.deadline, .other (.expired a.id)) = true := by
    refine (prompt_iff hd).2 ⟨hrelayed.inTime, ?_, fun _ => Nat.le_of_eq hdeadline.symm, ?_⟩
    · rw [hstage, hrelayed.due_eq]
      exact Nat.le_of_lt hlate
    · rw [follows, hstage, hrelayed.due_eq]
      simpa using Nat.ne_of_lt hlate
  obtain ⟨g, hnext, ht, hg⟩ := exists_step (d.stop s.gateway.table .timedOut relay).1
    (d.stop s.gateway.table .timedOut relay).2 hs hd hprompt rfl
    (by simp [event, Dispatch.after?, Dispatch.expired, hstage, hdeadline])
  exact (ends_stopped _ relay ht hg rfl).head hprompt hnext

/-- How much of a poll is still to come. -/
def phase : Relay δ → Nat
  | .polling => 2
  | .exchanging _ => 1
  | .resting _ => 0

/-- Whether a request is relayed, and `k` counts what is still to come until poll `n` has failed. -/
def Nears (before : List (Time × Happening)) (n k : Nat) (s : Polled p.toScript a.id) : Prop :=
  ∃ deeds trace d relay, Inv before p a s deeds trace ∧ s.gateway.dispatch? a.id = some d ∧
    d.stage = .relaying relay ∧ k = 3 * (n - s.round) + phase relay

private theorem exists_enumerated (hstage : d.stage = .relaying .polling) (config : Config)
    (now : Time) (listed : Except Error (DeviceList δ)) :
    ∃ relay : Relay δ, phase relay < 2 ∧
      d.enumerated config now listed = some { d with stage := .relaying relay } := by
  rcases listed with cause | devices
  · exact ⟨.resting _, Nat.zero_lt_two, by simp [Dispatch.enumerated, hstage]; rfl⟩
  · cases hfirst : devices.first? with
    | none =>
      exact ⟨.resting _, Nat.zero_lt_two, by simp [Dispatch.enumerated, hstage, hfirst]; rfl⟩
    | some device =>
      exact ⟨.exchanging device, Nat.one_lt_two, by simp [Dispatch.enumerated, hstage, hfirst]⟩

/-- **A request that is relayed is taken a step further**, or comes to its end. -/
private theorem Nears.step {n k : Nat}
    (hn : p.deadline < p.begins n ∨ (p.polls n).answer?.isSome = true) (h : Nears before n k s) :
    Ends s ∨ ∃ e t j, prompt s e = true ∧ Machine.next? s e = some t ∧ j < k ∧
      Nears before n j t := by
  obtain ⟨deeds, trace, d, relay, hs, hd, hstage, rfl⟩ := h
  -- Whatever is due next comes in time, or else the request expires.
  by_cases hlate : p.deadline < p.due s.round relay
  · exact .inl (ends_expired hs hd hstage hlate)
  have hinTime : p.due s.round relay ≤ p.deadline := Nat.le_of_not_lt hlate
  have hrelay : d.stage.relay? = some relay := by rw [hstage]; rfl
  have hrelayed := hs.relayed hd hrelay
  have hprompt {e : Event δ} (hfollows : s.follows d (p.due s.round relay) e = true) :
      prompt s (p.due s.round relay, e) = true := by
    refine (prompt_iff hd).2 ⟨hrelayed.waits, ?_, fun _ => ?_, hfollows⟩
    · rw [hstage, hrelayed.due_eq]
    · exact (hs.known_relayed hd hrelay).1.symm ▸ hinTime
  have hdue : (p.due s.round relay == s.due d.stage) = true := by
    rw [hstage, hrelayed.due_eq, beq_self_eq_true]
  cases relay with
  | polling =>
    have hlisted : prompt s (p.due s.round .polling, .listed) = true := hprompt hdue
    obtain ⟨relay', hphase, henumerated⟩ := exists_enumerated hstage s.gateway.config
      (p.due s.round .polling) (p.polls s.round).listed
    obtain ⟨g, hnext, ht, hg⟩ := exists_step { d with stage := .relaying relay' } s.gateway.table
      hs hd hlisted rfl (by rw [event, Dispatch.after?, henumerated, Option.map_some])
    exact .inr ⟨_, _, _, hlisted, hnext, Nat.add_lt_add_left hphase _, _, _, _, _, ht, hg, rfl, rfl⟩
  | exchanging device =>
    have hfinished : prompt s (p.due s.round (.exchanging device), .finished) = true := hprompt hdue
    rcases hresult : (p.polls s.round).result with cause | body
    · obtain ⟨g, hnext, ht, hg⟩ := exists_step { d with stage := .relaying (.resting _) }
        s.gateway.table hs hd hfinished rfl
        (by simp [event, Dispatch.after?, Dispatch.answered, hstage, hresult]; rfl)
      exact .inr ⟨_, _, _, hfinished, hnext, Nat.lt_succ_self _, _, _, _, _, ht, hg, rfl, rfl⟩
    · obtain ⟨g, hnext, ht, hg⟩ := exists_step
        (d.stop s.gateway.table (.response body) .polling).1
        (d.stop s.gateway.table (.response body) .polling).2 hs hd hfinished rfl
        (by simp [event, Dispatch.after?, Dispatch.answered, hstage, hresult])
      exact .inl ((ends_stopped _ .polling ht hg rfl).head hfinished hnext)
  | resting wake =>
    have hrested : prompt s (p.due s.round (.resting wake), .other (.rested a.id)) = true :=
      hprompt rfl
    cases hrelayed.reaches with
    | resting failing =>
      have hmore : s.round + 1 ≤ n := by
        rcases hn with hpasses | hsucceeds
        · by_contra hless
          exact Nat.not_le_of_lt hpasses
            (Nat.le_trans (Plan.begins_le_begins (Nat.le_of_not_le hless)) hinTime)
        · exact failing.le hsucceeds
      obtain ⟨g, hnext, ht, hg⟩ := exists_step { d with stage := .relaying .polling }
        s.gateway.table hs hd hrested rfl
        (by simp [event, Dispatch.after?, Dispatch.rested, hstage, Plan.due])
      refine .inr ⟨_, _, _, hrested, hnext, ?_, _, _, _, _, ht, hg, rfl, rfl⟩
      simp only [after, progress_rested, phase]
      omega

private theorem ends_relaying (hproceeds : p.Proceeds) (hs : Inv before p a s deeds trace)
    (hd : s.gateway.dispatch? a.id = some d) (hstage : d.stage = .relaying relay) : Ends s := by
  obtain ⟨n, hn⟩ := hproceeds
  have hnears : Nears before n _ s := ⟨deeds, trace, d, relay, hs, hd, hstage, rfl⟩
  obtain ⟨t, hleads, u, hmore, hover⟩ :=
    Machine.Leads.countdown (fun _ _ h => Nears.step hn h) hnears
  exact ⟨u, hleads.trans hmore, hover⟩

/-- **A request comes to its end**, unless polls that take no time go on for ever. -/
theorem Inv.ends (hs : Inv before p a s deeds trace) (hproceeds : p.Proceeds) : Ends s := by
  cases hs.stands with
  | @relaying d relay found stage relayed =>
    rcases (hs.known_relayed found stage).2.1 with hstage | hstage
    · exact ends_relaying hproceeds hs found hstage
    · -- The keepalive on its way is handed over first.
      have hprompt : prompt s (s.clock, .other (.delivered (.dispatch a.id))) = true :=
        (prompt_iff found).2 ⟨Nat.le_refl _, by rw [hstage]; exact Nat.le_refl _,
          fun _ => (hs.known_relayed found stage).1.symm ▸ relayed.inTime, rfl⟩
      obtain ⟨g, hnext, ht, hg⟩ := exists_step { d with stage := .relaying relay } s.gateway.table
        hs found hprompt rfl
        (by simp [event, Dispatch.after?, Dispatch.delivered, hstage, Dispatch.notify])
      exact (ends_relaying hproceeds ht hg rfl).head hprompt hnext
  | @cancelling d device outcome done heard later found stage =>
    exact ends_stopped d.channel (.exchanging device) hs
      (found.trans (found_alive (by simp [stage])).symm) stage
  | @answering d report rest outcome heard later found stage =>
    have hstage : d.stage = Dispatch.answer (report :: rest) := stage
    exact ends_answer hs (found.trans (found_alive (by simp [stage])).symm) hstage
  | told gone | cutShort gone => exact ⟨s, .refl s, gone⟩

/-! ### What is done for a request -/

end Polled

end Ctap.Gateway
