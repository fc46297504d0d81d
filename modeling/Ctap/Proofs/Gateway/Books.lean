import Ctap.Proofs.Gateway.Events

/-!
# The books of a gateway

The channel table and the list of requests agree: a request that the table has in flight is relayed,
on that channel, and has not been dropped by INIT; and a request that is relayed is in flight unless
it has been dropped. So whatever signals a request comes on its own channel.

## Main definitions

* `Books`: how the table and the requests agree.

## Main results

* `Books.step`, `Books.run`: they agree in every run.
-/

namespace Ctap.Gateway

open Hid (ChannelId)

variable {δ : Type}

/-- Where the attempts stand, as long as a request is relayed. -/
def Stage.relay? : Stage δ → Option (Relay δ)
  | .relaying relay | .notifying relay _ _ => some relay
  | _ => none

/-- How the channel table and the requests agree. -/
structure Books (s : System δ) : Prop where
  alive : ∀ d ∈ s.dispatches, System.isOver d = false
  numbered : ∀ id d, s.dispatch? id = some d → id < s.table.nextDispatch
  /-- A request in flight is relayed and has not been dropped. -/
  entered : ∀ channel id, s.table.dispatchOn? channel = some id → ∃ d relay,
    s.dispatch? id = some d ∧ d.channel = channel ∧ d.stage.relay? = some relay ∧
      d.signal ≠ some .resync
  /-- A request that is relayed is in flight unless it has been dropped. -/
  relayed : ∀ id d relay, s.dispatch? id = some d → d.stage.relay? = some relay →
    d.signal = some .resync ∨ s.table.dispatchOn? d.channel = some id

namespace Dispatch

variable {config : Config} {now : Time} {table table' : ChannelTable} {d d' : Dispatch δ}
  {e : Event δ}

@[simp] theorem relay?_notify (relay : Relay δ) (reports : List Bytes) :
    (notify relay reports).relay? = some relay := by
  cases reports <;> rfl

@[simp] theorem relay?_answer (reports : List Bytes) :
    (answer reports : Stage δ).relay? = none := by
  cases reports <;> rfl

@[simp] theorem relay?_stageAfter (channel : ChannelId) (outcome : Outcome) (relay : Relay δ) :
    (stageAfter channel outcome relay).relay? = none := by
  cases relay with
  | exchanging device => rfl
  | polling | resting wake => exact relay?_answer _

theorem signal_told (o : Option DispatchId) (reason : Abort) (d : Dispatch δ) :
    (System.told (o.map (·, reason)) d).signal =
      if o = some d.id then some reason else d.signal := by
  cases o with
  | none => rfl
  | some id =>
    simp only [Option.map_some, System.told, Option.some.injEq, eq_comm (a := id)]
    split_ifs <;> rfl

theorem isOver_told (signal : Option (DispatchId × Abort)) (d : Dispatch δ) :
    System.isOver (System.told signal d) = System.isOver d := by
  rw [System.isOver, System.isOver, (System.told_frame signal d).2.2.2.2]

theorem not_isOver {relay : Relay δ} (h : d.stage.relay? = some relay) :
    System.isOver d = false := by
  rw [System.isOver]
  split
  · rename_i hstage
    rw [hstage] at h
    cases h
  · rfl

/-- A request stops being relayed when it is taken off its channel, and only then. -/
theorem Turn.relayed (h : d.Turn config now table e d' table') :
    table' = table ∧ d'.stage.relay?.isSome = d.stage.relay?.isSome ∨
      table' = table.finish d.channel d.id ∧ d'.stage.relay? = none := by
  cases h with
  | handed stage | unlisted stage | failed stage | rested stage | ticked stage | unnotified stage
  | untold stage => exact .inl ⟨rfl, by rw [stage]; rfl⟩
  | notified stage => exact .inl ⟨rfl, by rw [stage, relay?_notify]; rfl⟩
  | gaveUp stage | told stage => exact .inl ⟨rfl, by rw [stage, relay?_answer]; rfl⟩
  | answered => exact .inr ⟨rfl, relay?_answer _⟩
  | expired | aborted => exact .inr ⟨rfl, relay?_stageAfter ..⟩

end Dispatch

namespace Books

variable {s t : System δ} {now : Time} {e : Event δ}

theorem fresh (config : Config) : Books (System.fresh config : System δ) where
  alive := by simp [System.fresh]
  numbered := by simp [System.fresh, System.dispatch?]
  entered := by simp [System.fresh, ChannelTable.empty, ChannelTable.dispatchOn?]
  relayed := by simp [System.fresh, System.dispatch?]

theorem dispatch?_nextDispatch (hs : Books s) : s.dispatch? s.table.nextDispatch = none := by
  cases h : s.dispatch? s.table.nextDispatch with
  | none => rfl
  | some d => exact absurd (hs.numbered _ _ h) (Nat.lt_irrefl _)

theorem channel_eq (hs : Books s) {channel : ChannelId} {id : DispatchId} {d : Dispatch δ}
    (hon : s.table.dispatchOn? channel = some id) (hd : s.dispatch? id = some d) :
    d.channel = channel := by
  obtain ⟨d', -, hd', hchannel, -⟩ := hs.entered channel id hon
  rw [hd] at hd'
  cases hd'
  exact hchannel

/-- An event that concerns a request keeps the books. -/
theorem put (hs : Books s) {id : DispatchId} {d d' : Dispatch δ} {table : ChannelTable}
    (hd : s.dispatch? id = some d) (hturn : d.Turn s.config now s.table e d' table) :
    Books ({ s with table }.put d') := by
  obtain ⟨-, hchannel, -, -, hsignal⟩ := hturn.frame
  have hdid : d.id = id := System.id_of_dispatch? hd
  have hfind := System.dispatch?_turn hs.alive hd hturn
  have hrelayed := hturn.relayed
  rw [hdid] at hrelayed
  refine ⟨fun x hx => ?_, fun x dx hx => ?_, fun channel x hon => ?_, fun x dx relay hx hrelay => ?_⟩
  · simpa using (List.mem_filter.1 hx).2
  · have hnext : table.nextDispatch = s.table.nextDispatch := by
      rcases hrelayed with ⟨rfl, -⟩ | ⟨rfl, -⟩
      · rfl
      · exact ChannelTable.nextDispatch_finish ..
    change x < table.nextDispatch
    rw [hfind] at hx
    split_ifs at hx with hxid
    · rw [hnext, hxid]
      exact hs.numbered id d hd
    · rw [hnext]
      exact hs.numbered x dx hx
  · change table.dispatchOn? channel = some x at hon
    rcases hrelayed with ⟨rfl, hsame⟩ | ⟨rfl, -⟩
    · obtain ⟨dx, relay, hx, hdx, hrelay, hresync⟩ := hs.entered channel x hon
      by_cases hxid : x = id
      · subst hxid
        rw [hd] at hx
        cases hx
        rw [hrelay] at hsame
        obtain ⟨relay', hrelay'⟩ := Option.isSome_iff_exists.1 hsame
        refine ⟨d', relay', ?_, hchannel.trans hdx, hrelay', hsignal ▸ hresync⟩
        rw [hfind, if_pos rfl, Dispatch.not_isOver hrelay']
        rfl
      · exact ⟨dx, relay, by rw [hfind, if_neg hxid, hx], hdx, hrelay, hresync⟩
    · rw [ChannelTable.dispatchOn?_finish] at hon
      split_ifs at hon with hown
      obtain ⟨dx, relay, hx, hdx, hrelay, hresync⟩ := hs.entered channel x hon
      -- The entry that is left is not that of the request which was taken off.
      have hxid : x ≠ id := by
        rintro rfl
        have := hs.channel_eq hon hd
        exact hown ⟨this.symm, this ▸ hon⟩
      exact ⟨dx, relay, by rw [hfind, if_neg hxid, hx], hdx, hrelay, hresync⟩
  · change dx.signal = some .resync ∨ table.dispatchOn? dx.channel = some x
    rw [hfind] at hx
    split_ifs at hx with hxid hover
    · cases hx
      subst hxid
      rcases hrelayed with ⟨rfl, hsame⟩ | ⟨-, hnone⟩
      · rw [hrelay] at hsame
        obtain ⟨relay', hrelay'⟩ := Option.isSome_iff_exists.1 hsame.symm
        rw [hsignal, hchannel]
        exact hs.relayed x d relay' hd hrelay'
      · rw [hnone] at hrelay
        cases hrelay
    · refine (hs.relayed x dx relay hx hrelay).imp_right fun hon => ?_
      rcases hrelayed with ⟨rfl, -⟩ | ⟨rfl, -⟩
      · exact hon
      · rw [ChannelTable.dispatchOn?_finish, if_neg, hon]
        rintro ⟨hsame, hown⟩
        rw [hsame, hown] at hon
        cases hon
        exact hxid rfl

/-- Giving up the request in flight on a channel keeps the books. -/
theorem abort (hs : Books s) (l : Listener) (channel : ChannelId) (reason : Abort)
    (reports : List Bytes) : Books (s.react now l ⟨(s.table.abort channel reason).2, reports,
      (s.table.abort channel reason).1.map (·, reason), none⟩) := by
  rw [ChannelTable.abort_fst]
  set signal := (s.table.dispatchOn? channel).map (·, reason) with hsignal
  have hfind (x : DispatchId) :
      (s.react now l ⟨(s.table.abort channel reason).2, reports, signal, none⟩).dispatch? x =
        (s.dispatch? x).map (System.told signal) := by
    rw [System.dispatch?_react]
    exact Option.or_none
  have htold (d : Dispatch δ) := Dispatch.signal_told (s.table.dispatchOn? channel) reason d
  rw [← hsignal] at htold
  refine ⟨fun x hx => ?_, fun x dx hx => ?_, fun c x hon => ?_, fun x dx relay hx hrelay => ?_⟩
  · simp only [System.react, System.notifyAbort_eq_map, Option.map_none, Option.toList_none,
      List.append_nil] at hx
    obtain ⟨d, hd, rfl⟩ := List.mem_map.1 hx
    rw [Dispatch.isOver_told]
    exact hs.alive d hd
  · rw [hfind] at hx
    obtain ⟨d, hd, -⟩ := Option.map_eq_some_iff.1 hx
    change x < (s.table.abort channel reason).2.nextDispatch
    rw [ChannelTable.nextDispatch_abort]
    exact hs.numbered x d hd
  · change (s.table.abort channel reason).2.dispatchOn? c = some x at hon
    rw [ChannelTable.dispatchOn?_abort] at hon
    split_ifs at hon with hfreed
    obtain ⟨d, relay, hd, hchannel, hrelay, hresync⟩ := hs.entered c x hon
    obtain ⟨-, hsame, -, -, hstage⟩ := System.told_frame signal d
    refine ⟨System.told signal d, relay, by rw [hfind, hd, Option.map_some],
      hsame.trans hchannel, by rw [hstage, hrelay], ?_⟩
    rw [htold]
    split_ifs with hmeant
    · rintro hreason
      -- A request that INIT drops is on its channel, whose entry is gone.
      cases hreason
      rw [System.id_of_dispatch? hd] at hmeant
      exact hfreed ⟨rfl, hchannel.symm.trans (hs.channel_eq hmeant hd)⟩
    · exact hresync
  · change dx.signal = some .resync ∨ (s.table.abort channel reason).2.dispatchOn? dx.channel = some x
    rw [hfind] at hx
    obtain ⟨d, hd, rfl⟩ := Option.map_eq_some_iff.1 hx
    obtain ⟨-, hsame, -, -, hstage⟩ := System.told_frame signal d
    have hid := System.id_of_dispatch? hd
    rw [hstage] at hrelay
    rw [htold, hsame, hid, ChannelTable.dispatchOn?_abort]
    rcases hs.relayed x d relay hd hrelay with hresync | hon
    · refine .inl ?_
      split_ifs with hmeant
      · obtain ⟨d', -, hd', -, -, hother⟩ := hs.entered channel x hmeant
        rw [hd] at hd'
        cases hd'
        exact absurd hresync hother
      · exact hresync
    · by_cases hfreed : reason = .resync ∧ d.channel = channel
      · rw [← hfreed.2, if_pos hon, hfreed.1]
        exact .inl rfl
      · rw [if_neg hfreed]
        exact .inr hon

/-- Accepting a request keeps the books. -/
theorem accept (hs : Books s) (l : Listener) {a : Accepted} {next : ChannelTable}
    (hstart : s.table.start a.channel = some (a.id, next)) (reports : List Bytes) :
    Books (s.react now l ⟨next, reports, none, some a⟩) := by
  obtain ⟨hfree, hentry⟩ := ChannelTable.start_eq_some.1 hstart
  obtain ⟨hid, hnext⟩ := Prod.mk.inj hentry
  have hon (c : ChannelId) := ChannelTable.dispatchOn?_start hstart c
  rw [← hid] at hon
  have hnew : s.dispatch? a.id = none := hid ▸ hs.dispatch?_nextDispatch
  have hfind (x : DispatchId) :
      (s.react now l ⟨next, reports, none, some a⟩).dispatch? x =
        if x = a.id then some (Dispatch.start s.config now a) else s.dispatch? x := by
    rw [System.dispatch?_react, System.told_none, Option.map_id']
    by_cases hx : x = a.id
    · simp [Option.filter, hx, hnew]
    · simp [Option.filter, hx, Ne.symm hx]
  refine ⟨fun x hx => ?_, fun x dx hx => ?_, fun c x hc => ?_, fun x dx relay hx hrelay => ?_⟩
  · rcases List.mem_append.1 hx with hx | hx
    · exact hs.alive x hx
    · obtain rfl := List.mem_singleton.1 hx
      rfl
  · change x < next.nextDispatch
    have hsucc : next.nextDispatch = s.table.nextDispatch + 1 := by rw [hnext]
    rw [hfind] at hx
    rw [hsucc]
    split_ifs at hx with hxa
    · rw [hxa, hid]
      exact Nat.lt_succ_self _
    · exact Nat.lt_succ_of_lt (hs.numbered x dx hx)
  · change next.dispatchOn? c = some x at hc
    rw [hon] at hc
    split_ifs at hc with hca
    · cases hc
      exact ⟨_, .polling, by rw [hfind, if_pos rfl], hca.symm, rfl, by simp [Dispatch.start]⟩
    · obtain ⟨d, relay, hd, hrest⟩ := hs.entered c x hc
      refine ⟨d, relay, ?_, hrest⟩
      rw [hfind, if_neg, hd]
      rintro rfl
      rw [hnew] at hd
      cases hd
  · change dx.signal = some .resync ∨ next.dispatchOn? dx.channel = some x
    rw [hfind] at hx
    rw [hon]
    split_ifs at hx with hxa
    · cases hx
      exact .inr ((if_pos rfl).trans (congrArg some hxa.symm))
    · refine (hs.relayed x dx relay hx hrelay).imp_right fun hc => ?_
      rw [if_neg, hc]
      intro hca
      rw [hca, hfree] at hc
      cases hc

theorem dispatch?_accept (hs : Books s) (l : Listener) {a : Accepted} {next : ChannelTable}
    (hstart : s.table.start a.channel = some (a.id, next)) (reports : List Bytes) :
    (s.react now l ⟨next, reports, none, some a⟩).dispatch? a.id =
      some (Dispatch.start s.config now a) := by
  have hid : a.id = s.table.nextDispatch :=
    (Prod.mk.inj (ChannelTable.start_eq_some.1 hstart).2).1
  have hnew : s.dispatch? a.id = none := hid ▸ hs.dispatch?_nextDispatch
  rw [System.dispatch?_react, hnew]
  simp [Option.filter]

/-- A reaction that touches no request keeps the books. -/
theorem idle (hs : Books s) (l : Listener) {r : Reaction} (hidle : r.Idle s.table) :
    Books (s.react now l r) := by
  obtain ⟨hflight, hnext, hsignal, haccepted⟩ := hidle
  have hreact : s.react now l r = { s with table := r.table, listener := l } := by
    simp [System.react, hsignal, haccepted, System.notifyAbort]
  have hon (c : ChannelId) : r.table.dispatchOn? c = s.table.dispatchOn? c := by
    rw [ChannelTable.dispatchOn?, hflight, ChannelTable.dispatchOn?]
  rw [hreact]
  refine ⟨hs.alive, fun x dx hx => ?_, fun c x hc => hs.entered c x (hon c ▸ hc),
    fun x dx relay hx hrelay => ?_⟩
  · change x < r.table.nextDispatch
    exact hnext ▸ hs.numbered x dx hx
  · change _ ∨ r.table.dispatchOn? dx.channel = some x
    exact hon dx.channel ▸ hs.relayed x dx relay hx hrelay

/-- **Every event keeps the books.** -/
theorem step (hs : Books s) (h : s.step? now e = some t) : Books t := by
  rcases System.step_cases h with ⟨id, d, d', table, -, hd, hturn, rfl⟩ | ⟨-, l, r, hturn, rfl⟩
  · exact hs.put hd hturn
  · cases hturn with
    | asked heard completes follows =>
      cases follows with
      | accepted is start => exact hs.accept _ start []
      | cancelled is => exact hs.abort _ _ _ _
      | resynced is nonce =>
        rw [welcomeBack, if_pos nonce]
        exact hs.abort _ _ _ _
      | idle idle other => exact hs.idle _ idle
    | incomplete heard completes idle => exact hs.idle _ idle
    | other unheard idle => exact hs.idle _ idle

theorem run {config : Config} {permits : System δ → Time × Event δ → Bool}
    {events : List (Time × Event δ)}
    (h : Machine.run? permits (System.fresh config) events = some t) : Books t :=
  Machine.run?_induction (fun _ _ _ hs _ hstep => step hs hstep) (fresh config) h

/-- What every request has when it is accepted, and keeps, every request has in every run. -/
theorem forall_dispatch {P : Dispatch δ → Prop}
    (hstart : ∀ config now a, P (Dispatch.start config now a))
    (hturn : ∀ {config now table table'} {e : Event δ} {d d' : Dispatch δ}, P d →
      d.Turn config now table e d' table' → P d')
    (htold : ∀ signal d, P d → P (System.told signal d)) {config : Config}
    {permits : System δ → Time × Event δ → Bool} {events : List (Time × Event δ)}
    (h : Machine.run? permits (System.fresh config) events = some t) {id : DispatchId}
    {d : Dispatch δ} (hd : t.dispatch? id = some d) : P d := by
  suffices hall : Books t ∧ ∀ id d, t.dispatch? id = some d → P d from hall.2 id d hd
  refine Machine.run?_induction (P := fun s => Books s ∧ ∀ id d, s.dispatch? id = some d → P d)
    (fun s e t hs _ hstep => ⟨hs.1.step hstep, fun x dx hx => ?_⟩)
    ⟨fresh config, by simp [System.fresh, System.dispatch?]⟩ h
  rcases System.step_cases hstep with ⟨id, d, d', table, -, hd, hturn', rfl⟩ | ⟨-, l, r, -, rfl⟩
  · rw [System.dispatch?_turn hs.1.alive hd hturn'] at hx
    split_ifs at hx
    · cases hx
      exact hturn (hs.2 id d hd) hturn'
    · exact hs.2 x dx hx
  · rw [System.dispatch?_react, Option.or_eq_some_iff] at hx
    rcases hx with hx | ⟨-, hx⟩
    · obtain ⟨d, hd, rfl⟩ := Option.map_eq_some_iff.1 hx
      exact htold _ d (hs.2 x d hd)
    · obtain ⟨a, -, rfl⟩ := Option.map_eq_some_iff.1 hx
      exact hstart ..

end Books

end Ctap.Gateway
