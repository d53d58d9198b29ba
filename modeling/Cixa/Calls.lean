import Cixa.Books

/-! # Calls — what a broker is asked to do, and its runs

    A broker is called with a request in memory or with a saved one, through
    an executor, or to recover after a restart.  Every call is an ATTEMPT to
    execute one intent, a path of the changes its request permits, or a
    recovery.  A run is any sequence of calls from a bootstrapped treasury,
    by any tokens. -/

namespace Treasury

open CixaData CixaHost Outcome Transition

variable {host : Host} {w : World}

/-! ## Authentication -/

/-- Who a token authenticates as, at a reading of the clock not before a
    world's. -/
def AuthenticatesAs (host : Host) (w : World) (token : String) :
    Actor → Prop
  | .owner => tokenHash host token = w.state.owner.capabilityTokenHash
  | .agent id => ∃ k r, w.tick ≤ k ∧ r.id = id
      ∧ activeAgent w.state (tokenHash host token) (host.clock k) = some r

theorem authenticate_spec {token : String} :
    wp (authenticate host token)
      (fun actor w' => Quiet w w' ∧ AuthenticatesAs host w token actor)
      (fun _ w' => Quiet w w') w := by
  unfold authenticate
  rw [wp_bind, wp_readState]
  refine line_rejectIf (fun _ => Quiet.refl w) fun _ => ?_
  rw [wp_ite, wp_pure]
  refine ⟨fun howner => ⟨Quiet.refl w, howner⟩, fun _ => ?_⟩
  rw [wp_bind, wp_now]
  refine line_orReject (fun _ => Quiet.readClock w) fun r hr => ?_
  rw [wp_pure]
  exact ⟨Quiet.readClock w, w.tick, r, Nat.le_refl _, rfl, hr⟩

/-! ## Requests in memory -/

/-- The changes a request may make, and those of a save. -/
def Allowed (actor : Actor) (request : Request) (l : Label) : Prop :=
  permits actor request l ∨ Saving l

theorem allowed_quiet (actor : Actor) (request : Request) :
    Allowed actor request .quiet := Or.inr trivial

/-- A request that executes nothing: refused, or a path of what it permits
    to whoever its token is. -/
inductive Ordinary (host : Host) (token : String) (request : Request)
    (w w' : World) : Prop where
  | refused (hp : Path host Saving w w')
  | served {actor : Actor} (ha : AuthenticatesAs host w token actor)
      (hp : Path host (Allowed actor request) w w')

theorem handle_ordinary {token : String} {request : Request}
    (hk : Keyed w.state) (hx : executes request = none) :
    wp (handle host token request)
      (fun _ w' => Ordinary host token request w w')
      (fun _ w' => Ordinary host token request w w') w := by
  unfold handle
  refine line (wp_mono authenticate_spec (fun _ _ h => h)
    (fun _ _ h => .refused (.quiet saving_quiet h))) ?_
  rintro actor a ⟨ha, hauth⟩
  have hserve : ∀ w', Path host (permits actor request) a w' →
      Ordinary host token request w w' := fun w' hp =>
    .served hauth (.quietThen ha (allowed_quiet actor request)
      (hp.mono fun _ => Or.inl))
  exact wp_mono (dispatch_within (ha.state ▸ hk) hx) (fun _ _ h => hserve _ h)
    (fun _ _ h => hserve _ h)

theorem handle_attempt {token : String} {request : Request} {id : String}
    (h : Workable w.state) (hx : executes request = some id) :
    wp (handle host token request)
      (fun _ w' => Attempt host False id w w')
      (fun _ w' => Attempt host False id w w') w := by
  unfold handle
  refine line_quiet (authenticate_quietly token) (fun _ _ h => .quiet h) ?_
  intro actor a ha
  exact wp_mono (dispatch_attempt (ha.state ▸ h) hx)
    (fun _ _ h => h.afterQuiet ha) (fun _ _ h => h.afterQuiet ha)

/-! ## Saved requests -/

/-- After a request, the state is saved, put back, or left. -/
theorem handleSaved_spec {token : String} {request : Request}
    {P : World → Prop}
    (hrun : wp (handle host token request) (fun _ v => P v) (fun _ v => P v) w)
    {R : World → Prop} (hkeep : ∀ v, P v → request.isReadOnly = true → R v)
    (hsaved : ∀ v w', P v → Path host Saving v w' → R w')
    (hback : ∀ v w', P v → Path host Saving v w' → R (w.restoreState w')) :
    wp (handleSaved host token request) (fun _ => R) (fun _ => R) w := by
  have hsave : ∀ v, P v → wp (orRestore w.state (saveTo host)) (fun _ => R)
      (fun _ => R) v := fun v hv =>
    wp_orRestore (wp_mono saveTo_spec (fun _ _ h => hsaved v _ hv h.1)
      (fun _ _ h => hback v _ hv h.1))
  unfold handleSaved
  rw [wp_bind, wp_readState, wp_bind, wp_attempt]
  refine wp_mono hrun ?_ ?_
  · intro value v hv
    dsimp only
    rw [wp_ite, wp_pure]
    refine ⟨hkeep v hv, fun _ => ?_⟩
    refine line (hsave v hv) fun _ w' hw' => ?_
    rw [wp_pure]
    exact hw'
  · intro e v hv
    dsimp only
    rw [wp_bind, wp_readState, wp_ite]
    constructor
    · intro _
      refine line (hsave v hv) fun _ w' hw' => ?_
      rw [wp_throw]
      exact hw'
    · intro _
      rw [wp_bind, wp_setState, wp_throw]
      exact hback v v hv (.refl v)

/-- A saved request that returns leaves what the request left. -/
theorem handleSaved_returns {token : String} {request : Request}
    {P : TreasuryState → Prop}
    (hrun : wp (handle host token request) (fun _ v => P v.state)
      (fun _ _ => True) w) :
    wp (handleSaved host token request) (fun _ w' => P w'.state)
      (fun _ _ => True) w := by
  unfold handleSaved
  rw [wp_bind, wp_readState, wp_bind, wp_attempt]
  refine wp_mono hrun ?_ ?_
  · intro value v hv
    dsimp only
    rw [wp_ite, wp_pure]
    refine ⟨fun _ => hv, fun _ => ?_⟩
    rw [wp_bind]
    refine wp_orRestore (wp_mono saveTo_spec ?_ (fun _ _ _ => trivial))
    rintro _ w' ⟨_, hs, _⟩
    rw [wp_pure, hs]
    exact hv
  · intro e v _
    dsimp only
    rw [wp_bind, wp_readState, wp_ite]
    constructor
    · intro _
      rw [wp_bind]
      refine wp_orRestore (wp_mono (wp_const trivial) ?_ (fun _ _ h => h))
      intro _ w' _
      rw [wp_throw]
      trivial
    · intro _
      rw [wp_bind, wp_setState, wp_throw]
      trivial

theorem Ordinary.mono_saving {token : String} {request : Request} {v w' : World}
    (h : Ordinary host token request w v) (hp : Path host Saving v w') :
    Ordinary host token request w w' := by
  cases h with
  | refused h => exact .refused (h.trans hp)
  | served ha h => exact .served ha (h.trans (hp.mono fun _ => Or.inr))

theorem Ordinary.back {token : String} {request : Request} {v : World}
    (h : Ordinary host token request w v) :
    Ordinary host token request w (w.restoreState v) := by
  cases h with
  | refused h => exact .refused (.rollback (.refl w) h)
  | served ha h => exact .served ha (.rollback (.refl w) h)

theorem handleSaved_ordinary {token : String} {request : Request}
    (hk : Keyed w.state) (hx : executes request = none) :
    wp (handleSaved host token request)
      (fun _ w' => Ordinary host token request w w')
      (fun _ w' => Ordinary host token request w w') w :=
  handleSaved_spec (handle_ordinary hk hx) (fun _ h _ => h)
    (fun _ _ h hp => h.mono_saving hp) (fun _ _ h hp => (h.mono_saving hp).back)

/-- A handoff that begins with a saved request submits nothing. -/
theorem handleSaved_handoff {token id : String} (h : Workable w.state) :
    wp (handleSaved host token (.ownerBeginManualHandoff id))
      (fun _ w' => Attempt host True id w w')
      (fun _ w' => Attempt host True id w w') w := by
  have hrun : wp (handle host token (.ownerBeginManualHandoff id))
      (fun _ v => Quiet w v ∨ Reserved host id w v)
      (fun _ v => Quiet w v ∨ Reserved host id w v) w := by
    unfold handle
    refine line_quiet (authenticate_quietly token) (fun _ _ h => Or.inl h) ?_
    intro actor a ha
    have hres : ∀ v, Reserved host id a v → Reserved host id w v := by
      rintro v ⟨b, hb, hp⟩
      exact ⟨b, hb.afterQuiet ha, hp⟩
    exact wp_mono (ownerBeginManualHandoff_spec (ha.state ▸ h))
      (fun _ _ h => Or.inr (hres _ h))
      (fun _ _ h => h.imp ha.trans (hres _))
  refine handleSaved_spec hrun (fun _ _ h => nomatch h) ?_ ?_
  · rintro v w' (hq | ⟨b, hb, hp⟩) hsave
    · exact .refused (Path.quietThen hq saving_quiet hsave)
    · exact Reserved.attempt ⟨b, hb, hp.trans (hsave.mono saving_before)⟩
  · rintro v w' (hq | ⟨b, hb, hp⟩) hsave
    · exact .refused (.rollback (.refl w)
        (Path.quietThen hq saving_quiet hsave))
    · exact .undone hb (hp.trans (hsave.mono saving_before)) rfl

/-! ## Recovery -/

/-- The labels of a recovery. -/
def Recovering : Label → Prop
  | .quiet => True
  | .audit action => action = "recover_interrupted_execution"
  | .move _ next => next = .unknown
  | _ => False

/-- What recovering a list of intents leads to. -/
structure Recovered (host : Host) (ids : List String) (w w' : World) :
    Prop where
  path : Path host Recovering w w'
  ledger : w'.state.ledger = w.state.ledger
  intents : ∀ id, w'.state.intents.get? id = w.state.intents.get? id
    ∨ (id ∈ ids ∧ ∃ i i', w.state.intents.get? id = some i
      ∧ w'.state.intents.get? id = some i' ∧ i.state = .executing
      ∧ i'.state = .unknown)

theorem Recovered.refl (ids : List String) : Recovered host ids w w :=
  ⟨.refl w, rfl, fun _ => Or.inl rfl⟩

theorem Recovered.trans {ids ids' : List String} {v w' : World}
    (h : Recovered host ids w v) (h' : Recovered host ids' v w') :
    Recovered host (ids ++ ids') w w' := by
  refine ⟨h.path.trans h'.path, h'.ledger.trans h.ledger, fun id => ?_⟩
  rcases h.intents id with heq | ⟨hid, i, j, hi, hj, hx, hu⟩
  · rcases h'.intents id with heq' | ⟨hid, i, j, hi, hj, hx, hu⟩
    · exact Or.inl (heq'.trans heq)
    · exact Or.inr ⟨List.mem_append_right _ hid, i, j, heq ▸ hi, hj, hx, hu⟩
  · rcases h'.intents id with heq' | ⟨_, i', _, hi', _, hx', _⟩
    · exact Or.inr ⟨List.mem_append_left _ hid, i, j, hi, heq'.trans hj, hx, hu⟩
    · -- an intent that is unknown is not executing
      rw [hj] at hi'
      rw [← Option.some.inj hi', hu] at hx'
      exact nomatch hx'

/-- The intents of a list are unknown. -/
def AllUnknown (ids : List String) (s : TreasuryState) : Prop :=
  ∀ id ∈ ids, ∃ i, s.intents.get? id = some i ∧ i.state = .unknown

/-- Recovering one intent. -/
theorem recoverIntent_spec {id : String} (hk : Keyed w.state)
    (hx : ∀ i, w.state.intents.get? id = some i → i.state = .executing) :
    wp (recoverIntent host id)
      (fun _ w' => Recovered host [id] w w' ∧ AllUnknown [id] w'.state)
      (fun _ w' => Recovered host [id] w w') w := by
  unfold recoverIntent
  rw [wp_bind, wp_readState]
  refine line_orReject (fun _ => .refl _) fun i hi => ?_
  obtain rfl := hk _ _ hi
  rw [wp_bind]
  refine wp_transition (fun _ => .refl _) fun hcan => ?_
  rw [wp_bind, wp_storeIntent]
  have hmoved : Path host Recovering w _ :=
    moved (i := i) (t := host.clock w.tick) (some interrupted)
      (Quiet.readClock w) hi (Or.inl ⟨hcan, Or.inr (Or.inr rfl)⟩)
      (.next (Nat.le_refl _) (Nat.lt_succ_self _)) rfl
  have hget : ∀ id, (w.state.intents.insert i.id { i with
      state := .unknown
      updatedAt := host.clock w.tick
      lastError := some interrupted }).get? id = w.state.intents.get? id
      ∨ (id ∈ [i.id] ∧ ∃ j j', w.state.intents.get? id = some j
        ∧ (w.state.intents.insert i.id { i with
          state := .unknown
          updatedAt := host.clock w.tick
          lastError := some interrupted }).get? id = some j'
        ∧ j.state = .executing ∧ j'.state = .unknown) := by
    intro id
    rw [SortedMap.get?_insert]
    by_cases hid : id = i.id
    · rw [if_pos hid]
      exact Or.inr ⟨List.mem_singleton.mpr hid, i, _, hid ▸ hi, rfl, hx i hi,
        rfl⟩
    · rw [if_neg hid]
      exact Or.inl rfl
  refine wp_audit (fun _ => ⟨hmoved, rfl, hget⟩) fun hroom => ?_
  refine ⟨⟨hmoved.tail (l := .audit "recover_interrupted_execution") rfl
    (.audit ⟨rfl, Nat.le_succ _, Nat.le_refl _, Nat.le_refl _⟩
      (.next hroom rfl rfl ⟨Nat.le_refl _, Nat.lt_succ_self _⟩) rfl rfl),
    rfl, hget⟩, ?_⟩
  intro id hid
  obtain rfl := List.mem_singleton.mp hid
  exact ⟨_, SortedMap.get?_insert_self _ _ _, rfl⟩

/-- Recovering a list of different intents, one after another. -/
theorem recoverIntents_spec {ids : List String} (hk : Keyed w.state)
    (hnd : ids.Nodup)
    (hx : ∀ id ∈ ids, ∀ i, w.state.intents.get? id = some i →
      i.state = .executing) :
    wp (recoverIntents host ids)
      (fun _ w' => Recovered host ids w w' ∧ AllUnknown ids w'.state)
      (fun _ w' => Recovered host ids w w') w := by
  induction ids generalizing w with
  | nil => exact (wp_pure _).mpr ⟨.refl [], fun id hid => nomatch hid⟩
  | cons id rest ih =>
      obtain ⟨hnot, hrest⟩ := List.nodup_cons.mp hnd
      unfold recoverIntents
      refine line (wp_mono (recoverIntent_spec hk
        (hx id (List.mem_cons_self ..))) (fun _ _ h => h) ?_) ?_
      · rintro _ w' h
        exact h.trans (.refl rest)
      rintro _ v ⟨hv, hunknown⟩
      refine wp_mono (ih (hv.path.keyed hk) hrest ?_) ?_ ?_
      · intro id' hid' i hi
        rcases hv.intents id' with heq | ⟨hmem, _⟩
        · exact hx id' (List.mem_cons_of_mem _ hid') i (heq ▸ hi)
        · obtain rfl := List.mem_singleton.mp hmem
          exact absurd hid' hnot
      · rintro _ w' ⟨hw', hrest'⟩
        refine ⟨hv.trans hw', fun id' hid' => ?_⟩
        rcases List.mem_cons.mp hid' with rfl | hid'
        · obtain ⟨i, hi, hu⟩ := hunknown id' (List.mem_singleton_self _)
          rcases hw'.intents id' with heq | ⟨_, _, i', _, hi', _, hu'⟩
          · exact ⟨i, heq.trans hi, hu⟩
          · exact ⟨i', hi', hu'⟩
        · exact hrest' id' hid'
      · exact fun _ _ h => hv.trans h

/-- The ids of the executing intents, each once. -/
theorem mem_executingIds {s : TreasuryState} (hk : Keyed s) {id : String} :
    id ∈ executingIds s
      ↔ ∃ i, s.intents.get? id = some i ∧ i.state = .executing := by
  unfold executingIds
  constructor
  · intro h
    obtain ⟨i, hi, rfl⟩ := List.mem_map.mp h
    obtain ⟨hi, hx⟩ := List.mem_filter.mp hi
    obtain ⟨key, hget⟩ := SortedMap.mem_values.mp hi
    obtain rfl := hk _ _ hget
    exact ⟨i, hget, of_decide_eq_true hx⟩
  · rintro ⟨i, hi, hx⟩
    refine List.mem_map.mpr ⟨i, List.mem_filter.mpr
      ⟨SortedMap.mem_values_of_get? hi, decide_eq_true hx⟩, hk _ _ hi⟩

theorem nodup_executingIds {s : TreasuryState} (hk : Keyed s) :
    (executingIds s).Nodup := by
  have hkeys : (s.intents.values.map PurchaseIntent.id)
      = s.intents.keys := by
    unfold SortedMap.values SortedMap.keys
    rw [List.map_map]
    refine List.map_congr_left fun e he => ?_
    exact hk e.1 e.2 (SortedMap.get?_eq_some.mpr he)
  have hnd : (s.intents.values.map PurchaseIntent.id).Nodup := by
    rw [hkeys]
    unfold SortedMap.keys
    exact (List.pairwise_map.mpr s.intents.sorted).imp fun h => ne_of_lt h
  exact hnd.sublist (List.filter_sublist.map _)

/-- **RECOVERY** marks the executing intents unknown and leaves the ledger
    alone; if it returns, none is executing. -/
theorem recover_spec (hk : Keyed w.state) :
    wp (recoverInterruptedExecutions host)
      (fun _ w' => Recovered host (executingIds w.state) w w'
        ∧ AllUnknown (executingIds w.state) w'.state)
      (fun _ w' => Recovered host (executingIds w.state) w w') w := by
  unfold recoverInterruptedExecutions
  rw [wp_bind, wp_readState]
  refine line (recoverIntents_spec hk (nodup_executingIds hk) ?_) ?_
  · intro id hid i hi
    obtain ⟨j, hj, hx⟩ := (mem_executingIds hk).mp hid
    rw [← Option.some.inj (hi.symm.trans hj)] at hx
    exact hx
  · intro _ w' h
    rw [wp_pure]
    exact h

end Treasury
