import Cixa.Validity

/-! # Entries — how an intent gets into execution

    An intent ENTERS execution in a call when the call stores it as
    executing.  Only a reservation does, so a call that enters an intent is
    an attempt on it that reserved its funds.  And only those who are
    ENTITLED get that far: the agent the intent belongs to, through the
    simulated provider or the controlled checkout, and the owner, for an
    intent the owner approved. -/

namespace Treasury

open CixaData CixaHost Outcome Transition

variable {host : Host} {w w' : World} {l : Label} {c : Call} {id : String}

/-! ## What a path logs -/

/-- What every allowed change logs, the whole path logs. -/
theorem Path.logs {allowed : Label → Prop} {P : Event → Prop}
    (h : Path host allowed w w')
    (hP : ∀ l a b e, allowed l → Change host l a b → b.log = a.log ++ [e] → P e) :
    ∃ tail, w'.log = w.log ++ tail ∧ ∀ e ∈ tail, P e := by
  refine h.rel (R := fun a b => ∃ tail, b.log = a.log ++ tail
    ∧ ∀ e ∈ tail, P e) ?_ ?_ ?_ ?_
  · intro a
    exact ⟨[], (List.append_nil _).symm, fun e he => nomatch he⟩
  · rintro a b c ⟨t, ht, hPt⟩ ⟨u, hu, hPu⟩
    refine ⟨t ++ u, by rw [hu, ht, List.append_assoc], fun e he => ?_⟩
    rcases List.mem_append.mp he with he | he
    · exact hPt e he
    · exact hPu e he
  · intro l a b hl hc
    rcases hc.logged with heq | ⟨e, heq, _⟩
    · exact ⟨[], by rw [heq, List.append_nil], fun e he => nomatch he⟩
    · refine ⟨[e], heq, fun e' he' => ?_⟩
      rw [List.mem_singleton.mp he']
      exact hP l a b e hl hc heq
  · rintro a b ⟨t, ht, hPt⟩
    exact ⟨t, ht, hPt⟩

/-- An intent enters execution between two worlds. -/
def Enters (w w' : World) (id : String) : Prop :=
  ∃ tail i, w'.log = w.log ++ tail ∧ .stored i ∈ tail ∧ i.id = id
    ∧ i.state = .executing

/-- No intent enters execution between two worlds. -/
def Barren (w w' : World) : Prop :=
  ∃ tail, w'.log = w.log ++ tail
    ∧ ∀ i, .stored i ∈ tail → i.state ≠ .executing

theorem Barren.not_enters (h : Barren w w') : ¬Enters w w' id := by
  obtain ⟨tail, htail, hnone⟩ := h
  rintro ⟨tail', i, htail', hmem, _, hx⟩
  rw [htail] at htail'
  rw [← List.append_cancel_left htail'] at hmem
  exact hnone i hmem hx

theorem Barren.trans {v : World} (h : Barren w v) (h' : Barren v w') :
    Barren w w' := by
  obtain ⟨t, ht, hnt⟩ := h
  obtain ⟨u, hu, hnu⟩ := h'
  refine ⟨t ++ u, by rw [hu, ht, List.append_assoc], fun i hi => ?_⟩
  rcases List.mem_append.mp hi with hi | hi
  · exact hnt i hi
  · exact hnu i hi

theorem Barren.ofLog (h : w'.log = w.log) : Barren w w' :=
  ⟨[], by rw [h, List.append_nil], fun i hi => nomatch hi⟩

theorem stateOfDecision_not_executing (d : PolicyDecision) :
    stateOfDecision d ≠ .executing := by
  unfold stateOfDecision
  split
  · exact nofun
  · split
    · exact nofun
    · exact nofun

/-- **ONLY A RESERVATION** stores an intent as executing. -/
theorem Change.entering {i : PurchaseIntent} (h : Change host l w w')
    (hlog : w'.log = w.log ++ [.stored i]) (hx : i.state = .executing) :
    l = .reserve i.id := by
  have hlast : ∀ j, w'.log = w.log ++ [.stored j] → i = j := by
    intro j hj
    rw [hlog] at hj
    have := List.append_cancel_left hj
    simpa using this
  cases h.intents with
  | none _ hl =>
      obtain ⟨tail, htail, hnone⟩ := hl
      rw [hlog] at htail
      refine absurd ?_ (hnone i)
      rw [← List.append_cancel_left htail]
      exact List.mem_singleton_self _
  | new _ hn _ hl =>
      obtain rfl := hlast _ hl
      rw [hn.state] at hx
      exact absurd hx (stateOfDecision_not_executing _)
  | next _ hc hx' _ hl =>
      obtain rfl := hlast _ hl
      rw [hc.id]
      exact hx' hx

/-- Without a reservation nothing enters execution. -/
theorem Path.barren {allowed : Label → Prop} (h : Path host allowed w w')
    (hno : ∀ id, ¬allowed (.reserve id)) : Barren w w' := by
  have hnone : ∀ l a b e, allowed l → Change host l a b →
      b.log = a.log ++ [e] → ∀ i, e = .stored i → i.state ≠ .executing := by
    rintro l a b _ hl hc hlog i rfl hx
    have hreserve := hc.entering hlog hx
    exact hno _ (hreserve ▸ hl)
  obtain ⟨tail, htail, hP⟩ := h.logs hnone
  exact ⟨tail, htail, fun i hi => hP _ hi i rfl⟩

theorem Quiet.barren (h : Quiet w w') : Barren w w' := .ofLog h.log

theorem saving_barren (h : Path host Saving w w') : Barren w w' :=
  h.barren fun _ h => h

theorem Change.submitted_barren {id : String}
    (h : Change host (.submit id) w w') : Barren w w' := by
  have hp : Path host (fun l => l = .submit id) w w' := .single rfl h
  exact hp.barren fun _ h => nomatch h

/-! ## Attempts -/

/-- **WHAT A RESERVATION IS**, with everything that was checked and
    written. -/
theorem Change.reserve_inv {b : World} (h : Change host (.reserve id) w b) :
    ∃ i r p hold e t, i.id = id ∧ w.state.intents.get? id = some i
      ∧ Reservable host w b i r p
      ∧ EventIn host w b .holdReserved i.request.finalTotal (some id) hold
      ∧ Entered host w b (w.state.withEvents [hold]) "reserve_funds" e
      ∧ ReadIn host w b t
      ∧ b.state = ((w.state.withEvents [hold]).withEntry e).withIntent id
        { i with state := .executing, updatedAt := t }
      ∧ b.log = w.log
        ++ [.stored { i with state := .executing, updatedAt := t }] := by
  generalize hl : Label.reserve id = l at h
  cases h with
  | reserve _ hi hr hh he ht hs hlog =>
      cases hl
      exact ⟨_, _, _, _, _, _, rfl, hi, hr, hh, he, ht, hs, hlog⟩
  | _ => exact nomatch hl

/-- An intent is stored as executing between two worlds. -/
def EntersAs (w w' : World) (x : PurchaseIntent) : Prop :=
  ∃ tail, w'.log = w.log ++ tail ∧ .stored x ∈ tail ∧ x.state = .executing

theorem Enters.as (h : Enters w w' id) : ∃ x, EntersAs w w' x ∧ x.id = id := by
  obtain ⟨tail, x, htail, hmem, hid, hx⟩ := h
  exact ⟨x, ⟨tail, htail, hmem, hx⟩, hid⟩

theorem EntersAs.enters {x : PurchaseIntent} (h : EntersAs w w' x) :
    Enters w w' x.id := by
  obtain ⟨tail, htail, hmem, hx⟩ := h
  exact ⟨tail, x, htail, hmem, rfl, hx⟩

/-- The reservation behind an entry: after it the state is put back, or only
    goes on. -/
structure EnteredBy (host : Host) (w b w' : World) (x : PurchaseIntent) :
    Prop where
  reserved : Change host (.reserve x.id) w b
  stored : ∃ j t, w.state.intents.get? x.id = some j ∧ j.id = x.id
    ∧ ReadIn host w b t ∧ x = { j with state := .executing, updatedAt := t }
  intents : b.state.intents = w.state.intents.insert x.id x
  tick : b.tick ≤ w'.tick
  after : w'.state = w.state ∨ Path host anyLabel b w'

/-- An attempt enters at most the intent it is on, and only by reserving. -/
theorem Attempt.entry {durable : Prop} {x : PurchaseIntent}
    (h : Attempt host durable id w w') (he : EntersAs w w' x) :
    x.id = id ∧ ∃ b, EnteredBy host w b w' x := by
  -- what follows the reservation lets nothing else enter
  have hafter : ∀ {b}, Change host (.reserve id) w b → Barren b w' →
      b.tick ≤ w'.tick → (w'.state = w.state ∨ Path host anyLabel b w') →
      x.id = id ∧ ∃ b, EnteredBy host w b w' x := by
    intro b hr hbarren htick hpath
    obtain ⟨tail, htail, hmem, hx⟩ := he
    obtain ⟨t, ht, hnone⟩ := hbarren
    obtain ⟨j, _, _, _, _, t', hj, hstored, _, _, _, hread, hs, hlog⟩ :=
      hr.reserve_inv
    rw [ht, hlog, List.append_assoc] at htail
    rw [← List.append_cancel_left htail] at hmem
    rcases List.mem_append.mp hmem with hmem | hmem
    · have hxj : x = { j with state := .executing, updatedAt := t' } := by
        simpa using hmem
      have hid : x.id = id := by
        rw [hxj]
        exact hj
      refine ⟨hid, b, hid ▸ hr, ⟨j, t', hid ▸ hstored, hj.trans hid.symm, hread,
        hxj⟩, ?_, htick, hpath⟩
      rw [hs, hid, hxj]
      rfl
    · exact absurd hx (hnone x hmem)
  cases h with
  | refused hp => exact absurd he.enters (saving_barren hp).not_enters
  | @undone b c hr hp hw =>
      have hbarren : Barren b c := hp.barren fun _ h => h
      refine hafter hr ?_ ?_ (Or.inl (by rw [hw]; rfl))
      · rw [hw]
        exact hbarren
      · rw [hw]
        exact hp.advance.tick
  | @finished b c d hr hp hs ha =>
      have hbefore : Barren b c := hp.barren fun _ h => h
      have hbarren : Barren d w' := ha.barren fun _ h => h
      have hsub : Barren c d ∧ Path host anyLabel c d := by
        rcases hs with rfl | ⟨hsub, _⟩
        · exact ⟨.ofLog rfl, .refl c⟩
        · exact ⟨hsub.submitted_barren,
            .single (l := .submit id) trivial hsub⟩
      have hpath : Path host anyLabel b w' :=
        ((hp.mono fun _ _ => trivial).trans hsub.2).trans
          (ha.mono fun _ _ => trivial)
      exact hafter hr (hbefore.trans (hsub.1.trans hbarren))
        hpath.advance.tick (Or.inr hpath)

theorem allowed_unreserving (actor : Actor) (request : Request) (id : String) :
    ¬Allowed actor request (.reserve id) := by
  rintro (h | h)
  · cases request <;> exact h
  · exact h

/-- **AN ENTRY IS A RESERVATION** from the world before the call, by an
    attempt on that intent. -/
theorem Behaves.entry {x : PurchaseIntent} (h : Behaves host w w' c)
    (he : EntersAs w w' x) :
    c.attempts = some x.id ∧ ∃ b, EnteredBy host w b w' x := by
  cases h with
  | attempt hc ha =>
      obtain ⟨rfl, hb⟩ := ha.entry he
      exact ⟨hc, hb⟩
  | ordinary _ _ ho =>
      cases ho with
      | refused hp => exact absurd he.enters (saving_barren hp).not_enters
      | served _ hp =>
          exact absurd he.enters
            (hp.barren (allowed_unreserving _ _)).not_enters
  | recovery hr =>
      exact absurd he.enters (hr.path.barren fun _ h => h).not_enters

/-! ## Who is entitled -/

/-- A token is somebody's in a world. -/
def Authenticates (host : Host) (w : World) (token : String) (actor : Actor) :
    Prop :=
  ∃ a, authenticate host token w = .ok actor a

theorem Authenticates.unique {token : String} {actor actor' : Actor}
    (h : Authenticates host w token actor)
    (h' : Authenticates host w token actor') : actor = actor' := by
  obtain ⟨a, ha⟩ := h
  obtain ⟨a', ha'⟩ := h'
  cases ha.symm.trans ha'
  rfl

theorem authenticate_authenticates {token : String} :
    wp (authenticate host token)
      (fun actor w' => Quiet w w' ∧ AuthenticatesAs host w token actor
        ∧ Authenticates host w token actor)
      (fun _ w' => Quiet w w') w := by
  refine wp_mono (wp_and authenticate_spec (wp_self _)) ?_ (fun _ _ h => h.1)
  rintro actor a ⟨⟨hq, hauth⟩, hrun⟩
  exact ⟨hq, hauth, a, hrun⟩

/-- **WHO MAY EXECUTE AN INTENT**: its agent, through the simulated provider
    or the controlled checkout, and the owner, an intent the owner
    approved. -/
inductive Entitled (host : Host) (w : World) (i : PurchaseIntent) :
    Call → Prop where
  | agent {c : Call} {token : String}
      (hc : c.asks = some (token, .executePurchaseIntent i.id))
      (ha : Authenticates host w token (.agent i.agentId))
      (hm : w.state.providerMode = .simulated) : Entitled host w i c
  | begun {c : Call} {token : String}
      (hc : c.asks = some (token, .ownerBeginManualHandoff i.id))
      (ha : AuthenticatesAs host w token .owner)
      (hm : w.state.providerMode = .manualPrepaidCard)
      (hx : i.state = .approved) : Entitled host w i c
  | controlled {token : String} {executor : CheckoutExecutor}
      (ha : Authenticates host w token (.agent i.agentId))
      (he : controlledCheckoutEnabled w.state = true) :
      Entitled host w i (.controlled token i.id executor)
  | handoff {token : String} {executor : CheckoutExecutor}
      (ha : AuthenticatesAs host w token .owner)
      (hm : w.state.providerMode = .manualPrepaidCard)
      (hx : i.state = .approved) :
      Entitled host w i (.handoff token i.id executor)

/-- Nothing entered, or the stored intent was entered by who may. -/
def Rightful (host : Host) (w w' : World) (id : String) (c : Call) : Prop :=
  Barren w w' ∨ ∃ i, w.state.intents.get? id = some i ∧ i.id = id
    ∧ Entitled host w i c

theorem Rightful.then {v : World} (h : Rightful host w v id c)
    (hb : Barren v w') : Rightful host w w' id c :=
  h.imp_left fun h => h.trans hb

/-- Preparing succeeds only for the agent of the intent. -/
theorem prepare_owned {actor : Actor} :
    wp (prepareIntentExecution host actor id)
      (fun _ _ => ∃ i, w.state.intents.get? id = some i
        ∧ actor = .agent i.agentId) (fun _ _ => True) w := by
  unfold prepareIntentExecution
  rw [wp_bind, wp_readState]
  refine line_lift (fun _ => trivial) fun _ _ => ?_
  refine line_lift (fun _ => trivial) fun agentId hscope => ?_
  refine line_orReject (fun _ => trivial) fun i hi => ?_
  refine line_rejectIf (fun _ => trivial) fun hown => ?_
  have howned : ∃ i, w.state.intents.get? id = some i
      ∧ actor = .agent i.agentId :=
    ⟨i, hi, by rw [(requireAgentScope_ok hscope).1, not_not.mp hown]⟩
  exact wp_mono (wp_const howned) (fun _ _ h => h) (fun _ _ _ => trivial)

/-- Preparing: the intent is its agent's, or only counters moved. -/
theorem prepare_gate {actor : Actor} (h : Workable w.state) :
    wp (prepareIntentExecution host actor id)
      (fun _ _ => ∃ i, w.state.intents.get? id = some i ∧ i.id = id
        ∧ actor = .agent i.agentId) (fun _ w' => Quiet w w') w := by
  have hgen := h.generation
  refine wp_mono (wp_and prepare_owned (prepare_spec h.keyed
    (by omega))) ?_ (fun _ _ h => h.2)
  rintro _ _ ⟨⟨i, hi, hactor⟩, _⟩
  exact ⟨i, hi, h.keyed _ _ hi, hactor⟩

/-- A program that enters an intent only for those who may. -/
def Guarded (host : Host) (id : String) (c : Call) {α : Type} (x : Op α)
    (w v : World) : Prop :=
  wp x (fun _ w' => Rightful host w w' id c)
    (fun _ w' => Rightful host w w' id c) v

/-- Once somebody entitled got this far, anything may follow. -/
theorem Entitled.guards {α : Type} {i : PurchaseIntent} {v : World}
    (he : Entitled host w i c) (hi : w.state.intents.get? id = some i)
    (hid : i.id = id) (x : Op α) : Guarded host id c x w v := by
  have hright : ∃ i, w.state.intents.get? id = some i ∧ i.id = id
      ∧ Entitled host w i c := ⟨i, hi, hid, he⟩
  exact wp_mono (wp_const hright) (fun _ _ h => Or.inr h)
    (fun _ _ h => Or.inr h)

theorem prepareOrRestore_gate {actor : Actor} (h : Workable w.state) :
    wp (orRestore w.state (prepareIntentExecution host actor id))
      (fun _ _ => ∃ i, w.state.intents.get? id = some i ∧ i.id = id
        ∧ actor = .agent i.agentId) (fun _ w' => Barren w w') w :=
  wp_orRestore (wp_mono (prepare_gate h) (fun _ _ h => h)
    (fun _ _ h => .ofLog h.log))

/-- Executing in memory, by the agent of the intent. -/
theorem executeIntent_guarded {actor : Actor} {a : World}
    (h : Workable w.state) (hq : Quiet w a)
    (he : ∀ i, w.state.intents.get? id = some i → i.id = id →
      actor = .agent i.agentId → w.state.providerMode = .simulated →
      Entitled host w i c) :
    Guarded host id c (executeIntent host actor id) w a := by
  unfold Guarded executeIntent
  rw [wp_bind, wp_readState]
  refine line_rejectIf (fun _ => Or.inl hq.barren) fun hmode => ?_
  have hsim : w.state.providerMode = .simulated := by
    rw [hq.state] at hmode
    cases hm : w.state.providerMode with
    | simulated => rfl
    | manualPrepaidCard => exact absurd hm hmode
  refine line (wp_mono (prepareOrRestore_gate (hq.state ▸ h))
    (fun _ _ h => h) (fun _ _ h => Or.inl (hq.barren.trans h))) ?_
  rintro _ v ⟨i, hi, hid, hactor⟩
  rw [hq.state] at hi
  exact (he i hi hid hactor hsim).guards hi hid _

/-- Beginning a handoff, by the owner. -/
theorem begin_guarded {actor : Actor} {a : World} (h : Workable w.state)
    (hq : Quiet w a)
    (he : ∀ i, w.state.intents.get? id = some i → i.id = id →
      actor = .owner → w.state.providerMode = .manualPrepaidCard →
      i.state = .approved → Entitled host w i c) :
    Guarded host id c (ownerBeginManualHandoff host actor id) w a := by
  unfold Guarded ownerBeginManualHandoff
  rw [wp_bind, wp_readState, hq.state]
  refine line_lift (fun _ => Or.inl hq.barren) fun _ howner => ?_
  refine line_rejectIf (fun _ => Or.inl hq.barren) fun hmode => ?_
  refine line_orReject (fun _ => Or.inl hq.barren) fun i hi => ?_
  refine line_rejectIf (fun _ => Or.inl hq.barren) fun hx => ?_
  exact (he i hi (h.keyed _ _ hi) (requireOwner_ok howner)
    (not_not.mp hmode) (not_not.mp hx)).guards hi (h.keyed _ _ hi) _

theorem handOver_guarded {executor : CheckoutExecutor}
    {auditor action agentId : String} {a : World} (h : Workable w.state)
    (hq : Quiet w a)
    (he : ∀ i, w.state.intents.get? id = some i → i.id = id →
      i.agentId = agentId → Entitled host w i c) :
    Guarded host id c (handOver host executor auditor action agentId id) w a := by
  unfold Guarded handOver
  rw [wp_bind, wp_readState]
  refine line (wp_mono (prepareOrRestore_gate (hq.state ▸ h))
    (fun _ _ h => h) (fun _ _ h => Or.inl (hq.barren.trans h))) ?_
  rintro _ v ⟨i, hi, hid, hactor⟩
  rw [hq.state] at hi
  exact (he i hi hid (Actor.agent.inj hactor).symm).guards hi hid _

/-- An executing request in memory. -/
theorem handle_guarded {token : String} {request : Request}
    (h : Workable w.state) (hc : c.asks = some (token, request))
    (hx : executes request = some id) :
    Guarded host id c (handle host token request) w w := by
  unfold Guarded handle
  refine line (wp_mono authenticate_authenticates (fun _ _ h => h)
    (fun _ _ h => Or.inl h.barren)) ?_
  rintro actor a ⟨hq, hauth, hrun⟩
  cases request with
  | executePurchaseIntent id' =>
      cases hx
      refine executeIntent_guarded h hq fun i hi hid hactor hm => ?_
      exact .agent (hid ▸ hc) (hactor ▸ hrun) hm
  | ownerBeginManualHandoff id' =>
      cases hx
      refine begin_guarded h hq fun i hi hid hactor hm hx => ?_
      exact .begun (hid ▸ hc) (hactor ▸ hauth) hm hx
  | _ => exact nomatch hx

theorem executePersisted_guarded {token : String} (h : Workable w.state)
    (hc : c.asks = some (token, .executePurchaseIntent id)) :
    Guarded host id c (executePersisted host token id) w w := by
  unfold Guarded executePersisted
  rw [wp_bind, wp_readState]
  refine line_rejectIf (fun _ => Or.inl (Quiet.refl w).barren) fun hmode => ?_
  have hsim : w.state.providerMode = .simulated := by
    cases hm : w.state.providerMode with
    | simulated => rfl
    | manualPrepaidCard => exact absurd hm hmode
  refine line (wp_mono authenticate_authenticates (fun _ _ h => h)
    (fun _ _ h => Or.inl h.barren)) ?_
  rintro actor a ⟨hq, hauth, hrun⟩
  rw [wp_bind]
  refine wp_orRestore ?_
  refine line (wp_mono (prepare_gate (hq.state ▸ h)) (fun _ _ h => h) ?_) ?_
  · exact fun _ _ h => Or.inl (hq.barren.trans (.ofLog h.log))
  rintro _ v ⟨i, hi, hid, hactor⟩
  rw [hq.state] at hi
  have hent : Entitled host w i c :=
    .agent (hid ▸ hc) (hactor ▸ hrun) hsim
  have hright : ∃ i, w.state.intents.get? id = some i ∧ i.id = id
      ∧ Entitled host w i c := ⟨i, hi, hid, hent⟩
  refine wp_mono (wp_const hright) (fun _ _ h => ?_) (fun _ _ h => Or.inr h)
  exact hent.guards hi hid _

theorem controlled_guarded {token : String} {executor : CheckoutExecutor}
    (h : Workable w.state) :
    Guarded host id (.controlled token id executor)
      (executeControlledCheckoutPersisted host token id executor) w w := by
  unfold Guarded executeControlledCheckoutPersisted
  rw [wp_bind, wp_readState]
  refine line (wp_mono authenticate_authenticates (fun _ _ h => h)
    (fun _ _ h => Or.inl h.barren)) ?_
  rintro actor a ⟨hq, hauth, hrun⟩
  have h0 := hq.barren
  refine line_lift (fun _ => Or.inl h0) fun agentId hscope => ?_
  refine line_orReject (fun _ => Or.inl h0) fun _ _ => ?_
  refine line_rejectIf (fun _ => Or.inl h0) fun henabled => ?_
  refine line_orReject (fun _ => Or.inl h0) fun _ _ => ?_
  refine line_rejectIf (fun _ => Or.inl h0) fun _ => ?_
  refine line_rejectIf (fun _ => Or.inl h0) fun _ => ?_
  refine line_lift (fun _ => Or.inl h0) fun _ _ => ?_
  refine handOver_guarded h hq fun i hi hid hagent => ?_
  subst hid
  rw [(requireAgentScope_ok hscope).1] at hrun
  exact .controlled (hagent ▸ hrun) (by simpa using henabled)

theorem handoff_guarded {token : String} {executor : CheckoutExecutor}
    (h : Workable w.state) :
    Guarded host id (.handoff token id executor)
      (ownerExecuteApprovedHandoffPersisted host token id executor) w w := by
  unfold Guarded ownerExecuteApprovedHandoffPersisted
  rw [wp_bind, wp_readState]
  refine line (wp_mono authenticate_authenticates (fun _ _ h => h)
    (fun _ _ h => Or.inl h.barren)) ?_
  rintro actor a ⟨hq, hauth, hrun⟩
  have h0 := hq.barren
  refine line_lift (fun _ => Or.inl h0) fun _ howner => ?_
  refine line_rejectIf (fun _ => Or.inl h0) fun hmode => ?_
  refine line_orReject (fun _ => Or.inl h0) fun j hj => ?_
  refine line_rejectIf (fun _ => Or.inl h0) fun hx => ?_
  refine line_lift (fun _ => Or.inl h0) fun _ _ => ?_
  refine handOver_guarded h hq fun i hi hid _ => ?_
  obtain rfl : i = j := Option.some.inj (hi.symm.trans hj)
  subst hid
  rw [requireOwner_ok howner] at hauth
  exact .handoff hauth (not_not.mp hmode) (not_not.mp hx)

/-- **EVERY CALL** enters an intent only for those who may. -/
theorem perform_guarded (h : Workable w.state) (hc : c.attempts = some id) :
    Guarded host id c (c.perform host) w w := by
  cases c with
  | request token request => exact handle_guarded h rfl hc
  | controlled token id' executor =>
      cases hc
      exact controlled_guarded h
  | handoff token id' executor =>
      cases hc
      exact handoff_guarded h
  | recover => exact nomatch hc
  | persisted token request =>
      show Guarded host id _ (handlePersisted host token request) w w
      cases request with
      | executePurchaseIntent id' =>
          cases hc
          exact executePersisted_guarded h rfl
      | ownerBeginManualHandoff id' =>
          cases hc
          refine handleSaved_spec (handle_guarded
            (c := .persisted token (.ownerBeginManualHandoff id)) h rfl rfl)
            (fun _ _ h => nomatch h) ?_ ?_
          · exact fun v w' hv hp => hv.then (saving_barren hp)
          · intro v w' hv hp
            have hb : Barren v w' := saving_barren hp
            exact hv.then hb
      | _ => exact nomatch hc

/-- **ENTRIES ARE RIGHTFUL**: what enters execution was stored, was
    reserved with every check passed, and was executed by those who may. -/
theorem Enters.rightful (h : Workable w.state)
    (he : Enters w (exec host c w) id) : ∃ i r p b,
    w.state.intents.get? id = some i ∧ i.id = id
      ∧ Change host (.reserve id) w b ∧ Reservable host w b i r p
      ∧ Entitled host w i c ∧ b.tick ≤ (exec host c w).tick := by
  obtain ⟨x, hx, rfl⟩ := he.as
  obtain ⟨hc, b, hb⟩ := (exec_behaves h c).entry hx
  have hright : Rightful host w (exec host c w) x.id c :=
    wp_final.mp (perform_guarded h hc)
  obtain ⟨i, hi, hid, hent⟩ := hright.resolve_left fun hno =>
    hno.not_enters he
  obtain ⟨j, r, p, _, _, _, _, hj, hr, _⟩ := hb.reserved.reserve_inv
  obtain rfl : i = j := Option.some.inj (hi.symm.trans hj)
  exact ⟨i, r, p, b, hi, hid, hb.reserved, hr, hent, hb.tick⟩

/-- An event that stores an intent as executing. -/
def isEntry (id : String) : Event → Bool
  | .stored i => decide (i.id = id ∧ i.state = .executing)
  | _ => false

/-- An entry that can be seen in the log of a call. -/
theorem enters_of_log (h : Workable w.state)
    (hlog : ((exec host c w).log.drop w.log.length).any (isEntry id) = true) :
    Enters w (exec host c w) id := by
  obtain ⟨tail, htail⟩ := (exec_behaves h c).path.grows
  rw [htail, List.drop_left] at hlog
  obtain ⟨e, he, hentry⟩ := List.any_eq_true.mp hlog
  cases e with
  | stored i =>
      obtain ⟨hid, hx⟩ := of_decide_eq_true hentry
      exact ⟨tail, i, htail, he, hid, hx⟩
  | _ => exact nomatch hentry

end Treasury
