import Cixa.Fields

/-! # Attempts — the three ways an execution can go

    Every way to execute an intent ends in one of three ways.  It is REFUSED
    before anything is reserved; it is UNDONE when the state cannot be saved
    after the reservation; or it is FINISHED: reserved, submitted at most
    once, and concluded, quarantined or left executing, never put back.

    A persisted execution submits only when the disk holds the reservation. -/

namespace Treasury

open CixaData CixaHost Outcome Transition

variable {host : Host} {w : World}

/-! ## Attempts -/

/-- **AN ATTEMPT** to execute an intent: refused, undone, or finished. -/
inductive Attempt (host : Host) (durable : Prop) (id : String) (w w' : World) :
    Prop where
  | refused (hp : Path host Saving w w')
  | undone {b c : World} (hr : Change host (.reserve id) w b)
      (hp : Path host BeforeSubmit b c) (hw : w' = w.restoreState c)
  | finished {b c d : World} (hr : Change host (.reserve id) w b)
      (hp : Path host BeforeSubmit b c)
      (hs : c = d ∨ (Change host (.submit id) c d
        ∧ (durable → OnDisk c.log c.state)))
      (ha : Path host (AfterSubmit id) d w')

theorem Attempt.quiet {durable : Prop} {id : String} {w' : World}
    (h : Quiet w w') : Attempt host durable id w w' :=
  .refused (Path.quiet saving_quiet h)

/-- The labels of an attempt. -/
def Attempting (id : String) : Label → Prop
  | .reserve id' => id' = id
  | .submit id' => id' = id
  | l => BeforeSubmit l ∨ AfterSubmit id l

theorem before_after (id : String) (l : Label) (h : BeforeSubmit l) :
    AfterSubmit id l := by
  cases l with
  | quiet => trivial
  | audit action => trivial
  | write => trivial
  | _ => exact False.elim h

theorem after_attempting (id : String) (l : Label) (h : AfterSubmit id l) :
    Attempting id l := by
  cases l with
  | reserve _ => exact False.elim h
  | submit _ => exact False.elim h
  | _ => exact Or.inr h

/-- An attempt is a path. -/
theorem Attempt.path {durable : Prop} {id : String} {w' : World}
    (h : Attempt host durable id w w') : Path host (Attempting id) w w' := by
  have hafter : ∀ {a b}, Path host (AfterSubmit id) a b →
      Path host (Attempting id) a b := fun hp => hp.mono (after_attempting id)
  have hbefore : ∀ {a b}, Path host BeforeSubmit a b →
      Path host (Attempting id) a b := fun hp =>
    hafter (hp.mono (before_after id))
  have hreserve : ∀ {b}, Change host (.reserve id) w b →
      Path host (Attempting id) w b := fun hr =>
    .single (show Attempting id (.reserve id) from rfl) hr
  cases h with
  | refused hp => exact hafter (hp.mono (saving_after id))
  | undone hr hp hw =>
      rw [hw]
      exact .rollback (.refl w) ((hreserve hr).trans (hbefore hp))
  | finished hr hp hs ha =>
      have hpre := (hreserve hr).trans (hbefore hp)
      rcases hs with rfl | ⟨hsub, _⟩
      · exact hpre.trans (hafter ha)
      · exact (hpre.tail (show Attempting id (.submit id) from rfl) hsub).trans
          (hafter ha)

/-! ## What a reservation leaves -/

theorem emergencyCount_le (audit : List AuditEntry) :
    emergencyCount audit ≤ audit.length :=
  List.countP_le_length

/-- One more entry takes at most one more ordinary slot. -/
theorem nonEmergencyCount_append (audit : List AuditEntry) (e : AuditEntry) :
    nonEmergencyCount (audit ++ [e]) ≤ nonEmergencyCount audit + 1 := by
  have hle := emergencyCount_le audit
  have hge : emergencyCount audit ≤ emergencyCount (audit ++ [e]) := by
    unfold emergencyCount
    rw [List.countP_append]
    exact Nat.le_add_right _ _
  unfold nonEmergencyCount
  rw [List.length_append]
  simp only [List.length_cons, List.length_nil]
  omega

/-- A state in which an intent is executing and can be concluded. -/
structure Executing (s : TreasuryState) (id : String) (i : PurchaseIntent) :
    Prop where
  stored : s.intents.get? id = some i
  keyed : i.id = id
  state : i.state = .executing

/-- A reservation leaves the intent executing and three slots free. -/
theorem Change.reserved {id : String} {b : World}
    (h : Change host (.reserve id) w b) : ∃ i, Executing b.state id i
      ∧ nonEmergencyCount b.state.audit + 3 ≤ maxAuditEntries
      ∧ b.state.generation = w.state.generation + 1 := by
  generalize hl : Label.reserve id = l at h
  cases h with
  | reserve _ _ hr _ _ _ hs _ =>
      cases hl
      have hcap := of_decide_eq_true hr.capacity
      rw [hs]
      refine ⟨_, ⟨SortedMap.get?_insert_self w.state.intents _ _, rfl, rfl⟩,
        ?_, rfl⟩
      refine Nat.le_trans (Nat.add_le_add_right
        (nonEmergencyCount_append w.state.audit _) 3) ?_
      omega
  | _ => exact nomatch hl

/-- Quiet lines before a reservation are part of it. -/
theorem Change.afterQuiet {id : String} {a b : World} (hq : Quiet w a)
    (h : Change host (.reserve id) a b) : Change host (.reserve id) w b := by
  generalize hl : Label.reserve id = l at h
  cases h with
  | reserve ha hi hr hh he ht hs hlog =>
      have hb := Advance.refl b
      apply Change.reserve
      case ha => exact hq.toAdvance.trans ha
      case hi => exact hq.state ▸ hi
      case hr => exact hr.widen hq hb
      case hh => exact hh.widen hq.toAdvance hb
      case he => exact (hq.state ▸ he).widen hq.toAdvance hb
      case ht => exact ht.widen hq.toAdvance hb
      case hs => exact hq.state ▸ hs
      case hl => exact hq.log ▸ hlog
  | _ => exact nomatch hl

/-! ## Ending an attempt -/

/-- What the submission part of an attempt leads to. -/
def Ended (host : Host) (id : String) (w w' : World) : Prop :=
  ∃ d, (w = d ∨ Change host (.submit id) w d)
    ∧ Path host (AfterSubmit id) d w'

theorem Quiet.ended {id : String} {w' : World} (h : Quiet w w') :
    Ended host id w w' :=
  ⟨w, Or.inl rfl, .quiet (after_quiet id) h⟩

theorem Submitted.ended {id : String} {w' : World}
    (h : Submitted host id w w') : Ended host id w w' := by
  obtain ⟨d, hs, hp⟩ := h
  exact ⟨d, Or.inr hs, hp⟩

theorem Ended.trans {id : String} {v w' : World} (h : Ended host id w v)
    (hp : Path host (AfterSubmit id) v w') : Ended host id w w' := by
  obtain ⟨d, hs, hd⟩ := h
  exact ⟨d, hs, hd.trans hp⟩

theorem Ended.keyed {id : String} {w' : World} (h : Ended host id w w')
    (hk : Keyed w.state) : Keyed w'.state := by
  obtain ⟨d, hs, hd⟩ := h
  refine hd.keyed ?_
  rcases hs with rfl | hs
  · exact hk
  · exact hs.keyed hk

/-- A program that submits an intent at most once. -/
def Submits (host : Host) (id : String) (x : Op Json) (w : World) : Prop :=
  wp x (fun _ w' => Submitted host id w w')
    (fun _ w' => Quiet w w' ∨ Submitted host id w w') w

theorem Submits.ends {id : String} {x : Op Json} (h : Submits host id x w) :
    wp x (fun _ w' => Ended host id w w') (fun _ w' => Ended host id w w') w :=
  wp_mono h (fun _ _ h => h.ended)
    (fun _ _ h => h.elim Quiet.ended Submitted.ended)

/-- What fails after a submission is quarantined, never put back. -/
theorem orQuarantine_spec {id : String} {x : Op Json}
    (h : Submits host id x w) (hk : Keyed w.state) :
    wp (orQuarantine host id x) (fun _ w' => Ended host id w w')
      (fun _ w' => Ended host id w w') w := by
  unfold orQuarantine
  rw [wp_tryCatch]
  refine wp_mono h.ends (fun _ _ h => h) ?_
  intro e v hv
  refine line (wp_mono (quarantine_spec (hv.keyed hk)) (fun _ _ h => h)
    (fun _ _ h => hv.trans h)) ?_
  intro _ w' hq
  rw [wp_throw]
  exact hv.trans hq

/-- The same with a save after either ending: what lasts after a submission
    lasts through a quarantine and the saves. -/
theorem submitAndSave_keeps {id : String} {x : Op Json} {P : World → Prop}
    (hx : wp x (fun _ => P) (fun _ => P) w)
    (hkeyed : ∀ v, P v → Keyed v.state)
    (hP : ∀ v w', P v → Path host (AfterSubmit id) v w' → P w') :
    wp (submitAndSave host id x) (fun _ => P) (fun _ => P) w := by
  have hsave : ∀ v, P v → wp (saveTo host) (fun _ => P) (fun _ => P) v :=
    fun v hv => wp_mono saveTo_spec
      (fun _ w' h => hP v w' hv (h.1.mono (saving_after id)))
      (fun _ w' h => hP v w' hv (h.1.mono (saving_after id)))
  unfold submitAndSave
  rw [wp_bind, wp_attempt]
  refine wp_mono hx ?_ ?_
  · intro value v hv
    dsimp only
    refine line (hsave v hv) fun _ w' hw' => ?_
    rw [wp_pure]
    exact hw'
  · intro e v hv
    dsimp only
    refine line (wp_mono (quarantine_spec (hkeyed v hv))
      (fun _ u h => hP v u hv h) (fun _ u h => hP v u hv h)) fun _ u hu => ?_
    refine line (hsave u hu) fun _ w' hw' => ?_
    rw [wp_throw]
    exact hw'

theorem submitAndSave_spec {id : String} {x : Op Json}
    (h : Submits host id x w) (hk : Keyed w.state) :
    wp (submitAndSave host id x) (fun _ w' => Ended host id w w')
      (fun _ w' => Ended host id w w') w :=
  submitAndSave_keeps h.ends (fun _ hv => hv.keyed hk)
    (fun _ _ hv hp => hv.trans hp)

/-- A reservation, the lines before the submission and an end make an
    attempt. -/
theorem Attempt.ended {durable : Prop} {id : String} {b c w' : World}
    (hr : Change host (.reserve id) w b) (hp : Path host BeforeSubmit b c)
    (hdisk : durable → OnDisk c.log c.state) (h : Ended host id c w') :
    Attempt host durable id w w' := by
  obtain ⟨d, hs, ha⟩ := h
  exact .finished hr hp (hs.imp_right fun h => ⟨h, hdisk⟩) ha

/-! ## The ways to execute -/

/-- Intents are stored under their ids, and the generation is far from its
    bound. -/
structure Workable (s : TreasuryState) : Prop where
  keyed : Keyed s
  generation : s.generation + 8 ≤ u64Max

/-- Preparing and putting the state back if it fails. -/
theorem prepareOrRestore_spec {actor : Actor} {id : String}
    (h : Workable w.state) :
    wp (orRestore w.state (prepareIntentExecution host actor id))
      (fun _ w' => Change host (.reserve id) w w')
      (fun _ w' => Quiet w w') w := by
  refine wp_orRestore (wp_mono (prepare_spec h.keyed ?_) (fun _ _ h => h) ?_)
  · have := h.generation
    omega
  · exact fun _ _ hq => ⟨hq.toAdvance.restore, rfl, hq.log⟩

/-- Completing what was just reserved submits at most once. -/
theorem completes {actor : Actor} {id : String} {b c : World}
    {i : PurchaseIntent} (hs : c.state = b.state) (hx : Executing b.state id i)
    (hroom : Roomy b.state) :
    Submits host id (completeIntentExecution host actor id) c :=
  complete_spec hx.keyed (hs ▸ hx.stored) (hs ▸ hroom)

theorem Change.roomy {id : String} {b : World}
    (h : Change host (.reserve id) w b) (hw : Workable w.state) :
    Roomy b.state := by
  obtain ⟨_, _, hroom, hgen⟩ := h.reserved
  have := hw.generation
  exact ⟨by omega, by omega⟩

/-- **EXECUTING IN MEMORY.** -/
theorem executeIntent_spec {actor : Actor} {id : String}
    (h : Workable w.state) :
    wp (executeIntent host actor id)
      (fun _ w' => Attempt host False id w w')
      (fun _ w' => Attempt host False id w w') w := by
  unfold executeIntent
  rw [wp_bind, wp_readState]
  refine line_rejectIf (fun _ => .quiet (Quiet.refl w)) fun _ => ?_
  refine line (wp_mono (prepareOrRestore_spec h) (fun _ _ h => h)
    (fun _ _ h => .quiet h)) ?_
  intro _ b hb
  obtain ⟨i, hx, _⟩ := hb.reserved
  refine wp_mono (orQuarantine_spec (completes rfl hx (hb.roomy h))
    (hb.keyed h.keyed)) ?_ ?_
  · exact fun _ _ he => .ended hb (.refl b) False.elim he
  · exact fun _ _ he => .ended hb (.refl b) False.elim he

/-- Reserved, and then only entries and saves. -/
def Reserved (host : Host) (id : String) (w w' : World) : Prop :=
  ∃ b, Change host (.reserve id) w b ∧ Path host BeforeSubmit b w'

theorem Reserved.attempt {durable : Prop} {id : String} {w' : World}
    (h : Reserved host id w w') : Attempt host durable id w w' := by
  obtain ⟨b, hb, hp⟩ := h
  exact .finished hb hp (Or.inl rfl) (.refl _)

/-- **BEGINNING A MANUAL HANDOFF** reserves and submits nothing. -/
theorem ownerBeginManualHandoff_spec {actor : Actor} {id : String}
    (h : Workable w.state) :
    wp (ownerBeginManualHandoff host actor id)
      (fun _ w' => Reserved host id w w')
      (fun _ w' => Quiet w w' ∨ Reserved host id w w') w := by
  have h0 : Quiet w w ∨ Reserved host id w w := Or.inl (Quiet.refl w)
  have hgen := h.generation
  unfold ownerBeginManualHandoff
  rw [wp_bind, wp_readState]
  refine line_lift (fun _ => h0) fun _ _ => ?_
  refine line_rejectIf (fun _ => h0) fun _ => ?_
  refine line_orReject (fun _ => h0) fun i hi => ?_
  refine line_rejectIf (fun _ => h0) fun _ => ?_
  refine line (wp_mono (prepare_spec h.keyed (by omega)) (fun _ _ h => h)
    (fun _ _ h => Or.inl h)) ?_
  intro _ b hb
  rw [wp_bind]
  refine wp_audit (fun _ => Or.inr ⟨b, hb, .refl b⟩) fun hroom => ?_
  have hp : Path host BeforeSubmit b { b with
      tick := b.tick + 1
      state := b.state.withEntry (entryOf host b "owner" "begin_manual_handoff"
        (some id) (some i.policyVersion) (some "ready")
        (Json.mkObj [("manual_owner_control", .bool true)])) } :=
    .single (show BeforeSubmit (.audit "begin_manual_handoff") from rfl)
      (.audit ⟨rfl, Nat.le_succ _, Nat.le_refl _, Nat.le_refl _⟩
        (.next hroom rfl rfl ⟨Nat.le_refl _, Nat.lt_succ_self _⟩) rfl rfl)
  rw [wp_bind, wp_readState]
  refine line_orReject (fun _ => Or.inr ⟨b, hb, hp⟩) fun _ _ => ?_
  rw [wp_pure]
  exact ⟨b, hb, hp⟩

/-- **A PERSISTED EXECUTION** submits only what the disk holds. -/
theorem executePersisted_spec {token id : String} (h : Workable w.state) :
    wp (executePersisted host token id)
      (fun _ w' => Attempt host True id w w')
      (fun _ w' => Attempt host True id w w') w := by
  unfold executePersisted
  rw [wp_bind, wp_readState]
  refine line_rejectIf (fun _ => .quiet (Quiet.refl w)) fun _ => ?_
  refine line_quiet (authenticate_quietly token) (fun _ _ h => .quiet h) ?_
  intro actor a ha
  refine line (P := fun _ c => ∃ b, Change host (.reserve id) w b
    ∧ Path host Saving b c ∧ c.state = b.state ∧ OnDisk c.log c.state) ?_ ?_
  · rw [← ha.state]
    refine wp_orRestore ?_
    have hgen := h.generation
    refine line (wp_mono (prepare_spec (ha.state ▸ h.keyed)
      (by rw [ha.state]; omega)) (fun _ _ h => h) ?_) ?_
    · exact fun _ v hq => .quiet
        ⟨ha.toAdvance.trans hq.toAdvance.restore, ha.state,
          hq.log.trans ha.log⟩
    intro _ b hb
    refine wp_mono saveTo_spec ?_ ?_
    · rintro _ c ⟨hp, hs, hd⟩
      exact ⟨b, hb.afterQuiet ha, hp, hs, hs ▸ hd⟩
    · rintro _ c ⟨hp, hs⟩
      refine .undone (hb.afterQuiet ha) (hp.mono saving_before) ?_
      unfold World.restoreState
      rw [ha.state]
  rintro _ c ⟨b, hb, hp, hs, hd⟩
  obtain ⟨i, hx, _⟩ := hb.reserved
  refine wp_mono (submitAndSave_spec (completes hs hx (hb.roomy h))
    (hs ▸ hb.keyed h.keyed)) ?_ ?_
  · exact fun _ _ he => .ended hb (hp.mono saving_before) (fun _ => hd) he
  · exact fun _ _ he => .ended hb (hp.mono saving_before) (fun _ => hd) he

/-- **HANDING OVER** ends before it asks the executor, or asks it about an
    intent that is reserved, executing and on the disk. -/
theorem handOver_reaches {executor : CheckoutExecutor}
    {auditor action agentId id : String} {Q : Json → World → Prop}
    {E : TreasuryError → World → Prop} (h : Workable w.state)
    (hact : isEmergencyAudit action = false)
    (hquiet : ∀ e v, Quiet w v → E e v)
    (hbefore : ∀ e b v, Change host (.reserve id) w b →
      Path host BeforeSubmit b v → E e v)
    (hgo : ∀ b c i, Change host (.reserve id) w b →
      Path host BeforeSubmit b c → Executing b.state id i →
      Executing c.state id i → Keyed c.state → Roomy c.state →
      OnDisk c.log c.state →
      wp (submitAndSave host id (submitThrough host executor agentId id i))
        Q E c) :
    wp (handOver host executor auditor action agentId id) Q E w := by
  unfold handOver
  rw [wp_bind, wp_readState]
  refine line (wp_mono (prepareOrRestore_spec h) (fun _ _ h => h) hquiet) ?_
  intro _ b hb
  obtain ⟨i, hx, hfree, hgen⟩ := hb.reserved
  rw [wp_bind, wp_readState]
  refine line_orReject (fun e => hbefore e b b hb (.refl b)) fun j hj => ?_
  obtain rfl : i = j := Option.some.inj (hx.stored.symm.trans hj)
  rw [wp_bind]
  refine wp_audit (fun e => hbefore e b b hb (.refl b)) fun hroom => ?_
  generalize hentry : entryOf host b auditor action (some id)
    (some i.policyVersion) (some "submitted") _ = e
  -- between the reservation and the save there is one entry
  have hp : Path host BeforeSubmit b
      { b with tick := b.tick + 1, state := b.state.withEntry e } := by
    refine .single (show BeforeSubmit (.audit action) from hact) ?_
    apply Change.audit
    case ha => exact ⟨rfl, Nat.le_succ _, Nat.le_refl _, Nat.le_refl _⟩
    case hs => rfl
    case hl => rfl
    case he =>
      rw [← hentry]
      exact .next hroom rfl rfl ⟨Nat.le_refl _, Nat.lt_succ_self _⟩
  refine line (wp_mono saveTo_spec (fun _ _ h => h) (fun e v h =>
    hbefore e b v hb (hp.trans (h.1.mono saving_before)))) ?_
  rintro _ c ⟨hsave, hs, hd⟩
  have hgen' := h.generation
  refine hgo b c i hb (hp.trans (hsave.mono saving_before)) hx
    ⟨hs ▸ hx.stored, hx.keyed, hx.state⟩ (hs ▸ hb.keyed h.keyed) ?_
    (hs ▸ hd)
  rw [hs]
  refine ⟨Nat.lt_of_le_of_lt (nonEmergencyCount_append b.state.audit e) ?_, ?_⟩
  · omega
  · show b.state.generation + 1 + 1 ≤ u64Max
    omega

/-- **HANDING OVER** to an executor submits only what the disk holds. -/
theorem handOver_spec {executor : CheckoutExecutor}
    {auditor action agentId id : String} (h : Workable w.state)
    (hact : isEmergencyAudit action = false) :
    wp (handOver host executor auditor action agentId id)
      (fun _ w' => Attempt host True id w w')
      (fun _ w' => Attempt host True id w w') w := by
  refine handOver_reaches h hact (fun _ _ hq => .quiet hq)
    (fun _ _ _ hb hp => .finished hb hp (Or.inl rfl) (.refl _)) ?_
  intro b c i hb hp _ hx hkeyed hroomy hdisk
  have hsubmits : Submits host id
      (submitThrough host executor agentId id i) c :=
    wp_mono (submitThrough_spec hx.keyed hx.stored hx.state hroomy)
      (fun _ _ h => h) (fun _ _ h => Or.inr h)
  refine wp_mono (submitAndSave_spec hsubmits hkeyed) ?_ ?_
  · exact fun _ _ he => .ended hb hp (fun _ => hdisk) he
  · exact fun _ _ he => .ended hb hp (fun _ => hdisk) he

/-- Quiet lines before an attempt are part of it. -/
theorem Attempt.afterQuiet {durable : Prop} {id : String} {a w' : World}
    (hq : Quiet w a) (h : Attempt host durable id a w') :
    Attempt host durable id w w' := by
  cases h with
  | refused hp => exact .refused (.quietThen hq saving_quiet hp)
  | undone hr hp hw =>
      refine .undone (hr.afterQuiet hq) hp ?_
      rw [hw]
      unfold World.restoreState
      rw [hq.state]
  | finished hr hp hs ha => exact .finished (hr.afterQuiet hq) hp hs ha

theorem executeControlledCheckoutPersisted_spec {token id : String}
    {executor : CheckoutExecutor} (h : Workable w.state) :
    wp (executeControlledCheckoutPersisted host token id executor)
      (fun _ w' => Attempt host True id w w')
      (fun _ w' => Attempt host True id w w') w := by
  unfold executeControlledCheckoutPersisted
  rw [wp_bind, wp_readState]
  refine line_quiet (authenticate_quietly token) (fun _ _ h => .quiet h) ?_
  intro actor a ha
  have h0 : Attempt host True id w a := .quiet ha
  refine line_lift (fun _ => h0) fun agentId _ => ?_
  refine line_orReject (fun _ => h0) fun _ _ => ?_
  refine line_rejectIf (fun _ => h0) fun _ => ?_
  refine line_orReject (fun _ => h0) fun _ _ => ?_
  refine line_rejectIf (fun _ => h0) fun _ => ?_
  refine line_rejectIf (fun _ => h0) fun _ => ?_
  refine line_lift (fun _ => h0) fun _ _ => ?_
  exact wp_mono (handOver_spec (ha.state ▸ h) (by decide)) (fun _ _ h => h.afterQuiet ha)
    (fun _ _ h => h.afterQuiet ha)

theorem ownerExecuteApprovedHandoffPersisted_spec {token id : String}
    {executor : CheckoutExecutor} (h : Workable w.state) :
    wp (ownerExecuteApprovedHandoffPersisted host token id executor)
      (fun _ w' => Attempt host True id w w')
      (fun _ w' => Attempt host True id w w') w := by
  unfold ownerExecuteApprovedHandoffPersisted
  rw [wp_bind, wp_readState]
  refine line_quiet (authenticate_quietly token) (fun _ _ h => .quiet h) ?_
  intro actor a ha
  have h0 : Attempt host True id w a := .quiet ha
  refine line_lift (fun _ => h0) fun _ _ => ?_
  refine line_rejectIf (fun _ => h0) fun _ => ?_
  refine line_orReject (fun _ => h0) fun _ _ => ?_
  refine line_rejectIf (fun _ => h0) fun _ => ?_
  refine line_lift (fun _ => h0) fun _ _ => ?_
  exact wp_mono (handOver_spec (ha.state ▸ h) (by decide)) (fun _ _ h => h.afterQuiet ha)
    (fun _ _ h => h.afterQuiet ha)

end Treasury
