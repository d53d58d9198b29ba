import Cixa.Paths

/-! # Execution — from a reservation to an outcome

    The three ways to execute an intent share their parts: PREPARE reserves
    the funds or leaves everything as it was, a submission is logged before
    the provider is asked, the outcome CONCLUDES the intent, and a failure
    after the reservation quarantines it.

    Preparing requires four free slots in the audit log, so none of the
    entries that the same execution appends can fail for lack of room: an
    outcome is recorded completely or not at all. -/

namespace Treasury

open CixaData CixaHost Outcome Transition

variable {host : Host} {w : World}

/-- Intents are stored under their ids. -/
def Keyed (s : TreasuryState) : Prop :=
  ∀ id i, s.intents.get? id = some i → i.id = id

/-! ## Settling -/

theorem hasEvent_withEvents (s : TreasuryState) (id : String)
    (kind : LedgerEventKind) (events : List LedgerEvent) :
    hasEvent (s.withEvents events) id kind
      = (hasEvent s id kind || events.any (fun e =>
        decide (e.intentId = some id ∧ e.kind = kind))) := by
  unfold hasEvent TreasuryState.withEvents
  rw [List.any_append]

/-- An event is appended unless the ledger has one of its kind. -/
theorem appendIfMissing_spec (kind : LedgerEventKind) (i : PurchaseIntent)
    (source : TreasuryState → String) {E : TreasuryError → World → Prop} :
    wp (appendIfMissing host kind i source) (fun _ w' => ∃ events,
      Advance w w' ∧ w'.log = w.log ∧ w'.state = w.state.withEvents events
      ∧ ((hasEvent w.state i.id kind = true ∧ events = [])
        ∨ (hasEvent w.state i.id kind = false ∧ ∃ e, events = [e]
          ∧ EventIn host w w' kind i.request.finalTotal (some i.id) e))) E w := by
  unfold appendIfMissing
  rw [wp_bind, wp_readState, wp_ite, wp_pure, wp_appendLedger]
  constructor
  · intro h
    refine ⟨[], Advance.refl w, rfl, ?_, Or.inl ⟨h, rfl⟩⟩
    simp [TreasuryState.withEvents]
  · intro h
    refine ⟨_, ⟨rfl, Nat.le_succ _, Nat.le_succ _, Nat.le_refl _⟩, rfl, rfl,
      Or.inr ⟨by simpa using h, _, rfl, ?_⟩⟩
    exact .next ⟨Nat.le_refl _, Nat.lt_succ_self _⟩
      ⟨Nat.le_refl _, Nat.lt_succ_self _⟩

/-- **RECORDING A SETTLEMENT** cannot fail and appends the missing events. -/
theorem recordSettled_spec (i : PurchaseIntent)
    {E : TreasuryError → World → Prop} :
    wp (recordSettled host i) (fun _ w' => ∃ events, Advance w w'
      ∧ w'.log = w.log ∧ w'.state = w.state.withEvents events
      ∧ Settling host w w' w.state i events) E w := by
  unfold recordSettled
  refine line (appendIfMissing_spec .holdReleased i _) ?_
  rintro _ a ⟨released, ha, hl, hs, hr⟩
  refine wp_mono (appendIfMissing_spec .spendingSettled i _) ?_
    (fun _ _ h => h)
  rintro _ b ⟨settled, hb, hl', hs', hr'⟩
  refine ⟨released ++ settled, ha.trans hb, hl'.trans hl, ?_, ?_⟩
  · rw [hs', hs]
    simp [TreasuryState.withEvents]
  · refine .mk ?_ ?_
    · rcases hr with h | ⟨h, e, hnil, he⟩
      · exact Or.inl h
      · exact Or.inr ⟨h, e, hnil, he.widen (Advance.refl w) hb⟩
    · -- the release just appended is no settlement
      have hsame : hasEvent a.state i.id .spendingSettled
          = hasEvent w.state i.id .spendingSettled := by
        rw [hs, hasEvent_withEvents]
        rcases hr with ⟨_, hnil⟩ | ⟨_, e, hnil, he⟩
        · simp [hnil]
        · simp [hnil, he.kind]
      rw [hsame] at hr'
      rcases hr' with h | ⟨h, e, hnil, he⟩
      · exact Or.inl h
      · exact Or.inr ⟨h, e, hnil, he.widen ha (Advance.refl b)⟩

/-- The events depend on the id and the request only. -/
theorem Settling.congr {a b : World} {s : TreasuryState} {i j : PurchaseIntent}
    {events : List LedgerEvent} (h : Settling host a b s j events)
    (hid : j.id = i.id) (hreq : j.request = i.request) :
    Settling host a b s i events := by
  obtain ⟨hr, hs⟩ := h
  rw [hid, hreq] at hr hs
  exact .mk hr hs

/-- The intent is settled with a receipt and the events are appended, or
    only counters move. -/
def SettledSpec (host : Host) (w : World) (i i' : PurchaseIntent)
    (w' : World) : Prop :=
  ∃ events, Advance w w' ∧ w'.log = w.log
    ∧ w'.state = w.state.withEvents events ∧ SettledIn host w w' i i'
    ∧ Settling host w w' w.state i events

/-- Moving an intent to settled, with its receipt and its events. -/
theorem settle_spec (i : PurchaseIntent) (reference : String) :
    wp (settleIntent host i reference)
      (fun i' w' => SettledSpec host w i i' w') (fun _ w' => Quiet w w') w := by
  unfold settleIntent
  refine line (P := fun j a => Quiet w a ∧ ReadIn host w a (host.clock w.tick)
    ∧ j = { i with
      providerReference := some reference
      state := .settled
      updatedAt := host.clock w.tick }) ?_ ?_
  · refine wp_transition (fun _ => Quiet.refl w) fun _ => ?_
    exact ⟨⟨⟨rfl, Nat.le_succ _, Nat.le_refl _, Nat.le_refl _⟩, rfl, rfl⟩,
      .next (Nat.le_refl _) (Nat.lt_succ_self _), rfl⟩
  rintro _ a ⟨hq, ht, rfl⟩
  refine line (P := fun j b => Quiet w b ∧ SettledIn host w b i j
    ∧ j.id = i.id ∧ j.request = i.request) ?_ ?_
  · refine wp_issueReceipt (fun _ => hq) fun h1 h2 => ?_
    have hstep : Quiet a { a with tick := a.tick + 1 } :=
      ⟨⟨rfl, Nat.le_succ _, Nat.le_refl _, Nat.le_refl _⟩, rfl, rfl⟩
    refine ⟨hq.trans hstep, ⟨h1, h2, reference, _, _,
      ht.widen (Advance.refl w) hstep.toAdvance,
      .next hq.tick (Nat.lt_succ_self _), rfl⟩, rfl, rfl⟩
  rintro j b ⟨hq', hj, hid, hreq⟩
  refine line (recordSettled_spec j) ?_
  rintro _ c ⟨events, hc, hl, hs, hset⟩
  rw [wp_pure]
  refine ⟨events, hq'.toAdvance.trans hc, hl.trans hq'.log, ?_,
    hj.widen (Advance.refl w) hc, ?_⟩
  · rw [hs, hq'.state]
  · have hset' := hset.congr hid hreq
    rw [hq'.state] at hset'
    exact hset'.widen hq'.toAdvance (Advance.refl c)

/-! ## Outcomes -/

theorem SettledIn.id {a b : World} {i i' : PurchaseIntent}
    (h : SettledIn host a b i i') : i'.id = i.id := by
  obtain ⟨_, _, _, _, _, heq⟩ := h.shape
  rw [heq]
  rfl

theorem Concluded.id {a b : World} {s : TreasuryState} {i i' : PurchaseIntent}
    {next : TransactionState} {events : List LedgerEvent}
    (h : Concluded host a b s i next i' events) : i'.id = i.id := by
  cases h with
  | settled hi _ => exact hi.id
  | _ => rfl

theorem Concluded.widen {a b c d : World} {s : TreasuryState}
    {i i' : PurchaseIntent} {next : TransactionState}
    {events : List LedgerEvent} (h : Concluded host b c s i next i' events)
    (hab : Advance a b) (hcd : Advance c d) :
    Concluded host a d s i next i' events := by
  cases h with
  | settled hi he => exact .settled (hi.widen hab hcd) (he.widen hab hcd)
  | declined ht he => exact .declined (ht.widen hab hcd) (he.widen hab hcd)
  | pending ht => exact .pending (ht.widen hab hcd)
  | unknown ht => exact .unknown (ht.widen hab hcd)

/-- An outcome concludes an executing intent, or only counters move. -/
theorem conclude_spec {i : PurchaseIntent} (outcome : ProviderOutcome) :
    wp (concludeIntent host i outcome) (fun r w' => ∃ next events,
      Advance w w' ∧ w'.log = w.log ∧ w'.state = w.state.withEvents events
      ∧ Concluded host w w' w.state i next r.1 events)
      (fun _ w' => Quiet w w') w := by
  have hread : ReadIn host w { w with tick := w.tick + 1 }
      (host.clock w.tick) := .next (Nat.le_refl _) (Nat.lt_succ_self _)
  have hstep : Advance w { w with tick := w.tick + 1 } :=
    ⟨rfl, Nat.le_succ _, Nat.le_refl _, Nat.le_refl _⟩
  have hnil : w.state = w.state.withEvents [] := by
    simp [TreasuryState.withEvents]
  -- each outcome takes one step, and only the first two make bookings
  cases outcome with
  | approved reference =>
      refine line (settle_spec i _) ?_
      rintro j w' ⟨events, ha, hl, hs, hj, hset⟩
      rw [wp_pure]
      exact ⟨.settled, events, ha, hl, hs, .settled hj hset⟩
  | declined reason =>
      refine line (P := fun j w' => w' = { w with tick := w.tick + 1 }
        ∧ j = { i with
          lastError := some "provider_declined"
          state := .declined
          updatedAt := host.clock w.tick }) ?_ ?_
      · exact wp_transition (fun _ => Quiet.refl w) fun _ => ⟨rfl, rfl⟩
      rintro _ _ ⟨rfl, rfl⟩
      rw [wp_bind, wp_appendLedger, wp_pure]
      exact ⟨.declined, _, ⟨rfl, Nat.le_add_right _ 2, Nat.le_succ _,
        Nat.le_refl _⟩, rfl, rfl, .declined
          (hread.widen (Advance.refl w)
            ⟨rfl, Nat.le_succ _, Nat.le_succ _, Nat.le_refl _⟩)
          (.next ⟨Nat.le_succ _, Nat.lt_succ_self _⟩
            ⟨Nat.le_refl _, Nat.lt_succ_self _⟩)⟩
  | pending reference =>
      refine line (P := fun j w' => w' = { w with tick := w.tick + 1 }
        ∧ j = { i with
          providerReference := some (sanitizeProviderReference host reference)
          state := .providerPending
          updatedAt := host.clock w.tick }) ?_ ?_
      · exact wp_transition (fun _ => Quiet.refl w) fun _ => ⟨rfl, rfl⟩
      rintro _ _ ⟨rfl, rfl⟩
      rw [wp_pure]
      exact ⟨.providerPending, [], hstep, rfl, hnil, .pending hread⟩
  | unknown reason =>
      refine line (P := fun j w' => w' = { w with tick := w.tick + 1 }
        ∧ j = { i with
          lastError := some "provider_outcome_unknown"
          state := .unknown
          updatedAt := host.clock w.tick }) ?_ ?_
      · exact wp_transition (fun _ => Quiet.refl w) fun _ => ⟨rfl, rfl⟩
      rintro _ _ ⟨rfl, rfl⟩
      rw [wp_pure]
      exact ⟨.unknown, [], hstep, rfl, hnil, .unknown hread⟩

/-- The log has a free slot for an entry about money, and the generation can
    grow. -/
def Roomy (s : TreasuryState) : Prop :=
  nonEmergencyCount s.audit < maxAuditEntries ∧ s.generation + 1 ≤ u64Max

/-- **AN OUTCOME IS RECORDED COMPLETELY OR NOT AT ALL**, given a free slot in
    the audit log. -/
theorem apply_spec {agentId id : String} {i : PurchaseIntent}
    (outcome : ProviderOutcome) (hk : i.id = id)
    (hi : w.state.intents.get? id = some i) (hroom : Roomy w.state) :
    wp (applyProviderOutcome host agentId id outcome)
      (fun _ w' => ∃ next, Change host (.conclude id next) w w')
      (fun _ w' => Quiet w w') w := by
  unfold applyProviderOutcome
  rw [wp_bind, wp_readState]
  refine line_lift (fun _ => Quiet.refl w) fun j hj => ?_
  obtain ⟨hj, _⟩ := intentForAgent_ok.mp hj
  obtain rfl : i = j := Option.some.inj (hi.symm.trans hj)
  refine line_rejectIf (fun _ => Quiet.refl w) fun hx => ?_
  refine line (conclude_spec outcome) ?_
  rintro ⟨i', response⟩ a ⟨next, events, ha, hl, hs, hc⟩
  have hr : hasRoom a.state "provider_outcome" := by
    rw [hs]
    exact hasRoom_of_safety rfl hroom.1 hroom.2
  rw [wp_bind]
  refine wp_audit_of_room hr ?_
  rw [wp_bind, wp_storeIntent, wp_pure]
  have hid : i'.id = i.id := hc.id
  subst hk
  refine ⟨next, ?_⟩
  apply Change.conclude
  case ha => exact ⟨ha.key, Nat.le_succ_of_le ha.tick, ha.drawn, ha.saves⟩
  case hi => exact hi
  case hx => simpa using hx
  case hc =>
    exact hc.widen (Advance.refl w)
      ⟨rfl, Nat.le_succ _, Nat.le_refl _, Nat.le_refl _⟩
  case hs =>
    rw [hid, hs]
  case he => exact .next hr hs ha.key ⟨ha.tick, Nat.lt_succ_self _⟩
  case hl =>
    show a.log ++ _ = _
    rw [hl]

/-! ## Preparing -/

/-- What the log has room for once four slots are free. -/
theorem roomy_of_capacity {s : TreasuryState} {n : Nat}
    (hn : 1 ≤ n) (hcap : moneyWorkflowCapacityAllows (nonEmergencyCount s.audit)
      (outstandingSlots s) n = true) (hgen : s.generation + 1 ≤ u64Max) :
    Roomy s := by
  have h := of_decide_eq_true hcap
  exact ⟨by omega, hgen⟩

theorem canReserve {state : TransactionState}
    (h : state = .policyValidated ∨ state = .approved) :
    state.canTransition .fundsReserved = true := by
  rcases h with rfl | rfl
  · rfl
  · rfl

theorem requireExecutable_ok {i : PurchaseIntent} {u : Unit}
    (h : requireExecutable i = .ok u) :
    i.state = .policyValidated ∨ i.state = .approved := by
  unfold requireExecutable at h
  simp only [Checks.bind_eq_ok, Checks.refuseIf_eq_ok] at h
  obtain ⟨_, _, _, _, hx⟩ := h
  by_cases hv : i.state = .policyValidated
  · exact Or.inl hv
  · exact Or.inr (by simpa [hv] using hx)

/-- The session check reads the clock once. -/
theorem requireCurrentSession_spec (r : AgentRecord) (i : PurchaseIntent) :
    wp (requireCurrentSession host r i) (fun _ w' => Quiet w w'
      ∧ (∃ t, ReadIn host w w' t ∧ t < r.brokerSessionExpiresAt)
      ∧ i.brokerSessionId = r.brokerSessionId) (fun _ w' => Quiet w w') w := by
  unfold requireCurrentSession
  rw [wp_bind, wp_now, wp_rejectIf]
  have hq : Quiet w { w with tick := w.tick + 1 } :=
    ⟨⟨rfl, Nat.le_succ _, Nat.le_refl _, Nat.le_refl _⟩, rfl, rfl⟩
  refine ⟨fun _ => hq, fun h => ⟨hq, ⟨_, .next (Nat.le_refl _)
    (Nat.lt_succ_self _), ?_⟩, ?_⟩⟩
  · exact not_le.mp fun hle => h (Or.inl hle)
  · exact not_not.mp fun hne => h (Or.inr hne)

/-- The expiry check reads the clock twice. -/
theorem requireUnexpired_spec (i : PurchaseIntent) (p : Policy) :
    wp (requireUnexpired host i p) (fun _ w' => Quiet w w'
      ∧ ∃ t t', ReadIn host w w' t ∧ ReadIn host w w' t'
        ∧ t ≤ I64.wrappingAdd i.createdAt p.intentTtlSecs
        ∧ t' ≤ I64.wrappingAdd i.createdAt p.cardSessionTtlSecs)
      (fun _ w' => Quiet w w') w := by
  unfold requireUnexpired
  rw [wp_bind, wp_now, wp_ite, wp_throw, wp_bind, wp_now, wp_rejectIf]
  have hq : Quiet w { w with tick := w.tick + 1 } :=
    ⟨⟨rfl, Nat.le_succ _, Nat.le_refl _, Nat.le_refl _⟩, rfl, rfl⟩
  have hq2 : Quiet w { w with tick := w.tick + 1 + 1 } :=
    ⟨⟨rfl, Nat.le_add_right _ 2, Nat.le_refl _, Nat.le_refl _⟩, rfl, rfl⟩
  refine ⟨fun _ => hq, fun h1 => ⟨fun _ => hq2, fun h2 => ⟨hq2, _, _,
    ⟨w.tick, Nat.le_refl _, by show w.tick < w.tick + 1 + 1; omega, rfl⟩,
    ⟨w.tick + 1, Nat.le_succ _, Nat.lt_succ_self _, rfl⟩,
    not_lt.mp h1, not_lt.mp h2⟩⟩⟩

/-- The event, the entry and the intent of a reservation. -/
theorem reserveFunds_spec {w0 : World} {id agentId : String} {p q : Policy}
    {r : AgentRecord} {i : PurchaseIntent} (hk : i.id = id) (hq : Quiet w0 w)
    (hi : w0.state.intents.get? id = some i)
    (hr : ∀ w', Advance w w' → Reservable host w0 w' i r p)
    (hgen : w0.state.generation + 1 ≤ u64Max) :
    wp (reserveFunds host agentId id q i)
      (fun _ w' => Change host (.reserve id) w0 w')
      (fun _ w' => Quiet w0 w') w := by
  have hres := hr w (Advance.refl w)
  have hroom := roomy_of_capacity (by omega) hres.capacity hgen
  unfold reserveFunds
  rw [wp_bind]
  refine wp_transition_of_can (canReserve hres.executable) ?_
  rw [wp_bind, wp_appendLedger, wp_bind]
  refine wp_audit_of_room (hasRoom_of_safety rfl ?_ ?_) ?_
  · show nonEmergencyCount w.state.audit < _
    rw [hq.state]
    exact hroom.1
  · show w.state.generation + 1 ≤ _
    rw [hq.state]
    exact hgen
  rw [wp_bind]
  refine wp_transition_of_can rfl ?_
  rw [wp_storeIntent]
  subst hk
  have hlt := hq.tick
  have hdr := hq.drawn
  -- four readings of the clock and one id are drawn between the two states
  apply Change.reserve (r := r) (p := p)
  case ha =>
    refine ⟨hq.key, ?_, Nat.le_succ_of_le hdr, hq.saves⟩
    show w0.tick ≤ w.tick + 1 + 1 + 1 + 1
    omega
  case hi => exact hi
  case hr =>
    refine hr _ ⟨rfl, ?_, Nat.le_succ _, Nat.le_refl _⟩
    show w.tick ≤ w.tick + 1 + 1 + 1 + 1
    omega
  case hs => rw [← hq.state]
  case hl => rw [← hq.log]
  case hh =>
    refine .next ⟨?_, ?_⟩ ⟨hdr, Nat.lt_succ_self _⟩
    · show w0.tick ≤ w.tick + 1
      omega
    · show w.tick + 1 < w.tick + 1 + 1 + 1 + 1
      omega
  case he =>
    refine .next ?_ ?_ hq.key ⟨?_, ?_⟩
    · exact hasRoom_of_safety rfl (by
        show nonEmergencyCount w.state.audit < _
        rw [hq.state]
        exact hroom.1) (by
        show w.state.generation + 1 ≤ _
        rw [hq.state]
        exact hgen)
    · rw [← hq.state]
    · show w0.tick ≤ w.tick + 1 + 1
      omega
    · show w.tick + 1 + 1 < w.tick + 1 + 1 + 1 + 1
      omega
  case ht =>
    refine .next ?_ (Nat.lt_succ_self _)
    show w0.tick ≤ w.tick + 1 + 1 + 1
    omega

/-- **PREPARING** reserves the funds of the intent, or moves only counters. -/
theorem prepare_spec {actor : Actor} {id : String} (hk : Keyed w.state)
    (hgen : w.state.generation + 1 ≤ u64Max) :
    wp (prepareIntentExecution host actor id)
      (fun _ w' => Change host (.reserve id) w w')
      (fun _ w' => Quiet w w') w := by
  have h0 := Quiet.refl w
  unfold prepareIntentExecution
  rw [wp_bind, wp_readState]
  refine line_lift (fun _ => h0) fun _ hcap => ?_
  refine line_lift (fun _ => h0) fun agentId hscope => ?_
  refine line_orReject (fun _ => h0) fun i hi => ?_
  refine line_rejectIf (fun _ => h0) fun hown => ?_
  refine line_lift (fun _ => h0) fun _ hexec => ?_
  refine line_lift (fun _ => h0) fun r hr => ?_
  refine line_lift (fun _ => h0) fun p hp => ?_
  refine line (requireCurrentSession_spec r i) ?_
  rintro _ a ⟨ha, ⟨t, ht, harmed⟩, hsession⟩
  refine line (wp_mono (requireUnexpired_spec i p) (fun _ _ h => h)
    (fun _ _ h => ha.trans h)) ?_
  rintro _ b ⟨hb, t1, t2, ht1, ht2, hle1, hle2⟩
  have hab := ha.trans hb
  obtain ⟨_, r', hr', hsc⟩ := requireAgentScope_ok hscope
  have hown' : i.agentId = agentId := by simpa using hown
  obtain rfl : r = r' := Option.some.inj ((agent_ok.mp hr).symm.trans hr')
  refine line (wp_mono (wp_and ((decideExecution_quietly _ _ _ _ _).run b)
    (wp_self _)) (fun _ _ h => h) (fun _ _ h => hab.trans h.1)) ?_
  rintro decision c ⟨hc, hdec⟩
  refine line_rejectIf (fun _ => hab.trans hc) fun hsub => ?_
  refine reserveFunds_spec (hk _ _ hi) (hab.trans hc) hi (r := r) (p := p)
    ?_ hgen
  intro w' hw'
  unfold requireMoneyWorkflowAuditCapacity at hcap
  -- what the checks found, collected for the reservation
  exact {
    capacity := by simpa using hcap
    executable := requireExecutable_ok hexec
    agent := hown' ▸ agent_ok.mp hr
    scope := hsc
    policy := policy_ok.mp hp
    armed := ⟨t, ht.widen (Advance.refl w)
      ((hb.trans hc).toAdvance.trans hw'), harmed⟩
    session := hsession
    unexpired := ⟨t1, t2, ht1.widen ha.toAdvance (hc.toAdvance.trans hw'),
      ht2.widen ha.toAdvance (hc.toAdvance.trans hw'), hle1, hle2⟩
    decided := ⟨decision, b, c, hab, hw'.tick, by rw [hown']; exact hdec,
      by simpa using hsub⟩ }

/-! ## Saving -/

/-- The labels of a save. -/
def Saving : Label → Prop
  | .quiet => True
  | .write => True
  | _ => False

theorem saving_quiet : Saving .quiet := trivial

theorem saving_write : Saving .write := trivial

theorem diskOf_append (log : List Event) (e : Event) :
    diskOf (log ++ [e]) = (diskOf log).after e := by
  unfold diskOf
  rw [List.foldl_append]
  rfl

/-- The disk holds a state. -/
def OnDisk (log : List Event) (s : TreasuryState) : Prop :=
  ∃ envelope, (diskOf log).envelope = some envelope ∧ envelope.state = s

theorem ensureKey_spec :
    wp (ensureKey) (fun _ w' => Path host Saving w w' ∧ w'.state = w.state
        ∧ w'.auditKey = w.auditKey)
      (fun _ w' => Path host Saving w w' ∧ w'.state = w.state) w := by
  unfold ensureKey
  rw [wp_bind, wp_get]
  cases hd : (diskOf w.log).key with
  | some key =>
      rw [wp_rejectIf]
      exact ⟨fun _ => ⟨.refl w, rfl⟩, fun _ => ⟨.refl w, rfl, rfl⟩⟩
  | none =>
      rw [wp_record]
      exact ⟨.single saving_write (.writeKey ⟨rfl, Nat.le_refl _, Nat.le_refl _,
        Nat.le_refl _⟩ rfl hd rfl), rfl, rfl⟩

/-- **A SAVE** keeps the state, and leaves it on the disk if it returns. -/
theorem saveTo_spec :
    wp (saveTo host) (fun _ w' => Path host Saving w w' ∧ w'.state = w.state
        ∧ OnDisk w'.log w.state)
      (fun _ w' => Path host Saving w w' ∧ w'.state = w.state) w := by
  have hq : Quiet w { w with saves := w.saves + 1 } :=
    ⟨⟨rfl, Nat.le_refl _, Nat.le_refl _, Nat.le_succ _⟩, rfl, rfl⟩
  have h0 : Path host Saving w { w with saves := w.saves + 1 } :=
    .quiet saving_quiet hq
  unfold saveTo
  rw [wp_bind, wp_get, wp_bind, wp_modify]
  refine line_rejectIf (fun _ => ⟨h0, rfl⟩) fun _ => ?_
  refine line (wp_mono ensureKey_spec (fun _ _ h => h)
    (fun _ _ h => ⟨h0.trans h.1, h.2⟩)) ?_
  rintro _ a ⟨ha, hs, hkey⟩
  have h1 := h0.trans ha
  refine line_rejectIf (fun _ => ⟨h1, hs⟩) fun _ => ?_
  refine line_lift (fun _ => ⟨h1, hs⟩) fun _ hv => ?_
  refine line_lift (fun _ => ⟨h1, hs⟩) fun _ hc => ?_
  rw [wp_bind, wp_randomHex]
  have h2 : Path host Saving w { a with drawn := a.drawn + 1 } :=
    h1.tail saving_quiet (.quiet ⟨⟨rfl, Nat.le_refl _, Nat.le_succ _,
      Nat.le_refl _⟩, rfl, rfl⟩)
  refine line_rejectIf (fun _ => ⟨h2, hs⟩) fun _ => ?_
  rw [wp_bind, wp_record]
  have hs' : a.state = w.state := hs
  have hkey' : a.auditKey = w.auditKey := hkey
  -- the write is the one step of a save that changes the disk
  have h3 : Path host Saving w { a with
      drawn := a.drawn + 1
      log := a.log ++ [.stateWritten (envelopeOf host w.auditKey w.state)] } := by
    refine h2.tail saving_write (.writeState ⟨rfl, Nat.le_refl _, Nat.le_refl _,
      Nat.le_refl _⟩ rfl ?_ ?_ ?_)
    · show validateState host a.state = _
      rw [hs']
      exact hv
    · show verifyAuditChain host a.auditKey a.state = _
      rw [hs', hkey']
      exact hc
    · rw [← hs', ← hkey']
  rw [wp_rejectIf]
  refine ⟨fun _ => ⟨h3, hs⟩, fun _ => ⟨h3, hs,
    envelopeOf host w.auditKey w.state, ?_, rfl⟩⟩
  rw [diskOf_append]
  rfl

/-! ## Submitting -/

/-- Saving leaves the state alone. -/
theorem saving_state {w' : World} (h : Path host Saving w w') :
    w'.state = w.state := by
  refine h.rel (R := fun a b : World => b.state = a.state) ?_ ?_ ?_ ?_
  · exact fun _ => rfl
  · exact fun a b c hab hbc => hbc.trans hab
  · intro l a b hl hc
    cases hc with
    | quiet h => exact h.state
    | writeKey _ hs _ _ => exact hs
    | writeState _ hs _ _ _ => exact hs
    | _ => exact hl.elim
  · exact fun _ _ _ => rfl

/-- The labels between a reservation and its submission. -/
def BeforeSubmit : Label → Prop
  | .quiet => True
  | .audit action => isEmergencyAudit action = false
  | .write => True
  | _ => False

/-- The labels after the submission of an intent. -/
def AfterSubmit (id : String) : Label → Prop
  | .quiet => True
  | .audit action => isEmergencyAudit action = false
  | .write => True
  | .authorize id' => id' = id
  | .conclude id' _ => id' = id
  | .move id' next => id' = id ∧ next = .unknown
  | _ => False

theorem saving_before (l : Label) (h : Saving l) : BeforeSubmit l := by
  cases l with
  | quiet => trivial
  | write => trivial
  | _ => exact False.elim h

theorem saving_after (id : String) (l : Label) (h : Saving l) :
    AfterSubmit id l := by
  cases l with
  | quiet => trivial
  | write => trivial
  | _ => exact False.elim h

theorem after_quiet (id : String) : AfterSubmit id .quiet := trivial

theorem Quiet.draw (w : World) : Quiet w { w with drawn := w.drawn + 1 } :=
  ⟨⟨rfl, Nat.le_refl _, Nat.le_succ _, Nat.le_refl _⟩, rfl, rfl⟩

theorem Quiet.readClock (w : World) : Quiet w { w with tick := w.tick + 1 } :=
  ⟨⟨rfl, Nat.le_succ _, Nat.le_refl _, Nat.le_refl _⟩, rfl, rfl⟩

/-- The simulated provider holds, charges, or changes nothing. -/
theorem authorize_spec {i : PurchaseIntent}
    (hi : w.state.intents.get? i.id = some i) (hx : i.state = .executing)
    (hm : w.state.providerMode = .simulated) :
    wp (SimulatedProvider.authorize host i)
      (fun _ w' => Quiet w w' ∨ Change host (.authorize i.id) w w')
      (fun _ w' => Quiet w w') w := by
  unfold SimulatedProvider.authorize SimulatedProvider.put
  rw [wp_bind, wp_readState]
  dsimp only
  cases hc : w.state.provider.charges.get? i.id with
  | some charge => exact (wp_pure _).mpr (Or.inl (Quiet.refl w))
  | none =>
      dsimp only
      rw [wp_ite]
      refine ⟨fun _ => (wp_pure _).mpr (Or.inl (Quiet.refl w)), fun _ => ?_⟩
      rw [wp_ite]
      refine ⟨fun _ => (wp_pure _).mpr (Or.inl (Quiet.refl w)), fun _ => ?_⟩
      refine line_lift (fun _ => Quiet.refl w) fun available ha => ?_
      rw [wp_ite]
      refine ⟨fun _ => (wp_pure _).mpr (Or.inl (Quiet.refl w)), fun hle => ?_⟩
      rw [wp_bind, wp_newId, wp_ite]
      constructor
      · intro _
        rw [wp_bind, wp_modifyState, wp_pure]
        exact Or.inr (.authorize ⟨rfl, Nat.le_refl _, Nat.le_succ _,
          Nat.le_refl _⟩ hi hx hm (.hold hc ha (not_lt.mp hle)) rfl rfl
          (Or.inl rfl))
      · intro _
        refine line_lift (fun _ => Quiet.draw w) fun balance hb => ?_
        rw [wp_bind, wp_modifyState, wp_ite, wp_pure, wp_pure]
        refine ⟨fun _ => Or.inr ?_, fun _ => Or.inr ?_⟩
        · exact .authorize ⟨rfl, Nat.le_refl _, Nat.le_succ _, Nat.le_refl _⟩
            hi hx hm (.charge hc ha (not_lt.mp hle) hb) rfl rfl (Or.inr rfl)
        · exact .authorize ⟨rfl, Nat.le_refl _, Nat.le_succ _, Nat.le_refl _⟩
            hi hx hm (.charge hc ha (not_lt.mp hle) hb) rfl rfl (Or.inr rfl)

/-- A provider is asked only after the log says so. -/
theorem providerAuthorize_spec {i : PurchaseIntent}
    (hi : w.state.intents.get? i.id = some i) (hx : i.state = .executing) :
    wp (providerAuthorize host i)
      (fun _ w' => ∃ d, Change host (.submit i.id) w d
        ∧ (Quiet d w' ∨ Change host (.authorize i.id) d w'))
      (fun _ w' => ∃ d, Change host (.submit i.id) w d ∧ Quiet d w') w := by
  have hsub : Change host (.submit i.id) w
      { w with log := w.log ++ [.submitted i.id] } :=
    .submit ⟨rfl, Nat.le_refl _, Nat.le_refl _, Nat.le_refl _⟩ rfl hi hx rfl
  unfold providerAuthorize
  rw [wp_bind, wp_record, wp_bind, wp_readState]
  cases hm : w.state.providerMode with
  | simulated =>
      show wp (SimulatedProvider.authorize host i) _ _ _
      refine wp_mono (authorize_spec hi hx hm) ?_ ?_
      · exact fun _ _ h => ⟨_, hsub, h⟩
      · exact fun _ _ h => ⟨_, hsub, h⟩
  | manualPrepaidCard =>
      refine line_orReject (fun _ => ⟨_, hsub, Quiet.refl _⟩) fun _ _ => ?_
      exact (wp_pure _).mpr ⟨_, hsub, Or.inl (Quiet.refl _)⟩

/-- A submission leaves the state alone. -/
theorem Change.submitted_state {id : String} {d : World}
    (h : Change host (.submit id) w d) : d.state = w.state := by
  generalize hl : Label.submit id = l at h
  cases h with
  | submit _ hs _ _ _ => exact hs
  | _ => exact nomatch hl

/-- An authorization changes the simulated provider only. -/
theorem Change.authorized_state {id : String} {d : World}
    (h : Change host (.authorize id) w d) :
    ∃ p', d.state = { w.state with provider := p' } := by
  generalize hl : Label.authorize id = l at h
  cases h with
  | authorize _ _ _ _ _ hs _ => exact ⟨_, hs⟩
  | _ => exact nomatch hl

/-- What a submission leaves of the state: everything but the provider. -/
theorem afterSubmission {i : PurchaseIntent} {d e : World}
    (hsub : Change host (.submit i.id) w d)
    (h : Quiet d e ∨ Change host (.authorize i.id) d e) :
    Path host (AfterSubmit i.id) d e ∧ e.state.intents = w.state.intents
      ∧ e.state.audit = w.state.audit
      ∧ e.state.generation = w.state.generation := by
  have hd : d.state = w.state := hsub.submitted_state
  rcases h with hq | hc
  · refine ⟨.quiet (after_quiet _) hq, ?_, ?_, ?_⟩
    · rw [hq.state, hd]
    · rw [hq.state, hd]
    · rw [hq.state, hd]
  · refine ⟨.single (show AfterSubmit i.id (.authorize i.id) from rfl) hc, ?_⟩
    obtain ⟨p', hs⟩ := hc.authorized_state
    rw [hs, ← hd]
    exact ⟨rfl, rfl, rfl⟩

/-- Submitted, and then only what may follow a submission. -/
def Submitted (host : Host) (id : String) (w w' : World) : Prop :=
  ∃ d, Change host (.submit id) w d ∧ Path host (AfterSubmit id) d w'

/-- Asking the provider and recording its outcome. -/
theorem submission_spec {agentId id : String} {i : PurchaseIntent}
    (hk : i.id = id) (hi : w.state.intents.get? id = some i)
    (hx : i.state = .executing) (hroom : Roomy w.state) :
    wp (providerAuthorize host i >>= fun outcome =>
        applyProviderOutcome host agentId id outcome)
      (fun _ w' => Submitted host id w w')
      (fun _ w' => Submitted host id w w') w := by
  subst hk
  refine line (wp_mono (providerAuthorize_spec hi hx) (fun _ _ h => h) ?_) ?_
  · rintro _ w' ⟨d, hsub, hq⟩
    exact ⟨d, hsub, .quiet (after_quiet _) hq⟩
  rintro outcome e ⟨d, hsub, hauth⟩
  obtain ⟨hp, hint, haud, hgen⟩ := afterSubmission hsub hauth
  refine wp_mono (apply_spec (i := i) outcome rfl (hint ▸ hi) ?_) ?_ ?_
  · exact ⟨haud ▸ hroom.1, hgen ▸ hroom.2⟩
  · rintro _ w' ⟨next, hc⟩
    exact ⟨d, hsub, hp.tail (show AfterSubmit i.id (.conclude i.id next)
      from rfl) hc⟩
  · intro _ w' hq
    exact ⟨d, hsub, hp.thenQuiet (after_quiet _) hq⟩

/-- **COMPLETING** an executing intent submits it once and concludes it, or
    leaves it executing. -/
theorem complete_spec {actor : Actor} {id : String} {i : PurchaseIntent}
    (hk : i.id = id) (hi : w.state.intents.get? id = some i)
    (hroom : Roomy w.state) :
    wp (completeIntentExecution host actor id)
      (fun _ w' => Submitted host id w w')
      (fun _ w' => Quiet w w' ∨ Submitted host id w w') w := by
  have h0 : Quiet w w ∨ Submitted host id w w := Or.inl (Quiet.refl w)
  unfold completeIntentExecution
  rw [wp_bind, wp_readState]
  refine line_lift (fun _ => h0) fun agentId _ => ?_
  refine line_lift (fun _ => h0) fun j hj => ?_
  obtain ⟨hj, _⟩ := intentForAgent_ok.mp hj
  obtain rfl : i = j := Option.some.inj (hi.symm.trans hj)
  refine line_rejectIf (fun _ => h0) fun hx => ?_
  exact wp_mono (submission_spec hk hi (not_not.mp hx) hroom)
    (fun _ _ h => h) (fun _ _ h => Or.inr h)

/-- Completing for the agent of the intent submits, however it ends. -/
theorem complete_submits {id : String} {i : PurchaseIntent} {r : AgentRecord}
    (hk : i.id = id) (hi : w.state.intents.get? id = some i)
    (hx : i.state = .executing) (hr : w.state.agents.get? i.agentId = some r)
    (hscope : r.scopes.contains "purchase_intents:execute" = true)
    (hroom : Roomy w.state) :
    wp (completeIntentExecution host (.agent i.agentId) id)
      (fun _ w' => Submitted host id w w')
      (fun _ w' => Submitted host id w w') w := by
  have hagent : requireAgentScope w.state (.agent i.agentId)
      "purchase_intents:execute" = .ok i.agentId := requireAgentScope_of hr hscope
  have hown : intentForAgent w.state i.agentId id = .ok i :=
    intentForAgent_ok.mpr ⟨hi, rfl⟩
  unfold completeIntentExecution
  rw [wp_bind, wp_readState, wp_bind, wp_lift, hagent]
  refine ⟨fun _ h => (nomatch h), fun _ h => ?_⟩
  cases h
  rw [wp_bind, wp_lift, hown]
  refine ⟨fun _ h => (nomatch h), fun _ h => ?_⟩
  cases h
  rw [wp_bind, wp_rejectIf]
  exact ⟨fun h => absurd hx h, fun _ => submission_spec hk hi hx hroom⟩

/-- Submitting through an executor is the same with its outcome. -/
theorem submitThrough_spec {executor : CheckoutExecutor} {agentId id : String}
    {i : PurchaseIntent} (hk : i.id = id)
    (hi : w.state.intents.get? id = some i) (hx : i.state = .executing)
    (hroom : Roomy w.state) :
    wp (submitThrough host executor agentId id i)
      (fun _ w' => Submitted host id w w')
      (fun _ w' => Submitted host id w w') w := by
  subst hk
  have hsub : Change host (.submit i.id) w
      { w with log := w.log ++ [.submitted i.id] } :=
    .submit ⟨rfl, Nat.le_refl _, Nat.le_refl _, Nat.le_refl _⟩ rfl hi hx rfl
  unfold submitThrough
  rw [wp_bind, wp_record]
  refine line_lift (fun _ => ⟨_, hsub, .refl _⟩) fun outcome _ => ?_
  refine wp_mono (apply_spec (i := i) outcome rfl hi hroom) ?_ ?_
  · rintro _ w' ⟨next, hc⟩
    exact ⟨_, hsub, .single (show AfterSubmit i.id (.conclude i.id next)
      from rfl) hc⟩
  · intro _ w' hq
    exact ⟨_, hsub, .quiet (after_quiet _) hq⟩

/-- **QUARANTINE** moves the intent to unknown or changes nothing. -/
theorem quarantine_spec {id reason : String} (hk : Keyed w.state) :
    wp (quarantineExecution host id reason)
      (fun _ w' => Path host (AfterSubmit id) w w')
      (fun _ w' => Path host (AfterSubmit id) w w') w := by
  unfold quarantineExecution
  rw [wp_bind, wp_readState]
  refine line_orReject (fun _ => .refl w) fun i hi => ?_
  obtain rfl := hk _ _ hi
  rw [wp_ite, wp_pure]
  refine ⟨fun hstate => ?_, fun _ => .refl w⟩
  refine line (P := fun j a => Quiet w a ∧ movesTo i .unknown
    ∧ ∃ t, (t = i.updatedAt ∨ ReadIn host w a t)
      ∧ j = { i with state := .unknown, updatedAt := t }) ?_ ?_
  · unfold enterUnknown
    rw [wp_ite, wp_pure]
    constructor
    · intro hx
      refine wp_transition (fun _ => .refl w) fun hcan => ?_
      exact ⟨Quiet.readClock w, Or.inl ⟨hcan, Or.inr (Or.inr rfl)⟩, _,
        Or.inr (.next (Nat.le_refl _) (Nat.lt_succ_self _)), rfl⟩
    · intro hx
      -- it was unknown before, so only the reason is new
      have hu : i.state = .unknown := hstate.resolve_left hx
      exact ⟨Quiet.refl w, Or.inr ⟨hu, rfl⟩, i.updatedAt, Or.inl rfl,
        by rw [← hu]⟩
  rintro _ a ⟨hq, hmove, t, ht, rfl⟩
  rw [wp_bind, wp_storeIntent]
  have hp : Path host (AfterSubmit i.id) w { a with
      state := a.state.withIntent i.id { i with
        state := .unknown
        updatedAt := t
        lastError := some "provider_execution_error" }
      log := a.log ++ [.stored { i with
        state := .unknown
        updatedAt := t
        lastError := some "provider_execution_error" }] } := by
    refine .single (l := .move i.id .unknown) ⟨rfl, rfl⟩ ?_
    apply Change.move
    case ha => exact ⟨hq.key, hq.tick, hq.drawn, hq.saves⟩
    case hi => exact hi
    case hm => exact hmove
    case ht => exact ht
    case hs => rw [hq.state]
    case hl => rw [hq.log]
  refine wp_audit (fun _ => hp) fun hroom => ?_
  exact hp.tail (show AfterSubmit i.id (.audit "quarantine_provider_error") from rfl)
    (.audit ⟨rfl, Nat.le_succ _, Nat.le_refl _, Nat.le_refl _⟩
      (.next hroom rfl rfl ⟨Nat.le_refl _, Nat.lt_succ_self _⟩) rfl rfl)

end Treasury
