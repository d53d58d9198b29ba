import Cixa.Expiry

/-! # Freshness — what an unconfirmed card balance authorizes

    An intent is reserved on a manual card only while the snapshot of its
    balance is confirmed and has not expired.  A configuration sets both, and
    from then on nothing moves the EXPIRY but another configuration: no
    intent enters execution once it has passed.

    The status is another matter.  A verified deposit marks the snapshot as
    confirmed by the owner, whatever it was before; short of that an
    estimated balance authorizes nothing. -/

namespace Treasury

open CixaData CixaHost Outcome Transition

variable {host : Host} {w w' : World} {l : Label} {c : Call} {id : String}

/-! ## What a reservation reads -/

/-- A snapshot that is confirmed, and in force at a reading between two
    worlds. -/
def Vouched (host : Host) (s : TreasuryState) (w w' : World) : Prop :=
  ∃ snap t, manualSnapshot s = some snap ∧ ReadIn host w w' t
    ∧ t < snap.expiresAt ∧ snap.status ≠ .estimated

section Decisions

variable {s : TreasuryState} {p : Policy} {request : PurchaseRequest}
  {used : BudgetUsage}

theorem providerAvailableBalance_vouched (w : World)
    (hm : s.providerMode = .manualPrepaidCard) :
    wp (providerAvailableBalance host s) (fun _ w' => Vouched host s w w')
      (fun _ _ => True) w := by
  unfold providerAvailableBalance
  rw [hm]
  refine line_orReject (fun _ => trivial) fun m hprovider => ?_
  refine line (P := fun _ w1 => Vouched host s w w1) ?_ ?_
  · unfold ManualPrepaidCardProvider.availableBalance
    refine line_orReject (fun _ => trivial) fun snap hsnap => ?_
    rw [wp_bind, wp_now]
    refine line_rejectIf (fun _ => trivial) fun hlive => ?_
    refine line_rejectIf (fun _ => trivial) fun hstatus => ?_
    rw [wp_pure]
    refine ⟨snap, host.clock w.tick, ?_, ?_, not_le.mp hlive, hstatus⟩
    · unfold manualSnapshot
      rw [hprovider, Option.bind_some, hsnap]
    · exact ⟨w.tick, Nat.le_refl _, Nat.lt_succ_self _, rfl⟩
  intro reported w1 hvouched
  refine line_lift (fun _ => trivial) fun ledger _ => ?_
  refine line_lift (fun _ => trivial) fun available _ => ?_
  refine line_rejectIf (fun _ => trivial) fun _ => ?_
  rw [wp_pure]
  exact hvouched

theorem enforceAuthority_vouched (d : PolicyDecision) (w : World)
    (hm : s.providerMode = .manualPrepaidCard)
    (hcur : request.finalTotal.currency = p.primaryCurrency) :
    wp (enforceAuthority host s d request used p)
      (fun _ w' => Vouched host s w w') (fun _ _ => True) w := by
  unfold enforceAuthority
  rw [if_neg (not_not.mpr hcur)]
  dsimp only
  refine line_lift (fun _ => trivial) fun ledger _ => ?_
  refine line (providerAvailableBalance_vouched w hm) ?_
  intro balance w1 hvouched
  refine line_lift (fun _ => trivial) fun configured _ => ?_
  refine line_lift (fun _ => trivial) fun lifetime _ => ?_
  rw [wp_pure]
  exact hvouched

/-- **A DECISION FOR A CARD** that is not a denial found the balance
    confirmed and in force. -/
theorem decideExecution_vouched {r : AgentRecord} (agentId : String)
    (i : PurchaseIntent) (w : World)
    (hm : s.providerMode = .manualPrepaidCard) :
    wp (decideExecution host s agentId r p i)
      (fun d w' => Undenied d → Vouched host s w w') (fun _ _ => True) w := by
  unfold decideExecution usage
  rw [wp_bind]
  refine line_lift (fun _ => trivial) fun zero _ => ?_
  refine line (P := fun _ w1 => Quiet w w1)
    (wp_mono (Quietly.now.run w) (fun _ _ h => h) (fun _ _ _ => trivial)) ?_
  intro t w1 h1
  rw [wp_lift]
  refine ⟨fun _ _ => trivial, fun used _ => ?_⟩
  unfold decideRequest
  refine line_lift (fun _ => trivial) fun merchant _ => ?_
  dsimp only
  refine line (P := fun _ w2 => Quiet w1 w2)
    (wp_mono (Quietly.now.run w1) (fun _ _ h => h) (fun _ _ _ => trivial)) ?_
  intro _ w2 h2
  refine line_lift (fun _ => trivial) fun d hd => ?_
  by_cases hcur : i.request.finalTotal.currency = p.primaryCurrency
  · refine wp_mono (enforceAuthority_vouched d w2 hm hcur) ?_ (fun _ _ h => h)
    rintro d' w' ⟨snap, t, hsnap, ht, hlive, hstatus⟩ _
    exact ⟨snap, t, hsnap, ht.widen (h1.trans h2).toAdvance
      (Quiet.refl w').toAdvance, hlive, hstatus⟩
  · refine wp_mono (enforceAuthority_foreign d w2 hcur) ?_ (fun _ _ h => h)
    rintro d' _ rfl hu
    exact absurd (evaluate_undenied hd hu).currency hcur

theorem Reservable.vouched {i : PurchaseIntent} {r : AgentRecord}
    (h : Reservable host w w' i r p)
    (hm : w.state.providerMode = .manualPrepaidCard) :
    Vouched host w.state w w' := by
  obtain ⟨d, w1, w2, hquiet, htick, hrun, hsub⟩ := h.decided
  obtain ⟨snap, t, hsnap, ht, hlive, hstatus⟩ :=
    wp_ok (decideExecution_vouched i.agentId i w1 hm) hrun
      (submittable_undenied hsub)
  obtain ⟨k, hlo, hhi, hk⟩ := ht
  have hstart := hquiet.tick
  exact ⟨snap, t, hsnap, ⟨k, by omega, by omega, hk⟩, hlive, hstatus⟩

end Decisions

/-! ## What moves a snapshot -/

/-- The card's snapshot expires at a time. -/
def ExpiresAt (t : Int) (s : TreasuryState) : Prop :=
  s.providerMode = .manualPrepaidCard
    ∧ ∃ snap, manualSnapshot s = some snap ∧ snap.expiresAt = t

/-- The card's balance is only estimated. -/
def Unconfirmed (s : TreasuryState) : Prop :=
  s.providerMode = .manualPrepaidCard
    ∧ ∃ snap, manualSnapshot s = some snap ∧ snap.status = .estimated

theorem manualSnapshot_eq_some {s : TreasuryState} {snap : ManualBalanceSnapshot} :
    manualSnapshot s = some snap ↔ ∃ m, s.manualProvider = some m
      ∧ m.balanceSnapshot = some snap := Option.bind_eq_some_iff

/-- A snapshot with another balance: it expires when it did. -/
theorem ManualStep.keeps {total : Money} {arm : Arm}
    {m m' : ManualPrepaidCardProvider} (h : ManualStep host w w' total arm m m')
    {snap : ManualBalanceSnapshot} (hs : m.balanceSnapshot = some snap) :
    ∃ snap', m'.balanceSnapshot = some snap'
      ∧ snap'.expiresAt = snap.expiresAt ∧ snap'.status = snap.status := by
  cases h with
  | debit hs' _ _ _ =>
      cases hs.symm.trans hs'
      exact ⟨_, rfl, rfl, rfl⟩
  | credit hs' _ _ =>
      cases hs.symm.trans hs'
      exact ⟨_, rfl, rfl, rfl⟩
  | touch hs' _ =>
      cases hs.symm.trans hs'
      exact ⟨_, rfl, rfl, rfl⟩

/-- The manual snapshot after a change, but for a configuration: what it was,
    but for its balance, the time of it and, after a deposit, its status. -/
theorem Change.snapshot (h : Change host l w w') (hl : l ≠ .configureManual)
    (hm : w.state.providerMode = .manualPrepaidCard)
    {snap : ManualBalanceSnapshot} (hs : manualSnapshot w.state = some snap) :
    w'.state.providerMode = .manualPrepaidCard
      ∧ ∃ snap', manualSnapshot w'.state = some snap'
        ∧ snap'.expiresAt = snap.expiresAt
        ∧ (l ≠ .deposit → snap'.status = snap.status) := by
  -- most changes leave the card alone
  have hsame : w'.state.providerMode = w.state.providerMode →
      w'.state.manualProvider = w.state.manualProvider →
      w'.state.providerMode = .manualPrepaidCard
        ∧ ∃ snap', manualSnapshot w'.state = some snap'
          ∧ snap'.expiresAt = snap.expiresAt
          ∧ (l ≠ .deposit → snap'.status = snap.status) := by
    intro hmode hprovider
    refine ⟨hmode.trans hm, snap, ?_, rfl, fun _ => rfl⟩
    unfold manualSnapshot
    rw [hprovider]
    exact hs
  obtain ⟨m, hprovider, hsnap⟩ := manualSnapshot_eq_some.mp hs
  cases h with
  | quiet h =>
      rw [h.state] at hsame ⊢
      exact hsame rfl rfl
  | @reconcile _ _ i _ outcome _ _ _ _ _ hp hst _ =>
      rw [hst] at hsame ⊢
      generalize armOf i.state outcome = arm at hp
      cases hp with
      | none _ => exact hsame rfl rfl
      | simulated hsim _ _ => exact nomatch hm.symm.trans hsim
      | manual _ hp' hstep =>
          obtain rfl := Option.some.inj (hprovider.symm.trans hp')
          obtain ⟨snap', hsnap', hexp, hstatus⟩ := hstep.keeps hsnap
          exact ⟨hm, snap', hsnap', hexp, fun _ => hstatus⟩
  | deposit _ _ _ hc _ _ hst _ =>
      rw [hst] at hsame ⊢
      cases hc with
      | unverified => exact hsame rfl rfl
      | simulated hsim _ => exact nomatch hm.symm.trans hsim
      | manual _ hp' hs' _ _ =>
          obtain rfl := Option.some.inj (hprovider.symm.trans hp')
          obtain rfl := Option.some.inj (hsnap.symm.trans hs')
          -- a deposit confirms the balance, but does not renew it
          exact ⟨hm, _, rfl, rfl, fun hno => absurd rfl hno⟩
  | configureManual => exact absurd rfl hl
  | writeKey _ hst _ _ =>
      rw [hst] at hsame ⊢
      exact hsame rfl rfl
  | writeState _ hst _ _ _ =>
      rw [hst] at hsame ⊢
      exact hsame rfl rfl
  | submit _ hst _ _ _ =>
      rw [hst] at hsame ⊢
      exact hsame rfl rfl
  | _ =>
      rename_i hst _
      rw [hst] at hsame ⊢
      exact hsame rfl rfl

/-! ## What a call does to it -/

/-- A call that configures the card, and leaves a change. -/
def Reconfigures (host : Host) (c : Call) (w : World) : Prop :=
  (∃ token k, c.asks = some (token, .ownerConfigureManualProvider k))
    ∧ (exec host c w).state ≠ w.state

/-- A call that records a verified deposit, and leaves a change. -/
def Confirms (host : Host) (c : Call) (w : World) : Prop :=
  (∃ token amount source agentId reference, c.asks = some (token,
      .ownerRecordDeposit amount source true agentId reference))
    ∧ (exec host c w).state ≠ w.state

/-- The labels of a call: it configures and deposits only when asked to. -/
def Sparing (c : Call) (l : Label) : Prop :=
  (l = .configureManual →
      ∃ token k, c.asks = some (token, .ownerConfigureManualProvider k))
    ∧ (l = .deposit → ∃ token amount source verified agentId reference,
      c.asks = some (token,
        .ownerRecordDeposit amount source verified agentId reference))

theorem Behaves.sparing (h : Behaves host w w' c) :
    Path host (Sparing c) w w' := by
  cases h with
  | attempt _ ha =>
      refine ha.path.mono ?_
      rintro _ hl
      constructor
      · rintro rfl
        exact (hl : False ∨ False).elim False.elim False.elim
      · rintro rfl
        exact (hl : False ∨ False).elim False.elim False.elim
  | recovery hr =>
      refine hr.path.mono ?_
      rintro _ hl
      constructor
      · rintro rfl
        exact hl.elim
      · rintro rfl
        exact hl.elim
  | @ordinary _ token request hasks _ ho =>
      cases ho with
      | refused hp =>
          refine hp.mono ?_
          rintro _ hl
          constructor
          · rintro rfl
            exact hl.elim
          · rintro rfl
            exact hl.elim
      | served _ hp =>
          refine hp.mono ?_
          rintro _ (hl | hl)
          · constructor
            · rintro rfl
              cases request with
              | ownerConfigureManualProvider k => exact ⟨_, _, hasks⟩
              | _ => exact False.elim hl
            · rintro rfl
              cases request with
              | ownerRecordDeposit => exact ⟨_, _, _, _, _, _, hasks⟩
              | _ => exact False.elim hl
          · constructor
            · rintro rfl
              exact hl.elim
            · rintro rfl
              exact hl.elim

/-- A deposit that is not verified leaves the card alone. -/
theorem unverified_card {token : String} {amount : Money} {source : String}
    {agentId : Option String} {reference : String} {P : TreasuryState → Prop}
    (hP : ∀ s s' : TreasuryState, s'.providerMode = s.providerMode →
      s'.manualProvider = s.manualProvider → P s → P s') (hw : P w.state) :
    wp (handle host token
        (.ownerRecordDeposit amount source false agentId reference))
      (fun _ v => P v.state) (fun _ v => P v.state) w := by
  unfold handle
  refine line_quiet (authenticate_quietly token)
    (fun _ _ h => h.state ▸ hw) fun actor a ha => ?_
  rw [← ha.state] at hw
  have hrec : ∀ v, Recorded host amount false agentId reference a v →
      P v.state := by
    intro v h
    obtain ⟨_, s, events, _, _, hc, _, hs⟩ := h.made
    cases hc
    rw [hs]
    exact hP a.state _ rfl rfl hw
  refine wp_mono ownerRecordDeposit_spec ?_ ?_
  · rintro _ v ⟨_, ⟨rfl, _⟩ | ⟨u, e, hu, _, hs⟩⟩
    · exact hw
    · rw [hs]
      exact hP u.state _ rfl rfl (hrec u hu)
  · rintro _ v (⟨_, hq | ⟨hv, _⟩⟩ | rfl)
    · rw [hq.state]
      exact hw
    · exact hrec v hv
    · exact hw

/-- A call that configures nothing keeps the expiry. -/
theorem exec_expiresAt {t : Int} (h : Workable w.state)
    (hno : ¬Reconfigures host c w) (hw : ExpiresAt t w.state) :
    ExpiresAt t (exec host c w).state := by
  by_cases hsame : (exec host c w).state = w.state
  · rw [hsame]
    exact hw
  refine (exec_behaves h c).sparing.invariant
    (I := fun v => ExpiresAt t v.state) ?_ (fun _ _ _ ha _ => ha) hw
  rintro l a b ⟨hl, _⟩ hc ⟨hm, snap, hs, ht⟩
  obtain ⟨hm', snap', hs', hexp, _⟩ :=
    hc.snapshot (fun heq => hno ⟨hl heq, hsame⟩) hm hs
  exact ⟨hm', snap', hs', hexp.trans ht⟩

/-- A call that configures nothing and confirms nothing leaves an estimated
    balance estimated. -/
theorem exec_unconfirmed (h : Workable w.state)
    (hno : ¬Reconfigures host c w) (hdep : ¬Confirms host c w)
    (hw : Unconfirmed w.state) : Unconfirmed (exec host c w).state := by
  by_cases hsame : (exec host c w).state = w.state
  · rw [hsame]
    exact hw
  by_cases hasks : ∃ token amount source verified agentId reference,
      c.asks = some (token,
        .ownerRecordDeposit amount source verified agentId reference)
  · obtain ⟨token, amount, source, verified, agentId, reference, hc⟩ := hasks
    cases verified with
    | true => exact absurd ⟨⟨_, _, _, _, _, hc⟩, hsame⟩ hdep
    | false =>
        refine exec_leaves hc rfl hw (unverified_card ?_ hw)
        rintro s s' hmode hprovider ⟨hm, snap, hs, hest⟩
        refine ⟨hmode.trans hm, snap, ?_, hest⟩
        unfold manualSnapshot at hs ⊢
        rw [hprovider]
        exact hs
  · refine (exec_behaves h c).sparing.invariant
      (I := fun v => Unconfirmed v.state) ?_ (fun _ _ _ ha _ => ha) hw
    rintro l a b ⟨hl, hd⟩ hc ⟨hm, snap, hs, hest⟩
    obtain ⟨hm', snap', hs', _, hstatus⟩ :=
      hc.snapshot (fun heq => hno ⟨hl heq, hsame⟩) hm hs
    exact ⟨hm', snap', hs', (hstatus fun heq => hasks (hd heq)).trans hest⟩

/-! ## Accepted configurations -/

/-- A call that returns ends where its request ends, or where saving what its
    request left ends. -/
theorem Succeeds.ends {token : String} {request : Request}
    {P : World → Prop} (hok : Succeeds host c w)
    (hc : c.asks = some (token, request)) (hx : executes request = none)
    (hsave : ∀ v v', P v → Path host Saving v v' → P v')
    (hspec : wp (handle host token request) (fun _ v => P v)
      (fun _ _ => True) w) : P (exec host c w) := by
  have hsaved : wp (handleSaved host token request) (fun _ v => P v)
      (fun _ _ => True) w := by
    unfold handleSaved
    rw [wp_bind, wp_readState, wp_bind, wp_attempt]
    refine wp_mono hspec ?_ ?_
    · intro value v hv
      dsimp only
      rw [wp_ite, wp_pure]
      refine ⟨fun _ => hv, fun _ => ?_⟩
      rw [wp_bind]
      refine wp_orRestore (wp_mono saveTo_spec ?_ (fun _ _ _ => trivial))
      rintro _ w' ⟨hp, _⟩
      rw [wp_pure]
      exact hsave v w' hv hp
    · intro e v _
      dsimp only
      rw [wp_bind, wp_readState, wp_ite]
      constructor
      · intro _
        rw [wp_bind]
        refine wp_orRestore (wp_mono saveTo_spec ?_ (fun _ _ _ => trivial))
        intro _ _ _
        rw [wp_throw]
        trivial
      · intro _
        rw [wp_bind, wp_setState, wp_throw]
        trivial
  obtain ⟨value, hok⟩ := hok
  cases c with
  | request token' request' =>
      cases hc
      exact (wp_iff.mp hspec).1 value hok
  | persisted token' request' =>
      cases hc
      cases request with
      | executePurchaseIntent id => exact nomatch hx
      | ownerCreateAgent name p mode ttl => exact nomatch hok
      | _ => exact (wp_iff.mp hsaved).1 value hok
  | _ => exact nomatch hc

/-- **AN ACCEPTED CONFIGURATION** is in force from a reading during its call,
    for as long as it says. -/
theorem configured {token : String} {k : ManualProviderConfiguration}
    {conf : Call}
    (hconf : conf.asks = some (token, .ownerConfigureManualProvider k))
    (hok : Succeeds host conf w) : ∃ t, ReadIn host w (exec host conf w) t
      ∧ ExpiresAt (t + k.balanceTtlSecs) (exec host conf w).state
      ∧ (k.balanceStatus = .estimated →
        Unconfirmed (exec host conf w).state) := by
  refine hok.ends (P := fun v => ∃ t, ReadIn host w v t
    ∧ ExpiresAt (t + k.balanceTtlSecs) v.state
    ∧ (k.balanceStatus = .estimated → Unconfirmed v.state)) hconf rfl ?_ ?_
  · rintro v v' ⟨t, ht, hexp, hest⟩ hp
    rw [saving_state hp]
    exact ⟨t, ht.widen (.refl w) hp.advance, hexp, hest⟩
  unfold handle
  refine line_quiet (authenticate_quietly token) (fun _ _ _ => trivial) ?_
  intro actor a ha
  show wp (ownerConfigureManualProvider host actor k) _ _ a
  unfold ownerConfigureManualProvider
  rw [wp_bind, wp_readState]
  refine line_lift (fun _ => trivial) fun _ _ => ?_
  refine line_lift (fun _ => trivial) fun _ hcheck => ?_
  obtain ⟨hpos, hday⟩ := checkManualConfiguration_ttl hcheck
  have hsum : I64.wrappingAdd (host.clock a.tick) k.balanceTtlSecs
      = host.clock a.tick + k.balanceTtlSecs :=
    I64.wrappingAdd_of_fits (by
      have hlow := host.clock_nonneg a.tick
      have hhigh := host.clock_le a.tick
      unfold I64.Fits I64.minValue I64.maxValue
      omega)
  rw [wp_bind, wp_now, wp_bind, wp_modifyState]
  dsimp only
  rw [wp_bind]
  refine wp_audit (fun _ => trivial) fun _ => ?_
  rw [wp_pure]
  refine ⟨host.clock a.tick, ?_, ⟨rfl, _, rfl, hsum⟩,
    fun hest => ⟨rfl, _, rfl, hest⟩⟩
  exact .next ha.tick (Nat.lt_succ_of_lt (Nat.lt_succ_self _))

/-! ## Over a run -/

/-- What holds throughout a run, of two things, holds of both. -/
theorem throughout_and {P Q : Call → World → Prop} {w : World}
    {cs : List Call} (hP : Throughout (exec host) P w cs)
    (hQ : Throughout (exec host) Q w cs) :
    Throughout (exec host) (fun c v => P c v ∧ Q c v) w cs := by
  induction cs generalizing w with
  | nil => trivial
  | cons c cs ih => exact ⟨⟨hP.1, hQ.1⟩, ih hP.2 hQ.2⟩

/-- **AN UNCONFIRMED BALANCE AUTHORIZES NOTHING**: after an accepted
    configuration of the card and until another one leaves a change, no
    intent enters execution in a call whose readings are past the expiry; and
    if the balance was only estimated, none does at all unless a verified
    deposit confirmed it on the way. -/
theorem unconfirmed_authorizes_nothing {owner token : String} {w0 : World}
    {cs ds : List Call} {conf : Call} {k : ManualProviderConfiguration}
    (hrun : TreasuryRun host owner w0 cs w)
    (hconf : conf.asks = some (token, .ownerConfigureManualProvider k))
    (hok : Succeeds host conf w) (hfit : Fits (exec host conf w))
    (hcalls : Calls host (exec host conf w) ds w')
    (hkeep : Throughout (exec host) (fun c v => ¬Reconfigures host c v)
      (exec host conf w) ds) :
    (∃ t, ReadIn host w (exec host conf w) t ∧ ∀ c id,
        (∀ n, w'.tick ≤ n → n < (exec host c w').tick →
          t + k.balanceTtlSecs ≤ host.clock n) →
        ¬Enters w' (exec host c w') id)
      ∧ (k.balanceStatus = .estimated →
        Throughout (exec host) (fun c v => ¬Confirms host c v)
          (exec host conf w) ds →
        ∀ c id, ¬Enters w' (exec host c w') id) := by
  obtain ⟨hkept, hfits⟩ := hrun.kept
  have hstart : Kept (exec host conf w).state ∧ Fits (exec host conf w) :=
    ⟨(exec_behaves (hkept.workable hfits) conf).path.kept hkept, hfit⟩
  obtain ⟨t, ht, hexp, hest⟩ := configured hconf hok
  -- what enters was vouched for by a fresh balance, read in this call
  have hentry : Kept w'.state ∧ Fits w' → ∀ {c id}, Enters w' (exec host c w') id →
      w'.state.providerMode = .manualPrepaidCard →
      Vouched host w'.state w' (exec host c w') := by
    rintro ⟨hk, hf⟩ c id henters hm
    obtain ⟨i, r, p, b, _, _, _, hr, _, htick⟩ :=
      henters.rightful (hk.workable hf)
    obtain ⟨snap, t, hsnap, ⟨n, hlo, hhi, hn⟩, hlive, hstatus⟩ := hr.vouched hm
    exact ⟨snap, t, hsnap, ⟨n, hlo, Nat.lt_of_lt_of_le hhi htick, hn⟩, hlive,
      hstatus⟩
  constructor
  · obtain ⟨hend, hmode, snap, hs, heq⟩ := hcalls.invariantThroughout
      (I := fun v => (Kept v.state ∧ Fits v)
        ∧ ExpiresAt (t + k.balanceTtlSecs) v.state) hkeep ⟨hstart, hexp⟩
      (fun c v hno ⟨⟨hk, hf⟩, hx⟩ hfit =>
        ⟨⟨(exec_behaves (hk.workable hf) c).path.kept hk, hfit⟩,
          exec_expiresAt (hk.workable hf) hno hx⟩)
    refine ⟨t, ht, fun c id hlate henters => ?_⟩
    obtain ⟨snap', t', hs', ⟨n, hlo, hhi, rfl⟩, hlive, _⟩ :=
      hentry hend henters hmode
    obtain rfl := Option.some.inj (hs.symm.trans hs')
    have hpast := hlate n hlo hhi
    omega
  · intro hstatus hdeposits c id henters
    obtain ⟨hend, hmode, snap, hs, heq⟩ := hcalls.invariantThroughout
      (P := fun c v => ¬Reconfigures host c v ∧ ¬Confirms host c v)
      (I := fun v => (Kept v.state ∧ Fits v) ∧ Unconfirmed v.state)
      (throughout_and hkeep hdeposits) ⟨hstart, hest hstatus⟩
      (fun c v hno ⟨⟨hk, hf⟩, hx⟩ hfit =>
        ⟨⟨(exec_behaves (hk.workable hf) c).path.kept hk, hfit⟩,
          exec_unconfirmed (hk.workable hf) hno.1 hno.2 hx⟩)
    obtain ⟨snap', _, hs', _, _, hconfirmed⟩ := hentry hend henters hmode
    obtain rfl := Option.some.inj (hs.symm.trans hs')
    exact hconfirmed heq

/-- The owner configures the card with a balance that is only estimated, and
    then creates an agent. -/
def estimating (owner : String) : Call :=
  .request owner (.ownerConfigureManualProvider
    { prepaidCard with
      autonomousCheckout := false, balanceStatus := .estimated })

/-- After an estimated balance an agent buys nothing. -/
theorem unconfirmed_authorizes_nothing_estimated :
    ∃ owner w0 w v, TreasuryRun soundHost owner w0 [] w
      ∧ Calls soundHost (exec soundHost (estimating owner) w)
        (opening smallPurchase owner) v
      ∧ ∀ c id, ¬Enters v (exec soundHost c v) id := by
  have h : tryRun soundHost ⟨50000, "CAD"⟩ (fun _ => []) (fun w =>
      let conf := estimating (bootstrapToken soundHost)
      let u := exec soundHost conf w
      decide (Succeeds soundHost conf w ∧ Fits u)
        && (runCalls soundHost u
          (opening smallPurchase (bootstrapToken soundHost))).isSome)
      = true := by
    decide +kernel
  obtain ⟨owner, w0, w, hrun, hcheck⟩ := tryRun_run h
  obtain ⟨balance, hs⟩ := hrun.balance
  obtain rfl := hs.capability
  rw [Bool.and_eq_true] at hcheck
  obtain ⟨hok, hfit⟩ := of_decide_eq_true hcheck.1
  obtain ⟨v, hv⟩ := Option.isSome_iff_exists.mp hcheck.2
  have hcalls := runCalls_calls .nil hv
  refine ⟨_, w0, w, v, hrun, hcalls, ?_⟩
  refine (unconfirmed_authorizes_nothing hrun rfl hok hfit hcalls ?_).2 rfl ?_
  · refine ⟨?_, ?_, trivial⟩
    · rintro ⟨⟨_, _, hc⟩, _⟩
      cases hc
    · rintro ⟨⟨_, _, hc⟩, _⟩
      cases hc
  · refine ⟨?_, ?_, trivial⟩
    · rintro ⟨⟨_, _, _, _, _, hc⟩, _⟩
      cases hc
    · rintro ⟨⟨_, _, _, _, _, hc⟩, _⟩
      cases hc

/-- The first intent after an estimated card and a verified deposit. -/
def depositedIntent : String := idOfDraw soundHost "intent" 7

/-- An estimated card, an agent, a verified deposit of one cent, a purchase,
    and the owner's approval. -/
def estimatedOpening (owner : String) : List Call :=
  [estimating owner, agentWith Policy.conservativeDemo owner,
    .request owner (.ownerRecordDeposit ⟨1, "CAD"⟩ "s" true
      (some (idOfDraw soundHost "agent" 4)) "r"),
    .request agentToken (.createPurchaseIntent smallPurchase),
    .request owner (.ownerApproveIntent depositedIntent)]

-- one cent confirms a balance: the exception of a verified deposit is needed,
-- for after it the approved purchase enters execution
example : tryRun soundHost ⟨50000, "CAD"⟩ estimatedOpening (fun w =>
    ((exec soundHost (.request (bootstrapToken soundHost)
      (.ownerBeginManualHandoff depositedIntent)) w).log.drop
        w.log.length).any (isEntry depositedIntent)) = true := by
  decide +kernel

end Treasury
