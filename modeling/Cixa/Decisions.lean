import Cixa.Runs

/-! # Decisions — what a decision that is not denied has checked

    A decision is DENIED when it neither allows a purchase nor leaves it to
    the owner.  Every check adds a reason, and one reason denies: so a
    decision that is not denied says that every check of the policy passed,
    and that the ledger, the provider and the ceiling were all large enough.
    This is the only place that reads the policy's list of reasons; what
    follows from a reservation follows from `Passed`. -/

namespace Treasury

open CixaData CixaHost Outcome Checks

variable {host : Host} {s : TreasuryState} {r : AgentRecord} {p : Policy}
  {request : PurchaseRequest} {used : BudgetUsage}

/-- The purchase may go ahead, at once or with the owner's approval. -/
def Undenied (d : PolicyDecision) : Prop :=
  d.allowed = true ∨ d.requiresApproval = true

/-! ## Reasons -/

theorem reasonIf_eq_nil {c : Prop} [Decidable c] {reason : String} :
    Policy.reasonIf c reason = [] ↔ ¬c := by
  unfold Policy.reasonIf
  by_cases hc : c
  · simp [hc]
  · simp [hc]

/-- One reason denies. -/
theorem decisionOf_undenied {version : Nat} {reasons : List String}
    {approval : Bool} :
    Undenied (Policy.decisionOf version reasons approval) ↔ reasons = [] := by
  unfold Undenied Policy.decisionOf
  by_cases h : reasons = []
  · cases approval <;> simp [h]
  · simp [h]

/-- Denying is the last word. -/
theorem denyIf_undenied {c : Prop} [Decidable c] {reason : String}
    {d : PolicyDecision} :
    Undenied (denyIf c reason d) ↔ ¬c ∧ Undenied d := by
  unfold denyIf
  by_cases hc : c
  · simp [hc, Undenied, deny]
  · simp [hc]

theorem denyIf_of_not {c : Prop} [Decidable c] {reason : String}
    {d : PolicyDecision} (hc : ¬c) : denyIf c reason d = d := by
  unfold denyIf
  rw [if_neg hc]

/-! ## The checks -/

/-- Every limit of the policy leaves room for the total. -/
structure WithinLimits (p : Policy) (total : Money) (used : BudgetUsage) :
    Prop where
  transaction : total.minor ≤ p.maxPerTransaction.minor
  session : used.sessionAmount.minor + total.minor ≤ p.maxPerSession.minor
  rolling : used.rolling24hAmount.minor + total.minor ≤ p.maxRolling24h.minor
  lifetime : used.lifetimeAmount.minor + total.minor ≤ p.maxLifetime.minor
  rate : used.recentTransactionCount < p.maxTransactionsPerMinute

/-- A manual balance that has room for a total besides what is reserved. -/
structure ManualRoom (s : TreasuryState) (total : Money)
    (m : ManualPrepaidCardProvider) (snap : ManualBalanceSnapshot) : Prop where
  provider : s.manualProvider = some m
  snapshot : m.balanceSnapshot = some snap
  room : ∃ ledger, ledgerSnapshot s snap.amount.currency = .ok ledger
    ∧ total.minor ≤ snap.amount.minor - ledger.reservedAmount.minor

/-- **WHAT WAS CHECKED** when a purchase is not denied. -/
structure Passed (s : TreasuryState) (r : AgentRecord) (p : Policy)
    (request : PurchaseRequest) (used : BudgetUsage) : Prop where
  valid : request.validate p = .ok ⟨⟩
  running : s.emergencyStop = false
  armed : r.mode ≠ .observe ∧ r.mode ≠ .disabled
  currency : request.finalTotal.currency = p.primaryCurrency
  limits : WithinLimits p request.finalTotal used
  authority : ∃ ledger, ledgerSnapshot s p.primaryCurrency = .ok ledger
    ∧ request.finalTotal.minor ≤ ledger.availableAuthority.minor
  balance : s.providerMode = .manualPrepaidCard →
    ∃ m snap, ManualRoom s request.finalTotal m snap
  ceiling : used.lifetimeAmount.minor + request.finalTotal.minor
    ≤ p.absoluteExposureCeiling.minor

/-- Adding succeeds in one currency and in range, and is exact. -/
theorem checkedAdd_ok {a b c : Money} : a.checkedAdd b = .ok c
    ↔ b.currency = a.currency ∧ I64.Fits (a.minor + b.minor)
      ∧ c = ⟨a.minor + b.minor, a.currency⟩ := by
  unfold Money.checkedAdd Money.sameCurrency
  simp only [bind_eq_ok, refuseIf_eq_ok, orRefuse_eq_ok, pure_eq_ok,
    I64.checkedAdd_eq_some]
  constructor
  · rintro ⟨_, hsame, _, ⟨hfits, rfl⟩, rfl⟩
    exact ⟨(not_not.mp hsame).symm, hfits, rfl⟩
  · rintro ⟨hsame, hfits, rfl⟩
    exact ⟨⟨⟩, not_not.mpr hsame.symm, _, ⟨hfits, rfl⟩, rfl⟩

theorem checkedSub_ok {a b c : Money} : a.checkedSub b = .ok c
    ↔ b.currency = a.currency ∧ I64.Fits (a.minor - b.minor)
      ∧ c = ⟨a.minor - b.minor, a.currency⟩ := by
  unfold Money.checkedSub Money.sameCurrency
  simp only [bind_eq_ok, refuseIf_eq_ok, orRefuse_eq_ok, pure_eq_ok,
    I64.checkedSub_eq_some]
  constructor
  · rintro ⟨_, hsame, _, ⟨hfits, rfl⟩, rfl⟩
    exact ⟨(not_not.mp hsame).symm, hfits, rfl⟩
  · rintro ⟨hsame, hfits, rfl⟩
    exact ⟨⟨⟩, not_not.mpr hsame.symm, _, ⟨hfits, rfl⟩, rfl⟩

theorem checkedAdd_minor {a b c : Money} (h : a.checkedAdd b = .ok c) :
    c.minor = a.minor + b.minor ∧ c.currency = a.currency
      ∧ b.currency = a.currency := by
  obtain ⟨hcur, _, rfl⟩ := checkedAdd_ok.mp h
  exact ⟨rfl, rfl, hcur⟩

theorem checkedSub_minor {a b c : Money} (h : a.checkedSub b = .ok c) :
    c.minor = a.minor - b.minor ∧ c.currency = a.currency
      ∧ b.currency = a.currency := by
  obtain ⟨hcur, _, rfl⟩ := checkedSub_ok.mp h
  exact ⟨rfl, rfl, hcur⟩

/-- A valid request asks for a positive total. -/
theorem validate_positive (h : request.validate p = .ok ⟨⟩) :
    0 < request.amount.minor ∧ 0 < request.finalTotal.minor
      ∧ request.amount.currency = request.finalTotal.currency := by
  unfold PurchaseRequest.validate at h
  simp only [bind_eq_ok, refuseIf_eq_ok] at h
  obtain ⟨_, _, _, _, _, _, _, _, _, _, _, _, _, hpos, _, _, _, _, _, _, _, _,
    _, hcur, _⟩ := h
  obtain ⟨hamount, htotal⟩ := not_or.mp hpos
  exact ⟨not_le.mp hamount, not_le.mp htotal, not_not.mp hcur⟩

theorem limitReasons_nil {total : Money}
    (h : p.limitReasons total used = .ok [])
    (hcur : total.currency = p.primaryCurrency) : WithinLimits p total used := by
  unfold Policy.limitReasons at h
  rw [if_pos hcur] at h
  simp only [bind_eq_ok, pure_eq_ok, List.append_eq_nil_iff,
    reasonIf_eq_nil] at h
  obtain ⟨session, hsession, rolling, hrolling, lifetime, hlifetime,
    ⟨⟨⟨htrans, hses⟩, hroll⟩, hlife⟩, hrate⟩ := h
  rw [(checkedAdd_minor hsession).1] at hses
  rw [(checkedAdd_minor hrolling).1] at hroll
  rw [(checkedAdd_minor hlifetime).1] at hlife
  exact ⟨by omega, by omega, by omega, by omega, by omega⟩

/-! ## The decision of the policy -/

/-- The policy's own checks, when it does not deny. -/
structure Evaluated (s : TreasuryState) (mode : AutonomyMode) (p : Policy)
    (request : PurchaseRequest) (used : BudgetUsage) : Prop where
  valid : request.validate p = .ok ⟨⟩
  running : s.emergencyStop = false
  armed : mode ≠ .observe ∧ mode ≠ .disabled
  currency : request.finalTotal.currency = p.primaryCurrency
  limits : WithinLimits p request.finalTotal used

theorem evaluate_valid {mode : AutonomyMode} {known stop : Bool}
    {d : PolicyDecision}
    (h : p.evaluate host request used mode known stop = .ok d) :
    p.validate host = .ok ⟨⟩ ∧ request.validate p = .ok ⟨⟩ := by
  unfold Policy.evaluate at h
  simp only [bind_eq_ok] at h
  obtain ⟨_, hp, _, hr, _⟩ := h
  exact ⟨hp, hr⟩

theorem evaluate_undenied {mode : AutonomyMode} {known : Bool}
    {d : PolicyDecision}
    (h : p.evaluate host request used mode known s.emergencyStop = .ok d)
    (hd : Undenied d) : Evaluated s mode p request used := by
  have hvalid := (evaluate_valid h).2
  unfold Policy.evaluate at h
  simp only [bind_eq_ok, pure_eq_ok] at h
  obtain ⟨_, _, _, _, limits, hlimits, merchant, _, redirects, _, rfl⟩ := h
  -- no reason at all, so none of the state and none of the limits
  have hnil := decisionOf_undenied.mp hd
  simp only [List.append_eq_nil_iff] at hnil
  obtain ⟨⟨⟨hstate, rfl⟩, _⟩, _⟩ := hnil
  unfold Policy.stateReasons at hstate
  simp only [List.append_eq_nil_iff, reasonIf_eq_nil] at hstate
  obtain ⟨⟨⟨hstop, hmode⟩, _⟩, hcur⟩ := hstate
  have hcurrency := not_not.mp hcur
  exact ⟨hvalid, Bool.eq_false_iff.mpr hstop, not_or.mp hmode, hcurrency,
    limitReasons_nil hlimits hcurrency⟩

/-- What a decision that is not denied says: go ahead, or ask the owner. -/
theorem evaluate_says {mode : AutonomyMode} {known stop : Bool}
    {d : PolicyDecision}
    (h : p.evaluate host request used mode known stop = .ok d)
    (hd : Undenied d) :
    (d.allowed = true ∧ d.requiresApproval = false ∧ d.reasons = [])
      ∨ (d.allowed = false ∧ d.requiresApproval = true
        ∧ d.reasons = ["owner approval is required"]) := by
  unfold Policy.evaluate at h
  simp only [bind_eq_ok, pure_eq_ok] at h
  obtain ⟨_, _, _, _, limits, _, merchant, _, redirects, _, rfl⟩ := h
  have hnil := decisionOf_undenied.mp hd
  unfold Policy.decisionOf
  rw [if_neg (not_not.mpr hnil)]
  split
  · rename_i happroval
    rw [happroval]
    exact Or.inr ⟨rfl, rfl, rfl⟩
  · rename_i happroval
    rw [Bool.eq_false_iff.mpr happroval]
    exact Or.inl ⟨rfl, rfl, rfl⟩

/-! ## Authority -/

/-- What a manual provider has available is its balance less what is
    reserved. -/
theorem providerAvailableBalance_manual (w : World)
    (hm : s.providerMode = .manualPrepaidCard) :
    wp (providerAvailableBalance host s)
      (fun b _ => ∃ m snap ledger, s.manualProvider = some m
        ∧ m.balanceSnapshot = some snap
        ∧ ledgerSnapshot s snap.amount.currency = .ok ledger
        ∧ b.minor = snap.amount.minor - ledger.reservedAmount.minor)
      (fun _ _ => True) w := by
  unfold providerAvailableBalance
  rw [hm]
  refine line_orReject (fun _ => trivial) fun m hprovider => ?_
  refine line (P := fun b _ => ∃ snap, m.balanceSnapshot = some snap
    ∧ b = snap.amount) ?_ ?_
  · unfold ManualPrepaidCardProvider.availableBalance
    refine line_orReject (fun _ => trivial) fun snap hsnap => ?_
    rw [wp_bind, wp_now]
    refine line_rejectIf (fun _ => trivial) fun _ => ?_
    refine line_rejectIf (fun _ => trivial) fun _ => ?_
    rw [wp_pure]
    exact ⟨snap, hsnap, rfl⟩
  rintro _ w1 ⟨snap, hsnap, rfl⟩
  refine line_lift (fun _ => trivial) fun ledger hledger => ?_
  refine line_lift (fun _ => trivial) fun available hsub => ?_
  refine line_rejectIf (fun _ => trivial) fun _ => ?_
  rw [wp_pure]
  exact ⟨m, snap, ledger, hprovider, hsnap, hledger, (checkedSub_minor hsub).1⟩

/-- What enforcing authority adds to a decision it does not turn into a
    denial. -/
theorem enforceAuthority_spec (d : PolicyDecision) (w : World)
    (hcur : request.finalTotal.currency = p.primaryCurrency) :
    wp (enforceAuthority host s d request used p)
      (fun d' _ => Undenied d' → d' = d
        ∧ (∃ ledger, ledgerSnapshot s p.primaryCurrency = .ok ledger
          ∧ request.finalTotal.minor ≤ ledger.availableAuthority.minor)
        ∧ (s.providerMode = .manualPrepaidCard →
          ∃ m snap, ManualRoom s request.finalTotal m snap)
        ∧ used.lifetimeAmount.minor + request.finalTotal.minor
          ≤ p.absoluteExposureCeiling.minor)
      (fun _ _ => True) w := by
  unfold enforceAuthority
  rw [if_neg (not_not.mpr hcur)]
  dsimp only
  refine line_lift (fun _ => trivial) fun ledger hledger => ?_
  -- of a card what is held was taken off before the comparison
  refine line (P := fun b _ => s.providerMode = .manualPrepaidCard →
    request.finalTotal.minor ≤ b.minor →
      ∃ m snap, ManualRoom s request.finalTotal m snap) ?_ ?_
  · by_cases hm : s.providerMode = .manualPrepaidCard
    · refine wp_mono (providerAvailableBalance_manual w hm) ?_
        (fun _ _ _ => trivial)
      rintro b _ ⟨m, snap, ledger, hprovider, hsnap, hledger, hb⟩ _ hle
      exact ⟨m, snap, hprovider, hsnap, ledger, hledger, hb ▸ hle⟩
    · exact wp_mono ((providerAvailableBalance_quietly s).run w)
        (fun _ _ _ hmanual => absurd hmanual hm) (fun _ _ _ => trivial)
  intro balance w1 hroom
  refine line_lift (fun _ => trivial) fun configured _ => ?_
  refine line_lift (fun _ => trivial) fun lifetime hlifetime => ?_
  rw [wp_pure]
  intro hu
  -- an undenied decision passed each of the four checks
  obtain ⟨hceiling, hu⟩ := denyIf_undenied.mp hu
  obtain ⟨hsize, hu⟩ := denyIf_undenied.mp hu
  obtain ⟨hbalance, hu⟩ := denyIf_undenied.mp hu
  obtain ⟨hauthority, _⟩ := denyIf_undenied.mp hu
  rw [(checkedAdd_minor hlifetime).1] at hceiling
  refine ⟨?_, ⟨ledger, hledger, by omega⟩,
    fun hm => hroom hm (not_lt.mp hbalance), ?_⟩
  · rw [denyIf_of_not (by rw [(checkedAdd_minor hlifetime).1]; exact hceiling),
      denyIf_of_not hsize, denyIf_of_not hbalance, denyIf_of_not hauthority]
  · omega

/-- In another currency the decision stays, and the policy has denied it. -/
theorem enforceAuthority_foreign (d : PolicyDecision) (w : World)
    (hcur : request.finalTotal.currency ≠ p.primaryCurrency) :
    wp (enforceAuthority host s d request used p) (fun d' _ => d' = d)
      (fun _ _ => True) w := by
  unfold enforceAuthority
  rw [if_pos hcur, wp_pure]

/-! ## The whole decision -/

/-- What a decision says of its request: the policy evaluated it, and when it
    is not denied it is the policy's own and everything was checked. -/
def Decided (host : Host) (s : TreasuryState) (r : AgentRecord) (p : Policy)
    (request : PurchaseRequest) (used : BudgetUsage) (d : PolicyDecision) :
    Prop :=
  p.validate host = .ok ⟨⟩ ∧ request.validate p = .ok ⟨⟩
    ∧ (Undenied d → Passed s r p request used
      ∧ ∃ merchant, canonicalizeDomain host request.merchantDomain = .ok merchant
        ∧ p.evaluate host request used r.mode
          (p.allowedMerchants.contains merchant
            || r.approvedMerchants.contains merchant) s.emergencyStop = .ok d)

theorem decideRequest_spec (w : World) :
    wp (decideRequest host s r p request used)
      (fun d _ => Decided host s r p request used d) (fun _ _ => True) w := by
  unfold decideRequest
  refine line_lift (fun _ => trivial) fun merchant hmerchant => ?_
  dsimp only
  refine line (P := fun _ _ => True) ?_ ?_
  · exact wp_mono (Quietly.now.run w) (fun _ _ _ => trivial)
      (fun _ _ _ => trivial)
  intro _ w1 _
  refine line_lift (fun _ => trivial) fun d hd => ?_
  obtain ⟨hp, hr⟩ := evaluate_valid hd
  by_cases hcur : request.finalTotal.currency = p.primaryCurrency
  · refine wp_mono (enforceAuthority_spec d w1 hcur) ?_ (fun _ _ h => h)
    intro d' _ hd'
    refine ⟨hp, hr, fun hu => ?_⟩
    obtain ⟨rfl, hauthority, hbalance, hceiling⟩ := hd' hu
    obtain ⟨hvalid, hstop, hmode, _, hlimits⟩ := evaluate_undenied hd hu
    exact ⟨⟨hvalid, hstop, hmode, hcur, hlimits, hauthority, hbalance, hceiling⟩,
      merchant, hmerchant, hd⟩
  · refine wp_mono (enforceAuthority_foreign d w1 hcur) ?_ (fun _ _ h => h)
    rintro d' _ rfl
    refine ⟨hp, hr, fun hu => ?_⟩
    exact absurd (evaluate_undenied hd hu).currency hcur

/-- **EVERY DECISION** at execution is taken under the usage at one reading of
    the clock. -/
theorem decideExecution_spec (agentId : String) (i : PurchaseIntent)
    (w : World) :
    wp (decideExecution host s agentId r p i)
      (fun d w' => ∃ zero used t, ReadIn host w w' t
        ∧ BudgetUsage.zero p.primaryCurrency = .ok zero
        ∧ usageAt s agentId p.primaryCurrency t zero = .ok used
        ∧ Decided host s r p i.request used d) (fun _ _ => True) w := by
  unfold decideExecution usage
  rw [wp_bind]
  refine line_lift (fun _ => trivial) fun zero hzero => ?_
  refine line (P := fun t w1 => ReadIn host w w1 t) ?_ ?_
  · rw [wp_now]
    exact ⟨w.tick, le_refl _, Nat.lt_succ_self _, rfl⟩
  intro t w1 ht
  rw [wp_lift]
  refine ⟨fun _ _ => trivial, fun used hused => ?_⟩
  refine wp_mono (wp_and (decideRequest_spec w1)
    ((decideRequest_quietly s r p i.request used).run w1)) ?_
    (fun _ _ _ => trivial)
  rintro d w2 ⟨hd, hquiet⟩
  exact ⟨zero, used, t, ht.widen (.refl w) hquiet.toAdvance, hzero, hused, hd⟩

/-! ## Reasons of a whole decision -/

/-- A decision that does not allow says why. -/
def Reasoned (d : PolicyDecision) : Prop := d.allowed = true ∨ d.reasons ≠ []

theorem denyIf_reasoned {c : Prop} [Decidable c] {reason : String}
    {d : PolicyDecision} (h : Reasoned d) : Reasoned (denyIf c reason d) := by
  unfold denyIf
  split
  · exact Or.inr (by simp [deny])
  · exact h

theorem decisionOf_reasoned (version : Nat) (reasons : List String)
    (approval : Bool) :
    Reasoned (Policy.decisionOf version reasons approval) := by
  unfold Policy.decisionOf
  split
  · rename_i hreasons
    exact Or.inr hreasons
  · cases approval with
    | false => exact Or.inl rfl
    | true => exact Or.inr (by simp)

theorem evaluate_reasoned {mode : AutonomyMode} {known stop : Bool}
    {d : PolicyDecision}
    (h : p.evaluate host request used mode known stop = .ok d) :
    Reasoned d := by
  unfold Policy.evaluate at h
  simp only [Checks.bind_eq_ok, Checks.pure_eq_ok] at h
  obtain ⟨_, _, _, _, _, _, _, _, _, _, rfl⟩ := h
  exact decisionOf_reasoned _ _ _

theorem enforceAuthority_reasoned {d : PolicyDecision} {w : World}
    (h : Reasoned d) :
    wp (enforceAuthority host s d request used p) (fun d' _ => Reasoned d')
      (fun _ _ => True) w := by
  unfold enforceAuthority
  by_cases hcur : request.finalTotal.currency = p.primaryCurrency
  · rw [if_neg (not_not.mpr hcur)]
    dsimp only
    refine line_lift (fun _ => trivial) fun ledger _ => ?_
    refine line (P := fun _ _ => True) ?_ ?_
    · exact wp_mono ((providerAvailableBalance_quietly s).run w)
        (fun _ _ _ => trivial) (fun _ _ _ => trivial)
    intro balance w1 _
    refine line_lift (fun _ => trivial) fun configured _ => ?_
    refine line_lift (fun _ => trivial) fun lifetime _ => ?_
    rw [wp_pure]
    exact denyIf_reasoned (denyIf_reasoned (denyIf_reasoned
      (denyIf_reasoned h)))
  · rw [if_pos hcur, wp_pure]
    exact h

/-- Every decision on a request says why it does not allow. -/
theorem decideRequest_reasoned {w : World} :
    wp (decideRequest host s r p request used) (fun d _ => Reasoned d)
      (fun _ _ => True) w := by
  unfold decideRequest
  refine line_lift (fun _ => trivial) fun merchant _ => ?_
  dsimp only
  refine line (P := fun _ _ => True) ?_ ?_
  · exact wp_mono (Quietly.now.run w) (fun _ _ _ => trivial)
      (fun _ _ _ => trivial)
  intro _ w1 _
  refine line_lift (fun _ => trivial) fun d hd => ?_
  exact enforceAuthority_reasoned (evaluate_reasoned hd)

/-- The guards of a creation say why, too. -/
theorem guard_reasoned {d : PolicyDecision} {duplicate : Bool}
    (h : Reasoned d) : Reasoned (guardManual s (guardDuplicate duplicate d)) := by
  have hdup : Reasoned (guardDuplicate duplicate d) := by
    unfold guardDuplicate
    split
    · exact Or.inr (List.cons_ne_nil _ _)
    · exact h
  unfold guardManual
  split
  · exact Or.inr (List.cons_ne_nil _ _)
  · exact hdup

/-! ## Submitting -/

/-- An intent that can be submitted was not denied. -/
theorem submittable_undenied {i : PurchaseIntent} {d : PolicyDecision}
    (h : submittable i d = true) : Undenied d := by
  unfold submittable at h
  rw [Bool.or_eq_true, Bool.and_eq_true] at h
  exact h.imp_right And.right

/-- **A RESERVATION PASSED EVERY CHECK** under the usage at a reading of the
    clock during it. -/
theorem Reservable.passed {w w' : World} {i : PurchaseIntent}
    (h : Reservable host w w' i r p) : ∃ zero used t, ReadIn host w w' t
      ∧ BudgetUsage.zero p.primaryCurrency = .ok zero
      ∧ usageAt w.state i.agentId p.primaryCurrency t zero = .ok used
      ∧ Passed w.state r p i.request used := by
  obtain ⟨d, w1, w2, hquiet, htick, hrun, hsub⟩ := h.decided
  obtain ⟨zero, used, t, ⟨k, hlo, hhi, ht⟩, hzero, hused, hd⟩ :=
    wp_ok (decideExecution_spec i.agentId i w1) hrun
  have hstart := hquiet.tick
  exact ⟨zero, used, t, ⟨k, by omega, by omega, ht⟩, hzero, hused,
    (hd.2.2 (submittable_undenied hsub)).1⟩

/-- A new intent is for a valid request. -/
theorem NewIntent.valid {w w' : World} {i : PurchaseIntent}
    (h : NewIntent host w w' i) : ∃ r p, w.state.agents.get? i.agentId = some r
      ∧ w.state.policies.get? r.policyId = some p
      ∧ p.validate host = .ok ⟨⟩ ∧ i.request.validate p = .ok ⟨⟩ := by
  obtain ⟨r, p, hr, hp, _, _, used, d, _, w1, w2, _, _, _, hrun, _⟩ := h.agent
  obtain ⟨hpol, hreq, _⟩ := wp_ok (decideRequest_spec w1) hrun
  exact ⟨r, p, hr, hp, hpol, hreq⟩

end Treasury
