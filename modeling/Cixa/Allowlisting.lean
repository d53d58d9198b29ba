import Cixa.Tightening
import Cixa.Visibility
import Cixa.Revocation

/-! # Allowlisting — what the approval of a merchant changes

    The owner can trust a merchant in two ways: approve it for an agent, or
    put it on the allowlist of the agent's policy.  The two are MEANT to be
    one, but `evaluate` asks the approvals in one clause only: a policy whose
    allowlist names anybody still asks about an approved merchant that is not
    on it, or refuses it.

    `Moot` says exactly when the allowlist makes no difference. -/

namespace Treasury

open CixaData CixaHost Outcome Checks

variable {host : Host} {p : Policy} {r : PurchaseRequest}
  {used : BudgetUsage} {mode : AutonomyMode} {known stop : Bool}
  {m : String}

/-! ## The evaluation under another allowlist -/

/-- The policy with one merchant more on its allowlist. -/
def allowing (p : Policy) (m : String) : Policy :=
  { p with allowedMerchants := p.allowedMerchants.insert m () }

/-- What `evaluate` does once the policy itself is valid. -/
def judge (host : Host) (p : Policy) (r : PurchaseRequest)
    (used : BudgetUsage) (mode : AutonomyMode) (known stop : Bool) :
    Except TreasuryError PolicyDecision := do
  r.validate p
  let limits ← p.limitReasons r.finalTotal used
  let merchant ← canonicalizeDomain host r.merchantDomain
  let redirects ← p.redirectReasons host merchant r.redirectChain
  pure (Policy.decisionOf p.version
    (p.stateReasons r mode stop ++ limits ++ p.requestReasons r merchant
      ++ redirects)
    (p.asksOwner r mode known merchant))

theorem evaluate_judge (hp : p.validate host = .ok ⟨⟩) :
    p.evaluate host r used mode known stop
      = judge host p r used mode known stop := by
  unfold Policy.evaluate judge
  rw [hp, ok_bind]

/-- The request gets as far as the comparison of merchants. -/
structure Judged (host : Host) (p : Policy) (r : PurchaseRequest)
    (used : BudgetUsage) (m : String) (limits redirects : List String) :
    Prop where
  valid : r.validate p = .ok ⟨⟩
  limits : p.limitReasons r.finalTotal used = .ok limits
  merchant : canonicalizeDomain host r.merchantDomain = .ok m
  redirects : p.redirectReasons host m r.redirectChain = .ok redirects

theorem judge_of_judged {limits redirects : List String}
    (h : Judged host p r used m limits redirects) :
    judge host p r used mode known stop
      = .ok (Policy.decisionOf p.version
        (p.stateReasons r mode stop ++ limits ++ p.requestReasons r m
          ++ redirects) (p.asksOwner r mode known m)) := by
  unfold judge
  rw [h.valid, ok_bind, h.limits, ok_bind, h.merchant, ok_bind, h.redirects,
    ok_bind]
  rfl

/-- Whoever is on the allowlist, a request gets equally far. -/
theorem Judged.allowing {limits redirects : List String}
    (h : Judged host p r used m limits redirects) :
    Judged host (Treasury.allowing p m) r used m limits redirects :=
  ⟨h.valid, h.limits, h.merchant, h.redirects⟩

/-- Nothing before the comparison of merchants reads the allowlist. -/
theorem judge_unjudged
    (hm : canonicalizeDomain host r.merchantDomain = .ok m)
    (h : ∀ limits redirects, ¬Judged host p r used m limits redirects) :
    judge host p r used mode known stop
      = judge host (allowing p m) r used mode known stop := by
  have hvalid : r.validate (allowing p m) = r.validate p := rfl
  have hlimits : (allowing p m).limitReasons r.finalTotal used
      = p.limitReasons r.finalTotal used := rfl
  have hredirects : (allowing p m).redirectReasons host m r.redirectChain
      = p.redirectReasons host m r.redirectChain := rfl
  unfold judge
  rw [hvalid, hlimits, hm]
  cases hv : r.validate p with
  | error e => rw [error_bind, error_bind]
  | ok _ =>
      rw [ok_bind, ok_bind]
      cases hl : p.limitReasons r.finalTotal used with
      | error e => rw [error_bind, error_bind]
      | ok limits =>
          rw [ok_bind, ok_bind, ok_bind, ok_bind, hredirects]
          cases hr : p.redirectReasons host m r.redirectChain with
          | error e => rw [error_bind, error_bind]
          | ok redirects => exact absurd ⟨hv, hl, hm, hr⟩ (h limits redirects)

/-! ## When the allowlist makes no difference -/

/-- What asks for the owner whoever the merchant is. -/
def asksAnyway (r : PurchaseRequest) (mode : AutonomyMode) : Bool :=
  decide (r.paymentForm = .merchantControlled) || Policy.scenarioAsksOwner r.scenario
    || decide (mode = .approvalRequired)

/-- The policy has an allowlist and the merchant is not on it. -/
def Unlisted (p : Policy) (m : String) : Prop :=
  p.allowedMerchants.size ≠ 0 ∧ p.allowedMerchants.contains m = false

instance : Decidable (Unlisted p m) :=
  inferInstanceAs (Decidable (_ ∧ _))

/-- **MOOT**: whether an approved merchant is on the allowlist makes no
    difference.  It is on it, or there is none; or the request fails before
    merchants are compared; or the policy asks about new merchants, and the
    request is refused or put to the owner for another reason. -/
def Moot (host : Host) (p : Policy) (r : PurchaseRequest)
    (used : BudgetUsage) (mode : AutonomyMode) (stop : Bool) (m : String) :
    Prop :=
  ¬Unlisted p m
    ∨ (∀ limits redirects, ¬Judged host p r used m limits redirects)
    ∨ (p.requireApprovalForNewMerchants = true
      ∧ (¬Clear host p r used mode stop m ∨ asksAnyway r mode = true))

theorem decisionOf_eq {version : Nat} {reasons reasons' : List String}
    {approval approval' : Bool} :
    Policy.decisionOf version reasons approval
        = Policy.decisionOf version reasons' approval'
      ↔ reasons = reasons' ∧ (reasons = [] → approval = approval') := by
  unfold Policy.decisionOf
  by_cases h : reasons = []
  · by_cases h' : reasons' = []
    · cases approval <;> cases approval' <;> simp [h, h']
    · cases approval <;> simp [h, h', eq_comm]
  · by_cases h' : reasons' = []
    · cases approval' <;> simp [h, h']
    · simp [h, h']

/-- The denials by the request's own claims, whoever the merchant is. -/
def claimReasons (p : Policy) (r : PurchaseRequest) : List String :=
  Policy.reasonIf (p.approvedFulfillmentProfiles.contains r.fulfillmentProfile
        = false) "fulfillment profile is not approved"
    ++ (Policy.reasonIf ((r.recurring = true ∨ r.trialAutoRenew = true)
        ∧ (p.allowRecurring = false
          ∨ (r.trialAutoRenew = true ∧ p.allowTrials = false)))
      "recurring or auto-renewing purchase is denied"
    ++ (Policy.reasonIf (r.storedCard = true ∧ p.allowStoredCard = false)
      "stored-card consent is denied"
    ++ (Policy.reasonIf (r.tipMinor > 0 ∧ p.allowTips = false)
      "tips and open-ended totals are denied"
    ++ (Policy.reasonIf (r.preauthorization = true
        ∧ p.allowPreauthorization = false) "preauthorizations are denied"
    ++ (Policy.reasonIf (r.installments = true ∧ p.allowInstallments = false)
      "installments and buy-now-pay-later are denied"
    ++ (Policy.reasonIf (p.deniedCategories.contains r.category = true)
      ("category " ++ r.category ++ " is denied")
    ++ Policy.reasonIf (r.redirectChain.length > p.maxRedirects)
      "redirect limit exceeded"))))))

/-- One reason of a request reads the allowlist. -/
theorem requestReasons_eq : p.requestReasons r m =
    Policy.reasonIf (p.deniedMerchants.contains m = true)
        "merchant is explicitly denied"
      ++ (Policy.reasonIf (p.allowedMerchants.size ≠ 0
          ∧ p.allowedMerchants.contains m = false
          ∧ p.requireApprovalForNewMerchants = false)
        "merchant is not allowlisted" ++ claimReasons p r) := by
  unfold Policy.requestReasons claimReasons
  simp only [List.append_assoc]

theorem allowing_listed : (allowing p m).allowedMerchants.contains m = true := by
  show (p.allowedMerchants.insert m ()).contains m = true
  rw [SortedMap.contains_insert, decide_eq_true rfl, Bool.true_or]

theorem requestReasons_allowing : (allowing p m).requestReasons r m =
    Policy.reasonIf (p.deniedMerchants.contains m = true)
        "merchant is explicitly denied" ++ claimReasons p r := by
  have hnone : Policy.reasonIf ((allowing p m).allowedMerchants.size ≠ 0
      ∧ (allowing p m).allowedMerchants.contains m = false
      ∧ (allowing p m).requireApprovalForNewMerchants = false)
      "merchant is not allowlisted" = [] := by
    rw [reasonIf_eq_nil, allowing_listed]
    exact fun h => nomatch h.2.1
  rw [requestReasons_eq, hnone]
  rfl

theorem asksOwner_approved :
    p.asksOwner r mode true m
      = (decide (Unlisted p m) && p.requireApprovalForNewMerchants
        || asksAnyway r mode) := by
  have hunlisted : decide (Unlisted p m)
      = (decide (p.allowedMerchants.size ≠ 0)
        && !p.allowedMerchants.contains m) := by
    rw [Bool.eq_iff_iff, decide_eq_true_iff, Bool.and_eq_true,
      decide_eq_true_iff, Bool.not_eq_true']
    exact Iff.rfl
  rw [hunlisted]
  unfold Policy.asksOwner asksAnyway
  rw [Bool.not_true, Bool.false_and, Bool.false_and, Bool.or_false,
    Bool.or_assoc, Bool.or_assoc, Bool.or_assoc]

theorem asksOwner_allowing :
    (allowing p m).asksOwner r mode true m = asksAnyway r mode := by
  have hlisted : ¬Unlisted (allowing p m) m := fun h =>
    nomatch allowing_listed.symm.trans h.2
  rw [asksOwner_approved, decide_eq_false hlisted, Bool.false_and,
    Bool.false_or]

/-- With nothing found, what got as far as the merchants is clear. -/
theorem Judged.clear {limits redirects : List String}
    (h : Judged host p r used m limits redirects) :
    p.stateReasons r mode stop ++ limits ++ p.requestReasons r m ++ redirects
        = [] ↔ Clear host p r used mode stop m := by
  simp only [List.append_eq_nil_iff]
  constructor
  · rintro ⟨⟨⟨hstate, rfl⟩, hrequest⟩, rfl⟩
    exact ⟨h.valid, h.merchant, hstate, h.limits, hrequest, h.redirects⟩
  · intro hc
    exact ⟨⟨⟨hc.state, Except.ok.inj (h.limits.symm.trans hc.limits)⟩,
      hc.request⟩, Except.ok.inj (h.redirects.symm.trans hc.redirects)⟩

/-- The reasons with and without the allowlist are the same exactly when the
    one that reads it is silent. -/
theorem reasons_listed {before after : List String} :
    before ++ p.requestReasons r m ++ after
        = before ++ (allowing p m).requestReasons r m ++ after
      ↔ ¬(Unlisted p m ∧ p.requireApprovalForNewMerchants = false) := by
  rw [List.append_cancel_right_eq, List.append_cancel_left_eq,
    requestReasons_allowing, requestReasons_eq, List.append_cancel_left_eq,
    List.append_left_eq_self, reasonIf_eq_nil, Unlisted, and_assoc]

/-! ## Approved or listed -/

/-- **APPROVED AS LISTED**: an approved merchant is decided as if it were on
    the allowlist exactly when the allowlist is moot. -/
theorem approved_as_listed (hp : p.validate host = .ok ⟨⟩)
    (hm : canonicalizeDomain host r.merchantDomain = .ok m) :
    p.evaluate host r used mode true stop
        = judge host (allowing p m) r used mode true stop
      ↔ Moot host p r used mode stop m := by
  rw [evaluate_judge hp]
  by_cases hj : ∃ limits redirects, Judged host p r used m limits redirects
  · obtain ⟨limits, redirects, hj⟩ := hj
    rw [judge_of_judged hj, judge_of_judged hj.allowing, Except.ok.injEq]
    refine Iff.trans decisionOf_eq ?_
    rw [asksOwner_approved, asksOwner_allowing, hj.clear]
    refine Iff.trans (and_congr_left' reasons_listed) ?_
    constructor
    · rintro ⟨hsilent, hasks⟩
      by_cases hun : Unlisted p m
      · have hreq : p.requireApprovalForNewMerchants = true :=
          Bool.not_eq_false _ |>.mp fun h => hsilent ⟨hun, h⟩
        refine Or.inr (Or.inr ⟨hreq, ?_⟩)
        by_cases hclear : Clear host p r used mode stop m
        · right
          rw [← hasks hclear, decide_eq_true hun, hreq]
          rfl
        · exact Or.inl hclear
      · exact Or.inl hun
    · rintro (hun | hnot | ⟨hreq, hmoot⟩)
      · refine ⟨fun h => hun h.1, fun _ => ?_⟩
        rw [decide_eq_false hun, Bool.false_and, Bool.false_or]
      · exact absurd hj (hnot limits redirects)
      · refine ⟨fun h => (nomatch hreq.symm.trans h.2), fun hclear => ?_⟩
        rcases hmoot with hnot | hasks
        · exact absurd hclear hnot
        · rw [hasks, Bool.or_true]
  · have hnot : ∀ limits redirects,
        ¬Judged host p r used m limits redirects :=
      fun limits redirects h => hj ⟨limits, redirects, h⟩
    exact ⟨fun _ => Or.inr (Or.inl hnot), fun _ => judge_unjudged hm hnot⟩

/-! ## The approval and what comes after it -/

section Approving

variable {w w' : World} {agent : String} {l : Label} {c : Call}

/-- What the approval of a merchant for an agent does to the state. -/
def MerchantApproved (agent m : String) (s s' : TreasuryState) : Prop :=
  ∃ record, s.agents.get? agent = some record
    ∧ s' = { s with
        agents := s.agents.insert agent { record with
          approvedMerchants := record.approvedMerchants.insert m () }
        generation := s'.generation
        audit := s'.audit }

theorem ownerApproveMerchant_approves {actor : Actor} {domain : String}
    (hm : canonicalizeDomain host domain = .ok m) :
    wp (ownerApproveMerchant host actor agent domain)
      (fun _ w' => MerchantApproved agent m w.state w'.state)
      (fun _ _ => True) w := by
  unfold ownerApproveMerchant
  rw [wp_bind, wp_readState]
  refine line_lift (fun _ => trivial) fun _ _ => ?_
  refine line_lift (fun _ => trivial) fun merchant hmerchant => ?_
  obtain rfl : m = merchant := Except.ok.inj (hm.symm.trans hmerchant)
  refine line_orReject (fun _ => trivial) fun record hrecord => ?_
  dsimp only
  rw [wp_ite, wp_pure]
  constructor
  · -- an approval that is there already changes nothing
    intro hin
    obtain ⟨_, hget⟩ := SortedMap.contains_iff.mp hin
    refine ⟨record, hrecord, ?_⟩
    rw [SortedMap.insert_of_get? (v := ()) hget,
      SortedMap.insert_of_get? hrecord]
  · intro _
    refine line_rejectIf (fun _ => trivial) fun _ => ?_
    rw [wp_bind, wp_putAgent, wp_bind]
    refine wp_audit (fun _ => trivial) fun _ => ?_
    rw [wp_pure]
    exact ⟨record, hrecord, rfl⟩

/-- An accepted approval, saved or not. -/
theorem approval_approves {token domain : String}
    (hc : c.asks = some (token, .ownerApproveMerchant agent domain))
    (hm : canonicalizeDomain host domain = .ok m)
    (hok : Succeeds host c w) :
    MerchantApproved agent m w.state (exec host c w).state := by
  refine hok.leaves (P := fun s => MerchantApproved agent m w.state s) hc rfl ?_
  unfold handle
  refine line_quiet (authenticate_quietly token) (fun _ _ _ => trivial)
    fun actor a ha => ?_
  rw [← ha.state]
  exact ownerApproveMerchant_approves hm

/-- The agent, whatever has become of it, has the merchant approved. -/
def Trusts (s : TreasuryState) (agent m : String) : Prop :=
  ∃ record, s.agents.get? agent = some record
    ∧ record.approvedMerchants.contains m = true

theorem MerchantApproved.trusts {s s' : TreasuryState}
    (h : MerchantApproved agent m s s') : Trusts s' agent m := by
  obtain ⟨record, _, hs⟩ := h
  refine ⟨_, by rw [hs]; exact SortedMap.get?_insert_self .., ?_⟩
  rw [SortedMap.contains_insert, decide_eq_true rfl, Bool.true_or]

/-- No edit takes an approval back. -/
theorem Edited.merchants {record record' : AgentRecord} {edit : AgentEdit}
    (h : Edited host w w' record edit record')
    (hm : record.approvedMerchants.contains m = true) :
    record'.approvedMerchants.contains m = true := by
  cases h with
  | approveMerchant _ _ _ =>
      rw [SortedMap.contains_insert, hm, Bool.or_true]
  | _ => exact hm

/-- **TRUST LASTS**: no change takes an approval back. -/
theorem Change.trusts (h : Change host l w w') (hd : AllDrawn host w)
    (hfresh : FreshBelow host w'.drawn) (ht : Trusts w.state agent m) :
    Trusts w'.state agent m := by
  obtain ⟨record, hrecord, hin⟩ := ht
  rcases h.agents with heq | ⟨id, _, _, record', _, hid, hn, heq⟩
    | ⟨id, _, old, record', _, hold, he, heq⟩
  · exact ⟨record, heq ▸ hrecord, hin⟩
  · refine ⟨record, ?_, hin⟩
    have hne : agent ≠ id := by
      rintro rfl
      have hnone := hn.unstored hd hfresh
      rw [hid] at hnone
      exact nomatch hrecord.symm.trans hnone
    rw [heq, SortedMap.get?_insert_of_ne _ _ hne]
    exact hrecord
  · by_cases hid : agent = id
    · subst hid
      obtain rfl : record = old := Option.some.inj (hrecord.symm.trans hold)
      exact ⟨record', by rw [heq]; exact SortedMap.get?_insert_self ..,
        he.merchants hin⟩
    · refine ⟨record, ?_, hin⟩
      rw [heq, SortedMap.get?_insert_of_ne _ _ hid]
      exact hrecord

theorem Path.trusts {allowed : Label → Prop} (h : Path host allowed w w')
    (hd : AllDrawn host w) (hfresh : FreshBelow host w'.drawn)
    (ht : Trusts w.state agent m) : Trusts w'.state agent m := by
  refine (h.invariant (I := fun v => AllDrawn host v
    ∧ (v.drawn ≤ w'.drawn → Trusts v.state agent m)) ?_ ?_
    ⟨hd, fun _ => ht⟩).2 (Nat.le_refl _)
  · rintro l a b _ hc ⟨ha, hta⟩
    refine ⟨hc.allDrawn ha, fun hle => ?_⟩
    have hdrawn := hc.advance.drawn
    exact hc.trusts ha (hfresh.mono hle) (hta (Nat.le_trans hdrawn hle))
  · rintro a b hp ⟨ha, hta⟩ _
    have hadv := hp.advance
    exact ⟨ha.restore hadv, fun hle => hta (Nat.le_trans hadv.drawn hle)⟩

/-! ## The decisions -/

/-- With an approved merchant, creation and execution decide by an evaluation
    that knows the merchant. -/
theorem decideRequest_trusted {s : TreasuryState} {record : AgentRecord}
    (hm : canonicalizeDomain host r.merchantDomain = .ok m)
    (ht : record.approvedMerchants.contains m = true) :
    decideRequest host s record p r used = (do
      let _ ← now host
      let d ← lift (p.evaluate host r used record.mode true s.emergencyStop)
      enforceAuthority host s d r used p) := by
  unfold decideRequest
  simp only [hm, lift_ok_bind, ht, Bool.or_true]

/-- An explicit denial stays one. -/
theorem evaluate_denied
    (hm : canonicalizeDomain host r.merchantDomain = .ok m)
    (hdenied : p.deniedMerchants.contains m = true) :
    verdictOf (p.evaluate host r used mode known stop) = .refused := by
  by_contra hnot
  obtain ⟨merchant, hclear⟩ := clear_of_evaluate hnot
  obtain rfl : m = merchant := Except.ok.inj (hm.symm.trans hclear.canonical)
  have hnil := hclear.request
  rw [requestReasons_eq, List.append_eq_nil_iff, reasonIf_eq_nil] at hnil
  exact hnil.1 hdenied

/-- An approval leaves the budgets as they are. -/
theorem MerchantApproved.usage {s s' : TreasuryState} {other currency : String}
    (h : MerchantApproved agent m s s') :
    Treasury.usage host s' other currency
      = Treasury.usage host s other currency := by
  obtain ⟨record, hrecord, hs⟩ := h
  have hagent : ∀ (k : AgentRecord → Except TreasuryError BudgetUsage),
      (∀ a b : AgentRecord, a.brokerSessionId = b.brokerSessionId → k a = k b) →
      (Treasury.agent s' other >>= k) = (Treasury.agent s other >>= k) := by
    intro k hk
    unfold Treasury.agent
    rw [hs]
    show (orRefuse ((s.agents.insert agent _).get? other) _ >>= k) = _
    rw [SortedMap.get?_insert]
    split
    · rename_i hsame
      rw [hsame, hrecord]
      exact hk _ _ rfl
    · rfl
  have husage : ∀ at_ zero, usageAt s' other currency at_ zero
      = usageAt s other currency at_ zero := by
    intro at_ zero
    unfold usageAt
    refine Eq.trans (hagent _ fun a b hab => by rw [hab]) ?_
    rw [hs]
    rfl
  unfold Treasury.usage
  simp only [husage]

/-- An approval leaves a decision that does not ask about it as it is. -/
theorem MerchantApproved.decides {s s' : TreasuryState} {other merchant : String}
    {record record' : AgentRecord} (h : MerchantApproved agent m s s')
    (hr : s.agents.get? other = some record)
    (hr' : s'.agents.get? other = some record')
    (hm : canonicalizeDomain host r.merchantDomain = .ok merchant)
    (hne : other ≠ agent ∨ merchant ≠ m) :
    decideRequest host s' record' p r used
      = decideRequest host s record p r used := by
  obtain ⟨old, hold, hs⟩ := h
  have hsame : record'.mode = record.mode
      ∧ record'.approvedMerchants.contains merchant
        = record.approvedMerchants.contains merchant := by
    rw [hs] at hr'
    have hget : (s.agents.insert agent _).get? other = some record' := hr'
    rw [SortedMap.get?_insert] at hget
    split at hget
    · rename_i hid
      subst hid
      obtain rfl : record = old := Option.some.inj (hr.symm.trans hold)
      rw [← Option.some.inj hget]
      refine ⟨rfl, ?_⟩
      rw [SortedMap.contains_insert,
        decide_eq_false (hne.resolve_left (fun hn => hn rfl)), Bool.false_or]
    · rw [Option.some.inj (hr.symm.trans hget)]
      exact ⟨rfl, rfl⟩
  have hauthority : ∀ d, enforceAuthority host s' d r used p
      = enforceAuthority host s d r used p := by
    intro d
    rw [hs]
    rfl
  have hstop : s'.emergencyStop = s.emergencyStop := by rw [hs]
  unfold decideRequest
  simp only [hm, lift_ok_bind, hsame.1, hsame.2, hstop, hauthority]

/-- **APPROVAL AND ALLOWLIST**: from an accepted approval on, creation and
    execution decide a purchase from the merchant by an evaluation that knows
    it.  That evaluation is the one with the merchant on the allowlist exactly
    when the allowlist is moot; a merchant that is explicitly denied stays
    refused; and the approval changes no decision for another agent or
    another merchant.  The comparison is made AT THE EVALUATION: what creation
    does with the decision afterwards, the guard against duplicates and the
    override for a manual card, can ask the owner still. -/
theorem approval_is_allowlisting {owner token domain : String} {w0 : World}
    {cs ds : List Call} {approve : Call}
    (hrun : TreasuryRun host owner w0 cs w)
    (happrove : approve.asks = some (token, .ownerApproveMerchant agent domain))
    (hm : canonicalizeDomain host domain = .ok m)
    (hok : Succeeds host approve w) (hfit : Fits (exec host approve w))
    (hcalls : Calls host (exec host approve w) ds w')
    (hfresh : FreshBelow host w'.drawn) {record : AgentRecord} {p : Policy}
    (hrecord : w'.state.agents.get? agent = some record)
    (hp : w'.state.policies.get? record.policyId = some p) :
    (∀ r used, canonicalizeDomain host r.merchantDomain = .ok m →
      decideRequest host w'.state record p r used = (do
          let _ ← now host
          let d ← lift (p.evaluate host r used record.mode true
            w'.state.emergencyStop)
          enforceAuthority host w'.state d r used p)
        ∧ (p.evaluate host r used record.mode true w'.state.emergencyStop
            = judge host (allowing p m) r used record.mode true
              w'.state.emergencyStop
          ↔ Moot host p r used record.mode w'.state.emergencyStop m)
        ∧ (p.deniedMerchants.contains m = true →
          verdictOf (p.evaluate host r used record.mode true
            w'.state.emergencyStop) = .refused))
      ∧ ∀ other before after q r used merchant,
        other ≠ agent ∨ merchant ≠ m →
        w.state.agents.get? other = some before →
        (exec host approve w).state.agents.get? other = some after →
        canonicalizeDomain host r.merchantDomain = .ok merchant →
        decideRequest host (exec host approve w).state after q r used
            = decideRequest host w.state before q r used
          ∧ usage host (exec host approve w).state other q.primaryCurrency
            = usage host w.state other q.primaryCurrency := by
  have hrun' := hrun.andThen approve hfit hcalls
  have happroved := approval_approves happrove hm hok
  obtain ⟨hkept, hfits⟩ := hrun.kept
  have hbehaves : Behaves host w _ approve :=
    exec_behaves (hkept.workable hfits) approve
  have hpath := hcalls.path (hbehaves.path.kept hkept) hfit
  have hdrawn := hbehaves.path.allDrawn hrun.allDrawn
  -- no call takes an approval back
  obtain ⟨record', hrecord', hin⟩ :=
    hpath.trusts hdrawn hfresh happroved.trusts
  obtain rfl : record = record' :=
    Option.some.inj (hrecord.symm.trans hrecord')
  obtain ⟨p', hp', hvalid⟩ := hrun'.governed agent record hrecord
  obtain rfl : p = p' := Option.some.inj (hp.symm.trans hp')
  constructor
  · intro r used hr
    exact ⟨decideRequest_trusted hr hin, approved_as_listed hvalid hr,
      evaluate_denied hr⟩
  · intro other before after q r used merchant hne hb ha hr
    exact ⟨happroved.decides hb ha hr hne, happroved.usage⟩

end Approving

/-- The owner approves a second merchant for the first agent. -/
def approveOther (owner : String) : Call :=
  .request owner (.ownerApproveMerchant (idOfDraw stillHost "agent" 4)
    "other.example.test")

/-- A purchase from the second merchant. -/
def otherPurchase : PurchaseRequest :=
  { smallPurchase with merchantDomain := "other.example.test" }

/-- Nothing used. -/
def unused : BudgetUsage :=
  ⟨⟨0, "CAD"⟩, ⟨0, "CAD"⟩, ⟨0, "CAD"⟩, ⟨0, "CAD"⟩, 0⟩

/-- The owner creates an agent under the demonstration policy, which lists one
    merchant, and lets it act with approvals only. -/
def cautious (owner : String) : List Call :=
  [agentWith Policy.conservativeDemo owner,
    .request owner (.ownerSetAgentMode (idOfDraw stillHost "agent" 4)
      .approvalRequired)]

/-- The agent asks for a purchase from the second merchant. -/
def asksOther : Call := .request agentToken (.createPurchaseIntent otherPurchase)

/-- Where every purchase is put to the owner, the approved merchant is decided
    as if it were on the allowlist that it is not on. -/
theorem approval_is_allowlisting_asked :
    ∃ owner w0 w record p, TreasuryRun stillHost owner w0 (cautious owner) w
      ∧ (exec stillHost asksOther (exec stillHost (approveOther owner) w)
          ).state.agents.get? (idOfDraw stillHost "agent" 4) = some record
      ∧ (exec stillHost asksOther (exec stillHost (approveOther owner) w)
          ).state.policies.get? record.policyId = some p
      ∧ Unlisted p "other.example.test"
      ∧ p.evaluate stillHost otherPurchase unused record.mode true
          (exec stillHost asksOther (exec stillHost (approveOther owner) w)
            ).state.emergencyStop
        = judge stillHost (allowing p "other.example.test") otherPurchase
          unused record.mode true
          (exec stillHost asksOther (exec stillHost (approveOther owner) w)
            ).state.emergencyStop := by
  have h : tryRun stillHost ⟨50000, "CAD"⟩ cautious (fun w =>
        let approve := approveOther (bootstrapToken stillHost)
        let v := exec stillHost approve w
        let v' := exec stillHost asksOther v
        decide (Succeeds stillHost approve w ∧ Fits v ∧ Fits v'
            ∧ v'.drawn ≤ 256 ^ 12)
          && (v'.state.agents.get? (idOfDraw stillHost "agent" 4)).any
            (fun record => (v'.state.policies.get? record.policyId).any
              (fun p => decide (Unlisted p "other.example.test"
                ∧ p.requireApprovalForNewMerchants = true
                ∧ asksAnyway otherPurchase record.mode = true)))) = true := by
    decide +kernel
  obtain ⟨owner, w0, w, hrun, hcheck⟩ := tryRun_run h
  obtain ⟨balance, hs⟩ := hrun.balance
  obtain rfl := hs.capability
  rw [Bool.and_eq_true, Option.any_eq_true] at hcheck
  obtain ⟨hcall, record, hrecord, hpolicy⟩ := hcheck
  obtain ⟨hok, hfit, hfit', hdrawn⟩ := of_decide_eq_true hcall
  obtain ⟨p, hp, hfacts⟩ := (Option.any_eq_true _ _).mp hpolicy
  obtain ⟨hunlisted, hrequire, hasks⟩ := of_decide_eq_true hfacts
  refine ⟨_, w0, w, record, p, hrun, hrecord, hp, hunlisted, ?_⟩
  have hdecides := (approval_is_allowlisting (m := "other.example.test") hrun
    rfl (by decide +kernel) hok hfit (.snoc asksOther .nil hfit')
    (plainHost_fresh hdrawn) hrecord hp).1 otherPurchase unused
    (by decide +kernel)
  exact hdecides.2.1.mpr (Or.inr (Or.inr ⟨hrequire, Or.inr hasks⟩))

/-- **AN APPROVAL IS NOT ENOUGH** under a policy with an allowlist: the owner
    is asked about the approved merchant, and would not be if it were on the
    list. -/
theorem approval_is_not_allowlisting :
    ∃ owner w0 w record p, TreasuryRun stillHost owner w0
        [agentWith Policy.conservativeDemo owner, approveOther owner] w
      ∧ w.state.agents.get? (idOfDraw stillHost "agent" 4) = some record
      ∧ w.state.policies.get? record.policyId = some p
      ∧ record.approvedMerchants.contains "other.example.test" = true
      ∧ verdictOf (p.evaluate stillHost otherPurchase unused record.mode true
          w.state.emergencyStop) = .consent
      ∧ verdictOf (judge stillHost (allowing p "other.example.test")
          otherPurchase unused record.mode true w.state.emergencyStop)
        = .allowed := by
  have h : tryRun stillHost ⟨50000, "CAD"⟩
      (fun owner => [agentWith Policy.conservativeDemo owner,
        approveOther owner]) (fun w =>
        (w.state.agents.get? (idOfDraw stillHost "agent" 4)).any
          (fun record => (w.state.policies.get? record.policyId).any
            (fun p => decide (
              record.approvedMerchants.contains "other.example.test" = true
              ∧ verdictOf (p.evaluate stillHost otherPurchase unused
                record.mode true w.state.emergencyStop) = .consent
              ∧ verdictOf (judge stillHost (allowing p "other.example.test")
                otherPurchase unused record.mode true w.state.emergencyStop)
                = .allowed)))) = true := by
    decide +kernel
  obtain ⟨owner, w0, w, hrun, hcheck⟩ := tryRun_run h
  obtain ⟨record, hrecord, hpolicy⟩ := (Option.any_eq_true _ _).mp hcheck
  obtain ⟨p, hp, hfacts⟩ := (Option.any_eq_true _ _).mp hpolicy
  exact ⟨owner, w0, w, record, p, hrun, hrecord, hp, of_decide_eq_true hfacts⟩

end Treasury
