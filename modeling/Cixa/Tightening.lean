import Cixa.Verdict
import Cixa.Decisions

/-! # Tightening — a stricter policy never lets more through

    `Policy.evaluate` refuses a request for every reason it finds and asks
    for the owner on several more conditions, and its checks can fail before
    a reason is collected.  `Clear` is the ONE statement of everything that
    must pass, and a decision is read off it: the policy refuses exactly
    what is not clear, and allows exactly what is clear and asks for nobody.

    A tightened policy, more usage, a stricter mode, a less known merchant
    or a stop can each only take clearness away and add a question, so the
    verdict can only go down. -/

namespace Treasury

open CixaData CixaHost Checks

variable {host : Host} {p q : Policy} {r : PurchaseRequest}
  {used used' : BudgetUsage} {mode mode' : AutonomyMode}
  {known known' stop stop' : Bool} {merchant : String}

/-! ## Reading a decision -/

/-- What the result of an evaluation lets through: an error is a refusal. -/
def verdictOf : Except TreasuryError PolicyDecision → Verdict
  | .error _ => .refused
  | .ok d =>
      if d.allowed = true then .allowed
      else if d.requiresApproval = true then .consent
      else .refused

/-- Everything that must pass for a request not to be refused. -/
structure Clear (host : Host) (p : Policy) (r : PurchaseRequest)
    (used : BudgetUsage) (mode : AutonomyMode) (stop : Bool)
    (merchant : String) : Prop where
  valid : r.validate p = .ok ⟨⟩
  canonical : canonicalizeDomain host r.merchantDomain = .ok merchant
  state : p.stateReasons r mode stop = []
  limits : p.limitReasons r.finalTotal used = .ok []
  request : p.requestReasons r merchant = []
  redirects : p.redirectReasons host merchant r.redirectChain = .ok []

theorem verdictOf_decision {version : Nat} {reasons : List String}
    {approval : Bool} :
    verdictOf (.ok (Policy.decisionOf version reasons approval))
      = if reasons ≠ [] then .refused
        else if approval = true then .consent else .allowed := by
  unfold Policy.decisionOf verdictOf
  by_cases h : reasons = []
  · cases approval <;> simp [h]
  · simp [h]

/-- A clear request is allowed, or asks for the owner. -/
theorem evaluate_of_clear (hp : p.validate host = .ok ⟨⟩)
    (h : Clear host p r used mode stop merchant) :
    p.evaluate host r used mode known stop
      = .ok (Policy.decisionOf p.version [] (p.asksOwner r mode known merchant)) := by
  unfold Policy.evaluate
  simp only [bind_eq_ok, pure_eq_ok]
  refine ⟨⟨⟩, hp, ⟨⟩, h.valid, _, h.limits, _, h.canonical, _, h.redirects, ?_⟩
  rw [h.state, h.request]
  rfl

/-- What is not refused is clear. -/
theorem clear_of_evaluate
    (h : verdictOf (p.evaluate host r used mode known stop) ≠ .refused) :
    ∃ merchant, Clear host p r used mode stop merchant := by
  cases hd : p.evaluate host r used mode known stop with
  | error e =>
      rw [hd] at h
      exact absurd rfl h
  | ok d =>
      have hvalid := (evaluate_valid hd).2
      rw [hd] at h
      unfold Policy.evaluate at hd
      simp only [bind_eq_ok, pure_eq_ok] at hd
      obtain ⟨_, _, _, _, limits, hlimits, merchant, hmerchant, redirects,
        hredirects, rfl⟩ := hd
      rw [verdictOf_decision] at h
      have hnil := not_not.mp (fun hne => h (if_pos hne))
      simp only [List.append_eq_nil_iff] at hnil
      obtain ⟨⟨⟨hstate, rfl⟩, hrequest⟩, rfl⟩ := hnil
      exact ⟨merchant, hvalid, hmerchant, hstate, hlimits, hrequest,
        hredirects⟩

theorem verdictOf_clear (hp : p.validate host = .ok ⟨⟩)
    (h : Clear host p r used mode stop merchant) :
    verdictOf (p.evaluate host r used mode known stop)
      = if p.asksOwner r mode known merchant = true then .consent
        else .allowed := by
  rw [evaluate_of_clear hp h, verdictOf_decision, if_neg (fun hne => hne rfl)]

/-! ## When the loops of the checks find nothing -/

/-- A redirect is owner-approved or stays with the merchant. -/
def Redirects (host : Host) (p : Policy) (merchant : String)
    (redirect : String) : Prop :=
  ∃ target, validateHttpsUrl host redirect = .ok target
    ∧ (target = merchant ∨ p.approvedRedirectDomains.contains target = true)

theorem redirectReasons_nil {chain : List String} :
    p.redirectReasons host merchant chain = .ok []
      ↔ ∀ redirect ∈ chain, Redirects host p merchant redirect := by
  unfold Policy.redirectReasons
  rw [foldlM_collect_nil]
  constructor
  · rintro ⟨_, h⟩ redirect hmem
    obtain ⟨target, htarget, hnil⟩ := h redirect hmem
    refine ⟨target, htarget, ?_⟩
    rw [reasonIf_eq_nil, not_and_or, not_not, Bool.not_eq_false] at hnil
    exact hnil
  · intro h
    refine ⟨rfl, fun redirect hmem => ?_⟩
    obtain ⟨target, htarget, hok⟩ := h redirect hmem
    refine ⟨target, htarget, ?_⟩
    rw [reasonIf_eq_nil, not_and_or, not_not, Bool.not_eq_false]
    exact hok

/-- The three sums that a limit check forms. -/
structure Addable (used : BudgetUsage) (total : Money) : Prop where
  session : ∃ c, used.sessionAmount.checkedAdd total = .ok c
  rolling : ∃ c, used.rolling24hAmount.checkedAdd total = .ok c
  lifetime : ∃ c, used.lifetimeAmount.checkedAdd total = .ok c

theorem limitReasons_clear {total : Money}
    (hcur : total.currency = p.primaryCurrency) :
    p.limitReasons total used = .ok []
      ↔ Addable used total ∧ WithinLimits p total used := by
  constructor
  · intro h
    refine ⟨?_, limitReasons_nil h hcur⟩
    unfold Policy.limitReasons at h
    rw [if_pos hcur] at h
    simp only [bind_eq_ok] at h
    obtain ⟨a, ha, b, hb, c, hc, _⟩ := h
    exact ⟨⟨a, ha⟩, ⟨b, hb⟩, ⟨c, hc⟩⟩
  · rintro ⟨⟨⟨a, ha⟩, ⟨b, hb⟩, ⟨c, hc⟩⟩, hw⟩
    unfold Policy.limitReasons
    rw [if_pos hcur]
    simp only [bind_eq_ok, pure_eq_ok, List.append_eq_nil_iff, reasonIf_eq_nil]
    refine ⟨a, ha, b, hb, c, hc, ⟨⟨⟨?_, ?_⟩, ?_⟩, ?_⟩, ?_⟩
    · exact not_lt.mpr hw.transaction
    · rw [(checkedAdd_minor ha).1]
      exact not_lt.mpr hw.session
    · rw [(checkedAdd_minor hb).1]
      exact not_lt.mpr hw.rolling
    · rw [(checkedAdd_minor hc).1]
      exact not_lt.mpr hw.lifetime
    · exact not_le.mpr hw.rate

/-! ## Tightening -/

/-- **TIGHTENED**: every limit as low or lower, nothing new on a list that
    lets through, nothing gone from a list that denies, no permission more.
    The allowlist is not emptied, because an empty one restricts nothing.
    What `evaluate` does not read is free. -/
structure Tightens (q p : Policy) : Prop where
  primary : q.primaryCurrency = p.primaryCurrency
  transaction : q.maxPerTransaction.minor ≤ p.maxPerTransaction.minor
  session : q.maxPerSession.minor ≤ p.maxPerSession.minor
  rolling : q.maxRolling24h.minor ≤ p.maxRolling24h.minor
  lifetime : q.maxLifetime.minor ≤ p.maxLifetime.minor
  rate : q.maxTransactionsPerMinute ≤ p.maxTransactionsPerMinute
  attempts : q.maxAttempts ≤ p.maxAttempts
  redirects : q.maxRedirects ≤ p.maxRedirects
  drift : q.maxOrderTotalDriftMinor ≤ p.maxOrderTotalDriftMinor
  currencies : ∀ c, q.allowedCurrencies.contains c = true →
    p.allowedCurrencies.contains c = true
  profiles : ∀ f, q.approvedFulfillmentProfiles.contains f = true →
    p.approvedFulfillmentProfiles.contains f = true
  redirectDomains : ∀ d, q.approvedRedirectDomains.contains d = true →
    p.approvedRedirectDomains.contains d = true
  merchants : ∀ m, q.allowedMerchants.contains m = true →
    p.allowedMerchants.contains m = true
  restricted : p.allowedMerchants.size ≠ 0 → q.allowedMerchants.size ≠ 0
  denied : ∀ m, p.deniedMerchants.contains m = true →
    q.deniedMerchants.contains m = true
  categories : ∀ c, p.deniedCategories.contains c = true →
    q.deniedCategories.contains c = true
  newMerchants :
    q.requireApprovalForNewMerchants = p.requireApprovalForNewMerchants
  recurring : q.allowRecurring = true → p.allowRecurring = true
  trials : q.allowTrials = true → p.allowTrials = true
  storedCard : q.allowStoredCard = true → p.allowStoredCard = true
  tips : q.allowTips = true → p.allowTips = true
  preauthorization :
    q.allowPreauthorization = true → p.allowPreauthorization = true
  installments : q.allowInstallments = true → p.allowInstallments = true

/-- One amount of a currency is at least another of the same currency. -/
def AtLeast (b a : Money) : Prop :=
  b.currency = a.currency ∧ a.minor ≤ b.minor

/-- At least as much of the budget is used. -/
structure UsedMore (used' used : BudgetUsage) : Prop where
  session : AtLeast used'.sessionAmount used.sessionAmount
  rolling : AtLeast used'.rolling24hAmount used.rolling24hAmount
  lifetime : AtLeast used'.lifetimeAmount used.lifetimeAmount
  rate : used.recentTransactionCount ≤ used'.recentTransactionCount

/-- The amounts of a usage are 64-bit integers. -/
structure Words (used : BudgetUsage) : Prop where
  session : I64.Fits used.sessionAmount.minor
  rolling : I64.Fits used.rolling24hAmount.minor
  lifetime : I64.Fits used.lifetimeAmount.minor

/-- How much a mode lets an agent do. -/
def autonomy : AutonomyMode → Nat
  | .observe => 0
  | .disabled => 0
  | .approvalRequired => 1
  | .boundedAutonomous => 2

/-- What a decision is asked with, at least as restrictive as before. -/
structure Stricter (used' used : BudgetUsage) (mode' mode : AutonomyMode)
    (known' known stop' stop : Bool) : Prop where
  usage : UsedMore used' used
  mode : autonomy mode' ≤ autonomy mode
  known : known' = true → known = true
  stop : stop = true → stop' = true

/-- A smaller sum of a positive total can be formed when a larger one can. -/
theorem AtLeast.addable {a b total c : Money} (h : AtLeast b a)
    (ha : I64.Fits a.minor) (hpos : 0 < total.minor)
    (hb : b.checkedAdd total = .ok c) : ∃ c, a.checkedAdd total = .ok c := by
  obtain ⟨hcur, hfits, _⟩ := checkedAdd_ok.mp hb
  obtain ⟨hsame, hle⟩ := h
  refine ⟨_, checkedAdd_ok.mpr ⟨hcur.trans hsame, ?_, rfl⟩⟩
  unfold I64.Fits at ha hfits ⊢
  omega

theorem UsedMore.addable {total : Money} (h : UsedMore used' used)
    (hwords : Words used) (hpos : 0 < total.minor)
    (hadd : Addable used' total) : Addable used total := by
  obtain ⟨⟨_, hs⟩, ⟨_, hr⟩, ⟨_, hl⟩⟩ := hadd
  exact ⟨h.session.addable hwords.session hpos hs,
    h.rolling.addable hwords.rolling hpos hr,
    h.lifetime.addable hwords.lifetime hpos hl⟩

theorem Tightens.within {total : Money} (ht : Tightens q p)
    (hu : UsedMore used' used) (h : WithinLimits q total used') :
    WithinLimits p total used where
  transaction := h.transaction.trans ht.transaction
  session := by
    have := hu.session.2
    have := h.session
    have := ht.session
    omega
  rolling := by
    have := hu.rolling.2
    have := h.rolling
    have := ht.rolling
    omega
  lifetime := by
    have := hu.lifetime.2
    have := h.lifetime
    have := ht.lifetime
    omega
  rate := by
    have := hu.rate
    have := h.rate
    have := ht.rate
    omega

/-- A request that the tightened policy accepts is accepted, as long as the
    wider drift can be added at all. -/
theorem Tightens.valid (ht : Tightens q p)
    (hdrift : I64.Fits (r.amount.minor + p.maxOrderTotalDriftMinor))
    (h : r.validate q = .ok ⟨⟩) : r.validate p = .ok ⟨⟩ := by
  unfold PurchaseRequest.validate at h ⊢
  simp only [bind_eq_ok, refuseIf_eq_ok, orRefuse_eq_ok,
    I64.checkedAdd_eq_some] at h ⊢
  obtain ⟨u0, h0, u1, h1, u2, h2, u3, h3, u4, h4, u5, h5, u6, h6, u7, h7,
    total, h8, u9, h9, u10, h10, u11, h11, allowed, ⟨_, rfl⟩, u12, h12,
    u13, h13, u14, h14, h15⟩ := h
  have := ht.drift
  have := ht.attempts
  have := ht.redirects
  exact ⟨u0, h0, u1, h1, u2, h2, u3, h3, u4, h4, u5, h5, u6, h6, u7, h7,
    total, h8, u9, h9, u10, h10, u11, h11, _, ⟨hdrift, rfl⟩, u12, by omega,
    u13, by omega, u14, by omega, h15⟩

theorem Stricter.state (ht : Tightens q p)
    (hs : Stricter used' used mode' mode known' known stop' stop)
    (h : q.stateReasons r mode' stop' = []) :
    p.stateReasons r mode stop = [] := by
  unfold Policy.stateReasons at h ⊢
  simp only [List.append_eq_nil_iff, reasonIf_eq_nil, not_not,
    Bool.not_eq_false] at h ⊢
  obtain ⟨⟨⟨hstop, hmode⟩, hallowed⟩, hcur⟩ := h
  refine ⟨⟨⟨fun h => hstop (hs.stop h), ?_⟩, ht.currencies _ hallowed⟩,
    hcur.trans ht.primary⟩
  have hle := hs.mode
  intro hm
  cases hmode' : mode' with
  | observe => exact hmode (Or.inl hmode')
  | disabled => exact hmode (Or.inr hmode')
  | approvalRequired =>
      rw [hmode'] at hle
      rcases hm with rfl | rfl <;> exact absurd hle (by decide)
  | boundedAutonomous =>
      rw [hmode'] at hle
      rcases hm with rfl | rfl <;> exact absurd hle (by decide)

theorem Tightens.request (ht : Tightens q p)
    (h : q.requestReasons r merchant = []) :
    p.requestReasons r merchant = [] := by
  unfold Policy.requestReasons at h ⊢
  simp only [List.append_eq_nil_iff, reasonIf_eq_nil, not_and,
    Bool.not_eq_false] at h ⊢
  obtain ⟨⟨⟨⟨⟨⟨⟨⟨⟨hdenied, hlisted⟩, hprofile⟩, hrecurring⟩, hstored⟩, htip⟩,
    hpre⟩, hinst⟩, hcategory⟩, hredirects⟩ := h
  refine ⟨⟨⟨⟨⟨⟨⟨⟨⟨?_, ?_⟩, ?_⟩, ?_⟩, ?_⟩, ?_⟩, ?_⟩, ?_⟩, ?_⟩, ?_⟩
  · exact fun h => hdenied (ht.denied _ h)
  · intro hsize hnot
    rw [← ht.newMerchants]
    refine hlisted (ht.restricted hsize) (Bool.eq_false_iff.mpr fun h => ?_)
    rw [ht.merchants _ h] at hnot
    cases hnot
  · exact ht.profiles _ hprofile
  · intro hrec
    rw [not_or, not_and, Bool.not_eq_false] at *
    obtain ⟨hr, htrial⟩ := hrecurring hrec
    refine ⟨ht.recurring hr, fun h => ?_⟩
    have := htrial h
    rw [Bool.not_eq_false] at this ⊢
    exact ht.trials this
  · exact fun h => ht.storedCard (hstored h)
  · exact fun h => ht.tips (htip h)
  · exact fun h => ht.preauthorization (hpre h)
  · exact fun h => ht.installments (hinst h)
  · exact fun h => hcategory (ht.categories _ h)
  · have := ht.redirects
    omega

theorem Tightens.redirected {chain : List String} (ht : Tightens q p)
    (h : q.redirectReasons host merchant chain = .ok []) :
    p.redirectReasons host merchant chain = .ok [] := by
  rw [redirectReasons_nil] at h ⊢
  intro redirect hmem
  obtain ⟨target, htarget, hok⟩ := h redirect hmem
  exact ⟨target, htarget, hok.imp_right (ht.redirectDomains _)⟩

/-- What is clear under the stricter check is clear under the wider one. -/
theorem Stricter.clear (ht : Tightens q p)
    (hs : Stricter used' used mode' mode known' known stop' stop)
    (hwords : Words used)
    (hdrift : I64.Fits (r.amount.minor + p.maxOrderTotalDriftMinor))
    (h : Clear host q r used' mode' stop' merchant) :
    Clear host p r used mode stop merchant := by
  have hstate := hs.state ht h.state
  have hcur : r.finalTotal.currency = p.primaryCurrency := by
    unfold Policy.stateReasons at hstate
    simp only [List.append_eq_nil_iff, reasonIf_eq_nil, not_not] at hstate
    exact hstate.2
  obtain ⟨hadd, hwithin⟩ :=
    (limitReasons_clear (hcur.trans ht.primary.symm)).mp h.limits
  have hpos := (validate_positive h.valid).2.1
  exact ⟨ht.valid hdrift h.valid, h.canonical, hstate,
    (limitReasons_clear hcur).mpr
      ⟨hs.usage.addable hwords hpos hadd, ht.within hs.usage hwithin⟩,
    ht.request h.request, ht.redirected h.redirects⟩

/-- Whatever asks for the owner still asks. -/
theorem Stricter.asks (ht : Tightens q p)
    (hs : Stricter used' used mode' mode known' known stop' stop)
    (h : q.asksOwner r mode' known' merchant = false)
    (hclear : q.stateReasons r mode' stop' = []) :
    p.asksOwner r mode known merchant = false := by
  unfold Policy.asksOwner at h ⊢
  simp only [Bool.or_eq_false_iff, Bool.and_eq_false_iff, decide_eq_false_iff_not,
    Bool.not_eq_false'] at h ⊢
  obtain ⟨⟨⟨⟨hlisted, hknown⟩, hform⟩, hscenario⟩, hmode⟩ := h
  rw [ht.newMerchants] at hlisted hknown
  refine ⟨⟨⟨⟨?_, ?_⟩, hform⟩, hscenario⟩, ?_⟩
  · rcases hlisted with (hsize | hin) | hreq
    · exact Or.inl (Or.inl fun h => hsize (ht.restricted h))
    · exact Or.inl (Or.inr (ht.merchants _ hin))
    · exact Or.inr hreq
  · rcases hknown with (hk | hin) | hreq
    · exact Or.inl (Or.inl (hs.known hk))
    · exact Or.inl (Or.inr (ht.merchants _ hin))
    · exact Or.inr hreq
  · -- a mode below "ask" would have been refused already
    unfold Policy.stateReasons at hclear
    simp only [List.append_eq_nil_iff, reasonIf_eq_nil] at hclear
    obtain ⟨⟨⟨_, harmed⟩, _⟩, _⟩ := hclear
    have hle := hs.mode
    rintro rfl
    cases mode' with
    | observe => exact harmed (Or.inl rfl)
    | disabled => exact harmed (Or.inr rfl)
    | approvalRequired => exact hmode rfl
    | boundedAutonomous => exact absurd hle (by decide)

/-- **TIGHTENING NEVER WIDENS**: under a tightened policy, with at least as
    restrictive circumstances, an evaluation lets through at most what it
    did. -/
theorem tightening_never_widens (host : Host) (p q : Policy)
    (r : PurchaseRequest) (used used' : BudgetUsage)
    (mode mode' : AutonomyMode) (known known' stop stop' : Bool)
    (hp : p.validate host = .ok ⟨⟩) (hq : q.validate host = .ok ⟨⟩)
    (ht : Tightens q p)
    (hs : Stricter used' used mode' mode known' known stop' stop)
    (hwords : Words used)
    (hdrift : I64.Fits (r.amount.minor + p.maxOrderTotalDriftMinor)) :
    verdictOf (q.evaluate host r used' mode' known' stop')
      ≤ verdictOf (p.evaluate host r used mode known stop) := by
  refine Verdict.le_of_cuts ?_ ?_
  · intro hnot
    obtain ⟨merchant, hclear⟩ := clear_of_evaluate hnot
    rw [verdictOf_clear hp (hs.clear ht hwords hdrift hclear)]
    split
    · exact fun h => nomatch h
    · exact fun h => nomatch h
  · intro hallowed
    have hnot : verdictOf (q.evaluate host r used' mode' known' stop')
        ≠ .refused := by
      rw [hallowed]
      exact fun h => nomatch h
    obtain ⟨merchant, hclear⟩ := clear_of_evaluate hnot
    rw [verdictOf_clear hq hclear] at hallowed
    have hasks : q.asksOwner r mode' known' merchant = false := by
      cases h : q.asksOwner r mode' known' merchant with
      | true =>
          rw [h, if_pos rfl] at hallowed
          exact nomatch hallowed
      | false => rfl
    rw [verdictOf_clear hp (hs.clear ht hwords hdrift hclear),
      hs.asks ht hasks hclear.state]
    exact if_neg (fun h => nomatch h)

/-- The demonstration policy with half its session and one denied merchant
    more. -/
def halvedDemo : Policy :=
  { Policy.conservativeDemo with
    maxPerSession := ⟨2500, "CAD"⟩
    deniedMerchants := StringSet.ofTexts ["other.example.test"] }

theorem halvedDemo_tightens : Tightens halvedDemo Policy.conservativeDemo where
  primary := rfl
  transaction := le_rfl
  session := by decide
  rolling := le_rfl
  lifetime := le_rfl
  rate := le_rfl
  attempts := le_rfl
  redirects := le_rfl
  drift := le_rfl
  currencies := fun _ h => h
  profiles := fun _ h => h
  redirectDomains := fun _ h => h
  merchants := fun _ h => h
  restricted := fun h => h
  denied := fun _ h => nomatch h
  categories := fun _ h => h
  newMerchants := rfl
  recurring := fun h => h
  trials := fun h => h
  storedCard := fun h => h
  tips := fun h => h
  preauthorization := fun h => h
  installments := fun h => h

/-- Under the halved policy, with a purchase already made and the owner to be
    asked, a small purchase gets no more than before. -/
theorem tightening_never_widens_halved :
    verdictOf (halvedDemo.evaluate stillHost smallPurchase
        ⟨⟨9, "CAD"⟩, ⟨9, "CAD"⟩, ⟨9, "CAD"⟩, ⟨0, "CAD"⟩, 1⟩
        .approvalRequired false false)
      ≤ verdictOf (Policy.conservativeDemo.evaluate stillHost smallPurchase
        ⟨⟨0, "CAD"⟩, ⟨0, "CAD"⟩, ⟨0, "CAD"⟩, ⟨0, "CAD"⟩, 0⟩
        .boundedAutonomous true false) :=
  tightening_never_widens stillHost Policy.conservativeDemo halvedDemo
    smallPurchase _ _ .boundedAutonomous .approvalRequired true false false
    false (by decide +kernel) (by decide +kernel) halvedDemo_tightens
    ⟨⟨⟨rfl, by decide⟩, ⟨rfl, by decide⟩, ⟨rfl, by decide⟩, by decide⟩,
      by decide, fun _ => rfl, fun h => h⟩
    ⟨by decide, by decide, by decide⟩ (by decide)

end Treasury
