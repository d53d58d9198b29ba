import Cixa.Keys
import Cixa.Revocation
import Cixa.Sums

/-! # Visibility — when the owner and the agents are answered

    The dashboard and the budget are answered when the checked sums behind
    them can be made.  Two things can prevent it.  A DEPOSIT is compared with
    no sum that it joins, so income can leave the 64-bit range.  And the
    usage of an agent adds every reserved intent to an amount in the currency
    of its policy, which the owner may change while an intent is reserved. -/

namespace Treasury

open CixaData CixaHost Outcome Checks Transition

variable {host : Host} {w w' : World} {l : Label} {s : TreasuryState}
  {currency : String}

/-! ## The balance that is reported -/

theorem SimulatedProvider.availableBalance_returns {p : SimulatedProvider}
    (hwf : Money.wellFormedCurrency currency = true)
    (hd : DomesticProvider currency p) (hb : Backed p) :
    ∃ a, p.availableBalance = .ok a := by
  have hfits := hd.fits
  have hcovered := hb.covered
  have hstep : ∀ (b a : Money) (l : List Money),
      ((∀ m ∈ a :: l, m.currency = currency ∧ 0 ≤ m.minor)
        ∧ Room currency b (((a :: l).map Money.minor).sum)) →
      ∃ b', b.checkedAdd a = .ok b'
        ∧ (∀ m ∈ l, m.currency = currency ∧ 0 ≤ m.minor)
        ∧ Room currency b' ((l.map Money.minor).sum) := by
    rintro b a l ⟨hl, hroom⟩
    have hl' := fun m hm => hl m (List.mem_cons_of_mem a hm)
    obtain ⟨hcur, hpos⟩ := hl a (List.mem_cons_self ..)
    have hrest : 0 ≤ (l.map Money.minor).sum := by
      refine List.sum_nonneg fun x hx => ?_
      obtain ⟨m, hm, rfl⟩ := List.mem_map.mp hx
      exact (hl' m hm).2
    rw [List.map_cons, List.sum_cons] at hroom
    obtain ⟨b', hadd, _, hroom'⟩ := hroom.add hcur hpos hrest
    exact ⟨b', hadd, hl', hroom'⟩
  have hvalues : ∀ m ∈ p.holds.values, m.currency = currency ∧ 0 ≤ m.minor := by
    intro m hm
    obtain ⟨id, hget⟩ := SortedMap.mem_values.mp hm
    exact ⟨hd.holds id m hget, hb.holds id m hget⟩
  have hstart : Room currency ⟨0, currency⟩
      ((p.holds.values.map Money.minor).sum) := by
    refine ⟨rfl, le_refl 0, ?_⟩
    show 0 + p.holds.sum Money.minor ≤ I64.maxValue
    rw [zero_add]
    exact le_trans hcovered hfits.2
  obtain ⟨reserved, hreserved, _, hroom⟩ := CheckedFold.foldlM_returns
    (I := fun l b => (∀ m ∈ l, m.currency = currency ∧ 0 ≤ m.minor)
      ∧ Room currency b ((l.map Money.minor).sum)) hstep ⟨hvalues, hstart⟩
  have hexact : reserved.minor = p.holds.sum Money.minor := by
    rw [foldlM_checkedAdd hreserved]
    exact zero_add _
  have hnonneg := hroom.nonneg
  have hsub : p.balance.checkedSub reserved
      = .ok ⟨p.balance.minor - reserved.minor, p.balance.currency⟩ := by
    refine checkedSub_ok.mpr ⟨hroom.currency.trans hd.balance.symm, ?_, rfl⟩
    have hmax := hfits.2
    exact fits_of_nonneg (by omega) (by omega)
  refine ⟨⟨p.balance.minor - reserved.minor, p.balance.currency⟩, ?_⟩
  unfold SimulatedProvider.availableBalance Money.zero Money.new
  simp only [bind_eq_ok, refuseIf_eq_ok, pure_eq_ok]
  refine ⟨⟨0, p.balance.currency⟩, ⟨⟨⟩, ?_, rfl⟩, reserved, ?_, hsub⟩
  · rw [hd.balance, hwf]
    decide
  · rw [hd.balance]
    exact hreserved

/-- **A BALANCE IS ALWAYS REPORTED**, and in the currency. -/
theorem Domestic.reports (hwf : Money.wellFormedCurrency currency = true)
    (hd : Domestic currency s) (hs : Sound s) :
    ∃ a, providerReportedBalance s = .ok a := by
  unfold providerReportedBalance
  cases hm : s.providerMode with
  | simulated =>
      exact SimulatedProvider.availableBalance_returns hwf hd.provider
        hs.provider
  | manualPrepaidCard =>
      obtain ⟨m, snap, hprovider, hsnap⟩ := hd.configured hm
      refine ⟨snap.amount, ?_⟩
      unfold manualSnapshot
      rw [hprovider]
      dsimp only [Option.bind_some]
      rw [hsnap]
      rfl

/-! ## Agents have valid policies -/

/-- Every agent has a stored policy that is valid. -/
def Governed (host : Host) (s : TreasuryState) : Prop :=
  ∀ id r, s.agents.get? id = some r →
    ∃ p, s.policies.get? r.policyId = some p ∧ p.validate host = .ok ⟨⟩

theorem Governed.withPolicies {s' : TreasuryState} {id : String} {p : Policy}
    (h : Governed host s) (hv : p.validate host = .ok ⟨⟩)
    (ha : s'.agents = s.agents)
    (hp : s'.policies = s.policies.insert id p) : Governed host s' := by
  intro id' r hr
  rw [ha] at hr
  rw [hp, SortedMap.get?_insert]
  split
  · exact ⟨p, rfl, hv⟩
  · exact h id' r hr

theorem Change.governed (h : Change host l w w') (hw : Governed host w.state) :
    Governed host w'.state := by
  have hsame : w'.state.agents = w.state.agents →
      w'.state.policies = w.state.policies → Governed host w'.state := by
    intro ha hp id r hr
    rw [ha] at hr
    rw [hp]
    exact hw id r hr
  cases h with
  | quiet h => exact h.state ▸ hw
  | @addAgent _ _ id _ p r _ hid hn heq _ =>
      have hmid : Governed host (w.state.withPolicy p.id p) :=
        hw.withPolicies hn.policyValid rfl rfl
      rw [heq]
      intro id' r' hr'
      have hr'' : (w.state.agents.insert id r).get? id' = some r' := hr'
      rw [SortedMap.get?_insert] at hr''
      split at hr''
      · obtain rfl := Option.some.inj hr''
        refine ⟨p, ?_, hn.policyValid⟩
        rw [hn.policyOf]
        exact SortedMap.get?_insert_self ..
      · exact hmid id' r' hr''
  | @editAgent _ _ id _ r r' _ hr he heq _ =>
      rw [heq]
      intro id' r'' hr''
      have hget : (w.state.agents.insert id r').get? id' = some r'' := hr''
      rw [SortedMap.get?_insert] at hget
      split at hget
      · obtain rfl := Option.some.inj hget
        rw [he.fixed.2.1]
        exact hw id r hr
      · exact hw id' r'' hget
  | setPolicy _ _ _ hv _ _ heq _ =>
      rw [heq]
      exact hw.withPolicies hv rfl rfl
  | reconcile _ _ _ hp heq _ =>
      obtain ⟨_, _, hfields⟩ := hp.fields
      exact hsame (by rw [heq, hfields]; rfl) (by rw [heq, hfields]; rfl)
  | deposit _ _ _ hc _ _ heq _ =>
      obtain ⟨_, _, hfields⟩ := hc.fields
      exact hsame (by rw [heq, hfields]; rfl) (by rw [heq, hfields]; rfl)
  | writeKey _ heq _ _ => exact heq ▸ hw
  | writeState _ heq _ _ _ => exact heq ▸ hw
  | submit _ heq _ _ _ => exact heq ▸ hw
  | _ =>
      rename_i heq _
      exact hsame ((congrArg TreasuryState.agents heq).trans rfl)
        ((congrArg TreasuryState.policies heq).trans rfl)

theorem TreasuryRun.governed {token : String} {w0 : World} {cs : List Call}
    (h : TreasuryRun host token w0 cs w) : Governed host w.state := by
  obtain ⟨balance, hs⟩ := h.balance
  refine h.path.invariant (I := fun v => Governed host v.state)
    (fun _ _ _ _ hc hv => hc.governed hv) (fun _ _ _ ha _ => ha) ?_
  obtain ⟨_, _, _, _, _, _, _, _, hstate⟩ := hs.state
  rw [hstate]
  exact fun id r hr => nomatch hr

/-- A valid policy has one well-formed currency for all its limits. -/
theorem validate_limits {p : Policy} (h : p.validate host = .ok ⟨⟩) :
    Money.wellFormedCurrency p.primaryCurrency = true
      ∧ ∀ m ∈ p.moneyLimits, m.currency = p.primaryCurrency := by
  unfold Policy.validate Money.zero Money.new at h
  simp only [bind_eq_ok, refuseIf_eq_ok] at h
  obtain ⟨_, _, _, ⟨_, hwf, _⟩, _, _, _, _, _, _, _, hlimits, _⟩ := h
  refine ⟨Bool.not_eq_false _ |>.mp hwf, fun m hm => ?_⟩
  have hm' := refuseIf_eq_ok.mp (forM_eq_ok.mp hlimits m hm)
  exact not_not.mp (not_or.mp hm').1

/-! ## The two views -/

/-- **WHAT EVERY REACHABLE STATE IS LIKE**, as far as the views ask. -/
structure WellKept (host : Host) (s : TreasuryState) : Prop where
  sound : Sound s
  domestic : Domestic "CAD" s
  covered : ∀ currency, Pools.Covered (authority currency s)
  governed : Governed host s
  kept : Kept s
  scopes : Scoped s

theorem TreasuryRun.wellKept {token : String} {w0 : World} {cs : List Call}
    (h : TreasuryRun host token w0 cs w) : WellKept host w.state := by
  obtain ⟨balance, hs⟩ := h.balance
  exact ⟨h.sound, h.domestic, fun currency =>
    h.path.covered hs.sound (hs.covered currency), h.governed, h.kept.1,
    h.keys.2⟩

/-- Every reserved intent is in the currency of its agent's policy. -/
def AtHome (s : TreasuryState) : Prop :=
  ∀ id r p, s.agents.get? id = some r → s.policies.get? r.policyId = some p →
    Homely s id p.primaryCurrency

/-- When CAD can be counted, so can the credits of every currency. -/
theorem WellKept.granted (h : WellKept host s) (hc : Countable "CAD" s)
    (currency : String) :
    amountOf (isCredit currency) s.ledger ≤ I64.maxValue := by
  by_cases hcur : currency = "CAD"
  · rw [hcur]
    exact hc.granted
  · rw [h.domestic.nothing_granted hcur]
    decide

theorem remainingMoney_returns {limit used : Money} {rest : Int}
    (hlimit : limit.currency = currency)
    (hwf : Money.wellFormedCurrency currency = true)
    (h : Room currency used rest) :
    ∃ m, limit.remainingMoney used = .ok m := by
  unfold Money.remainingMoney Money.sameCurrency Money.new
  simp only [bind_eq_ok, refuseIf_eq_ok, pure_eq_ok]
  refine ⟨_, ⟨⟩, ?_, ⟨⟩, ?_, rfl⟩
  · rw [hlimit, h.currency]
    exact not_not.mpr rfl
  · rw [hlimit, hwf]
    decide

theorem usage_returns {agentId : String} {r : AgentRecord}
    (h : WellKept host s) (hr : s.agents.get? agentId = some r)
    (hwf : Money.wellFormedCurrency currency = true)
    (hgranted : amountOf (isCredit currency) s.ledger ≤ I64.maxValue)
    (hhome : Homely s agentId currency) :
    wp (usage host s agentId currency) (fun used _ => Usable currency used 0)
      (fun _ _ => False) w := by
  have hzero := zeroUsage_of hwf
  unfold usage
  rw [hzero, wp_bind, wp_lift]
  refine ⟨nofun, fun zero hz => ?_⟩
  rw [wp_bind, wp_now]
  obtain ⟨used, hused, hroom⟩ := usageAt_returns (t := host.clock w.tick) hr
    (hzero.trans hz) hgranted hhome h.domestic.weighty h.sound
    (h.covered currency)
  rw [wp_lift, hused]
  refine ⟨nofun, fun used' heq => ?_⟩
  cases heq
  exact hroom

theorem usage_needs {agentId : String} :
    wp (usage host s agentId currency) (fun _ _ => Homely s agentId currency)
      (fun _ _ => True) w := by
  unfold usage
  refine line_lift (fun _ => trivial) fun zero hzero => ?_
  rw [wp_bind, wp_now, wp_lift]
  exact ⟨fun _ _ => trivial, fun used hused => usageAt_homely hzero hused⟩

theorem evidence_returns :
    wp (providerBalanceEvidence host s) (fun _ _ => True) (fun _ _ => False)
      w := by
  unfold providerBalanceEvidence
  cases s.providerMode with
  | simulated =>
      rw [wp_pure]
      trivial
  | manualPrepaidCard =>
      cases manualSnapshot s with
      | none =>
          rw [wp_pure]
          trivial
      | some snapshot =>
          rw [wp_bind, wp_now, wp_pure]
          trivial

/-- A list of views returns when every view does, and then says what every
    view says. -/
theorem viewAll_each {α : Type} {view : α → Op Json} {P : α → Prop} {F : Prop}
    {list : List α}
    (h : ∀ a ∈ list, ∀ v, wp (view a) (fun _ _ => P a) (fun _ _ => F) v) :
    wp (viewAll view list) (fun _ _ => ∀ a ∈ list, P a) (fun _ _ => F) w := by
  induction list generalizing w with
  | nil =>
      show wp (pure []) _ _ w
      rw [wp_pure]
      exact fun a ha => nomatch ha
  | cons a rest ih =>
      show wp (view a >>= fun j => viewAll view rest >>= fun js =>
        pure (j :: js)) _ _ w
      refine line (h a (List.mem_cons_self ..) w) fun _ v ha => ?_
      have hrest := ih (w := v) fun b hb => h b (List.mem_cons_of_mem _ hb)
      refine line hrest fun _ u hall => ?_
      rw [wp_pure]
      intro b hb
      rcases List.mem_cons.mp hb with rfl | hb
      · exact ha
      · exact hall b hb

/-- The three limits that a budget is compared with. -/
theorem remainders {p : Policy} {used : BudgetUsage}
    (hv : p.validate host = .ok ⟨⟩) (h : Usable p.primaryCurrency used 0) :
    (∃ m, p.maxPerSession.remainingMoney used.sessionAmount = .ok m)
      ∧ (∃ m, p.maxRolling24h.remainingMoney used.rolling24hAmount = .ok m)
      ∧ ∃ m, p.maxLifetime.remainingMoney used.lifetimeAmount = .ok m := by
  obtain ⟨hwf, hlimits⟩ := validate_limits hv
  refine ⟨?_, ?_, ?_⟩
  · exact remainingMoney_returns (hlimits _ (by simp [Policy.moneyLimits])) hwf
      h.session
  · exact remainingMoney_returns (hlimits _ (by simp [Policy.moneyLimits])) hwf
      h.rolling
  · exact remainingMoney_returns (hlimits _ (by simp [Policy.moneyLimits])) hwf
      h.lifetime

/-- A line that is known to return. -/
theorem line_ok {α β : Type} {x : Except TreasuryError α} {f : α → Op β}
    {Q : β → World → Prop} {E : TreasuryError → World → Prop}
    (hx : ∃ a, x = .ok a) (hf : ∀ a, x = .ok a → wp (f a) Q E w) :
    wp (lift x >>= f) Q E w := by
  obtain ⟨a, rfl⟩ := hx
  rw [wp_bind, wp_lift]
  exact ⟨nofun, hf⟩

theorem dashboardAgent_returns {r : AgentRecord} (h : WellKept host s)
    (hc : Countable "CAD" s) (hhome : AtHome s)
    (hr : s.agents.get? r.id = some r) :
    wp (dashboardAgent host s r) (fun _ _ => True) (fun _ _ => False) w := by
  obtain ⟨p, hp, hv⟩ := h.governed _ _ hr
  unfold dashboardAgent
  refine line_ok ⟨p, policy_ok.mpr hp⟩ fun p' hp' => ?_
  obtain rfl := Option.some.inj (hp.symm.trans (policy_ok.mp hp'))
  refine line (usage_returns h hr (validate_limits hv).1
    (h.granted hc _) (hhome _ _ _ hr hp)) fun used v hused => ?_
  obtain ⟨hsession, hrolling, hlifetime⟩ := remainders hv hused
  refine line_ok hrolling fun _ _ => ?_
  refine line_ok hsession fun _ _ => ?_
  refine line_ok hlifetime fun _ _ => ?_
  rw [wp_pure]
  trivial

theorem dashboardAgent_needs {r : AgentRecord} :
    wp (dashboardAgent host s r)
      (fun _ _ => ∀ p, s.policies.get? r.policyId = some p →
        Homely s r.id p.primaryCurrency) (fun _ _ => True) w := by
  unfold dashboardAgent
  refine line_lift (fun _ => trivial) fun p hp => ?_
  refine line usage_needs fun used v hhome => ?_
  refine line_lift (fun _ => trivial) fun _ _ => ?_
  refine line_lift (fun _ => trivial) fun _ _ => ?_
  refine line_lift (fun _ => trivial) fun _ _ => ?_
  rw [wp_pure]
  intro p' hp'
  obtain rfl := Option.some.inj (hp'.symm.trans (policy_ok.mp hp))
  exact hhome

theorem WellKept.authorityCurrency (h : WellKept host s) :
    authorityCurrency s = "CAD" := by
  obtain ⟨balance, hb⟩ := h.domestic.reports (by decide) h.sound
  unfold Treasury.authorityCurrency
  rw [hb]
  exact h.domestic.reported hb

/-- **THE DASHBOARD** is shown when every reserved intent is at home and CAD
    can be counted. -/
theorem ownerGetDashboard_returns (h : WellKept host w.state)
    (hc : Countable "CAD" w.state) (hhome : AtHome w.state) :
    wp (ownerGetDashboard host .owner) (fun _ _ => True) (fun _ _ => False)
      w := by
  unfold ownerGetDashboard
  rw [wp_bind, wp_readState]
  refine line_ok ⟨⟨⟩, rfl⟩ fun _ _ => ?_
  refine line (P := fun _ _ => True) ?_ fun agents v _ => ?_
  · refine wp_mono (viewAll_each (P := fun _ => True) (F := False) ?_)
      (fun _ _ _ => trivial) (fun _ _ hf => hf)
    intro r hr v
    obtain ⟨id, hget⟩ := SortedMap.mem_values.mp hr
    obtain rfl := h.kept.agents _ _ hget
    exact dashboardAgent_returns h hc hhome hget
  refine line_ok ?_ fun _ _ => ?_
  · rw [h.authorityCurrency]
    exact ledgerSnapshot_returns (by decide) hc h.domestic.weighty h.sound
      (h.covered _)
  refine line evidence_returns fun _ _ _ => ?_
  rw [wp_pure]
  trivial

theorem ownerGetDashboard_needs (h : WellKept host w.state) :
    wp (ownerGetDashboard host .owner)
      (fun _ _ => AtHome w.state ∧ Countable "CAD" w.state) (fun _ _ => True)
      w := by
  unfold ownerGetDashboard
  rw [wp_bind, wp_readState]
  refine line_lift (fun _ => trivial) fun _ _ => ?_
  refine line (P := fun _ _ => ∀ r ∈ w.state.agents.values, ∀ p,
    w.state.policies.get? r.policyId = some p →
      Homely w.state r.id p.primaryCurrency)
    (viewAll_each fun _ _ _ => dashboardAgent_needs) fun agents v hagents => ?_
  refine line_lift (fun _ => trivial) fun ledger hledger => ?_
  refine line (P := fun _ _ => True)
    (wp_mono evidence_returns (fun _ _ _ => trivial) fun _ _ _ => trivial)
    fun _ _ _ => ?_
  rw [wp_pure]
  refine ⟨fun id r p hr hp => ?_, ?_⟩
  · obtain rfl := h.kept.agents _ _ hr
    exact hagents r (SortedMap.mem_values_of_get? hr) p hp
  · rw [h.authorityCurrency] at hledger
    exact ledgerSnapshot_countable hledger

/-- **THE BUDGET** of an agent is answered when its reserved intents are at
    home and the currency of its policy can be counted. -/
theorem getBudget_returns {agentId : String} {r : AgentRecord} {p : Policy}
    (h : WellKept host w.state) (hr : w.state.agents.get? agentId = some r)
    (hp : w.state.policies.get? r.policyId = some p)
    (hc : Countable p.primaryCurrency w.state)
    (hhome : Homely w.state agentId p.primaryCurrency) :
    wp (getBudget host (.agent agentId)) (fun _ _ => True) (fun _ _ => False)
      w := by
  obtain ⟨p', hp', hv⟩ := h.governed _ _ hr
  obtain rfl := Option.some.inj (hp.symm.trans hp')
  have hwf := (validate_limits hv).1
  have hscope : r.scopes.contains "budget:read" = true := by
    rw [h.scopes _ _ hr]
    decide
  unfold getBudget
  rw [wp_bind, wp_readState]
  refine line_ok ⟨agentId, requireAgentScope_of hr hscope⟩ fun id hid => ?_
  obtain rfl := Except.ok.inj ((requireAgentScope_of hr hscope).symm.trans hid)
  refine line_ok ⟨r, agent_ok.mpr hr⟩ fun r' hr' => ?_
  obtain rfl := Option.some.inj (hr.symm.trans (agent_ok.mp hr'))
  refine line_ok ⟨p, policy_ok.mpr hp⟩ fun p' hp' => ?_
  obtain rfl := Option.some.inj (hp.symm.trans (policy_ok.mp hp'))
  refine line (usage_returns h hr hwf hc.granted hhome) fun used v hused => ?_
  obtain ⟨hsession, hrolling, hlifetime⟩ := remainders hv hused
  refine line_ok (h.domestic.reports (by decide) h.sound) fun _ _ => ?_
  refine line_ok (ledgerSnapshot_returns hwf hc h.domestic.weighty h.sound
    (h.covered _)) fun _ _ => ?_
  refine line_ok hsession fun _ _ => ?_
  refine line_ok hrolling fun _ _ => ?_
  refine line_ok hlifetime fun _ _ => ?_
  refine line evidence_returns fun _ _ _ => ?_
  rw [wp_pure]
  trivial

theorem getBudget_needs {agentId : String} {r : AgentRecord} {p : Policy}
    (hr : w.state.agents.get? agentId = some r)
    (hp : w.state.policies.get? r.policyId = some p) :
    wp (getBudget host (.agent agentId))
      (fun _ _ => Countable p.primaryCurrency w.state) (fun _ _ => True) w := by
  unfold getBudget
  rw [wp_bind, wp_readState]
  refine line_lift (fun _ => trivial) fun id hid => ?_
  refine line_lift (fun _ => trivial) fun r' hr' => ?_
  obtain rfl : id = agentId := by
    unfold requireAgentScope at hid
    simp only [bind_eq_ok, pure_eq_ok] at hid
    obtain ⟨_, hsome, _, _, _, _, rfl⟩ := hid
    cases hsome
    rfl
  obtain rfl := Option.some.inj (hr.symm.trans (agent_ok.mp hr'))
  refine line_lift (fun _ => trivial) fun p' hp' => ?_
  obtain rfl := Option.some.inj (hp.symm.trans (policy_ok.mp hp'))
  refine line usage_needs fun used v _ => ?_
  refine line_lift (fun _ => trivial) fun _ _ => ?_
  refine line_lift (fun _ => trivial) fun ledger hledger => ?_
  refine line_lift (fun _ => trivial) fun _ _ => ?_
  refine line_lift (fun _ => trivial) fun _ _ => ?_
  refine line_lift (fun _ => trivial) fun _ _ => ?_
  refine line (P := fun _ _ => True)
    (wp_mono evidence_returns (fun _ _ _ => trivial) fun _ _ _ => trivial)
    fun _ _ _ => ?_
  rw [wp_pure]
  exact ledgerSnapshot_countable hledger

/-! ## Always visible -/

/-- The owner is shown the dashboard, and every active agent its budget. -/
def Answered (host : Host) (owner : String) (w : World) : Prop :=
  Succeeds host (.request owner .ownerGetDashboard) w
    ∧ ∀ token agentId, Authenticates host w token (.agent agentId) →
      Succeeds host (.request token .getBudget) w

/-- **WHEN THE VIEWS CAN BE ANSWERED**: every reserved intent is in the
    currency of its agent's policy, and what CAD and the currencies of the
    active agents count fits. -/
structure Viewable (host : Host) (w : World) : Prop where
  home : AtHome w.state
  treasury : Countable "CAD" w.state
  active : ∀ token agentId r p, Authenticates host w token (.agent agentId) →
    w.state.agents.get? agentId = some r →
    w.state.policies.get? r.policyId = some p →
    Countable p.primaryCurrency w.state

/-- What an authenticated request answers. -/
theorem succeeds_of {token : String} {request : Request} {actor : Actor}
    {a : World} (hauth : authenticate host token w = .ok actor a) :
    Succeeds host (.request token request) w
      ↔ ∃ value, result (dispatch host actor request) a = .ok value := by
  have hrun : result (handle host token request) w
      = result (dispatch host actor request) a := by
    unfold handle
    show result (EStateM.bind (authenticate host token) _) w = _
    unfold result EStateM.bind
    rw [hauth]
  unfold Succeeds
  show (∃ value, result (handle host token request) w = .ok value) ↔ _
  rw [hrun]

/-- **ALWAYS VISIBLE**: in every reachable world the owner and all active
    agents are answered exactly when the sums fit and the reserved intents
    are at home. -/
theorem views_are_answered {owner : String} {w0 : World} {cs : List Call}
    (hrun : TreasuryRun host owner w0 cs w) :
    Answered host owner w ↔ Viewable host w := by
  have hkept := hrun.wellKept
  have howner : authenticate host owner w = .ok .owner w :=
    hrun.ownerToken rfl
  constructor
  · rintro ⟨hdashboard, hbudgets⟩
    obtain ⟨value, hok⟩ := (succeeds_of howner).mp hdashboard
    obtain ⟨hhome, hcad⟩ := (wp_iff.mp (ownerGetDashboard_needs hkept)).1 value
      hok
    refine ⟨hhome, hcad, fun token agentId r p hauth hr hp => ?_⟩
    obtain ⟨a, ha⟩ := hauth
    obtain ⟨hq, _⟩ := authenticate_stored hkept.kept ha
    obtain ⟨value, hok⟩ := (succeeds_of ha).mp (hbudgets token agentId ⟨a, ha⟩)
    have hneeds := (wp_iff.mp (getBudget_needs (w := a) (hq.state ▸ hr)
      (hq.state ▸ hp))).1 value hok
    exact hq.state ▸ hneeds
  · rintro ⟨hhome, hcad, hactive⟩
    refine ⟨(succeeds_of howner).mpr ?_, fun token agentId hauth => ?_⟩
    · obtain ⟨value, hok, _⟩ := wp_returns
        (ownerGetDashboard_returns hkept hcad hhome)
      exact ⟨value, hok⟩
    · obtain ⟨a, ha⟩ := hauth
      obtain ⟨hq, r, hr⟩ := authenticate_stored hkept.kept ha
      obtain ⟨p, hp, _⟩ := hkept.governed _ _ hr
      have hc := hactive token agentId r p ⟨a, ha⟩ hr hp
      refine (succeeds_of ha).mpr ?_
      obtain ⟨value, hok, _⟩ := wp_returns (getBudget_returns (w := a)
        (hq.state ▸ hkept) (hq.state ▸ hr) (hq.state ▸ hp) (hq.state ▸ hc)
        (hq.state ▸ hhome _ _ _ hr hp))
      exact ⟨value, hok⟩

/-- A reserved purchase in CAD is at home, and everybody is answered. -/
theorem views_are_answered_reserved :
    ∃ owner w0 w, TreasuryRun stillHost owner w0
        (opening { smallPurchase with scenario := .delayedSettlement } owner
          ++ [.request agentToken
            (.executePurchaseIntent (firstIntent stillHost))]) w
      ∧ heldBy (inCurrency "CAD") w.state = 1
      ∧ Answered stillHost owner w := by
  have h : tryRun stillHost ⟨100000, "CAD"⟩
      (fun owner => opening
          { smallPurchase with scenario := .delayedSettlement } owner
        ++ [.request agentToken
          (.executePurchaseIntent (firstIntent stillHost))])
      (fun w => decide (heldBy (inCurrency "CAD") w.state = 1
        ∧ (∀ p ∈ w.state.policies.values, p.primaryCurrency = "CAD")
        ∧ (∀ i ∈ w.state.intents.values, i.request.finalTotal.currency = "CAD")
        ∧ amountOf (countsAs "CAD" .incomeVerified) w.state.ledger = 0
        ∧ amountOf (countsAs "CAD" .incomeUnverified) w.state.ledger = 0
        ∧ amountOf (isCredit "CAD") w.state.ledger = 100000)) = true := by
    decide +kernel
  obtain ⟨owner, w0, w, hrun, hcheck⟩ := tryRun_run h
  obtain ⟨hheld, hpolicies, hintents, hverified, hunverified, hgranted⟩ :=
    of_decide_eq_true hcheck
  have hcount : Countable "CAD" w.state := by
    refine ⟨?_, ?_, ?_⟩
    · rw [hverified]
      decide
    · rw [hunverified]
      decide
    · rw [hgranted]
      decide
  have hcad : ∀ id p, w.state.policies.get? id = some p →
      p.primaryCurrency = "CAD" := fun id p hp =>
    hpolicies p (SortedMap.mem_values_of_get? hp)
  refine ⟨owner, w0, w, hrun, hheld, (views_are_answered hrun).mpr ⟨?_, hcount, ?_⟩⟩
  · intro id r p _ hp id' i hi _ _
    rw [hcad _ _ hp]
    exact hintents i (SortedMap.mem_values_of_get? hi)
  · intro token agentId r p _ _ hp
    rw [hcad _ _ hp]
    exact hcount

/-- Two unverified deposits whose sum does not fit. -/
def hugeDeposits (owner : String) : List Call :=
  [.request owner (.ownerRecordDeposit ⟨I64.maxValue, "CAD"⟩ "s" false none "a"),
    .request owner
      (.ownerRecordDeposit ⟨I64.maxValue, "CAD"⟩ "s" false none "b")]

/-- **NOT VISIBLE**: two deposits are recorded, and the dashboard is gone. -/
theorem views_are_answered_never :
    ∃ owner w0 w, TreasuryRun stillHost owner w0 (hugeDeposits owner) w
      ∧ ¬Succeeds stillHost (.request owner .ownerGetDashboard) w := by
  have h : tryRun stillHost ⟨100000, "CAD"⟩ hugeDeposits
      (fun w => decide (w.state.ledger.length = 3
        ∧ ¬Succeeds stillHost
          (.request (bootstrapToken stillHost) .ownerGetDashboard) w))
      = true := by decide +kernel
  obtain ⟨owner, w0, w, hrun, hcheck⟩ := tryRun_run h
  obtain ⟨_, hs⟩ := hrun.balance
  refine ⟨owner, w0, w, hrun, ?_⟩
  rw [hs.capability]
  exact (of_decide_eq_true hcheck).2

end Treasury
