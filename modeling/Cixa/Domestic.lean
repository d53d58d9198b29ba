import Cixa.Authority

/-! # Domestic money — one currency that can be spent

    A treasury starts with capital in one currency, and whatever grants
    authority is checked against the balance of the provider in force, which
    is in that currency too.  In every OTHER currency the authority is zero,
    so no intent in it is ever reserved: holds, charges, credits and the
    totals of reserved and settled intents are all in the treasury's
    currency. -/

namespace Treasury

open CixaData CixaHost Outcome Checks Transition

variable {host : Host} {w w' : World} {l : Label} {s : TreasuryState}
  {currency : String}

/-! ## The providers -/

/-- The simulated provider's balance, holds and charges are in a currency,
    and the balance is a 64-bit amount. -/
structure DomesticProvider (currency : String) (p : SimulatedProvider) :
    Prop where
  balance : p.balance.currency = currency
  fits : I64.Fits p.balance.minor
  holds : ∀ id a, p.holds.get? id = some a → a.currency = currency
  charges : ∀ id c, p.charges.get? id = some c → c.amount.currency = currency

/-- The manual balance is in a currency. -/
def DomesticManual (currency : String) (m : ManualPrepaidCardProvider) : Prop :=
  ∀ snap, m.balanceSnapshot = some snap → snap.amount.currency = currency

theorem checkedAdd_fits {a b c : Money} (h : a.checkedAdd b = .ok c) :
    I64.Fits c.minor := by
  obtain ⟨_, hfits, rfl⟩ := checkedAdd_ok.mp h
  exact hfits

theorem checkedSub_fits {a b c : Money} (h : a.checkedSub b = .ok c) :
    I64.Fits c.minor := by
  obtain ⟨_, hfits, rfl⟩ := checkedSub_ok.mp h
  exact hfits

theorem ProviderStep.domestic {i : PurchaseIntent} {move : ProviderMove}
    {p p' : SimulatedProvider} (h : ProviderStep i move p p')
    (hcur : i.request.finalTotal.currency = currency)
    (hp : DomesticProvider currency p) : DomesticProvider currency p' := by
  have herase : ∀ id a, (p.holds.erase i.id).get? id = some a →
      a.currency = currency := by
    intro id a ha
    rw [SortedMap.get?_erase] at ha
    split at ha
    · exact nomatch ha
    · exact hp.holds id a ha
  have hinsert : ∀ c : ProviderCharge, c.amount.currency = currency →
      ∀ id c', (p.charges.insert i.id c).get? id = some c' →
        c'.amount.currency = currency := by
    intro c hc id c' hc'
    rw [SortedMap.get?_insert] at hc'
    split at hc'
    · rw [← Option.some.inj hc']
      exact hc
    · exact hp.charges id c' hc'
  cases h with
  | hold _ _ _ =>
      refine ⟨hp.balance, hp.fits, fun id a ha => ?_, hp.charges⟩
      have ha' : (p.holds.insert i.id _).get? id = some a := ha
      rw [SortedMap.get?_insert] at ha'
      split at ha'
      · rw [← Option.some.inj ha']
        exact hcur
      · exact hp.holds id a ha'
  | charge _ _ _ hb =>
      exact ⟨(checkedSub_minor hb).2.1.trans hp.balance, checkedSub_fits hb,
        hp.holds, hinsert _ hcur⟩
  | settleHold hh hb =>
      have hhold := hp.holds _ _ hh
      exact ⟨(checkedSub_minor hb).2.1.trans hp.balance, checkedSub_fits hb,
        herase, hinsert _ hhold⟩
  | confirm _ hc =>
      have hcharge := hp.charges _ _ hc
      exact ⟨hp.balance, hp.fits, hp.holds, hinsert _ hcharge⟩
  | release _ => exact ⟨hp.balance, hp.fits, herase, hp.charges⟩
  | refund hc _ hb =>
      have hcharge := hp.charges _ _ hc
      exact ⟨(checkedAdd_minor hb).2.1.trans hp.balance, checkedAdd_fits hb,
        hp.holds, hinsert _ hcharge⟩

theorem ManualStep.domestic {total : Money} {arm : Arm}
    {m m' : ManualPrepaidCardProvider} (h : ManualStep host w w' total arm m m') (hm : DomesticManual currency m) :
    DomesticManual currency m' := by
  cases h with
  | debit hs _ hb _ =>
      rintro _ ⟨⟩
      exact (checkedSub_minor hb).2.1.trans (hm _ hs)
  | credit hs hb _ =>
      rintro _ ⟨⟩
      exact (checkedAdd_minor hb).2.1.trans (hm _ hs)
  | touch hs _ =>
      have hkept := hm _ hs
      rintro _ ⟨⟩
      exact hkept

/-- Only a balance that is there is changed. -/
theorem ManualStep.before {total : Money} {arm : Arm}
    {m m' : ManualPrepaidCardProvider}
    (h : ManualStep host w w' total arm m m') :
    ∃ snap, m.balanceSnapshot = some snap := by
  cases h with
  | debit hs _ _ _ => exact ⟨_, hs⟩
  | credit hs _ _ => exact ⟨_, hs⟩
  | touch hs _ => exact ⟨_, hs⟩

/-- Whatever happens to it, a manual balance is left. -/
theorem ManualStep.snapshot {total : Money} {arm : Arm}
    {m m' : ManualPrepaidCardProvider}
    (h : ManualStep host w w' total arm m m') :
    ∃ snap, m'.balanceSnapshot = some snap := by
  cases h with
  | debit _ _ _ _ => exact ⟨_, rfl⟩
  | credit _ _ _ => exact ⟨_, rfl⟩
  | touch _ _ => exact ⟨_, rfl⟩

/-! ## The currency of a treasury -/

/-- The states in which an intent costs something, or may have. -/
def Spendable (state : TransactionState) : Prop :=
  state.isReserved = true ∨ state = .settled

/-- An event that grants authority is in the currency, and what counts is
    never negative. -/
structure DomesticEvent (currency : String) (e : LedgerEvent) : Prop where
  credits : e.kind ∈ [.ownerCapital, .operatorTopUp, .refund] →
    e.amount.currency = currency
  amount : e.kind ∉ [.holdReserved, .holdReleased] → 0 ≤ e.amount.minor

/-- The providers are in a currency, and the manual one is configured when
    it is in force. -/
structure DomesticProviders (currency : String) (s : TreasuryState) :
    Prop where
  provider : DomesticProvider currency s.provider
  manual : ∀ m, s.manualProvider = some m → DomesticManual currency m
  configured : s.providerMode = .manualPrepaidCard →
    ∃ m snap, s.manualProvider = some m ∧ m.balanceSnapshot = some snap

/-- **ALL THE MONEY** that can be spent is in one currency. -/
structure Domestic (currency : String) (s : TreasuryState) : Prop extends
    DomesticProviders currency s where
  intents : ∀ id i, s.intents.get? id = some i → Spendable i.state →
    i.request.finalTotal.currency = currency
  events : ∀ e ∈ s.ledger, DomesticEvent currency e

theorem DomesticProviders.frame {s' : TreasuryState}
    (h : DomesticProviders currency s) (hp : s'.provider = s.provider)
    (hm : s'.manualProvider = s.manualProvider)
    (hx : s'.providerMode = s.providerMode) : DomesticProviders currency s' := by
  refine ⟨hp ▸ h.provider, hm ▸ h.manual, ?_⟩
  rw [hm, hx]
  exact h.configured

theorem Domestic.frame {s' : TreasuryState} (h : Domestic currency s)
    (hp : s'.provider = s.provider) (hm : s'.manualProvider = s.manualProvider)
    (hx : s'.providerMode = s.providerMode) (hi : s'.intents = s.intents)
    (hl : s'.ledger = s.ledger) : Domestic currency s' :=
  ⟨h.toDomesticProviders.frame hp hm hx, hi ▸ h.intents, hl ▸ h.events⟩

/-- An intent is stored, and events are appended. -/
theorem Domestic.book {s' : TreasuryState} {id : String} {i' : PurchaseIntent}
    {events : List LedgerEvent} (h : Domestic currency s)
    (hp : DomesticProviders currency s')
    (hi : s'.intents = s.intents.insert id i')
    (hx : Spendable i'.state → i'.request.finalTotal.currency = currency)
    (hl : s'.ledger = s.ledger ++ events)
    (he : ∀ e ∈ events, DomesticEvent currency e) : Domestic currency s' := by
  refine ⟨hp, fun id' j hj hs => ?_, fun e hmem => ?_⟩
  · rw [hi, SortedMap.get?_insert] at hj
    split at hj
    · rw [← Option.some.inj hj] at hs ⊢
      exact hx hs
    · exact h.intents id' j hj hs
  · rw [hl] at hmem
    exact (List.mem_append.mp hmem).elim (h.events e) (he e)

/-- In another currency nothing is granted. -/
theorem Domestic.nothing_granted {other : String} (h : Domestic currency s)
    (hne : other ≠ currency) : amountOf (isCredit other) s.ledger = 0 := by
  refine amountOf_eq_zero fun e he => decide_eq_false ?_
  rintro ⟨hcur, hkind⟩
  exact hne (hcur.symm.trans ((h.events e he).credits hkind))

/-- So nothing is left in it. -/
theorem Domestic.nothing_left {other : String} (h : Domestic currency s)
    (hs : Sound s) (hne : other ≠ currency) : (authority other s).left ≤ 0 := by
  have hgranted := h.nothing_granted hne
  have hspent : 0 ≤ amountOf (isSpending other) s.ledger := by
    refine amountOf_nonneg fun e he hspending => (h.events e he).amount ?_
    rw [(of_decide_eq_true hspending).2]
    decide
  have hheld : 0 ≤ heldBy (inCurrency other) s :=
    SortedMap.sum_nonneg fun id i hi => share_nonneg _ (hs.totals id i hi)
  unfold Pools.Pool.left authority
  dsimp only
  omega

/-- **RESERVED IN THE CURRENCY**: what passed the checks is domestic. -/
theorem Reservable.domestic {i : PurchaseIntent} {r : AgentRecord} {p : Policy}
    (h : Reservable host w w' i r p)
    (hi : w.state.intents.get? i.id = some i) (hs : Sound w.state)
    (hd : Domestic currency w.state) :
    i.request.finalTotal.currency = currency := by
  obtain ⟨_, used, t, _, _, _, hpassed⟩ := h.passed
  obtain ⟨ledger, hledger, hle⟩ := hpassed.authority
  rw [ledgerSnapshot_available hledger, ← hpassed.currency] at hle
  by_contra hne
  have hleft := hd.nothing_left hs hne
  have hpos := hs.totals _ _ hi
  unfold Pools.Pool.left at hleft
  omega

/-! ## Every change keeps the currency -/

theorem EventIn.domestic {kind : LedgerEventKind} {amount : Money}
    {id : Option String} {e : LedgerEvent} (h : EventIn host w w' kind amount id e)
    (hcur : kind ∈ [.ownerCapital, .operatorTopUp, .refund] →
      amount.currency = currency) (hpos : 0 ≤ amount.minor) :
    DomesticEvent currency e := by
  refine ⟨fun hk => ?_, fun _ => ?_⟩
  · rw [h.amount]
    exact hcur (h.kind ▸ hk)
  · rw [h.amount]
    exact hpos

theorem Settling.domestic {i : PurchaseIntent} {events : List LedgerEvent}
    (h : Settling host w w' s i events)
    (hpos : 0 < i.request.finalTotal.minor) :
    ∀ e ∈ events, DomesticEvent currency e := by
  cases h with
  | mk hr hs =>
      intro e he
      rcases List.mem_append.mp he with he | he
      · rcases hr with ⟨_, rfl⟩ | ⟨_, e', rfl, hin⟩
        · exact nomatch he
        · rw [List.mem_singleton.mp he]
          exact hin.domestic (fun hk => absurd hk (by decide)) (le_of_lt hpos)
      · rcases hs with ⟨_, rfl⟩ | ⟨_, e', rfl, hin⟩
        · exact nomatch he
        · rw [List.mem_singleton.mp he]
          exact hin.domestic (fun hk => absurd hk (by decide)) (le_of_lt hpos)

theorem Concluded.domestic {i i' : PurchaseIntent} {next : TransactionState}
    {events : List LedgerEvent} (h : Concluded host w w' s i next i' events)
    (hpos : 0 < i.request.finalTotal.minor) :
    ∀ e ∈ events, DomesticEvent currency e := by
  cases h with
  | settled _ he => exact he.domestic hpos
  | declined _ he =>
      intro e hmem
      rw [List.mem_singleton.mp hmem]
      exact he.domestic (fun hk => absurd hk (by decide)) (le_of_lt hpos)
  | pending _ => exact fun e he => nomatch he
  | unknown _ => exact fun e he => nomatch he

/-- A refund is for what was charged, in the currency. -/
theorem RefundAmount.domestic {i : PurchaseIntent} {amount : Money}
    (h : RefundAmount w.state i amount) (hs : Sound w.state)
    (hd : Domestic currency w.state)
    (hi : w.state.intents.get? i.id = some i)
    (hcur : i.request.finalTotal.currency = currency) :
    amount.currency = currency ∧ 0 ≤ amount.minor := by
  cases h with
  | simulated _ hc =>
      exact ⟨hd.provider.charges _ _ hc, hs.provider.charges _ _ hc⟩
  | manual _ => exact ⟨hcur, le_of_lt (hs.totals _ _ hi)⟩

theorem Reconciled.domestic {i i' : PurchaseIntent}
    {outcome : ReconciliationOutcome} {events : List LedgerEvent}
    (h : Reconciled host w w' w.state i outcome i' events)
    (hs : Sound w.state) (hd : Domestic currency w.state)
    (hi : w.state.intents.get? i.id = some i)
    (hcur : i.request.finalTotal.currency = currency) :
    ∀ e ∈ events, DomesticEvent currency e := by
  have hpos := hs.totals _ _ hi
  have hrefund : ∀ {amount e}, RefundAmount w.state i amount →
      EventIn host w w' .refund amount (some i.id) e →
      DomesticEvent currency e := by
    intro amount e ha he
    obtain ⟨hamount, hnonneg⟩ := ha.domestic hs hd hi hcur
    exact he.domestic (fun _ => hamount) hnonneg
  cases h with
  | settled _ _ he => exact he.domestic hpos
  | declined _ _ he =>
      intro e hmem
      rw [List.mem_singleton.mp hmem]
      exact he.domestic (fun hk => absurd hk (by decide)) (le_of_lt hpos)
  | refunded _ _ he _ ha hr =>
      intro e hmem
      rcases List.mem_append.mp hmem with hmem | hmem
      · exact he.domestic hpos e hmem
      · rw [List.mem_singleton.mp hmem]
        exact hrefund ha hr
  | refundedLater _ _ ha hr =>
      intro e hmem
      rw [List.mem_singleton.mp hmem]
      exact hrefund ha hr

/-- The intent that is reconciled may have cost something. -/
theorem Reconciled.spendable {i i' : PurchaseIntent}
    {outcome : ReconciliationOutcome} {events : List LedgerEvent}
    (h : Reconciled host w w' s i outcome i' events) : Spendable i.state := by
  cases h with
  | settled hu _ _ => exact Or.inl (uncertain_reserved hu)
  | declined hu _ _ => exact Or.inl (uncertain_reserved hu)
  | refunded hu _ _ _ _ _ => exact Or.inl (uncertain_reserved hu)
  | refundedLater hx _ _ _ => exact Or.inr hx

theorem Effect.domestic {i : PurchaseIntent} {s' : TreasuryState} {arm : Arm}
    (h : Effect host w w' i arm s s') (hd : Domestic currency s)
    (hcur : i.request.finalTotal.currency = currency) :
    DomesticProviders currency s' := by
  cases h with
  | none _ => exact hd.toDomesticProviders
  | simulated _ hp =>
      exact ⟨hp.domestic hcur hd.provider, hd.manual, hd.configured⟩
  | manual _ hp hm =>
      obtain ⟨snap, hsnap⟩ := hm.snapshot
      refine ⟨hd.provider, fun m hm' => ?_, fun _ => ⟨_, snap, rfl, hsnap⟩⟩
      obtain rfl := Option.some.inj hm'
      exact hm.domestic (hd.manual _ hp)

/-! ## Deposits and configurations -/

/-- What the provider in force reports is in the currency. -/
theorem Domestic.reported {balance : Money} (h : Domestic currency s)
    (hb : providerReportedBalance s = .ok balance) :
    balance.currency = currency := by
  unfold providerReportedBalance at hb
  cases hm : s.providerMode with
  | simulated =>
      rw [hm] at hb
      unfold SimulatedProvider.availableBalance at hb
      simp only [bind_eq_ok] at hb
      obtain ⟨_, _, _, _, hsub⟩ := hb
      exact (checkedSub_minor hsub).2.1.trans h.provider.balance
  | manualPrepaidCard =>
      rw [hm] at hb
      simp only [bind_eq_ok, orRefuse_eq_ok, pure_eq_ok] at hb
      obtain ⟨snap, hsnap, rfl⟩ := hb
      obtain ⟨m, hm', hget⟩ := Option.bind_eq_some_iff.mp hsnap
      exact h.manual m hm' snap hget

/-- **A VERIFIED DEPOSIT** is accepted for an agent when the balance with it
    is at most the agent's treasury size, and the authority with its share
    at most the agent's ceiling. -/
theorem depositShare_verified {amount reinvested : Money}
    {agentId : Option String} :
    depositShare s amount true agentId = .ok reinvested
      ↔ ∃ id r p balance projected snapshot total, agentId = some id
        ∧ s.agents.get? id = some r ∧ s.policies.get? r.policyId = some p
        ∧ amount.currency = p.primaryCurrency
        ∧ providerReportedBalance s = .ok balance
        ∧ balance.checkedAdd amount = .ok projected
        ∧ projected.minor ≤ p.maxTreasurySize.minor
        ∧ amount.scaledBasisPoints p.reinvestmentRatioBps = .ok reinvested
        ∧ ledgerSnapshot s p.primaryCurrency = .ok snapshot
        ∧ snapshot.availableAuthority.checkedAdd reinvested = .ok total
        ∧ total.minor ≤ p.absoluteExposureCeiling.minor := by
  unfold depositShare reinvestedShare
  simp only [if_true, bind_eq_ok, orRefuse_eq_ok, refuseIf_eq_ok, pure_eq_ok,
    not_not, not_lt, agent_ok, policy_ok]
  constructor
  · rintro ⟨id, hid, r, hr, p, hp, _, hcur, balance, hb, projected, hadd, _,
      hsize, share, hshare, snapshot, hsnap, total, htotal, _, hle, rfl⟩
    exact ⟨id, r, p, balance, projected, snapshot, total, hid, hr, hp, hcur, hb,
      hadd, hsize, hshare, hsnap, htotal, hle⟩
  · rintro ⟨id, r, p, balance, projected, snapshot, total, hid, hr, hp, hcur,
      hb, hadd, hsize, hshare, hsnap, htotal, hle⟩
    exact ⟨id, hid, r, hr, p, hp, ⟨⟩, hcur, balance, hb, projected, hadd, ⟨⟩,
      hsize, reinvested, hshare, snapshot, hsnap, total, htotal, ⟨⟩, hle, rfl⟩

/-- A share is a part of an amount in the amount's currency. -/
theorem scaledBasisPoints_ok {a share : Money} {bps : Nat} :
    a.scaledBasisPoints bps = .ok share
      ↔ bps ≤ 10000 ∧ I64.Fits (Int.tdiv (a.minor * bps) 10000)
        ∧ share = ⟨Int.tdiv (a.minor * bps) 10000, a.currency⟩ := by
  unfold Money.scaledBasisPoints
  simp only [bind_eq_ok, refuseIf_eq_ok, pure_eq_ok, not_lt, not_not]
  constructor
  · rintro ⟨_, hbps, _, hfits, rfl⟩
    exact ⟨hbps, hfits, rfl⟩
  · rintro ⟨hbps, hfits, rfl⟩
    exact ⟨⟨⟩, hbps, ⟨⟩, hfits, rfl⟩

/-- Only what is in the currency is reinvested. -/
theorem depositShare_domestic {amount reinvested : Money} {verified : Bool}
    {agentId : Option String} (hd : Domestic currency s)
    (h : depositShare s amount verified agentId = .ok reinvested)
    (hpos : 0 < reinvested.minor) : reinvested.currency = currency := by
  cases verified with
  | false =>
      unfold depositShare Money.zero Money.new at h
      simp only [Bool.false_eq_true, if_false, bind_eq_ok, pure_eq_ok] at h
      obtain ⟨_, _, rfl⟩ := h
      exact absurd hpos (lt_irrefl 0)
  | true =>
      obtain ⟨_, _, p, balance, _, _, _, _, _, _, _, hb, hadd, _, hshare, _⟩ :=
        depositShare_verified.mp h
      obtain ⟨_, _, rfl⟩ := scaledBasisPoints_ok.mp hshare
      exact (checkedAdd_minor hadd).2.2.trans (hd.reported hb)

theorem DepositEvents.domestic {amount reinvested : Money} {verified : Bool}
    {events : List LedgerEvent}
    (h : DepositEvents host w w' amount reinvested verified events)
    (hpos : 0 < amount.minor)
    (hcur : 0 < reinvested.minor → reinvested.currency = currency) :
    ∀ e ∈ events, DomesticEvent currency e := by
  have hincome : ∀ {e}, EventIn host w w' (incomeKind verified) amount none e →
      DomesticEvent currency e := by
    intro e he
    refine he.domestic (fun hk => absurd hk ?_) (le_of_lt hpos)
    cases verified <;> decide
  cases h with
  | plain _ he =>
      intro e hmem
      rw [List.mem_singleton.mp hmem]
      exact hincome he
  | topUp hz he he' =>
      intro e hmem
      rcases List.mem_cons.mp hmem with rfl | hmem
      · exact hincome he
      · rw [List.mem_singleton.mp hmem]
        exact he'.domestic (fun _ => hcur hz) (le_of_lt hz)

theorem Credited.domestic {amount : Money} {verified : Bool}
    {s' : TreasuryState} (h : Credited host w w' amount verified s s')
    (hd : Domestic currency s) : DomesticProviders currency s' := by
  cases h with
  | unverified => exact hd.toDomesticProviders
  | simulated _ hb =>
      exact ⟨⟨(checkedAdd_minor hb).2.1.trans hd.provider.balance,
        checkedAdd_fits hb, hd.provider.holds, hd.provider.charges⟩, hd.manual,
        hd.configured⟩
  | manual _ hp hs hb _ =>
      refine ⟨hd.provider, fun m hm => ?_, fun _ => ⟨_, _, rfl, rfl⟩⟩
      obtain rfl := Option.some.inj hm
      rintro _ ⟨⟩
      exact (checkedAdd_minor hb).2.1.trans (hd.manual _ hp _ hs)

theorem checkManualConfiguration_currency {c : ManualProviderConfiguration}
    (h : checkManualConfiguration host s c = .ok ()) :
    c.balance.currency = s.provider.balance.currency := by
  unfold checkManualConfiguration at h
  simp only [bind_eq_ok, refuseIf_eq_ok] at h
  obtain ⟨_, _, _, _, _, _, _, _, _, hcur, _⟩ := h
  exact not_not.mp hcur

/-- A card is configured when every purchase is over. -/
theorem checkManualConfiguration_terminal {c : ManualProviderConfiguration}
    (h : checkManualConfiguration host s c = .ok ()) :
    ∀ i ∈ s.intents.values, isTerminal i.state = true := by
  unfold checkManualConfiguration at h
  simp only [bind_eq_ok, refuseIf_eq_ok] at h
  obtain ⟨_, _, _, hterminal, _⟩ := h
  intro i hi
  by_contra hno
  refine hterminal (List.any_eq_true.mpr ⟨i, hi, ?_⟩)
  rw [Bool.eq_false_iff.mpr hno]
  rfl

/-- **ONE CURRENCY** is kept by every change. -/
theorem Change.domestic (h : Change host l w w') (hs : Sound w.state)
    (hd : Domestic currency w.state) : Domestic currency w'.state := by
  cases h with
  | quiet h =>
      rw [h.state]
      exact hd
  | @addIntent _ _ i _ _ hn _ heq _ =>
      rw [heq]
      refine hd.book (hd.toDomesticProviders.frame rfl rfl rfl) rfl (fun hx => ?_)
        (List.append_nil _).symm
        fun e (he : e ∈ ([] : List LedgerEvent)) => nomatch he
      rw [hn.state] at hx
      rcases hx with hx | hx <;>
        (unfold stateOfDecision at hx; split at hx)
      · exact nomatch hx
      · split at hx <;> exact nomatch hx
      · exact nomatch hx
      · split at hx <;> exact nomatch hx
  | reserve _ hi hr hh _ _ heq _ =>
      have hcur := hr.domestic hi hs hd
      rw [heq]
      refine hd.book (hd.toDomesticProviders.frame rfl rfl rfl) rfl (fun _ => hcur) rfl ?_
      intro e he
      rw [List.mem_singleton.mp he]
      exact hh.domestic (fun hk => absurd hk (by decide))
        (le_of_lt (hs.totals _ _ hi))
  | move _ hi hm _ heq _ =>
      rw [heq]
      refine hd.book (hd.toDomesticProviders.frame rfl rfl rfl) rfl (fun hx => ?_)
        (List.append_nil _).symm
        fun e (he : e ∈ ([] : List LedgerEvent)) => nomatch he
      rcases hx with hx | hx
      · have hcur := hd.intents _ _ hi (Or.inl (hm.held hx))
        exact hcur
      · obtain rfl : _ = TransactionState.settled := hx
        rcases hm with ⟨_, h | h | h⟩ | ⟨_, h⟩ <;> exact nomatch h
  | conclude _ hi hx hc _ heq _ =>
      have hcur := hd.intents _ _ hi (Or.inl (by rw [hx]; rfl))
      rw [heq]
      exact hd.book (hd.toDomesticProviders.frame rfl rfl rfl) rfl
        (fun _ => by rw [hc.continues.1.request]; exact hcur) rfl
        (hc.domestic (hs.totals _ _ hi))
  | authorize _ hi hx _ hp heq _ =>
      have hcur := hd.intents _ _ hi (Or.inl (by rw [hx]; rfl))
      rw [heq]
      exact ⟨⟨hp.domestic hcur hd.provider, hd.manual, hd.configured⟩, hd.intents,
        hd.events⟩
  | @reconcile _ _ i i' _ s events _ hi hr hp heq _ =>
      have hcur := hd.intents _ _ hi hr.spendable
      have hproviders := hp.domestic hd hcur
      obtain ⟨_, _, hfields⟩ := hp.fields
      have hintents : ((s.withEvents events).withIntent i.id i').intents
          = w.state.intents.insert i.id i' := by
        rw [hfields]
        rfl
      have hledger : ((s.withEvents events).withIntent i.id i').ledger
          = w.state.ledger ++ events := by
        rw [hfields]
        rfl
      rw [heq]
      exact hd.book (hproviders.frame rfl rfl rfl) hintents
        (fun _ => by rw [hr.continues.1.request]; exact hcur) hledger
        (hr.domestic hs hd hi hcur)
  | deposit _ hpos hsh hc he _ heq _ =>
      have hproviders := hc.domestic hd
      obtain ⟨_, _, hfields⟩ := hc.fields
      rw [heq]
      refine ⟨hproviders.frame rfl rfl rfl, ?_, fun e hmem => ?_⟩
      · rw [hfields]
        exact hd.intents
      · rw [hfields] at hmem
        exact (List.mem_append.mp hmem).elim (hd.events e)
          (he.domestic hpos (depositShare_domestic hd hsh) e)
  | configureManual _ hc _ heq _ =>
      rw [heq]
      refine ⟨⟨hd.provider, fun m hm => ?_, fun _ => ⟨_, _, rfl, rfl⟩⟩,
        hd.intents, hd.events⟩
      obtain rfl := Option.some.inj hm
      rintro _ ⟨⟩
      exact (checkManualConfiguration_currency hc).trans hd.provider.balance
  | writeKey _ heq _ _ => exact heq ▸ hd
  | writeState _ heq _ _ _ => exact heq ▸ hd
  | submit _ heq _ _ _ => exact heq ▸ hd
  | _ =>
      rename_i heq _
      rw [heq]
      exact hd.frame rfl rfl rfl rfl rfl

theorem Started.domestic {balance : Money} {token : String}
    (h : Started host balance token w) : Domestic "CAD" w.state := by
  obtain ⟨_, e, _, _, hkind, hamount, _, _, hs⟩ := h.state
  have hcur := h.currency
  have hpos := h.positive
  rw [hs]
  have hbound := h.bound
  have hfits : I64.Fits balance.minor := by
    unfold I64.Fits I64.minValue I64.maxValue
    omega
  refine ⟨⟨⟨hcur, hfits, (fun id a ha => nomatch ha), fun id c hc => nomatch hc⟩,
    (fun m hm => nomatch hm), nofun⟩, (fun id i hi => nomatch hi),
    fun e' he => ?_⟩
  rw [List.mem_singleton.mp he]
  refine ⟨fun _ => ?_, fun _ => ?_⟩
  · rw [hamount]
    exact hcur
  · rw [hamount]
    exact le_of_lt hpos

/-- **ONE CURRENCY**: in every reachable world all money is in CAD. -/
theorem TreasuryRun.domestic {token : String} {w0 : World} {cs : List Call}
    (h : TreasuryRun host token w0 cs w) : Domestic "CAD" w.state := by
  obtain ⟨balance, hs⟩ := h.balance
  exact (h.path.invariant
    (I := fun v => Sound v.state ∧ Domestic "CAD" v.state)
    (fun _ _ _ _ hc hv => ⟨hc.sound hv.1, hc.domestic hv.1 hv.2⟩)
    (fun _ _ _ ha _ => ha) ⟨hs.sound, hs.domestic⟩).2

end Treasury
