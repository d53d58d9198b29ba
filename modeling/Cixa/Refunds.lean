import Cixa.Lasting

/-! # Refunds — a direct refund, and settling first

    An uncertain purchase can be refunded DIRECTLY, or settled and then
    refunded.  Both write the same events, but only the second asks the
    provider for the charge: so a hold that was never settled, a purchase
    the provider knows nothing of, and a card balance below the total tell
    the two apart, and so does an audit log with one slot left. -/

namespace Treasury

open CixaData CixaHost Outcome Checks Transition

variable {host : Host} {w w' : World} {s : TreasuryState} {i : PurchaseIntent}

/-! ## What the provider in force can do -/

/-- The provider in force can charge an intent found settled. -/
inductive Payable (s : TreasuryState) (i : PurchaseIntent) : Prop where
  | held {amount balance : Money} (hm : s.providerMode = .simulated)
      (hh : s.provider.holds.get? i.id = some amount)
      (hb : s.provider.balance.checkedSub amount = .ok balance)
  | charged {c : ProviderCharge} (hm : s.providerMode = .simulated)
      (hh : s.provider.holds.get? i.id = none)
      (hc : s.provider.charges.get? i.id = some c)
  | unknown {available balance : Money} (hm : s.providerMode = .simulated)
      (hh : s.provider.holds.get? i.id = none)
      (hc : s.provider.charges.get? i.id = none)
      (ha : s.provider.availableBalance = .ok available)
      (hle : i.request.finalTotal.minor ≤ available.minor)
      (hb : s.provider.balance.checkedSub i.request.finalTotal = .ok balance)
  | card {m : ManualPrepaidCardProvider} {snap : ManualBalanceSnapshot}
      {balance : Money} (hm : s.providerMode = .manualPrepaidCard)
      (hp : s.manualProvider = some m) (hs : m.balanceSnapshot = some snap)
      (hle : i.request.finalTotal.minor ≤ snap.amount.minor)
      (hb : snap.amount.checkedSub i.request.finalTotal = .ok balance)

/-- The provider in force can give back what an intent cost. -/
inductive Repayable (s : TreasuryState) (i : PurchaseIntent) :
    Bool → Prop where
  | charged {c : ProviderCharge} {balance : Money} {wasSettled : Bool}
      (hm : s.providerMode = .simulated)
      (hc : s.provider.charges.get? i.id = some c) (hr : c.refunded = false)
      (hb : s.provider.balance.checkedAdd c.amount = .ok balance) :
      Repayable s i wasSettled
  | card {m : ManualPrepaidCardProvider} {snap : ManualBalanceSnapshot}
      {balance : Money} (hm : s.providerMode = .manualPrepaidCard)
      (hp : s.manualProvider = some m) (hs : m.balanceSnapshot = some snap)
      (hb : snap.amount.checkedAdd i.request.finalTotal = .ok balance) :
      Repayable s i true
  | untouched {m : ManualPrepaidCardProvider} {snap : ManualBalanceSnapshot}
      (hm : s.providerMode = .manualPrepaidCard)
      (hp : s.manualProvider = some m) (hs : m.balanceSnapshot = some snap) :
      Repayable s i false

/-- The provider in force can do what an arm asks of it. -/
def Able (s : TreasuryState) (i : PurchaseIntent) : Arm → Prop
  | .charge => Payable s i
  | .release => s.providerMode = .simulated →
      s.provider.charges.get? i.id = none
  | .repay wasSettled => Repayable s i wasSettled

/-- Only the id and the total of the intent matter, and of the state only the
    providers. -/
theorem Repayable.congr {s' : TreasuryState} {j : PurchaseIntent}
    {wasSettled : Bool} (h : Repayable s i wasSettled)
    (hm : s'.providerMode = s.providerMode) (hp : s'.provider = s.provider)
    (hx : s'.manualProvider = s.manualProvider) (hid : j.id = i.id)
    (hreq : j.request = i.request) : Repayable s' j wasSettled := by
  cases h with
  | charged hmode hc hr hb =>
      exact .charged (hm.trans hmode) (hp.symm ▸ hid.symm ▸ hc) hr
        (hp.symm ▸ hb)
  | card hmode hcard hs hb =>
      exact .card (hm.trans hmode) (hx.trans hcard) hs (hreq.symm ▸ hb)
  | untouched hmode hcard hs =>
      exact .untouched (hm.trans hmode) (hx.trans hcard) hs

theorem Payable.congr {j : PurchaseIntent} (h : Payable s i)
    (hid : j.id = i.id) (hreq : j.request = i.request) : Payable s j := by
  cases h with
  | held hm hh hb => exact .held hm (hid.symm ▸ hh) hb
  | charged hm hh hc => exact .charged hm (hid.symm ▸ hh) (hid.symm ▸ hc)
  | unknown hm hh hc ha hle hb =>
      exact .unknown hm (hid.symm ▸ hh) (hid.symm ▸ hc) ha (hreq.symm ▸ hle)
        (hreq.symm ▸ hb)
  | card hm hp hs hle hb =>
      exact .card hm hp hs (hreq.symm ▸ hle) (hreq.symm ▸ hb)

/-! ## When a reconciliation fails -/

/-- What can be charged is charged, and nothing else is, and then nothing is
    held. -/
theorem chargeReconciled_payable {reference : String} :
    wp (chargeReconciled host i (some reference))
      (fun _ a => Payable w.state i ∧ (w.state.providerMode = .simulated →
        a.state.provider.holds.get? i.id = none))
      (fun _ _ => ¬Payable w.state i) w := by
  unfold chargeReconciled
  rw [wp_bind, wp_readState]
  cases hm : w.state.providerMode with
  | simulated =>
      unfold reconciledReference SimulatedProvider.reconcileSettled
        SimulatedProvider.settlePending SimulatedProvider.put
      rw [wp_bind, wp_pure, wp_bind, wp_readState]
      dsimp only
      rw [wp_ite]
      constructor
      -- the hold at the provider is paid from
      · intro hheld
        obtain ⟨amount, hh⟩ := SortedMap.contains_iff.mp hheld
        rw [wp_bind, wp_readState, wp_bind, wp_orReject]
        refine ⟨fun hnone => (nomatch hnone.symm.trans hh), fun a ha => ?_⟩
        obtain rfl := Option.some.inj (hh.symm.trans ha)
        rw [wp_bind, wp_modifyState, wp_bind, wp_lift]
        refine ⟨fun e he hpay => ?_, fun balance hb => ?_⟩
        · cases hpay with
          | held _ hh' hb =>
              obtain rfl := Option.some.inj (hh.symm.trans hh')
              exact nomatch he.symm.trans hb
          | charged _ hn _ => exact nomatch hh.symm.trans hn
          | unknown _ hn _ _ _ _ => exact nomatch hh.symm.trans hn
          | card hm' _ _ _ _ => exact nomatch hm.symm.trans hm'
        · rw [wp_bind, wp_newId, wp_bind, wp_modifyState, wp_pure]
          refine ⟨.held hm hh hb, fun _ => ?_⟩
          exact (SortedMap.get?_erase ..).trans (if_pos rfl)
      intro hfree
      have hnone : w.state.provider.holds.get? i.id = none :=
        Option.eq_none_iff_forall_ne_some.mpr fun a ha =>
          hfree (SortedMap.contains_iff.mpr ⟨a, ha⟩)
      cases hc : w.state.provider.charges.get? i.id with
      | some charge =>
          dsimp only
          rw [wp_bind, wp_modifyState, wp_pure]
          exact ⟨.charged hm hnone hc, fun _ => hnone⟩
      | none =>
          -- nothing is known of it, so it must fit what is available
          have hopen : Payable w.state i → ∃ available balance,
              w.state.provider.availableBalance = .ok available
                ∧ i.request.finalTotal.minor ≤ available.minor
                ∧ w.state.provider.balance.checkedSub i.request.finalTotal
                  = .ok balance := by
            intro hpay
            cases hpay with
            | held _ hh _ => exact nomatch hnone.symm.trans hh
            | charged _ _ hc' => exact nomatch hc.symm.trans hc'
            | unknown _ _ _ ha hle hb => exact ⟨_, _, ha, hle, hb⟩
            | card hm' _ _ _ _ => exact nomatch hm.symm.trans hm'
          dsimp only
          rw [wp_bind, wp_lift]
          refine ⟨fun e he hpay => ?_, fun available ha => ?_⟩
          · obtain ⟨_, _, ha, _⟩ := hopen hpay
            exact nomatch he.symm.trans ha
          rw [wp_bind, wp_rejectIf]
          refine ⟨fun hlt hpay => ?_, fun hle => ?_⟩
          · obtain ⟨_, _, ha', hle, _⟩ := hopen hpay
            obtain rfl := Except.ok.inj (ha.symm.trans ha')
            exact absurd hlt (not_lt.mpr hle)
          rw [wp_bind, wp_lift]
          refine ⟨fun e he hpay => ?_, fun balance hb => ?_⟩
          · obtain ⟨_, _, _, _, hb⟩ := hopen hpay
            exact nomatch he.symm.trans hb
          · rw [wp_bind, wp_modifyState, wp_pure]
            exact ⟨.unknown hm hnone hc ha (not_lt.mp hle) hb, fun _ => hnone⟩
  | manualPrepaidCard =>
      -- of a card only the balance is asked
      have hcard : Payable w.state i → ∃ m snap balance,
          w.state.manualProvider = some m ∧ m.balanceSnapshot = some snap
            ∧ i.request.finalTotal.minor ≤ snap.amount.minor
            ∧ snap.amount.checkedSub i.request.finalTotal = .ok balance := by
        intro hpay
        cases hpay with
        | held hm' _ _ => exact nomatch hm.symm.trans hm'
        | charged hm' _ _ => exact nomatch hm.symm.trans hm'
        | unknown hm' _ _ _ _ _ => exact nomatch hm.symm.trans hm'
        | card _ hp hs hle hb => exact ⟨_, _, _, hp, hs, hle, hb⟩
      unfold orReject manualBalance
      rw [wp_bind, wp_pure, wp_bind, wp_bind, wp_readState, wp_bind,
        wp_orReject]
      refine ⟨fun hnone hpay => ?_, fun m hp => ?_⟩
      · obtain ⟨_, _, _, hp, _⟩ := hcard hpay
        exact nomatch hnone.symm.trans hp
      rw [wp_bind, wp_orReject]
      refine ⟨fun hnone hpay => ?_, fun snap hs => ?_⟩
      · obtain ⟨_, _, _, hp', hs, _⟩ := hcard hpay
        obtain rfl := Option.some.inj (hp.symm.trans hp')
        exact nomatch hnone.symm.trans hs
      have hsame : Payable w.state i →
          i.request.finalTotal.minor ≤ snap.amount.minor
            ∧ ∃ balance, snap.amount.checkedSub i.request.finalTotal
              = .ok balance := by
        intro hpay
        obtain ⟨_, _, _, hp', hs', hle, hb⟩ := hcard hpay
        obtain rfl := Option.some.inj (hp.symm.trans hp')
        obtain rfl := Option.some.inj (hs.symm.trans hs')
        exact ⟨hle, _, hb⟩
      rw [wp_pure]
      dsimp only
      rw [wp_bind, wp_rejectIf]
      refine ⟨fun hlt hpay => absurd hlt (not_lt.mpr (hsame hpay).1),
        fun hle => ?_⟩
      rw [wp_bind, wp_lift]
      refine ⟨fun e he hpay => ?_, fun amount hb => ?_⟩
      · obtain ⟨_, _, hb⟩ := hsame hpay
        exact nomatch he.symm.trans hb
      · unfold putManualBalance
        rw [wp_bind, wp_now, wp_bind, wp_modifyState, wp_pure]
        exact ⟨.card hm hp hs (not_lt.mp hle) hb, nofun⟩

/-- What can be given back is given back, and nothing else is. -/
theorem refundProvider_repayable {wasSettled : Bool} :
    wp (refundProvider host i wasSettled)
      (fun _ _ => Repayable w.state i wasSettled)
      (fun _ _ => ¬Repayable w.state i wasSettled) w := by
  unfold refundProvider
  rw [wp_bind, wp_readState]
  cases hm : w.state.providerMode with
  | simulated =>
      -- On the simulated card only a charge not refunded yet can be repaid.
      have hcharged : Repayable w.state i wasSettled → ∃ c balance,
          w.state.provider.charges.get? i.id = some c ∧ c.refunded = false
            ∧ w.state.provider.balance.checkedAdd c.amount = .ok balance := by
        intro hrep
        cases hrep with
        | charged _ hc hr hb => exact ⟨_, _, hc, hr, hb⟩
        | card hm' _ _ _ => exact nomatch hm.symm.trans hm'
        | untouched hm' _ _ => exact nomatch hm.symm.trans hm'
      show wp (SimulatedProvider.refund i.id) _ _ w
      unfold SimulatedProvider.refund SimulatedProvider.put
      rw [wp_bind, wp_readState, wp_bind, wp_orReject]
      refine ⟨fun hnone hrep => ?_, fun charge hc => ?_⟩
      · obtain ⟨_, _, hc, _⟩ := hcharged hrep
        exact nomatch hnone.symm.trans hc
      rw [wp_bind, wp_rejectIf]
      refine ⟨fun hrefunded hrep => ?_, fun hr => ?_⟩
      · obtain ⟨_, _, hc', hr, _⟩ := hcharged hrep
        obtain rfl := Option.some.inj (hc.symm.trans hc')
        exact nomatch hrefunded.symm.trans hr
      rw [wp_bind, wp_modifyState, wp_bind, wp_lift]
      refine ⟨fun e he hrep => ?_, fun balance hb => ?_⟩
      · obtain ⟨_, _, hc', _, hb⟩ := hcharged hrep
        obtain rfl := Option.some.inj (hc.symm.trans hc')
        exact nomatch he.symm.trans hb
      · rw [wp_bind, wp_modifyState, wp_pure]
        exact .charged hm hc (Bool.eq_false_iff.mpr hr) hb
  | manualPrepaidCard =>
      unfold manualBalance
      rw [wp_bind, wp_bind, wp_readState, wp_bind, wp_orReject]
      refine ⟨fun hnone hrep => ?_, fun m hp => ?_⟩
      · cases hrep with
        | charged hm' _ _ _ => exact nomatch hm.symm.trans hm'
        | card _ hp _ _ => exact nomatch hnone.symm.trans hp
        | untouched _ hp _ => exact nomatch hnone.symm.trans hp
      rw [wp_bind, wp_orReject]
      refine ⟨fun hnone hrep => ?_, fun snap hs => ?_⟩
      · cases hrep with
        | charged hm' _ _ _ => exact nomatch hm.symm.trans hm'
        | card _ hp' hs _ =>
            obtain rfl := Option.some.inj (hp.symm.trans hp')
            exact nomatch hnone.symm.trans hs
        | untouched _ hp' hs =>
            obtain rfl := Option.some.inj (hp.symm.trans hp')
            exact nomatch hnone.symm.trans hs
      rw [wp_pure]
      dsimp only
      rw [wp_bind, wp_lift]
      refine ⟨fun e he hrep => ?_, fun amount hb => ?_⟩
      · cases hrep with
        | charged hm' _ _ _ => exact nomatch hm.symm.trans hm'
        | card _ hp' hs' hb =>
            obtain rfl := Option.some.inj (hp.symm.trans hp')
            obtain rfl := Option.some.inj (hs.symm.trans hs')
            exact nomatch he.symm.trans hb
        | untouched _ _ _ => exact nomatch he
      · unfold putManualBalance
        rw [wp_bind, wp_now, wp_bind, wp_modifyState, wp_pure]
        cases wasSettled with
        | true => exact .card hm hp hs hb
        | false => exact .untouched hm hp hs

/-- An intent without a receipt is settled. -/
theorem settleIntent_returns {reference : String}
    (hcan : i.state.canTransition .settled = true) (hr : i.receipt = none)
    (hh : i.receiptHash = none) :
    wp (settleIntent host i reference) (fun _ _ => True) (fun _ _ => False)
      w := by
  unfold settleIntent
  refine line (P := fun j _ => j.receipt = none ∧ j.receiptHash = none)
    (wp_transition_of_can hcan ⟨hr, hh⟩) ?_
  rintro j a ⟨hr, hh⟩
  refine line (P := fun _ _ => True) ?_ fun k b _ => ?_
  · unfold issueReceipt
    rw [wp_bind, wp_rejectIf, hr, hh]
    refine ⟨fun h => (h.elim nofun nofun), fun _ => ?_⟩
    rw [wp_bind, wp_now, wp_pure]
    trivial
  · refine line (recordSettled_spec k) fun _ c _ => ?_
    rw [wp_pure]
    trivial

/-- **WHEN A RECONCILIATION FAILS**: exactly when the provider cannot do its
    part. -/
theorem reconcileAs_able {j : PurchaseIntent} {reference : String}
    {outcome : ReconciliationOutcome} (hid : j.id = i.id)
    (hreq : j.request = i.request)
    (hj : (isUncertain i.state = true ∧ j.state = .reconciliationRequired
        ∧ j.receipt = none ∧ j.receiptHash = none)
      ∨ (i.state = .settled ∧ j.state = .settled ∧ outcome = .refunded)) :
    wp (reconcileAs host j (some reference) outcome)
      (fun _ a => Able w.state i (armOf i.state outcome)
        ∧ (outcome = .settled → w.state.providerMode = .simulated →
          a.state.provider.holds.get? i.id = none))
      (fun _ _ => ¬Able w.state i (armOf i.state outcome)) w := by
  -- The refund itself, shared by the two arms that come to it.
  have hrefunds : ∀ {a : World} {k : PurchaseIntent} {wasSettled : Bool},
      k.id = i.id → k.request = i.request → k.state = .settled →
      a.state.providerMode = w.state.providerMode →
      a.state.provider = w.state.provider →
      a.state.manualProvider = w.state.manualProvider →
      wp (do
          let refund ← refundProvider host k wasSettled
          let intent ← transition host k .refunded
          appendLedger host .refund refund (some intent.id)
            "owner_reconciliation" true
          pure intent)
        (fun _ _ => Repayable w.state i wasSettled)
        (fun _ _ => ¬Repayable w.state i wasSettled) a := by
    intro a k wasSettled hkid hkreq hk hmode hprov hcard
    refine line (P := fun _ _ => Repayable w.state i wasSettled)
      (wp_mono refundProvider_repayable
        (fun _ _ h => h.congr hmode.symm hprov.symm hcard.symm hkid.symm
          hkreq.symm)
        fun _ _ h hrep => h (hrep.congr hmode hprov hcard hkid hkreq))
      fun amount b hrep => ?_
    refine line (P := fun _ _ => True)
      (wp_transition_of_can (by rw [hk]; rfl) trivial) fun _ c _ => ?_
    rw [wp_bind, wp_appendLedger, wp_pure]
    exact hrep
  rcases hj with ⟨hu, hj, hr, hh⟩ | ⟨hset, hj, rfl⟩
  · have hcan : ∀ {next}, next ∈ [TransactionState.settled, .declined] →
        j.state.canTransition next = true := by
      intro next hnext
      rw [hj]
      revert hnext
      cases next <;> decide
    cases outcome with
    | settled =>
        unfold reconcileAs reconcileAsSettled
        refine line (wp_mono chargeReconciled_payable (fun _ _ h => h)
          fun _ _ h hpay => h (hpay.congr hid hreq)) ?_
        rintro r a ⟨hpay, hfree⟩
        refine wp_mono (wp_and (settle_spec j r)
          (settleIntent_returns (hcan (by decide)) hr hh)) ?_
          fun _ _ h => h.2.elim
        rintro k b ⟨⟨events, _, _, hs, _⟩, _⟩
        refine ⟨hpay.congr hid.symm hreq.symm, fun _ hm => ?_⟩
        rw [hs, ← hid]
        exact hfree hm
    | declined =>
        unfold reconcileAs reconcileAsDeclined releaseReconciled
        rw [wp_bind, wp_readState, wp_bind, wp_rejectIf]
        refine ⟨fun ⟨hm, hc⟩ hable => ?_, fun hcharge => ?_⟩
        · obtain ⟨c, hc⟩ := SortedMap.contains_iff.mp hc
          exact nomatch (hid ▸ hc).symm.trans (hable hm)
        have hable : Able w.state i .release := fun hm =>
          Option.eq_none_iff_forall_ne_some.mpr fun c hc => hcharge
            ⟨hm, SortedMap.contains_iff.mpr ⟨c, hid.symm ▸ hc⟩⟩
        refine line (P := fun _ _ => True) ?_ fun _ a _ => ?_
        · unfold SimulatedProvider.releaseHold SimulatedProvider.put
          rw [wp_bind, wp_readState, wp_ite, wp_pure]
          refine ⟨fun _ => ?_, fun _ => trivial⟩
          rw [wp_bind, wp_readState]
          dsimp only
          rw [wp_modifyState]
          trivial
        · refine line (P := fun _ _ => True)
            (wp_transition_of_can (hcan (by decide)) trivial) fun _ b _ => ?_
          rw [wp_bind, wp_appendLedger, wp_pure]
          exact ⟨hable, nofun⟩
    | refunded =>
        -- An uncertain intent is not settled, so nothing of it was charged yet.
        have harm : armOf i.state .refunded = .repay false := by
          unfold armOf
          rw [decide_eq_false]
          intro hs
          rw [hs] at hu
          exact nomatch hu
        rw [harm]
        have hne : j.state ≠ .settled := by
          rw [hj]
          decide
        unfold reconcileAs reconcileAsRefunded settleForRefund orReject
        rw [if_neg hne, decide_eq_false hne]
        refine line (P := fun k a => SettledSpec host w j k a)
          (wp_mono (wp_and (settle_spec j reference)
            (settleIntent_returns (hcan (by decide)) hr hh))
            (fun _ _ h => h.1) fun _ _ h => h.2.elim) ?_
        rintro k a ⟨events, _, _, hs, hk, _⟩
        obtain ⟨_, _, _, _, _, heq⟩ := hk.shape
        refine wp_mono (hrefunds (hk.id.trans hid) ?_ ?_ ?_ ?_ ?_)
          (fun _ _ h => ⟨h, nofun⟩) fun _ _ h => h
        · rw [heq]
          exact hreq
        · rw [heq]
          rfl
        all_goals rw [hs]; rfl
  · have harm : armOf i.state .refunded = .repay true := by
      unfold armOf
      rw [decide_eq_true hset]
    rw [harm]
    unfold reconcileAs reconcileAsRefunded settleForRefund
    rw [if_pos hj, decide_eq_true hj, wp_bind, wp_pure]
    exact wp_mono (hrefunds hid hreq hj rfl rfl rfl) (fun _ _ h => ⟨h, nofun⟩)
      fun _ _ h => h

/-! ## One reconciliation -/

/-- What a reconciliation that succeeds finds and leaves. -/
structure ReconciledTo (host : Host) (outcome : ReconciliationOutcome)
    (i : PurchaseIntent) (w w' : World) : Prop where
  able : Able w.state i (armOf i.state outcome)
  room : hasRoom w.state "reconcile_intent"
  free : outcome = .settled → w.state.providerMode = .simulated →
    w'.state.provider.holds.get? i.id = none
  made : ∃ s events i' e,
    Reconciled host w w' w.state i outcome i' events
      ∧ Effect host w w' i (armOf i.state outcome) w.state s
      ∧ e.action = "reconcile_intent"
      ∧ w'.state = ((s.withEvents events).withIntent i.id i').withEntry e

/-- An uncertain intent without a receipt is marked for reconciliation, a
    settled one is left as it is. -/
theorem enterReconciliation_returns
    (h : (isUncertain i.state = true ∧ i.receipt = none ∧ i.receiptHash = none)
      ∨ i.state = .settled) :
    wp (enterReconciliation host i) (fun j _ =>
        (isUncertain i.state = true ∧ j.state = .reconciliationRequired
          ∧ j.receipt = none ∧ j.receiptHash = none)
        ∨ (i.state = .settled ∧ j.state = .settled))
      (fun _ _ => False) w := by
  unfold enterReconciliation
  rw [wp_ite, wp_pure]
  constructor
  · intro hstate
    have hu : isUncertain i.state = true := by
      rcases hstate with hs | hs <;> rw [hs] <;> rfl
    have hcan : i.state.canTransition .reconciliationRequired = true := by
      rcases hstate with hs | hs <;> rw [hs] <;> rfl
    rcases h with ⟨_, hr, hh⟩ | hset
    · exact wp_transition_of_can hcan (Or.inl ⟨hu, rfl, hr, hh⟩)
    · rw [hset] at hu
      exact nomatch hu
  · intro hneither
    rcases h with ⟨hu, hr, hh⟩ | hset
    · have hrequired : i.state = .reconciliationRequired := by
        have hmem := of_decide_eq_true hu
        simp only [List.mem_cons, List.not_mem_nil, or_false] at hmem
        rcases hmem with hs | hs | hs
        · exact absurd (Or.inl hs) hneither
        · exact absurd (Or.inr hs) hneither
        · exact hs
      exact Or.inl ⟨hu, hrequired, hr, hh⟩
    · exact Or.inr ⟨hset, hset⟩

/-- **A RECONCILIATION SUCCEEDS** exactly when the provider can do its part
    and the audit log has room; a failed one leaves the state as it was. -/
theorem ownerReconcile_spec {id reference valid : String}
    {outcome : ReconciliationOutcome} (hk : Keyed w.state)
    (hi : w.state.intents.get? id = some i)
    (hvalid : validateProviderReference host reference = .ok valid)
    (h : (isUncertain i.state = true ∧ i.receipt = none ∧ i.receiptHash = none)
      ∨ (i.state = .settled ∧ outcome = .refunded)) :
    wp (ownerReconcile host .owner id outcome (some reference))
      (fun _ w' => ReconciledTo host outcome i w w')
      (fun _ w' => w'.state = w.state
        ∧ ¬(Able w.state i (armOf i.state outcome)
          ∧ hasRoom w.state "reconcile_intent")) w := by
  have hid := hk _ _ hi
  unfold ownerReconcile
  rw [wp_bind, wp_readState]
  have howner : requireOwner .owner = .ok ⟨⟩ := rfl
  have hgiven : (some reference).mapM (validateProviderReference host)
      = .ok (some valid) := by
    show some <$> validateProviderReference host reference = _
    rw [hvalid]
    rfl
  rw [howner, lift_ok_bind]
  refine wp_orRestore ?_
  unfold ownerReconcileInner
  rw [wp_bind, wp_readState, hgiven, lift_ok_bind, hi]
  unfold orReject
  rw [wp_bind, wp_pure, wp_bind, wp_rejectIf]
  refine ⟨fun hnot => ?_, fun _ => ?_⟩
  · exact absurd (h.imp And.left And.symm) hnot
  refine line (wp_mono (wp_and enterReconciliation_spec
    (enterReconciliation_returns (h.imp_right And.left)))
    (fun _ _ h => h) fun _ _ h => h.2.elim) ?_
  rintro j a ⟨⟨ha, ⟨state, t, hj⟩, hne, hsame⟩, hstate⟩
  have hjid : j.id = i.id := by rw [hj]
  have hjreq : j.request = i.request := by rw [hj]
  have hspec : wp (reconcileAs host j (some valid) outcome)
      (fun i' b => Booked host i outcome a i' b) (fun _ b => Undoable a b) a := by
    refine reconcileAs_spec hj ?_
    rcases h with ⟨hu, _⟩ | ⟨hset, hout⟩
    · exact Or.inl ⟨hu, hne hu⟩
    · exact Or.inr ⟨hset, hsame hset, hout⟩
  have hable : wp (reconcileAs host j (some valid) outcome)
      (fun _ b => Able a.state i (armOf i.state outcome)
        ∧ (outcome = .settled → a.state.providerMode = .simulated →
          b.state.provider.holds.get? i.id = none))
      (fun _ _ => ¬Able a.state i (armOf i.state outcome)) a := by
    refine reconcileAs_able hjid hjreq (hstate.imp_right fun hset =>
      ⟨hset.1, hset.2, ?_⟩)
    rcases h with ⟨hu, _⟩ | ⟨_, hout⟩
    · rw [hset.1] at hu
      exact nomatch hu
    · exact hout
  refine line (wp_mono (wp_and hspec hable) (fun _ _ h => h)
    fun _ _ hfail => ⟨rfl, fun h => hfail.2 (ha.state ▸ h.1)⟩) ?_
  rintro i' b ⟨⟨hab, s, events, hrec, heff, hs⟩, hable, hfree⟩
  rw [ha.state] at hrec heff hable hfree
  have hwb := ha.toAdvance.trans hab.toAdvance
  rw [wp_bind, wp_storeIntent]
  generalize hv : World.mk _ _ _ _ _ _ = v
  have hvs : v.state = (s.withEvents events).withIntent i.id i' := by
    rw [← hv, ← hrec.id, ← hs]
  have hbv : Advance b v := by
    rw [← hv]
    exact ⟨rfl, Nat.le_refl _, Nat.le_refl _, Nat.le_refl _⟩
  have hroom : hasRoom v.state "reconcile_intent"
      ↔ hasRoom w.state "reconcile_intent" := by
    obtain ⟨p, m, heq⟩ := heff.fields
    rw [hvs, heq]
    exact Iff.rfl
  rw [wp_bind]
  refine wp_audit_or (fun hfull _ => ⟨rfl, fun h => hfull (hroom.mpr h.2)⟩)
    fun hfits => ?_
  rw [wp_pure]
  have hafter : Advance b { v with
      tick := v.tick + 1
      state := v.state.withEntry (entryOf host v "owner" "reconcile_intent"
        (some id) (some i'.policyVersion) allowedBy
        (Json.mkObj [("outcome", Encode.reconciliationOutcome outcome),
          ("provider_reference", Json.optStr i'.providerReference)])) } :=
    hbv.trans ⟨rfl, Nat.le_succ _, Nat.le_refl _, Nat.le_refl _⟩
  refine ⟨hable, hroom.mp hfits, fun hout hm => ?_, s, events, i', _,
    hrec.widen ha.toAdvance hafter, heff.widen ha.toAdvance hafter, ?_,
    congrArg (TreasuryState.withEntry · _) hvs⟩
  · have hheld := hfree hout hm
    rw [hs] at hheld
    show v.state.provider.holds.get? i.id = none
    rw [hvs]
    exact hheld
  · rfl

/-! ## Refunding at once, and after settling -/

section Routes

variable (host : Host) (id reference : String)

/-- Refund an uncertain intent at once. -/
def refundDirectly : Op Json :=
  ownerReconcile host .owner id .refunded (some reference)

/-- Settle an intent. -/
def settleOnly : Op Json :=
  ownerReconcile host .owner id .settled (some reference)

/-- Settle an intent, and then refund it. -/
def settleThenRefund : Op Json := do
  let _ ← settleOnly host id reference
  refundDirectly host id reference

end Routes

/-- Two states agree on a purchase: on its state, on every ledger total, on
    the balances, and that nothing is held for it. -/
structure Agree (id : String) (s t : TreasuryState) : Prop where
  intent : ∃ i j, s.intents.get? id = some i ∧ t.intents.get? id = some j
    ∧ i.state = j.state
  ledger : ∀ currency, ledgerSnapshot s currency = ledgerSnapshot t currency
  balance : s.provider.balance = t.provider.balance
  card : (manualSnapshot s).map ManualBalanceSnapshot.amount
    = (manualSnapshot t).map ManualBalanceSnapshot.amount
  free : s.provider.holds.get? id = none ∧ t.provider.holds.get? id = none

/-- **ALIKE**: the two ways to a refund succeed together, then their ends
    agree, and what fails changes nothing. -/
structure RefundsAlike (host : Host) (id reference : String) (w : World) :
    Prop where
  succeed : (∃ v u, refundDirectly host id reference w = .ok v u)
    ↔ ∃ v u, settleThenRefund host id reference w = .ok v u
  agree : ∀ v u v' u', refundDirectly host id reference w = .ok v u →
    settleThenRefund host id reference w = .ok v' u' → Agree id u.state u'.state
  refundFails : ∀ e u, refundDirectly host id reference w = .error e u →
    u.state = w.state
  settleFails : ∀ e u, settleOnly host id reference w = .error e u →
    u.state = w.state
  laterFails : ∀ v a e u, settleOnly host id reference w = .ok v a →
    refundDirectly host id reference a = .error e u → u.state = a.state

/-- The audit entries that still fit. -/
def slotsLeft (s : TreasuryState) : Nat :=
  maxAuditEntries - nonEmergencyCount s.audit

/-- A direct refund finds something to give back. -/
inductive GivesBack (s : TreasuryState) (i : PurchaseIntent) : Prop where
  | charged {c : ProviderCharge} (hm : s.providerMode = .simulated)
      (hc : s.provider.charges.get? i.id = some c) (hr : c.refunded = false)
      (hfit : s.provider.balance.minor + c.amount.minor ≤ I64.maxValue)
  | card (hm : s.providerMode = .manualPrepaidCard)

/-- **WHERE THE WAYS PART**: a charge is held and not made, or not known and
    could still be made; the card has too little; or one entry fits. -/
inductive Diverges (s : TreasuryState) (i : PurchaseIntent) : Prop where
  | held {amount : Money} (hm : s.providerMode = .simulated)
      (hh : s.provider.holds.get? i.id = some amount)
      (hroom : 2 ≤ slotsLeft s)
  | unknown (hm : s.providerMode = .simulated)
      (hh : s.provider.holds.get? i.id = none)
      (hc : s.provider.charges.get? i.id = none)
      (hle : s.provider.holds.sum Money.minor + i.request.finalTotal.minor
        ≤ s.provider.balance.minor)
      (hroom : 2 ≤ slotsLeft s)
  | short {snap : ManualBalanceSnapshot}
      (hm : s.providerMode = .manualPrepaidCard)
      (hs : manualSnapshot s = some snap)
      (hlt : snap.amount.minor < i.request.finalTotal.minor)
      (hroom : 1 ≤ slotsLeft s)
  | lastSlot (hgives : GivesBack s i) (hroom : slotsLeft s = 1)

/-- Whatever fails changes nothing. -/
theorem ownerReconcile_restores {actor : Actor} {id : String}
    {outcome : ReconciliationOutcome} {reference : Option String}
    {e : TreasuryError}
    (h : ownerReconcile host actor id outcome reference w = .error e w') :
    w'.state = w.state := by
  refine wp_error (P := fun _ _ => True)
    (F := fun (_ : TreasuryError) (u : World) => u.state = w.state) ?_ h
  unfold ownerReconcile
  rw [wp_bind, wp_readState, wp_bind, wp_lift]
  refine ⟨fun _ _ => rfl, fun _ _ => wp_orRestore ?_⟩
  exact wp_mono (wp_self _) (fun _ _ _ => trivial) fun _ _ _ => rfl

/-! ## What reachable states provide -/

/-- What is known of an uncertain intent in a reachable state. -/
structure Grounded (w : World) (i : PurchaseIntent) : Prop where
  keyed : Keyed w.state
  stored : w.state.intents.get? i.id = some i
  uncertain : isUncertain i.state = true
  receipt : i.receipt = none
  receiptHash : i.receiptHash = none
  domestic : Domestic "CAD" w.state
  sound : Sound w.state
  priced : ProviderPriced w.state.provider w.state.intents
  cardFree : w.state.providerMode = .manualPrepaidCard →
    w.state.provider.holds.get? i.id = none
  cardFits : ∀ snap, manualSnapshot w.state = some snap →
    I64.Fits snap.amount.minor
  counted : w.state.generation + 2 ≤ u64Max

variable {id reference valid : String}

theorem Grounded.currency (g : Grounded w i) :
    i.request.finalTotal.currency = "CAD" := by
  refine g.domestic.intents _ _ g.stored (Or.inl ?_)
  have hmem := of_decide_eq_true g.uncertain
  simp only [List.mem_cons, List.not_mem_nil, or_false] at hmem
  rcases hmem with hs | hs | hs <;> rw [hs] <;> rfl

theorem Grounded.positive (g : Grounded w i) :
    0 < i.request.finalTotal.minor := g.sound.totals _ _ g.stored

theorem Grounded.holdAmount (g : Grounded w i) {amount : Money}
    (h : w.state.provider.holds.get? i.id = some amount) :
    amount = i.request.finalTotal := by
  obtain ⟨j, hj, hamount⟩ := g.priced.holds _ _ h
  rw [hamount, Option.some.inj (g.stored.symm.trans hj)]

theorem Grounded.chargeAmount (g : Grounded w i) {c : ProviderCharge}
    (h : w.state.provider.charges.get? i.id = some c) :
    c.amount = i.request.finalTotal := by
  obtain ⟨j, hj, hamount⟩ := g.priced.charges _ _ h
  rw [hamount, Option.some.inj (g.stored.symm.trans hj)]

/-- An entry fits when a slot is left. -/
theorem Grounded.room (g : Grounded w i) :
    hasRoom w.state "reconcile_intent" ↔ 1 ≤ slotsLeft w.state := by
  have hcount := g.counted
  unfold slotsLeft
  constructor
  · intro h
    have hlt : nonEmergencyCount w.state.audit < maxAuditEntries :=
      of_decide_eq_true h.1
    omega
  · intro h
    exact hasRoom_of_safety rfl (by omega) (by omega)

/-- What a direct refund needs of the provider. -/
theorem Grounded.repayable (g : Grounded w i) :
    Repayable w.state i false ↔ GivesBack w.state i := by
  constructor
  · intro h
    cases h with
    | charged hm hc hr hb => exact .charged hm hc hr (checkedAdd_ok.mp hb).2.1.2
    | untouched hm _ _ => exact .card hm
  · intro h
    cases h with
    | charged hm hc hr hfit =>
        have hcur := g.domestic.provider.charges _ _ hc
        have hpos := g.sound.provider.charges _ _ hc
        have hbal := g.domestic.provider.fits.1
        exact .charged hm hc hr (checkedAdd_ok.mpr
          ⟨hcur.trans g.domestic.provider.balance.symm,
            ⟨by omega, hfit⟩, rfl⟩)
    | card hm =>
        obtain ⟨m, snap, hp, hs⟩ := g.domestic.configured hm
        exact .untouched hm hp hs

/-- What a settlement does to the provider in force: a charge that is there
    is kept, and else the total leaves the balance. -/
inductive Paid (s t : TreasuryState) (i : PurchaseIntent) : Prop where
  | kept {c c' : ProviderCharge} (hm : s.providerMode = .simulated)
      (hh : s.provider.holds.get? i.id = none)
      (hc : s.provider.charges.get? i.id = some c)
      (hc' : t.provider.charges.get? i.id = some c')
      (hsame : c'.amount = c.amount ∧ c'.refunded = c.refunded)
      (hb : t.provider.balance = s.provider.balance)
  | made {c' : ProviderCharge} (hm : s.providerMode = .simulated)
      (hfrom : (∃ amount, s.provider.holds.get? i.id = some amount)
        ∨ (s.provider.holds.get? i.id = none
          ∧ s.provider.charges.get? i.id = none))
      (hc' : t.provider.charges.get? i.id = some c')
      (hr : c'.refunded = false)
      (hb : s.provider.balance.checkedSub c'.amount = .ok t.provider.balance)
  | card {m m' : ManualPrepaidCardProvider} {snap snap' : ManualBalanceSnapshot}
      (hm : s.providerMode = .manualPrepaidCard)
      (hp : s.manualProvider = some m) (hs : m.balanceSnapshot = some snap)
      (hp' : t.manualProvider = some m')
      (hs' : m'.balanceSnapshot = some snap')
      (hle : i.request.finalTotal.minor ≤ snap.amount.minor)
      (hb : snap.amount.checkedSub i.request.finalTotal = .ok snap'.amount)
      (hprovider : t.provider = s.provider)

/-- The effect of a settlement after which nothing is held. -/
theorem Effect.paid {a b : World} {s' : TreasuryState}
    (h : Effect host a b i .charge s s')
    (hfree : s.providerMode = .simulated →
      s'.provider.holds.get? i.id = Option.none) : Paid s s' i := by
  cases h with
  | simulated hm hstep ht =>
      have hfree' := hfree hm
      cases hstep with
      | charge hnew _ _ hb =>
          refine .made hm (Or.inr ⟨hfree', hnew⟩)
            (SortedMap.get?_insert_self ..) rfl hb
      | settleHold hh hb =>
          exact .made hm (Or.inl ⟨_, hh⟩) (SortedMap.get?_insert_self ..) rfl hb
      | confirm hh hc =>
          exact .kept hm hh hc (SortedMap.get?_insert_self ..) ⟨rfl, rfl⟩ rfl
      | hold => exact nomatch ht
      | release => exact nomatch ht
      | refund => exact nomatch ht
  | manual hm hp hstep =>
      cases hstep with
      | debit hs hle hb _ => exact .card hm hp hs rfl rfl hle hb rfl

/-- What settling and refunding needs of the provider. -/
inductive Settles (s : TreasuryState) (i : PurchaseIntent) : Prop where
  | held {amount : Money} (hm : s.providerMode = .simulated)
      (hh : s.provider.holds.get? i.id = some amount)
  | kept {c : ProviderCharge} (hm : s.providerMode = .simulated)
      (hh : s.provider.holds.get? i.id = none)
      (hc : s.provider.charges.get? i.id = some c) (hgives : GivesBack s i)
  | unknown (hm : s.providerMode = .simulated)
      (hh : s.provider.holds.get? i.id = none)
      (hc : s.provider.charges.get? i.id = none)
      (hle : s.provider.holds.sum Money.minor + i.request.finalTotal.minor
        ≤ s.provider.balance.minor)
  | card {snap : ManualBalanceSnapshot}
      (hm : s.providerMode = .manualPrepaidCard)
      (hs : manualSnapshot s = some snap)
      (hle : i.request.finalTotal.minor ≤ snap.amount.minor)

theorem manualSnapshot_eq {m : ManualPrepaidCardProvider}
    (hp : s.manualProvider = some m) :
    manualSnapshot s = m.balanceSnapshot := by
  unfold manualSnapshot
  rw [hp]
  rfl

/-- What is at most the balance can leave it. -/
theorem Grounded.spend (g : Grounded w i)
    (hle : i.request.finalTotal.minor ≤ w.state.provider.balance.minor) :
    ∃ b, w.state.provider.balance.checkedSub i.request.finalTotal = .ok b := by
  have hfits := g.domestic.provider.fits
  have hpos := g.positive
  refine ⟨_, checkedSub_ok.mpr
    ⟨g.currency.trans g.domestic.provider.balance.symm, ?_, rfl⟩⟩
  unfold I64.Fits at hfits ⊢
  unfold I64.minValue at hfits ⊢
  omega

/-- What is settled and refunded can be charged. -/
theorem Grounded.payable (g : Grounded w i) (h : Settles w.state i) :
    Payable w.state i := by
  have hbacked := g.sound.provider
  have hsum : 0 ≤ w.state.provider.holds.sum Money.minor :=
    SortedMap.sum_nonneg hbacked.holds
  cases h with
  | @held amount hm hh =>
      obtain rfl := g.holdAmount hh
      have hone : i.request.finalTotal.minor
          ≤ w.state.provider.holds.sum Money.minor := by
        have herase := SortedMap.sum_erase_of_some Money.minor hh
        have hrest : 0 ≤ (w.state.provider.holds.erase i.id).sum
            Money.minor := by
          refine SortedMap.sum_nonneg fun id a ha => ?_
          rw [SortedMap.get?_erase] at ha
          split at ha
          · exact nomatch ha
          · exact hbacked.holds id a ha
        omega
      obtain ⟨b, hb⟩ := g.spend (le_trans hone hbacked.covered)
      exact .held hm hh hb
  | kept hm hh hc _ => exact .charged hm hh hc
  | unknown hm hh hc hle =>
      obtain ⟨b, hb⟩ := g.spend (by omega)
      obtain ⟨available, ha⟩ := SimulatedProvider.availableBalance_returns
        (by decide) g.domestic.provider hbacked
      have hminor := availableBalance_minor ha
      exact .unknown hm hh hc ha (by omega) hb
  | @card snap hm hs hle =>
      obtain ⟨m, _, hp, _⟩ := g.domestic.configured hm
      have hs' := (manualSnapshot_eq hp).symm.trans hs
      have hfits := g.cardFits snap hs
      have hpos := g.positive
      refine .card hm hp hs' hle (checkedSub_ok.mpr
        ⟨g.currency.trans (g.domestic.manual m hp snap hs').symm, ?_, rfl⟩)
      unfold I64.Fits I64.minValue at hfits ⊢
      omega

/-- A charge that was made, or money that left a card, can be given back. -/
theorem Paid.repayable {t : TreasuryState} (h : Paid w.state t i)
    (g : Grounded w i) (hmode : t.providerMode = w.state.providerMode)
    (hs : Settles w.state i) : Repayable t i true := by
  cases h with
  | kept hm hh hc hc' hsame hb =>
      cases hs with
      | held _ hh' => exact nomatch hh.symm.trans hh'
      | unknown _ _ hn _ => exact nomatch hc.symm.trans hn
      | card hm' _ _ => exact nomatch hm.symm.trans hm'
      | kept _ _ _ hgives =>
          have hrep := g.repayable.mpr hgives
          cases hrep with
          | untouched hm' _ _ => exact nomatch hm.symm.trans hm'
          | charged _ hc₀ hr hadd =>
              obtain rfl := Option.some.inj (hc.symm.trans hc₀)
              rw [← hb, ← hsame.1] at hadd
              exact .charged (hmode.trans hm) hc' (hsame.2.trans hr) hadd
  | made hm _ hc' hr hb =>
      have hfits := g.domestic.provider.fits
      obtain ⟨hcur, _, hbal⟩ := checkedSub_ok.mp hb
      refine .charged (hmode.trans hm) hc' hr (checkedAdd_ok.mpr
        ⟨?_, ?_, rfl⟩)
      · rw [hbal]
        exact hcur
      · rw [hbal]
        show I64.Fits (_ - _ + _)
        rw [sub_add_cancel]
        exact hfits
  | card hm hp hsnap hp' hs' hle hb _ =>
      have hfits := g.cardFits _ ((manualSnapshot_eq hp).trans hsnap)
      obtain ⟨hcur, _, hbal⟩ := checkedSub_ok.mp hb
      refine .card (hmode.trans hm) hp' hs' (checkedAdd_ok.mpr
        ⟨?_, ?_, rfl⟩)
      · rw [hbal]
        exact hcur
      · rw [hbal]
        show I64.Fits (_ - _ + _)
        rw [sub_add_cancel]
        exact hfits

/-- What was charged and given back settles. -/
theorem Paid.settles {t : TreasuryState} (h : Paid w.state t i)
    (hpay : Payable w.state i) (hrep : Repayable t i true)
    (hmode : t.providerMode = w.state.providerMode) : Settles w.state i := by
  cases hpay with
  | held hm hh _ => exact .held hm hh
  | unknown hm hh hc ha hle _ =>
      have hminor := availableBalance_minor ha
      exact .unknown hm hh hc (by omega)
  | card hm hp hs hle _ =>
      exact .card hm ((manualSnapshot_eq hp).trans hs) hle
  | charged hm hh hc =>
      cases h with
      | made _ hfrom _ _ _ =>
          rcases hfrom with ⟨_, hh'⟩ | ⟨_, hn⟩
          · exact nomatch hh.symm.trans hh'
          · exact nomatch hc.symm.trans hn
      | card hm' _ _ _ _ _ _ _ => exact nomatch hm.symm.trans hm'
      | kept _ _ hc₀ hc' hsame hb =>
          cases hrep with
          | card hm' _ _ _ =>
              exact nomatch (hmode.trans hm).symm.trans hm'
          | charged _ hc'' hr hadd =>
              obtain rfl := Option.some.inj (hc'.symm.trans hc'')
              obtain ⟨_, hfit, _⟩ := checkedAdd_ok.mp hadd
              rw [hb, hsame.1] at hfit
              exact .kept hm hh hc₀ (.charged hm hc₀
                (hsame.2.symm.trans hr) hfit.2)

/-! ## The states in between and at the end -/

/-- The intent, the events and the providers after a reconciliation. -/
theorem ReconciledTo.stored {a : World} {outcome : ReconciliationOutcome}
    (h : ReconciledTo host outcome i w a) (hk : Keyed w.state) :
    Keyed a.state ∧ nonEmergencyCount a.state.audit
        = nonEmergencyCount w.state.audit + 1
      ∧ a.state.generation = w.state.generation + 1
      ∧ ∃ s events i', Reconciled host w a w.state i outcome i' events
        ∧ Effect host w a i (armOf i.state outcome) w.state s
        ∧ a.state.intents = w.state.intents.insert i.id i'
        ∧ a.state.ledger = w.state.ledger ++ events
        ∧ a.state.providerMode = w.state.providerMode
        ∧ a.state.provider = s.provider
        ∧ a.state.manualProvider = s.manualProvider := by
  obtain ⟨s, events, i', e, hrec, heff, he, hs⟩ := h.made
  obtain ⟨p, m, heq⟩ := heff.fields
  have hintents : a.state.intents = w.state.intents.insert i.id i' := by
    rw [hs, heq]
    rfl
  refine ⟨fun id j hj => ?_, ?_, ?_, s, events, i', hrec, heff, hintents, ?_, ?_,
    ?_, ?_⟩
  · rw [hintents, SortedMap.get?_insert] at hj
    split at hj
    · rename_i hid
      rw [← Option.some.inj hj, hrec.id, hid]
    · exact hk id j hj
  · rw [hs, heq]
    exact (counts_append (by rw [he]; rfl)).2
  all_goals rw [hs, heq]; rfl

/-- **SETTLED**: the state after the first of two reconciliations. -/
theorem Grounded.settled {a : World} (g : Grounded w i)
    (h : ReconciledTo host .settled i w a) :
    ∃ i', a.state.intents.get? i.id = some i' ∧ i'.id = i.id
      ∧ i'.request = i.request ∧ i'.state = .settled ∧ Keyed a.state
      ∧ a.state.providerMode = w.state.providerMode
      ∧ Paid w.state a.state i
      ∧ (w.state.providerMode = .simulated →
        a.state.provider.holds.get? i.id = none)
      ∧ (hasRoom a.state "reconcile_intent" ↔ 2 ≤ slotsLeft w.state) := by
  obtain ⟨hkeyed, hcount, hgen, s, events, i', hrec, heff, hintents, _, hmode,
    hprov, hcard⟩ := h.stored g.keyed
  have hfree := h.free rfl
  have hpaid : Paid w.state s i := heff.paid fun hm => hprov ▸ hfree hm
  refine ⟨i', ?_, hrec.id, hrec.continues.1.request, ?_, hkeyed, hmode, ?_,
    hfree, ?_⟩
  · rw [hintents, SortedMap.get?_insert_self]
  · cases hrec with
    | settled _ hi _ =>
        obtain ⟨_, _, _, _, _, heq⟩ := hi.shape
        rw [heq]
        rfl
  · cases hpaid with
    | kept hm hh hc hc' hsame hb =>
        exact .kept hm hh hc (hprov.symm ▸ hc') hsame (hprov.symm ▸ hb)
    | made hm hfrom hc' hr hb =>
        exact .made hm hfrom (hprov.symm ▸ hc') hr (hprov.symm ▸ hb)
    | card hm hp hs hp' hs' hle hb hsame =>
        exact .card hm hp hs (hcard.trans hp') hs' hle hb (hprov.trans hsame)
  · have hcounted := g.counted
    unfold slotsLeft
    constructor
    · intro hroom
      have hlt : nonEmergencyCount a.state.audit < maxAuditEntries :=
        of_decide_eq_true hroom.1
      omega
    · intro hroom
      exact hasRoom_of_safety rfl (by omega) (by omega)

/-! ## When each way succeeds -/

theorem armOf_uncertain (hu : isUncertain i.state = true) :
    armOf i.state .refunded = .repay false := by
  unfold armOf
  rw [decide_eq_false]
  intro hs
  rw [hs] at hu
  exact nomatch hu

/-- A direct refund. -/
theorem Grounded.direct (g : Grounded w i)
    (hvalid : validateProviderReference host reference = .ok valid) :
    wp (refundDirectly host i.id reference)
      (fun _ u => ReconciledTo host .refunded i w u
        ∧ (1 ≤ slotsLeft w.state ∧ GivesBack w.state i))
      (fun _ _ => ¬(1 ≤ slotsLeft w.state ∧ GivesBack w.state i)) w := by
  have harm := armOf_uncertain g.uncertain
  refine wp_mono (ownerReconcile_spec g.keyed g.stored hvalid
    (Or.inl ⟨g.uncertain, g.receipt, g.receiptHash⟩)) ?_ ?_
  · intro _ u h
    have hable := h.able
    rw [harm] at hable
    exact ⟨h, g.room.mp h.room, g.repayable.mp hable⟩
  · rintro _ u ⟨_, hno⟩ ⟨hroom, hgives⟩
    rw [harm] at hno
    exact hno ⟨g.repayable.mpr hgives, g.room.mpr hroom⟩

/-- A refund after a settlement. -/
theorem Grounded.staged (g : Grounded w i)
    (hvalid : validateProviderReference host reference = .ok valid) :
    wp (settleThenRefund host i.id reference)
      (fun _ u => (∃ a i', ReconciledTo host .settled i w a
          ∧ a.state.intents.get? i.id = some i'
          ∧ ReconciledTo host .refunded i' a u)
        ∧ (2 ≤ slotsLeft w.state ∧ Settles w.state i))
      (fun _ _ => ¬(2 ≤ slotsLeft w.state ∧ Settles w.state i)) w := by
  have harm : armOf i.state .settled = .charge := rfl
  unfold settleThenRefund
  refine line (P := fun _ a => ReconciledTo host .settled i w a)
    (wp_mono (ownerReconcile_spec g.keyed g.stored hvalid
      (Or.inl ⟨g.uncertain, g.receipt, g.receiptHash⟩)) (fun _ _ h => h) ?_) ?_
  · rintro _ _ ⟨_, hno⟩ ⟨hroom, hsettles⟩
    exact hno ⟨g.payable hsettles, g.room.mpr (by omega)⟩
  intro _ a ha
  obtain ⟨i', hi', hid, hreq, hset, hkeyed, hmode, hpaid, _, hroom⟩ := g.settled ha
  have harm' : armOf i'.state .refunded = .repay true := by
    unfold armOf
    rw [decide_eq_true hset]
  refine wp_mono (ownerReconcile_spec hkeyed hi' hvalid (Or.inr ⟨hset, rfl⟩))
    ?_ ?_
  · intro _ u hu
    have hable := hu.able
    rw [harm'] at hable
    exact ⟨⟨a, i', ha, hi', hu⟩, hroom.mp hu.room, hpaid.settles ha.able
      (hable.congr rfl rfl rfl hid.symm hreq.symm) hmode⟩
  · rintro _ u ⟨_, hno⟩ ⟨hslots, hsettles⟩
    rw [harm'] at hno
    exact hno ⟨(hpaid.repayable g hmode hsettles).congr rfl rfl rfl hid hreq,
      hroom.mpr hslots⟩

/-! ## The same ledger -/

/-- What a snapshot reads of an event. -/
def gist (e : LedgerEvent) : LedgerEventKind × Money := (e.kind, e.amount)

/-- What settling appends, as far as a snapshot reads it. -/
def settlingGist (s : TreasuryState) (i : PurchaseIntent) :
    List (LedgerEventKind × Money) :=
  (if hasEvent s i.id .holdReleased = true then []
    else [(.holdReleased, i.request.finalTotal)])
  ++ (if hasEvent s i.id .spendingSettled = true then []
    else [(.spendingSettled, i.request.finalTotal)])

theorem EventIn.gist {a b : World} {kind : LedgerEventKind} {amount : Money}
    {id : Option String} {e : LedgerEvent}
    (h : EventIn host a b kind amount id e) : gist e = (kind, amount) := by
  unfold Treasury.gist
  rw [h.kind, h.amount]

theorem Settling.gist {a b : World} {events : List LedgerEvent}
    (h : Settling host a b s i events) :
    events.map gist = settlingGist s i := by
  obtain ⟨hr, hs⟩ := h
  unfold settlingGist
  rw [List.map_append]
  congr 1
  · rcases hr with ⟨hhas, rfl⟩ | ⟨hhas, e, rfl, he⟩
    · rw [if_pos hhas]
      rfl
    · rw [if_neg (Bool.eq_false_iff.mp hhas), List.map_singleton, he.gist]
  · rcases hs with ⟨hhas, rfl⟩ | ⟨hhas, e, rfl, he⟩
    · rw [if_pos hhas]
      rfl
    · rw [if_neg (Bool.eq_false_iff.mp hhas), List.map_singleton, he.gist]

/-- What a snapshot reads of an intent. -/
def reservedPart (i : PurchaseIntent) : Bool × Money :=
  (i.state.isReserved, i.request.finalTotal)

/-- A snapshot reads no more. -/
theorem ledgerSnapshot_congr {t : TreasuryState}
    (hl : s.ledger.map gist = t.ledger.map gist)
    (hi : s.intents.values.map reservedPart = t.intents.values.map reservedPart)
    (currency : String) : ledgerSnapshot s currency = ledgerSnapshot t currency := by
  have hevents : ∀ b, s.ledger.foldlM addEventSnapshot b
      = t.ledger.foldlM addEventSnapshot b := by
    refine foldlM_congr_map (fun e e' he b => ?_) hl
    obtain ⟨hkind, hamount⟩ := Prod.mk.inj he
    unfold addEventSnapshot
    rw [hkind, hamount]
  have hintents : ∀ b, s.intents.values.foldlM addIntentSnapshot b
      = t.intents.values.foldlM addIntentSnapshot b := by
    refine foldlM_congr_map (fun j j' hj b => ?_) hi
    obtain ⟨hres, htotal⟩ := Prod.mk.inj hj
    unfold addIntentSnapshot
    rw [hres, htotal]
  unfold ledgerSnapshot
  congr 1
  funext zero
  rw [hevents]
  congr 1
  funext events
  rw [hintents]

/-! ## The ends agree -/

theorem Effect.cardKept {a b : World} {s' : TreasuryState} {arm : Arm}
    (h : Effect host a b i arm s s') (hm : s.providerMode = .simulated) :
    s'.manualProvider = s.manualProvider := by
  cases h with
  | none => rfl
  | simulated => rfl
  | manual hm' => exact nomatch hm.symm.trans hm'

theorem Effect.providerKept {a b : World} {s' : TreasuryState} {arm : Arm}
    (h : Effect host a b i arm s s') (hm : s.providerMode = .manualPrepaidCard) :
    s'.provider = s.provider := by
  cases h with
  | none => rfl
  | simulated hm' => exact nomatch hm.symm.trans hm'
  | manual => rfl

/-- A refund of the simulated provider gives back the charge. -/
theorem Effect.repaid {a b : World} {s' : TreasuryState} {wasSettled : Bool}
    (h : Effect host a b i (.repay wasSettled) s s')
    (hm : s.providerMode = .simulated) :
    ∃ c, s.provider.charges.get? i.id = some c
      ∧ s.provider.balance.checkedAdd c.amount = .ok s'.provider.balance
      ∧ s'.provider.holds = s.provider.holds := by
  cases h with
  | manual hm' => exact nomatch hm.symm.trans hm'
  | simulated _ hstep ht =>
      cases hstep with
      | refund hc _ hb => exact ⟨_, hc, hb, rfl⟩
      | _ => exact nomatch ht

/-- The manual card gets back what left it, or is left as it is. -/
theorem Effect.credited {a b : World} {s' : TreasuryState} {wasSettled : Bool}
    {m : ManualPrepaidCardProvider} {snap : ManualBalanceSnapshot}
    (h : Effect host a b i (.repay wasSettled) s s')
    (hm : s.providerMode = .manualPrepaidCard) (hp : s.manualProvider = some m)
    (hs : m.balanceSnapshot = some snap) :
    ∃ amount, (manualSnapshot s').map ManualBalanceSnapshot.amount = some amount
      ∧ if wasSettled = true
        then snap.amount.checkedAdd i.request.finalTotal = .ok amount
        else amount = snap.amount := by
  cases h with
  | simulated hm' => exact nomatch hm.symm.trans hm'
  | manual _ hp' hstep =>
      obtain rfl := Option.some.inj (hp.symm.trans hp')
      cases hstep with
      | credit hs' hb _ =>
          obtain rfl := Option.some.inj (hs.symm.trans hs')
          exact ⟨_, rfl, hb⟩
      | touch hs' _ =>
          obtain rfl := Option.some.inj (hs.symm.trans hs')
          exact ⟨_, rfl, rfl⟩

/-- The simulated balances agree: the charge is given back once. -/
theorem Paid.agree_simulated {a b c d : World} {sD sR t : TreasuryState}
    {i' : PurchaseIntent} (hm : w.state.providerMode = .simulated)
    (hnone : w.state.provider.holds.get? i.id = none)
    (hd : Effect host a b i (.repay false) w.state sD)
    (hpaid : Paid w.state t i) (ht : t.provider.holds.get? i.id = none)
    (hmode : t.providerMode = w.state.providerMode) (hid : i'.id = i.id)
    (hr : Effect host c d i' (.repay true) t sR) :
    sD.provider.balance = sR.provider.balance
      ∧ sD.provider.holds.get? i.id = none
      ∧ sR.provider.holds.get? i.id = none := by
  obtain ⟨c₁, hc₁, hb₁, hh₁⟩ := hd.repaid hm
  obtain ⟨c₂, hc₂, hb₂, hh₂⟩ := hr.repaid (hmode.trans hm)
  refine ⟨?_, hh₁ ▸ hnone, hh₂ ▸ ht⟩
  cases hpaid with
  | kept _ _ hc hc' hsame hb =>
      obtain rfl := Option.some.inj (hc₁.symm.trans hc)
      obtain rfl := Option.some.inj ((hid ▸ hc₂).symm.trans hc')
      rw [hb, hsame.1] at hb₂
      exact Except.ok.inj (hb₁.symm.trans hb₂)
  | made _ hfrom _ _ _ =>
      rcases hfrom with ⟨_, hh⟩ | ⟨_, hn⟩
      · exact nomatch hnone.symm.trans hh
      · exact nomatch hc₁.symm.trans hn
  | card hm' _ _ _ _ _ _ _ => exact nomatch hm.symm.trans hm'

/-- The cards agree: what left the card came back. -/
theorem Paid.agree_card {a b c d : World} {sD sR t : TreasuryState}
    {i' : PurchaseIntent} (hm : w.state.providerMode = .manualPrepaidCard)
    (hd : Effect host a b i (.repay false) w.state sD)
    (hpaid : Paid w.state t i)
    (hmode : t.providerMode = w.state.providerMode)
    (hreq : i'.request = i.request)
    (hr : Effect host c d i' (.repay true) t sR) :
    (manualSnapshot sD).map ManualBalanceSnapshot.amount
      = (manualSnapshot sR).map ManualBalanceSnapshot.amount
      ∧ t.provider = w.state.provider := by
  cases hpaid with
  | kept hm' _ _ _ _ _ => exact nomatch hm.symm.trans hm'
  | made hm' _ _ _ _ => exact nomatch hm.symm.trans hm'
  | card _ hp hs hp' hs' _ hb hsame =>
      obtain ⟨x, hx, rfl⟩ := hd.credited hm hp hs
      obtain ⟨y, hy, hadd⟩ := hr.credited (hmode.trans hm) hp' hs'
      refine ⟨?_, hsame⟩
      rw [hx, hy]
      rw [if_pos rfl, hreq] at hadd
      obtain ⟨_, _, hleft⟩ := checkedSub_ok.mp hb
      obtain ⟨_, _, hback⟩ := checkedAdd_ok.mp hadd
      rw [hback, hleft]
      show _ = some (Money.mk (_ - _ + _) _)
      rw [sub_add_cancel]

/-- What is recorded as given back is the total both times. -/
theorem Paid.amounts {t : TreasuryState} {i' : PurchaseIntent}
    {amount amount' : Money} (hpaid : Paid w.state t i)
    (hnone : w.state.provider.holds.get? i.id = none)
    (hmode : t.providerMode = w.state.providerMode) (hid : i'.id = i.id)
    (hreq : i'.request = i.request) (ha : RefundAmount w.state i amount)
    (ha' : RefundAmount t i' amount') : amount = amount' := by
  cases ha with
  | manual hm =>
      cases ha' with
      | simulated hm' _ => exact nomatch hm.symm.trans (hmode.symm.trans hm')
      | manual _ => rw [hreq]
  | simulated hm hc =>
      cases ha' with
      | manual hm' => exact nomatch hm.symm.trans (hmode.symm.trans hm')
      | simulated _ hc' =>
          cases hpaid with
          | kept _ _ hc₀ hc₀' hsame _ =>
              obtain rfl := Option.some.inj (hc.symm.trans hc₀)
              obtain rfl := Option.some.inj ((hid ▸ hc').symm.trans hc₀')
              exact hsame.1.symm
          | made _ hfrom _ _ _ =>
              rcases hfrom with ⟨_, hh⟩ | ⟨_, hn⟩
              · exact nomatch hnone.symm.trans hh
              · exact nomatch hc.symm.trans hn
          | card hm' _ _ _ _ _ _ _ => exact nomatch hm.symm.trans hm'

/-- A refund of an uncertain intent settles it and gives back. -/
theorem Reconciled.refundsUncertain {a b : World} {i' : PurchaseIntent}
    {events : List LedgerEvent}
    (h : Reconciled host a b s i .refunded i' events)
    (hu : isUncertain i.state = true) :
    ∃ amount, RefundAmount s i amount ∧ i'.state = .refunded
      ∧ events.map gist = settlingGist s i ++ [(.refund, amount)] := by
  cases h with
  | refunded _ _ he _ ha hr =>
      refine ⟨_, ha, rfl, ?_⟩
      rw [List.map_append, he.gist, List.map_singleton, hr.gist]
  | refundedLater hset _ _ _ =>
      rw [hset] at hu
      exact nomatch hu

/-- A refund of a settled intent gives back. -/
theorem Reconciled.refundsSettled {a b : World} {i' : PurchaseIntent}
    {events : List LedgerEvent}
    (h : Reconciled host a b s i .refunded i' events)
    (hset : i.state = .settled) :
    ∃ amount, RefundAmount s i amount ∧ i'.state = .refunded
      ∧ events.map gist = [(.refund, amount)] := by
  cases h with
  | refundedLater _ _ ha hr =>
      refine ⟨_, ha, rfl, ?_⟩
      rw [List.map_singleton, hr.gist]
  | refunded hu _ _ _ _ _ =>
      rw [hset] at hu
      exact nomatch hu

theorem Reconciled.settles {a b : World} {i' : PurchaseIntent}
    {events : List LedgerEvent}
    (h : Reconciled host a b s i .settled i' events) :
    events.map gist = settlingGist s i := by
  cases h with
  | settled _ _ he => exact he.gist

/-- **THE ENDS AGREE** where nothing was held before. -/
theorem Grounded.agree {a u u' : World} {i' : PurchaseIntent}
    (g : Grounded w i) (hnone : w.state.provider.holds.get? i.id = none)
    (hd : ReconciledTo host .refunded i w u)
    (hs : ReconciledTo host .settled i w a)
    (hi' : a.state.intents.get? i.id = some i')
    (hr : ReconciledTo host .refunded i' a u') (hid' : i.id = id) :
    Agree id u.state u'.state := by
  obtain ⟨j, hj, hid, hreq, hset, hkeyed, hmode, hpaid, hfree, _⟩ := g.settled hs
  obtain rfl := Option.some.inj (hi'.symm.trans hj)
  obtain ⟨_, _, _, sA, eventsA, iA, hrecA, heffA, hintA, hledA, _, hprovA,
    hcardA⟩ := hs.stored g.keyed
  obtain ⟨_, _, _, sD, eventsD, iD, hrecD, heffD, hintD, hledD, _, hprovD,
    hcardD⟩ := hd.stored g.keyed
  obtain ⟨_, _, _, sR, eventsR, iR, hrecR, heffR, hintR, hledR, _, hprovR,
    hcardR⟩ := hr.stored hkeyed
  rw [armOf_uncertain g.uncertain] at heffD
  have harm : armOf i'.state .refunded = .repay true := by
    unfold armOf
    rw [decide_eq_true hset]
  rw [harm] at heffR
  obtain ⟨amount, hamount, hstD, hgistD⟩ := hrecD.refundsUncertain g.uncertain
  obtain ⟨amount', hamount', hstR, hgistR⟩ := hrecR.refundsSettled hset
  obtain rfl := hpaid.amounts hnone hmode hid hreq hamount hamount'
  -- the second way replaces the intent twice, the first once
  have hintR' : u'.state.intents = w.state.intents.insert i.id iR := by
    rw [hintR, hintA, hid, SortedMap.insert_insert]
  have hledger : ∀ currency,
      ledgerSnapshot u.state currency = ledgerSnapshot u'.state currency := by
    refine ledgerSnapshot_congr ?_ ?_
    · rw [hledD, hledR, hledA, List.map_append, List.map_append, List.map_append,
        hgistD, hgistR, hrecA.settles, List.append_assoc]
    · obtain ⟨before, after, hvalues⟩ := SortedMap.values_insert w.state.intents i.id
      have hpart : reservedPart iD = reservedPart iR := by
        unfold reservedPart
        rw [hstD, hstR, hrecD.continues.1.request, hrecR.continues.1.request,
          hreq]
      rw [hintD, hintR', hvalues, hvalues]
      simp only [List.map_append, List.map_cons, hpart]
  have hintent : ∃ i j, u.state.intents.get? id = some i
      ∧ u'.state.intents.get? id = some j ∧ i.state = j.state := by
    refine ⟨iD, iR, ?_, ?_, hstD.trans hstR.symm⟩
    · rw [hintD, hid', SortedMap.get?_insert_self]
    · rw [hintR', hid', SortedMap.get?_insert_self]
  cases hm : w.state.providerMode with
  | simulated =>
      have hmA := hmode.trans hm
      obtain ⟨hbal, hD, hR⟩ :=
        hpaid.agree_simulated hm hnone heffD (hfree hm) hmode hid heffR
      refine ⟨hintent, hledger, ?_, ?_, ?_, ?_⟩
      · rw [hprovD, hprovR, hbal]
      · unfold manualSnapshot
        rw [hcardD, hcardR, heffD.cardKept hm, heffR.cardKept hmA, hcardA,
          heffA.cardKept hm]
      · rw [hprovD, ← hid']
        exact hD
      · rw [hprovR, ← hid']
        exact hR
  | manualPrepaidCard =>
      obtain ⟨hcard, hprov⟩ := hpaid.agree_card hm heffD hmode hreq heffR
      have hsameD := hprovD.trans (heffD.providerKept hm)
      have hsameR := (hprovR.trans (heffR.providerKept (hmode.trans hm))).trans
        hprov
      refine ⟨hintent, hledger, by rw [hsameD, hsameR], ?_, ?_, ?_⟩
      · unfold manualSnapshot
        rw [hcardD, hcardR]
        exact hcard
      · rw [hsameD, ← hid']
        exact hnone
      · rw [hsameR, ← hid']
        exact hnone

/-! ## Exactly when the two are alike -/

/-- Where a charge was held, a direct refund gives back what was never
    taken. -/
theorem Grounded.held (g : Grounded w i) {u a u' : World} {i' : PurchaseIntent}
    {amount : Money} (hm : w.state.providerMode = .simulated)
    (hh : w.state.provider.holds.get? i.id = some amount)
    (hd : ReconciledTo host .refunded i w u)
    (hs : ReconciledTo host .settled i w a)
    (hi' : a.state.intents.get? i.id = some i')
    (hr : ReconciledTo host .refunded i' a u') :
    u.state.provider.balance ≠ u'.state.provider.balance := by
  obtain ⟨j, hj, hid, _, hset, hkeyed, hmode, hpaid, _, _⟩ := g.settled hs
  obtain rfl := Option.some.inj (hi'.symm.trans hj)
  obtain ⟨_, _, _, sD, _, _, _, heffD, _, _, _, hprovD, _⟩ := hd.stored g.keyed
  obtain ⟨_, _, _, sR, _, _, _, heffR, _, _, _, hprovR, _⟩ := hr.stored hkeyed
  rw [armOf_uncertain g.uncertain] at heffD
  have harm : armOf i'.state .refunded = .repay true := by
    unfold armOf
    rw [decide_eq_true hset]
  rw [harm] at heffR
  obtain ⟨c, hc, hb, _⟩ := heffD.repaid hm
  obtain ⟨c', hc', hb', _⟩ := heffR.repaid (hmode.trans hm)
  have htotal := g.chargeAmount hc
  have hpos := g.positive
  have hD := (checkedAdd_minor hb).1
  have hR := (checkedAdd_minor hb').1
  intro heq
  rw [hprovD, hprovR] at heq
  rw [heq, htotal] at hD
  cases hpaid with
  | kept _ hn _ _ _ _ => exact nomatch hh.symm.trans hn
  | card hm' _ _ _ _ _ _ _ => exact nomatch hm.symm.trans hm'
  | made _ _ hc₀ _ hsub =>
      obtain rfl := Option.some.inj ((hid ▸ hc').symm.trans hc₀)
      have hA := (checkedSub_minor hsub).1
      omega

/-- **DIRECT AND STAGED REFUNDS** are alike but where they diverge. -/
theorem Grounded.alike (g : Grounded w i)
    (hvalid : validateProviderReference host reference = .ok valid) :
    RefundsAlike host i.id reference w ↔ ¬Diverges w.state i := by
  have hdirect := g.direct hvalid
  have hstaged := g.staged hvalid
  have hdirectly := returns_iff hdirect
  have hboth := returns_iff hstaged
  constructor
  · rintro h hdiv
    have hsame := h.succeed
    rw [hdirectly, hboth] at hsame
    -- Each way to part company makes only one of the two routes succeed, or
    -- leaves the balances apart.
    cases hdiv with
    | held hm hh hroom =>
        have hsettles : Settles w.state i := .held hm hh
        obtain ⟨v', u', hx'⟩ := hboth.mpr ⟨hroom, hsettles⟩
        obtain ⟨v, u, hx⟩ := hdirectly.mpr (hsame.mpr ⟨hroom, hsettles⟩)
        obtain ⟨⟨a, i', ha, hi', hu'⟩, _⟩ := wp_ok hstaged hx'
        exact g.held hm hh (wp_ok hdirect hx).1 ha hi' hu'
          (h.agree v u v' u' hx hx').balance
    | unknown hm hh hc hle hroom =>
        cases (hsame.mpr ⟨hroom, .unknown hm hh hc hle⟩).2 with
        | charged _ hc' _ _ => exact nomatch hc.symm.trans hc'
        | card hm' => exact nomatch hm.symm.trans hm'
    | short hm hs hlt hroom =>
        cases (hsame.mp ⟨hroom, .card hm⟩).2 with
        | held hm' _ => exact nomatch hm.symm.trans hm'
        | kept hm' _ _ _ => exact nomatch hm.symm.trans hm'
        | unknown hm' _ _ _ => exact nomatch hm.symm.trans hm'
        | card _ hs' hle =>
            obtain rfl := Option.some.inj (hs.symm.trans hs')
            omega
    | lastSlot hgives hroom =>
        have hslots := (hsame.mp ⟨by omega, hgives⟩).1
        omega
  · intro hno
    -- A hold with room for both routes would already be a divergence.
    have hnone : 2 ≤ slotsLeft w.state →
        w.state.provider.holds.get? i.id = none := by
      intro hroom
      cases hm : w.state.providerMode with
      | manualPrepaidCard => exact g.cardFree hm
      | simulated =>
          exact Option.eq_none_iff_forall_ne_some.mpr fun amount hh =>
            hno (.held hm hh hroom)
    refine ⟨?_, ?_, fun e u => ownerReconcile_restores,
      fun e u => ownerReconcile_restores,
      fun _ a e u _ => ownerReconcile_restores⟩
    · rw [hdirectly, hboth]
      constructor
      · rintro ⟨hone, hgives⟩
        have htwo : 2 ≤ slotsLeft w.state := by
          by_contra hlt
          exact hno (.lastSlot hgives (by omega))
        refine ⟨htwo, ?_⟩
        cases hgives with
        | charged hm hc hr hfit =>
            exact .kept hm (hnone htwo) hc (.charged hm hc hr hfit)
        | card hm =>
            obtain ⟨m, snap, hp, hs⟩ := g.domestic.configured hm
            have hs' := (manualSnapshot_eq hp).trans hs
            refine .card hm hs' (not_lt.mp fun hlt => ?_)
            exact hno (.short hm hs' hlt hone)
      · rintro ⟨htwo, hsettles⟩
        refine ⟨by omega, ?_⟩
        cases hsettles with
        | held hm hh => exact absurd (.held hm hh htwo) hno
        | kept _ _ _ hgives => exact hgives
        | unknown hm hh hc hle =>
            exact absurd (.unknown hm hh hc hle htwo) hno
        | card hm _ _ => exact .card hm
    · intro v u v' u' hx hx'
      obtain ⟨⟨a, i', ha, hi', hu'⟩, htwo, _⟩ := wp_ok hstaged hx'
      exact g.agree (hnone htwo) (wp_ok hdirect hx).1 ha hi' hu' rfl

/-! ## A card has no holds -/

/-- With the card in force, the simulated provider holds only for purchases
    that are over. -/
def HoldsOver (s : TreasuryState) : Prop :=
  s.providerMode = .manualPrepaidCard → ∀ id amount i,
    s.provider.holds.get? id = some amount → s.intents.get? id = some i →
    isTerminal i.state = true

theorem HoldsOver.frame {s' : TreasuryState} (h : HoldsOver s)
    (hm : s'.providerMode = s.providerMode) (hp : s'.provider = s.provider)
    (hi : s'.intents = s.intents) : HoldsOver s' := by
  unfold HoldsOver
  rw [hm, hp, hi]
  exact h

/-- Storing an intent that is over, or for which nothing is held. -/
theorem HoldsOver.insert {s' : TreasuryState} {id : String}
    {i' : PurchaseIntent} (h : HoldsOver s)
    (hm : s'.providerMode = s.providerMode)
    (hp : s.providerMode = .manualPrepaidCard → s'.provider = s.provider)
    (hi : s'.intents = s.intents.insert id i')
    (hx : s.providerMode = .manualPrepaidCard → ∀ amount,
      s.provider.holds.get? id = some amount → isTerminal i'.state = true) :
    HoldsOver s' := by
  intro hmode id' amount j hh hj
  have hmode' := hm.symm.trans hmode
  rw [hp hmode'] at hh
  rw [hi, SortedMap.get?_insert] at hj
  split at hj
  · rename_i hid
    rw [← Option.some.inj hj]
    exact hx hmode' amount (hid ▸ hh)
  · exact h hmode' id' amount j hh hj

/-- An intent that moves is not over. -/
theorem movesTo.open {next : TransactionState} (h : movesTo i next) :
    isTerminal i.state = false := by
  rcases h with ⟨hcan, hnext⟩ | ⟨hs, _⟩
  · rcases hnext with rfl | rfl | rfl <;> revert hcan <;>
      cases i.state <;> decide
  · rw [hs]
    rfl

theorem Change.holdsOver {l : Label} (h : Change host l w w')
    (hids : IdsDrawn host w) (hfresh : FreshBelow host w'.drawn)
    (hpriced : ProviderPriced w.state.provider w.state.intents)
    (hw : HoldsOver w.state) : HoldsOver w'.state := by
  have hopen : ∀ {i : PurchaseIntent} {P : Prop},
      w.state.intents.get? i.id = some i → isTerminal i.state = false →
      w.state.providerMode = .manualPrepaidCard → ∀ amount,
      w.state.provider.holds.get? i.id = some amount → P := by
    intro i P hi hx hm amount hh
    exact nomatch hx.symm.trans (hw hm _ _ _ hh hi)
  cases h with
  | addIntent _ hn _ hs _ =>
      refine hw.insert ?_ ?_ (congrArg TreasuryState.intents hs) ?_
      · rw [hs]
        rfl
      · rw [hs]
        exact fun _ => rfl
      · intro _ amount hh
        obtain ⟨j, hj, _⟩ := hpriced.holds _ _ hh
        exact nomatch (hn.unstored hids hfresh).symm.trans hj
  | reserve _ hi hr _ _ _ hs _ =>
      refine hw.insert ?_ ?_ (congrArg TreasuryState.intents hs) (hopen hi ?_)
      · rw [hs]
        rfl
      · rw [hs]
        exact fun _ => rfl
      · rcases hr.executable with hx | hx <;> rw [hx] <;> rfl
  | move _ hi hm _ hs _ =>
      refine hw.insert ?_ ?_ (congrArg TreasuryState.intents hs)
        (hopen hi hm.open)
      · rw [hs]
        rfl
      · rw [hs]
        exact fun _ => rfl
  | conclude _ hi hx _ _ hs _ =>
      refine hw.insert ?_ ?_ (congrArg TreasuryState.intents hs) (hopen hi ?_)
      · rw [hs]
        rfl
      · rw [hs]
        exact fun _ => rfl
      · rw [hx]
        rfl
  | @reconcile _ _ i i' outcome s events _ hi hr hp hs _ =>
      obtain ⟨p, m, heq⟩ := hp.fields
      have hintents : w'.state.intents = w.state.intents.insert i.id i' := by
        rw [hs, heq]
        rfl
      refine hw.insert ?_ ?_ hintents ?_
      · rw [hs, heq]
        rfl
      · intro hm
        rw [hs]
        exact hp.providerKept hm
      · have huncertain : isUncertain i.state = true →
            isTerminal i.state = false := by
          cases i.state <;> decide
        cases hr with
        | settled hu _ _ => exact hopen hi (huncertain hu)
        | declined hu _ _ => exact hopen hi (huncertain hu)
        | refunded hu _ _ _ _ _ => exact hopen hi (huncertain hu)
        | refundedLater _ _ _ _ => exact fun _ _ _ => rfl
  | authorize _ _ _ hm _ hs _ _ =>
      intro hmode
      rw [hs] at hmode
      exact nomatch hm.symm.trans hmode
  | deposit _ _ _ hc _ _ hs _ =>
      cases hc with
      | unverified =>
          refine hw.frame ?_ ?_ ?_ <;> rw [hs] <;> rfl
      | simulated hm _ =>
          intro hmode
          rw [hs] at hmode
          exact nomatch hm.symm.trans hmode
      | manual _ _ _ _ _ =>
          refine hw.frame ?_ ?_ ?_ <;> rw [hs] <;> rfl
  | configureManual _ hc _ hs _ =>
      intro _ id amount i _ hi
      rw [hs] at hi
      exact checkManualConfiguration_terminal hc i
        (SortedMap.mem_values_of_get? hi)
  | quiet h => exact hw.frame (by rw [h.state]) (by rw [h.state]) (by rw [h.state])
  | audit _ _ hs _ => refine hw.frame ?_ ?_ ?_ <;> rw [hs] <;> rfl
  | addAgent _ _ _ hs _ => refine hw.frame ?_ ?_ ?_ <;> rw [hs] <;> rfl
  | editAgent _ _ _ hs _ => refine hw.frame ?_ ?_ ?_ <;> rw [hs] <;> rfl
  | setPolicy _ _ _ _ _ _ hs _ => refine hw.frame ?_ ?_ ?_ <;> rw [hs] <;> rfl
  | setStop _ hs _ => refine hw.frame ?_ ?_ ?_ <;> rw [hs]
  | configureReceive _ hs _ => refine hw.frame ?_ ?_ ?_ <;> rw [hs]
  | writeKey _ hs _ _ => rw [hs]; exact hw
  | writeState _ hs _ _ _ => rw [hs]; exact hw
  | submit _ hs _ _ _ => rw [hs]; exact hw

/-! ## Every reachable state -/

/-- A run keeps the holds of the card over. -/
theorem TreasuryRun.holdsOver {token : String} {w0 : World} {cs : List Call}
    (h : TreasuryRun host token w0 cs w) (hfresh : FreshBelow host w.drawn) :
    HoldsOver w.state := by
  obtain ⟨balance, hs⟩ := h.balance
  have hinv := h.path.invariant (I := fun v => v.drawn ≤ w.drawn →
    Kept v.state ∧ IdsDrawn host v ∧ Corresponds host v.state
      ∧ HoldsOver v.state) ?_ ?_ ?_ (Nat.le_refl _)
  · exact hinv.2.2.2
  · intro l a b _ hab ha hb
    obtain ⟨h1, h2, h3, h4⟩ := ha (Nat.le_trans hab.advance.drawn hb)
    have hf := hfresh.mono hb
    exact ⟨hab.kept h1, hab.idsDrawn h2, hab.corresponds h1.intents h2 hf h3,
      hab.holdsOver h2 hf h3.provider h4⟩
  · intro a b hab ha _ hr
    obtain ⟨h1, h2, h3, h4⟩ := ha (Nat.le_trans hab.advance.drawn hr)
    exact ⟨h1, h2.restore hab.advance, h3, h4⟩
  · refine fun _ => ⟨hs.kept, hs.idsDrawn, hs.corresponds.1, fun hmode => ?_⟩
    obtain ⟨_, _, _, _, _, _, _, _, hstate⟩ := hs.state
    rw [hstate] at hmode
    exact nomatch hmode

/-- What is known of an uncertain intent in a reachable state. -/
theorem TreasuryRun.grounded {token : String} {w0 : World} {cs : List Call}
    (hrun : TreasuryRun host token w0 cs w) (hfresh : FreshBelow host w.drawn)
    (hword : ∀ snap, manualSnapshot w.state = some snap →
      I64.Fits snap.amount.minor)
    (hi : w.state.intents.get? id = some i)
    (hu : isUncertain i.state = true) : Grounded w i := by
  obtain ⟨hkept, hfits⟩ := hrun.kept
  obtain ⟨balance, hs⟩ := hrun.balance
  obtain ⟨hcorr, _⟩ := hrun.path.corresponds hfresh (Nat.le_refl _)
    hs.kept hs.idsDrawn hs.corresponds.1 hs.corresponds.2
  obtain rfl := hkept.intents _ _ hi
  obtain ⟨hreceipt, hhash⟩ : i.receipt = none ∧ i.receiptHash = none := by
    rcases (hcorr.accounted _ _ hi).receipt with ⟨hst, _⟩ | ⟨_, hr⟩
    · rcases hst with hst | hst <;> rw [hst] at hu <;> exact nomatch hu
    · exact hr
  have hcard : w.state.providerMode = .manualPrepaidCard →
      w.state.provider.holds.get? i.id = none := by
    intro hm
    refine Option.eq_none_iff_forall_ne_some.mpr fun amount hh => ?_
    have hover := hrun.holdsOver hfresh hm _ _ _ hh hi
    revert hu hover
    cases i.state <;> decide
  have hgen : w.state.generation + 2 ≤ u64Max := by
    have := (hkept.workable hfits).generation
    omega
  exact ⟨hkept.intents, hi, hu, hreceipt, hhash, hrun.domestic, hrun.sound,
    hcorr.provider, hcard, hword, hgen⟩

/-- **A DIRECT REFUND** is a settlement and a refund, but for a charge that
    is held or could still be made, a card with too little, and a log with
    one slot: in every reachable state, for every intent in `unknown` or
    `provider_pending` and every valid reference. -/
theorem direct_refund_is_staged {token : String} {w0 : World} {cs : List Call}
    (hrun : TreasuryRun host token w0 cs w) (hfresh : FreshBelow host w.drawn)
    (hword : ∀ snap, manualSnapshot w.state = some snap →
      I64.Fits snap.amount.minor)
    (hi : w.state.intents.get? id = some i)
    (hx : i.state = .unknown ∨ i.state = .providerPending)
    (hvalid : validateProviderReference host reference = .ok valid) :
    RefundsAlike host id reference w ↔ ¬Diverges w.state i := by
  have hu : isUncertain i.state = true := by
    rcases hx with hx | hx <;> rw [hx] <;> rfl
  obtain rfl := hrun.kept.1.intents _ _ hi
  exact (hrun.grounded hfresh hword hi hu).alike hvalid

/-- The calls that execute the first intent. -/
def executedFirst (scenario : SimulatedScenario) (owner : String) : List Call :=
  opening { smallPurchase with scenario := scenario } owner
    ++ [.request agentToken (.executePurchaseIntent (firstIntent stillHost))]

/-- What is looked up of the first intent: its state, and whether its charge
    is made or held. -/
structure LeftIn (state : TransactionState) (charged : Bool) (w : World)
    (i : PurchaseIntent) : Prop where
  id : i.id = firstIntent stillHost
  state : i.state = state
  mode : w.state.providerMode = .simulated
  card : w.state.manualProvider = none
  hold : (w.state.provider.holds.get? i.id).isSome = !charged
  charge : (w.state.provider.charges.get? i.id).isSome = charged
  slots : 2 ≤ slotsLeft w.state
  drawn : w.drawn ≤ 100

instance (state : TransactionState) (charged : Bool) (w : World)
    (i : PurchaseIntent) : Decidable (LeftIn state charged w i) :=
  decidable_of_iff (i.id = firstIntent stillHost ∧ i.state = state
      ∧ w.state.providerMode = .simulated ∧ w.state.manualProvider = none
      ∧ (w.state.provider.holds.get? i.id).isSome = !charged
      ∧ (w.state.provider.charges.get? i.id).isSome = charged
      ∧ 2 ≤ slotsLeft w.state ∧ w.drawn ≤ 100)
    ⟨fun ⟨h1, h2, h3, h4, h5, h6, h7, h8⟩ => ⟨h1, h2, h3, h4, h5, h6, h7, h8⟩,
      fun h => ⟨h.id, h.state, h.mode, h.card, h.hold, h.charge, h.slots,
        h.drawn⟩⟩

/-- Run the first intent, and look up what was left. -/
theorem tryRun_left {scenario : SimulatedScenario} {state : TransactionState}
    {charged : Bool}
    (h : tryRun stillHost ⟨100000, "CAD"⟩ (executedFirst scenario) (fun w =>
      (w.state.intents.get? (firstIntent stillHost)).any fun i =>
        decide (LeftIn state charged w i)) = true) :
    ∃ token w0 w i, TreasuryRun stillHost token w0 (executedFirst scenario token) w
      ∧ FreshBelow stillHost w.drawn
      ∧ (∀ snap, manualSnapshot w.state = some snap → I64.Fits snap.amount.minor)
      ∧ w.state.intents.get? (firstIntent stillHost) = some i
      ∧ LeftIn state charged w i := by
  obtain ⟨token, w0, w, hrun, hcheck⟩ := tryRun_run h
  obtain ⟨i, hi, hleft⟩ := (Option.any_eq_true _ _).mp hcheck
  have hleft := of_decide_eq_true hleft
  refine ⟨token, w0, w, i, hrun, plainHost_fresh ?_, fun snap hs => ?_, hi, hleft⟩
  · exact le_trans hleft.drawn (by decide)
  · unfold manualSnapshot at hs
    rw [hleft.card] at hs
    exact nomatch hs

/-- A charge whose result was lost is refunded in either way. -/
theorem direct_refund_is_staged_lost : ∃ token w0 w, TreasuryRun stillHost
    token w0 (executedFirst .timeoutAfterSubmit token) w
      ∧ RefundsAlike stillHost (firstIntent stillHost) "reference" w := by
  have h : tryRun stillHost ⟨100000, "CAD"⟩ (executedFirst .timeoutAfterSubmit)
      (fun w => (w.state.intents.get? (firstIntent stillHost)).any fun i =>
        decide (LeftIn .unknown true w i)) = true := by
    decide +kernel
  obtain ⟨token, w0, w, i, hrun, hfresh, hword, hi, hleft⟩ := tryRun_left h
  have hvalid : validateProviderReference stillHost "reference"
      = .ok "reference" := by
    decide +kernel
  refine ⟨token, w0, w, hrun, (direct_refund_is_staged hrun hfresh hword hi
    (Or.inl hleft.state) hvalid).mpr fun hdiv => ?_⟩
  have hnone : w.state.provider.holds.get? i.id = none :=
    Option.isSome_eq_false_iff.mp hleft.hold |> Option.isNone_iff_eq_none.mp
  cases hdiv with
  | held _ hh _ => exact nomatch hnone.symm.trans hh
  | unknown _ _ hc _ _ =>
      have hcharge := hleft.charge
      rw [hc] at hcharge
      exact nomatch hcharge
  | short hm _ _ _ => exact nomatch hleft.mode.symm.trans hm
  | lastSlot _ hroom =>
      have := hleft.slots
      omega

/-- **A PENDING CHARGE** is refunded after it is settled, and not at once. -/
theorem direct_refund_refused : ∃ token w0 w i, TreasuryRun stillHost
    token w0 (executedFirst .delayedSettlement token) w
      ∧ w.state.intents.get? (firstIntent stillHost) = some i
      ∧ i.state = .providerPending
      ∧ validateProviderReference stillHost "reference" = .ok "reference"
      ∧ (¬∃ v u, refundDirectly stillHost (firstIntent stillHost) "reference" w
        = .ok v u)
      ∧ ∃ v u, settleThenRefund stillHost (firstIntent stillHost) "reference" w
        = .ok v u := by
  have h : tryRun stillHost ⟨100000, "CAD"⟩ (executedFirst .delayedSettlement)
      (fun w => (w.state.intents.get? (firstIntent stillHost)).any fun i =>
        decide (LeftIn .providerPending false w i)) = true := by
    decide +kernel
  obtain ⟨token, w0, w, i, hrun, hfresh, hword, hi, hleft⟩ := tryRun_left h
  have hvalid : validateProviderReference stillHost "reference"
      = .ok "reference" := by
    decide +kernel
  have g := hrun.grounded hfresh hword hi (by rw [hleft.state]; rfl)
  obtain ⟨amount, hh⟩ := Option.isSome_iff_exists.mp hleft.hold
  refine ⟨token, w0, w, i, hrun, hi, hleft.state, hvalid, ?_, ?_⟩
  · rw [← hleft.id, returns_iff (g.direct hvalid)]
    rintro ⟨_, hgives⟩
    cases hgives with
    | charged _ hc _ _ =>
        have hcharge := hleft.charge
        rw [hc] at hcharge
        exact nomatch hcharge
    | card hm => exact nomatch hleft.mode.symm.trans hm
  · rw [← hleft.id, returns_iff (g.staged hvalid)]
    exact ⟨hleft.slots, .held hleft.mode hh⟩

end Treasury
