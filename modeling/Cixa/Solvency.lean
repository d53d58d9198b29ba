import Cixa.Domestic

/-! # Solvency — the manual balance covers what is reserved

    A manual card has no holds of its own: what is reserved is known from the
    intents only.  Reserving asks whether the balance the owner entered
    covers the new total besides ALL that is reserved, and the balance is
    debited only for an intent that was reserved.  So the balance covers the
    reservations in every reachable state, whoever settles, declines or
    refunds in whatever order. -/

namespace Treasury

open CixaData CixaHost Outcome Checks Transition

variable {host : Host} {w w' : World} {l : Label} {s s' : TreasuryState}
  {currency : String}

/-! ## The manual balance -/

/-- What an arm adds to the manual balance. -/
def Arm.delta (total : Int) : Arm → Int
  | .charge => -total
  | .release => 0
  | .repay wasSettled => if wasSettled = true then total else 0

/-- The manual balance in force. -/
def manualAmount (s : TreasuryState) : Option Int :=
  if s.providerMode = .manualPrepaidCard then
    (manualSnapshot s).map (fun snap => snap.amount.minor)
  else none

theorem manualAmount_eq {n : Int} : manualAmount s = some n
    ↔ s.providerMode = .manualPrepaidCard ∧ ∃ m snap, s.manualProvider = some m
      ∧ m.balanceSnapshot = some snap ∧ snap.amount.minor = n := by
  unfold manualAmount manualSnapshot
  by_cases hm : s.providerMode = .manualPrepaidCard
  · rw [if_pos hm]
    simp [hm, Option.bind_eq_some_iff]
  · rw [if_neg hm]
    simp [hm]

theorem manualAmount_congr (hm : s'.providerMode = s.providerMode)
    (hp : s'.manualProvider = s.manualProvider) :
    manualAmount s' = manualAmount s := by
  unfold manualAmount manualSnapshot
  rw [hm, hp]

theorem ManualStep.delta {total : Money} {arm : Arm}
    {m m' : ManualPrepaidCardProvider} {snap : ManualBalanceSnapshot}
    (h : ManualStep host w w' total arm m m')
    (hs : m.balanceSnapshot = some snap) :
    ∃ snap', m'.balanceSnapshot = some snap'
      ∧ snap'.amount.minor = snap.amount.minor + arm.delta total.minor := by
  cases h with
  | debit hs' _ hb _ =>
      obtain rfl := Option.some.inj (hs.symm.trans hs')
      exact ⟨_, rfl, (checkedSub_minor hb).1.trans (sub_eq_add_neg ..)⟩
  | credit hs' hb _ =>
      obtain rfl := Option.some.inj (hs.symm.trans hs')
      exact ⟨_, rfl, (checkedAdd_minor hb).1⟩
  | touch hs' _ =>
      obtain rfl := Option.some.inj (hs.symm.trans hs')
      exact ⟨_, rfl, (add_zero _).symm⟩

/-- A reconciliation adds what its arm adds. -/
theorem Effect.delta {i : PurchaseIntent} {arm : Arm} {n : Int}
    (h : Effect host w w' i arm s s') (hn : manualAmount s' = some n) :
    ∃ n0, manualAmount s = some n0
      ∧ n = n0 + arm.delta i.request.finalTotal.minor := by
  cases h with
  | none _ => exact ⟨n, hn, (add_zero n).symm⟩
  | simulated hm _ _ =>
      obtain ⟨hm', _⟩ := manualAmount_eq.mp hn
      exact nomatch hm.symm.trans hm'
  | manual hm hp hstep =>
      obtain ⟨_, m', snap', hp', hs', rfl⟩ := manualAmount_eq.mp hn
      obtain rfl := Option.some.inj hp'
      obtain ⟨snap, hs⟩ : ∃ snap, _ = some snap := hstep.before
      obtain ⟨snap'', hs'', hdelta⟩ := hstep.delta hs
      obtain rfl := Option.some.inj (hs'.symm.trans hs'')
      exact ⟨_, manualAmount_eq.mpr ⟨hm, _, snap, hp, hs, rfl⟩, hdelta⟩

/-! ## What is reserved -/

/-- The totals of all reserved intents. -/
def reservedTotal (s : TreasuryState) : Int := heldBy (fun _ => true) s

theorem reservedTotal_nonneg (hs : Sound s) : 0 ≤ reservedTotal s :=
  SortedMap.sum_nonneg fun id i hi => share_nonneg _ (hs.totals id i hi)

/-- In a domestic treasury all that is reserved is in its currency. -/
theorem Domestic.reservedTotal (hd : Domestic currency s) :
    reservedTotal s = heldBy (inCurrency currency) s := by
  unfold Treasury.reservedTotal heldBy
  unfold SortedMap.sum
  refine congrArg List.sum (List.map_congr_left fun i hi => ?_)
  obtain ⟨id, hget⟩ := SortedMap.mem_values.mp hi
  by_cases hres : i.state.isReserved = true
  · have hin : inCurrency currency i = true :=
      decide_eq_true (hd.intents _ _ hget (Or.inl hres))
    rw [share_of_reserved hres, share_of_reserved hres, if_pos rfl, if_pos hin]
  · rw [share_of_free (Bool.eq_false_iff.mpr hres),
      share_of_free (Bool.eq_false_iff.mpr hres)]

theorem share_all {i : PurchaseIntent} : share (fun _ => true) i
    = if i.state.isReserved = true then i.request.finalTotal.minor else 0 := by
  simp [share]

/-- An intent that goes on holds no more than before. -/
theorem Continues.share_le {i i' : PurchaseIntent} (hc : Continues i i')
    (hheld : i'.state.isReserved = true → i.state.isReserved = true)
    (hpos : 0 < i.request.finalTotal.minor) :
    share (fun _ => true) i' ≤ share (fun _ => true) i := by
  rw [share_all, share_all, hc.request]
  by_cases hres : i'.state.isReserved = true
  · rw [if_pos hres, if_pos (hheld hres)]
  · rw [if_neg hres]
    split <;> omega

/-! ## Every change keeps the balance large enough -/

/-- **SOLVENT**: the manual balance covers what is reserved. -/
def Solvent (s : TreasuryState) : Prop :=
  ∀ n, manualAmount s = some n → reservedTotal s ≤ n

/-- Less is reserved, and the balance is the same. -/
theorem Solvent.shrink (h : Solvent s) (hm : s'.providerMode = s.providerMode)
    (hp : s'.manualProvider = s.manualProvider)
    (hle : reservedTotal s' ≤ reservedTotal s) : Solvent s' := by
  intro n hn
  rw [manualAmount_congr hm hp] at hn
  exact le_trans hle (h n hn)

/-- An intent that goes on with the same provider reserves no more. -/
theorem Solvent.goesOn {i i' : PurchaseIntent} (h : Solvent s)
    (hs : Sound s) (hi : s.intents.get? i.id = some i) (hc : Continues i i')
    (hheld : i'.state.isReserved = true → i.state.isReserved = true)
    (hm : s'.providerMode = s.providerMode)
    (hp : s'.manualProvider = s.manualProvider)
    (hstored : s'.intents = s.intents.insert i.id i') : Solvent s' := by
  have hsum := heldBy_next (fun _ => true) hi hstored
  have hle := hc.share_le hheld (hs.totals _ _ hi)
  refine h.shrink hm hp ?_
  unfold reservedTotal
  omega

/-- **THE CHECK**: what is reserved next was compared with the balance. -/
theorem Reservable.solvent {i : PurchaseIntent} {r : AgentRecord} {p : Policy}
    {n : Int} (h : Reservable host w w' i r p) (hd : Domestic currency w.state)
    (hn : manualAmount w.state = some n) :
    reservedTotal w.state + i.request.finalTotal.minor ≤ n := by
  obtain ⟨_, _, _, _, _, _, hpassed⟩ := h.passed
  obtain ⟨hm, m, snap, hprovider, hsnap, rfl⟩ := manualAmount_eq.mp hn
  obtain ⟨m', snap', hprovider', hsnap', ledger, hledger, hle⟩ :=
    hpassed.balance hm
  obtain rfl := Option.some.inj (hprovider.symm.trans hprovider')
  obtain rfl := Option.some.inj (hsnap.symm.trans hsnap')
  have hcur := hd.manual _ hprovider _ hsnap
  rw [hcur] at hledger
  have hreserved := ledgerSnapshot_reserved hledger
  rw [hd.reservedTotal]
  omega

/-- A provider that is configured finds nothing reserved. -/
theorem configured_free {c : ManualProviderConfiguration}
    (h : checkManualConfiguration host s c = .ok ()) :
    reservedTotal s = 0 ∧ 0 ≤ c.balance.minor := by
  have hterminal := checkManualConfiguration_terminal h
  unfold checkManualConfiguration at h
  simp only [bind_eq_ok, refuseIf_eq_ok] at h
  obtain ⟨_, _, _, _, _, hbalance, _⟩ := h
  refine ⟨?_, not_lt.mp (not_or.mp hbalance).1⟩
  unfold reservedTotal heldBy SortedMap.sum
  refine List.sum_eq_zero fun x hx => ?_
  obtain ⟨i, hi, rfl⟩ := List.mem_map.mp hx
  refine share_of_free ?_
  have hdone := hterminal i hi
  revert hdone
  cases i.state <;> decide

/-- A reconciliation gives back what it takes from the balance. -/
theorem Reconciled.solvent {i i' : PurchaseIntent}
    {outcome : ReconciliationOutcome} {events : List LedgerEvent}
    (h : Reconciled host w w' s i outcome i' events)
    (hpos : 0 < i.request.finalTotal.minor) :
    share (fun _ => true) i'
      ≤ share (fun _ => true) i
        + (armOf i.state outcome).delta i.request.finalTotal.minor := by
  have hgives : isUncertain i.state = true →
      share (fun _ => true) i = i.request.finalTotal.minor := fun hu => by
    rw [share_all, if_pos (uncertain_reserved hu)]
  have hfree : i'.state.isReserved = false := by
    cases h with
    | settled _ hi _ =>
        rw [hi.continues.2]
        rfl
    | declined _ _ _ => rfl
    | refunded _ _ _ _ _ _ => rfl
    | refundedLater _ _ _ _ => rfl
  rw [share_of_free hfree]
  cases h with
  | settled hu _ _ =>
      rw [hgives hu]
      exact le_of_eq (add_neg_cancel _).symm
  | declined hu _ _ =>
      rw [hgives hu]
      show 0 ≤ i.request.finalTotal.minor + 0
      omega
  | refunded hu _ _ _ _ _ =>
      rw [hgives hu]
      show 0 ≤ i.request.finalTotal.minor + (if _ then _ else 0)
      split <;> omega
  | refundedLater hx _ _ _ =>
      have hnone : share (fun _ => true) i = 0 := share_of_free (by rw [hx]; rfl)
      rw [hnone, hx]
      show 0 ≤ 0 + i.request.finalTotal.minor
      omega

theorem Change.solvent (h : Change host l w w') (hs : Sound w.state)
    (hd : Domestic currency w.state) (hv : Solvent w.state) :
    Solvent w'.state := by
  cases h with
  | quiet h => exact h.state ▸ hv
  | @addIntent _ _ i _ _ hn _ heq _ =>
      have hfree : i.state.isReserved = false := by
        rw [hn.state]
        exact stateOfDecision_free _
      have hstored : w'.state.intents = w.state.intents.insert i.id i := by
        rw [heq]
        rfl
      obtain ⟨x, hx, hheld⟩ := heldBy_new (fun _ => true) hs hfree hstored
      refine hv.shrink (by rw [heq]; rfl) (by rw [heq]; rfl) ?_
      unfold reservedTotal
      omega
  | @reserve _ _ i r p _ _ t _ hi hr _ _ _ heq _ =>
      intro n hn
      have hsame : manualAmount w'.state = manualAmount w.state :=
        manualAmount_congr (by rw [heq]; rfl) (by rw [heq]; rfl)
      rw [hsame] at hn
      -- The reservation was checked against the balance net of what is held.
      have hle := hr.solvent hd hn
      have hstored : w'.state.intents = w.state.intents.insert i.id
          { i with state := .executing, updatedAt := t } := by
        rw [heq]
        rfl
      have hsum := heldBy_next (fun _ => true) hi hstored
      have hfree : i.state.isReserved = false := by
        rcases hr.executable with hx | hx <;> rw [hx] <;> rfl
      rw [share_of_free hfree, share_all] at hsum
      have hsum' : reservedTotal w'.state
          = reservedTotal w.state - 0 + i.request.finalTotal.minor := hsum
      omega
  | @move _ _ i next t lastError _ hi hm _ heq _ =>
      have hc : Continues i { i with
          state := next, updatedAt := t, lastError := lastError } :=
        ⟨rfl, rfl, rfl, rfl, rfl, rfl⟩
      exact hv.goesOn hs hi hc hm.held (by rw [heq]; rfl) (by rw [heq]; rfl)
        (by rw [heq]; rfl)
  | conclude _ hi hx hc _ heq _ =>
      exact hv.goesOn hs hi hc.continues.1 (fun _ => by rw [hx]; rfl)
        (by rw [heq]; rfl) (by rw [heq]; rfl) (by rw [heq]; rfl)
  | @reconcile _ _ i i' outcome s events _ hi hr hp heq _ =>
      intro n hn
      have hn' : manualAmount s = some n := by
        rw [heq] at hn
        exact hn
      -- What leaves the card was held for this very intent.
      obtain ⟨n0, hn0, rfl⟩ := hp.delta hn'
      obtain ⟨_, _, hfields⟩ := hp.fields
      have hstored : w'.state.intents = w.state.intents.insert i.id i' := by
        rw [heq, hfields]
        rfl
      have hsum := heldBy_next (fun _ => true) hi hstored
      have hle := hr.solvent (hs.totals _ _ hi)
      have hbefore := hv _ hn0
      unfold reservedTotal at hbefore ⊢
      omega
  | deposit _ hpos _ hc _ _ heq _ =>
      intro n hn
      obtain ⟨_, _, hfields⟩ := hc.fields
      have hheld : reservedTotal w'.state = reservedTotal w.state :=
        heldBy_same (by rw [heq, hfields]; rfl)
      have hn' := hn
      rw [heq] at hn'
      rw [hheld]
      cases hc with
      | unverified => exact hv n hn'
      | simulated hm _ =>
          obtain ⟨hm', _⟩ := manualAmount_eq.mp hn'
          exact nomatch hm.symm.trans hm'
      | manual hm hp hsnap hb _ =>
          obtain ⟨_, m', snap', hp', hs', rfl⟩ := manualAmount_eq.mp hn'
          obtain rfl := Option.some.inj hp'
          obtain rfl := Option.some.inj hs'
          have hbefore := hv _ (manualAmount_eq.mpr ⟨hm, _, _, hp, hsnap, rfl⟩)
          have hsum := (checkedAdd_minor hb).1
          dsimp only
          omega
  | @configureManual _ _ c t _ hc _ heq _ =>
      intro n hn
      obtain ⟨hfree, hbalance⟩ := configured_free hc
      have hheld : reservedTotal w'.state = reservedTotal w.state :=
        heldBy_same (by rw [heq])
      rw [heq] at hn
      obtain ⟨_, m', snap', hp', hs', rfl⟩ := manualAmount_eq.mp hn
      obtain rfl := Option.some.inj hp'
      obtain rfl := Option.some.inj hs'
      rw [hheld, hfree]
      exact hbalance
  | writeKey _ heq _ _ => exact heq ▸ hv
  | writeState _ heq _ _ _ => exact heq ▸ hv
  | submit _ heq _ _ _ => exact heq ▸ hv
  | _ =>
      rename_i heq _
      exact hv.shrink ((congrArg TreasuryState.providerMode heq).trans rfl)
        ((congrArg TreasuryState.manualProvider heq).trans rfl)
        (le_of_eq (heldBy_same ((congrArg TreasuryState.intents heq).trans rfl)))

/-! ## Errors that a solvent treasury does not return -/

/-- The branch that finds more reserved than reported. -/
def overReserved : TreasuryError :=
  .conflict "manual provider reservations exceed its reported balance"

/-- The branch that finds a settlement larger than the balance. -/
def overSettled : TreasuryError :=
  .conflict "manual settlement exceeds the reported provider balance"

/-- An error that is not about a balance too small for what is reserved. -/
def Covering (e : TreasuryError) : Prop := e ≠ overReserved ∧ e ≠ overSettled

theorem conflict_covering {message : String}
    (h : message ≠ "manual provider reservations exceed its reported balance"
      ∧ message ≠ "manual settlement exceeds the reported provider balance") :
    Covering (.conflict message) :=
  ⟨fun he => h.1 (TreasuryError.conflict.inj he),
    fun he => h.2 (TreasuryError.conflict.inj he)⟩

theorem plain_covering {e : TreasuryError} (h : ∀ message, e ≠ .conflict message) :
    Covering e := ⟨h _, h _⟩

theorem checkedAdd_covering (a b : Money) :
    FailsWith Covering (a.checkedAdd b) :=
  .bind (.refuseIf fun _ => plain_covering nofun) fun _ _ =>
    .bind (.orRefuse (plain_covering nofun)) fun _ _ => .pure _

theorem checkedSub_covering (a b : Money) :
    FailsWith Covering (a.checkedSub b) :=
  .bind (.refuseIf fun _ => plain_covering nofun) fun _ _ =>
    .bind (.orRefuse (plain_covering nofun)) fun _ _ => .pure _

theorem zero_covering (currency : String) :
    FailsWith Covering (Money.zero currency) :=
  .bind (.refuseIf fun _ => plain_covering nofun) fun _ _ => .pure _

theorem ledgerSnapshot_covering : FailsWith Covering (ledgerSnapshot s currency) := by
  unfold ledgerSnapshot
  refine .bind (.bind (zero_covering _) fun _ _ => .pure _) fun _ _ => ?_
  refine .bind (.foldlM (fun b e => ?_) _ _) fun _ _ => ?_
  · unfold addEventSnapshot
    refine .ite ?_ (.pure b)
    cases e.kind <;>
      first
        | exact .pure _
        | exact .bind (checkedAdd_covering _ _) fun _ _ => .pure _
  refine .bind (.foldlM (fun b i => ?_) _ _) fun _ _ => ?_
  · exact .ite (.bind (checkedAdd_covering _ _) fun _ _ => .pure _) (.pure b)
  unfold closeSnapshot
  refine .bind (checkedAdd_covering _ _) fun _ _ => ?_
  refine .bind (checkedAdd_covering _ _) fun _ _ => ?_
  refine .bind (checkedAdd_covering _ _) fun _ _ => ?_
  refine .bind (checkedSub_covering _ _) fun _ _ => ?_
  exact .bind (.refuseIf fun _ => conflict_covering (by decide)) fun _ _ => .pure _

theorem availableBalance_covering {p : SimulatedProvider} :
    FailsWith Covering p.availableBalance := by
  unfold SimulatedProvider.availableBalance
  refine .bind (zero_covering _) fun _ _ => ?_
  refine .bind (.foldlM (fun b m => checkedAdd_covering b m) _ _) fun _ _ => ?_
  exact checkedSub_covering _ _

/-- **NEVER OVER-RESERVED**: whoever asks, at whatever time. -/
theorem providerAvailableBalance_covering (hd : Domestic currency s)
    (hv : Solvent s) :
    wp (providerAvailableBalance host s) (fun _ _ => True)
      (fun e _ => Covering e) w := by
  unfold providerAvailableBalance
  cases hm : s.providerMode with
  | simulated =>
      dsimp only
      rw [wp_lift]
      exact ⟨availableBalance_covering, fun _ _ => trivial⟩
  | manualPrepaidCard =>
      dsimp only
      rw [wp_bind, wp_orReject]
      refine ⟨fun _ => conflict_covering (by decide), fun m hprovider => ?_⟩
      refine line (P := fun b _ => ∃ snap, m.balanceSnapshot = some snap
        ∧ b = snap.amount) ?_ ?_
      · unfold ManualPrepaidCardProvider.availableBalance
        rw [wp_bind, wp_orReject]
        refine ⟨fun _ => conflict_covering (by decide), fun snap hsnap => ?_⟩
        rw [wp_bind, wp_now, wp_bind, wp_rejectIf]
        refine ⟨fun _ => conflict_covering (by decide), fun _ => ?_⟩
        rw [wp_bind, wp_rejectIf]
        refine ⟨fun _ => conflict_covering (by decide), fun _ => ?_⟩
        rw [wp_pure]
        exact ⟨snap, hsnap, rfl⟩
      rintro _ v ⟨snap, hsnap, rfl⟩
      rw [wp_bind, wp_lift]
      refine ⟨ledgerSnapshot_covering, fun ledger hledger => ?_⟩
      rw [wp_bind, wp_lift]
      refine ⟨checkedSub_covering _ _, fun available hsub => ?_⟩
      rw [wp_bind, wp_rejectIf]
      refine ⟨fun hneg => absurd hneg ?_, fun _ => ?_⟩
      · -- the guard itself: the balance covers what is reserved
        have hcur := hd.manual _ hprovider _ hsnap
        rw [hcur] at hledger
        have hreserved := ledgerSnapshot_reserved hledger
        have hle := hv _ (manualAmount_eq.mpr ⟨hm, m, snap, hprovider, hsnap, rfl⟩)
        rw [hd.reservedTotal] at hle
        have hexact := (checkedSub_minor hsub).1
        omega
      · rw [wp_pure]
        trivial

theorem validateProviderReference_covering {input : String} :
    FailsWith Covering (validateProviderReference host input) := by
  unfold validateProviderReference bounded
  refine .bind (.bind ?_ fun _ _ => ?_) fun _ _ => .bind ?_ fun _ _ =>
    .bind ?_ fun _ _ => .pure _
  all_goals exact .refuseIf fun _ => plain_covering nofun

theorem requireOwner_covering {actor : Actor} :
    FailsWith Covering (requireOwner actor) :=
  .refuseIf fun _ => plain_covering nofun

theorem audit_covering {actor action : String} {intentId : Option String}
    {policyVersion : Option Nat} {decision : Option String} {details : Json} :
    wp (audit host actor action intentId policyVersion decision details)
      (fun _ _ => True) (fun e _ => Covering e) w := by
  unfold audit
  rw [wp_bind, wp_get, wp_bind, wp_rejectIf]
  refine ⟨fun _ => conflict_covering (by decide), fun _ => ?_⟩
  rw [wp_bind, wp_rejectIf]
  refine ⟨fun _ => conflict_covering (by decide), fun _ => ?_⟩
  rw [wp_bind, wp_modifyState, wp_bind, wp_now, wp_modifyState]
  trivial

/-- Settling an intent that is marked for reconciliation. -/
theorem settleIntent_covering {i : PurchaseIntent} {reference : String}
    (hx : i.state = .reconciliationRequired) :
    wp (settleIntent host i reference) (fun _ _ => True) (fun e _ => Covering e)
      w := by
  unfold settleIntent
  rw [wp_bind]
  refine wp_transition_of_can ?_ ?_
  · show i.state.canTransition .settled = true
    rw [hx]
    rfl
  unfold issueReceipt
  rw [wp_bind, wp_bind, wp_rejectIf]
  refine ⟨fun _ => conflict_covering (by decide), fun _ => ?_⟩
  rw [wp_bind, wp_now, wp_pure]
  refine line (recordSettled_spec _) fun _ v _ => ?_
  rw [wp_pure]
  trivial

theorem reconcileSettled_covering {i : PurchaseIntent} {reference : String} :
    wp (SimulatedProvider.reconcileSettled host i reference)
      (fun _ _ => True) (fun e _ => Covering e) w := by
  unfold SimulatedProvider.reconcileSettled SimulatedProvider.settlePending
    SimulatedProvider.put
  rw [wp_bind, wp_readState]
  dsimp only
  rw [wp_ite]
  constructor
  · intro _
    rw [wp_bind, wp_readState, wp_bind, wp_orReject]
    refine ⟨fun _ => plain_covering nofun, fun amount _ => ?_⟩
    rw [wp_bind, wp_modifyState, wp_bind, wp_lift]
    refine ⟨checkedSub_covering _ _, fun balance _ => ?_⟩
    rw [wp_bind, wp_newId, wp_bind, wp_modifyState, wp_pure]
    trivial
  intro _
  cases w.state.provider.charges.get? i.id with
  | some charge =>
      dsimp only
      rw [wp_bind, wp_modifyState, wp_pure]
      trivial
  | none =>
      dsimp only
      rw [wp_bind, wp_lift]
      refine ⟨availableBalance_covering, fun available _ => ?_⟩
      rw [wp_bind, wp_rejectIf]
      refine ⟨fun _ => plain_covering nofun, fun _ => ?_⟩
      rw [wp_bind, wp_lift]
      refine ⟨checkedSub_covering _ _, fun balance _ => ?_⟩
      rw [wp_bind, wp_modifyState, wp_pure]
      trivial

/-- **CHARGING** a reserved intent finds a balance large enough. -/
theorem chargeReconciled_covering {i : PurchaseIntent}
    {reference : Option String} (hv : Solvent w.state)
    (hle : i.request.finalTotal.minor ≤ reservedTotal w.state) :
    wp (chargeReconciled host i reference) (fun _ _ => True)
      (fun e _ => Covering e) w := by
  unfold chargeReconciled
  rw [wp_bind, wp_readState]
  cases hm : w.state.providerMode with
  | simulated =>
      refine line (P := fun _ _ => True) ?_ fun _ _ _ => reconcileSettled_covering
      unfold reconciledReference
      split
      · rw [wp_pure]
        trivial
      · rw [wp_pure]
        trivial
      · rw [wp_newId]
        trivial
  | manualPrepaidCard =>
      dsimp only
      rw [wp_bind, wp_orReject]
      refine ⟨fun _ => plain_covering nofun, fun text _ => ?_⟩
      unfold manualBalance
      rw [wp_bind, wp_bind, wp_readState, wp_bind, wp_orReject]
      refine ⟨fun _ => conflict_covering (by decide), fun m hprovider => ?_⟩
      rw [wp_bind, wp_orReject]
      refine ⟨fun _ => conflict_covering (by decide), fun snap hsnap => ?_⟩
      rw [wp_pure]
      dsimp only
      rw [wp_bind, wp_rejectIf]
      refine ⟨fun hless => absurd hless ?_, fun _ => ?_⟩
      · have hcovered := hv _ (manualAmount_eq.mpr
          ⟨hm, m, snap, hprovider, hsnap, rfl⟩)
        omega
      rw [wp_bind, wp_lift]
      refine ⟨checkedSub_covering _ _, fun amount _ => ?_⟩
      unfold putManualBalance
      rw [wp_bind, wp_now, wp_bind, wp_modifyState, wp_pure]
      trivial

/-- What is reserved contains the total of each reserved intent. -/
theorem le_reservedTotal {i : PurchaseIntent} (hs : Sound s)
    (hi : s.intents.get? i.id = some i) (hres : i.state.isReserved = true) :
    i.request.finalTotal.minor ≤ reservedTotal s := by
  have hstep := SortedMap.sum_erase_of_some (share fun _ => true) hi
  have hrest : 0 ≤ (s.intents.erase i.id).sum (share fun _ => true) := by
    refine SortedMap.sum_nonneg fun id j hj => ?_
    rw [SortedMap.get?_erase] at hj
    split at hj
    · exact nomatch hj
    · exact share_nonneg _ (hs.totals id j hj)
  rw [share_all, if_pos hres] at hstep
  unfold reservedTotal heldBy
  omega

theorem ownerReconcile_covering {actor : Actor} {id : String}
    {reference : Option String} (hk : Kept w.state) (hs : Sound w.state)
    (hv : Solvent w.state) :
    wp (ownerReconcile host actor id .settled reference) (fun _ _ => True)
      (fun e _ => Covering e) w := by
  unfold ownerReconcile
  rw [wp_bind, wp_readState, wp_bind, wp_lift]
  refine ⟨requireOwner_covering, fun _ _ => wp_orRestore ?_⟩
  unfold ownerReconcileInner
  rw [wp_bind, wp_readState, wp_bind, wp_lift]
  refine ⟨fun e he => ?_, fun given _ => ?_⟩
  · cases reference with
    | none => exact nomatch he
    | some text =>
        exact FailsWith.bind validateProviderReference_covering
          (fun _ _ => .pure _) e he
  rw [wp_bind, wp_orReject]
  refine ⟨fun _ => plain_covering nofun, fun i hi => ?_⟩
  obtain rfl := hk.intents _ _ hi
  rw [wp_bind, wp_rejectIf]
  refine ⟨fun _ => conflict_covering (by decide), fun helig => ?_⟩
  -- Evidence of settlement is taken for an uncertain intent only.
  have hu : isUncertain i.state = true :=
    (not_not.mp helig).resolve_right fun h => nomatch h.1
  have hle := le_reservedTotal hs hi (uncertain_reserved hu)
  refine line (P := fun j a => a.state = w.state
    ∧ j.state = .reconciliationRequired ∧ j.request = i.request) ?_ ?_
  · unfold enterReconciliation
    rw [wp_ite, wp_pure]
    refine ⟨fun hfirst => ?_, fun hnot => ⟨rfl, ?_, rfl⟩⟩
    · refine wp_transition_of_can ?_ ⟨rfl, rfl, rfl⟩
      rcases hfirst with hx | hx <;> rw [hx] <;> rfl
    · revert hu hnot
      cases i.state <;> decide
  rintro j a ⟨ha, hj, hreq⟩
  show wp (reconcileAsSettled host j given >>= _) _ _ a
  unfold reconcileAsSettled
  rw [wp_bind, wp_bind]
  refine wp_mono (chargeReconciled_covering (ha ▸ hv) (by rw [ha, hreq]; exact hle))
    (fun r b _ => ?_) (fun _ _ h => h)
  refine wp_mono (settleIntent_covering hj) (fun k c _ => ?_) (fun _ _ h => h)
  rw [wp_bind, wp_storeIntent]
  refine line audit_covering fun _ _ _ => ?_
  rw [wp_pure]
  trivial

/-- A request to settle fails by the guards above only. -/
theorem handleSettle_covering {token id : String} {reference : Option String}
    (hk : Kept w.state) (hs : Sound w.state) (hv : Solvent w.state) :
    wp (handle host token (.ownerReconcile id .settled reference))
      (fun _ _ => True) (fun e _ => Covering e) w := by
  unfold handle
  rw [wp_bind]
  refine wp_mono (Q := fun _ a => a.state = w.state)
    (E := fun e _ => Covering e) ?_ (fun actor a ha => ?_) fun _ _ h => h
  · unfold authenticate
    rw [wp_bind, wp_readState, wp_bind, wp_rejectIf]
    refine ⟨fun _ => plain_covering nofun, fun _ => ?_⟩
    rw [wp_ite, wp_pure]
    refine ⟨fun _ => rfl, fun _ => ?_⟩
    rw [wp_bind, wp_now, wp_bind, wp_orReject]
    refine ⟨fun _ => plain_covering nofun, fun _ _ => ?_⟩
    rw [wp_pure]
  · rw [← ha] at hk hs hv
    exact ownerReconcile_covering hk hs hv

/-! ## Every run -/

theorem Started.solvent {balance : Money} {token : String}
    (h : Started host balance token w) : Solvent w.state := by
  obtain ⟨_, _, _, _, _, _, _, _, hs⟩ := h.state
  intro n hn
  obtain ⟨hm, _⟩ := manualAmount_eq.mp hn
  rw [hs] at hm
  exact nomatch hm

/-- What every state on the way has. -/
structure Covers (s : TreasuryState) : Prop where
  kept : Kept s
  sound : Sound s
  domestic : Domestic "CAD" s
  solvent : Solvent s

theorem TreasuryRun.covers {token : String} {w0 : World} {cs : List Call}
    (hrun : TreasuryRun host token w0 cs w) (hpath : Path host anyLabel w w') :
    Covers w'.state := by
  obtain ⟨balance, hs⟩ := hrun.balance
  have hpath' : Path host anyLabel w0 w' := hrun.path.trans hpath
  refine hpath'.invariant (I := fun v => Covers v.state)
    (fun _ _ _ _ hc hv => ?_)
    (fun _ _ _ ha _ => ha) ⟨hs.kept, hs.sound, hs.domestic, hs.solvent⟩
  exact ⟨hc.kept hv.kept, hc.sound hv.sound, hc.domestic hv.sound hv.domestic,
    hc.solvent hv.sound hv.domestic hv.solvent⟩

/-- **THE MANUAL BALANCE COVERS THE RESERVATIONS**: in every reachable world
    with a manual provider, and in every world that is passed on the way
    through a further call, what the reserved intents cost is at most the
    balance; so the balance is not negative, the provider never finds itself
    over-reserved, and to settle an uncertain intent is never refused for the
    balance. -/
theorem manual_stays_solvent {token : String} {w0 : World} {cs : List Call}
    (hrun : TreasuryRun host token w0 cs w) (hpath : Path host anyLabel w w')
    (hmode : w'.state.providerMode = .manualPrepaidCard) :
    (∃ m snap, w'.state.manualProvider = some m
        ∧ m.balanceSnapshot = some snap
        ∧ reservedTotal w'.state ≤ snap.amount.minor
        ∧ 0 ≤ snap.amount.minor)
      ∧ (∀ v, result (providerAvailableBalance host w'.state) v
          ≠ .error overReserved)
      ∧ ∀ owner id reference,
          result (handle host owner (.ownerReconcile id .settled reference)) w'
            ≠ .error overSettled := by
  have hc := hrun.covers hpath
  obtain ⟨m, snap, hm, hsnap⟩ := hc.domestic.configured hmode
  have hle := hc.solvent _ (manualAmount_eq.mpr
    ⟨hmode, m, snap, hm, hsnap, rfl⟩)
  have hpos := reservedTotal_nonneg hc.sound
  refine ⟨⟨m, snap, hm, hsnap, hle, le_trans hpos hle⟩, fun v he => ?_,
    fun owner id reference he => ?_⟩
  · exact ((wp_iff.mp (providerAvailableBalance_covering hc.domestic
      hc.solvent)).2 _ he).1 rfl
  · exact ((wp_iff.mp (handleSettle_covering hc.kept hc.sound hc.solvent)).2 _
      he).2 rfl

/-- A handoff that was begun reserves its total on the card. -/
theorem manual_stays_solvent_begun :
    ∃ token w0 w, TreasuryRun soundHost token w0
        (approvedOpening token ++ [beginFirst]) w
      ∧ reservedTotal w.state = 1
      ∧ ∃ m snap, w.state.manualProvider = some m
        ∧ m.balanceSnapshot = some snap ∧ 1 ≤ snap.amount.minor := by
  have hrun : tryRun soundHost ⟨100000, "CAD"⟩
      (fun owner => approvedOpening owner ++ [beginFirst])
      (fun w => decide (reservedTotal w.state = 1
        ∧ w.state.providerMode = .manualPrepaidCard)) = true := by
    decide +kernel
  obtain ⟨token, w0, w, hrun, hcheck⟩ := tryRun_run hrun
  obtain ⟨hreserved, hmode⟩ := of_decide_eq_true hcheck
  obtain ⟨⟨m, snap, hm, hsnap, hle, _⟩, _⟩ :=
    manual_stays_solvent hrun (.refl w) hmode
  rw [hreserved] at hle
  exact ⟨token, w0, w, hrun, hreserved, m, snap, hm, hsnap, hle⟩

end Treasury
