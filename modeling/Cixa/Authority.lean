import Cixa.Amounts
import Cixa.Pool
import Mathlib.Algebra.Order.Ring.Int

/-! # Authority — the treasury never overspends

    In every currency the owner's capital, the top-ups and the refunds grant
    an authority that all agents share.  Reserving an intent is the ONLY step
    that asks whether enough is left of it; it asks the ledger snapshot, and
    the snapshot is exact.  Every other change settles a hold for at most
    what it held, gives it back, or grants more.

    So the authority is a pool in the sense of `Pools`, every change is a few
    steps of that pool, and the pool stays covered in whatever order the
    agents reserve. -/

namespace Treasury

open CixaData CixaHost Outcome Checks Transition

variable {host : Host} {w w' : World} {l : Label} {s : TreasuryState}

/-! ## The pool of a currency -/

/-- The order of the amounts, named so that every module finds this one. -/
instance intOrder : PartialOrder Int := Int.instLinearOrder.toPartialOrder

/-- Money of a currency that comes in. -/
def isCredit (currency : String) (e : LedgerEvent) : Bool :=
  decide (e.amount.currency = currency
    ∧ e.kind ∈ [.ownerCapital, .operatorTopUp, .refund])

/-- Money of a currency that went out. -/
def isSpending (currency : String) (e : LedgerEvent) : Bool :=
  decide (e.amount.currency = currency ∧ e.kind = .spendingSettled)

/-- An intent whose total is in a currency. -/
def inCurrency (currency : String) (i : PurchaseIntent) : Bool :=
  decide (i.request.finalTotal.currency = currency)

/-- The authority in a currency: what was granted, what the intents hold and
    what was settled. -/
def authority (currency : String) (s : TreasuryState) : Pools.Pool Int where
  granted := amountOf (isCredit currency) s.ledger
  held := heldBy (inCurrency currency) s
  spent := amountOf (isSpending currency) s.ledger

/-! ## The snapshot is exact -/

/-- What a snapshot counts for and against the authority. -/
def LedgerSnapshot.credits (l : LedgerSnapshot) : Int :=
  l.ownerCapital.minor + l.operatorTopups.minor + l.refunds.minor

theorem addEventSnapshot_step {b b' : LedgerSnapshot} {e : LedgerEvent}
    (h : addEventSnapshot b e = .ok b') :
    b'.currency = b.currency
      ∧ LedgerSnapshot.credits b' = LedgerSnapshot.credits b
        + (if isCredit b.currency e = true then e.amount.minor else 0)
      ∧ b'.settledSpending.minor = b.settledSpending.minor
        + (if isSpending b.currency e = true then e.amount.minor else 0)
      ∧ b'.reservedAmount = b.reservedAmount := by
  unfold addEventSnapshot at h
  unfold LedgerSnapshot.credits isCredit isSpending
  by_cases hcur : e.amount.currency = b.currency
  · rw [if_pos hcur] at h
    cases hk : e.kind
    all_goals
      rw [hk] at h
      simp only [bind_eq_ok, pure_eq_ok] at h
    case ownerCapital | operatorTopUp | refund =>
      obtain ⟨total, hadd, rfl⟩ := h
      have hsum := (checkedAdd_minor hadd).1
      refine ⟨rfl, ?_, by simp, rfl⟩
      simp [hcur]
      omega
    case spendingSettled =>
      obtain ⟨total, hadd, rfl⟩ := h
      have hsum := (checkedAdd_minor hadd).1
      exact ⟨rfl, by simp, by simp [hcur, hsum], rfl⟩
    case incomeVerified | incomeUnverified =>
      obtain ⟨total, _, rfl⟩ := h
      simp
    all_goals
      subst h
      simp
  · rw [if_neg hcur, pure_eq_ok] at h
    subst h
    simp [hcur]

theorem addIntentSnapshot_step {b b' : LedgerSnapshot} {i : PurchaseIntent}
    (h : addIntentSnapshot b i = .ok b') :
    b'.currency = b.currency
      ∧ LedgerSnapshot.credits b' = LedgerSnapshot.credits b
      ∧ b'.settledSpending = b.settledSpending
      ∧ b'.reservedAmount.minor
        = b.reservedAmount.minor + share (inCurrency b.currency) i := by
  unfold addIntentSnapshot at h
  unfold share inCurrency
  by_cases hcur : i.request.finalTotal.currency = b.currency
      ∧ i.state.isReserved = true
  · rw [if_pos hcur] at h
    simp only [bind_eq_ok, pure_eq_ok] at h
    obtain ⟨total, hadd, rfl⟩ := h
    refine ⟨rfl, rfl, rfl, ?_⟩
    rw [if_pos ⟨decide_eq_true hcur.1, hcur.2⟩]
    exact (checkedAdd_minor hadd).1
  · rw [if_neg hcur, pure_eq_ok] at h
    subst h
    refine ⟨rfl, rfl, rfl, ?_⟩
    rw [if_neg fun hc => hcur ⟨of_decide_eq_true hc.1, hc.2⟩, add_zero]

theorem zeroSnapshot_ok {currency : String} {b : LedgerSnapshot}
    (h : LedgerSnapshot.zero currency = .ok b) :
    b.currency = currency ∧ LedgerSnapshot.credits b = 0
      ∧ b.settledSpending.minor = 0 ∧ b.reservedAmount.minor = 0 := by
  unfold LedgerSnapshot.zero Money.zero Money.new at h
  simp only [bind_eq_ok, pure_eq_ok] at h
  obtain ⟨zero, ⟨_, _, rfl⟩, rfl⟩ := h
  exact ⟨rfl, rfl, rfl, rfl⟩

/-- What the two loops of the snapshot have counted. -/
theorem snapshotSums {currency : String} {b events intents : LedgerSnapshot}
    (hzero : LedgerSnapshot.zero currency = .ok b)
    (hevents : s.ledger.foldlM addEventSnapshot b = .ok events)
    (hintents : s.intents.values.foldlM addIntentSnapshot events
      = .ok intents) :
    LedgerSnapshot.credits intents = (authority currency s).granted
      ∧ intents.settledSpending.minor = (authority currency s).spent
      ∧ intents.reservedAmount.minor = (authority currency s).held := by
  obtain ⟨hcur, hcredits, hsettled, hreserved⟩ := zeroSnapshot_ok hzero
  have hstep : ∀ b e b', b.currency = currency ∧ b.reservedAmount.minor = 0 →
      addEventSnapshot b e = .ok b' →
      (b'.currency = currency ∧ b'.reservedAmount.minor = 0)
        ∧ LedgerSnapshot.credits b' = LedgerSnapshot.credits b
          + (if isCredit currency e = true then e.amount.minor else 0)
        ∧ b'.settledSpending.minor = b.settledSpending.minor
          + (if isSpending currency e = true then e.amount.minor else 0) := by
    rintro b e b' ⟨rfl, hres⟩ h
    obtain ⟨h1, h2, h3, h4⟩ := addEventSnapshot_step h
    exact ⟨⟨h1, by rw [h4]; exact hres⟩, h2, h3⟩
  -- the events tell what was granted and what was spent
  obtain ⟨⟨hcur1, hres1⟩, hsum1⟩ := CheckedFold.foldlM_sum
    (fun b e b' hI h => ⟨(hstep b e b' hI h).1, (hstep b e b' hI h).2.1⟩)
    ⟨hcur, hreserved⟩ hevents
  obtain ⟨_, hsum2⟩ := CheckedFold.foldlM_sum
    (m := fun b => b.settledSpending.minor)
    (fun b e b' hI h => ⟨(hstep b e b' hI h).1, (hstep b e b' hI h).2.2⟩)
    ⟨hcur, hreserved⟩ hevents
  -- the intents add what is held, and nothing to the other sums
  obtain ⟨⟨_, hcredits3, hsettled3⟩, hsum3⟩ := CheckedFold.foldlM_sum
    (I := fun b : LedgerSnapshot => b.currency = currency
      ∧ LedgerSnapshot.credits b = LedgerSnapshot.credits events
      ∧ b.settledSpending = events.settledSpending)
    (m := fun b => b.reservedAmount.minor) (f := share (inCurrency currency))
    (by
      rintro b i b' ⟨rfl, hc, hs⟩ h
      obtain ⟨h1, h2, h3, h4⟩ := addIntentSnapshot_step h
      exact ⟨⟨h1, h2.trans hc, h3.trans hs⟩, h4⟩)
    ⟨hcur1, rfl, rfl⟩ hintents
  refine ⟨?_, ?_, ?_⟩
  · rw [hcredits3, hsum1, hcredits, zero_add]
    rfl
  · rw [hsettled3, hsum2, hsettled, zero_add]
    rfl
  · rw [hsum3, hres1, zero_add]
    rfl

theorem closeSnapshot_ok {b b' : LedgerSnapshot}
    (h : closeSnapshot b = .ok b') :
    b'.availableAuthority.minor = LedgerSnapshot.credits b
      - (b.settledSpending.minor + b.reservedAmount.minor) := by
  unfold closeSnapshot at h
  simp only [bind_eq_ok, pure_eq_ok] at h
  obtain ⟨c1, h1, c2, h2, d, h3, a, h4, _, _, rfl⟩ := h
  show a.minor = _
  rw [(checkedSub_minor h4).1, (checkedAdd_minor h2).1,
    (checkedAdd_minor h1).1, (checkedAdd_minor h3).1]
  rfl

/-- **THE SNAPSHOT IS EXACT**: the available authority is what the pool has
    left. -/
theorem ledgerSnapshot_available {currency : String} {b : LedgerSnapshot}
    (h : ledgerSnapshot s currency = .ok b) :
    b.availableAuthority.minor = (authority currency s).granted
      - ((authority currency s).spent + (authority currency s).held) := by
  unfold ledgerSnapshot at h
  simp only [bind_eq_ok] at h
  obtain ⟨zero, hzero, events, hevents, intents, hintents, hclose⟩ := h
  obtain ⟨hgranted, hspent, hheld⟩ := snapshotSums hzero hevents hintents
  rw [closeSnapshot_ok hclose, hgranted, hspent, hheld]

theorem ledgerSnapshot_reserved {currency : String} {b : LedgerSnapshot}
    (h : ledgerSnapshot s currency = .ok b) :
    b.reservedAmount.minor = heldBy (inCurrency currency) s := by
  unfold ledgerSnapshot at h
  simp only [bind_eq_ok] at h
  obtain ⟨zero, hzero, events, hevents, intents, hintents, hclose⟩ := h
  obtain ⟨_, _, hheld⟩ := snapshotSums hzero hevents hintents
  unfold closeSnapshot at hclose
  simp only [bind_eq_ok, pure_eq_ok] at hclose
  obtain ⟨_, _, _, _, _, _, _, _, _, _, rfl⟩ := hclose
  exact hheld

/-! ## The negative branch -/

/-- The error of the branch that a covered authority never takes. -/
def negativeAuthority : TreasuryError :=
  .conflict "ledger authority invariant would become negative"

/-- An error other than that of a negative authority. -/
def notNegative (e : TreasuryError) : Prop := e ≠ negativeAuthority

theorem money_notNegative (m : String) : notNegative (.money m) := nofun

theorem checkedAdd_fails (a b : Money) :
    FailsWith notNegative (a.checkedAdd b) :=
  .bind (.refuseIf fun _ => money_notNegative _) fun _ _ =>
    .bind (.orRefuse (money_notNegative _)) fun _ _ => .pure _

theorem checkedSub_fails (a b : Money) :
    FailsWith notNegative (a.checkedSub b) :=
  .bind (.refuseIf fun _ => money_notNegative _) fun _ _ =>
    .bind (.orRefuse (money_notNegative _)) fun _ _ => .pure _

theorem addEventSnapshot_fails (b : LedgerSnapshot) (e : LedgerEvent) :
    FailsWith notNegative (addEventSnapshot b e) := by
  unfold addEventSnapshot
  refine .ite ?_ (.pure b)
  cases e.kind <;>
    first
      | exact .pure _
      | exact .bind (checkedAdd_fails _ _) fun _ _ => .pure _

theorem addIntentSnapshot_fails (b : LedgerSnapshot) (i : PurchaseIntent) :
    FailsWith notNegative (addIntentSnapshot b i) :=
  .ite (.bind (checkedAdd_fails _ _) fun _ _ => .pure _) (.pure b)

/-- **NEVER NEGATIVE**: with a covered authority the snapshot may overflow,
    but its authority is never negative. -/
theorem ledgerSnapshot_notNegative {currency : String}
    (h : Pools.Covered (authority currency s)) :
    ledgerSnapshot s currency ≠ .error negativeAuthority := by
  have hfails : FailsWith notNegative (ledgerSnapshot s currency) := by
    unfold ledgerSnapshot
    refine .bind ?_ fun zero hzero => ?_
    · exact .bind (.bind (.refuseIf fun _ => money_notNegative _)
        fun _ _ => .pure _) fun _ _ => .pure _
    refine .bind (.foldlM addEventSnapshot_fails _ _) fun events hevents => ?_
    refine .bind (.foldlM addIntentSnapshot_fails _ _) fun intents hintents => ?_
    obtain ⟨hgranted, hspent, hheld⟩ := snapshotSums hzero hevents hintents
    unfold closeSnapshot
    refine .bind (checkedAdd_fails _ _) fun c1 h1 => ?_
    refine .bind (checkedAdd_fails _ _) fun c2 h2 => ?_
    refine .bind (checkedAdd_fails _ _) fun d h3 => ?_
    refine .bind (checkedSub_fails _ _) fun a h4 => ?_
    -- the guard itself: the exact sums say that nothing is negative
    refine .bind (.refuseIf fun hneg => absurd hneg ?_) fun _ _ => .pure _
    have hexact : a.minor = LedgerSnapshot.credits intents
        - (intents.settledSpending.minor + intents.reservedAmount.minor) := by
      rw [(checkedSub_minor h4).1, (checkedAdd_minor h2).1,
        (checkedAdd_minor h1).1, (checkedAdd_minor h3).1]
      rfl
    unfold Pools.Covered at h
    omega
  exact fun herror => hfails _ herror rfl

/-! ## Every change is a few steps of the pool -/

theorem amountOf_settledPart {currency : String} (events : List LedgerEvent) :
    amountOf (isSpending currency) (settledPart events)
      = amountOf (isSpending currency) events :=
  amountOf_filter
    (fun _ he => decide_eq_true (of_decide_eq_true he).2) events

/-- The events of an intent that goes on spend at most its share. -/
theorem Moved.spendsShare (currency : String) {i i' : PurchaseIntent}
    {events : List LedgerEvent} (h : Moved host w w' i i' events)
    (hpos : 0 < i.request.finalTotal.minor) :
    amountOf (isSpending currency) events
      ≤ share (inCurrency currency) i - share (inCurrency currency) i' := by
  rw [← amountOf_settledPart]
  rcases h.spends with hnil | ⟨hres, hfree, e, hone, hamount⟩
  · rw [hnil, amountOf_nil]
    by_cases hres' : i'.state.isReserved = true
    · -- it still holds what it held
      rw [share_of_reserved hres', share_of_reserved (h.held hres')]
      unfold inCurrency
      rw [h.same.request]
      omega
    · rw [share_of_free (Bool.eq_false_iff.mpr hres')]
      have := share_nonneg (inCurrency currency) hpos
      omega
  · rw [hone, share_of_free hfree, share_of_reserved hres, amountOf_cons,
      amountOf_nil, hamount]
    unfold isSpending inCurrency
    rw [hamount, sub_zero, add_zero]
    by_cases hcur : i.request.finalTotal.currency = currency
    · rw [if_pos (decide_eq_true hcur)]
      split <;> omega
    · rw [if_neg (fun h => hcur (of_decide_eq_true h).1)]
      split <;> omega

/-- A refund only grants. -/
theorem Moved.refunds (currency : String) {i i' : PurchaseIntent}
    {events : List LedgerEvent} (h : Moved host w w' i i' events)
    (hpos : 0 < i.request.finalTotal.minor) (hb : Backed w.state.provider) :
    0 ≤ amountOf (isCredit currency) events := by
  refine amountOf_nonneg fun e he hcredit => ?_
  obtain ⟨_, hkind⟩ := of_decide_eq_true hcredit
  rcases h.others e he with hk | hk | ⟨_, hamount⟩
  · rw [hk] at hkind
    exact absurd hkind (by decide)
  · rw [hk] at hkind
    exact absurd hkind (by decide)
  · generalize e.amount = amount at hamount ⊢
    cases hamount with
    | simulated _ hc => exact hb.charges _ _ hc
    | manual _ => omega

/-- A deposit grants what is reinvested. -/
theorem DepositEvents.grants (currency : String) {amount reinvested : Money}
    {verified : Bool} {events : List LedgerEvent}
    (h : DepositEvents host w w' amount reinvested verified events) :
    0 ≤ amountOf (isCredit currency) events
      ∧ amountOf (isSpending currency) events = 0 := by
  have hincome : ∀ e, EventIn host w w' (incomeKind verified) amount none e →
      isCredit currency e = false ∧ isSpending currency e = false := by
    intro e he
    unfold isCredit isSpending
    rw [he.kind]
    cases verified <;> simp [incomeKind]
  cases h with
  | @plain e _ he =>
      simp [hincome e he]
  | @topUp e e' hz he he' =>
      have hspend : isSpending currency e' = false := by
        unfold isSpending
        rw [he'.kind]
        simp
      rw [amountOf_cons, amountOf_cons, amountOf_cons, amountOf_cons,
        (hincome e he).1, (hincome e he).2, hspend, he'.amount]
      refine ⟨?_, rfl⟩
      simp only [Bool.false_eq_true, if_false, zero_add, amountOf_nil, add_zero]
      split <;> omega

/-- **EVERY CHANGE** is a few steps of the pool of each currency. -/
theorem Change.authority (h : Change host l w w') (hw : Sound w.state)
    (currency : String) :
    Pools.Steps (Treasury.authority currency w.state)
      (Treasury.authority currency w'.state) := by
  have hsame : ∀ {x y z}, Treasury.authority currency w'.state = ⟨x, y, z⟩ →
      Pools.Steps (Treasury.authority currency w.state) ⟨x, y, z⟩ →
      Pools.Steps (Treasury.authority currency w.state)
        (Treasury.authority currency w'.state) := by
    intro x y z heq hsteps
    rw [heq]
    exact hsteps
  cases h.money with
  | none hi hl =>
      refine hsame ?_ .refl
      unfold Treasury.authority
      rw [hl, heldBy_same hi]
  | deposit hi he hl =>
      obtain ⟨hgrant, hspend⟩ := he.grants currency
      refine hsame ?_ (.single (.grant hgrant))
      unfold Treasury.authority
      rw [hl, heldBy_same hi, amountOf_append, amountOf_append, hspend, add_zero]
  | @new i hn hs hl =>
      have hfree : i.state.isReserved = false := by
        rw [hn.state]
        exact stateOfDecision_free _
      obtain ⟨x, hx, hheld⟩ := heldBy_new (inCurrency currency) hw
        hfree hs
      refine hsame ?_ (.single (.settle (x := x) (y := 0) hx))
      unfold Treasury.authority
      rw [hl, hheld, add_zero]
  | @reserve i i' r p hold hi hr hc hx hh hs hl =>
      -- the snapshot that allowed the reservation is the pool itself
      obtain ⟨_, used, t, _, _, _, hpassed⟩ := hr.passed
      obtain ⟨ledger, hledger, hle⟩ := hpassed.authority
      rw [ledgerSnapshot_available hledger, ← hpassed.currency] at hle
      have hfree : i.state.isReserved = false := by
        rcases hr.executable with hst | hst <;> rw [hst] <;> rfl
      have hres : i'.state.isReserved = true := by
        rw [hx]
        rfl
      have hhold : ∀ c, isCredit c hold = false ∧ isSpending c hold = false := by
        intro c
        unfold isCredit isSpending
        rw [hh.kind]
        simp
      have hguard : (Treasury.authority currency w.state).held
          + (Treasury.authority currency w.state).spent
          + share (inCurrency currency) i'
          ≤ (Treasury.authority currency w.state).granted
            ∨ share (inCurrency currency) i' = 0 := by
        by_cases hcur : i.request.finalTotal.currency = currency
        · refine Or.inl ?_
          rw [hcur] at hle
          rw [share_of_reserved hres, hc.request]
          split <;> have := hw.totals _ _ hi <;> omega
        · refine Or.inr ?_
          rw [share_of_reserved hres]
          unfold inCurrency
          rw [hc.request, if_neg fun h => hcur (of_decide_eq_true h)]
      have hheld := heldBy_next (inCurrency currency) hi hs
      rw [share_of_free hfree, sub_zero] at hheld
      have hpool : Treasury.authority currency w'.state
          = { Treasury.authority currency w.state with
              held := (Treasury.authority currency w.state).held
                + share (inCurrency currency) i' } := by
        unfold Treasury.authority
        rw [hl, hheld]
        simp [hhold currency]
      rw [hpool]
      rcases hguard with hguard | hzero
      · exact .single (.hold hguard)
      · rw [hzero, add_zero]
  | @moved i i' events hi hm hs hl =>
      have hpos := hw.totals _ _ hi
      -- first the hold is settled, then a refund grants again
      have hsettle := Pools.Step.settle (p := Treasury.authority currency w.state)
        (hm.spendsShare currency hpos)
      have hgrant := hm.refunds currency hpos hw.provider
      refine hsame ?_ (.tail (.single hsettle) (.grant hgrant))
      unfold Treasury.authority
      rw [hl, heldBy_next _ hi hs, amountOf_append, amountOf_append, sub_add]

/-! ## Runs -/

theorem Path.covered {allowed : Label → Prop} (h : Path host allowed w w')
    (hw : Sound w.state) {currency : String}
    (hc : Pools.Covered (authority currency w.state)) :
    Pools.Covered (authority currency w'.state) :=
  (h.invariant
    (I := fun v => Sound v.state ∧ Pools.Covered (authority currency v.state))
    (fun _ _ _ _ hchange hv => ⟨hchange.sound hv.1,
      (hchange.authority hv.1 currency).covered hv.2⟩)
    (fun _ _ _ ha _ => ha) ⟨hw, hc⟩).2

/-- The capital covers a treasury without intents. -/
theorem Started.covered {balance : Money} {token : String}
    (h : Started host balance token w) (currency : String) :
    Pools.Covered (authority currency w.state) := by
  obtain ⟨_, e, _, _, hkind, hamount, _, _, hs⟩ := h.state
  have hpos := h.positive
  rw [hs]
  show 0 + amountOf (isSpending currency) [e]
    ≤ amountOf (isCredit currency) [e]
  have hspend : isSpending currency e = false := by
    unfold isSpending
    rw [hkind]
    simp
  rw [amountOf_cons, amountOf_cons, hspend, hamount]
  simp only [Bool.false_eq_true, if_false, amountOf_nil, add_zero]
  split <;> omega

/-- **NO OVERSPEND**: in every reachable world, and in every world that is
    passed on the way through a further call, capital, top-ups and refunds
    cover in each currency what is settled and what the reserved intents
    hold; and the snapshot never takes its negative branch. -/
theorem never_overspent {token : String} {w0 : World} {cs : List Call}
    (hrun : TreasuryRun host token w0 cs w) (hpath : Path host anyLabel w w')
    (currency : String) :
    amountOf (isSpending currency) w'.state.ledger
        + heldBy (inCurrency currency) w'.state
        ≤ amountOf (isCredit currency) w'.state.ledger
      ∧ ledgerSnapshot w'.state currency ≠ .error negativeAuthority := by
  obtain ⟨balance, hs⟩ := hrun.balance
  have hcovered := Path.covered (hrun.path.trans hpath) hs.sound
    (hs.covered currency)
  refine ⟨?_, ledgerSnapshot_notNegative hcovered⟩
  rw [add_comm]
  exact hcovered

/-- A purchase whose settlement is pending holds its total. -/
theorem never_overspent_pending :
    ∃ token w0 w, TreasuryRun stillHost token w0
        (opening { smallPurchase with scenario := .delayedSettlement } token
          ++ [.request agentToken
            (.executePurchaseIntent (firstIntent stillHost))]) w
      ∧ heldBy (inCurrency "CAD") w.state = 1
      ∧ amountOf (isSpending "CAD") w.state.ledger + 1
        ≤ amountOf (isCredit "CAD") w.state.ledger
      ∧ ledgerSnapshot w.state "CAD" ≠ .error negativeAuthority := by
  have hrun : tryRun stillHost ⟨100000, "CAD"⟩
      (fun owner => opening
          { smallPurchase with scenario := .delayedSettlement } owner
        ++ [.request agentToken
          (.executePurchaseIntent (firstIntent stillHost))])
      (fun w => decide (heldBy (inCurrency "CAD") w.state = 1)) = true := by
    decide +kernel
  obtain ⟨token, w0, w, hrun, hheld⟩ := tryRun_run hrun
  have hheld := of_decide_eq_true hheld
  obtain ⟨hcovered, hsnapshot⟩ := never_overspent hrun (.refl w) "CAD"
  rw [hheld] at hcovered
  exact ⟨token, w0, w, hrun, hheld, hcovered, hsnapshot⟩

end Treasury
