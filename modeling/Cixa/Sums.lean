import Cixa.Domestic

/-! # Sums — when the checked sums of the broker can be made

    The snapshot of the ledger and the usage of an agent fold CHECKED
    additions over every event and every reserved intent.  What is spent and
    held is covered by what was granted, so only three sums can leave the
    64-bit range: the verified income, the unverified income, and what was
    granted.  With room for these a snapshot is always made; and a usage is
    counted exactly when it meets no other currency. -/

namespace Treasury

open CixaData CixaHost Outcome Checks Transition

variable {host : Host} {w w' : World} {l : Label} {s : TreasuryState}
  {currency : String}

/-! ## Room for a sum -/

/-- An amount of a currency to which `rest` can still be added. -/
structure Room (currency : String) (m : Money) (rest : Int) : Prop where
  currency : m.currency = currency
  nonneg : 0 ≤ m.minor
  fits : m.minor + rest ≤ I64.maxValue

theorem fits_of_nonneg {n : Int} (h : 0 ≤ n) (hle : n ≤ I64.maxValue) :
    I64.Fits n := by
  unfold I64.Fits I64.minValue
  omega

theorem Room.add {m amount : Money} {rest : Int}
    (h : Room currency m (amount.minor + rest))
    (hcur : amount.currency = currency) (hpos : 0 ≤ amount.minor)
    (hrest : 0 ≤ rest) : ∃ total, m.checkedAdd amount = .ok total
      ∧ total.minor = m.minor + amount.minor ∧ Room currency total rest := by
  have hnonneg := h.nonneg
  have hfits := h.fits
  refine ⟨⟨m.minor + amount.minor, m.currency⟩, checkedAdd_ok.mpr ⟨?_, ?_, rfl⟩,
    rfl, h.currency, ?_, ?_⟩
  · exact hcur.trans h.currency.symm
  · exact fits_of_nonneg (by omega) (by omega)
  · show 0 ≤ m.minor + amount.minor
    omega
  · show m.minor + amount.minor + rest ≤ I64.maxValue
    omega

theorem Room.weaken {m : Money} {rest rest' : Int} (h : Room currency m rest)
    (hle : rest' ≤ rest) : Room currency m rest' :=
  ⟨h.currency, h.nonneg, by have := h.fits; omega⟩

/-! ## The sums of a snapshot -/

/-- The kinds of event that a snapshot adds up. -/
def Tallied (kind : LedgerEventKind) : Prop :=
  kind ∈ [LedgerEventKind.ownerCapital, .incomeVerified, .incomeUnverified,
    .operatorTopUp, .spendingSettled, .refund]

instance (kind : LedgerEventKind) : Decidable (Tallied kind) :=
  inferInstanceAs (Decidable (kind ∈ _))

/-- The sum that an event of a kind is added to. -/
def LedgerSnapshot.tally (b : LedgerSnapshot) : LedgerEventKind → Money
  | .ownerCapital => b.ownerCapital
  | .incomeVerified => b.verifiedIncome
  | .incomeUnverified => b.unverifiedIncome
  | .operatorTopUp => b.operatorTopups
  | .spendingSettled => b.settledSpending
  | .refund => b.refunds
  | _ => b.reservedAmount

/-- A snapshot with another sum for a kind. -/
def LedgerSnapshot.withTally (b : LedgerSnapshot) (total : Money) :
    LedgerEventKind → LedgerSnapshot
  | .ownerCapital => { b with ownerCapital := total }
  | .incomeVerified => { b with verifiedIncome := total }
  | .incomeUnverified => { b with unverifiedIncome := total }
  | .operatorTopUp => { b with operatorTopups := total }
  | .spendingSettled => { b with settledSpending := total }
  | .refund => { b with refunds := total }
  | _ => b

@[simp] theorem withTally_currency (b : LedgerSnapshot) (total : Money)
    (kind : LedgerEventKind) :
    (LedgerSnapshot.withTally b total kind).currency = b.currency := by
  cases kind <;> rfl

theorem tally_withTally (b : LedgerSnapshot) (total : Money)
    {kind : LedgerEventKind} (hkind : Tallied kind) (kind' : LedgerEventKind) :
    LedgerSnapshot.tally (LedgerSnapshot.withTally b total kind) kind'
      = if kind' = kind then total else LedgerSnapshot.tally b kind' := by
  cases kind with
  | holdReserved | holdReleased | reversal | unknownCharge | reconciliation =>
      exact absurd hkind (by decide)
  | _ => cases kind' <;> rfl

/-- Whether an event of a currency is of a kind. -/
def countsAs (currency : String) (kind : LedgerEventKind) (e : LedgerEvent) :
    Bool :=
  decide (e.amount.currency = currency ∧ e.kind = kind)

/-- **ONE SUM FOR A KIND**: what an event does to a snapshot. -/
theorem addEventSnapshot_eq (b : LedgerSnapshot) (e : LedgerEvent) :
    addEventSnapshot b e
      = if e.amount.currency = b.currency ∧ Tallied e.kind then do
          let total ← (LedgerSnapshot.tally b e.kind).checkedAdd e.amount
          pure (LedgerSnapshot.withTally b total e.kind)
        else pure b := by
  unfold addEventSnapshot
  by_cases hcur : e.amount.currency = b.currency
  · rw [if_pos hcur]
    cases hk : e.kind with
    | holdReserved | holdReleased | reversal | unknownCharge
      | reconciliation => rw [if_neg fun h => absurd h.2 (by decide)]
    | _ =>
        rw [if_pos ⟨hcur, by decide⟩]
        rfl
  · rw [if_neg hcur, if_neg fun h => hcur h.1]

/-! ## When a snapshot can be made -/

/-- **THE SUMS FIT**: what a currency's snapshot counts stays within 64
    bits. -/
structure Countable (currency : String) (s : TreasuryState) : Prop where
  verified : amountOf (countsAs currency .incomeVerified) s.ledger
    ≤ I64.maxValue
  unverified : amountOf (countsAs currency .incomeUnverified) s.ledger
    ≤ I64.maxValue
  granted : amountOf (isCredit currency) s.ledger ≤ I64.maxValue

/-- Choosing more events that are not negative gives no less. -/
theorem amountOf_mono {choose choose' : LedgerEvent → Bool}
    {events : List LedgerEvent}
    (hsub : ∀ e, choose e = true → choose' e = true)
    (hpos : ∀ e ∈ events, choose' e = true → 0 ≤ e.amount.minor) :
    amountOf choose events ≤ amountOf choose' events := by
  induction events with
  | nil => exact le_refl _
  | cons e rest ih =>
      have hrest := ih fun e' he' => hpos e' (List.mem_cons_of_mem _ he')
      rw [amountOf_cons, amountOf_cons]
      refine add_le_add ?_ hrest
      by_cases hc : choose e = true
      · rw [if_pos hc, if_pos (hsub e hc)]
      · rw [if_neg hc]
        split
        · exact hpos e (List.mem_cons_self ..) ‹_›
        · exact le_refl 0

/-- What is tallied is never negative. -/
def Weighty (events : List LedgerEvent) : Prop :=
  ∀ e ∈ events, Tallied e.kind → 0 ≤ e.amount.minor

theorem Domestic.weighty {other : String} (h : Domestic other s) :
    Weighty s.ledger := by
  intro e he hkind
  refine (h.events e he).amount fun hhold => ?_
  rcases List.mem_cons.mp hhold with hk | hk
  · rw [hk] at hkind
    exact absurd hkind (by decide)
  · rw [List.mem_singleton.mp hk] at hkind
    exact absurd hkind (by decide)

/-- The three sums bound every sum of a kind. -/
theorem Countable.tally (h : Countable currency s) (hpos : Weighty s.ledger)
    (hs : Sound s) (hc : Pools.Covered (authority currency s))
    {kind : LedgerEventKind} (hkind : Tallied kind) :
    amountOf (countsAs currency kind) s.ledger ≤ I64.maxValue := by
  have hgranted := h.granted
  have hcredit : kind ∈ [.ownerCapital, .operatorTopUp, .refund] →
      amountOf (countsAs currency kind) s.ledger ≤ I64.maxValue := by
    intro hk
    refine le_trans (amountOf_mono (fun e he => ?_) fun e he hcredit => ?_)
      hgranted
    · obtain ⟨hcur, rfl⟩ := of_decide_eq_true he
      exact decide_eq_true ⟨hcur, hk⟩
    · refine hpos e he ?_
      have hk' := (of_decide_eq_true hcredit).2
      revert hk'
      cases e.kind <;> decide
  have hheld : 0 ≤ heldBy (inCurrency currency) s :=
    SortedMap.sum_nonneg fun id i hi => share_nonneg _ (hs.totals id i hi)
  have hspent : amountOf (countsAs currency .spendingSettled) s.ledger
      ≤ amountOf (isCredit currency) s.ledger :=
    le_trans (le_add_of_nonneg_left hheld) hc
  cases kind with
  | incomeVerified => exact h.verified
  | incomeUnverified => exact h.unverified
  | spendingSettled => exact le_trans hspent hgranted
  | ownerCapital | operatorTopUp | refund => exact hcredit (by decide)
  | _ => exact absurd hkind (by decide)

/-- There is room in a snapshot for the rest of the ledger. -/
structure RoomFor (currency : String) (events : List LedgerEvent)
    (b : LedgerSnapshot) : Prop where
  counts : b.currency = currency
  reserved : b.reservedAmount = ⟨0, currency⟩
  weighty : Weighty events
  tallies : ∀ kind, Tallied kind → Room currency (LedgerSnapshot.tally b kind)
    (amountOf (countsAs currency kind) events)

theorem RoomFor.next {b : LedgerSnapshot} {e : LedgerEvent}
    {rest : List LedgerEvent} (h : RoomFor currency (e :: rest) b) :
    ∃ b', addEventSnapshot b e = .ok b' ∧ RoomFor currency rest b' := by
  have hrest : Weighty rest := fun e' he' =>
    h.weighty e' (List.mem_cons_of_mem _ he')
  have hsum : ∀ kind, Tallied kind →
      0 ≤ amountOf (countsAs currency kind) rest := fun kind hkind =>
    amountOf_nonneg fun e' he' hcounts =>
      hrest e' he' ((of_decide_eq_true hcounts).2 ▸ hkind)
  rw [addEventSnapshot_eq]
  by_cases hcounts : e.amount.currency = b.currency ∧ Tallied e.kind
  · obtain ⟨hcur, hkind⟩ := hcounts
    have hcur' := hcur.trans h.counts
    have hpos := h.weighty e (List.mem_cons_self ..) hkind
    have hroom := h.tallies e.kind hkind
    have hcounts : countsAs currency e.kind e = true :=
      decide_eq_true ⟨hcur', rfl⟩
    rw [amountOf_cons, if_pos hcounts] at hroom
    obtain ⟨total, hadd, _, htotal⟩ := hroom.add hcur' hpos (hsum _ hkind)
    refine ⟨LedgerSnapshot.withTally b total e.kind, ?_, ?_⟩
    · rw [if_pos ⟨hcur, hkind⟩, hadd]
      rfl
    refine ⟨(withTally_currency ..).trans h.counts, ?_, hrest, ?_⟩
    · have hres := tally_withTally b total hkind .holdReserved
      rw [if_neg fun hk => absurd (hk ▸ hkind) (by decide)] at hres
      exact hres.trans h.reserved
    intro kind hk
    rw [tally_withTally b total hkind]
    by_cases heq : kind = e.kind
    · rw [if_pos heq, heq]
      exact htotal
    · rw [if_neg heq]
      have hother := h.tallies kind hk
      rw [amountOf_cons, if_neg fun hc => heq (of_decide_eq_true hc).2.symm,
        zero_add] at hother
      exact hother
  · refine ⟨b, by rw [if_neg hcounts]; rfl, h.counts, h.reserved, hrest, ?_⟩
    intro kind hk
    have hsame := h.tallies kind hk
    rw [amountOf_cons, if_neg ?_, zero_add] at hsame
    · exact hsame
    · intro hc
      obtain ⟨hcur, rfl⟩ := of_decide_eq_true hc
      exact hcounts ⟨hcur.trans h.counts.symm, hk⟩

/-- There is room in a snapshot for the intents that are left. -/
structure RoomHeld (currency : String) (base : LedgerSnapshot)
    (intents : List PurchaseIntent) (b : LedgerSnapshot) : Prop where
  counts : b.currency = currency
  same : { b with reservedAmount := base.reservedAmount } = base
  totals : ∀ i ∈ intents, 0 < i.request.finalTotal.minor
  room : Room currency b.reservedAmount
    (intents.map (share (inCurrency currency))).sum

theorem RoomHeld.next {base b : LedgerSnapshot} {i : PurchaseIntent}
    {rest : List PurchaseIntent} (h : RoomHeld currency base (i :: rest) b) :
    ∃ b', addIntentSnapshot b i = .ok b' ∧ RoomHeld currency base rest b' := by
  have hrest : ∀ j ∈ rest, 0 < j.request.finalTotal.minor := fun j hj =>
    h.totals j (List.mem_cons_of_mem _ hj)
  have hsum : 0 ≤ (rest.map (share (inCurrency currency))).sum := by
    refine List.sum_nonneg fun x hx => ?_
    obtain ⟨j, hj, rfl⟩ := List.mem_map.mp hx
    exact share_nonneg _ (hrest j hj)
  have hroom := h.room
  rw [List.map_cons, List.sum_cons] at hroom
  unfold addIntentSnapshot
  by_cases hcounts : i.request.finalTotal.currency = b.currency
      ∧ i.state.isReserved = true
  · obtain ⟨hcur, hres⟩ := hcounts
    have hcur' := hcur.trans h.counts
    have hpos := h.totals i (List.mem_cons_self ..)
    have hin : inCurrency currency i = true := decide_eq_true hcur'
    rw [share_of_reserved hres, if_pos hin] at hroom
    obtain ⟨total, hadd, _, htotal⟩ := hroom.add hcur' (le_of_lt hpos) hsum
    refine ⟨{ b with reservedAmount := total }, ?_, h.counts, h.same, hrest,
      htotal⟩
    rw [if_pos ⟨hcur, hres⟩, hadd]
    rfl
  · refine ⟨b, by rw [if_neg hcounts]; rfl, h.counts, h.same, hrest, ?_⟩
    refine hroom.weaken ?_
    have hshare := share_nonneg (inCurrency currency)
      (h.totals i (List.mem_cons_self ..))
    omega

theorem zeroSnapshot_of (h : Money.wellFormedCurrency currency = true) :
    LedgerSnapshot.zero currency = .ok ⟨currency, ⟨0, currency⟩, ⟨0, currency⟩,
      ⟨0, currency⟩, ⟨0, currency⟩, ⟨0, currency⟩, ⟨0, currency⟩,
      ⟨0, currency⟩, ⟨0, currency⟩⟩ := by
  unfold LedgerSnapshot.zero Money.zero Money.new
  rw [h]
  rfl

/-- Closing needs room for the credits, and enough of them. -/
theorem closeSnapshot_returns {b : LedgerSnapshot}
    (hcur : ∀ kind, Tallied kind → ∃ n, Room currency (LedgerSnapshot.tally b kind) n)
    (hres : ∃ n, Room currency b.reservedAmount n)
    (hcredits : LedgerSnapshot.credits b ≤ I64.maxValue)
    (hcovered : b.settledSpending.minor + b.reservedAmount.minor
      ≤ LedgerSnapshot.credits b) : ∃ b', closeSnapshot b = .ok b' := by
  obtain ⟨n1, h1⟩ := hcur .ownerCapital (by decide)
  obtain ⟨n2, h2⟩ := hcur .operatorTopUp (by decide)
  obtain ⟨n3, h3⟩ := hcur .refund (by decide)
  obtain ⟨n4, h4⟩ := hcur .spendingSettled (by decide)
  obtain ⟨n5, h5⟩ := hres
  have hn1 : 0 ≤ b.ownerCapital.minor := h1.nonneg
  have hn2 : 0 ≤ b.operatorTopups.minor := h2.nonneg
  have hn3 : 0 ≤ b.refunds.minor := h3.nonneg
  have hn4 : 0 ≤ b.settledSpending.minor := h4.nonneg
  have hn5 := h5.nonneg
  unfold LedgerSnapshot.credits at hcredits hcovered
  have hcapital : b.ownerCapital.currency = currency := h1.currency
  have htop : b.operatorTopups.currency = currency := h2.currency
  have hrefund : b.refunds.currency = currency := h3.currency
  have hspent : b.settledSpending.currency = currency := h4.currency
  have hheld := h5.currency
  have hroom : Room currency b.ownerCapital
      (b.operatorTopups.minor + b.refunds.minor) :=
    ⟨hcapital, hn1, by omega⟩
  obtain ⟨c1, hc1, hm1, hr1⟩ := hroom.add htop hn2 hn3
  have hroom' : Room currency c1 (b.refunds.minor + 0) :=
    hr1.weaken (by omega)
  obtain ⟨c2, hc2, hm2, hr2⟩ := hroom'.add hrefund hn3 (le_refl 0)
  have hroom'' : Room currency b.settledSpending (b.reservedAmount.minor + 0) :=
    ⟨hspent, hn4, by omega⟩
  obtain ⟨d, hd, hm3, hr3⟩ := hroom''.add hheld hn5 (le_refl 0)
  refine ⟨{ b with
    availableAuthority := ⟨c2.minor - d.minor, c2.currency⟩ }, ?_⟩
  have hsub : c2.checkedSub d = .ok ⟨c2.minor - d.minor, c2.currency⟩ := by
    refine checkedSub_ok.mpr ⟨hr3.currency.trans hr2.currency.symm, ?_, rfl⟩
    exact fits_of_nonneg (by omega) (by omega)
  unfold closeSnapshot
  simp only [bind_eq_ok, refuseIf_eq_ok, pure_eq_ok]
  refine ⟨c1, hc1, c2, hc2, d, hd, _, hsub, ⟨⟩, ?_, rfl⟩
  show ¬c2.minor - d.minor < 0
  omega

/-- **A SNAPSHOT IS MADE** when its three sums fit. -/
theorem ledgerSnapshot_returns
    (hwf : Money.wellFormedCurrency currency = true)
    (hcount : Countable currency s) (hpos : Weighty s.ledger) (hs : Sound s)
    (hc : Pools.Covered (authority currency s)) :
    ∃ b, ledgerSnapshot s currency = .ok b := by
  have hzero := zeroSnapshot_of hwf
  generalize hb : (⟨currency, ⟨0, currency⟩, ⟨0, currency⟩, ⟨0, currency⟩,
    ⟨0, currency⟩, ⟨0, currency⟩, ⟨0, currency⟩, ⟨0, currency⟩,
    ⟨0, currency⟩⟩ : LedgerSnapshot) = zero at hzero
  have hheld : 0 ≤ heldBy (inCurrency currency) s :=
    SortedMap.sum_nonneg fun id i hi => share_nonneg _ (hs.totals id i hi)
  have hgranted := hcount.granted
  have hcovered : heldBy (inCurrency currency) s
      + amountOf (countsAs currency .spendingSettled) s.ledger
      ≤ amountOf (isCredit currency) s.ledger := hc
  -- The invariant: what is counted so far, with all that is still to come, fits
  -- a word.
  have hstart : RoomFor currency s.ledger zero := by
    subst hb
    refine ⟨rfl, rfl, hpos, fun kind hkind => ⟨?_, ?_, ?_⟩⟩
    · cases kind <;> rfl
    · cases kind <;> exact le_refl 0
    · have hsum := hcount.tally hpos hs hc hkind
      cases kind <;> exact (zero_add _).trans_le hsum
  obtain ⟨events, hevents, hmid⟩ := CheckedFold.foldlM_returns
    (I := RoomFor currency) (fun _ _ _ h => h.next) hstart
  -- The same for what the stored intents hold, from the counted events on.
  have hmidheld : RoomHeld currency events s.intents.values events := by
    refine ⟨hmid.counts, rfl, ?_, ?_⟩
    · intro i hi
      obtain ⟨id, hget⟩ := SortedMap.mem_values.mp hi
      exact hs.totals id i hget
    · rw [hmid.reserved]
      refine ⟨rfl, le_refl 0, ?_⟩
      have hspent : 0 ≤ amountOf (countsAs currency .spendingSettled) s.ledger :=
        amountOf_nonneg fun e he hcounts =>
          hpos e he ((of_decide_eq_true hcounts).2 ▸ by decide)
      show 0 + heldBy (inCurrency currency) s ≤ I64.maxValue
      omega
  obtain ⟨intents, hintents, hend⟩ := CheckedFold.foldlM_returns
    (I := RoomHeld currency events) (fun _ _ _ h => h.next) hmidheld
  obtain ⟨hg, hsp, hh⟩ := snapshotSums hzero hevents hintents
  have htallies : ∀ kind, Tallied kind →
      ∃ n, Room currency (LedgerSnapshot.tally intents kind) n := by
    intro kind hkind
    refine ⟨amountOf (countsAs currency kind) [], ?_⟩
    have hsame : LedgerSnapshot.tally intents kind
        = LedgerSnapshot.tally events kind := by
      rw [← hend.same]
      cases kind with
      | holdReserved | holdReleased | reversal | unknownCharge
        | reconciliation => exact absurd hkind (by decide)
      | _ => rfl
    rw [hsame]
    exact hmid.tallies kind hkind
  have hclose := closeSnapshot_returns htallies ⟨_, hend.room⟩
    (by rw [hg]; exact hgranted)
    (by
      rw [hg, hsp, hh]
      unfold Pools.Covered at hc
      omega)
  obtain ⟨b, hclose⟩ := hclose
  refine ⟨b, ?_⟩
  unfold ledgerSnapshot
  simp only [bind_eq_ok]
  exact ⟨zero, hzero, events, hevents, intents, hintents, hclose⟩

/-! ## A snapshot that was made -/

theorem addEventSnapshot_tally {b b' : LedgerSnapshot} {e : LedgerEvent}
    {kind : LedgerEventKind} (hkind : Tallied kind)
    (h : addEventSnapshot b e = .ok b') : b'.currency = b.currency
      ∧ (I64.Fits (LedgerSnapshot.tally b kind).minor →
        I64.Fits (LedgerSnapshot.tally b' kind).minor)
      ∧ (LedgerSnapshot.tally b' kind).minor
        = (LedgerSnapshot.tally b kind).minor
          + (if countsAs b.currency kind e = true then e.amount.minor else 0) := by
  rw [addEventSnapshot_eq] at h
  by_cases hcounts : e.amount.currency = b.currency ∧ Tallied e.kind
  · rw [if_pos hcounts] at h
    simp only [bind_eq_ok, pure_eq_ok] at h
    obtain ⟨total, hadd, rfl⟩ := h
    refine ⟨withTally_currency .., ?_⟩
    rw [tally_withTally b _ hcounts.2]
    by_cases heq : kind = e.kind
    · have hyes : countsAs b.currency kind e = true :=
        decide_eq_true ⟨hcounts.1, heq.symm⟩
      rw [if_pos heq, if_pos hyes, heq]
      exact ⟨fun _ => checkedAdd_fits hadd, (checkedAdd_minor hadd).1⟩
    · have hno : ¬countsAs b.currency kind e = true := fun hc =>
        heq (of_decide_eq_true hc).2.symm
      rw [if_neg heq, if_neg hno, add_zero]
      exact ⟨id, rfl⟩
  · rw [if_neg hcounts, pure_eq_ok] at h
    subst h
    have hno : ¬countsAs b.currency kind e = true := by
      intro hc
      obtain ⟨hcur, rfl⟩ := of_decide_eq_true hc
      exact hcounts ⟨hcur, hkind⟩
    rw [if_neg hno, add_zero]
    exact ⟨rfl, id, rfl⟩

/-- **A SNAPSHOT THAT WAS MADE** has sums that fit. -/
theorem ledgerSnapshot_countable {b : LedgerSnapshot}
    (h : ledgerSnapshot s currency = .ok b) : Countable currency s := by
  unfold ledgerSnapshot at h
  simp only [bind_eq_ok] at h
  obtain ⟨zero, hzero, events, hevents, intents, hintents, hclose⟩ := h
  have hstart : zero.currency = currency
      ∧ ∀ kind, (LedgerSnapshot.tally zero kind).minor = 0 := by
    unfold LedgerSnapshot.zero Money.zero Money.new at hzero
    simp only [bind_eq_ok, pure_eq_ok] at hzero
    obtain ⟨_, ⟨_, _, rfl⟩, rfl⟩ := hzero
    exact ⟨rfl, fun kind => by cases kind <;> rfl⟩
  have htally : ∀ kind, Tallied kind →
      amountOf (countsAs currency kind) s.ledger ≤ I64.maxValue := by
    intro kind hkind
    obtain ⟨⟨_, hfits⟩, hsum⟩ := CheckedFold.foldlM_sum
      (I := fun b : LedgerSnapshot => b.currency = currency
        ∧ I64.Fits (LedgerSnapshot.tally b kind).minor)
      (m := fun b => (LedgerSnapshot.tally b kind).minor)
      (f := fun e => if countsAs currency kind e = true then e.amount.minor
        else 0)
      (by
        rintro b e b' ⟨rfl, hfits⟩ hstep
        obtain ⟨hcur, hkeep, hadd⟩ := addEventSnapshot_tally hkind hstep
        exact ⟨⟨hcur, hkeep hfits⟩, hadd⟩)
      ⟨hstart.1, by rw [hstart.2 kind]; decide⟩ hevents
    rw [hsum, hstart.2 kind, zero_add] at hfits
    exact hfits.2
  refine ⟨htally _ (by decide), htally _ (by decide), ?_⟩
  obtain ⟨hgranted, _, _⟩ := snapshotSums hzero hevents hintents
  unfold closeSnapshot at hclose
  simp only [bind_eq_ok, pure_eq_ok] at hclose
  obtain ⟨c1, h1, c2, h2, _⟩ := hclose
  have hfits := checkedAdd_fits h2
  have hsum : c2.minor = LedgerSnapshot.credits intents := by
    rw [(checkedAdd_minor h2).1, (checkedAdd_minor h1).1]
    rfl
  rw [hsum, hgranted] at hfits
  exact hfits.2

/-! ## The usage of an agent -/

/-- Every reserved intent of an agent is in a currency. -/
def Homely (s : TreasuryState) (agentId currency : String) : Prop :=
  ∀ id i, s.intents.get? id = some i → i.agentId = agentId →
    i.state.isReserved = true → i.request.finalTotal.currency = currency

/-- There is room in a usage for the rest of what is spent and held. -/
structure Usable (currency : String) (b : BudgetUsage) (rest : Int) : Prop where
  lifetime : Room currency b.lifetimeAmount rest
  rolling : Room currency b.rolling24hAmount rest
  session : Room currency b.sessionAmount rest
  reserved : Room currency b.reservedAmount rest

theorem Room.addIf {c : Prop} [Decidable c] {m amount : Money} {rest : Int}
    (h : Room currency m (amount.minor + rest))
    (hcur : amount.currency = currency) (hpos : 0 ≤ amount.minor)
    (hrest : 0 ≤ rest) :
    ∃ total, addIf c m amount = .ok total ∧ Room currency total rest := by
  unfold Treasury.addIf
  split
  · obtain ⟨total, hadd, _, htotal⟩ := h.add hcur hpos hrest
    exact ⟨total, hadd, htotal⟩
  · exact ⟨m, rfl, h.weaken (by omega)⟩

theorem Usable.addEvent (s : TreasuryState) (agentId session : String)
    (t : Int) {b : BudgetUsage} {e : LedgerEvent} {rest : Int}
    (h : Usable currency b
      ((if isSpending currency e = true then e.amount.minor else 0) + rest))
    (hpos : isSpending currency e = true → 0 ≤ e.amount.minor)
    (hrest : 0 ≤ rest) :
    ∃ b', addEventUsage s agentId session currency t b e = .ok b'
      ∧ Usable currency b' rest := by
  unfold addEventUsage
  by_cases hcounts : e.amount.currency = currency
      ∧ eventBelongs s agentId e = true ∧ e.kind = .spendingSettled
  · obtain ⟨hcur, hbelongs, hkind⟩ := hcounts
    have hspending : isSpending currency e = true :=
      decide_eq_true ⟨hcur, hkind⟩
    have hpos' := hpos hspending
    rw [if_pos hspending] at h
    obtain ⟨lifetime, h1, _, hlifetime⟩ := h.lifetime.add hcur hpos' hrest
    obtain ⟨rolling, h2, hrolling⟩ :=
      h.rolling.addIf (c := e.at ≥ t - 24 * 60 * 60) hcur hpos' hrest
    obtain ⟨total, h3, htotal⟩ :=
      h.session.addIf (c := eventInSession s session e = true) hcur hpos' hrest
    rw [if_pos ⟨hcur, hbelongs, hkind⟩]
    refine ⟨{ b with
      lifetimeAmount := lifetime
      rolling24hAmount := rolling
      sessionAmount := total }, ?_, hlifetime, hrolling, htotal, ?_⟩
    · simp only [bind_eq_ok, pure_eq_ok]
      exact ⟨lifetime, h1, rolling, h2, total, h3, rfl⟩
    · exact h.reserved.weaken (by omega)
  · rw [if_neg hcounts]
    have hle : rest ≤ (if isSpending currency e = true then e.amount.minor
        else 0) + rest := by
      split
      · have := hpos ‹_›
        omega
      · omega
    exact ⟨b, rfl, h.lifetime.weaken hle, h.rolling.weaken hle,
      h.session.weaken hle, h.reserved.weaken hle⟩

theorem Usable.addIntent {agentId : String} (session : String)
    {b : BudgetUsage} {i : PurchaseIntent} {rest : Int}
    (h : Usable currency b (share (inCurrency currency) i + rest))
    (hpos : 0 < i.request.finalTotal.minor)
    (hcur : i.agentId = agentId → i.state.isReserved = true →
      i.request.finalTotal.currency = currency) (hrest : 0 ≤ rest) :
    ∃ b', addIntentUsage agentId session b i = .ok b'
      ∧ Usable currency b' rest := by
  unfold addIntentUsage
  by_cases hcounts : i.agentId = agentId ∧ i.state.isReserved = true
  · obtain ⟨hagent, hres⟩ := hcounts
    have hcur' := hcur hagent hres
    have hin : inCurrency currency i = true := decide_eq_true hcur'
    have hpos' := le_of_lt hpos
    rw [share_of_reserved hres, if_pos hin] at h
    obtain ⟨reserved, h1, _, hreserved⟩ := h.reserved.add hcur' hpos' hrest
    obtain ⟨lifetime, h2, _, hlifetime⟩ := h.lifetime.add hcur' hpos' hrest
    obtain ⟨rolling, h3, _, hrolling⟩ := h.rolling.add hcur' hpos' hrest
    obtain ⟨total, h4, htotal⟩ := h.session.addIf
      (c := i.brokerSessionId = session) hcur' hpos' hrest
    rw [if_pos ⟨hagent, hres⟩]
    refine ⟨{ b with
      reservedAmount := reserved
      lifetimeAmount := lifetime
      rolling24hAmount := rolling
      sessionAmount := total }, ?_, hlifetime, hrolling, htotal, hreserved⟩
    simp only [bind_eq_ok, pure_eq_ok]
    exact ⟨reserved, h1, lifetime, h2, rolling, h3, total, h4, rfl⟩
  · rw [if_neg hcounts]
    have hle : rest ≤ share (inCurrency currency) i + rest := by
      have := share_nonneg (inCurrency currency) hpos
      omega
    exact ⟨b, rfl, h.lifetime.weaken hle, h.rolling.weaken hle,
      h.session.weaken hle, h.reserved.weaken hle⟩

theorem zeroUsage_of (h : Money.wellFormedCurrency currency = true) :
    BudgetUsage.zero currency = .ok ⟨⟨0, currency⟩, ⟨0, currency⟩,
      ⟨0, currency⟩, ⟨0, currency⟩, 0⟩ := by
  unfold BudgetUsage.zero Money.zero Money.new
  rw [h]
  rfl

/-- **THE USAGE IS COUNTED** when the agent's reserved intents are in the
    currency and the snapshot's sums fit. -/
theorem usageAt_returns {agentId : String} {r : AgentRecord} {t : Int}
    {zero : BudgetUsage} (hr : s.agents.get? agentId = some r)
    (hzero : BudgetUsage.zero currency = .ok zero)
    (hgranted : amountOf (isCredit currency) s.ledger ≤ I64.maxValue)
    (hhome : Homely s agentId currency) (hpos : Weighty s.ledger)
    (hs : Sound s) (hc : Pools.Covered (authority currency s)) :
    ∃ used, usageAt s agentId currency t zero = .ok used
      ∧ Usable currency used 0 := by
  have hspendpos : ∀ e ∈ s.ledger, isSpending currency e = true →
      0 ≤ e.amount.minor := fun e he hspending =>
    hpos e he ((of_decide_eq_true hspending).2 ▸ by decide)
  have hheld : 0 ≤ heldBy (inCurrency currency) s :=
    SortedMap.sum_nonneg fun id i hi => share_nonneg _ (hs.totals id i hi)
  have hload : amountOf (isSpending currency) s.ledger
      + heldBy (inCurrency currency) s ≤ I64.maxValue := by
    rw [add_comm]
    exact le_trans hc hgranted
  have hstart : Usable currency
      { zero with recentTransactionCount := recentCount s agentId t }
      (amountOf (isSpending currency) s.ledger
        + heldBy (inCurrency currency) s) := by
    unfold BudgetUsage.zero Money.zero Money.new at hzero
    simp only [bind_eq_ok, pure_eq_ok] at hzero
    obtain ⟨_, ⟨_, _, rfl⟩, rfl⟩ := hzero
    have hroom : Room currency ⟨0, currency⟩
        (amountOf (isSpending currency) s.ledger
          + heldBy (inCurrency currency) s) :=
      ⟨rfl, le_refl 0, (zero_add _).trans_le hload⟩
    exact ⟨hroom, hroom, hroom, hroom⟩
  -- the events first, with room left for all the intents
  have hevent : ∀ b e l, ((∀ e' ∈ e :: l, isSpending currency e' = true →
        0 ≤ e'.amount.minor)
      ∧ Usable currency b (amountOf (isSpending currency) (e :: l)
        + heldBy (inCurrency currency) s)) →
      ∃ b', addEventUsage s agentId r.brokerSessionId currency t b e = .ok b'
        ∧ (∀ e' ∈ l, isSpending currency e' = true → 0 ≤ e'.amount.minor)
        ∧ Usable currency b' (amountOf (isSpending currency) l
          + heldBy (inCurrency currency) s) := by
    rintro b e l ⟨hl, hb⟩
    have hl' := fun e' he' => hl e' (List.mem_cons_of_mem e he')
    rw [amountOf_cons, add_assoc] at hb
    obtain ⟨b', hb', hroom⟩ := hb.addEvent s agentId r.brokerSessionId t
      (hl e (List.mem_cons_self ..)) (add_nonneg (amountOf_nonneg hl') hheld)
    exact ⟨b', hb', hl', hroom⟩
  obtain ⟨events, hevents, _, hmid⟩ := CheckedFold.foldlM_returns
    (I := fun l b => (∀ e' ∈ l, isSpending currency e' = true →
        0 ≤ e'.amount.minor)
      ∧ Usable currency b (amountOf (isSpending currency) l
        + heldBy (inCurrency currency) s)) hevent ⟨hspendpos, hstart⟩
  rw [amountOf_nil, zero_add] at hmid
  have hintent : ∀ b i l, ((∀ j ∈ i :: l, 0 < j.request.finalTotal.minor
        ∧ (j.agentId = agentId → j.state.isReserved = true →
          j.request.finalTotal.currency = currency))
      ∧ Usable currency b (((i :: l).map (share (inCurrency currency))).sum)) →
      ∃ b', addIntentUsage agentId r.brokerSessionId b i = .ok b'
        ∧ (∀ j ∈ l, 0 < j.request.finalTotal.minor
          ∧ (j.agentId = agentId → j.state.isReserved = true →
            j.request.finalTotal.currency = currency))
        ∧ Usable currency b' ((l.map (share (inCurrency currency))).sum) := by
    rintro b i l ⟨hl, hb⟩
    have hl' := fun j hj => hl j (List.mem_cons_of_mem i hj)
    obtain ⟨hipos, hicur⟩ := hl i (List.mem_cons_self ..)
    rw [List.map_cons, List.sum_cons] at hb
    have hrest : 0 ≤ (l.map (share (inCurrency currency))).sum := by
      refine List.sum_nonneg fun x hx => ?_
      obtain ⟨j, hj, rfl⟩ := List.mem_map.mp hx
      exact share_nonneg _ (hl' j hj).1
    obtain ⟨b', hb', hroom⟩ := hb.addIntent r.brokerSessionId hipos hicur hrest
    exact ⟨b', hb', hl', hroom⟩
  have hvalues : ∀ i ∈ s.intents.values, 0 < i.request.finalTotal.minor
      ∧ (i.agentId = agentId → i.state.isReserved = true →
        i.request.finalTotal.currency = currency) := by
    intro i hi
    obtain ⟨id, hget⟩ := SortedMap.mem_values.mp hi
    exact ⟨hs.totals id i hget, hhome id i hget⟩
  obtain ⟨used, hused, _, hend⟩ := CheckedFold.foldlM_returns
    (I := fun l b => (∀ j ∈ l, 0 < j.request.finalTotal.minor
        ∧ (j.agentId = agentId → j.state.isReserved = true →
          j.request.finalTotal.currency = currency))
      ∧ Usable currency b ((l.map (share (inCurrency currency))).sum))
    hintent ⟨hvalues, hmid⟩
  refine ⟨used, ?_, hend⟩
  unfold usageAt
  simp only [bind_eq_ok]
  exact ⟨r, agent_ok.mpr hr, events, hevents, hused⟩

/-- A usage that was counted met no other currency. -/
theorem usageAt_homely {agentId : String} {t : Int} {zero used : BudgetUsage}
    (hzero : BudgetUsage.zero currency = .ok zero)
    (h : usageAt s agentId currency t zero = .ok used) :
    Homely s agentId currency := by
  unfold usageAt at h
  simp only [bind_eq_ok] at h
  obtain ⟨r, _, events, hevents, hintents⟩ := h
  have hstart : zero.reservedAmount.currency = currency := by
    unfold BudgetUsage.zero Money.zero Money.new at hzero
    simp only [bind_eq_ok, pure_eq_ok] at hzero
    obtain ⟨_, ⟨_, _, rfl⟩, rfl⟩ := hzero
    rfl
  have hmid : events.reservedAmount.currency = currency := by
    refine (CheckedFold.foldlM_sum
      (I := fun b : BudgetUsage => b.reservedAmount.currency = currency)
      (m := fun _ => 0) (f := fun _ => 0) ?_ ?_ hevents).1
    case refine_2 => exact hstart
    intro b e b' hb hstep
    unfold addEventUsage at hstep
    split at hstep
    · simp only [bind_eq_ok, pure_eq_ok] at hstep
      obtain ⟨_, _, _, _, _, _, rfl⟩ := hstep
      exact ⟨hb, rfl⟩
    · rw [pure_eq_ok] at hstep
      exact ⟨hstep ▸ hb, rfl⟩
  have hstep : ∀ b i b', b.reservedAmount.currency = currency →
      addIntentUsage agentId r.brokerSessionId b i = .ok b' →
      b'.reservedAmount.currency = currency
        ∧ (i.agentId = agentId ∧ i.state.isReserved = true →
          i.request.finalTotal.currency = currency) := by
    intro b i b' hb hadd
    unfold addIntentUsage at hadd
    split at hadd
    · simp only [bind_eq_ok, pure_eq_ok] at hadd
      obtain ⟨reserved, hreserved, _, _, _, _, _, _, rfl⟩ := hadd
      obtain ⟨_, hkept, hcur⟩ := checkedAdd_minor hreserved
      exact ⟨hkept.trans hb, fun _ => hcur.trans hb⟩
    · rename_i hno
      rw [pure_eq_ok] at hadd
      exact ⟨hadd ▸ hb, fun hyes => absurd hyes hno⟩
  intro id i hi hagent hres
  obtain ⟨b, b', hb, hadd⟩ := CheckedFold.foldlM_each
    (fun b i b' hb hadd => (hstep b i b' hb hadd).1) hmid hintents i
    (SortedMap.mem_values_of_get? hi)
  exact (hstep b i b' hb hadd).2 ⟨hagent, hres⟩

end Treasury
