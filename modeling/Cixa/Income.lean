import Cixa.Deposits

/-! # Income — what deposits add to the authority

    A deposit adds one income event, and a verified one a top-up of its SHARE
    of the amount.  So the top-ups never exceed the verified income, and a
    reference adds one income event however often it is repeated.

    What is left of the authority is read from a snapshot that adds up every
    event, also the income that grants nothing: a deposit changes what is left
    by its share exactly when these sums still fit. -/

namespace Treasury

open CixaData CixaHost Outcome Checks Transition

variable {host : Host} {w w' v : World} {l : Label} {s s' : TreasuryState}
  {c : Call} {cs ds : List Call} {token : String} {amount reinvested : Money}
  {verified : Bool} {source reference currency : String}
  {agentId : Option String} {events : List LedgerEvent}

/-! ## The events of a deposit -/

/-- An amount, if it is in a currency. -/
def amountIn (currency : String) (m : Money) : Int :=
  if m.currency = currency then m.minor else 0

/-- The share of an accepted deposit is in its currency, and at most all. -/
theorem depositShare_share
    (h : depositShare s amount verified agentId = .ok reinvested)
    (hpos : 0 < amount.minor) : reinvested.currency = amount.currency
      ∧ 0 ≤ reinvested.minor ∧ reinvested.minor ≤ amount.minor
      ∧ (verified = false → reinvested.minor = 0) := by
  cases verified with
  | false =>
      unfold depositShare Money.zero Money.new at h
      simp only [Bool.false_eq_true, if_false, bind_eq_ok, pure_eq_ok] at h
      obtain ⟨_, _, rfl⟩ := h
      exact ⟨rfl, le_refl _, le_of_lt hpos, fun _ => rfl⟩
  | true =>
      obtain ⟨_, _, p, _, _, _, _, _, _, _, _, _, _, _, hshare, _⟩ :=
        depositShare_verified.mp h
      obtain ⟨hbps, _, rfl⟩ := scaledBasisPoints_ok.mp hshare
      have hprod : 0 ≤ amount.minor * (p.reinvestmentRatioBps : Int) :=
        Int.mul_nonneg (le_of_lt hpos) (Int.natCast_nonneg _)
      refine ⟨rfl, Int.tdiv_nonneg hprod (by decide), ?_, Bool.noConfusion⟩
      show Int.tdiv _ 10000 ≤ amount.minor
      rw [Int.tdiv_eq_ediv_of_nonneg hprod]
      have hle : amount.minor * (p.reinvestmentRatioBps : Int)
          ≤ amount.minor * 10000 :=
        Int.mul_le_mul_of_nonneg_left (by omega) (le_of_lt hpos)
      omega

/-- **THE SUMS OF A DEPOSIT**: its amount is income, its share is granted, and
    nothing is spent. -/
theorem DepositEvents.sums (currency : String)
    (h : DepositEvents host w w' amount reinvested verified events)
    (hnonneg : 0 ≤ reinvested.minor) :
    amountOf (countsAs currency (incomeKind verified)) events
        = amountIn currency amount
      ∧ amountOf (countsAs currency (incomeKind !verified)) events = 0
      ∧ amountOf (countsAs currency .operatorTopUp) events
        = amountIn currency reinvested
      ∧ amountOf (isCredit currency) events = amountIn currency reinvested
      ∧ amountOf (isSpending currency) events = 0 := by
  have hincome : ∀ e, EventIn host w w' (incomeKind verified) amount none e →
      countsAs currency (incomeKind verified) e
          = decide (amount.currency = currency)
        ∧ countsAs currency (incomeKind !verified) e = false
        ∧ countsAs currency .operatorTopUp e = false
        ∧ isCredit currency e = false ∧ isSpending currency e = false
        ∧ e.amount = amount := by
    intro e he
    unfold countsAs isCredit isSpending
    rw [he.kind, he.amount]
    cases verified <;> simp [incomeKind]
  unfold amountIn
  cases h with
  | @plain e hz he =>
      obtain ⟨h1, h2, h3, h4, h5, h6⟩ := hincome e he
      have hzero : reinvested.minor = 0 := by omega
      simp [h1, h2, h3, h4, h5, h6, hzero]
  | @topUp e e' hz he he' =>
      obtain ⟨h1, h2, h3, h4, h5, h6⟩ := hincome e he
      have hshare : countsAs currency (incomeKind verified) e' = false
          ∧ countsAs currency (incomeKind !verified) e' = false
          ∧ countsAs currency .operatorTopUp e'
            = decide (reinvested.currency = currency)
          ∧ isCredit currency e' = decide (reinvested.currency = currency)
          ∧ isSpending currency e' = false ∧ e'.amount = reinvested := by
        unfold countsAs isCredit isSpending
        rw [he'.kind, he'.amount]
        cases verified <;> simp [incomeKind]
      obtain ⟨g1, g2, g3, g4, g5, g6⟩ := hshare
      simp [h1, h2, h3, h4, h5, h6, g1, g2, g3, g4, g5, g6]

/-! ## What changes the income -/

/-- The kinds of event that only a deposit adds. -/
def Deposits (kind : LedgerEventKind) : Prop :=
  kind = .incomeVerified ∨ kind = .incomeUnverified ∨ kind = .operatorTopUp

instance (kind : LedgerEventKind) : Decidable (Deposits kind) :=
  inferInstanceAs (Decidable (_ ∨ _ ∨ _))

/-- The ledger of a state grows by events that no deposit adds. -/
def Undeposited (s s' : TreasuryState) : Prop :=
  s'.processedDeposits = s.processedDeposits
    ∧ ∃ events, s'.ledger = s.ledger ++ events ∧ ∀ e ∈ events, ¬Deposits e.kind

theorem Undeposited.same (hl : s'.ledger = s.ledger)
    (hp : s'.processedDeposits = s.processedDeposits) : Undeposited s s' :=
  ⟨hp, [], by rw [hl, List.append_nil], fun _ he => nomatch he⟩

theorem Moved.undeposited {i i' : PurchaseIntent}
    (h : Moved host w w' i i' events) : ∀ e ∈ events, ¬Deposits e.kind := by
  intro e he
  rcases h.others e he with hk | hk | ⟨hk, _⟩ <;> rw [hk] <;> decide

/-- **ONLY A DEPOSIT** adds income or a top-up, or knows a new reference. -/
theorem Change.income (h : Change host l w w') :
    Undeposited w.state w'.state ∨ ∃ amount verified agentId reference,
      Recorded host amount verified agentId reference w w' := by
  cases h with
  | deposit ha hpos hsh hc he hnew hs hl =>
      exact Or.inr ⟨_, _, _, _, ha, hl, hpos, hnew, _, _, _, _, hsh, hc, he, hs⟩
  | quiet h => exact Or.inl (.same (by rw [h.state]) (by rw [h.state]))
  | reserve _ _ _ hh _ _ hs _ =>
      refine Or.inl ⟨(congrArg TreasuryState.processedDeposits hs).trans rfl,
        [_], (congrArg TreasuryState.ledger hs).trans rfl, fun e he => ?_⟩
      rw [List.mem_singleton.mp he, hh.kind]
      decide
  | conclude _ _ hx hc _ hs _ =>
      exact Or.inl ⟨(congrArg TreasuryState.processedDeposits hs).trans rfl,
        _, (congrArg TreasuryState.ledger hs).trans rfl,
        (hc.moved hx).undeposited⟩
  | reconcile _ _ hr hp hs _ =>
      obtain ⟨_, _, heq⟩ := hp.fields
      exact Or.inl ⟨by rw [hs, heq]; rfl, _, by rw [hs, heq]; rfl,
        hr.moved.undeposited⟩
  | writeKey _ hs _ _ => exact Or.inl (.same (by rw [hs]) (by rw [hs]))
  | writeState _ hs _ _ _ => exact Or.inl (.same (by rw [hs]) (by rw [hs]))
  | submit _ hs _ _ _ => exact Or.inl (.same (by rw [hs]) (by rw [hs]))
  | _ =>
      rename_i hs _
      exact Or.inl (.same ((congrArg TreasuryState.ledger hs).trans rfl)
        ((congrArg TreasuryState.processedDeposits hs).trans rfl))

/-- The ledger and the references that a deposit leaves. -/
theorem Recorded.books
    (h : Recorded host amount verified agentId reference w w') :
    ∃ reinvested events, depositShare w.state amount verified agentId
        = .ok reinvested
      ∧ DepositEvents host w w' amount reinvested verified events
      ∧ w'.state.ledger = w.state.ledger ++ events
      ∧ ∀ k, w'.state.processedDeposits.contains k
        = (decide (k = opaqueReference host "deposit" reference)
          || w.state.processedDeposits.contains k) := by
  obtain ⟨reinvested, s, events, fingerprint, hshare, hc, he, hs⟩ := h.made
  obtain ⟨_, _, heq⟩ := hc.fields
  refine ⟨reinvested, events, hshare, he, ?_, fun k => ?_⟩
  · rw [hs, heq]
    rfl
  · rw [hs, heq]
    exact SortedMap.contains_insert ..

/-! ## Top-ups -/

/-- The top-ups of every currency are at most its verified income. -/
def ToppedUp (s : TreasuryState) : Prop := ∀ currency,
  amountOf (countsAs currency .operatorTopUp) s.ledger
    ≤ amountOf (countsAs currency .incomeVerified) s.ledger

theorem amountOf_undeposited {kind : LedgerEventKind} (hk : Deposits kind)
    (h : ∀ e ∈ events, ¬Deposits e.kind) :
    amountOf (countsAs currency kind) events = 0 := by
  refine amountOf_eq_zero fun e he => ?_
  by_contra hcounts
  obtain ⟨_, rfl⟩ := of_decide_eq_true (Bool.not_eq_false _ ▸ hcounts)
  exact h e he hk

theorem Change.toppedUp (h : Change host l w w') (hw : ToppedUp w.state) :
    ToppedUp w'.state := by
  intro currency
  rcases h.income with ⟨_, events, hs, hno⟩ | ⟨_, verified, _, _, hrec⟩
  · rw [hs, amountOf_append, amountOf_append,
      amountOf_undeposited (by decide) hno,
      amountOf_undeposited (by decide) hno]
    have := hw currency
    omega
  · obtain ⟨reinvested, events, hshare, he, hs, _⟩ := hrec.books
    obtain ⟨hcur, hnonneg, hle, hzero⟩ :=
      depositShare_share hshare hrec.positive
    obtain ⟨hincome, hother, htop, _⟩ := he.sums currency hnonneg
    have hshares : amountIn currency reinvested
        ≤ amountOf (countsAs currency .incomeVerified) events := by
      cases verified with
      | false =>
          rw [show LedgerEventKind.incomeVerified = incomeKind !false from rfl,
            hother]
          unfold amountIn
          rw [hzero rfl]
          split <;> exact le_refl _
      | true =>
          rw [show LedgerEventKind.incomeVerified = incomeKind true from rfl,
            hincome]
          unfold amountIn
          rw [hcur]
          split
          · exact hle
          · exact le_refl _
    rw [hs, amountOf_append, amountOf_append, htop]
    have := hw currency
    omega

theorem Path.toppedUp {allowed : Label → Prop} (h : Path host allowed w w')
    (hw : ToppedUp w.state) : ToppedUp w'.state :=
  h.invariant (I := fun v => ToppedUp v.state)
    (fun _ _ _ _ hc hv => hc.toppedUp hv) (fun _ _ _ hv _ => hv) hw

theorem TreasuryRun.toppedUp {owner : String} {w0 : World}
    (h : TreasuryRun host owner w0 cs w) : ToppedUp w.state := by
  obtain ⟨balance, hs⟩ := h.balance
  refine h.path.toppedUp fun currency => ?_
  obtain ⟨_, e, _, _, hkind, _, _, _, hstate⟩ := hs.state
  rw [hstate]
  show amountOf _ ([] ++ [e]) ≤ amountOf _ ([] ++ [e])
  have hno : ∀ e' ∈ [] ++ [e], ¬Deposits e'.kind := by
    intro e' he'
    rw [List.mem_singleton.mp he', hkind]
    decide
  rw [amountOf_undeposited (by decide) hno, amountOf_undeposited (by decide) hno]

/-! ## What a reference contributes -/

/-- The income events of a ledger. -/
def incomes (s : TreasuryState) : Nat :=
  s.ledger.countP (fun e =>
    decide (e.kind = .incomeVerified ∨ e.kind = .incomeUnverified))

/-- Whether a call records a deposit under a reference. -/
def depositsUnder (reference : String) (c : Call) : Bool :=
  match c.asks with
  | some (_, .ownerRecordDeposit _ _ _ _ reference') =>
      decide (reference' = reference)
  | _ => false

/-- How many income events the deposits under a reference add in a run. -/
def contributions (host : Host) (reference : String) : World → List Call → Nat
  | _, [] => 0
  | w, c :: cs =>
      (if depositsUnder reference c = true
        then incomes (exec host c w).state - incomes w.state else 0)
      + contributions host reference (exec host c w) cs

theorem contributions_snoc {w0 : World} (h : Calls host w0 cs w) (c : Call) :
    contributions host reference w0 (cs ++ [c])
      = contributions host reference w0 cs
        + if depositsUnder reference c = true
          then incomes (exec host c w).state - incomes w.state else 0 := by
  have hall : ∀ (ds : List Call) (v : World), contributions host reference v
      (ds ++ [c]) = contributions host reference v ds
        + contributions host reference
          (ds.foldl (fun v c => exec host c v) v) [c] := by
    intro ds
    induction ds with
    | nil => exact fun v => (Nat.zero_add _).symm
    | cons d rest ih =>
        intro v
        rw [List.cons_append, contributions, contributions, ih, Nat.add_assoc]
        rfl
  have hend : cs.foldl (fun v c => exec host c v) w0 = w := by
    induction h with
    | nil => rfl
    | snoc d _ _ ih => rw [List.foldl_append, ih]; rfl
  rw [hall, hend]
  rfl

/-- A reference that is known stays known. -/
theorem Path.known {allowed : Label → Prop} (h : Path host allowed w w')
    (hw : Known host reference w.state) : Known host reference w'.state := by
  refine h.invariant (I := fun v => Known host reference v.state) ?_
    (fun _ _ _ hv _ => hv) hw
  intro l a b _ hc ha
  unfold Known at ha ⊢
  rcases hc.income with ⟨hs, _⟩ | ⟨_, _, _, _, hrec⟩
  · rw [hs]
    exact ha
  · obtain ⟨_, _, _, _, _, hcontains⟩ := hrec.books
    rw [hcontains, ha, Bool.or_true]

/-- A deposit adds one income event, under a reference that was not known. -/
theorem Recorded.contributes
    (h : Recorded host amount verified agentId reference w w') :
    incomes w'.state = incomes w.state + 1 ∧ ¬Known host reference w.state
      ∧ Known host reference w'.state := by
  obtain ⟨reinvested, events, hshare, he, hs, hcontains⟩ := h.books
  refine ⟨?_, ?_, ?_⟩
  · unfold incomes
    rw [hs, List.countP_append]
    have hone : ∀ e, EventIn host w w' (incomeKind verified) amount none e →
        (e.kind = .incomeVerified ∨ e.kind = .incomeUnverified) := by
      intro e he
      rw [he.kind]
      cases verified
      · exact Or.inr rfl
      · exact Or.inl rfl
    cases he with
    | plain _ he => simp [hone _ he]
    | topUp _ he he' => simp [hone _ he, he'.kind]
  · unfold Known SortedMap.contains
    rw [h.fresh]
    decide
  · unfold Known
    rw [hcontains]
    simp

/-- What a deposit under a reference may contribute. -/
def Contributes (host : Host) (reference : String) (s s' : TreasuryState) :
    Prop :=
  incomes s' = incomes s ∨ (incomes s' = incomes s + 1
    ∧ ¬Known host reference s ∧ Known host reference s')

theorem exec_contributes (w : World) (hc : depositsUnder reference c = true) :
    Contributes host reference w.state (exec host c w).state := by
  unfold depositsUnder at hc
  split at hc
  · rename_i token amount source verified agentId reference' hasks
    obtain rfl := of_decide_eq_true hc
    cases exec_deposit host w hasks with
    | nothing hs => exact Or.inl (by rw [hs])
    | recorded hrec _ hs =>
        rw [hs]
        exact Or.inr hrec.contributes
    | half hrec _ hs =>
        rw [hs]
        exact Or.inr hrec.contributes
  · exact nomatch hc

/-- **ONCE A REFERENCE**: whatever it is repeated with, it contributes one
    income event at most, and is known when it has. -/
theorem Calls.contributions_le {w0 : World} (h : Calls host w0 cs w)
    (hk : Kept w0.state) (hf : Fits w0) (reference : String) :
    contributions host reference w0 cs ≤ 1
      ∧ (0 < contributions host reference w0 cs →
        Known host reference w.state) := by
  induction h with
  | nil => exact ⟨Nat.zero_le _, fun h => absurd h (lt_irrefl 0)⟩
  | @snoc cs v c hrun hfit ih =>
      obtain ⟨hle, hknown⟩ := ih
      obtain ⟨hkept, hfits⟩ := Calls.kept hrun hk hf
      have hb : Behaves host v _ c := exec_behaves (hkept.workable hfits) c
      rw [contributions_snoc hrun]
      split
      · rename_i hc
        -- the deposit was known and adds nothing, or is known from now on
        rcases exec_contributes v hc with hsame | ⟨hone, hnew, hafter⟩
        · rw [hsame, Nat.sub_self, Nat.add_zero]
          exact ⟨hle, fun hpos => hb.path.known (hknown hpos)⟩
        · have hzero : contributions host reference w0 cs = 0 := by
            by_contra hne
            exact hnew (hknown (Nat.pos_of_ne_zero hne))
          rw [hone, hzero, Nat.add_sub_cancel_left]
          exact ⟨le_refl _, fun _ => hafter⟩
      · rw [Nat.add_zero]
        exact ⟨hle, fun hpos => hb.path.known (hknown hpos)⟩

/-! ## What is left of the authority -/

/-- What is left of the authority in a currency, if its sums can be made. -/
def availableIn (s : TreasuryState) (currency : String) : Option Int :=
  match ledgerSnapshot s currency with
  | .ok b => some b.availableAuthority.minor
  | .error _ => none

/-- What the snapshots of a state rest on. -/
structure Reckoned (s : TreasuryState) : Prop where
  sound : Sound s
  domestic : Domestic "CAD" s
  covered : ∀ currency, Pools.Covered (authority currency s)

theorem Path.reckoned {allowed : Label → Prop} (h : Path host allowed w w')
    (hw : Reckoned w.state) : Reckoned w'.state where
  sound := h.sound hw.sound
  domestic := (h.invariant
    (I := fun v => Sound v.state ∧ Domestic "CAD" v.state)
    (fun _ _ _ _ hc hv => ⟨hc.sound hv.1, hc.domestic hv.1 hv.2⟩)
    (fun _ _ _ ha _ => ha) ⟨hw.sound, hw.domestic⟩).2
  covered := fun currency => h.covered hw.sound (hw.covered currency)

/-- A currency whose sums can be made. -/
def Summed (currency : String) (s : TreasuryState) : Prop :=
  Money.wellFormedCurrency currency = true ∧ Countable currency s

theorem ledgerSnapshot_summed {b : LedgerSnapshot}
    (h : ledgerSnapshot s currency = .ok b) : Summed currency s := by
  refine ⟨?_, ledgerSnapshot_countable h⟩
  unfold ledgerSnapshot LedgerSnapshot.zero Money.zero Money.new at h
  simp only [bind_eq_ok, refuseIf_eq_ok, Bool.not_eq_false] at h
  obtain ⟨_, ⟨_, ⟨_, hwf, _⟩, _⟩, _⟩ := h
  exact hwf

theorem Reckoned.available (h : Reckoned s) (hc : Summed currency s) :
    availableIn s currency = some ((authority currency s).granted
      - ((authority currency s).spent + (authority currency s).held)) := by
  obtain ⟨b, hb⟩ := ledgerSnapshot_returns hc.1 hc.2 h.domestic.weighty h.sound
    (h.covered currency)
  unfold availableIn
  rw [hb]
  exact congrArg some (ledgerSnapshot_available hb)

theorem available_unsummed (hc : ¬Summed currency s) :
    availableIn s currency = none := by
  unfold availableIn
  cases hb : ledgerSnapshot s currency with
  | ok b => exact absurd (ledgerSnapshot_summed hb) hc
  | error e => rfl

/-! ## What a deposit leaves of it -/

/-- **ROOM FOR A DEPOSIT**: the income of its kind has room for its amount,
    and what was granted for its share. -/
def RoomForDeposit (s : TreasuryState) (amount : Money) (verified : Bool)
    (agentId : Option String) : Prop :=
  amountOf (countsAs amount.currency (incomeKind verified)) s.ledger
      + amount.minor ≤ I64.maxValue
    ∧ ∀ share, depositShare s amount verified agentId = .ok share →
      amountOf (isCredit amount.currency) s.ledger + share.minor ≤ I64.maxValue

theorem depositShare_wellFormed
    (h : depositShare s amount verified agentId = .ok reinvested) :
    Money.wellFormedCurrency amount.currency = true := by
  cases verified with
  | false =>
      unfold depositShare Money.zero Money.new at h
      simp only [Bool.false_eq_true, if_false, bind_eq_ok, refuseIf_eq_ok,
        Bool.not_eq_false] at h
      obtain ⟨_, hwf, _⟩ := h
      exact hwf
  | true =>
      obtain ⟨_, _, p, _, _, _, _, _, _, _, hcur, _, _, _, _, hsnap, _⟩ :=
        depositShare_verified.mp h
      rw [hcur]
      exact (ledgerSnapshot_summed hsnap).1

/-- The sums after a deposit. -/
structure DepositSums (currency : String) (verified : Bool)
    (amount reinvested : Money) (s s' : TreasuryState) : Prop where
  income : amountOf (countsAs currency (incomeKind verified)) s'.ledger
    = amountOf (countsAs currency (incomeKind verified)) s.ledger
      + amountIn currency amount
  other : amountOf (countsAs currency (incomeKind !verified)) s'.ledger
    = amountOf (countsAs currency (incomeKind !verified)) s.ledger
  granted : (authority currency s').granted
    = (authority currency s).granted + amountIn currency reinvested
  spent : (authority currency s').spent = (authority currency s).spent
  held : (authority currency s').held = (authority currency s).held

theorem Recorded.sums
    (h : Recorded host amount verified agentId reference w v) : ∃ reinvested,
      depositShare w.state amount verified agentId = .ok reinvested
      ∧ ∀ currency, DepositSums currency verified amount reinvested w.state
        v.state := by
  obtain ⟨reinvested, s, events, fingerprint, hshare, hc, he, hs⟩ := h.made
  refine ⟨reinvested, hshare, fun currency => ?_⟩
  obtain ⟨_, _, heq⟩ := hc.fields
  have hl : v.state.ledger = w.state.ledger ++ events := by
    rw [hs, heq]
    rfl
  have hi : v.state.intents = w.state.intents := by
    rw [hs, heq]
    rfl
  obtain ⟨_, hnonneg, _⟩ := depositShare_share hshare h.positive
  obtain ⟨h1, h2, _, h4, h5⟩ := he.sums currency hnonneg
  refine ⟨?_, ?_, ?_, ?_, heldBy_same hi⟩
  · rw [hl, amountOf_append, h1]
  · rw [hl, amountOf_append, h2, add_zero]
  · show amountOf _ v.state.ledger = amountOf _ w.state.ledger + _
    rw [hl, amountOf_append, h4]
  · show amountOf _ v.state.ledger = amountOf _ w.state.ledger
    rw [hl, amountOf_append, h5, add_zero]

theorem Deposited.sums (h : Deposited host amount verified agentId reference w
    s') : ∃ reinvested, depositShare w.state amount verified agentId
        = .ok reinvested
      ∧ 0 < amount.minor ∧ ∀ currency,
        DepositSums currency verified amount reinvested w.state s' := by
  obtain ⟨v, e, hrec, rfl⟩ := h
  obtain ⟨reinvested, hshare, hsums⟩ := hrec.sums
  refine ⟨reinvested, hshare, hrec.positive, fun currency => ?_⟩
  obtain ⟨h1, h2, h3, h4, h5⟩ := hsums currency
  exact ⟨h1, h2, h3, h4, h5⟩

theorem amountIn_nonneg (currency : String) {m : Money} (h : 0 ≤ m.minor) :
    0 ≤ amountIn currency m := by
  unfold amountIn
  split
  · exact h
  · exact le_refl 0

/-- The sums fit, with the income of one kind first. -/
theorem countable_iff (verified : Bool) : Countable currency s ↔
    amountOf (countsAs currency (incomeKind verified)) s.ledger ≤ I64.maxValue
      ∧ amountOf (countsAs currency (incomeKind !verified)) s.ledger
        ≤ I64.maxValue
      ∧ amountOf (isCredit currency) s.ledger ≤ I64.maxValue := by
  cases verified with
  | false =>
      exact ⟨fun hc => ⟨hc.unverified, hc.verified, hc.granted⟩,
        fun ⟨h1, h2, h3⟩ => ⟨h2, h1, h3⟩⟩
  | true =>
      exact ⟨fun hc => ⟨hc.verified, hc.unverified, hc.granted⟩,
        fun ⟨h1, h2, h3⟩ => ⟨h1, h2, h3⟩⟩

/-- The sums that a deposit leaves. -/
theorem DepositSums.countable
    (h : DepositSums currency verified amount reinvested s s') :
    Countable currency s' ↔
      amountOf (countsAs currency (incomeKind verified)) s.ledger
          + amountIn currency amount ≤ I64.maxValue
        ∧ amountOf (countsAs currency (incomeKind !verified)) s.ledger
          ≤ I64.maxValue
        ∧ amountOf (isCredit currency) s.ledger + amountIn currency reinvested
          ≤ I64.maxValue := by
  have hgranted : amountOf (isCredit currency) s'.ledger
      = amountOf (isCredit currency) s.ledger + amountIn currency reinvested :=
    h.granted
  rw [countable_iff verified, h.income, h.other, hgranted]

/-- **WHAT A DEPOSIT LEAVES** of the authority in every currency is what was
    left and its share, exactly when the sums have room for it. -/
theorem Deposited.available
    (h : Deposited host amount verified agentId reference w s')
    (hw : Reckoned w.state) (hs' : Reckoned s') : ∃ reinvested,
      depositShare w.state amount verified agentId = .ok reinvested
      ∧ ((∀ currency, availableIn s' currency
          = (availableIn w.state currency).map (· + amountIn currency reinvested))
        ↔ (Countable amount.currency w.state →
          RoomForDeposit w.state amount verified agentId)) := by
  obtain ⟨reinvested, hshare, hpos, hsums⟩ := h.sums
  obtain ⟨hcur, hnonneg, _⟩ := depositShare_share hshare hpos
  have hwf := depositShare_wellFormed hshare
  refine ⟨reinvested, hshare, ?_⟩
  -- each currency goes on as it should, if it can still be counted
  have heach : ∀ currency, availableIn s' currency
      = (availableIn w.state currency).map (· + amountIn currency reinvested)
      ↔ (Summed currency w.state → Countable currency s') := by
    intro currency
    have hsum := hsums currency
    by_cases hold : Summed currency w.state
    · rw [hw.available hold, Option.map_some]
      by_cases hnew : Countable currency s'
      · rw [hs'.available ⟨hold.1, hnew⟩, hsum.granted, hsum.spent, hsum.held]
        refine ⟨fun _ _ => hnew, fun _ => congrArg some ?_⟩
        omega
      · rw [available_unsummed fun h => hnew h.2]
        exact ⟨nofun, fun h => absurd (h hold) hnew⟩
    · rw [available_unsummed hold]
      have hnew : ¬Summed currency s' := by
        rintro ⟨hwf, hc⟩
        obtain ⟨h1, h2, h3⟩ := hsum.countable.mp hc
        have ha := amountIn_nonneg currency (le_of_lt hpos)
        have hr := amountIn_nonneg currency hnonneg
        exact hold ⟨hwf, (countable_iff verified).mpr
          ⟨by omega, h2, by omega⟩⟩
      rw [available_unsummed hnew]
      exact ⟨fun _ h => absurd h hold, fun _ => rfl⟩
  have hamount : amountIn amount.currency amount = amount.minor := if_pos rfl
  have hshared : amountIn amount.currency reinvested = reinvested.minor :=
    if_pos hcur
  constructor
  · intro hall hcount
    obtain ⟨h1, _, h3⟩ := (hsums amount.currency).countable.mp
      ((heach _).mp (hall _) ⟨hwf, hcount⟩)
    rw [hamount] at h1
    rw [hshared] at h3
    refine ⟨h1, fun share hother => ?_⟩
    rw [hshare] at hother
    cases hother
    exact h3
  · intro hroom currency
    refine (heach currency).mpr fun ⟨_, hcount⟩ => ?_
    refine (hsums currency).countable.mpr ?_
    obtain ⟨h1, h2, h3⟩ := (countable_iff verified).mp hcount
    by_cases hin : amount.currency = currency
    · subst hin
      obtain ⟨hincome, hgranted⟩ := hroom hcount
      rw [hamount, hshared]
      exact ⟨hincome, h2, hgranted reinvested hshare⟩
    · -- no other currency notices
      have hnone : amountIn currency amount = 0 := if_neg hin
      have hnone' : amountIn currency reinvested = 0 :=
        if_neg fun h => hin (hcur.symm.trans h)
      rw [hnone, hnone', add_zero, add_zero]
      exact ⟨h1, h2, h3⟩

/-! ## The law of deposits -/

/-- What is left in every currency is what was left and a gain. -/
def Gains (gain : Money) (s s' : TreasuryState) : Prop := ∀ currency,
  availableIn s' currency
    = (availableIn s currency).map (· + amountIn currency gain)

/-- The share of an amount under a policy. -/
def shareOf (amount : Money) (p : Policy) : Money :=
  ⟨amount.minor * p.reinvestmentRatioBps / 10000, amount.currency⟩

/-- A deposit that leaves balances and authority alone. -/
def Idle (s s' : TreasuryState) : Prop :=
  balances s' = balances s
    ∧ ∀ currency, availableIn s' currency = availableIn s currency

/-- A deposit that raises the balance by its amount and the authority by its
    share under its agent's policy. -/
def Earns (amount : Money) (agentId : Option String) (s s' : TreasuryState) :
    Prop :=
  Raised amount s s' ∧ ∃ id r p, agentId = some id ∧ s.agents.get? id = some r
    ∧ s.policies.get? r.policyId = some p ∧ Gains (shareOf amount p) s s'

theorem Gains.none {gain : Money} (hzero : gain.minor = 0) :
    Gains gain s s'
      ↔ ∀ currency, availableIn s' currency = availableIn s currency := by
  have hnothing : ∀ currency, amountIn currency gain = 0 := by
    intro currency
    unfold amountIn
    rw [hzero]
    split <;> rfl
  unfold Gains
  simp only [hnothing, add_zero, Option.map_id']

/-- **AN UNVERIFIED DEPOSIT** is idle when there is room for it. -/
theorem Deposited.idle
    (h : Deposited host amount false agentId reference w s')
    (hw : Reckoned w.state) (hs' : Reckoned s') :
    Idle w.state s' ↔ (Countable amount.currency w.state →
      RoomForDeposit w.state amount false agentId) := by
  obtain ⟨reinvested, hshare, hiff⟩ := h.available hw hs'
  obtain ⟨_, s, _, _, _, hshare', hc, _, hpos, _, _, hs⟩ := h.state
  obtain ⟨_, _, _, hzero⟩ := depositShare_share hshare hpos
  have hbalances : balances s' = balances w.state := by
    rw [hs, hc.unraised]
    rfl
  rw [← hiff]
  exact ⟨fun hidle => (Gains.none (hzero rfl)).mpr hidle.2,
    fun hgains => ⟨hbalances, (Gains.none (hzero rfl)).mp hgains⟩⟩

/-- **A VERIFIED DEPOSIT** earns its share when there is room for it. -/
theorem Deposited.earns
    (h : Deposited host amount true agentId reference w s')
    (hw : Reckoned w.state) (hs' : Reckoned s') :
    Earns amount agentId w.state s' ↔ (Countable amount.currency w.state →
      RoomForDeposit w.state amount true agentId) := by
  obtain ⟨reinvested, hshare, hiff⟩ := h.available hw hs'
  obtain ⟨_, _, _, _, _, _, _, _, hpos, _⟩ := h.state
  obtain ⟨id, r, p, _, _, _, _, hid, hr, hp, _, _, _, _, hscaled, _⟩ :=
    depositShare_verified.mp hshare
  obtain ⟨_, _, heq⟩ := scaledBasisPoints_ok.mp hscaled
  have hreinvested : reinvested = shareOf amount p := by
    rw [heq]
    unfold shareOf
    rw [Int.tdiv_eq_ediv_of_nonneg
      (Int.mul_nonneg (le_of_lt hpos) (Int.natCast_nonneg _))]
  rw [← hiff, hreinvested]
  constructor
  · rintro ⟨_, id', r', p', hid', hr', hp', hgains⟩
    obtain rfl := Option.some.inj (hid.symm.trans hid')
    obtain rfl := Option.some.inj (hr.symm.trans hr')
    obtain rfl := Option.some.inj (hp.symm.trans hp')
    exact hgains
  · exact fun hgains => ⟨h.raised, id, r, p, hid, hr, hp, hgains⟩

/-- What the law of deposits says of one, between two states. -/
def Lawful (amount : Money) (verified : Bool) (agentId : Option String)
    (s s' : TreasuryState) : Prop :=
  if verified = true then Earns amount agentId s s' else Idle s s'

/-- **THE LAW OF DEPOSITS**: the top-ups are at most the verified income, and
    each reference adds one income event at most over the run; a saved deposit
    that is refused or repeats a reference leaves balances and authority
    alone; and one that is accepted does so if it is unverified, and earns its
    share if it is verified, exactly when the sums have room for it. -/
theorem deposits_are_lawful {owner : String} {w0 : World}
    (hrun : TreasuryRun host owner w0 cs w) :
    (∀ currency, amountOf (countsAs currency .operatorTopUp) w.state.ledger
        ≤ amountOf (countsAs currency .incomeVerified) w.state.ledger)
      ∧ (∀ reference, contributions host reference w0 cs ≤ 1)
      ∧ ∀ token amount source verified agentId reference,
        let c := Call.persisted token
          (.ownerRecordDeposit amount source verified agentId reference)
        (¬Succeeds host c w ∨ Known host reference w.state →
          Idle w.state (exec host c w).state)
        ∧ (Succeeds host c w → ¬Known host reference w.state →
          (Lawful amount verified agentId w.state (exec host c w).state
            ↔ (Countable amount.currency w.state →
              RoomForDeposit w.state amount verified agentId))) := by
  obtain ⟨balance, hs⟩ := hrun.balance
  obtain ⟨hkept, hfits⟩ := hrun.kept
  refine ⟨hrun.toppedUp, fun reference =>
    (hrun.calls.contributions_le hs.kept hs.fits reference).1, ?_⟩
  intro token amount source verified agentId reference c
  have hw : Reckoned w.state :=
    ⟨hrun.sound, hrun.domestic, hrun.wellKept.covered⟩
  have hb : Behaves host w (exec host c w) c :=
    exec_behaves (hkept.workable hfits) c
  have hs' := hb.path.reckoned hw
  have hsame : ∀ {s}, s = w.state → Idle w.state s := by
    rintro s rfl
    exact ⟨rfl, fun _ => rfl⟩
  constructor
  · intro hnot
    refine hsame ?_
    -- a deposit that is known is answered again; one that fails is undone
    by_cases hok : Succeeds host c w
    · obtain ⟨value, hx⟩ := hok.returns
      rcases deposit_returns (c := c) rfl hx with ⟨h, _⟩ | ⟨_, _, hrec, _⟩
      · exact h
      · exact absurd (hnot.resolve_left (not_not.mpr hok)) hrec.contributes.2.1
    · unfold exec final
      cases hx : c.perform host w with
      | ok value w' =>
          refine absurd ⟨value, ?_⟩ hok
          unfold result
          rw [hx]
      | error e w' => exact deposit_refused hx
  · intro hok hnew
    obtain ⟨value, hx⟩ := hok.returns
    have h := (deposit_returns (c := c) rfl hx).resolve_left
      fun hknown => hnew hknown.2
    unfold Lawful
    cases verified with
    | false =>
        rw [if_neg (by decide)]
        exact h.idle hw hs'
    | true =>
        rw [if_pos rfl]
        exact h.earns hw hs'

/-- The owner creates an agent whose income is half reinvested. -/
def halfReinvested (owner : String) : List Call :=
  [.persisted owner (.ownerCreateAgentPrepared "n"
    { Policy.conservativeDemo with reinvestmentRatioBps := 5000 }
    .boundedAutonomous 3600 agentToken)]

/-- A deposit for the first agent, of which half is 500 rounded down. -/
def oddDeposit (owner : String) : Call :=
  .persisted owner (.ownerRecordDeposit ⟨1001, "CAD"⟩ "s" true
    (some (firstAgent stillHost)) "r")

/-- A deposit of the owner's under a new reference is accepted, and takes what
    is left in CAD from one figure to another. -/
def Takes (deposit : String → Call) (reference : String)
    (before after : Option Int) (w : World) : Prop :=
  Succeeds stillHost (deposit (bootstrapToken stillHost)) w
    ∧ ¬Known stillHost reference w.state
    ∧ availableIn w.state "CAD" = before
    ∧ availableIn (exec stillHost (deposit (bootstrapToken stillHost)) w).state
      "CAD" = after

instance (deposit : String → Call) (reference : String)
    (before after : Option Int) (w : World) :
    Decidable (Takes deposit reference before after w) :=
  inferInstanceAs (Decidable (_ ∧ _ ∧ _ ∧ _))

/-- Half of a verified deposit becomes authority. -/
theorem deposits_are_lawful_half :
    ∃ owner w0 w, TreasuryRun stillHost owner w0 (halfReinvested owner) w
      ∧ availableIn w.state "CAD" = some 50000
      ∧ availableIn (exec stillHost (oddDeposit owner) w).state "CAD"
        = some 50500
      ∧ (Lawful ⟨1001, "CAD"⟩ true (some (firstAgent stillHost)) w.state
          (exec stillHost (oddDeposit owner) w).state
        ↔ (Countable "CAD" w.state → RoomForDeposit w.state ⟨1001, "CAD"⟩ true
          (some (firstAgent stillHost)))) := by
  have h : tryRun stillHost ⟨50000, "CAD"⟩ halfReinvested (fun w =>
      decide (Takes oddDeposit "r" (some 50000) (some 50500) w)) = true := by
    decide +kernel
  obtain ⟨owner, w0, w, hrun, hcheck⟩ := tryRun_run h
  obtain ⟨hok, hnew, hbefore, hafter⟩ := of_decide_eq_true hcheck
  obtain ⟨balance, hs⟩ := hrun.balance
  obtain rfl := hs.capability
  obtain ⟨_, _, hlaw⟩ := deposits_are_lawful hrun
  exact ⟨_, w0, w, hrun, hbefore, hafter,
    (hlaw (bootstrapToken stillHost) ⟨1001, "CAD"⟩ "s" true
      (some (firstAgent stillHost)) "r").2 hok hnew⟩

/-- The owner notes an unverified deposit of the greatest amount. -/
def hugeDeposit (reference owner : String) : Call :=
  .persisted owner (.ownerRecordDeposit ⟨9223372036854775807, "CAD"⟩ "s" false
    none reference)

/-- **NOTHING LEFT TO COUNT**: a second huge unverified deposit is accepted and
    leaves no authority that can be counted. -/
theorem unverified_deposit_blocks :
    ∃ owner w0 w, TreasuryRun stillHost owner w0 [hugeDeposit "a" owner] w
      ∧ Succeeds stillHost (hugeDeposit "b" owner) w
      ∧ ¬Known stillHost "b" w.state
      ∧ ¬Idle w.state (exec stillHost (hugeDeposit "b" owner) w).state := by
  have h : tryRun stillHost ⟨100000, "CAD"⟩ (fun owner => [hugeDeposit "a" owner])
      (fun w => decide (Takes (hugeDeposit "b") "b" (some 100000) none w))
      = true := by
    decide +kernel
  obtain ⟨owner, w0, w, hrun, hcheck⟩ := tryRun_run h
  obtain ⟨hok, hnew, hbefore, hafter⟩ := of_decide_eq_true hcheck
  obtain ⟨balance, hs⟩ := hrun.balance
  obtain rfl := hs.capability
  refine ⟨_, w0, w, hrun, hok, hnew, fun hidle => ?_⟩
  exact nomatch hbefore.symm.trans ((hidle.2 "CAD").symm.trans hafter)

end Treasury
