import Cixa.Decisions

/-! # Amounts — what the intents hold and what the ledger books

    Money is counted twice: as events of the append-only ledger, and as the
    final totals of the intents whose funds are RESERVED.  Every limit of the
    broker is a limit on a sum of both.  Here are the sums, over any choice
    of intents and events, and the one statement of what a change does to
    intents and ledger together. -/

namespace Treasury

open CixaData CixaHost Outcome Checks Transition

variable {host : Host} {w w' : World} {l : Label} {s s' : TreasuryState}

/-! ## The simulated provider -/

/-- No hold and no charge is negative, and the balance covers the holds. -/
structure Backed (p : SimulatedProvider) : Prop where
  holds : ∀ id a, p.holds.get? id = some a → 0 ≤ a.minor
  charges : ∀ id c, p.charges.get? id = some c → 0 ≤ c.amount.minor
  covered : p.holds.sum Money.minor ≤ p.balance.minor

theorem foldlM_checkedAdd {amounts : List Money} {zero total : Money}
    (h : amounts.foldlM Money.checkedAdd zero = .ok total) :
    total.minor = zero.minor + (amounts.map Money.minor).sum :=
  (CheckedFold.foldlM_sum (I := fun _ => True) (m := Money.minor)
    (f := Money.minor) (fun _ _ _ _ hadd => ⟨trivial, (checkedAdd_minor hadd).1⟩)
    trivial h).2

theorem availableBalance_minor {p : SimulatedProvider} {a : Money}
    (h : p.availableBalance = .ok a) :
    a.minor = p.balance.minor - p.holds.sum Money.minor := by
  unfold SimulatedProvider.availableBalance Money.zero Money.new at h
  simp only [bind_eq_ok, pure_eq_ok] at h
  obtain ⟨zero, ⟨_, _, rfl⟩, reserved, hreserved, hsub⟩ := h
  rw [(checkedSub_minor hsub).1, foldlM_checkedAdd hreserved]
  show p.balance.minor - (0 + _) = _
  rw [zero_add]
  rfl

/-- **THE PROVIDER STAYS BACKED**: it holds and charges only what is
    available, and spends a hold at most once. -/
theorem ProviderStep.backed {i : PurchaseIntent} {move : ProviderMove}
    {p p' : SimulatedProvider} (h : ProviderStep i move p p') (hpos : 0 < i.request.finalTotal.minor)
    (hb : Backed p) : Backed p' := by
  have hinsert : ∀ c : ProviderCharge, 0 ≤ c.amount.minor → ∀ id c',
      (p.charges.insert i.id c).get? id = some c' → 0 ≤ c'.amount.minor := by
    intro c hc id c' hc'
    rw [SortedMap.get?_insert] at hc'
    split at hc'
    · rw [← Option.some.inj hc']
      exact hc
    · exact hb.charges id c' hc'
  have herase : ∀ id a, (p.holds.erase i.id).get? id = some a →
      0 ≤ a.minor := by
    intro id a ha
    rw [SortedMap.get?_erase] at ha
    split at ha
    · exact nomatch ha
    · exact hb.holds id a ha
  have hnonneg := SortedMap.sum_nonneg hb.holds
  -- every move leaves at least what is held
  cases h with
  | hold _ ha hle =>
      rw [availableBalance_minor ha] at hle
      refine ⟨?_, hb.charges, ?_⟩
      · intro id a hget
        have hget' : (p.holds.insert i.id _).get? id = some a := hget
        rw [SortedMap.get?_insert] at hget'
        split at hget'
        · rw [← Option.some.inj hget']
          omega
        · exact hb.holds id a hget'
      · show (p.holds.insert i.id _).sum Money.minor ≤ p.balance.minor
        cases hold : p.holds.get? i.id with
        | none =>
            rw [SortedMap.sum_insert_of_none _ _ hold]
            omega
        | some old =>
            have hold' := hb.holds _ _ hold
            have hsum := SortedMap.sum_insert_of_some i.request.finalTotal
              Money.minor hold
            omega
  | charge _ ha hle hbal =>
      rw [availableBalance_minor ha] at hle
      refine ⟨hb.holds, hinsert _ (le_of_lt hpos), ?_⟩
      show p.holds.sum Money.minor ≤ Money.minor _
      rw [(checkedSub_minor hbal).1]
      omega
  | settleHold hh hbal =>
      refine ⟨herase, hinsert _ (hb.holds _ _ hh), ?_⟩
      have hcovered := hb.covered
      have hsum := SortedMap.sum_erase_of_some Money.minor hh
      show (p.holds.erase i.id).sum Money.minor ≤ Money.minor _
      rw [(checkedSub_minor hbal).1]
      omega
  | confirm _ hc =>
      have hcharge := hb.charges _ _ hc
      exact ⟨hb.holds, hinsert _ hcharge, hb.covered⟩
  | release _ =>
      refine ⟨herase, hb.charges, ?_⟩
      show (p.holds.erase i.id).sum Money.minor ≤ p.balance.minor
      cases hold : p.holds.get? i.id with
      | none =>
          rw [SortedMap.erase_of_none hold]
          exact hb.covered
      | some old =>
          have hcovered := hb.covered
          have hold' := hb.holds _ _ hold
          have hsum := SortedMap.sum_erase_of_some Money.minor hold
          omega
  | refund hc _ hbal =>
      have hcharge := hb.charges _ _ hc
      have hcovered := hb.covered
      refine ⟨hb.holds, hinsert _ hcharge, ?_⟩
      show p.holds.sum Money.minor ≤ Money.minor _
      rw [(checkedAdd_minor hbal).1]
      omega

/-- **THE SIMULATED PROVIDER** changes only for a stored intent or by a
    deposit. -/
theorem Change.provider (h : Change host l w w') :
    w'.state.provider = w.state.provider
      ∨ (∃ i move, w.state.intents.get? i.id = some i
        ∧ ProviderStep i move w.state.provider w'.state.provider)
      ∨ ∃ amount balance : Money, 0 < amount.minor
        ∧ w.state.provider.balance.checkedAdd amount = .ok balance
        ∧ w'.state.provider.balance = balance
        ∧ w'.state.provider.holds = w.state.provider.holds
        ∧ w'.state.provider.charges = w.state.provider.charges := by
  cases h with
  | quiet h => exact Or.inl (by rw [h.state])
  | authorize _ hi _ _ hp hs _ =>
      exact Or.inr (Or.inl ⟨_, _, hi, by rw [hs]; exact hp⟩)
  | reconcile _ hi _ hp hs _ =>
      generalize armOf _ _ = arm at hp
      cases hp with
      | none _ => exact Or.inl (by rw [hs]; rfl)
      | simulated _ hstep _ =>
          exact Or.inr (Or.inl ⟨_, _, hi, by rw [hs]; exact hstep⟩)
      | manual _ _ _ => exact Or.inl (by rw [hs]; rfl)
  | deposit _ hpos _ hc _ _ hs _ =>
      cases hc with
      | unverified => exact Or.inl (by rw [hs]; rfl)
      | simulated _ hb =>
          exact Or.inr (Or.inr ⟨_, _, hpos, hb, by rw [hs]; rfl,
            by rw [hs]; rfl, by rw [hs]; rfl⟩)
      | manual _ _ _ _ _ => exact Or.inl (by rw [hs]; rfl)
  | writeKey _ hs _ _ => exact Or.inl (by rw [hs])
  | writeState _ hs _ _ _ => exact Or.inl (by rw [hs])
  | submit _ hs _ _ _ => exact Or.inl (by rw [hs])
  | _ =>
      rename_i hs _
      exact Or.inl ((congrArg TreasuryState.provider hs).trans rfl)

/-! ## Sound states -/

/-- Every stored intent is for a positive total, and the simulated provider
    is backed. -/
structure Sound (s : TreasuryState) : Prop where
  totals : ∀ id i, s.intents.get? id = some i → 0 < i.request.finalTotal.minor
  provider : Backed s.provider

theorem NewIntent.positive {i : PurchaseIntent} (h : NewIntent host w w' i) :
    0 < i.request.finalTotal.minor := by
  obtain ⟨_, _, _, _, _, hvalid⟩ := h.valid
  exact (validate_positive hvalid).2.1

theorem Change.sound (h : Change host l w w') (hw : Sound w.state) :
    Sound w'.state := by
  refine ⟨?_, ?_⟩
  · intro id j hj
    cases h.intents with
    | none hs _ => exact hw.totals id j (hs ▸ hj)
    | new _ hn hs _ =>
        rw [hs, SortedMap.get?_insert] at hj
        split at hj
        · rw [← Option.some.inj hj]
          exact hn.positive
        · exact hw.totals id j hj
    | next hi hc _ hs _ =>
        rw [hs, SortedMap.get?_insert] at hj
        split at hj
        · rw [← Option.some.inj hj, hc.request]
          exact hw.totals _ _ hi
        · exact hw.totals id j hj
  · rcases h.provider with heq | ⟨i, _, hi, hstep⟩
      | ⟨amount, balance, hpos, hadd, hbal, hholds, hcharges⟩
    · rw [heq]
      exact hw.provider
    · exact hstep.backed (hw.totals _ _ hi) hw.provider
    · have hcovered := hw.provider.covered
      refine ⟨?_, ?_, ?_⟩
      · rw [hholds]
        exact hw.provider.holds
      · rw [hcharges]
        exact hw.provider.charges
      · rw [hholds, hbal, (checkedAdd_minor hadd).1]
        omega

theorem Path.sound {allowed : Label → Prop} (h : Path host allowed w w')
    (hw : Sound w.state) : Sound w'.state :=
  h.invariant (I := fun v => Sound v.state) (fun _ _ _ _ hc => hc.sound)
    (fun _ _ _ ha _ => ha) hw

theorem Started.sound {balance : Money} {token : String}
    (h : Started host balance token w) : Sound w.state := by
  obtain ⟨_, _, _, _, _, _, _, _, hs⟩ := h.state
  rw [hs]
  refine ⟨fun id i hi => (nomatch hi), ⟨fun id a ha => (nomatch ha),
    fun id c hc => (nomatch hc), ?_⟩⟩
  exact le_of_lt h.positive

theorem TreasuryRun.sound {token : String} {w0 : World} {cs : List Call}
    (h : TreasuryRun host token w0 cs w) : Sound w.state := by
  obtain ⟨balance, hs⟩ := h.balance
  exact h.path.sound hs.sound

/-! ## Sums over the intents -/

/-- What an intent holds, if it is chosen. -/
def share (choose : PurchaseIntent → Bool) (i : PurchaseIntent) : Int :=
  if choose i = true ∧ i.state.isReserved = true
  then i.request.finalTotal.minor else 0

/-- What the chosen intents hold together. -/
def heldBy (choose : PurchaseIntent → Bool) (s : TreasuryState) : Int :=
  s.intents.sum (share choose)

variable {choose : PurchaseIntent → Bool}

theorem share_of_reserved {i : PurchaseIntent}
    (hi : i.state.isReserved = true) :
    share choose i
      = if choose i = true then i.request.finalTotal.minor else 0 := by
  simp [share, hi]

theorem share_of_free {i : PurchaseIntent} (hi : i.state.isReserved = false) :
    share choose i = 0 := by
  simp [share, hi]

theorem share_nonneg (choose : PurchaseIntent → Bool) {i : PurchaseIntent}
    (hi : 0 < i.request.finalTotal.minor) : 0 ≤ share choose i := by
  unfold share
  split <;> omega

theorem heldBy_same (hs : s'.intents = s.intents) :
    heldBy choose s' = heldBy choose s := by
  unfold heldBy
  rw [hs]

/-- Storing the next state of an intent exchanges its share. -/
theorem heldBy_next (choose : PurchaseIntent → Bool) {i i' : PurchaseIntent}
    (hi : s.intents.get? i.id = some i)
    (hs : s'.intents = s.intents.insert i.id i') :
    heldBy choose s' = heldBy choose s - share choose i + share choose i' := by
  have hsum := SortedMap.sum_insert_of_some i' (share choose) hi
  unfold heldBy
  rw [hs]
  omega

/-- A new intent holds nothing; the one it replaces, if any, gives back. -/
theorem heldBy_new (choose : PurchaseIntent → Bool) {i : PurchaseIntent}
    (hw : Sound s)
    (hfree : i.state.isReserved = false)
    (hs : s'.intents = s.intents.insert i.id i) :
    ∃ x, 0 ≤ x ∧ heldBy choose s' = heldBy choose s - x := by
  cases hget : s.intents.get? i.id with
  | none =>
      refine ⟨0, le_refl _, ?_⟩
      unfold heldBy
      rw [hs, SortedMap.sum_insert_of_none _ _ hget, share_of_free hfree]
      omega
  | some old =>
      refine ⟨share choose old, share_nonneg choose (hw.totals _ _ hget), ?_⟩
      have hsum := SortedMap.sum_insert_of_some i (share choose) hget
      rw [share_of_free hfree] at hsum
      unfold heldBy
      rw [hs]
      omega

/-! ## Sums over the ledger -/

/-- The amounts of the chosen events. -/
def amountOf (choose : LedgerEvent → Bool) (events : List LedgerEvent) : Int :=
  (events.map (fun e => if choose e = true then e.amount.minor else 0)).sum

@[simp] theorem amountOf_nil (choose : LedgerEvent → Bool) :
    amountOf choose [] = 0 := rfl

@[simp] theorem amountOf_cons (choose : LedgerEvent → Bool) (e : LedgerEvent)
    (events : List LedgerEvent) : amountOf choose (e :: events)
      = (if choose e = true then e.amount.minor else 0)
        + amountOf choose events := by
  unfold amountOf
  rw [List.map_cons, List.sum_cons]

@[simp] theorem amountOf_append (choose : LedgerEvent → Bool)
    (events events' : List LedgerEvent) : amountOf choose (events ++ events')
      = amountOf choose events + amountOf choose events' := by
  unfold amountOf
  rw [List.map_append, List.sum_append]

/-- Events that nobody chooses do not count. -/
theorem amountOf_filter {choose keep : LedgerEvent → Bool}
    (hsub : ∀ e, choose e = true → keep e = true) (events : List LedgerEvent) :
    amountOf choose (events.filter keep) = amountOf choose events := by
  induction events with
  | nil => rfl
  | cons e rest ih =>
      rw [amountOf_cons]
      by_cases hk : keep e = true
      · rw [List.filter_cons_of_pos hk, amountOf_cons, ih]
      · have hc : ¬choose e = true := fun hc => hk (hsub e hc)
        rw [List.filter_cons_of_neg hk, ih, if_neg hc, zero_add]

theorem amountOf_nonneg {choose : LedgerEvent → Bool}
    {events : List LedgerEvent}
    (h : ∀ e ∈ events, choose e = true → 0 ≤ e.amount.minor) :
    0 ≤ amountOf choose events := by
  refine List.sum_nonneg fun x hx => ?_
  obtain ⟨e, he, rfl⟩ := List.mem_map.mp hx
  split
  · exact h e he ‹_›
  · exact le_refl 0

theorem amountOf_eq_zero {choose : LedgerEvent → Bool}
    {events : List LedgerEvent} (h : ∀ e ∈ events, choose e = false) :
    amountOf choose events = 0 := by
  induction events with
  | nil => rfl
  | cons e rest ih =>
      rw [amountOf_cons, h e (List.mem_cons_self ..),
        ih (fun e' he' => h e' (List.mem_cons_of_mem _ he'))]
      rfl

theorem stateOfDecision_free (d : PolicyDecision) :
    TransactionState.isReserved (stateOfDecision d) = false := by
  unfold stateOfDecision
  split
  · rfl
  · split <;> rfl

/-! ## What a change does to the money -/

/-- The events that settle spending. -/
def settledPart (events : List LedgerEvent) : List LedgerEvent :=
  events.filter (fun e => decide (e.kind = .spendingSettled))

/-- An intent goes on with events of its own: it spends at most what it held,
    and then holds it no more. -/
structure Moved (host : Host) (w w' : World) (i i' : PurchaseIntent)
    (events : List LedgerEvent) : Prop where
  same : Continues i i'
  owned : ∀ e ∈ events, e.intentId = some i.id ∧ ReadIn host w w' e.at
  spends : settledPart events = []
    ∨ (i.state.isReserved = true ∧ i'.state.isReserved = false
      ∧ ∃ e, settledPart events = [e] ∧ e.amount = i.request.finalTotal)
  held : i'.state.isReserved = true → i.state.isReserved = true
  others : ∀ e ∈ events, e.kind = .spendingSettled ∨ e.kind = .holdReleased
    ∨ (e.kind = .refund ∧ RefundAmount w.state i e.amount)

/-- **WHAT A CHANGE DOES TO THE MONEY**: nothing, a deposit, a new intent, a
    reservation, or an intent that goes on. -/
inductive MoneyChange (host : Host) (w w' : World) : Prop where
  | none (hi : w'.state.intents = w.state.intents)
      (hl : w'.state.ledger = w.state.ledger)
  | deposit {events : List LedgerEvent} {amount reinvested : Money}
      {verified : Bool} (hi : w'.state.intents = w.state.intents)
      (he : DepositEvents host w w' amount reinvested verified events)
      (hl : w'.state.ledger = w.state.ledger ++ events)
  | new {i : PurchaseIntent} (hn : NewIntent host w w' i)
      (hs : w'.state.intents = w.state.intents.insert i.id i)
      (hl : w'.state.ledger = w.state.ledger)
  | reserve {i i' : PurchaseIntent} {r : AgentRecord} {p : Policy}
      {hold : LedgerEvent} (hi : w.state.intents.get? i.id = some i)
      (hr : Reservable host w w' i r p) (hc : Continues i i')
      (hx : i'.state = .executing)
      (hh : EventIn host w w' .holdReserved i.request.finalTotal (some i.id)
        hold)
      (hs : w'.state.intents = w.state.intents.insert i.id i')
      (hl : w'.state.ledger = w.state.ledger ++ [hold])
  | moved {i i' : PurchaseIntent} {events : List LedgerEvent}
      (hi : w.state.intents.get? i.id = some i)
      (hm : Moved host w w' i i' events)
      (hs : w'.state.intents = w.state.intents.insert i.id i')
      (hl : w'.state.ledger = w.state.ledger ++ events)

theorem EventIn.settledPart_nil {kind : LedgerEventKind} {total : Money}
    {id : Option String} {e : LedgerEvent} (h : EventIn host w w' kind total id e)
    (hk : kind ≠ .spendingSettled) : settledPart [e] = [] :=
  List.filter_eq_nil_iff.mpr fun x hx hd => hk (by
    rw [List.mem_singleton.mp hx, decide_eq_true_eq, h.kind] at hd
    exact hd)

/-- The events of a settlement spend the total, or nothing if the ledger has
    spent it already. -/
theorem Settling.spends {i : PurchaseIntent} {events : List LedgerEvent}
    (h : Settling host w w' s i events) :
    (∀ e ∈ events, (e.intentId = some i.id ∧ ReadIn host w w' e.at)
        ∧ (e.kind = .spendingSettled ∨ e.kind = .holdReleased))
      ∧ (settledPart events = []
        ∨ ∃ e, settledPart events = [e] ∧ e.amount = i.request.finalTotal) := by
  obtain ⟨hr, hs⟩ := h
  have hreleased : ∀ e, EventIn host w w' .holdReleased i.request.finalTotal
      (some i.id) e → settledPart [e] = [] :=
    fun e he => he.settledPart_nil nofun
  have hsettled : ∀ e, EventIn host w w' .spendingSettled i.request.finalTotal
      (some i.id) e → settledPart [e] = [e] :=
    fun e he => List.filter_eq_self.mpr fun x hx => by
      rw [List.mem_singleton.mp hx, decide_eq_true_eq]
      exact he.kind
  have hsplit : ∀ a b, settledPart (a ++ b) = settledPart a ++ settledPart b :=
    fun a b => List.filter_append ..
  rw [hsplit]
  rcases hr with ⟨_, rfl⟩ | ⟨_, e, rfl, he⟩
  · rcases hs with ⟨_, rfl⟩ | ⟨_, e', rfl, he'⟩
    · exact ⟨(fun e he => nomatch he), Or.inl rfl⟩
    · refine ⟨fun x hx => ?_, Or.inr ⟨e', hsettled e' he', he'.amount⟩⟩
      rw [List.mem_singleton.mp hx]
      exact ⟨⟨he'.intentId, he'.time⟩, Or.inl he'.kind⟩
  · rcases hs with ⟨_, rfl⟩ | ⟨_, e', rfl, he'⟩
    · refine ⟨fun x hx => ?_, Or.inl ?_⟩
      · rw [List.mem_singleton.mp hx]
        exact ⟨⟨he.intentId, he.time⟩, Or.inr he.kind⟩
      · rw [hreleased e he]
        rfl
    · refine ⟨fun x hx => ?_, Or.inr ⟨e', ?_, he'.amount⟩⟩
      · rcases List.mem_cons.mp hx with rfl | hx
        · exact ⟨⟨he.intentId, he.time⟩, Or.inr he.kind⟩
        · rw [List.mem_singleton.mp hx]
          exact ⟨⟨he'.intentId, he'.time⟩, Or.inl he'.kind⟩
      · rw [hreleased e he, hsettled e' he']
        rfl

theorem uncertain_reserved {state : TransactionState}
    (h : isUncertain state = true) : state.isReserved = true := by
  cases state <;> simp_all [isUncertain, TransactionState.isReserved]

theorem Moved.settles {i i' : PurchaseIntent} {events : List LedgerEvent}
    (hc : Continues i i') (hres : i.state.isReserved = true)
    (hfree : i'.state.isReserved = false)
    (he : Settling host w w' w.state i events) :
    Moved host w w' i i' events := by
  obtain ⟨hown, hspends⟩ := he.spends
  refine ⟨hc, fun e he => (hown e he).1, ?_, fun h => ?_, fun e he => ?_⟩
  · exact hspends.imp_right fun h => ⟨hres, hfree, h⟩
  · rw [hfree] at h
    exact nomatch h
  · exact (hown e he).2.imp_right Or.inl

/-- An intent that goes on with at most one event that spends nothing. -/
theorem Moved.single {i i' : PurchaseIntent} {kind : LedgerEventKind}
    {amount : Money} {e : LedgerEvent} (hc : Continues i i')
    (hfree : i'.state.isReserved = false)
    (he : EventIn host w w' kind amount (some i.id) e)
    (hk : kind = .holdReleased
      ∨ (kind = .refund ∧ RefundAmount w.state i amount)) :
    Moved host w w' i i' [e] := by
  refine ⟨hc, ?_, Or.inl (he.settledPart_nil ?_), fun h => ?_, ?_⟩
  · intro x hx
    rw [List.mem_singleton.mp hx]
    exact ⟨he.intentId, he.time⟩
  · rcases hk with rfl | ⟨rfl, _⟩
    · exact nofun
    · exact nofun
  · rw [hfree] at h
    exact nomatch h
  · intro x hx
    rw [List.mem_singleton.mp hx, he.kind, he.amount]
    exact Or.inr hk

theorem Moved.silent {i i' : PurchaseIntent} (hc : Continues i i')
    (hheld : i'.state.isReserved = true → i.state.isReserved = true) :
    Moved host w w' i i' [] :=
  ⟨hc, (fun _ he => nomatch he), Or.inl rfl, hheld, (fun _ he => nomatch he)⟩

theorem Concluded.moved {i i' : PurchaseIntent} {next : TransactionState}
    {events : List LedgerEvent}
    (h : Concluded host w w' w.state i next i' events)
    (hx : i.state = .executing) : Moved host w w' i i' events := by
  have hres : i.state.isReserved = true := by
    rw [hx]
    rfl
  have hc := h.continues.1
  cases h with
  | settled hi he => exact .settles hc hres (by rw [hi.continues.2]; rfl) he
  | declined _ he => exact .single hc rfl he (Or.inl rfl)
  | pending _ => exact .silent hc fun _ => hres
  | unknown _ => exact .silent hc fun _ => hres

theorem Reconciled.moved {i i' : PurchaseIntent}
    {outcome : ReconciliationOutcome} {events : List LedgerEvent}
    (h : Reconciled host w w' w.state i outcome i' events) :
    Moved host w w' i i' events := by
  have hc := h.continues.1
  cases h with
  | settled hu hi he =>
      exact .settles hc (uncertain_reserved hu) (by rw [hi.continues.2]; rfl) he
  | declined _ _ he => exact .single hc rfl he (Or.inl rfl)
  | refundedLater _ _ ha hr => exact .single hc rfl hr (Or.inr ⟨rfl, ha⟩)
  | refunded hu hi he _ ha hr =>
      -- a settlement and, after it, a refund
      have hset := Moved.settles hc (uncertain_reserved hu) rfl he
      have href := Moved.single hc rfl hr (Or.inr ⟨rfl, ha⟩)
      refine ⟨hc, ?_, ?_, (fun h => nomatch h), ?_⟩
      · intro e hmem
        exact (List.mem_append.mp hmem).elim (hset.owned e) (href.owned e)
      · unfold settledPart
        rw [List.filter_append]
        have hnone := hr.settledPart_nil nofun
        unfold settledPart at hnone
        rw [hnone, List.append_nil]
        exact hset.spends
      · intro e hmem
        exact (List.mem_append.mp hmem).elim (hset.others e) (href.others e)

theorem movesTo.held {i : PurchaseIntent} {next : TransactionState}
    (h : movesTo i next) (hn : next.isReserved = true) :
    i.state.isReserved = true := by
  rcases h with ⟨hcan, rfl | rfl | rfl⟩ | ⟨hu, rfl⟩
  · exact nomatch hn
  · exact nomatch hn
  · cases hs : i.state <;>
      simp_all [TransactionState.canTransition, TransactionState.isReserved]
  · rw [hu]
    rfl

theorem Change.money (h : Change host l w w') : MoneyChange host w w' := by
  cases h with
  | quiet h => exact .none (by rw [h.state]) (by rw [h.state])
  | addIntent _ hn _ hs _ => exact .new hn (by rw [hs]; rfl) (by rw [hs]; rfl)
  | reserve _ hi hr hh _ _ hs _ =>
      refine .reserve hi hr ?_ ?_ hh (by rw [hs]; rfl) (by rw [hs]; rfl)
      · exact ⟨rfl, rfl, rfl, rfl, rfl, rfl⟩
      · rfl
  | move _ hi hm _ hs _ =>
      refine @MoneyChange.moved _ _ _ _ _ [] hi ?_ (by rw [hs]; rfl) ?_
      · exact .silent ⟨rfl, rfl, rfl, rfl, rfl, rfl⟩ hm.held
      · rw [hs, List.append_nil]
        rfl
  | conclude _ hi hx hc _ hs _ =>
      exact .moved hi (hc.moved hx) (by rw [hs]; rfl) (by rw [hs]; rfl)
  | reconcile _ hi hr hp hs _ =>
      obtain ⟨_, _, heq⟩ := hp.fields
      exact .moved hi hr.moved (by rw [hs, heq]; rfl) (by rw [hs, heq]; rfl)
  | deposit _ _ _ hc he _ hs _ =>
      obtain ⟨_, _, heq⟩ := hc.fields
      exact .deposit (by rw [hs, heq]; rfl) he (by rw [hs, heq]; rfl)
  | writeKey _ hs _ _ => exact .none (by rw [hs]) (by rw [hs])
  | writeState _ hs _ _ _ => exact .none (by rw [hs]) (by rw [hs])
  | submit _ hs _ _ _ => exact .none (by rw [hs]) (by rw [hs])
  | _ =>
      rename_i hs _
      exact .none ((congrArg TreasuryState.intents hs).trans rfl)
        ((congrArg TreasuryState.ledger hs).trans rfl)

end Treasury
