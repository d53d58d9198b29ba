import Cixa.Runs

/-! # Correspondence — the ledger is determined by the intents

    The state of an intent says exactly which ledger events carry its id, in
    which order, each with the intent's final total; and an intent has a
    receipt exactly when it is settled or refunded.  Every change appends
    just the events that lead from one state to the next, so the
    correspondence holds after every run of calls.

    `recordSettled` looks for earlier events before it appends: under the
    correspondence an intent that is not settled has none of them, so both
    events are always appended. -/

namespace Treasury

open CixaData CixaHost Outcome Transition

variable {host : Host} {w : World}

/-! ## What a state says about the ledger -/

/-- The ledger events of an intent, oldest first. -/
def eventsOf (s : TreasuryState) (id : String) : List LedgerEvent :=
  s.ledger.filter (fun e => decide (e.intentId = some id))

/-- The kinds of the events of an intent in a state; some states are never
    stored. -/
def eventKinds : TransactionState → Option (List LedgerEventKind)
  | .policyValidated => some []
  | .approvalRequired => some []
  | .approved => some []
  | .failed => some []
  | .cancelled => some []
  | .executing => some [.holdReserved]
  | .providerPending => some [.holdReserved]
  | .unknown => some [.holdReserved]
  | .declined => some [.holdReserved, .holdReleased]
  | .settled => some [.holdReserved, .holdReleased, .spendingSettled]
  | .refunded =>
      some [.holdReserved, .holdReleased, .spendingSettled, .refund]
  | _ => none

/-- The receipt of an intent: there if and only if it is settled or refunded,
    for its final total, with its hash. -/
def Receipted (host : Host) (i : PurchaseIntent) : Prop :=
  ((i.state = .settled ∨ i.state = .refunded)
      ∧ ∃ r, i.receipt = some r ∧ r.amount = i.request.finalTotal
        ∧ r.intentId = i.id ∧ i.receiptHash = some (receiptHash host r))
    ∨ ((i.state ≠ .settled ∧ i.state ≠ .refunded)
      ∧ i.receipt = none ∧ i.receiptHash = none)

/-- An intent and the ledger agree. -/
structure Accounted (host : Host) (s : TreasuryState) (i : PurchaseIntent) :
    Prop where
  kinds : eventKinds i.state = some ((eventsOf s i.id).map LedgerEvent.kind)
  amounts : ∀ e ∈ eventsOf s i.id, e.amount = i.request.finalTotal
  receipt : Receipted host i

/-- An amount is the final total of the stored intent with an id. -/
def Priced (m : SortedMap String PurchaseIntent) (id : String)
    (amount : Money) : Prop :=
  ∃ i, m.get? id = some i ∧ amount = i.request.finalTotal

/-- The simulated provider holds and charges final totals. -/
structure ProviderPriced (p : SimulatedProvider)
    (m : SortedMap String PurchaseIntent) : Prop where
  holds : ∀ id amount, p.holds.get? id = some amount → Priced m id amount
  charges : ∀ id c, p.charges.get? id = some c → Priced m id c.amount

/-- **THE CORRESPONDENCE** of a state. -/
structure Corresponds (host : Host) (s : TreasuryState) : Prop where
  accounted : ∀ id i, s.intents.get? id = some i → Accounted host s i
  known : ∀ e ∈ s.ledger, ∀ id, e.intentId = some id →
    ∃ i, s.intents.get? id = some i
  provider : ProviderPriced s.provider s.intents

/-! ## The provider -/

theorem Priced.insert {m : SortedMap String PurchaseIntent} {id : String}
    {amount : Money} {i i' : PurchaseIntent} (h : Priced m id amount)
    (hi : m.get? i.id = some i) (hreq : i'.request = i.request) :
    Priced (m.insert i.id i') id amount := by
  obtain ⟨j, hj, hamount⟩ := h
  by_cases hid : id = i.id
  · refine ⟨i', by rw [hid, SortedMap.get?_insert_self], ?_⟩
    rw [hid, hi] at hj
    rw [hamount, hreq, ← Option.some.inj hj]
  · exact ⟨j, by rw [SortedMap.get?_insert_of_ne _ _ hid]; exact hj, hamount⟩

theorem Priced.insertNew {m : SortedMap String PurchaseIntent} {id : String}
    {amount : Money} {i : PurchaseIntent} (h : Priced m id amount)
    (hi : m.get? i.id = none) : Priced (m.insert i.id i) id amount := by
  obtain ⟨j, hj, hamount⟩ := h
  have hid : id ≠ i.id := by
    rintro rfl
    rw [hi] at hj
    exact nomatch hj
  exact ⟨j, by rw [SortedMap.get?_insert_of_ne _ _ hid]; exact hj, hamount⟩

/-- What the provider does for a stored intent keeps its prices. -/
theorem ProviderStep.priced {p p' : SimulatedProvider} {i : PurchaseIntent}
    {m : SortedMap String PurchaseIntent} {move : ProviderMove}
    (h : ProviderStep i move p p')
    (hi : m.get? i.id = some i) (hp : ProviderPriced p m) :
    ProviderPriced p' m := by
  have hprice : Priced m i.id i.request.finalTotal := ⟨i, hi, rfl⟩
  have hholds : ∀ amount, Priced m i.id amount → ∀ id a,
      (p.holds.insert i.id amount).get? id = some a → Priced m id a := by
    intro amount hamount id a ha
    rw [SortedMap.get?_insert] at ha
    split at ha
    · rename_i hid
      rw [hid, ← Option.some.inj ha]
      exact hamount
    · exact hp.holds id a ha
  have herase : ∀ id a, (p.holds.erase i.id).get? id = some a →
      Priced m id a := by
    intro id a ha
    rw [SortedMap.get?_erase] at ha
    split at ha
    · exact nomatch ha
    · exact hp.holds id a ha
  have hcharges : ∀ c : ProviderCharge, Priced m i.id c.amount → ∀ id c',
      (p.charges.insert i.id c).get? id = some c' → Priced m id c'.amount := by
    intro c hc id c' hc'
    rw [SortedMap.get?_insert] at hc'
    split at hc'
    · rename_i hid
      rw [hid, ← Option.some.inj hc']
      exact hc
    · exact hp.charges id c' hc'
  cases h with
  | hold _ _ _ => exact ⟨hholds _ hprice, hp.charges⟩
  | charge _ _ _ _ => exact ⟨hp.holds, hcharges _ hprice⟩
  | settleHold hh _ => exact ⟨herase, hcharges _ (hp.holds _ _ hh)⟩
  | confirm _ hc =>
      have hcharge := hp.charges _ _ hc
      exact ⟨hp.holds, hcharges _ hcharge⟩
  | release _ => exact ⟨herase, hp.charges⟩
  | refund hc _ _ =>
      have hcharge := hp.charges _ _ hc
      exact ⟨hp.holds, hcharges _ hcharge⟩

/-! ## Booking events for an intent -/

theorem eventsOf_append {s s' : TreasuryState} {events : List LedgerEvent}
    (hs : s'.ledger = s.ledger ++ events) (id : String) :
    eventsOf s' id = eventsOf s id
      ++ events.filter (fun e => decide (e.intentId = some id)) := by
  unfold eventsOf
  rw [hs, List.filter_append]

/-- The new events are all of one intent. -/
def Carries (id : String) (total : Money) (events : List LedgerEvent) : Prop :=
  ∀ e ∈ events, e.intentId = some id ∧ e.amount = total

theorem Carries.self {id : String} {total : Money} {events : List LedgerEvent}
    (h : Carries id total events) :
    events.filter (fun e => decide (e.intentId = some id)) = events :=
  List.filter_eq_self.mpr fun e he => decide_eq_true (h e he).1

theorem Carries.other {id id' : String} {total : Money}
    {events : List LedgerEvent} (h : Carries id total events) (hne : id' ≠ id) :
    events.filter (fun e => decide (e.intentId = some id')) = [] := by
  refine List.filter_eq_nil_iff.mpr fun e he => ?_
  rw [decide_eq_true_eq, (h e he).1]
  exact fun heq => hne (Option.some.inj heq).symm

/-- Other intents do not see the events. -/
theorem Accounted.other {s s' : TreasuryState} {i j : PurchaseIntent}
    {total : Money} {events : List LedgerEvent} (h : Accounted host s j)
    (hs : s'.ledger = s.ledger ++ events) (hev : Carries i.id total events)
    (hne : j.id ≠ i.id) : Accounted host s' j := by
  have hsame : eventsOf s' j.id = eventsOf s j.id := by
    rw [eventsOf_append hs, hev.other hne, List.append_nil]
  exact ⟨hsame ▸ h.kinds, hsame ▸ h.amounts, h.receipt⟩

/-- **BOOKING**: an intent goes to its next state with the events that lead
    there. -/
theorem Corresponds.book {s s' : TreasuryState} {i i' : PurchaseIntent}
    {events : List LedgerEvent} (h : Corresponds host s) (hk : Keyed s)
    (hi : s.intents.get? i.id = some i)
    (hintents : s'.intents = s.intents.insert i.id i')
    (hledger : s'.ledger = s.ledger ++ events)
    (hprovider : ProviderPriced s'.provider s.intents)
    (hev : Carries i.id i.request.finalTotal events) (hc : Continues i i')
    (hkinds : eventKinds i'.state
      = (eventKinds i.state).map (· ++ events.map LedgerEvent.kind))
    (hrec : Receipted host i') : Corresponds host s' := by
  have hacc := h.accounted _ _ hi
  refine ⟨?_, ?_, ?_⟩
  · intro id j hj
    rw [hintents, SortedMap.get?_insert] at hj
    split at hj
    · obtain rfl := Option.some.inj hj
      -- the events are all of this intent
      have hevents : eventsOf s' i'.id = eventsOf s i.id ++ events := by
        rw [eventsOf_append hledger, hc.id, hev.self]
      refine ⟨?_, ?_, hrec⟩
      · rw [hkinds, hacc.kinds, hevents, List.map_append]
        rfl
      · intro e he
        rw [hevents] at he
        rw [hc.request]
        rcases List.mem_append.mp he with he | he
        · exact hacc.amounts e he
        · exact (hev e he).2
    · rename_i hid
      obtain rfl := hk _ _ hj
      exact (h.accounted _ _ hj).other hledger hev hid
  · intro e he id hid
    rw [hledger] at he
    rw [hintents]
    have hsome : ∃ j, s.intents.get? id = some j := by
      rcases List.mem_append.mp he with he | he
      · exact h.known e he id hid
      · rw [(hev e he).1] at hid
        exact ⟨i, Option.some.inj hid ▸ hi⟩
    obtain ⟨j, hj⟩ := hsome
    by_cases heq : id = i.id
    · exact ⟨i', by rw [heq, SortedMap.get?_insert_self]⟩
    · exact ⟨j, by rw [SortedMap.get?_insert_of_ne _ _ heq]; exact hj⟩
  · rw [hintents]
    exact ⟨fun id a ha => (hprovider.holds id a ha).insert hi hc.request,
      fun id c hcharge => (hprovider.charges id c hcharge).insert hi hc.request⟩

/-! ## The events of a settlement -/

theorem hasEvent_eq {s : TreasuryState} {id : String} {kind : LedgerEventKind} :
    hasEvent s id kind
      = decide (kind ∈ (eventsOf s id).map LedgerEvent.kind) := by
  unfold hasEvent eventsOf
  rw [Bool.eq_iff_iff, List.any_eq_true, decide_eq_true_eq, List.mem_map]
  constructor
  · rintro ⟨e, he, hmatch⟩
    obtain ⟨hid, hkind⟩ := of_decide_eq_true hmatch
    exact ⟨e, List.mem_filter.mpr ⟨he, decide_eq_true hid⟩, hkind⟩
  · rintro ⟨e, he, hkind⟩
    obtain ⟨he, hid⟩ := List.mem_filter.mp he
    exact ⟨e, he, decide_eq_true ⟨of_decide_eq_true hid, hkind⟩⟩

/-- The states of an intent whose funds are held. -/
theorem eventKinds_held {state : TransactionState} {ks : List LedgerEventKind}
    (h : state = .executing ∨ isUncertain state = true)
    (hk : eventKinds state = some ks) : ks = [.holdReserved] := by
  rcases h with rfl | h
  · exact (Option.some.inj hk).symm
  · cases state <;> simp_all [isUncertain, eventKinds]

/-- **BOTH EVENTS ARE NEW** when the funds of the intent are held. -/
theorem Settling.held {a b : World} {s : TreasuryState} {i : PurchaseIntent}
    {events : List LedgerEvent} (h : Settling host a b s i events)
    (hacc : Accounted host s i)
    (hx : i.state = .executing ∨ isUncertain i.state = true) :
    Carries i.id i.request.finalTotal events
      ∧ events.map LedgerEvent.kind = [.holdReleased, .spendingSettled] := by
  have hks := eventKinds_held hx hacc.kinds
  have hnone : ∀ kind, kind ≠ .holdReserved → hasEvent s i.id kind = false := by
    intro kind hkind
    rw [hasEvent_eq, hks]
    exact decide_eq_false fun hmem => hkind (List.mem_singleton.mp hmem)
  obtain ⟨hr, hs⟩ := h
  rw [hnone .holdReleased nofun] at hr
  rw [hnone .spendingSettled nofun] at hs
  obtain ⟨_, e, rfl, he⟩ := hr.resolve_left (fun h => nomatch h.1)
  obtain ⟨_, e', rfl, he'⟩ := hs.resolve_left (fun h => nomatch h.1)
  refine ⟨?_, ?_⟩
  · intro x hx
    rcases List.mem_cons.mp hx with rfl | hx
    · exact ⟨he.intentId, he.amount⟩
    · rw [List.mem_singleton.mp hx]
      exact ⟨he'.intentId, he'.amount⟩
  · show [e.kind, e'.kind] = _
    rw [he.kind, he'.kind]

/-- A settled intent has its receipt. -/
theorem SettledIn.receipted {a b : World} {i i' : PurchaseIntent}
    (h : SettledIn host a b i i') : Receipted host i' := by
  obtain ⟨_, _, _, _, _, heq⟩ := h.shape
  rw [heq]
  exact Or.inl ⟨Or.inl rfl, _, rfl, rfl, rfl, rfl⟩

/-! ## One change -/

/-- What else a change may do without touching the correspondence. -/
theorem Corresponds.frame {s s' : TreasuryState} (h : Corresponds host s)
    (hi : s'.intents = s.intents) (hl : s'.ledger = s.ledger)
    (hp : ProviderPriced s'.provider s.intents) : Corresponds host s' := by
  have hevents : ∀ id, eventsOf s' id = eventsOf s id := by
    intro id
    unfold eventsOf
    rw [hl]
  refine ⟨?_, ?_, ?_⟩
  · intro id i hget
    obtain ⟨h1, h2, h3⟩ := h.accounted id i (hi ▸ hget)
    exact ⟨hevents i.id ▸ h1, hevents i.id ▸ h2, h3⟩
  · intro e he id hid
    rw [hi]
    exact h.known e (hl ▸ he) id hid
  · rw [hi]
    exact hp

/-- A new intent has no events: nothing carries an id that is not stored. -/
theorem Corresponds.addIntent {s s' : TreasuryState} {i : PurchaseIntent}
    (h : Corresponds host s) (hnew : s.intents.get? i.id = none)
    (hi : s'.intents = s.intents.insert i.id i) (hl : s'.ledger = s.ledger)
    (hp : s'.provider = s.provider) (hkinds : eventKinds i.state = some [])
    (hrec : Receipted host i) : Corresponds host s' := by
  have hevents : ∀ id, eventsOf s' id = eventsOf s id := by
    intro id
    unfold eventsOf
    rw [hl]
  have hempty : eventsOf s i.id = [] := by
    refine List.filter_eq_nil_iff.mpr fun e he hid => ?_
    obtain ⟨j, hj⟩ := h.known e he i.id (of_decide_eq_true hid)
    rw [hnew] at hj
    exact nomatch hj
  refine ⟨?_, ?_, ?_⟩
  · intro id j hj
    rw [hi, SortedMap.get?_insert] at hj
    split at hj
    · obtain rfl := Option.some.inj hj
      refine ⟨?_, ?_, hrec⟩
      · rw [hevents, hempty, hkinds]
        rfl
      · intro e he
        rw [hevents, hempty] at he
        exact nomatch he
    · obtain ⟨h1, h2, h3⟩ := h.accounted id j hj
      exact ⟨hevents j.id ▸ h1, hevents j.id ▸ h2, h3⟩
  · intro e he id hid
    obtain ⟨j, hj⟩ := h.known e (hl ▸ he) id hid
    have hne : id ≠ i.id := by
      rintro rfl
      rw [hnew] at hj
      exact nomatch hj
    exact ⟨j, by rw [hi, SortedMap.get?_insert_of_ne _ _ hne]; exact hj⟩
  · rw [hi, hp]
    exact ⟨fun id a ha => (h.provider.holds id a ha).insertNew hnew,
      fun id c hc => (h.provider.charges id c hc).insertNew hnew⟩

/-- Events of no intent do not touch the correspondence. -/
theorem Corresponds.deposit {s s' : TreasuryState} {events : List LedgerEvent}
    (h : Corresponds host s) (hi : s'.intents = s.intents)
    (hl : s'.ledger = s.ledger ++ events)
    (hev : ∀ e ∈ events, e.intentId = none)
    (hp : s'.provider.holds = s.provider.holds
      ∧ s'.provider.charges = s.provider.charges) : Corresponds host s' := by
  have hevents : ∀ id, eventsOf s' id = eventsOf s id := by
    intro id
    have hnone : events.filter (fun e => decide (e.intentId = some id)) = [] :=
      List.filter_eq_nil_iff.mpr fun e he hid => by
        rw [decide_eq_true_eq, hev e he] at hid
        exact nomatch hid
    rw [eventsOf_append hl, hnone, List.append_nil]
  refine ⟨?_, ?_, ?_⟩
  · intro id i hget
    obtain ⟨h1, h2, h3⟩ := h.accounted id i (hi ▸ hget)
    exact ⟨hevents i.id ▸ h1, hevents i.id ▸ h2, h3⟩
  · intro e he id hid
    rw [hl] at he
    rw [hi]
    rcases List.mem_append.mp he with he | he
    · exact h.known e he id hid
    · rw [hev e he] at hid
      exact nomatch hid
  · rw [hi]
    exact ⟨fun id a ha => h.provider.holds id a (hp.1 ▸ ha),
      fun id c hc => h.provider.charges id c (hp.2 ▸ hc)⟩

/-- A provider effect keeps the prices of the simulated provider. -/
theorem Effect.priced {a b : World} {i : PurchaseIntent} {s s' : TreasuryState}
    {arm : Arm} (h : Effect host a b i arm s s')
    (hi : s.intents.get? i.id = some i)
    (hp : ProviderPriced s.provider s.intents) :
    ProviderPriced s'.provider s.intents := by
  cases h with
  | none _ => exact hp
  | simulated _ hstep _ => exact hstep.priced hi hp
  | manual _ _ _ => exact hp

/-- A move appends nothing, and the states it joins have the same events. -/
theorem movesTo.kinds {i : PurchaseIntent} {next : TransactionState}
    (h : movesTo i next) (hstored : eventKinds i.state ≠ none) :
    eventKinds next = eventKinds i.state
      ∧ (i.state ≠ .settled ∧ i.state ≠ .refunded)
      ∧ next ≠ .settled ∧ next ≠ .refunded := by
  rcases h with ⟨hcan, rfl | rfl | rfl⟩ | ⟨hu, rfl⟩
  all_goals
    cases hs : i.state <;> simp_all [TransactionState.canTransition, eventKinds]

theorem stateOfDecision_kinds (d : PolicyDecision) :
    eventKinds (stateOfDecision d) = some []
      ∧ stateOfDecision d ≠ .settled ∧ stateOfDecision d ≠ .refunded := by
  unfold stateOfDecision
  split
  · exact ⟨rfl, nofun, nofun⟩
  · split
    · exact ⟨rfl, nofun, nofun⟩
    · exact ⟨rfl, nofun, nofun⟩

theorem DepositEvents.unowned {a b : World} {amount reinvested : Money}
    {verified : Bool} {events : List LedgerEvent}
    (h : DepositEvents host a b amount reinvested verified events) :
    ∀ e ∈ events, e.intentId = none := by
  intro x hx
  cases h with
  | plain _ he =>
      rw [List.mem_singleton.mp hx]
      exact he.intentId
  | topUp _ he he' =>
      rcases List.mem_cons.mp hx with rfl | hx
      · exact he.intentId
      · rw [List.mem_singleton.mp hx]
        exact he'.intentId

/-- A deposit leaves the holds and the charges alone. -/
theorem Credited.priced {a b : World} {amount : Money} {verified : Bool}
    {s s' : TreasuryState} (h : Credited host a b amount verified s s') :
    s'.provider.holds = s.provider.holds
      ∧ s'.provider.charges = s.provider.charges := by
  cases h <;> exact ⟨rfl, rfl⟩

theorem EventIn.carries {a b : World} {kind : LedgerEventKind} {total : Money}
    {id : String} {e : LedgerEvent}
    (h : EventIn host a b kind total (some id) e) : Carries id total [e] := by
  intro x hx
  rw [List.mem_singleton.mp hx]
  exact ⟨h.intentId, h.amount⟩

theorem Carries.append {id : String} {total : Money}
    {events events' : List LedgerEvent} (h : Carries id total events)
    (h' : Carries id total events') : Carries id total (events ++ events') := by
  intro e he
  rcases List.mem_append.mp he with he | he
  · exact h e he
  · exact h' e he

/-- A refund is recorded with the final total. -/
theorem RefundAmount.total {s : TreasuryState} {i : PurchaseIntent}
    {amount : Money} (h : RefundAmount s i amount)
    (hi : s.intents.get? i.id = some i)
    (hp : ProviderPriced s.provider s.intents) :
    amount = i.request.finalTotal := by
  cases h with
  | manual _ => rfl
  | simulated _ hc =>
      obtain ⟨j, hj, hamount⟩ := hp.charges _ _ hc
      rw [hamount, Option.some.inj (hi.symm.trans hj)]

theorem Accounted.unreceipted {s : TreasuryState} {i : PurchaseIntent}
    (h : Accounted host s i) (hne : i.state ≠ .settled ∧ i.state ≠ .refunded) :
    i.receipt = none ∧ i.receiptHash = none := by
  rcases h.receipt with ⟨hs | hs, _⟩ | ⟨_, hnone⟩
  · exact absurd hs hne.1
  · exact absurd hs hne.2
  · exact hnone

/-- The events and the receipt of an outcome. -/
theorem Concluded.booked {a b : World} {s : TreasuryState}
    {i i' : PurchaseIntent} {next : TransactionState}
    {events : List LedgerEvent} (h : Concluded host a b s i next i' events)
    (hacc : Accounted host s i) (hx : i.state = .executing) :
    Carries i.id i.request.finalTotal events
      ∧ eventKinds i'.state
        = (eventKinds i.state).map (· ++ events.map LedgerEvent.kind)
      ∧ Receipted host i' := by
  have hnone := hacc.unreceipted (by rw [hx]; exact ⟨nofun, nofun⟩)
  cases h with
  | settled hi he =>
      obtain ⟨hcarries, hkinds⟩ := he.held hacc (Or.inl hx)
      refine ⟨hcarries, ?_, hi.receipted⟩
      rw [hi.continues.2, hx, hkinds]
      rfl
  | declined _ he =>
      refine ⟨he.carries, ?_, Or.inr ⟨⟨nofun, nofun⟩, hnone⟩⟩
      rw [hx, List.map_singleton, he.kind]
      rfl
  | pending _ =>
      refine ⟨(fun e he => nomatch he), ?_, Or.inr ⟨⟨nofun, nofun⟩, hnone⟩⟩
      rw [hx]
      rfl
  | unknown _ =>
      refine ⟨(fun e he => nomatch he), ?_, Or.inr ⟨⟨nofun, nofun⟩, hnone⟩⟩
      rw [hx]
      rfl

/-- The events and the receipt of a reconciliation. -/
theorem Reconciled.booked {a b : World} {s : TreasuryState}
    {i i' : PurchaseIntent} {outcome : ReconciliationOutcome}
    {events : List LedgerEvent}
    (h : Reconciled host a b s i outcome i' events)
    (hi : s.intents.get? i.id = some i) (hacc : Accounted host s i)
    (hp : ProviderPriced s.provider s.intents) :
    Carries i.id i.request.finalTotal events
      ∧ eventKinds i'.state
        = (eventKinds i.state).map (· ++ events.map LedgerEvent.kind)
      ∧ Receipted host i' := by
  -- the kinds of the new events follow those that are booked
  cases h with
  | settled hu hset he =>
      obtain ⟨hcarries, hkinds⟩ := he.held hacc (Or.inr hu)
      refine ⟨hcarries, ?_, hset.receipted⟩
      rw [hset.continues.2, hkinds, hacc.kinds,
        eventKinds_held (Or.inr hu) hacc.kinds]
      rfl
  | declined hu _ he =>
      have hks := eventKinds_held (Or.inr hu) hacc.kinds
      have hnone := hacc.unreceipted (by
        constructor <;> (intro hs; rw [hs] at hu; exact nomatch hu))
      refine ⟨he.carries, ?_, Or.inr ⟨⟨nofun, nofun⟩, hnone⟩⟩
      rw [hacc.kinds, hks, List.map_singleton, he.kind]
      rfl
  | refunded hu hset he _ hamount hr =>
      obtain ⟨hcarries, hkinds⟩ := he.held hacc (Or.inr hu)
      rw [hamount.total hi hp] at hr
      refine ⟨hcarries.append hr.carries, ?_, ?_⟩
      · rw [hacc.kinds, eventKinds_held (Or.inr hu) hacc.kinds, List.map_append,
          hkinds, List.map_singleton, hr.kind]
        rfl
      · obtain ⟨_, _, _, _, _, heq⟩ := hset.shape
        rw [heq]
        exact Or.inl ⟨Or.inr rfl, _, rfl, rfl, rfl, rfl⟩
  | refundedLater hs _ hamount hr =>
      rw [hamount.total hi hp] at hr
      refine ⟨hr.carries, ?_, ?_⟩
      · rw [hs, List.map_singleton, hr.kind]
        rfl
      · rcases hacc.receipt with ⟨_, hrec⟩ | ⟨⟨hne, _⟩, _⟩
        · exact Or.inl ⟨Or.inr rfl, hrec⟩
        · exact absurd hs hne

/-- **EVERY CHANGE KEEPS THE CORRESPONDENCE.** -/
theorem Change.corresponds {l : Label} {w' : World} (h : Change host l w w')
    (hk : Keyed w.state) (hids : IdsDrawn host w)
    (hfresh : FreshBelow host w'.drawn) (hw : Corresponds host w.state) :
    Corresponds host w'.state := by
  cases h with
  | quiet h => exact h.state ▸ hw
  | audit _ _ hs _ => exact hs ▸ hw.frame rfl rfl hw.provider
  | addAgent _ _ _ hs _ => exact hs ▸ hw.frame rfl rfl hw.provider
  | editAgent _ _ _ hs _ => exact hs ▸ hw.frame rfl rfl hw.provider
  | setPolicy _ _ _ _ _ _ hs _ => exact hs ▸ hw.frame rfl rfl hw.provider
  | setStop _ hs _ => exact hs ▸ hw.frame rfl rfl hw.provider
  | configureReceive _ hs _ => exact hs ▸ hw.frame rfl rfl hw.provider
  | configureManual _ _ _ hs _ => exact hs ▸ hw.frame rfl rfl hw.provider
  | writeKey _ hs _ _ => exact hs ▸ hw
  | writeState _ hs _ _ _ => exact hs ▸ hw
  | submit _ hs _ _ _ => exact hs ▸ hw
  | addIntent _ hn _ hs _ =>
      -- a new intent has no events yet, and needs none
      obtain ⟨hkinds, hne⟩ := stateOfDecision_kinds _
      rw [hs]
      exact hw.addIntent (hn.unstored hids hfresh) rfl rfl rfl
        (hn.state ▸ hkinds) (Or.inr ⟨hn.state ▸ hne, hn.receipt, hn.receiptHash⟩)
  | @reserve _ _ i _ _ hold _ _ _ hi hr hh _ _ hs _ =>
      have hacc := hw.accounted _ _ hi
      -- what can be executed has no event yet, so the hold is its first
      have hkinds : eventKinds i.state = some []
          ∧ i.state ≠ .settled ∧ i.state ≠ .refunded := by
        rcases hr.executable with hx | hx
        · rw [hx]
          exact ⟨rfl, nofun, nofun⟩
        · rw [hx]
          exact ⟨rfl, nofun, nofun⟩
      rw [hs]
      refine hw.book hk hi rfl (rfl : _ = w.state.ledger ++ [hold]) hw.provider
        hh.carries ⟨rfl, rfl, rfl, rfl, rfl, rfl⟩ ?_
        (Or.inr ⟨⟨nofun, nofun⟩, hacc.unreceipted hkinds.2⟩)
      rw [hkinds.1, List.map_singleton, hh.kind]
      rfl
  | @move _ _ i _ _ _ _ hi hm _ hs _ =>
      have hacc := hw.accounted _ _ hi
      obtain ⟨hkinds, hne, hne'⟩ := hm.kinds (by rw [hacc.kinds]; exact nofun)
      rw [hs]
      refine hw.book hk hi rfl (List.append_nil w.state.ledger).symm
        hw.provider (fun e he => nomatch he) ⟨rfl, rfl, rfl, rfl, rfl, rfl⟩ ?_
        (Or.inr ⟨hne', hacc.unreceipted hne⟩)
      show eventKinds _ = _
      rw [hkinds, hacc.kinds]
      simp
  | conclude _ hi hx hc _ hs _ =>
      obtain ⟨hcarries, hkinds, hrec⟩ := hc.booked (hw.accounted _ _ hi) hx
      rw [hs]
      exact hw.book hk hi rfl rfl hw.provider hcarries hc.continues.1 hkinds hrec
  | authorize _ hi _ _ hp hs _ =>
      exact hs ▸ hw.frame rfl rfl (hp.priced hi hw.provider)
  | reconcile _ hi hr hp hs _ =>
      obtain ⟨hcarries, hkinds, hrec⟩ :=
        hr.booked hi (hw.accounted _ _ hi) hw.provider
      have hprovider := hp.priced hi hw.provider
      obtain ⟨_, _, heq⟩ := hp.fields
      rw [hs]
      refine hw.book hk hi ?_ ?_ hprovider hcarries hr.continues.1 hkinds hrec
      · rw [heq]
        rfl
      · rw [heq]
        rfl
  | deposit _ _ _ hc he _ hs _ =>
      have hprov := hc.priced
      obtain ⟨_, _, heq⟩ := hc.fields
      rw [hs]
      refine hw.deposit ?_ ?_ he.unowned hprov
      · rw [heq]
        rfl
      · rw [heq]
        rfl

/-! ## Runs -/

/-- Whatever was stored under an intent's id had its request. -/
def Created (host : Host) (w : World) : Prop :=
  ∀ j, .stored j ∈ w.log →
    (∃ k, k < w.drawn ∧ j.id = Treasury.idOfDraw host "intent" k)
      ∧ ∀ i, w.state.intents.get? j.id = some i → j.request = i.request

theorem Change.created {l : Label} {w' : World} (h : Change host l w w')
    (hids : IdsDrawn host w) (hfresh : FreshBelow host w'.drawn)
    (hw : Created host w) : Created host w' := by
  have hdrawn := h.advance.drawn
  have hold : ∀ {j}, .stored j ∈ w.log →
      ∃ k, k < w'.drawn ∧ j.id = Treasury.idOfDraw host "intent" k := by
    intro j hj
    obtain ⟨⟨k, hk, hid⟩, _⟩ := hw j hj
    exact ⟨k, by omega, hid⟩
  intro j hj
  -- no intent is touched, a new one is stored, or one is replaced
  cases h.intents with
  | none hs hl =>
      obtain ⟨tail, hl, hnot⟩ := hl
      rw [hl] at hj
      have hmem := (List.mem_append.mp hj).resolve_right (hnot j)
      exact ⟨hold hmem, fun i hi => (hw j hmem).2 i (hs ▸ hi)⟩
  | @new i _ hn hs hl =>
      rw [hl] at hj
      rcases List.mem_append.mp hj with hmem | hmem
      · refine ⟨hold hmem, fun i' hi' => ?_⟩
        -- the new id was not drawn before
        have hne := hn.id.ne_before hfresh (hw j hmem).1
        rw [hs, SortedMap.get?_insert_of_ne _ _ hne] at hi'
        exact (hw j hmem).2 i' hi'
      · obtain rfl : j = i := by
          simpa using hmem
        refine ⟨hn.id.below, fun i' hi' => ?_⟩
        rw [hs, SortedMap.get?_insert_self] at hi'
        rw [Option.some.inj hi']
  | @next i i' hi hc _ hs hl =>
      rw [hl] at hj
      have hsame : ∀ k, w'.state.intents.get? i.id = some k →
          k.request = i.request := by
        intro k hk
        rw [hs, SortedMap.get?_insert_self] at hk
        rw [← Option.some.inj hk, hc.request]
      rcases List.mem_append.mp hj with hmem | hmem
      · refine ⟨hold hmem, fun k hk => ?_⟩
        by_cases hid : j.id = i.id
        · rw [hsame k (hid ▸ hk)]
          exact (hw j hmem).2 i (hid ▸ hi)
        · rw [hs, SortedMap.get?_insert_of_ne _ _ hid] at hk
          exact (hw j hmem).2 k hk
      · obtain rfl : j = i' := by
          simpa using hmem
        obtain ⟨k, hk, hid⟩ := hids _ _ hi
        refine ⟨⟨k, by omega, hc.id.trans hid⟩, fun k hk => ?_⟩
        rw [hc.request, hsame k (hc.id ▸ hk)]

/-- The correspondence along a path with fresh draws. -/
theorem Path.corresponds {allowed : Label → Prop} {n : Nat} {w' : World}
    (h : Path host allowed w w') (hfresh : FreshBelow host n)
    (hn : w'.drawn ≤ n) (hk : Kept w.state) (hids : IdsDrawn host w)
    (hw : Corresponds host w.state) (hc : Created host w) :
    Corresponds host w'.state ∧ Created host w' := by
  have hinv := h.invariant (I := fun v => v.drawn ≤ n → Kept v.state
    ∧ IdsDrawn host v ∧ Corresponds host v.state ∧ Created host v) ?_ ?_
    (fun _ => ⟨hk, hids, hw, hc⟩) hn
  · exact hinv.2.2
  · intro l a b _ hab ha hb
    obtain ⟨h1, h2, h3, h4⟩ := ha (Nat.le_trans hab.advance.drawn hb)
    have hf := hfresh.mono hb
    exact ⟨hab.kept h1, hab.idsDrawn h2, hab.corresponds h1.intents h2 hf h3,
      hab.created h2 hf h4⟩
  · intro a b hab ha hb hr
    obtain ⟨h1, h2, h3, _⟩ := ha (Nat.le_trans hab.advance.drawn hr)
    obtain ⟨_, _, _, h4⟩ := hb hr
    refine ⟨h1, h2.restore hab.advance, h3, fun j hj => ⟨(h4 j hj).1, ?_⟩⟩
    intro i hi
    obtain ⟨i', hi', hcont⟩ := (hab.persists hfresh hr h2).2 _ _ hi
    rw [(h4 j hj).2 i' hi', hcont.request]

theorem Started.corresponds {balance : Money} {token : String}
    (h : Started host balance token w) :
    Corresponds host w.state ∧ Created host w := by
  obtain ⟨_, e, _, _, _, _, hnone, _, hs⟩ := h.state
  refine ⟨?_, fun j hj => ?_⟩
  · rw [hs]
    refine ⟨fun id i hi => (nomatch hi), fun x hx id hid => ?_,
      ⟨fun id a ha => (nomatch ha), fun id c hc => (nomatch hc)⟩⟩
    have hx' : x ∈ [e] := hx
    rw [List.mem_singleton.mp hx', hnone] at hid
    exact nomatch hid
  · rw [h.log] at hj
    exact nomatch hj

/-- **LEDGER AND STATE CORRESPOND**: in every reachable world with fresh ids,
    the state of an intent says exactly which ledger events carry its id;
    each has the final total the intent was created with; and the intent has
    a receipt, for that total and with its hash, exactly when it is settled
    or refunded. -/
theorem ledger_corresponds {token : String} {w0 : World} {cs : List Call}
    (hrun : TreasuryRun host token w0 cs w) (hfresh : FreshBelow host w.drawn)
    {id : String} {i : PurchaseIntent}
    (hi : w.state.intents.get? id = some i) :
    eventKinds i.state = some ((eventsOf w.state id).map LedgerEvent.kind)
      ∧ (∀ e ∈ eventsOf w.state id, e.amount = i.request.finalTotal)
      ∧ (∀ j, .stored j ∈ w.log → j.id = id →
          j.request.finalTotal = i.request.finalTotal)
      ∧ (i.receipt.isSome = true ↔ i.state = .settled ∨ i.state = .refunded)
      ∧ (∀ r, i.receipt = some r → r.amount = i.request.finalTotal
          ∧ i.receiptHash = some (receiptHash host r)) := by
  obtain ⟨balance, hs⟩ := hrun.balance
  obtain ⟨hcorr, hcreated⟩ := hrun.path.corresponds hfresh (Nat.le_refl _)
    hs.kept hs.idsDrawn hs.corresponds.1 hs.corresponds.2
  have hacc := hcorr.accounted _ _ hi
  have hid := hrun.kept.1.intents _ _ hi
  rw [← hid]
  refine ⟨hacc.kinds, hacc.amounts, fun j hj hjid => ?_, ?_, ?_⟩
  · rw [(hcreated j hj).2 i (by rw [hjid, hid]; exact hi)]
  · rcases hacc.receipt with ⟨hst, r, hr, _⟩ | ⟨hst, hr, _⟩
    · rw [hr]
      exact ⟨fun _ => hst, fun _ => rfl⟩
    · rw [hr]
      exact ⟨fun h => (nomatch h), fun h => absurd h (not_or.mpr hst)⟩
  · intro r hr
    rcases hacc.receipt with ⟨_, r', hr', hamount, _, hhash⟩ | ⟨_, hr', _⟩
    · rw [hr] at hr'
      obtain rfl := Option.some.inj hr'
      exact ⟨hamount, hhash⟩
    · rw [hr] at hr'
      exact nomatch hr'

/-- A purchase that is executed and settled. -/
theorem ledger_corresponds_settled :
    ∃ token w0 w i, TreasuryRun stillHost token w0
        (opening smallPurchase token
          ++ [.request agentToken
            (.executePurchaseIntent (firstIntent stillHost))]) w
      ∧ w.state.intents.get? (firstIntent stillHost) = some i
      ∧ i.state = .settled
      ∧ (eventsOf w.state (firstIntent stillHost)).map LedgerEvent.kind
        = [.holdReserved, .holdReleased, .spendingSettled]
      ∧ i.receipt.isSome = true := by
  have hrun : tryRun stillHost ⟨100000, "CAD"⟩
      (fun owner => opening smallPurchase owner ++ [.request agentToken
        (.executePurchaseIntent (firstIntent stillHost))])
      (fun w => decide (w.drawn ≤ 100)
        && (w.state.intents.get? (firstIntent stillHost)).any
          (fun i => decide (i.state = .settled))) = true := by
    decide +kernel
  obtain ⟨token, w0, w, hrun, hcheck⟩ := tryRun_run hrun
  obtain ⟨hdrawn, hsettled⟩ := Bool.and_eq_true_iff.mp hcheck
  obtain ⟨i, hi, hstate⟩ := (Option.any_eq_true _ _).mp hsettled
  obtain ⟨hkinds, _, _, hreceipt, _⟩ := ledger_corresponds hrun
    (plainHost_fresh (Nat.le_trans (of_decide_eq_true hdrawn) (by decide))) hi
  have hst : i.state = .settled := of_decide_eq_true hstate
  rw [hst] at hkinds
  exact ⟨token, w0, w, i, hrun, hi, hst, (Option.some.inj hkinds).symm,
    hreceipt.mpr (.inl hst)⟩

end Treasury
