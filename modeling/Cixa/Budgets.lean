import Cixa.Ceilings
import Cixa.RateWindow

/-! # Budgets — an agent's limits hold over whole runs

    The broker asks for an agent's limits at ONE moment, when the funds of an
    intent are reserved, and asks them of the sums at that moment.  What
    counts against a limit is what settled intents spent and what open ones
    hold.  No later change adds to it: settling turns a hold into spending of
    the same amount, and everything else gives back or leaves alone.  So as
    long as an agent's policy stays what it is, no limit is ever passed, in
    whatever order the agents and the owner act. -/

namespace Treasury

open CixaData CixaHost Outcome Checks Transition

variable {host : Host} {w w' v : World} {l : Label} {s s' : TreasuryState}
  {choose : PurchaseIntent → Bool} {times : Int → Bool} {c : Call}
  {A session : String}

/-! ## What counts -/

/-- Whether an event settles the spending of a chosen intent at a time that
    counts. -/
def settlesFor (choose : PurchaseIntent → Bool) (times : Int → Bool)
    (s : TreasuryState) (e : LedgerEvent) : Bool :=
  decide (e.kind = .spendingSettled) && times e.at
    && (e.intentId.bind s.intents.get?).any choose

/-- What counts against a limit: what the chosen intents spent at the times
    that count, and what they hold. -/
def counted (choose : PurchaseIntent → Bool) (times : Int → Bool)
    (s : TreasuryState) : Int :=
  amountOf (settlesFor choose times s) s.ledger + heldBy choose s

/-- At any time. -/
def ever : Int → Bool := fun _ => true

/-- Within a day before a time. -/
def lastDay (t : Int) : Int → Bool :=
  fun at_ => decide (at_ ≥ t - 24 * 60 * 60)

/-- An intent of an agent. -/
def ofAgent (A : String) (i : PurchaseIntent) : Bool := decide (i.agentId = A)

/-- An intent of an agent in one of its sessions. -/
def ofSession (A session : String) (i : PurchaseIntent) : Bool :=
  decide (i.agentId = A ∧ i.brokerSessionId = session)

/-- A choice that an intent keeps as it goes on. -/
def Enduring (choose : PurchaseIntent → Bool) : Prop :=
  ∀ i i', Continues i i' → choose i' = choose i

theorem ofAgent_enduring : Enduring (ofAgent A) := by
  intro i i' h
  unfold ofAgent
  rw [h.agentId]

theorem ofSession_enduring : Enduring (ofSession A session) := by
  intro i i' h
  unfold ofSession
  rw [h.agentId, h.brokerSessionId]

/-! ## Sums over events -/

theorem amountOf_congr {choose choose' : LedgerEvent → Bool}
    {events : List LedgerEvent} (h : ∀ e ∈ events, choose e = choose' e) :
    amountOf choose events = amountOf choose' events := by
  unfold amountOf
  congr 1
  refine List.map_congr_left fun e he => ?_
  rw [h e he]

/-- Choosing fewer of the events that weigh something gives no more. -/
theorem amountOf_le {choose choose' : LedgerEvent → Bool}
    {events : List LedgerEvent}
    (hsub : ∀ e ∈ events, choose e = true → choose' e = true)
    (hpos : ∀ e ∈ events, choose' e = true → 0 ≤ e.amount.minor) :
    amountOf choose events ≤ amountOf choose' events := by
  have hboth : amountOf choose events
      = amountOf (fun e => choose e && choose' e) events := by
    refine amountOf_congr fun e he => ?_
    cases hc : choose e with
    | false => rfl
    | true => rw [hsub e he hc, Bool.and_self]
  rw [hboth]
  exact amountOf_mono (fun e h => ((Bool.and_eq_true ..).mp h).2) hpos

/-! ## A change adds nothing, unless it reserves -/

/-- What an intent that goes on changes of the choices. -/
theorem settles_next {i i' : PurchaseIntent} (hend : Enduring choose)
    (hi : s.intents.get? i.id = some i) (hc : Continues i i')
    (hs : s'.intents = s.intents.insert i.id i') (e : LedgerEvent) :
    settlesFor choose times s' e = settlesFor choose times s e := by
  have hlookup : ∀ id, (s'.intents.get? id).any choose
      = (s.intents.get? id).any choose := by
    intro id
    rw [hs, SortedMap.get?_insert]
    split
    · rename_i heq
      rw [heq, hi]
      exact hend i i' hc
    · rfl
  unfold settlesFor
  cases hid : e.intentId with
  | none => rfl
  | some id => exact congrArg _ (hlookup id)

/-- The events of an intent that goes on spend no more than it gives back. -/
theorem Moved.counted_le {i i' : PurchaseIntent} {events : List LedgerEvent}
    (h : Moved host w w' i i' events) (hend : Enduring choose)
    (hpos : 0 < i.request.finalTotal.minor)
    (hs : s'.intents.get? i.id = some i') :
    amountOf (settlesFor choose times s') events + share choose i'
      ≤ share choose i := by
  have hchosen := hend i i' h.same
  have hspent : amountOf (settlesFor choose times s') events
      = amountOf (settlesFor choose times s') (settledPart events) := by
    refine (amountOf_filter (fun e he => ?_) events).symm
    unfold settlesFor at he
    rw [Bool.and_eq_true, Bool.and_eq_true] at he
    exact he.1.1
  rw [hspent]
  -- nothing is spent, or the hold of the intent is, and nothing more
  rcases h.spends with hnil | ⟨hres, hfree, e, hone, hamount⟩
  · rw [hnil, amountOf_nil, zero_add]
    by_cases hres : i'.state.isReserved = true
    · rw [share_of_reserved hres, share_of_reserved (h.held hres), hchosen,
        h.same.request]
    · rw [share_of_free (Bool.eq_false_iff.mpr hres)]
      exact share_nonneg choose hpos
  · have hmem : e ∈ events := by
      have hin : e ∈ settledPart events := hone ▸ List.mem_singleton_self e
      exact (List.mem_filter.mp hin).1
    have hlookup : (e.intentId.bind s'.intents.get?).any choose = choose i := by
      rw [(h.owned e hmem).1]
      show (s'.intents.get? i.id).any choose = _
      rw [hs]
      exact hchosen
    rw [hone, amountOf_cons, amountOf_nil, add_zero, share_of_free hfree,
      add_zero, share_of_reserved hres, hamount]
    unfold settlesFor
    rw [hlookup]
    cases choose i with
    | false =>
        rw [Bool.and_false]
    | true =>
        rw [if_pos rfl]
        split
        · exact le_refl _
        · exact le_of_lt hpos

theorem counted_same (hi : s'.intents = s.intents) (hl : s'.ledger = s.ledger) :
    counted choose times s' = counted choose times s := by
  have hsettles : settlesFor choose times s' = settlesFor choose times s := by
    funext e
    unfold settlesFor
    rw [hi]
  unfold counted
  rw [hsettles, hl, heldBy_same hi]

/-- A deposit settles nothing. -/
theorem counted_deposit {amount reinvested : Money} {verified : Bool}
    {events : List LedgerEvent}
    (he : DepositEvents host w w' amount reinvested verified events)
    (hi : s'.intents = s.intents) (hl : s'.ledger = s.ledger ++ events) :
    counted choose times s' = counted choose times s := by
  have hsettles : settlesFor choose times s' = settlesFor choose times s := by
    funext e
    unfold settlesFor
    rw [hi]
  have hnone : amountOf (settlesFor choose times s) events = 0 := by
    refine amountOf_eq_zero fun e hmem => ?_
    unfold settlesFor
    rw [he.unowned e hmem]
    exact Bool.and_false _
  unfold counted
  rw [hsettles, hl, amountOf_append, hnone, heldBy_same hi, add_zero]

/-- A new intent adds nothing: no event is about it yet. -/
theorem counted_new {i : PurchaseIntent} (hw : Counting host w)
    (hnone : w.state.intents.get? i.id = none)
    (hfree : i.state.isReserved = false)
    (hs : s'.intents = w.state.intents.insert i.id i)
    (hl : s'.ledger = w.state.ledger) :
    counted choose times s' = counted choose times w.state := by
  have hevents : amountOf (settlesFor choose times s') w.state.ledger
      = amountOf (settlesFor choose times w.state) w.state.ledger := by
    refine amountOf_congr fun e he => ?_
    unfold settlesFor
    cases hid : e.intentId with
    | none => rfl
    | some id =>
        have hne : id ≠ i.id := by
          rintro rfl
          obtain ⟨j, hj⟩ := hw.corresponds.known e he _ hid
          cases hnone.symm.trans hj
        have hget : s'.intents.get? id = w.state.intents.get? id := by
          rw [hs, SortedMap.get?_insert_of_ne _ _ hne]
        exact congrArg (fun o : Option PurchaseIntent => _ && o.any choose) hget
  have hheld : heldBy choose s' = heldBy choose w.state := by
    unfold heldBy
    rw [hs, SortedMap.sum_insert_of_none _ _ hnone, share_of_free hfree,
      add_zero]
  unfold counted
  rw [hl, hevents, hheld]

/-- **AN INTENT THAT GOES ON** adds nothing. -/
theorem counted_moved {i i' : PurchaseIntent} {events : List LedgerEvent}
    (hw : Counting host w) (hend : Enduring choose)
    (hi : w.state.intents.get? i.id = some i) (hm : Moved host w w' i i' events)
    (hs : s'.intents = w.state.intents.insert i.id i')
    (hl : s'.ledger = w.state.ledger ++ events) :
    counted choose times s' ≤ counted choose times w.state := by
  have hstored : s'.intents.get? i.id = some i' := by
    rw [hs]
    exact SortedMap.get?_insert_self _ _ _
  have hle : amountOf (settlesFor choose times s') events + share choose i'
      ≤ share choose i :=
    hm.counted_le hend (hw.sound.totals _ _ hi) hstored
  have hold : amountOf (settlesFor choose times s') w.state.ledger
      = amountOf (settlesFor choose times w.state) w.state.ledger :=
    amountOf_congr fun e _ => settles_next hend hi hm.same hs e
  unfold counted
  rw [hl, amountOf_append, heldBy_next choose hi hs, hold]
  omega

/-- **A CHANGE ADDS NOTHING** to what counts, unless it reserves an intent. -/
theorem Change.counted_le (h : Change host l w w') (hw : Counting host w)
    (hfresh : FreshBelow host w'.drawn) (hend : Enduring choose)
    (hno : ∀ id, l ≠ .reserve id) :
    counted choose times w'.state ≤ counted choose times w.state := by
  -- only a reservation adds to what is counted
  cases h with
  | quiet h => exact le_of_eq (by rw [h.state])
  | addIntent _ hn _ hs _ =>
      refine le_of_eq (counted_new hw (hn.unstored hw.drawn hfresh) ?_
        (by rw [hs]; rfl) (by rw [hs]; rfl))
      rw [hn.state]
      exact stateOfDecision_free _
  | reserve _ _ _ _ _ _ _ _ => exact absurd rfl (hno _)
  | @move _ _ i next t lastError _ hi hm _ hs _ =>
      have hsilent : Moved host w w' i { i with
          state := next, updatedAt := t, lastError := lastError } [] :=
        .silent ⟨rfl, rfl, rfl, rfl, rfl, rfl⟩ hm.held
      refine counted_moved hw hend hi hsilent (by rw [hs]; rfl) ?_
      rw [hs, List.append_nil]
      rfl
  | conclude _ hi hx hc _ hs _ =>
      exact counted_moved hw hend hi (hc.moved hx) (by rw [hs]; rfl)
        (by rw [hs]; rfl)
  | reconcile _ hi hr hp hs _ =>
      obtain ⟨_, _, heq⟩ := hp.fields
      exact counted_moved hw hend hi hr.moved (by rw [hs, heq]; rfl)
        (by rw [hs, heq]; rfl)
  | deposit _ _ _ hc he _ hs _ =>
      obtain ⟨_, _, heq⟩ := hc.fields
      refine le_of_eq (counted_deposit he ?_ ?_)
      · rw [hs, heq]
        rfl
      · rw [hs, heq]
        rfl
  | writeKey _ hs _ _ => exact le_of_eq (by rw [hs])
  | writeState _ hs _ _ _ => exact le_of_eq (by rw [hs])
  | submit _ hs _ _ _ => exact le_of_eq (by rw [hs])
  | _ =>
      rename_i hs _
      exact le_of_eq (counted_same
        ((congrArg TreasuryState.intents hs).trans rfl)
        ((congrArg TreasuryState.ledger hs).trans rfl))

/-- **A RESERVATION ADDS** the total of its intent, if it is chosen. -/
theorem Change.counted_reserve {id : String} (h : Change host (.reserve id) w w')
    (hend : Enduring choose) :
    ∃ i r p, w.state.intents.get? i.id = some i ∧ Reservable host w w' i r p
      ∧ ∀ times, counted choose times w'.state = counted choose times w.state
        + if choose i = true then i.request.finalTotal.minor else 0 := by
  generalize hl : Label.reserve id = l at h
  cases h with
  | @reserve _ _ i r p hold _ t _ hi hr hh _ _ hs _ =>
      refine ⟨i, r, p, hi, hr, fun times => ?_⟩
      have hc : Continues i { i with state := .executing, updatedAt := t } :=
        ⟨rfl, rfl, rfl, rfl, rfl, rfl⟩
      have hintents : w'.state.intents = w.state.intents.insert i.id
          { i with state := .executing, updatedAt := t } := by
        rw [hs]
        rfl
      have hledger : w'.state.ledger = w.state.ledger ++ [hold] := by
        rw [hs]
        rfl
      have hfree : i.state.isReserved = false := by
        rcases hr.executable with hst | hst <;> rw [hst] <;> rfl
      have hnone : amountOf (settlesFor choose times w'.state) [hold] = 0 := by
        refine amountOf_eq_zero fun e he => ?_
        rw [List.mem_singleton.mp he]
        unfold settlesFor
        rw [hh.kind]
        rfl
      have hold' : amountOf (settlesFor choose times w'.state) w.state.ledger
          = amountOf (settlesFor choose times w.state) w.state.ledger :=
        amountOf_congr fun e _ => settles_next hend hi hc hintents e
      have hshare : share choose { i with state := .executing, updatedAt := t }
          = if choose i = true then i.request.finalTotal.minor else 0 := by
        rw [share_of_reserved rfl, hend i _ hc]
      unfold counted
      rw [hledger, amountOf_append, hnone, hold', heldBy_next choose hi hintents,
        share_of_free hfree, hshare]
      omega
  | _ => exact nomatch hl

/-! ## Paths and calls -/

/-- The labels of changes that reserve nothing. -/
def Unreserving (l : Label) : Prop := ∀ id, l ≠ .reserve id

theorem permits_unreserving {actor : Actor} {request : Request}
    (h : permits actor request l) : Unreserving l := by
  rintro id rfl
  cases request <;> exact h

theorem saving_unreserving (h : Saving l) : Unreserving l := by
  rintro id rfl
  exact h

theorem recovering_unreserving (h : Recovering l) : Unreserving l := by
  rintro id rfl
  exact h

theorem after_unreserving {id : String} (h : AfterSubmit id l) :
    Unreserving l := by
  rintro _ rfl
  exact h

/-- **A PATH THAT RESERVES NOTHING** adds nothing. -/
theorem Path.counted_le {allowed : Label → Prop} (h : Path host allowed w w')
    (hl : ∀ l, allowed l → Unreserving l) (hfresh : FreshBelow host w'.drawn)
    (hw : Counting host w) (hend : Enduring choose) :
    counted choose times w'.state ≤ counted choose times w.state := by
  refine (h.invariant (I := fun v => v.drawn ≤ w'.drawn → Counting host v
    ∧ counted choose times v.state ≤ counted choose times w.state) ?_ ?_
    (fun _ => ⟨hw, le_refl _⟩) (le_refl _)).2
  · intro l a b hallowed hc ha hdrawn
    obtain ⟨ha, hle⟩ := ha (le_trans hc.advance.drawn hdrawn)
    have hf := hfresh.mono hdrawn
    exact ⟨hc.counting ha hf, le_trans
      (hc.counted_le ha hf hend (hl l hallowed)) hle⟩
  · intro a b hp ha _ hdrawn
    obtain ⟨⟨h1, h2, h3, h4⟩, hle⟩ := ha (le_trans hp.advance.drawn hdrawn)
    exact ⟨⟨h1, h2.restore hp.advance, h3, h4⟩, hle⟩

/-- What a call adds to what counts: nothing, or the total of an intent that
    it reserved in the state before it. -/
inductive Reserves (host : Host) (choose : PurchaseIntent → Bool)
    (w w' : World) : Prop where
  | nothing (hle : ∀ times,
      counted choose times w'.state ≤ counted choose times w.state)
  | reserved {i : PurchaseIntent} {r : AgentRecord} {p : Policy}
      (hi : w.state.intents.get? i.id = some i)
      (hr : Reservable host w w' i r p)
      (hle : ∀ times, counted choose times w'.state
        ≤ counted choose times w.state
          + if choose i = true then i.request.finalTotal.minor else 0)

theorem Attempt.reserves {durable : Prop} {id : String}
    (h : Attempt host durable id w w') (hw : Counting host w)
    (hfresh : FreshBelow host w'.drawn) (hend : Enduring choose) :
    Reserves host choose w w' := by
  cases h with
  | refused hp =>
      refine .nothing fun times => le_of_eq ?_
      rw [saving_state hp]
  | undone _ _ hw' =>
      refine .nothing fun times => le_of_eq ?_
      rw [hw']
      rfl
  | @finished b c d hr hp hs ha =>
      have hrest : Path host Unreserving b w' := by
        have hfirst := hp.mono fun l hl =>
          after_unreserving (before_after id l hl)
        have hlast := ha.mono fun l hl => after_unreserving hl
        rcases hs with rfl | ⟨hsub, _⟩
        · exact hfirst.trans hlast
        · have hsubmit : Unreserving (.submit id) := by
            rintro _ ⟨⟩
          exact (hfirst.tail hsubmit hsub).trans hlast
      obtain ⟨i, r, p, hi, hres, heq⟩ := hr.counted_reserve hend
      have hb := hr.counting hw (hfresh.mono hrest.advance.drawn)
      refine .reserved hi (hres.widen (.refl w) hrest.advance) fun times => ?_
      have hle : counted choose times w'.state ≤ counted choose times b.state :=
        hrest.counted_le (fun _ hl => hl) hfresh hb hend
      rw [heq times] at hle
      exact hle

/-- **ONE CALL** adds nothing, or what it reserved. -/
theorem exec_reserves (hw : Counting host w) (hfit : Fits w)
    (hfresh : FreshBelow host (exec host c w).drawn) (hend : Enduring choose) :
    Reserves host choose w (exec host c w) := by
  have hbehaves : Behaves host w (exec host c w) c :=
    exec_behaves (hw.kept.workable hfit) c
  generalize exec host c w = u at hbehaves hfresh
  cases hbehaves with
  | attempt _ h => exact h.reserves hw hfresh hend
  | recovery h =>
      exact .nothing fun times => h.path.counted_le
        (fun _ => recovering_unreserving) hfresh hw hend
  | ordinary _ _ h =>
      cases h with
      | refused hp =>
          exact .nothing fun times =>
            hp.counted_le (fun _ => saving_unreserving) hfresh hw hend
      | served _ hp =>
          refine .nothing fun times => hp.counted_le (fun l hl => ?_) hfresh hw
            hend
          exact hl.elim permits_unreserving saving_unreserving

/-! ## What the broker asks -/

theorem addIf_minor {cond : Prop} [Decidable cond] {total amount m : Money}
    (h : addIf cond total amount = .ok m) :
    m.minor = total.minor + if cond then amount.minor else 0 := by
  unfold addIf at h
  by_cases hc : cond
  · rw [if_pos hc] at h ⊢
    exact (checkedAdd_minor h).1
  · rw [if_neg hc] at h ⊢
    cases h
    exact (add_zero _).symm

/-- Whether an event is one that a usage counts. -/
def asked (currency A : String) (s : TreasuryState) (e : LedgerEvent) : Bool :=
  decide (e.amount.currency = currency ∧ eventBelongs s A e = true
    ∧ e.kind = .spendingSettled)

/-- What an event and what an intent adds to the sums of a usage. -/
theorem addEventUsage_step {currency : String} {t : Int}
    {b b' : BudgetUsage} {e : LedgerEvent}
    (h : addEventUsage s A session currency t b e = .ok b') :
      b'.lifetimeAmount.minor = b.lifetimeAmount.minor
        + (if asked currency A s e = true then e.amount.minor else 0)
      ∧ b'.rolling24hAmount.minor = b.rolling24hAmount.minor
        + (if (asked currency A s e && lastDay t e.at) = true
          then e.amount.minor else 0)
      ∧ b'.sessionAmount.minor = b.sessionAmount.minor
        + (if (asked currency A s e && eventInSession s session e) = true
          then e.amount.minor else 0) := by
  unfold addEventUsage at h
  by_cases hc : e.amount.currency = currency ∧ eventBelongs s A e = true
      ∧ e.kind = .spendingSettled
  · have hcounts : asked currency A s e = true := decide_eq_true hc
    rw [if_pos hc] at h
    simp only [bind_eq_ok, pure_eq_ok] at h
    obtain ⟨lifetime, h1, rolling, h2, total, h3, rfl⟩ := h
    rw [hcounts]
    refine ⟨(checkedAdd_minor h1).1, ?_, ?_⟩
    · refine (addIf_minor h2).trans ?_
      unfold lastDay
      simp only [Bool.true_and, decide_eq_true_eq]
    · simp only [addIf_minor h3, Bool.true_and]
  · have hcounts : asked currency A s e = false := decide_eq_false hc
    rw [if_neg hc, pure_eq_ok] at h
    subst h
    rw [hcounts]
    simp

theorem addIntentUsage_step {b b' : BudgetUsage} {i : PurchaseIntent}
    (h : addIntentUsage A session b i = .ok b') :
    b'.lifetimeAmount.minor = b.lifetimeAmount.minor + share (ofAgent A) i
      ∧ b'.rolling24hAmount.minor = b.rolling24hAmount.minor
        + share (ofAgent A) i
      ∧ b'.sessionAmount.minor = b.sessionAmount.minor
        + share (ofSession A session) i := by
  unfold addIntentUsage at h
  unfold share ofAgent ofSession
  by_cases hc : i.agentId = A ∧ i.state.isReserved = true
  · rw [if_pos hc] at h
    simp only [bind_eq_ok, pure_eq_ok] at h
    obtain ⟨reserved, _, lifetime, h1, rolling, h2, total, h3, rfl⟩ := h
    refine ⟨?_, ?_, ?_⟩
    · simp [hc, (checkedAdd_minor h1).1]
    · simp [hc, (checkedAdd_minor h2).1]
    · unfold addIf at h3
      split at h3
      · rename_i hsession
        simp [hc, hsession, (checkedAdd_minor h3).1]
      · rename_i hsession
        cases h3
        simp [hsession]
  · rw [if_neg hc, pure_eq_ok] at h
    subst h
    have hno : ∀ q : Prop,
        ¬((i.agentId = A ∧ q) ∧ i.state.isReserved = true) :=
      fun q hq => hc ⟨hq.1.1, hq.2⟩
    simp only [decide_eq_true_eq, hc, hno, if_false, add_zero, and_self]

/-- **WHAT A USAGE IS**: sums over the events and the intents of the agent. -/
theorem usageAt_sums {currency : String} {t : Int} {r : AgentRecord}
    {zero used : BudgetUsage} (hr : s.agents.get? A = some r)
    (hzero : BudgetUsage.zero currency = .ok zero)
    (h : usageAt s A currency t zero = .ok used) :
    used.lifetimeAmount.minor = amountOf (asked currency A s) s.ledger
        + heldBy (ofAgent A) s
      ∧ used.rolling24hAmount.minor
        = amountOf (fun e => asked currency A s e && lastDay t e.at) s.ledger
          + heldBy (ofAgent A) s
      ∧ used.sessionAmount.minor
        = amountOf (fun e => asked currency A s e
            && eventInSession s r.brokerSessionId e) s.ledger
          + heldBy (ofSession A r.brokerSessionId) s := by
  unfold BudgetUsage.zero Money.zero Money.new at hzero
  simp only [bind_eq_ok, pure_eq_ok] at hzero
  obtain ⟨_, ⟨_, _, rfl⟩, rfl⟩ := hzero
  unfold usageAt at h
  simp only [bind_eq_ok] at h
  obtain ⟨record, hrecord, events, hevents, hintents⟩ := h
  obtain rfl : r = record := by
    rw [agent_ok, hr] at hrecord
    exact Option.some.inj hrecord
  -- one argument for the three sums of the usage
  have hsum : ∀ {m : BudgetUsage → Int} {f : LedgerEvent → Int}
      {g : PurchaseIntent → Int},
      m ⟨⟨0, currency⟩, ⟨0, currency⟩, ⟨0, currency⟩, ⟨0, currency⟩,
        recentCount s A t⟩ = 0 →
      (∀ b e b', addEventUsage s A r.brokerSessionId currency t b e = .ok b' →
        m b' = m b + f e) →
      (∀ b i b', addIntentUsage A r.brokerSessionId b i = .ok b' →
        m b' = m b + g i) →
      m used = (s.ledger.map f).sum + (s.intents.values.map g).sum := by
    intro m f g hm hf hg
    have h1 := (CheckedFold.foldlM_sum (I := fun _ => True) (m := m) (f := f)
      (fun b e b' _ hb => ⟨trivial, hf b e b' hb⟩) trivial hevents).2
    have h2 := (CheckedFold.foldlM_sum (I := fun _ => True) (m := m) (f := g)
      (fun b i b' _ hb => ⟨trivial, hg b i b' hb⟩) trivial hintents).2
    rw [h2, h1, hm, zero_add]
  refine ⟨?_, ?_, ?_⟩
  · exact hsum (m := fun b => b.lifetimeAmount.minor) rfl
      (fun _ _ _ hb => (addEventUsage_step hb).1)
      (fun _ _ _ hb => (addIntentUsage_step hb).1)
  · exact hsum (m := fun b => b.rolling24hAmount.minor) rfl
      (fun _ _ _ hb => (addEventUsage_step hb).2.1)
      (fun _ _ _ hb => (addIntentUsage_step hb).2.1)
  · exact hsum (m := fun b => b.sessionAmount.minor) rfl
      (fun _ _ _ hb => (addEventUsage_step hb).2.2)
      (fun _ _ _ hb => (addIntentUsage_step hb).2.2)

/-- **SETTLED IN THE CURRENCY**: also what was refunded since. -/
theorem settled_currency {currency : String} (hw : Counting host w)
    (hd : Domestic currency w.state) {e : LedgerEvent} {i : PurchaseIntent}
    (he : e ∈ w.state.ledger) (hid : e.intentId = some i.id)
    (hi : w.state.intents.get? i.id = some i) (hk : e.kind = .spendingSettled) :
    e.amount.currency = currency := by
  have hacc := hw.corresponds.accounted _ _ hi
  have hmem : e ∈ eventsOf w.state i.id :=
    List.mem_filter.mpr ⟨he, decide_eq_true hid⟩
  have hkind : .spendingSettled ∈ (eventsOf w.state i.id).map LedgerEvent.kind :=
    List.mem_map.mpr ⟨e, hmem, hk⟩
  have hkinds := hacc.kinds
  rw [hacc.amounts e hmem]
  cases hst : i.state with
  | settled => exact hd.intents _ _ hi (Or.inr hst)
  | refunded =>
      rw [hst] at hkinds
      have hrefund : .refund ∈ (eventsOf w.state i.id).map LedgerEvent.kind := by
        rw [← Option.some.inj hkinds]
        decide
      obtain ⟨e', he', hk'⟩ := List.mem_map.mp hrefund
      rw [← hacc.amounts e' he']
      refine (hd.events e' (List.mem_filter.mp he').1).credits ?_
      rw [hk']
      decide
  | _ =>
      rw [hst] at hkinds
      first
        | cases hkinds
        | (rw [← Option.some.inj hkinds] at hkind
           exact absurd hkind (by decide))

/-- What a chosen intent spent is what a usage counts. -/
theorem spent_le_asked (A : String) (choose : PurchaseIntent → Bool)
    (times : Int → Bool) (extra : LedgerEvent → Bool) {currency : String}
    (hw : Counting host w) (hd : Domestic currency w.state)
    (hsub : ∀ e i, e.intentId.bind w.state.intents.get? = some i →
      choose i = true → times e.at = true →
        i.agentId = A ∧ extra e = true) :
    amountOf (settlesFor choose times w.state) w.state.ledger
      ≤ amountOf (fun e => asked currency A w.state e && extra e)
        w.state.ledger := by
  refine amountOf_le (fun e he hs => ?_) fun e he hs => ?_
  · unfold settlesFor at hs
    rw [Bool.and_eq_true, Bool.and_eq_true, decide_eq_true_eq] at hs
    obtain ⟨⟨hk, htimes⟩, hany⟩ := hs
    obtain ⟨i, hbind, hchosen⟩ := (Option.any_eq_true _ _).mp hany
    obtain ⟨hagent, hextra⟩ := hsub e i hbind hchosen htimes
    obtain ⟨id, hid, hget⟩ := Option.bind_eq_some_iff.mp hbind
    obtain rfl := hw.kept.intents _ _ hget
    have hbelongs : eventBelongs w.state A e = true := by
      unfold eventBelongs
      rw [hbind]
      exact decide_eq_true hagent
    rw [hextra, Bool.and_true]
    exact decide_eq_true ⟨settled_currency hw hd he hid hget hk, hbelongs, hk⟩
  · have hk := (of_decide_eq_true ((Bool.and_eq_true ..).mp hs).1).2.2
    refine (hd.events e he).amount ?_
    rw [hk]
    decide

/-- A later day counts no more of what was spent. -/
theorem counted_lastDay {currency : String} {t t' : Int}
    (hd : Domestic currency s) (hle : t ≤ t') :
    counted choose (lastDay t') s ≤ counted choose (lastDay t) s := by
  refine Int.add_le_add_right (amountOf_le (fun e _ hs => ?_) fun e he hs => ?_) _
  · unfold settlesFor lastDay at hs ⊢
    rw [Bool.and_eq_true, Bool.and_eq_true, decide_eq_true_eq,
      decide_eq_true_eq] at hs ⊢
    exact ⟨⟨hs.1.1, by omega⟩, hs.2⟩
  · unfold settlesFor at hs
    rw [Bool.and_eq_true, Bool.and_eq_true, decide_eq_true_eq] at hs
    refine (hd.events e he).amount ?_
    rw [hs.1.1]
    decide

/-- **WHAT IS RESERVED IS WITHIN THE LIMITS**, with all that counts before
    it. -/
theorem Reservable.within {currency : String} {i : PurchaseIntent}
    {r : AgentRecord} {p : Policy} (h : Reservable host w w' i r p)
    (hi : w.state.intents.get? i.id = some i) (hw : Counting host w)
    (hd : Domestic currency w.state) :
    counted (ofAgent i.agentId) ever w.state + i.request.finalTotal.minor
        ≤ min p.maxLifetime.minor p.absoluteExposureCeiling.minor
      ∧ counted (ofSession i.agentId i.brokerSessionId) ever w.state
        + i.request.finalTotal.minor ≤ p.maxPerSession.minor
      ∧ ∃ t, ReadIn host w w' t
        ∧ counted (ofAgent i.agentId) (lastDay t) w.state
          + i.request.finalTotal.minor ≤ p.maxRolling24h.minor := by
  obtain ⟨zero, used, t, ht, hzero, hused, hpassed⟩ := h.passed
  have hcur : p.primaryCurrency = currency :=
    hpassed.currency.symm.trans (h.domestic hi hw.sound hd)
  rw [hcur] at hzero hused
  obtain ⟨hlifetime, hrolling, hsession⟩ := usageAt_sums h.agent hzero hused
  have hlimits := hpassed.limits
  have hceiling := hpassed.ceiling
  refine ⟨?_, ?_, t, ht, ?_⟩
  -- what counts for the limit was asked by the agent, so the decision saw it
  · have hle := spent_le_asked i.agentId (ofAgent i.agentId) ever
      (fun _ => true) hw hd fun _ _ _ hc _ => ⟨of_decide_eq_true hc, rfl⟩
    have heta : (fun e => asked currency i.agentId w.state e && true)
        = asked currency i.agentId w.state := funext fun _ => Bool.and_true _
    rw [heta] at hle
    have hlife := hlimits.lifetime
    unfold counted
    refine le_min ?_ ?_
    · omega
    · omega
  · have hle := spent_le_asked i.agentId
      (ofSession i.agentId i.brokerSessionId) ever
      (eventInSession w.state r.brokerSessionId) hw hd fun e j hj hc _ => ?_
    · have hses := hlimits.session
      rw [← h.session] at hsession hle
      unfold counted
      omega
    · obtain ⟨hagent, hsame⟩ := of_decide_eq_true hc
      refine ⟨hagent, ?_⟩
      unfold eventInSession
      rw [hj]
      exact decide_eq_true (hsame.trans h.session)
  · have hle := spent_le_asked i.agentId (ofAgent i.agentId) (lastDay t)
      (fun e => lastDay t e.at) hw hd
      fun _ _ _ hc ht => ⟨of_decide_eq_true hc, ht⟩
    have hroll := hlimits.rolling
    unfold counted
    omega

/-! ## The limits -/

/-- **WITHIN THE BUDGET**: what counts against each limit of a policy is within
    the limit, or no more than it was at an earlier time. -/
structure WithinBudget (host : Host) (A : String) (p : Policy) (w v : World) :
    Prop where
  lifetime : counted (ofAgent A) ever v.state
    ≤ max (counted (ofAgent A) ever w.state)
      (min p.maxLifetime.minor p.absoluteExposureCeiling.minor)
  session : ∀ session, counted (ofSession A session) ever v.state
    ≤ max (counted (ofSession A session) ever w.state) p.maxPerSession.minor
  rolling : ∀ t, (∀ n, n < v.tick → host.clock n ≤ t) →
    counted (ofAgent A) (lastDay t) v.state
      ≤ max (counted (ofAgent A) (lastDay t) w.state) p.maxRolling24h.minor

/-- **ONE CALL** keeps within the budget. -/
theorem WithinBudget.call {currency : String} {p : Policy}
    (h : WithinBudget host A p w v) (hv : Counting host v) (hfit : Fits v)
    (hd : Domestic currency v.state)
    (hfresh : FreshBelow host (exec host c v).drawn)
    (hpolicy : PolicyIs A p v.state) :
    WithinBudget host A p w (exec host c v) := by
  have hadvance : Advance v (exec host c v) :=
    (exec_behaves (hv.kept.workable hfit) c).path.advance
  have hagent : Reserves host (ofAgent A) v (exec host c v) :=
    exec_reserves hv hfit hfresh ofAgent_enduring
  refine ⟨?_, fun session => ?_, fun t ht => ?_⟩
  · cases hagent with
    | nothing hle => exact le_trans (hle ever) h.lifetime
    | @reserved i r q hi hr hle =>
        refine le_trans (hle ever) ?_
        by_cases hc : ofAgent A i = true
        · rw [if_pos hc]
          obtain rfl : i.agentId = A := of_decide_eq_true hc
          obtain rfl := hpolicy r q hr.agent hr.policy
          exact le_trans (hr.within hi hv hd).1 (le_max_right _ _)
        · rw [if_neg hc, add_zero]
          exact h.lifetime
  · have hsession : Reserves host (ofSession A session) v (exec host c v) :=
      exec_reserves hv hfit hfresh ofSession_enduring
    cases hsession with
    | nothing hle => exact le_trans (hle ever) (h.session session)
    | @reserved i r q hi hr hle =>
        refine le_trans (hle ever) ?_
        by_cases hc : ofSession A session i = true
        · rw [if_pos hc]
          obtain ⟨rfl, rfl⟩ := of_decide_eq_true hc
          obtain rfl := hpolicy r q hr.agent hr.policy
          exact le_trans (hr.within hi hv hd).2.1 (le_max_right _ _)
        · rw [if_neg hc, add_zero]
          exact h.session session
  · have hbefore : ∀ n, n < v.tick → host.clock n ≤ t := fun n hn =>
      ht n (Nat.lt_of_lt_of_le hn hadvance.tick)
    cases hagent with
    | nothing hle => exact le_trans (hle _) (h.rolling t hbefore)
    | @reserved i r q hi hr hle =>
        refine le_trans (hle _) ?_
        by_cases hc : ofAgent A i = true
        · rw [if_pos hc]
          obtain rfl : i.agentId = A := of_decide_eq_true hc
          obtain rfl := hpolicy r q hr.agent hr.policy
          -- what was asked was asked for a day that ended no later
          obtain ⟨t0, ⟨n, _, hn, rfl⟩, hwithin⟩ := (hr.within hi hv hd).2.2
          have hlater : counted (ofAgent i.agentId) (lastDay t) v.state
              ≤ counted (ofAgent i.agentId) (lastDay (host.clock n)) v.state :=
            counted_lastDay hd (ht n hn)
          refine le_trans ?_ (le_max_right _ _)
          omega
        · rw [if_neg hc, add_zero]
          exact h.rolling t hbefore

/-- **BUDGETS HOLD**: through any calls along which an agent's policy stays
    what it is, what the agent's intents spent and hold stays within the
    lifetime limit and the exposure ceiling; what those of a session spent and
    hold, within the session limit; and what they hold and spent in the last
    day, at any time that no reading was after, within the rolling limit; or
    it is no more than it was when the policy came to be. -/
theorem budgets_hold {owner : String} {w0 : World} {ds cs : List Call}
    {p : Policy} (hrun : TreasuryRun host owner w0 ds w)
    (hcalls : Calls host w cs w') (hfresh : FreshBelow host w'.drawn)
    (hpolicy : Throughout (exec host) (fun _ v => PolicyIs A p v.state) w cs) :
    WithinBudget host A p w w' := by
  obtain ⟨balance, hs⟩ := hrun.balance
  obtain ⟨hkept, hfits⟩ := hrun.kept
  induction hcalls with
  | nil =>
      exact ⟨le_max_left _ _, fun _ => le_max_left _ _,
        fun _ _ => le_max_left _ _⟩
  | @snoc es u c hprev hfit ih =>
      obtain ⟨hbefore, hhere⟩ := (hprev.throughout_snoc c).mp hpolicy
      have hrunu : TreasuryRun host owner w0 (ds ++ es) u :=
        ⟨hrun.started, hrun.calls.append hprev⟩
      obtain ⟨hku, hfu⟩ := hrunu.kept
      -- the draws before this call are among those of the run
      have hdrawn : u.drawn ≤ (exec host c u).drawn :=
        (exec_behaves (hku.workable hfu) c).path.advance.drawn
      have hu := hfresh.mono hdrawn
      exact (ih hu hbefore).call (hrunu.path.counting hu hs.counting) hfu
        hrunu.domestic hfresh hhere

/-- The agent buys for the first time. -/
def buyFirst : Call :=
  .request agentToken (.executePurchaseIntent (firstIntent stillHost))

/-- What was bought counts, and is within the budget. -/
theorem budgets_hold_first : ∃ owner w0 w, ∃ p : Policy,
    TreasuryRun stillHost owner w0 (opening smallPurchase owner) w
      ∧ counted (ofAgent (firstAgent stillHost)) ever w.state = 0
      ∧ counted (ofAgent (firstAgent stillHost)) ever
        (exec stillHost buyFirst w).state = 1
      ∧ WithinBudget stillHost (firstAgent stillHost) p w
        (exec stillHost buyFirst w) := by
  have h : tryRun stillHost ⟨100000, "CAD"⟩ (opening smallPurchase) (fun w =>
      let v := exec stillHost buyFirst w
      decide (Fits v ∧ v.drawn ≤ 256 ^ 12
        ∧ counted (ofAgent (firstAgent stillHost)) ever w.state = 0
        ∧ counted (ofAgent (firstAgent stillHost)) ever v.state = 1
        ∧ ((w.state.agents.get? (firstAgent stillHost)).bind
          fun r => w.state.policies.get? r.policyId).isSome = true)) = true := by
    decide +kernel
  obtain ⟨owner, w0, w, hrun, hcheck⟩ := tryRun_run h
  obtain ⟨hfit, hdrawn, hbefore, hafter, hstored⟩ := of_decide_eq_true hcheck
  obtain ⟨p, hp⟩ := Option.isSome_iff_exists.mp hstored
  have hcalls : Calls stillHost w [buyFirst] (exec stillHost buyFirst w) :=
    .snoc _ .nil hfit
  have hpolicy : PolicyIs (firstAgent stillHost) p w.state := by
    intro r q hr hq
    rw [hr] at hp
    exact Option.some.inj (hq.symm.trans hp)
  exact ⟨owner, w0, w, p, hrun, hbefore, hafter, budgets_hold hrun hcalls
    (plainHost_fresh hdrawn) ⟨hpolicy, trivial⟩⟩

end Treasury
