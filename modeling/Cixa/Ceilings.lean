import Cixa.Income

/-! # Ceilings — what keeps the authority below an agent's ceiling

    There is ONE authority in each currency, and every agent's policy has a
    ceiling for it.  The ceiling is checked when the agent is created, when
    its policy is updated, and when a deposit is recorded for it; nothing
    checks it when another agent is given a deposit, or when a purchase is
    found declined or refunded.

    So a bound lasts exactly through the other calls: what is left of the
    authority never grows in them, because a settlement spends what was
    held, and an execution gives back at most what it has just taken. -/

namespace Treasury

open CixaData CixaHost Outcome Checks Transition

variable {host : Host} {w w' v : World} {l : Label} {s s' : TreasuryState}
  {currency : String} {id : String} {c : Call} {cs : List Call}

/-! ## What is left -/

/-- What is left of the authority in a currency. -/
def left (currency : String) (s : TreasuryState) : Int :=
  (authority currency s).left

theorem left_eq : left currency s = amountOf (isCredit currency) s.ledger
    - (amountOf (isSpending currency) s.ledger
      + heldBy (inCurrency currency) s) := rfl

theorem left_same (hi : s'.intents = s.intents) (hl : s'.ledger = s.ledger) :
    left currency s' = left currency s := by
  rw [left_eq, left_eq, hl, heldBy_same hi]

/-- **MOVING AN INTENT** gives back what it held, less what its events spend. -/
theorem left_next {i i' : PurchaseIntent} {events : List LedgerEvent}
    (hi : s.intents.get? i.id = some i)
    (hs : s'.intents = s.intents.insert i.id i')
    (hl : s'.ledger = s.ledger ++ events) :
    left currency s' = left currency s + amountOf (isCredit currency) events
      - amountOf (isSpending currency) events
      + share (inCurrency currency) i - share (inCurrency currency) i' := by
  rw [left_eq, left_eq, hl, heldBy_next _ hi hs, amountOf_append,
    amountOf_append]
  omega

/-- A new intent holds nothing. -/
theorem left_new {i : PurchaseIntent} (hnone : s.intents.get? i.id = none)
    (hfree : i.state.isReserved = false)
    (hs : s'.intents = s.intents.insert i.id i) (hl : s'.ledger = s.ledger) :
    left currency s' = left currency s := by
  have hheld : heldBy (inCurrency currency) s'
      = heldBy (inCurrency currency) s := by
    unfold heldBy
    rw [hs, SortedMap.sum_insert_of_none _ _ hnone, share_of_free hfree]
    omega
  rw [left_eq, left_eq, hl, hheld]

/-! ## Changes that give nothing -/

/-- The labels of changes after which no more is left than before. -/
def Lowering : Label → Prop
  | .conclude _ _ => False
  | .reconcile _ outcome => outcome = .settled
  | .deposit => False
  | _ => True

/-- What a world must have for a change to give nothing. -/
structure Counting (host : Host) (w : World) : Prop where
  kept : Kept w.state
  drawn : IdsDrawn host w
  corresponds : Corresponds host w.state
  sound : Sound w.state

/-- Events of a settlement spend the total that the intent held. -/
theorem Settling.spendsAll (currency : String) {i : PurchaseIntent}
    {events : List LedgerEvent} (h : Settling host w w' s i events) (hacc : Accounted host s i)
    (hu : isUncertain i.state = true) :
    amountOf (isCredit currency) events = 0
      ∧ amountOf (isSpending currency) events
        = share (inCurrency currency) i := by
  obtain ⟨hcarries, hkinds⟩ := h.held hacc (Or.inr hu)
  obtain ⟨e, rest, rfl, hkind, hrest⟩ := List.map_eq_cons_iff.mp hkinds
  obtain ⟨e', rest', rfl, hkind', hrest'⟩ := List.map_eq_cons_iff.mp hrest
  obtain rfl := List.map_eq_nil_iff.mp hrest'
  have hamount := (hcarries e' (by simp)).2
  rw [share_of_reserved (uncertain_reserved hu)]
  simp [isCredit, isSpending, inCurrency, hkind, hkind', hamount]

/-- An intent that moves keeps what it holds. -/
theorem movesTo.holds {i : PurchaseIntent} {next : TransactionState}
    (h : movesTo i next) (hi : i.state.isReserved = true) :
    next.isReserved = true := by
  rcases h with ⟨hcan, rfl | rfl | rfl⟩ | ⟨_, rfl⟩
  · cases hs : i.state <;>
      simp_all [TransactionState.canTransition, TransactionState.isReserved]
  · cases hs : i.state <;>
      simp_all [TransactionState.canTransition, TransactionState.isReserved]
  · rfl
  · rfl

theorem share_move {choose : PurchaseIntent → Bool} {i i' : PurchaseIntent}
    (hchoose : choose i' = choose i) (hreq : i'.request = i.request)
    (hheld : i.state.isReserved = i'.state.isReserved) :
    share choose i' = share choose i := by
  unfold share
  rw [hchoose, hreq, hheld]

/-- **MOVING KEEPS** what is left. -/
theorem left_move {i i' : PurchaseIntent} (hi : s.intents.get? i.id = some i)
    (hs : s' = s.withIntent i.id i') (hm : movesTo i i'.state)
    (hreq : i'.request = i.request) : left currency s' = left currency s := by
  subst hs
  have hshare : share (inCurrency currency) i' = share (inCurrency currency) i := by
    refine share_move ?_ hreq (Bool.eq_iff_iff.mpr ⟨hm.holds, hm.held⟩)
    unfold inCurrency
    rw [hreq]
  have hledger : (s.withIntent i.id i').ledger = s.ledger ++ [] :=
    (List.append_nil _).symm
  rw [left_next hi rfl hledger, hshare, amountOf_nil, amountOf_nil]
  omega

/-- **RESERVING TAKES** the total of the intent. -/
theorem left_reserve {i i' : PurchaseIntent} {r : AgentRecord} {p : Policy}
    {hold : LedgerEvent} (hi : w.state.intents.get? i.id = some i)
    (hr : Reservable host w w' i r p)
    (hh : EventIn host w w' .holdReserved i.request.finalTotal (some i.id) hold)
    (hs : s'.intents = w.state.intents.insert i.id i')
    (hl : s'.ledger = w.state.ledger ++ [hold]) :
    left currency s'
      = left currency w.state - share (inCurrency currency) i' := by
  have hfree : i.state.isReserved = false := by
    rcases hr.executable with hst | hst <;> rw [hst] <;> rfl
  have hnone : amountOf (isCredit currency) [hold] = 0
      ∧ amountOf (isSpending currency) [hold] = 0 := by
    simp [isCredit, isSpending, hh.kind]
  rw [left_next hi hs hl, hnone.1, hnone.2, share_of_free hfree]
  omega

/-- **CHANGES THAT GIVE NOTHING**: no more is left after them. -/
theorem Change.lowers (h : Change host l w w') (hl : Lowering l)
    (hw : Counting host w) (hfresh : FreshBelow host w'.drawn) :
    left currency w'.state ≤ left currency w.state := by
  cases h with
  | quiet h => exact le_of_eq (by rw [h.state])
  | addIntent _ hn _ hs _ =>
      refine le_of_eq (left_new (hn.unstored hw.drawn hfresh) ?_
        (by rw [hs]; rfl) (by rw [hs]; rfl))
      rw [hn.state]
      exact stateOfDecision_free _
  | reserve _ hi hr hh _ _ hs _ =>
      rw [left_reserve hi hr hh (by rw [hs]; rfl) (by rw [hs]; rfl)]
      have htotal := hw.sound.totals _ _ hi
      exact sub_le_self _ (share_nonneg _ htotal)
  | move _ hi hm _ hs _ => exact le_of_eq (left_move hi hs hm rfl)
  | conclude _ _ _ _ _ _ _ => exact hl.elim
  | @reconcile _ _ i i' outcome s events _ hi hr hp hs _ =>
      obtain rfl : outcome = .settled := hl
      obtain ⟨_, _, heq⟩ := hp.fields
      cases hr with
      | settled hu hi' he =>
          obtain ⟨hcredit, hspend⟩ := he.spendsAll currency
            (hw.corresponds.accounted _ _ hi) hu
          have hfree : i'.state.isReserved = false := by
            rw [hi'.continues.2]
            rfl
          rw [left_next hi (by rw [hs, heq]; rfl) (by rw [hs, heq]; rfl),
            hcredit, hspend, share_of_free hfree]
          omega
  | deposit _ _ _ _ _ _ _ _ => exact hl.elim
  | writeKey _ hs _ _ => exact le_of_eq (by rw [hs])
  | writeState _ hs _ _ _ => exact le_of_eq (by rw [hs])
  | submit _ hs _ _ _ => exact le_of_eq (by rw [hs])
  | _ =>
      rename_i hs _
      exact le_of_eq (left_same ((congrArg TreasuryState.intents hs).trans rfl)
        ((congrArg TreasuryState.ledger hs).trans rfl))

/-! ## Executions -/

/-- What an intent holds while it is executing. -/
def due (currency id : String) (s : TreasuryState) : Int :=
  match s.intents.get? id with
  | some i => if i.state = .executing then share (inCurrency currency) i else 0
  | none => 0

theorem due_stored {i : PurchaseIntent} (hi : s.intents.get? id = some i) :
    due currency id s
      = if i.state = .executing then share (inCurrency currency) i else 0 := by
  unfold due
  rw [hi]

theorem due_same (hi : s'.intents = s.intents) :
    due currency id s' = due currency id s := by
  unfold due
  rw [hi]

theorem due_nonneg (currency id : String) (hs : Sound s) : 0 ≤ due currency id s := by
  unfold due
  split
  · rename_i i hi
    split
    · exact share_nonneg _ (hs.totals _ _ hi)
    · exact le_refl 0
  · exact le_refl 0

theorem Moved.spending_nonneg (currency : String) {i i' : PurchaseIntent}
    {events : List LedgerEvent} (h : Moved host w w' i i' events)
    (hpos : 0 < i.request.finalTotal.minor) :
    0 ≤ amountOf (isSpending currency) events := by
  rw [← amountOf_settledPart]
  rcases h.spends with hnil | ⟨_, _, e, hone, hamount⟩
  · rw [hnil, amountOf_nil]
  · refine amountOf_nonneg fun e' he' _ => ?_
    rw [hone] at he'
    rw [List.mem_singleton.mp he', hamount]
    omega

/-- A provider outcome refunds nothing. -/
theorem Concluded.noCredit {i i' : PurchaseIntent} {next : TransactionState}
    {events : List LedgerEvent} (h : Concluded host w w' s i next i' events) :
    amountOf (isCredit currency) events = 0 := by
  refine amountOf_eq_zero fun e he => ?_
  have hkind : e.kind = .spendingSettled ∨ e.kind = .holdReleased := by
    cases h with
    | settled _ hset => exact (hset.spends.1 e he).2
    | declined _ hd =>
        rw [List.mem_singleton.mp he]
        exact Or.inr hd.kind
    | pending _ => exact nomatch he
    | unknown _ => exact nomatch he
  unfold isCredit
  rcases hkind with hk | hk <;> simp [hk]

/-- **AFTER A RESERVATION** nothing gives more than the intent still holds. -/
theorem Change.dues (h : Change host l w w') (hl : AfterSubmit id l)
    (hw : Sound w.state) : left currency w'.state + due currency id w'.state
      ≤ left currency w.state + due currency id w.state := by
  have hsame : w'.state.intents = w.state.intents →
      w'.state.ledger = w.state.ledger →
      left currency w'.state + due currency id w'.state
        ≤ left currency w.state + due currency id w.state := by
    intro hi hledger
    rw [left_same hi hledger, due_same hi]
  -- only the intent that was submitted moves, and what it frees was due
  cases h with
  | quiet h => exact hsame (by rw [h.state]) (by rw [h.state])
  | audit _ _ hs _ => exact hsame (by rw [hs]; rfl) (by rw [hs]; rfl)
  | authorize _ _ _ _ _ hs _ _ => exact hsame (by rw [hs]) (by rw [hs])
  | writeKey _ hs _ _ => exact hsame (by rw [hs]) (by rw [hs])
  | writeState _ hs _ _ _ => exact hsame (by rw [hs]) (by rw [hs])
  | @move _ _ i next t lastError _ hi hm _ hs _ =>
      obtain ⟨rfl, rfl⟩ := hl
      have hdue : due currency i.id w'.state = 0 := by
        rw [hs, due_stored (SortedMap.get?_insert_self _ _ _)]
        exact if_neg nofun
      have hnonneg := due_nonneg currency i.id hw
      rw [hdue, left_move hi hs hm rfl]
      omega
  | @conclude _ _ i i' next events e _ hi hx hc _ hs _ =>
      obtain rfl : i.id = id := hl
      have hpos := hw.totals _ _ hi
      have hdue : due currency i.id w.state = share (inCurrency currency) i := by
        rw [due_stored hi, if_pos hx]
      have hdone : due currency i.id w'.state = 0 := by
        have hget : w'.state.intents.get? i.id = some i' := by
          rw [hs]
          exact SortedMap.get?_insert_self _ _ _
        rw [due_stored hget, if_neg hc.continues.2]
      have hspend := (hc.moved hx).spending_nonneg currency hpos
      have hshare := share_nonneg (inCurrency currency)
        (hc.continues.1.request ▸ hpos)
      rw [hdue, hdone, left_next hi (by rw [hs]; rfl) (by rw [hs]; rfl),
        hc.noCredit]
      omega
  | _ => exact hl.elim

/-- What was left before a reservation is left or due after it. -/
theorem Change.taken {b : World} (h : Change host (.reserve id) w b)
    (currency : String) : left currency b.state + due currency id b.state
      = left currency w.state := by
  generalize hl : Label.reserve id = l at h
  cases h with
  | reserve _ hi hr hh _ _ hs _ =>
      cases hl
      rw [left_reserve hi hr hh (by rw [hs]; rfl) (by rw [hs]; rfl), hs,
        due_stored (SortedMap.get?_insert_self _ _ _), if_pos rfl]
      omega
  | _ => exact nomatch hl

/-- **AN ATTEMPT** to execute an intent leaves no more than there was. -/
theorem Attempt.lowers {durable : Prop} (h : Attempt host durable id w w')
    (hw : Sound w.state) (currency : String) :
    left currency w'.state ≤ left currency w.state := by
  have hafter : ∀ {a b}, Path host (AfterSubmit id) a b → Sound a.state →
      Sound b.state ∧ left currency b.state + due currency id b.state
        ≤ left currency a.state + due currency id a.state := by
    intro a b hp ha
    refine hp.invariant (I := fun v => Sound v.state
      ∧ left currency v.state + due currency id v.state
        ≤ left currency a.state + due currency id a.state) ?_
      (fun _ _ _ hv _ => hv) ⟨ha, le_refl _⟩
    rintro l u v hl hc ⟨hu, hle⟩
    exact ⟨hc.sound hu, le_trans (hc.dues hl hu) hle⟩
  cases h with
  | refused hp => rw [saving_state hp]
  | undone _ _ hw' =>
      rw [hw']
      exact le_refl _
  | @finished b c d hr hp hs ha =>
      have hreserved := hr.sound hw
      obtain ⟨hc, hle⟩ := hafter (hp.mono (before_after id)) hreserved
      have hsame : d.state = c.state := by
        rcases hs with rfl | ⟨hsub, _⟩
        · rfl
        · exact hsub.submitted_state
      rw [← hsame] at hc hle
      obtain ⟨hlast, hend⟩ := hafter ha hc
      have hdue := due_nonneg currency id hlast
      have htaken := hr.taken currency
      omega

/-! ## Ceilings -/

/-- **BOUNDED**: what is left is within the ceiling of an agent's policy. -/
def Bounded (id : String) (s : TreasuryState) : Prop :=
  ∀ r p, s.agents.get? id = some r → s.policies.get? r.policyId = some p →
    left p.primaryCurrency s ≤ p.absoluteExposureCeiling.minor

instance (id : String) (s : TreasuryState) : Decidable (Bounded id s) :=
  match hr : s.agents.get? id with
  | none => .isTrue fun _ _ h => nomatch hr.symm.trans h
  | some r =>
      match hp : s.policies.get? r.policyId with
      | none => .isTrue fun _ _ h hget => by
          rw [hr] at h
          obtain rfl := Option.some.inj h
          exact nomatch hp.symm.trans hget
      | some p =>
          decidable_of_iff
            (left p.primaryCurrency s ≤ p.absoluteExposureCeiling.minor)
            ⟨fun hle r' p' h hget => by
              rw [hr] at h
              obtain rfl := Option.some.inj h
              rw [hp] at hget
              obtain rfl := Option.some.inj hget
              exact hle, fun hb => hb r p hr hp⟩

/-- The check of a ceiling. -/
theorem validatePolicyExposure_ok {p : Policy} :
    validatePolicyExposure s p = .ok () ↔ ∃ b,
      ledgerSnapshot s p.primaryCurrency = .ok b
        ∧ left p.primaryCurrency s ≤ p.absoluteExposureCeiling.minor := by
  unfold validatePolicyExposure
  simp only [bind_eq_ok, refuseIf_eq_ok, gt_iff_lt, not_lt]
  constructor
  · rintro ⟨b, hb, hle⟩
    rw [ledgerSnapshot_available hb] at hle
    exact ⟨b, hb, hle⟩
  · rintro ⟨b, hb, hle⟩
    refine ⟨b, hb, ?_⟩
    rw [ledgerSnapshot_available hb]
    exact hle

theorem Bounded.lower (h : Bounded id s)
    (hl : ∀ currency, left currency s' ≤ left currency s)
    (ha : s'.agents = s.agents) (hp : s'.policies = s.policies) :
    Bounded id s' := by
  intro r p hr hget
  rw [ha] at hr
  rw [hp] at hget
  exact le_trans (hl _) (h r p hr hget)

/-- A policy is stored with its ceiling checked. -/
theorem Change.exposed (h : Change host l w w') :
    w'.state.policies = w.state.policies ∨ ∃ p,
      validatePolicyExposure w.state p = .ok ()
        ∧ w'.state.policies = w.state.policies.insert p.id p := by
  cases h with
  | setPolicy _ _ _ _ _ hx hs _ =>
      obtain ⟨q, hq, heq⟩ := hx
      refine Or.inr ⟨_, ?_, by rw [hs]; rfl⟩
      rw [heq]
      exact hq
  | addAgent _ _ hn hs _ => exact Or.inr ⟨_, hn.exposure, by rw [hs]; rfl⟩
  | quiet h => exact Or.inl (by rw [h.state])
  | reconcile _ _ _ hp hs _ =>
      obtain ⟨_, _, heq⟩ := hp.fields
      exact Or.inl (by rw [hs, heq]; rfl)
  | deposit _ _ _ hc _ _ hs _ =>
      obtain ⟨_, _, heq⟩ := hc.fields
      exact Or.inl (by rw [hs, heq]; rfl)
  | writeKey _ hs _ _ => exact Or.inl (by rw [hs])
  | writeState _ hs _ _ _ => exact Or.inl (by rw [hs])
  | submit _ hs _ _ _ => exact Or.inl (by rw [hs])
  | _ =>
      rename_i hs _
      exact Or.inl ((congrArg TreasuryState.policies hs).trans rfl)

/-- An agent has the policy it had, or a new one with its ceiling checked. -/
theorem Change.agentPolicy (h : Change host l w w') {r : AgentRecord}
    (hr : w'.state.agents.get? id = some r) :
    (∃ old, w.state.agents.get? id = some old ∧ r.policyId = old.policyId)
      ∨ ∃ p, validatePolicyExposure w.state p = .ok ()
        ∧ w'.state.policies.get? r.policyId = some p := by
  rcases h.agents with hs | ⟨id', token, p, r', rfl, hid, hn, hs⟩
    | ⟨id', edit, old, r', _, hget, he, hs⟩
  · exact Or.inl ⟨r, hs ▸ hr, rfl⟩
  · cases h with
    | addAgent _ hid' hn' hs' _ =>
        rw [hs'] at hr ⊢
        have hr' : (w.state.agents.insert id' _).get? id = some r := hr
        rw [SortedMap.get?_insert] at hr'
        split at hr'
        · obtain rfl := Option.some.inj hr'
          refine Or.inr ⟨_, hn'.exposure, ?_⟩
          rw [hn'.policyOf]
          exact SortedMap.get?_insert_self _ _ _
        · exact Or.inl ⟨r, hr', rfl⟩
  · rw [hs, SortedMap.get?_insert] at hr
    split at hr
    · rename_i hsame
      obtain rfl := Option.some.inj hr
      exact Or.inl ⟨old, hsame ▸ hget, he.fixed.2.1⟩
    · exact Or.inl ⟨r, hr, rfl⟩

/-- **CEILINGS HOLD** through every change that leaves no more. -/
theorem Change.bounded (h : Change host l w w')
    (hl : ∀ currency, left currency w'.state ≤ left currency w.state)
    (hb : Bounded id w.state) : Bounded id w'.state := by
  have hchecked : ∀ p, validatePolicyExposure w.state p = .ok () →
      left p.primaryCurrency w'.state ≤ p.absoluteExposureCeiling.minor := by
    intro p hp
    obtain ⟨_, _, hle⟩ := validatePolicyExposure_ok.mp hp
    exact le_trans (hl _) hle
  intro r p hr hp
  rcases h.agentPolicy hr with ⟨old, hold, hpolicy⟩ | ⟨q, hq, hget⟩
  · rcases h.exposed with hs | ⟨q, hq, hs⟩
    · rw [hs, hpolicy] at hp
      exact le_trans (hl _) (hb old p hold hp)
    · rw [hs, SortedMap.get?_insert] at hp
      split at hp
      · obtain rfl := Option.some.inj hp
        exact hchecked _ hq
      · rw [hpolicy] at hp
        exact le_trans (hl _) (hb old p hold hp)
  · rw [hget] at hp
    obtain rfl := Option.some.inj hp
    exact hchecked _ hq

/-! ## Paths -/

theorem Change.counting (h : Change host l w w') (hw : Counting host w)
    (hfresh : FreshBelow host w'.drawn) : Counting host w' :=
  ⟨h.kept hw.kept, h.idsDrawn hw.drawn,
    h.corresponds hw.kept.intents hw.drawn hfresh hw.corresponds,
    h.sound hw.sound⟩

theorem Path.counting {allowed : Label → Prop} (h : Path host allowed w w')
    (hfresh : FreshBelow host w'.drawn) (hw : Counting host w) :
    Counting host w' := by
  refine h.invariant (I := fun v => v.drawn ≤ w'.drawn → Counting host v)
    ?_ ?_ (fun _ => hw) (le_refl _)
  · intro l a b _ hc ha hb
    exact hc.counting (ha (le_trans hc.advance.drawn hb)) (hfresh.mono hb)
  · intro a b hp ha _ hb
    obtain ⟨h1, h2, h3, h4⟩ := ha (le_trans hp.advance.drawn hb)
    exact ⟨h1, h2.restore hp.advance, h3, h4⟩

/-- A path of changes that leave no more keeps to the ceilings. -/
theorem Path.bounded {allowed : Label → Prop} (h : Path host allowed w w')
    (hl : ∀ l, allowed l → Lowering l) (hfresh : FreshBelow host w'.drawn)
    (hw : Counting host w) (hb : Bounded id w.state) : Bounded id w'.state := by
  refine (h.invariant (I := fun v => v.drawn ≤ w'.drawn →
    Counting host v ∧ Bounded id v.state) ?_ ?_ (fun _ => ⟨hw, hb⟩)
    (le_refl _)).2
  · intro l a b hallowed hc ha hdrawn
    obtain ⟨ha, hbound⟩ := ha (le_trans hc.advance.drawn hdrawn)
    have hf := hfresh.mono hdrawn
    exact ⟨hc.counting ha hf,
      hc.bounded (fun _ => hc.lowers (hl l hallowed) ha hf) hbound⟩
  · intro a b hp ha _ hdrawn
    obtain ⟨⟨h1, h2, h3, h4⟩, hbound⟩ := ha (le_trans hp.advance.drawn hdrawn)
    exact ⟨⟨h1, h2.restore hp.advance, h3, h4⟩, hbound⟩

/-- Executing leaves agents and policies alone. -/
theorem Attempt.governs {durable : Prop} {id : String}
    (h : Attempt host durable id w w') : w'.state.agents = w.state.agents
      ∧ w'.state.policies = w.state.policies := by
  refine h.path.invariant (I := fun v => v.state.agents = w.state.agents
    ∧ v.state.policies = w.state.policies) ?_ (fun _ _ _ hv _ => hv) ⟨rfl, rfl⟩
  rintro l a b hl hc ⟨ha, hp⟩
  constructor
  · rcases hc.agents with hs | ⟨_, _, _, _, rfl, _⟩ | ⟨_, _, _, _, rfl, _⟩
    · exact hs.trans ha
    · exact absurd hl (by rintro (h | h) <;> exact h)
    · exact absurd hl (by rintro (h | h) <;> exact h)
  · rcases hc.policies with hs | ⟨_, _, _, _, rfl, _⟩ | ⟨_, _, _, rfl, _⟩
    · exact hs.trans hp
    · exact absurd hl (by rintro (h | h) <;> exact h)
    · exact absurd hl (by rintro (h | h) <;> exact h)

/-! ## Calls -/

/-- The requests that can leave more than an agent's ceiling: a reconciliation
    that is not a settlement, and a verified deposit for another agent. -/
def raises (id : String) : Request → Bool
  | .ownerReconcile _ outcome _ => decide (outcome ≠ .settled)
  | .ownerRecordDeposit _ _ verified agentId _ =>
      verified && decide (agentId ≠ some id)
  | _ => false

/-- A call with a request that raises. -/
def Raises (id : String) (c : Call) : Prop :=
  ∃ token request, c.asks = some (token, request) ∧ raises id request = true

/-- A request to record a deposit. -/
def isDeposit : Request → Bool
  | .ownerRecordDeposit .. => true
  | _ => false

theorem permits_lowering {actor : Actor} {request : Request}
    (hdeposit : isDeposit request = false) (hno : raises id request = false)
    (h : permits actor request l) : Lowering l := by
  cases l with
  | conclude _ _ => cases request <;> exact h
  | deposit =>
      cases request with
      | ownerRecordDeposit _ _ _ _ _ => exact nomatch hdeposit
      | _ => exact h
  | reconcile _ outcome =>
      cases request with
      | ownerReconcile _ asked _ =>
          obtain ⟨_, _, rfl⟩ := h
          have hsettled : ¬outcome ≠ .settled := of_decide_eq_false hno
          exact not_not.mp hsettled
      | _ => exact h.elim
  | _ => trivial

theorem saving_lowering (h : Saving l) : Lowering l := by
  cases l with
  | quiet => trivial
  | write => trivial
  | _ => exact False.elim h

theorem recovering_lowering (h : Recovering l) : Lowering l := by
  cases l with
  | conclude _ _ => exact h
  | reconcile _ _ => exact False.elim h
  | deposit => exact h
  | _ => trivial

/-- **A DEPOSIT FOR AN AGENT** was checked against its ceiling. -/
theorem Recorded.ceiling {amount : Money} {reference : String}
    (h : Recorded host amount true (some id) reference w v) :
    Bounded id v.state := by
  obtain ⟨reinvested, hshare, hsums⟩ := h.sums
  obtain ⟨_, r, p, _, _, b, total, hid, hr, hp, hcur, _, _, _, hscaled, hsnap,
    hadd, hle⟩ := depositShare_verified.mp hshare
  obtain rfl := Option.some.inj hid
  obtain ⟨_, s, _, _, _, hc, _, hs⟩ := h.made
  obtain ⟨_, _, heq⟩ := hc.fields
  have hagents : v.state.agents = w.state.agents := by
    rw [hs, heq]
    rfl
  have hpolicies : v.state.policies = w.state.policies := by
    rw [hs, heq]
    rfl
  intro r' p' hr' hp'
  rw [hagents, hr] at hr'
  obtain rfl := Option.some.inj hr'
  rw [hpolicies, hp] at hp'
  obtain rfl := Option.some.inj hp'
  obtain ⟨_, _, hgranted, hspent, hheld⟩ := hsums p.primaryCurrency
  have hin : amountIn p.primaryCurrency reinvested = reinvested.minor := by
    obtain ⟨hsame, _⟩ := depositShare_share hshare h.positive
    unfold amountIn
    rw [hsame, if_pos hcur]
  rw [hin] at hgranted
  rw [(checkedAdd_minor hadd).1, ledgerSnapshot_available hsnap] at hle
  show (authority p.primaryCurrency v.state).granted
    - ((authority p.primaryCurrency v.state).spent
      + (authority p.primaryCurrency v.state).held) ≤ _
  rw [hgranted, hspent, hheld]
  omega

/-- An unverified deposit leaves as much as before. -/
theorem Recorded.unverified {amount : Money} {agentId : Option String}
    {reference : String}
    (h : Recorded host amount false agentId reference w v)
    (hb : Bounded id w.state) : Bounded id v.state := by
  obtain ⟨reinvested, hshare, hsums⟩ := h.sums
  obtain ⟨_, s, _, _, _, hc, _, hs⟩ := h.made
  obtain ⟨_, _, heq⟩ := hc.fields
  have hzero := (depositShare_share hshare h.positive).2.2.2 rfl
  refine hb.lower (fun currency => ?_) (by rw [hs, heq]; rfl)
    (by rw [hs, heq]; rfl)
  obtain ⟨_, _, hgranted, hspent, hheld⟩ := hsums currency
  have hin : amountIn currency reinvested = 0 := by
    unfold amountIn
    rw [hzero, ite_self]
  rw [hin, add_zero] at hgranted
  show (authority currency v.state).granted
    - ((authority currency v.state).spent + (authority currency v.state).held)
    ≤ _
  rw [hgranted, hspent, hheld]
  exact le_refl _

/-- **ONE CALL** that cannot raise keeps to the ceiling of an agent. -/
theorem exec_bounded (hw : Counting host w) (hfit : Fits w)
    (hfresh : FreshBelow host (exec host c w).drawn) (hno : ¬Raises id c)
    (hb : Bounded id w.state) : Bounded id (exec host c w).state := by
  have hbehaves : Behaves host w (exec host c w) c :=
    exec_behaves (hw.kept.workable hfit) c
  generalize hend : exec host c w = u at hbehaves hfresh
  cases hbehaves with
  | attempt _ h =>
      obtain ⟨ha, hp⟩ := h.governs
      exact hb.lower (fun currency => h.lowers hw.sound currency) ha hp
  | recovery h =>
      exact h.path.bounded (fun _ => recovering_lowering) hfresh hw hb
  | @ordinary _ token request hasks _ h =>
      have hraises : raises id request = false :=
        Bool.eq_false_iff.mpr fun h => hno ⟨token, request, hasks, h⟩
      -- of such calls only a deposit adds authority, and it is compared with
      -- the ceiling
      cases hdeposit : isDeposit request with
      | false =>
          cases h with
          | refused hp => exact hp.bounded (fun _ => saving_lowering) hfresh hw hb
          | served _ hp =>
              refine hp.bounded (fun l hl => ?_) hfresh hw hb
              rcases hl with hl | hl
              · exact permits_lowering hdeposit hraises hl
              · exact saving_lowering hl
      | true =>
          cases request with
          | ownerRecordDeposit amount source verified agentId reference =>
              have hrecorded : ∀ {v}, Recorded host amount verified agentId
                  reference w v → Bounded id v.state := by
                intro v hrec
                -- an unverified one adds none
                cases verified with
                | false => exact hrec.unverified hb
                | true =>
                    obtain rfl := not_not.mp (of_decide_eq_false hraises)
                    exact hrec.ceiling
              rw [← hend]
              cases exec_deposit host w hasks with
              | nothing hs =>
                  rw [hs]
                  exact hb
              | recorded hrec _ hs =>
                  rw [hs]
                  exact hrecorded hrec
              | half hrec _ hs =>
                  rw [hs]
                  exact hrecorded hrec
          | _ => exact nomatch hdeposit

/-! ## Checked ceilings -/

/-- An update that returns was checked against the ceiling it sets. -/
theorem ownerUpdatePolicy_bounded {actor : Actor} {p : Policy} :
    wp (ownerUpdatePolicy host actor id p) (fun _ v => Bounded id v.state)
      (fun _ _ => True) w := by
  unfold ownerUpdatePolicy
  rw [wp_bind, wp_readState]
  refine line_lift (fun _ => trivial) fun _ _ => ?_
  refine line_lift (fun _ => trivial) fun _ _ => ?_
  refine line_lift (fun _ => trivial) fun _ hexposure => ?_
  refine line_lift (fun _ => trivial) fun r hr => ?_
  refine line_lift (fun _ => trivial) fun current _ => ?_
  refine line_lift (fun _ => trivial) fun _ _ => ?_
  rw [wp_bind, wp_putPolicy, wp_bind]
  refine wp_audit (fun _ => trivial) fun _ => ?_
  rw [wp_pure]
  intro r' p' hr' hp'
  have hsame : r' = r := Option.some.inj (hr'.symm.trans (agent_ok.mp hr))
  rw [hsame] at hp'
  have hp : p' = { p with
      id := r.policyId
      version := (current.version + 1) % 18446744073709551616 } :=
    (Option.some.inj ((SortedMap.get?_insert_self _ _ _).symm.trans hp')).symm
  obtain ⟨_, _, hle⟩ := validatePolicyExposure_ok.mp hexposure
  rw [hp]
  exact hle

theorem update_bounded {token : String} {p : Policy} {value : Json}
    (hc : c.asks = some (token, .ownerUpdatePolicy id p))
    (hx : c.perform host w = .ok value v) : Bounded id v.state := by
  have hhandle : ∀ token', wp (handle host token' (.ownerUpdatePolicy id p))
      (fun _ u => Bounded id u.state) (fun _ _ => True) w := by
    intro token'
    unfold handle
    exact line_quiet (authenticate_quietly token') (fun _ _ _ => trivial)
      fun _ _ _ => ownerUpdatePolicy_bounded
  cases c with
  | request token' request =>
      cases hc
      have h := wp_ok (hhandle token) (show handle host token _ w = _ from hx)
      exact h
  | persisted token' request =>
      cases hc
      have h := wp_ok (handleSaved_returns (P := Bounded id) (hhandle token))
        (show handleSaved host token _ w = _ from hx)
      exact h
  | _ => exact nomatch hc

/-- The requests that check the ceiling of an agent before they are accepted:
    to create it, to update its policy, or to record a verified deposit for
    it under a new reference. -/
def checks (host : Host) (id : String) (s : TreasuryState) : Request → Prop
  | .ownerCreateAgent .. => s.agents.get? id = none
  | .ownerCreateAgentPrepared .. => s.agents.get? id = none
  | .ownerUpdatePolicy id' _ => id' = id
  | .ownerRecordDeposit _ _ verified agentId reference =>
      verified = true ∧ agentId = some id ∧ ¬Known host reference s
  | _ => False

/-- What a call that checked a ceiling and returned leaves is within it. -/
theorem checked_bounded {token : String} {request : Request} {value : Json}
    (hw : Counting host w) (hfit : Fits w) (hfresh : FreshBelow host v.drawn)
    (hc : c.asks = some (token, request)) (hchecks : checks host id w.state request)
    (hx : c.perform host w = .ok value v) : Bounded id v.state := by
  have hend : exec host c w = v := by
    unfold exec final
    rw [hx]
  have hcreated : w.state.agents.get? id = none → raises id request = false →
      Bounded id v.state := by
    intro hnone hno
    rw [← hend] at hfresh ⊢
    refine exec_bounded hw hfit hfresh ?_ fun r p hr => ?_
    · rintro ⟨_, _, hasks, hraises⟩
      rw [hc] at hasks
      cases hasks
      exact nomatch hraises.symm.trans hno
    · exact nomatch hnone.symm.trans hr
  cases request with
  | ownerCreateAgent _ _ _ _ => exact hcreated hchecks rfl
  | ownerCreateAgentPrepared _ _ _ _ _ => exact hcreated hchecks rfl
  | ownerUpdatePolicy id' p =>
      obtain rfl : id' = id := hchecks
      exact update_bounded hc hx
  | ownerRecordDeposit amount source verified agentId reference =>
      obtain ⟨rfl, rfl, hnew⟩ := hchecks
      obtain ⟨u, e, hrec, hs⟩ := (deposit_returns hc hx).resolve_left
        fun hknown => hnew hknown.2
      rw [hs]
      exact hrec.ceiling
  | _ => exact hchecks.elim

/-- The error of a policy below the authority that is left. -/
def belowAuthority : TreasuryError :=
  .forbidden ("policy exposure ceiling is below currently available "
    ++ "authority")

theorem Started.counting {balance : Money} {token : String}
    (h : Started host balance token w) : Counting host w :=
  ⟨h.kept, h.idsDrawn, h.corresponds.1, h.sound⟩

/-- **CALLS** that cannot raise keep to the ceiling of an agent. -/
theorem Calls.bounded (h : Calls host w cs w') (hw : Counting host w)
    (hf : Fits w) (hfresh : FreshBelow host w'.drawn)
    (hno : ∀ c ∈ cs, ¬Raises id c) (hb : Bounded id w.state) :
    Bounded id w'.state := by
  induction h with
  | nil => exact hb
  | @snoc ds u c hcalls hfit ih =>
      obtain ⟨hk, hfu⟩ := Calls.kept hcalls hw.kept hf
      have hstep : Behaves host u (exec host c u) c :=
        exec_behaves (hk.workable hfu) c
      have hfreshu := hfresh.mono hstep.path.advance.drawn
      have hu := (Calls.path hcalls hw.kept hf).counting hfreshu hw
      -- this call raises nothing, and those before it did not
      exact exec_bounded hu hfu hfresh (hno c (by simp))
        (ih hfreshu fun d hd => hno d (List.mem_append_left _ hd))

/-- **CEILINGS LAST**: in any run with fresh ids, what is left of the authority
    stays within an agent's ceiling through every further call that is neither
    a reconciliation other than a settlement nor a verified deposit for
    another agent; it is within the ceiling, whatever it was before, after
    every accepted creation, update or verified deposit that checks it; and
    while it is, no update that keeps currency and ceiling is refused for the
    ceiling. -/
theorem ceilings_last {owner : String} {w0 : World} {ds : List Call}
    (hrun : TreasuryRun host owner w0 cs w) (hmore : Calls host w ds w')
    (hfresh : FreshBelow host w'.drawn) (id : String) :
    (Bounded id w.state → (∀ c ∈ ds, ¬Raises id c) → Bounded id w'.state)
      ∧ (∀ (c : Call) token request value (v : World),
        c.asks = some (token, request) → checks host id w.state request →
        c.perform host w = .ok value v → FreshBelow host v.drawn →
        Bounded id v.state)
      ∧ (Bounded id w.state → ∀ r p q, w.state.agents.get? id = some r →
        w.state.policies.get? r.policyId = some p →
        q.primaryCurrency = p.primaryCurrency →
        q.absoluteExposureCeiling = p.absoluteExposureCeiling →
        (validatePolicyExposure w.state q = .ok ()
          ↔ ∃ b, ledgerSnapshot w.state p.primaryCurrency = .ok b)) := by
  obtain ⟨balance, hs⟩ := hrun.balance
  obtain ⟨hkept, hfits⟩ := hrun.kept
  have hdrawn := (Calls.path hmore hkept hfits).advance.drawn
  have hw : Counting host w :=
    hrun.path.counting (hfresh.mono hdrawn) hs.counting
  refine ⟨fun hb hno => Calls.bounded hmore hw hfits hfresh hno hb, ?_, ?_⟩
  · intro c token request value v hc hchecks hx hf
    exact checked_bounded hw hfits hf hc hchecks hx
  · intro hb r p q hr hp hcur hceiling
    rw [validatePolicyExposure_ok, hcur, hceiling]
    constructor
    · rintro ⟨b, hsnap, _⟩
      exact ⟨b, hsnap⟩
    · rintro ⟨b, hsnap⟩
      exact ⟨b, hsnap, hb r p hr hp⟩

/-- The owner creates an agent with a ceiling and a share of its income. -/
def agentUnder (ceiling : Int) (ratio : Nat) (token owner : String) : Call :=
  .request owner (.ownerCreateAgentPrepared "n"
    { Policy.conservativeDemo with
      absoluteExposureCeiling := ⟨ceiling, "CAD"⟩
      reinvestmentRatioBps := ratio } .boundedAutonomous 3600 token)

/-- A token for a second agent. -/
def otherToken : String := String.ofList (List.replicate 64 'b')

/-- The ceiling of the first agent lasts while a second is created. -/
theorem ceilings_last_second :
    ∃ owner w0 w w', TreasuryRun stillHost owner w0
        [agentUnder 50000 0 agentToken owner] w
      ∧ Calls stillHost w [agentUnder 100000 10000 otherToken owner] w'
      ∧ (w'.state.agents.contains (idOfDraw stillHost "agent" 4)) = true
      ∧ Bounded (idOfDraw stillHost "agent" 4) w'.state := by
  have h : tryRun stillHost ⟨50000, "CAD"⟩
      (fun owner => [agentUnder 50000 0 agentToken owner]) (fun w =>
        let v := exec stillHost
          (agentUnder 100000 10000 otherToken (bootstrapToken stillHost)) w
        decide (Bounded (idOfDraw stillHost "agent" 4) w.state ∧ Fits v
          ∧ v.drawn ≤ 256 ^ 12
          ∧ v.state.agents.contains (idOfDraw stillHost "agent" 4) = true))
      = true := by
    decide +kernel
  obtain ⟨owner, w0, w, hrun, hcheck⟩ := tryRun_run h
  obtain ⟨hb, hfit, hdrawn, hagent⟩ := of_decide_eq_true hcheck
  obtain ⟨balance, hs⟩ := hrun.balance
  obtain rfl := hs.capability
  have hmore : Calls stillHost w
      [agentUnder 100000 10000 otherToken (bootstrapToken stillHost)] _ :=
    .snoc _ .nil hfit
  refine ⟨_, w0, w, _, hrun, hmore, hagent, ?_⟩
  refine (ceilings_last hrun hmore (plainHost_fresh hdrawn) _).1 hb ?_
  intro c hc
  obtain rfl := List.mem_singleton.mp hc
  rintro ⟨_, _, hasks, hraises⟩
  cases hasks
  exact nomatch hraises

/-- The calls that execute the first intent and create an agent whose ceiling
    is what is left then. -/
def executedOpening (scenario : SimulatedScenario) (owner : String) : List Call :=
  opening { smallPurchase with scenario := scenario } owner
    ++ [.request agentToken (.executePurchaseIntent (firstIntent stillHost)),
      agentUnder 49999 0 otherToken owner]

/-- The owner reconciles the first intent. -/
def reconcileFirst (outcome : ReconciliationOutcome) (owner : String) : Call :=
  .request owner (.ownerReconcile (firstIntent stillHost) outcome none)

/-- An accepted call leaves more than the ceiling of an agent, which was kept
    before; and then an update that only lowers another limit is refused. -/
def Breaks (id : String) (c : Call) (w : World) : Prop :=
  Succeeds stillHost c w ∧ Bounded id w.state
    ∧ ¬Bounded id (exec stillHost c w).state
    ∧ (((exec stillHost c w).state.agents.get? id).bind fun r =>
        (exec stillHost c w).state.policies.get? r.policyId).map (fun p =>
          validatePolicyExposure (exec stillHost c w).state
            { p with maxPerTransaction := ⟨1, "CAD"⟩ })
      = some (.error belowAuthority)

instance (id : String) (c : Call) (w : World) : Decidable (Breaks id c w) :=
  inferInstanceAs (Decidable (_ ∧ _ ∧ _ ∧ _))

/-- The owner deposits for the second of two agents. -/
def depositForSecond (owner : String) : Call :=
  .request owner (.ownerRecordDeposit ⟨1000, "CAD"⟩ "s" true
    (some (idOfDraw stillHost "agent" 6)) "r")

theorem tryRun_breaks {id : String} {calls : String → List Call}
    (last : String → Call)
    (h : tryRun stillHost ⟨50000, "CAD"⟩ calls (fun w =>
      decide (Breaks id (last (bootstrapToken stillHost)) w)) = true) :
    ∃ owner w0 w, TreasuryRun stillHost owner w0 (calls owner) w
      ∧ Breaks id (last owner) w := by
  obtain ⟨owner, w0, w, hrun, hcheck⟩ := tryRun_run h
  obtain ⟨balance, hs⟩ := hrun.balance
  obtain rfl := hs.capability
  exact ⟨_, w0, w, hrun, of_decide_eq_true hcheck⟩

/-- **CEILINGS BREAK**: by a deposit for another agent, by a decline, and by a
    refund. -/
theorem ceilings_break :
    (∃ owner w0 w, TreasuryRun stillHost owner w0
        [agentUnder 50000 0 agentToken owner,
          agentUnder 100000 10000 otherToken owner] w
      ∧ Breaks (idOfDraw stillHost "agent" 4) (depositForSecond owner) w)
      ∧ (∃ owner w0 w, TreasuryRun stillHost owner w0
          (executedOpening .delayedSettlement owner) w
        ∧ Breaks (idOfDraw stillHost "agent" 9)
          (reconcileFirst .declined owner) w)
      ∧ ∃ owner w0 w, TreasuryRun stillHost owner w0
          (executedOpening .normal owner) w
        ∧ Breaks (idOfDraw stillHost "agent" 11)
          (reconcileFirst .refunded owner) w := by
  refine ⟨tryRun_breaks depositForSecond ?_,
    tryRun_breaks (reconcileFirst .declined) ?_,
    tryRun_breaks (reconcileFirst .refunded) ?_⟩
  all_goals decide +kernel

end Treasury
