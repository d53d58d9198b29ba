import Cixa.Authority
import Cixa.Entries
import Cixa.Keys

/-! # Confinement — what an agent can bring about

    Whatever an agent asks for, it changes nothing that is the owner's: no
    agent, no policy, no provider, no instruction.  It works on ONE intent at
    a time, and on its own.  What it works on held nothing before, and
    afterwards it may hold or have spent: so the authority that is left in
    any currency never grows by an agent's doing. -/

namespace Treasury

open CixaData CixaHost Outcome Transition

variable {host : Host} {w w' : World} {l : Label} {c : Call} {A id : String}

/-! ## The owner's part of the state -/

/-- What only the owner changes is the same. -/
structure SameOffice (s s' : TreasuryState) : Prop where
  owner : s'.owner = s.owner
  agents : s'.agents = s.agents
  policies : s'.policies = s.policies
  emergencyStop : s'.emergencyStop = s.emergencyStop
  providerMode : s'.providerMode = s.providerMode
  manualProvider : s'.manualProvider = s.manualProvider
  receiveInstructions : s'.receiveInstructions = s.receiveInstructions
  processedDeposits : s'.processedDeposits = s.processedDeposits

theorem SameOffice.refl (s : TreasuryState) : SameOffice s s :=
  ⟨rfl, rfl, rfl, rfl, rfl, rfl, rfl, rfl⟩

theorem SameOffice.trans {s s' s'' : TreasuryState} (h : SameOffice s s')
    (h' : SameOffice s' s'') : SameOffice s s'' :=
  ⟨h'.owner.trans h.owner, h'.agents.trans h.agents,
    h'.policies.trans h.policies, h'.emergencyStop.trans h.emergencyStop,
    h'.providerMode.trans h.providerMode,
    h'.manualProvider.trans h.manualProvider,
    h'.receiveInstructions.trans h.receiveInstructions,
    h'.processedDeposits.trans h.processedDeposits⟩

/-- The labels of what an agent can bring about. -/
def Delegated : Label → Prop
  | .quiet => True
  | .audit _ => True
  | .write => True
  | .addIntent _ => True
  | .reserve _ => True
  | .move _ _ => True
  | .conclude _ _ => True
  | .authorize _ => True
  | .submit _ => True
  | _ => False

theorem Change.office (h : Change host l w w') (hl : Delegated l) :
    SameOffice w.state w'.state := by
  cases h with
  | quiet h =>
      rw [h.state]
      exact .refl _
  | audit _ _ hs _ =>
      rw [hs]
      exact ⟨rfl, rfl, rfl, rfl, rfl, rfl, rfl, rfl⟩
  | addIntent _ _ _ hs _ =>
      rw [hs]
      exact ⟨rfl, rfl, rfl, rfl, rfl, rfl, rfl, rfl⟩
  | reserve _ _ _ _ _ _ hs _ =>
      rw [hs]
      exact ⟨rfl, rfl, rfl, rfl, rfl, rfl, rfl, rfl⟩
  | move _ _ _ _ hs _ =>
      rw [hs]
      exact ⟨rfl, rfl, rfl, rfl, rfl, rfl, rfl, rfl⟩
  | conclude _ _ _ _ _ hs _ =>
      rw [hs]
      exact ⟨rfl, rfl, rfl, rfl, rfl, rfl, rfl, rfl⟩
  | authorize _ _ _ _ _ hs _ =>
      rw [hs]
      exact ⟨rfl, rfl, rfl, rfl, rfl, rfl, rfl, rfl⟩
  | writeKey _ hs _ _ =>
      rw [hs]
      exact .refl _
  | writeState _ hs _ _ _ =>
      rw [hs]
      exact .refl _
  | submit _ hs _ _ _ =>
      rw [hs]
      exact .refl _
  | _ => exact hl.elim

theorem Path.office {allowed : Label → Prop} (h : Path host allowed w w')
    (hl : ∀ l, allowed l → Delegated l) : SameOffice w.state w'.state := by
  refine h.rel (R := fun a b => SameOffice a.state b.state) ?_ ?_ ?_ ?_
  · exact fun a => .refl a.state
  · exact fun _ _ _ hab hbc => hab.trans hbc
  · exact fun l a b hlabel hc => hc.office (hl l hlabel)
  · exact fun a _ _ => .refl a.state

/-- The audit log of a path only grows. -/
theorem Path.audited {allowed : Label → Prop} (h : Path host allowed w w') :
    w.state.audit <+: w'.state.audit := by
  refine h.rel (R := fun a b : World => a.state.audit <+: b.state.audit)
    ?_ ?_ ?_ ?_
  · exact fun a => List.prefix_rfl
  · exact fun _ _ _ hab hbc => hab.trans hbc
  · intro l a b _ hc
    rcases hc.entries with ⟨ha, _⟩ | ⟨_, e, _, _, _, ha, _⟩
    · exact ha ▸ List.prefix_rfl
    · rw [ha]
      exact List.prefix_append _ _
  · exact fun a _ _ => List.prefix_rfl

/-! ## Working on one intent -/

/-- An event of an execution: a hold, its release or its settlement. -/
def Charges (id : String) (e : LedgerEvent) : Prop :=
  e.intentId = some id ∧ 0 ≤ e.amount.minor
    ∧ (e.kind = .holdReserved ∨ e.kind = .holdReleased
      ∨ e.kind = .spendingSettled)

theorem EventIn.charges {kind : LedgerEventKind} {amount : Money}
    {e : LedgerEvent} (h : EventIn host w w' kind amount (some id) e)
    (hpos : 0 ≤ amount.minor) (hk : kind = .holdReserved
      ∨ kind = .holdReleased ∨ kind = .spendingSettled) : Charges id e := by
  refine ⟨h.intentId, ?_, ?_⟩
  · rw [h.amount]
    exact hpos
  · rw [h.kind]
    exact hk

theorem Settling.charges {s : TreasuryState} {i : PurchaseIntent}
    {events : List LedgerEvent} (h : Settling host w w' s i events)
    (hpos : 0 ≤ i.request.finalTotal.minor) : ∀ e ∈ events, Charges i.id e := by
  cases h with
  | mk hr hs =>
      intro e he
      rcases List.mem_append.mp he with he | he
      · rcases hr with ⟨_, rfl⟩ | ⟨_, e', rfl, hin⟩
        · exact nomatch he
        · rw [List.mem_singleton.mp he]
          exact hin.charges hpos (Or.inr (Or.inl rfl))
      · rcases hs with ⟨_, rfl⟩ | ⟨_, e', rfl, hin⟩
        · exact nomatch he
        · rw [List.mem_singleton.mp he]
          exact hin.charges hpos (Or.inr (Or.inr rfl))

theorem Concluded.charges {s : TreasuryState} {i i' : PurchaseIntent}
    {next : TransactionState} {events : List LedgerEvent}
    (h : Concluded host w w' s i next i' events)
    (hpos : 0 ≤ i.request.finalTotal.minor) : ∀ e ∈ events, Charges i.id e := by
  cases h with
  | settled _ he => exact he.charges hpos
  | declined _ he =>
      intro e hmem
      rw [List.mem_singleton.mp hmem]
      exact he.charges hpos (Or.inr (Or.inl rfl))
  | pending _ => exact fun e he => nomatch he
  | unknown _ => exact fun e he => nomatch he

/-- **THE WORK ON ONE INTENT** of an agent: it is stored again, and charged. -/
def Works (A id : String) (w u : World) : Prop :=
  ∃ j events, u.state.intents = w.state.intents.insert id j ∧ j.id = id
    ∧ j.agentId = A ∧ 0 < j.request.finalTotal.minor
    ∧ u.state.ledger = w.state.ledger ++ events ∧ ∀ e ∈ events, Charges id e

/-- The labels of the work on one intent. -/
def OnIntent (id : String) : Label → Prop
  | .quiet => True
  | .audit _ => True
  | .write => True
  | .reserve id' => id' = id
  | .move id' _ => id' = id
  | .conclude id' _ => id' = id
  | .authorize id' => id' = id
  | .submit id' => id' = id
  | _ => False

theorem OnIntent.delegated (h : OnIntent id l) : Delegated l := by
  cases l <;> trivial

theorem Works.same {a b : World} (h : Works A id w a)
    (hs : b.state.intents = a.state.intents)
    (hl : b.state.ledger = a.state.ledger) : Works A id w b := by
  obtain ⟨j, events, hj, hrest⟩ := h
  refine ⟨j, events, hs.trans hj, ?_⟩
  rw [hl]
  exact hrest

theorem Works.next {a b : World} {i i' : PurchaseIntent}
    {events : List LedgerEvent} (h : Works A id w a)
    (hs : b.state.intents = a.state.intents.insert id i')
    (hi : a.state.intents.get? id = some i) (hc : Continues i i')
    (hl : b.state.ledger = a.state.ledger ++ events)
    (he : 0 ≤ i.request.finalTotal.minor → ∀ e ∈ events, Charges id e) :
    Works A id w b := by
  obtain ⟨j, before, hj, hid, hown, hpos, hledger, hbefore⟩ := h
  rw [hj, SortedMap.get?_insert_self] at hi
  obtain rfl := Option.some.inj hi
  refine ⟨i', before ++ events, ?_, hc.id.trans hid, hc.agentId.trans hown, ?_,
    ?_, fun e hmem => ?_⟩
  · rw [hs, hj, SortedMap.insert_insert]
  · rw [hc.request]
    exact hpos
  · rw [hl, hledger, List.append_assoc]
  · rcases List.mem_append.mp hmem with hmem | hmem
    · exact hbefore e hmem
    · exact he (le_of_lt hpos) e hmem

theorem Change.works {a b : World} (h : Change host l a b)
    (hl : OnIntent id l) (hw : Works A id w a) : Works A id w b := by
  cases h with
  | quiet h => exact hw.same (by rw [h.state]) (by rw [h.state])
  | audit _ _ hs _ => exact hw.same (by rw [hs]; rfl) (by rw [hs]; rfl)
  | reserve _ hi _ hh _ _ hs _ =>
      obtain rfl := hl
      refine hw.next ((congrArg TreasuryState.intents hs).trans rfl) hi
        ⟨rfl, rfl, rfl, rfl, rfl, rfl⟩
        ((congrArg TreasuryState.ledger hs).trans rfl) fun hpos e he => ?_
      rw [List.mem_singleton.mp he]
      exact hh.charges hpos (Or.inl rfl)
  | move _ hi _ _ hs _ =>
      obtain rfl := hl
      exact hw.next ((congrArg TreasuryState.intents hs).trans rfl) hi
        ⟨rfl, rfl, rfl, rfl, rfl, rfl⟩
        (((congrArg TreasuryState.ledger hs).trans rfl).trans
          (List.append_nil _).symm) fun _ e he => nomatch he
  | conclude _ hi _ hc _ hs _ =>
      obtain rfl := hl
      exact hw.next ((congrArg TreasuryState.intents hs).trans rfl) hi
        hc.continues.1 ((congrArg TreasuryState.ledger hs).trans rfl) fun hpos =>
          hc.charges hpos
  | authorize _ _ _ _ _ hs _ =>
      exact hw.same (by rw [hs]) (by rw [hs])
  | writeKey _ hs _ _ => exact hw.same (by rw [hs]) (by rw [hs])
  | writeState _ hs _ _ _ => exact hw.same (by rw [hs]) (by rw [hs])
  | submit _ hs _ _ _ => exact hw.same (by rw [hs]) (by rw [hs])
  | _ => exact hl.elim

theorem Path.works {allowed : Label → Prop} {i : PurchaseIntent}
    (h : Path host allowed w w') (hl : ∀ l, allowed l → OnIntent id l)
    (hi : w.state.intents.get? id = some i) (hid : i.id = id)
    (hown : i.agentId = A) (hpos : 0 < i.request.finalTotal.minor) :
    Works A id w w' := by
  refine h.invariant (I := Works A id w) ?_ ?_ ?_
  · exact fun l a b hlabel hc ha => hc.works (hl l hlabel) ha
  · exact fun a b _ ha _ => ha.same rfl rfl
  · exact ⟨i, [], (SortedMap.insert_of_get? hi).symm, hid, hown, hpos,
      (List.append_nil _).symm, fun e he => nomatch he⟩

/-! ## Creating an intent -/

/-- Nothing is stored, or one new intent of the agent. -/
inductive Adds (host : Host) (A : String) (w w' : World) : Prop where
  | none (hs : w'.state.intents = w.state.intents) : Adds host A w w'
  | new {id : String} {i : PurchaseIntent}
      (hs : w'.state.intents = w.state.intents.insert id i) (hid : i.id = id)
      (hown : i.agentId = A) (hdrawn : DrawnIn host w w' "intent" id)
      (hfree : i.state.isReserved = false) : Adds host A w w'

theorem insertNewIntent_adds {r : AgentRecord} {p : Policy}
    {request : PurchaseRequest} {d : PolicyDecision} {a : World}
    (hq : Quiet w a) : wp (insertNewIntent host A r p request d)
      (fun _ w' => Adds host A w w') (fun _ w' => Adds host A w w') a := by
  have hcan : TransactionState.canTransition .proposed (stateOfDecision d)
      = true := by
    unfold stateOfDecision
    split
    · rfl
    · split <;> rfl
  have hs := congrArg TreasuryState.intents hq.state
  unfold insertNewIntent
  rw [wp_bind, wp_newId, wp_bind, wp_now, wp_bind]
  refine wp_transition_of_can rfl ?_
  rw [wp_bind]
  refine wp_transition_of_can hcan ?_
  rw [wp_bind]
  refine wp_audit (fun _ => .none hs) fun _ => ?_
  rw [wp_bind, wp_storeIntent, wp_pure]
  apply Adds.new
  case hs =>
    rw [← hs]
    rfl
  case hid => rfl
  case hown => rfl
  case hdrawn => exact .next hq.drawn (Nat.lt_succ_self _)
  case hfree => exact stateOfDecision_free d

theorem createIntent_adds (request : PurchaseRequest) :
    wp (createIntent host (.agent A) request) (fun _ w' => Adds host A w w')
      (fun _ w' => Adds host A w w') w := by
  have h0 : Adds host A w w := .none rfl
  have hquiet : ∀ {a}, Quiet w a → Adds host A w a := fun h =>
    .none (congrArg TreasuryState.intents h.state)
  unfold createIntent
  rw [wp_bind, wp_readState]
  refine line_lift (fun _ => h0) fun agentId hscope => ?_
  obtain rfl := Actor.agent.inj (requireAgentScope_ok hscope).1
  refine line_lift (fun _ => h0) fun r _ => ?_
  refine line_lift (fun _ => h0) fun normal _ => ?_
  split
  · rw [wp_ite, wp_pure, wp_throw]
    exact ⟨fun _ => h0, fun _ => h0⟩
  unfold createNewIntent
  refine line_rejectIf (fun _ => h0) fun _ => ?_
  refine line_rejectIf (fun _ => h0) fun _ => ?_
  refine line_lift (fun _ => h0) fun p _ => ?_
  refine line_quiet (requireArmedSession_quietly _ _) (fun _ _ h => hquiet h)
    fun _ a ha => ?_
  refine line_quiet (usage_quietly _ _ _) (fun _ _ h => hquiet (ha.trans h))
    fun used b hb => ?_
  have hab := ha.trans hb
  rw [wp_ite]
  constructor
  · -- a refusal for the rate writes an entry and stores nothing
    intro _
    unfold refuseForRate
    rw [wp_bind, wp_now, wp_ite, wp_throw]
    refine ⟨fun _ => hquiet (hab.trans (Quiet.readClock b)), fun _ => ?_⟩
    rw [wp_bind]
    have hs := congrArg TreasuryState.intents hab.state
    refine wp_audit (fun _ => .none hs) fun _ => ?_
    rw [wp_throw]
    exact .none hs
  · intro _
    refine line_quiet (decideRequest_quietly _ _ _ _ _)
      (fun _ _ h => hquiet (hab.trans h)) fun d c hc => ?_
    rw [wp_bind, wp_now]
    exact insertNewIntent_adds ((hab.trans hc).trans (Quiet.readClock c))

/-- The labels of a creation. -/
def Creating : Label → Prop
  | .quiet => True
  | .audit _ => True
  | .write => True
  | .addIntent _ => True
  | _ => False

/-- A creation charges nothing. -/
theorem Path.uncharged {allowed : Label → Prop} (h : Path host allowed w w')
    (hl : ∀ l, allowed l → Creating l) : w'.state.ledger = w.state.ledger := by
  refine h.rel (R := fun a b : World => b.state.ledger = a.state.ledger)
    ?_ ?_ ?_ ?_
  · exact fun _ => rfl
  · exact fun _ _ _ hab hbc => hbc.trans hab
  · intro l a b hlabel hc
    have hcreating := hl l hlabel
    cases hc with
    | quiet h => rw [h.state]
    | audit _ _ hs _ => rw [hs]; rfl
    | addIntent _ _ _ hs _ => rw [hs]; rfl
    | writeKey _ hs _ _ => rw [hs]
    | writeState _ hs _ _ _ => rw [hs]
    | _ => exact hcreating.elim
  · exact fun _ _ _ => rfl

/-! ## Confinement -/

/-- **CONFINED TO AN AGENT**: the owner's part and the intents of the others
    are untouched, the ledger and the audit log only grow, by events of the
    agent's intents, and no currency has more authority left. -/
structure Confined (A : String) (w w' : World) : Prop where
  office : SameOffice w.state w'.state
  others : ∀ id i, w.state.intents.get? id = some i → i.agentId ≠ A →
    w'.state.intents.get? id = some i
  mine : ∀ id i, w'.state.intents.get? id = some i →
    w.state.intents.get? id = some i ∨ i.agentId = A
  ledger : ∃ events, w'.state.ledger = w.state.ledger ++ events
    ∧ ∀ e ∈ events, ∃ id i, e.intentId = some id
      ∧ w'.state.intents.get? id = some i ∧ i.agentId = A
  audit : w.state.audit <+: w'.state.audit
  authority : ∀ currency, (authority currency w'.state).left
    ≤ (authority currency w.state).left

theorem Confined.same (hs : w'.state = w.state) : Confined A w w' where
  office := hs ▸ .refl _
  others := fun _ _ hi _ => hs ▸ hi
  mine := fun _ _ hi => Or.inl (hs ▸ hi)
  ledger := ⟨[], by rw [hs, List.append_nil], fun e he => nomatch he⟩
  audit := hs ▸ List.prefix_rfl
  authority := fun currency => by rw [hs]

/-- Working on an intent of its own that held nothing, an agent is
    confined. -/
theorem Works.confined (h : Works A id w w')
    (hoffice : SameOffice w.state w'.state)
    (haudit : w.state.audit <+: w'.state.audit)
    (hfree : ∀ i, w.state.intents.get? id = some i →
      i.agentId = A ∧ i.state.isReserved = false) : Confined A w w' := by
  obtain ⟨j, events, hj, hid, hown, hpos, hledger, hcharges⟩ := h
  refine ⟨hoffice, ?_, ?_, ⟨events, hledger, fun e he => ?_⟩, haudit,
    fun currency => ?_⟩
  · intro id' i hi hne
    have hother : id' ≠ id := by
      rintro rfl
      exact hne (hfree i hi).1
    rw [hj, SortedMap.get?_insert_of_ne _ _ hother]
    exact hi
  · intro id' i hi
    rw [hj, SortedMap.get?_insert] at hi
    split at hi
    · obtain rfl := Option.some.inj hi
      exact Or.inr hown
    · exact Or.inl hi
  · refine ⟨id, j, (hcharges e he).1, ?_, hown⟩
    rw [hj]
    exact SortedMap.get?_insert_self _ _ _
  -- none of the events is a credit, so what is left only falls
  · have hcredit : amountOf (isCredit currency) events = 0 := by
      refine amountOf_eq_zero fun e he => ?_
      obtain ⟨_, _, hk⟩ := hcharges e he
      unfold isCredit
      rcases hk with hk | hk | hk <;> rw [hk] <;> simp
    have hspent : 0 ≤ amountOf (isSpending currency) events :=
      amountOf_nonneg fun e he _ => (hcharges e he).2.1
    have hshare := share_nonneg (inCurrency currency) hpos
    have hheld : heldBy (inCurrency currency) w.state
        ≤ heldBy (inCurrency currency) w'.state := by
      unfold heldBy
      rw [hj]
      cases hget : w.state.intents.get? id with
      | none =>
          rw [SortedMap.sum_insert_of_none _ _ hget]
          omega
      | some i =>
          have hsum := SortedMap.sum_insert_of_some j
            (share (inCurrency currency)) hget
          rw [share_of_free (hfree i hget).2] at hsum
          omega
    unfold Pools.Pool.left authority
    dsimp only
    rw [hledger, amountOf_append, amountOf_append, hcredit]
    omega

/-! ## Requests of an agent -/

/-- What is asked of the owner only is refused to an agent. -/
def ownerOnly : TreasuryError :=
  .forbidden "this operation is owner-only and is never exposed to agents"

theorem dispatch_refused {request : Request}
    (h : request.requiresOwner = true) :
    dispatch host (.agent A) request w = .error ownerOnly w := by
  cases request <;> first | rfl | exact nomatch h

/-- Confined, as far as the draws are fresh. -/
def ConfinedFresh (host : Host) (A : String) (w w' : World) : Prop :=
  FreshBelow host w'.drawn → Confined A w w'

theorem ConfinedFresh.same (hs : w'.state = w.state) :
    ConfinedFresh host A w w' := fun _ => .same hs

/-- Creating an intent, an agent is confined. -/
theorem Adds.confined {request : PurchaseRequest} (h : Adds host A w w')
    (hp : Path host (permits (.agent A) (.createPurchaseIntent request)) w w')
    (hsound : Sound w.state) (hids : IdsDrawn host w) :
    ConfinedFresh host A w w' := by
  intro hfresh
  have hcreating : ∀ l, permits (.agent A) (.createPurchaseIntent request) l →
      Creating l := by
    intro l hl
    cases l <;> trivial
  have hoffice := hp.office (fun l hl => by
    have hc := hcreating l hl
    cases l <;> trivial)
  have hledger := hp.uncharged hcreating
  cases h with
  | none hs =>
      refine ⟨hoffice, fun id i hi _ => by rw [hs]; exact hi,
        fun id i hi => Or.inl (hs ▸ hi), ⟨[], ?_, fun e he => nomatch he⟩,
        hp.audited, fun currency => ?_⟩
      · rw [hledger, List.append_nil]
      · unfold Pools.Pool.left authority
        dsimp only
        rw [hledger, heldBy_same hs]
  | @new id i hs hid hown hdrawn hfree =>
      have hnew : w.state.intents.get? id = Option.none := by
        cases hget : w.state.intents.get? id with
        | none => rfl
        | some j =>
            exact absurd rfl (hdrawn.ne_before hfresh (hids _ _ hget))
      have hpos : 0 < i.request.finalTotal.minor := by
        refine (hp.sound hsound).totals id i ?_
        rw [hs]
        exact SortedMap.get?_insert_self _ _ _
      have hworks : Works A id w w' := ⟨i, [], hs, hid, hown, hpos,
        by rw [hledger, List.append_nil], fun e he => nomatch he⟩
      refine hworks.confined hoffice hp.audited fun j hj => ?_
      rw [hnew] at hj
      exact nomatch hj

/-- A cancellation gets past its checks only for an own intent that holds
    nothing. -/
theorem cancelIntent_gate :
    wp (cancelIntent host (.agent A) id)
      (fun _ _ => ∃ i, w.state.intents.get? id = some i ∧ i.agentId = A
        ∧ i.state.isReserved = false)
      (fun _ w' => w' = w ∨ ∃ i, w.state.intents.get? id = some i
        ∧ i.agentId = A ∧ i.state.isReserved = false) w := by
  unfold cancelIntent
  rw [wp_bind, wp_readState]
  refine line_lift (fun _ => Or.inl rfl) fun agentId hscope => ?_
  obtain rfl := Actor.agent.inj (requireAgentScope_ok hscope).1
  refine line_lift (fun _ => Or.inl rfl) fun i hi => ?_
  obtain ⟨hi, hown⟩ := intentForAgent_ok.mp hi
  refine line_rejectIf (fun _ => Or.inl rfl) fun hstate => ?_
  have hfree : i.state.isReserved = false := by
    rcases List.mem_cons.mp (not_not.mp hstate) with h | h
    · rw [h]
      rfl
    · rcases List.mem_pair.mp h with h | h <;> rw [h] <;> rfl
  have hgate : ∃ i, w.state.intents.get? id = some i ∧ i.agentId = A
      ∧ i.state.isReserved = false := ⟨i, hi, hown, hfree⟩
  exact wp_mono (wp_const hgate) (fun _ _ h => h) (fun _ _ h => Or.inr h)

theorem cancelIntent_confined (hk : Keyed w.state) (hsound : Sound w.state) :
    wp (cancelIntent host (.agent A) id) (fun _ w' => Confined A w w')
      (fun _ w' => Confined A w w') w := by
  have hworks : ∀ w', Path host (permits (.agent A) (.cancelPurchaseIntent id))
      w w' → (∃ i, w.state.intents.get? id = some i ∧ i.agentId = A
        ∧ i.state.isReserved = false) → Confined A w w' := by
    rintro w' hp ⟨i, hi, hown, hfree⟩
    have hon : ∀ l, permits (.agent A) (.cancelPurchaseIntent id) l →
        OnIntent id l := by
      intro l hl
      cases l <;> first | trivial | exact hl.1
    refine (hp.works hon hi (hk _ _ hi) hown (hsound.totals _ _ hi)).confined
      (hp.office fun l hl => (hon l hl).delegated) hp.audited fun j hj => ?_
    rw [hi] at hj
    obtain rfl := Option.some.inj hj
    exact ⟨hown, hfree⟩
  refine wp_mono (wp_and (cancelIntent_within hk) cancelIntent_gate) ?_ ?_
  · rintro _ w' ⟨hp, hgate⟩
    exact hworks w' hp hgate
  · rintro _ w' ⟨hp, rfl | hgate⟩
    · exact .same rfl
    · exact hworks w' hp hgate

/-- What an agent asks for in memory, it is confined; unless it executes. -/
theorem dispatch_confined {request : Request} (hk : Keyed w.state)
    (hsound : Sound w.state) (hids : IdsDrawn host w)
    (hx : executes request = none) :
    wp (dispatch host (.agent A) request)
      (fun _ w' => ConfinedFresh host A w w')
      (fun _ w' => ConfinedFresh host A w w') w := by
  by_cases howner : request.requiresOwner = true
  · unfold wp
    rw [dispatch_refused howner]
    exact .same rfl
  by_cases hread : request.isReadOnly = true
  · exact wp_mono ((dispatch_quietly hread).run w)
      (fun _ _ h => .same h.state) (fun _ _ h => .same h.state)
  cases request with
  | createPurchaseIntent request =>
      exact wp_mono (wp_and (createIntent_within request)
        (createIntent_adds request))
        (fun _ _ h => h.2.confined h.1 hsound hids)
        (fun _ _ h => h.2.confined h.1 hsound hids)
  | cancelPurchaseIntent id =>
      exact wp_mono (cancelIntent_confined hk hsound) (fun _ _ h _ => h)
        (fun _ _ h _ => h)
  | executePurchaseIntent id => exact nomatch hx
  | _ => first | exact absurd rfl howner | exact absurd rfl hread

/-! ## Calls of an agent -/

/-- A call that tries to execute an intent is an attempt on it. -/
theorem Behaves.attempted (h : Behaves host w w' c) (hc : c.attempts = some id) :
    Attempt host c.durable id w w' := by
  cases h with
  | attempt hc' ha =>
      obtain rfl := Option.some.inj (hc.symm.trans hc')
      exact ha
  | @ordinary _ token request hasks hx _ =>
      cases c with
      | request token r =>
          cases hasks
          exact nomatch hx.symm.trans hc
      | persisted token r =>
          cases hasks
          exact nomatch hx.symm.trans hc
      | _ => exact nomatch hasks
  | recovery _ => exact nomatch hc

/-- An attempt that enters nothing leaves the state. -/
theorem Attempt.idle {durable : Prop} (h : Attempt host durable id w w')
    (hno : ¬Enters w w' id) : w'.state = w.state := by
  cases h with
  | refused hp => exact saving_state hp
  | undone _ _ hw =>
      rw [hw]
      rfl
  | @finished b c d hr hp hs ha =>
      refine absurd ?_ hno
      obtain ⟨i, _, _, _, _, t, hid, _, _, _, _, _, _, hlog⟩ := hr.reserve_inv
      have hsub : ∃ tail, d.log = c.log ++ tail := by
        rcases hs with rfl | ⟨hsub, _⟩
        · exact ⟨[], (List.append_nil _).symm⟩
        · have hp : Path host (fun l => l = .submit id) c d := .single rfl hsub
          exact hp.grows
      obtain ⟨t1, h1⟩ := hp.grows
      obtain ⟨t2, h2⟩ := hsub
      obtain ⟨t3, h3⟩ := ha.grows
      refine ⟨.stored { i with state := .executing, updatedAt := t }
        :: (t1 ++ t2 ++ t3), _, ?_, List.mem_cons_self .., hid, rfl⟩
      rw [h3, h2, h1, hlog]
      simp

theorem Attempting.onIntent (h : Attempting id l) : OnIntent id l := by
  cases l with
  | quiet => trivial
  | audit _ => trivial
  | write => trivial
  | reserve _ => exact h
  | submit _ => exact h
  | authorize _ => exact h.resolve_left (fun h => h)
  | conclude _ _ => exact h.resolve_left (fun h => h)
  | move _ _ => exact (h.resolve_left (fun h => h)).1
  | _ => exact h.elim (fun h => h) (fun h => h)

/-- An execution by those who may is confined to the agent of the intent. -/
theorem attempt_confined (hw : Workable w.state) (hsound : Sound w.state)
    (hc : c.attempts = some id)
    (hA : ∀ i, Entitled host w i c → i.agentId = A) :
    Confined A w (exec host c w) := by
  have hbehaves : Behaves host w (exec host c w) c := exec_behaves hw c
  have hatt := hbehaves.attempted hc
  by_cases he : Enters w (exec host c w) id
  · obtain ⟨i, r, p, b, hi, hid, _, hr, hent, _⟩ := he.rightful hw
    refine (hatt.path.works (fun _ => Attempting.onIntent) hi hid (hA i hent)
      (hsound.totals _ _ hi)).confined
      (hatt.path.office fun _ hl => (Attempting.onIntent hl).delegated) hatt.path.audited
      fun j hj => ?_
    rw [hi] at hj
    obtain rfl := Option.some.inj hj
    refine ⟨hA i hent, ?_⟩
    rcases hr.executable with hx | hx <;> rw [hx] <;> rfl
  · exact .same (hatt.idle he)

theorem handle_confined {token : String} {request : Request}
    (hk : Keyed w.state) (hsound : Sound w.state) (hids : IdsDrawn host w)
    (hA : Authenticates host w token (.agent A))
    (hx : executes request = none) :
    wp (handle host token request) (fun _ w' => ConfinedFresh host A w w')
      (fun _ w' => ConfinedFresh host A w w') w := by
  obtain ⟨a, ha⟩ := hA
  have hq : Quiet w a := (wp_ok authenticate_spec ha).1
  have hs := hq.state
  have hback : ∀ w', ConfinedFresh host A a w' → ConfinedFresh host A w w' := by
    intro w' h hfresh
    obtain ⟨h1, h2, h3, h4, h5, h6⟩ := h hfresh
    rw [hs] at h1 h2 h3 h4 h5 h6
    exact ⟨h1, h2, h3, h4, h5, h6⟩
  have hids' : IdsDrawn host a := by
    intro id i hi
    obtain ⟨k, hlt, heq⟩ := hids id i (hs ▸ hi)
    exact ⟨k, Nat.lt_of_lt_of_le hlt hq.drawn, heq⟩
  unfold handle
  rw [wp_bind]
  refine wp_of_run ha ?_
  exact wp_mono (dispatch_confined (hs ▸ hk) (hs ▸ hsound) hids' hx)
    (fun _ w' h => hback w' h) (fun _ w' h => hback w' h)

theorem handleSaved_confined {token : String} {request : Request}
    (hk : Keyed w.state) (hsound : Sound w.state) (hids : IdsDrawn host w)
    (hA : Authenticates host w token (.agent A))
    (hx : executes request = none) :
    wp (handleSaved host token request)
      (fun _ w' => ConfinedFresh host A w w')
      (fun _ w' => ConfinedFresh host A w w') w := by
  refine handleSaved_spec (handle_confined hk hsound hids hA hx)
    (fun _ h _ => h) ?_ (fun _ _ _ _ => .same rfl)
  intro v w' hv hp hfresh
  have hs := saving_state hp
  obtain ⟨h1, h2, h3, h4, h5, h6⟩ := hv (hfresh.mono hp.advance.drawn)
  refine ⟨?_, ?_, ?_, ?_, ?_, ?_⟩
  all_goals
    rw [hs]
    assumption

/-- What is asked of the owner only changes nothing, in memory or saved. -/
theorem ownerOnly_refused {token : String} {request : Request}
    (hA : Authenticates host w token (.agent A))
    (hasks : c.asks = some (token, request))
    (howner : request.requiresOwner = true) :
    (∃ e, result (c.perform host) w = .error e)
      ∧ (exec host c w).state = w.state := by
  obtain ⟨a, ha⟩ := hA
  have hq : Quiet w a := (wp_ok authenticate_spec ha).1
  have hrun : handle host token request w = .error ownerOnly a := by
    show EStateM.bind (authenticate host token) _ w = _
    unfold EStateM.bind
    rw [ha]
    exact dispatch_refused howner
  have hhandle : wp (handle host token request) (fun _ _ => False)
      (fun _ w' => w'.state = w.state) w := by
    unfold wp
    rw [hrun]
    exact hq.state
  -- a refusal saves nothing, or saves the state as it was
  have hsaved : wp (handleSaved host token request) (fun _ _ => False)
      (fun _ w' => w'.state = w.state) w := by
    unfold handleSaved
    rw [wp_bind, wp_readState, wp_bind, wp_attempt]
    refine wp_mono hhandle (fun _ _ h => h.elim) fun e v hv => ?_
    dsimp only
    rw [wp_bind, wp_readState, wp_ite]
    constructor
    · intro _
      refine line (P := fun _ u => u.state = w.state) ?_ ?_
      · refine wp_orRestore (wp_mono saveTo_spec ?_ (fun _ _ _ => rfl))
        rintro _ u ⟨_, hs, _⟩
        exact hs.trans hv
      · intro _ u hu
        rw [wp_throw]
        exact hu
    · intro _
      rw [wp_bind, wp_setState, wp_throw]
  have hspec : wp (c.perform host) (fun _ _ => False)
      (fun _ w' => w'.state = w.state) w := by
    cases c with
    | request token' request' =>
        cases hasks
        exact hhandle
    | persisted token' request' =>
        cases hasks
        show wp (handlePersisted host token request) _ _ w
        cases request with
        | ownerCreateAgent name p mode ttl => exact (wp_throw _).mpr rfl
        | executePurchaseIntent id' => exact nomatch howner
        | _ => exact hsaved
    | _ => exact nomatch hasks
  cases hr : result (c.perform host) w with
  | ok v => exact ((wp_iff.mp hspec).1 v hr).elim
  | error e => exact ⟨⟨e, rfl⟩, (wp_iff.mp hspec).2 e hr⟩

/-- What an agent asks for, in memory or saved, it is confined. -/
theorem asked_confined {token : String} {request : Request}
    (hk : Keyed w.state) (hsound : Sound w.state) (hids : IdsDrawn host w)
    (hA : Authenticates host w token (.agent A))
    (hasks : c.asks = some (token, request))
    (howner : ¬request.requiresOwner = true) (hx : executes request = none) :
    ConfinedFresh host A w (exec host c w) := by
  refine (wp_final (P := fun w' => ConfinedFresh host A w w')).mp ?_
  cases c with
  | request token' request' =>
      cases hasks
      exact handle_confined hk hsound hids hA hx
  | persisted token' request' =>
      cases hasks
      show wp (handlePersisted host token request) _ _ w
      cases request with
      | ownerCreateAgent _ _ _ _ => exact absurd rfl howner
      | executePurchaseIntent _ => exact nomatch hx
      | ownerBeginManualHandoff _ => exact nomatch hx
      | _ => exact handleSaved_confined hk hsound hids hA hx
  | _ => exact nomatch hasks

theorem asks_attempts {token : String} {request : Request}
    (hasks : c.asks = some (token, request)) (hx : executes request = some id) :
    c.attempts = some id := by
  cases c with
  | request token' request' =>
      cases hasks
      exact hx
  | persisted token' request' =>
      cases hasks
      exact hx
  | _ => exact nomatch hasks

/-! ## Every call of an agent -/

/-- A call by a token: a request, saved or not, or a controlled checkout. -/
def CalledBy (token : String) (c : Call) : Prop :=
  (∃ request, c.asks = some (token, request))
    ∨ ∃ id executor, c = .controlled token id executor

/-- **AGENTS STAY CONFINED.**  In every reachable world, for every token that
    is an agent's and every call by it: what is for the owner only is refused
    and changes nothing; and whatever else it is and however it ends, the
    agent is confined, and the authority that the snapshot of any currency
    shows does not grow. -/
theorem agents_stay_confined {owner token : String} {w0 : World}
    {cs : List Call} (hrun : TreasuryRun host owner w0 cs w)
    (hA : Authenticates host w token (.agent A)) (hc : CalledBy token c)
    (hfresh : FreshBelow host (exec host c w).drawn) :
    (∀ request, c.asks = some (token, request) →
      request.requiresOwner = true →
      (∃ e, result (c.perform host) w = .error e)
        ∧ (exec host c w).state = w.state)
      ∧ Confined A w (exec host c w)
      ∧ ∀ currency b b', ledgerSnapshot w.state currency = .ok b →
        ledgerSnapshot (exec host c w).state currency = .ok b' →
        b'.availableAuthority.minor ≤ b.availableAuthority.minor := by
  obtain ⟨hk, hf⟩ := hrun.kept
  have hw := hk.workable hf
  have hconfined : Confined A w (exec host c w) := by
    -- an attempt at an execution touches the intent it is for, which is the
    -- agent's own
    have hexec : ∀ {id}, c.attempts = some id →
        (∀ i, Entitled host w i c → i.agentId = A) →
        Confined A w (exec host c w) := fun ha hent =>
      attempt_confined hw hrun.sound ha hent
    rcases hc with ⟨request, hasks⟩ | ⟨id, executor, rfl⟩
    · by_cases howner : request.requiresOwner = true
      · exact .same (ownerOnly_refused hA hasks howner).2
      cases hx : executes request with
      | none =>
          exact asked_confined hk.intents hrun.sound hrun.idsDrawn hA hasks
            howner hx hfresh
      | some id =>
          refine hexec (asks_attempts hasks hx) fun i hent => ?_
          cases hent with
          | agent hc ha _ =>
              cases hasks.symm.trans hc
              exact Actor.agent.inj (ha.unique hA)
          | begun hc _ _ _ =>
              cases hasks.symm.trans hc
              exact absurd rfl howner
          | controlled _ _ => exact nomatch hasks
          | handoff _ _ _ => exact nomatch hasks
    · refine hexec rfl fun i hent => ?_
      cases hent with
      | agent hc _ _ => exact nomatch hc
      | begun hc _ _ _ => exact nomatch hc
      | controlled ha _ => exact Actor.agent.inj (ha.unique hA)
  refine ⟨fun request hasks howner => ownerOnly_refused hA hasks howner,
    hconfined, fun currency b b' hb hb' => ?_⟩
  rw [ledgerSnapshot_available hb, ledgerSnapshot_available hb']
  exact hconfined.authority currency

/-- The agent of `opening` executes its intent: it spends, and is confined. -/
theorem agents_stay_confined_executing :
    ∃ owner w0 w, TreasuryRun stillHost owner w0 (opening smallPurchase owner) w
      ∧ Authenticates stillHost w agentToken
        (.agent (idOfDraw stillHost "agent" 4))
      ∧ w.state.ledger.length < (exec stillHost (.request agentToken
        (.executePurchaseIntent (firstIntent stillHost))) w).state.ledger.length
      ∧ Confined (idOfDraw stillHost "agent" 4) w (exec stillHost
        (.request agentToken (.executePurchaseIntent (firstIntent stillHost)))
        w) := by
  have h : tryRun stillHost ⟨100000, "CAD"⟩ (opening smallPurchase)
      (fun w => isToken stillHost agentToken (idOfDraw stillHost "agent" 4) w
        && decide (w.state.ledger.length < (exec stillHost (.request agentToken
            (.executePurchaseIntent (firstIntent stillHost))) w).state.ledger.length
          ∧ (exec stillHost (.request agentToken
            (.executePurchaseIntent (firstIntent stillHost))) w).drawn ≤ 100))
      = true := by decide +kernel
  obtain ⟨owner, w0, w, hrun, hcheck⟩ := tryRun_run h
  obtain ⟨htoken, hfacts⟩ := Bool.and_eq_true_iff.mp hcheck
  obtain ⟨hspent, hdrawn⟩ := of_decide_eq_true hfacts
  have hA : Authenticates stillHost w agentToken
      (.agent (idOfDraw stillHost "agent" 4)) := isToken_run htoken
  have hconfined := agents_stay_confined hrun hA (Or.inl ⟨_, rfl⟩)
    (plainHost_fresh (Nat.le_trans hdrawn (by decide)))
  exact ⟨owner, w0, w, hrun, hA, hspent, hconfined.2.1⟩

end Treasury
