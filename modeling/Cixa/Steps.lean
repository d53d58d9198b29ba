import Cixa.Persist

/-! # Steps — what each primitive does to the world

    One exact rule for every primitive: reading the clock, drawing an
    identifier, writing the state, appending to the ledger and the audit log,
    and moving an intent.  A program is verified by these rules alone; no
    proof above this module unfolds a primitive. -/

namespace CixaData

/-! ## State updates -/

namespace TreasuryState

/-- The state after an audit entry. -/
def withEntry (s : TreasuryState) (e : AuditEntry) : TreasuryState :=
  { s with generation := s.generation + 1, audit := s.audit ++ [e] }

/-- The state after ledger events. -/
def withEvents (s : TreasuryState) (events : List LedgerEvent) :
    TreasuryState :=
  { s with ledger := s.ledger ++ events }

/-- The state after an intent is stored. -/
def withIntent (s : TreasuryState) (id : String) (intent : PurchaseIntent) :
    TreasuryState :=
  { s with intents := s.intents.insert id intent }

/-- The state after an agent is stored. -/
def withAgent (s : TreasuryState) (id : String) (record : AgentRecord) :
    TreasuryState :=
  { s with agents := s.agents.insert id record }

/-- The state after a policy is stored. -/
def withPolicy (s : TreasuryState) (id : String) (p : Policy) : TreasuryState :=
  { s with policies := s.policies.insert id p }

end TreasuryState

end CixaData

namespace Treasury

open CixaData CixaHost Outcome

variable {host : Host} {α : Type} {w : World} {E : TreasuryError → World → Prop}

/-! ## Clock, draws and writes -/

@[simp] theorem wp_now {Q : Int → World → Prop} :
    wp (now host) Q E w
      ↔ Q (host.clock w.tick) { w with tick := w.tick + 1 } := by
  unfold now
  simp only [wp_bind, wp_get, wp_set, wp_pure]

@[simp] theorem wp_randomHex {Q : String → World → Prop} {n : Nat} :
    wp (randomHex host n) Q E w
      ↔ Q (Chars.hexEncode (host.random w.drawn n))
        { w with drawn := w.drawn + 1 } := by
  unfold randomHex
  simp only [wp_bind, wp_get, wp_set, wp_pure]

@[simp] theorem wp_newId {Q : String → World → Prop} {kind : String} :
    wp (newId host kind) Q E w
      ↔ Q (idOfDraw host kind w.drawn) { w with drawn := w.drawn + 1 } := by
  unfold newId
  simp only [wp_bind, wp_randomHex, wp_pure]
  exact Iff.rfl

@[simp] theorem wp_readState {Q : TreasuryState → World → Prop} :
    wp readState Q E w ↔ Q w.state w := by
  unfold readState
  simp only [wp_bind, wp_get, wp_pure]

@[simp] theorem wp_modifyState {Q : Unit → World → Prop}
    {f : TreasuryState → TreasuryState} :
    wp (modifyState f) Q E w ↔ Q () { w with state := f w.state } := by
  unfold modifyState
  exact wp_modify _

@[simp] theorem wp_setState {Q : Unit → World → Prop}
    {s : TreasuryState} :
    wp (setState s) Q E w ↔ Q () { w with state := s } := by
  unfold setState
  exact wp_modifyState

@[simp] theorem wp_record {Q : Unit → World → Prop} {e : Event} :
    wp (record e) Q E w ↔ Q () { w with log := w.log ++ [e] } := by
  unfold record
  exact wp_modify _

@[simp] theorem wp_storeIntent {Q : Unit → World → Prop} {id : String}
    {intent : PurchaseIntent} :
    wp (storeIntent id intent) Q E w
      ↔ Q () { w with
          state := w.state.withIntent id intent
          log := w.log ++ [.stored intent] } := by
  unfold storeIntent
  simp only [wp_bind, wp_modifyState, wp_record]
  exact Iff.rfl

@[simp] theorem wp_putAgent {Q : Unit → World → Prop} {id : String}
    {r : AgentRecord} :
    wp (putAgent id r) Q E w
      ↔ Q () { w with state := w.state.withAgent id r } := by
  unfold putAgent
  exact wp_modifyState

@[simp] theorem wp_putPolicy {Q : Unit → World → Prop} {id : String}
    {p : Policy} :
    wp (putPolicy id p) Q E w
      ↔ Q () { w with state := w.state.withPolicy id p } := by
  unfold putPolicy
  exact wp_modifyState

/-! ## The ledger and the audit log -/

/-- The event `appendLedger` appends. -/
def eventOf (host : Host) (w : World) (kind : LedgerEventKind) (amount : Money)
    (intentId : Option String) (source : String) (verified : Bool) :
    LedgerEvent :=
  ⟨idOfDraw host "ledger" w.drawn, host.clock w.tick, kind, amount, intentId,
    source, verified⟩

@[simp] theorem wp_appendLedger {Q : Unit → World → Prop}
    {kind : LedgerEventKind} {amount : Money} {intentId : Option String}
    {source : String} {verified : Bool} :
    wp (appendLedger host kind amount intentId source verified) Q E w
      ↔ Q () { w with
          drawn := w.drawn + 1
          tick := w.tick + 1
          state := w.state.withEvents
            [eventOf host w kind amount intentId source verified] } := by
  unfold appendLedger
  simp only [wp_bind, wp_newId, wp_now, wp_modifyState]
  exact Iff.rfl

/-- The entry `audit` appends. -/
def entryOf (host : Host) (w : World) (actor action : String)
    (intentId : Option String) (policyVersion : Option Nat)
    (decision : Option String) (details : Json) : AuditEntry :=
  signEntry host w.auditKey (draftEntry host w.state (host.clock w.tick) actor
    action intentId policyVersion decision details)

/-- Whether the audit log has room for an entry of an action. -/
def hasRoom (s : TreasuryState) (action : String) : Prop :=
  auditCapacityAllows (nonEmergencyCount s.audit) (emergencyCount s.audit)
    action = true ∧ s.generation + 1 ≤ u64Max

/-- **THE AUDIT LOG**: an entry is appended if there is room, and otherwise
    nothing happens. -/
theorem wp_audit_or {Q : Unit → World → Prop} {actor action : String}
    {intentId : Option String} {policyVersion : Option Nat}
    {decision : Option String} {details : Json}
    (hE : ¬hasRoom w.state action → ∀ e, E e w)
    (hQ : hasRoom w.state action → Q () { w with
      tick := w.tick + 1
      state := w.state.withEntry (entryOf host w actor action intentId
        policyVersion decision details) }) :
    wp (audit host actor action intentId policyVersion decision details) Q E w := by
  unfold audit
  rw [wp_bind, wp_get, wp_bind, wp_rejectIf]
  refine ⟨fun hcap => hE (fun hroom => ?_) _, fun hcap => ?_⟩
  · rw [hroom.1] at hcap
    exact nomatch hcap
  rw [wp_bind, wp_rejectIf]
  refine ⟨fun hgen => hE (fun hroom => ?_) _, fun hgen => ?_⟩
  · exact absurd hroom.2 (by omega)
  simp only [wp_bind, wp_modifyState, wp_now]
  exact hQ ⟨by simpa using hcap, by omega⟩

/-- Writing an entry where a full log is as good as any other failure. -/
theorem wp_audit {Q : Unit → World → Prop} {actor action : String}
    {intentId : Option String} {policyVersion : Option Nat}
    {decision : Option String} {details : Json} (hE : ∀ e, E e w)
    (hQ : hasRoom w.state action → Q () { w with
      tick := w.tick + 1
      state := w.state.withEntry (entryOf host w actor action intentId
        policyVersion decision details) }) :
    wp (audit host actor action intentId policyVersion decision details) Q E w :=
  wp_audit_or (fun _ => hE) hQ

/-- With room, `audit` cannot fail. -/
theorem wp_audit_of_room {Q : Unit → World → Prop} {actor action : String}
    {intentId : Option String} {policyVersion : Option Nat}
    {decision : Option String} {details : Json}
    (hroom : hasRoom w.state action)
    (hQ : Q () { w with
      tick := w.tick + 1
      state := w.state.withEntry (entryOf host w actor action intentId
        policyVersion decision details) }) :
    wp (audit host actor action intentId policyVersion decision details) Q E w := by
  unfold audit
  simp only [wp_bind, wp_get, wp_rejectIf]
  refine ⟨fun h => absurd hroom.1 (by simp [h]), fun _ =>
    ⟨fun h => absurd hroom.2 (by omega), fun _ => ?_⟩⟩
  simp only [wp_modifyState, wp_now]
  exact hQ

theorem hasRoom_of_safety {s : TreasuryState} {action : String}
    (hact : isMoneySafetyAudit action = true)
    (hcap : nonEmergencyCount s.audit < maxAuditEntries)
    (hgen : s.generation + 1 ≤ u64Max) : hasRoom s action := by
  refine ⟨?_, hgen⟩
  unfold auditCapacityAllows
  split
  · rfl
  · split
    · rename_i heq
      rw [heq] at hact
      exact nomatch hact
    · unfold auditLimit
      rw [if_pos hact]
      exact decide_eq_true hcap

/-! ## Intents -/

theorem wp_transition {Q : PurchaseIntent → World → Prop}
    {intent : PurchaseIntent} {next : TransactionState} (hE : ∀ e, E e w)
    (hQ : intent.state.canTransition next = true →
      Q { intent with state := next, updatedAt := host.clock w.tick }
        { w with tick := w.tick + 1 }) :
    wp (transition host intent next) Q E w := by
  unfold transition
  refine line_rejectIf hE fun hcan => ?_
  simp only [wp_bind, wp_now, wp_pure]
  exact hQ (by simpa using hcan)

/-- An allowed transition cannot fail. -/
theorem wp_transition_of_can {Q : PurchaseIntent → World → Prop}
    {intent : PurchaseIntent} {next : TransactionState}
    (hcan : intent.state.canTransition next = true)
    (hQ : Q { intent with state := next, updatedAt := host.clock w.tick }
      { w with tick := w.tick + 1 }) :
    wp (transition host intent next) Q E w := by
  unfold transition
  simp only [wp_bind, wp_rejectIf, wp_now, wp_pure]
  exact ⟨fun h => absurd hcan (by simp [h]), fun _ => hQ⟩

/-- An intent with its receipt issued at a time. -/
def withReceipt (host : Host) (intent : PurchaseIntent) (at_ : Int) :
    PurchaseIntent :=
  { intent with
    receiptHash := some (receiptHash host (receiptOf intent at_))
    receipt := some (receiptOf intent at_) }

theorem wp_issueReceipt {Q : PurchaseIntent → World → Prop}
    {intent : PurchaseIntent} (hE : ∀ e, E e w)
    (hQ : intent.receipt = none → intent.receiptHash = none →
      Q (withReceipt host intent (host.clock w.tick))
        { w with tick := w.tick + 1 }) :
    wp (issueReceipt host intent) Q E w := by
  unfold issueReceipt
  refine line_rejectIf hE fun hnone => ?_
  have h1 : intent.receipt = none := by
    cases h : intent.receipt with
    | none => rfl
    | some r => exact absurd (Or.inl (by simp [h])) hnone
  have h2 : intent.receiptHash = none := by
    cases h : intent.receiptHash with
    | none => rfl
    | some r => exact absurd (Or.inr (by simp [h])) hnone
  simp only [wp_bind, wp_now, wp_pure]
  exact hQ h1 h2

/-! ## Authority of the caller -/

theorem requireOwner_ok {actor : Actor} {u : Unit}
    (h : requireOwner actor = .ok u) : actor = .owner := by
  unfold requireOwner at h
  simpa using h

theorem requireAgentScope_ok {s : TreasuryState} {actor : Actor}
    {scope agentId : String} (h : requireAgentScope s actor scope = .ok agentId) :
    actor = .agent agentId ∧ ∃ r, s.agents.get? agentId = some r
      ∧ r.scopes.contains scope = true := by
  unfold requireAgentScope at h
  simp only [Checks.bind_eq_ok, Checks.refuseIf_eq_ok, Checks.pure_eq_ok] at h
  obtain ⟨id, hid, r, hr, _, hscope, rfl⟩ := h
  cases actor with
  | owner => cases hid
  | agent id' =>
      cases hid
      refine ⟨rfl, r, ?_, by simpa using hscope⟩
      unfold agent at hr
      exact Checks.orRefuse_eq_ok.mp hr

/-- An agent that has a scope passes its check. -/
theorem requireAgentScope_of {s : TreasuryState} {id scope : String}
    {r : AgentRecord} (hr : s.agents.get? id = some r)
    (hscope : r.scopes.contains scope = true) :
    requireAgentScope s (.agent id) scope = .ok id := by
  unfold requireAgentScope
  simp only [Checks.bind_eq_ok, Checks.refuseIf_eq_ok, Checks.pure_eq_ok]
  refine ⟨id, rfl, r, Checks.orRefuse_eq_ok.mpr hr, ⟨⟩, ?_, rfl⟩
  rw [hscope]
  exact Bool.noConfusion

theorem agent_ok {s : TreasuryState} {id : String} {r : AgentRecord} :
    agent s id = .ok r ↔ s.agents.get? id = some r :=
  Checks.orRefuse_eq_ok

theorem policy_ok {s : TreasuryState} {id : String} {p : Policy} :
    policy s id = .ok p ↔ s.policies.get? id = some p :=
  Checks.orRefuse_eq_ok

theorem intentForAgent_ok {s : TreasuryState} {agentId id : String}
    {i : PurchaseIntent} :
    intentForAgent s agentId id = .ok i
      ↔ s.intents.get? id = some i ∧ i.agentId = agentId := by
  unfold intentForAgent
  simp only [Checks.bind_eq_ok, Checks.orRefuse_eq_ok, Checks.refuseIf_eq_ok,
    Checks.pure_eq_ok]
  constructor
  · rintro ⟨i', hi, _, ha, rfl⟩
    exact ⟨hi, by simpa using ha⟩
  · rintro ⟨hi, ha⟩
    exact ⟨i, hi, ⟨⟩, by simpa using ha, rfl⟩

end Treasury
