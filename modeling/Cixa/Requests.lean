import Cixa.Attempts

/-! # Requests — what each request may change

    A request that executes nothing is a path of changes that `permits` lists
    for it and for its caller: an owner request changes something only for
    the OWNER, about the agent or the intent it names, and then writes the
    audit log; a read-only request changes nothing. -/

namespace Treasury

open CixaData CixaHost Outcome Transition

variable {host : Host} {w : World} {α β : Type}

/-! ## Programs within labels -/

/-- Every run of a program is a path of allowed changes. -/
def Within (host : Host) (allowed : Label → Prop) (x : Op α) (w : World) :
    Prop :=
  wp x (fun _ w' => Path host allowed w w') (fun _ w' => Path host allowed w w') w

section Combinators

variable {allowed : Label → Prop} {v : World}

/-- What follows a path is a path. -/
theorem Within.after {x : Op α} (hp : Path host allowed w v)
    (h : Within host allowed x v) :
    wp x (fun _ w' => Path host allowed w w')
      (fun _ w' => Path host allowed w w') v :=
  wp_mono h (fun _ _ h => hp.trans h) (fun _ _ h => hp.trans h)

theorem Quietly.within {x : Op α} (h : Quietly x) (hq : allowed .quiet) :
    Within host allowed x w := h.path hq w

/-- The entry written after a change, and a value returned. -/
theorem auditThen {actor action : String} {intentId : Option String}
    {policyVersion : Option Nat} {decision : Option String} {details : Json}
    {x : Op β} (hp : Path host allowed w v) (ha : allowed (.audit action))
    (hq : allowed .quiet) (hx : Quietly x) :
    wp (audit host actor action intentId policyVersion decision details
        >>= fun _ => x)
      (fun _ w' => Path host allowed w w')
      (fun _ w' => Path host allowed w w') v := by
  rw [wp_bind]
  refine wp_audit (fun _ => hp) fun hroom => ?_
  refine Within.after (hp.tail ha (.audit ?_ ?_ rfl rfl)) (hx.within hq)
  · exact ⟨rfl, Nat.le_succ _, Nat.le_refl _, Nat.le_refl _⟩
  · exact .next hroom rfl rfl ⟨Nat.le_refl _, Nat.lt_succ_self _⟩

end Combinators

/-! ## Storing an intent or an agent -/

section Storing

variable {allowed : Label → Prop} {v : World}

/-- Storing a moved intent after quiet lines. -/
theorem moved {i : PurchaseIntent} {next : TransactionState} {t : Int}
    (lastError : Option String) (hq : Quiet w v)
    (hi : w.state.intents.get? i.id = some i) (hm : movesTo i next)
    (ht : ReadIn host w v t) (hl : allowed (.move i.id next)) :
    Path host allowed w { v with
      state := v.state.withIntent i.id
        { i with state := next, updatedAt := t, lastError := lastError }
      log := v.log ++ [.stored
        { i with state := next, updatedAt := t, lastError := lastError }] } := by
  refine .single hl ?_
  apply Change.move
  case ha => exact ⟨hq.key, hq.tick, hq.drawn, hq.saves⟩
  case hi => exact hi
  case hm => exact hm
  case ht => exact Or.inr ht
  case hs => rw [hq.state]
  case hl => rw [hq.log]

/-- Storing an edited agent after quiet lines. -/
theorem edited {id : String} {edit : AgentEdit} {r r' : AgentRecord}
    (hq : Quiet w v) (hr : w.state.agents.get? id = some r)
    (he : Edited host w v r edit r') (hl : allowed (.editAgent id edit)) :
    Path host allowed w { v with state := v.state.withAgent id r' } := by
  refine .single hl (.editAgent ⟨hq.key, hq.tick, hq.drawn, hq.saves⟩ hr
    (he.widen (Quiet.refl w) ?_) ?_ hq.log)
  · exact ⟨rfl, Nat.le_refl _, Nat.le_refl _, Nat.le_refl _⟩
  · rw [hq.state]

end Storing

/-! ## What a request permits -/

/-- The actions that a request may write an entry for, beyond those of the
    changes it makes. -/
def audits : Request → List String
  | .createPurchaseIntent _ => ["transaction_rate_limited"]
  | .cancelPurchaseIntent _ => ["cancel_purchase_intent"]
  | .ownerCreateAgent .. => ["create_agent"]
  | .ownerCreateAgentPrepared .. => ["create_agent"]
  | .ownerUpdatePolicy .. => ["update_policy"]
  | .ownerSetAgentMode .. => ["set_agent_mode"]
  | .ownerRevokeAgent _ => ["revoke_agent"]
  | .ownerRotateAgentCapability .. => ["rotate_agent_capability"]
  | .ownerSetEmergencyStop stopped =>
      [if stopped = true then "emergency_stop_on" else "emergency_stop_off"]
  | .ownerApproveIntent _ => ["approve_intent"]
  | .ownerDenyIntent _ => ["deny_intent"]
  | .ownerCompleteManualHandoff _ => ["complete_manual_handoff"]
  | .ownerApproveMerchant .. => ["approve_merchant"]
  | .ownerReconcile .. => ["reconcile_intent"]
  | .ownerRecordDeposit .. => ["record_deposit"]
  | .ownerArmAgentSession .. => ["arm_agent_session"]
  | .ownerConfigureManualProvider _ => ["configure_manual_provider"]
  | .ownerConfigureReceiveInstructions .. => ["configure_receive_instructions"]
  | _ => []

/-- The changes a request may make for a caller. -/
def permits (actor : Actor) : Request → Label → Prop
  | _, .quiet => True
  | request, .audit action => action ∈ audits request
  | .createPurchaseIntent _, .addIntent _ => True
  | .cancelPurchaseIntent id, .move id' next => id' = id ∧ next = .cancelled
  | .ownerCreateAgent .., .addAgent _ _ => actor = .owner
  | .ownerCreateAgentPrepared _ _ _ _ token, .addAgent _ token' =>
      actor = .owner ∧ token' = token
  | .ownerUpdatePolicy id _, .setPolicy id' => actor = .owner ∧ id' = id
  | .ownerSetAgentMode id mode, .editAgent id' edit =>
      actor = .owner ∧ id' = id ∧ edit = .mode mode
  | .ownerRevokeAgent id, .editAgent id' edit =>
      actor = .owner ∧ id' = id ∧ edit = .revoke
  | .ownerRotateAgentCapability id _ token, .editAgent id' edit =>
      actor = .owner ∧ id' = id ∧ edit = .rotate token
  | .ownerSetEmergencyStop stopped, .setStop stopped' =>
      actor = .owner ∧ stopped' = stopped
  | .ownerSetEmergencyStop stopped, .editAgent _ edit =>
      actor = .owner ∧ stopped = true ∧ edit = .stop
  | .ownerApproveIntent id, .move id' next =>
      actor = .owner ∧ id' = id ∧ next = .approved
  | .ownerDenyIntent id, .move id' next =>
      actor = .owner ∧ id' = id ∧ next = .cancelled
  | .ownerCompleteManualHandoff id, .move id' next =>
      actor = .owner ∧ id' = id ∧ next = .unknown
  | .ownerApproveMerchant id _, .editAgent id' edit =>
      actor = .owner ∧ id' = id ∧ ∃ merchant, edit = .approveMerchant merchant
  | .ownerReconcile id outcome _, .reconcile id' outcome' =>
      actor = .owner ∧ id' = id ∧ outcome' = outcome
  | .ownerRecordDeposit .., .deposit => actor = .owner
  | .ownerArmAgentSession id _, .editAgent id' edit =>
      actor = .owner ∧ id' = id ∧ edit = .arm
  | .ownerConfigureManualProvider _, .configureManual => actor = .owner
  | .ownerConfigureReceiveInstructions .., .configureReceive => actor = .owner
  | _, _ => False

/-- The requests that execute an intent. -/
def executes : Request → Option String
  | .executePurchaseIntent id => some id
  | .ownerBeginManualHandoff id => some id
  | _ => none

/-! ## Creating and cancelling -/

section Creating

variable {actor : Actor}

/-- A refusal for the rate limit writes at most one entry. -/
theorem refuseForRate_within {allowed : Label → Prop} (s : TreasuryState)
    (agentId : String) (p : Policy) (hq : allowed .quiet)
    (ha : allowed (.audit "transaction_rate_limited")) :
    Within host allowed (refuseForRate host s agentId p) w := by
  unfold Within refuseForRate
  rw [wp_bind, wp_now, wp_ite, wp_throw]
  have hp : Path host allowed w { w with tick := w.tick + 1 } :=
    .quiet hq (Quiet.readClock w)
  exact ⟨fun _ => hp, fun _ => auditThen hp ha hq (.throw _)⟩

/-- **CREATING AN INTENT** stores it with its decision, or moves only
    counters. -/
theorem insertNewIntent_spec {agentId : String} {r : AgentRecord} {p : Policy}
    {request : PurchaseRequest} {decision : PolicyDecision} {v : World}
    (hq : Quiet w v)
    (hn : ∀ w' i, Advance v w' → i.agentId = agentId → i.request = request →
      i.decision = decision → i.brokerSessionId = r.brokerSessionId →
      i.policyVersion = p.version → i.state = stateOfDecision decision →
      DrawnIn host w w' "intent" i.id → (∃ m n, v.tick ≤ m ∧ m ≤ n
        ∧ n < w'.tick ∧ i.createdAt = host.clock m
        ∧ i.updatedAt = host.clock n) → i.receipt = none →
      i.receiptHash = none → i.providerReference = none →
      NewIntent host w w' i) :
    wp (insertNewIntent host agentId r p request decision)
      (fun _ w' => ∃ id, Change host (.addIntent id) w w')
      (fun _ w' => Quiet w w') v := by
  -- whatever was decided, the second step can be taken
  have hcan : TransactionState.canTransition .proposed
      (stateOfDecision decision) = true := by
    unfold stateOfDecision
    split
    · rfl
    · split
      · rfl
      · rfl
  have htick := hq.tick
  have hdrawn := hq.drawn
  unfold insertNewIntent
  rw [wp_bind, wp_newId, wp_bind, wp_now, wp_bind]
  refine wp_transition_of_can rfl ?_
  rw [wp_bind]
  refine wp_transition_of_can hcan ?_
  rw [wp_bind]
  refine wp_audit (fun _ => ?_) fun hroom => ?_
  · refine ⟨⟨hq.key, ?_, Nat.le_succ_of_le hdrawn, hq.saves⟩, hq.state, hq.log⟩
    show w.tick ≤ v.tick + 1 + 1 + 1
    omega
  rw [wp_bind, wp_storeIntent, wp_pure]
  apply Exists.intro
  apply Change.addIntent
  case ha =>
    refine ⟨hq.key, ?_, Nat.le_succ_of_le hdrawn, hq.saves⟩
    show w.tick ≤ v.tick + 1 + 1 + 1 + 1
    omega
  case hl => rw [← hq.log]
  case hs =>
    rw [← hq.state]
    rfl
  case he =>
    refine .next hroom hq.state hq.key ⟨?_, ?_⟩
    · show w.tick ≤ v.tick + 1 + 1 + 1
      omega
    · exact Nat.lt_succ_self _
  case hn =>
    refine hn _ _ ?_ rfl rfl rfl rfl rfl rfl ?_ ?_ rfl rfl rfl
    · refine ⟨rfl, ?_, Nat.le_succ _, Nat.le_refl _⟩
      show v.tick ≤ v.tick + 1 + 1 + 1 + 1
      omega
    · exact .next hdrawn (Nat.lt_succ_self _)
    · refine ⟨v.tick, v.tick + 1 + 1, Nat.le_refl _, by omega, ?_, rfl, rfl⟩
      show v.tick + 1 + 1 < v.tick + 1 + 1 + 1 + 1
      omega

theorem createIntent_within (request : PurchaseRequest) :
    Within host (permits actor (.createPurchaseIntent request))
      (createIntent host actor request) w := by
  have hq : permits actor (.createPurchaseIntent request) .quiet := trivial
  have h0 : Path host (permits actor (.createPurchaseIntent request)) w w :=
    .refl w
  unfold Within createIntent
  rw [wp_bind, wp_readState]
  refine line_lift (fun _ => h0) fun agentId _ => ?_
  refine line_lift (fun _ => h0) fun r hr => ?_
  refine line_lift (fun _ => h0) fun normal hnormal => ?_
  split
  · rw [wp_ite, wp_pure, wp_throw]
    exact ⟨fun _ => h0, fun _ => h0⟩
  rename_i hnone
  unfold createNewIntent
  refine line_rejectIf (fun _ => h0) fun hquota => ?_
  refine line_rejectIf (fun _ => h0) fun hagents => ?_
  refine line_lift (fun _ => h0) fun p hp => ?_
  refine line_quiet (requireArmedSession_quietly _ _)
    (fun _ _ h => .quiet hq h) fun _ a ha => ?_
  refine line_quiet (usage_quietly _ _ _)
    (fun _ _ h => .quiet hq (ha.trans h)) fun used b hb => ?_
  have hab := ha.trans hb
  rw [wp_ite]
  refine ⟨fun _ => Within.after (.quiet hq hab)
    (refuseForRate_within _ _ _ hq (.head _)), fun _ => ?_⟩
  refine line (wp_mono (wp_and ((decideRequest_quietly _ _ _ _ _).run b)
    (wp_self _)) (fun _ _ h => h)
      (fun _ _ h => .quiet hq (hab.trans h.1))) ?_
  rintro decision c ⟨hc, hdec⟩
  rw [wp_bind, wp_now]
  have hd := (hab.trans hc).trans (Quiet.readClock c)
  refine wp_mono (insertNewIntent_spec hd ?_) ?_ ?_
  · intro w' i hw' hagent hreq hdecision hsession hversion hstate hid htimes
      h1 h2 h3
    have hwc := (hab.trans hc).tick
    -- the search found no intent under this key
    have hunbound : ∀ id j, w.state.intents.get? id = some j →
        j.agentId = i.agentId →
        j.request.idempotencyKey ≠ i.request.idempotencyKey := by
      intro id j hj hown hkey
      have hno := List.find?_eq_none.mp hnone j (SortedMap.mem_values_of_get? hj)
      rw [hagent, hreq] at *
      exact hno (decide_eq_true ⟨hown, hkey⟩)
    obtain ⟨m, n, hm, hmn, hn, hcreated, hupdated⟩ := htimes
    have hcm : c.tick ≤ m := Nat.le_of_succ_le hm
    -- what the checks found, collected for the new intent
    exact {
      id := hid
      normal := ⟨request, by rw [hreq]; exact hnormal⟩
      unbound := hunbound
      quota := not_le.mp hquota
      agentQuota := by rw [hagent]; exact not_le.mp hagents
      agent := ⟨r, p, hagent ▸ agent_ok.mp hr, policy_ok.mp hp, hsession,
        hversion, used, decision, c.tick, b, c, hab, Nat.le_refl _,
        ⟨m, n, hcm, hmn, hn, hcreated, hupdated⟩,
        by rw [hreq]; exact hdec, by rw [hagent, hreq]; exact hdecision⟩
      state := by rw [hstate, hdecision]
      created := ⟨m, by omega, by omega, hcreated⟩
      updated := ⟨n, by omega, hn, hupdated⟩
      receipt := h1
      receiptHash := h2
      providerReference := h3 }
  · rintro _ w' ⟨id, hchange⟩
    exact .single (show permits actor (.createPurchaseIntent request)
      (.addIntent id) from trivial) hchange
  · exact fun _ _ h => .quiet hq h

theorem cancelIntent_within {id : String} (hk : Keyed w.state) :
    Within host (permits actor (.cancelPurchaseIntent id))
      (cancelIntent host actor id) w := by
  have hq : permits actor (.cancelPurchaseIntent id) .quiet := trivial
  have h0 : Path host (permits actor (.cancelPurchaseIntent id)) w w := .refl w
  unfold Within cancelIntent
  rw [wp_bind, wp_readState]
  refine line_lift (fun _ => h0) fun agentId _ => ?_
  refine line_lift (fun _ => h0) fun i hi => ?_
  obtain ⟨hi, _⟩ := intentForAgent_ok.mp hi
  obtain rfl := hk _ _ hi
  refine line_rejectIf (fun _ => h0) fun hstate => ?_
  rw [wp_bind]
  refine wp_transition (fun _ => h0) fun hcan => ?_
  rw [wp_bind, wp_storeIntent]
  refine auditThen (moved (i := i) _ (Quiet.readClock w) hi
    (Or.inl ⟨hcan, Or.inr (Or.inl rfl)⟩)
    (.next (Nat.le_refl _) (Nat.lt_succ_self _)) ?_) (.head _) hq (.pure _)
  exact ⟨rfl, rfl⟩

end Creating

/-! ## Approvals and handoffs -/

section Approvals

variable {actor : Actor} {id : String}

/-- Deciding an approval moves the intent, for the owner only. -/
theorem decideApproval_within {allowed : Label → Prop}
    {next : TransactionState} {lastError : Option String → Option String}
    {action decision : String} {details : Json} (hk : Keyed w.state)
    (hq : allowed .quiet) (ha : allowed (.audit action))
    (hnext : next = .approved ∨ next = .cancelled ∨ next = .unknown)
    (hl : actor = .owner → allowed (.move id next)) :
    Within host allowed (decideApproval host actor id next lastError action
      decision details) w := by
  have h0 : Path host allowed w w := .refl w
  unfold Within decideApproval
  rw [wp_bind, wp_readState]
  refine line_lift (fun _ => h0) fun _ howner => ?_
  refine line_orReject (fun _ => h0) fun i hi => ?_
  obtain rfl := hk _ _ hi
  refine line_rejectIf (fun _ => h0) fun _ => ?_
  rw [wp_bind]
  refine wp_transition (fun _ => h0) fun hcan => ?_
  rw [wp_bind, wp_storeIntent]
  exact auditThen (moved (i := i) _ (Quiet.readClock w) hi
    (Or.inl ⟨hcan, hnext⟩) (.next (Nat.le_refl _) (Nat.lt_succ_self _))
    (hl (requireOwner_ok howner))) ha hq (.pure _)

theorem ownerApprove_within (hk : Keyed w.state) :
    Within host (permits actor (.ownerApproveIntent id))
      (ownerApprove host actor id) w :=
  decideApproval_within hk trivial (.head _) (Or.inl rfl) fun h => ⟨h, rfl, rfl⟩

theorem ownerDeny_within (hk : Keyed w.state) :
    Within host (permits actor (.ownerDenyIntent id))
      (ownerDeny host actor id) w :=
  decideApproval_within hk trivial (.head _) (Or.inr (Or.inl rfl)) fun h =>
    ⟨h, rfl, rfl⟩

theorem ownerCompleteManualHandoff_within (hk : Keyed w.state) :
    Within host (permits actor (.ownerCompleteManualHandoff id))
      (ownerCompleteManualHandoff host actor id) w := by
  have hq : permits actor (.ownerCompleteManualHandoff id) .quiet := trivial
  have h0 : Path host (permits actor (.ownerCompleteManualHandoff id)) w w :=
    .refl w
  unfold Within ownerCompleteManualHandoff
  rw [wp_bind, wp_readState]
  refine line_lift (fun _ => h0) fun _ howner => ?_
  refine line_orReject (fun _ => h0) fun i hi => ?_
  obtain rfl := hk _ _ hi
  refine line_rejectIf (fun _ => h0) fun _ => ?_
  rw [wp_bind]
  refine wp_transition (fun _ => h0) fun hcan => ?_
  rw [wp_bind, wp_storeIntent]
  refine auditThen (moved (i := i) _ (Quiet.readClock w) hi
    (Or.inl ⟨hcan, Or.inr (Or.inr rfl)⟩)
    (.next (Nat.le_refl _) (Nat.lt_succ_self _)) ?_) (.head _) hq (.pure _)
  exact ⟨requireOwner_ok howner, rfl, rfl⟩

end Approvals

/-! ## Agents -/

section Agents

variable {actor : Actor} {id : String}

theorem ownerSetAgentMode_within {mode : AutonomyMode} :
    Within host (permits actor (.ownerSetAgentMode id mode))
      (ownerSetAgentMode host actor id mode) w := by
  have h0 : Path host (permits actor (.ownerSetAgentMode id mode)) w w :=
    .refl w
  unfold Within ownerSetAgentMode
  rw [wp_bind, wp_readState]
  refine line_lift (fun _ => h0) fun _ howner => ?_
  refine line_orReject (fun _ => h0) fun r hr => ?_
  rw [wp_bind, wp_putAgent]
  exact auditThen (edited (Quiet.refl w) hr .mode
    ⟨requireOwner_ok howner, rfl, rfl⟩) (.head _) trivial (.pure _)

theorem ownerRevokeAgent_within :
    Within host (permits actor (.ownerRevokeAgent id))
      (ownerRevokeAgent host actor id) w := by
  have h0 : Path host (permits actor (.ownerRevokeAgent id)) w w := .refl w
  unfold Within ownerRevokeAgent
  rw [wp_bind, wp_readState]
  refine line_lift (fun _ => h0) fun _ howner => ?_
  refine line_orReject (fun _ => h0) fun r hr => ?_
  rw [wp_bind, wp_putAgent]
  exact auditThen (edited (Quiet.refl w) hr .revoke
    ⟨requireOwner_ok howner, rfl, rfl⟩) (.head _) trivial (.pure _)

theorem ownerArmAgentSession_within {ttlSecs : Int} :
    Within host (permits actor (.ownerArmAgentSession id ttlSecs))
      (ownerArmAgentSession host actor id ttlSecs) w := by
  have h0 : Path host (permits actor (.ownerArmAgentSession id ttlSecs)) w w :=
    .refl w
  unfold Within ownerArmAgentSession
  rw [wp_bind, wp_readState]
  refine line_lift (fun _ => h0) fun _ howner => ?_
  refine line_rejectIf (fun _ => h0) fun hstop => ?_
  refine line_lift (fun _ => h0) fun r hr => ?_
  refine line_lift (fun _ => h0) fun p hp => ?_
  refine line_rejectIf (fun _ => h0) fun httl => ?_
  rw [wp_bind, wp_now, wp_bind, wp_newId, wp_bind, wp_putAgent]
  refine auditThen (edited (v := { w with
      tick := w.tick + 1
      drawn := w.drawn + 1 }) ?_ (agent_ok.mp hr) (.arm ?_ (policy_ok.mp hp)
        ?_ ?_ ?_ ?_) ⟨requireOwner_ok howner, rfl, rfl⟩) (.head _) trivial (.pure _)
  · exact (Quiet.readClock w).trans (Quiet.draw _)
  · simpa using hstop
  · omega
  · omega
  · exact .next (Nat.le_refl _) (Nat.lt_succ_self _)
  · exact .next (Nat.le_refl _) (Nat.lt_succ_self _)

/-- The expiry of a new session. -/
theorem sessionExpiry_spec {ttl : Int} {E : TreasuryError → World → Prop} :
    wp (sessionExpiry host w.state ttl) (fun expiry w' => Quiet w w'
      ∧ ((w.state.emergencyStop = true ∧ expiry = 0 ∧ w' = w)
        ∨ (w.state.emergencyStop = false
          ∧ expiry = I64.wrappingAdd (host.clock w.tick) ttl
          ∧ w' = { w with tick := w.tick + 1 }))) E w := by
  unfold sessionExpiry
  rw [wp_ite, wp_pure, wp_bind, wp_now, wp_pure]
  constructor
  · exact fun h => ⟨Quiet.refl w, Or.inl ⟨h, rfl, rfl⟩⟩
  · exact fun h => ⟨Quiet.readClock w, Or.inr ⟨by simpa using h, rfl, rfl⟩⟩

/-- The expiry is one of a session given between two worlds. -/
theorem SessionEnd.made {ttl expiry : Int} {a b : World}
    (h : (w.state.emergencyStop = true ∧ expiry = 0 ∧ b = a)
      ∨ (w.state.emergencyStop = false
        ∧ expiry = I64.wrappingAdd (host.clock a.tick) ttl
        ∧ b = { a with tick := a.tick + 1 })) (ha : Advance w a) :
    SessionEnd host w b ttl expiry := by
  rcases h with ⟨hstop, h0, _⟩ | ⟨hstop, heq, rfl⟩
  · exact Or.inl ⟨hstop, h0⟩
  · exact Or.inr ⟨hstop, _, .next ha.tick (Nat.lt_succ_self _), heq⟩

theorem ownerRotateAgentCapability_within {ttlSecs : Int} {token : String} :
    Within host (permits actor (.ownerRotateAgentCapability id ttlSecs token))
      (ownerRotateAgentCapability host actor id ttlSecs token) w := by
  have h0 : Path host
      (permits actor (.ownerRotateAgentCapability id ttlSecs token)) w w :=
    .refl w
  unfold Within ownerRotateAgentCapability
  rw [wp_bind, wp_readState]
  refine line_lift (fun _ => h0) fun _ howner => ?_
  refine line_lift (fun _ => h0) fun _ httl => ?_
  refine line_lift (fun _ => h0) fun r hr => ?_
  refine line_lift (fun _ => h0) fun p hp => ?_
  refine line_lift (fun _ => h0) fun _ htoken => ?_
  unfold requireAgentTtl at httl
  rw [Checks.refuseIf_eq_ok] at httl
  rw [wp_bind, wp_now]
  refine line (sessionExpiry_spec (w := { w with tick := w.tick + 1 })) ?_
  rintro expiry b ⟨hb, hend⟩
  have hwb : Quiet w b := (Quiet.readClock w).trans hb
  rw [wp_bind, wp_newId, wp_bind, wp_putAgent]
  refine auditThen (edited (v := { b with drawn := b.drawn + 1 })
    (hwb.trans (Quiet.draw b)) (agent_ok.mp hr) (.rotate (policy_ok.mp hp)
      htoken ?_ ?_ ?_ ?_ ?_) ⟨requireOwner_ok howner, rfl, rfl⟩) (.head _) trivial
    (.pure _)
  · omega
  · omega
  · exact ⟨w.tick, Nat.le_refl _, hb.tick, rfl⟩
  · exact (SessionEnd.made (w := w) hend (Quiet.readClock w).toAdvance).widen
      (Quiet.refl w) (Quiet.draw b).toAdvance
  · exact .next hwb.drawn (Nat.lt_succ_self _)

theorem ownerApproveMerchant_within {domain : String} :
    Within host (permits actor (.ownerApproveMerchant id domain))
      (ownerApproveMerchant host actor id domain) w := by
  have h0 : Path host (permits actor (.ownerApproveMerchant id domain)) w w :=
    .refl w
  unfold Within ownerApproveMerchant
  rw [wp_bind, wp_readState]
  refine line_lift (fun _ => h0) fun _ howner => ?_
  refine line_lift (fun _ => h0) fun merchant hm => ?_
  refine line_orReject (fun _ => h0) fun r hr => ?_
  rw [wp_ite, wp_pure]
  refine ⟨fun _ => h0, fun hnew => ?_⟩
  refine line_rejectIf (fun _ => h0) fun hsize => ?_
  rw [wp_bind, wp_putAgent]
  exact auditThen (edited (Quiet.refl w) hr
    (.approveMerchant hm (by simpa using hnew) (by omega))
    ⟨requireOwner_ok howner, rfl, merchant, rfl⟩) (.head _) trivial (.pure _)

theorem ownerUpdatePolicy_within {policy : Policy} :
    Within host (permits actor (.ownerUpdatePolicy id policy))
      (ownerUpdatePolicy host actor id policy) w := by
  have h0 : Path host (permits actor (.ownerUpdatePolicy id policy)) w w :=
    .refl w
  unfold Within ownerUpdatePolicy
  rw [wp_bind, wp_readState]
  refine line_lift (fun _ => h0) fun _ howner => ?_
  refine line_lift (fun _ => h0) fun _ _ => ?_
  refine line_lift (fun _ => h0) fun _ hexposure => ?_
  refine line_lift (fun _ => h0) fun r hr => ?_
  refine line_lift (fun _ => h0) fun current hc => ?_
  refine line_lift (fun _ => h0) fun _ hv => ?_
  rw [wp_bind, wp_putPolicy]
  refine auditThen (.single (l := .setPolicy id)
    ⟨requireOwner_ok howner, rfl⟩ (.setPolicy ?_ (agent_ok.mp hr)
      (policy_ok.mp hc) hv rfl ⟨policy, hexposure, rfl⟩ rfl rfl)) (.head _) trivial
    (.pure _)
  exact ⟨rfl, Nat.le_refl _, Nat.le_refl _, Nat.le_refl _⟩

/-- The session of an agent after the stop. -/
def StoppedIn (host : Host) (w w' : World) (r : AgentRecord) : Prop :=
  DrawnIn host w w' "stopped-session" r.brokerSessionId
    ∧ r.brokerSessionExpiresAt = 0

/-- The labels of stopping a list of agents. -/
def Stopping (l : List (String × AgentRecord)) (label : Label) : Prop :=
  ∃ e ∈ l, label = .editAgent e.1 .stop

/-- What stopping a list of agents leads to. -/
structure StoppedAll (host : Host) (l : List (String × AgentRecord))
    (w w' : World) : Prop where
  path : Path host (Stopping l) w w'
  log : w'.log = w.log
  state : ∃ agents, w'.state = { w.state with agents := agents }
  agents : ∀ id r, w'.state.agents.get? id = some r →
    StoppedIn host w w' r
      ∨ (w.state.agents.get? id = some r ∧ ∀ e ∈ l, e.1 ≠ id)

/-- **STOPPING AGENTS** gives each of them a new session that has expired;
    the list has every agent once, with its current record. -/
theorem stopAgents_spec {l : List (String × AgentRecord)}
    {E : TreasuryError → World → Prop}
    (hmem : ∀ e ∈ l, w.state.agents.get? e.1 = some e.2)
    (hne : l.Pairwise (fun a b => a.1 ≠ b.1)) :
    wp (stopAgents host l) (fun _ w' => StoppedAll host l w w') E w := by
  induction l generalizing w with
  | nil =>
      exact (wp_pure _).mpr ⟨.refl w, rfl, ⟨_, rfl⟩, fun id r hr =>
        Or.inr ⟨hr, fun e he => nomatch he⟩⟩
  | cons e rest ih =>
      obtain ⟨hfirst, hrest⟩ := List.pairwise_cons.mp hne
      unfold stopAgents stopAgent
      rw [wp_bind, wp_bind, wp_newId, wp_putAgent]
      have hr := hmem e (List.mem_cons_self ..)
      generalize hv : World.mk _ _ _ _ _ _ = v
      have hedit : Path host (Stopping (e :: rest)) w v := by
        rw [← hv]
        exact edited (Quiet.draw w) hr
          (.stop (.next (Nat.le_refl _) (Nat.lt_succ_self _)))
          ⟨e, List.mem_cons_self .., rfl⟩
      have hagents : ∀ id, v.state.agents.get? id = if id = e.1 then some
          { e.2 with
            brokerSessionId := idOfDraw host "stopped-session" w.drawn
            brokerSessionExpiresAt := 0 }
          else w.state.agents.get? id := by
        intro id
        rw [← hv]
        exact SortedMap.get?_insert _ _ _ _
      refine wp_mono (ih ?_ hrest) ?_ (fun _ _ h => h)
      · intro e' he'
        rw [hagents, if_neg (fun h => hfirst e' he' h.symm)]
        exact hmem e' (List.mem_cons_of_mem _ he')
      rintro _ w' ⟨hpath, hlog, ⟨agents, hstate⟩, hstopped⟩
      refine ⟨hedit.trans (hpath.mono ?_), ?_, ⟨agents, ?_⟩, ?_⟩
      · rintro _ ⟨e', he', rfl⟩
        exact ⟨e', List.mem_cons_of_mem _ he', rfl⟩
      · rw [hlog, ← hv]
      · rw [hstate, ← hv]
        rfl
      intro id r hget
      rcases hstopped id r hget with ⟨hid, hzero⟩ | ⟨hget', hrest'⟩
      · exact Or.inl ⟨hid.widen hedit.advance (Advance.refl w'), hzero⟩
      · rw [hagents] at hget'
        split at hget'
        · obtain rfl := Option.some.inj hget'
          refine Or.inl ⟨⟨w.drawn, Nat.le_refl _, ?_, rfl⟩, rfl⟩
          have hdrawn : v.drawn = w.drawn + 1 := by rw [← hv]
          have := hpath.advance.drawn
          omega
        · rename_i hid
          refine Or.inr ⟨hget', fun e' he' => ?_⟩
          rcases List.mem_cons.mp he' with rfl | he'
          · exact fun h => hid h.symm
          · exact hrest' e' he'

/-- What the stop leaves once it is on: every session is new and expired, and
    the intents are what they were. -/
def Stops (host : Host) (w w' : World) : Prop :=
  w.state.emergencyStop = false → w'.state.emergencyStop = true →
    w'.state.intents = w.state.intents
      ∧ ∀ id r, w'.state.agents.get? id = some r → StoppedIn host w w' r

/-- **THE EMERGENCY STOP** replaces every session when it turns on, and no
    entry is ever refused for it. -/
theorem ownerEmergencyStop_spec {stopped : Bool} :
    wp (ownerEmergencyStop host actor stopped)
      (fun _ w' => Path host (permits actor (.ownerSetEmergencyStop stopped))
        w w' ∧ Stops host w w')
      (fun _ w' => Path host (permits actor (.ownerSetEmergencyStop stopped))
        w w' ∧ Stops host w w') w := by
  have h0 : Path host (permits actor (.ownerSetEmergencyStop stopped)) w w
      ∧ Stops host w w :=
    ⟨.refl w, fun hoff hon => absurd hon (by simp [hoff])⟩
  unfold ownerEmergencyStop
  rw [wp_bind, wp_readState]
  refine line_lift (fun _ => h0) fun _ howner => ?_
  have hactor := requireOwner_ok howner
  rw [wp_ite, wp_pure]
  refine ⟨fun _ => h0, fun hchange => ?_⟩
  refine line (stopAgents_spec (w := w) ?_ ?_) ?_
  · intro e he
    split at he
    · exact SortedMap.get?_eq_some.mpr he
    · exact nomatch he
  · split
    · exact w.state.agents.sorted.imp (fun h => ne_of_lt h)
    · exact List.Pairwise.nil
  rintro _ v ⟨hpath, hlog, ⟨agents, hstate⟩, hstopped⟩
  have hpath' : Path host (permits actor (.ownerSetEmergencyStop stopped))
      w v := by
    refine hpath.mono ?_
    rintro _ ⟨e, he, rfl⟩
    split at he
    · rename_i hon
      exact ⟨hactor, hon, rfl⟩
    · exact nomatch he
  rw [wp_bind, wp_modifyState]
  -- the flag is set whether or not the entry is written
  generalize hu : World.mk _ _ _ _ _ _ = u
  have hset : Path host (permits actor (.ownerSetEmergencyStop stopped))
      w u := by
    rw [← hu]
    exact hpath'.tail (show permits actor (.ownerSetEmergencyStop stopped)
      (.setStop stopped) from ⟨hactor, rfl⟩) (.setStop ⟨rfl, Nat.le_refl _,
        Nat.le_refl _, Nat.le_refl _⟩ rfl rfl)
  have hstops : ∀ w', Advance u w' → w'.state.agents = u.state.agents →
      w'.state.intents = u.state.intents →
      w'.state.emergencyStop = u.state.emergencyStop → Stops host w w' := by
    intro w' hw' hagents hintents hflag hoff hon
    have hadv : Advance v w' := by
      rw [← hu] at hw'
      exact ⟨hw'.key, hw'.tick, hw'.drawn, hw'.saves⟩
    have htrue : stopped = true := by
      rw [hflag, ← hu] at hon
      exact hon
    rw [hintents, hagents, ← hu]
    refine ⟨?_, fun id r hr => ?_⟩
    · rw [hstate]
    · rcases hstopped id r hr with ⟨hid, hzero⟩ | ⟨hget, hnot⟩
      · exact ⟨hid.widen (Advance.refl w) hadv, hzero⟩
      · rw [if_pos htrue] at hnot
        exact absurd rfl (hnot (id, r) (SortedMap.get?_eq_some.mp hget))
  rw [wp_bind]
  refine wp_audit (fun _ => ⟨hset, hstops u (Advance.refl u) rfl rfl rfl⟩)
    fun hroom => ?_
  rw [wp_pure]
  have hadv : Advance u { u with tick := u.tick + 1 } :=
    (Quiet.readClock u).toAdvance
  have haudit : permits actor (.ownerSetEmergencyStop stopped)
      (.audit (if stopped = true then "emergency_stop_on"
        else "emergency_stop_off")) := .head _
  refine ⟨hset.tail haudit (.audit ⟨rfl, Nat.le_succ _,
    Nat.le_refl _, Nat.le_refl _⟩ (.next hroom rfl rfl ⟨Nat.le_refl _,
      Nat.lt_succ_self _⟩) rfl rfl), hstops _ ?_ rfl rfl rfl⟩
  exact ⟨hadv.key, hadv.tick, hadv.drawn, hadv.saves⟩

/-- The token is the prepared one, if there is one. -/
theorem tokenFor_spec {prepared : Option String}
    {E : TreasuryError → World → Prop} :
    wp (tokenFor host prepared) (fun token w' => Quiet w w'
      ∧ (prepared = none ∨ prepared = some token)) E w := by
  cases prepared with
  | some t => exact (wp_pure t).mpr ⟨Quiet.refl w, Or.inr rfl⟩
  | none => exact wp_randomHex.mpr ⟨Quiet.draw w, Or.inl rfl⟩

/-- **CREATING AN AGENT** stores its policy and its record. -/
theorem ownerCreateAgent_within {allowed : Label → Prop} {name : String}
    {p : Policy} {mode : AutonomyMode} {ttlSecs : Int}
    {prepared : Option String} (hq : allowed .quiet)
    (haudit : allowed (.audit "create_agent"))
    (hl : ∀ id token, actor = .owner →
      prepared = none ∨ prepared = some token → allowed (.addAgent id token)) :
    Within host allowed
      (ownerCreateAgent host actor name p mode ttlSecs prepared) w := by
  have h0 : ∀ {v}, Quiet w v → Path host allowed w v := fun h => .quiet hq h
  have hw := Quiet.refl w
  unfold Within ownerCreateAgent
  rw [wp_bind, wp_readState]
  refine line_lift (fun _ => h0 hw) fun _ howner => ?_
  refine line_rejectIf (fun _ => h0 hw) fun hquota => ?_
  refine line_lift (fun _ => h0 hw) fun _ _ => ?_
  refine line_lift (fun _ => h0 hw) fun _ _ => ?_
  refine line_lift (fun _ => h0 hw) fun _ hexposure => ?_
  refine line_lift (fun _ => h0 hw) fun _ httl => ?_
  unfold requireAgentTtl at httl
  rw [Checks.refuseIf_eq_ok] at httl
  refine line tokenFor_spec ?_
  rintro token a ⟨ha, hprepared⟩
  refine line_lift (fun _ => h0 ha) fun _ htoken => ?_
  rw [wp_bind, wp_newId]
  have hb : Quiet w { a with drawn := a.drawn + 1 } := ha.trans (Quiet.draw a)
  refine line_lift (fun _ => h0 hb) fun _ hv => ?_
  have hbs : w.state = { a with drawn := a.drawn + 1 }.state := ha.state.symm
  rw [hbs]
  refine line sessionExpiry_spec ?_
  rintro expiry c ⟨hc, hend⟩
  have hbc := hb.trans hc
  rw [wp_bind, wp_newId, wp_bind, wp_now, wp_bind, wp_now, wp_bind,
    wp_putPolicy, wp_bind, wp_putAgent]
  refine auditThen (.single (l := .addAgent (idOfDraw host "agent" a.drawn)
    token) (hl _ _ (requireOwner_ok howner) hprepared) ?_) haudit hq (.pure _)
  have htick := hbc.tick
  have hdrawn := hbc.drawn
  have hadrawn := ha.drawn
  have hcdrawn : a.drawn + 1 ≤ c.drawn := hc.drawn
  -- the change is the whole of it: one policy and one agent, both new
  apply Change.addAgent
  case ha =>
    refine ⟨hbc.key, ?_, Nat.le_succ_of_le hdrawn, hbc.saves⟩
    show w.tick ≤ c.tick + 1 + 1
    omega
  case hl => exact hbc.log
  case hs => rw [← hbc.state]
  case hid => rfl
  case hn =>
    exact {
      quota := by omega
      exposure := hexposure
      policyValid := hv
      policyId := rfl
      policyVersion := rfl
      id := .next hadrawn (Nat.lt_succ_of_lt hcdrawn)
      session := .next hdrawn (Nat.lt_succ_self _)
      tokenValid := htoken
      tokenHash := rfl
      policyOf := rfl
      scopes := rfl
      merchants := rfl
      notRevoked := rfl
      expiry := by
        refine ⟨ttlSecs, a.tick, c.tick + 1, by omega, by omega, ha.tick, ?_,
          Nat.lt_succ_self _, rfl, ?_⟩
        · exact Nat.le_succ_of_le hc.tick
        · rcases hend with ⟨hstop, h0, _⟩ | ⟨hstop, heq, _⟩
          · exact Or.inl ⟨hbs ▸ hstop, h0⟩
          · exact Or.inr ⟨hbs ▸ hstop, heq⟩ }

end Agents

end Treasury
