import Cixa.Confinement
import Cixa.Lives
import Cixa.Revocation

/-! # Dead ends — intents that nothing can end

    An intent waits for the owner's approval, or for its execution.  Waiting
    for APPROVAL it can always be denied, or cancelled by its agent, as long
    as the audit log has room.  Waiting for its EXECUTION it can only be
    executed: the state machine has no way from there to a cancellation,
    although a cancellation accepts the state.  And once its session has
    expired it cannot be executed either. -/

namespace Treasury

open CixaData CixaHost Outcome Checks Transition

variable {host : Host} {w w' : World} {l : Label} {c : Call} {id : String}
  {i : PurchaseIntent} {actor : Actor} {token : String}

/-! ## What it means to be able to end -/

/-- The times the calendar has. -/
def OnCalendar (t : Int) : Prop := 0 ≤ t ∧ t ≤ 8210266876799

/-- The same host when a world has waited until some time. -/
def since (host : Host) (w : World) (t : Int) (ht : OnCalendar t) : Host :=
  { host with
    clock := fun k => if k < w.tick then host.clock k else t
    clock_nonneg := fun k => by
      split
      · exact host.clock_nonneg k
      · exact ht.1
    clock_le := fun k => by
      split
      · exact host.clock_le k
      · exact ht.2 }

/-- The error of a transition that the state machine does not have. -/
def invalidTransition (a b : TransactionState) : TreasuryError :=
  .conflict ("invalid transaction transition " ++ a.debugName ++ " -> "
    ++ b.debugName)

/-- An error of the state machine, not of a check. -/
def Jams (e : TreasuryError) : Prop := ∃ a b, e = invalidTransition a b

/-- The intent a request names. -/
def names : Request → Option String
  | .getPurchaseIntent id => some id
  | .executePurchaseIntent id => some id
  | .cancelPurchaseIntent id => some id
  | .getReceipt id => some id
  | .ownerApproveIntent id => some id
  | .ownerDenyIntent id => some id
  | .ownerBeginManualHandoff id => some id
  | .ownerCompleteManualHandoff id => some id
  | .ownerReconcile id _ _ => some id
  | _ => none

/-- One request, of whomever, succeeds and ends an intent. -/
def Endable (host : Host) (w : World) (id : String) : Prop :=
  ∃ token request i, Succeeds host (.request token request) w
    ∧ FreshBelow host (exec host (.request token request) w).drawn
    ∧ (exec host (.request token request) w).state.intents.get? id = some i
    ∧ isTerminal i.state = true

/-- **NOT DEAD**: some request ends the intent, its agent can cancel it
    where a cancellation lists its state, and no request that names it jams
    in the state machine. -/
structure Living (host : Host) (w : World) (i : PurchaseIntent) : Prop where
  ends : Endable host w i.id
  cancels : i.state ∈ [.proposed, .approvalRequired, .policyValidated] →
    ∀ token, Authenticates host w token (.agent i.agentId) →
      Succeeds host (.request token (.cancelPurchaseIntent i.id)) w
  smooth : ∀ token request e, names request = some i.id →
    result (handle host token request) w = .error e → ¬Jams e

/-- Not dead at any later time. -/
def LivingLater (host : Host) (w : World) (i : PurchaseIntent) : Prop :=
  ∀ t (ht : OnCalendar t), (∀ k, k < w.tick → host.clock k ≤ t) →
    Living (since host w t ht) w i

/-! ## Ending an intent that waits for approval -/

theorem ownerDeny_ends (hi : w.state.intents.get? i.id = some i)
    (hx : i.state = .approvalRequired) (hroom : hasRoom w.state "deny_intent") :
    wp (ownerDeny host .owner i.id)
      (fun _ w' => w'.drawn = w.drawn
        ∧ ∃ j, w'.state.intents.get? i.id = some j ∧ j.state = .cancelled)
      (fun _ _ => False) w := by
  unfold ownerDeny decideApproval
  rw [wp_bind, wp_readState, wp_bind, wp_lift]
  refine ⟨nofun, fun _ _ => ?_⟩
  rw [wp_bind, wp_orReject]
  refine ⟨fun hnone => absurd (hnone.symm.trans hi) nofun, fun j hj => ?_⟩
  obtain rfl : i = j := Option.some.inj (hi.symm.trans hj)
  rw [wp_bind, wp_rejectIf]
  refine ⟨fun hno => hno hx, fun _ => ?_⟩
  rw [wp_bind]
  refine wp_transition_of_can (by rw [hx]; rfl) ?_
  rw [wp_bind, wp_storeIntent, wp_bind]
  refine wp_audit_of_room hroom ?_
  rw [wp_pure]
  exact ⟨rfl, _, SortedMap.get?_insert_self _ _ _, rfl⟩

/-- The entries of a denial and of a cancellation find the same room. -/
theorem room_deny_cancel {s : TreasuryState} :
    hasRoom s "cancel_purchase_intent" ↔ hasRoom s "deny_intent" := by
  unfold hasRoom auditCapacityAllows auditLimit isMoneySafetyAudit
  simp

theorem cancelIntent_succeeds {r : AgentRecord}
    (hr : w.state.agents.get? i.agentId = some r) (hs : Scoped w.state)
    (hi : w.state.intents.get? id = some i) (hx : i.state = .approvalRequired)
    (hroom : hasRoom w.state "deny_intent") :
    wp (cancelIntent host (.agent i.agentId) id) (fun _ _ => True)
      (fun _ _ => False) w := by
  have hscope : r.scopes.contains "purchase_intents:cancel" = true := by
    rw [hs _ _ hr]
    decide
  unfold cancelIntent
  rw [wp_bind, wp_readState, requireAgentScope_of hr hscope, wp_bind, wp_lift]
  refine ⟨nofun, fun A hA => ?_⟩
  obtain rfl : i.agentId = A := Except.ok.inj hA
  rw [wp_bind, intentForAgent_ok.mpr ⟨hi, rfl⟩, wp_lift]
  refine ⟨nofun, fun j hj => ?_⟩
  obtain rfl : i = j := Except.ok.inj hj
  rw [wp_bind, wp_rejectIf]
  refine ⟨fun hno => hno (by rw [hx]; decide), fun _ => ?_⟩
  rw [wp_bind]
  refine wp_transition_of_can (by rw [hx]; rfl) ?_
  rw [wp_bind, wp_storeIntent, wp_bind]
  refine wp_audit_of_room (room_deny_cancel.mpr hroom) ?_
  rw [wp_pure]
  trivial

/-! ## What refuses a request -/

/-- No error of the state machine. -/
def Smooth (e : TreasuryError) : Prop := ¬Jams e

/-- Another text is another error. -/
theorem conflict_smooth {message : String}
    (h : message.toList.take 3 ≠ "inv".toList) : Smooth (.conflict message) := by
  rintro ⟨a, b, heq⟩
  have htext := congrArg String.toList (TreasuryError.conflict.inj heq)
  refine h ?_
  rw [htext, String.append_assoc, String.append_assoc, String.toList_append]
  rfl

theorem requireOwner_smooth : FailsWith Smooth (requireOwner actor) :=
  .refuseIf fun _ => nofun

theorem requireAgentScope_smooth {s : TreasuryState} {scope : String} :
    FailsWith Smooth (requireAgentScope s actor scope) := by
  unfold requireAgentScope
  refine .bind ?_ fun id _ => .bind ?_ fun r _ => .bind ?_ fun _ _ => .pure _
  · cases actor with
    | owner =>
        intro e he
        cases he
        exact nofun
    | agent id => exact fun e he => nomatch he
  · exact .orRefuse nofun
  · exact .refuseIf fun _ => nofun

theorem audit_smooth {auditor action : String} {intentId : Option String}
    {version : Option Nat} {decision : Option String} {details : Json} :
    wp (audit host auditor action intentId version decision details)
      (fun _ _ => True) (fun e _ => Smooth e) w := by
  unfold audit
  rw [wp_bind, wp_get, wp_bind, wp_rejectIf]
  refine ⟨fun _ => conflict_smooth (by decide), fun _ => ?_⟩
  rw [wp_bind, wp_rejectIf]
  refine ⟨fun _ => conflict_smooth (by decide), fun _ => ?_⟩
  simp only [wp_bind, wp_modifyState, wp_now]

theorem decideApproval_checked {next : TransactionState}
    {lastError : Option String → Option String} {action decision : String}
    {details : Json} (hi : w.state.intents.get? id = some i)
    (hnext : i.state.canTransition next = true) :
    wp (decideApproval host actor id next lastError action decision details)
      (fun _ _ => True) (fun e _ => Smooth e) w := by
  unfold decideApproval
  rw [wp_bind, wp_readState, wp_bind, wp_lift]
  refine ⟨fun e he => requireOwner_smooth e he, fun _ _ => ?_⟩
  rw [wp_bind, wp_orReject]
  refine ⟨fun _ => nofun, fun j hj => ?_⟩
  obtain rfl : i = j := Option.some.inj (hi.symm.trans hj)
  rw [wp_bind, wp_rejectIf]
  refine ⟨fun _ => conflict_smooth (by decide), fun _ => ?_⟩
  rw [wp_bind]
  refine wp_transition_of_can hnext ?_
  rw [wp_bind, wp_storeIntent]
  refine line audit_smooth fun _ _ _ => ?_
  rw [wp_pure]
  trivial

theorem cancelIntent_checked (hi : w.state.intents.get? id = some i)
    (hnext : i.state.canTransition .cancelled = true) :
    wp (cancelIntent host actor id) (fun _ _ => True) (fun e _ => Smooth e) w := by
  unfold cancelIntent
  rw [wp_bind, wp_readState, wp_bind, wp_lift]
  refine ⟨fun e he => requireAgentScope_smooth e he, fun A _ => ?_⟩
  rw [wp_bind, wp_lift]
  refine ⟨fun e he => ?_, fun j hj => ?_⟩
  · refine FailsWith.bind ?_ (fun _ _ => FailsWith.bind ?_ fun _ _ => .pure _) e he
    · exact .orRefuse nofun
    · exact .refuseIf fun _ => nofun
  obtain rfl : i = j := Option.some.inj (hi.symm.trans (intentForAgent_ok.mp hj).1)
  rw [wp_bind, wp_rejectIf]
  refine ⟨fun _ => conflict_smooth (by decide), fun _ => ?_⟩
  rw [wp_bind]
  refine wp_transition_of_can hnext ?_
  rw [wp_bind, wp_storeIntent]
  refine line audit_smooth fun _ _ _ => ?_
  rw [wp_pure]
  trivial

theorem visibleIntent_smooth {s : TreasuryState} {scope : String} :
    FailsWith Smooth (visibleIntent s actor scope id) := by
  unfold visibleIntent
  refine .bind ?_ fun _ _ => .bind ?_ fun _ _ => .bind ?_ fun _ _ => .pure _
  · cases actor with
    | owner => exact fun e he => nomatch he
    | agent A => exact .bind requireAgentScope_smooth fun _ _ => .pure _
  · exact .orRefuse nofun
  · exact .refuseIf fun _ => nofun

theorem getIntent_smooth : wp (getIntent actor id) (fun _ _ => True)
    (fun e _ => Smooth e) w := by
  unfold getIntent
  rw [wp_bind, wp_readState, wp_bind, wp_lift]
  exact ⟨fun e he => visibleIntent_smooth e he, fun _ _ => (wp_pure _).mpr trivial⟩

theorem getReceipt_smooth : wp (getReceipt host actor id) (fun _ _ => True)
    (fun e _ => Smooth e) w := by
  unfold getReceipt
  rw [wp_bind, wp_readState, wp_bind, wp_lift]
  refine ⟨fun e he => visibleIntent_smooth e he, fun i _ => ?_⟩
  rw [wp_bind, wp_orReject]
  refine ⟨fun _ => conflict_smooth (by decide), fun _ _ => ?_⟩
  rw [wp_bind, wp_rejectIf]
  exact ⟨fun _ => nofun, fun _ => (wp_pure _).mpr trivial⟩

/-- What waits for approval is not prepared. -/
theorem prepare_waits (hi : w.state.intents.get? id = some i)
    (hx : i.state = .approvalRequired) :
    wp (prepareIntentExecution host actor id) (fun _ _ => False)
      (fun e _ => Smooth e) w := by
  unfold prepareIntentExecution
  rw [wp_bind, wp_readState, wp_bind, wp_lift]
  refine ⟨FailsWith.refuseIf fun _ => conflict_smooth (by decide), fun _ _ => ?_⟩
  rw [wp_bind, wp_lift]
  refine ⟨fun e he => requireAgentScope_smooth e he, fun A _ => ?_⟩
  rw [wp_bind, wp_orReject]
  refine ⟨fun _ => nofun, fun j hj => ?_⟩
  obtain rfl : i = j := Option.some.inj (hi.symm.trans hj)
  rw [wp_bind, wp_rejectIf]
  refine ⟨fun _ => nofun, fun _ => ?_⟩
  have hrefused : requireExecutable i
      = .error (.forbidden "owner approval is required before execution") := by
    unfold requireExecutable
    rw [hx]
    rfl
  rw [wp_bind, wp_lift, hrefused]
  refine ⟨fun e he => ?_, nofun⟩
  cases he
  exact nofun

theorem executeIntent_smooth (hi : w.state.intents.get? id = some i)
    (hx : i.state = .approvalRequired) :
    wp (executeIntent host actor id) (fun _ _ => True) (fun e _ => Smooth e)
      w := by
  unfold executeIntent
  rw [wp_bind, wp_readState, wp_bind, wp_rejectIf]
  refine ⟨fun _ => nofun, fun _ => ?_⟩
  refine line (wp_orRestore (wp_mono (prepare_waits hi hx) (fun _ _ h => h)
    (fun _ _ h => h))) ?_
  exact fun _ _ h => h.elim

theorem ownerBeginManualHandoff_smooth (hi : w.state.intents.get? id = some i)
    (hx : i.state = .approvalRequired) :
    wp (ownerBeginManualHandoff host actor id) (fun _ _ => True)
      (fun e _ => Smooth e) w := by
  unfold ownerBeginManualHandoff
  rw [wp_bind, wp_readState, wp_bind, wp_lift]
  refine ⟨fun e he => requireOwner_smooth e he, fun _ _ => ?_⟩
  rw [wp_bind, wp_rejectIf]
  refine ⟨fun _ => conflict_smooth (by decide), fun _ => ?_⟩
  rw [wp_bind, wp_orReject]
  refine ⟨fun _ => nofun, fun j hj => ?_⟩
  obtain rfl : i = j := Option.some.inj (hi.symm.trans hj)
  rw [wp_bind, wp_rejectIf]
  refine ⟨fun _ => conflict_smooth (by decide), fun hno => ?_⟩
  exact absurd (hx.symm.trans (not_not.mp hno)) nofun

theorem ownerCompleteManualHandoff_smooth
    (hi : w.state.intents.get? id = some i) (hx : i.state = .approvalRequired) :
    wp (ownerCompleteManualHandoff host actor id) (fun _ _ => True)
      (fun e _ => Smooth e) w := by
  unfold ownerCompleteManualHandoff
  rw [wp_bind, wp_readState, wp_bind, wp_lift]
  refine ⟨fun e he => requireOwner_smooth e he, fun _ _ => ?_⟩
  rw [wp_bind, wp_orReject]
  refine ⟨fun _ => nofun, fun j hj => ?_⟩
  obtain rfl : i = j := Option.some.inj (hi.symm.trans hj)
  rw [wp_bind, wp_rejectIf]
  refine ⟨fun _ => conflict_smooth (by decide), fun hno => ?_⟩
  exact absurd (hx.symm.trans (not_not.mp (not_or.mp hno).2)) nofun

theorem validateProviderReference_smooth {input : String} :
    FailsWith Smooth (validateProviderReference host input) := by
  unfold validateProviderReference bounded
  refine .bind (.bind ?_ fun _ _ => ?_) fun _ _ => .bind ?_ fun _ _ =>
    .bind ?_ fun _ _ => .pure _
  all_goals exact .refuseIf fun _ => nofun

theorem ownerReconcile_smooth {outcome : ReconciliationOutcome}
    {reference : Option String} (hi : w.state.intents.get? id = some i)
    (hx : i.state = .approvalRequired) :
    wp (ownerReconcile host actor id outcome reference) (fun _ _ => True)
      (fun e _ => Smooth e) w := by
  unfold ownerReconcile
  rw [wp_bind, wp_readState, wp_bind, wp_lift]
  refine ⟨fun e he => requireOwner_smooth e he, fun _ _ => wp_orRestore ?_⟩
  unfold ownerReconcileInner
  rw [wp_bind, wp_readState, wp_bind, wp_lift]
  refine ⟨fun e he => ?_, fun _ _ => ?_⟩
  · cases reference with
    | none => exact nomatch he
    | some text =>
        exact FailsWith.bind validateProviderReference_smooth
          (fun _ _ => .pure _) e he
  rw [wp_bind, wp_orReject]
  refine ⟨fun _ => nofun, fun j hj => ?_⟩
  obtain rfl : i = j := Option.some.inj (hi.symm.trans hj)
  rw [wp_bind, wp_rejectIf]
  refine ⟨fun _ => conflict_smooth (by decide), fun hno => ?_⟩
  rcases not_not.mp hno with hu | ⟨_, hs⟩
  · rw [hx] at hu
    exact absurd hu (by decide)
  · exact absurd (hx.symm.trans hs) nofun

/-- **WAITING FOR APPROVAL** an intent jams no request that names it. -/
theorem handle_smooth {request : Request}
    (hi : w.state.intents.get? id = some i) (hx : i.state = .approvalRequired)
    (hnames : names request = some id) :
    wp (handle host token request) (fun _ _ => True) (fun e _ => Smooth e)
      w := by
  have hcancel : i.state.canTransition .cancelled = true := by
    rw [hx]
    rfl
  have happrove : i.state.canTransition .approved = true := by
    rw [hx]
    rfl
  unfold handle
  refine line (P := fun _ a => a.state = w.state) ?_ fun actor a ha => ?_
  · unfold authenticate
    rw [wp_bind, wp_readState, wp_bind, wp_rejectIf]
    refine ⟨fun _ => nofun, fun _ => ?_⟩
    rw [wp_ite, wp_pure, wp_bind, wp_now, wp_bind, wp_orReject]
    exact ⟨fun _ => rfl, fun _ => ⟨fun _ => nofun, fun _ _ =>
      (wp_pure _).mpr rfl⟩⟩
  · rw [← ha] at hi
    -- one case for each request that names an intent
    cases request with
    | getPurchaseIntent _ => exact getIntent_smooth
    | getReceipt _ => exact getReceipt_smooth
    | executePurchaseIntent _ =>
        obtain rfl := Option.some.inj hnames
        exact executeIntent_smooth hi hx
    | cancelPurchaseIntent _ =>
        obtain rfl := Option.some.inj hnames
        exact cancelIntent_checked hi hcancel
    | ownerApproveIntent _ =>
        obtain rfl := Option.some.inj hnames
        show wp (ownerApprove host actor _) _ _ a
        unfold ownerApprove
        exact decideApproval_checked hi happrove
    | ownerDenyIntent _ =>
        obtain rfl := Option.some.inj hnames
        show wp (ownerDeny host actor _) _ _ a
        unfold ownerDeny
        exact decideApproval_checked hi hcancel
    | ownerBeginManualHandoff _ =>
        obtain rfl := Option.some.inj hnames
        exact ownerBeginManualHandoff_smooth hi hx
    | ownerCompleteManualHandoff _ =>
        obtain rfl := Option.some.inj hnames
        exact ownerCompleteManualHandoff_smooth hi hx
    | ownerReconcile _ _ _ =>
        obtain rfl := Option.some.inj hnames
        exact ownerReconcile_smooth hi hx
    | _ => exact nomatch hnames

/-- An intent that waits for approval, with room in the log, is not dead. -/
theorem waiting_lives {owner : String} {w0 : World} {cs : List Call}
    (hrun : TreasuryRun host owner w0 cs w) (hfresh : FreshBelow host w.drawn)
    (hi : w.state.intents.get? i.id = some i)
    (hx : i.state = .approvalRequired) (hroom : hasRoom w.state "deny_intent") :
    LivingLater host w i := by
  obtain ⟨hk, _⟩ := hrun.kept
  intro t ht _
  constructor
  case ends =>
    have hspec : wp (handle (since host w t ht) owner (.ownerDenyIntent i.id))
        (fun _ w' => w'.drawn = w.drawn
          ∧ ∃ j, w'.state.intents.get? i.id = some j ∧ j.state = .cancelled)
        (fun _ _ => False) w := by
      unfold handle
      rw [wp_bind]
      exact wp_of_run (hrun.ownerToken rfl) (ownerDeny_ends hi hx hroom)
    obtain ⟨value, hvalue, hdrawn, j, hj, hcancelled⟩ := wp_returns hspec
    refine ⟨owner, .ownerDenyIntent i.id, j, ⟨value, hvalue⟩, ?_, hj, ?_⟩
    · exact hfresh.mono (Nat.le_of_eq hdrawn)
    · rw [hcancelled]
      rfl
  case cancels =>
    rintro _ token ⟨a, ha⟩
    obtain ⟨hq, r, hr⟩ := authenticate_stored hk ha
    have hstate := hq.state
    have hspec : wp (handle (since host w t ht) token (.cancelPurchaseIntent i.id))
        (fun _ _ => True) (fun _ _ => False) w := by
      unfold handle
      rw [wp_bind]
      exact wp_of_run ha (cancelIntent_succeeds (hstate ▸ hr)
        (hstate ▸ hrun.keys.2) (hstate ▸ hi) hx (hstate ▸ hroom))
    obtain ⟨value, hvalue, _⟩ := wp_returns hspec
    exact ⟨value, hvalue⟩
  case smooth =>
    intro token request e hnames he
    exact (wp_iff.mp (handle_smooth hi hx hnames)).2 e he

/-! ## Intents that wait for their execution -/

/-- The states of an intent that waits. -/
def Waits (state : TransactionState) : Prop :=
  state ∈ [.approvalRequired, .policyValidated, .approved]

instance (state : TransactionState) : Decidable (Waits state) :=
  inferInstanceAs (Decidable (_ ∈ _))

/-- A waiting intent waits on, unless it is reserved or cancelled. -/
theorem Moves.waits {i' : PurchaseIntent} (h : Moves host w w' l i i')
    (hl : l ≠ .reserve i.id) (hl' : l ≠ .move i.id .cancelled)
    (hx : Waits i.state) : Waits i'.state := by
  cases h with
  | reserve hlabel _ _ _ => exact absurd hlabel hl
  | move hlabel hm hx' _ =>
      rw [hx']
      rcases hm with ⟨hcan, rfl | rfl | rfl⟩ | ⟨hu, _⟩
      · decide
      · exact absurd hlabel hl'
      · cases hs : i.state <;> rw [hs] at hcan hx <;>
          first | exact absurd hx (by decide) | exact nomatch hcan
      · rw [hu] at hx
        exact absurd hx (by decide)
  | conclude _ hexec _ _ =>
      rw [hexec] at hx
      exact absurd hx (by decide)
  | reconcile _ hu _ _ =>
      rcases hu with hu | hu
      · cases hs : i.state <;> rw [hs] at hu hx <;>
          first | exact absurd hu (by decide) | exact absurd hx (by decide)
      · rw [hu] at hx
        exact absurd hx (by decide)

/-- **WAITING GOES ON** along any path that neither reserves nor cancels. -/
theorem Path.waits {allowed : Label → Prop} {n : Nat}
    (h : Path host allowed w w')
    (hl : ∀ l, allowed l → l ≠ .reserve id ∧ l ≠ .move id .cancelled)
    (hfresh : FreshBelow host n) (hn : w'.drawn ≤ n) (hids : IdsDrawn host w)
    (hi : w.state.intents.get? id = some i) (hx : Waits i.state) :
    ∃ j, w'.state.intents.get? id = some j ∧ Waits j.state := by
  refine (h.invariant (I := fun v => IdsDrawn host v ∧ (v.drawn ≤ n →
    ∃ j, v.state.intents.get? id = some j ∧ Waits j.state)) ?_ ?_
    ⟨hids, fun _ => ⟨i, hi, hx⟩⟩).2 hn
  · rintro l a b hlabel hc ⟨ha, hwaits⟩
    refine ⟨hc.idsDrawn ha, fun hb => ?_⟩
    obtain ⟨j, hj, hwj⟩ := hwaits (Nat.le_trans hc.advance.drawn hb)
    obtain ⟨j', hj', _⟩ := hc.persists ha (hfresh.mono hb) id j hj
    refine ⟨j', hj', ?_⟩
    cases hc.origin hj' with
    | kept hsame =>
        obtain rfl := Option.some.inj (hj.symm.trans hsame)
        exact hwj
    | new _ hid hnew =>
        have hnone := hnew.unstored ha (hfresh.mono hb)
        rw [hid, hj] at hnone
        exact nomatch hnone
    | next hsame hid _ hm =>
        obtain rfl := Option.some.inj (hj.symm.trans hsame)
        obtain ⟨hreserve, hmove⟩ := hl l hlabel
        exact hm.waits (hid.symm ▸ hreserve) (hid.symm ▸ hmove) hwj
  · rintro a b hp ⟨ha, hwaits⟩ _
    have hadv := hp.advance
    exact ⟨ha.restore hadv, fun hb => hwaits (Nat.le_trans hadv.drawn hb)⟩

theorem Waits.not_terminal {state : TransactionState} (h : Waits state) :
    isTerminal state = false := by
  cases state <;> first | rfl | exact absurd h (by decide)

/-- What waits and can be cancelled waits for approval. -/
theorem Waits.cancellable {state : TransactionState} (h : Waits state)
    (hcan : state.canTransition .cancelled = true) :
    state = .approvalRequired := by
  cases state <;> first | rfl | exact absurd h (by decide) | exact nomatch hcan

theorem transition_can {next : TransactionState} :
    wp (transition host i next) (fun _ v => i.state.canTransition next = true
      ∧ v.state = w.state) (fun _ _ => True) w := by
  unfold transition
  rw [wp_bind, wp_rejectIf]
  refine ⟨fun _ => trivial, fun hcan => ?_⟩
  rw [wp_bind, wp_now, wp_pure]
  exact ⟨Bool.eq_true_of_not_eq_false hcan, rfl⟩

/-- A denial that succeeds had a transition and room. -/
theorem ownerDeny_gate (hi : w.state.intents.get? id = some i) :
    wp (ownerDeny host actor id)
      (fun _ _ => i.state.canTransition .cancelled = true
        ∧ hasRoom w.state "deny_intent") (fun _ _ => True) w := by
  unfold ownerDeny decideApproval
  rw [wp_bind, wp_readState]
  refine line_lift (fun _ => trivial) fun _ _ => ?_
  refine line_orReject (fun _ => trivial) fun j hj => ?_
  obtain rfl := Option.some.inj (hi.symm.trans hj)
  refine line_rejectIf (fun _ => trivial) fun _ => ?_
  refine line transition_can ?_
  rintro k v ⟨hcan, hv⟩
  rw [wp_bind, wp_storeIntent, wp_bind]
  refine wp_audit (fun _ => trivial) fun hroom => ?_
  rw [wp_pure]
  refine ⟨hcan, ?_⟩
  rw [← hv]
  exact hroom

/-- A cancellation that succeeds had a transition and room. -/
theorem cancelIntent_room (hi : w.state.intents.get? id = some i) :
    wp (cancelIntent host actor id)
      (fun _ _ => i.state.canTransition .cancelled = true
        ∧ hasRoom w.state "deny_intent") (fun _ _ => True) w := by
  unfold cancelIntent
  rw [wp_bind, wp_readState]
  refine line_lift (fun _ => trivial) fun A _ => ?_
  refine line_lift (fun _ => trivial) fun j hj => ?_
  obtain rfl := Option.some.inj (hi.symm.trans (intentForAgent_ok.mp hj).1)
  refine line_rejectIf (fun _ => trivial) fun _ => ?_
  refine line transition_can ?_
  rintro k v ⟨hcan, hv⟩
  rw [wp_bind, wp_storeIntent, wp_bind]
  refine wp_audit (fun _ => trivial) fun hroom => ?_
  rw [wp_pure]
  refine ⟨hcan, room_deny_cancel.mp ?_⟩
  rw [← hv]
  exact hroom

/-! ## What can end a waiting intent -/

/-- Every session of an intent's agent is over. -/
def Over (host : Host) (w : World) (i : PurchaseIntent) : Prop :=
  ∀ r k, w.state.agents.get? i.agentId = some r → w.tick ≤ k →
    r.brokerSessionExpiresAt ≤ host.clock k

/-- After its session, no attempt changes a waiting intent. -/
theorem Behaves.attempt_waits {id' : String} (hw : Workable w.state)
    (hsound : Sound w.state) (hover : Over host w i)
    (h : Behaves host w w' c) (hc : c.attempts = some id')
    (hexec : w' = exec host c w)
    (hi : w.state.intents.get? i.id = some i) :
    w'.state.intents.get? i.id = some i := by
  have hatt := h.attempted hc
  by_cases he : Enters w w' id'
  · obtain ⟨i', r, p, b, hi', hid', _, hr, _, _⟩ := (hexec ▸ he).rightful hw
    by_cases hsame : i.id = id'
    · -- it would have to be armed, and its session is over
      rw [← hsame, hi] at hi'
      obtain rfl := Option.some.inj hi'
      obtain ⟨t, ⟨k, hk, _, rfl⟩, hlt⟩ := hr.armed
      have := hover r k hr.agent hk
      omega
    · obtain ⟨j, _, hj, _⟩ := hatt.path.works (fun _ => Attempting.onIntent) hi'
        hid' rfl (hsound.totals _ _ hi')
      rw [hj, SortedMap.get?_insert_of_ne _ _ hsame]
      exact hi
  · rw [hatt.idle he]
    exact hi

theorem permits_waits {request : Request}
    (hno : request ≠ .cancelPurchaseIntent id)
    (hno' : request ≠ .ownerDenyIntent id) (hl : Allowed actor request l) :
    l ≠ .reserve id ∧ l ≠ .move id .cancelled := by
  constructor
  · rintro rfl
    rcases hl with hl | hl
    · cases request <;> exact hl
    · exact hl
  · rintro rfl
    rcases hl with hl | hl
    · cases request with
      | cancelPurchaseIntent id' =>
          obtain ⟨rfl, _⟩ := hl
          exact hno rfl
      | ownerDenyIntent id' =>
          obtain ⟨_, rfl, _⟩ := hl
          exact hno' rfl
      | ownerApproveIntent _ => exact nomatch hl.2.2
      | ownerCompleteManualHandoff _ => exact nomatch hl.2.2
      | _ => exact hl
    · exact hl

/-- **AFTER ITS SESSION** a waiting intent can be ended only while it waits
    for approval, and only with room in the log. -/
theorem endable_waits (hw : Workable w.state) (hsound : Sound w.state)
    (hids : IdsDrawn host w) (hover : Over host w i)
    (hi : w.state.intents.get? i.id = some i) (hx : Waits i.state)
    (h : Endable host w i.id) :
    i.state = .approvalRequired ∧ hasRoom w.state "deny_intent" := by
  obtain ⟨token, request, j, ⟨value, hok⟩, hfresh, hj, hterminal⟩ := h
  have hbehaves : Behaves host w _ (.request token request) :=
    exec_behaves hw _
  -- after the request the intent no longer waits
  have hwaiting : ∀ j', (exec host (.request token request) w).state.intents.get?
      i.id = some j' → Waits j'.state → False := by
    intro j' hj' hwaits
    obtain rfl := Option.some.inj (hj.symm.trans hj')
    exact nomatch hwaits.not_terminal.symm.trans hterminal
  have hgate : wp (handle host token request)
      (fun _ _ => i.state.canTransition .cancelled = true
        ∧ hasRoom w.state "deny_intent") (fun _ _ => True) w →
      i.state = .approvalRequired ∧ hasRoom w.state "deny_intent" := fun h =>
    ((wp_iff.mp h).1 value hok).imp_left hx.cancellable
  -- only a cancellation or a denial can end it
  by_cases hcancel : request = .cancelPurchaseIntent i.id
  · refine hgate ?_
    rw [hcancel]
    unfold handle
    refine line_quiet (authenticate_quietly token) (fun _ _ _ => trivial) ?_
    intro actor a ha
    have hstored : a.state.intents.get? i.id = some i := ha.state ▸ hi
    have hroom := @cancelIntent_room host a i.id i actor hstored
    rw [ha.state] at hroom
    exact hroom
  by_cases hdeny : request = .ownerDenyIntent i.id
  · refine hgate ?_
    rw [hdeny]
    unfold handle
    refine line_quiet (authenticate_quietly token) (fun _ _ _ => trivial) ?_
    intro actor a ha
    have hstored : a.state.intents.get? i.id = some i := ha.state ▸ hi
    have hroom := @ownerDeny_gate host a i.id i actor hstored
    rw [ha.state] at hroom
    exact hroom
  exfalso
  cases hexecutes : executes request with
  | some id' =>
      exact hwaiting i (hbehaves.attempt_waits hw hsound hover hexecutes rfl hi) hx
  | none =>
      have hpath : ∀ {allowed : Label → Prop}, Path host allowed w
          (exec host (.request token request) w) →
          (∀ l, allowed l → l ≠ .reserve i.id ∧ l ≠ .move i.id .cancelled) →
          False := by
        intro allowed hp hl
        obtain ⟨j', hj', hwaits⟩ :=
          hp.waits hl hfresh (Nat.le_refl _) hids hi hx
        exact hwaiting j' hj' hwaits
      cases hbehaves with
      | attempt hc _ => exact nomatch hexecutes.symm.trans hc
      | ordinary hasks _ ho =>
          cases hasks
          cases ho with
          | refused hp =>
              refine hpath hp fun l hl => ⟨?_, ?_⟩
              · rintro rfl
                exact hl
              · rintro rfl
                exact hl
          | served _ hp => exact hpath hp fun _ => permits_waits hcancel hdeny

/-! ## Dead ends -/

/-- At the end of the calendar every session is over: an intent that is not
    dead by then waits for approval, and the log has room. -/
theorem living_waits {owner : String} {w0 : World} {cs : List Call}
    (hrun : TreasuryRun host owner w0 cs w)
    (hi : w.state.intents.get? i.id = some i) (hx : Waits i.state)
    (hsession : ∀ r, w.state.agents.get? i.agentId = some r →
      OnCalendar r.brokerSessionExpiresAt) (h : LivingLater host w i) :
    i.state = .approvalRequired ∧ hasRoom w.state "deny_intent" := by
  obtain ⟨hk, hf⟩ := hrun.kept
  have hend : OnCalendar 8210266876799 := ⟨by decide, le_refl _⟩
  have hliving := h 8210266876799 hend fun k _ => host.clock_le k
  have hids : IdsDrawn (since host w 8210266876799 hend) w := hrun.idsDrawn
  have hover : Over (since host w 8210266876799 hend) w i := by
    intro r k hr hk
    show r.brokerSessionExpiresAt
      ≤ if k < w.tick then host.clock k else 8210266876799
    rw [if_neg (Nat.not_lt.mpr hk)]
    exact (hsession r hr).2
  exact endable_waits (hk.workable hf) hrun.sound hids hover hi hx hliving.ends

/-- **DEAD ENDS.**  In every reachable world an intent that waits for the
    owner's approval is not dead at any later time, if the log has room to
    deny it.  Every other waiting intent is dead: validated or approved, or
    without room in the log, it outlives its session, and then no request of
    anybody ends it. -/
theorem waiting_intents_live {owner : String} {w0 : World} {cs : List Call}
    (hrun : TreasuryRun host owner w0 cs w) (hfresh : FreshBelow host w.drawn)
    (hi : w.state.intents.get? id = some i)
    (hx : i.state ∈ [.approvalRequired, .policyValidated, .approved]) :
    (i.state = .approvalRequired ∧ hasRoom w.state "deny_intent" →
      LivingLater host w i)
      ∧ ((∀ r, w.state.agents.get? i.agentId = some r →
          OnCalendar r.brokerSessionExpiresAt) →
        LivingLater host w i →
        i.state = .approvalRequired ∧ hasRoom w.state "deny_intent") := by
  obtain rfl := hrun.kept.1.intents id i hi
  exact ⟨fun ⟨hwaits, hroom⟩ => waiting_lives hrun hfresh hi hwaits hroom,
    fun hsession hlives => living_waits hrun hi hx hsession hlives⟩

/-- The opening of a card whose checkout needs the owner, before the owner
    approves. -/
def waitingOpening (owner : String) : List Call :=
  .request owner (.ownerConfigureManualProvider
      { prepaidCard with autonomousCheckout := false })
    :: opening smallPurchase owner

instance (s : TreasuryState) (action : String) : Decidable (hasRoom s action) :=
  inferInstanceAs (Decidable (_ ∧ _))

/-- The first intent of a card waits for the owner, and is not dead. -/
theorem waiting_intents_live_denied :
    ∃ owner w0 w i, TreasuryRun soundHost owner w0 (waitingOpening owner) w
      ∧ w.state.intents.get? (firstIntent soundHost) = some i
      ∧ LivingLater soundHost w i := by
  have h : tryRun soundHost ⟨100000, "CAD"⟩ waitingOpening
      (fun w => decide ((w.state.intents.get? (firstIntent soundHost)).map
          PurchaseIntent.state = some .approvalRequired)
        && decide (hasRoom w.state "deny_intent" ∧ w.drawn ≤ 100)) = true := by
    decide +kernel
  obtain ⟨owner, w0, w, hrun, hcheck⟩ := tryRun_run h
  obtain ⟨hstored, hfacts⟩ := Bool.and_eq_true_iff.mp hcheck
  obtain ⟨hroom, hdrawn⟩ := of_decide_eq_true hfacts
  obtain ⟨i, hi, hx⟩ := Option.map_eq_some_iff.mp (of_decide_eq_true hstored)
  have hfresh : FreshBelow soundHost w.drawn := fun i j hi hj h =>
    lowBytes_inj (by omega) (by omega) h
  exact ⟨owner, w0, w, i, hrun, hi, (waiting_intents_live hrun hfresh hi
    (by rw [hx]; decide)).1 ⟨hx, hroom⟩⟩

/-- **A DEAD INTENT**: the intent of `opening` is validated; its own agent's
    cancellation is accepted for its state, and jams. -/
theorem waiting_intents_live_jammed :
    ∃ owner w0 w i, TreasuryRun stillHost owner w0 (opening smallPurchase owner) w
      ∧ w.state.intents.get? (firstIntent stillHost) = some i
      ∧ i.state = .policyValidated
      ∧ Authenticates stillHost w agentToken (.agent i.agentId)
      ∧ result (handle stillHost agentToken
        (.cancelPurchaseIntent (firstIntent stillHost))) w
        = .error (.conflict
          "invalid transaction transition PolicyValidated -> Cancelled")
      ∧ ¬LivingLater stillHost w i := by
  have h : tryRun stillHost ⟨100000, "CAD"⟩ (opening smallPurchase)
      (fun w => isToken stillHost agentToken (firstAgent stillHost) w
        && (decide ((w.state.intents.get? (firstIntent stillHost)).map
            (fun i => (i.state, i.agentId, i.id))
          = some (.policyValidated, firstAgent stillHost, firstIntent stillHost))
        && (decide ((w.state.agents.get? (firstAgent stillHost)).map
          AgentRecord.brokerSessionExpiresAt = some 1600)
        && match result (handle stillHost agentToken
            (.cancelPurchaseIntent (firstIntent stillHost))) w with
          | .error e => decide (e = .conflict
            "invalid transaction transition PolicyValidated -> Cancelled")
          | .ok _ => false))) = true := by decide +kernel
  obtain ⟨owner, w0, w, hrun, hcheck⟩ := tryRun_run h
  rw [Bool.and_eq_true, Bool.and_eq_true, Bool.and_eq_true] at hcheck
  obtain ⟨htoken, hstored, hexpiry, hjam⟩ := hcheck
  obtain ⟨i, hi, hfacts⟩ := Option.map_eq_some_iff.mp (of_decide_eq_true hstored)
  obtain ⟨hx, hfacts⟩ := Prod.mk.inj hfacts
  obtain ⟨hagent, hid⟩ := Prod.mk.inj hfacts
  refine ⟨owner, w0, w, i, hrun, hi, hx, hagent ▸ isToken_run htoken, ?_, ?_⟩
  · generalize hr : result (handle stillHost agentToken
      (.cancelPurchaseIntent (firstIntent stillHost))) w = x at hjam
    cases x with
    | ok _ => exact nomatch hjam
    | error e => exact congrArg _ (of_decide_eq_true hjam)
  · intro hlives
    have hwaits : Waits i.state := by
      rw [hx]
      decide
    have hsession : ∀ r, w.state.agents.get? i.agentId = some r →
        OnCalendar r.brokerSessionExpiresAt := by
      intro r hr
      obtain ⟨r', hr', hexp⟩ :=
        Option.map_eq_some_iff.mp (of_decide_eq_true hexpiry)
      rw [hagent] at hr
      obtain rfl := Option.some.inj (hr.symm.trans hr')
      rw [hexp]
      exact ⟨by decide, by decide⟩
    have happroval :=
      (living_waits hrun (hid.symm ▸ hi) hwaits hsession hlives).1
    exact nomatch hx.symm.trans happroval

end Treasury
