import Cixa.Entries
import Cixa.Steady

/-! # Atomic — a failed call changes nothing until the provider is called

    A saved request that fails puts the state back, but for the one entry
    that a refused creation may leave.  An execution in the simulated mode
    does the same up to its submission.  A HANDOFF does not: once its funds
    are reserved it writes an entry and saves, and if either fails it leaves
    the intent executing, though nobody was asked to pay.  What a handoff
    needs there is known before it starts. -/

namespace Treasury

open CixaData CixaHost Outcome Transition Checks

variable {host : Host} {w w' : World} {c : Call} {id : String} {α β : Type}

/-! ## Calling the provider -/

/-- The provider is called between two worlds. -/
def Called (w w' : World) : Prop :=
  ∃ tail id, w'.log = w.log ++ tail ∧ .submitted id ∈ tail

theorem Path.uncalled {allowed : Label → Prop} (h : Path host allowed w w')
    (hno : Unsubmitting allowed) : ¬Called w w' := by
  have hnone : ∀ l a b e, allowed l → Change host l a b →
      b.log = a.log ++ [e] → ∀ id, e ≠ .submitted id := by
    rintro l a b _ hl hc hlog id rfl
    rcases hc.logged with heq | ⟨e, heq, he⟩
    · rw [hlog] at heq
      simp at heq
    · rw [hlog] at heq
      obtain rfl : Event.submitted id = e := by
        simpa using List.append_cancel_left heq
      have hlabel : l = .submit id := he
      exact hno id (hlabel ▸ hl)
  obtain ⟨tail, htail, hP⟩ := h.logs hnone
  rintro ⟨tail', id, htail', hmem⟩
  rw [htail] at htail'
  rw [← List.append_cancel_left htail'] at hmem
  exact hP _ hmem id rfl

/-- A call of the provider in the middle is one of the whole. -/
theorem Called.within {a b : World} (h : Called a b)
    (hbefore : ∃ tail, a.log = w.log ++ tail)
    (hafter : ∃ tail, w'.log = b.log ++ tail) : Called w w' := by
  obtain ⟨tail, id, htail, hmem⟩ := h
  obtain ⟨t, ht⟩ := hbefore
  obtain ⟨u, hu⟩ := hafter
  refine ⟨t ++ tail ++ u, id, ?_, ?_⟩
  · rw [hu, htail, ht, List.append_assoc, List.append_assoc, List.append_assoc]
  · exact List.mem_append_left _ (List.mem_append_right _ hmem)

theorem Submitted.called (h : Submitted host id w w') : Called w w' := by
  obtain ⟨d, hsub, hp⟩ := h
  have hd : Called w d := by
    generalize hl : Label.submit id = l at hsub
    cases hsub with
    | submit _ _ _ _ hlog => exact ⟨_, _, hlog, List.mem_singleton_self _⟩
    | _ => exact nomatch hl
  exact hd.within ⟨[], (List.append_nil _).symm⟩ (Path.grows hp)

/-- An intent is stored beyond reservation. -/
def Past (s : TreasuryState) (id : String) : Prop :=
  ∃ i, s.intents.get? id = some i ∧ Beyond i.state

theorem Path.past {allowed : Label → Prop} (h : Path host allowed w w')
    (hno : ∀ j, ¬allowed (.addIntent j)) (hw : Past w.state id) :
    Past w'.state id := by
  refine h.invariant (I := fun v => Past v.state id) ?_
    (fun _ _ _ ha _ => ha) hw
  rintro l a b hl hc ⟨i, hi, hb⟩
  refine hc.beyond_of ?_ hi hb
  rintro j rfl
  exact absurd hl (hno j)

/-- The provider was called, and the intent is past reservation. -/
def Spends (w w' : World) (id : String) : Prop :=
  Called w w' ∧ Past w'.state id

theorem Submitted.spends (h : Submitted host id w w')
    (hw : Past w.state id) : Spends w w' id := by
  refine ⟨h.called, ?_⟩
  obtain ⟨d, hsub, hp⟩ := h
  refine hp.past (fun _ h => h) ?_
  rw [hsub.submitted_state]
  exact hw

theorem Spends.within {a b : World} (h : Spends a b id)
    (hbefore : ∃ tail, a.log = w.log ++ tail)
    (hp : Path host (AfterSubmit id) b w') : Spends w w' id :=
  ⟨h.1.within hbefore (Path.grows hp), hp.past (fun _ h => h) h.2⟩

/-! ## When a save succeeds -/

/-- The key on the disk, if there is one, is the key in memory. -/
def KeyFits (w : World) : Prop :=
  ∀ key, (diskOf w.log).key = some key → constantTimeEq key w.auditKey = true

/-- **WHAT A SAVE NEEDS**: no fault, the right key, a valid state and an
    intact chain. -/
structure Saves (host : Host) (w : World) : Prop where
  fault : host.saveFault w.saves = none
  key : KeyFits w
  valid : validateState host w.state = .ok ⟨⟩
  chain : verifyAuditChain host w.auditKey w.state = .ok ⟨⟩

theorem ensureKey_fits : wp ensureKey
    (fun _ w' => KeyFits w ∧ w'.auditKey = w.auditKey ∧ w'.state = w.state)
    (fun _ _ => ¬KeyFits w) w := by
  unfold ensureKey
  rw [wp_bind, wp_get]
  cases hd : (diskOf w.log).key with
  | some key =>
      rw [wp_rejectIf]
      constructor
      · intro hne hfits
        rw [hfits key hd] at hne
        exact nomatch hne
      · intro hne
        refine ⟨fun key' hkey => ?_, rfl, rfl⟩
        rw [hd] at hkey
        rw [← Option.some.inj hkey]
        simpa using hne
  | none =>
      rw [wp_record]
      refine ⟨fun key hkey => ?_, rfl, rfl⟩
      rw [hd] at hkey
      exact nomatch hkey

/-- A save succeeds exactly when it has what it needs. -/
theorem saveTo_saves :
    wp (saveTo host) (fun _ _ => Saves host w) (fun _ _ => ¬Saves host w) w := by
  have hfault : ∀ stage, failsAt (host.saveFault w.saves) stage →
      ¬Saves host w := by
    intro stage hstage hs
    unfold failsAt at hstage
    rw [hs.fault] at hstage
    exact nomatch hstage
  unfold saveTo
  rw [wp_bind, wp_get, wp_bind, wp_modify, wp_bind, wp_rejectIf]
  refine ⟨hfault _, fun h1 => ?_⟩
  refine line (wp_mono ensureKey_fits (fun _ _ h => h)
    fun _ _ hk hs => hk hs.key) ?_
  rintro _ a ⟨hkey, -, -⟩
  rw [wp_bind, wp_rejectIf]
  refine ⟨hfault _, fun h2 => ?_⟩
  rw [wp_bind, wp_lift]
  refine ⟨fun _ he hs => ?_, fun _ hvalid => ?_⟩
  · rw [hs.valid] at he
    exact nomatch he
  rw [wp_bind, wp_lift]
  refine ⟨fun _ he hs => ?_, fun _ hchain => ?_⟩
  · rw [hs.chain] at he
    exact nomatch he
  rw [wp_bind, wp_randomHex, wp_bind, wp_rejectIf]
  refine ⟨hfault _, fun h3 => ?_⟩
  rw [wp_bind, wp_record, wp_rejectIf]
  refine ⟨hfault _, fun h4 => ⟨?_, hkey, hvalid, hchain⟩⟩
  -- a fault at none of the four stages is no fault
  cases hf : host.saveFault w.saves with
  | none => rfl
  | some fault =>
      unfold failsAt at h1 h2 h3 h4
      rw [hf] at h1 h2 h3 h4
      cases hstage : fault.stage with
      | beforeKey => exact absurd (congrArg some hstage) h1
      | afterKey => exact absurd (congrArg some hstage) h2
      | beforeRename => exact absurd (congrArg some hstage) h3
      | afterRename => exact absurd (congrArg some hstage) h4

/-! ## Failed requests write no entry -/

/-- The number of entries that were written. -/
def generationOf (w : World) : Nat := w.state.generation

theorem generation_steady : Steady generationOf :=
  ⟨fun _ _ => rfl, fun _ _ => rfl, fun _ _ => rfl⟩

/-- A program that, if it fails for the rate limit, wrote no entry. -/
def Late (x : Op α) : Prop :=
  ∀ w, wp x (fun _ _ => True)
    (fun e w' => e = rateLimitExceeded → generationOf w' = generationOf w) w

namespace Late

theorem of {x : Op α} (hx : Keeps generationOf x) : Late x := fun w =>
  wp_mono (hx w) (fun _ _ _ => trivial) (fun _ _ h _ => h)

theorem bind {x : Op α} {f : α → Op β} (hx : Keeps generationOf x)
    (hf : ∀ a, Late (f a)) : Late (x >>= f) := by
  intro w
  refine line (wp_mono (hx w) (fun _ _ h => h) (fun _ _ h _ => h)) ?_
  intro a v hv
  exact wp_mono (hf a v) (fun _ _ h => h) (fun _ _ h he => (h he).trans hv)

theorem ite {c : Prop} [Decidable c] {x y : Op α} (hx : Late x)
    (hy : Late y) : Late (if c then x else y) := by
  by_cases hc : c
  · rw [if_pos hc]
    exact hx
  · rw [if_neg hc]
    exact hy

/-- The entry is the last thing that can fail. -/
theorem audit {a : α} {actor action : String} {intentId : Option String}
    {policyVersion : Option Nat} {decision : Option String} {details : Json} :
    Late (Treasury.audit host actor action intentId policyVersion decision
      details >>= fun _ => Pure.pure a) := by
  intro w
  rw [wp_bind]
  refine wp_audit (fun _ _ => rfl) fun _ => ?_
  rw [wp_pure]
  trivial

end Late

section Requests

variable {actor : Actor}

theorem cancelIntent_late : Late (cancelIntent host actor id) :=
  .bind .readState fun _ => .bind (.lift _) fun _ => .bind (.lift _) fun _ =>
    .bind (.rejectIf _ _) fun _ =>
      .bind (.transition generation_steady _ _) fun _ =>
        .bind (.storeIntent generation_steady fun _ => rfl) fun _ => .audit

theorem decideApproval_late {next : TransactionState}
    {lastError : Option String → Option String} {action decision : String}
    {details : Json} : Late (decideApproval host actor id next lastError action
      decision details) :=
  .bind .readState fun _ => .bind (.lift _) fun _ =>
    .bind (.orReject _ _) fun _ => .bind (.rejectIf _ _) fun _ =>
      .bind (.transition generation_steady _ _) fun _ =>
        .bind (.storeIntent generation_steady fun _ => rfl) fun _ => .audit

theorem ownerApprove_late : Late (ownerApprove host actor id) :=
  decideApproval_late

theorem ownerDeny_late : Late (ownerDeny host actor id) :=
  decideApproval_late

theorem ownerCompleteManualHandoff_late :
    Late (ownerCompleteManualHandoff host actor id) :=
  .bind .readState fun _ => .bind (.lift _) fun _ =>
    .bind (.orReject _ _) fun _ => .bind (.rejectIf _ _) fun _ =>
      .bind (.transition generation_steady _ _) fun _ =>
        .bind (.storeIntent generation_steady fun _ => rfl) fun _ => .audit

theorem putAgent_keeps {r : AgentRecord} :
    Keeps generationOf (putAgent id r) := .modifyState fun _ => rfl

theorem sessionExpiry_keeps {s : TreasuryState} {ttl : Int} :
    Keeps generationOf (sessionExpiry host s ttl) :=
  .ite (.pure _) (.bind (.now generation_steady) fun _ => .pure _)

theorem ownerCreateAgent_late {name : String} {p : Policy}
    {mode : AutonomyMode} {ttlSecs : Int} {token : Option String} :
    Late (ownerCreateAgent host actor name p mode ttlSecs token) := by
  have htoken : Keeps generationOf (tokenFor host token) := by
    cases token with
    | none => exact .randomHex generation_steady _
    | some t => exact .pure _
  unfold ownerCreateAgent
  refine .bind .readState fun _ => .bind (.lift _) fun _ =>
    .bind (.rejectIf _ _) fun _ => .bind (.lift _) fun _ =>
      .bind (.lift _) fun _ => .bind (.lift _) fun _ => .bind (.lift _) fun _ =>
        ?_
  refine .bind htoken fun _ => .bind (.lift _) fun _ =>
    .bind (.newId generation_steady _) fun _ => .bind (.lift _) fun _ =>
      .bind sessionExpiry_keeps fun _ =>
        .bind (.newId generation_steady _) fun _ =>
          .bind (.now generation_steady) fun _ =>
            .bind (.now generation_steady) fun _ => ?_
  exact .bind (.modifyState fun _ => rfl) fun _ =>
    .bind putAgent_keeps fun _ => .audit

theorem ownerArmAgentSession_late {ttlSecs : Int} :
    Late (ownerArmAgentSession host actor id ttlSecs) :=
  .bind .readState fun _ => .bind (.lift _) fun _ =>
    .bind (.rejectIf _ _) fun _ => .bind (.lift _) fun _ =>
      .bind (.lift _) fun _ => .bind (.rejectIf _ _) fun _ =>
        .bind (.now generation_steady) fun _ =>
          .bind (.newId generation_steady _) fun _ =>
            .bind putAgent_keeps fun _ => .audit

theorem ownerUpdatePolicy_late {p : Policy} :
    Late (ownerUpdatePolicy host actor id p) :=
  .bind .readState fun _ => .bind (.lift _) fun _ => .bind (.lift _) fun _ =>
    .bind (.lift _) fun _ => .bind (.lift _) fun _ => .bind (.lift _) fun _ =>
      .bind (.lift _) fun _ => .bind (.modifyState fun _ => rfl) fun _ => .audit

theorem stopAgents_keeps (l : List (String × AgentRecord)) :
    Keeps generationOf (stopAgents host l) := by
  induction l with
  | nil => exact .pure _
  | cons e rest ih =>
      exact .bind (.bind (.newId generation_steady _) fun _ => putAgent_keeps)
        fun _ => ih

theorem ownerEmergencyStop_late {stopped : Bool} :
    Late (ownerEmergencyStop host actor stopped) :=
  .bind .readState fun _ => .bind (.lift _) fun _ => .ite (.of (.pure _))
    (.bind (stopAgents_keeps _) fun _ =>
      .bind (.modifyState fun _ => rfl) fun _ => .audit)

theorem ownerSetAgentMode_late {mode : AutonomyMode} :
    Late (ownerSetAgentMode host actor id mode) :=
  .bind .readState fun _ => .bind (.lift _) fun _ =>
    .bind (.orReject _ _) fun _ => .bind putAgent_keeps fun _ => .audit

theorem ownerRevokeAgent_late : Late (ownerRevokeAgent host actor id) :=
  .bind .readState fun _ => .bind (.lift _) fun _ =>
    .bind (.orReject _ _) fun _ => .bind putAgent_keeps fun _ => .audit

theorem ownerRotateAgentCapability_late {ttlSecs : Int} {token : String} :
    Late (ownerRotateAgentCapability host actor id ttlSecs token) :=
  .bind .readState fun _ => .bind (.lift _) fun _ => .bind (.lift _) fun _ =>
    .bind (.lift _) fun _ => .bind (.lift _) fun _ => .bind (.lift _) fun _ =>
      .bind (.now generation_steady) fun _ => .bind sessionExpiry_keeps fun _ =>
        .bind (.newId generation_steady _) fun _ =>
          .bind putAgent_keeps fun _ => .audit

theorem ownerApproveMerchant_late {domain : String} :
    Late (ownerApproveMerchant host actor id domain) :=
  .bind .readState fun _ => .bind (.lift _) fun _ => .bind (.lift _) fun _ =>
    .bind (.orReject _ _) fun _ => .ite (.of (.pure _))
      (.bind (.rejectIf _ _) fun _ => .bind putAgent_keeps fun _ => .audit)

/-- A reconciliation that fails puts the state back. -/
theorem ownerReconcile_late {outcome : ReconciliationOutcome}
    {reference : Option String} :
    Late (ownerReconcile host actor id outcome reference) := by
  intro w
  unfold ownerReconcile
  rw [wp_bind, wp_readState]
  refine line_lift (fun _ _ => rfl) fun _ _ => ?_
  refine wp_orRestore ?_
  exact wp_mono (wp_const trivial) (fun _ _ h => h) (fun _ _ _ _ => rfl)

theorem putManualBalance_keeps {m : ManualPrepaidCardProvider}
    {snap : ManualBalanceSnapshot} :
    Keeps generationOf (putManualBalance m snap) := .modifyState fun _ => rfl

theorem manualBalance_keeps : Keeps generationOf manualBalance :=
  .bind .readState fun _ => .bind (.orReject _ _) fun _ =>
    .bind (.orReject _ _) fun _ => .pure _

theorem creditDeposit_keeps {amount : Money} {verified : Bool} :
    Keeps generationOf (creditDeposit host amount verified) := by
  refine .ite (.bind .readState fun s => ?_) (.pure _)
  cases s.providerMode with
  | simulated => exact .bind (.lift _) fun _ => .modifyState fun _ => rfl
  | manualPrepaidCard =>
      exact .bind manualBalance_keeps fun _ => .bind (.lift _) fun _ =>
        .bind (.now generation_steady) fun _ => putManualBalance_keeps

theorem ownerRecordDeposit_late {amount : Money} {source : String}
    {verified : Bool} {agentId : Option String} {reference : String} :
    Late (ownerRecordDeposit host actor amount source verified agentId
      reference) := by
  unfold ownerRecordDeposit
  refine .bind .readState fun s => .bind (.lift _) fun _ =>
    .bind (.lift _) fun _ => .bind (.lift _) fun _ =>
      .bind (.rejectIf _ _) fun _ => ?_
  cases s.processedDeposits.get? (opaqueReference host "deposit" reference) with
  | some existing => exact .ite (.of (.pure _)) (.of (.throw _))
  | none =>
      refine .bind (.lift _) fun reinvested => .bind creditDeposit_keeps fun _ =>
        .bind (.appendLedger generation_steady fun _ _ => rfl) fun _ => ?_
      refine .bind (.ite (.appendLedger generation_steady fun _ _ => rfl)
        (.pure _)) fun _ => ?_
      exact .bind (.modifyState fun _ => rfl) fun _ => .audit

theorem ownerConfigureReceive_late {method address memo : String} :
    Late (ownerConfigureReceive host actor method address memo) :=
  .bind (.lift _) fun _ => .bind (.lift _) fun _ => .bind (.lift _) fun _ =>
    .bind (.lift _) fun _ => .bind (.rejectIf _ _) fun _ =>
      .bind (.now generation_steady) fun _ =>
        .bind (.modifyState fun _ => rfl) fun _ => .audit

theorem ownerConfigureManualProvider_late
    {configuration : ManualProviderConfiguration} :
    Late (ownerConfigureManualProvider host actor configuration) :=
  .bind .readState fun _ => .bind (.lift _) fun _ => .bind (.lift _) fun _ =>
    .bind (.now generation_steady) fun _ =>
      .bind (.modifyState fun _ => rfl) fun _ => .audit

end Requests

/-- What the audit log refuses an entry with is no rate limit. -/
theorem audit_refusal {actor action : String} {intentId : Option String}
    {policyVersion : Option Nat} {decision : Option String} {details : Json} :
    wp (audit host actor action intentId policyVersion decision details)
      (fun _ _ => True) (fun e _ => e ≠ rateLimitExceeded) w := by
  unfold audit
  rw [wp_bind, wp_get, wp_bind, wp_rejectIf]
  refine ⟨fun _ => nofun, fun _ => ?_⟩
  rw [wp_bind, wp_rejectIf]
  refine ⟨fun _ => nofun, fun _ => ?_⟩
  rw [wp_bind, wp_modifyState, wp_bind, wp_now, wp_modifyState]
  trivial

/-- Beginning a handoff writes two entries, and never fails for the rate
    limit after the first. -/
theorem ownerBeginManualHandoff_late {actor : Actor} (h : Workable w.state) :
    wp (ownerBeginManualHandoff host actor id) (fun _ _ => True)
      (fun e w' => e = rateLimitExceeded → generationOf w' = generationOf w)
      w := by
  have hgen := h.generation
  unfold ownerBeginManualHandoff
  rw [wp_bind, wp_readState]
  refine line_lift (fun _ _ => rfl) fun _ _ => ?_
  refine line_rejectIf (fun _ _ => rfl) fun _ => ?_
  refine line_orReject (fun _ _ => rfl) fun i _ => ?_
  refine line_rejectIf (fun _ _ => rfl) fun _ => ?_
  refine line (wp_mono (prepare_spec h.keyed (by omega)) (fun _ _ _ => trivial)
    fun _ v hq _ => congrArg TreasuryState.generation hq.state) ?_
  intro _ b _
  refine line (wp_mono audit_refusal (fun _ _ h => h)
    (fun _ _ h he => absurd he h)) ?_
  intro _ v _
  rw [wp_bind, wp_readState, wp_bind, wp_orReject]
  refine ⟨fun _ => nofun, fun _ _ => ?_⟩
  rw [wp_pure]
  trivial

/-- A state that a failed request leaves: the old one, or the old one with
    the entry of a refused creation. -/
def Refused (s s' : TreasuryState) : Prop :=
  s' = s ∨ ∃ e, e.action = "transaction_rate_limited" ∧ s' = s.withEntry e

theorem Quiet.refused (h : Quiet w w') : Refused w.state w'.state :=
  Or.inl h.state

/-- Storing a new intent fails before anything is stored. -/
theorem insertNewIntent_fails {agentId : String} {r : AgentRecord} {p : Policy}
    {request : PurchaseRequest} {decision : PolicyDecision} :
    wp (insertNewIntent host agentId r p request decision) (fun _ _ => True)
      (fun _ w' => w'.state = w.state) w := by
  unfold insertNewIntent
  rw [wp_bind, wp_newId, wp_bind, wp_now, wp_bind]
  refine wp_transition (fun _ => rfl) fun _ => ?_
  rw [wp_bind]
  refine wp_transition (fun _ => rfl) fun _ => ?_
  rw [wp_bind]
  refine wp_audit (fun _ => rfl) fun _ => ?_
  rw [wp_bind, wp_storeIntent, wp_pure]
  trivial

/-- **A CREATION THAT FAILS** leaves at most the entry of its refusal. -/
theorem createIntent_refusal {actor : Actor} {request : PurchaseRequest} :
    wp (createIntent host actor request) (fun _ _ => True)
      (fun _ w' => Refused w.state w'.state) w := by
  have h0 : Refused w.state w.state := Or.inl rfl
  unfold createIntent
  rw [wp_bind, wp_readState]
  refine line_lift (fun _ => h0) fun agentId _ => ?_
  refine line_lift (fun _ => h0) fun r hr => ?_
  refine line_lift (fun _ => h0) fun normal _ => ?_
  split
  · rw [wp_ite, wp_pure, wp_throw]
    exact ⟨fun _ => trivial, fun _ => h0⟩
  unfold createNewIntent
  refine line_rejectIf (fun _ => h0) fun _ => ?_
  refine line_rejectIf (fun _ => h0) fun _ => ?_
  refine line_lift (fun _ => h0) fun p hp => ?_
  refine line_quiet (requireArmedSession_quietly _ _)
    (fun _ _ h => h.refused) fun _ a ha => ?_
  refine line_quiet (usage_quietly _ _ _)
    (fun _ _ h => (ha.trans h).refused) fun used b hb => ?_
  have hab := ha.trans hb
  rw [wp_ite]
  constructor
  · intro _
    unfold refuseForRate
    rw [wp_bind, wp_now, wp_ite, wp_throw]
    refine ⟨fun _ => hab.refused, fun _ => ?_⟩
    rw [wp_bind]
    refine wp_audit (fun _ => hab.refused) fun _ => ?_
    rw [wp_throw]
    exact Or.inr ⟨_, rfl, by rw [← hab.state]⟩
  · intro _
    refine line_quiet (decideRequest_quietly _ _ _ _ _)
      (fun _ _ h => (hab.trans h).refused) fun decision c hc => ?_
    rw [wp_bind, wp_now]
    refine wp_mono insertNewIntent_fails (fun _ _ h => h) (fun _ v hv => ?_)
    exact Or.inl (hv.trans (hab.trans hc).state)

theorem dispatch_late {actor : Actor} {request : Request}
    (h : Workable w.state) (hx : ∀ r, request ≠ .createPurchaseIntent r)
    (hx' : ∀ id, request ≠ .executePurchaseIntent id) :
    wp (dispatch host actor request) (fun _ _ => True)
      (fun e w' => e = rateLimitExceeded → generationOf w' = generationOf w)
      w := by
  cases request with
  | createPurchaseIntent r => exact absurd rfl (hx r)
  | executePurchaseIntent id => exact absurd rfl (hx' id)
  | cancelPurchaseIntent id => exact cancelIntent_late w
  | ownerCreateAgent name p mode ttl => exact ownerCreateAgent_late w
  | ownerCreateAgentPrepared name p mode ttl token =>
      exact ownerCreateAgent_late w
  | ownerUpdatePolicy id p => exact ownerUpdatePolicy_late w
  | ownerSetAgentMode id mode => exact ownerSetAgentMode_late w
  | ownerRevokeAgent id => exact ownerRevokeAgent_late w
  | ownerRotateAgentCapability id ttl token =>
      exact ownerRotateAgentCapability_late w
  | ownerSetEmergencyStop stopped => exact ownerEmergencyStop_late w
  | ownerApproveIntent id => exact ownerApprove_late w
  | ownerDenyIntent id => exact ownerDeny_late w
  | ownerBeginManualHandoff id => exact ownerBeginManualHandoff_late h
  | ownerCompleteManualHandoff id => exact ownerCompleteManualHandoff_late w
  | ownerApproveMerchant id domain => exact ownerApproveMerchant_late w
  | ownerReconcile id outcome reference => exact ownerReconcile_late w
  | ownerRecordDeposit amount source verified id reference =>
      exact ownerRecordDeposit_late w
  | ownerArmAgentSession id ttl => exact ownerArmAgentSession_late w
  | ownerConfigureManualProvider c => exact ownerConfigureManualProvider_late w
  | ownerConfigureReceiveInstructions method address memo =>
      exact ownerConfigureReceive_late w
  | _ =>
      refine wp_mono ((dispatch_quietly rfl).run w) (fun _ _ _ => trivial) ?_
      exact fun _ _ hq _ => congrArg TreasuryState.generation hq.state

/-! ## Saved requests put the state back -/

/-- What a saved request leaves when it fails: the state of before, or the
    one whose refusal it kept. -/
theorem handleSaved_fails {token : String} {request : Request}
    {R : TreasuryState → Prop} (h0 : R w.state)
    (hrun : wp (handle host token request) (fun _ _ => True)
      (fun e v => keepsRefusal w.state v.state e → R v.state) w) :
    wp (handleSaved host token request) (fun _ _ => True)
      (fun _ w' => R w'.state) w := by
  unfold handleSaved
  rw [wp_bind, wp_readState, wp_bind, wp_attempt]
  refine wp_mono hrun ?_ ?_
  · intro value v _
    dsimp only
    rw [wp_ite, wp_pure]
    refine ⟨fun _ => trivial, fun _ => ?_⟩
    rw [wp_bind]
    refine wp_orRestore (wp_mono (wp_const trivial) ?_ (fun _ _ _ => h0))
    intro _ w' _
    rw [wp_pure]
    trivial
  · intro e v hv
    dsimp only
    rw [wp_bind, wp_readState, wp_ite]
    constructor
    · intro hkeep
      rw [wp_bind]
      refine wp_orRestore (wp_mono saveTo_spec ?_ (fun _ _ _ => h0))
      rintro _ w' ⟨_, hs, _⟩
      rw [wp_throw, hs]
      exact hv hkeep
    · intro _
      rw [wp_bind, wp_setState, wp_throw]
      exact h0

/-- **A SAVED CREATION THAT FAILS** leaves at most the entry of its
    refusal. -/
theorem handleSaved_create {token : String} {request : PurchaseRequest} :
    wp (handleSaved host token (.createPurchaseIntent request))
      (fun _ _ => True) (fun _ w' => Refused w.state w'.state) w := by
  refine handleSaved_fails (Or.inl rfl) ?_
  unfold handle
  refine line_quiet (authenticate_quietly token) (fun _ _ h _ => h.refused) ?_
  intro actor a ha
  refine wp_mono createIntent_refusal (fun _ _ h => h) (fun _ v hv _ => ?_)
  rw [← ha.state]
  exact hv

/-- **ANY OTHER SAVED REQUEST THAT FAILS** changes nothing. -/
theorem handleSaved_restores {token : String} {request : Request}
    (h : Workable w.state) (hx : ∀ r, request ≠ .createPurchaseIntent r)
    (hx' : ∀ id, request ≠ .executePurchaseIntent id) :
    wp (handleSaved host token request) (fun _ _ => True)
      (fun _ w' => w'.state = w.state) w := by
  refine handleSaved_fails (R := fun s => s = w.state) rfl ?_
  unfold handle
  refine line_quiet (authenticate_quietly token) (fun _ _ h _ => h.state) ?_
  intro actor a ha
  refine wp_mono (dispatch_late (ha.state ▸ h) hx hx') (fun _ _ h => h) ?_
  rintro e v hv ⟨he, hgen⟩
  -- no entry was written, so the refusal is not kept
  have hsame : v.state.generation = a.state.generation := hv he
  rw [hsame, ha.state] at hgen
  exact absurd hgen (lt_irrefl _)

/-! ## Executions -/

theorem Quiet.uncalled (h : Quiet w w') : ¬Called w w' := by
  rintro ⟨tail, id, htail, hmem⟩
  rw [h.log] at htail
  rw [List.self_eq_append_right.mp htail] at hmem
  exact nomatch hmem

/-- Between a reservation and its submission nobody is called. -/
theorem reserved_uncalled {a b : World} (hq : Quiet w a)
    (hr : Change host (.reserve id) a b) (hp : Path host BeforeSubmit b w') :
    ¬Called w w' := by
  have hpath : Path host (fun l => l = .reserve id ∨ BeforeSubmit l) w w' :=
    (Path.quietThen hq (Or.inr trivial) (.single (Or.inl rfl) hr)).trans
      (hp.mono fun _ => Or.inr)
  refine hpath.uncalled ?_
  rintro id' (h | h)
  · exact nomatch h
  · exact h

/-- A reserved intent is past reservation. -/
theorem Change.reserved_past {b : World} (h : Change host (.reserve id) w b) :
    Past b.state id := by
  obtain ⟨i, hx, _⟩ := h.reserved
  refine ⟨i, hx.stored, ?_⟩
  rw [hx.state]
  exact ⟨nofun, nofun, nofun⟩

/-- What is submitted and then recorded, quarantined or saved is spent. -/
theorem submitAndSave_spends {x : Op Json}
    (hx : wp x (fun _ w' => Submitted host id w w')
      (fun _ w' => Submitted host id w w') w)
    (hk : Keyed w.state) (hp : Past w.state id) :
    wp (submitAndSave host id x) (fun _ w' => Spends w w' id)
      (fun _ w' => Spends w w' id) w := by
  refine wp_mono (submitAndSave_keeps hx ?_ ?_) (fun _ _ h => h.spends hp)
    (fun _ _ h => h.spends hp)
  · exact fun v hv => hv.ended.keyed hk
  · rintro v w' ⟨d, hsub, hd⟩ hv
    exact ⟨d, hsub, hd.trans hv⟩

/-- The state is put back and nobody was called. -/
def PutBack (w w' : World) : Prop := w'.state = w.state ∧ ¬Called w w'

/-- **AN EXECUTION IN THE SIMULATED MODE** puts the state back, or spends. -/
theorem executePersisted_spends {token : String} (h : Workable w.state) :
    wp (executePersisted host token id) (fun _ w' => Spends w w' id)
      (fun _ w' => PutBack w w' ∨ Spends w w' id) w := by
  have hgen := h.generation
  have hback : ∀ {v}, Quiet w v → PutBack w v := fun hq =>
    ⟨hq.state, hq.uncalled⟩
  unfold executePersisted
  rw [wp_bind, wp_readState]
  refine line_rejectIf (fun _ => Or.inl (hback (Quiet.refl w))) fun _ => ?_
  refine line_quiet (authenticate_quietly token)
    (fun _ _ h => Or.inl (hback h)) ?_
  intro actor a ha
  have hwork : Workable a.state := ha.state ▸ h
  refine line (P := fun _ v => ∃ b i, Change host (.reserve id) a b
    ∧ Path host Saving b v ∧ v.state = b.state
    ∧ a.state.intents.get? id = some i ∧ actor = .agent i.agentId) ?_ ?_
  · refine wp_orRestore ?_
    refine line (wp_mono (wp_and (prepare_gate hwork) (prepare_spec hwork.keyed
      (by rw [ha.state]; omega))) (fun _ _ h => h) ?_) ?_
    · rintro _ v ⟨hq, _⟩
      refine Or.inl ⟨rfl, ?_⟩
      exact (ha.trans hq).uncalled
    rintro _ b ⟨⟨i, hi, _, hactor⟩, hb⟩
    refine wp_mono saveTo_spec ?_ ?_
    · rintro _ v ⟨hp, hs, _⟩
      exact ⟨b, i, hb, hp, hs, hi, hactor⟩
    · rintro _ v ⟨hp, _⟩
      have hnot : ¬Called w v :=
        reserved_uncalled ha hb (hp.mono saving_before)
      exact Or.inl ⟨rfl, hnot⟩
  rintro _ v ⟨b, i, hb, hp, hs, hi, rfl⟩
  obtain ⟨j, r, _, _, _, t, hid, hj, hr, _, _, _, hstate, _⟩ := hb.reserve_inv
  obtain rfl : i = j := Option.some.inj (hi.symm.trans hj)
  -- the reservation is saved: whatever fails from here on, it is spent
  have hroom := hb.roomy hwork
  have hlog : ∃ tail, v.log = w.log ++ tail := by
    have hpath : Path host anyLabel a v :=
      .trans (.single trivial hb) (hp.mono fun _ _ => trivial)
    obtain ⟨tail, htail⟩ := Path.grows hpath
    exact ⟨tail, by rw [htail, ha.log]⟩
  have hspends := @submitAndSave_spends host v id
    ( completeIntentExecution host (.agent i.agentId) id)
    (complete_submits (i := { i with state := .executing, updatedAt := t })
      (r := r) hid ?_ rfl ?_ hr.scope ?_) ?_ ?_
  · exact wp_mono hspends (fun _ _ h => ⟨h.1.within hlog
      ⟨[], (List.append_nil _).symm⟩, h.2⟩) (fun _ _ h => Or.inr
        ⟨h.1.within hlog ⟨[], (List.append_nil _).symm⟩, h.2⟩)
  all_goals rw [hs]
  · rw [hstate]
    exact SortedMap.get?_insert_self a.state.intents _ _
  · rw [hstate]
    exact hr.agent
  · exact hroom
  · exact hb.keyed hwork.keyed
  · exact hb.reserved_past

/-! ## What a handoff needs -/

/-- **WHAT A HANDOFF NEEDS** once its funds are reserved: room for one more
    entry, and a save. -/
structure Recordable (host : Host) (action : String) (w : World) : Prop where
  room : auditCapacityAllows (nonEmergencyCount w.state.audit + 1)
    (emergencyCount w.state.audit) action = true
  saves : Saves host w

theorem entered_action {a b : World} {s : TreasuryState} {action : String}
    {e : AuditEntry} (h : Entered host a b s action e) : e.action = action := by
  obtain ⟨_, _, _, _, _, _, _, _, _, _, rfl⟩ := h.made
  rfl

/-- The counts of the log after a reservation. -/
theorem reserved_counts {a b : World} (hr : Change host (.reserve id) a b) :
    emergencyCount b.state.audit = emergencyCount a.state.audit
      ∧ nonEmergencyCount b.state.audit
        = nonEmergencyCount a.state.audit + 1 := by
  obtain ⟨_, _, _, _, e, _, _, _, _, _, he, _, hs, _⟩ := hr.reserve_inv
  rw [hs]
  refine counts_append ?_
  rw [entered_action he]
  rfl

/-- A handoff's entry finds room after the reservation if it would have found
    room for one more before. -/
theorem reserved_room {a b : World} {action : String}
    (hr : Change host (.reserve id) a b) (hw : Workable a.state) :
    hasRoom b.state action ↔ auditCapacityAllows
      (nonEmergencyCount a.state.audit + 1) (emergencyCount a.state.audit)
      action = true := by
  obtain ⟨hem, hnon⟩ := reserved_counts hr
  obtain ⟨_, _, _, hgen⟩ := hr.reserved
  have := hw.generation
  unfold hasRoom
  rw [hem, hnon]
  exact ⟨fun h => h.1, fun h => ⟨h, by omega⟩⟩

/-- **A HANDOFF CAN SAVE** what it reserved and entered exactly when the
    state before could be saved. -/
theorem reserved_saves {a b : World} {actor action : String}
    {intentId : Option String} {policyVersion : Option Nat}
    {decision : Option String} {details : Json}
    (hr : Change host (.reserve id) a b) (hsaves : b.saves = a.saves)
    (hact : isEmergencyAudit action = false) :
    Saves host { b with
        tick := b.tick + 1
        state := b.state.withEntry (entryOf host b actor action intentId
          policyVersion decision details) }
      ↔ Saves host a := by
  obtain ⟨_, hnon⟩ := reserved_counts hr
  obtain ⟨i, r, p, hold, e, t, hid, hi, hres, hhold, he, _, hstate, hlog⟩ :=
    hr.reserve_inv
  have hkeyed : b.auditKey = a.auditKey := hr.advance.key
  have hcap := of_decide_eq_true hres.capacity
  generalize hentry : entryOf host b actor action intentId policyVersion
    decision details = e2
  have he2 : e2.action = action := by
    rw [← hentry]
    rfl
  have hdisk : diskOf b.log = diskOf a.log := by
    rw [hlog, diskOf_append]
    rfl
  -- the state is as valid, and the chain as intact, as it was before
  have hvalid : validateState host (b.state.withEntry e2) = .ok ⟨⟩
      ↔ validateState host a.state = .ok ⟨⟩ := by
    rw [validateState_ok, validateState_ok,
      valid_withEntry (he2 ▸ hact) (by omega), hstate]
    subst hid
    have hreserved := @valid_reserved host a.state i hold t hi hres.executable
      hhold.intentId hhold.amount
    refine Iff.trans (valid_withEntry (s := (a.state.withEvents
      [hold]).withIntent i.id { i with state := .executing, updatedAt := t })
      (e := e) ?_ ?_) hreserved
    · rw [entered_action he]
      rfl
    · show nonEmergencyCount a.state.audit < maxAuditEntries
      omega
  have hchain : verifyAuditChain host b.auditKey (b.state.withEntry e2) = .ok ⟨⟩
      ↔ verifyAuditChain host a.auditKey a.state = .ok ⟨⟩ := by
    rw [verifyAuditChain_ok, verifyAuditChain_ok]
    show Chained host b.auditKey (b.state.audit ++ [e2]) ↔ _
    rw [← hentry, chained_entryOf, hkeyed, hstate]
    obtain ⟨w1, hkey1, hs1, _, _, _, _, _, _, _, rfl⟩ := he.made
    show Chained host a.auditKey (a.state.audit ++ [_]) ↔ _
    have haudit : w1.state.audit = a.state.audit := by
      rw [hs1]
      rfl
    rw [← haudit, ← hkey1]
    exact chained_entryOf
  constructor
  · rintro ⟨hf, hk, hv, hc⟩
    refine ⟨hsaves ▸ hf, ?_, hvalid.mp hv, hchain.mp hc⟩
    unfold KeyFits at hk ⊢
    rw [← hdisk, ← hkeyed]
    exact hk
  · rintro ⟨hf, hk, hv, hc⟩
    refine ⟨hsaves ▸ hf, ?_, hvalid.mpr hv, hchain.mpr hc⟩
    unfold KeyFits at hk ⊢
    show ∀ key, (diskOf b.log).key = some key → _
    rw [hdisk]
    show ∀ key, _ → constantTimeEq key b.auditKey = true
    rw [hkeyed]
    exact hk

/-! ## Handing over -/

/-- A call ends as a handoff does: prepared, recorded and spent. -/
structure HandedOver (host : Host) (id action : String) (prepared : Prop)
    (w w' : World) : Prop where
  prepared : prepared
  recorded : Recordable host action w
  spends : Spends w w' id

/-- A call ends prepared but not recorded: the intent is left executing. -/
structure LeftOver (host : Host) (action : String) (prepared : Prop)
    (w w' : World) : Prop where
  prepared : prepared
  unrecorded : ¬Recordable host action w
  changed : w'.state ≠ w.state
  uncalled : ¬Called w w'

/-- **HANDING OVER** has three ends: refused, left over, or spent. -/
theorem handOver_ends {executor : CheckoutExecutor}
    {auditor action agentId : String} {a : World} (hw : Workable w.state)
    (hq : Quiet w a) (hsaves : a.saves = w.saves)
    (hact : isEmergencyAudit action = false) {prepared : Prop}
    (hyes : ∀ b, prepareIntentExecution host (.agent agentId) id a = .ok () b →
      prepared)
    (hno : ∀ e b,
      prepareIntentExecution host (.agent agentId) id a = .error e b →
      ¬prepared) :
    wp (handOver host executor auditor action agentId id)
      (fun _ w' => HandedOver host id action prepared w w')
      (fun _ w' => (¬prepared ∧ PutBack w w')
        ∨ HandedOver host id action prepared w w'
        ∨ LeftOver host action prepared w w') a := by
  have hwork : Workable a.state := hq.state ▸ hw
  have hgen := hwork.generation
  unfold handOver
  rw [wp_bind, wp_readState]
  refine line (P := fun _ b => Change host (.reserve id) a b
    ∧ b.saves = a.saves ∧ prepared) ?_ ?_
  · refine wp_orRestore (wp_mono (wp_and (prepare_spec hwork.keyed (by omega))
      (wp_and (prepare_saves _ id a) (wp_self _))) ?_ ?_)
    · rintro ⟨⟩ b ⟨hb, hs, hrun⟩
      exact ⟨hb, hs, hyes b hrun⟩
    · rintro e b ⟨hqb, _, hrun⟩
      exact Or.inl ⟨hno e b hrun, hq.state, (hq.trans hqb).uncalled⟩
  rintro _ b ⟨hb, hbs, hprepared⟩
  obtain ⟨i, hx, _⟩ := hb.reserved
  -- the state is not what it was: one more entry was written
  have hchanged : ∀ s : TreasuryState,
      b.state.generation ≤ s.generation → s ≠ w.state := by
    rintro _ hle rfl
    obtain ⟨_, _, _, hbgen⟩ := hb.reserved
    rw [← hq.state, hbgen] at hle
    omega
  rw [wp_bind, wp_readState, wp_bind, wp_orReject]
  refine ⟨fun hnone => ?_, fun j hj => ?_⟩
  · rw [hx.stored] at hnone
    exact nomatch hnone
  obtain rfl : i = j := Option.some.inj (hx.stored.symm.trans hj)
  have hroom : hasRoom b.state action ↔ _ := reserved_room hb hwork
  rw [hq.state] at hroom
  rw [wp_bind]
  by_cases hfull : hasRoom b.state action
  · refine wp_audit_of_room hfull ?_
    generalize hentry : entryOf host b auditor action (some id)
      (some i.policyVersion) (some "submitted") _ = e
    have hsame := @reserved_saves host id a b auditor action (some id)
      (some i.policyVersion) (some "submitted") (Json.mkObj [("executor_id",
        .str (redactSensitive host executor.executorId))]) hb hbs hact
    rw [hentry] at hsame
    have hquiet : Saves host a ↔ Saves host w := by
      constructor
      · rintro ⟨hf, hk, hv, hc⟩
        refine ⟨hsaves ▸ hf, ?_, hq.state ▸ hv, hq.key ▸ hq.state ▸ hc⟩
        unfold KeyFits at hk ⊢
        rw [← hq.log, ← hq.key]
        exact hk
      · rintro ⟨hf, hk, hv, hc⟩
        refine ⟨hsaves ▸ hf, ?_, hq.state ▸ hv, ?_⟩
        · unfold KeyFits at hk ⊢
          rw [hq.log, hq.key]
          exact hk
        · rw [hq.state, hq.key]
          exact hc
    generalize hc : ({ b with
      tick := b.tick + 1
      state := b.state.withEntry e } : World) = c at hsame
    have hbc : Path host BeforeSubmit b c := by
      refine .single (show BeforeSubmit (.audit action) from hact) ?_
      rw [← hc, ← hentry]
      exact .audit ⟨rfl, Nat.le_succ _, Nat.le_refl _, Nat.le_refl _⟩
        (.next hfull rfl rfl ⟨Nat.le_refl _, Nat.lt_succ_self _⟩) rfl rfl
    have hstate : c.state = b.state.withEntry e := by rw [← hc]
    refine line (wp_mono (wp_and saveTo_spec saveTo_saves) (fun _ _ h => h) ?_)
      ?_
    · rintro _ v ⟨⟨hp, hs⟩, hnot⟩
      refine Or.inr (Or.inr ⟨hprepared, fun h => ?_, ?_, ?_⟩)
      · exact hnot (hsame.mpr (hquiet.mpr h.saves))
      · refine hchanged _ ?_
        rw [hs, hstate]
        exact Nat.le_succ _
      · exact reserved_uncalled hq hb (hbc.trans (hp.mono saving_before))
    · rintro _ v ⟨⟨hp, hs, _⟩, hsaved⟩
      have hv : v.state = b.state.withEntry e := hs.trans hstate
      have hlog : ∃ tail, v.log = w.log ++ tail := by
        have hpath : Path host anyLabel a v :=
          .trans (.single trivial hb) ((hbc.mono fun _ _ => trivial).trans
            (hp.mono fun _ _ => trivial))
        obtain ⟨tail, htail⟩ := Path.grows hpath
        exact ⟨tail, by rw [htail, hq.log]⟩
      have hroomy : Roomy v.state := by
        obtain ⟨_, _, hfree, hbgen⟩ := hb.reserved
        rw [hv]
        refine ⟨Nat.lt_of_le_of_lt
          (nonEmergencyCount_append b.state.audit e) ?_, ?_⟩
        · omega
        · show b.state.generation + 1 + 1 ≤ u64Max
          omega
      have hstored : v.state.intents.get? id = some i := by
        rw [hv]
        exact hx.stored
      have hkeyed : Keyed v.state := by
        rw [hv]
        exact hb.keyed hwork.keyed
      refine wp_mono (submitAndSave_spends (submitThrough_spec hx.keyed hstored
        hx.state hroomy) hkeyed ?_) ?_ ?_
      · rw [Past, hv]
        exact hb.reserved_past
      all_goals
        intro _ u hu
        have hspent : Spends w u id :=
          ⟨hu.1.within hlog ⟨[], (List.append_nil _).symm⟩, hu.2⟩
        have hend : HandedOver host id action prepared w u :=
          ⟨hprepared, ⟨hroom.mp hfull, hquiet.mp (hsame.mp hsaved)⟩, hspent⟩
      · exact hend
      · exact Or.inr (Or.inl hend)
  · refine wp_audit (fun _ => ?_) (fun h => absurd h hfull)
    refine Or.inr (Or.inr ⟨hprepared, fun h => hfull (hroom.mpr h.room),
      hchanged _ (Nat.le_refl _), ?_⟩)
    exact reserved_uncalled hq hb (.refl b)

/-! ## Calls -/

/-- Every check of a controlled checkout passes, and its reservation too. -/
structure ChecksOut (host : Host) (w : World) (id : String)
    (executor : CheckoutExecutor) (actor : Actor) (a : World)
    (agentId : String) (i : PurchaseIntent) : Prop where
  scope : requireAgentScope w.state actor "purchase_intents:execute"
    = .ok agentId
  configured : w.state.manualProvider ≠ none
  enabled : controlledCheckoutEnabled w.state = true
  stored : w.state.intents.get? id = some i
  owned : i.agentId = agentId
  authorized : i.state ∈ [.policyValidated, .approved]
  facts : executor.validateOriginAndTotal i.request = .ok ⟨⟩
  reserves : ∃ b, prepareIntentExecution host (.agent agentId) id a = .ok ⟨⟩ b

/-- Every check of an owner's handoff passes, and its reservation too. -/
structure HandsOff (host : Host) (w : World) (id : String)
    (executor : CheckoutExecutor) (actor : Actor) (a : World)
    (i : PurchaseIntent) : Prop where
  owner : actor = .owner
  manual : w.state.providerMode = .manualPrepaidCard
  stored : w.state.intents.get? id = some i
  approved : i.state = .approved
  facts : executor.validateOriginAndTotal i.request = .ok ⟨⟩
  reserves : ∃ b, prepareIntentExecution host (.agent i.agentId) id a = .ok ⟨⟩ b

/-- A call gets past the reservation of a handoff. -/
def Prepares (host : Host) (w : World) : Call → Prop
  | .controlled token id executor => ∃ actor a agentId i,
      authenticate host token w = .ok actor a
        ∧ ChecksOut host w id executor actor a agentId i
  | .handoff token id executor => ∃ actor a i,
      authenticate host token w = .ok actor a
        ∧ HandsOff host w id executor actor a i
  | _ => False

/-- The action under which a call enters its handoff. -/
def handoffAction : Call → String
  | .handoff .. => "owner_checkout_handoff"
  | _ => "controlled_checkout_handoff"

/-- The authentication of a run is the one authentication there is. -/
theorem authenticate_unique {token : String} {actor actor' : Actor}
    {a a' : World} (h : authenticate host token w = .ok actor a)
    (h' : authenticate host token w = .ok actor' a') :
    actor = actor' ∧ a = a' := by
  rw [h] at h'
  injection h' with h1 h2
  exact ⟨h1, h2⟩

/-- The ends of a call that may hand over. -/
def Ends (host : Host) (c : Call) (id : String) (w : World)
    (x : Op Json) : Prop :=
  wp x (fun _ w' => HandedOver host id (handoffAction c) (Prepares host w c) w w')
    (fun _ w' => (¬Prepares host w c ∧ PutBack w w')
      ∨ HandedOver host id (handoffAction c) (Prepares host w c) w w'
      ∨ LeftOver host (handoffAction c) (Prepares host w c) w w') w

theorem controlled_ends {token : String} {executor : CheckoutExecutor}
    (h : Workable w.state) : Ends host (.controlled token id executor) id w
      (executeControlledCheckoutPersisted host token id executor) := by
  unfold Ends executeControlledCheckoutPersisted
  rw [wp_bind, wp_readState]
  refine line (wp_mono (wp_and ((authenticate_quietly token).run w)
    (wp_and (authenticate_keeps saves_steady token w) (wp_self _)))
    (fun _ _ h => h) ?_) ?_
  · rintro e a ⟨hq, _, hrun⟩
    refine Or.inl ⟨?_, hq.state, hq.uncalled⟩
    rintro ⟨actor, a', _, _, hauth, _⟩
    rw [hrun] at hauth
    exact nomatch hauth
  rintro actor a ⟨hq, hsaves, hauth⟩
  -- a check that fails is one that a call that prepares passes
  have hback : (∀ agentId i, ¬ChecksOut host w id executor actor a agentId i) →
      ¬Prepares host w (.controlled token id executor) ∧ PutBack w a := by
    intro hnone
    refine ⟨?_, hq.state, hq.uncalled⟩
    rintro ⟨actor', a', agentId, i, hauth', hc⟩
    obtain ⟨rfl, rfl⟩ := authenticate_unique hauth hauth'
    exact hnone agentId i hc
  rw [wp_bind, wp_lift]
  refine ⟨fun e he => Or.inl (hback fun _ _ hc => ?_), fun agentId hscope => ?_⟩
  · exact nomatch he.symm.trans hc.scope
  rw [wp_bind, wp_orReject]
  refine ⟨fun hnone => Or.inl (hback fun _ _ hc => hc.configured hnone),
    fun m hm => ?_⟩
  rw [wp_bind, wp_rejectIf]
  refine ⟨fun hoff => Or.inl (hback fun _ _ hc => ?_), fun henabled => ?_⟩
  · exact nomatch hoff.symm.trans hc.enabled
  rw [wp_bind, wp_orReject]
  refine ⟨fun hnone => Or.inl (hback fun _ _ hc => ?_), fun i hi => ?_⟩
  · exact nomatch hnone.symm.trans hc.stored
  -- the intent and the agent of the checks are these
  have hsame : ∀ {agentId' j}, ChecksOut host w id executor actor a agentId' j →
      agentId' = agentId ∧ j = i := fun hc =>
    ⟨Except.ok.inj (hc.scope.symm.trans hscope),
      Option.some.inj (hc.stored.symm.trans hi)⟩
  rw [wp_bind, wp_rejectIf]
  refine ⟨fun hother => Or.inl (hback fun _ _ hc => ?_), fun hown => ?_⟩
  · obtain ⟨rfl, rfl⟩ := hsame hc
    exact hother hc.owned
  rw [wp_bind, wp_rejectIf]
  refine ⟨fun hstate => Or.inl (hback fun _ _ hc => ?_), fun hstate => ?_⟩
  · obtain ⟨rfl, rfl⟩ := hsame hc
    exact hstate hc.authorized
  rw [wp_bind, wp_lift]
  refine ⟨fun e he => Or.inl (hback fun _ _ hc => ?_), fun _ hfacts => ?_⟩
  · obtain ⟨rfl, rfl⟩ := hsame hc
    exact nomatch he.symm.trans hc.facts
  refine handOver_ends h hq hsaves rfl (fun b hb => ?_) (fun e b hb => ?_)
  · exact ⟨actor, a, agentId, i, hauth, hscope, by rw [hm]; exact nofun,
      by simpa using henabled, hi, not_not.mp hown, not_not.mp hstate, hfacts,
      b, hb⟩
  · refine (hback fun _ _ hc => ?_).1
    obtain ⟨rfl, rfl⟩ := hsame hc
    obtain ⟨b', hb'⟩ := hc.reserves
    rw [hb] at hb'
    exact nomatch hb'

theorem handoff_ends {token : String} {executor : CheckoutExecutor}
    (h : Workable w.state) : Ends host (.handoff token id executor) id w
      (ownerExecuteApprovedHandoffPersisted host token id executor) := by
  unfold Ends ownerExecuteApprovedHandoffPersisted
  rw [wp_bind, wp_readState]
  refine line (wp_mono (wp_and ((authenticate_quietly token).run w)
    (wp_and (authenticate_keeps saves_steady token w) (wp_self _)))
    (fun _ _ h => h) ?_) ?_
  · rintro e a ⟨hq, _, hrun⟩
    refine Or.inl ⟨?_, hq.state, hq.uncalled⟩
    rintro ⟨actor, a', _, hauth, _⟩
    rw [hrun] at hauth
    exact nomatch hauth
  rintro actor a ⟨hq, hsaves, hauth⟩
  -- a check that fails leaves all as it was, and no intent passes it
  have hback : (∀ i, ¬HandsOff host w id executor actor a i) →
      ¬Prepares host w (.handoff token id executor) ∧ PutBack w a := by
    intro hnone
    refine ⟨?_, hq.state, hq.uncalled⟩
    rintro ⟨actor', a', i, hauth', hc⟩
    obtain ⟨rfl, rfl⟩ := authenticate_unique hauth hauth'
    exact hnone i hc
  rw [wp_bind, wp_lift]
  refine ⟨fun e he => Or.inl (hback fun _ hc => ?_), fun _ howner => ?_⟩
  · rw [hc.owner] at he
    exact nomatch he
  rw [wp_bind, wp_rejectIf]
  refine ⟨fun hmode => Or.inl (hback fun _ hc => hmode hc.manual),
    fun hmode => ?_⟩
  rw [wp_bind, wp_orReject]
  refine ⟨fun hnone => Or.inl (hback fun _ hc => ?_), fun i hi => ?_⟩
  · exact nomatch hnone.symm.trans hc.stored
  -- the intent that would pass is the one that is stored
  have hsame : ∀ {j}, HandsOff host w id executor actor a j → j = i :=
    fun hc => Option.some.inj (hc.stored.symm.trans hi)
  rw [wp_bind, wp_rejectIf]
  refine ⟨fun hstate => Or.inl (hback fun _ hc => ?_), fun hstate => ?_⟩
  · obtain rfl := hsame hc
    exact hstate hc.approved
  rw [wp_bind, wp_lift]
  refine ⟨fun e he => Or.inl (hback fun _ hc => ?_), fun _ hfacts => ?_⟩
  · obtain rfl := hsame hc
    exact nomatch he.symm.trans hc.facts
  refine handOver_ends h hq hsaves rfl (fun b hb => ?_) (fun e b hb => ?_)
  · exact ⟨actor, a, i, hauth, requireOwner_ok howner, not_not.mp hmode, hi,
      not_not.mp hstate, hfacts, b, hb⟩
  · refine (hback fun _ hc => ?_).1
    obtain rfl := hsame hc
    obtain ⟨b', hb'⟩ := hc.reserves
    rw [hb] at hb'
    exact nomatch hb'

/-! ## Atomicity -/

/-- An attempt that called the provider is past its reservation. -/
theorem Attempt.past {durable : Prop} (h : Attempt host durable id w w')
    (hc : Called w w') : Past w'.state id := by
  cases h with
  | refused hp => exact absurd hc (hp.uncalled saving_unsubmitting)
  | @undone b c hr hp hw =>
      have hnot : ¬Called w c := reserved_uncalled (Quiet.refl w) hr hp
      rw [hw] at hc
      exact absurd hc hnot
  | @finished b c d hr hp hs ha =>
      have hpast : Past c.state id := hp.past (fun _ h => h) hr.reserved_past
      refine ha.past (fun _ h => h) ?_
      rcases hs with rfl | ⟨hsub, _⟩
      · exact hpast
      · rw [hsub.submitted_state]
        exact hpast

/-- **WHO CALLS THE PROVIDER** attempts an intent, and has it past its
    reservation. -/
theorem Behaves.called (h : Behaves host w w' c) (hc : Called w w') :
    ∃ id, c.attempts = some id ∧ Past w'.state id := by
  cases h with
  | attempt hid h => exact ⟨_, hid, h.past hc⟩
  | ordinary _ _ h =>
      cases h with
      | refused hp => exact absurd hc (hp.uncalled saving_unsubmitting)
      | served _ hp =>
          exact absurd hc (hp.uncalled (allowed_unsubmitting _ _))
  | recovery h => exact absurd hc (h.path.uncalled recovering_unsubmitting)

/-- The calls that save what they change. -/
def Persistent : Call → Prop
  | .persisted .. => True
  | .controlled .. => True
  | .handoff .. => True
  | _ => False

/-- The state a refused call leaves: the old one, and after a saved creation
    perhaps the entry of its refusal. -/
def Unchanged (c : Call) (s s' : TreasuryState) : Prop :=
  s' = s ∨ ((∃ token request, c = .persisted token
      (.createPurchaseIntent request))
    ∧ ∃ e, e.action = "transaction_rate_limited" ∧ s' = s.withEntry e)

/-- **ATOMIC**: a call that fails before the provider is called changes
    nothing, and the intent for which the provider is called is past its
    reservation. -/
structure Atomic (host : Host) (c : Call) (w : World) : Prop where
  unspent : ∀ e, result (c.perform host) w = .error e →
    ¬Called w (exec host c w) → Unchanged c w.state (exec host c w).state
  spent : Called w (exec host c w) →
    ∃ id, c.attempts = some id ∧ Past (exec host c w).state id

/-- A saved request that fails without calling the provider changes
    nothing. -/
theorem persisted_unchanged {token : String} {request : Request}
    (h : Workable w.state) : wp (handlePersisted host token request)
      (fun _ _ => True) (fun _ w' => ¬Called w w' →
        Unchanged (.persisted token request) w.state w'.state) w := by
  cases request with
  | ownerCreateAgent name p mode ttl => exact (wp_throw _).mpr fun _ => Or.inl rfl
  | executePurchaseIntent id =>
      refine wp_mono (executePersisted_spends h) (fun _ _ _ => trivial) ?_
      rintro e v (hback | hspends) hnot
      · exact Or.inl hback.1
      · exact absurd hspends.1 hnot
  | createPurchaseIntent request =>
      refine wp_mono handleSaved_create (fun _ _ h => h) (fun _ v hv _ => ?_)
      rcases hv with heq | hentry
      · exact Or.inl heq
      · exact Or.inr ⟨⟨_, _, rfl⟩, hentry⟩
  | _ =>
      exact wp_mono (handleSaved_restores h (fun _ => nofun) (fun _ => nofun))
        (fun _ _ h => h) (fun _ _ hv _ => Or.inl hv)

/-- A handoff is atomic exactly if what it prepares it can record. -/
theorem Ends.atomic {x : Op Json} (h : Ends host c id w x)
    (hx : c.perform host = x) (hw : Workable w.state)
    (hnew : ∀ token request, c ≠ .persisted token request) :
    Atomic host c w
      ↔ (Prepares host w c → Recordable host (handoffAction c) w) := by
  obtain ⟨hok, herr⟩ := wp_iff.mp (hx ▸ h)
  constructor
  · rintro ⟨hunspent, -⟩ hprepares
    cases hr : result (c.perform host) w with
    | ok value => exact (hok value hr).recorded
    | error e =>
        rcases herr e hr with ⟨hno, _⟩ | hdone | hleft
        · exact absurd hprepares hno
        · exact hdone.recorded
        · rcases hunspent e hr hleft.uncalled with heq | ⟨⟨t, r, hc⟩, _⟩
          · exact absurd heq hleft.changed
          · exact absurd hc (hnew _ _)
  · intro hcond
    refine ⟨fun e hr hnot => ?_, (exec_behaves hw c).called⟩
    rcases herr e hr with ⟨_, hback⟩ | hdone | hleft
    · exact Or.inl hback.1
    · exact absurd hdone.spends.1 hnot
    · exact absurd (hcond hleft.prepared) hleft.unrecorded

/-- **FAILED CALLS ARE ATOMIC** exactly when every handoff that gets past its
    reservation finds room for its entry and can be saved. -/
theorem failed_calls_are_atomic (hw : Workable w.state) (hc : Persistent c) :
    Atomic host c w
      ↔ (Prepares host w c → Recordable host (handoffAction c) w) := by
  cases c with
  | request token request => exact hc.elim
  | recover => exact hc.elim
  | controlled token id executor =>
      exact (controlled_ends hw).atomic rfl hw fun _ _ => nofun
  | handoff token id executor =>
      exact (handoff_ends hw).atomic rfl hw fun _ _ => nofun
  | persisted token request =>
      obtain ⟨_, herr⟩ := wp_iff.mp (persisted_unchanged hw)
      exact ⟨fun _ h => h.elim, fun _ => ⟨herr, (exec_behaves hw _).called⟩⟩

/-- A controlled checkout of the first intent. -/
def firstCheckout (fault : Nat → Option SaveFault) : Call :=
  .controlled agentToken (firstIntent (cardHost fault)) approvingExecutor

/-- Nothing in the log was submitted. -/
theorem uncalled_of_log (h : w'.log.any (fun e => match e with
    | .submitted _ => true
    | _ => false) = false) : ¬Called w w' := by
  rintro ⟨tail, id, htail, hmem⟩
  have hlog : Event.submitted id ∈ w'.log := by
    rw [htail]
    exact List.mem_append_right _ hmem
  exact absurd (List.any_eq_false.mp h _ hlog) nofun

/-- With a disk that never fails a controlled checkout is atomic: it can
    save what it prepares. -/
theorem failed_calls_are_atomic_saved :
    ∃ owner w0 w, TreasuryRun (cardHost fun _ => none) owner w0
        (cardOpening smallPurchase owner) w
      ∧ Atomic (cardHost fun _ => none) (firstCheckout fun _ => none) w := by
  have h : tryRun (cardHost fun _ => none) ⟨100000, "CAD"⟩
      (cardOpening smallPurchase)
      (fun w => decide ((diskOf w.log).key = none)
        && ((validateState (cardHost fun _ => none) w.state).isOk
        && ((verifyAuditChain (cardHost fun _ => none) w.auditKey w.state).isOk
        && auditCapacityAllows (nonEmergencyCount w.state.audit + 1)
          (emergencyCount w.state.audit) "controlled_checkout_handoff")))
      = true := by decide +kernel
  obtain ⟨owner, w0, w, hrun, hcheck⟩ := tryRun_run h
  rw [Bool.and_eq_true, Bool.and_eq_true, Bool.and_eq_true] at hcheck
  obtain ⟨hkey, hvalid, hchain, hroom⟩ := hcheck
  have hok : ∀ {x : Except TreasuryError Unit}, x.isOk = true → x = .ok ⟨⟩ := by
    intro x hx
    cases x with
    | ok u => rfl
    | error e => exact nomatch hx
  have hfits : KeyFits w := fun key hk => by
    rw [of_decide_eq_true hkey] at hk
    exact nomatch hk
  refine ⟨owner, w0, w, hrun, ?_⟩
  have hc : Persistent (firstCheckout fun _ => none) := trivial
  exact (failed_calls_are_atomic (hrun.kept.1.workable hrun.kept.2) hc).mpr
    fun _ => ⟨hroom, rfl, hfits, hok hvalid, hok hchain⟩

/-- A disk that is full at the first save. -/
def fullDisk (n : Nat) : Option SaveFault :=
  if n = 0 then some ⟨.beforeKey, "disk full"⟩ else none

/-- Whether a result is an error of the disk. -/
def isIoError : Except TreasuryError Json → Bool
  | .error (.io _) => true
  | _ => false

/-- A controlled checkout whose save fails leaves the intent executing,
    though the executor was never asked. -/
theorem failed_calls_are_atomic_unsaved :
    ∃ owner w0 w message i i', TreasuryRun (cardHost fullDisk) owner w0
        (cardOpening smallPurchase owner) w
      ∧ w.state.intents.get? (firstIntent (cardHost fullDisk)) = some i
      ∧ i.state = .policyValidated
      ∧ result ((firstCheckout fullDisk).perform (cardHost fullDisk)) w
        = .error (.io message)
      ∧ ¬Called w (exec (cardHost fullDisk) (firstCheckout fullDisk) w)
      ∧ (exec (cardHost fullDisk) (firstCheckout fullDisk) w).state.intents.get?
        (firstIntent (cardHost fullDisk)) = some i'
      ∧ i'.state = .executing
      ∧ ¬Atomic (cardHost fullDisk) (firstCheckout fullDisk) w := by
  have h : tryRun (cardHost fullDisk) ⟨100000, "CAD"⟩
      (cardOpening smallPurchase)
      (fun w => decide ((w.state.intents.get? (firstIntent
          (cardHost fullDisk))).map PurchaseIntent.state = some .policyValidated)
        && (isIoError (result ((firstCheckout fullDisk).perform
          (cardHost fullDisk)) w)
        && (decide (((exec (cardHost fullDisk) (firstCheckout fullDisk)
            w).state.intents.get? (firstIntent (cardHost fullDisk))).map
            PurchaseIntent.state = some .executing)
        && !(exec (cardHost fullDisk) (firstCheckout fullDisk) w).log.any
          (fun e => match e with
            | .submitted _ => true
            | _ => false)))) = true := by decide +kernel
  obtain ⟨owner, w0, w, hrun, hcheck⟩ := tryRun_run h
  rw [Bool.and_eq_true, Bool.and_eq_true, Bool.and_eq_true] at hcheck
  obtain ⟨hbefore, hfailed, hafter, hlog⟩ := hcheck
  obtain ⟨i, hi, hx⟩ := Option.map_eq_some_iff.mp (of_decide_eq_true hbefore)
  obtain ⟨i', hi', hx'⟩ := Option.map_eq_some_iff.mp (of_decide_eq_true hafter)
  have hnot := uncalled_of_log (w := w) (by simpa using hlog)
  obtain ⟨message, herr⟩ : ∃ message, result ((firstCheckout fullDisk).perform
      (cardHost fullDisk)) w = .error (.io message) := by
    generalize result ((firstCheckout fullDisk).perform (cardHost fullDisk)) w
      = x at hfailed
    match x, hfailed with
    | .error (.io message), _ => exact ⟨message, rfl⟩
  refine ⟨owner, w0, w, message, i, i', hrun, hi, hx, herr, hnot, hi', hx', ?_⟩
  intro hatomic
  rcases hatomic.unspent _ herr hnot with heq | ⟨⟨_, _, hc⟩, _⟩
  · rw [heq, hi] at hi'
    rw [← Option.some.inj hi', hx] at hx'
    exact nomatch hx'
  · exact nomatch hc

end Treasury
