import Cixa.Decisions
import Cixa.Entries
import Cixa.Lives

/-! # Approvals — an intent is approved only by the owner

    Of all the steps of an intent's life only one leads to APPROVED, only one
    request permits it, and only to the owner.  So along a run every approved
    intent has an approval behind it: a call, with a token that was the
    owner's when it was made, that asked for exactly this intent. -/

namespace Treasury

open CixaData CixaHost Outcome Transition

variable {host : Host} {w w' w0 : World} {c : Call} {cs : List Call}
  {id : String}

/-- A call by which the owner approves an intent. -/
def Approves (host : Host) (id : String) (c : Call) (w : World) : Prop :=
  ∃ token, c.asks = some (token, .ownerApproveIntent id)
    ∧ AuthenticatesAs host w token .owner

/-- **THE OWNER APPROVED** an intent in a run: one of its calls did. -/
def OwnerApproved (host : Host) (w0 : World) (cs : List Call) (id : String) :
    Prop :=
  ∃ before c after v, cs = before ++ c :: after ∧ Calls host w0 before v
    ∧ Approves host id c v

theorem OwnerApproved.mono {ds : List Call}
    (h : OwnerApproved host w0 cs id) : OwnerApproved host w0 (cs ++ ds) id := by
  obtain ⟨before, c, after, v, rfl, hbefore, hc⟩ := h
  refine ⟨before, c, after ++ ds, v, ?_, hbefore, hc⟩
  rw [List.append_assoc]
  rfl

theorem OwnerApproved.last (h : Calls host w0 cs w)
    (hc : Approves host id c w) : OwnerApproved host w0 (cs ++ [c]) id :=
  ⟨cs, c, [], w, rfl, h, hc⟩

/-- An intent is stored as approved. -/
def StoredApproved (w : World) (id : String) : Prop :=
  ∃ i, w.state.intents.get? id = some i ∧ i.state = .approved

/-- What is stored as approved after a change was, or the change approved
    it. -/
theorem Change.approved {l : Label} (h : Change host l w w')
    (ha : StoredApproved w' id) :
    StoredApproved w id ∨ l = .move id .approved := by
  obtain ⟨i', hi', hx⟩ := ha
  cases h.origin hi' with
  | kept hi => exact Or.inl ⟨i', hi, hx⟩
  | new _ _ hn =>
      have hdecided := hn.state.symm.trans hx
      unfold stateOfDecision at hdecided
      split at hdecided
      · exact nomatch hdecided
      · split at hdecided
        · exact nomatch hdecided
        · exact nomatch hdecided
  | next _ hid _ hm =>
      rw [← hid]
      exact Or.inr (hm.approves hx).1

/-- A path on which nothing is approved. -/
theorem Path.approved {allowed : Label → Prop} (h : Path host allowed w w')
    (hno : ¬allowed (.move id .approved)) (ha : StoredApproved w' id) :
    StoredApproved w id := by
  refine h.rel (R := fun a b : World => StoredApproved b id →
    StoredApproved a id) ?_ ?_ ?_ ?_ ha
  · exact fun _ h => h
  · exact fun _ _ _ hab hbc h => hab (hbc h)
  · intro l a b hl hc hb
    rcases hc.approved hb with h | rfl
    · exact h
    · exact absurd hl hno
  · exact fun _ _ _ h => h

/-- Only the request to approve an intent approves it. -/
theorem permits_approve {actor : Actor} {request : Request}
    (h : permits actor request (.move id .approved)) :
    actor = .owner ∧ request = .ownerApproveIntent id := by
  cases request with
  | ownerApproveIntent id' =>
      obtain ⟨howner, rfl, _⟩ := h
      exact ⟨howner, rfl⟩
  | cancelPurchaseIntent => exact nomatch h.2
  | ownerDenyIntent => exact nomatch h.2.2
  | ownerCompleteManualHandoff => exact nomatch h.2.2
  | _ => exact h.elim

/-- **WHO APPROVES**: what a call leaves approved was approved before, or the
    call is the owner's approval of it. -/
theorem Behaves.approved (h : Behaves host w w' c) (ha : StoredApproved w' id) :
    StoredApproved w id ∨ Approves host id c w := by
  cases h with
  | attempt _ hatt =>
      refine Or.inl (hatt.path.approved ?_ ha)
      rintro (h | h)
      · exact h
      · exact nomatch h.2
  | recovery hr =>
      exact Or.inl (hr.path.approved (fun h => nomatch h) ha)
  | @ordinary _ token request hasks _ ho =>
      cases ho with
      | refused hp => exact Or.inl (hp.approved (fun h => h) ha)
      | @served actor hauth hp =>
          by_cases happroves : Approves host id c w
          · exact Or.inr happroves
          · refine Or.inl (hp.approved ?_ ha)
            rintro (hl | hl)
            · obtain ⟨rfl, rfl⟩ := permits_approve hl
              exact happroves ⟨token, hasks, hauth⟩
            · exact hl

/-- Along a run every approved intent was approved by the owner. -/
theorem TreasuryRun.approved {owner : String}
    (h : TreasuryRun host owner w0 cs w) (ha : StoredApproved w id) :
    OwnerApproved host w0 cs id := by
  obtain ⟨balance, hs⟩ := h.balance
  have hcalls := h.calls
  clear h
  induction hcalls with
  | nil =>
      obtain ⟨i, hi, _⟩ := ha
      obtain ⟨_, _, _, _, _, _, _, _, hstate⟩ := hs.state
      rw [hstate] at hi
      exact nomatch hi
  | snoc c hrun hfit ih =>
      obtain ⟨hk, hf⟩ := Calls.kept hrun hs.kept hs.fits
      have hb : Behaves host _ _ c := exec_behaves (hk.workable hf) c
      -- approved before this call, or by it
      rcases hb.approved ha with hbefore | hc
      · exact (ih hbefore).mono
      · exact .last hrun hc

/-! ## Executions within the policy -/

/-- What is needed for a decision at an execution: nothing, or the owner's
    approval of the intent. -/
def Sanctioned (host : Host) (w0 : World) (cs : List Call) (id : String)
    (d : PolicyDecision) : Prop :=
  (d.allowed = true ∧ d.requiresApproval = false ∧ d.reasons = [])
    ∨ (d.allowed = false ∧ d.requiresApproval = true
      ∧ d.reasons = ["owner approval is required"]
      ∧ OwnerApproved host w0 cs id)

/-- An intent that can be submitted is sanctioned, if its approval has the
    owner behind it. -/
theorem submittable_sanctioned {s : TreasuryState} {r : AgentRecord}
    {p : Policy} {used : BudgetUsage} {i : PurchaseIntent} {d : PolicyDecision}
    (hd : Decided host s r p i.request used d) (hsub : submittable i d = true)
    (happroved : i.state = .approved → OwnerApproved host w0 cs id) :
    Sanctioned host w0 cs id d := by
  have hu := submittable_undenied hsub
  obtain ⟨_, merchant, _, heval⟩ := hd.2.2 hu
  rcases evaluate_says heval hu with hgo | ⟨hno, hask, hreasons⟩
  · exact Or.inl hgo
  · -- the decision asks for the owner, so the intent must be approved
    have hstate : i.state = .approved := by
      unfold submittable at hsub
      rw [hno, hask, Bool.false_or, Bool.and_true] at hsub
      exact of_decide_eq_true hsub
    exact Or.inr ⟨hno, hask, hreasons, happroved hstate⟩

/-- **NOTHING IS EXECUTED OUTSIDE THE POLICY**, or without the owner where
    the owner is needed.  Whatever call of whatever run enters an intent into
    execution: the decision of the policy and of the authority, taken in that
    call under the policy, mode, usage, merchants and emergency flag then in
    force, gives no denial; if it asks for the owner, the owner approved
    exactly this intent earlier in the run; and so did the owner if manual
    checkout was on without the controlled executor. -/
theorem executed_within_policy {owner : String}
    (h : TreasuryRun host owner w0 cs w) (he : Enters w (exec host c w) id) :
    ∃ i r p d w1 w2, w.state.intents.get? id = some i
      ∧ w.state.agents.get? i.agentId = some r
      ∧ w.state.policies.get? r.policyId = some p
      ∧ Quiet w w1 ∧ w2.tick ≤ (exec host c w).tick
      ∧ decideExecution host w.state i.agentId r p i w1 = .ok d w2
      ∧ Sanctioned host w0 cs id d
      ∧ (w.state.providerMode = .manualPrepaidCard →
        controlledCheckoutEnabled w.state = false →
        OwnerApproved host w0 cs id) := by
  obtain ⟨hk, hf⟩ := h.kept
  obtain ⟨i, r, p, b, hi, hid, _, hr, hent, htick⟩ :=
    he.rightful (hk.workable hf)
  have happroved : i.state = .approved → OwnerApproved host w0 cs id :=
    fun hx => h.approved ⟨i, hi, hx⟩
  obtain ⟨d, w1, w2, hquiet, hend, hrun, hsub⟩ := hr.decided
  obtain ⟨zero, used, t, _, _, _, hd⟩ :=
    wp_ok (decideExecution_spec i.agentId i w1) hrun
  refine ⟨i, r, p, d, w1, w2, hi, hr.agent, hr.policy, hquiet,
    Nat.le_trans hend htick, hrun, submittable_sanctioned hd hsub happroved,
    fun hmanual hoff => ?_⟩
  cases hent with
  | agent _ _ hm => exact nomatch hmanual.symm.trans hm
  | begun _ _ _ hx => exact happroved hx
  | controlled _ hon => exact nomatch hoff.symm.trans hon
  | handoff _ _ hx => exact happroved hx

/-- The owner approves an intent of a card without autonomous checkout and
    begins its handoff. -/
theorem executed_within_policy_begun :
    ∃ owner w0 w, TreasuryRun soundHost owner w0 (approvedOpening owner) w
      ∧ OwnerApproved soundHost w0 (approvedOpening owner)
        (firstIntent soundHost) := by
  have h : tryRun soundHost ⟨100000, "CAD"⟩ approvedOpening
      (fun w => ((exec soundHost beginFirst w).log.drop w.log.length).any
          (isEntry (firstIntent soundHost))
        && decide (w.state.providerMode = .manualPrepaidCard
          ∧ controlledCheckoutEnabled w.state = false)) = true := by
    decide +kernel
  obtain ⟨owner, w0, w, hrun, hcheck⟩ := tryRun_run h
  obtain ⟨hlog, hmode⟩ := Bool.and_eq_true_iff.mp hcheck
  obtain ⟨hmanual, hoff⟩ := of_decide_eq_true hmode
  obtain ⟨hk, hf⟩ := hrun.kept
  obtain ⟨_, _, _, _, _, _, _, _, _, _, _, _, _, howner⟩ :=
    executed_within_policy hrun (enters_of_log (hk.workable hf) hlog)
  exact ⟨owner, w0, w, hrun, howner hmanual hoff⟩

end Treasury
