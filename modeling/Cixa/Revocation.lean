import Cixa.Atomic
import Cixa.Decisions
import Cixa.Sessions

/-! # Revocation — what a revoked agent can still spend

    Revoking an agent disables it, and a disabled agent's intents are denied
    when they are executed.  Nothing else is looked at, so revocation holds
    exactly as long as nobody sets the MODE back: rotating the capability
    does, and so does the owner's request to set a mode, which never asks
    whether the agent is revoked.

    A rotation that fails may leave the agent armed when it was not saved;
    then the log is full, no intent can be added, and those there are name
    an old session. -/

namespace Treasury

open CixaData CixaHost Outcome Transition

variable {host : Host} {w w' : World} {l : Label} {c : Call} {id agent : String}

/-! ## Barred agents -/

/-- The agent is disabled or only observes. -/
def Disarmed (s : TreasuryState) (agent : String) : Prop :=
  ∃ r, s.agents.get? agent = some r ∧ (r.mode = .disabled ∨ r.mode = .observe)

/-- No ordinary entry finds room. -/
def LogFull (s : TreasuryState) : Prop :=
  maxAuditEntries - auditSafetyReserve ≤ nonEmergencyCount s.audit

/-- The log is full, and the agent has a session that none of its intents
    has. -/
structure Stranded (s : TreasuryState) (agent : String) : Prop where
  full : LogFull s
  apart : ∃ r, s.agents.get? agent = some r
    ∧ ∀ id i, s.intents.get? id = some i → i.agentId = agent →
      i.brokerSessionId ≠ r.brokerSessionId

/-- **A BARRED AGENT** cannot execute anything. -/
def Barred (s : TreasuryState) (agent : String) : Prop :=
  Disarmed s agent ∨ Stranded s agent

/-- An intent of a barred agent is not reservable. -/
theorem Barred.unreservable {i : PurchaseIntent} {r : AgentRecord} {p : Policy}
    (h : Barred w.state agent) (hi : w.state.intents.get? id = some i)
    (hagent : i.agentId = agent) : ¬Reservable host w w' i r p := by
  intro hr
  have hstored := hr.agent
  rw [hagent] at hstored
  rcases h with ⟨r', hr', hmode⟩ | ⟨_, r', hr', hapart⟩
  · obtain rfl : r = r' := Option.some.inj (hstored.symm.trans hr')
    obtain ⟨_, _, _, _, _, _, hpassed⟩ := hr.passed
    rcases hmode with hmode | hmode
    · exact hpassed.armed.2 hmode
    · exact hpassed.armed.1 hmode
  · obtain rfl : r = r' := Option.some.inj (hstored.symm.trans hr')
    exact hapart id i hi hagent hr.session

/-! ## A full log stays full -/

theorem nonEmergencyCount_le (audit : List AuditEntry) (e : AuditEntry) :
    nonEmergencyCount audit ≤ nonEmergencyCount (audit ++ [e]) := by
  have hone : emergencyCount (audit ++ [e]) ≤ emergencyCount audit + 1 := by
    unfold emergencyCount
    rw [List.countP_append]
    exact Nat.add_le_add_left List.countP_le_length _
  unfold nonEmergencyCount
  rw [List.length_append, List.length_singleton]
  omega

/-- An entry of an ordinary action finds no room in a full log only. -/
theorem logFull_of_noRoom {s : TreasuryState} {action : String}
    (hgen : s.generation + 1 ≤ u64Max) (hcalm : isEmergencyAudit action = false)
    (hordinary : isMoneySafetyAudit action = false)
    (hno : ¬hasRoom s action) : LogFull s := by
  unfold LogFull
  by_contra hroom
  refine hno ⟨?_, hgen⟩
  obtain ⟨hon, hoff⟩ := not_or.mp (of_decide_eq_false hcalm)
  unfold auditCapacityAllows auditLimit
  rw [if_neg hon, if_neg hoff, if_neg (by rw [hordinary]; exact nofun)]
  exact decide_eq_true (Nat.not_le.mp hroom)

theorem Change.logFull (h : Change host l w w') (hw : LogFull w.state) :
    LogFull w'.state := by
  unfold LogFull at hw ⊢
  rcases h.entries with ⟨ha, _⟩ | ⟨_, e, _, _, _, ha, _⟩
  · rw [ha]
    exact hw
  · rw [ha]
    exact Nat.le_trans hw (nonEmergencyCount_le _ e)

/-- Nobody creates an intent when the log is full. -/
theorem Change.unadded (h : Change host (.addIntent id) w w')
    (hw : LogFull w.state) : False := by
  generalize hl : Label.addIntent id = l at h
  cases h with
  | addIntent _ _ he _ _ =>
      have hcap := he.room.1
      unfold LogFull at hw
      unfold auditCapacityAllows auditLimit at hcap
      rw [if_neg (by decide), if_neg (by decide), if_neg (by decide)] at hcap
      exact absurd (of_decide_eq_true hcap) (Nat.not_lt.mpr hw)
  | _ => exact nomatch hl

/-! ## Every change keeps an agent stranded -/

/-- What a change makes of a stored agent, given fresh draws: nothing, or
    what an edit makes of it. -/
theorem Change.agentAt (h : Change host l w w') (hw : AllDrawn host w)
    (hfresh : FreshBelow host w'.drawn) {r : AgentRecord}
    (hr : w.state.agents.get? agent = some r) :
    ∃ r', w'.state.agents.get? agent = some r'
      ∧ (r' = r ∨ ∃ edit, l = .editAgent agent edit
        ∧ Edited host w w' r edit r') := by
  rcases h.agents with heq | ⟨id', _, _, r', _, hid, hn, heq⟩
    | ⟨id', edit, r0, r', hl, hr0, he, heq⟩
  · exact ⟨r, heq ▸ hr, Or.inl rfl⟩
  · refine ⟨r, ?_, Or.inl rfl⟩
    have hne : agent ≠ id' := by
      rintro rfl
      rw [← hid, hn.unstored hw hfresh] at hr
      exact nomatch hr
    rw [heq, SortedMap.get?_insert_of_ne _ _ hne]
    exact hr
  · by_cases hsame : agent = id'
    · subst hsame
      obtain rfl : r0 = r := Option.some.inj (hr0.symm.trans hr)
      exact ⟨r', by rw [heq, SortedMap.get?_insert_self], Or.inr ⟨_, hl, he⟩⟩
    · exact ⟨r, by rw [heq, SortedMap.get?_insert_of_ne _ _ hsame]; exact hr,
        Or.inl rfl⟩

/-- **STRANDED AGENTS STAY STRANDED**, whatever is done to them. -/
theorem Change.stranded (h : Change host l w w') (hd : AllDrawn host w)
    (hfresh : FreshBelow host w'.drawn) (hw : Stranded w.state agent) :
    Stranded w'.state agent := by
  obtain ⟨hfull, r, hr, hapart⟩ := hw
  obtain ⟨r', hr', hedit⟩ := h.agentAt hd hfresh hr
  refine ⟨h.logFull hfull, r', hr', fun id i hi hagent => ?_⟩
  -- the intent was there before, with the same session
  have hbefore : ∃ id0 i0, w.state.intents.get? id0 = some i0
      ∧ i0.agentId = agent ∧ i0.brokerSessionId = i.brokerSessionId := by
    cases h.intents with
    | none hs _ => exact ⟨id, i, hs ▸ hi, hagent, rfl⟩
    | new hl _ _ _ => exact (Change.unadded (hl ▸ h) hfull).elim
    | next hi0 hc _ hs _ =>
        rw [hs, SortedMap.get?_insert] at hi
        split at hi
        · obtain rfl := Option.some.inj hi
          exact ⟨_, _, hi0, hc.agentId ▸ hagent, hc.brokerSessionId.symm⟩
        · exact ⟨id, i, hi, hagent, rfl⟩
  obtain ⟨id0, i0, hi0, hagent0, hses0⟩ := hbefore
  rw [← hses0]
  rcases hedit with rfl | ⟨_, _, he⟩
  · exact hapart id0 i0 hi0 hagent0
  · rcases he.session with hkeep | hnew
    · rw [hkeep]
      exact hapart id0 i0 hi0 hagent0
    · exact hnew.ne_before hfresh (hd.intents id0 i0 hi0)

/-- An edit that sets no mode but a disarmed one. -/
def Harmless (host : Host) (edit : AgentEdit) : Prop :=
  ∀ r r' a b, Edited host a b r edit r' →
    (r.mode = .disabled ∨ r.mode = .observe) →
    (r'.mode = .disabled ∨ r'.mode = .observe)

/-- The labels that leave a disarmed agent disarmed. -/
def Disarming (host : Host) (agent : String) (l : Label) : Prop :=
  ∀ edit, l = .editAgent agent edit → Harmless host edit

/-- **BARRED AGENTS STAY BARRED** under every change that arms nobody. -/
theorem Change.barred (h : Change host l w w') (hl : Disarming host agent l)
    (hd : AllDrawn host w) (hfresh : FreshBelow host w'.drawn)
    (hw : Barred w.state agent) : Barred w'.state agent := by
  rcases hw with ⟨r, hr, hmode⟩ | hstranded
  · obtain ⟨r', hr', hedit⟩ := h.agentAt hd hfresh hr
    refine Or.inl ⟨r', hr', ?_⟩
    rcases hedit with rfl | ⟨edit, hlabel, he⟩
    · exact hmode
    · exact hl edit hlabel r r' w w' he hmode
  · exact Or.inr (h.stranded hd hfresh hstranded)

theorem Path.barred {allowed : Label → Prop} (h : Path host allowed w w')
    (hl : ∀ l, allowed l → Disarming host agent l) (hd : AllDrawn host w)
    (hfresh : FreshBelow host w'.drawn) (hw : Barred w.state agent) :
    Barred w'.state agent := by
  refine (h.invariant (I := fun v => AllDrawn host v
    ∧ (v.drawn ≤ w'.drawn → Barred v.state agent)) ?_ ?_
    ⟨hd, fun _ => hw⟩).2 (Nat.le_refl _)
  · rintro l a b hlabel hc ⟨ha, hbarred⟩
    refine ⟨hc.allDrawn ha, fun hle => ?_⟩
    have hdrawn := hc.advance.drawn
    exact hc.barred (hl l hlabel) ha (hfresh.mono hle) (hbarred (by omega))
  · rintro a b hp ⟨ha, hbarred⟩ _
    have hadv := hp.advance
    exact ⟨ha.restore hadv, fun hle => hbarred (Nat.le_trans hadv.drawn hle)⟩

/-! ## Calls -/

/-- A call that rotates the agent's capability. -/
def Rotates (agent : String) (c : Call) : Prop :=
  ∃ token ttlSecs fresh, c.asks
    = some (token, .ownerRotateAgentCapability agent ttlSecs fresh)

/-- A call by which the owner sets the agent to a mode that may spend. -/
def Rearms (host : Host) (agent : String) (c : Call) (w : World) : Prop :=
  ∃ token mode, c.asks = some (token, .ownerSetAgentMode agent mode)
    ∧ AuthenticatesAs host w token .owner
    ∧ (mode = .approvalRequired ∨ mode = .boundedAutonomous)

/-- A call that returns a value. -/
def Succeeds (host : Host) (c : Call) (w : World) : Prop :=
  ∃ value, result (c.perform host) w = .ok value

instance (c : Call) (w : World) : Decidable (Succeeds host c w) :=
  match h : result (c.perform host) w with
  | .ok value => .isTrue ⟨value, h⟩
  | .error _ => .isFalse fun ⟨_, hok⟩ => nomatch h.symm.trans hok

/-- **WHAT SUCCESS LEAVES**: a call that returns, saved or not, leaves what
    its request leaves. -/
theorem Succeeds.leaves {token : String} {request : Request}
    {P : TreasuryState → Prop} (hok : Succeeds host c w)
    (hc : c.asks = some (token, request)) (hx : executes request = none)
    (hspec : wp (handle host token request) (fun _ v => P v.state)
      (fun _ _ => True) w) : P (exec host c w).state := by
  obtain ⟨value, hok⟩ := hok
  cases c with
  | request token' request' =>
      cases hc
      exact (wp_iff.mp hspec).1 value hok
  | persisted token' request' =>
      cases hc
      cases request with
      | executePurchaseIntent id => exact nomatch hx
      | ownerCreateAgent name p mode ttl => exact nomatch hok
      | _ => exact (wp_iff.mp (handleSaved_returns hspec)).1 value hok
  | _ => exact nomatch hc

/-- The edits a request makes of an agent. -/
theorem permits_edit {actor : Actor} {request : Request} {edit : AgentEdit}
    (h : permits actor request (.editAgent agent edit)) :
    (∃ ttlSecs fresh, request
        = .ownerRotateAgentCapability agent ttlSecs fresh
      ∧ edit = .rotate fresh)
      ∨ (∃ mode, actor = .owner ∧ request = .ownerSetAgentMode agent mode
        ∧ edit = .mode mode)
      ∨ edit = .revoke ∨ edit = .arm ∨ edit = .stop
      ∨ ∃ merchant, edit = .approveMerchant merchant := by
  cases request with
  | ownerRotateAgentCapability id ttlSecs fresh =>
      obtain ⟨_, rfl, hedit⟩ := h
      exact Or.inl ⟨ttlSecs, fresh, rfl, hedit⟩
  | ownerSetAgentMode id mode =>
      obtain ⟨howner, rfl, hedit⟩ := h
      exact Or.inr (Or.inl ⟨mode, howner, rfl, hedit⟩)
  | ownerRevokeAgent => exact Or.inr (Or.inr (Or.inl h.2.2))
  | ownerArmAgentSession => exact Or.inr (Or.inr (Or.inr (Or.inl h.2.2)))
  | ownerSetEmergencyStop =>
      exact Or.inr (Or.inr (Or.inr (Or.inr (Or.inl h.2.2))))
  | ownerApproveMerchant =>
      exact Or.inr (Or.inr (Or.inr (Or.inr (Or.inr h.2.2))))
  | _ => exact h.elim

/-- Of the edits a request makes only two can arm the agent. -/
theorem permits_harmless {actor : Actor} {request : Request} {edit : AgentEdit}
    (h : permits actor request (.editAgent agent edit))
    (hrotate : ∀ ttlSecs fresh,
      request ≠ .ownerRotateAgentCapability agent ttlSecs fresh)
    (hset : ∀ mode, request = .ownerSetAgentMode agent mode → actor = .owner →
      mode = .disabled ∨ mode = .observe) : Harmless host edit := by
  intro r r' a b he hmode
  rcases permits_edit h with ⟨ttlSecs, fresh, hreq, _⟩
    | ⟨mode, howner, hreq, rfl⟩ | rfl | rfl | rfl | ⟨merchant, rfl⟩
  · exact absurd hreq (hrotate ttlSecs fresh)
  · cases he with
    | mode => exact hset mode hreq howner
  · cases he with
    | revoke => exact Or.inl rfl
  · cases he with
    | arm => exact hmode
  · cases he with
    | stop => exact hmode
  · cases he with
    | approveMerchant => exact hmode

theorem Behaves.barred (h : Behaves host w w' c) (hno : ¬Rotates agent c)
    (hset : ¬Rearms host agent c w) (hd : AllDrawn host w)
    (hfresh : FreshBelow host w'.drawn) (hw : Barred w.state agent) :
    Barred w'.state agent := by
  cases h with
  | attempt _ ha =>
      refine ha.path.barred ?_ hd hfresh hw
      rintro _ hl edit rfl
      exact (hl : False ∨ False).elim False.elim False.elim
  | recovery hr =>
      refine hr.path.barred ?_ hd hfresh hw
      rintro _ hl edit rfl
      exact hl.elim
  | @ordinary _ token request hasks _ ho =>
      cases ho with
      | refused hp =>
          refine hp.barred ?_ hd hfresh hw
          rintro _ hl edit rfl
          exact hl.elim
      | @served actor hauth hp =>
          refine hp.barred ?_ hd hfresh hw
          rintro _ (hl | hl) edit rfl
          · refine permits_harmless hl ?_ ?_
            · rintro ttlSecs fresh rfl
              exact hno ⟨_, _, _, hasks⟩
            · rintro mode heq rfl
              rw [heq] at hasks
              cases mode with
              | disabled => exact Or.inl rfl
              | observe => exact Or.inr rfl
              | approvalRequired =>
                  exact absurd ⟨_, _, hasks, hauth, Or.inl rfl⟩ hset
              | boundedAutonomous =>
                  exact absurd ⟨_, _, hasks, hauth, Or.inr rfl⟩ hset
          · exact hl.elim

/-! ## Rotations that fail -/

/-- What a rotation leaves that failed after it stored the agent. -/
def HalfRotated (host : Host) (w w' : World) (agent : String) : Prop :=
  ∃ r session, SessionIn host w w' session ∧ r.brokerSessionId = session
    ∧ w'.state = w.state.withAgent agent r ∧ LogFull w.state

theorem ownerRotateAgentCapability_fails {actor : Actor} {ttlSecs : Int}
    {token : String} (h : Workable w.state) :
    wp (ownerRotateAgentCapability host actor id ttlSecs token)
      (fun _ _ => True)
      (fun _ w' => w'.state = w.state ∨ HalfRotated host w w' id) w := by
  have hgen := h.generation
  unfold ownerRotateAgentCapability
  rw [wp_bind, wp_readState]
  refine line_lift (fun _ => Or.inl rfl) fun _ _ => ?_
  refine line_lift (fun _ => Or.inl rfl) fun _ _ => ?_
  refine line_lift (fun _ => Or.inl rfl) fun r _ => ?_
  refine line_lift (fun _ => Or.inl rfl) fun p _ => ?_
  refine line_lift (fun _ => Or.inl rfl) fun _ _ => ?_
  rw [wp_bind, wp_now]
  refine line (sessionExpiry_spec (w := { w with tick := w.tick + 1 })) ?_
  rintro expiry b ⟨hb, _⟩
  have hs : b.state = w.state := hb.state
  have hdrawn : w.drawn ≤ b.drawn := hb.drawn
  rw [wp_bind, wp_newId, wp_bind, wp_putAgent, wp_bind]
  refine wp_audit_or (fun hfull _ => Or.inr ?_) fun _ => ?_
  · refine ⟨_, idOfDraw host "session" b.drawn,
      Or.inl (.next hdrawn (Nat.lt_succ_self _)), rfl, by rw [← hs], ?_⟩
    rw [← hs]
    refine logFull_of_noRoom ?_ (by decide) (by decide) hfull
    show b.state.generation + 1 ≤ u64Max
    rw [hs]
    omega
  · rw [wp_pure]
    trivial

/-- A half-rotated agent is barred. -/
theorem HalfRotated.barred (h : HalfRotated host w w' agent)
    (hd : AllDrawn host w) (hfresh : FreshBelow host w'.drawn) :
    Barred w'.state agent := by
  obtain ⟨r, _, hin, rfl, hs, hfull⟩ := h
  refine Or.inr ⟨?_, r, ?_, fun id i hi _ => ?_⟩
  · rw [LogFull, hs]
    exact hfull
  · rw [hs]
    exact SortedMap.get?_insert_self _ _ _
  · rw [hs] at hi
    exact hin.ne_before hfresh (hd.intents id i hi)

/-- **A ROTATION THAT FAILS** leaves a barred agent barred. -/
theorem rotation_barred (hw : Workable w.state) (hc : Rotates agent c)
    (hfails : ¬Succeeds host c w) (hd : AllDrawn host w)
    (hfresh : FreshBelow host (exec host c w).drawn)
    (hb : Barred w.state agent) : Barred (exec host c w).state agent := by
  obtain ⟨token, ttlSecs, fresh, hasks⟩ := hc
  have hspec : wp (c.perform host) (fun _ _ => True)
      (fun _ w' => w'.state = w.state ∨ HalfRotated host w w' agent) w := by
    cases c with
    | request token' request =>
        cases hasks
        show wp (handle host token _) _ _ w
        unfold handle
        refine line_quiet (authenticate_quietly token)
          (fun _ _ h => Or.inl h.state) ?_
        intro actor a ha
        refine wp_mono (ownerRotateAgentCapability_fails (ha.state ▸ hw))
          (fun _ _ h => h) ?_
        rintro _ v (heq | ⟨r, session, hin, hr, hs, hfull⟩)
        · exact Or.inl (heq.trans ha.state)
        · have hadv := ha.toAdvance
          refine Or.inr ⟨r, session, ?_, hr, ha.state ▸ hs, ha.state ▸ hfull⟩
          exact hin.imp (fun h => h.widen hadv (.refl v))
            (fun h => h.widen hadv (.refl v))
    | persisted token' request =>
        cases hasks
        exact wp_mono (handleSaved_restores hw (fun _ => nofun) (fun _ => nofun))
          (fun _ _ h => h) (fun _ _ h => Or.inl h)
    | _ => exact nomatch hasks
  cases hr : result (c.perform host) w with
  | ok value => exact absurd ⟨value, hr⟩ hfails
  | error e =>
      rcases (wp_iff.mp hspec).2 e hr with heq | hhalf
      · show Barred (final (c.perform host) w).state agent
        rw [heq]
        exact hb
      · exact hhalf.barred hd hfresh

/-! ## Revocation -/

theorem ownerRevokeAgent_disarms {actor : Actor} :
    wp (ownerRevokeAgent host actor agent)
      (fun _ w' => Disarmed w'.state agent) (fun _ _ => True) w := by
  unfold ownerRevokeAgent
  rw [wp_bind, wp_readState]
  refine line_lift (fun _ => trivial) fun _ _ => ?_
  refine line_orReject (fun _ => trivial) fun r _ => ?_
  rw [wp_bind, wp_putAgent, wp_bind]
  refine wp_audit (fun _ => trivial) fun _ => ?_
  rw [wp_pure]
  exact ⟨_, SortedMap.get?_insert_self _ _ _, Or.inl rfl⟩

theorem handle_disarms {token : String} :
    wp (handle host token (.ownerRevokeAgent agent))
      (fun _ w' => Disarmed w'.state agent) (fun _ _ => True) w := by
  unfold handle
  exact line_quiet (authenticate_quietly token) (fun _ _ _ => trivial)
    fun _ _ _ => ownerRevokeAgent_disarms

/-- A revocation that succeeds disarms the agent. -/
theorem revocation_disarms {token : String}
    (hc : c.asks = some (token, .ownerRevokeAgent agent))
    (hok : Succeeds host c w) : Disarmed (exec host c w).state agent :=
  hok.leaves (P := fun s => Disarmed s agent) hc rfl handle_disarms

/-- **REVOCATION IS FINAL** until the capability is rotated, as long as the
    owner does not set the agent's mode back: after a revocation, along any
    calls of which none rotates the capability with success and none sets a
    mode that may spend, no further call enters an intent of the agent into
    execution. -/
theorem revocation_is_final {owner token : String} {w0 : World}
    {cs ds : List Call} {revoke : Call} (hrun : TreasuryRun host owner w0 cs w)
    (hrevoke : revoke.asks = some (token, .ownerRevokeAgent agent))
    (hok : Succeeds host revoke w) (hfit : Fits (exec host revoke w))
    (hcalls : Calls host (exec host revoke w) ds w')
    (hkeep : Throughout (exec host) (fun c v =>
      ¬(Rotates agent c ∧ Succeeds host c v) ∧ ¬Rearms host agent c v)
      (exec host revoke w) ds)
    (hfresh : FreshBelow host w'.drawn) {i : PurchaseIntent}
    (hi : w'.state.intents.get? id = some i) (hagent : i.agentId = agent) :
    ¬Enters w' (exec host c w') id := by
  obtain ⟨hkept, hfits⟩ := hrun.kept
  have hbehaves : Behaves host w _ revoke :=
    exec_behaves (hkept.workable hfits) revoke
  have hstart : Kept (exec host revoke w).state ∧ Fits (exec host revoke w)
      ∧ AllDrawn host (exec host revoke w)
      ∧ ((exec host revoke w).drawn ≤ w'.drawn →
        Barred (exec host revoke w).state agent) :=
    ⟨hbehaves.path.kept hkept, hfit, hbehaves.path.allDrawn hrun.allDrawn,
      fun _ => Or.inl (revocation_disarms hrevoke hok)⟩
  obtain ⟨hkept', hfits', _, hbarred⟩ := hcalls.invariantThroughout
    (I := fun v => Kept v.state ∧ Fits v ∧ AllDrawn host v
      ∧ (v.drawn ≤ w'.drawn → Barred v.state agent)) hkeep hstart (by
    rintro d v ⟨hrotate, hrearm⟩ ⟨hk, hf, hd, hb⟩ hfit
    have hwork := hk.workable hf
    have hbeh : Behaves host v _ d := exec_behaves hwork d
    refine ⟨hbeh.path.kept hk, hfit, hbeh.path.allDrawn hd, fun hle => ?_⟩
    have hdrawn := hbeh.path.advance.drawn
    have hbefore := hb (Nat.le_trans hdrawn hle)
    by_cases hrot : Rotates agent d
    · exact rotation_barred hwork hrot (fun hs => hrotate ⟨hrot, hs⟩) hd
        (hfresh.mono hle) hbefore
    · exact hbeh.barred hrot hrearm hd (hfresh.mono hle) hbefore)
  intro henters
  obtain ⟨j, r, p, b, hj, _, _, hr, _⟩ :=
    henters.rightful (hkept'.workable hfits')
  obtain rfl : i = j := Option.some.inj (hi.symm.trans hj)
  exact (hbarred (Nat.le_refl _)).unreservable hi hagent hr

/-- The id of the agent after `opening`. -/
def firstAgent (host : Host) : String := idOfDraw host "agent" 4

/-- The owner revokes the agent of `opening`. -/
def revokeFirst (host : Host) : Call :=
  .request (bootstrapToken host) (.ownerRevokeAgent (firstAgent host))

/-- The owner sets the mode of the agent of `opening`. -/
def setFirst (host : Host) (mode : AutonomyMode) : Call :=
  .request (bootstrapToken host) (.ownerSetAgentMode (firstAgent host) mode)

/-- A revoked agent that the owner lets observe executes nothing. -/
theorem revocation_is_final_observing :
    ∃ owner w0 w v, TreasuryRun stillHost owner w0 (opening smallPurchase owner) w
      ∧ Calls stillHost (exec stillHost (revokeFirst stillHost) w)
        [setFirst stillHost .observe] v
      ∧ ∀ c, ¬Enters v (exec stillHost c v) (firstIntent stillHost) := by
  have h : tryRun stillHost ⟨100000, "CAD"⟩ (opening smallPurchase)
      (fun w =>
        let u := exec stillHost (revokeFirst stillHost) w
        let v := exec stillHost (setFirst stillHost .observe) u
        decide (Succeeds stillHost (revokeFirst stillHost) w)
          && (decide (Fits u ∧ Fits v ∧ v.drawn ≤ 100)
          && decide ((v.state.intents.get? (firstIntent stillHost)).map
            PurchaseIntent.agentId = some (firstAgent stillHost)))) = true := by
    decide +kernel
  obtain ⟨owner, w0, w, hrun, hcheck⟩ := tryRun_run h
  rw [Bool.and_eq_true, Bool.and_eq_true] at hcheck
  obtain ⟨hok, hfits, hstored⟩ := hcheck
  obtain ⟨hfitu, hfitv, hdrawn⟩ := of_decide_eq_true hfits
  obtain ⟨i, hi, hagent⟩ := Option.map_eq_some_iff.mp (of_decide_eq_true hstored)
  have hcalls : Calls stillHost (exec stillHost (revokeFirst stillHost) w)
      [setFirst stillHost .observe] _ := .snoc _ .nil hfitv
  refine ⟨owner, w0, w, _, hrun, hcalls, fun c => ?_⟩
  refine revocation_is_final hrun rfl (of_decide_eq_true hok) hfitu hcalls ?_
    (plainHost_fresh (Nat.le_trans hdrawn (by decide))) hi hagent
  refine ⟨⟨?_, ?_⟩, trivial⟩
  · rintro ⟨⟨_, _, _, hc⟩, _⟩
    exact nomatch hc
  · rintro ⟨_, _, hc, _, hmode | hmode⟩
    all_goals
      cases hc
      exact nomatch hmode

/-- **A REVOKED AGENT SPENDS**: the owner revokes the agent, sets its mode
    and begins the handoff of its approved intent; nobody rotated the
    capability, and the intent enters execution. -/
theorem revocation_is_final_undone :
    ∃ owner w0 w i r, TreasuryRun soundHost owner w0 (approvedOpening owner) w
      ∧ Succeeds soundHost (revokeFirst soundHost) w
      ∧ (exec soundHost (setFirst soundHost .boundedAutonomous)
        (exec soundHost (revokeFirst soundHost) w)).state.agents.get?
          (firstAgent soundHost) = some r
      ∧ r.revoked = true
      ∧ (exec soundHost (setFirst soundHost .boundedAutonomous)
        (exec soundHost (revokeFirst soundHost) w)).state.intents.get?
          (firstIntent soundHost) = some i
      ∧ i.agentId = firstAgent soundHost
      ∧ Enters (exec soundHost (setFirst soundHost .boundedAutonomous)
          (exec soundHost (revokeFirst soundHost) w))
        (exec soundHost beginFirst
          (exec soundHost (setFirst soundHost .boundedAutonomous)
            (exec soundHost (revokeFirst soundHost) w)))
        (firstIntent soundHost) := by
  have h : tryRun soundHost ⟨100000, "CAD"⟩ approvedOpening
      (fun w =>
        let u := exec soundHost (revokeFirst soundHost) w
        let v := exec soundHost (setFirst soundHost .boundedAutonomous) u
        decide (Succeeds soundHost (revokeFirst soundHost) w)
          && (decide (Fits u ∧ Fits v)
          && (decide ((v.state.agents.get? (firstAgent soundHost)).map
            AgentRecord.revoked = some true)
          && (decide ((v.state.intents.get? (firstIntent soundHost)).map
            PurchaseIntent.agentId = some (firstAgent soundHost))
          && ((exec soundHost beginFirst v).log.drop v.log.length).any
            (isEntry (firstIntent soundHost)))))) = true := by decide +kernel
  obtain ⟨owner, w0, w, hrun, hcheck⟩ := tryRun_run h
  rw [Bool.and_eq_true, Bool.and_eq_true, Bool.and_eq_true,
    Bool.and_eq_true] at hcheck
  obtain ⟨hok, hfits, hrevoked, hstored, hlog⟩ := hcheck
  obtain ⟨hfitu, hfitv⟩ := of_decide_eq_true hfits
  obtain ⟨r, hr, hrev⟩ :=
    Option.map_eq_some_iff.mp (of_decide_eq_true hrevoked)
  obtain ⟨i, hi, hagent⟩ := Option.map_eq_some_iff.mp (of_decide_eq_true hstored)
  have hkept := hrun.kept
  have hu : Behaves soundHost w _ (revokeFirst soundHost) :=
    exec_behaves (hkept.1.workable hkept.2) _
  have hku := hu.path.kept hkept.1
  have hv : Behaves soundHost _ _ (setFirst soundHost .boundedAutonomous) :=
    exec_behaves (hku.workable hfitu) _
  have hkv := hv.path.kept hku
  exact ⟨owner, w0, w, i, r, hrun, of_decide_eq_true hok, hr, hrev, hi, hagent,
    enters_of_log (hkv.workable hfitv) hlog⟩

end Treasury
