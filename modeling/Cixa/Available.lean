import Cixa.Lasting

/-! # Availability — the stop that can always be turned on

    The emergency stop has a reserve of audit entries of its own, and the
    bound of a save has ONE more: while the stop is off, no more entries
    about it than the reserve have been written, so the entry that turns it
    on is always within the bound.

    What a saved request leaves has passed the checks of a save, or is what
    was there before; and what an attempt leaves is valid because every
    change it makes fits. -/

namespace Treasury

open CixaData CixaHost Outcome Checks Transition

variable {host : Host} {w w' v : World} {l : Label} {s s' : TreasuryState}
  {key : List UInt8} {token : String} {actor : Actor} {request : Request}

/-! ## States ready for a stop -/

/-- **READY**: a valid state, whose chain verifies, that has room for the
    entry of a stop, and whose sessions have expired if it is stopped. -/
structure Ready (host : Host) (key : List UInt8) (s : TreasuryState) :
    Prop where
  valid : Valid host s
  chained : Chained host key s.audit
  room : s.emergencyStop = false →
    emergencyCount s.audit ≤ emergencyAuditReserve
  expired : s.emergencyStop = true → ∀ id r, s.agents.get? id = some r →
    r.brokerSessionExpiresAt = 0
  expiry : ∀ id r, s.agents.get? id = some r → 0 ≤ r.expiresAt

/-- What a request other than a stop leaves alone. -/
structure Unstopped (s s' : TreasuryState) : Prop where
  flag : s'.emergencyStop = s.emergencyStop
  entries : emergencyCount s'.audit = emergencyCount s.audit
  expired : s'.emergencyStop = true → ∀ id r, s'.agents.get? id = some r →
    r.brokerSessionExpiresAt = 0
  expiry : ∀ id r, s'.agents.get? id = some r → 0 ≤ r.expiresAt

theorem Ready.unstopped (h : Ready host key s) : Unstopped s s :=
  ⟨rfl, rfl, h.expired, h.expiry⟩

/-- A valid state that a request leaves is ready again. -/
theorem Ready.next (h : Ready host key s) (hu : Unstopped s s')
    (hv : Valid host s') (hc : Chained host key s'.audit) :
    Ready host key s' :=
  ⟨hv, hc, fun hoff => hu.entries ▸ h.room (hu.flag ▸ hoff), hu.expired,
    hu.expiry⟩

/-! ## Changes that stop nothing -/

/-- The labels of changes that neither stop nor resume. -/
def Calm : Label → Prop
  | .audit action => isEmergencyAudit action = false
  | .setStop _ => False
  | _ => True

/-- A time on the clock and a positive while are no overflow. -/
theorem expiry_nonneg {t ttl : Int} (hread : ReadIn host w w' t)
    (hlo : 0 < ttl) (hhi : ttl ≤ 24 * 60 * 60) :
    0 ≤ I64.wrappingAdd t ttl := by
  obtain ⟨k, _, _, rfl⟩ := hread
  have h0 := host.clock_nonneg k
  have h1 := host.clock_le k
  rw [I64.wrappingAdd_of_fits (by unfold I64.Fits I64.minValue I64.maxValue; omega)]
  omega

theorem Edited.expiry {r r' : AgentRecord} {edit : AgentEdit}
    (h : Edited host w w' r edit r') (hr : 0 ≤ r.expiresAt) :
    0 ≤ r'.expiresAt := by
  cases h with
  | rotate _ _ hlo hhi ht _ _ => exact expiry_nonneg ht hlo hhi
  | _ => exact hr

/-- While the stop is on, every edit leaves a session that has expired. -/
theorem Edited.expired {r r' : AgentRecord} {edit : AgentEdit}
    (h : Edited host w w' r edit r') (hstop : w.state.emergencyStop = true)
    (hr : r.brokerSessionExpiresAt = 0) : r'.brokerSessionExpiresAt = 0 := by
  cases h with
  | arm hoff _ _ _ _ _ => exact nomatch hoff.symm.trans hstop
  | rotate _ _ _ _ _ he _ =>
      rcases he with ⟨_, h0⟩ | ⟨hoff, _⟩
      · exact h0
      · exact nomatch hoff.symm.trans hstop
  | stop _ => rfl
  | _ => exact hr

theorem NewAgent.lives {p : Policy} {r : AgentRecord}
    (h : NewAgent host w w' token p r) : 0 ≤ r.expiresAt := by
  obtain ⟨ttl, k, k', hlo, hhi, _, _, hk, heq, _⟩ := h.expiry
  rw [heq]
  have hread : ReadIn host w w' (host.clock k') := ⟨k', by omega, hk, rfl⟩
  exact expiry_nonneg hread hlo hhi

theorem NewAgent.ended {p : Policy} {r : AgentRecord}
    (h : NewAgent host w w' token p r) (hstop : w.state.emergencyStop = true) :
    r.brokerSessionExpiresAt = 0 := by
  obtain ⟨_, _, _, _, _, _, _, _, _, hend⟩ := h.expiry
  rcases hend with ⟨_, h0⟩ | ⟨hoff, _⟩
  · exact h0
  · exact nomatch hoff.symm.trans hstop

/-- What every new agent has and every edit keeps, every agent has. -/
theorem Change.eachAgent {P : AgentRecord → Prop} (h : Change host l w w')
    (hnew : ∀ token p r, NewAgent host w w' token p r → P r)
    (hedit : ∀ r edit r', Edited host w w' r edit r' → P r → P r')
    (hw : ∀ id r, w.state.agents.get? id = some r → P r) {id : String}
    {r : AgentRecord} (hr : w'.state.agents.get? id = some r) : P r := by
  rcases h.agents with hs | ⟨id', _, _, r', _, _, hn, hs⟩
    | ⟨id', _, old, r', _, hget, he, hs⟩
  · exact hw id r (hs ▸ hr)
  · rw [hs, SortedMap.get?_insert] at hr
    split at hr
    · rw [← Option.some.inj hr]
      exact hnew _ _ r' hn
    · exact hw id r hr
  · rw [hs, SortedMap.get?_insert] at hr
    split at hr
    · rw [← Option.some.inj hr]
      exact hedit old _ r' he (hw id' old hget)
    · exact hw id r hr

/-- **CALM CHANGES** keep the flag, the number of entries about it, and every
    session expired while it is set. -/
theorem Change.unstopped {a b : World} (h : Change host l a b) (hl : Calm l)
    (ha : Unstopped s a.state) : Unstopped s b.state := by
  have hflag : b.state.emergencyStop = a.state.emergencyStop := by
    rcases h.flag with heq | rfl
    · exact heq
    · exact hl.elim
  refine ⟨hflag.trans ha.flag, ?_, fun hon id r hr => ?_, fun id r hr => ?_⟩
  · rcases h.entry with hs | ⟨action, e, haction, _, hs, hlabel⟩
    · rw [hs]
      exact ha.entries
    · have hno : isEmergencyAudit e.action = false := by
        rw [haction]
        rcases hlabel with rfl | hno
        · exact hl
        · exact hno
      rw [hs, (counts_append hno).1]
      exact ha.entries
  · have hstop := hflag ▸ hon
    exact h.eachAgent (P := fun r => r.brokerSessionExpiresAt = 0)
      (fun _ _ _ hn => hn.ended hstop) (fun _ _ _ he => he.expired hstop)
      (ha.expired hstop) hr
  · exact h.eachAgent (P := fun r => 0 ≤ r.expiresAt)
      (fun _ _ _ hn => hn.lives) (fun _ _ _ he => he.expiry) ha.expiry hr

theorem Path.unstopped {allowed : Label → Prop} {a b : World}
    (h : Path host allowed a b) (hl : ∀ l, allowed l → Calm l)
    (ha : Unstopped s a.state) : Unstopped s b.state :=
  h.invariant (I := fun v => Unstopped s v.state)
    (fun l _ _ hallowed hc hv => hc.unstopped (hl l hallowed) hv)
    (fun _ _ _ hv _ => hv) ha

/-! ## Attempts -/

/-- What a path keeps all along. -/
structure Intact (host : Host) (w : World) : Prop where
  valid : Valid host w.state
  chained : Chained host w.auditKey w.state.audit
  sound : Sound w.state
  domestic : Domestic "CAD" w.state

/-- A path of changes that fit keeps a state intact. -/
theorem Path.intact {allowed : Label → Prop} (h : Path host allowed w w')
    (hfit : ∀ l a b, allowed l → Fit host a b l) (hw : Intact host w) :
    Intact host w' := by
  refine h.invariant ?_ ?_ hw
  · intro l a b hl hc ha
    exact ⟨hc.valid ha.sound ha.domestic (hfit l a b hl) ha.valid,
      hc.chained ha.chained, hc.sound ha.sound, hc.domestic ha.sound ha.domestic⟩
  · intro a b hp ha _
    refine ⟨ha.valid, ?_, ha.sound, ha.domestic⟩
    show Chained host b.auditKey a.state.audit
    rw [hp.advance.key]
    exact ha.chained

theorem after_calm {id : String} (h : AfterSubmit id l) : Calm l := by
  cases l with
  | setStop _ => exact h
  | audit action => exact h
  | _ => trivial

theorem attempting_calm {id : String} (h : Attempting id l) : Calm l := by
  cases l with
  | reserve _ => trivial
  | submit _ => trivial
  | _ =>
      rcases h with h | h
      · exact after_calm (before_after id _ h)
      · exact after_calm h

/-- Nothing an attempt does asks for more than the code checks. -/
theorem attempting_fit {id : String} {a b : World} (h : Attempting id l) :
    Fit host a b l := by
  have hcalm := attempting_calm h
  cases l with
  | audit action =>
      rintro rfl
      exact nomatch (show isEmergencyAudit "emergency_stop_on" = false
        from hcalm)
  | addAgent _ _ => exact absurd h (by rintro (h | h) <;> exact h)
  | editAgent _ _ => exact absurd h (by rintro (h | h) <;> exact h)
  | addIntent _ => exact absurd h (by rintro (h | h) <;> exact h)
  | _ => trivial

/-- **AN ATTEMPT** to execute an intent leaves a state ready. -/
theorem Attempt.ready {durable : Prop} {id : String}
    (h : Attempt host durable id w w') (hs : Sound w.state)
    (hd : Domestic "CAD" w.state) (hw : Ready host w.auditKey w.state) :
    Ready host w'.auditKey w'.state := by
  have hi : Intact host w' := h.path.intact
    (fun l a b hl => attempting_fit hl) ⟨hw.valid, hw.chained, hs, hd⟩
  have hu := h.path.unstopped (fun l hl => attempting_calm hl) hw.unstopped
  have hkey := h.path.advance.key
  have hc := hi.chained
  rw [hkey] at hc ⊢
  exact hw.next hu hi.valid hc

/-! ## Saved requests -/

/-- A save checks what it writes. -/
theorem saveTo_checks : wp (saveTo host)
    (fun _ w' => Path host Saving w w' ∧ w'.state = w.state
      ∧ Valid host w.state ∧ Chained host w.auditKey w.state.audit)
    (fun _ w' => Path host Saving w w' ∧ w'.state = w.state) w := by
  refine wp_mono (wp_and saveTo_spec saveTo_saves) ?_ ?_
  · rintro _ w' ⟨⟨hp, hs, _⟩, hsaves⟩
    exact ⟨hp, hs, validateState_ok.mp hsaves.valid,
      verifyAuditChain_ok.mp hsaves.chain⟩
  · rintro _ w' ⟨h, _⟩
    exact h

/-- **WHAT A SAVED REQUEST LEAVES**: what a request classified as read-only
    left, what passed the checks of a save, or what was there before. -/
theorem handleSaved_outcome {P E R : World → Prop}
    (hrun : wp (handle host token request) (fun _ v => P v) (fun _ v => E v) w)
    (hread : ∀ v, P v → request.isReadOnly = true → R v)
    (hsaved : ∀ v w', P v ∨ (E v ∧ w.state.generation < v.state.generation) →
      Path host Saving v w' → w'.state = v.state → Valid host v.state →
      Chained host v.auditKey v.state.audit → R w')
    (hback : ∀ v w', P v ∨ E v → Path host Saving v w' →
      R (w.restoreState w')) :
    wp (handleSaved host token request) (fun _ => R) (fun _ => R) w := by
  -- a save succeeds with the state as it is, or puts back the old one
  have hsave : ∀ v,
      P v ∨ (E v ∧ w.state.generation < v.state.generation) →
      wp (orRestore w.state (saveTo host)) (fun _ => R) (fun _ => R) v := by
    intro v hv
    refine wp_orRestore (wp_mono saveTo_checks ?_ ?_)
    · rintro _ w' ⟨hp, hs, hvalid, hc⟩
      exact hsaved v w' hv hp hs hvalid hc
    · rintro _ w' ⟨hp, _⟩
      exact hback v w' (hv.imp_right And.left) hp
  unfold handleSaved
  rw [wp_bind, wp_readState, wp_bind, wp_attempt]
  refine wp_mono hrun ?_ ?_
  · intro value v hv
    dsimp only
    rw [wp_ite, wp_pure]
    refine ⟨hread v hv, fun _ => ?_⟩
    refine line (hsave v (Or.inl hv)) fun _ w' hw' => ?_
    rw [wp_pure]
    exact hw'
  · intro e v hv
    dsimp only
    rw [wp_bind, wp_readState, wp_ite]
    constructor
    · rintro ⟨_, hgrown⟩
      refine line (hsave v (Or.inr ⟨hv, hgrown⟩)) fun _ w' hw' => ?_
      rw [wp_throw]
      exact hw'
    · intro _
      rw [wp_bind, wp_setState, wp_throw]
      exact hback v v (Or.inr hv) (.refl v)

/-! ## What requests write -/

/-- Only a stop writes entries about it. -/
theorem audits_calm {action : String}
    (hx : ∀ stopped, request ≠ .ownerSetEmergencyStop stopped)
    (h : action ∈ audits request) : isEmergencyAudit action = false := by
  cases request with
  | ownerSetEmergencyStop stopped => exact absurd rfl (hx stopped)
  | _ =>
      first
        | rw [List.mem_singleton.mp h]; rfl
        | exact absurd h List.not_mem_nil

theorem permits_calm (hx : ∀ stopped, request ≠ .ownerSetEmergencyStop stopped)
    (h : permits actor request l) : Calm l := by
  cases l with
  | audit action =>
      refine audits_calm hx ?_
      cases request <;> exact h
  | setStop stopped =>
      cases request with
      | ownerSetEmergencyStop stopped' => exact absurd rfl (hx stopped')
      | _ => exact h
  | _ => trivial

/-- Requests classified as read-only make no change at all. -/
theorem permits_readOnly (hread : request.isReadOnly = true)
    (h : permits actor request l) : l = .quiet := by
  cases request with
  | getStatus | getCapabilities | getBudget | getReceiveInstructions
  | ownerGetDashboard | getPurchaseIntent | listTransactions
  | listTransactionsPage | ownerListTransactionsPage | getReceipt
  | ownerListAudit | ownerListAuditRecent | ownerListAuditPage =>
      cases l with
      | quiet => rfl
      | audit _ => exact nomatch h
      | _ => exact h.elim
  | _ => exact nomatch hread

theorem saving_calm (h : Saving l) : Calm l := by
  cases l with
  | setStop _ => exact h
  | audit action => exact False.elim h
  | _ => trivial

theorem Ordinary.unstopped (h : Ordinary host token request w w')
    (hx : ∀ stopped, request ≠ .ownerSetEmergencyStop stopped)
    (hw : Unstopped s w.state) : Unstopped s w'.state := by
  cases h with
  | refused hp => exact hp.unstopped (fun _ => saving_calm) hw
  | served _ hp =>
      refine hp.unstopped (fun l hl => ?_) hw
      rcases hl with hl | hl
      · exact permits_calm hx hl
      · exact saving_calm hl

/-- A request classified as read-only leaves the state alone. -/
theorem Ordinary.readOnly (h : Ordinary host token request w w')
    (hread : request.isReadOnly = true) : w'.state = w.state := by
  cases h with
  | refused hp => exact saving_state hp
  | served _ hp =>
      refine saving_state (hp.mono fun l hl => ?_)
      rcases hl with hl | hl
      · rw [permits_readOnly hread hl]
        exact saving_quiet
      · exact hl

theorem Ordinary.advance (h : Ordinary host token request w w') :
    Advance w w' := by
  cases h with
  | refused hp => exact hp.advance
  | served _ hp => exact hp.advance

/-- Every other saved request that executes nothing leaves a state ready. -/
theorem handleSaved_ready (hk : Keyed w.state) (hx : executes request = none)
    (hstop : ∀ stopped, request ≠ .ownerSetEmergencyStop stopped)
    (hw : Ready host w.auditKey w.state) :
    wp (handleSaved host token request)
      (fun _ w' => Ready host w'.auditKey w'.state)
      (fun _ w' => Ready host w'.auditKey w'.state) w := by
  refine handleSaved_outcome (handle_ordinary hk hx) ?_ ?_ ?_
  · intro v hv hread
    rw [hv.readOnly hread, hv.advance.key]
    exact hw
  · intro v w' hv hp hs hvalid hc
    have hv' : Ordinary host token request w v := hv.elim id And.left
    have hkey := hp.advance.key.trans hv'.advance.key
    rw [hs, hkey]
    rw [hv'.advance.key] at hc
    exact hw.next (hv'.unstopped hstop hw.unstopped) hvalid hc
  · intro v w' hv hp
    have hv' : Ordinary host token request w v := hv.elim id id
    show Ready host w'.auditKey w.state
    rw [hp.advance.key, hv'.advance.key]
    exact hw

/-! ## The stop -/

/-- The action of an entry about a stop. -/
def stopAction (stopped : Bool) : String :=
  if stopped = true then "emergency_stop_on" else "emergency_stop_off"

/-- **WHAT A STOP DOES** that turns on or off: it ends the sessions, sets the
    flag, and writes one entry. -/
structure Switched (host : Host) (stopped : Bool) (w w' : World) : Prop where
  changed : w.state.emergencyStop ≠ stopped
  room : hasRoom w.state (stopAction stopped)
  entry : ∃ v u, StoppedAll host
      (if stopped = true then w.state.agents.entries else []) w v
    ∧ u.state = { v.state with emergencyStop := stopped }
    ∧ Change host (.setStop stopped) v u
    ∧ Change host (.audit (stopAction stopped)) u w'
    ∧ ∃ e, e.action = stopAction stopped ∧ w'.state = u.state.withEntry e

/-- A stop fails only without room for its entry, and then writes none. -/
theorem ownerEmergencyStop_switches {stopped : Bool} :
    wp (ownerEmergencyStop host actor stopped)
      (fun _ w' => (w' = w ∧ w.state.emergencyStop = stopped)
        ∨ Switched host stopped w w')
      (fun _ w' => w'.state.generation = w.state.generation
        ∧ ¬(actor = .owner ∧ hasRoom w.state (stopAction stopped))) w := by
  unfold ownerEmergencyStop
  rw [wp_bind, wp_readState, wp_bind, wp_lift]
  refine ⟨fun e he => ⟨rfl, ?_⟩, fun _ _ => ?_⟩
  · rintro ⟨rfl, _⟩
    exact nomatch he
  rw [wp_ite, wp_pure]
  refine ⟨fun heq => Or.inl ⟨rfl, heq⟩, fun hchange => ?_⟩
  refine line (stopAgents_spec (w := w) ?_ ?_) ?_
  · intro e he
    split at he
    · exact SortedMap.get?_eq_some.mpr he
    · exact nomatch he
  · split
    · exact w.state.agents.sorted.imp (fun h => ne_of_lt h)
    · exact List.Pairwise.nil
  intro _ v hstopped
  obtain ⟨agents, hstate⟩ := hstopped.state
  rw [wp_bind, wp_modifyState]
  generalize hu : World.mk _ _ _ _ _ _ = u
  have hset : Change host (.setStop stopped) v u := by
    rw [← hu]
    exact .setStop ⟨rfl, Nat.le_refl _, Nat.le_refl _, Nat.le_refl _⟩ rfl rfl
  have hustate : u.state = { v.state with emergencyStop := stopped } := by
    rw [← hu]
  -- neither the sessions nor the flag count for the room of the entry
  have hsame : hasRoom u.state (stopAction stopped)
      = hasRoom w.state (stopAction stopped) := by
    rw [hustate, hstate]
    rfl
  rw [wp_bind]
  refine wp_audit_or (fun hno _ => ⟨?_, fun h => hno (hsame ▸ h.2)⟩)
    fun hroom => ?_
  · rw [hustate, hstate]
  rw [wp_pure]
  refine Or.inr ⟨hchange, hsame ▸ hroom, v, u, hstopped, hustate, hset, ?_, _,
    ?_, rfl⟩
  · exact .audit ⟨rfl, Nat.le_succ _, Nat.le_refl _, Nat.le_refl _⟩
      (.next hroom rfl rfl ⟨Nat.le_refl _, Nat.lt_succ_self _⟩) rfl rfl
  · rfl

theorem stopping_calm {entries : List (String × AgentRecord)}
    (h : Stopping entries l) : Calm l := by
  obtain ⟨e, _, rfl⟩ := h
  trivial

/-- What a stop that turns on or off leaves. -/
theorem Switched.leaves {stopped : Bool} (h : Switched host stopped w w')
    (hw : Unstopped w.state w.state) :
    w'.state.emergencyStop = stopped
      ∧ emergencyCount w'.state.audit = emergencyCount w.state.audit + 1
      ∧ (stopped = true → ∀ id r, w'.state.agents.get? id = some r →
        r.brokerSessionExpiresAt = 0)
      ∧ ∀ id r, w'.state.agents.get? id = some r → 0 ≤ r.expiresAt := by
  obtain ⟨v, u, hstopped, hu, _, _, e, haction, hs⟩ := h.entry
  obtain ⟨agents, hv⟩ := hstopped.state
  have hcalm := hstopped.path.unstopped (fun _ => stopping_calm) hw
  have hagents : w'.state.agents = v.state.agents := by rw [hs, hu]; rfl
  refine ⟨by rw [hs, hu]; rfl, ?_, ?_, ?_⟩
  · have hem : isEmergencyAudit e.action = true := by
      rw [haction]
      unfold stopAction
      split <;> rfl
    have hcount := (@emergencyCount_entry w.state.audit e hem).1
    rw [hs, hu, hv]
    exact hcount
  · rintro rfl id r hr
    rw [hagents] at hr
    -- every agent was in the list of those that are stopped
    rcases hstopped.agents id r hr with ⟨_, hzero⟩ | ⟨hget, hnot⟩
    · exact hzero
    · exact absurd rfl (hnot (id, r) (SortedMap.get?_eq_some.mp hget))
  · intro id r hr
    exact hcalm.expiry id r (hagents ▸ hr)

/-- The outcomes of a request to stop or resume. -/
inductive Stopped (host : Host) (stopped : Bool) (w v : World) : Prop where
  | already (hq : Quiet w v) (h : w.state.emergencyStop = stopped)
  | switched {a : World} (hq : Quiet w a) (h : Switched host stopped a v)

theorem Switched.advance {stopped : Bool} (h : Switched host stopped w w') :
    Advance w w' := by
  obtain ⟨_, _, hstopped, _, hset, haudit, _⟩ := h.entry
  exact (hstopped.path.advance.trans hset.advance).trans haudit.advance

theorem Stopped.advance {stopped : Bool} (h : Stopped host stopped w w') :
    Advance w w' := by
  cases h with
  | already hq _ => exact hq.toAdvance
  | switched hq h => exact hq.toAdvance.trans h.advance

/-- **A REQUEST TO STOP OR RESUME** does so, or writes no entry. -/
theorem handle_stopped {stopped : Bool} :
    wp (handle host token (.ownerSetEmergencyStop stopped))
      (fun _ v => Stopped host stopped w v)
      (fun _ v => Advance w v ∧ v.state.generation = w.state.generation) w := by
  unfold handle
  refine line_quiet (authenticate_quietly token) (fun _ v hq => ?_) ?_
  · exact ⟨hq.toAdvance, by rw [hq.state]⟩
  intro actor a ha
  refine wp_mono (wp_and (ownerEmergencyStop_spec (w := a))
    (ownerEmergencyStop_switches (w := a))) ?_ ?_
  · rintro _ v ⟨_, ⟨rfl, h⟩ | h⟩
    · exact .already ha (ha.state ▸ h)
    · exact .switched ha h
  · rintro _ v ⟨⟨hp, _⟩, hgen, _⟩
    exact ⟨ha.toAdvance.trans hp.advance, hgen.trans (by rw [ha.state])⟩

/-- A saved stop or resumption leaves a state ready. -/
theorem handleSaved_stopped {stopped : Bool}
    (hw : Ready host w.auditKey w.state) :
    wp (handleSaved host token (.ownerSetEmergencyStop stopped))
      (fun _ w' => Ready host w'.auditKey w'.state)
      (fun _ w' => Ready host w'.auditKey w'.state) w := by
  refine handleSaved_outcome handle_stopped (fun _ _ h => nomatch h) ?_ ?_
  · intro v w' hv hp hs hvalid hc
    have hv' : Stopped host stopped w v := by
      rcases hv with hv | ⟨⟨_, hgen⟩, hgrown⟩
      · exact hv
      · omega
    have hkey := hp.advance.key
    rw [hs, hkey]
    cases hv' with
    | already hq _ =>
        rw [hq.state, hq.key]
        exact hw
    | @switched a hq h =>
        have hstate := hq.state
        obtain ⟨hflag, hcount, hended, hexpiry⟩ :=
          h.leaves (hstate ▸ hw.unstopped)
        refine ⟨hvalid, hc, fun hoff => ?_, fun hon => ?_, hexpiry⟩
        · -- the entry that resumed had to find the reserve not used up
          have hcap := h.room.1
          have hfalse : stopped = false := hflag.symm.trans hoff
          subst hfalse
          have := of_decide_eq_true (show decide
            (emergencyCount a.state.audit < emergencyAuditReserve) = true
            from hcap)
          omega
        · exact hended (hflag.symm.trans hon)
  · intro v w' hv hp
    have hadv : Advance w v := hv.elim Stopped.advance And.left
    show Ready host w'.auditKey w.state
    rw [hp.advance.key, hadv.key]
    exact hw

/-! ## The key on the disk -/

theorem Change.keyFits (h : Change host l w w') (hk : KeyFits w) :
    KeyFits w' := by
  intro key hkey
  rw [h.advance.key]
  rcases h.logged with hs | ⟨e, hs, he⟩
  · exact hk key (hs ▸ hkey)
  · rw [hs, diskOf_append] at hkey
    cases e with
    | keyWritten key' =>
        rw [← Option.some.inj hkey]
        exact constantTimeEq_iff.mpr he
    | _ => exact hk key hkey

theorem TreasuryRun.keyFits {w0 : World} {cs : List Call}
    (h : TreasuryRun host token w0 cs w) : KeyFits w := by
  obtain ⟨balance, hs⟩ := h.balance
  refine h.path.invariant (I := fun v => KeyFits v)
    (fun _ _ _ _ hc hv => hc.keyFits hv) (fun a b _ _ hb => hb) ?_
  intro key hkey
  rw [hs.log] at hkey
  exact nomatch hkey

/-! ## Runs of saved requests -/

/-- **EVERY SAVED REQUEST** leaves a state ready. -/
theorem persisted_ready (h : Workable w.state) (hs : Sound w.state)
    (hd : Domestic "CAD" w.state) (hw : Ready host w.auditKey w.state) :
    Ready host (exec host (.persisted token request) w).auditKey
      (exec host (.persisted token request) w).state := by
  unfold exec
  refine (wp_final (P := fun v : World => Ready host v.auditKey v.state)).mp ?_
  have hattempt : ∀ {id} {w' : World}, Attempt host True id w w' →
      Ready host w'.auditKey w'.state := fun ha => ha.ready hs hd hw
  show wp (handlePersisted host token request) _ _ w
  cases request with
  | ownerCreateAgent name p mode ttl => exact (wp_throw _).mpr hw
  | executePurchaseIntent id =>
      exact wp_mono (executePersisted_spec h) (fun _ _ h => hattempt h)
        (fun _ _ h => hattempt h)
  | ownerBeginManualHandoff id =>
      exact wp_mono (handleSaved_handoff h) (fun _ _ h => hattempt h)
        (fun _ _ h => hattempt h)
  | ownerSetEmergencyStop stopped => exact handleSaved_stopped hw
  | _ => exact handleSaved_ready h.keyed rfl nofun hw

/-- The domain library keeps the merchant of the first policy as it is. -/
def KeepsDemoMerchant (host : Host) : Prop :=
  host.domainToAscii "merchant.example.test" = some "merchant.example.test"

theorem conservativeDemo_valid (h : KeepsDemoMerchant host) :
    Policy.conservativeDemo.validate host = .ok ⟨⟩ := by
  have hmerchant : Policy.checkCanonical host
      "policy merchant domains must be canonical" "merchant.example.test"
        = .ok ⟨⟩ := by
    unfold Policy.checkCanonical canonicalizeDomain
    simp only [bind_eq_ok, orRefuse_eq_ok, refuseIf_eq_ok]
    refine ⟨_, ⟨⟨⟩, by decide, _, rfl, _, h, ⟨⟩, by decide, rfl⟩, by decide⟩
  unfold Policy.validate
  simp only [bind_eq_ok, refuseIf_eq_ok]
  refine ⟨⟨⟩, by decide, _, rfl, ⟨⟩, by decide, ⟨⟩, by decide, ⟨⟩, by decide, ⟨⟩,
    by decide, ⟨⟩, by decide, ?_⟩
  exact forM_eq_ok.mpr (List.forall_mem_singleton.mpr hmerchant)

theorem bootstrap_chained {name : String} {balance : Money}
    (h : bootstrap host name balance = .ok (w, token)) :
    Chained host w.auditKey w.state.audit := by
  unfold bootstrap at h
  simp only [bind_eq_ok, refuseIf_eq_ok, pure_eq_ok, Prod.mk.injEq] at h
  obtain ⟨_, _, _, _, u, hrun, rfl, _⟩ := h
  have hspec : wp (bootstrapEvents host balance)
      (fun _ v => Chained host v.auditKey v.state.audit) (fun _ _ => True)
      (initialWorld host name balance) := by
    unfold bootstrapEvents
    rw [wp_bind, wp_appendLedger]
    generalize hv : World.mk _ _ _ _ _ _ = v
    have hnil : v.state.audit = [] := by rw [← hv]; rfl
    refine wp_audit (fun _ => trivial) fun _ => ?_
    refine (chained_entryOf (w := v)).mpr ?_
    rw [hnil]
    exact ⟨_, rfl⟩
  exact (wp_iff.mp hspec).1 u hrun

/-- **A BOOTSTRAPPED TREASURY** is ready for a stop. -/
theorem bootstrap_ready {name : String} {balance : Money}
    (hplain : KeepsDemoMerchant host)
    (h : bootstrap host name balance = .ok (w, token)) :
    Ready host w.auditKey w.state := by
  have hs := bootstrap_started h
  obtain ⟨owner, e, entry, howner, _, hamount, hid, haction, hstate⟩ := hs.state
  refine ⟨?_, bootstrap_chained h, ?_, ?_, ?_⟩
  · rw [hstate]
    refine ⟨rfl, ?_, ?_, ?_, fun _ _ hr => (nomatch hr),
      fun _ _ hi => (nomatch hi), ?_, ?_, fun _ hk => (nomatch hk)⟩
    -- one booking and one entry are far below the quotas
    · refine validateQuotas_ok.mpr ⟨Nat.zero_le _, Nat.zero_le _, ?_⟩
      obtain ⟨hem, hnon⟩ := @counts_append [] entry (by rw [haction]; rfl)
      constructor
      · show nonEmergencyCount ([] ++ [entry]) ≤ _
        rw [hnon]
        decide
      · show emergencyCount ([] ++ [entry]) ≤ _
        rw [hem]
        decide
    · show Chars.byteLen owner.capabilityTokenHash = 64
      rw [howner]
      exact tokenHash_byteLen token
    · intro id p hp
      have hp' : (SortedMap.empty.insert Policy.conservativeDemo.id
          Policy.conservativeDemo).get? id = some p := hp
      rw [SortedMap.get?_insert] at hp'
      split at hp'
      · rename_i hsame
        obtain rfl := Option.some.inj hp'
        unfold validatePolicyEntry
        rw [bind_eq_ok]
        exact ⟨⟨⟩, refuseIf_eq_ok.mpr (not_not.mpr hsame),
          conservativeDemo_valid hplain⟩
      · exact nomatch hp'
    · intro e' he'
      obtain rfl := List.mem_singleton.mp (show e' ∈ [e] from he')
      refine validateLedgerEvent_ok.mpr ⟨?_, ?_⟩
      · rw [hamount, hs.currency]
        decide
      · intro id' hid'
        exact nomatch hid.symm.trans hid'
    · exact validateProvider_ok.mpr ⟨fun _ => le_of_lt hs.positive, nofun⟩
  · intro _
    rw [hstate]
    show emergencyCount ([] ++ [entry]) ≤ _
    rw [(@counts_append [] entry (by rw [haction]; rfl)).1]
    decide
  · rw [hstate]
    intro hon
    exact nomatch hon
  · rw [hstate]
    exact fun _ _ hr => (nomatch hr)

/-- A run of saved requests. -/
def Saved (cs : List Call) : Prop :=
  ∀ c ∈ cs, ∃ token request, c = .persisted token request

theorem TreasuryRun.ready {owner : String} {w0 : World} {cs : List Call}
    (h : TreasuryRun host owner w0 cs w) (hplain : KeepsDemoMerchant host)
    (hcs : Saved cs) : Ready host w.auditKey w.state := by
  obtain ⟨⟨name, balance, hboot⟩, hcalls⟩ := h
  induction hcalls with
  | nil => exact bootstrap_ready hplain hboot
  | @snoc cs v c hrun hfit ih =>
      have hv : TreasuryRun host owner w0 cs v := ⟨⟨name, balance, hboot⟩, hrun⟩
      have hready := ih fun c hc => hcs c (List.mem_append_left _ hc)
      obtain ⟨hkept, hfits⟩ := hv.kept
      obtain ⟨token, request, rfl⟩ := hcs c (by simp)
      -- every call of such a run is a saved request
      exact persisted_ready (hkept.workable hfits) hv.sound hv.domestic hready

/-! ## Turning the stop on -/

/-- Stopping an agent ends its session. -/
theorem Change.stopsAgent {id : String} {a b : World} {r : AgentRecord}
    (h : Change host (.editAgent id .stop) a b)
    (hr : b.state.agents.get? id = some r) : r.brokerSessionExpiresAt = 0 := by
  generalize hl : Label.editAgent id .stop = l at h
  cases h with
  | @editAgent _ _ _ _ old new _ _ he hs _ =>
      cases hl
      rw [hs] at hr
      have hget := (SortedMap.get?_insert a.state.agents id id new).symm.trans
        hr
      rw [if_pos rfl] at hget
      obtain rfl := Option.some.inj hget
      cases he
      rfl
  | _ => exact nomatch hl

/-- Stopping the agents leaves a state intact. -/
theorem StoppedAll.intact {entries : List (String × AgentRecord)}
    (h : StoppedAll host entries w w') (hw : Intact host w)
    (hexpiry : ∀ id r, w.state.agents.get? id = some r → 0 ≤ r.expiresAt) :
    Intact host w' := by
  refine (h.path.invariant (I := fun v => Intact host v
    ∧ ∀ id r, v.state.agents.get? id = some r → 0 ≤ r.expiresAt) ?_ ?_
    ⟨hw, hexpiry⟩).1
  · rintro l a b ⟨e, _, rfl⟩ hc ⟨ha, hexp⟩
    have hexp' : ∀ id r, b.state.agents.get? id = some r → 0 ≤ r.expiresAt :=
      fun id r hr => hc.eachAgent (P := fun r => 0 ≤ r.expiresAt)
        (fun _ _ _ hn => hn.lives) (fun _ _ _ he => he.expiry) hexp hr
    -- a session that has ended is within its capability
    have hfit : Fit host a b (.editAgent e.1 .stop) := by
      refine ⟨fun r hr => ?_, nofun⟩
      rw [hc.stopsAgent hr]
      exact hexp' e.1 r hr
    exact ⟨⟨hc.valid ha.sound ha.domestic hfit ha.valid, hc.chained ha.chained,
      hc.sound ha.sound, hc.domestic ha.sound ha.domestic⟩, hexp'⟩
  · rintro a b hp ⟨ha, hexp⟩ _
    refine ⟨⟨ha.valid, ?_, ha.sound, ha.domestic⟩, hexp⟩
    show Chained host b.auditKey a.state.audit
    rw [hp.advance.key]
    exact ha.chained

/-- **A STOP THAT TURNS ON** leaves a state valid. -/
theorem Switched.intact (h : Switched host true w w') (hw : Intact host w)
    (hready : Ready host w.auditKey w.state) : Intact host w' := by
  obtain ⟨v, u, hstopped, hu, hset, haudit, _⟩ := h.entry
  obtain ⟨agents, hv⟩ := hstopped.state
  have h1 := hstopped.intact hw hready.expiry
  have h2 : Intact host u := ⟨hset.valid h1.sound h1.domestic trivial h1.valid,
    hset.chained h1.chained, hset.sound h1.sound,
    hset.domestic h1.sound h1.domestic⟩
  have hfit : Fit host u w' (.audit (stopAction true)) := by
    intro _
    rw [hu, hv]
    exact hready.room (Bool.eq_false_iff.mpr h.changed)
  exact ⟨haudit.valid h2.sound h2.domestic hfit h2.valid,
    haudit.chained h2.chained, haudit.sound h2.sound,
    haudit.domestic h2.sound h2.domestic⟩

/-- **THE EMERGENCY STOP IS ALWAYS AVAILABLE**: after any run of saved
    requests the owner's stop returns, in memory; the state it leaves passes
    the checks of a save and its chain verifies, so that it is saved unless
    the file system fails; the flag is set and every session has expired. -/
theorem stop_always_available {owner : String} {w0 : World} {cs : List Call}
    (hrun : TreasuryRun host owner w0 cs w) (hcs : Saved cs)
    (hplain : KeepsDemoMerchant host) :
    ∃ value w', handle host owner (.ownerSetEmergencyStop true) w
        = .ok value w'
      ∧ validateState host w'.state = .ok ⟨⟩
      ∧ verifyAuditChain host w'.auditKey w'.state = .ok ⟨⟩
      ∧ (host.saveFault w'.saves = none → ∃ v, saveTo host w' = .ok ⟨⟩ v)
      ∧ w'.state.emergencyStop = true
      ∧ ∀ id r, w'.state.agents.get? id = some r →
        ∀ n, r.brokerSessionExpiresAt ≤ host.clock n := by
  have hready := hrun.ready hplain hcs
  obtain ⟨hkept, hfits⟩ := hrun.kept
  have hintact : Intact host w :=
    ⟨hready.valid, hready.chained, hrun.sound, hrun.domestic⟩
  have hroom : hasRoom w.state (stopAction true) := by
    refine ⟨rfl, ?_⟩
    have := (hkept.workable hfits).generation
    omega
  have hspec : wp (handle host owner (.ownerSetEmergencyStop true))
      (fun _ w' => Intact host w' ∧ KeyFits w'
        ∧ w'.state.emergencyStop = true
        ∧ ∀ id r, w'.state.agents.get? id = some r →
          r.brokerSessionExpiresAt = 0) (fun _ _ => False) w := by
    unfold handle
    rw [wp_bind]
    refine wp_of_run (hrun.ownerToken rfl) ?_
    refine wp_mono (wp_and (ownerEmergencyStop_spec (w := w))
      (ownerEmergencyStop_switches (w := w))) ?_ ?_
    -- the stop was active already, or takes every session now
    · rintro _ w' ⟨⟨hp, _⟩, ⟨rfl, hon⟩ | h⟩
      · exact ⟨hintact, hrun.keyFits, hon, hready.expired hon⟩
      · obtain ⟨hflag, _, hended, _⟩ := h.leaves hready.unstopped
        refine ⟨h.intact hintact hready, ?_, hflag, hended rfl⟩
        exact hp.invariant (I := fun v => KeyFits v)
          (fun _ _ _ _ hc hv => hc.keyFits hv) (fun _ _ _ _ hb => hb)
          hrun.keyFits
    · rintro _ _ ⟨_, _, hno⟩
      exact hno ⟨rfl, hroom⟩
  cases hx : handle host owner (.ownerSetEmergencyStop true) w with
  | error e w' => exact (wp_error hspec hx).elim
  | ok value w' =>
      obtain ⟨hi, hkey, hon, hended⟩ := wp_ok hspec hx
      have hvalid := validateState_ok.mpr hi.valid
      have hchain := verifyAuditChain_ok.mpr hi.chained
      refine ⟨value, w', rfl, hvalid, hchain, fun hfault => ?_, hon, ?_⟩
      · cases hs : saveTo host w' with
        | ok _ v => exact ⟨v, rfl⟩
        | error e v =>
            exact absurd ⟨hfault, hkey, hvalid, hchain⟩
              (wp_error saveTo_saves hs)
      · intro id r hr n
        rw [hended id r hr]
        exact host.clock_nonneg n

/-- An agent is created, the stop is turned on and off again, and the agent
    gets a new capability and creates an intent. -/
def resumedOpening (owner : String) : List Call :=
  [.persisted owner (.ownerCreateAgentPrepared "n" Policy.conservativeDemo
      .boundedAutonomous 3600 agentToken),
    .persisted owner (.ownerSetEmergencyStop true),
    .persisted owner (.ownerSetEmergencyStop false),
    .persisted owner (.ownerRotateAgentCapability (firstAgent stillHost) 3600
      agentToken),
    .persisted agentToken (.createPurchaseIntent smallPurchase)]

/-- A stop after a stop and a resumption ends the session that an agent has
    got since. -/
theorem stop_always_available_resumed :
    ∃ owner w0 w, TreasuryRun stillHost owner w0 (resumedOpening owner) w
      ∧ (w.state.agents.values.any fun r =>
          decide (stillHost.clock 0 < r.brokerSessionExpiresAt)) = true
      ∧ ∃ value w', handle stillHost owner (.ownerSetEmergencyStop true) w
          = .ok value w'
        ∧ validateState stillHost w'.state = .ok ⟨⟩
        ∧ verifyAuditChain stillHost w'.auditKey w'.state = .ok ⟨⟩
        ∧ (∃ v, saveTo stillHost w' = .ok ⟨⟩ v)
        ∧ w'.state.emergencyStop = true
        ∧ ∀ id r, w'.state.agents.get? id = some r →
          ∀ n, r.brokerSessionExpiresAt ≤ stillHost.clock n := by
  have h : tryRun stillHost ⟨100000, "CAD"⟩ resumedOpening
      (fun w => w.state.agents.values.any fun r =>
        decide (stillHost.clock 0 < r.brokerSessionExpiresAt)) = true := by
    decide +kernel
  obtain ⟨owner, w0, w, hrun, hlive⟩ := tryRun_run h
  have hcs : Saved (resumedOpening owner) := by
    intro c hc
    simp only [resumedOpening, List.mem_cons, List.not_mem_nil, or_false] at hc
    rcases hc with rfl | rfl | rfl | rfl | rfl <;> exact ⟨_, _, rfl⟩
  obtain ⟨value, w', hx, hvalid, hchain, hsave, hon, hended⟩ :=
    stop_always_available hrun hcs rfl
  exact ⟨owner, w0, w, hrun, hlive, value, w', hx, hvalid, hchain,
    hsave rfl, hon, hended⟩

end Treasury
