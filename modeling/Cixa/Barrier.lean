import Cixa.Decisions
import Cixa.Entries
import Cixa.Lives
import Cixa.Revocation

/-! # Barriers — what an emergency stop ends for good

    A stop that turns on gives every agent a NEW session, and no operation
    ever gives an agent an old one back.  So the intents that were there
    before it name sessions that no agent has any more, whatever follows.

    While the stop is on, every decision is a denial: nothing is executed,
    and a new intent has failed before it is stored. -/

namespace Treasury

open CixaData CixaHost Outcome Transition

variable {host : Host} {w w' v : World} {l : Label} {c : Call} {id : String}

/-! ## Renewed sessions -/

/-- Every agent has a session that was drawn since a world. -/
def Renewed (host : Host) (w v : World) : Prop :=
  ∀ id r, v.state.agents.get? id = some r →
    SessionIn host w v r.brokerSessionId

theorem SessionIn.widen {a b : World} {session : String}
    (h : SessionIn host a b session) (hwa : Advance w a) (hbv : Advance b v) :
    SessionIn host w v session :=
  h.imp (fun h => h.widen hwa hbv) (fun h => h.widen hwa hbv)

/-- **RENEWED SESSIONS STAY RENEWED**: whoever creates or edits an agent
    keeps its session or draws another. -/
theorem Change.renewed {a b : World} (h : Change host l a b)
    (hadv : Advance w a) (hw : Renewed host w a) : Renewed host w b := by
  have hab := h.advance
  have hold : ∀ id r, a.state.agents.get? id = some r →
      SessionIn host w b r.brokerSessionId := fun id r hr =>
    (hw id r hr).widen (.refl w) hab
  intro id r hr
  rcases h.agents with heq | ⟨id', _, _, r', _, _, hn, heq⟩
    | ⟨id', _, r0, r', _, hr0, he, heq⟩
  · exact hold id r (heq ▸ hr)
  · rw [heq, SortedMap.get?_insert] at hr
    split at hr
    · rw [← Option.some.inj hr]
      exact SessionIn.widen (Or.inl hn.session) hadv (.refl b)
    · exact hold id r hr
  · rw [heq, SortedMap.get?_insert] at hr
    split at hr
    · rw [← Option.some.inj hr]
      rcases he.session with hkeep | hnew
      · rw [hkeep]
        exact hold id' r0 hr0
      · exact hnew.widen hadv (.refl b)
    · exact hold id r hr

theorem Path.renewed {allowed : Label → Prop} {a b : World}
    (h : Path host allowed a b) (hadv : Advance w a) (hw : Renewed host w a) :
    Renewed host w b := by
  refine (h.invariant (I := fun v => Advance w v ∧ Renewed host w v) ?_ ?_
    ⟨hadv, hw⟩).2
  · rintro l c d _ hc ⟨ha, hr⟩
    exact ⟨ha.trans hc.advance, hc.renewed ha hr⟩
  · rintro c d hp ⟨ha, hr⟩ _
    have hcd := hp.advance
    exact ⟨ha.trans (hcd.restore), fun id r hget =>
      (hr id r hget).widen (.refl w) (hcd.restore)⟩

/-! ## A stop that turns on -/

theorem handle_stops {token : String} :
    wp (handle host token (.ownerSetEmergencyStop true))
      (fun _ w' => Advance w w' ∧ Stops host w w')
      (fun _ w' => Advance w w' ∧ Stops host w w') w := by
  have h0 : ∀ {a}, Quiet w a → Advance w a ∧ Stops host w a := by
    intro a ha
    refine ⟨ha.toAdvance, fun hoff hon => ?_⟩
    rw [ha.state, hoff] at hon
    exact nomatch hon
  unfold handle
  refine line_quiet (authenticate_quietly token) (fun _ _ h => h0 h) ?_
  intro actor a ha
  have hback : ∀ w', Path host (permits actor (.ownerSetEmergencyStop true))
      a w' ∧ Stops host a w' → Advance w w' ∧ Stops host w w' := by
    rintro w' ⟨hp, hstops⟩
    refine ⟨ha.toAdvance.trans hp.advance, fun hoff hon => ?_⟩
    obtain ⟨hintents, hagents⟩ := hstops (ha.state ▸ hoff) hon
    refine ⟨hintents.trans (congrArg _ ha.state), fun id r hr => ?_⟩
    obtain ⟨hid, hzero⟩ := hagents id r hr
    exact ⟨hid.widen ha.toAdvance (.refl w'), hzero⟩
  exact wp_mono ownerEmergencyStop_spec (fun _ w' h => hback w' h)
    (fun _ w' h => hback w' h)

/-- **A STOP THAT TURNS ON** renews every session, however the call ends. -/
theorem stop_renews {token : String}
    (hc : c.asks = some (token, .ownerSetEmergencyStop true))
    (hoff : w.state.emergencyStop = false)
    (hon : (exec host c w).state.emergencyStop = true) :
    Advance w (exec host c w) ∧ Renewed host w (exec host c w) := by
  have hspec : wp (c.perform host)
      (fun _ w' => Advance w w' ∧ Stops host w w')
      (fun _ w' => Advance w w' ∧ Stops host w w') w := by
    cases c with
    | request token' request =>
        cases hc
        exact handle_stops
    | persisted token' request =>
        cases hc
        refine handleSaved_spec handle_stops (fun _ h _ => h) ?_ ?_
        · rintro a b ⟨ha, hstops⟩ hp
          have hs := saving_state hp
          refine ⟨ha.trans hp.advance, fun hoff hon => ?_⟩
          rw [hs] at hon ⊢
          obtain ⟨hintents, hagents⟩ := hstops hoff hon
          refine ⟨hintents, fun id r hr => ?_⟩
          obtain ⟨hid, hzero⟩ := hagents id r hr
          exact ⟨hid.widen (.refl w) hp.advance, hzero⟩
        · rintro a b ⟨ha, _⟩ hp
          refine ⟨(ha.trans hp.advance).restore, fun hoff hon => ?_⟩
          exact nomatch hoff.symm.trans hon
    | _ => exact nomatch hc
  obtain ⟨hadv, hstops⟩ := wp_final.mp hspec
  exact ⟨hadv, fun id r hr => Or.inr ((hstops hoff hon).2 id r hr).1⟩

/-! ## While the stop is on -/

/-- The guards of a creation turn no denial into anything else. -/
theorem guarded_undenied {s : TreasuryState} {d : PolicyDecision}
    {duplicate : Bool}
    (h : Undenied (guardManual s (guardDuplicate duplicate d))) :
    Undenied d := by
  have hdup : ∀ {d : PolicyDecision}, Undenied (guardDuplicate duplicate d) →
      Undenied d := by
    intro d h
    unfold guardDuplicate at h
    split at h
    · rename_i hallowed
      exact Or.inl hallowed.2
    · exact h
  unfold guardManual at h
  split at h
  · rename_i hboth
    exact hdup hboth.2
  · exact hdup h

/-- A reservation means that the stop is off. -/
theorem Reservable.running {i : PurchaseIntent} {r : AgentRecord} {p : Policy}
    (h : Reservable host w w' i r p) : w.state.emergencyStop = false := by
  obtain ⟨_, _, _, _, _, _, hpassed⟩ := h.passed
  exact hpassed.running

/-- **BORN FAILED**: a new intent is denied while the stop is on. -/
theorem NewIntent.failed {i : PurchaseIntent} (h : NewIntent host w w' i)
    (hstop : w.state.emergencyStop = true) : i.state = .failed := by
  obtain ⟨r, p, _, _, _, _, used, d, k, w1, w2, _, _, _, hrun, hdecision⟩ :=
    h.agent
  obtain ⟨⟨_, _, hchecked⟩, hreasoned⟩ :=
    wp_ok (wp_and (decideRequest_spec w1) decideRequest_reasoned) hrun
  have hdenied : ¬Undenied i.decision := by
    intro hu
    rw [hdecision] at hu
    have hrunning := (hchecked (guarded_undenied hu)).1.running
    exact nomatch hstop.symm.trans hrunning
  obtain ⟨hno, hask⟩ := not_or.mp hdenied
  have hreasons : i.decision.reasons ≠ [] := by
    rw [hdecision] at hno ⊢
    exact (guard_reasoned hreasoned).resolve_left hno
  rw [h.state, stateOfDecision, if_pos ⟨hreasons, Bool.eq_false_iff.mpr hask⟩]

/-- What is stored since a world has failed. -/
def StillBorn (w v : World) : Prop :=
  ∀ id i, v.state.intents.get? id = some i →
    w.state.intents.get? id = none → i.state = .failed

theorem Change.stillBorn {a b : World} (h : Change host l a b)
    (hl : (∀ id, l ≠ .addIntent id) ∨ a.state.emergencyStop = true)
    (hw : StillBorn w a) : StillBorn w b := by
  intro id i hi hnone
  cases h.origin hi with
  | kept hi => exact hw id i hi hnone
  | new heq _ hn =>
      rcases hl with hno | hstop
      · exact absurd heq (hno id)
      · exact hn.failed hstop
  | next hi _ _ hm =>
      refine absurd ?_ hm.not_dead
      rw [hw id _ hi hnone]
      decide

/-- Labels that add no intent, or leave the flag of the stop alone. -/
def Unmixed (allowed : Label → Prop) : Prop :=
  (∀ id, ¬allowed (.addIntent id)) ∨ (∀ stopped, ¬allowed (.setStop stopped))

theorem Path.stillBorn {allowed : Label → Prop} (h : Path host allowed w w')
    (hl : Unmixed allowed) (hstop : w.state.emergencyStop = true) :
    StillBorn w w' := by
  refine (h.invariant (I := fun v => ((∀ stopped, ¬allowed (.setStop stopped)) →
    v.state.emergencyStop = true) ∧ StillBorn w v) ?_ ?_ ⟨fun _ => hstop,
      fun id i hi hnone => ?_⟩).2
  · rintro l a b hlabel hc ⟨ha, hborn⟩
    refine ⟨fun hset => ?_, hc.stillBorn ?_ hborn⟩
    · rcases hc.flag with heq | hflag
      · exact heq.trans (ha hset)
      · exact absurd (hflag ▸ hlabel) (hset _)
    · refine hl.imp (fun hadd id heq => hadd id (heq ▸ hlabel)) ha
  · exact fun a b _ ha _ => ha
  · rw [hnone] at hi
    exact nomatch hi

/-- No request both creates an intent and sets the flag. -/
theorem permits_unmixed (actor : Actor) (request : Request) :
    Unmixed (Allowed actor request) := by
  cases request with
  | createPurchaseIntent request =>
      exact Or.inr fun stopped hl => hl.elim (fun h => h) (fun h => h)
  | _ => exact Or.inl fun id hl => hl.elim (fun h => h) (fun h => h)

/-- What a call stores while the stop is on has failed. -/
theorem Behaves.stillBorn (h : Behaves host w w' c)
    (hstop : w.state.emergencyStop = true) : StillBorn w w' := by
  cases h with
  | attempt _ ha =>
      exact ha.path.stillBorn (Or.inl fun id hl =>
        hl.elim (fun h => h) (fun h => h)) hstop
  | recovery hr => exact hr.path.stillBorn (Or.inl fun id hl => hl) hstop
  | ordinary _ _ ho =>
      cases ho with
      | refused hp => exact hp.stillBorn (Or.inl fun id hl => hl) hstop
      | @served actor _ hp => exact hp.stillBorn (permits_unmixed actor _) hstop

/-! ## Barriers -/

/-- **THE EMERGENCY STOP IS A BARRIER.**  After a stop that turned on in any
    reachable world, no intent stored before it is ever executed, whatever
    calls follow, the stop turned off again or not.  And in any reachable
    world where the stop is on, no call executes any intent, and each intent
    that a call adds has failed. -/
theorem stop_is_a_barrier {owner : String} {w0 : World} {cs : List Call}
    (hrun : TreasuryRun host owner w0 cs w) :
    (∀ token stop ds v, stop.asks = some (token, .ownerSetEmergencyStop true) →
      w.state.emergencyStop = false →
      (exec host stop w).state.emergencyStop = true →
      Fits (exec host stop w) → Calls host (exec host stop w) ds v →
      FreshBelow host v.drawn → ∀ id i, w.state.intents.get? id = some i →
        ∀ c, ¬Enters v (exec host c v) id)
      ∧ (w.state.emergencyStop = true → ∀ c,
        (∀ id, ¬Enters w (exec host c w) id)
          ∧ ∀ id i, (exec host c w).state.intents.get? id = some i →
            w.state.intents.get? id = none → i.state = .failed) := by
  obtain ⟨hk, hf⟩ := hrun.kept
  have hwork := hk.workable hf
  constructor
  · intro token stop ds v hasks hoff hon hfit hcalls hfresh id i hi c henters
    have hbehaves : Behaves host w _ stop := exec_behaves hwork stop
    obtain ⟨hadv, hrenewed⟩ := stop_renews hasks hoff hon
    obtain ⟨hkv, hfv, hadv', hrenewed', hpath⟩ := hcalls.invariant
      (hbehaves.path.kept hk) hfit
      (I := fun v => Advance w v ∧ Renewed host w v ∧ Path host anyLabel w v)
      ⟨hadv, hrenewed, hbehaves.path⟩ (fun _ _ _ _ hb ⟨ha, hr, hp⟩ =>
        ⟨ha.trans hb.path.advance, hb.path.renewed ha hr, hp.trans hb.path⟩)
    obtain ⟨i', r, p, b, hi', _, _, hr, _⟩ :=
      henters.rightful (hkv.workable hfv)
    -- the intent still names the session it was created under
    obtain ⟨j, hj, hcontinues⟩ :=
      (hpath.persists hfresh (Nat.le_refl _) hrun.idsDrawn).2 id i hi
    obtain rfl : i' = j := Option.some.inj (hi'.symm.trans hj)
    refine (hrenewed' _ r hr.agent).ne_before hfresh
      (hrun.allDrawn.intents id i hi) ?_
    rw [← hcontinues.brokerSessionId, hr.session]
  · intro hstop c
    have hbehaves : Behaves host w (exec host c w) c := exec_behaves hwork c
    refine ⟨fun id henters => ?_, hbehaves.stillBorn hstop⟩
    obtain ⟨i, r, p, b, _, _, _, hr, _⟩ := henters.rightful hwork
    exact nomatch hstop.symm.trans hr.running

/-- The owner turns the stop on or off. -/
def setStop (host : Host) (stopped : Bool) : Call :=
  .request (bootstrapToken host) (.ownerSetEmergencyStop stopped)

/-- The owner arms the agent of `opening` again. -/
def armFirst (host : Host) : Call :=
  .request (bootstrapToken host) (.ownerArmAgentSession (firstAgent host) 60)

/-- The owner stops everything, resumes and arms the agent again: the intent
    from before is never executed. -/
theorem stop_is_a_barrier_resumed :
    ∃ owner w0 w v, TreasuryRun stillHost owner w0 (opening smallPurchase owner) w
      ∧ Calls stillHost (exec stillHost (setStop stillHost true) w)
        [setStop stillHost false, armFirst stillHost] v
      ∧ v.state.emergencyStop = false
      ∧ ∀ c, ¬Enters v (exec stillHost c v) (firstIntent stillHost) := by
  have h : tryRun stillHost ⟨100000, "CAD"⟩ (opening smallPurchase)
      (fun w =>
        let u := exec stillHost (setStop stillHost true) w
        let u' := exec stillHost (setStop stillHost false) u
        let v := exec stillHost (armFirst stillHost) u'
        decide (w.state.emergencyStop = false ∧ u.state.emergencyStop = true)
          && (decide (Fits u ∧ Fits u' ∧ Fits v ∧ v.drawn ≤ 100)
          && (decide (v.state.emergencyStop = false
              ∧ Succeeds stillHost (armFirst stillHost) u')
          && (w.state.intents.get? (firstIntent stillHost)).isSome))) = true := by
    decide +kernel
  obtain ⟨owner, w0, w, hrun, hcheck⟩ := tryRun_run h
  rw [Bool.and_eq_true, Bool.and_eq_true, Bool.and_eq_true] at hcheck
  obtain ⟨hflags, hfits, hresumed, hstored⟩ := hcheck
  obtain ⟨hoff, hon⟩ := of_decide_eq_true hflags
  obtain ⟨hfitu, hfitu', hfitv, hdrawn⟩ := of_decide_eq_true hfits
  obtain ⟨i, hi⟩ := Option.isSome_iff_exists.mp hstored
  have hcalls : Calls stillHost (exec stillHost (setStop stillHost true) w)
      [setStop stillHost false, armFirst stillHost] _ :=
    .snoc _ (.snoc _ .nil hfitu') hfitv
  refine ⟨owner, w0, w, _, hrun, hcalls, (of_decide_eq_true hresumed).1, ?_⟩
  exact (stop_is_a_barrier hrun).1 (bootstrapToken stillHost) _ _ _ rfl hoff hon
    hfitu hcalls (plainHost_fresh (Nat.le_trans hdrawn (by decide))) _ i hi

end Treasury
