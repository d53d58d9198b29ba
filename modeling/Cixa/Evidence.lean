import Cixa.Gate
import Cixa.Release

/-! # Evidence — what a payment by card is worth until the owner looks

    A browser may report anything: that it paid, that the card was declined,
    that the shop is still thinking.  None of it is evidence.  Of a card that
    the owner keeps, an agent's request never leaves an intent settled,
    declined, refunded or pending with a provider, and books nothing but the
    reservation of its own funds; the outcome stays UNKNOWN until the owner
    reconciles it. -/

namespace Treasury

open CixaData CixaHost Outcome Transition Admission Codec

variable {host : Host} {ctx : ServeContext} {d d' : Daemon} {i : Nat}
  {r : Readings} {t : Thread} {w w' : World} {q : RpcRequest} {c : Call}
  {l : Label} {id : String}

/-! ## What is not concluded -/

/-- Whether a state tells what came of a payment. -/
def tellsOutcome : TransactionState → Bool
  | .settled => true
  | .declined => true
  | .refunded => true
  | .providerPending => true
  | _ => false

/-- The same intents tell an outcome before and after, as they are, and the
    ledger holds nothing new but reservations. -/
structure NothingConcluded (s s' : TreasuryState) : Prop where
  intents : ∀ id i, tellsOutcome i.state = true →
    (s'.intents.get? id = some i ↔ s.intents.get? id = some i)
  ledger : ∃ events, s'.ledger = s.ledger ++ events
    ∧ ∀ e ∈ events, e.kind = .holdReserved

namespace NothingConcluded

variable {s s' s'' : TreasuryState}

theorem same (hi : s'.intents = s.intents) (hl : s'.ledger = s.ledger) :
    NothingConcluded s s' where
  intents := fun _ _ _ => by rw [hi]
  ledger := ⟨[], by rw [hl, List.append_nil], fun _ he => (by cases he)⟩

theorem trans (h : NothingConcluded s s') (h' : NothingConcluded s' s'') :
    NothingConcluded s s'' where
  intents := fun id i htells =>
    (h'.intents id i htells).trans (h.intents id i htells)
  ledger := by
    obtain ⟨es, hes, hheld⟩ := h.ledger
    obtain ⟨es', hes', hheld'⟩ := h'.ledger
    refine ⟨es ++ es', by rw [hes', hes, List.append_assoc], fun e he => ?_⟩
    rcases List.mem_append.mp he with he | he
    · exact hheld e he
    · exact hheld' e he

/-- Storing an intent that tells no outcome in the place of none that does. -/
theorem stored {i : PurchaseIntent} (hi : s'.intents = s.intents.insert id i)
    (hl : s'.ledger = s.ledger) (hno : tellsOutcome i.state = false)
    (hold : ∀ j, s.intents.get? id = some j → tellsOutcome j.state = false) :
    NothingConcluded s s' where
  intents := by
    intro id' j htells
    rw [hi, SortedMap.get?_insert]
    split
    · rename_i hid
      constructor
      · rintro ⟨⟩
        cases hno.symm.trans htells
      · intro hj
        cases (hold j (hid ▸ hj)).symm.trans htells
    · exact Iff.rfl
  ledger := ⟨[], by rw [hl, List.append_nil], fun _ he => (by cases he)⟩

end NothingConcluded

/-- The labels of what concludes nothing, of the intents there are. -/
def Inconclusive : Label → Prop
  | .quiet => True
  | .audit _ => True
  | .write => True
  | .reserve _ => True
  | .submit _ => True
  | .move _ next => next ≠ .unknown
  | _ => False

/-- **WHAT CONCLUDES NOTHING**: an intent is reserved, approved or
    cancelled. -/
theorem Change.inconclusive (h : Change host l w w') (hl : Inconclusive l) :
    NothingConcluded w.state w'.state := by
  cases h with
  | quiet h =>
      rw [h.state]
      exact .same rfl rfl
  | audit _ _ hs _ =>
      rw [hs]
      exact .same rfl rfl
  | reserve _ hi hr hh _ _ hs _ =>
      rw [hs]
      have hheld : NothingConcluded w.state (w.state.withEvents [_]) :=
        ⟨fun _ _ _ => Iff.rfl, [_], rfl, fun e he => by
          rw [List.mem_singleton.mp he]
          exact hh.kind⟩
      refine hheld.trans (.stored rfl rfl rfl fun j hj => ?_)
      obtain rfl := Option.some.inj (hi.symm.trans hj)
      rcases hr.executable with hx | hx
      · rw [hx]
        rfl
      · rw [hx]
        rfl
  | @move _ _ i next _ _ _ hi hm _ hs _ =>
      rw [hs]
      have hnext : (next = .approved ∨ next = .cancelled)
          ∧ i.state.canTransition next = true := by
        rcases hm with ⟨hcan, hn | hn | hn⟩ | ⟨_, hn⟩
        · exact ⟨Or.inl hn, hcan⟩
        · exact ⟨Or.inr hn, hcan⟩
        · exact absurd hn hl
        · exact absurd hn hl
      -- what is approved or cancelled was waiting for it
      have hwaiting : tellsOutcome i.state = false := by
        obtain ⟨rfl | rfl, hcan⟩ := hnext
        · cases hx : i.state <;> rw [hx] at hcan <;>
            first | rfl | exact nomatch hcan
        · cases hx : i.state <;> rw [hx] at hcan <;>
            first | rfl | exact nomatch hcan
      refine .stored rfl rfl ?_ fun j hj => ?_
      · rcases hnext.1 with rfl | rfl
        · rfl
        · rfl
      · obtain rfl := Option.some.inj (hi.symm.trans hj)
        exact hwaiting
  | writeKey _ hs _ _ =>
      rw [hs]
      exact .same rfl rfl
  | writeState _ hs _ _ _ =>
      rw [hs]
      exact .same rfl rfl
  | submit _ hs _ _ _ =>
      rw [hs]
      exact .same rfl rfl
  | _ => exact False.elim hl

/-- A new intent with a fresh id replaces none, and tells no outcome. -/
theorem Change.created_inconclusive (h : Change host (.addIntent id) w w')
    (hids : IdsDrawn host w) (hfresh : FreshBelow host w'.drawn) :
    NothingConcluded w.state w'.state := by
  cases h with
  | addIntent _ hn _ hs _ =>
      rw [hs]
      refine .stored rfl rfl ?_ fun j hj => ?_
      · rw [hn.state]
        unfold stateOfDecision
        split
        · rfl
        · split
          · rfl
          · rfl
      · exact absurd rfl (hn.id.ne_before hfresh (hids _ j hj))

theorem Path.inconclusive {allowed : Label → Prop}
    (h : Path host allowed w w') (hl : ∀ l, allowed l → Inconclusive l) :
    NothingConcluded w.state w'.state :=
  h.invariant (I := fun v => NothingConcluded w.state v.state)
    (fun l _ _ ha hc hI => hI.trans (hc.inconclusive (hl l ha)))
    (fun _ _ _ hI _ => hI) (.same rfl rfl)

/-- The same along a path that may add intents with fresh ids. -/
theorem Path.creates_inconclusive {allowed : Label → Prop}
    (h : Path host allowed w w')
    (hl : ∀ l, allowed l → Inconclusive l ∨ ∃ id, l = .addIntent id)
    (hids : IdsDrawn host w) (hfresh : FreshBelow host w'.drawn) :
    NothingConcluded w.state w'.state := by
  refine (h.invariant (I := fun v => v.drawn ≤ w'.drawn → IdsDrawn host v
    ∧ NothingConcluded w.state v.state) ?_ ?_
    (fun _ => ⟨hids, .same rfl rfl⟩) (Nat.le_refl _)).2
  · intro l a b ha hc hI hb
    obtain ⟨hdrawn, hnone⟩ := hI (Nat.le_trans hc.advance.drawn hb)
    refine ⟨hc.idsDrawn hdrawn, hnone.trans ?_⟩
    rcases hl l ha with hl | ⟨id, rfl⟩
    · exact hc.inconclusive hl
    · exact hc.created_inconclusive hdrawn (hfresh.mono hb)
  · intro a b hp hI _ hr
    obtain ⟨hdrawn, hnone⟩ := hI (Nat.le_trans hp.advance.drawn hr)
    exact ⟨hdrawn.restore hp.advance, hnone⟩

theorem inconclusive_saving (l : Label) (h : Saving l) : Inconclusive l := by
  cases l <;> trivial

theorem inconclusive_before (l : Label) (h : BeforeSubmit l) :
    Inconclusive l := by
  cases l <;> trivial

/-! ## A checkout -/

/-- A state whose intents are stored under their ids, after one in which
    nothing else was concluded. -/
structure Undecided (s s' : TreasuryState) : Prop where
  keyed : Keyed s'
  nothing : NothingConcluded s s'

namespace Undecided

variable {s s' : TreasuryState}

/-- The next state of a stored intent that told no outcome. -/
theorem next {i j : PurchaseIntent} (h : Undecided s s')
    (hi : s'.intents.get? id = some i) (hold : tellsOutcome i.state = false)
    (hid : j.id = i.id) (hno : tellsOutcome j.state = false) :
    Undecided s (s'.withIntent j.id j) := by
  have hkey : i.id = id := h.keyed id i hi
  refine ⟨h.keyed.insert rfl, h.nothing.trans (.stored rfl rfl hno ?_)⟩
  intro k hk
  rw [hid, hkey, hi] at hk
  cases hk
  exact hold

theorem entry (h : Undecided s s') (e : AuditEntry) :
    Undecided s (s'.withEntry e) := ⟨h.keyed, h.nothing.trans (.same rfl rfl)⟩

end Undecided

/-- A quarantine leaves its intent unknown. -/
theorem quarantine_inconclusive {reason : String} {s : TreasuryState}
    (h : Undecided s w.state) :
    wp (quarantineExecution host id reason)
      (fun _ w' => Undecided s w'.state) (fun _ w' => Undecided s w'.state)
      w := by
  unfold quarantineExecution
  rw [wp_bind, wp_readState]
  refine line_orReject (fun _ => h) fun i hi => ?_
  rw [wp_ite, wp_pure]
  refine ⟨fun hstate => ?_, fun _ => h⟩
  refine line (P := fun j a => a.state = w.state ∧ j.id = i.id
    ∧ j.state = .unknown) ?_ ?_
  · unfold enterUnknown
    rw [wp_ite, wp_pure]
    constructor
    · intro _
      exact wp_transition (fun _ => h) fun _ => ⟨rfl, rfl, rfl⟩
    · intro hx
      exact ⟨rfl, rfl, hstate.resolve_left hx⟩
  rintro j a ⟨hs, hid, hj⟩
  rw [wp_bind, wp_storeIntent]
  have hold : tellsOutcome i.state = false := by
    rcases hstate with hx | hx
    · rw [hx]
      rfl
    · rw [hx]
      rfl
  have hstored := (hs ▸ h).next (hs ▸ hi) hold
    (j := { j with lastError := some "provider_execution_error" }) hid
    (by show tellsOutcome j.state = _; rw [hj]; rfl)
  exact wp_audit (fun _ => hstored) fun _ => hstored.entry _

/-- An outcome that is not known leaves its intent unknown. -/
theorem unknown_inconclusive {agentId reason : String} {s : TreasuryState}
    (h : Undecided s w.state) :
    wp (applyProviderOutcome host agentId id (.unknown reason))
      (fun _ w' => Undecided s w'.state) (fun _ w' => Undecided s w'.state)
      w := by
  unfold applyProviderOutcome
  rw [wp_bind, wp_readState]
  refine line_lift (fun _ => h) fun i hi => ?_
  refine line_rejectIf (fun _ => h) fun hexecuting => ?_
  refine line (P := fun p a => a.state = w.state ∧ p.1.id = i.id
    ∧ p.1.state = .unknown) ?_ ?_
  · unfold concludeIntent
    refine line (P := fun j a => a.state = w.state ∧ j.id = i.id
      ∧ j.state = .unknown) ?_ ?_
    · exact wp_transition (fun _ => h) fun _ => ⟨rfl, rfl, rfl⟩
    rintro j a ha
    rw [wp_pure]
    exact ha
  rintro ⟨j, response⟩ a ⟨hs, hid, hj⟩
  dsimp only at hid hj ⊢
  rw [wp_bind]
  refine wp_audit (fun _ => hs ▸ h) fun _ => ?_
  rw [wp_bind, wp_storeIntent, wp_pure]
  refine Undecided.next ((hs ▸ h : Undecided s a.state).entry _)
    (hs ▸ (intentForAgent_ok.mp hi).1) ?_ hid ?_
  · rw [not_not.mp hexecuting]
    rfl
  · rw [hj]
    rfl

/-- An executor that cannot tell what came of a payment. -/
def Clueless (executor : CheckoutExecutor) : Prop :=
  ∀ i outcome, executor.submitOnce i = .ok outcome →
    ∃ reason, outcome = .unknown reason

theorem submitAndSave_inconclusive {x : Op Json} {s : TreasuryState}
    (hx : wp x (fun _ v => Undecided s v.state) (fun _ v => Undecided s v.state)
      w) :
    wp (submitAndSave host id x) (fun _ v => Undecided s v.state)
      (fun _ v => Undecided s v.state) w := by
  have hsave : ∀ v : World, Undecided s v.state →
      wp (saveTo host) (fun _ v => Undecided s v.state)
        (fun _ v => Undecided s v.state) v := by
    intro v hv
    refine wp_mono saveTo_spec (fun _ u h => ?_) (fun _ u h => ?_)
    · rw [h.2.1]
      exact hv
    · rw [h.2]
      exact hv
  unfold submitAndSave
  rw [wp_bind, wp_attempt]
  refine wp_mono hx ?_ ?_
  · intro value v hv
    dsimp only
    refine line (hsave v hv) fun _ u hu => ?_
    rw [wp_pure]
    exact hu
  · intro e v hv
    dsimp only
    refine line (quarantine_inconclusive hv) fun _ u hu => ?_
    refine line (hsave u hu) fun _ u' hu' => ?_
    rw [wp_throw]
    exact hu'

/-- **A CHECKOUT WITHOUT EVIDENCE** concludes nothing. -/
theorem executeControlled_inconclusive {token : String}
    {executor : CheckoutExecutor} (hw : Workable w.state)
    (hexec : Clueless executor) :
    wp (executeControlledCheckoutPersisted host token id executor)
      (fun _ v => NothingConcluded w.state v.state)
      (fun _ v => NothingConcluded w.state v.state) w := by
  have h0 : ∀ {v : World}, Quiet w v → NothingConcluded w.state v.state := by
    intro v hq
    rw [hq.state]
    exact .same rfl rfl
  unfold executeControlledCheckoutPersisted
  rw [wp_bind, wp_readState]
  refine line_quiet (authenticate_quietly token) (fun _ _ h => h0 h) ?_
  intro actor a ha
  have hstart := h0 ha
  refine line_lift (fun _ => hstart) fun agentId _ => ?_
  refine line_orReject (fun _ => hstart) fun _ _ => ?_
  refine line_rejectIf (fun _ => hstart) fun _ => ?_
  refine line_orReject (fun _ => hstart) fun _ _ => ?_
  refine line_rejectIf (fun _ => hstart) fun _ => ?_
  refine line_rejectIf (fun _ => hstart) fun _ => ?_
  refine line_lift (fun _ => hstart) fun _ _ => ?_
  have hwork : Workable a.state := ha.state ▸ hw
  -- before the reservation, before the submission, and after it
  refine handOver_reaches hwork rfl ?_ ?_ ?_
  · intro e v hq
    exact h0 (ha.trans hq)
  · intro e b v hr hp
    exact hstart.trans ((hr.inconclusive trivial).trans
      (hp.inconclusive inconclusive_before))
  · intro b c i hr hp _ _ hkeyed _ _
    have hc : Undecided w.state c.state :=
      ⟨hkeyed, hstart.trans ((hr.inconclusive trivial).trans
        (hp.inconclusive inconclusive_before))⟩
    refine wp_mono (submitAndSave_inconclusive ?_)
      (fun _ _ h => h.nothing) (fun _ _ h => h.nothing)
    unfold submitThrough
    rw [wp_bind, wp_record]
    refine line_lift (fun _ => hc) fun outcome hans => ?_
    -- the executor has no other answer than that it does not know
    obtain ⟨reason, rfl⟩ := hexec i outcome hans
    exact unknown_inconclusive hc

/-- What an executor returns its transport returned. -/
theorem submitOnce_returned {answers : HandoffAnswers} {h : Handoff}
    {intent : PurchaseIntent} {outcome : ProviderOutcome}
    (hres : result (submitOnce host answers intent) h = .ok outcome) :
    ∃ request secret, answers.submit request secret = .ok outcome := by
  suffices hwp : wp (submitOnce host answers intent) (fun outcome _ =>
      ∃ request secret, answers.submit request secret = .ok outcome)
      (fun _ _ => True) h from (wp_iff.mp hwp).1 outcome hres
  unfold submitOnce
  rw [wp_bind, wp_get]
  refine line_rejectIf (fun _ => trivial) fun _ => ?_
  refine line_lift (fun _ => trivial) fun u hu => ?_
  have hreq : intent.request = h.executor.expectedRequest :=
    not_not.mp (Checks.refuseIf_eq_ok.mp hu)
  rw [wp_bind, wp_modify, wp_bind, wp_attempt]
  refine wp_mono (submitSecret_spec ⟨rfl, rfl, rfl⟩ hreq) ?_ ?_
  · rintro o v ⟨_, _, secret, _, hans, _⟩
    unfold note
    rw [wp_bind, wp_modify]
    cases answers.cleanup with
    | error e => exact (wp_throw _).mpr trivial
    | ok u => exact (wp_pure _).mpr ⟨_, secret, hans⟩
  · intro e v _
    unfold note
    rw [wp_bind, wp_modify]
    exact (wp_throw _).mpr trivial

/-- **A BROWSER IS CLUELESS**: whatever its process prints. -/
theorem PlaywrightCheckoutTransport.submit_unknown
    {transport : PlaywrightCheckoutTransport} {serde : SerdeJson}
    {process : List UInt8 → Except TreasuryError (Bool × List UInt8)}
    {request : PurchaseRequest} {secret : VolatileSecret}
    {outcome : ProviderOutcome}
    (h : transport.submit serde process request secret = .ok outcome) :
    ∃ reason, outcome = .unknown reason := by
  unfold PlaywrightCheckoutTransport.submit at h
  simp only [Checks.bind_eq_ok, Checks.pure_eq_ok] at h
  obtain ⟨_, _, _, _, _, _, ⟨success, output⟩, _, _, _, _, _, rfl⟩ := h
  exact ⟨_, rfl⟩

/-! ## An agent's call -/

/-- A request of an agent adds an intent, or concludes nothing. -/
theorem inconclusive_permits {actor : Actor} {op : Request}
    (h : op.requiresOwner = false) (hl : permits actor op l) :
    Inconclusive l ∨ ∃ id, l = .addIntent id := by
  cases l with
  | addIntent id => exact Or.inr ⟨id, rfl⟩
  | move id next =>
      refine Or.inl ?_
      cases op with
      | cancelPurchaseIntent _ =>
          obtain ⟨_, rfl⟩ := hl
          exact nofun
      | _ => first | exact hl.elim | cases h
  | _ =>
      refine Or.inl ?_
      cases op <;> trivial

/-- Of a card, an execution is refused at once. -/
theorem executePersisted_refused {token : String}
    (hm : w.state.providerMode = .manualPrepaidCard) :
    (exec host (.persisted token (.executePurchaseIntent id)) w).state
      = w.state := by
  unfold exec
  refine (wp_final (P := fun v : World => v.state = w.state)).mp ?_
  show wp (executePersisted host token id) _ _ w
  unfold executePersisted
  rw [wp_bind, wp_readState]
  exact line_rejectIf (fun _ => rfl) fun hno => absurd hm hno

/-- The executor of a frame does not know what came of a payment. -/
theorem Makes.clueless {executor : CheckoutExecutor} {token : String}
    (h : Makes ctx t q (.controlled token id executor)) : Clueless executor := by
  cases h with
  | @controlled _ handoff answers runtime s r _ _ hprep =>
      intro i outcome hans
      obtain ⟨request, secret, hsub⟩ := submitOnce_returned hans
      unfold ControlledCheckoutRuntime.prepare at hprep
      simp only [Checks.bind_eq_ok, Checks.pure_eq_ok] at hprep
      obtain ⟨_, _, config, _, _, _, _, _, _, _, _, _, _, _, _, _, _, _, _, _,
        heq⟩ := hprep
      obtain ⟨rfl, rfl⟩ := Prod.mk.inj heq
      exact PlaywrightCheckoutTransport.submit_unknown hsub

/-- **AN AGENT'S CALL CONCLUDES NOTHING** of a card. -/
theorem Makes.inconclusive (h : Makes ctx t q c)
    (hchannel : t.ownerChannel = false) (hw : Workable w.state)
    (hm : w.state.providerMode = .manualPrepaidCard)
    (hids : IdsDrawn ctx.host w)
    (hfresh : FreshBelow ctx.host (exec ctx.host c w).drawn) :
    NothingConcluded w.state (exec ctx.host c w).state := by
  cases c with
  | controlled token id executor =>
      exact (wp_final (P := fun v : World =>
        NothingConcluded w.state v.state)).mp
          (executeControlled_inconclusive hw h.clueless)
  | persisted token op =>
      cases h with
      | persisted _ hagent =>
          have howner := hagent hchannel
          -- a request that executes is refused in memory, for there is a card
          cases hx : executes q.operation with
          | none =>
              have hbehaves : Behaves ctx.host w _ _ :=
                exec_behaves hw (.persisted q.token q.operation)
              cases hbehaves with
              | attempt hc _ =>
                  cases hc.symm.trans hx
              | ordinary hasks _ ho =>
                  cases hasks
                  cases ho with
                  | refused hp => exact hp.inconclusive inconclusive_saving
                  | served _ hp =>
                      refine hp.creates_inconclusive (fun l hl => ?_) hids
                        hfresh
                      rcases hl with hl | hl
                      · exact inconclusive_permits howner hl
                      · exact Or.inl (inconclusive_saving l hl)
          | some id =>
              have hop : q.operation = .executePurchaseIntent id := by
                cases hq : q.operation with
                | executePurchaseIntent id' =>
                    rw [hq] at hx
                    cases hx
                    rfl
                | ownerBeginManualHandoff id' =>
                    rw [hq] at howner
                    cases howner
                | _ =>
                    rw [hq] at hx
                    cases hx
              rw [hop, executePersisted_refused hm]
              exact .same rfl rfl
  | _ => cases h

/-- Every intent of a daemon's treasury has an id that was drawn. -/
theorem Serves.idsDrawn {owner : String} {w0 : World} {cs : List Call}
    {at_ : Int} {instant : Nat} {acts : List Daemon.Action}
    (hrun : TreasuryRun ctx.host owner w0 cs w)
    (hd : Serves ctx (.serve w at_ instant) acts d) :
    IdsDrawn ctx.host d.world := by
  have hstart : InOrder ctx (.serve w at_ instant) := Serves.inOrder hrun .start
  refine (hd.invariant (I := fun d => InOrder ctx d ∧ IdsDrawn ctx.host d.world)
    ⟨hstart, hrun.idsDrawn⟩ ?_).2
  rintro a d1 d2 ⟨hin, hids⟩ hs hfit
  refine ⟨hin.step hs hfit, ?_⟩
  rcases step_calls hin.framed hs with hworld | ⟨_, _, _, _, _, c, _, _, _, _, _,
    _, _, _, _, _, _, _, _, hworld⟩
  · exact hworld ▸ hids
  · rw [hworld]
    exact (exec_behaves (hin.kept.workable hin.fits) c).path.idsDrawn hids

/-- **ONLY THE OWNER CONCLUDES A PAYMENT** by card: in a daemon that was
    started with one, a step that serves no request of the owner leaves the
    same intents telling an outcome, as they were, and books nothing but
    reservations. -/
theorem only_the_owner_concludes {owner : String} {w0 : World} {cs : List Call}
    {at_ : Int} {instant : Nat} {acts : List Daemon.Action} {a : Daemon.Action}
    (hrun : TreasuryRun ctx.host owner w0 cs w)
    (hm : w.state.providerMode = .manualPrepaidCard)
    (hd : Serves ctx (.serve w at_ instant) acts d)
    (hstep : d.step ctx a = some d')
    (hfresh : FreshBelow ctx.host d'.world.drawn) :
    NothingConcluded d.world.state d'.world.state
      ∨ ∃ i r t q, a = .advance i r ∧ d.threads[i]? = some t
        ∧ t.ownerChannel = true ∧ Sent ctx t q
        ∧ tokenHash ctx.host q.token
          = d.world.state.owner.capabilityTokenHash := by
  have hin : InOrder ctx d := hd.inOrder hrun
  have hmanual := (hd.apart hrun hm).manual
  -- a step of the daemon makes at most one call, and names who sent it
  rcases step_calls hin.framed hstep with hworld | ⟨i, r, t, t', q, c, rfl, ht, _,
    _, _, _, _, htoken, _, hsent, hmakes, _, _, hworld⟩
  · rw [hworld]
    exact Or.inl (.same rfl rfl)
  · cases hchannel : t.ownerChannel with
    | true =>
        exact Or.inr ⟨i, r, t, q, rfl, ht, hchannel, hsent, htoken hchannel⟩
    | false =>
        rw [hworld] at hfresh ⊢
        exact Or.inl (hmakes.inconclusive hchannel
          (hin.kept.workable hin.fits) hmanual (hd.idsDrawn hrun) hfresh)

/-- A daemon of a card that is sent one request. -/
def cardContext (q : RpcRequest) : ServeContext :=
  { plainContext q with host := soundHost }

/-- The owner configures a card and creates an agent. -/
def cardAndAgent (owner : String) : List Call :=
  [.request owner (.ownerConfigureManualProvider prepaidCard),
    agentWith Policy.conservativeDemo owner]

/-- Of a card an agent creates an intent, and nothing is concluded. -/
theorem only_the_owner_concludes_buy : ∃ owner w0 w d d',
    TreasuryRun soundHost owner w0 (cardAndAgent owner) w
      ∧ Serves (cardContext buyFrame) (.serve w 1000 0) (oneConnection false 5) d
      ∧ d.step (cardContext buyFrame) (.advance 0 plainReadings) = some d'
      ∧ d'.world.state.intents.size ≠ d.world.state.intents.size
      ∧ NothingConcluded d.world.state d'.world.state := by
  have h : tryRun soundHost ⟨100000, "CAD"⟩ cardAndAgent (fun w =>
      (runActions (cardContext buyFrame) (.serve w 1000 0)
        (oneConnection false 5)).any fun d =>
          (d.step (cardContext buyFrame) (.advance 0 plainReadings)).any fun d' =>
            decide (w.state.providerMode = .manualPrepaidCard
              ∧ d'.world.drawn ≤ 100
              ∧ d'.world.state.intents.size ≠ d.world.state.intents.size
              ∧ d.threads.map Thread.ownerChannel = [false])) = true := by
    decide +kernel
  obtain ⟨owner, w0, w, hrun, hserves⟩ := tryRun_run h
  obtain ⟨d, hd, hnext⟩ := (Option.any_eq_true _ _).mp hserves
  obtain ⟨d', hstep, hcheck⟩ := (Option.any_eq_true _ _).mp hnext
  obtain ⟨hm, hdrawn, hsize, hchannel⟩ := of_decide_eq_true hcheck
  have hd := runActions_serves .start hd
  have hsound : TreasuryRun (cardContext buyFrame).host owner w0 _ w := hrun
  have hfresh : FreshBelow (cardContext buyFrame).host d'.world.drawn :=
    fun i j hi hj h => lowBytes_inj (by omega) (by omega) h
  -- the only thread is on the agents' socket
  rcases only_the_owner_concludes hsound hm hd hstep hfresh with hnone
    | ⟨i, r, t, q, ha, ht, howner, _⟩
  · exact ⟨owner, w0, w, d, d', hrun, hd, hstep, hsize, hnone⟩
  · cases ha
    have hthread := congrArg (fun l => l[0]?) hchannel
    rw [List.getElem?_map, ht] at hthread
    cases howner.symm.trans (Option.some.inj hthread)

end Treasury
