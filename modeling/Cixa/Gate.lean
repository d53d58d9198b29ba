import Cixa.Serving

/-! # The gate — who can change a daemon's treasury

    A frame changes the treasury only if it is one line within the limit, is
    a strict request, and comes from the owner on the owner's socket, or from
    an active agent on the agents' socket with a request that is not the
    owner's.  In between an agent's request is held against the capabilities
    the admission KNOWS; these follow the treasury's agents whenever no
    request of the owner is under way. -/

namespace Treasury

open CixaData CixaHost Outcome Transition Admission

variable {host : Host} {ctx : ServeContext} {d d' : Daemon} {i j : Nat}
  {r : Readings} {t : Thread} {w w' : World} {q : RpcRequest} {c : Call}
  {l : Label}

/-! ## Calls that are not the owner's -/

/-- A call by a token that is not the owner's to make. -/
inductive AgentCall (token : String) : Call → Prop where
  | persisted {op : Request} (h : op.requiresOwner = false) :
      AgentCall token (.persisted token op)
  | controlled (id : String) (executor : CheckoutExecutor) :
      AgentCall token (.controlled token id executor)

/-- The owner's token is of no use for what agents ask. -/
theorem dispatch_owner_idle {op : Request} (h : op.requiresOwner = false)
    (hx : executes op = none) :
    wp (dispatch host .owner op) (fun _ v => v.state = w.state)
      (fun _ v => v.state = w.state) w := by
  by_cases hread : op.isReadOnly = true
  · exact wp_mono ((dispatch_quietly hread).run w) (fun _ _ h => h.state)
      (fun _ _ h => h.state)
  cases op with
  | createPurchaseIntent request =>
      show wp (createIntent host .owner request) _ _ w
      unfold createIntent
      rw [wp_bind, wp_readState]
      refine line_lift (fun _ => rfl) fun id hscope => ?_
      cases (requireAgentScope_ok hscope).1
  | cancelPurchaseIntent id =>
      show wp (cancelIntent host .owner id) _ _ w
      unfold cancelIntent
      rw [wp_bind, wp_readState]
      refine line_lift (fun _ => rfl) fun id hscope => ?_
      cases (requireAgentScope_ok hscope).1
  | executePurchaseIntent id => cases hx
  | _ => first
    | exact absurd rfl hread
    | cases h

/-- **AN AGENT'S CALL NEEDS AN AGENT**: it changes nothing unless its token
    authenticates as one. -/
theorem AgentCall.authenticates {token : String} (h : AgentCall token c)
    (hw : Workable w.state) (hchange : (exec host c w).state ≠ w.state) :
    ∃ A, Authenticates host w token (.agent A) := by
  -- without an agent behind the token no call gets past its checks
  by_contra hno
  refine hchange ?_
  have hattempt : ∀ {id}, c.attempts = some id →
      (exec host c w).state = w.state := by
    intro id hc
    refine ((exec_behaves hw c).attempted hc).idle fun hin => hno ?_
    obtain ⟨p, _, _, _, _, _, _, _, hent, _⟩ := hin.rightful hw
    cases h with
    | @persisted op howner =>
        cases hent with
        | agent hasks ha _ =>
            cases hasks
            exact ⟨_, ha⟩
        | begun hasks _ _ _ =>
            cases hasks
            cases howner
    | controlled id' executor =>
        cases hent with
        | agent hasks _ _ => cases hasks
        | begun hasks _ _ _ => cases hasks
        | controlled ha _ => exact ⟨_, ha⟩
  cases h with
  | controlled id executor => exact hattempt rfl
  | @persisted op howner =>
      cases hx : executes op with
      | some id => exact hattempt hx
      | none =>
          refine exec_leaves (P := fun s => s = w.state) rfl hx rfl ?_
          unfold handle
          refine line (wp_mono authenticate_authenticates (fun _ _ h => h)
            (fun _ _ h => h.state)) ?_
          rintro actor a ⟨hq, _, hA⟩
          cases actor with
          | owner =>
              refine wp_mono (dispatch_owner_idle howner hx) ?_ ?_
              · exact fun _ _ h => h.trans hq.state
              · exact fun _ _ h => h.trans hq.state
          | agent A => exact absurd ⟨A, hA⟩ hno

/-- What a request that is not the owner's may do is delegated. -/
theorem permits_delegated {actor : Actor} {op : Request}
    (h : op.requiresOwner = false) (hl : permits actor op l) : Delegated l := by
  cases op <;> cases l <;> trivial

theorem allowed_delegated {actor : Actor} {op : Request}
    (h : op.requiresOwner = false) (hl : Allowed actor op l) : Delegated l := by
  rcases hl with hl | hl
  · exact permits_delegated h hl
  · cases l <;> trivial

/-- **AN AGENT'S CALL IS NO OWNER'S**: it leaves what only the owner
    changes. -/
theorem AgentCall.office {token : String} (h : AgentCall token c)
    (hw : Workable w.state) :
    SameOffice w.state (exec host c w).state := by
  have hbehaves : Behaves host w (exec host c w) c := exec_behaves hw c
  cases hbehaves with
  | attempt _ ha =>
      exact ha.path.office fun _ hl => (Attempting.onIntent hl).delegated
  | @ordinary _ token' op hasks hx ho =>
      cases h with
      | persisted howner =>
          cases hasks
          cases ho with
          | refused hp => exact hp.office fun l hl => by cases l <;> trivial
          | served _ hp => exact hp.office fun _ hl =>
              allowed_delegated howner hl
      | controlled id executor => cases hasks
  | recovery hr => cases h

/-- The daemon's calls for agents are such calls. -/
theorem Makes.agentCall (h : Makes ctx t q c)
    (hchannel : t.ownerChannel = false) : AgentCall q.token c := by
  cases h with
  | persisted _ hagent => exact .persisted (hagent hchannel)
  | controlled _ _ _ => exact .controlled _ _

/-! ## The manual provider -/

/-- The manual provider is never given up. -/
theorem Change.staysManual (h : Change host l w w')
    (hm : w.state.providerMode = .manualPrepaidCard) :
    w'.state.providerMode = .manualPrepaidCard := by
  cases h with
  | quiet h =>
      rw [h.state]
      exact hm
  | @reconcile _ _ i _ outcome _ _ _ _ _ hp hs _ =>
      rw [hs]
      generalize armOf i.state outcome = arm at hp
      cases hp with
      | _ => exact hm
  | deposit _ _ _ hc _ _ hs _ =>
      rw [hs]
      cases hc with
      | _ => exact hm
  | configureManual _ _ _ hs _ =>
      rw [hs]
  | _ =>
      rename_i hs _
      rw [hs]
      exact hm

/-! ## A daemon in order -/

/-- What every step of a daemon rests on. -/
structure InOrder (ctx : ServeContext) (d : Daemon) : Prop where
  framed : Framed ctx d
  kept : Kept d.world.state
  fits : Fits d.world

theorem InOrder.step {a : Daemon.Action} (hd : InOrder ctx d)
    (h : d.step ctx a = some d') (hfit : Fits d'.world) : InOrder ctx d' := by
  refine ⟨hd.framed.step h, ?_, hfit⟩
  rcases step_calls hd.framed h with hworld | ⟨_, _, _, _, _, c, _, _, _, _, _, _,
    _, _, _, _, _, _, _, hworld⟩
  · exact hworld ▸ hd.kept
  · rw [hworld]
    exact (exec_behaves (hd.kept.workable hd.fits) c).path.kept hd.kept

theorem Serves.inOrder {owner : String} {w0 : World} {cs : List Call}
    {at_ : Int} {instant : Nat} {acts : List Daemon.Action}
    (hrun : TreasuryRun ctx.host owner w0 cs w)
    (h : Serves ctx (.serve w at_ instant) acts d) : InOrder ctx d := by
  obtain ⟨hk, hf⟩ := hrun.kept
  exact h.invariant (I := InOrder ctx) ⟨Serves.framed .start, hk, hf⟩
    fun _ _ _ hd hs hfit => hd.step hs hfit

/-- Only users other than the broker's are served on the agents' socket. -/
structure Apart (d : Daemon) : Prop where
  manual : d.world.state.providerMode = .manualPrepaidCard
  separate : ∀ (j : Nat) t, d.threads[j]? = some t → t.stage.isAgents = true →
    t.separate = true

theorem Apart.step {a : Daemon.Action} (hd : Apart d) (hin : InOrder ctx d)
    (h : d.step ctx a = some d') : Apart d' := by
  constructor
  · rcases step_calls hin.framed h with hworld | ⟨_, _, _, _, _, c, _, _, _, _,
      _, _, _, _, _, _, _, _, _, hworld⟩
    · exact hworld ▸ hd.manual
    · rw [hworld]
      exact (exec_behaves (hin.kept.workable hin.fits) c).path.invariant
        (I := fun v => v.state.providerMode = .manualPrepaidCard)
        (fun _ _ _ _ hc hm => hc.staysManual hm) (fun _ _ _ hm _ => hm)
        hd.manual
  · intro j t' ht' hagents
    rcases step_cases h with ⟨u, hthreads, _, _, _, hnew, _⟩
      | ⟨i, r, u, _, hu, hmove⟩
    · rw [hthreads] at ht'
      by_cases hj : j < d.threads.length
      · rw [List.getElem?_append_left hj] at ht'
        exact hd.separate j t' ht' hagents
      · rw [List.getElem?_append_right (Nat.not_lt.mp hj)] at ht'
        obtain rfl := List.mem_singleton.mp (List.mem_of_getElem? ht')
        rcases hnew with hs | ⟨sent, hs⟩
        · rw [hs] at hagents
          cases hagents
        · rw [hs] at hagents
          cases hagents
    · obtain ⟨stage, hthreads, hfollows⟩ := hmove.stage
      rw [hthreads, put_getElem?] at ht'
      by_cases hij : i = j
      · subst hij
        rw [if_pos rfl, hu] at ht'
        cases ht'
        rcases hfollows.agents hagents with hold | ⟨_, huser⟩
        · exact hd.separate i u hu hold
        · exact huser hd.manual
      · rw [if_neg hij] at ht'
        exact hd.separate j t' ht' hagents

theorem Serves.apart {owner : String} {w0 : World} {cs : List Call}
    {at_ : Int} {instant : Nat} {acts : List Daemon.Action}
    (hrun : TreasuryRun ctx.host owner w0 cs w)
    (hm : w.state.providerMode = .manualPrepaidCard)
    (h : Serves ctx (.serve w at_ instant) acts d) : Apart d := by
  have hinv : InOrder ctx d ∧ Apart d := by
    obtain ⟨hk, hf⟩ := hrun.kept
    refine h.invariant (I := fun d => InOrder ctx d ∧ Apart d)
      ⟨⟨Serves.framed .start, hk, hf⟩, hm, fun j t ht => ?_⟩
      fun _ _ _ h hs hfit => ⟨h.1.step hs hfit, h.2.step h.1 hs⟩
    cases ht
  exact hinv.2

/-- **THE GATE**: a step that changes a daemon's treasury serves one line
    within the limit that is a strict request.  On the owner's socket it has
    the owner's token and the version the broker speaks; on the agents', it is
    admitted, asks for nothing of the owner's, has the token of an agent that
    is active there and then, and leaves what only the owner changes.  If the
    daemon was started with a manual provider, it is another user's. -/
theorem gate_holds {owner : String} {w0 : World} {cs : List Call} {at_ : Int}
    {instant : Nat} {acts : List Daemon.Action} {a : Daemon.Action}
    (hrun : TreasuryRun ctx.host owner w0 cs w)
    (hd : Serves ctx (.serve w at_ instant) acts d)
    (hstep : d.step ctx a = some d')
    (hchange : d'.world.state ≠ d.world.state) :
    ∃ i r t q, a = .advance i r ∧ d.threads[i]? = some t ∧ Sent ctx t q
      ∧ d.holder = none
      ∧ ((t.ownerChannel = true ∧ q.apiVersion = apiVersion
          ∧ tokenHash ctx.host q.token
            = d.world.state.owner.capabilityTokenHash)
        ∨ (t.ownerChannel = false ∧ t.stage = .admitted q
          ∧ q.operation.requiresOwner = false
          ∧ (∃ A, Authenticates ctx.host d.world q.token (.agent A))
          ∧ SameOffice d.world.state d'.world.state
          ∧ Spoken d.world q
          ∧ (w.state.providerMode = .manualPrepaidCard →
            t.separate = true))) := by
  have hin : InOrder ctx d := hd.inOrder hrun
  have hw := hin.kept.workable hin.fits
  -- a step that makes no call leaves the treasury as it is
  rcases step_calls hin.framed hstep with hworld | ⟨i, r, t, t', q, c, rfl, ht, _,
    _, _, _, hfree, htoken, hstage, hsent, hmakes, hspoken, hversion, hworld⟩
  · exact absurd (congrArg World.state hworld) hchange
  rw [hworld] at hchange
  refine ⟨i, r, t, q, rfl, ht, hsent, hfree, ?_⟩
  cases hchannel : t.ownerChannel with
  | true =>
      exact Or.inl ⟨rfl, hversion hchannel, htoken hchannel⟩
  | false =>
      have hcall := hmakes.agentCall hchannel
      refine Or.inr ⟨rfl, hstage hchannel, ?_, hcall.authenticates hw hchange,
        hworld ▸ hcall.office hw, hspoken, fun hm => ?_⟩
      · cases hmakes with
        | persisted _ hagent => exact hagent hchannel
        | controlled _ hop _ =>
            rw [hop]
            rfl
      · refine (hd.apart hrun hm).separate i t ht ?_
        rw [hstage hchannel]
        rfl

/-- An agent's request to buy. -/
def buyFrame : RpcRequest :=
  ⟨apiVersion, "r", agentToken, .createPurchaseIntent smallPurchase⟩

/-- An agent buys over the socket. -/
theorem gate_holds_buy : ∃ owner w0 w d d',
    TreasuryRun stillHost owner w0 [agentWith Policy.conservativeDemo owner] w
      ∧ Serves (plainContext buyFrame) (.serve w 1000 0) (oneConnection false 5) d
      ∧ d.step (plainContext buyFrame) (.advance 0 plainReadings) = some d'
      ∧ d'.world.state ≠ d.world.state
      ∧ ∃ t q, d.threads[0]? = some t ∧ Sent (plainContext buyFrame) t q
        ∧ ∃ A, Authenticates stillHost d.world q.token (.agent A) := by
  have h : tryRun stillHost ⟨100000, "CAD"⟩
      (fun owner => [agentWith Policy.conservativeDemo owner]) (fun w =>
      (runActions (plainContext buyFrame) (.serve w 1000 0)
        (oneConnection false 5)).any fun d =>
          (d.step (plainContext buyFrame) (.advance 0 plainReadings)).any fun d' =>
            decide (d'.world.state.intents.size ≠ d.world.state.intents.size
              ∧ d.threads.map Thread.ownerChannel = [false]))
      = true := by
    decide +kernel
  obtain ⟨owner, w0, w, hrun, hserves⟩ := tryRun_run h
  obtain ⟨d, hd, hnext⟩ := (Option.any_eq_true _ _).mp hserves
  obtain ⟨d', hd', hgrows⟩ := (Option.any_eq_true _ _).mp hnext
  obtain ⟨hsize, hchannel⟩ := of_decide_eq_true hgrows
  have hd := runActions_serves .start hd
  have hchange : d'.world.state ≠ d.world.state :=
    fun h => hsize (congrArg (fun s => s.intents.size) h)
  have hstill : TreasuryRun (plainContext buyFrame).host owner w0 _ w := hrun
  obtain ⟨i, r, t, q, ha, ht, hsent, _, howner | ⟨_, _, _, hA, _⟩⟩ :=
    gate_holds hstill hd hd' hchange
  · cases ha
    have hthread := congrArg (fun l => l[0]?) hchannel
    rw [List.getElem?_map, ht] at hthread
    cases howner.1.symm.trans (Option.some.inj hthread)
  · cases ha
    exact ⟨owner, w0, w, d, d', hrun, hd, hd', hchange, t, q, ht, hsent, hA⟩

end Treasury
