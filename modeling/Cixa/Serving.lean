import Cixa.Confinement
import Cixa.Daemon

/-! # Serving — a daemon's treasury is called, and by whom

    Whatever the threads of a daemon do in whatever order, its treasury is
    changed by CALLS alone, one after the other; each is the request of a
    frame, and no connection makes two.  So what holds in every run of calls
    holds of the daemon's treasury. -/

namespace Treasury

open CixaData CixaHost Outcome Transition Admission Codec

variable {host : Host} {ctx : ServeContext} {d d' : Daemon} {i j : Nat}
  {r : Readings} {t : Thread} {w w' : World} {q : RpcRequest}

/-! ## What a step can do -/

/-- **A STEP OF A THREAD**, by the stage it is in. -/
inductive ThreadStep (ctx : ServeContext) (d : Daemon) (i : Nat) (r : Readings)
    (t : Thread) : Daemon → Prop where
  | lost {e : String} (hs : t.stage = .reading) (ha : t.arrival = .error e) :
      ThreadStep ctx d i r t (d.close i t none)
  | malformed {bytes : List UInt8} {id error : String}
      (hs : t.stage = .reading) (ha : t.arrival = .ok bytes)
      (hno : ∀ request, isFrame (readFrame bytes) →
        decodeFrame ctx.serde (readFrame bytes) ≠ .ok request) :
      ThreadStep ctx d i r t (d.put i (.writing (.failure id error)))
  | framed {bytes : List UInt8} {request : RpcRequest}
      (hs : t.stage = .reading) (ha : t.arrival = .ok bytes)
      (hf : isFrame (readFrame bytes))
      (hd : decodeFrame ctx.serde (readFrame bytes) = .ok request) :
      ThreadStep ctx d i r t (d.put i (.gating request))
  | turnedAway {request : RpcRequest} {error : String}
      (hs : t.stage = .gating request) (hfree : d.holder = none) :
      ThreadStep ctx d i r t (d.put i (.writing (rejectedRpc request error)))
  | servedOwner {request : RpcRequest} (hs : t.stage = .gating request)
      (hfree : d.holder = none) (hchannel : t.ownerChannel = true)
      (htoken : tokenHash ctx.host request.token
        = d.world.state.owner.capabilityTokenHash) :
      ThreadStep ctx d i r t { d.put i (.updating
          (handleRpcPersisted ctx.host request d.world).1
          (activeAgentCapabilities
            (handleRpcPersisted ctx.host request d.world).2.state r.at_)) with
        world := (handleRpcPersisted ctx.host request d.world).2
        holder := some i }
  | letThrough {request : RpcRequest} (hs : t.stage = .gating request)
      (hfree : d.holder = none) (hchannel : t.ownerChannel = false)
      (huser : d.world.state.providerMode = .manualPrepaidCard →
        t.separate = true) :
      ThreadStep ctx d i r t (d.put i (.asking request))
  | updated {response : RpcResponse} {capabilities : List (String × Int)}
      (hs : t.stage = .updating response capabilities) :
      ThreadStep ctx d i r t { d.put i (.writing response) with
        admission := d.admission.replaceKnownCapabilities
          ctx.admissionFingerprint capabilities
        holder := none }
  | asked {request : RpcRequest} (hs : t.stage = .asking request) :
      ThreadStep ctx d i r t (d.put i (d.askStage ctx r request))
  | turnedUnknown {request : RpcRequest} (hs : t.stage = .unknown request) :
      ThreadStep ctx d i r t (d.admitUnauthenticated i r request)
  | channel {request : RpcRequest} (hs : t.stage = .known request) :
      ThreadStep ctx d i r t (d.admitChannel i r request)
  | capability {request : RpcRequest} (hs : t.stage = .halfway request) :
      ThreadStep ctx d i r t (d.admitCapability ctx i r request)
  | left {request : RpcRequest} {error : String}
      (hs : t.stage = .leaving request) :
      ThreadStep ctx d i r t { d.put i (.writing (rejectedRpc request error)) with
        admission := d.admission.dropChannel }
  | ownerOnly {request : RpcRequest} {error : String}
      (hs : t.stage = .admitted request) :
      ThreadStep ctx d i r t
        (d.put i (.served request (rejectedRpc request error)))
  | servedAgent {request : RpcRequest} (hs : t.stage = .admitted request)
      (hfree : d.holder = none)
      (hagent : request.operation.requiresOwner = false) :
      ThreadStep ctx d i r t { d.put i (.served request
          (Daemon.serveAgent ctx d.world r request).1) with
        world := (Daemon.serveAgent ctx d.world r request).2 }
  | dropped {request : RpcRequest} {response : RpcResponse}
      (hs : t.stage = .served request response) :
      ThreadStep ctx d i r t { d.put i (.parting response) with
        admission := d.admission.dropCapability
          (Daemon.fingerprint ctx request.token) }
  | parted {response : RpcResponse} (hs : t.stage = .parting response) :
      ThreadStep ctx d i r t { d.put i (.writing response) with
        admission := d.admission.dropChannel }
  | answered {response : RpcResponse} (hs : t.stage = .writing response) :
      ThreadStep ctx d i r t
        (d.close i t (Daemon.delivered t.departure (writeResponse response)))

theorem advance_threadStep (h : d.advance ctx i r t = some d') :
    ThreadStep ctx d i r t d' := by
  unfold Daemon.advance at h
  split at h
  · rename_i hs
    split at h
    · rename_i ha
      cases h
      exact .lost hs ha
    · rename_i bytes ha
      cases h
      unfold Daemon.readStage
      dsimp only
      split
      · rename_i hf
        exact .malformed hs ha fun _ hframe => absurd hframe hf
      · rename_i hf
        split
        · rename_i hd
          refine .malformed hs ha fun request _ hok => ?_
          cases hd.symm.trans hok
        · rename_i hd
          exact .framed hs ha (not_not.mp hf) hd
  · rename_i request hs
    split at h
    · cases h
    rename_i hheld
    have hfree := Option.not_isSome_iff_eq_none.mp hheld
    split at h
    · rename_i hchannel
      cases h
      unfold Daemon.serveOwner
      dsimp only
      split
      · exact .turnedAway hs hfree
      · rename_i htoken
        exact .servedOwner hs hfree hchannel (not_not.mp htoken)
    · rename_i hchannel
      have hagent := Bool.eq_false_iff.mpr hchannel
      split at h
      · cases h
        exact .turnedAway hs hfree
      · rename_i huser
        cases h
        refine .letThrough hs hfree hagent fun hm => ?_
        exact (Bool.not_eq_false _).mp fun hsep => huser ⟨hm, hsep⟩
  · rename_i hs
    cases h
    exact .updated hs
  · rename_i hs
    cases h
    exact .asked hs
  · rename_i hs
    cases h
    exact .turnedUnknown hs
  · rename_i hs
    cases h
    exact .channel hs
  · rename_i hs
    cases h
    exact .capability hs
  · rename_i hs
    cases h
    exact .left hs
  · rename_i request hs
    split at h
    · cases h
      exact .ownerOnly hs
    · rename_i howner
      split at h
      · cases h
      · rename_i hheld
        cases h
        exact .servedAgent hs (Option.not_isSome_iff_eq_none.mp hheld)
          (Bool.eq_false_iff.mpr howner)
  · rename_i hs
    cases h
    exact .dropped hs
  · rename_i hs
    cases h
    exact .parted hs
  · rename_i hs
    cases h
    exact .answered hs
  · cases h

/-! ## Threads -/

theorem put_getElem? (d : Daemon) (i j : Nat) (stage : Stage) :
    (d.put i stage).threads[j]? = if i = j
      then d.threads[j]?.map (fun t => { t with stage := stage })
      else d.threads[j]? := by
  show (d.threads.modify i _)[j]? = _
  rw [List.getElem?_modify]
  split
  · rfl
  · rw [id_map']

theorem close_threads (d : Daemon) (i : Nat) (t : Thread)
    (sent : Option (List UInt8)) :
    (d.close i t sent).threads = (d.put i (.closed sent)).threads := by
  unfold Daemon.close
  split
  · rfl
  · rfl

theorem close_world (d : Daemon) (i : Nat) (t : Thread)
    (sent : Option (List UInt8)) : (d.close i t sent).world = d.world := by
  unfold Daemon.close
  split
  · rfl
  · rfl

/-- The same connection, maybe at another stage. -/
structure SameConnection (t t' : Thread) : Prop where
  ownerChannel : t'.ownerChannel = t.ownerChannel
  separate : t'.separate = t.separate
  arrival : t'.arrival = t.arrival
  departure : t'.departure = t.departure

theorem SameConnection.refl (t : Thread) : SameConnection t t :=
  ⟨rfl, rfl, rfl, rfl⟩

/-- The request a thread is about to have served, or has. -/
def Stage.request : Stage → Option RpcRequest
  | .gating q => some q
  | .asking q => some q
  | .unknown q => some q
  | .known q => some q
  | .halfway q => some q
  | .leaving q => some q
  | .admitted q => some q
  | .served q _ => some q
  | _ => none

/-- Whether a thread is past the point where its request is served. -/
def Stage.isPast : Stage → Bool
  | .updating _ _ => true
  | .served _ _ => true
  | .parting _ => true
  | .writing _ => true
  | .closed _ => true
  | _ => false

/-- Whether a thread has been let through as an agent's. -/
def Stage.isAgents : Stage → Bool
  | .asking _ => true
  | .unknown _ => true
  | .known _ => true
  | .halfway _ => true
  | .leaving _ => true
  | .admitted _ => true
  | .served _ _ => true
  | .parting _ => true
  | _ => false

/-- A request that a connection sent, as one line within the limit. -/
def Sent (ctx : ServeContext) (t : Thread) (request : RpcRequest) : Prop :=
  ∃ bytes, t.arrival = .ok bytes ∧ isFrame (readFrame bytes)
    ∧ decodeFrame ctx.serde (readFrame bytes) = .ok request

theorem Sent.same {t' : Thread} (h : Sent ctx t q)
    (hsame : SameConnection t t') : Sent ctx t' q := by
  obtain ⟨bytes, ha, hf, hd⟩ := h
  exact ⟨bytes, hsame.arrival.trans ha, hf, hd⟩

/-- What a stage that follows another keeps: the request is the one before or
    the one sent, what is an agent's came on the agents' socket, and there is
    no way back before the point where a request is served. -/
structure Follows (ctx : ServeContext) (d : Daemon) (t : Thread)
    (stage : Stage) : Prop where
  request : ∀ q, stage.request = some q → t.stage.request = some q
    ∨ Sent ctx t q
  agents : stage.isAgents = true → t.stage.isAgents = true
    ∨ (t.ownerChannel = false ∧ (d.world.state.providerMode
      = .manualPrepaidCard → t.separate = true))
  past : t.stage.isPast = true → stage.isPast = true

/-- An answer follows everything. -/
theorem Follows.writing (response : RpcResponse) :
    Follows ctx d t (.writing response) :=
  ⟨fun _ h => (by cases h), fun h => (by cases h), fun _ => rfl⟩

theorem Follows.closed (sent : Option (List UInt8)) :
    Follows ctx d t (.closed sent) :=
  ⟨fun _ h => (by cases h), fun h => (by cases h), fun _ => rfl⟩

/-- The next stage of an agent's request. -/
theorem Follows.onward {stage : Stage} (hs : t.stage.isAgents = true)
    (hreq : stage.request = t.stage.request ∨ stage.request = none)
    (hpast : t.stage.isPast = true → stage.isPast = true) :
    Follows ctx d t stage := by
  refine ⟨fun q hq => Or.inl ?_, fun _ => Or.inl hs, hpast⟩
  rcases hreq with h | h
  · exact h ▸ hq
  · rw [h] at hq
    cases hq

/-- A step brings its thread to a stage that follows. -/
theorem ThreadStep.stage (h : ThreadStep ctx d i r t d') :
    ∃ stage, d'.threads = (d.put i stage).threads ∧ Follows ctx d t stage := by
  cases h with
  | lost _ _ => exact ⟨_, close_threads d i t none, .closed none⟩
  | answered _ => exact ⟨_, close_threads d i t _, .closed _⟩
  | malformed _ _ _ => exact ⟨_, rfl, .writing _⟩
  | turnedAway _ _ => exact ⟨_, rfl, .writing _⟩
  | updated _ => exact ⟨_, rfl, .writing _⟩
  | turnedUnknown _ => exact ⟨_, rfl, .writing _⟩
  | left _ => exact ⟨_, rfl, .writing _⟩
  | parted _ => exact ⟨_, rfl, .writing _⟩
  | servedOwner hs _ _ _ =>
      exact ⟨_, rfl, fun _ h => (by cases h), fun h => (by cases h),
        fun _ => rfl⟩
  | framed hs ha hf hd =>
      refine ⟨_, rfl, fun q hq => Or.inr ?_, fun h => ?_, fun h => ?_⟩
      · cases hq
        exact ⟨_, ha, hf, hd⟩
      · cases h
      · rw [hs] at h
        cases h
  | letThrough hs _ hchannel huser =>
      refine ⟨_, rfl, fun _ h => Or.inl ?_,
        fun _ => Or.inr ⟨hchannel, huser⟩, fun h => ?_⟩
      · rw [hs]
        exact h
      · rw [hs] at h
        cases h
  | @asked q hs =>
      -- Either answer of the gate moves on to a later stage.
      refine ⟨d.askStage ctx r q, rfl, ?_⟩
      unfold Daemon.askStage
      split
      · exact .onward (by rw [hs]; rfl) (by rw [hs]; exact Or.inl rfl)
          fun h => by rw [hs] at h; cases h
      · exact .onward (by rw [hs]; rfl) (by rw [hs]; exact Or.inl rfl)
          fun h => by rw [hs] at h; cases h
  | channel hs =>
      refine ⟨_, rfl, ?_⟩
      split
      · exact .onward (by rw [hs]; rfl) (by rw [hs]; exact Or.inl rfl)
          fun h => by rw [hs] at h; cases h
      · exact .writing _
  | capability hs =>
      refine ⟨_, rfl, ?_⟩
      split
      · exact .onward (by rw [hs]; rfl) (by rw [hs]; exact Or.inl rfl)
          fun h => by rw [hs] at h; cases h
      · exact .onward (by rw [hs]; rfl) (by rw [hs]; exact Or.inl rfl)
          fun h => by rw [hs] at h; cases h
  | ownerOnly hs =>
      exact ⟨_, rfl, .onward (by rw [hs]; rfl) (by rw [hs]; exact Or.inl rfl)
        fun _ => rfl⟩
  | servedAgent hs _ _ =>
      exact ⟨_, rfl, .onward (by rw [hs]; rfl) (by rw [hs]; exact Or.inl rfl)
        fun _ => rfl⟩
  | dropped hs =>
      exact ⟨_, rfl, .onward (by rw [hs]; rfl) (Or.inr rfl) fun _ => rfl⟩

/-- A connection that is accepted or turned away is a new thread. -/
theorem accept_threads (ctx : ServeContext) (d : Daemon)
    (ownerChannel separate : Bool) (arrival : Except String (List UInt8))
    (departure : Except String Unit) :
    let d' := d.accept ctx ownerChannel separate arrival departure
    ∃ t : Thread, d'.threads = d.threads ++ [t] ∧ d'.world = d.world
      ∧ d'.admission = d.admission ∧ d'.holder = d.holder
      ∧ (t.stage = .reading ∨ ∃ sent, t.stage = .closed sent)
      ∧ (t.stage = .reading → t.ownerChannel = false →
        ctx.rejectBrokerUid = true → t.separate = true) := by
  unfold Daemon.accept
  dsimp only
  split
  · rename_i hchannel
    split
    · refine ⟨_, rfl, rfl, rfl, rfl, Or.inr ⟨_, rfl⟩, fun h => ?_⟩
      cases h
    · refine ⟨_, rfl, rfl, rfl, rfl, Or.inl rfl, fun _ h => ?_⟩
      rw [hchannel] at h
      cases h
  · split
    · refine ⟨_, rfl, rfl, rfl, rfl, Or.inr ⟨_, rfl⟩, fun h => ?_⟩
      cases h
    · rename_i huser
      split
      · refine ⟨_, rfl, rfl, rfl, rfl, Or.inr ⟨_, rfl⟩, fun h => ?_⟩
        cases h
      · refine ⟨_, rfl, rfl, rfl, rfl, Or.inl rfl, fun _ _ hreject => ?_⟩
        exact (Bool.not_eq_false _).mp fun hsep => huser ⟨hreject, hsep⟩

/-- A step of the daemon is a new thread or a step of one. -/
theorem step_cases {a : Daemon.Action} (h : d.step ctx a = some d') :
    (∃ t : Thread, d'.threads = d.threads ++ [t] ∧ d'.world = d.world
        ∧ d'.admission = d.admission ∧ d'.holder = d.holder
        ∧ (t.stage = .reading ∨ ∃ sent, t.stage = .closed sent)
        ∧ (t.stage = .reading → t.ownerChannel = false →
          ctx.rejectBrokerUid = true → t.separate = true))
      ∨ ∃ i r t, a = .advance i r ∧ d.threads[i]? = some t
        ∧ ThreadStep ctx d i r t d' := by
  cases a with
  | accept ownerChannel separate arrival departure =>
      cases h
      exact Or.inl (accept_threads ctx d ownerChannel separate arrival departure)
  | advance i r =>
      obtain ⟨t, ht, hmove⟩ := Option.bind_eq_some_iff.mp h
      exact Or.inr ⟨i, r, t, rfl, ht, advance_threadStep hmove⟩

/-- A connection stays, and what it was served it was served. -/
theorem step_kept {a : Daemon.Action} (h : d.step ctx a = some d')
    (ht : d.threads[j]? = some t) :
    ∃ t', d'.threads[j]? = some t' ∧ SameConnection t t'
      ∧ (t.stage.isPast = true → t'.stage.isPast = true) := by
  rcases step_cases h with ⟨u, hthreads, _⟩ | ⟨i, r, u, _, hu, hmove⟩
  · refine ⟨t, ?_, .refl t, fun h => h⟩
    rw [hthreads, List.getElem?_append_left
      (List.getElem?_eq_some_iff.mp ht).1]
    exact ht
  · obtain ⟨stage, hthreads, hfollows⟩ := hmove.stage
    rw [hthreads, put_getElem?]
    by_cases hij : i = j
    · subst hij
      cases hu.symm.trans ht
      rw [if_pos rfl, ht]
      exact ⟨_, rfl, ⟨rfl, rfl, rfl, rfl⟩, hfollows.past⟩
    · rw [if_neg hij]
      exact ⟨t, ht, .refl t, fun h => h⟩

/-- A request a thread has is one it sent, and what is an agent's came on the
    agents' socket. -/
structure Framed (ctx : ServeContext) (d : Daemon) : Prop where
  sent : ∀ (j : Nat) t q, d.threads[j]? = some t → t.stage.request = some q →
    Sent ctx t q
  agents : ∀ (j : Nat) t, d.threads[j]? = some t → t.stage.isAgents = true →
    t.ownerChannel = false

theorem Framed.step {a : Daemon.Action} (hd : Framed ctx d)
    (h : d.step ctx a = some d') : Framed ctx d' := by
  have hthread : ∀ (j : Nat) t', d'.threads[j]? = some t' →
      (∀ q, t'.stage.request = some q → Sent ctx t' q)
        ∧ (t'.stage.isAgents = true → t'.ownerChannel = false) := by
    intro j t' ht'
    rcases step_cases h with ⟨u, hthreads, _, _, _, hnew, _⟩
      | ⟨i, r, u, _, hu, hmove⟩
    · rw [hthreads] at ht'
      by_cases hj : j < d.threads.length
      · rw [List.getElem?_append_left hj] at ht'
        exact ⟨fun q => hd.sent j t' q ht', hd.agents j t' ht'⟩
      · rw [List.getElem?_append_right (Nat.not_lt.mp hj)] at ht'
        obtain rfl := List.mem_singleton.mp (List.mem_of_getElem? ht')
        rcases hnew with hs | ⟨sent, hs⟩
        · rw [hs]
          exact ⟨fun _ h => (by cases h), fun h => (by cases h)⟩
        · rw [hs]
          exact ⟨fun _ h => (by cases h), fun h => (by cases h)⟩
    · obtain ⟨stage, hthreads, hfollows⟩ := hmove.stage
      rw [hthreads, put_getElem?] at ht'
      by_cases hij : i = j
      · subst hij
        rw [if_pos rfl, hu] at ht'
        cases ht'
        have hsame : SameConnection u { u with stage := stage } :=
          ⟨rfl, rfl, rfl, rfl⟩
        constructor
        · intro q hq
          rcases hfollows.request q hq with hold | hsent
          · exact (hd.sent i u q hu hold).same hsame
          · exact hsent.same hsame
        · intro hagents
          exact (hfollows.agents hagents).elim (hd.agents i u hu) And.left
      · rw [if_neg hij] at ht'
        exact ⟨fun q => hd.sent j t' q ht', hd.agents j t' ht'⟩
  exact ⟨fun j t q ht => (hthread j t ht).1 q, fun j t ht => (hthread j t ht).2⟩

/-! ## Calls -/

/-- A call that a frame makes. -/
inductive Makes (ctx : ServeContext) (t : Thread) (q : RpcRequest) :
    Call → Prop where
  | persisted (hv : q.apiVersion = apiVersion)
      (hagent : t.ownerChannel = false → q.operation.requiresOwner = false) :
      Makes ctx t q (.persisted q.token q.operation)
  | controlled {id : String} {handoff : Handoff} {answers : HandoffAnswers}
      {runtime : ControlledCheckoutRuntime} {s : TreasuryState} {r : Readings}
      (hagent : t.ownerChannel = false)
      (hop : q.operation = .executePurchaseIntent id)
      (hprep : runtime.prepare ctx.host ctx.serde s r q.token id
        = .ok (handoff, answers)) :
      Makes ctx t q (.controlled q.token id (handoff.asExecutor ctx.host answers))

theorem Makes.same {t' : Thread} {c : Call} (h : Makes ctx t q c)
    (hsame : SameConnection t t') : Makes ctx t' q c := by
  cases h with
  | persisted hv hagent =>
      exact .persisted hv fun h => hagent (hsame.ownerChannel ▸ h)
  | controlled hagent hop hprep =>
      exact .controlled (hsame.ownerChannel.trans hagent) hop hprep

theorem handleRpcPersisted_world (host : Host) (q : RpcRequest) (w : World) :
    (handleRpcPersisted host q w).2 = w ∨ (q.apiVersion = apiVersion
      ∧ (handleRpcPersisted host q w).2
        = exec host (.persisted q.token q.operation) w) := by
  unfold handleRpcPersisted
  by_cases hv : q.apiVersion ≠ apiVersion
  · rw [if_pos hv]
    exact Or.inl rfl
  · rw [if_neg hv]
    refine Or.inr ⟨not_not.mp hv, ?_⟩
    show _ = final (handlePersisted host q.token q.operation) w
    unfold final
    cases handlePersisted host q.token q.operation w with
    | ok data w' => rfl
    | error e w' => rfl

theorem execute_world {serde : SerdeJson} (runtime : ControlledCheckoutRuntime)
    (r : Readings) (token id : String) (w : World) :
    (runtime.execute host serde r token id w).2 = w
      ∨ ∃ handoff answers, runtime.prepare host serde w.state r token id
          = .ok (handoff, answers)
        ∧ (runtime.execute host serde r token id w).2
          = exec host (.controlled token id (handoff.asExecutor host answers))
            w := by
  unfold ControlledCheckoutRuntime.execute
  cases hprep : runtime.prepare host serde w.state r token id with
  | error e => exact Or.inl rfl
  | ok prepared =>
      obtain ⟨handoff, answers⟩ := prepared
      refine Or.inr ⟨handoff, answers, rfl, ?_⟩
      show _ = final (executeControlledCheckoutPersisted host token id
        (handoff.asExecutor host answers)) w
      unfold final
      dsimp only
      cases executeControlledCheckoutPersisted host token id
        (handoff.asExecutor host answers) w with
      | ok data w' => rfl
      | error e w' => rfl

/-- Whether a frame is one the broker speaks, or a controlled checkout, which
    is served whatever the frame says of its version. -/
def Spoken (w : World) (q : RpcRequest) : Prop :=
  q.apiVersion = apiVersion ∨ ∃ id, q.operation = .executePurchaseIntent id
    ∧ controlledCheckoutEnabled w.state = true

/-- An agent's request is one call at most. -/
theorem serveAgent_world (ctx : ServeContext) (r : Readings) (w : World)
    (hagent : t.ownerChannel = false)
    (howner : q.operation.requiresOwner = false) :
    (Daemon.serveAgent ctx w r q).2 = w
      ∨ ∃ c, Makes ctx t q c ∧ Spoken w q
        ∧ (Daemon.serveAgent ctx w r q).2 = exec ctx.host c w := by
  have hpersisted : ∀ {answer : RpcResponse × World},
      answer = handleRpcPersisted ctx.host q w → answer.2 = w
        ∨ ∃ c, Makes ctx t q c ∧ Spoken w q
          ∧ answer.2 = exec ctx.host c w := by
    rintro _ rfl
    rcases handleRpcPersisted_world ctx.host q w with h | ⟨hv, h⟩
    · exact Or.inl h
    · exact Or.inr ⟨_, .persisted hv fun _ => howner, Or.inl hv, h⟩
  unfold Daemon.serveAgent
  split
  · rename_i id hop henabled
    split
    · exact Or.inl rfl
    · rename_i runtime _
      have hworld : (runtime.execute ctx.host ctx.serde r q.token id w).2 = w
          ∨ _ := execute_world runtime r q.token id w
      split
      · rename_i data w' hexec
        rw [hexec] at hworld
        exact hworld.imp_right fun ⟨_, _, hprep, h⟩ =>
          ⟨_, .controlled hagent hop hprep, Or.inr ⟨id, hop, henabled⟩, h⟩
      · rename_i e w' hexec
        rw [hexec] at hworld
        exact hworld.imp_right fun ⟨_, _, hprep, h⟩ =>
          ⟨_, .controlled hagent hop hprep, Or.inr ⟨id, hop, henabled⟩, h⟩
  · exact hpersisted rfl

/-! ## Runs of a daemon -/

/-- What a daemon comes to: any threads take steps in any order. -/
inductive Serves (ctx : ServeContext) (d : Daemon) :
    List Daemon.Action → Daemon → Prop where
  | start : Serves ctx d [] d
  | step {acts : List Daemon.Action} {a : Daemon.Action} {d' d'' : Daemon} :
      Serves ctx d acts d' → d'.step ctx a = some d'' → Fits d''.world →
      Serves ctx d (acts ++ [a]) d''

/-- **AN INVARIANT** of the start that every step keeps. -/
theorem Serves.invariant {acts : List Daemon.Action} {I : Daemon → Prop}
    (h : Serves ctx d acts d') (h0 : I d)
    (hstep : ∀ a d1 d2, I d1 → d1.step ctx a = some d2 → Fits d2.world → I d2) :
    I d' := by
  induction h with
  | start => exact h0
  | step _ hs hfit ih => exact hstep _ _ _ ih hs hfit

theorem Serves.framed {acts : List Daemon.Action} {at_ : Int} {instant : Nat}
    (h : Serves ctx (.serve w at_ instant) acts d) : Framed ctx d := by
  refine h.invariant ⟨?_, ?_⟩ fun _ _ _ hd hs _ => hd.step hs
  · intro j t q ht
    cases ht
  · intro j t ht
    cases ht

/-- The calls that threads made, with who made them: each thread one at most,
    and what it sent. -/
structure Made (ctx : ServeContext) (d : Daemon) (made : List (Nat × Call)) :
    Prop where
  once : (made.map Prod.fst).Nodup
  sent : ∀ m ∈ made, ∃ t q, d.threads[m.1]? = some t ∧ t.stage.isPast = true
    ∧ Sent ctx t q ∧ Makes ctx t q m.2

/-- A thread that is not past the point of being served has called nothing. -/
theorem Made.none {made : List (Nat × Call)} (h : Made ctx d made)
    (ht : d.threads[i]? = some t) (hnot : t.stage.isPast = false) :
    ∀ m ∈ made, m.1 ≠ i := by
  rintro m hm rfl
  obtain ⟨t', _, ht', hpast, _⟩ := h.sent m hm
  cases ht.symm.trans ht'
  rw [hnot] at hpast
  cases hpast

/-- What a connection did stays done by it. -/
theorem Made.kept {made : List (Nat × Call)} {a : Daemon.Action}
    (h : Made ctx d made) (hs : d.step ctx a = some d') :
    Made ctx d' made := by
  refine ⟨h.once, fun m hm => ?_⟩
  obtain ⟨t, q, ht, hpast, hsent, hmakes⟩ := h.sent m hm
  obtain ⟨t', ht', hsame, hpast'⟩ := step_kept hs ht
  refine ⟨t', q, ht', hpast' hpast, hsent.same hsame, ?_⟩
  exact hmakes.same hsame

/-- A thread that called nothing may call. -/
theorem Made.snoc {made : List (Nat × Call)} {a : Daemon.Action} {t' : Thread}
    {c : Call} (h : Made ctx d made) (hs : d.step ctx a = some d')
    (ht : d.threads[i]? = some t) (hnot : t.stage.isPast = false)
    (ht' : d'.threads[i]? = some t') (hpast : t'.stage.isPast = true)
    (hsent : Sent ctx t' q) (hmakes : Makes ctx t' q c) :
    Made ctx d' (made ++ [(i, c)]) := by
  constructor
  · rw [List.map_append]
    refine List.nodup_append.mpr ⟨h.once, List.nodup_singleton i, ?_⟩
    rintro x hx y hy rfl
    obtain rfl := List.mem_singleton.mp hy
    obtain ⟨m, hm, rfl⟩ := List.mem_map.mp hx
    exact h.none ht hnot m hm rfl
  · intro m hm
    rcases List.mem_append.mp hm with hold | hnew
    · exact (h.kept hs).sent m hold
    · obtain rfl := List.mem_singleton.mp hnew
      exact ⟨t', q, ht', hpast, hsent, hmakes⟩

/-- A step calls the treasury once, for a thread that called nothing before;
    or not at all. -/
theorem step_calls {a : Daemon.Action} (hframed : Framed ctx d)
    (h : d.step ctx a = some d') :
    d'.world = d.world ∨ ∃ i r t t' q c, a = .advance i r
      ∧ d.threads[i]? = some t ∧ t.stage.isPast = false
      ∧ d'.threads[i]? = some t' ∧ t'.stage.isPast = true
      ∧ SameConnection t t' ∧ d.holder = none
      ∧ (t.ownerChannel = true → tokenHash ctx.host q.token
        = d.world.state.owner.capabilityTokenHash)
      ∧ (t.ownerChannel = false → t.stage = .admitted q)
      ∧ Sent ctx t q ∧ Makes ctx t q c ∧ Spoken d.world q
      ∧ (t.ownerChannel = true → q.apiVersion = apiVersion)
      ∧ d'.world = exec ctx.host c d.world := by
  rcases step_cases h with ⟨_, _, hworld, _⟩ | ⟨i, r, t, rfl, ht, hmove⟩
  · exact Or.inl hworld
  have hput : ∀ (stage : Stage), (d.put i stage).threads[i]?
      = some { t with stage := stage } := by
    intro stage
    rw [put_getElem?, if_pos rfl, ht]
    rfl
  -- Only the two serving steps reach the treasury; the rest close, answer or
  -- move on.
  cases hmove with
  | lost _ _ => exact Or.inl (close_world ..)
  | answered _ => exact Or.inl (close_world ..)
  | @servedOwner q hs hfree hchannel htoken =>
      have hsent := hframed.sent i t q ht (by rw [hs]; rfl)
      rcases handleRpcPersisted_world ctx.host q d.world with hq | ⟨hv, hq⟩
      · exact Or.inl hq
      · refine Or.inr ⟨i, r, t, _, q, _, rfl, ht, by rw [hs]; rfl, hput _, rfl,
          ⟨rfl, rfl, rfl, rfl⟩, hfree, fun _ => htoken, fun h => ?_, hsent,
          .persisted hv fun h => ?_, Or.inl hv, fun _ => hv, hq⟩
        · rw [hchannel] at h
          cases h
        · rw [hchannel] at h
          cases h
  | @servedAgent q hs hfree howner =>
      have hsent := hframed.sent i t q ht (by rw [hs]; rfl)
      have hchannel := hframed.agents i t ht (by rw [hs]; rfl)
      rcases serveAgent_world ctx r d.world hchannel howner with
        hq | ⟨c, hmakes, hspoken, hq⟩
      · exact Or.inl hq
      · refine Or.inr ⟨i, r, t, _, q, c, rfl, ht, by rw [hs]; rfl, hput _, rfl,
          ⟨rfl, rfl, rfl, rfl⟩, hfree, fun h => ?_, fun _ => hs, hsent, hmakes,
          hspoken, fun h => ?_, hq⟩
        · rw [hchannel] at h
          cases h
        · rw [hchannel] at h
          cases h
  | _ => exact Or.inl rfl

/-- **A DAEMON'S TREASURY IS CALLED**: from a treasury in a run, whatever the
    threads do in whatever order, the treasury is one that a run leads to,
    whose further calls are those of the frames; no connection makes more than
    one. -/
theorem daemon_serves_calls {owner : String} {w0 : World} {cs : List Call}
    {at_ : Int} {instant : Nat} {acts : List Daemon.Action}
    (hrun : TreasuryRun ctx.host owner w0 cs w)
    (hd : Serves ctx (.serve w at_ instant) acts d) :
    ∃ made, TreasuryRun ctx.host owner w0 (cs ++ made.map Prod.snd) d.world
      ∧ Made ctx d made := by
  have hinv : Framed ctx d ∧ ∃ made, TreasuryRun ctx.host owner w0
      (cs ++ made.map Prod.snd) d.world ∧ Made ctx d made := by
    refine hd.invariant (I := fun d => Framed ctx d ∧ ∃ made,
      TreasuryRun ctx.host owner w0 (cs ++ made.map Prod.snd) d.world
        ∧ Made ctx d made) ?_ ?_
    · have hstart : Serves ctx (.serve w at_ instant) [] (.serve w at_ instant) :=
        .start
      refine ⟨hstart.framed, [], ?_, List.nodup_nil, fun m hm => ?_⟩
      · rw [List.map_nil, List.append_nil]
        exact hrun
      · cases hm
    · rintro a d1 d2 ⟨hframed, made, hruns, hmade⟩ hs hfit
      refine ⟨hframed.step hs, ?_⟩
      rcases step_calls hframed hs with hworld | ⟨i, r, t, t', q, c, _, ht, hnot,
        ht', hpast, hsame, _, _, _, hsent, hmakes, _, _, hworld⟩
      · exact ⟨made, hworld ▸ hruns, hmade.kept hs⟩
      · refine ⟨made ++ [(i, c)], ?_, ?_⟩
        · rw [List.map_append, ← List.append_assoc]
          rw [hworld] at hfit ⊢
          exact ⟨hruns.started, hruns.calls.snoc c hfit⟩
        · exact hmade.snoc hs ht hnot ht' hpast (hsent.same hsame)
            (hmakes.same hsame)
  exact hinv.2

/-- The daemon after actions, when each is possible. -/
def runActions (ctx : ServeContext) : Daemon → List Daemon.Action →
    Option Daemon
  | d, [] => some d
  | d, a :: rest =>
      match d.step ctx a with
      | none => none
      | some d' => if Fits d'.world then runActions ctx d' rest else none

theorem runActions_serves {d'' : Daemon} {acts rest : List Daemon.Action}
    (h0 : Serves ctx d acts d') (h : runActions ctx d' rest = some d'') :
    Serves ctx d (acts ++ rest) d'' := by
  induction rest generalizing d' acts with
  | nil =>
      rw [List.append_nil, ← Option.some.inj h]
      exact h0
  | cons a rest ih =>
      unfold runActions at h
      split at h
      · cases h
      · rename_i next hstep
        split at h
        · rename_i hfit
          have hrun := ih (h0.step hstep hfit) h
          rwa [List.append_assoc] at hrun
        · cases h

/-- A library that reads one request of whatever it is given. -/
def readsRequest (q : RpcRequest) : SerdeJson where
  parse := fun _ => .ok (reread (Encode.rpcRequest q))
  write := fun _ => []
  explain := fun _ _ => ""
  checkoutSecret := fun _ => none
  isProviderOutcome := fun _ => false

/-- A daemon that is sent one request. -/
def plainContext (q : RpcRequest) : ServeContext :=
  ⟨stillHost, readsRequest q, String.length, false, none⟩

/-- A step where nothing outside answers. -/
def plainReadings : Readings where
  at_ := 1000
  instant := 0
  operationId := ""
  nonce := ""
  profiles := .ok []
  executable := fun _ => .ok ⟨⟩
  helperKey := .error ""
  helperId := .error ""
  brokerUid := 0
  helperSocket := .ok ⟨⟩
  ask := fun _ => .error .unauthorized
  process := fun _ => .error .unauthorized

/-- One connection, and that many steps of its thread. -/
def oneConnection (ownerChannel : Bool) (steps : Nat) : List Daemon.Action :=
  .accept ownerChannel true (.ok [10]) (.ok ⟨⟩)
    :: List.replicate steps (.advance 0 plainReadings)

/-- The owner's request to stop. -/
def stopFrame : RpcRequest :=
  ⟨apiVersion, "r", bootstrapToken stillHost, .ownerSetEmergencyStop true⟩

/-- The owner stops a treasury over the socket. -/
theorem daemon_serves_calls_stop : ∃ owner w0 w d made,
    TreasuryRun stillHost owner w0 (opening smallPurchase owner) w
      ∧ Serves (plainContext stopFrame) (.serve w 1000 0) (oneConnection true 4)
        d
      ∧ d.world.state.emergencyStop = true
      ∧ TreasuryRun stillHost owner w0
        (opening smallPurchase owner ++ made.map Prod.snd) d.world
      ∧ Made (plainContext stopFrame) d made := by
  have h : tryRun stillHost ⟨100000, "CAD"⟩ (opening smallPurchase) (fun w =>
      (runActions (plainContext stopFrame) (.serve w 1000 0)
        (oneConnection true 4)).any fun d => d.world.state.emergencyStop)
      = true := by
    decide +kernel
  obtain ⟨owner, w0, w, hrun, hserves⟩ := tryRun_run h
  obtain ⟨d, hd, hstop⟩ := (Option.any_eq_true _ _).mp hserves
  have hd := runActions_serves .start hd
  have hstill : TreasuryRun (plainContext stopFrame).host owner w0 _ w := hrun
  obtain ⟨made, hruns, hmade⟩ := daemon_serves_calls hstill hd
  exact ⟨owner, w0, w, d, made, hrun, hd, hstop, hruns, hmade⟩

end Treasury
