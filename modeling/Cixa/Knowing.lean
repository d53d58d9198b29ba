import Cixa.Guarding

/-! # Knowing — which capabilities a daemon lets in

    The admission does not ask the treasury; it KNOWS the capabilities that
    the treasury had when it was started or when the owner was served last.
    The owner's requests are the only ones that change the agents, and while
    one is served the treasury stays locked until the capabilities are
    replaced.  So when no request of the owner is under way, the known
    capabilities are those of the agents. -/

namespace Treasury

open CixaData CixaHost Outcome Transition Admission Codec

variable {host : Host} {ctx : ServeContext} {d d' : Daemon} {i j : Nat}
  {r : Readings} {t : Thread} {w : World} {q : RpcRequest}

/-! ## The known capabilities -/

theorem admitUnauthenticated_known (now : Nat) (s : AgentAdmissionState) :
    (s.admitUnauthenticated now).1.knownCapabilities = s.knownCapabilities := by
  unfold AgentAdmissionState.admitUnauthenticated
  dsimp only
  split
  · split
    · rfl
    · rfl
  · split
    · rfl
    · rfl

theorem admitChannel_known (now : Nat) (s : AgentAdmissionState) :
    (s.admitChannel now).1.knownCapabilities = s.knownCapabilities := by
  have hwindow : (s.channelWindow now).knownCapabilities
      = s.knownCapabilities := by
    unfold AgentAdmissionState.channelWindow
    split
    · rfl
    · rfl
  unfold AgentAdmissionState.admitChannel
  dsimp only
  split
  · exact hwindow
  · exact hwindow

theorem admitCapability_known (now : Nat) (f : Fingerprint)
    (s : AgentAdmissionState) :
    (s.admitCapability now f).1.knownCapabilities = s.knownCapabilities := by
  unfold AgentAdmissionState.admitCapability
  dsimp only
  split
  · rfl
  · split
    · rfl
    · rfl

theorem dropCapability_known (f : Fingerprint) (s : AgentAdmissionState) :
    (s.dropCapability f).knownCapabilities = s.knownCapabilities := by
  unfold AgentAdmissionState.dropCapability
  split
  · rfl
  · rfl

/-- A capability of the agents is that of an agent that is not revoked. -/
theorem mem_activeAgentCapabilities {s : TreasuryState} {at_ expiresAt : Int}
    {hash : String} : (hash, expiresAt) ∈ activeAgentCapabilities s at_
      ↔ ∃ A record, s.agents.get? A = some record
        ∧ record.capabilityTokenHash = hash ∧ record.revoked = false
        ∧ record.expiresAt = expiresAt ∧ at_ < expiresAt := by
  unfold activeAgentCapabilities
  rw [List.mem_map]
  constructor
  · rintro ⟨record, hmem, heq⟩
    obtain ⟨hin, hactive⟩ := List.mem_filter.mp hmem
    obtain ⟨A, hA⟩ := SortedMap.mem_values.mp hin
    rw [Bool.and_eq_true, Bool.not_eq_true', decide_eq_true_eq] at hactive
    cases heq
    exact ⟨A, record, hA, rfl, hactive.1, rfl, hactive.2⟩
  · rintro ⟨A, record, hA, rfl, hactive, rfl, hlate⟩
    refine ⟨record, List.mem_filter.mpr ⟨SortedMap.mem_values_of_get? hA, ?_⟩, rfl⟩
    rw [hactive, decide_eq_true hlate]
    rfl

/-- Only the agents count. -/
theorem activeAgentCapabilities_congr {s s' : TreasuryState}
    (h : s'.agents = s.agents) (at_ : Int) :
    activeAgentCapabilities s' at_ = activeAgentCapabilities s at_ := by
  unfold activeAgentCapabilities
  rw [h]

/-! ## Steps -/

/-- Whether the owner's request is served and the capabilities are not
    replaced yet. -/
def Stage.isUpdating : Stage → Bool
  | .updating _ _ => true
  | _ => false

/-- What a step does to the known capabilities: nothing, and to the agents
    neither; or the owner is served; or the capabilities are replaced. -/
inductive Informs (ctx : ServeContext) (d : Daemon) (i : Nat) (r : Readings)
    (t : Thread) (d' : Daemon) : Prop where
  | quiet {stage : Stage} (hs : t.stage.isUpdating = false)
      (hs' : stage.isUpdating = false)
      (hthreads : d'.threads = (d.put i stage).threads)
      (hholder : d'.holder = d.holder)
      (hknown : d'.admission.knownCapabilities = d.admission.knownCapabilities)
      (hagents : d'.world.state.agents = d.world.state.agents)
  | served {response : RpcResponse} (hs : t.stage.isUpdating = false)
      (hfree : d.holder = none)
      (hthreads : d'.threads = (d.put i (.updating response
        (activeAgentCapabilities d'.world.state r.at_))).threads)
      (hholder : d'.holder = some i)
      (hknown : d'.admission.knownCapabilities = d.admission.knownCapabilities)
  | replaced {response : RpcResponse} {capabilities : List (String × Int)}
      (hs : t.stage = .updating response capabilities)
      (hthreads : d'.threads = (d.put i (.writing response)).threads)
      (hholder : d'.holder = none)
      (hknown : d'.admission.knownCapabilities = .ofList capabilities)
      (hworld : d'.world = d.world)

theorem ThreadStep.informs (h : ThreadStep ctx d i r t d')
    (ht : d.threads[i]? = some t) (hd : InOrder ctx d) :
    Informs ctx d i r t d' := by
  -- a step at which the owner is not being served
  have hquiet : ∀ {stage : Stage}, t.stage.isUpdating = false →
      stage.isUpdating = false → d' = d.put i stage → Informs ctx d i r t d' := by
    rintro stage hs hs' rfl
    exact .quiet hs hs' rfl rfl rfl rfl
  have hclose : ∀ sent, t.stage.isUpdating = false → d' = d.close i t sent →
      Informs ctx d i r t d' := by
    rintro sent hs rfl
    refine .quiet hs rfl (close_threads d i t sent) ?_
      (congrArg _ (close_admission d i t sent)) ?_
    · unfold Daemon.close
      split
      · rfl
      · rfl
    · unfold Daemon.close
      split
      · rfl
      · rfl
  cases h with
  | lost hs _ => exact hclose _ (by rw [hs]; rfl) rfl
  | answered hs => exact hclose _ (by rw [hs]; rfl) rfl
  | malformed hs _ _ => exact hquiet (by rw [hs]; rfl) rfl rfl
  | framed hs _ _ _ => exact hquiet (by rw [hs]; rfl) rfl rfl
  | turnedAway hs _ => exact hquiet (by rw [hs]; rfl) rfl rfl
  | letThrough hs _ _ _ => exact hquiet (by rw [hs]; rfl) rfl rfl
  | ownerOnly hs => exact hquiet (by rw [hs]; rfl) rfl rfl
  | servedOwner hs hfree _ _ =>
      exact .served (by rw [hs]; rfl) hfree rfl rfl rfl
  | updated hs => exact .replaced hs rfl rfl rfl rfl
  | @asked q hs =>
      refine hquiet (by rw [hs]; rfl) ?_ rfl
      unfold Daemon.askStage
      split
      · rfl
      · rfl
  | turnedUnknown hs =>
      exact .quiet (by rw [hs]; rfl) rfl rfl rfl
        (admitUnauthenticated_known _ _) rfl
  | channel hs =>
      refine .quiet (by rw [hs]; rfl) ?_ rfl rfl (admitChannel_known _ _) rfl
      split
      · rfl
      · rfl
  | capability hs =>
      refine .quiet (by rw [hs]; rfl) ?_ rfl rfl (admitCapability_known _ _ _) rfl
      split
      · rfl
      · rfl
  | left hs => exact .quiet (by rw [hs]; rfl) rfl rfl rfl rfl rfl
  | parted hs => exact .quiet (by rw [hs]; rfl) rfl rfl rfl rfl rfl
  | dropped hs =>
      exact .quiet (by rw [hs]; rfl) rfl rfl rfl (dropCapability_known _ _) rfl
  | @servedAgent q hs hfree howner =>
      refine .quiet (by rw [hs]; rfl) rfl rfl rfl rfl ?_
      have hchannel := hd.framed.agents i t ht (by rw [hs]; rfl)
      show (Daemon.serveAgent ctx d.world r q).2.state.agents = _
      rcases serveAgent_world ctx r d.world hchannel howner with
        hq | ⟨c, hmakes, _, hq⟩
      · rw [hq]
      · rw [hq]
        exact ((hmakes.agentCall hchannel).office
          (hd.kept.workable hd.fits)).agents

/-- **WHAT A DAEMON KNOWS**: the capabilities of its agents at some time, or
    the owner is served and they are about to be replaced. -/
structure Informed (d : Daemon) (times : List Int) : Prop where
  idle : d.holder = none → ∃ at_ ∈ times, d.admission.knownCapabilities
    = .ofList (activeAgentCapabilities d.world.state at_)
  held : ∀ j, d.holder = some j → ∃ t response at_, at_ ∈ times
    ∧ d.threads[j]? = some t ∧ t.stage = .updating response
      (activeAgentCapabilities d.world.state at_)
  updating : ∀ (j : Nat) t, d.threads[j]? = some t → t.stage.isUpdating = true →
    d.holder = some j

theorem Informs.informed {times : List Int} (h : Informs ctx d i r t d')
    (ht : d.threads[i]? = some t) (hd : Informed d times) :
    Informed d' (times ++ [r.at_]) := by
  have hmem : r.at_ ∈ times ++ [r.at_] :=
    List.mem_append_right _ (List.mem_singleton_self _)
  have hput : ∀ {stage : Stage} {j : Nat} {t' : Thread},
      (d.put i stage).threads[j]? = some t' →
      (i = j ∧ t' = { t with stage := stage }) ∨ d.threads[j]? = some t' := by
    intro stage j t' ht'
    rw [put_getElem?] at ht'
    by_cases hij : i = j
    · subst hij
      rw [if_pos rfl, ht] at ht'
      exact Or.inl ⟨rfl, (Option.some.inj ht').symm⟩
    · rw [if_neg hij] at ht'
      exact Or.inr ht'
  -- only serving the owner and replacing the capabilities change who is known
  cases h with
  | @quiet stage hs hs' hthreads hholder hknown hagents =>
      have hcaps := activeAgentCapabilities_congr hagents
      refine ⟨fun hfree => ?_, fun j hj => ?_, fun j t' ht' hup => ?_⟩
      · obtain ⟨at_, hat, heq⟩ := hd.idle (hholder ▸ hfree)
        exact ⟨at_, List.mem_append_left _ hat,
          by rw [hknown, hcaps, heq]⟩
      · obtain ⟨u, response, at_, hat, hu, heq⟩ := hd.held j (hholder ▸ hj)
        refine ⟨u, response, at_, List.mem_append_left _ hat, ?_,
          by rw [hcaps, heq]⟩
        rw [hthreads, put_getElem?, if_neg, hu]
        rintro rfl
        cases hu.symm.trans ht
        rw [heq] at hs
        cases hs
      · rw [hthreads] at ht'
        rw [hholder]
        rcases hput ht' with ⟨_, rfl⟩ | hold
        · rw [hs'] at hup
          cases hup
        · exact hd.updating j t' hold hup
  | @served response hs hfree hthreads hholder hknown =>
      refine ⟨fun h => ?_, fun j hj => ?_, fun j t' ht' hup => ?_⟩
      · rw [hholder] at h
        cases h
      · rw [hholder] at hj
        cases hj
        refine ⟨⟨t.ownerChannel, t.separate, t.arrival, t.departure, .updating response
          (activeAgentCapabilities d'.world.state r.at_)⟩, response, r.at_,
          hmem, ?_, rfl⟩
        · rw [hthreads, put_getElem?, if_pos rfl, ht]
          rfl
      · rw [hthreads] at ht'
        rcases hput ht' with ⟨rfl, _⟩ | hold
        · exact hholder
        · cases (hd.updating j t' hold hup).symm.trans hfree
  | @replaced response capabilities hs hthreads hholder hknown hworld =>
      have hi : d.holder = some i :=
        hd.updating i t ht (by rw [hs]; rfl)
      refine ⟨fun _ => ?_, fun j hj => ?_, fun j t' ht' hup => ?_⟩
      · obtain ⟨u, _, at_, hat, hu, heq⟩ := hd.held i hi
        cases hu.symm.trans ht
        cases hs.symm.trans heq
        exact ⟨at_, List.mem_append_left _ hat, by rw [hknown, hworld]⟩
      · rw [hholder] at hj
        cases hj
      · rw [hthreads] at ht'
        rcases hput ht' with ⟨_, rfl⟩ | hold
        · cases hup
        · obtain rfl := Option.some.inj
            ((hd.updating j t' hold hup).symm.trans hi)
          rw [put_getElem?, if_pos rfl, ht] at ht'
          cases ht'
          cases hup

/-- The times of the steps. -/
def times (acts : List Daemon.Action) : List Int :=
  acts.filterMap fun
    | .accept .. => none
    | .advance _ r => some r.at_

theorem Informed.step {a : Daemon.Action} {ts : List Int} (hd : Informed d ts)
    (hin : InOrder ctx d) (h : d.step ctx a = some d') :
    Informed d' (ts ++ times [a]) := by
  cases a with
  | accept ownerChannel separate arrival departure =>
      obtain rfl := Option.some.inj h
      obtain ⟨u, hthreads, hworld, hadmission, hholder, hnew, _⟩ :=
        accept_threads ctx d ownerChannel separate arrival departure
      have hts : ts ++ times [.accept ownerChannel separate arrival departure] = ts :=
        List.append_nil _
      rw [hts]
      refine ⟨fun hfree => ?_, fun j hj => ?_, fun j t' ht' hup => ?_⟩
      · rw [hworld, hadmission]
        exact hd.idle (hholder ▸ hfree)
      · obtain ⟨t, response, at_, hat, ht, hs⟩ := hd.held j (hholder ▸ hj)
        refine ⟨t, response, at_, hat, ?_, hworld ▸ hs⟩
        rw [hthreads, List.getElem?_append_left
          (List.getElem?_eq_some_iff.mp ht).1]
        exact ht
      · rw [hthreads] at ht'
        rw [hholder]
        by_cases hj : j < d.threads.length
        · rw [List.getElem?_append_left hj] at ht'
          exact hd.updating j t' ht' hup
        · rw [List.getElem?_append_right (Nat.not_lt.mp hj)] at ht'
          obtain rfl := List.mem_singleton.mp (List.mem_of_getElem? ht')
          rcases hnew with hs | ⟨sent, hs⟩
          · rw [hs] at hup
            cases hup
          · rw [hs] at hup
            cases hup
  | advance i r =>
      obtain ⟨t, ht, hmove⟩ := Option.bind_eq_some_iff.mp h
      exact ((advance_threadStep hmove).informs ht hin).informed ht hd

theorem Serves.informed {owner : String} {w0 : World} {cs : List Call}
    {at_ : Int} {instant : Nat} {acts : List Daemon.Action}
    (hrun : TreasuryRun ctx.host owner w0 cs w)
    (h : Serves ctx (.serve w at_ instant) acts d) :
    Informed d (at_ :: times acts) := by
  induction h with
  | start =>
      refine ⟨fun _ => ⟨at_, List.mem_cons_self .., rfl⟩, fun j hj => ?_,
        fun j t ht => ?_⟩
      · cases hj
      · cases ht
  | @step acts a d d' hd hs hfit ih =>
      have hnext := ih.step (hd.inOrder hrun) hs
      unfold times at hnext ⊢
      rwa [List.filterMap_append]

/-! ## The theorems -/

theorem isKnownCapability_iff {a : AgentAdmissionState} {at_ : Int}
    {token : String} : isKnownCapability host a at_ token = true
      ↔ validateCapabilityToken token = .ok ⟨⟩ ∧ ∃ expiresAt,
        a.knownCapabilities.get? (tokenHash host token) = some expiresAt
          ∧ at_ < expiresAt := by
  unfold isKnownCapability validateCapabilityToken
  rw [Checks.refuseIf_eq_ok, Bool.and_eq_true, Bool.and_eq_true,
    decide_eq_true_eq, Option.any_eq_true, not_or, not_not, Bool.not_eq_false]
  refine and_congr_right fun _ => ?_
  constructor
  · rintro ⟨expiresAt, hget, hlate⟩
    exact ⟨expiresAt, hget, of_decide_eq_true hlate⟩
  · rintro ⟨expiresAt, hget, hlate⟩
    exact ⟨expiresAt, hget, decide_eq_true hlate⟩

/-- **THE GATE KNOWS THE AGENTS**: when no request of the owner is under way,
    a request passes only with the token of an agent that is neither revoked
    nor expired.  And it does pass with such a token, if no other agent was
    given the same and the clock was not set back. -/
theorem gate_knows_agents {owner : String} {w0 : World} {cs : List Call}
    {at_ : Int} {instant : Nat} {acts : List Daemon.Action}
    (hrun : TreasuryRun ctx.host owner w0 cs w)
    (hd : Serves ctx (.serve w at_ instant) acts d) (hfree : d.holder = none)
    (ht : d.threads[i]? = some t) (hs : t.stage = .asking q)
    (hstep : d.step ctx (.advance i r) = some d') :
    (d'.threads[i]? = some { t with stage := .known q }
        ∨ d'.threads[i]? = some { t with stage := .unknown q })
      ∧ (d'.threads[i]? = some { t with stage := .known q } →
        ∃ A record, d.world.state.agents.get? A = some record
          ∧ record.capabilityTokenHash = tokenHash ctx.host q.token
          ∧ record.revoked = false ∧ r.at_ < record.expiresAt)
      ∧ ((∀ past ∈ at_ :: times acts, past ≤ r.at_) →
        validateCapabilityToken q.token = .ok ⟨⟩ → ∀ A record,
        d.world.state.agents.get? A = some record →
        record.capabilityTokenHash = tokenHash ctx.host q.token →
        record.revoked = false → r.at_ < record.expiresAt →
        (∀ B other, d.world.state.agents.get? B = some other →
          other.capabilityTokenHash = tokenHash ctx.host q.token →
          other.revoked = false → B = A) →
        d'.threads[i]? = some { t with stage := .known q }) := by
  obtain ⟨last, hlast, hknown⟩ := (hd.informed hrun).idle hfree
  -- the step is the look at the known capabilities, and nothing else
  have hnext : d'.threads[i]?
      = some { t with stage := d.askStage ctx r q } := by
    obtain ⟨t', ht', hmove⟩ := Option.bind_eq_some_iff.mp hstep
    obtain rfl := Option.some.inj (ht'.symm.trans ht)
    unfold Daemon.advance at hmove
    rw [hs] at hmove
    obtain rfl := Option.some.inj hmove
    rw [put_getElem?, if_pos rfl, ht]
    rfl
  rw [hnext]
  unfold Daemon.askStage
  by_cases hpass : isKnownCapability ctx.host d.admission r.at_ q.token = true
  · rw [if_pos hpass]
    refine ⟨Or.inl rfl, fun _ => ?_, fun _ _ _ _ _ _ _ _ _ => rfl⟩
    obtain ⟨_, expiresAt, hget, hlate⟩ := isKnownCapability_iff.mp hpass
    rw [hknown] at hget
    obtain ⟨A, record, hA, hhash, hactive, rfl, _⟩ :=
      mem_activeAgentCapabilities.mp
        (mem_ofList (SortedMap.get?_eq_some.mp hget))
    exact ⟨A, record, hA, hhash, hactive, hlate⟩
  · rw [if_neg hpass]
    refine ⟨Or.inr rfl, fun h => ?_, fun hclock hvalid A record hA hhash hactive
      hlate honly => absurd ?_ hpass⟩
    · cases h
    -- the agent was active at the last replacement, too
    · have hmem : (tokenHash ctx.host q.token, record.expiresAt)
          ∈ activeAgentCapabilities d.world.state last :=
        mem_activeAgentCapabilities.mpr ⟨A, record, hA, hhash, hactive, rfl,
          lt_of_le_of_lt (hclock last hlast) hlate⟩
      obtain ⟨expiresAt, hget⟩ := SortedMap.mem_keys.mp
        (key_ofList (List.mem_map_of_mem hmem))
      obtain ⟨B, other, hB, hhash', hactive', rfl, _⟩ :=
        mem_activeAgentCapabilities.mp
          (mem_ofList (SortedMap.get?_eq_some.mp hget))
      obtain rfl := honly B other hB hhash' hactive'
      obtain rfl := Option.some.inj (hB.symm.trans hA)
      exact isKnownCapability_iff.mpr ⟨hvalid, _, hknown ▸ hget, hlate⟩

/-- The request of a thread whose capability is known. -/
def Stage.knownRequest : Stage → Option RpcRequest
  | .known q => some q
  | .halfway q => some q
  | .leaving q => some q
  | .admitted q => some q
  | .served q _ => some q
  | _ => none

/-- The request of a thread that asks. -/
def Stage.asked : Stage → Option RpcRequest
  | .asking q => some q
  | _ => none

/-- The token of the one agent is known. -/
theorem gate_knows_agents_buy : ∃ owner w0 w d d' A record,
    TreasuryRun stillHost owner w0 [agentWith Policy.conservativeDemo owner] w
      ∧ Serves (plainContext buyFrame) (.serve w 1000 0) (oneConnection false 2)
        d
      ∧ d.step (plainContext buyFrame) (.advance 0 plainReadings) = some d'
      ∧ d.world.state.agents.get? A = some record
      ∧ record.capabilityTokenHash = tokenHash stillHost agentToken
      ∧ record.revoked = false ∧ 1000 < record.expiresAt := by
  have h : tryRun stillHost ⟨100000, "CAD"⟩
      (fun owner => [agentWith Policy.conservativeDemo owner]) (fun w =>
      (runActions (plainContext buyFrame) (.serve w 1000 0)
        (oneConnection false 2)).any fun d =>
          (d.step (plainContext buyFrame) (.advance 0 plainReadings)).any fun d' =>
            decide (d.holder = none
              ∧ (d.threads[0]?.bind fun t => t.stage.asked).map RpcRequest.token
                = some agentToken
              ∧ (d'.threads[0]?.bind fun t => t.stage.knownRequest).isSome
                = true)) = true := by
    decide +kernel
  obtain ⟨owner, w0, w, hrun, hserves⟩ := tryRun_run h
  obtain ⟨d, hd, hnext⟩ := (Option.any_eq_true _ _).mp hserves
  obtain ⟨d', hstep, hcheck⟩ := (Option.any_eq_true _ _).mp hnext
  obtain ⟨hfree, hasked, hknown⟩ := of_decide_eq_true hcheck
  obtain ⟨q, hq, htoken⟩ := Option.map_eq_some_iff.mp hasked
  obtain ⟨t, ht, hs⟩ := Option.bind_eq_some_iff.mp hq
  have hs : t.stage = .asking q := by
    cases hstage : t.stage with
    | asking q' =>
        rw [hstage] at hs
        rw [Option.some.inj hs]
    | _ =>
        rw [hstage] at hs
        cases hs
  have hd := runActions_serves .start hd
  have hstill : TreasuryRun (plainContext buyFrame).host owner w0 _ w := hrun
  obtain ⟨hnow, hactive, _⟩ := gate_knows_agents hstill hd hfree ht hs hstep
  have hpassed : d'.threads[0]? = some { t with stage := .known q } := by
    rcases hnow with hpass | hfail
    · exact hpass
    · rw [hfail] at hknown
      cases hknown
  obtain ⟨A, record, hA, hhash, hlive⟩ := hactive hpassed
  rw [htoken] at hhash
  exact ⟨owner, w0, w, d, d', A, record, hrun, hd, hstep, hA, hhash, hlive⟩

/-! ## Tokens that are taken back -/

/-- A step lets a request through only when it asks. -/
theorem ThreadStep.knownRequest (h : ThreadStep ctx d i r t d') :
    ∃ stage, d'.threads = (d.put i stage).threads
      ∧ ∀ q, stage.knownRequest = some q → t.stage.knownRequest = some q
        ∨ isKnownCapability ctx.host d.admission r.at_ q.token = true := by
  cases h with
  | lost _ _ => exact ⟨_, close_threads d i t none, fun _ h => (by cases h)⟩
  | answered _ => exact ⟨_, close_threads d i t _, fun _ h => (by cases h)⟩
  | @asked q hs =>
      refine ⟨d.askStage ctx r q, rfl, fun q' hq' => ?_⟩
      unfold Daemon.askStage at hq'
      split at hq'
      · rename_i hpass
        cases hq'
        exact Or.inr hpass
      · cases hq'
  | channel hs =>
      refine ⟨_, rfl, fun q' hq' => Or.inl ?_⟩
      rw [hs]
      split at hq'
      · exact hq'
      · cases hq'
  | capability hs =>
      refine ⟨_, rfl, fun q' hq' => Or.inl ?_⟩
      rw [hs]
      split at hq'
      · exact hq'
      · exact hq'
  | ownerOnly hs => exact ⟨_, rfl, fun _ h => Or.inl (by rw [hs]; exact h)⟩
  | servedAgent hs _ _ =>
      exact ⟨_, rfl, fun _ h => Or.inl (by rw [hs]; exact h)⟩
  | _ => exact ⟨_, rfl, fun _ h => (by cases h)⟩

/-- A property of every daemon along a run. -/
def AllAlong (ctx : ServeContext) (d : Daemon) (acts : List Daemon.Action)
    (P : Daemon → Prop) : Prop :=
  ∀ before after d', acts = before ++ after → Serves ctx d before d' → P d'

/-- No agent that is not revoked has a token with this hash. -/
def Outcast (hash : String) (d : Daemon) : Prop :=
  ∀ A record, d.world.state.agents.get? A = some record →
    record.capabilityTokenHash = hash → record.revoked = true

theorem Outcast.capabilities {hash : String} (h : Outcast hash d) (at_ e : Int) :
    (hash, e) ∉ activeAgentCapabilities d.world.state at_ := by
  intro hmem
  obtain ⟨A, record, hA, hhash, hactive, _⟩ :=
    mem_activeAgentCapabilities.mp hmem
  rw [h A record hA hhash] at hactive
  cases hactive

/-- The admission does not know a hash, and is not about to. -/
structure Shunned (hash : String) (d : Daemon) : Prop where
  known : d.admission.knownCapabilities.get? hash = none
  updating : ∀ (j : Nat) t response capabilities, d.threads[j]? = some t →
    t.stage = .updating response capabilities → ∀ e, (hash, e) ∉ capabilities

theorem get?_ofList_none {hash : String} {l : List (String × Int)}
    (h : ∀ e, (hash, e) ∉ l) : (SortedMap.ofList l).get? hash = none := by
  refine Option.eq_none_iff_forall_ne_some.mpr fun e he => ?_
  exact h e (mem_ofList (SortedMap.get?_eq_some.mp he))

theorem Informs.shunned {hash : String} (h : Informs ctx d i r t d')
    (ht : d.threads[i]? = some t) (hd : Shunned hash d)
    (hout : Outcast hash d') : Shunned hash d' := by
  have hput : ∀ {stage : Stage}, d'.threads = (d.put i stage).threads →
      (∀ response capabilities, stage = .updating response capabilities →
        ∀ e, (hash, e) ∉ capabilities) →
      ∀ (j : Nat) u response capabilities, d'.threads[j]? = some u →
        u.stage = .updating response capabilities →
        ∀ e, (hash, e) ∉ capabilities := by
    intro stage hthreads hstage j u response capabilities hu hs
    rw [hthreads, put_getElem?] at hu
    by_cases hij : i = j
    · subst hij
      rw [if_pos rfl, ht] at hu
      cases hu
      exact hstage _ _ hs
    · rw [if_neg hij] at hu
      exact hd.updating j u _ _ hu hs
  cases h with
  | @quiet stage hs hs' hthreads hholder hknown hagents =>
      refine ⟨hknown ▸ hd.known, hput hthreads fun _ _ hup => ?_⟩
      rw [hup] at hs'
      cases hs'
  | served hs hfree hthreads hholder hknown =>
      refine ⟨hknown ▸ hd.known, hput hthreads fun _ _ hup => ?_⟩
      cases hup
      exact hout.capabilities r.at_
  | @replaced response capabilities hs hthreads hholder hknown hworld =>
      refine ⟨?_, hput hthreads fun _ _ hup => ?_⟩
      · rw [hknown]
        exact get?_ofList_none (hd.updating i t _ _ ht hs)
      · cases hup

theorem Shunned.step {hash : String} {a : Daemon.Action} (hd : Shunned hash d)
    (hin : InOrder ctx d) (h : d.step ctx a = some d')
    (hout : Outcast hash d') : Shunned hash d' := by
  cases a with
  | accept ownerChannel separate arrival departure =>
      obtain rfl := Option.some.inj h
      obtain ⟨u, hthreads, _, hadmission, _, hnew, _⟩ :=
        accept_threads ctx d ownerChannel separate arrival departure
      refine ⟨hadmission ▸ hd.known, fun j t response capabilities ht hs => ?_⟩
      rw [hthreads] at ht
      by_cases hj : j < d.threads.length
      · rw [List.getElem?_append_left hj] at ht
        exact hd.updating j t response capabilities ht hs
      · rw [List.getElem?_append_right (Nat.not_lt.mp hj)] at ht
        obtain rfl := List.mem_singleton.mp (List.mem_of_getElem? ht)
        rcases hnew with hs' | ⟨sent, hs'⟩
        · cases hs.symm.trans hs'
        · cases hs.symm.trans hs'
  | advance i r =>
      obtain ⟨t, ht, hmove⟩ := Option.bind_eq_some_iff.mp h
      exact ((advance_threadStep hmove).informs ht hin).shunned ht hd hout

/-- While the admission does not know a hash, it lets no request with it
    through. -/
theorem Shunned.known_before {hash : String} {a : Daemon.Action}
    (hd : Shunned hash d) (h : d.step ctx a = some d')
    (ht : d'.threads[j]? = some t) (hq : t.stage.knownRequest = some q)
    (hhash : tokenHash ctx.host q.token = hash) :
    ∃ t, d.threads[j]? = some t ∧ t.stage.knownRequest = some q := by
  rcases step_cases h with ⟨u, hthreads, _, _, _, hnew, _⟩
    | ⟨i, r, u, _, hu, hmove⟩
  · rw [hthreads] at ht
    by_cases hj : j < d.threads.length
    · rw [List.getElem?_append_left hj] at ht
      exact ⟨t, ht, hq⟩
    · rw [List.getElem?_append_right (Nat.not_lt.mp hj)] at ht
      obtain rfl := List.mem_singleton.mp (List.mem_of_getElem? ht)
      rcases hnew with hs | ⟨sent, hs⟩
      · rw [hs] at hq
        cases hq
      · rw [hs] at hq
        cases hq
  · obtain ⟨stage, hthreads, hstage⟩ := hmove.knownRequest
    rw [hthreads, put_getElem?] at ht
    by_cases hij : i = j
    · subst hij
      rw [if_pos rfl, hu] at ht
      cases ht
      rcases hstage q hq with hold | hpass
      · exact ⟨u, hu, hold⟩
      · obtain ⟨_, e, hget, _⟩ := isKnownCapability_iff.mp hpass
        rw [hhash, hd.known] at hget
        cases hget
    · rw [if_neg hij] at ht
      exact ⟨t, ht, hq⟩

theorem Serves.of_nil {acts : List Daemon.Action} (h : Serves ctx d acts d')
    (hnil : acts = []) : d' = d := by
  cases h with
  | start => rfl
  | step _ _ _ =>
      cases (List.append_eq_nil_iff.mp hnil).2

theorem Serves.trans {acts more : List Daemon.Action} {d'' : Daemon}
    (h : Serves ctx d acts d') (h' : Serves ctx d' more d'') :
    Serves ctx d (acts ++ more) d'' := by
  induction h' with
  | start =>
      rw [List.append_nil]
      exact h
  | step _ hs hfit ih =>
      rw [← List.append_assoc]
      exact ih.step hs hfit

/-- **A TOKEN TAKEN BACK STAYS OUT**: from a moment when no request of the
    owner is under way and no agent has a token but revoked ones, and as long
    as none is given it, every request with it that was not let through by
    then is never let through. -/
theorem revoked_tokens_stay_out {owner : String} {w0 : World} {cs : List Call}
    {at_ : Int} {instant : Nat} {acts more : List Daemon.Action}
    (hrun : TreasuryRun ctx.host owner w0 cs w)
    (hd : Serves ctx (.serve w at_ instant) acts d) (hfree : d.holder = none)
    (hmore : Serves ctx d more d')
    (hout : AllAlong ctx d more (Outcast (tokenHash ctx.host q.token)))
    (ht : d'.threads[j]? = some t) (hq : t.stage.knownRequest = some q) :
    ∃ t, d.threads[j]? = some t ∧ t.stage.knownRequest = some q := by
  have hstart : Shunned (tokenHash ctx.host q.token) d := by
    have hinformed := hd.informed hrun
    have hhere := hout [] more d rfl .start
    refine ⟨?_, fun j t response capabilities ht hs => ?_⟩
    · obtain ⟨last, _, hknown⟩ := hinformed.idle hfree
      rw [hknown]
      exact get?_ofList_none (hhere.capabilities last)
    · cases (hinformed.updating j t ht (by rw [hs]; rfl)).symm.trans hfree
  have hinv : Shunned (tokenHash ctx.host q.token) d'
      ∧ ∀ (j : Nat) t, d'.threads[j]? = some t → t.stage.knownRequest = some q →
        ∃ t, d.threads[j]? = some t ∧ t.stage.knownRequest = some q := by
    clear ht hq
    -- a thread that knows the token now knew it at the start
    induction hmore with
    | start => exact ⟨hstart, fun j t ht hq => ⟨t, ht, hq⟩⟩
    | @step more a d1 d2 hprev hs hfit ih =>
        obtain ⟨hshunned, hbefore⟩ := ih fun before after d' heq hserves =>
          hout before (after ++ [a]) d' (by rw [heq, List.append_assoc]) hserves
        have hnext := hout (more ++ [a]) [] d2 (List.append_nil _).symm
          (hprev.step hs hfit)
        refine ⟨hshunned.step ((hd.trans hprev).inOrder hrun) hs hnext,
          fun j t ht hq => ?_⟩
        obtain ⟨t', ht', hq'⟩ := hshunned.known_before hs ht hq rfl
        exact hbefore j t' ht' hq'
  exact hinv.2 j t ht hq

/-- The owner's request to revoke the agent. -/
def revokeFrame : RpcRequest :=
  ⟨apiVersion, "r", bootstrapToken stillHost,
    .ownerRevokeAgent (idOfDraw stillHost "agent" 4)⟩

/-- A daemon that is sent two requests, apart by their length. -/
def twoFrames : ServeContext :=
  { plainContext buyFrame with
    serde := { readsRequest buyFrame with
      parse := fun bytes => .ok (reread (Encode.rpcRequest
        (if bytes.length = 1 then buyFrame else revokeFrame))) } }

/-- The agent's request is let through, and then the owner revokes the
    agent. -/
def revokedMeanwhile : List Daemon.Action :=
  oneConnection false 3 ++ .accept true true (.ok [32, 10]) (.ok ⟨⟩)
    :: List.replicate 4 (.advance 1 plainReadings)

/-- What was let through before the agent was revoked is the agent's. -/
theorem revoked_tokens_stay_out_buy : ∃ owner w0 w d d' t q,
    TreasuryRun stillHost owner w0 [agentWith Policy.conservativeDemo owner] w
      ∧ Serves twoFrames (.serve w 1000 0) revokedMeanwhile d
      ∧ Serves twoFrames d [.advance 0 plainReadings] d'
      ∧ Outcast (tokenHash stillHost q.token) d'
      ∧ d.threads[0]? = some t ∧ t.stage.knownRequest = some q := by
  have h : tryRun stillHost ⟨100000, "CAD"⟩
      (fun owner => [agentWith Policy.conservativeDemo owner]) (fun w =>
      (runActions twoFrames (.serve w 1000 0) revokedMeanwhile).any fun d =>
        (d.step twoFrames (.advance 0 plainReadings)).any fun d' =>
          decide (Fits d'.world ∧ d.holder = none
            ∧ (∀ record ∈ d.world.state.agents.values, record.revoked = true)
            ∧ (∀ record ∈ d'.world.state.agents.values, record.revoked = true)
            ∧ (d'.threads[0]?.bind fun t => t.stage.knownRequest).isSome
              = true)) = true := by
    decide +kernel
  obtain ⟨owner, w0, w, hrun, hserves⟩ := tryRun_run h
  obtain ⟨d, hd, hnext⟩ := (Option.any_eq_true _ _).mp hserves
  obtain ⟨d', hstep, hcheck⟩ := (Option.any_eq_true _ _).mp hnext
  obtain ⟨hfit, hfree, hout, hout', hknown⟩ := of_decide_eq_true hcheck
  obtain ⟨q, hq⟩ := Option.isSome_iff_exists.mp hknown
  obtain ⟨t, ht, hs⟩ := Option.bind_eq_some_iff.mp hq
  have hd := runActions_serves .start hd
  have hmore : Serves twoFrames d ([] ++ [.advance 0 plainReadings]) d' :=
    .step .start hstep hfit
  have houtcast : ∀ {d : Daemon},
      (∀ record ∈ d.world.state.agents.values, record.revoked = true) →
      ∀ hash, Outcast hash d := fun h _ _ record hA _ =>
    h record (SortedMap.mem_values_of_get? hA)
  have hall : AllAlong twoFrames d ([] ++ [.advance 0 plainReadings])
      (Outcast (tokenHash stillHost q.token)) := by
    intro before after d1 heq hserves
    cases hserves with
    | start => exact houtcast hout _
    | @step acts a d2 _ hprev hstep' hfit' =>
        obtain rfl : acts = [] := by
          have hlen := congrArg List.length heq
          simp only [List.length_append, List.length_cons, List.length_nil]
            at hlen
          exact List.length_eq_zero_iff.mp (by omega)
        cases heq
        obtain rfl := hprev.of_nil rfl
        cases hstep.symm.trans hstep'
        exact houtcast hout' _
  have hstill : TreasuryRun twoFrames.host owner w0 _ w := hrun
  obtain ⟨u, hu, hk⟩ :=
    revoked_tokens_stay_out hstill hd hfree hmore hall ht hs
  exact ⟨owner, w0, w, d, d', u, q, hrun, hd, hmore, houtcast hout' _, hu, hk⟩

end Treasury
