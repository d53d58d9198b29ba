import Cixa.Allowlisting
import Cixa.Expiry

/-! # Stability — what creation allows, execution decides again

    An intent that creation allowed is decided AGAIN before its funds are
    reserved, by the same policy over a state that now holds the intent
    itself.  The ledger, the provider and every budget are what they were,
    but the intent counts as a recent one: the rate limit sees one more.

    So an execution right behind the creation goes through exactly when the
    rate limit had room for TWO, and the intent's own expiries do not leave
    the 64-bit range. -/

namespace Treasury

open CixaData CixaHost Outcome Checks Transition

variable {host : Host} {w w' v : World} {s s' : TreasuryState}
  {i : PurchaseIntent} {t : Int}

/-! ## The ledger speaks of stored intents -/

/-- Every ledger event about an intent is about a stored one. -/
def Anchored (s : TreasuryState) : Prop :=
  ∀ e ∈ s.ledger, ∀ id, e.intentId = some id →
    ∃ i, s.intents.get? id = some i

theorem Anchored.grow {id : String} {events : List LedgerEvent}
    (h : Anchored s) (hs : s'.intents = s.intents.insert id i)
    (hl : s'.ledger = s.ledger ++ events)
    (hev : ∀ e ∈ events, e.intentId = some id) : Anchored s' := by
  intro e he id' hid'
  rw [hs, SortedMap.get?_insert]
  split
  · exact ⟨i, rfl⟩
  · rename_i hne
    rw [hl] at he
    rcases List.mem_append.mp he with he | he
    · exact h e he id' hid'
    · exact absurd (Option.some.inj (hid'.symm.trans (hev e he))) hne

theorem Change.anchored {l : Label} (h : Change host l w w')
    (hw : Anchored w.state) : Anchored w'.state := by
  cases h.money with
  | none hi hl =>
      intro e he id hid
      rw [hi]
      exact hw e (hl ▸ he) id hid
  | deposit hi hev hl =>
      intro e he id hid
      rw [hi]
      rw [hl] at he
      rcases List.mem_append.mp he with he | he
      · exact hw e he id hid
      · exact nomatch hid.symm.trans (hev.unowned e he)
  | new hn hs hl =>
      have hl' : w'.state.ledger = w.state.ledger ++ [] := by
        rw [hl, List.append_nil]
      exact hw.grow hs hl' fun e he => nomatch he
  | reserve hi hr hc hx hh hs hl =>
      refine hw.grow hs hl fun e he => ?_
      rw [List.mem_singleton.mp he]
      exact hh.intentId
  | moved hi hm hs hl =>
      exact hw.grow hs hl fun e he => (hm.owned e he).1

/-- **TRACED LEDGERS**: in every reachable world. -/
theorem TreasuryRun.anchored {token : String} {w0 : World} {cs : List Call}
    (h : TreasuryRun host token w0 cs w) : Anchored w.state := by
  obtain ⟨balance, hs⟩ := h.balance
  refine h.path.invariant (I := fun v => Anchored v.state)
    (fun _ _ _ _ hc ha => hc.anchored ha) (fun _ _ _ ha _ => ha) ?_
  obtain ⟨_, e, _, _, _, _, hnone, _, hstate⟩ := hs.state
  intro x hx id hid
  rw [hstate] at hx
  have hx' : x ∈ [e] := hx
  rw [List.mem_singleton.mp hx', hnone] at hid
  exact nomatch hid

/-! ## A new intent in the budgets -/

/-- An intent that reserves nothing joined a state. -/
structure Joined (s s' : TreasuryState) (i : PurchaseIntent) : Prop where
  unstored : s.intents.get? i.id = none
  free : i.state.isReserved = false
  intents : s'.intents = s.intents.insert i.id i
  ledger : s'.ledger = s.ledger
  agents : s'.agents = s.agents
  policies : s'.policies = s.policies
  stop : s'.emergencyStop = s.emergencyStop
  mode : s'.providerMode = s.providerMode
  provider : s'.provider = s.provider

/-- The usage with another count of recent intents. -/
def BudgetUsage.withRecent (n : Nat) (u : BudgetUsage) : BudgetUsage :=
  { u with recentTransactionCount := n }

theorem addEventUsage_withRecent (agentId sessionId currency : String)
    (n : Nat) (u : BudgetUsage) (e : LedgerEvent) :
    addEventUsage s agentId sessionId currency t (BudgetUsage.withRecent n u) e
      = BudgetUsage.withRecent n
        <$> addEventUsage s agentId sessionId currency t u e := by
  unfold addEventUsage
  split
  · show (u.lifetimeAmount.checkedAdd e.amount >>= _) = _ <$> (_ >>= _)
    cases u.lifetimeAmount.checkedAdd e.amount with
    | error _ => rfl
    | ok lifetime =>
        rw [ok_bind, ok_bind]
        show (addIf _ u.rolling24hAmount e.amount >>= _) = _ <$> (_ >>= _)
        cases addIf (e.at ≥ t - 24 * 60 * 60) u.rolling24hAmount e.amount with
        | error _ => rfl
        | ok rolling =>
            rw [ok_bind, ok_bind]
            show (addIf _ u.sessionAmount e.amount >>= _) = _ <$> (_ >>= _)
            cases addIf (eventInSession s sessionId e = true) u.sessionAmount
              e.amount with
            | error _ => rfl
            | ok session => rfl
  · rfl

theorem addIntentUsage_withRecent (agentId sessionId : String) (n : Nat)
    (u : BudgetUsage) (j : PurchaseIntent) :
    addIntentUsage agentId sessionId (BudgetUsage.withRecent n u) j
      = BudgetUsage.withRecent n <$> addIntentUsage agentId sessionId u j := by
  unfold addIntentUsage
  split
  · dsimp only
    show (u.reservedAmount.checkedAdd _ >>= _) = _ <$> (_ >>= _)
    cases u.reservedAmount.checkedAdd j.request.finalTotal with
    | error _ => rfl
    | ok reserved =>
        rw [ok_bind, ok_bind]
        show (u.lifetimeAmount.checkedAdd _ >>= _) = _ <$> (_ >>= _)
        cases u.lifetimeAmount.checkedAdd j.request.finalTotal with
        | error _ => rfl
        | ok lifetime =>
            rw [ok_bind, ok_bind]
            show (u.rolling24hAmount.checkedAdd _ >>= _) = _ <$> (_ >>= _)
            cases u.rolling24hAmount.checkedAdd j.request.finalTotal with
            | error _ => rfl
            | ok rolling =>
                rw [ok_bind, ok_bind]
                show (addIf _ u.sessionAmount _ >>= _) = _ <$> (_ >>= _)
                cases addIf (j.brokerSessionId = sessionId) u.sessionAmount
                  j.request.finalTotal with
                | error _ => rfl
                | ok session => rfl
  · rfl

/-- An event of a traced ledger belongs to whom it belonged. -/
theorem Joined.lookup (h : Joined s s' i) (ht : Anchored s) {e : LedgerEvent}
    (he : e ∈ s.ledger) :
    e.intentId.bind s'.intents.get? = e.intentId.bind s.intents.get? := by
  cases hid : e.intentId with
  | none => rfl
  | some id =>
      obtain ⟨j, hj⟩ := ht e he id hid
      have hne : id ≠ i.id := by
        rintro rfl
        exact nomatch h.unstored.symm.trans hj
      show s'.intents.get? id = s.intents.get? id
      rw [h.intents, SortedMap.get?_insert_of_ne _ _ hne]

/-- **ONE MORE RECENT INTENT** is all that the new intent changes in the
    budget of an agent. -/
theorem Joined.usage (h : Joined s s' i) (ht : Anchored s)
    (agentId currency : String) (zero : BudgetUsage) :
    usageAt s' agentId currency t zero
      = BudgetUsage.withRecent (recentCount s' agentId t)
        <$> usageAt s agentId currency t zero := by
  unfold usageAt agent
  rw [h.agents, h.ledger]
  cases s.agents.get? agentId with
  | none => rfl
  | some r =>
      have hr : orRefuse (some r) (TreasuryError.notFound ("agent " ++ agentId))
        = .ok r := rfl
      rw [hr, ok_bind, ok_bind]
      obtain ⟨before, after, hvalues, hvalues'⟩ :=
        SortedMap.values_insert_of_none i h.unstored
      have hevents : ∀ u, ∀ e ∈ s.ledger,
          addEventUsage s' agentId r.brokerSessionId currency t u e
            = addEventUsage s agentId r.brokerSessionId currency t u e := by
        intro u e he
        unfold addEventUsage eventBelongs eventInSession
        rw [h.lookup ht he]
      have hskip : ∀ u, addIntentUsage agentId r.brokerSessionId u i = pure u := by
        intro u
        unfold addIntentUsage
        rw [h.free]
        exact if_neg fun hc => nomatch hc.2
      have hcount : ({ zero with
          recentTransactionCount := recentCount s' agentId t } : BudgetUsage)
          = BudgetUsage.withRecent (recentCount s' agentId t) { zero with
            recentTransactionCount := recentCount s agentId t } := rfl
      rw [foldlM_congr hevents, h.intents, hvalues, hvalues', hcount,
        foldlM_commutes (addEventUsage_withRecent agentId r.brokerSessionId
          currency _)]
      cases s.ledger.foldlM (addEventUsage s agentId r.brokerSessionId currency t)
        { zero with recentTransactionCount := recentCount s agentId t } with
      | error _ => rfl
      | ok u =>
          have hmap : BudgetUsage.withRecent (recentCount s' agentId t)
              <$> (Except.ok u : Except TreasuryError BudgetUsage)
            = .ok (BudgetUsage.withRecent (recentCount s' agentId t) u) := rfl
          rw [hmap, ok_bind, ok_bind, foldlM_skip hskip]
          exact foldlM_commutes
            (addIntentUsage_withRecent agentId r.brokerSessionId _) (_ ++ _) u

/-- The new intent is in no snapshot of the ledger. -/
theorem Joined.snapshot (h : Joined s s' i) (currency : String) :
    ledgerSnapshot s' currency = ledgerSnapshot s currency := by
  obtain ⟨before, after, hvalues, hvalues'⟩ :=
    SortedMap.values_insert_of_none i h.unstored
  have hskip : ∀ b, addIntentSnapshot b i = pure b := by
    intro b
    unfold addIntentSnapshot
    rw [h.free]
    exact if_neg fun hc => nomatch hc.2
  unfold ledgerSnapshot
  rw [h.ledger, h.intents, hvalues, hvalues']
  simp only [foldlM_skip hskip]

/-- The intent counts as a recent one of its agent. -/
theorem Joined.recent (h : Joined s s' i) (hc : i.createdAt = t)
    (hsize : s.intents.size < maxIntents) :
    recentCount s' i.agentId t = recentCount s i.agentId t + 1 := by
  obtain ⟨before, after, hvalues, hvalues'⟩ :=
    SortedMap.values_insert_of_none i h.unstored
  have hlength : before.length + after.length = s.intents.size := by
    rw [← List.length_append, ← hvalues]
    exact List.length_map _
  have hbefore := List.length_filter_le (fun j : PurchaseIntent =>
    decide (j.agentId = i.agentId ∧ j.createdAt ≥ t - 60)) before
  have hafter := List.length_filter_le (fun j : PurchaseIntent =>
    decide (j.agentId = i.agentId ∧ j.createdAt ≥ t - 60)) after
  have hcons : (i :: after).filter (fun j : PurchaseIntent =>
        decide (j.agentId = i.agentId ∧ j.createdAt ≥ t - 60))
      = i :: after.filter (fun j : PurchaseIntent =>
        decide (j.agentId = i.agentId ∧ j.createdAt ≥ t - 60)) :=
    List.filter_cons_of_pos (decide_eq_true ⟨rfl, by omega⟩)
  unfold maxIntents at hsize
  unfold recentCount
  rw [h.intents, hvalues, hvalues', List.filter_append, List.filter_append,
    hcons, List.length_append, List.length_append, List.length_cons]
  omega

/-! ## One decision, twice -/

/-- Below the rate limit the count makes no difference. -/
theorem evaluate_withRecent {p : Policy} {r : PurchaseRequest}
    {u : BudgetUsage} {n : Nat} {mode : AutonomyMode} {known stop : Bool}
    (hn : n < p.maxTransactionsPerMinute)
    (hu : u.recentTransactionCount < p.maxTransactionsPerMinute) :
    p.evaluate host r (BudgetUsage.withRecent n u) mode known stop
      = p.evaluate host r u mode known stop := by
  have hlimits : p.limitReasons r.finalTotal (BudgetUsage.withRecent n u)
      = p.limitReasons r.finalTotal u := by
    have hnone : Policy.reasonIf (n ≥ p.maxTransactionsPerMinute)
        "transaction rate limit exceeded" = [] :=
      reasonIf_eq_nil.mpr (not_le.mpr hn)
    have hnone' : Policy.reasonIf
        (u.recentTransactionCount ≥ p.maxTransactionsPerMinute)
        "transaction rate limit exceeded" = [] :=
      reasonIf_eq_nil.mpr (not_le.mpr hu)
    unfold Policy.limitReasons BudgetUsage.withRecent
    simp only [hnone, hnone']
  unfold Policy.evaluate
  rw [hlimits]

/-- The simulated provider's balance is read off the state. -/
theorem providerAvailableBalance_simulated
    (hm : s.providerMode = .simulated) :
    providerAvailableBalance host s = lift s.provider.availableBalance := by
  unfold providerAvailableBalance
  rw [hm]

/-- In simulated mode the authority is what it was before the intent. -/
theorem Joined.authority (h : Joined s s' i) (hm : s.providerMode = .simulated)
    (d : PolicyDecision) (r : PurchaseRequest) (n : Nat) (u : BudgetUsage)
    (p : Policy) :
    enforceAuthority host s' d r (BudgetUsage.withRecent n u) p
      = enforceAuthority host s d r u p := by
  have hbalance : providerAvailableBalance host s'
      = providerAvailableBalance host s := by
    rw [providerAvailableBalance_simulated hm,
      providerAvailableBalance_simulated (h.mode.trans hm), h.provider]
  have hconfigured : configuredBalance s' = configuredBalance s := by
    unfold configuredBalance
    rw [h.mode, hm, h.provider]
  unfold enforceAuthority
  rw [h.snapshot, hbalance, hconfigured]
  rfl

/-- **ONE DECISION, TWICE**: below the rate limit the request is decided over
    the state with the intent as it was over the state before. -/
theorem Joined.decides (h : Joined s s' i) (hm : s.providerMode = .simulated)
    {record : AgentRecord} {p : Policy} {r : PurchaseRequest}
    {u : BudgetUsage} {n : Nat} (hn : n < p.maxTransactionsPerMinute)
    (hu : u.recentTransactionCount < p.maxTransactionsPerMinute) :
    decideRequest host s' record p r (BudgetUsage.withRecent n u)
      = decideRequest host s record p r u := by
  unfold decideRequest
  simp only [evaluate_withRecent hn hu, h.stop, h.authority hm]

/-! ## Decisions do not depend on the world -/

/-- A program with one result in every world. -/
def Timeless {α : Type} (x : Op α) : Prop := ∀ a b, result x a = result x b

namespace Timeless

variable {α β : Type} {x : Op α} {f : α → Op β}

theorem pure (a : α) : Timeless (Pure.pure a : Op α) := fun _ _ => rfl

theorem lift (x : Except TreasuryError α) :
    Timeless (Outcome.lift x : Op α) := by
  intro a b
  cases x with
  | ok v => rfl
  | error e => rfl

theorem bind (hx : Timeless x) (hf : ∀ v, Timeless (f v)) :
    Timeless (x >>= f) := by
  intro a b
  rw [result_bind, result_bind, hx a b]
  cases result x b with
  | ok v => exact hf v _ _
  | error e => rfl

/-- What it returns in one world it returns in every world. -/
theorem returns (hx : Timeless x) {v : α} {a b : World}
    (ha : result x a = .ok v) :
    wp x (fun u _ => u = v) (fun _ _ => False) b := by
  have hb : result x b = .ok v := (hx b a).trans ha
  refine wp_iff.mpr ⟨fun u hu => ?_, fun e he => ?_⟩
  · exact Except.ok.inj (hu.symm.trans hb)
  · exact nomatch he.symm.trans hb

/-- A reading of the clock that nobody looks at. -/
theorem afterNow {y : Op β} (hy : Timeless y) :
    Timeless (now host >>= fun _ => y) := fun a b =>
  hy { a with tick := a.tick + 1 } { b with tick := b.tick + 1 }

end Timeless

theorem enforceAuthority_timeless (hm : s.providerMode = .simulated)
    (d : PolicyDecision) (r : PurchaseRequest) (u : BudgetUsage) (p : Policy) :
    Timeless (enforceAuthority host s d r u p) := by
  unfold enforceAuthority
  rw [providerAvailableBalance_simulated hm]
  split
  · exact .pure d
  · exact .bind (.lift _) fun _ => .bind (.lift _) fun _ =>
      .bind (.lift _) fun _ => .bind (.lift _) fun _ => .pure _

theorem decideRequest_timeless (hm : s.providerMode = .simulated)
    (record : AgentRecord) (p : Policy) (r : PurchaseRequest)
    (u : BudgetUsage) : Timeless (decideRequest host s record p r u) :=
  .bind (.lift _) fun _ => .afterNow (.bind (.lift _) fun d =>
    enforceAuthority_timeless hm d r u p)

/-! ## Creating -/

/-- The clock stands still from a world on. -/
def StandsStill (host : Host) (w : World) (t : Int) : Prop :=
  ∀ n, w.tick ≤ n → host.clock n = t

theorem StandsStill.later (h : StandsStill host w t) (hle : w.tick ≤ v.tick) :
    StandsStill host v t := fun n hn => h n (Nat.le_trans hle hn)

/-- A new intent of an agent, decided and stored at a time: what was checked
    of the agent and its policy, and the decision that was taken. -/
structure Creation (host : Host) (s s' : TreasuryState) (t : Int)
    (r : AgentRecord) (p : Policy) (used : BudgetUsage) (i : PurchaseIntent) :
    Prop where
  agent : s.agents.get? i.agentId = some r
  policy : s.policies.get? r.policyId = some p
  session : i.brokerSessionId = r.brokerSessionId
  armed : s.emergencyStop = true ∨ t < r.brokerSessionExpiresAt
  quota : s.intents.size < maxIntents
  created : i.createdAt = t
  budget : ∃ zero, BudgetUsage.zero p.primaryCurrency = .ok zero
    ∧ usageAt s i.agentId p.primaryCurrency t zero = .ok used
  rate : used.recentTransactionCount < p.maxTransactionsPerMinute
  decided : ∃ a d duplicate, result (decideRequest host s r p i.request used) a
      = .ok d
    ∧ i.state = stateOfDecision (guardManual s (guardDuplicate duplicate d))
  state : ∃ e, s' = (s.withEntry e).withIntent i.id i

theorem requireArmedSession_still {r : AgentRecord}
    (hstill : StandsStill host w t) :
    wp (requireArmedSession host s r) (fun _ v => Quiet w v
      ∧ (s.emergencyStop = true ∨ t < r.brokerSessionExpiresAt))
      (fun _ _ => True) w := by
  unfold requireArmedSession
  rw [wp_ite, wp_pure, wp_bind, wp_now, wp_rejectIf]
  refine ⟨fun hstop => ⟨Quiet.refl w, Or.inl hstop⟩,
    fun _ => ⟨fun _ => trivial, fun hlive => ⟨Quiet.readClock w, Or.inr ?_⟩⟩⟩
  rw [hstill _ (Nat.le_refl _)] at hlive
  exact not_le.mp hlive

theorem usage_still {agentId currency : String}
    (hstill : StandsStill host w t) :
    wp (usage host s agentId currency) (fun used v => Quiet w v
      ∧ ∃ zero, BudgetUsage.zero currency = .ok zero
        ∧ usageAt s agentId currency t zero = .ok used) (fun _ _ => True) w := by
  unfold usage
  refine line_lift (fun _ => trivial) fun zero hzero => ?_
  rw [wp_bind, wp_now, wp_lift, hstill _ (Nat.le_refl _)]
  exact ⟨fun _ _ => trivial, fun used hused =>
    ⟨Quiet.readClock w, zero, hzero, hused⟩⟩

/-- The intent stored for a decision at a standing clock. -/
theorem insertNewIntent_still {agentId : String} {r : AgentRecord} {p : Policy}
    {request : PurchaseRequest} {d : PolicyDecision}
    (hstill : StandsStill host w t) :
    wp (insertNewIntent host agentId r p request d)
      (fun _ v => ∃ e id i, v.state = (w.state.withEntry e).withIntent id i
        ∧ i.id = id ∧ i.agentId = agentId ∧ i.request = request
        ∧ i.brokerSessionId = r.brokerSessionId ∧ i.createdAt = t
        ∧ i.state = stateOfDecision d) (fun _ _ => True) w := by
  unfold insertNewIntent
  rw [wp_bind, wp_newId, wp_bind, wp_now, wp_bind]
  refine wp_transition (fun _ => trivial) fun _ => ?_
  rw [wp_bind]
  refine wp_transition (fun _ => trivial) fun _ => ?_
  rw [wp_bind]
  refine wp_audit (fun _ => trivial) fun _ => ?_
  rw [wp_bind, wp_storeIntent, wp_pure]
  exact ⟨_, _, _, rfl, rfl, rfl, rfl, rfl, hstill _ (Nat.le_refl _), rfl⟩

/-- **WHAT A CREATION CHECKED**: it stores nothing new, or an intent that
    everything was checked for at the time the clock shows. -/
theorem createIntent_creates {actor : Actor} {request : PurchaseRequest}
    (hstill : StandsStill host w t) :
    wp (createIntent host actor request)
      (fun _ v => v.state = w.state ∨ ∃ r p used i,
        Creation host w.state v.state t r p used i) (fun _ _ => True) w := by
  unfold createIntent
  rw [wp_bind, wp_readState]
  refine line_lift (fun _ => trivial) fun agentId _ => ?_
  refine line_lift (fun _ => trivial) fun r hr => ?_
  refine line_lift (fun _ => trivial) fun normal hnormal => ?_
  split
  · rw [wp_ite, wp_pure, wp_throw]
    exact ⟨fun _ => Or.inl rfl, fun _ => trivial⟩
  unfold createNewIntent
  refine line_rejectIf (fun _ => trivial) fun hquota => ?_
  refine line_rejectIf (fun _ => trivial) fun _ => ?_
  refine line_lift (fun _ => trivial) fun p hp => ?_
  refine line (requireArmedSession_still hstill) ?_
  rintro _ a ⟨ha, harmed⟩
  refine line (usage_still (hstill.later ha.tick)) ?_
  rintro used b ⟨hb, hused⟩
  have hab := ha.trans hb
  rw [wp_ite]
  constructor
  · -- the refusal for the rate limit never returns
    intro _
    unfold refuseForRate
    rw [wp_bind, wp_now, wp_ite, wp_throw]
    refine ⟨fun _ => trivial, fun _ => ?_⟩
    rw [wp_bind]
    refine wp_audit (fun _ => trivial) fun _ => ?_
    rw [wp_throw]
    trivial
  · intro hrate
    refine line (wp_mono (wp_and ((decideRequest_quietly _ _ _ _ _).run b)
      (wp_self _)) (fun _ _ h => h) (fun _ _ _ => trivial)) ?_
    rintro d c ⟨hc, hrun⟩
    have habc := hab.trans hc
    rw [wp_bind, wp_now]
    refine wp_mono (insertNewIntent_still (t := t)
      (hstill.later (Nat.le_succ_of_le habc.tick))) ?_ (fun _ _ _ => trivial)
    rintro _ v ⟨e, id, i, hs, rfl, hagent, hrequest, hsession, hcreated, hstate⟩
    refine Or.inr ⟨r, p, used, i, ?_⟩
    subst hagent
    subst hrequest
    exact {
      agent := agent_ok.mp hr
      policy := policy_ok.mp hp
      session := hsession
      armed := harmed
      quota := not_le.mp hquota
      created := hcreated
      budget := hused
      rate := not_le.mp hrate
      decided := ⟨b, d, _, by unfold result; rw [hrun], hstate⟩
      state := ⟨e, by rw [hs, ← habc.state]⟩ }

/-- A guard that acts takes the permission away. -/
theorem guardManual_allowed {d : PolicyDecision}
    (h : (guardManual s d).allowed = true) : d.allowed = true := by
  unfold guardManual at h
  split at h
  · exact absurd h Bool.false_ne_true
  · exact h

theorem guardDuplicate_allowed {d : PolicyDecision} {duplicate : Bool}
    (h : (guardDuplicate duplicate d).allowed = true) : d.allowed = true := by
  unfold guardDuplicate at h
  split at h
  · exact absurd h Bool.false_ne_true
  · exact h

/-- What is validated at once was not guarded, and is allowed. -/
theorem validated_allowed {d : PolicyDecision} {duplicate : Bool}
    (hd : Reasoned d)
    (h : stateOfDecision (guardManual s (guardDuplicate duplicate d))
      = .policyValidated) : d.allowed = true := by
  have hreasoned : Reasoned (guardManual s (guardDuplicate duplicate d)) :=
    guard_reasoned hd
  have hclean : (guardManual s (guardDuplicate duplicate d)).reasons = []
      ∧ (guardManual s (guardDuplicate duplicate d)).requiresApproval = false := by
    unfold stateOfDecision at h
    split at h
    · exact nomatch h
    · rename_i hno
      split at h
      · exact nomatch h
      · rename_i hask
        rw [Bool.not_eq_true] at hask
        exact ⟨not_not.mp fun hne => hno ⟨hne, hask⟩, hask⟩
  have hallowed := hreasoned.resolve_right (not_not.mpr hclean.1)
  exact guardDuplicate_allowed (guardManual_allowed hallowed)

/-! ## The condition -/

/-- **ROOM FOR TWO**: the rate limit has room for the new intent and for its
    execution, and the expiries of an intent made now are in range. -/
structure Lasts (s : TreasuryState) (agentId : String) (p : Policy) (t : Int) :
    Prop where
  rate : recentCount s agentId t + 1 < p.maxTransactionsPerMinute
  intent : I64.Fits (t + p.intentTtlSecs)
  card : I64.Fits (t + p.cardSessionTtlSecs)

/-- Preparing the execution of an intent returns and leaves it executing. -/
def Executes (host : Host) (agentId id : String) (v : World) : Prop :=
  ∃ v' i', prepareIntentExecution host (.agent agentId) id v = .ok ⟨⟩ v'
    ∧ v'.state.intents.get? id = some i' ∧ i'.state = .executing

section Creations

variable {r : AgentRecord} {p : Policy} {used : BudgetUsage}

theorem Creation.joined (h : Creation host s s' t r p used i)
    (hnew : s.intents.get? i.id = none) (hi : i.state = .policyValidated) :
    Joined s s' i := by
  obtain ⟨e, rfl⟩ := h.state
  exact ⟨hnew, by rw [hi]; rfl, rfl, rfl, rfl, rfl, rfl, rfl, rfl⟩

theorem Creation.valid (h : Creation host s s' t r p used i) :
    p.validate host = .ok ⟨⟩ := by
  obtain ⟨a, d, _, hd, _⟩ := h.decided
  exact ((wp_iff.mp (decideRequest_spec a)).1 d hd).1

theorem Creation.allowed (h : Creation host s s' t r p used i)
    (hi : i.state = .policyValidated) : ∃ a d,
      result (decideRequest host s r p i.request used) a = .ok d
        ∧ d.allowed = true := by
  obtain ⟨a, d, duplicate, hd, hstate⟩ := h.decided
  exact ⟨a, d, hd, validated_allowed
    ((wp_iff.mp decideRequest_reasoned).1 d hd) (hstate.symm.trans hi)⟩

/-- The usage of the execution is that of the creation, with one more recent
    intent. -/
theorem Creation.usage (h : Creation host s s' t r p used i)
    (hj : Joined s s' i) (ht : Anchored s) {zero : BudgetUsage}
    (hzero : BudgetUsage.zero p.primaryCurrency = .ok zero) :
    usageAt s' i.agentId p.primaryCurrency t zero
      = .ok (BudgetUsage.withRecent (recentCount s i.agentId t + 1) used) := by
  obtain ⟨zero', hzero', hused⟩ := h.budget
  obtain rfl : zero = zero' := Except.ok.inj (hzero.symm.trans hzero')
  rw [hj.usage ht, hused, hj.recent h.created h.quota]
  rfl

/-- The stop was off, and every check of the policy passed. -/
theorem Creation.passed (h : Creation host s s' t r p used i)
    (hi : i.state = .policyValidated) : Passed s r p i.request used := by
  obtain ⟨a, d, hd, hallowed⟩ := h.allowed hi
  exact (((wp_iff.mp (decideRequest_spec a)).1 d hd).2.2 (Or.inl hallowed)).1

/-- The session is still armed and current. -/
theorem Creation.session_current (h : Creation host s s' t r p used i)
    (hi : i.state = .policyValidated) (hstill : StandsStill host v t) :
    wp (requireCurrentSession host r i) (fun _ v' => Quiet v v')
      (fun _ _ => False) v := by
  unfold requireCurrentSession
  rw [wp_bind, wp_now, wp_rejectIf, hstill _ (Nat.le_refl _)]
  refine ⟨fun hbad => ?_, fun _ => Quiet.readClock v⟩
  have hlive : t < r.brokerSessionExpiresAt := by
    refine h.armed.resolve_left fun hstop => ?_
    rw [(h.passed hi).running] at hstop
    exact nomatch hstop
  rcases hbad with hexpired | hother
  · omega
  · exact hother h.session

/-- The expiries are not in the past when their sums are in range. -/
theorem Creation.unexpired (h : Creation host s s' t r p used i)
    (hstill : StandsStill host v t) (hl : Lasts s i.agentId p t) :
    wp (requireUnexpired host i p) (fun _ v' => Quiet v v')
      (fun _ _ => False) v := by
  obtain ⟨hintent, hcard⟩ := validate_ttls h.valid
  unfold requireUnexpired
  rw [wp_bind, wp_now, wp_ite, wp_throw, wp_bind, wp_now, wp_rejectIf,
    hstill _ (Nat.le_refl _), hstill _ (Nat.le_succ _), h.created,
    I64.wrappingAdd_of_fits hl.intent, I64.wrappingAdd_of_fits hl.card]
  refine ⟨fun hlate => by omega, fun _ => ⟨fun hlate => by omega, fun _ => ?_⟩⟩
  exact ⟨⟨rfl, Nat.le_add_right _ 2, Nat.le_refl _, Nat.le_refl _⟩, rfl, rfl⟩

/-- The decision at the execution is the one at the creation. -/
theorem Creation.decides (h : Creation host s s' t r p used i)
    (hj : Joined s s' i) (ht : Anchored s) (hm : s.providerMode = .simulated)
    (hi : i.state = .policyValidated) (hstill : StandsStill host v t)
    (hrate : recentCount s i.agentId t + 1 < p.maxTransactionsPerMinute) :
    wp (decideExecution host s' i.agentId r p i)
      (fun d v' => Quiet v v' ∧ d.allowed = true) (fun _ _ => False) v := by
  obtain ⟨a, d, hd, hallowed⟩ := h.allowed hi
  obtain ⟨zero, hzero, _⟩ := h.budget
  unfold decideExecution Treasury.usage
  rw [wp_bind]
  refine line_ok ⟨zero, hzero⟩ fun zero' hzero' => ?_
  obtain rfl : zero = zero' := Except.ok.inj (hzero.symm.trans hzero')
  rw [wp_bind, wp_now, hstill _ (Nat.le_refl _), h.usage hj ht hzero, wp_lift]
  refine ⟨nofun, fun used' hused' => ?_⟩
  obtain rfl := Except.ok.inj hused'
  rw [hj.decides hm hrate h.rate]
  refine wp_mono (wp_and ((decideRequest_quietly s r p i.request used).run _)
    ((decideRequest_timeless hm r p i.request used).returns hd)) ?_
    (fun _ _ h => h.2)
  rintro d' b ⟨hq, rfl⟩
  exact ⟨(Quiet.readClock v).trans hq, hallowed⟩

/-- **ENOUGH**: with room for two the execution goes through. -/
theorem Creation.executes (h : Creation host s s' t r p used i)
    (hj : Joined s s' i) (ht : Anchored s) (hm : s.providerMode = .simulated)
    (hi : i.state = .policyValidated)
    (hscope : r.scopes.contains "purchase_intents:execute" = true)
    (hcapacity : moneyWorkflowCapacityAllows (nonEmergencyCount s'.audit)
      (outstandingSlots s') 4 = true)
    (hgen : s'.generation + 1 ≤ u64Max) (hv : v.state = s')
    (hstill : StandsStill host v t) (hl : Lasts s i.agentId p t) :
    Executes host i.agentId i.id v := by
  have hr : s'.agents.get? i.agentId = some r := by
    rw [hj.agents]
    exact h.agent
  have hp : s'.policies.get? r.policyId = some p := by
    rw [hj.policies]
    exact h.policy
  have hget : s'.intents.get? i.id = some i := by
    rw [hj.intents]
    exact SortedMap.get?_insert_self ..
  have hcap : requireMoneyWorkflowAuditCapacity s' 4 = .ok ⟨⟩ :=
    refuseIf_eq_ok.mpr fun hfull => nomatch hcapacity.symm.trans hfull
  have hexecutable : requireExecutable i = .ok ⟨⟩ := by
    unfold requireExecutable
    rw [hi]
    rfl
  have hroomy : Roomy s' := roomy_of_capacity (by decide) hcapacity hgen
  -- Execution repeats the checks of creation, and each finds what creation
  -- found.
  have hrun : wp (prepareIntentExecution host (.agent i.agentId) i.id)
      (fun _ v' => ∃ i', v'.state.intents.get? i.id = some i'
        ∧ i'.state = .executing) (fun _ _ => False) v := by
    unfold prepareIntentExecution
    rw [wp_bind, wp_readState, hv]
    refine line_ok ⟨_, hcap⟩ fun _ _ => ?_
    refine line_ok ⟨_, requireAgentScope_of hr hscope⟩ fun id hid => ?_
    obtain rfl : i.agentId = id :=
      Except.ok.inj ((requireAgentScope_of hr hscope).symm.trans hid)
    rw [wp_bind, wp_orReject]
    refine ⟨fun hnone => (nomatch hget.symm.trans hnone), fun j hj' => ?_⟩
    obtain rfl : i = j := Option.some.inj (hget.symm.trans hj')
    rw [wp_bind, wp_rejectIf]
    refine ⟨fun hne => hne rfl, fun _ => ?_⟩
    refine line_ok ⟨_, hexecutable⟩ fun _ _ => ?_
    refine line_ok ⟨_, agent_ok.mpr hr⟩ fun r' hr' => ?_
    obtain rfl : r = r' := Option.some.inj (hr.symm.trans (agent_ok.mp hr'))
    refine line_ok ⟨_, policy_ok.mpr hp⟩ fun p' hp' => ?_
    obtain rfl : p = p' := Option.some.inj (hp.symm.trans (policy_ok.mp hp'))
    refine line (h.session_current hi hstill) fun _ a ha => ?_
    refine line (h.unexpired (hstill.later ha.tick) hl) fun _ b hb => ?_
    have hab := ha.trans hb
    refine line (h.decides hj ht hm hi (hstill.later hab.tick) hl.rate) ?_
    rintro d c ⟨hc, hallowed⟩
    have habc := hab.trans hc
    rw [wp_bind, wp_rejectIf]
    refine ⟨fun hno => ?_, fun _ => ?_⟩
    · unfold submittable at hno
      rw [hallowed, Bool.true_or] at hno
      exact nomatch hno
    unfold reserveFunds
    rw [wp_bind]
    refine wp_transition_of_can (canReserve (Or.inl hi)) ?_
    rw [wp_bind, wp_appendLedger, wp_bind]
    refine wp_audit_of_room (hasRoom_of_safety rfl ?_ ?_) ?_
    · show nonEmergencyCount c.state.audit < _
      rw [habc.state, hv]
      exact hroomy.1
    · show c.state.generation + 1 ≤ _
      rw [habc.state, hv]
      exact hroomy.2
    rw [wp_bind]
    refine wp_transition_of_can rfl ?_
    rw [wp_storeIntent]
    exact ⟨_, SortedMap.get?_insert_self .., rfl⟩
  cases hend : prepareIntentExecution host (.agent i.agentId) i.id v with
  | ok u v' =>
      obtain ⟨i', hi', hx⟩ := wp_ok hrun hend
      exact ⟨v', i', hend, hi', hx⟩
  | error e v' =>
      have hno := wp_error hrun hend
      exact hno.elim

/-- A standing clock shows a reading of the host. -/
theorem StandsStill.reading (h : StandsStill host w t) :
    0 ≤ t ∧ I64.Fits t := by
  have hlo := host.clock_nonneg w.tick
  have hhi := host.clock_le w.tick
  rw [h _ (Nat.le_refl _)] at hlo hhi
  refine ⟨hlo, ?_⟩
  unfold I64.Fits I64.minValue I64.maxValue
  omega

/-- **AND NEEDED**: an execution that goes through had room for two. -/
theorem Creation.lasts (h : Creation host s s' t r p used i)
    (hj : Joined s s' i) (ht : Anchored s) (hk : Keyed s')
    (hgen : s'.generation + 1 ≤ u64Max) (hv : v.state = s')
    (hstill : StandsStill host v t)
    (hwords : I64.Fits p.intentTtlSecs ∧ I64.Fits p.cardSessionTtlSecs)
    (hx : Executes host i.agentId i.id v) : Lasts s i.agentId p t := by
  subst hv
  obtain ⟨v', _, hrun, _⟩ := hx
  have hchange := wp_ok (prepare_spec hk hgen) hrun
  obtain ⟨j, r', p', _, _, _, _, hget, hres, _⟩ := hchange.reserve_inv
  have hstored : v.state.intents.get? i.id = some i := by
    rw [hj.intents]
    exact SortedMap.get?_insert_self ..
  obtain rfl : i = j := Option.some.inj (hstored.symm.trans hget)
  have hr : v.state.agents.get? i.agentId = some r := by
    rw [hj.agents]
    exact h.agent
  obtain rfl : r = r' := Option.some.inj (hr.symm.trans hres.agent)
  have hp : v.state.policies.get? r.policyId = some p := by
    rw [hj.policies]
    exact h.policy
  obtain rfl : p = p' := Option.some.inj (hp.symm.trans hres.policy)
  obtain ⟨hlo, hfits⟩ := hstill.reading
  obtain ⟨hintent, hcard⟩ := validate_ttls h.valid
  obtain ⟨_, _, ⟨k, hk1, _, rfl⟩, ⟨n, hn1, _, rfl⟩, hle, hle'⟩ := hres.unexpired
  rw [hstill k hk1, h.created] at hle
  rw [hstill n hn1, h.created] at hle'
  obtain ⟨zero, used', _, ⟨m, hm1, _, rfl⟩, hzero, hused, hpassed⟩ := hres.passed
  rw [hstill m hm1, h.usage hj ht hzero] at hused
  obtain rfl := Except.ok.inj hused
  exact ⟨hpassed.limits.rate,
    (I64.le_wrappingAdd_iff hlo hintent hfits hwords.1).mp hle,
    (I64.le_wrappingAdd_iff hlo hcard hfits hwords.2).mp hle'⟩

end Creations

/-! ## Create, then execute -/

/-- **CREATION AND EXECUTION AGREE EXACTLY WITH ROOM FOR TWO.**  In every
    reachable world of the simulated provider, an intent that a creation
    validated can be executed by its agent at the same time, with nothing in
    between, if and only if the rate limit has room for one more than the
    creation needed and the expiries of the intent are in range. -/
theorem creation_is_executable {owner : String} {w0 : World} {cs : List Call}
    (hrun : TreasuryRun host owner w0 cs w)
    (hm : w.state.providerMode = .simulated) (hstill : StandsStill host w t)
    {c : Call} {token : String} {request : PurchaseRequest}
    (hc : c.asks = some (token, .createPurchaseIntent request))
    (hok : Succeeds host c w) {id : String}
    (hnew : w.state.intents.get? id = none)
    (hi : (exec host c w).state.intents.get? id = some i)
    (hvalidated : i.state = .policyValidated) {r : AgentRecord} {p : Policy}
    (hr : w.state.agents.get? i.agentId = some r)
    (hp : w.state.policies.get? r.policyId = some p)
    (hscope : r.scopes.contains "purchase_intents:execute" = true)
    (hwords : I64.Fits p.intentTtlSecs ∧ I64.Fits p.cardSessionTtlSecs)
    (hcapacity : moneyWorkflowCapacityAllows
      (nonEmergencyCount (exec host c w).state.audit)
      (outstandingSlots (exec host c w).state) 4 = true)
    (hv : v.state = (exec host c w).state) (htick : w.tick ≤ v.tick) :
    Executes host i.agentId id v ↔ Lasts w.state i.agentId p t := by
  obtain ⟨hk, hf⟩ := hrun.kept
  have hwork := hk.workable hf
  have hkeyed : Keyed (exec host c w).state :=
    ((exec_behaves hwork c).path.kept hk).intents
  obtain rfl : i.id = id := hkeyed _ _ hi
  have hcreated : (exec host c w).state = w.state ∨ ∃ r p used j,
      Creation host w.state (exec host c w).state t r p used j := by
    refine hok.leaves (P := fun s => s = w.state ∨ ∃ r p used j,
      Creation host w.state s t r p used j) hc rfl ?_
    unfold handle
    refine line_quiet (authenticate_quietly token) (fun _ _ _ => trivial)
      fun actor a ha => ?_
    rw [← ha.state]
    exact createIntent_creates (hstill.later ha.tick)
  obtain ⟨r', p', used, j, hcreation⟩ : ∃ r p used j,
      Creation host w.state (exec host c w).state t r p used j := by
    refine hcreated.resolve_left fun heq => ?_
    rw [heq, hnew] at hi
    exact nomatch hi
  obtain ⟨e, hstate⟩ := hcreation.state
  have hlookup : (exec host c w).state.intents
      = w.state.intents.insert j.id j := by rw [hstate]; rfl
  obtain rfl : i = j := by
    rw [hlookup, SortedMap.get?_insert] at hi
    split at hi
    · exact (Option.some.inj hi).symm
    · exact nomatch hnew.symm.trans hi
  obtain rfl : r = r' := Option.some.inj (hr.symm.trans hcreation.agent)
  obtain rfl : p = p' := Option.some.inj (hp.symm.trans hcreation.policy)
  have hj := hcreation.joined hnew hvalidated
  have hgen : (exec host c w).state.generation + 1 ≤ u64Max := by
    have := hwork.generation
    rw [hstate]
    show w.state.generation + 1 + 1 ≤ u64Max
    omega
  have hstill' := hstill.later htick
  exact ⟨hcreation.lasts hj hrun.anchored hkeyed hgen hv hstill' hwords,
    hcreation.executes hj hrun.anchored hm hvalidated hscope hcapacity hgen hv
      hstill'⟩

/-! ## Two policies -/

/-- The first agent creates the small purchase. -/
def createFirst : Call := .request agentToken (.createPurchaseIntent smallPurchase)

/-- The first creation is validated at once, by an agent that may execute. -/
structure Offered (w : World) (i : PurchaseIntent) (r : AgentRecord)
    (p : Policy) : Prop where
  mode : w.state.providerMode = .simulated
  succeeds : Succeeds stillHost createFirst w
  unstored : w.state.intents.get? (firstIntent stillHost) = none
  stored : (exec stillHost createFirst w).state.intents.get?
    (firstIntent stillHost) = some i
  validated : i.state = .policyValidated
  agent : w.state.agents.get? i.agentId = some r
  policy : w.state.policies.get? r.policyId = some p
  scope : r.scopes.contains "purchase_intents:execute" = true
  words : I64.Fits p.intentTtlSecs ∧ I64.Fits p.cardSessionTtlSecs
  capacity : moneyWorkflowCapacityAllows
    (nonEmergencyCount (exec stillHost createFirst w).state.audit)
    (outstandingSlots (exec stillHost createFirst w).state) 4 = true

/-- The same as a check, with one more about the policy. -/
def offers (extra : PurchaseIntent → Policy → Bool) (w : World) : Bool :=
  decide (w.state.providerMode = .simulated ∧ Succeeds stillHost createFirst w
      ∧ w.state.intents.get? (firstIntent stillHost) = none)
    && moneyWorkflowCapacityAllows
      (nonEmergencyCount (exec stillHost createFirst w).state.audit)
      (outstandingSlots (exec stillHost createFirst w).state) 4
    && ((exec stillHost createFirst w).state.intents.get?
      (firstIntent stillHost)).any (fun i =>
        decide (i.state = .policyValidated)
        && (w.state.agents.get? i.agentId).any (fun r =>
          r.scopes.contains "purchase_intents:execute"
          && (w.state.policies.get? r.policyId).any (fun p =>
            decide (I64.Fits p.intentTtlSecs ∧ I64.Fits p.cardSessionTtlSecs)
            && extra i p)))

theorem offers_offered {extra : PurchaseIntent → Policy → Bool}
    (h : offers extra w = true) :
    ∃ i r p, Offered w i r p ∧ extra i p = true := by
  unfold offers at h
  simp only [Bool.and_eq_true, decide_eq_true_eq, Option.any_eq_true] at h
  obtain ⟨⟨⟨hm, hok, hnew⟩, hcapacity⟩, i, hi, hvalidated, r, hr, hscope, p, hp,
    hwords, hextra⟩ := h
  exact ⟨i, r, p, ⟨hm, hok, hnew, hi, hvalidated, hr, hp, hscope, hwords,
    hcapacity⟩, hextra⟩

theorem stillHost_still (w : World) : StandsStill stillHost w 1000 :=
  fun _ _ => rfl

/-- Under the demonstration policy the first intent can be executed. -/
theorem creation_is_executable_first :
    ∃ owner w0 w i r p, TreasuryRun stillHost owner w0
        [agentWith Policy.conservativeDemo owner] w
      ∧ Offered w i r p
      ∧ Executes stillHost i.agentId (firstIntent stillHost)
        (exec stillHost createFirst w) := by
  have h : tryRun stillHost ⟨100000, "CAD"⟩
      (fun owner => [agentWith Policy.conservativeDemo owner])
      (fun w => offers (fun i p =>
        decide (w.tick ≤ (exec stillHost createFirst w).tick)
        && decide (recentCount w.state i.agentId 1000 + 1
            < p.maxTransactionsPerMinute
          ∧ I64.Fits (1000 + p.intentTtlSecs)
          ∧ I64.Fits (1000 + p.cardSessionTtlSecs))) w) = true := by
    decide +kernel
  obtain ⟨owner, w0, w, hrun, hcheck⟩ := tryRun_run h
  obtain ⟨i, r, p, ho, hextra⟩ := offers_offered hcheck
  rw [Bool.and_eq_true, decide_eq_true_eq, decide_eq_true_eq] at hextra
  obtain ⟨htick, hrate, hintent, hcard⟩ := hextra
  exact ⟨owner, w0, w, i, r, p, hrun, ho,
    (creation_is_executable hrun ho.mode (stillHost_still w) rfl ho.succeeds
      ho.unstored ho.stored ho.validated ho.agent ho.policy ho.scope ho.words
      ho.capacity rfl htick).mpr ⟨hrate, hintent, hcard⟩⟩

/-- The demonstration policy with one transaction a minute. -/
def onceAMinute : Policy :=
  { Policy.conservativeDemo with maxTransactionsPerMinute := 1 }

/-- **ONE A MINUTE IS NONE**: under this policy, which is accepted, the intent
    is validated, and its execution at the same time is refused for the rate
    limit that it exceeds by existing. -/
theorem creation_is_not_executable :
    ∃ owner w0 w i r p, TreasuryRun stillHost owner w0
        [agentWith onceAMinute owner] w
      ∧ Offered w i r p
      ∧ p.validate stillHost = .ok ⟨⟩
      ∧ result (prepareIntentExecution stillHost (.agent i.agentId)
          (firstIntent stillHost)) (exec stillHost createFirst w)
        = .error (.forbidden ("pre-submit policy validation failed: "
          ++ "transaction rate limit exceeded"))
      ∧ ¬Executes stillHost i.agentId (firstIntent stillHost)
        (exec stillHost createFirst w) := by
  have h : tryRun stillHost ⟨100000, "CAD"⟩
      (fun owner => [agentWith onceAMinute owner])
      (fun w => offers (fun i p =>
        decide (p.validate stillHost = .ok ⟨⟩)
        && decide (result (prepareIntentExecution stillHost (.agent i.agentId)
            (firstIntent stillHost)) (exec stillHost createFirst w)
          = .error (.forbidden ("pre-submit policy validation failed: "
            ++ "transaction rate limit exceeded")))) w) = true := by
    decide +kernel
  obtain ⟨owner, w0, w, hrun, hcheck⟩ := tryRun_run h
  obtain ⟨i, r, p, ho, hextra⟩ := offers_offered hcheck
  rw [Bool.and_eq_true, decide_eq_true_eq, decide_eq_true_eq] at hextra
  obtain ⟨hvalid, hrefused⟩ := hextra
  refine ⟨owner, w0, w, i, r, p, hrun, ho, hvalid, hrefused, ?_⟩
  rintro ⟨v, i', hok, _⟩
  unfold result at hrefused
  rw [hok] at hrefused
  exact nomatch hrefused

end Treasury
