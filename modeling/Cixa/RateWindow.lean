import Cixa.Atomic
import Cixa.Workflow

/-! # The rate window — how many intents an agent stores in a minute

    A creation counts the intents of the last minute at one reading of the
    clock and dates the new intent by a LATER one.  On a clock that never
    goes back, what lies in a closed minute with the new intent was counted,
    so no closed minute holds more intents than the policy admits.

    A refusal for the rate writes one entry, and only when the last minute
    has none; so the entries of an agent lie more than a minute apart. -/

namespace Treasury

open CixaData CixaHost Outcome Transition

variable {host : Host} {w w' : World} {A : String}

/-! ## What is counted -/

/-- The entries of the refusals for the rate. -/
def refusals (s : TreasuryState) : List AuditEntry :=
  s.audit.filter (fun e => decide (e.action = "transaction_rate_limited"))

/-- The entries of an agent's refusals for the rate. -/
def refusalsOf (A : String) (s : TreasuryState) : List AuditEntry :=
  (refusals s).filter (fun e => decide (e.actor = A))

/-- An intent of an agent created in the closed minute from a time, and not
    stored in an earlier state. -/
def isNewIn (earlier : TreasuryState) (A : String) (t : Int)
    (i : PurchaseIntent) : Bool :=
  decide (i.agentId = A ∧ t ≤ i.createdAt ∧ i.createdAt ≤ t + 60)
    && !earlier.intents.contains i.id

/-- The number of new intents of an agent in the closed minute from a time. -/
def newIn (earlier : TreasuryState) (A : String) (t : Int)
    (s : TreasuryState) : Nat :=
  (s.intents.values.filter (isNewIn earlier A t)).length

/-- A filter counts what it keeps. -/
theorem length_filter_values (m : SortedMap String PurchaseIntent)
    (p : PurchaseIntent → Bool) : (m.values.filter p).length
      = m.sum (fun i => if p i = true then 1 else 0) := by
  unfold SortedMap.sum
  induction m.values with
  | nil => rfl
  | cons i rest ih =>
      rw [List.filter_cons, List.map_cons, List.sum_cons, ← ih]
      by_cases hp : p i = true
      · rw [if_pos hp, if_pos hp, List.length_cons, Nat.add_comm]
      · rw [if_neg hp, if_neg hp, Nat.zero_add]

/-- Storing an intent adds at most one to a count. -/
theorem length_filter_insert (m : SortedMap String PurchaseIntent)
    (p : PurchaseIntent → Bool) (i : PurchaseIntent) (id : String) :
    ((m.insert id i).values.filter p).length
      ≤ (m.values.filter p).length + (if p i = true then 1 else 0) := by
  rw [length_filter_values, length_filter_values]
  cases hget : m.get? id with
  | none =>
      rw [SortedMap.sum_insert_of_none _ _ hget]
  | some j =>
      have hsum := SortedMap.sum_insert_of_some i
        (fun j => if p j = true then 1 else 0) hget
      omega

/-! ## Changes that create nothing -/

theorem Change.newIn_kept {l : Label} (h : Change host l w w')
    (hl : ∀ id, l ≠ .addIntent id) (earlier : TreasuryState) (t : Int) :
    newIn earlier A t w'.state = newIn earlier A t w.state := by
  unfold newIn
  cases h.intents with
  | none hs _ => rw [hs]
  | new hlabel _ _ _ => exact absurd hlabel (hl _)
  | next hi hc _ hs _ =>
      rw [hs, length_filter_values, length_filter_values]
      refine SortedMap.sum_insert_of_eq hi ?_
      unfold isNewIn
      rw [hc.agentId, hc.createdAt, hc.id]

theorem Path.newIn_kept {allowed : Label → Prop} (h : Path host allowed w w')
    (hl : ∀ id, ¬allowed (.addIntent id)) (earlier : TreasuryState) (t : Int) :
    newIn earlier A t w'.state = newIn earlier A t w.state := by
  refine h.rel (R := fun a b : World =>
    newIn earlier A t b.state = newIn earlier A t a.state) ?_ ?_ ?_ ?_
  · exact fun _ => rfl
  · exact fun _ _ _ hab hbc => hbc.trans hab
  · intro l a b hlabel hc
    refine hc.newIn_kept ?_ earlier t
    rintro id rfl
    exact hl id hlabel
  · exact fun _ _ _ => rfl

theorem Change.refusals_kept {l : Label} (h : Change host l w w')
    (hl : l ≠ .audit "transaction_rate_limited") :
    refusals w'.state = refusals w.state := by
  have hentry : ∀ {s : TreasuryState} {action : String} {e : AuditEntry},
      Entered host w w' s action e → action ≠ "transaction_rate_limited" →
      w'.state.audit = w.state.audit ++ [e] →
      refusals w'.state = refusals w.state := by
    intro s action e he hne haudit
    obtain ⟨_, _, _, _, _, _, _, _, _, _, rfl⟩ := he.made
    unfold refusals
    rw [haudit, List.filter_append, List.filter_cons_of_neg, List.filter_nil,
      List.append_nil]
    exact fun h => hne (of_decide_eq_true h)
  cases h with
  | quiet h => rw [h.state]
  | audit _ he hs _ =>
      exact hentry he (fun heq => hl (by rw [heq])) (by rw [hs]; rfl)
  | addIntent _ _ he hs _ => exact hentry he (by decide) (by rw [hs]; rfl)
  | reserve _ _ _ _ he _ hs _ =>
      exact hentry he (by decide) (by rw [hs]; rfl)
  | conclude _ _ _ _ he hs _ => exact hentry he (by decide) (by rw [hs]; rfl)
  | reconcile _ _ _ hp hs _ =>
      obtain ⟨_, _, heq⟩ := hp.fields
      rw [hs, heq]
      rfl
  | deposit _ _ _ hc _ _ hs _ =>
      obtain ⟨_, _, heq⟩ := hc.fields
      rw [hs, heq]
      rfl
  | writeKey _ hs _ _ => rw [hs]
  | writeState _ hs _ _ _ => rw [hs]
  | submit _ hs _ _ _ => rw [hs]
  | _ =>
      rename_i hs _
      rw [hs]
      rfl

theorem Path.refusals_kept {allowed : Label → Prop}
    (h : Path host allowed w w')
    (hl : ¬allowed (.audit "transaction_rate_limited")) :
    refusals w'.state = refusals w.state := by
  refine h.rel (R := fun a b : World =>
    refusals b.state = refusals a.state) ?_ ?_ ?_ ?_
  · exact fun _ => rfl
  · exact fun _ _ _ hab hbc => hbc.trans hab
  · intro l a b hlabel hc
    refine hc.refusals_kept ?_
    rintro rfl
    exact hl hlabel
  · exact fun _ _ _ => rfl

/-! ## Executions refuse nobody for the rate -/

/-- The refusals are not what an execution writes. -/
theorem refusals_aside (written : List AuditEntry) :
    Aside (fun s => refusals s = written) where
  events _ _ h := h
  entry s e hne h := by
    unfold refusals
    rw [show (s.withEntry e).audit = s.audit ++ [e] from rfl, List.filter_append,
      List.filter_cons_of_neg, List.filter_nil, List.append_nil]
    · exact h
    · exact fun heq => hne (of_decide_eq_true heq)
  intent _ _ _ h := h
  providers _ _ _ h := h

/-- **AN EXECUTION REFUSES NOBODY FOR THE RATE**, however it is called. -/
theorem exec_refuses {c : Call} {id : String} (hc : c.attempts = some id) :
    refusals (exec host c w).state = refusals w.state := by
  have hissues : Issues host (fun _ => True) :=
    ⟨fun _ => trivial, fun _ => trivial, fun _ => trivial, fun _ _ _ => trivial⟩
  have hw : Referenced (fun _ => True) (fun s => refusals s = refusals w.state)
      w.state := ⟨fun _ _ _ => ⟨fun _ _ => trivial, fun _ _ _ _ => trivial⟩,
    fun _ _ _ => trivial, rfl⟩
  exact (exec_guards (refusals_aside _) hissues hc hw).aside

/-! ## What a creation does -/

/-- A creation refused for the rate: an entry is written, and the minute
    before a reading that is not later had none. -/
def Limited (host : Host) (A : String) (s s' : TreasuryState) : Prop :=
  ∃ e k m, k ≤ m ∧ e.actor = A ∧ e.action = "transaction_rate_limited"
    ∧ e.at = host.clock m
    ∧ (∀ e' ∈ refusalsOf A s, e'.at < host.clock k - 60) ∧ s' = s.withEntry e

/-- A creation that stores an intent: fewer intents than the policy admits
    were counted at a reading that is not later than the new intent. -/
def Admitted (host : Host) (A : String) (s s' : TreasuryState) : Prop :=
  ∃ i e r p k m, k ≤ m ∧ s.agents.get? A = some r
    ∧ s.policies.get? r.policyId = some p
    ∧ recentCount s A (host.clock k) < p.maxTransactionsPerMinute
    ∧ s.intents.size < maxIntents ∧ i.agentId = A ∧ i.createdAt = host.clock m
    ∧ e.action = "create_purchase_intent"
    ∧ s'.intents = s.intents.insert i.id i ∧ s'.audit = s.audit ++ [e]

/-- The usage counts the recent intents. -/
theorem usageAt_recent {s : TreasuryState} {currency : String} {t : Int}
    {zero u : BudgetUsage} (h : usageAt s A currency t zero = .ok u) :
    u.recentTransactionCount = recentCount s A t := by
  unfold usageAt at h
  simp only [Checks.bind_eq_ok] at h
  obtain ⟨r, _, u', hevents, hintents⟩ := h
  have hu' : u'.recentTransactionCount = recentCount s A t := by
    refine (CheckedFold.foldlM_sum (I := fun u => u.recentTransactionCount
      = recentCount s A t) (m := fun _ => 0) (f := fun _ => 0) ?_ rfl hevents).1
    intro b e b' hb hstep
    unfold addEventUsage at hstep
    split at hstep
    · simp only [Checks.bind_eq_ok, Checks.pure_eq_ok] at hstep
      obtain ⟨_, _, _, _, _, _, rfl⟩ := hstep
      exact ⟨hb, rfl⟩
    · obtain rfl := Checks.pure_eq_ok.mp hstep
      exact ⟨hb, rfl⟩
  refine (CheckedFold.foldlM_sum (I := fun u => u.recentTransactionCount
    = recentCount s A t) (m := fun _ => 0) (f := fun _ => 0) ?_ hu' hintents).1
  intro b i b' hb hstep
  unfold addIntentUsage at hstep
  split at hstep
  · simp only [Checks.bind_eq_ok, Checks.pure_eq_ok] at hstep
    obtain ⟨_, _, _, _, _, _, _, _, rfl⟩ := hstep
    exact ⟨hb, rfl⟩
  · obtain rfl := Checks.pure_eq_ok.mp hstep
    exact ⟨hb, rfl⟩

theorem usage_counts {s : TreasuryState} {currency : String} :
    wp (usage host s A currency) (fun u v => Quiet w v ∧ w.tick < v.tick
      ∧ u.recentTransactionCount = recentCount s A (host.clock w.tick))
      (fun _ v => Quiet w v) w := by
  unfold usage
  refine line_lift (fun _ => Quiet.refl w) fun zero _ => ?_
  rw [wp_bind, wp_now, wp_lift]
  exact ⟨fun _ _ => Quiet.readClock w, fun u hu => ⟨Quiet.readClock w,
    Nat.lt_succ_self _, usageAt_recent hu⟩⟩

/-- Storing the new intent, at readings not earlier than a given one. -/
theorem insertNewIntent_admits {r : AgentRecord} {p : Policy}
    {request : PurchaseRequest} {d : PolicyDecision} :
    wp (insertNewIntent host A r p request d)
      (fun _ v => ∃ id i e m, w.tick ≤ m ∧ i.id = id ∧ i.agentId = A
        ∧ i.createdAt = host.clock m ∧ e.action = "create_purchase_intent"
        ∧ v.state.intents = w.state.intents.insert id i
        ∧ v.state.audit = w.state.audit ++ [e])
      (fun _ v => v.state = w.state) w := by
  unfold insertNewIntent
  rw [wp_bind, wp_newId, wp_bind, wp_now, wp_bind]
  refine wp_transition (fun _ => rfl) fun _ => ?_
  rw [wp_bind]
  refine wp_transition (fun _ => rfl) fun _ => ?_
  rw [wp_bind]
  refine wp_audit (fun _ => rfl) fun _ => ?_
  rw [wp_bind, wp_storeIntent, wp_pure]
  refine ⟨idOfDraw host "intent" w.drawn, ?i, ?e, w.tick, Nat.le_refl _, ?id,
    ?own, ?date, ?act, ?intents, ?audit⟩
  case intents => rfl
  case audit => rfl
  case id => rfl
  case own => rfl
  case date => rfl
  case act => rfl

/-- **A CREATION** changes nothing, stores one intent, or fails with at most
    the entry of its refusal. -/
theorem createIntent_rated (request : PurchaseRequest) :
    wp (createIntent host (.agent A) request)
      (fun _ v => v.state = w.state ∨ Admitted host A w.state v.state)
      (fun _ v => v.state = w.state ∨ Limited host A w.state v.state) w := by
  have h0 : w.state = w.state ∨ Limited host A w.state w.state := Or.inl rfl
  unfold createIntent
  rw [wp_bind, wp_readState]
  refine line_lift (fun _ => h0) fun agentId hscope => ?_
  obtain rfl := Actor.agent.inj (requireAgentScope_ok hscope).1
  refine line_lift (fun _ => h0) fun r hr => ?_
  refine line_lift (fun _ => h0) fun normal _ => ?_
  split
  · rw [wp_ite, wp_pure, wp_throw]
    exact ⟨fun _ => Or.inl rfl, fun _ => h0⟩
  unfold createNewIntent
  refine line_rejectIf (fun _ => h0) fun hsize => ?_
  refine line_rejectIf (fun _ => h0) fun _ => ?_
  refine line_lift (fun _ => h0) fun p hp => ?_
  refine line_quiet (requireArmedSession_quietly _ _)
    (fun _ _ h => Or.inl h.state) fun _ a ha => ?_
  refine line (wp_mono usage_counts (fun _ _ h => h)
    (fun _ _ h => Or.inl (ha.trans h).state)) ?_
  rintro used b ⟨hb, htick, hcount⟩
  have hab := ha.trans hb
  rw [wp_ite]
  constructor
  · intro _
    unfold refuseForRate
    rw [wp_bind, wp_now, wp_ite, wp_throw]
    refine ⟨fun _ => Or.inl hab.state, fun hfirst => ?_⟩
    rw [wp_bind]
    refine wp_audit (fun _ => Or.inl hab.state) fun _ => ?_
    rw [wp_throw]
    -- the first refusal of a minute is the one that is logged
    refine Or.inr ⟨?e, b.tick, b.tick + 1, Nat.le_succ _, ?actor, ?act, ?date,
      ?old, ?state⟩
    case state => rw [← hab.state]
    case actor => rfl
    case act => rfl
    case date => rfl
    case old =>
      intro e' he'
      obtain ⟨hmem, hown⟩ := List.mem_filter.mp he'
      obtain ⟨hmem, hact⟩ := List.mem_filter.mp hmem
      have hnone := List.any_eq_false.mp (Bool.eq_false_iff.mpr hfirst) e'
        (hab.state ▸ hmem)
      by_contra hlate
      exact hnone (decide_eq_true ⟨not_lt.mp hlate, of_decide_eq_true hown,
        of_decide_eq_true hact⟩)
  · intro hbelow
    refine line_quiet (decideRequest_quietly _ _ _ _ _)
      (fun _ _ h => Or.inl (hab.trans h).state) fun d c hc => ?_
    rw [wp_bind, wp_now]
    have hs := (hab.trans hc).state
    refine wp_mono insertNewIntent_admits ?_ (fun _ _ h => Or.inl (h.trans hs))
    -- below the rate the intent is stored with the count it was admitted at
    rintro _ v ⟨_, i, e, m, hm, rfl, hown, hat, hact, hintents, haudit⟩
    have hle := hc.tick
    refine Or.inr ⟨i, e, r, p, a.tick, m, ?_, agent_ok.mp hr, policy_ok.mp hp,
      ?_, not_le.mp hsize, hown, hat, hact, ?_, ?_⟩
    · have hm : c.tick + 1 ≤ m := hm
      omega
    · rw [← hcount]
      exact not_le.mp hbelow
    · rw [hintents, ← hs]
    · rw [haudit, ← hs]

/-- A request to create leaves the state, the entry of its refusal, or a new
    intent of whoever its token is. -/
theorem handle_rated {token : String} {request : PurchaseRequest} :
    wp (handle host token (.createPurchaseIntent request))
      (fun _ v => v.state = w.state ∨ ∃ A, Admitted host A w.state v.state)
      (fun _ v => v.state = w.state
        ∨ ∃ A, AuthenticatesAs host w token (.agent A)
          ∧ Limited host A w.state v.state) w := by
  unfold handle
  refine line (wp_mono authenticate_spec (fun _ _ h => h)
    (fun _ _ h => Or.inl h.state)) ?_
  rintro actor a ⟨ha, hauth⟩
  show wp (createIntent host actor request) _ _ a
  cases actor with
  | owner =>
      unfold createIntent
      rw [wp_bind, wp_readState]
      refine line_lift (fun _ => Or.inl ha.state) fun agentId hscope => ?_
      exact nomatch (requireAgentScope_ok hscope).1
  | agent A =>
      refine wp_mono (createIntent_rated request) ?_ ?_
      · rintro _ v (hv | hv)
        · exact Or.inl (hv.trans ha.state)
        · exact Or.inr ⟨A, ha.state ▸ hv⟩
      · rintro _ v (hv | hv)
        · exact Or.inl (hv.trans ha.state)
        · exact Or.inr ⟨A, hauth, ha.state ▸ hv⟩

/-- **A SAVED CREATION THAT FAILS** leaves the state or the entry of its
    refusal. -/
theorem handlePersisted_limited {token : String} {request : PurchaseRequest} :
    wp (handlePersisted host token (.createPurchaseIntent request))
      (fun _ _ => True)
      (fun _ v => v.state = w.state
        ∨ ∃ A, AuthenticatesAs host w token (.agent A)
          ∧ Limited host A w.state v.state) w :=
  handleSaved_fails (R := fun s => s = w.state
    ∨ ∃ A, AuthenticatesAs host w token (.agent A) ∧ Limited host A w.state s)
    (Or.inl rfl) (wp_mono handle_rated (fun _ _ _ => trivial)
      (fun _ _ h _ => h))

/-! ## Calls -/

/-- A call that asks for a new intent. -/
def Creates (c : Call) : Prop :=
  ∃ token request, c.asks = some (token, .createPurchaseIntent request)

theorem audits_limited {request : Request}
    (h : "transaction_rate_limited" ∈ audits request) :
    ∃ r, request = .createPurchaseIntent r := by
  cases request with
  | createPurchaseIntent r => exact ⟨r, rfl⟩
  | ownerSetEmergencyStop stopped =>
      cases stopped <;> exact absurd (List.mem_singleton.mp h) (by decide)
  | _ =>
      simp only [audits] at h
      exact absurd h (by decide)

theorem permits_creating {actor : Actor} {request : Request} {l : Label}
    (h : permits actor request l) (hl : (∃ id, l = .addIntent id)
      ∨ l = .audit "transaction_rate_limited") :
    ∃ r, request = .createPurchaseIntent r := by
  rcases hl with ⟨id, rfl⟩ | rfl
  · cases request with
    | createPurchaseIntent r => exact ⟨r, rfl⟩
    | _ => exact h.elim
  · exact audits_limited (by cases request <;> exact h)

/-- **ANY OTHER CALL** stores no new intent and refuses nobody for the
    rate. -/
theorem exec_uncreating (h : Workable w.state) {c : Call} (hc : ¬Creates c) :
    (∀ earlier t, newIn earlier A t (exec host c w).state
      = newIn earlier A t w.state)
    ∧ refusals (exec host c w).state = refusals w.state := by
  have hbeh : Behaves host w _ c := exec_behaves h c
  have hpath : ∀ {allowed : Label → Prop} {v : World},
      Path host allowed w v → (∀ id, ¬allowed (.addIntent id)) →
      ¬allowed (.audit "transaction_rate_limited") →
      (∀ earlier t, newIn earlier A t v.state = newIn earlier A t w.state)
        ∧ refusals v.state = refusals w.state := fun hp hadd hlimit =>
    ⟨hp.newIn_kept hadd, hp.refusals_kept hlimit⟩
  cases hbeh with
  | attempt hid ha =>
      exact ⟨ha.path.newIn_kept fun _ h => h.elim id id, exec_refuses hid⟩
  | recovery hr =>
      refine hpath hr.path (fun _ => id) ?_
      exact fun h : "transaction_rate_limited" = "recover_interrupted_execution"
        => absurd h (by decide)
  | ordinary hasks _ ho =>
      cases ho with
      | refused hp => exact hpath hp (fun _ => id) id
      | served _ hp =>
          rename_i _ request _ actor _
          have hnone : ∀ {l}, Allowed actor request l → ¬((∃ id, l = .addIntent id)
              ∨ l = .audit "transaction_rate_limited") := by
            rintro l (hl | hl) hcases
            · obtain ⟨r, rfl⟩ := permits_creating hl hcases
              exact hc ⟨_, _, hasks⟩
            · rcases hcases with ⟨id, rfl⟩ | rfl
              · exact hl
              · exact hl
          exact hpath hp (fun id hl => hnone hl (Or.inl ⟨id, rfl⟩))
            (fun hl => hnone hl (Or.inr rfl))

/-- **A CALL TO CREATE** leaves the state, the entry of a refusal, or a new
    intent. -/
theorem exec_creating {c : Call} (hc : Creates c) :
    (exec host c w).state = w.state
      ∨ ∃ A, Limited host A w.state (exec host c w).state
        ∨ Admitted host A w.state (exec host c w).state := by
  obtain ⟨token, request, hasks⟩ := hc
  refine exec_leaves (P := fun s => s = w.state
    ∨ ∃ A, Limited host A w.state s ∨ Admitted host A w.state s) hasks rfl
    (Or.inl rfl) (wp_mono handle_rated ?_ ?_)
  · exact fun _ _ h => h.imp_right fun ⟨A, h⟩ => ⟨A, Or.inr h⟩
  · exact fun _ _ h => h.imp_right fun ⟨A, _, h⟩ => ⟨A, Or.inl h⟩

/-! ## The window -/

/-- The clock never goes back. -/
def NeverBack (host : Host) : Prop :=
  ∀ k m, k ≤ m → host.clock k ≤ host.clock m

/-- The policy of an agent, if it is stored. -/
def PolicyIs (A : String) (p : Policy) (s : TreasuryState) : Prop :=
  ∀ r q, s.agents.get? A = some r → s.policies.get? r.policyId = some q → q = p

/-- **THE WINDOW**: an admitted intent does not fill a minute beyond what the
    policy admits. -/
theorem Admitted.newIn_le {s s' earlier : TreasuryState} {p : Policy}
    {B : String} {t : Int} (hclock : NeverBack host)
    (h : Admitted host B s s') (hp : PolicyIs A p s)
    (hs : newIn earlier A t s ≤ p.maxTransactionsPerMinute) :
    newIn earlier A t s' ≤ p.maxTransactionsPerMinute := by
  obtain ⟨i, e, r, q, k, m, hkm, hr, hq, hcount, hsize, hown, hat, _, hintents,
    _⟩ := h
  have hle := length_filter_insert s.intents (isNewIn earlier A t) i i.id
  rw [← hintents] at hle
  refine Nat.le_trans hle ?_
  by_cases hnew : isNewIn earlier A t i = true
  · rw [if_pos hnew]
    obtain ⟨hA, hlo, hhi⟩ := of_decide_eq_true (Bool.and_eq_true .. ▸ hnew).1
    obtain rfl : B = A := hown.symm.trans hA
    obtain rfl := hp r q hr hq
    -- what lies in the minute of the new intent was counted before it
    have hback := hclock k m hkm
    have hcounted : newIn earlier B t s
        ≤ (s.intents.values.filter (fun j => decide (j.agentId = B
          ∧ j.createdAt ≥ host.clock k - 60))).length := by
      refine (List.monotone_filter_right _ fun j hj => ?_).length_le
      obtain ⟨hj, hjlo, _⟩ := of_decide_eq_true (Bool.and_eq_true .. ▸ hj).1
      exact decide_eq_true ⟨hj, by omega⟩
    have hall : (s.intents.values.filter (fun j => decide (j.agentId = B
        ∧ j.createdAt ≥ host.clock k - 60))).length ≤ s.intents.size :=
      Nat.le_trans (List.length_filter_le _ _) (Nat.le_of_eq (List.length_map _))
    unfold recentCount at hcount
    unfold maxIntents at hsize
    unfold newIn at hcounted
    omega
  · rw [if_neg hnew]
    exact hs

/-- The refusals of an agent lie more than a minute apart. -/
def Spaced (A : String) (s : TreasuryState) : Prop :=
  (refusalsOf A s).Pairwise (fun e e' => e.at + 60 < e'.at)

theorem Spaced.same {s s' : TreasuryState} (h : Spaced A s)
    (hs : refusals s' = refusals s) : Spaced A s' := by
  unfold Spaced refusalsOf
  rw [hs]
  exact h

theorem Admitted.refusals {s s' : TreasuryState} {B : String}
    (h : Admitted host B s s') : refusals s' = refusals s := by
  obtain ⟨_, e, _, _, _, _, _, _, _, _, _, _, _, hact, _, haudit⟩ := h
  unfold Treasury.refusals
  rw [haudit, List.filter_append, List.filter_cons_of_neg, List.filter_nil,
    List.append_nil]
  rw [hact]
  decide

/-- **A REFUSAL** is written more than a minute after the last one. -/
theorem Limited.spaced {s s' : TreasuryState} {B : String}
    (hclock : NeverBack host) (h : Limited host B s s') (hs : Spaced A s) :
    Spaced A s' := by
  obtain ⟨e, k, m, hkm, hown, hact, hat, hold, rfl⟩ := h
  have hrefusals : refusals (s.withEntry e) = refusals s ++ [e] := by
    show (s.audit ++ [e]).filter _ = _
    rw [List.filter_append]
    refine congrArg _ (List.filter_eq_self.mpr fun e' he' => ?_)
    rw [List.mem_singleton.mp he']
    exact decide_eq_true hact
  unfold Spaced refusalsOf
  rw [hrefusals, List.filter_append]
  refine List.pairwise_append.mpr ⟨hs, ?_, ?_⟩
  · exact (List.pairwise_singleton _ e).sublist List.filter_sublist
  · intro e1 he1 e2 he2
    obtain ⟨he2, hA⟩ := List.mem_filter.mp he2
    obtain rfl := List.mem_singleton.mp he2
    obtain rfl : B = A := hown.symm.trans (of_decide_eq_true hA)
    have hbefore := hold e1 he1
    have hback := hclock k m hkm
    omega

theorem exec_spaced (hclock : NeverBack host) (h : Workable w.state)
    (c : Call) (hs : Spaced A w.state) : Spaced A (exec host c w).state := by
  by_cases hc : Creates c
  · rcases exec_creating hc with heq | ⟨B, hlim | hadm⟩
    · rw [heq]
      exact hs
    · exact hlim.spaced hclock hs
    · exact hs.same hadm.refusals
  · exact hs.same (exec_uncreating (A := A) h hc).2

theorem exec_newIn {earlier : TreasuryState} {p : Policy} {t : Int}
    (hclock : NeverBack host) (h : Workable w.state) (c : Call)
    (hp : PolicyIs A p w.state)
    (hs : newIn earlier A t w.state ≤ p.maxTransactionsPerMinute) :
    newIn earlier A t (exec host c w).state ≤ p.maxTransactionsPerMinute := by
  by_cases hc : Creates c
  · rcases exec_creating hc with heq | ⟨B, hlim | hadm⟩
    · rw [heq]
      exact hs
    · obtain ⟨e, _, _, _, _, _, _, _, heq⟩ := hlim
      rw [heq]
      exact hs
    · exact hadm.newIn_le hclock hp hs
  · rw [(exec_uncreating h hc).1]
    exact hs

/-! ## The theorem -/

theorem Started.unrefused {balance : Money} {token : String}
    (h : Started host balance token w) : Spaced A w.state := by
  obtain ⟨_, _, entry, _, _, _, _, haction, hs⟩ := h.state
  have hnone : refusals w.state = [] := by
    rw [hs]
    show [entry].filter _ = []
    refine List.filter_eq_nil_iff.mpr fun e he => ?_
    rw [List.mem_singleton.mp he, haction]
    decide
  unfold Spaced refusalsOf
  rw [hnone]
  exact List.Pairwise.nil

/-- **THE RATE WINDOW**: on a clock that never goes back, while the policy of
    an agent stays what it is, no closed minute has more new intents of the
    agent than the policy admits; a saved creation that fails leaves the
    state, or that and one entry for the rate; and the entries of an agent
    lie more than a minute apart. -/
theorem rate_is_windowed {owner : String} {w0 : World} {cs ds : List Call}
    {p : Policy} (hclock : NeverBack host)
    (hrun : TreasuryRun host owner w0 ds w) (hcalls : Calls host w cs w')
    (hpolicy : Throughout (exec host) (fun _ v => PolicyIs A p v.state) w cs) :
    (∀ t, newIn w.state A t w'.state ≤ p.maxTransactionsPerMinute)
      ∧ (∀ token request e, result (handlePersisted host token
            (.createPurchaseIntent request)) w' = .error e →
          let v := final (handlePersisted host token
            (.createPurchaseIntent request)) w'
          v.state = w'.state
            ∨ ∃ B, AuthenticatesAs host w' token (.agent B)
              ∧ Limited host B w'.state v.state)
      ∧ Spaced A w'.state := by
  refine ⟨fun t => ?_, fun token request e herror => ?_, ?_⟩
  -- no intent is new at the start
  · have hzero : newIn w.state A t w.state = 0 := by
      refine List.length_eq_zero_iff.mpr (List.filter_eq_nil_iff.mpr ?_)
      intro i hi hnew
      obtain ⟨id, hget⟩ := SortedMap.mem_values.mp hi
      obtain rfl := hrun.kept.1.intents _ _ hget
      have hunstored := (Bool.and_eq_true .. ▸ hnew).2
      rw [SortedMap.contains_iff.mpr ⟨i, hget⟩] at hunstored
      exact nomatch hunstored
    refine (hcalls.invariantThroughout (I := fun v => Kept v.state ∧ Fits v
      ∧ newIn w.state A t v.state ≤ p.maxTransactionsPerMinute) hpolicy
      ⟨hrun.kept.1, hrun.kept.2, ?_⟩ ?_).2.2
    · rw [hzero]
      exact Nat.zero_le _
    · rintro c v hp ⟨hk, hf, hin⟩ hfit
      have hwork := hk.workable hf
      have hbeh : Behaves host v _ c := exec_behaves hwork c
      exact ⟨hbeh.path.kept hk, hfit, exec_newIn hclock hwork c hp hin⟩
  · exact (wp_iff.mp handlePersisted_limited).2 e herror
  · obtain ⟨balance, hs⟩ := hrun.balance
    refine ((hrun.calls.append hcalls).invariant (I := fun v => Kept v.state
      ∧ Fits v ∧ Spaced A v.state) ⟨hs.kept, hs.fits, hs.unrefused⟩ ?_).2.2
    rintro c v ⟨hk, hf, hsp⟩ hfit
    have hwork := hk.workable hf
    have hbeh : Behaves host v _ c := exec_behaves hwork c
    exact ⟨hbeh.path.kept hk, hfit, exec_spaced hclock hwork c hsp⟩

/-- The demonstration policy with one intent a minute. -/
def onePerMinute : Policy :=
  { Policy.conservativeDemo with maxTransactionsPerMinute := 1 }

/-- The agent asks for the small purchase under a key of its own. -/
def asksUnder (key : String) : Call :=
  .persisted agentToken
    (.createPurchaseIntent { smallPurchase with idempotencyKey := key })

/-- The policy of an agent in a world. -/
def policyOf (A : String) (w : World) : Option Policy :=
  (w.state.agents.get? A).bind fun r => w.state.policies.get? r.policyId

theorem policyIs_of {p : Policy} (h : policyOf A w = some p) :
    PolicyIs A p w.state := by
  intro r q hr hq
  unfold policyOf at h
  rw [hr, Option.bind_some, hq] at h
  exact Option.some.inj h

/-- What the agent asks for in one minute. -/
def threeAsked : List Call := [asksUnder "a", asksUnder "b", asksUnder "c"]

/-- Of three creations in one minute the first is admitted and two are
    refused, with one entry for both. -/
theorem rate_is_windowed_refused :
    ∃ owner w0 w w', ∃ p : Policy, TreasuryRun stillHost owner w0
        [agentWith onePerMinute owner] w
      ∧ Calls stillHost w threeAsked w'
      ∧ p.maxTransactionsPerMinute = 1
      ∧ newIn w.state (idOfDraw stillHost "agent" 4) 1000 w'.state = 1
      ∧ (refusalsOf (idOfDraw stillHost "agent" 4) w'.state).length = 1
      ∧ (∀ t, newIn w.state (idOfDraw stillHost "agent" 4) t w'.state ≤ 1)
      ∧ Spaced (idOfDraw stillHost "agent" 4) w'.state := by
  have h : tryRun stillHost ⟨100000, "CAD"⟩
      (fun owner => [agentWith onePerMinute owner]) (fun w =>
        let w1 := exec stillHost (asksUnder "a") w
        let w2 := exec stillHost (asksUnder "b") w1
        let w3 := exec stillHost (asksUnder "c") w2
        decide (Fits w1 ∧ Fits w2 ∧ Fits w3)
          && ((policyOf (idOfDraw stillHost "agent" 4) w).any (fun p => decide (
              p.maxTransactionsPerMinute = 1
              ∧ policyOf (idOfDraw stillHost "agent" 4) w1 = some p
              ∧ policyOf (idOfDraw stillHost "agent" 4) w2 = some p))
          && decide (newIn w.state (idOfDraw stillHost "agent" 4) 1000
                w3.state = 1
              ∧ (refusalsOf (idOfDraw stillHost "agent" 4) w3.state).length
                = 1))) = true := by
    decide +kernel
  obtain ⟨owner, w0, w, hrun, hcheck⟩ := tryRun_run h
  rw [Bool.and_eq_true, Bool.and_eq_true] at hcheck
  obtain ⟨hfits, hpolicy, hcounts⟩ := hcheck
  obtain ⟨hfit1, hfit2, hfit3⟩ := of_decide_eq_true hfits
  obtain ⟨p, hp, hsame⟩ := (Option.any_eq_true _ _).mp hpolicy
  obtain ⟨hone, hp1, hp2⟩ := of_decide_eq_true hsame
  obtain ⟨hnew, hrefused⟩ := of_decide_eq_true hcounts
  have hcalls : Calls stillHost w threeAsked _ :=
    .snoc _ (.snoc _ (.snoc _ .nil hfit1) hfit2) hfit3
  obtain ⟨hwindow, _, hspaced⟩ := rate_is_windowed
    (fun _ _ _ => le_refl (1000 : Int)) hrun hcalls
    ⟨policyIs_of hp, policyIs_of hp1, policyIs_of hp2, trivial⟩
  rw [hone] at hwindow
  exact ⟨owner, w0, w, _, p, hrun, hcalls, hone, hnew, hrefused, hwindow,
    hspaced⟩

end Treasury
