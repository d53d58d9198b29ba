import Cixa.Execution

/-! # Fields — what a change does to each field of the state

    A change touches few fields.  For each field one lemma says that a change
    leaves it alone or is one of the few labels that touch it, with what that
    label checked.  An invariant about one field needs only its lemma. -/

namespace Treasury

open CixaData CixaHost Outcome Transition

variable {host : Host} {w : World} {l : Label} {w' : World}

/-! ## Intents -/

/-- What an intent keeps while it moves from state to state. -/
structure Continues (i i' : PurchaseIntent) : Prop where
  id : i'.id = i.id
  agentId : i'.agentId = i.agentId
  brokerSessionId : i'.brokerSessionId = i.brokerSessionId
  request : i'.request = i.request
  policyVersion : i'.policyVersion = i.policyVersion
  createdAt : i'.createdAt = i.createdAt

theorem SettledIn.continues {a b : World} {i i' : PurchaseIntent}
    (h : SettledIn host a b i i') : Continues i i' ∧ i'.state = .settled := by
  obtain ⟨_, _, _, _, _, heq⟩ := h.shape
  rw [heq]
  exact ⟨⟨rfl, rfl, rfl, rfl, rfl, rfl⟩, rfl⟩

theorem Concluded.continues {a b : World} {s : TreasuryState}
    {i i' : PurchaseIntent} {next : TransactionState}
    {events : List LedgerEvent} (h : Concluded host a b s i next i' events) :
    Continues i i' ∧ i'.state ≠ .executing := by
  cases h with
  | settled hi _ =>
      refine ⟨hi.continues.1, ?_⟩
      rw [hi.continues.2]
      exact nofun
  | _ => exact ⟨⟨rfl, rfl, rfl, rfl, rfl, rfl⟩, nofun⟩

theorem Reconciled.continues {a b : World} {s : TreasuryState}
    {i i' : PurchaseIntent} {outcome : ReconciliationOutcome}
    {events : List LedgerEvent}
    (h : Reconciled host a b s i outcome i' events) :
    Continues i i' ∧ i'.state ≠ .executing := by
  cases h with
  | settled _ hi _ =>
      refine ⟨hi.continues.1, ?_⟩
      rw [hi.continues.2]
      exact nofun
  | refunded _ hi _ _ _ _ =>
      obtain ⟨hid, hag, hses, hreq, hver, hat⟩ := hi.continues.1
      exact ⟨⟨hid, hag, hses, hreq, hver, hat⟩, nofun⟩
  | _ => exact ⟨⟨rfl, rfl, rfl, rfl, rfl, rfl⟩, nofun⟩

theorem Reconciled.id {a b : World} {s : TreasuryState} {i i' : PurchaseIntent}
    {outcome : ReconciliationOutcome} {events : List LedgerEvent}
    (h : Reconciled host a b s i outcome i' events) : i'.id = i.id :=
  h.continues.1.id

theorem movesTo.not_executing {i : PurchaseIntent} {next : TransactionState}
    (h : movesTo i next) : next ≠ .executing := by
  rintro rfl
  rcases h with ⟨_, h | h | h⟩ | ⟨_, h⟩ <;> exact nomatch h

/-- A provider effect changes the providers only. -/
theorem Effect.fields {a b : World} {i : PurchaseIntent} {s s' : TreasuryState}
    {arm : Arm} (h : Effect host a b i arm s s') : ∃ provider manualProvider,
    s' = { s with provider := provider, manualProvider := manualProvider } := by
  cases h with
  | none => exact ⟨_, _, rfl⟩
  | simulated => exact ⟨_, _, rfl⟩
  | manual => exact ⟨_, _, rfl⟩

/-- A deposit credits the providers only. -/
theorem Credited.fields {a b : World} {amount : Money} {verified : Bool}
    {s s' : TreasuryState} (h : Credited host a b amount verified s s') :
    ∃ provider manualProvider,
      s' = { s with provider := provider, manualProvider := manualProvider } := by
  cases h with
  | unverified => exact ⟨_, _, rfl⟩
  | simulated => exact ⟨_, _, rfl⟩
  | manual => exact ⟨_, _, rfl⟩

/-- What a change does to the intents: nothing, a new one, or the next state
    of one; the log says what was stored. -/
inductive IntentChange (host : Host) (w w' : World) (l : Label) : Prop where
  | none (hs : w'.state.intents = w.state.intents)
      (hl : ∃ tail, w'.log = w.log ++ tail ∧ ∀ i, .stored i ∉ tail)
  | new {i : PurchaseIntent} (hlabel : l = .addIntent i.id)
      (hn : NewIntent host w w' i)
      (hs : w'.state.intents = w.state.intents.insert i.id i)
      (hl : w'.log = w.log ++ [.stored i])
  | next {i i' : PurchaseIntent} (hi : w.state.intents.get? i.id = some i)
      (hc : Continues i i')
      (hx : i'.state = .executing → l = .reserve i.id)
      (hs : w'.state.intents = w.state.intents.insert i.id i')
      (hl : w'.log = w.log ++ [.stored i'])

/-- **THE INTENTS** change only by storing one under its id. -/
theorem Change.intents (h : Change host l w w') : IntentChange host w w' l := by
  cases h with
  | quiet h => exact .none (by rw [h.state]) ⟨[], by rw [h.log]; simp, by simp⟩
  | addIntent _ hn _ hs hl => exact .new rfl hn (by rw [hs]; rfl) hl
  | reserve _ hi _ _ _ _ hs hl =>
      refine .next hi ?_ (fun _ => rfl) ?_ hl
      · exact ⟨rfl, rfl, rfl, rfl, rfl, rfl⟩
      · rw [hs]
        rfl
  | move _ hi hm _ hs hl =>
      refine .next hi ?_ (fun hx => absurd hx hm.not_executing) ?_ hl
      · exact ⟨rfl, rfl, rfl, rfl, rfl, rfl⟩
      · rw [hs]
        rfl
  | conclude _ hi _ hc _ hs hl =>
      exact .next hi hc.continues.1 (fun hx => absurd hx hc.continues.2)
        (by rw [hs]; rfl) hl
  | reconcile _ hi hr hp hs hl =>
      obtain ⟨_, _, heq⟩ := hp.fields
      exact .next hi hr.continues.1 (fun hx => absurd hx hr.continues.2)
        (by rw [hs, heq]; rfl) hl
  | deposit _ _ _ hc _ _ hs hl =>
      obtain ⟨_, _, heq⟩ := hc.fields
      exact .none (by rw [hs, heq]; rfl) ⟨[], by rw [hl]; simp, by simp⟩
  | writeKey _ hs _ hl => exact .none (by rw [hs]) ⟨_, hl, by simp⟩
  | writeState _ hs _ _ hl => exact .none (by rw [hs]) ⟨_, hl, by simp⟩
  | submit _ hs _ _ hl => exact .none (by rw [hs]) ⟨_, hl, by simp⟩
  | _ =>
      rename_i hs hl
      exact .none ((congrArg TreasuryState.intents hs).trans rfl)
        ⟨[], by rw [hl]; simp, by simp⟩

theorem Keyed.insert {s : TreasuryState} {m : SortedMap String PurchaseIntent}
    {i : PurchaseIntent} (h : Keyed s) (hm : m = s.intents.insert i.id i) :
    ∀ id j, m.get? id = some j → j.id = id := by
  intro id j hj
  rw [hm, SortedMap.get?_insert] at hj
  split at hj
  · rename_i heq
    rw [heq, ← Option.some.inj hj]
  · exact h id j hj

theorem Change.keyed (h : Change host l w w') (hk : Keyed w.state) :
    Keyed w'.state := by
  cases h.intents with
  | none hs _ =>
      unfold Keyed
      rw [hs]
      exact hk
  | new _ _ hs _ => exact hk.insert hs
  | next _ hc _ hs _ => exact hk.insert (by rw [hs, hc.id])

theorem Path.keyed {allowed : Label → Prop}
    (h : Path host allowed w w') (hk : Keyed w.state) : Keyed w'.state :=
  h.invariant (I := fun v => Keyed v.state) (fun _ _ _ _ hc => hc.keyed)
    (fun _ _ _ ha _ => ha) hk

/-! ## Agents and policies -/

/-- **THE AGENTS** change only by adding one or editing one. -/
theorem Change.agents (h : Change host l w w') :
    w'.state.agents = w.state.agents
      ∨ (∃ id token p r, l = .addAgent id token ∧ r.id = id
        ∧ NewAgent host w w' token p r
        ∧ w'.state.agents = w.state.agents.insert id r)
      ∨ ∃ id edit r r', l = .editAgent id edit
        ∧ w.state.agents.get? id = some r ∧ Edited host w w' r edit r'
        ∧ w'.state.agents = w.state.agents.insert id r' := by
  cases h with
  | quiet h => exact Or.inl (by rw [h.state])
  | addAgent _ hid hn hs _ =>
      exact Or.inr (Or.inl ⟨_, _, _, _, rfl, hid, hn,
        (congrArg TreasuryState.agents hs).trans rfl⟩)
  | editAgent _ hr he hs _ =>
      exact Or.inr (Or.inr ⟨_, _, _, _, rfl, hr, he,
        (congrArg TreasuryState.agents hs).trans rfl⟩)
  | reconcile _ _ _ hp hs _ =>
      obtain ⟨_, _, heq⟩ := hp.fields
      exact Or.inl (by rw [hs, heq]; rfl)
  | deposit _ _ _ hc _ _ hs _ =>
      obtain ⟨_, _, heq⟩ := hc.fields
      exact Or.inl (by rw [hs, heq]; rfl)
  | writeKey _ hs _ _ => exact Or.inl (by rw [hs])
  | writeState _ hs _ _ _ => exact Or.inl (by rw [hs])
  | submit _ hs _ _ _ => exact Or.inl (by rw [hs])
  | _ =>
      rename_i hs _
      exact Or.inl ((congrArg TreasuryState.agents hs).trans rfl)

/-- **THE POLICIES** change only with a new agent or by an update. -/
theorem Change.policies (h : Change host l w w') :
    w'.state.policies = w.state.policies
      ∨ (∃ id token p r, l = .addAgent id token ∧ r.id = id
        ∧ NewAgent host w w' token p r
        ∧ w'.state.policies = w.state.policies.insert p.id p)
      ∨ ∃ id r p, l = .setPolicy id ∧ w.state.agents.get? id = some r
        ∧ p.validate host = .ok () ∧ p.id = r.policyId
        ∧ w'.state.policies = w.state.policies.insert p.id p := by
  cases h with
  | quiet h => exact Or.inl (by rw [h.state])
  | addAgent _ hid hn hs _ =>
      exact Or.inr (Or.inl ⟨_, _, _, _, rfl, hid, hn,
        (congrArg TreasuryState.policies hs).trans rfl⟩)
  | setPolicy _ hr _ hv hid _ hs _ =>
      exact Or.inr (Or.inr ⟨_, _, _, rfl, hr, hv, hid,
        (congrArg TreasuryState.policies hs).trans rfl⟩)
  | reconcile _ _ _ hp hs _ =>
      obtain ⟨_, _, heq⟩ := hp.fields
      exact Or.inl (by rw [hs, heq]; rfl)
  | deposit _ _ _ hc _ _ hs _ =>
      obtain ⟨_, _, heq⟩ := hc.fields
      exact Or.inl (by rw [hs, heq]; rfl)
  | writeKey _ hs _ _ => exact Or.inl (by rw [hs])
  | writeState _ hs _ _ _ => exact Or.inl (by rw [hs])
  | submit _ hs _ _ _ => exact Or.inl (by rw [hs])
  | _ =>
      rename_i hs _
      exact Or.inl ((congrArg TreasuryState.policies hs).trans rfl)

/-! ## The owner and the stop -/

/-- The owner stays. -/
theorem Change.owner (h : Change host l w w') :
    w'.state.owner = w.state.owner := by
  cases h with
  | quiet h => rw [h.state]
  | reconcile _ _ _ hp hs _ =>
      obtain ⟨_, _, heq⟩ := hp.fields
      rw [hs, heq]
      rfl
  | deposit _ _ _ hc _ _ hs _ =>
      obtain ⟨_, _, heq⟩ := hc.fields
      rw [hs, heq]
      rfl
  | writeKey _ hs _ _ => rw [hs]
  | writeState _ hs _ _ _ => rw [hs]
  | submit _ hs _ _ _ => rw [hs]
  | _ =>
      rename_i hs _
      exact (congrArg TreasuryState.owner hs).trans rfl

/-- The emergency flag changes only by setting it. -/
theorem Change.flag (h : Change host l w w') :
    w'.state.emergencyStop = w.state.emergencyStop
      ∨ l = .setStop w'.state.emergencyStop := by
  cases h with
  | quiet h => exact Or.inl (by rw [h.state])
  | setStop _ hs _ => exact Or.inr (by rw [hs])
  | reconcile _ _ _ hp hs _ =>
      obtain ⟨_, _, heq⟩ := hp.fields
      exact Or.inl (by rw [hs, heq]; rfl)
  | deposit _ _ _ hc _ _ hs _ =>
      obtain ⟨_, _, heq⟩ := hc.fields
      exact Or.inl (by rw [hs, heq]; rfl)
  | writeKey _ hs _ _ => exact Or.inl (by rw [hs])
  | writeState _ hs _ _ _ => exact Or.inl (by rw [hs])
  | submit _ hs _ _ _ => exact Or.inl (by rw [hs])
  | _ =>
      rename_i hs _
      exact Or.inl ((congrArg TreasuryState.emergencyStop hs).trans rfl)

/-! ## The audit log -/

/-- The generation counts the entries. -/
def Counted (s : TreasuryState) : Prop := s.generation = s.audit.length

/-- **THE AUDIT LOG** grows by at most one entry, and the generation with
    it. -/
theorem Change.entries (h : Change host l w w') :
    (w'.state.audit = w.state.audit
        ∧ w'.state.generation = w.state.generation)
      ∨ ∃ action e s, s.audit = w.state.audit ∧ Entered host w w' s action e
        ∧ w'.state.audit = w.state.audit ++ [e]
        ∧ w'.state.generation = w.state.generation + 1 := by
  cases h with
  | quiet h => exact Or.inl (by rw [h.state]; exact ⟨rfl, rfl⟩)
  | audit _ he hs _ =>
      exact Or.inr ⟨_, _, _, rfl, he, by rw [hs]; exact ⟨rfl, rfl⟩⟩
  | addIntent _ _ he hs _ =>
      exact Or.inr ⟨_, _, _, rfl, he, by rw [hs]; exact ⟨rfl, rfl⟩⟩
  | reserve _ _ _ _ he _ hs _ =>
      exact Or.inr ⟨_, _, w.state.withEvents _, rfl, he, by rw [hs]; exact ⟨rfl, rfl⟩⟩
  | conclude _ _ _ _ he hs _ =>
      exact Or.inr ⟨_, _, w.state.withEvents _, rfl, he, by rw [hs]; exact ⟨rfl, rfl⟩⟩
  | reconcile _ _ _ hp hs _ =>
      obtain ⟨_, _, heq⟩ := hp.fields
      exact Or.inl (by rw [hs, heq]; exact ⟨rfl, rfl⟩)
  | deposit _ _ _ hc _ _ hs _ =>
      obtain ⟨_, _, heq⟩ := hc.fields
      exact Or.inl (by rw [hs, heq]; exact ⟨rfl, rfl⟩)
  | writeKey _ hs _ _ => exact Or.inl (by rw [hs]; exact ⟨rfl, rfl⟩)
  | writeState _ hs _ _ _ => exact Or.inl (by rw [hs]; exact ⟨rfl, rfl⟩)
  | submit _ hs _ _ _ => exact Or.inl (by rw [hs]; exact ⟨rfl, rfl⟩)
  | _ =>
      rename_i hs _
      exact Or.inl ⟨(congrArg TreasuryState.audit hs).trans rfl,
        (congrArg TreasuryState.generation hs).trans rfl⟩

/-! ## What every state keeps -/

/-- Records are stored under their ids, and the generation counts the
    entries. -/
structure Kept (s : TreasuryState) : Prop where
  intents : Keyed s
  agents : ∀ id r, s.agents.get? id = some r → r.id = id
  policies : ∀ id p, s.policies.get? id = some p → p.id = id
  counted : Counted s

/-- An edit keeps the id and the policy of an agent. -/
theorem Edited.fixed {a b : World} {r r' : AgentRecord} {edit : AgentEdit}
    (h : Edited host a b r edit r') : r'.id = r.id ∧ r'.policyId = r.policyId
      ∧ r'.scopes = r.scopes := by
  cases h <;> exact ⟨rfl, rfl, rfl⟩

theorem Change.kept (h : Change host l w w') (hk : Kept w.state) :
    Kept w'.state := by
  refine ⟨h.keyed hk.intents, ?_, ?_, ?_⟩
  · intro id r hr
    rcases h.agents with heq | ⟨id', _, _, r', _, hid, _, heq⟩
      | ⟨id', _, old, r', _, hold, he, heq⟩
    · exact hk.agents id r (heq ▸ hr)
    · rw [heq, SortedMap.get?_insert] at hr
      split at hr
      · rename_i hsame
        rw [← Option.some.inj hr, hid, hsame]
      · exact hk.agents id r hr
    · rw [heq, SortedMap.get?_insert] at hr
      split at hr
      · rename_i hsame
        rw [← Option.some.inj hr, he.fixed.1, hsame]
        exact hk.agents _ _ hold
      · exact hk.agents id r hr
  · intro id p hp
    rcases h.policies with heq | ⟨_, _, _, _, _, _, _, heq⟩
      | ⟨_, _, _, _, _, _, _, heq⟩
    · exact hk.policies id p (heq ▸ hp)
    all_goals
      rw [heq, SortedMap.get?_insert] at hp
      split at hp
      · rename_i hsame
        rw [← Option.some.inj hp, hsame]
      · exact hk.policies id p hp
  · rcases h.entries with ⟨ha, hg⟩ | ⟨_, _, _, _, _, ha, hg⟩
    · unfold Counted
      rw [ha, hg]
      exact hk.counted
    · unfold Counted
      rw [ha, hg, List.length_append, hk.counted]
      rfl

theorem Path.kept {allowed : Label → Prop} (h : Path host allowed w w')
    (hk : Kept w.state) : Kept w'.state :=
  h.invariant (I := fun v => Kept v.state) (fun _ _ _ _ hc => hc.kept)
    (fun _ _ _ ha _ => ha) hk

end Treasury
