import Cixa.Crashes

/-! # Validity — when a state may be written

    A save refuses a state that its own checks do not pass, or whose audit
    chain does not verify.  Reserving the funds of an intent and writing an
    audit entry keep both, in both directions: a state is as valid after them
    as it was before.  So whether the state of a handoff can be saved is
    decided BEFORE the handoff. -/

namespace Treasury

open CixaData CixaHost Outcome Transition Checks

variable {host : Host} {s s' : TreasuryState} {w w' : World}

/-! ## The checks of a state -/

/-- **A VALID STATE**: every check that `validateState` makes. -/
structure Valid (host : Host) (s : TreasuryState) : Prop where
  schema : s.schemaVersion = 2
  quotas : validateQuotas s = .ok ⟨⟩
  owner : Chars.byteLen s.owner.capabilityTokenHash = 64
  policies : ∀ id p, s.policies.get? id = some p →
    validatePolicyEntry host (id, p) = .ok ⟨⟩
  agents : ∀ id r, s.agents.get? id = some r →
    validateAgentEntry host s (id, r) = .ok ⟨⟩
  intents : ∀ id i, s.intents.get? id = some i →
    validateIntentEntry host s (id, i) = .ok ⟨⟩
  ledger : ∀ e ∈ s.ledger, validateLedgerEvent s e = .ok ⟨⟩
  provider : validateProvider host s = .ok ⟨⟩
  deposits : ∀ k ∈ s.processedDeposits.keys,
    bounded k "external_reference" 160 = .ok ⟨⟩

theorem forM_entries {α : Type} {m : SortedMap String α}
    {f : String × α → Except TreasuryError Unit} :
    m.entries.forM f = .ok ⟨⟩
      ↔ ∀ k v, m.get? k = some v → f (k, v) = .ok ⟨⟩ := by
  rw [forM_eq_ok]
  constructor
  · intro h k v hget
    exact h (k, v) (SortedMap.get?_eq_some.mp hget)
  · rintro h ⟨k, v⟩ hmem
    exact h k v (SortedMap.get?_eq_some.mpr hmem)

theorem validateState_ok : validateState host s = .ok ⟨⟩ ↔ Valid host s := by
  unfold validateState
  simp only [bind_eq_ok, refuseIf_eq_ok, not_not]
  constructor
  · rintro ⟨_, hschema, _, hquotas, _, howner, _, hpolicies, _, hagents, _,
      hintents, _, hledger, _, hprovider, hdeposits⟩
    exact ⟨hschema, hquotas, howner, forM_entries.mp hpolicies,
      forM_entries.mp hagents, forM_entries.mp hintents,
      forM_eq_ok.mp hledger, hprovider, forM_eq_ok.mp hdeposits⟩
  · rintro ⟨hschema, hquotas, howner, hpolicies, hagents, hintents, hledger,
      hprovider, hdeposits⟩
    exact ⟨⟨⟩, hschema, ⟨⟩, hquotas, ⟨⟩, howner, ⟨⟩,
      forM_entries.mpr hpolicies, ⟨⟩, forM_entries.mpr hagents, ⟨⟩,
      forM_entries.mpr hintents, ⟨⟩, forM_eq_ok.mpr hledger, ⟨⟩, hprovider,
      forM_eq_ok.mpr hdeposits⟩

/-! ## The audit chain -/

/-- The sequence and the hash that the entry after a log must carry. -/
def nextEntry (start : Nat × String) (audit : List AuditEntry) : Nat × String :=
  (start.1 + audit.length, (audit.getLast?.map AuditEntry.hash).getD start.2)

theorem nextEntry_cons (start : Nat × String) (e : AuditEntry)
    (rest : List AuditEntry) :
    nextEntry start (e :: rest) = nextEntry (start.1 + 1, e.hash) rest := by
  unfold nextEntry
  rw [List.length_cons, List.getLast?_cons]
  cases rest.getLast? with
  | none => simp [Nat.add_comm, Nat.add_left_comm]
  | some last => simp [Nat.add_comm, Nat.add_left_comm]

theorem verifyAuditEntry_ok {key : List UInt8} {expected next : Nat × String}
    {e : AuditEntry} :
    verifyAuditEntry host key expected e = .ok next
      ↔ e.sequence = expected.1 ∧ e.previousHash = expected.2
        ∧ hmacHash host key (unsignedEntry e) = e.hash
        ∧ next = (expected.1 + 1, e.hash) := by
  unfold verifyAuditEntry
  simp only [bind_eq_ok, refuseIf_eq_ok, pure_eq_ok, not_not]
  constructor
  · rintro ⟨_, hseq, _, hprev, _, hhash, rfl⟩
    exact ⟨hseq, hprev, hhash, rfl⟩
  · rintro ⟨hseq, hprev, hhash, rfl⟩
    exact ⟨⟨⟩, hseq, ⟨⟩, hprev, ⟨⟩, hhash, rfl⟩

/-- A chain that verifies ends where the next entry starts. -/
theorem verifyEntries_next {key : List UInt8} {audit : List AuditEntry}
    {start next : Nat × String}
    (h : audit.foldlM (verifyAuditEntry host key) start = .ok next) :
    next = nextEntry start audit := by
  induction audit generalizing start with
  | nil =>
      cases h
      rfl
  | cons e rest ih =>
      obtain ⟨mid, he, hrest⟩ := CheckedFold.foldlM_cons h
      obtain ⟨_, _, _, rfl⟩ := verifyAuditEntry_ok.mp he
      rw [ih hrest, nextEntry_cons]

/-- The chain of a state verifies. -/
def Chained (host : Host) (key : List UInt8) (audit : List AuditEntry) : Prop :=
  ∃ next, audit.foldlM (verifyAuditEntry host key) (1, "") = .ok next

theorem verifyAuditChain_ok {key : List UInt8} :
    verifyAuditChain host key s = .ok ⟨⟩ ↔ Chained host key s.audit := by
  unfold verifyAuditChain Chained
  rw [bind_eq_ok]
  constructor
  · rintro ⟨next, h, _⟩
    exact ⟨next, h⟩
  · rintro ⟨next, h⟩
    exact ⟨next, h, rfl⟩

/-- **AN ENTRY EXTENDS THE CHAIN** of the log it was written for. -/
theorem chained_entryOf {actor action : String} {intentId : Option String}
    {policyVersion : Option Nat} {decision : Option String} {details : Json} :
    Chained host w.auditKey (w.state.audit ++ [entryOf host w actor action
        intentId policyVersion decision details])
      ↔ Chained host w.auditKey w.state.audit := by
  generalize he : entryOf host w actor action intentId policyVersion decision
    details = e
  unfold Chained
  simp only [List.foldlM_append, bind_eq_ok]
  constructor
  · rintro ⟨_, next, h, _⟩
    exact ⟨next, h⟩
  · rintro ⟨next, h⟩
    refine ⟨(next.1 + 1, e.hash), next, h, ?_⟩
    rw [List.foldlM_cons, bind_eq_ok]
    -- the entry was written for the end of this chain
    refine ⟨_, verifyAuditEntry_ok.mpr ⟨?_, ?_, ?_, rfl⟩, rfl⟩
    · rw [verifyEntries_next h, ← he]
      exact Nat.add_comm _ _
    · rw [verifyEntries_next h, ← he]
      rfl
    · rw [← he]
      rfl

/-! ## Entries and reservations keep a state as valid as it is -/

theorem counts_append {audit : List AuditEntry} {e : AuditEntry}
    (he : isEmergencyAudit e.action = false) :
    emergencyCount (audit ++ [e]) = emergencyCount audit
      ∧ nonEmergencyCount (audit ++ [e]) = nonEmergencyCount audit + 1 := by
  have hcount : emergencyCount (audit ++ [e]) = emergencyCount audit := by
    unfold emergencyCount
    rw [List.countP_append, List.countP_cons, List.countP_nil, he]
    rfl
  have hle := emergencyCount_le audit
  refine ⟨hcount, ?_⟩
  unfold nonEmergencyCount
  rw [hcount, List.length_append, List.length_singleton]
  omega

theorem valid_withEntry {e : AuditEntry}
    (he : isEmergencyAudit e.action = false)
    (hroom : nonEmergencyCount s.audit < maxAuditEntries) :
    Valid host (s.withEntry e) ↔ Valid host s := by
  obtain ⟨hem, hnon⟩ := @counts_append s.audit e he
  have hquotas : validateQuotas (s.withEntry e) = .ok ⟨⟩
      ↔ validateQuotas s = .ok ⟨⟩ := by
    unfold validateQuotas
    rw [refuseIf_eq_ok, refuseIf_eq_ok]
    show ¬(_ ∨ _ ∨ nonEmergencyCount (s.audit ++ [e]) > maxAuditEntries
      ∨ emergencyCount (s.audit ++ [e]) > emergencyAuditReserve + 1) ↔ _
    rw [hem, hnon]
    constructor
    · rintro h (h1 | h1 | h1 | h1)
      · exact h (Or.inl h1)
      · exact h (Or.inr (Or.inl h1))
      · omega
      · exact h (Or.inr (Or.inr (Or.inr h1)))
    · rintro h (h1 | h1 | h1 | h1)
      · exact h (Or.inl h1)
      · exact h (Or.inr (Or.inl h1))
      · omega
      · exact h (Or.inr (Or.inr (Or.inr h1)))
  constructor
  · rintro ⟨h1, h2, h3, h4, h5, h6, h7, h8, h9⟩
    exact ⟨h1, hquotas.mp h2, h3, h4, h5, h6, h7, h8, h9⟩
  · rintro ⟨h1, h2, h3, h4, h5, h6, h7, h8, h9⟩
    exact ⟨h1, hquotas.mpr h2, h3, h4, h5, h6, h7, h8, h9⟩

/-- An intent that is executing is as valid as it was before. -/
theorem validateIntentEntry_executing {i : PurchaseIntent} {t : Int}
    {id : String} (hx : i.state = .policyValidated ∨ i.state = .approved) :
    validateIntentEntry host s (id, { i with
        state := .executing, updatedAt := t })
      = validateIntentEntry host s (id, i) := by
  have hreceipt : validateReceipt host { i with
      state := .executing, updatedAt := t } = validateReceipt host i := by
    unfold validateReceipt
    dsimp only
    cases i.receipt with
    | some receipt =>
        cases i.receiptHash with
        | some hash => rfl
        | none => rfl
    | none =>
        cases i.receiptHash with
        | some hash => rfl
        | none =>
            rcases hx with hx | hx
            · rw [hx]
              rfl
            · rw [hx]
              rfl
  unfold validateIntentEntry
  dsimp only
  rw [hreceipt]

/-- **A RESERVATION** keeps a state as valid as it is. -/
theorem valid_reserved {i : PurchaseIntent} {hold : LedgerEvent} {t : Int}
    (hi : s.intents.get? i.id = some i)
    (hx : i.state = .policyValidated ∨ i.state = .approved)
    (hid : hold.intentId = some i.id)
    (hamount : hold.amount = i.request.finalTotal) :
    Valid host ((s.withEvents [hold]).withIntent i.id
        { i with state := .executing, updatedAt := t })
      ↔ Valid host s := by
  generalize hs : (s.withEvents [hold]).withIntent i.id
    { i with state := .executing, updatedAt := t } = s'
  have hget : ∀ id, s'.intents.get? id = if id = i.id
      then some { i with state := .executing, updatedAt := t }
      else s.intents.get? id := by
    intro id
    rw [← hs]
    exact SortedMap.get?_insert _ _ _ _
  have hcontains : ∀ id, s'.intents.contains id = s.intents.contains id := by
    intro id
    unfold SortedMap.contains
    rw [hget]
    by_cases h : id = i.id
    · rw [if_pos h, h, hi]
      rfl
    · rw [if_neg h]
  have hevent : ∀ e, validateLedgerEvent s' e = validateLedgerEvent s e := by
    intro e
    unfold validateLedgerEvent
    simp only [hcontains]
  have hentry : ∀ id j, validateIntentEntry host s' (id, j)
      = validateIntentEntry host s (id, j) := by
    intro id j
    rw [← hs]
    rfl
  have hsize : s'.intents.size = s.intents.size := by
    rw [← hs]
    exact SortedMap.size_insert_of_some _ hi
  have hquotas : validateQuotas s' = validateQuotas s := by
    unfold validateQuotas
    rw [hsize, ← hs]
    rfl
  constructor
  · intro h
    have hintents : ∀ id j, s.intents.get? id = some j →
        validateIntentEntry host s (id, j) = .ok ⟨⟩ := by
      intro id j hj
      by_cases hsame : id = i.id
      · obtain rfl : i = j := Option.some.inj (hi.symm.trans (hsame ▸ hj))
        rw [← validateIntentEntry_executing (t := t) hx, ← hentry]
        exact h.intents id _ (by rw [hget, if_pos hsame])
      · rw [← hentry]
        exact h.intents id j (by rw [hget, if_neg hsame]; exact hj)
    subst hs
    exact {
      schema := h.schema
      quotas := hquotas ▸ h.quotas
      owner := h.owner
      policies := h.policies
      agents := h.agents
      intents := hintents
      ledger := fun e he => hevent e ▸ h.ledger e (List.mem_append_left _ he)
      provider := h.provider
      deposits := h.deposits }
  · intro h
    have hintents : ∀ id j, s'.intents.get? id = some j →
        validateIntentEntry host s' (id, j) = .ok ⟨⟩ := by
      intro id j hj
      rw [hget] at hj
      split at hj
      · rename_i hsame
        rw [← Option.some.inj hj, hentry, validateIntentEntry_executing hx,
          hsame]
        exact h.intents _ i hi
      · rw [hentry]
        exact h.intents id j hj
    -- The new event takes its amount and its intent from one that is valid.
    have hhold : validateLedgerEvent s hold = .ok ⟨⟩ := by
      have hvalid := h.intents _ i hi
      unfold validateIntentEntry Money.positive at hvalid
      simp only [bind_eq_ok] at hvalid
      obtain ⟨_, _, _, _, _, ⟨m, hm, _⟩, _⟩ := hvalid
      unfold validateLedgerEvent
      simp only [bind_eq_ok, refuseIf_eq_ok]
      refine ⟨m, by rw [hamount]; exact hm, ?_⟩
      rw [hid]
      show ¬(!s.intents.contains i.id) = true
      unfold SortedMap.contains
      rw [hi]
      simp
    have hledger : ∀ e ∈ s'.ledger, validateLedgerEvent s' e = .ok ⟨⟩ := by
      intro e he
      rw [hevent]
      rw [← hs] at he
      rcases List.mem_append.mp he with he | he
      · exact h.ledger e he
      · rw [List.mem_singleton.mp he]
        exact hhold
    have hquotas' := hquotas ▸ h.quotas
    subst hs
    exact {
      schema := h.schema
      quotas := hquotas'
      owner := h.owner
      policies := h.policies
      agents := h.agents
      intents := hintents
      ledger := hledger
      provider := h.provider
      deposits := h.deposits }

end Treasury
