import Cixa.Visibility
import Cixa.Validity

/-! # Lasting validity — what keeps a state valid

    A state that passes the checks of a save passes them after a change too,
    with FOUR exceptions that the broker does not check before it makes the
    change: when a session may outlive its capability, when the canonical
    form of a merchant is not canonical itself, when a new intent has a
    malformed currency, and when the reserve of emergency entries is used
    up.  `Fit` says that a change is none of these. -/

namespace Treasury

open CixaData CixaHost Outcome Checks Transition

variable {host : Host} {w w' : World} {l : Label} {s s' : TreasuryState}

/-! ## The conditions -/

/-- **FIT**: what a change must be like, beyond the guards of the code, for
    the checks of a save. -/
def Fit (host : Host) (w w' : World) : Label → Prop
  | .audit action => action = "emergency_stop_on" →
      emergencyCount w.state.audit ≤ emergencyAuditReserve
  | .addAgent id _ => ∀ r, w'.state.agents.get? id = some r →
      r.brokerSessionExpiresAt ≤ r.expiresAt
  | .editAgent id edit => (∀ r, w'.state.agents.get? id = some r →
        r.brokerSessionExpiresAt ≤ r.expiresAt)
      ∧ ∀ merchant, edit = .approveMerchant merchant →
        canonicalizeDomain host merchant = .ok merchant
  | .addIntent id => ∀ i, w'.state.intents.get? id = some i →
      Money.wellFormedCurrency i.request.finalTotal.currency = true
  | _ => True

/-! ## The quotas -/

theorem emergencyCount_entry {audit : List AuditEntry} {e : AuditEntry}
    (he : isEmergencyAudit e.action = true) :
    emergencyCount (audit ++ [e]) = emergencyCount audit + 1
      ∧ nonEmergencyCount (audit ++ [e]) = nonEmergencyCount audit := by
  have hcount : emergencyCount (audit ++ [e]) = emergencyCount audit + 1 := by
    unfold emergencyCount
    rw [List.countP_append, List.countP_cons, List.countP_nil, he]
    rfl
  refine ⟨hcount, ?_⟩
  unfold nonEmergencyCount
  rw [hcount, List.length_append, List.length_singleton]
  omega

/-- Both bounds on the audit log. -/
def AuditFits (audit : List AuditEntry) : Prop :=
  nonEmergencyCount audit ≤ maxAuditEntries
    ∧ emergencyCount audit ≤ emergencyAuditReserve + 1

/-- An entry that had room keeps the bounds. -/
theorem AuditFits.entry {action : String} {e : AuditEntry}
    (h : AuditFits s.audit) (hroom : hasRoom s action)
    (haction : e.action = action)
    (hfit : action = "emergency_stop_on" →
      emergencyCount s.audit ≤ emergencyAuditReserve) :
    AuditFits (s.audit ++ [e]) := by
  by_cases hem : isEmergencyAudit action = true
  · obtain ⟨hcount, hother⟩ :=
      @emergencyCount_entry s.audit e (by rw [haction]; exact hem)
    refine ⟨by rw [hother]; exact h.1, ?_⟩
    rw [hcount]
    -- an entry for the end of a stop has a bound of its own
    by_cases hon : action = "emergency_stop_on"
    · have := hfit hon
      omega
    · have hoff : action = "emergency_stop_off" := by
        unfold isEmergencyAudit at hem
        simpa [hon] using hem
      have hcap := hroom.1
      unfold auditCapacityAllows at hcap
      rw [hoff] at hcap
      have := of_decide_eq_true hcap
      omega
  · obtain ⟨hcount, hother⟩ := @counts_append s.audit e
      (by rw [haction]; exact Bool.eq_false_iff.mpr hem)
    refine ⟨?_, by rw [hcount]; exact h.2⟩
    rw [hother]
    have hcap := hroom.1
    unfold auditCapacityAllows at hcap
    have hneither := fun h => hem (decide_eq_true h)
    rw [if_neg fun h => hneither (Or.inl h),
      if_neg fun h => hneither (Or.inr h)] at hcap
    have hlimit : auditLimit action ≤ maxAuditEntries := by
      unfold auditLimit
      split
      · exact Nat.le_refl _
      · exact Nat.sub_le ..
    have := of_decide_eq_true hcap
    omega

theorem validateQuotas_ok : validateQuotas s = .ok ⟨⟩
    ↔ s.intents.size ≤ maxIntents ∧ s.agents.size ≤ maxAgents
      ∧ AuditFits s.audit := by
  unfold validateQuotas AuditFits
  rw [refuseIf_eq_ok]
  omega

/-- A change writes at most one entry, and one about an emergency only as an
    entry of its own. -/
theorem Change.entry (h : Change host l w w') :
    w'.state.audit = w.state.audit
      ∨ ∃ action e, e.action = action ∧ hasRoom w.state action
        ∧ w'.state.audit = w.state.audit ++ [e]
        ∧ (l = .audit action ∨ isEmergencyAudit action = false) := by
  have hentered : ∀ {s action e}, Entered host w w' s action e →
      hasRoom s action = hasRoom w.state action →
      w'.state.audit = w.state.audit ++ [e] →
      (l = .audit action ∨ isEmergencyAudit action = false) →
      ∃ action e, e.action = action ∧ hasRoom w.state action
        ∧ w'.state.audit = w.state.audit ++ [e]
        ∧ (l = .audit action ∨ isEmergencyAudit action = false) := by
    intro s action e he hroom hs hl
    obtain ⟨_, _, _, _, _, _, _, _, _, _, hmade⟩ := he.made
    exact ⟨action, e, by rw [hmade]; rfl, hroom ▸ he.room, hs, hl⟩
  cases h with
  | audit _ he hs _ =>
      exact Or.inr (hentered he rfl (by rw [hs]; rfl) (Or.inl rfl))
  | addIntent _ _ he hs _ =>
      exact Or.inr (hentered he rfl (by rw [hs]; rfl) (Or.inr rfl))
  | reserve _ _ _ _ he _ hs _ =>
      exact Or.inr (hentered he rfl (by rw [hs]; rfl) (Or.inr rfl))
  | conclude _ _ _ _ he hs _ =>
      exact Or.inr (hentered he rfl (by rw [hs]; rfl) (Or.inr rfl))
  | quiet h => exact Or.inl (by rw [h.state])
  | reconcile _ _ _ hp hs _ =>
      obtain ⟨_, _, heq⟩ := hp.fields
      exact Or.inl (by rw [hs, heq]; rfl)
  | deposit _ _ _ hc _ _ hs _ =>
      obtain ⟨_, _, heq⟩ := hc.fields
      exact Or.inl (by rw [hs, heq]; rfl)
  | writeKey _ hs _ _ => exact Or.inl (by rw [hs])
  | writeState _ hs _ _ _ => exact Or.inl (by rw [hs])
  | submit _ hs _ _ _ => exact Or.inl (by rw [hs])
  | _ =>
      rename_i hs _
      exact Or.inl ((congrArg TreasuryState.audit hs).trans rfl)

/-- **THE CHAIN** of the audit log goes on, whatever changes. -/
theorem Change.chained (h : Change host l w w')
    (hc : Chained host w.auditKey w.state.audit) :
    Chained host w'.auditKey w'.state.audit := by
  rw [h.advance.key]
  rcases h.entries with ⟨hs, _⟩ | ⟨_, e, s, hsame, he, hs, _⟩
  · rw [hs]
    exact hc
  · obtain ⟨v, hkey, hstate, _, _, _, _, _, _, _, rfl⟩ := he.made
    rw [hs, ← hsame, ← hstate, ← hkey]
    refine chained_entryOf.mpr ?_
    rw [hkey, hstate, hsame]
    exact hc

theorem Change.quotas (h : Change host l w w') (hf : Fit host w w' l)
    (hv : validateQuotas w.state = .ok ⟨⟩) :
    validateQuotas w'.state = .ok ⟨⟩ := by
  obtain ⟨hintents, hagents, haudit⟩ := validateQuotas_ok.mp hv
  refine validateQuotas_ok.mpr ⟨?_, ?_, ?_⟩
  · cases h.intents with
    | none hs _ => rw [hs]; exact hintents
    | @new i hlabel hn hs _ =>
        rw [hs]
        have hquota := hn.quota
        cases hi : w.state.intents.get? i.id with
        | none =>
            rw [SortedMap.size_insert_of_none _ hi]
            omega
        | some j =>
            rw [SortedMap.size_insert_of_some _ hi]
            exact hintents
    | next hi _ _ hs _ =>
        rw [hs, SortedMap.size_insert_of_some _ hi]
        exact hintents
  · rcases h.agents with hs | ⟨id, _, _, r, _, _, hn, hs⟩
      | ⟨id, _, _, _, _, hr, _, hs⟩
    · rw [hs]
      exact hagents
    · rw [hs]
      have hquota := hn.quota
      cases hi : w.state.agents.get? id with
      | none =>
          rw [SortedMap.size_insert_of_none _ hi]
          omega
      | some j =>
          rw [SortedMap.size_insert_of_some _ hi]
          exact hagents
    · rw [hs, SortedMap.size_insert_of_some _ hr]
      exact hagents
  · rcases h.entry with hs | ⟨action, e, haction, hroom, hs, hlabel⟩
    · rw [hs]
      exact haudit
    · rw [hs]
      refine haudit.entry hroom haction fun hon => ?_
      rcases hlabel with rfl | hno
      · exact hf hon
      · rw [hon] at hno
        exact nomatch hno

/-! ## Policies and agents -/

theorem Change.policyEntries (h : Change host l w w')
    (hv : ∀ id p, w.state.policies.get? id = some p →
      validatePolicyEntry host (id, p) = .ok ⟨⟩) {id : String} {p : Policy}
    (hp : w'.state.policies.get? id = some p) :
    validatePolicyEntry host (id, p) = .ok ⟨⟩ := by
  have hinsert : ∀ q : Policy, q.validate host = .ok ⟨⟩ →
      w'.state.policies = w.state.policies.insert q.id q →
      validatePolicyEntry host (id, p) = .ok ⟨⟩ := by
    intro q hq hs
    rw [hs, SortedMap.get?_insert] at hp
    split at hp
    · rename_i hid
      obtain rfl := Option.some.inj hp
      unfold validatePolicyEntry
      rw [bind_eq_ok]
      exact ⟨⟨⟩, refuseIf_eq_ok.mpr (not_not.mpr hid), hq⟩
    · exact hv id p hp
  rcases h.policies with hs | ⟨_, _, q, _, _, _, hn, hs⟩
    | ⟨_, _, q, _, _, hq, _, hs⟩
  · exact hv id p (hs ▸ hp)
  · exact hinsert q hn.policyValid hs
  · exact hinsert q hq hs

/-- No policy is ever removed. -/
theorem Change.keepsPolicies (h : Change host l w w') {id : String}
    (hid : w.state.policies.contains id = true) :
    w'.state.policies.contains id = true := by
  rcases h.policies with hs | ⟨_, _, _, _, _, _, _, hs⟩
    | ⟨_, _, _, _, _, _, _, hs⟩
  · rw [hs]
    exact hid
  all_goals
    rw [hs, SortedMap.contains_insert, hid]
    exact Bool.or_true _

/-- No agent is ever removed. -/
theorem Change.keepsAgents (h : Change host l w w') {id : String}
    (hid : w.state.agents.contains id = true) :
    w'.state.agents.contains id = true := by
  rcases h.agents with hs | ⟨_, _, _, _, _, _, _, hs⟩
    | ⟨_, _, _, _, _, _, _, hs⟩
  · rw [hs]
    exact hid
  all_goals
    rw [hs, SortedMap.contains_insert, hid]
    exact Bool.or_true _

/-- No intent is ever removed. -/
theorem Change.keepsIntents (h : Change host l w w') {id : String}
    (hid : w.state.intents.contains id = true) :
    w'.state.intents.contains id = true := by
  cases h.intents with
  | none hs _ => rw [hs]; exact hid
  | new _ _ hs _ =>
      rw [hs, SortedMap.contains_insert, hid]
      exact Bool.or_true _
  | next _ _ _ hs _ =>
      rw [hs, SortedMap.contains_insert, hid]
      exact Bool.or_true _

theorem idOfDraw_ne_empty (kind : String) (i : Nat) :
    idOfDraw host kind i ≠ "" := by
  intro h
  have hlength := congrArg String.length h
  unfold idOfDraw at hlength
  rw [String.length_append, String.length_append] at hlength
  have hone : "_".length = 1 := rfl
  have hzero : "".length = 0 := rfl
  omega

theorem DrawnIn.ne_empty {a b : World} {kind id : String}
    (h : DrawnIn host a b kind id) : id ≠ "" := by
  obtain ⟨i, _, _, rfl⟩ := h
  exact idOfDraw_ne_empty kind i

theorem tokenHash_byteLen (token : String) :
    Chars.byteLen (tokenHash host token) = 64 := by
  unfold tokenHash
  rw [Chars.hexEncode_byteLen, host.sha256_length]

theorem checkCanonical_ok {message merchant : String} :
    Policy.checkCanonical host message merchant = .ok ⟨⟩
      ↔ canonicalizeDomain host merchant = .ok merchant := by
  unfold Policy.checkCanonical
  simp only [bind_eq_ok, refuseIf_eq_ok, not_not]
  constructor
  · rintro ⟨_, h, rfl⟩
    exact h
  · exact fun h => ⟨_, h, rfl⟩

/-- **A VALID AGENT**. -/
theorem validateAgentEntry_ok {id : String} {r : AgentRecord} :
    validateAgentEntry host s (id, r) = .ok ⟨⟩
      ↔ id = r.id ∧ Chars.byteLen r.capabilityTokenHash = 64
        ∧ s.policies.contains r.policyId = true ∧ r.brokerSessionId ≠ ""
        ∧ r.brokerSessionExpiresAt ≤ r.expiresAt
        ∧ r.approvedMerchants.size ≤ maxAgentApprovedMerchants
        ∧ ∀ merchant v, r.approvedMerchants.get? merchant = some v →
          canonicalizeDomain host merchant = .ok merchant := by
  unfold validateAgentEntry
  simp only [bind_eq_ok, refuseIf_eq_ok, not_or, not_not, not_lt,
    Bool.not_eq_false, forM_eq_ok, checkCanonical_ok, SortedMap.mem_keys]
  constructor
  · rintro ⟨_, ⟨hid, htoken, hpolicy, hsession, hexpiry⟩, _, hsize, hall⟩
    exact ⟨hid, htoken, hpolicy, hsession, hexpiry, hsize,
      fun merchant v hv => hall merchant ⟨v, hv⟩⟩
  · rintro ⟨hid, htoken, hpolicy, hsession, hexpiry, hsize, hall⟩
    exact ⟨⟨⟩, ⟨hid, htoken, hpolicy, hsession, hexpiry⟩, ⟨⟩, hsize,
      fun merchant hv => hv.elim (hall merchant)⟩

/-- An edited agent is valid when its session ends in time and a merchant
    that is approved is canonical. -/
theorem Edited.valid {id : String} {r r' : AgentRecord} {edit : AgentEdit}
    (h : Edited host w w' r edit r')
    (hv : validateAgentEntry host s (id, r) = .ok ⟨⟩)
    (hexpiry : r'.brokerSessionExpiresAt ≤ r'.expiresAt)
    (hmerchant : ∀ merchant, edit = .approveMerchant merchant →
      canonicalizeDomain host merchant = .ok merchant) :
    validateAgentEntry host s (id, r') = .ok ⟨⟩ := by
  obtain ⟨hid, htoken, hpolicy, hsession, _, hsize, hall⟩ :=
    validateAgentEntry_ok.mp hv
  refine validateAgentEntry_ok.mpr ?_
  cases h with
  | arm _ _ _ _ _ hdrawn =>
      exact ⟨hid, htoken, hpolicy, hdrawn.ne_empty, hexpiry, hsize, hall⟩
  | rotate _ _ _ _ _ _ hdrawn =>
      exact ⟨hid, tokenHash_byteLen _, hpolicy, hdrawn.ne_empty, hexpiry, hsize,
        hall⟩
  | revoke => exact ⟨hid, htoken, hpolicy, hsession, hexpiry, hsize, hall⟩
  | mode => exact ⟨hid, htoken, hpolicy, hsession, hexpiry, hsize, hall⟩
  | stop hdrawn =>
      exact ⟨hid, htoken, hpolicy, hdrawn.ne_empty, hexpiry, hsize, hall⟩
  | @approveMerchant input merchant _ hnew hroom =>
      have hcanonical := hmerchant merchant rfl
      refine ⟨hid, htoken, hpolicy, hsession, hexpiry, ?_, fun m v hm => ?_⟩
      · cases hget : r.approvedMerchants.get? merchant with
        | none =>
            show (r.approvedMerchants.insert merchant ()).size ≤ _
            rw [SortedMap.size_insert_of_none _ hget]
            omega
        | some _ =>
            have hin : r.approvedMerchants.contains merchant = true :=
              SortedMap.contains_iff.mpr ⟨_, hget⟩
            exact absurd hin (by rw [hnew]; exact Bool.false_ne_true)
      · rw [SortedMap.get?_insert] at hm
        split at hm
        · rename_i hsame
          rw [hsame]
          exact hcanonical
        · exact hall m v hm

/-- A new agent's policy is stored with it. -/
theorem Change.added {id token : String}
    (h : Change host (.addAgent id token) w w') : ∃ p r, r.id = id
      ∧ NewAgent host w w' token p r
      ∧ w'.state.policies = w.state.policies.insert p.id p
      ∧ w'.state.agents = w.state.agents.insert id r := by
  generalize hl : Label.addAgent id token = l at h
  cases h with
  | addAgent _ hid hn hs _ =>
      cases hl
      exact ⟨_, _, hid, hn, (congrArg TreasuryState.policies hs).trans rfl,
        (congrArg TreasuryState.agents hs).trans rfl⟩
  | _ => exact nomatch hl

theorem Change.agentEntries (h : Change host l w w') (hf : Fit host w w' l)
    (hv : ∀ id r, w.state.agents.get? id = some r →
      validateAgentEntry host w.state (id, r) = .ok ⟨⟩)
    {id : String} {r : AgentRecord}
    (hr : w'.state.agents.get? id = some r) :
    validateAgentEntry host w'.state (id, r) = .ok ⟨⟩ := by
  -- a policy that was there is still there
  have hgrow : ∀ r, validateAgentEntry host w.state (id, r) = .ok ⟨⟩ →
      validateAgentEntry host w'.state (id, r) = .ok ⟨⟩ := by
    intro r hr
    obtain ⟨hid, htoken, hpolicy, hrest⟩ := validateAgentEntry_ok.mp hr
    exact validateAgentEntry_ok.mpr
      ⟨hid, htoken, h.keepsPolicies hpolicy, hrest⟩
  rcases h.agents with hs | ⟨id', token, _, _, rfl, _, _, _⟩
    | ⟨id', edit, old, r', rfl, hold, he, hs⟩
  · exact hgrow r (hv id r (hs ▸ hr))
  · obtain ⟨p, r', hid, hn, hpolicies, hs⟩ := h.added
    have hget := hr
    rw [hs, SortedMap.get?_insert] at hget
    split at hget
    · rename_i hsame
      obtain rfl := Option.some.inj hget
      refine validateAgentEntry_ok.mpr ⟨hsame.trans hid.symm, ?_, ?_,
        hn.session.ne_empty, hf r' (hsame ▸ hr), ?_, ?_⟩
      · rw [hn.tokenHash]
        exact tokenHash_byteLen token
      · rw [hpolicies, SortedMap.contains_insert, hn.policyOf]
        simp
      · rw [hn.merchants]
        exact Nat.zero_le _
      · intro m v hm
        rw [hn.merchants] at hm
        exact nomatch hm
    · exact hgrow r (hv id r hget)
  · have hget := hr
    rw [hs, SortedMap.get?_insert] at hget
    split at hget
    · rename_i hsame
      obtain rfl := Option.some.inj hget
      subst hsame
      exact hgrow r' (he.valid (hv _ _ hold) (hf.1 r' hr) hf.2)
    · exact hgrow r (hv id r hget)

/-! ## Receipts -/

/-- A receipt that stays keeps an intent valid, unless it is settled
    without one. -/
theorem validateReceipt_kept {i i' : PurchaseIntent}
    (hv : validateReceipt host i = .ok ⟨⟩) (hid : i'.id = i.id)
    (hreceipt : i'.receipt = i.receipt)
    (hhash : i'.receiptHash = i.receiptHash)
    (hstate : i'.state = .settled ∨ i'.state = .refunded →
      i.state = .settled ∨ i.state = .refunded) :
    validateReceipt host i' = .ok ⟨⟩ := by
  unfold validateReceipt at hv ⊢
  rw [hreceipt, hhash, hid]
  cases hr : i.receipt with
  | some receipt =>
      cases hh : i.receiptHash with
      | some hash =>
          rw [hr, hh] at hv
          exact hv
      | none =>
          rw [hr, hh] at hv
          exact nomatch hv
  | none =>
      cases hh : i.receiptHash with
      | some hash =>
          rw [hr, hh] at hv
          exact nomatch hv
      | none =>
          rw [hr, hh] at hv
          exact refuseIf_eq_ok.mpr fun h =>
            refuseIf_eq_ok.mp hv (hstate h)

/-- A settled intent has its receipt, and may be refunded with it. -/
theorem SettledIn.validReceipt {a b : World} {i i' : PurchaseIntent}
    (h : SettledIn host a b i i') (state : TransactionState) (t : Int) :
    validateReceipt host { i' with state := state, updatedAt := t }
      = .ok ⟨⟩ := by
  obtain ⟨_, _, _, _, _, rfl⟩ := h.shape
  exact refuseIf_eq_ok.mpr (by rintro (h | h) <;> exact h rfl)

theorem Concluded.validReceipt {a b : World} {s : TreasuryState}
    {i i' : PurchaseIntent} {next : TransactionState}
    {events : List LedgerEvent} (h : Concluded host a b s i next i' events)
    (hv : validateReceipt host i = .ok ⟨⟩) :
    validateReceipt host i' = .ok ⟨⟩ := by
  cases h with
  | settled hi _ => exact hi.validReceipt i'.state i'.updatedAt
  | declined _ _ => exact validateReceipt_kept hv rfl rfl rfl (by simp)
  | pending _ => exact validateReceipt_kept hv rfl rfl rfl (by simp)
  | unknown _ => exact validateReceipt_kept hv rfl rfl rfl (by simp)

theorem Reconciled.validReceipt {a b : World} {s : TreasuryState}
    {i i' : PurchaseIntent} {outcome : ReconciliationOutcome}
    {events : List LedgerEvent}
    (h : Reconciled host a b s i outcome i' events)
    (hv : validateReceipt host i = .ok ⟨⟩) :
    validateReceipt host i' = .ok ⟨⟩ := by
  cases h with
  | settled _ hi _ => exact hi.validReceipt i'.state i'.updatedAt
  | declined _ _ _ => exact validateReceipt_kept hv rfl rfl rfl (by simp)
  | refunded _ hi _ _ _ _ => exact hi.validReceipt _ _
  | refundedLater hu _ _ _ =>
      exact validateReceipt_kept hv rfl rfl rfl fun _ => Or.inl hu

/-! ## Intents -/

theorem positive_ok {n : Int} {c : String} :
    (∃ m, Money.positive n c = .ok m)
      ↔ Money.wellFormedCurrency c = true ∧ 0 < n := by
  unfold Money.positive Money.new
  simp only [bind_eq_ok, refuseIf_eq_ok, pure_eq_ok, Bool.not_eq_false,
    not_le]
  constructor
  · rintro ⟨_, _, ⟨_, hwf, rfl⟩, _, hpos, _⟩
    exact ⟨hwf, hpos⟩
  · rintro ⟨hwf, hpos⟩
    exact ⟨_, _, ⟨⟨⟩, hwf, rfl⟩, ⟨⟩, hpos, rfl⟩

/-- **A VALID INTENT**. -/
theorem validateIntentEntry_ok {id : String} {i : PurchaseIntent} :
    validateIntentEntry host s (id, i) = .ok ⟨⟩
      ↔ id = i.id ∧ s.agents.contains i.agentId = true
        ∧ i.brokerSessionId ≠ ""
        ∧ (Money.wellFormedCurrency i.request.amount.currency = true
          ∧ 0 < i.request.amount.minor)
        ∧ (Money.wellFormedCurrency i.request.finalTotal.currency = true
          ∧ 0 < i.request.finalTotal.minor)
        ∧ validateReceipt host i = .ok ⟨⟩ := by
  unfold validateIntentEntry
  rw [bind_eq_ok, ← positive_ok, ← positive_ok]
  simp only [bind_eq_ok, refuseIf_eq_ok, not_or, not_not, Bool.not_eq_false]
  constructor
  · rintro ⟨_, ⟨hid, hagent, hsession⟩, m, hm, n, hn, hreceipt⟩
    exact ⟨hid, hagent, hsession, ⟨m, hm⟩, ⟨n, hn⟩, hreceipt⟩
  · rintro ⟨hid, hagent, hsession, ⟨m, hm⟩, ⟨n, hn⟩, hreceipt⟩
    exact ⟨⟨⟩, ⟨hid, hagent, hsession⟩, m, hm, n, hn, hreceipt⟩

/-- The receipt of an intent that goes on. -/
theorem Change.receipts (h : Change host l w w')
    (hv : ∀ id i, w.state.intents.get? id = some i →
      validateReceipt host i = .ok ⟨⟩) {id : String} {i : PurchaseIntent}
    (hi : w'.state.intents.get? id = some i) :
    validateReceipt host i = .ok ⟨⟩ := by
  -- one intent is stored anew, so only its receipt is to be checked
  have hput : ∀ (k : String) (j : PurchaseIntent),
      validateReceipt host j = .ok ⟨⟩ →
      w'.state.intents = w.state.intents.insert k j →
      validateReceipt host i = .ok ⟨⟩ := by
    intro k j hj hs
    rw [hs, SortedMap.get?_insert] at hi
    split at hi
    · rw [← Option.some.inj hi]
      exact hj
    · exact hv id i hi
  have hsame : w'.state.intents = w.state.intents →
      validateReceipt host i = .ok ⟨⟩ := fun hs => hv id i (hs ▸ hi)
  cases h with
  | quiet h => exact hsame (by rw [h.state])
  | addIntent _ hn _ hs _ =>
      refine hput _ _ ?_ ((congrArg TreasuryState.intents hs).trans rfl)
      unfold validateReceipt
      rw [hn.receipt, hn.receiptHash]
      refine refuseIf_eq_ok.mpr ?_
      rw [hn.state]
      unfold stateOfDecision
      split_ifs <;> simp
  | reserve _ hj _ _ _ _ hs _ =>
      refine hput _ _ ?_ ((congrArg TreasuryState.intents hs).trans rfl)
      exact validateReceipt_kept (hv _ _ hj) rfl rfl rfl (by simp)
  | move _ hj hm _ hs _ =>
      refine hput _ _ ?_ ((congrArg TreasuryState.intents hs).trans rfl)
      refine validateReceipt_kept (hv _ _ hj) rfl rfl rfl ?_
      rcases hm with ⟨_, rfl | rfl | rfl⟩ | ⟨_, rfl⟩ <;> simp
  | conclude _ hj _ hc _ hs _ =>
      exact hput _ _ (hc.validReceipt (hv _ _ hj))
        ((congrArg TreasuryState.intents hs).trans rfl)
  | @reconcile _ _ j _ _ _ _ _ hj hr hp hs _ =>
      obtain ⟨_, _, heq⟩ := hp.fields
      refine hput j.id _ (hr.validReceipt (hv _ _ hj)) ?_
      rw [hs, heq]
      rfl
  | deposit _ _ _ hc _ _ hs _ =>
      obtain ⟨_, _, heq⟩ := hc.fields
      exact hsame (by rw [hs, heq]; rfl)
  | writeKey _ hs _ _ => exact hsame (by rw [hs])
  | writeState _ hs _ _ _ => exact hsame (by rw [hs])
  | submit _ hs _ _ _ => exact hsame (by rw [hs])
  | _ =>
      rename_i hs _
      exact hsame ((congrArg TreasuryState.intents hs).trans rfl)

theorem Change.intentEntries (h : Change host l w w') (hf : Fit host w w' l)
    (hv : Valid host w.state) {id : String} {i : PurchaseIntent}
    (hi : w'.state.intents.get? id = some i) :
    validateIntentEntry host w'.state (id, i) = .ok ⟨⟩ := by
  have hreceipt : validateReceipt host i = .ok ⟨⟩ :=
    h.receipts (fun _ _ hj =>
      (validateIntentEntry_ok.mp (hv.intents _ _ hj)).2.2.2.2.2) hi
  -- an intent that was there is valid as before, for no agent goes away
  have hold : w.state.intents.get? id = some i →
      validateIntentEntry host w'.state (id, i) = .ok ⟨⟩ := by
    intro hj
    obtain ⟨hid, hagent, hrest⟩ :=
      validateIntentEntry_ok.mp (hv.intents _ _ hj)
    exact validateIntentEntry_ok.mpr ⟨hid, h.keepsAgents hagent, hrest⟩
  cases h.intents with
  | none hs _ => exact hold (hs ▸ hi)
  | @new j hlabel hn hs _ =>
      have hget := hi
      rw [hs, SortedMap.get?_insert] at hget
      split at hget
      · rename_i hid
        obtain rfl := Option.some.inj hget
        subst hid
        subst hlabel
        have hcur := hf j hi
        obtain ⟨_, _, _, _, _, hvalid⟩ := hn.valid
        obtain ⟨hamount, htotal, hsame⟩ := validate_positive hvalid
        obtain ⟨r, _, hr, _, hsession, _⟩ := hn.agent
        have hr' := validateAgentEntry_ok.mp (hv.agents _ _ hr)
        refine validateIntentEntry_ok.mpr ⟨rfl,
          h.keepsAgents (SortedMap.contains_iff.mpr ⟨r, hr⟩), ?_,
          ⟨hsame ▸ hcur, hamount⟩, ⟨hcur, htotal⟩, hreceipt⟩
        rw [hsession]
        exact hr'.2.2.2.1
      · exact hold hget
  | @next j j' hj hc _ hs _ =>
      have hget := hi
      rw [hs, SortedMap.get?_insert] at hget
      split at hget
      · rename_i hid
        obtain rfl := Option.some.inj hget
        obtain ⟨_, hagent, hsession, hamount, htotal, _⟩ :=
          validateIntentEntry_ok.mp (hv.intents _ _ hj)
        refine validateIntentEntry_ok.mpr ⟨hid.trans hc.id.symm, ?_, ?_, ?_, ?_,
          hreceipt⟩
        · rw [hc.agentId]
          exact h.keepsAgents hagent
        · rw [hc.brokerSessionId]
          exact hsession
        · rw [hc.request]
          exact hamount
        · rw [hc.request]
          exact htotal
      · exact hold hget

/-! ## The ledger -/

/-- **A VALID EVENT**. -/
theorem validateLedgerEvent_ok {e : LedgerEvent} :
    validateLedgerEvent s e = .ok ⟨⟩
      ↔ Money.wellFormedCurrency e.amount.currency = true
        ∧ ∀ id, e.intentId = some id → s.intents.contains id = true := by
  unfold validateLedgerEvent Money.new
  simp only [bind_eq_ok, refuseIf_eq_ok, pure_eq_ok, Bool.not_eq_false]
  constructor
  · rintro ⟨_, ⟨_, hwf, _⟩, hknown⟩
    refine ⟨hwf, fun id hid => ?_⟩
    rw [hid] at hknown
    simpa using hknown
  · rintro ⟨hwf, hknown⟩
    refine ⟨_, ⟨⟨⟩, hwf, rfl⟩, ?_⟩
    cases hid : e.intentId with
    | none => simp
    | some id => simp [hknown id hid]

/-- What an event of an intent is about: its total, or what is refunded. -/
def About (s : TreasuryState) (i : PurchaseIntent) (e : LedgerEvent) : Prop :=
  e.intentId = some i.id
    ∧ (e.amount = i.request.finalTotal ∨ RefundAmount s i e.amount)

theorem Settling.about {a b : World} {i : PurchaseIntent}
    {events : List LedgerEvent} (h : Settling host a b s i events) :
    ∀ e ∈ events, About s i e := by
  obtain ⟨hr, hs⟩ := h
  intro e he
  rcases List.mem_append.mp he with he | he
  · rcases hr with ⟨_, rfl⟩ | ⟨_, e', rfl, hevent⟩
    · exact nomatch he
    · rw [List.mem_singleton.mp he]
      exact ⟨hevent.intentId, Or.inl hevent.amount⟩
  · rcases hs with ⟨_, rfl⟩ | ⟨_, e', rfl, hevent⟩
    · exact nomatch he
    · rw [List.mem_singleton.mp he]
      exact ⟨hevent.intentId, Or.inl hevent.amount⟩

theorem Concluded.about {a b : World} {i i' : PurchaseIntent}
    {next : TransactionState} {events : List LedgerEvent}
    (h : Concluded host a b s i next i' events) :
    ∀ e ∈ events, About s i e := by
  intro e he
  cases h with
  | settled _ hs => exact hs.about e he
  | declined _ hevent =>
      rw [List.mem_singleton.mp he]
      exact ⟨hevent.intentId, Or.inl hevent.amount⟩
  | pending _ => exact nomatch he
  | unknown _ => exact nomatch he

theorem Reconciled.about {a b : World} {i i' : PurchaseIntent}
    {outcome : ReconciliationOutcome} {events : List LedgerEvent}
    (h : Reconciled host a b s i outcome i' events) :
    ∀ e ∈ events, About s i e := by
  intro e he
  cases h with
  | settled _ _ hs => exact hs.about e he
  | declined _ _ hevent =>
      rw [List.mem_singleton.mp he]
      exact ⟨hevent.intentId, Or.inl hevent.amount⟩
  | refunded _ _ hs _ ha hevent =>
      rcases List.mem_append.mp he with he | he
      · exact hs.about e he
      · rw [List.mem_singleton.mp he]
        exact ⟨hevent.intentId, Or.inr (hevent.amount ▸ ha)⟩
  | refundedLater _ _ ha hevent =>
      rw [List.mem_singleton.mp he]
      exact ⟨hevent.intentId, Or.inr (hevent.amount ▸ ha)⟩

theorem About.currency {i : PurchaseIntent} {e : LedgerEvent}
    (h : About s i e) (hd : Domestic "CAD" s)
    (hwf : Money.wellFormedCurrency i.request.finalTotal.currency = true) :
    Money.wellFormedCurrency e.amount.currency = true := by
  rcases h.2 with hamount | hrefund
  · rw [hamount]
    exact hwf
  · generalize e.amount = amount at hrefund
    cases hrefund with
    | simulated _ hc =>
        rw [hd.provider.charges _ _ hc]
        decide +kernel
    | manual _ => exact hwf

/-- The shares of a deposit are in a well-formed currency. -/
theorem depositShare_currency {amount reinvested : Money} {verified : Bool}
    {agentId : Option String}
    (hp : ∀ id p, s.policies.get? id = some p → p.validate host = .ok ⟨⟩)
    (h : depositShare s amount verified agentId = .ok reinvested) :
    Money.wellFormedCurrency amount.currency = true
      ∧ reinvested.currency = amount.currency := by
  cases verified with
  | false =>
      unfold depositShare Money.zero Money.new at h
      simp only [Bool.false_eq_true, if_false, bind_eq_ok, pure_eq_ok,
        refuseIf_eq_ok, Bool.not_eq_false] at h
      obtain ⟨_, hwf, rfl⟩ := h
      exact ⟨hwf, rfl⟩
  | true =>
      obtain ⟨_, _, p, _, _, _, _, _, _, hget, hcur, _, _, _, hshare, _⟩ :=
        depositShare_verified.mp h
      obtain ⟨_, _, rfl⟩ := scaledBasisPoints_ok.mp hshare
      exact ⟨hcur ▸ (validate_limits (hp _ _ hget)).1, rfl⟩

theorem Change.ledgerEntries (h : Change host l w w') (hv : Valid host w.state)
    (hd : Domestic "CAD" w.state) :
    ∀ e ∈ w'.state.ledger, validateLedgerEvent w'.state e = .ok ⟨⟩ := by
  have hold : ∀ e ∈ w.state.ledger,
      validateLedgerEvent w'.state e = .ok ⟨⟩ := by
    intro e he
    obtain ⟨hwf, hknown⟩ := validateLedgerEvent_ok.mp (hv.ledger e he)
    exact validateLedgerEvent_ok.mpr
      ⟨hwf, fun id hid => h.keepsIntents (hknown id hid)⟩
  have happend : ∀ events,
      (∀ e ∈ events, Money.wellFormedCurrency e.amount.currency = true
        ∧ ∀ id, e.intentId = some id → w.state.intents.contains id = true) →
      w'.state.ledger = w.state.ledger ++ events →
      ∀ e ∈ w'.state.ledger, validateLedgerEvent w'.state e = .ok ⟨⟩ := by
    intro events hevents hs e he
    rw [hs] at he
    rcases List.mem_append.mp he with he | he
    · exact hold e he
    · obtain ⟨hwf, hknown⟩ := hevents e he
      exact validateLedgerEvent_ok.mpr
        ⟨hwf, fun id hid => h.keepsIntents (hknown id hid)⟩
  -- the events of a stored intent
  have habout : ∀ (i : PurchaseIntent) events,
      w.state.intents.get? i.id = some i →
      (∀ e ∈ events, About w.state i e) →
      w'.state.ledger = w.state.ledger ++ events →
      ∀ e ∈ w'.state.ledger, validateLedgerEvent w'.state e = .ok ⟨⟩ := by
    intro i events hi habout
    obtain ⟨_, _, _, _, ⟨hwf, _⟩, _⟩ :=
      validateIntentEntry_ok.mp (hv.intents _ _ hi)
    refine happend events fun e he => ⟨(habout e he).currency hd hwf, ?_⟩
    intro id hid
    rw [(habout e he).1] at hid
    rw [← Option.some.inj hid]
    exact SortedMap.contains_iff.mpr ⟨i, hi⟩
  have hsame : w'.state.ledger = w.state.ledger →
      ∀ e ∈ w'.state.ledger, validateLedgerEvent w'.state e = .ok ⟨⟩ :=
    fun hs e he => hold e (hs ▸ he)
  cases h with
  | quiet h => exact hsame (by rw [h.state])
  | reserve _ hi _ hh _ _ hs _ =>
      refine habout _ [_] hi (fun e he => ?_)
        ((congrArg TreasuryState.ledger hs).trans rfl)
      rw [List.mem_singleton.mp he]
      exact ⟨hh.intentId, Or.inl hh.amount⟩
  | conclude _ hi _ hc _ hs _ =>
      exact habout _ _ hi hc.about
        ((congrArg TreasuryState.ledger hs).trans rfl)
  | reconcile _ hi hr hp hs _ =>
      obtain ⟨_, _, heq⟩ := hp.fields
      exact habout _ _ hi hr.about (by rw [hs, heq]; rfl)
  | deposit _ _ hsh hc he _ hs _ =>
      obtain ⟨_, _, heq⟩ := hc.fields
      have hpolicies : ∀ id p, w.state.policies.get? id = some p →
          p.validate host = .ok ⟨⟩ := by
        intro id p hp
        have hentry := hv.policies id p hp
        unfold validatePolicyEntry at hentry
        rw [bind_eq_ok] at hentry
        obtain ⟨_, _, hvalid⟩ := hentry
        exact hvalid
      obtain ⟨hwf, hcur⟩ := depositShare_currency hpolicies hsh
      refine happend _ (fun e hin => ?_) (by rw [hs, heq]; rfl)
      cases he with
      | plain _ hevent =>
          rw [List.mem_singleton.mp hin, hevent.amount, hevent.intentId]
          exact ⟨hwf, nofun⟩
      | topUp _ hevent htop =>
          rcases List.mem_cons.mp hin with rfl | hin
          · rw [hevent.amount, hevent.intentId]
            exact ⟨hwf, nofun⟩
          · rw [List.mem_singleton.mp hin, htop.amount, htop.intentId, hcur]
            exact ⟨hwf, nofun⟩
  | writeKey _ hs _ _ => exact hsame (by rw [hs])
  | writeState _ hs _ _ _ => exact hsame (by rw [hs])
  | submit _ hs _ _ _ => exact hsame (by rw [hs])
  | _ =>
      rename_i hs _
      exact hsame ((congrArg TreasuryState.ledger hs).trans rfl)

/-! ## The provider, the deposits and the schema -/

/-- A card whose reference may be stored. -/
def CardFits (host : Host) (card : SecretReference) : Prop :=
  card.persistedSecret = false ∧ card.reference ≠ ""
    ∧ validateSecretReference host card.reference card.providerKind = .ok ⟨⟩

/-- **A VALID PROVIDER**. -/
theorem validateProvider_ok : validateProvider host s = .ok ⟨⟩
    ↔ (s.providerMode = .simulated → 0 ≤ s.provider.balance.minor)
      ∧ (s.providerMode = .manualPrepaidCard →
        ∃ m, s.manualProvider = some m ∧ CardFits host m.card) := by
  unfold validateProvider CardFits
  cases hm : s.providerMode with
  | simulated =>
      dsimp only
      rw [refuseIf_eq_ok, not_lt]
      refine ⟨fun h => ⟨fun _ => h, fun hm => ?_⟩, fun h => h.1 rfl⟩
      cases hm
  | manualPrepaidCard =>
      simp only [bind_eq_ok, orRefuse_eq_ok, refuseIf_eq_ok, not_or,
        Bool.not_eq_true]
      constructor
      · rintro ⟨m, hget, _, ⟨hsecret, hreference⟩, hvalid⟩
        refine ⟨fun hm => ?_, fun _ => ⟨m, hget, hsecret, hreference, hvalid⟩⟩
        cases hm
      · rintro ⟨_, h⟩
        obtain ⟨m, hget, hsecret, hreference, hvalid⟩ := h trivial
        exact ⟨m, hget, ⟨⟩, ⟨hsecret, hreference⟩, hvalid⟩

theorem configured_cardFits {c : ManualProviderConfiguration} {t : Int}
    (h : checkManualConfiguration host s c = .ok ()) :
    CardFits host (configuredProvider c t).card := by
  unfold checkManualConfiguration at h
  simp only [bind_eq_ok] at h
  obtain ⟨_, hreference, _⟩ := h
  refine ⟨rfl, ?_, hreference⟩
  unfold validateSecretReference bounded at hreference
  simp only [bind_eq_ok, refuseIf_eq_ok, not_or] at hreference
  obtain ⟨_, ⟨_, hlength, _⟩, _⟩ := hreference
  intro h
  have hempty : c.credentialReference = "" := h
  rw [hempty] at hlength
  exact hlength.1 rfl

theorem ManualStep.card {total : Money} {arm : Arm}
    {m m' : ManualPrepaidCardProvider}
    (h : ManualStep host w w' total arm m m') : m'.card = m.card := by
  cases h <;> rfl

theorem Change.providerEntry (h : Change host l w w') (hs : Sound w.state)
    (hv : validateProvider host w.state = .ok ⟨⟩) :
    validateProvider host w'.state = .ok ⟨⟩ := by
  obtain ⟨_, hcard⟩ := validateProvider_ok.mp hv
  refine validateProvider_ok.mpr ⟨fun _ => ?_, fun hmode => ?_⟩
  · have hbacked := (h.sound hs).provider
    exact le_trans (SortedMap.sum_nonneg fun id a ha => hbacked.holds id a ha)
      hbacked.covered
  have hsame : w'.state.providerMode = w.state.providerMode →
      w'.state.manualProvider = w.state.manualProvider →
      ∃ m, w'.state.manualProvider = some m ∧ CardFits host m.card := by
    intro hm hp
    rw [hp]
    exact hcard (hm ▸ hmode)
  cases h with
  | quiet h => exact hsame (by rw [h.state]) (by rw [h.state])
  | reconcile _ _ _ hp heq _ =>
      generalize armOf _ _ = arm at hp
      cases hp with
      | none _ => exact hsame (by rw [heq]; rfl) (by rw [heq]; rfl)
      | simulated _ _ _ => exact hsame (by rw [heq]; rfl) (by rw [heq]; rfl)
      | manual hm hget hstep =>
          obtain ⟨m, hm', hfits⟩ := hcard hm
          obtain rfl := Option.some.inj (hget.symm.trans hm')
          rw [heq]
          exact ⟨_, rfl, hstep.card ▸ hfits⟩
  | deposit _ _ _ hc _ _ heq _ =>
      cases hc with
      | unverified => exact hsame (by rw [heq]; rfl) (by rw [heq]; rfl)
      | simulated _ _ => exact hsame (by rw [heq]; rfl) (by rw [heq]; rfl)
      | manual hm hget _ _ _ =>
          obtain ⟨m, hm', hfits⟩ := hcard hm
          obtain rfl := Option.some.inj (hget.symm.trans hm')
          rw [heq]
          exact ⟨_, rfl, hfits⟩
  | configureManual _ hc _ heq _ =>
      rw [heq]
      exact ⟨_, rfl, configured_cardFits hc⟩
  | writeKey _ heq _ _ => exact hsame (by rw [heq]) (by rw [heq])
  | writeState _ heq _ _ _ => exact hsame (by rw [heq]) (by rw [heq])
  | submit _ heq _ _ _ => exact hsame (by rw [heq]) (by rw [heq])
  | _ =>
      rename_i heq _
      exact hsame ((congrArg TreasuryState.providerMode heq).trans rfl)
        ((congrArg TreasuryState.manualProvider heq).trans rfl)

theorem digestOf_plain {bytes : List UInt8} {n : Nat} {c : Char}
    (h : c ∈ (digestOf host bytes n).toList) : Chars.isControl c = false := by
  unfold digestOf Chars.hexEncode at h
  rw [String.toList_ofList, String.toList_ofList] at h
  exact (Chars.hexChars_plain (List.mem_of_mem_take h)).1

/-- An opaque reference is short and plain. -/
theorem bounded_opaqueReference (input : String) :
    bounded (opaqueReference host "deposit" input) "external_reference" 160
      = .ok ⟨⟩ := by
  obtain ⟨digest, hreference⟩ : ∃ digest, opaqueReference host "deposit" input
      = "deposit" ++ "_ref_" ++ digestOf host digest 32 := ⟨_, rfl⟩
  have hchars : (opaqueReference host "deposit" input).toList
      = "deposit_ref_".toList ++ (digestOf host digest 32).toList := by
    rw [hreference, String.toList_append]
    rfl
  have hlength : (digestOf host digest 32).toList.length ≤ 32 := by
    unfold digestOf
    rw [String.toList_ofList]
    exact List.length_take_le ..
  have hhead : "deposit_ref_".toList.length = 12 := by decide +kernel
  unfold bounded
  rw [bind_eq_ok]
  refine ⟨⟨⟩, refuseIf_eq_ok.mpr ?_, refuseIf_eq_ok.mpr ?_⟩
  · rw [hchars]
    rintro (hnil | hlong)
    · have := congrArg List.length hnil
      rw [List.length_append, List.length_nil] at this
      omega
    · rw [List.length_append] at hlong
      omega
  · rw [hchars, List.any_append]
    have hplain : "deposit_ref_".toList.any Chars.isControl = false := by
      decide +kernel
    rw [hplain, Bool.false_or, List.any_eq_true]
    rintro ⟨c, hc, hcontrol⟩
    exact absurd (digestOf_plain hc) (by rw [hcontrol]; exact Bool.noConfusion)

theorem Change.depositEntries (h : Change host l w w')
    (hv : ∀ k ∈ w.state.processedDeposits.keys,
      bounded k "external_reference" 160 = .ok ⟨⟩) :
    ∀ k ∈ w'.state.processedDeposits.keys,
      bounded k "external_reference" 160 = .ok ⟨⟩ := by
  have hsame : w'.state.processedDeposits = w.state.processedDeposits →
      ∀ k ∈ w'.state.processedDeposits.keys,
        bounded k "external_reference" 160 = .ok ⟨⟩ :=
    fun hs k hk => hv k (hs ▸ hk)
  cases h with
  | quiet h => exact hsame (by rw [h.state])
  | reconcile _ _ _ hp hs _ =>
      obtain ⟨_, _, heq⟩ := hp.fields
      exact hsame (by rw [hs, heq]; rfl)
  | @deposit _ _ _ _ _ _ _ _ input fingerprint _ _ _ hc _ _ hs _ =>
      have hdeposits : w'.state.processedDeposits
          = w.state.processedDeposits.insert
            (opaqueReference host "deposit" input) fingerprint := by
        rw [hs, ← hc.processed]
      intro k hk
      obtain ⟨v, hget⟩ := SortedMap.mem_keys.mp hk
      rw [hdeposits, SortedMap.get?_insert] at hget
      split at hget
      · rename_i hsame
        rw [hsame]
        exact bounded_opaqueReference input
      · exact hv k (SortedMap.mem_keys.mpr ⟨v, hget⟩)
  | writeKey _ hs _ _ => exact hsame (by rw [hs])
  | writeState _ hs _ _ _ => exact hsame (by rw [hs])
  | submit _ hs _ _ _ => exact hsame (by rw [hs])
  | _ =>
      rename_i hs _
      exact hsame ((congrArg TreasuryState.processedDeposits hs).trans rfl)

theorem Change.schema (h : Change host l w w') :
    w'.state.schemaVersion = w.state.schemaVersion := by
  cases h with
  | quiet h => rw [h.state]
  | reconcile _ _ _ hp hs _ =>
      obtain ⟨_, _, heq⟩ := hp.fields
      rw [hs, heq]
      rfl
  | deposit _ _ _ hc _ _ hs _ =>
      obtain ⟨_, _, heq⟩ := hc.fields
      rw [hs, heq]
      rfl
  | writeKey _ hs _ _ => rw [hs]
  | writeState _ hs _ _ _ => rw [hs]
  | submit _ hs _ _ _ => rw [hs]
  | _ =>
      rename_i hs _
      exact (congrArg TreasuryState.schemaVersion hs).trans rfl

/-! ## The checks of a save -/

/-- **WHAT IS VALID STAYS VALID**, through every change that fits. -/
theorem Change.valid (h : Change host l w w') (hs : Sound w.state)
    (hd : Domestic "CAD" w.state) (hf : Fit host w w' l)
    (hv : Valid host w.state) : Valid host w'.state where
  schema := h.schema.trans hv.schema
  quotas := h.quotas hf hv.quotas
  owner := by
    rw [h.owner]
    exact hv.owner
  policies := fun _ _ hp => h.policyEntries hv.policies hp
  agents := fun _ _ hr => h.agentEntries hf hv.agents hr
  intents := fun _ _ hi => h.intentEntries hf hv hi
  ledger := h.ledgerEntries hv hd
  provider := h.providerEntry hs hv.provider
  deposits := h.depositEntries hv.deposits

end Treasury
