import Cixa.Handoff
import Cixa.Atomic

/-! # Release — a secret leaves once, and only for the approved checkout

    Two flags say ONCE, and each is enough: the provider gives its secret
    away, and the executor takes one submission.  So the whole life of an
    executor is empty, or a fetch and a cleanup, or the same with one
    submission of the expected request between them.

    The broker asks an executor about an intent that it reserved.  Whatever
    the executor answers, the intent is past reservation from then on, in
    every later state; and it is unknown when the answer is an error. -/

namespace Treasury

open CixaData CixaHost Outcome Checks Transition

variable {host : Host} {w w' : World} {id : String}

/-! ## Providers give their secret away once -/

/-- A provider as one of its constructors makes it. -/
inductive Provided : SecretProvider → Prop where
  | interactive {reference : String} {operation : ApprovedSecretOperation}
      {reader : Nat → Except TreasuryError (List UInt8)} {p : HeldSecret}
      (h : InteractiveOwnerEntryProvider.fromOwnerReader reference operation
        reader = .ok p) : Provided (.interactiveOwnerEntry p)
  | session {reference : String} {operation : ApprovedSecretOperation}
      {secret : VolatileSecret} {p : HeldSecret}
      (h : VolatileSessionSecretProvider.new reference operation secret
        = .ok p) : Provided (.volatileSession p)
  | helper {socketPath reference : String}
      {operation : ApprovedSecretOperation} {socket : Except TreasuryError Unit}
      {p : OwnerControlledSecretHelperProvider}
      (h : OwnerControlledSecretHelperProvider.new socketPath reference
        operation socket = .ok p) : Provided (.ownerControlledLocalHelper p)

namespace SecretProvider

/-- Whether a provider can still give its secret away. -/
def isFull : SecretProvider → Bool
  | interactiveOwnerEntry p => p.secret.isSome
  | volatileSession p => p.secret.isSome
  | ownerControlledLocalHelper p => !p.consumed

/-- The secrets a provider gives away, fetch after fetch. -/
def yields : SecretProvider →
    List ((ApprovedSecretOperation → HelperAnswer) × ApprovedSecretOperation) →
    List (ApprovedSecretOperation × VolatileSecret)
  | _, [] => []
  | p, fetch :: rest =>
      let (secret, p') := p.fetchForOwnerOperation fetch.1 fetch.2
      (match secret with
        | .ok secret => [(fetch.2, secret)]
        | .error _ => []) ++ p'.yields rest

/-- What one fetch does to a provider. -/
structure Fetched (p p' : SecretProvider) (asked : ApprovedSecretOperation)
    (secret : Except TreasuryError VolatileSecret) : Prop where
  reference : p'.reference = p.reference
  bound : p'.operation = p.operation
  empty : p.isFull = false → p'.isFull = false
  given : ∀ s, secret = .ok s → p.isFull = true ∧ p'.isFull = false
    ∧ asked = p.operation ∧ asked.cardReference = p.reference

theorem binding_ok {expected actual : ApprovedSecretOperation}
    {reference : String} {u : Unit}
    (h : requireSecretBinding expected actual reference = .ok u) :
    actual = expected ∧ actual.cardReference = reference := by
  obtain ⟨hop, href⟩ := not_or.mp (refuseIf_eq_ok.mp h)
  exact ⟨(not_not.mp hop).symm, not_not.mp href⟩

/-- A held secret is taken, or nothing happens. -/
theorem held_cases (consumed : String) (p : HeldSecret)
    (asked : ApprovedSecretOperation) :
    (∃ e, p.fetch consumed asked = (.error e, p))
      ∨ ∃ s, p.secret = some s ∧ asked = p.operation
        ∧ asked.cardReference = p.reference
        ∧ p.fetch consumed asked = (.ok s, { p with secret := none }) := by
  unfold HeldSecret.fetch
  cases hb : requireSecretBinding p.operation asked p.reference with
  | error e => exact Or.inl ⟨e, rfl⟩
  | ok u =>
      obtain ⟨hop, href⟩ := binding_ok hb
      obtain ⟨reference, operation, secret⟩ := p
      cases secret with
      | none => exact Or.inl ⟨_, rfl⟩
      | some s => exact Or.inr ⟨s, rfl, hop, href, rfl⟩

/-- The helper is asked once. -/
theorem helper_cases (p : OwnerControlledSecretHelperProvider)
    (ask : ApprovedSecretOperation → HelperAnswer)
    (asked : ApprovedSecretOperation) :
    (∃ e, p.fetchForOwnerOperation ask asked = (.error e, p))
      ∨ p.consumed = false ∧ asked = p.operation
        ∧ asked.cardReference = p.reference
        ∧ p.fetchForOwnerOperation ask asked
          = (readSecret (ask asked), { p with consumed := true }) := by
  unfold OwnerControlledSecretHelperProvider.fetchForOwnerOperation
  cases hb : requireSecretBinding p.operation asked p.reference with
  | error e => exact Or.inl ⟨e, rfl⟩
  | ok u =>
      obtain ⟨hop, href⟩ := binding_ok hb
      by_cases hc : p.consumed = true
      · exact Or.inl ⟨_, if_pos hc⟩
      · exact Or.inr ⟨Bool.eq_false_iff.mpr hc, hop, href, if_neg hc⟩

theorem held_spec (consumed : String) (p : HeldSecret)
    (asked : ApprovedSecretOperation) {wrap : HeldSecret → SecretProvider}
    (hwrap : wrap = .interactiveOwnerEntry ∨ wrap = .volatileSession) :
    Fetched (wrap p) (wrap (p.fetch consumed asked).2) asked
      (p.fetch consumed asked).1 := by
  rcases held_cases consumed p asked with ⟨e, h⟩ | ⟨s, hs, hop, href, h⟩
  · rw [h]
    refine ⟨rfl, rfl, id, fun _ h => ?_⟩
    exact nomatch h
  · rw [h]
    have hfull := congrArg Option.isSome hs
    rcases hwrap with rfl | rfl
    · exact ⟨rfl, rfl, fun _ => rfl, fun _ _ => ⟨hfull, rfl, hop, href⟩⟩
    · exact ⟨rfl, rfl, fun _ => rfl, fun _ _ => ⟨hfull, rfl, hop, href⟩⟩

/-- **A FETCH** gives the secret of the bound operation and empties the
    provider, or gives nothing. -/
theorem fetch_spec (p : SecretProvider)
    (ask : ApprovedSecretOperation → HelperAnswer)
    (asked : ApprovedSecretOperation) :
    Fetched p (p.fetchForOwnerOperation ask asked).2 asked
      (p.fetchForOwnerOperation ask asked).1 := by
  cases p with
  | interactiveOwnerEntry p => exact held_spec _ p asked (Or.inl rfl)
  | volatileSession p => exact held_spec _ p asked (Or.inr rfl)
  | ownerControlledLocalHelper p =>
      show Fetched _ (Prod.map id ownerControlledLocalHelper
        (p.fetchForOwnerOperation ask asked)).2 asked
        (Prod.map id ownerControlledLocalHelper
          (p.fetchForOwnerOperation ask asked)).1
      rcases helper_cases p ask asked with ⟨e, h⟩ | ⟨hc, hop, href, h⟩
      · rw [h]
        refine ⟨rfl, rfl, id, fun _ h => ?_⟩
        cases h
      · rw [h]
        refine ⟨rfl, rfl, fun _ => rfl, fun _ _ => ⟨?_, rfl, hop, href⟩⟩
        show (!p.consumed) = true
        rw [hc]
        rfl

/-- **A PROVIDER YIELDS ITS SECRET AT MOST ONCE**, and only for the operation
    and the card it is bound to. -/
theorem yields_once (p : SecretProvider)
    (fetches : List ((ApprovedSecretOperation → HelperAnswer)
      × ApprovedSecretOperation)) :
    (p.yields fetches).length ≤ (if p.isFull = true then 1 else 0)
      ∧ ∀ y ∈ p.yields fetches,
        y.1 = p.operation ∧ y.1.cardReference = p.reference := by
  induction fetches generalizing p with
  | nil => exact ⟨Nat.zero_le _, fun _ h => nomatch h⟩
  | cons fetch rest ih =>
      have hspec := fetch_spec p fetch.1 fetch.2
      unfold yields
      generalize p.fetchForOwnerOperation fetch.1 fetch.2 = r at hspec
      obtain ⟨secret, p'⟩ := r
      obtain ⟨hlen, hall⟩ := ih p'
      rw [hspec.bound, hspec.reference] at hall
      -- a call that got the secret leaves none for the rest
      cases secret with
      | error e =>
          refine ⟨Nat.le_trans hlen ?_, hall⟩
          by_cases hp : p.isFull = true
          · rw [if_pos hp]
            split <;> omega
          · rw [hspec.empty (Bool.eq_false_iff.mpr hp)]
            exact Nat.zero_le _
      | ok s =>
          obtain ⟨hfull, hempty, hop, href⟩ := hspec.given s rfl
          rw [hempty] at hlen
          rw [hfull]
          refine ⟨Nat.succ_le_succ hlen, fun y hy => ?_⟩
          rcases List.mem_cons.mp hy with rfl | hy
          · exact ⟨hop, href⟩
          · exact hall y hy

end SecretProvider

/-- A provider starts with a secret that is bound to a card. -/
theorem Provided.full {p : SecretProvider} (h : Provided p) :
    p.isFull = true ∧ p.operation.cardReference = p.reference := by
  cases h with
  | interactive h =>
      unfold InteractiveOwnerEntryProvider.fromOwnerReader at h
      simp only [bind_eq_ok, refuseIf_eq_ok, pure_eq_ok] at h
      obtain ⟨_, href, _, _, _, _, rfl⟩ := h
      exact ⟨rfl, not_not.mp href⟩
  | session h =>
      unfold VolatileSessionSecretProvider.new at h
      simp only [bind_eq_ok, refuseIf_eq_ok, pure_eq_ok] at h
      obtain ⟨_, hgood, rfl⟩ := h
      exact ⟨rfl, not_not.mp (not_or.mp hgood).1⟩
  | helper h =>
      unfold OwnerControlledSecretHelperProvider.new at h
      simp only [bind_eq_ok, refuseIf_eq_ok, pure_eq_ok] at h
      obtain ⟨_, hgood, _, _, rfl⟩ := h
      exact ⟨rfl, not_not.mp (not_or.mp hgood).1⟩

/-! ## The life of an executor -/

/-- One call of an executor, with its answers. -/
structure HandoffCall where
  answers : HandoffAnswers
  intent : PurchaseIntent

/-- An executor after a call. -/
def handoffStep (host : Host) (c : HandoffCall) (h : Handoff) : Handoff :=
  final (submitOnce host c.answers c.intent) h

/-- A sequence of calls of an executor. -/
abbrev HandoffRun (host : Host) :
    Handoff → List HandoffCall → Handoff → Prop :=
  Run (handoffStep host) fun _ => True

/-- What an executor does in the one call that it takes.  A secret is only
    given to it by a provider that is bound to its operation. -/
inductive Released (bound operation : ApprovedSecretOperation)
    (expected : PurchaseRequest) : List HandoffEvent → Prop where
  | failed : Released bound operation expected [.fetched operation, .cleaned]
  | submitted (secret : VolatileSecret) (hbound : bound = operation) :
      Released bound operation expected
        [.fetched operation, .yielded operation secret,
          .submitted expected secret, .cleaned]

/-- An executor before its one call or after it. -/
inductive Phase (bound operation : ApprovedSecretOperation)
    (expected : PurchaseRequest) (calls : List HandoffCall) (h : Handoff) :
    Prop where
  | fresh (hs : h.executor.submitted = false) (hl : h.log = [])
  | spent {c : HandoffCall} (hs : h.executor.submitted = true)
      (hc : c ∈ calls) (hid : c.intent.id = operation.intentId)
      (hreq : c.intent.request = expected)
      (hl : Released bound operation expected h.log)

/-- What an executor is bound to. -/
structure BoundTo (bound operation : ApprovedSecretOperation)
    (expected : PurchaseRequest) (h : Handoff) : Prop where
  provider : h.executor.provider.operation = bound
  operation : h.executor.operation = operation
  expected : h.executor.expectedRequest = expected

variable {bound operation : ApprovedSecretOperation} {expected : PurchaseRequest}
  {h : Handoff} {answers : HandoffAnswers} {intent : PurchaseIntent}

/-- **FETCHING AND SUBMITTING** from an executor. -/
theorem submitSecret_spec (hb : BoundTo bound operation expected h)
    (hreq : intent.request = expected) :
    wp (submitSecret answers intent.request)
      (fun outcome h' => BoundTo bound operation expected h'
        ∧ h'.executor.submitted = h.executor.submitted
        ∧ ∃ secret, bound = operation
          ∧ answers.submit expected secret = .ok outcome
          ∧ h'.log = h.log ++ [.fetched operation, .yielded operation secret,
            .submitted expected secret])
      (fun _ h' => BoundTo bound operation expected h'
        ∧ h'.executor.submitted = h.executor.submitted
        ∧ (h'.log = h.log ++ [.fetched operation]
          ∨ ∃ secret, bound = operation
            ∧ h'.log = h.log ++ [.fetched operation,
              .yielded operation secret, .submitted expected secret])) h := by
  obtain ⟨⟨op, exp, provider, tid, submitted⟩, log⟩ := h
  obtain ⟨rfl, rfl, rfl⟩ := hb
  subst hreq
  unfold submitSecret fetchSecret note
  simp only [wp_bind, wp_get, wp_modify]
  have hspec := SecretProvider.fetch_spec provider answers.ask op
  generalize provider.fetchForOwnerOperation answers.ask op = r at hspec ⊢
  obtain ⟨secret, provider'⟩ := r
  rw [wp_lift]
  have hb : BoundTo provider.operation op intent.request
      ⟨⟨op, intent.request, provider', tid, submitted⟩, log⟩ :=
    ⟨hspec.bound, rfl, rfl⟩
  refine ⟨fun _ _ => ⟨⟨hb.provider, rfl, rfl⟩, rfl, Or.inl rfl⟩,
    fun s hs => ?_⟩
  have hbound := (hspec.given s hs).2.2.1.symm
  rw [wp_pure, wp_lift]
  have hlog : ∀ a b c : HandoffEvent,
      log ++ [a] ++ [b] ++ [c] = log ++ [a, b, c] := fun a b c => by simp
  exact ⟨fun _ _ => ⟨⟨hb.provider, rfl, rfl⟩, rfl,
      Or.inr ⟨s, hbound, hlog _ _ _⟩⟩,
    fun _ ho => ⟨⟨hb.provider, rfl, rfl⟩, rfl, s, hbound, ho, hlog _ _ _⟩⟩

/-- **ONE CALL** of an executor: refused with nothing done, or the one that
    it takes.  It returns only what the transport returned, and only after
    a cleanup that succeeded. -/
theorem submitOnce_spec (host : Host) (c : HandoffCall)
    {calls : List HandoffCall}
    (hb : BoundTo bound operation expected h)
    (hp : Phase bound operation expected calls h) :
    wp (submitOnce host c.answers c.intent)
      (fun outcome h' => BoundTo bound operation expected h'
        ∧ Phase bound operation expected (calls ++ [c]) h' ∧ h.log = []
        ∧ c.answers.cleanup = .ok ⟨⟩
        ∧ ∃ secret, c.answers.submit expected secret = .ok outcome
          ∧ h'.log = [.fetched operation, .yielded operation secret,
            .submitted expected secret, .cleaned])
      (fun _ h' => BoundTo bound operation expected h'
        ∧ Phase bound operation expected (calls ++ [c]) h') h := by
  -- a call that gets nowhere leaves the phase as it is
  have hmore : Phase bound operation expected (calls ++ [c]) h := by
    cases hp with
    | fresh hs hl => exact .fresh hs hl
    | spent hs hc hid hreq hl =>
        exact .spent hs (List.mem_append_left _ hc) hid hreq hl
  unfold submitOnce
  rw [wp_bind, wp_get]
  refine line_rejectIf (fun _ => ⟨hb, hmore⟩) fun hgo => ?_
  obtain ⟨hfree, hid⟩ := not_or.mp hgo
  refine line_lift (fun _ => ⟨hb, hmore⟩) fun u hu => ?_
  have hreq : c.intent.request = expected :=
    (not_not.mp (refuseIf_eq_ok.mp hu)).trans hb.expected
  have hlog : h.log = [] := by
    cases hp with
    | fresh _ hl => exact hl
    | spent hs _ _ _ _ => exact absurd hs hfree
  rw [wp_bind, wp_modify, wp_bind, wp_attempt]
  have hmem : c ∈ calls ++ [c] := List.mem_append_right _ List.mem_cons_self
  have hid' := (not_not.mp hid).trans (congrArg _ hb.operation)
  refine wp_mono (submitSecret_spec ⟨hb.provider, hb.operation, hb.expected⟩ hreq) ?_ ?_
  · rintro outcome h' ⟨hb', hsub, secret, hbound, hans, hl⟩
    rw [hlog, List.nil_append] at hl
    have hdone : Phase bound operation expected (calls ++ [c])
        { h' with log := h'.log ++ [.cleaned] } := by
      refine .spent hsub hmem hid' hreq ?_
      rw [hl]
      exact .submitted secret hbound
    unfold note
    rw [wp_bind, wp_modify]
    cases hclean : c.answers.cleanup with
    | error e => exact (wp_throw _).mpr ⟨⟨hb'.provider, hb'.operation, hb'.expected⟩, hdone⟩
    | ok u =>
        refine (wp_pure _).mpr ⟨⟨hb'.provider, hb'.operation, hb'.expected⟩, hdone, hlog, rfl,
          secret, hans, ?_⟩
        rw [hl]
        rfl
  · rintro e h' ⟨hb', hsub, hl⟩
    rw [hlog, List.nil_append] at hl
    unfold note
    rw [wp_bind, wp_modify]
    refine (wp_throw _).mpr ⟨⟨hb'.provider, hb'.operation, hb'.expected⟩,
      .spent hsub hmem hid' hreq ?_⟩
    rcases hl with hl | ⟨secret, hbound, hl⟩
    · rw [hl]
      exact .failed
    · rw [hl]
      exact .submitted secret hbound

/-- **THE LIFE OF AN EXECUTOR**: nothing, or one call. -/
theorem HandoffRun.phase {calls : List HandoffCall} {h0 : Handoff}
    (hrun : HandoffRun host h0 calls h) (hb : BoundTo bound operation expected h0)
    (hp : Phase bound operation expected [] h0) :
    BoundTo bound operation expected h ∧ Phase bound operation expected calls h := by
  -- each call is bound as the first and goes on from its phase
  induction hrun with
  | nil => exact ⟨hb, hp⟩
  | snoc c _ _ ih =>
      obtain ⟨hb', hp'⟩ := ih
      exact wp_final.mp (wp_mono (submitOnce_spec host c hb' hp')
        (fun _ _ h => ⟨h.1, h.2.1⟩) (fun _ _ h => h))

/-! ## What the broker is left with -/

/-- An intent is stored as unknown. -/
def InDoubt (s : TreasuryState) (id : String) : Prop :=
  ∃ i, s.intents.get? id = some i ∧ i.state = .unknown

/-- **A QUARANTINE** leaves an executing intent unknown, also where the audit
    log is full. -/
theorem quarantine_inDoubt {reason : String} {i : PurchaseIntent}
    (hi : w.state.intents.get? id = some i) (hid : i.id = id)
    (hx : i.state = .executing) :
    wp (quarantineExecution host id reason)
      (fun _ w' => InDoubt w'.state id) (fun _ w' => InDoubt w'.state id) w := by
  unfold quarantineExecution
  rw [wp_bind, wp_readState, wp_bind, wp_orReject]
  refine ⟨fun hnone => ?_, fun j hj => ?_⟩
  · rw [hi] at hnone
    exact nomatch hnone
  obtain rfl : i = j := Option.some.inj (hi.symm.trans hj)
  rw [wp_ite]
  refine ⟨fun _ => ?_, fun hno => absurd (Or.inl hx) hno⟩
  unfold enterUnknown
  rw [if_pos hx, wp_bind]
  refine wp_transition_of_can (by rw [hx]; rfl) ?_
  rw [wp_bind, wp_storeIntent]
  have hstored : ∀ j : PurchaseIntent, j.state = .unknown →
      InDoubt (w.state.withIntent i.id j) id := fun j hj =>
    ⟨j, by rw [← hid]; exact SortedMap.get?_insert_self _ _ _, hj⟩
  refine wp_audit (fun _ => ?_) fun _ => ?_
  · exact hstored _ rfl
  · exact hstored _ rfl

/-- What is submitted in vain is in doubt. -/
theorem submitAndSave_inDoubt {x : Op Json} {i : PurchaseIntent}
    (hx : wp x (fun _ _ => False) (fun _ v => v.state = w.state) w)
    (hi : w.state.intents.get? id = some i) (hid : i.id = id)
    (hstate : i.state = .executing) :
    wp (submitAndSave host id x) (fun _ w' => InDoubt w'.state id)
      (fun _ w' => InDoubt w'.state id) w := by
  unfold submitAndSave
  rw [wp_bind, wp_attempt]
  refine wp_mono hx (fun _ _ h => h.elim) ?_
  intro e v hv
  dsimp only
  refine line (quarantine_inDoubt (hv ▸ hi) hid hstate) fun _ u hu => ?_
  have hsaved : ∀ u', Path host Saving u u' → InDoubt u'.state id :=
    fun u' hp => (saving_state hp) ▸ hu
  refine line (wp_mono saveTo_spec (fun _ _ h => h)
    (fun _ u' h => hsaved u' h.1)) fun _ u' hu' => ?_
  rw [wp_throw]
  exact hsaved u' hu'.1

/-- What a broker knows after an executor was asked: the intent it was asked
    about was executing; and it is in doubt unless the executor returned. -/
def AskedAbout (executor : CheckoutExecutor) (id : String) (w' : World) :
    Prop :=
  ∃ i : PurchaseIntent, i.id = id ∧ i.state = .executing
    ∧ ((∀ outcome, executor.submitOnce i ≠ .ok outcome) →
      InDoubt w'.state id)

theorem handOver_asked {executor : CheckoutExecutor}
    {auditor action agentId : String} (h : Workable w.state)
    (hact : isEmergencyAudit action = false) :
    wp (handOver host executor auditor action agentId id)
      (fun _ w' => Called w w' → AskedAbout executor id w')
      (fun _ w' => Called w w' → AskedAbout executor id w') w := by
  refine handOver_reaches h hact (fun _ _ h hc => absurd hc h.uncalled)
    (fun _ _ _ hb hp hc =>
      absurd hc (reserved_uncalled (Quiet.refl w) hb hp)) ?_
  intro b c i _ _ _ hx _ _ _
  cases hans : executor.submitOnce i with
  | ok outcome =>
      have hasked : ∀ w', AskedAbout executor id w' := fun w' =>
        ⟨i, hx.keyed, hx.state, fun hno => absurd hans (hno outcome)⟩
      exact wp_mono (wp_const trivial) (fun _ w' _ _ => hasked w')
        (fun _ w' _ _ => hasked w')
  | error e =>
      refine wp_mono (submitAndSave_inDoubt ?_ hx.stored hx.keyed hx.state)
        (fun _ _ h _ => ⟨i, hx.keyed, hx.state, fun _ => h⟩)
        (fun _ _ h _ => ⟨i, hx.keyed, hx.state, fun _ => h⟩)
      unfold submitThrough
      rw [wp_bind, wp_record, hans, wp_bind, wp_lift]
      exact ⟨fun _ _ => rfl, fun _ h => nomatch h⟩

theorem executeControlled_asked {token : String} {executor : CheckoutExecutor}
    (h : Workable w.state) :
    wp (executeControlledCheckoutPersisted host token id executor)
      (fun _ w' => Called w w' → AskedAbout executor id w')
      (fun _ w' => Called w w' → AskedAbout executor id w') w := by
  unfold executeControlledCheckoutPersisted
  rw [wp_bind, wp_readState]
  refine line_quiet (authenticate_quietly token)
    (fun _ _ h hc => absurd hc h.uncalled) ?_
  intro actor a ha
  have h0 : Called w a → AskedAbout executor id a :=
    fun hc => absurd hc ha.uncalled
  refine line_lift (fun _ => h0) fun agentId _ => ?_
  refine line_orReject (fun _ => h0) fun _ _ => ?_
  refine line_rejectIf (fun _ => h0) fun _ => ?_
  refine line_orReject (fun _ => h0) fun _ _ => ?_
  refine line_rejectIf (fun _ => h0) fun _ => ?_
  refine line_rejectIf (fun _ => h0) fun _ => ?_
  refine line_lift (fun _ => h0) fun _ _ => ?_
  have hlog : ∀ {w'}, Called w w' → Called a w' := by
    rintro w' ⟨tail, id', htail, hmem⟩
    exact ⟨tail, id', by rw [htail, ha.log], hmem⟩
  exact wp_mono (handOver_asked (ha.state ▸ h) (by decide))
    (fun _ _ h hc => h (hlog hc)) (fun _ _ h hc => h (hlog hc))

/-! ## No second submission -/

/-- Nothing submits an intent between two worlds. -/
def Unasked (w w' : World) (id : String) : Prop :=
  ∃ tail, w'.log = w.log ++ tail ∧ .submitted id ∉ tail

theorem Unasked.trans {v : World} (h : Unasked w v id)
    (h' : Unasked v w' id) : Unasked w w' id := by
  obtain ⟨t, ht, hnot⟩ := h
  obtain ⟨u, hu, hnot'⟩ := h'
  refine ⟨t ++ u, by rw [hu, ht, List.append_assoc], fun hmem => ?_⟩
  exact (List.mem_append.mp hmem).elim hnot hnot'

theorem Path.unasked {allowed : Label → Prop} (h : Path host allowed w w')
    (hno : ¬allowed (.submit id)) : Unasked w w' id := by
  obtain ⟨tail, htail, hP⟩ := h.logs (P := fun e => e ≠ .submitted id) (by
    rintro l a b _ hl hc hlog rfl
    rcases hc.logged with heq | ⟨e, heq, he⟩
    · rw [hlog] at heq
      simp at heq
    · rw [hlog] at heq
      obtain rfl : Event.submitted id = e := by
        simpa using List.append_cancel_left heq
      have hlabel : l = .submit id := he
      exact hno (hlabel ▸ hl))
  exact ⟨tail, htail, fun hmem => hP _ hmem rfl⟩

/-- What is past reservation is not reserved. -/
theorem Past.unreserved (hp : Past w.state id) :
    ¬Change host (.reserve id) w w' := by
  intro h
  generalize hl : Label.reserve id = l at h
  cases h with
  | reserve _ hi hr _ _ _ _ _ =>
      cases hl
      obtain ⟨j, hj, hb⟩ := hp
      obtain rfl := Option.some.inj (hi.symm.trans hj)
      exact hr.executable.elim (fun h => hb.2.1 h) (fun h => hb.2.2 h)
  | _ => exact nomatch hl

/-- **NOTHING SUBMITS AGAIN** what is past reservation. -/
theorem Behaves.unasked {c : Call} (h : Behaves host w w' c)
    (hp : Past w.state id) : Unasked w w' id := by
  cases h with
  | @attempt _ id' _ h =>
      by_cases hid : id' = id
      · subst hid
        cases h with
        | refused hq => exact hq.unasked (saving_unsubmitting id')
        | undone hr _ _ => exact absurd hr hp.unreserved
        | finished hr _ _ _ => exact absurd hr hp.unreserved
      · exact h.path.unasked fun heq => hid heq.symm
  | ordinary _ _ h =>
      cases h with
      | refused hq => exact hq.unasked (saving_unsubmitting id)
      | served _ hq => exact hq.unasked (allowed_unsubmitting _ _ id)
  | recovery h => exact h.path.unasked (recovering_unsubmitting id)

/-- **NO WAY BACK** along a path with fresh draws. -/
theorem Path.stays_past {allowed : Label → Prop} {n : Nat}
    (h : Path host allowed w w') (hfresh : FreshBelow host n)
    (hn : w'.drawn ≤ n) (hids : IdsDrawn host w) (hp : Past w.state id) :
    Past w'.state id := by
  have hall := h.invariant (I := fun v => IdsDrawn host v
    ∧ (v.drawn ≤ n → Past v.state id)) ?_ ?_ ⟨hids, fun _ => hp⟩
  · exact hall.2 hn
  · rintro l a b _ hc ⟨ha, hpa⟩
    refine ⟨hc.idsDrawn ha, fun hb => ?_⟩
    obtain ⟨i, hi, hbeyond⟩ := hpa (Nat.le_trans hc.advance.drawn hb)
    exact hc.beyond ha (hfresh.mono hb) hi hbeyond
  · rintro a b hab ⟨ha, hpa⟩ _
    exact ⟨ha.restore hab.advance,
      fun hb => hpa (Nat.le_trans hab.advance.drawn hb)⟩

/-- **FOR GOOD**: whatever is called later, an intent past reservation stays
    so and is not submitted. -/
theorem Calls.spent {v : World} {cs : List Call} (h : Calls host w cs v)
    (hk : Kept w.state) (hf : Fits w) (hids : IdsDrawn host w)
    (hfresh : FreshBelow host v.drawn) (hp : Past w.state id) :
    Past v.state id ∧ Unasked w v id := by
  have hall := h.invariant hk hf (I := fun v => IdsDrawn host v
    ∧ (FreshBelow host v.drawn → Past v.state id ∧ Unasked w v id))
    ⟨hids, fun _ => ⟨hp, [], (List.append_nil _).symm, nofun⟩⟩ ?_
  · exact hall.2.2.2 hfresh
  · rintro c a b _ hb ⟨ha, hpa⟩
    refine ⟨hb.path.idsDrawn ha, fun hfresh' => ?_⟩
    obtain ⟨hpast, hun⟩ := hpa (hfresh'.mono hb.path.advance.drawn)
    exact ⟨hb.path.stays_past hfresh' (Nat.le_refl _) ha hpast,
      hun.trans (hb.unasked hpast)⟩

/-- **A SECRET IS RELEASED ONCE**, and only for the approved checkout.  The
    provider gives it to one fetch of the operation it is bound to.  The life
    of an executor is empty, or it is one call about the approved intent and
    request: a fetch, perhaps one submission with the secret of that fetch,
    and one cleanup.  It returns only what was submitted and cleaned up after;
    and once a broker has asked it, the intent is unknown if it did not
    return, and is never submitted again. -/
theorem secret_is_released_once (host : Host) {operation : ApprovedSecretOperation}
    {expected : PurchaseRequest} {provider : SecretProvider}
    {transportId : String} {executor : SecureOwnerHandoffExecutor}
    (hprovided : Provided provider)
    (hnew : SecureOwnerHandoffExecutor.new operation expected provider
      transportId = .ok executor) :
    (provider.isFull = true ∧ provider.operation.cardReference
        = operation.cardReference)
      ∧ (∀ fetches, (provider.yields fetches).length ≤ 1
        ∧ ∀ y ∈ provider.yields fetches, y.1 = provider.operation)
      ∧ ∀ calls h, HandoffRun host ⟨executor, []⟩ calls h →
        Phase provider.operation operation expected calls h
        ∧ ∀ answers : HandoffAnswers,
          (∀ intent outcome, result (submitOnce host answers intent) h
              = .ok outcome →
            h.log = [] ∧ answers.cleanup = .ok ⟨⟩
            ∧ ∃ secret, answers.submit expected secret = .ok outcome
              ∧ (handoffStep host ⟨answers, intent⟩ h).log
                = [.fetched operation, .yielded operation secret,
                  .submitted expected secret, .cleaned])
          ∧ ∀ owner w0 cs w token id, TreasuryRun host owner w0 cs w →
            Called w (exec host
              (.controlled token id (h.asExecutor host answers)) w) →
            AskedAbout (h.asExecutor host answers) id (exec host
              (.controlled token id (h.asExecutor host answers)) w)
            ∧ ∀ ds v, Fits (exec host
                (.controlled token id (h.asExecutor host answers)) w) →
              Calls host (exec host
                (.controlled token id (h.asExecutor host answers)) w) ds v →
              FreshBelow host v.drawn →
              Past v.state id ∧ Unasked (exec host
                (.controlled token id (h.asExecutor host answers)) w) v
                id := by
  obtain ⟨hfull, hcard⟩ := hprovided.full
  unfold SecureOwnerHandoffExecutor.new at hnew
  simp only [bind_eq_ok, refuseIf_eq_ok, pure_eq_ok] at hnew
  obtain ⟨_, hgood, rfl⟩ := hnew
  have href := not_not.mp (not_or.mp hgood).2
  refine ⟨⟨hfull, hcard.trans href⟩, fun fetches => ?_,
    fun calls h hrun => ?_⟩
  · obtain ⟨hlen, hall⟩ := provider.yields_once fetches
    rw [if_pos hfull] at hlen
    exact ⟨hlen, fun y hy => (hall y hy).1⟩
  -- the executor starts fresh, with the secret still held
  obtain ⟨hb, hp⟩ := hrun.phase ⟨rfl, rfl, rfl⟩ (.fresh rfl rfl)
  refine ⟨hp, fun answers => ⟨fun intent outcome hok => ?_, ?_⟩⟩
  · have hspec := submitOnce_spec host ⟨answers, intent⟩ hb hp
    obtain ⟨_, _, hlog, hclean, secret, hans, hl⟩ :=
      (wp_iff.mp hspec).1 outcome hok
    exact ⟨hlog, hclean, secret, hans, hl⟩
  · intro owner w0 cs w token id hw hcalled
    obtain ⟨hk, hf⟩ := hw.kept
    have hbehaves : Behaves host w _
        (.controlled token id (h.asExecutor host answers)) :=
      exec_behaves (hk.workable hf) _
    refine ⟨?_, fun ds v hfit hcs hfresh => ?_⟩
    · exact (wp_final (P := fun w' => Called w w' → AskedAbout _ id w')).mp
        (executeControlled_asked (hk.workable hf)) hcalled
    · obtain ⟨id', hid, hpast⟩ := hbehaves.called hcalled
      obtain rfl : id = id' := Option.some.inj hid
      exact hcs.spent (hbehaves.path.kept hk) hfit
        (hbehaves.path.idsDrawn hw.idsDrawn) hfresh hpast

/-- The operation of the first intent after `cardOpening`. -/
def cardOperation : ApprovedSecretOperation where
  operationId := "operation"
  intentId := firstIntent soundHost
  cardReference := "keychain://card"
  expiresAt := 0
  nonce := "nonce"
  helperId := none
  brokerUid := none
  helperMac := none

/-- The secret of that operation in memory. -/
def cardSecret : SecretProvider :=
  .volatileSession ⟨"keychain://card", cardOperation, some ⟨[1]⟩⟩

/-- An executor for the first intent. -/
def cardExecutor : SecureOwnerHandoffExecutor :=
  ⟨cardOperation, smallPurchase, cardSecret, "transport", false⟩

/-- A transport that loses the answer to a submission. -/
def lostAnswers : HandoffAnswers where
  ask := fun _ => .error (.conflict "no helper")
  submit := fun _ _ => .error (.conflict "timeout")
  cleanup := .ok ⟨⟩

/-- A controlled checkout of the first intent whose answer is lost. -/
def lostCheckout : Call :=
  .controlled agentToken (firstIntent soundHost)
    ((Handoff.mk cardExecutor []).asExecutor soundHost lostAnswers)

theorem secret_is_released_once_lost : ∃ owner w0 w,
    TreasuryRun soundHost owner w0 (cardOpening smallPurchase owner) w
      ∧ Called w (exec soundHost lostCheckout w)
      ∧ InDoubt (exec soundHost lostCheckout w).state
        (firstIntent soundHost) := by
  have h : tryRun soundHost ⟨100000, "CAD"⟩ (cardOpening smallPurchase)
      (fun w => !w.log.any (isSubmission (firstIntent soundHost))
        && (exec soundHost lostCheckout w).log.any
          (isSubmission (firstIntent soundHost))) = true := by
    decide +kernel
  obtain ⟨owner, w0, w, hrun, hcheck⟩ := tryRun_run h
  rw [Bool.and_eq_true, Bool.not_eq_true'] at hcheck
  obtain ⟨hbefore, hafter⟩ := hcheck
  have hbehaves : Behaves soundHost w (exec soundHost lostCheckout w)
      lostCheckout := exec_behaves (hrun.kept.1.workable hrun.kept.2) _
  have hpath := hbehaves.path
  obtain ⟨tail, htail⟩ := Path.grows hpath
  have hcalled : Called w (exec soundHost lostCheckout w) := by
    rw [htail, List.any_append, hbefore, Bool.false_or, List.any_eq_true]
      at hafter
    obtain ⟨e, he, hsub⟩ := hafter
    cases e with
    | submitted id => exact ⟨tail, id, htail, he⟩
    | _ => cases hsub
  have hnew : SecureOwnerHandoffExecutor.new cardOperation smallPurchase
      cardSecret "transport" = .ok cardExecutor := by
    unfold SecureOwnerHandoffExecutor.new
    simp only [bind_eq_ok, refuseIf_eq_ok, pure_eq_ok]
    exact ⟨⟨⟩, by decide +kernel, rfl⟩
  have hsecret : VolatileSessionSecretProvider.new "keychain://card"
      cardOperation ⟨[1]⟩
      = .ok ⟨"keychain://card", cardOperation, some ⟨[1]⟩⟩ := by
    unfold VolatileSessionSecretProvider.new
    simp only [bind_eq_ok, refuseIf_eq_ok, pure_eq_ok]
    exact ⟨⟨⟩, by decide +kernel, trivial⟩
  have hprovided : Provided cardSecret := .session hsecret
  have hall := ((secret_is_released_once soundHost hprovided hnew).2.2 [] _ .nil).2
  refine ⟨owner, w0, w, hrun, hcalled, ?_⟩
  obtain ⟨i, _, _, hdoubt⟩ :=
    ((hall lostAnswers).2 _ _ _ _ _ _ hrun hcalled).1
  refine hdoubt fun outcome hok => ?_
  obtain ⟨_, _, secret, hans, _⟩ := (hall lostAnswers).1 i outcome hok
  cases hans

end Treasury
