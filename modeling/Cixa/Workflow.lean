import Cixa.Runs
import Cixa.Steady

/-! # The workflow of money — what its programs write, however they end

    A program GUARDS a property of the state when the property holds again
    after it, whether the program returned or failed, and what it returned is
    as stated.  Everything from a reservation to an outcome, and every
    reconciliation, writes references that the broker made or checked, and
    nothing else of the state but money, intents and entries of its own. -/

namespace Treasury

open CixaData CixaHost Outcome

variable {host : Host} {α β : Type} {J : TreasuryState → Prop}
  {P : α → Prop}

/-- A program that keeps a property of the state, however it ends, and
    returns what satisfies another. -/
def Guards (J : TreasuryState → Prop) (P : α → Prop) (x : Op α) : Prop :=
  ∀ w, J w.state → wp x (fun a w' => J w'.state ∧ P a) (fun _ w' => J w'.state) w

/-- A program of which only the state is of interest. -/
abbrev Keeping (J : TreasuryState → Prop) (x : Op α) : Prop :=
  Guards J (fun _ => True) x

/-! ## Lines and sequences -/

namespace Guards

theorem pure {a : α} (h : P a) : Guards J P (Pure.pure a : Op α) := by
  intro w hw
  rw [wp_pure]
  exact ⟨hw, h⟩

theorem throw (e : TreasuryError) :
    Guards J P (MonadExcept.throw e : Op α) := by
  intro w hw
  rw [wp_throw]
  exact hw

theorem bind {x : Op α} {g : α → Op β} {Q : β → Prop} (hx : Guards J P x)
    (hg : ∀ a, P a → Guards J Q (g a)) : Guards J Q (x >>= g) := by
  intro w hw
  refine line (hx w hw) ?_
  intro a v ⟨hv, ha⟩
  exact hg a ha v hv

/-- A line whose result does not matter. -/
theorem next {x : Op α} {g : α → Op β} {Q : β → Prop} (hx : Guards J P x)
    (hg : ∀ a, Guards J Q (g a)) : Guards J Q (x >>= g) :=
  .bind hx fun a _ => hg a

/-- What leaves the state alone keeps all of its properties. -/
theorem of_keeps {x : Op α} (h : Keeps World.state x) : Keeping J x := by
  intro w hw
  refine wp_mono (h w) (fun _ v hv => ⟨?_, trivial⟩) (fun _ v hv => ?_)
  · rw [hv]
    exact hw
  · rw [hv]
    exact hw

theorem readState : Guards J J Treasury.readState := by
  intro w hw
  rw [wp_readState]
  exact ⟨hw, hw⟩

theorem lift (x : Except TreasuryError α) :
    Guards J (fun a => x = .ok a) (Outcome.lift x) := by
  intro w hw
  rw [wp_lift]
  exact ⟨fun _ _ => hw, fun _ ha => ⟨hw, ha⟩⟩

theorem orReject (o : Option α) (e : TreasuryError) :
    Guards J (fun a => o = some a) (Outcome.orReject o e) := by
  intro w hw
  rw [wp_orReject]
  exact ⟨fun _ => hw, fun _ ha => ⟨hw, ha⟩⟩

theorem rejectIf (c : Prop) [Decidable c] (e : TreasuryError) :
    Keeping J (Outcome.rejectIf c e) := by
  intro w hw
  rw [wp_rejectIf]
  exact ⟨fun _ => hw, fun _ => ⟨hw, trivial⟩⟩

theorem ite {c : Prop} [Decidable c] {x y : Op α} (hx : Guards J P x)
    (hy : Guards J P y) : Guards J P (if c then x else y) := by
  by_cases hc : c
  · rw [if_pos hc]
    exact hx
  · rw [if_neg hc]
    exact hy

theorem modifyState {g : TreasuryState → TreasuryState}
    (hg : ∀ s, J s → J (g s)) : Keeping J (Treasury.modifyState g) := by
  intro w hw
  rw [wp_modifyState]
  exact ⟨hg w.state hw, trivial⟩

theorem tryCatch {x : Op α} {g : TreasuryError → Op α} (hx : Guards J P x)
    (hg : ∀ e, Guards J P (g e)) : Guards J P (MonadExcept.tryCatch x g) := by
  intro w hw
  rw [wp_tryCatch]
  exact wp_mono (hx w hw) (fun _ _ h => h) (fun e v hv => hg e v hv)

theorem attempt {x : Op α} (hx : Guards J P x) :
    Guards J (fun r => ∀ a, r = .ok a → P a) (Outcome.attempt x) := by
  intro w hw
  rw [wp_attempt]
  refine wp_mono (hx w hw) (fun a v hv => ⟨hv.1, ?_⟩) (fun e v hv => ⟨hv, nofun⟩)
  rintro _ ⟨⟩
  exact hv.2

/-- Putting back a state with the property. -/
theorem orRestore {s : TreasuryState} {x : Op α} (hs : J s)
    (hx : Guards J P x) : Guards J P (Treasury.orRestore s x) :=
  .tryCatch hx fun _ => .next (.modifyState fun _ _ => hs) fun _ => .throw _

/-! ## Readings, draws and records -/

theorem state_steady : Steady World.state :=
  ⟨fun _ _ => rfl, fun _ _ => rfl, fun _ _ => rfl⟩

theorem now : Keeping J (Treasury.now host) := .of_keeps (.now state_steady)

theorem record (e : Event) : Keeping J (Treasury.record e) :=
  .of_keeps (.record state_steady e)

theorem newId (kind : String) :
    Guards J (fun id => ∃ n, id = idOfDraw host kind n)
      (Treasury.newId host kind) := by
  intro w hw
  rw [wp_newId]
  exact ⟨hw, w.drawn, rfl⟩

theorem saveTo : Keeping J (Treasury.saveTo host) := by
  intro w hw
  refine wp_mono saveTo_spec (fun _ v hv => ⟨?_, trivial⟩) (fun _ v hv => ?_)
  · rw [hv.2.1]
    exact hw
  · rw [hv.2]
    exact hw

end Guards

/-! ## What is kept -/

/-- The references of an intent and of its receipt. -/
structure Refers (V : String → Prop) (i : PurchaseIntent) : Prop where
  reference : ∀ r, i.providerReference = some r → V r
  receipt : ∀ rc, i.receipt = some rc → ∀ r, rc.providerReference = some r → V r

/-- References that the broker makes or checks satisfy a condition. -/
structure Issues (host : Host) (V : String → Prop) : Prop where
  sanitized : ∀ r, V (sanitizeProviderReference host r)
  charged : ∀ n, V (idOfDraw host "sim_charge" n)
  reconciled : ∀ n, V (idOfDraw host "reconciled" n)
  given : ∀ r t, validateProviderReference host r = .ok t → V t

/-- A property of the state that is not about what the workflow writes. -/
structure Aside (E : TreasuryState → Prop) : Prop where
  events : ∀ s e, E s → E (s.withEvents [e])
  entry : ∀ s e, e.action ≠ "transaction_rate_limited" → E s → E (s.withEntry e)
  intent : ∀ s id i, E s → E (s.withIntent id i)
  providers : ∀ s p m, E s → E { s with provider := p, manualProvider := m }

/-- **WHAT THE WORKFLOW KEEPS**: every reference of an intent, a receipt or a
    simulated charge satisfies a condition, and a property aside holds. -/
structure Referenced (V : String → Prop) (E : TreasuryState → Prop)
    (s : TreasuryState) : Prop where
  intents : ∀ id i, s.intents.get? id = some i → Refers V i
  charges : ∀ id c, s.provider.charges.get? id = some c → V c.providerReference
  aside : E s

variable {V : String → Prop} {E : TreasuryState → Prop}

theorem Refers.moved {i : PurchaseIntent} (h : Refers V i)
    {state : TransactionState} {t : Int} {lastError : Option String} :
    Refers V { i with
      state := state
      updatedAt := t
      lastError := lastError } :=
  ⟨h.reference, h.receipt⟩

theorem Refers.referred {i : PurchaseIntent} (h : Refers V i) {r : String}
    (hr : V r) : Refers V { i with providerReference := some r } where
  reference := by
    rintro _ ⟨⟩
    exact hr
  receipt := h.receipt

theorem Refers.receipted {i : PurchaseIntent} (h : Refers V i) {t : Int} :
    Refers V (withReceipt host i t) where
  reference := h.reference
  receipt := by
    rintro _ ⟨⟩ r hr
    exact h.reference r hr

namespace Referenced

variable {s : TreasuryState}

theorem withIntent (ha : Aside E) (h : Referenced V E s) {id : String}
    {i : PurchaseIntent} (hi : Refers V i) :
    Referenced V E (s.withIntent id i) where
  intents := by
    intro id' j hj
    rw [show (s.withIntent id i).intents = s.intents.insert id i from rfl,
      SortedMap.get?_insert] at hj
    split at hj
    · cases hj
      exact hi
    · exact h.intents id' j hj
  charges := h.charges
  aside := ha.intent s id i h.aside

/-- The charges of a provider satisfy the condition. -/
theorem withProvider (ha : Aside E) (h : Referenced V E s)
    {p : SimulatedProvider}
    (hp : ∀ id c, p.charges.get? id = some c → V c.providerReference) :
    Referenced V E { s with provider := p } :=
  ⟨h.intents, hp, ha.providers s p s.manualProvider h.aside⟩

/-- A charge with a reference that satisfies the condition. -/
theorem charged (h : Referenced V E s) {id : String} {c : ProviderCharge}
    (hc : V c.providerReference) : ∀ id' c',
    (s.provider.charges.insert id c).get? id' = some c' →
      V c'.providerReference := by
  intro id' c' hget
  rw [SortedMap.get?_insert] at hget
  split at hget
  · cases hget
    exact hc
  · exact h.charges id' c' hget

end Referenced

/-! ## Records -/

theorem audit_guards (ha : Aside E) {actor action : String}
    {intentId : Option String} {policyVersion : Option Nat}
    {decision : Option String} {details : Json}
    (h : action ≠ "transaction_rate_limited") : Keeping (Referenced V E)
      (audit host actor action intentId policyVersion decision details) := by
  intro w hw
  refine wp_audit (fun _ => hw) fun _ => ⟨⟨hw.intents, hw.charges, ?_⟩, trivial⟩
  exact ha.entry _ _ h hw.aside

theorem storeIntent_guards (ha : Aside E) {id : String} {i : PurchaseIntent}
    (hi : Refers V i) : Keeping (Referenced V E) (storeIntent id i) := by
  intro w hw
  rw [wp_storeIntent]
  exact ⟨hw.withIntent ha hi, trivial⟩

theorem appendLedger_guards (ha : Aside E) {kind : LedgerEventKind}
    {amount : Money} {intentId : Option String} {source : String}
    {verified : Bool} : Keeping (Referenced V E)
      (appendLedger host kind amount intentId source verified) := by
  intro w hw
  rw [wp_appendLedger]
  exact ⟨⟨hw.intents, hw.charges, ha.events _ _ hw.aside⟩, trivial⟩

theorem put_guards (ha : Aside E) {p : SimulatedProvider}
    (hp : ∀ id c, p.charges.get? id = some c → V c.providerReference) :
    Keeping (Referenced V E) (SimulatedProvider.put p) :=
  .modifyState fun _ hs => hs.withProvider ha hp

theorem transition_guards {i : PurchaseIntent} {next : TransactionState}
    (hi : Refers V i) : Guards J (Refers V) (transition host i next) := by
  intro w hw
  exact wp_transition (fun _ => hw) fun _ => ⟨hw, hi.reference, hi.receipt⟩

theorem issueReceipt_guards {i : PurchaseIntent} (hi : Refers V i) :
    Guards J (Refers V) (issueReceipt host i) := by
  intro w hw
  exact wp_issueReceipt (fun _ => hw) fun _ _ => ⟨hw, hi.receipted⟩

theorem appendIfMissing_guards (ha : Aside E) (kind : LedgerEventKind)
    (i : PurchaseIntent) (source : TreasuryState → String) :
    Keeping (Referenced V E) (appendIfMissing host kind i source) :=
  .next .readState fun _ => .ite (.pure trivial) (appendLedger_guards ha)

theorem settleIntent_guards (ha : Aside E) {i : PurchaseIntent} {r : String}
    (hi : Refers V i) (hr : V r) :
    Guards (Referenced V E) (Refers V) (settleIntent host i r) :=
  .bind (transition_guards (hi.referred hr)) fun _ hi =>
    .bind (issueReceipt_guards hi) fun _ hi =>
      .next (.next (appendIfMissing_guards ha _ _ _) fun _ =>
        appendIfMissing_guards ha _ _ _) fun _ => .pure hi

/-! ## From a reservation to an outcome -/

theorem prepare_guards (ha : Aside E) (actor : Actor) (id : String) :
    Keeping (Referenced V E) (prepareIntentExecution host actor id) := by
  have hf := Guards.state_steady
  unfold prepareIntentExecution
  refine .bind .readState fun s hs => .next (.lift _) fun _ =>
    .next (.lift _) fun agentId => .bind (.orReject _ _) fun i hi => ?_
  refine .next (.rejectIf _ _) fun _ => .next (.lift _) fun _ =>
    .next (.lift _) fun r => .next (.lift _) fun p => ?_
  refine .next (.of_keeps (requireCurrentSession_keeps hf r i)) fun _ =>
    .next (.of_keeps (requireUnexpired_keeps hf i p)) fun _ =>
      .next (.of_keeps (decideExecution_keeps hf s agentId r p i)) fun d =>
        .next (.rejectIf _ _) fun _ => ?_
  unfold reserveFunds
  exact .bind (transition_guards (hs.intents _ _ hi)) fun _ hi =>
    .next (appendLedger_guards ha) fun _ =>
      .next (audit_guards ha (by decide)) fun _ =>
        .bind (transition_guards hi) fun _ hi => storeIntent_guards ha hi

theorem authorize_guards (ha : Aside E) (hv : Issues host V)
    (i : PurchaseIntent) :
    Keeping (Referenced V E) (providerAuthorize host i) := by
  refine .next (.record _) fun _ => .next .readState fun s => ?_
  cases s.providerMode with
  | manualPrepaidCard => exact .next (.orReject _ _) fun _ => .pure trivial
  | simulated =>
      refine .bind .readState fun s hs => ?_
      dsimp only
      split
      · exact .pure trivial
      · refine .ite (.pure trivial) (.ite (.pure trivial) (.next (.lift _)
          fun _ => .ite (.pure trivial) (.bind (.newId _) fun r hr => .ite ?_ ?_)))
        · exact .next (put_guards ha hs.charges) fun _ => .pure trivial
        · obtain ⟨n, rfl⟩ := hr
          exact .next (.lift _) fun _ =>
            .next (put_guards ha (hs.charged (hv.charged n))) fun _ =>
              .ite (.pure trivial) (.pure trivial)

theorem conclude_guards (ha : Aside E) (hv : Issues host V)
    {i : PurchaseIntent} (hi : Refers V i) (outcome : ProviderOutcome) :
    Guards (Referenced V E) (fun r => Refers V r.1)
      (concludeIntent host i outcome) := by
  cases outcome with
  | approved reference =>
      exact .bind (settleIntent_guards ha hi (hv.sanitized reference))
        fun _ hi => .pure hi
  | declined reason =>
      exact .bind (transition_guards ⟨hi.reference, hi.receipt⟩) fun _ hi =>
        .next (appendLedger_guards ha) fun _ => .pure hi
  | pending reference =>
      exact .bind (transition_guards (hi.referred (hv.sanitized reference)))
        fun _ hi => .pure hi
  | unknown reason =>
      exact .bind (transition_guards ⟨hi.reference, hi.receipt⟩) fun _ hi =>
        .pure hi

theorem apply_guards (ha : Aside E) (hv : Issues host V)
    (agentId id : String) (outcome : ProviderOutcome) :
    Keeping (Referenced V E) (applyProviderOutcome host agentId id outcome) :=
  .bind .readState fun _ hs => .bind (.lift _) fun _ hi =>
    .next (.rejectIf _ _) fun _ =>
      .bind (conclude_guards ha hv
        (hs.intents _ _ (intentForAgent_ok.mp hi).1) _) fun _ hi =>
          .next (audit_guards ha (by decide)) fun _ =>
            .next (storeIntent_guards ha hi) fun _ => .pure trivial

theorem complete_guards (ha : Aside E) (hv : Issues host V) (actor : Actor)
    (id : String) :
    Keeping (Referenced V E) (completeIntentExecution host actor id) :=
  .next .readState fun _ => .next (.lift _) fun _ => .next (.lift _) fun _ =>
    .next (.rejectIf _ _) fun _ => .next (authorize_guards ha hv _) fun _ =>
      apply_guards ha hv _ _ _

theorem quarantine_guards (ha : Aside E) (id reason : String) :
    Keeping (Referenced V E) (quarantineExecution host id reason) := by
  refine .bind .readState fun _ hs => .bind (.orReject _ _) fun i hi => ?_
  have hrefers := hs.intents _ _ hi
  refine .ite (.bind (.ite (transition_guards hrefers) (.pure hrefers))
    fun _ hi => ?_) (.pure trivial)
  exact .next (storeIntent_guards ha ⟨hi.reference, hi.receipt⟩) fun _ =>
    audit_guards ha (by decide)

theorem submitAndSave_guards (ha : Aside E) {id : String} {x : Op Json}
    (hx : Keeping (Referenced V E) x) :
    Keeping (Referenced V E) (submitAndSave host id x) := by
  refine .next (.attempt hx) fun result => ?_
  cases result with
  | ok value => exact .next .saveTo fun _ => .pure trivial
  | error e =>
      exact .next (quarantine_guards ha id _) fun _ =>
        .next .saveTo fun _ => .throw e

theorem executeIntent_guards (ha : Aside E) (hv : Issues host V)
    (actor : Actor) (id : String) :
    Keeping (Referenced V E) (executeIntent host actor id) :=
  .bind .readState fun _ hs => .next (.rejectIf _ _) fun _ =>
    .next (.orRestore hs (prepare_guards ha actor id)) fun _ =>
      .tryCatch (complete_guards ha hv actor id) fun e =>
        .next (quarantine_guards ha id _) fun _ => .throw e

theorem begin_guards (ha : Aside E) (actor : Actor) (id : String) :
    Keeping (Referenced V E) (ownerBeginManualHandoff host actor id) :=
  .next .readState fun _ => .next (.lift _) fun _ => .next (.rejectIf _ _)
    fun _ => .next (.orReject _ _) fun _ => .next (.rejectIf _ _) fun _ =>
      .next (prepare_guards ha _ _) fun _ =>
        .next (audit_guards ha (by decide)) fun _ => .next .readState fun _ =>
          .next (.orReject _ _) fun _ => .pure trivial

theorem authenticate_guards (token : String) :
    Keeping J (authenticate host token) :=
  .of_keeps (authenticate_keeps Guards.state_steady token)

theorem executePersisted_guards (ha : Aside E) (hv : Issues host V)
    (token id : String) :
    Keeping (Referenced V E) (executePersisted host token id) := by
  refine .bind .readState fun _ hs => .next (.rejectIf _ _) fun _ =>
    .next (authenticate_guards token) fun actor => ?_
  exact .next (.orRestore hs (.next (prepare_guards ha actor id) fun _ =>
    .saveTo)) fun _ => submitAndSave_guards ha (complete_guards ha hv actor id)

theorem handOver_guards (ha : Aside E) (hv : Issues host V)
    {executor : CheckoutExecutor} {auditor action agentId id : String}
    (hact : action ≠ "transaction_rate_limited") : Keeping (Referenced V E)
      (handOver host executor auditor action agentId id) :=
  .bind .readState fun _ hs =>
    .next (.orRestore hs (prepare_guards ha _ id)) fun _ =>
      .next .readState fun _ => .next (.orReject _ _) fun _ =>
        .next (audit_guards ha hact) fun _ => .next .saveTo fun _ =>
          submitAndSave_guards ha (.next (.record _) fun _ =>
            .next (.lift _) fun _ => apply_guards ha hv _ _ _)

theorem controlled_guards (ha : Aside E) (hv : Issues host V)
    {token id : String} {executor : CheckoutExecutor} :
    Keeping (Referenced V E)
      (executeControlledCheckoutPersisted host token id executor) :=
  .next .readState fun _ => .next (authenticate_guards _) fun _ =>
    .next (.lift _) fun _ => .next (.orReject _ _) fun _ =>
      .next (.rejectIf _ _) fun _ => .next (.orReject _ _) fun _ =>
        .next (.rejectIf _ _) fun _ => .next (.rejectIf _ _) fun _ =>
          .next (.lift _) fun _ => handOver_guards ha hv (by decide)

theorem handoff_guards (ha : Aside E) (hv : Issues host V)
    {token id : String} {executor : CheckoutExecutor} :
    Keeping (Referenced V E)
      (ownerExecuteApprovedHandoffPersisted host token id executor) :=
  .next .readState fun _ => .next (authenticate_guards _) fun _ =>
    .next (.lift _) fun _ => .next (.rejectIf _ _) fun _ =>
      .next (.orReject _ _) fun _ => .next (.rejectIf _ _) fun _ =>
        .next (.lift _) fun _ => handOver_guards ha hv (by decide)

/-! ## Reconciliation -/

theorem settlePending_guards (ha : Aside E) (hv : Issues host V)
    (i : PurchaseIntent) :
    Guards (Referenced V E) V (SimulatedProvider.settlePending host i) := by
  refine .bind .readState fun s hs => .next (.orReject _ _) fun amount =>
    .next (put_guards ha hs.charges) fun _ => .next (.lift _) fun balance =>
      .bind (.newId _) fun r hr => ?_
  obtain ⟨n, rfl⟩ := hr
  exact .next (put_guards ha (hs.charged (hv.charged n))) fun _ =>
    .pure (hv.charged n)

theorem refund_guards (ha : Aside E) (id : String) :
    Keeping (Referenced V E) (SimulatedProvider.refund id) := by
  refine .bind .readState fun s hs => .bind (.orReject _ _) fun c hc =>
    .next (.rejectIf _ _) fun _ => ?_
  have hcharge : V { c with refunded := true }.providerReference :=
    hs.charges id c hc
  have hcharges : ∀ id' c', (s.provider.charges.insert id
      { c with refunded := true }).get? id' = some c' → V c'.providerReference :=
    hs.charged hcharge
  exact .next (put_guards ha hcharges) fun _ => .next (.lift _) fun balance =>
    .next (put_guards ha hcharges) fun _ => .pure trivial

theorem reconcileSettled_guards (ha : Aside E) (hv : Issues host V)
    (i : PurchaseIntent) {r : String} (hr : V r) :
    Guards (Referenced V E) V
      (SimulatedProvider.reconcileSettled host i r) := by
  refine .bind .readState fun s hs => .ite (settlePending_guards ha hv i) ?_
  split
  · rename_i c hc
    have hcharge := hs.charges _ _ hc
    have hsettled : V { c with settled := true }.providerReference := hcharge
    exact .next (put_guards ha (hs.charged hsettled)) fun _ => .pure hcharge
  · exact .next (.lift _) fun available => .next (.rejectIf _ _) fun _ =>
      .next (.lift _) fun balance =>
        .next (put_guards ha (hs.charged hr)) fun _ => .pure hr

theorem reconciledReference_guards (hv : Issues host V)
    {given stored : Option String} (hg : ∀ r, given = some r → V r)
    (hst : ∀ r, stored = some r → V r) :
    Guards J V (reconciledReference host given stored) := by
  cases given with
  | some r => exact .pure (hg r rfl)
  | none =>
      cases stored with
      | some r => exact .pure (hst r rfl)
      | none =>
          intro w hw
          show wp (newId host "reconciled") _ _ w
          rw [wp_newId]
          exact ⟨hw, hv.reconciled _⟩

theorem manualBalance_guards : Keeping J manualBalance :=
  .next .readState fun _ => .next (.orReject _ _) fun _ =>
    .next (.orReject _ _) fun _ => .pure trivial

theorem putManualBalance_guards (ha : Aside E) (m : ManualPrepaidCardProvider)
    (snap : ManualBalanceSnapshot) :
    Keeping (Referenced V E) (putManualBalance m snap) :=
  .modifyState fun s hs =>
    ⟨hs.intents, hs.charges, ha.providers s s.provider _ hs.aside⟩

theorem chargeReconciled_guards (ha : Aside E) (hv : Issues host V)
    {i : PurchaseIntent} {given : Option String} (hi : Refers V i)
    (hg : ∀ r, given = some r → V r) :
    Guards (Referenced V E) V (chargeReconciled host i given) := by
  refine .next .readState fun s => ?_
  cases s.providerMode with
  | simulated =>
      exact .bind (reconciledReference_guards hv hg hi.reference) fun r hr =>
        reconcileSettled_guards ha hv i hr
  | manualPrepaidCard =>
      exact .bind (.orReject _ _) fun r hr => .next manualBalance_guards
        fun _ => .next (.rejectIf _ _) fun _ => .next (.lift _) fun _ =>
          .next .now fun _ => .next (putManualBalance_guards ha _ _) fun _ =>
            .pure (hg r hr)

theorem reconcileAsDeclined_guards (ha : Aside E) {i : PurchaseIntent}
    (hi : Refers V i) :
    Guards (Referenced V E) (Refers V) (reconcileAsDeclined host i) := by
  have hrelease : Keeping (Referenced V E) (releaseReconciled i.id) :=
    .next .readState fun _ => .ite (.bind .readState fun s hs =>
      put_guards ha hs.charges) (.pure trivial)
  exact .next .readState fun _ => .next (.rejectIf _ _) fun _ =>
    .next hrelease fun _ => .bind (transition_guards hi) fun _ hi =>
      .next (appendLedger_guards ha) fun _ => .pure hi

theorem settleForRefund_guards (ha : Aside E) {i : PurchaseIntent}
    {given : Option String} (hi : Refers V i)
    (hg : ∀ r, given = some r → V r) :
    Guards (Referenced V E) (Refers V) (settleForRefund host i given) :=
  .ite (.pure hi) (.bind (.orReject _ _) fun r hr =>
    settleIntent_guards ha hi (hg r hr))

theorem refundProvider_guards (ha : Aside E) (i : PurchaseIntent)
    (wasSettled : Bool) :
    Keeping (Referenced V E) (refundProvider host i wasSettled) := by
  refine .next .readState fun s => ?_
  cases s.providerMode with
  | simulated => exact refund_guards ha i.id
  | manualPrepaidCard =>
      exact .next manualBalance_guards fun _ => .next (.lift _) fun _ =>
        .next .now fun _ => .next (putManualBalance_guards ha _ _) fun _ =>
          .pure trivial

theorem reconcileAs_guards (ha : Aside E) (hv : Issues host V)
    {i : PurchaseIntent} {given : Option String} (hi : Refers V i)
    (hg : ∀ r, given = some r → V r) (outcome : ReconciliationOutcome) :
    Guards (Referenced V E) (Refers V) (reconcileAs host i given outcome) := by
  cases outcome with
  | settled =>
      exact .bind (chargeReconciled_guards ha hv hi hg) fun r hr =>
        settleIntent_guards ha hi hr
  | declined => exact reconcileAsDeclined_guards ha hi
  | refunded =>
      exact .bind (settleForRefund_guards ha hi hg) fun i hi =>
        .next (refundProvider_guards ha i _) fun _ =>
          .bind (transition_guards hi) fun _ hi =>
            .next (appendLedger_guards ha) fun _ => .pure hi

/-- A reference that is given passes the check. -/
theorem given_checked (hv : Issues host V) {reference given : Option String}
    (h : reference.mapM (validateProviderReference host) = .ok given) :
    ∀ r, given = some r → V r := by
  cases reference with
  | none =>
      cases h
      exact nofun
  | some t =>
      obtain ⟨u, hu, hgiven⟩ := Checks.map_eq_ok.mp h
      rintro r rfl
      cases hgiven
      exact hv.given t _ hu

theorem ownerReconcile_guards (ha : Aside E) (hv : Issues host V)
    (actor : Actor) (id : String) (outcome : ReconciliationOutcome)
    (reference : Option String) : Keeping (Referenced V E)
      (ownerReconcile host actor id outcome reference) := by
  refine .bind .readState fun s hs => .next (.lift _) fun _ =>
    .orRestore hs (.bind .readState fun s hs => .bind (.lift _) fun given hgiven =>
      .bind (.orReject _ _) fun i hi => .next (.rejectIf _ _) fun _ => ?_)
  have hrefers := hs.intents _ _ hi
  refine .bind (P := Refers V) (.ite (transition_guards hrefers) (.pure hrefers))
    fun i hi => ?_
  exact .bind (reconcileAs_guards ha hv hi (given_checked hv hgiven) outcome)
    fun _ hi => .next (storeIntent_guards ha hi) fun _ =>
      .next (audit_guards ha (by decide)) fun _ => .pure trivial

/-! ## However an execution is called -/

/-- **AN EXECUTION KEEPS** what the workflow keeps, however it is called. -/
theorem exec_guards (ha : Aside E) (hv : Issues host V) {c : Call}
    {id : String} (hc : c.attempts = some id) {w : World}
    (hw : Referenced V E w.state) :
    Referenced V E (exec host c w).state := by
  refine (wp_final (P := fun v : World => Referenced V E v.state)).mp ?_
  have hdone : ∀ {x : Op Json}, Keeping (Referenced V E) x →
      wp x (fun _ v => Referenced V E v.state) (fun _ v => Referenced V E v.state)
        w :=
    fun hx => wp_mono (hx w hw) (fun _ _ h => h.1) (fun _ _ h => h)
  have hhandle : ∀ token request, executes request = some id →
      Keeping (Referenced V E) (handle host token request) := by
    intro token request hx
    refine .next (authenticate_guards token) fun actor => ?_
    cases request with
    | executePurchaseIntent id => exact executeIntent_guards ha hv actor id
    | ownerBeginManualHandoff id => exact begin_guards ha actor id
    | _ => exact nomatch hx
  cases c with
  | request token request => exact hdone (hhandle token request hc)
  | persisted token request =>
      show wp (handlePersisted host token request) _ _ w
      cases request with
      | executePurchaseIntent id => exact hdone (executePersisted_guards ha hv token id)
      | ownerBeginManualHandoff id =>
          refine handleSaved_spec (P := fun v => Referenced V E v.state)
            (hdone (hhandle token (.ownerBeginManualHandoff id) hc))
            (fun _ h _ => h) (fun _ _ h hp => ?_) (fun _ _ _ _ => hw)
          rw [saving_state hp]
          exact h
      | _ => exact nomatch hc
  | controlled token id executor => exact hdone (controlled_guards ha hv)
  | handoff token id executor => exact hdone (handoff_guards ha hv)
  | recover => exact nomatch hc

end Treasury
