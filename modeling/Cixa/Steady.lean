import Cixa.Steps

/-! # Steady programs — what a program leaves alone, however it ends

    A program KEEPS a part of the world when the part is the same afterwards,
    whether the program returned or failed.  Sequences, guards and lookups
    keep what their lines keep.  A part is STEADY when it depends neither on
    the counters of the clock and the draws nor on the log: then readings,
    draws and stored intents keep it, and so does every decision. -/

namespace Treasury

open CixaData CixaHost Outcome

variable {host : Host} {α β γ : Type} {f : World → γ}

/-- A program that leaves a part of the world as it was. -/
def Keeps (f : World → γ) (x : Op α) : Prop :=
  ∀ w, wp x (fun _ w' => f w' = f w) (fun _ w' => f w' = f w) w

/-- A part that the clock, the draws and the log do not touch. -/
structure Steady (f : World → γ) : Prop where
  tick : ∀ w n, f { w with tick := n } = f w
  drawn : ∀ w n, f { w with drawn := n } = f w
  log : ∀ w l, f { w with log := l } = f w

/-! ## Lines and sequences -/

namespace Keeps

theorem pure (a : α) : Keeps f (Pure.pure a : Op α) := by
  intro w
  rw [wp_pure]

theorem throw (e : TreasuryError) : Keeps f (MonadExcept.throw e : Op α) := by
  intro w
  rw [wp_throw]

theorem bind {x : Op α} {g : α → Op β} (hx : Keeps f x)
    (hg : ∀ a, Keeps f (g a)) : Keeps f (x >>= g) := by
  intro w
  refine line (hx w) ?_
  intro a v hv
  exact wp_mono (hg a v) (fun _ _ h => h.trans hv) (fun _ _ h => h.trans hv)

theorem readState : Keeps f Treasury.readState := by
  intro w
  rw [wp_readState]

theorem get : Keeps f (MonadState.get : Op World) := by
  intro w
  rw [wp_get]

theorem lift (x : Except TreasuryError α) : Keeps f (Outcome.lift x) := by
  intro w
  rw [wp_lift]
  exact ⟨fun _ _ => rfl, fun _ _ => rfl⟩

theorem orReject (o : Option α) (e : TreasuryError) :
    Keeps f (Outcome.orReject o e) := by
  intro w
  rw [wp_orReject]
  exact ⟨fun _ => rfl, fun _ _ => rfl⟩

theorem rejectIf (c : Prop) [Decidable c] (e : TreasuryError) :
    Keeps f (Outcome.rejectIf c e) := by
  intro w
  rw [wp_rejectIf]
  exact ⟨fun _ => rfl, fun _ => rfl⟩

theorem ite {c : Prop} [Decidable c] {x y : Op α} (hx : Keeps f x)
    (hy : Keeps f y) : Keeps f (if c then x else y) := by
  by_cases hc : c
  · rw [if_pos hc]
    exact hx
  · rw [if_neg hc]
    exact hy

theorem modifyState {g : TreasuryState → TreasuryState}
    (hg : ∀ w : World, f { w with state := g w.state } = f w) :
    Keeps f (Treasury.modifyState g) := by
  intro w
  rw [wp_modifyState]
  exact hg w

/-! ## Readings, draws and records -/

theorem now (hf : Steady f) : Keeps f (Treasury.now host) := by
  intro w
  rw [wp_now]
  exact hf.tick w _

theorem randomHex (hf : Steady f) (n : Nat) :
    Keeps f (Treasury.randomHex host n) := by
  intro w
  rw [wp_randomHex]
  exact hf.drawn w _

theorem newId (hf : Steady f) (kind : String) :
    Keeps f (Treasury.newId host kind) := by
  intro w
  rw [wp_newId]
  exact hf.drawn w _

theorem record (hf : Steady f) (e : Event) : Keeps f (Treasury.record e) := by
  intro w
  rw [wp_record]
  exact hf.log w _

theorem storeIntent (hf : Steady f) {id : String} {i : PurchaseIntent}
    (hs : ∀ w : World, f { w with state := w.state.withIntent id i } = f w) :
    Keeps f (Treasury.storeIntent id i) :=
  .bind (.modifyState hs) fun _ => .record hf _

theorem appendLedger (hf : Steady f)
    (hs : ∀ (w : World) (e : LedgerEvent),
      f { w with state := w.state.withEvents [e] } = f w)
    {kind : LedgerEventKind} {amount : Money} {intentId : Option String}
    {source : String} {verified : Bool} :
    Keeps f (Treasury.appendLedger host kind amount intentId source verified) :=
  .bind (.newId hf _) fun _ => .bind (.now hf) fun _ =>
    .modifyState fun w => hs w _

theorem transition (hf : Steady f) (i : PurchaseIntent)
    (next : TransactionState) : Keeps f (Treasury.transition host i next) :=
  .bind (.rejectIf _ _) fun _ => .bind (.now hf) fun _ => .pure _

end Keeps

/-! ## Authentication and decisions -/

theorem authenticate_keeps (hf : Steady f) (token : String) :
    Keeps f (authenticate host token) :=
  .bind .readState fun _ => .bind (.rejectIf _ _) fun _ =>
    .ite (.pure _) (.bind (.now hf) fun _ => .bind (.orReject _ _) fun _ =>
      .pure _)

theorem usage_keeps (hf : Steady f) (s : TreasuryState)
    (agentId currency : String) : Keeps f (usage host s agentId currency) :=
  .bind (.lift _) fun _ => .bind (.now hf) fun _ => .lift _

theorem providerAvailableBalance_keeps (hf : Steady f) (s : TreasuryState) :
    Keeps f (providerAvailableBalance host s) := by
  unfold providerAvailableBalance
  cases s.providerMode with
  | simulated => exact .lift _
  | manualPrepaidCard =>
      refine .bind (.orReject _ _) fun m => .bind ?_ fun _ =>
        .bind (.lift _) fun _ => .bind (.lift _) fun _ =>
          .bind (.rejectIf _ _) fun _ => .pure _
      exact .bind (.orReject _ _) fun _ => .bind (.now hf) fun _ =>
        .bind (.rejectIf _ _) fun _ => .bind (.rejectIf _ _) fun _ => .pure _

theorem decideRequest_keeps (hf : Steady f) (s : TreasuryState)
    (r : AgentRecord) (p : Policy) (request : PurchaseRequest)
    (used : BudgetUsage) : Keeps f (decideRequest host s r p request used) := by
  have hauthority : ∀ d, Keeps f (enforceAuthority host s d request used p) :=
    fun d => .ite (.pure _) (.bind (.lift _) fun _ =>
      .bind (providerAvailableBalance_keeps hf s) fun _ =>
        .bind (.lift _) fun _ => .bind (.lift _) fun _ => .pure _)
  unfold decideRequest
  refine .bind (.lift _) fun merchant => ?_
  exact .bind (.now hf) fun _ => .bind (.lift _) fun d => hauthority d

/-- Everything a preparation checks before it reserves. -/
theorem decideExecution_keeps (hf : Steady f) (s : TreasuryState)
    (agentId : String) (r : AgentRecord) (p : Policy) (i : PurchaseIntent) :
    Keeps f (decideExecution host s agentId r p i) :=
  .bind (usage_keeps hf _ _ _) fun _ => decideRequest_keeps hf _ _ _ _ _

theorem requireCurrentSession_keeps (hf : Steady f) (r : AgentRecord)
    (i : PurchaseIntent) : Keeps f (requireCurrentSession host r i) :=
  .bind (.now hf) fun _ => .rejectIf _ _

theorem requireUnexpired_keeps (hf : Steady f) (i : PurchaseIntent)
    (p : Policy) : Keeps f (requireUnexpired host i p) :=
  .bind (.now hf) fun _ => .ite (.throw _)
    (.bind (.now hf) fun _ => .rejectIf _ _)

/-! ## The number of saves -/

theorem saves_steady : Steady World.saves :=
  ⟨fun _ _ => rfl, fun _ _ => rfl, fun _ _ => rfl⟩

theorem audit_saves {actor action : String} {intentId : Option String}
    {policyVersion : Option Nat} {decision : Option String} {details : Json} :
    Keeps World.saves
      (audit host actor action intentId policyVersion decision details) :=
  .bind .get fun _ => .bind (.rejectIf _ _) fun _ =>
    .bind (.rejectIf _ _) fun _ => .bind (.modifyState fun _ => rfl) fun _ =>
      .bind (.now saves_steady) fun _ => .modifyState fun _ => rfl

/-- Preparing an execution saves nothing. -/
theorem prepare_saves (actor : Actor) (id : String) :
    Keeps World.saves (prepareIntentExecution host actor id) := by
  have hf := saves_steady
  unfold prepareIntentExecution
  refine .bind .readState fun s => .bind (.lift _) fun _ =>
    .bind (.lift _) fun agentId => .bind (.orReject _ _) fun i => ?_
  refine .bind (.rejectIf _ _) fun _ => .bind (.lift _) fun _ =>
    .bind (.lift _) fun r => .bind (.lift _) fun p => ?_
  refine .bind (requireCurrentSession_keeps hf r i) fun _ =>
    .bind (requireUnexpired_keeps hf i p) fun _ =>
      .bind (decideExecution_keeps hf s agentId r p i) fun d =>
        .bind (.rejectIf _ _) fun _ => ?_
  unfold reserveFunds
  exact .bind (.transition hf _ _) fun _ =>
    .bind (.appendLedger hf fun _ _ => rfl) fun _ => .bind audit_saves fun _ =>
      .bind (.transition hf _ _) fun _ => .storeIntent hf fun _ => rfl

end Treasury
