import Cixa.Change

/-! # Quiet programs — reading without changing anything

    A program is QUIET when, however it ends, only the counters of the world
    moved.  Lookups, guards, clock readings and pure results are quiet, and a
    sequence of quiet programs is; so authentication, the views and every
    decision are. -/

namespace Treasury

open CixaData CixaHost Outcome

variable {host : Host} {α β : Type}

/-! ## The order of worlds -/

theorem Advance.refl (w : World) : Advance w w :=
  ⟨rfl, Nat.le_refl _, Nat.le_refl _, Nat.le_refl _⟩

theorem Advance.trans {a b c : World} (h : Advance a b) (h' : Advance b c) :
    Advance a c :=
  ⟨h'.key.trans h.key, Nat.le_trans h.tick h'.tick,
    Nat.le_trans h.drawn h'.drawn, Nat.le_trans h.saves h'.saves⟩

theorem Quiet.refl (w : World) : Quiet w w := ⟨Advance.refl w, rfl, rfl⟩

theorem Quiet.trans {a b c : World} (h : Quiet a b) (h' : Quiet b c) :
    Quiet a c :=
  ⟨h.toAdvance.trans h'.toAdvance, h'.state.trans h.state, h'.log.trans h.log⟩

/-- A program that only moves the counters. -/
structure Quietly (x : Op α) : Prop where
  run : ∀ w, wp x (fun _ w' => Quiet w w') (fun _ w' => Quiet w w') w

namespace Quietly

theorem pure (a : α) : Quietly (Pure.pure a : Op α) := ⟨fun w => by
  rw [wp_pure]
  exact Quiet.refl w⟩

theorem throw (e : TreasuryError) :
    Quietly (MonadExcept.throw e : Op α) := ⟨fun w => by
  rw [wp_throw]
  exact Quiet.refl w⟩

theorem bind {x : Op α} {f : α → Op β} (hx : Quietly x)
    (hf : ∀ a, Quietly (f a)) : Quietly (x >>= f) := ⟨fun w => by
  refine line (hx.run w) ?_
  intro a w1 h1
  exact wp_mono ((hf a).run w1) (fun _ _ h => h1.trans h)
    (fun _ _ h => h1.trans h)⟩

theorem readState : Quietly (Treasury.readState) := ⟨fun w => by
  rw [wp_readState]
  exact Quiet.refl w⟩

theorem get : Quietly (MonadState.get : Op World) := ⟨fun w => by
  rw [wp_get]
  exact Quiet.refl w⟩

theorem now : Quietly (Treasury.now host) := ⟨fun w => by
  rw [wp_now]
  exact ⟨⟨rfl, Nat.le_succ _, Nat.le_refl _, Nat.le_refl _⟩, rfl, rfl⟩⟩

theorem newId (kind : String) : Quietly (Treasury.newId host kind) :=
  ⟨fun w => by
    rw [wp_newId]
    exact ⟨⟨rfl, Nat.le_refl _, Nat.le_succ _, Nat.le_refl _⟩, rfl, rfl⟩⟩

theorem randomHex (n : Nat) : Quietly (Treasury.randomHex host n) :=
  ⟨fun w => by
    rw [wp_randomHex]
    exact ⟨⟨rfl, Nat.le_refl _, Nat.le_succ _, Nat.le_refl _⟩, rfl, rfl⟩⟩

theorem lift (x : Except TreasuryError α) : Quietly (Outcome.lift x) :=
  ⟨fun w => by
    rw [wp_lift]
    exact ⟨fun _ _ => Quiet.refl w, fun _ _ => Quiet.refl w⟩⟩

theorem orReject (o : Option α) (e : TreasuryError) :
    Quietly (Outcome.orReject o e) := ⟨fun w => by
  rw [wp_orReject]
  exact ⟨fun _ => Quiet.refl w, fun _ _ => Quiet.refl w⟩⟩

theorem rejectIf (c : Prop) [Decidable c] (e : TreasuryError) :
    Quietly (Outcome.rejectIf c e) := ⟨fun w => by
  rw [wp_rejectIf]
  exact ⟨fun _ => Quiet.refl w, fun _ => Quiet.refl w⟩⟩

theorem ite {c : Prop} [Decidable c] {x y : Op α} (hx : Quietly x)
    (hy : Quietly y) : Quietly (if c then x else y) := by
  by_cases hc : c
  · rw [if_pos hc]
    exact hx
  · rw [if_neg hc]
    exact hy

end Quietly

/-- What a quiet line does to the rest of a program. -/
theorem line_quiet {x : Op α} {f : α → Op β} {Q : β → World → Prop}
    {E : TreasuryError → World → Prop} {w : World} (hx : Quietly x)
    (hE : ∀ e w', Quiet w w' → E e w')
    (hf : ∀ a w', Quiet w w' → wp (f a) Q E w') : wp (x >>= f) Q E w :=
  line (wp_mono (hx.run w) (fun _ _ h => h) (fun e w' h => hE e w' h)) hf

/-! ## Authentication, usage and decisions -/

theorem authenticate_quietly (token : String) :
    Quietly (authenticate host token) :=
  .bind .readState fun _ => .bind (.rejectIf _ _) fun _ =>
    .ite (.pure _) (.bind .now fun _ => .bind (.orReject _ _) fun _ => .pure _)

theorem usage_quietly (s : TreasuryState) (agentId currency : String) :
    Quietly (usage host s agentId currency) :=
  .bind (.lift _) fun _ => .bind .now fun _ => .lift _

theorem manualAvailable_quietly (m : ManualPrepaidCardProvider) :
    Quietly (m.availableBalance host) :=
  .bind (.orReject _ _) fun _ => .bind .now fun _ =>
    .bind (.rejectIf _ _) fun _ => .bind (.rejectIf _ _) fun _ => .pure _

theorem providerAvailableBalance_quietly (s : TreasuryState) :
    Quietly (providerAvailableBalance host s) := by
  unfold providerAvailableBalance
  cases s.providerMode with
  | simulated => exact .lift _
  | manualPrepaidCard =>
      exact .bind (.orReject _ _) fun m => .bind (manualAvailable_quietly m)
        fun _ => .bind (.lift _) fun _ => .bind (.lift _) fun _ =>
          .bind (.rejectIf _ _) fun _ => .pure _

theorem enforceAuthority_quietly (s : TreasuryState) (d : PolicyDecision)
    (request : PurchaseRequest) (used : BudgetUsage) (p : Policy) :
    Quietly (enforceAuthority host s d request used p) :=
  .ite (.pure _) (.bind (.lift _) fun _ =>
    .bind (providerAvailableBalance_quietly s) fun _ => .bind (.lift _) fun _ =>
      .bind (.lift _) fun _ => .pure _)

theorem decideRequest_quietly (s : TreasuryState) (r : AgentRecord) (p : Policy)
    (request : PurchaseRequest) (used : BudgetUsage) :
    Quietly (decideRequest host s r p request used) := by
  unfold decideRequest
  refine .bind (.lift _) fun merchant => ?_
  refine .bind .now fun _ => ?_
  refine .bind (.lift _) fun d => ?_
  exact enforceAuthority_quietly s d request used p

theorem decideExecution_quietly (s : TreasuryState) (agentId : String)
    (r : AgentRecord) (p : Policy) (i : PurchaseIntent) :
    Quietly (decideExecution host s agentId r p i) :=
  .bind (usage_quietly _ _ _) fun _ => decideRequest_quietly _ _ _ _ _

theorem requireArmedSession_quietly (s : TreasuryState) (r : AgentRecord) :
    Quietly (requireArmedSession host s r) :=
  .ite (.pure _) (.bind .now fun _ => .rejectIf _ _)

theorem sessionExpiry_quietly (s : TreasuryState) (ttl : Int) :
    Quietly (sessionExpiry host s ttl) :=
  .ite (.pure _) (.bind .now fun _ => .pure _)

theorem tokenFor_quietly (token : Option String) :
    Quietly (tokenFor host token) := by
  cases token with
  | none => exact .randomHex _
  | some t => exact .pure _

/-! ## Views -/

theorem evidence_quietly (s : TreasuryState) :
    Quietly (providerBalanceEvidence host s) := by
  unfold providerBalanceEvidence
  cases s.providerMode with
  | simulated => exact .pure _
  | manualPrepaidCard =>
      cases manualSnapshot s with
      | none => exact .pure _
      | some snapshot => exact .bind .now fun _ => .pure _

theorem getStatus_quietly (actor : Actor) : Quietly (getStatus actor) := by
  refine .bind .readState fun s => ?_
  cases actor with
  | owner => exact .pure _
  | agent id => exact .bind (.lift _) fun _ => .bind (.lift _) fun _ => .pure _

theorem getCapabilities_quietly (actor : Actor) :
    Quietly (getCapabilities actor) :=
  .bind .readState fun _ => .bind (.lift _) fun _ => .bind (.lift _) fun _ =>
    .pure _

theorem getBudget_quietly (actor : Actor) : Quietly (getBudget host actor) :=
  .bind .readState fun _ => .bind (.lift _) fun _ => .bind (.lift _) fun _ =>
    .bind (.lift _) fun _ => .bind (usage_quietly _ _ _) fun _ =>
      .bind (.lift _) fun _ => .bind (.lift _) fun _ => .bind (.lift _) fun _ =>
        .bind (.lift _) fun _ => .bind (.lift _) fun _ =>
          .bind (evidence_quietly _) fun _ => .pure _

theorem getReceiveInstructions_quietly (actor : Actor) :
    Quietly (getReceiveInstructions actor) :=
  .bind .readState fun _ => .bind (.lift _) fun _ =>
    .bind (.orReject _ _) fun _ => .pure _

theorem dashboardAgent_quietly (s : TreasuryState) (r : AgentRecord) :
    Quietly (dashboardAgent host s r) :=
  .bind (.lift _) fun _ => .bind (usage_quietly _ _ _) fun _ =>
    .bind (.lift _) fun _ => .bind (.lift _) fun _ => .bind (.lift _) fun _ =>
      .pure _

theorem viewAll_quietly {view : α → Op Json} (h : ∀ a, Quietly (view a))
    (l : List α) : Quietly (viewAll view l) := by
  induction l with
  | nil => exact .pure _
  | cons a rest ih => exact .bind (h a) fun _ => .bind ih fun _ => .pure _

theorem ownerGetDashboard_quietly (actor : Actor) :
    Quietly (ownerGetDashboard host actor) :=
  .bind .readState fun s => .bind (.lift _) fun _ =>
    .bind (viewAll_quietly (dashboardAgent_quietly s) _) fun _ =>
      .bind (.lift _) fun _ => .bind (evidence_quietly _) fun _ => .pure _

theorem getIntent_quietly (actor : Actor) (id : String) :
    Quietly (getIntent actor id) :=
  .bind .readState fun _ => .bind (.lift _) fun _ => .pure _

theorem getReceipt_quietly (actor : Actor) (id : String) :
    Quietly (getReceipt host actor id) :=
  .bind .readState fun _ => .bind (.lift _) fun _ =>
    .bind (.orReject _ _) fun _ => .bind (.rejectIf _ _) fun _ => .pure _

theorem listTransactionsPage_quietly (actor : Actor) (cursor : Option String)
    (limit : Nat) : Quietly (listTransactionsPage actor cursor limit) :=
  .bind .readState fun _ => .bind (.lift _) fun _ => .lift _

theorem ownerListTransactionsPage_quietly (actor : Actor)
    (cursor : Option String) (limit : Nat) :
    Quietly (ownerListTransactionsPage actor cursor limit) :=
  .bind .readState fun _ => .bind (.lift _) fun _ => .lift _

theorem ownerListAudit_quietly (actor : Actor) :
    Quietly (ownerListAudit host actor) :=
  .bind .get fun _ => .bind (.lift _) fun _ => .pure _

theorem ownerListAuditRecent_quietly (actor : Actor) :
    Quietly (ownerListAuditRecent host actor) :=
  .bind .get fun _ => .bind (.lift _) fun _ => .pure _

theorem ownerListAuditPage_quietly (actor : Actor) (cursor : Option Nat)
    (limit : Nat) : Quietly (ownerListAuditPage host actor cursor limit) :=
  .bind .get fun _ => .bind (.lift _) fun _ => .bind (.lift _) fun _ => .pure _

/-- **READ-ONLY REQUESTS ARE QUIET.** -/
theorem dispatch_quietly {actor : Actor} {request : Request}
    (h : request.isReadOnly = true) : Quietly (dispatch host actor request) := by
  cases request with
  | getStatus => exact getStatus_quietly actor
  | getCapabilities => exact getCapabilities_quietly actor
  | getBudget => exact getBudget_quietly actor
  | getReceiveInstructions => exact getReceiveInstructions_quietly actor
  | ownerGetDashboard => exact ownerGetDashboard_quietly actor
  | getPurchaseIntent id => exact getIntent_quietly actor id
  | listTransactions => exact listTransactionsPage_quietly actor none 25
  | listTransactionsPage cursor limit =>
      exact listTransactionsPage_quietly actor cursor limit
  | ownerListTransactionsPage cursor limit =>
      exact ownerListTransactionsPage_quietly actor cursor limit
  | getReceipt id => exact getReceipt_quietly actor id
  | ownerListAudit => exact ownerListAudit_quietly actor
  | ownerListAuditRecent => exact ownerListAuditRecent_quietly actor
  | ownerListAuditPage cursor limit =>
      exact ownerListAuditPage_quietly actor cursor limit
  | _ => exact nomatch h

end Treasury
