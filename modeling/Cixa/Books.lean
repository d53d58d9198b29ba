import Cixa.Requests

/-! # Books — reconciliation, deposits and configuration

    The requests that change a provider together with the ledger.  A
    reconciliation changes the provider, appends the events and stores the
    intent as ONE change: whatever fails on the way, the state before the
    request is put back.  A deposit credits the provider and appends its
    events as one change too. -/

namespace Treasury

open CixaData CixaHost Outcome Transition

variable {host : Host} {w : World} {α : Type} {arm : Arm}

/-! ## Provider effects -/

theorem ManualStep.widen {a b c d : World} {total : Money}
    {m m' : ManualPrepaidCardProvider} (h : ManualStep host b c total arm m m')
    (hab : Advance a b) (hcd : Advance c d) :
    ManualStep host a d total arm m m' := by
  cases h with
  | debit hs hle hb ht => exact .debit hs hle hb (ht.widen hab hcd)
  | credit hs hb ht => exact .credit hs hb (ht.widen hab hcd)
  | touch hs ht => exact .touch hs (ht.widen hab hcd)

theorem Effect.widen {a b c d : World} {i : PurchaseIntent}
    {s s' : TreasuryState} (h : Effect host b c i arm s s')
    (hab : Advance a b) (hcd : Advance c d) : Effect host a d i arm s s' := by
  cases h with
  | none hm => exact .none hm
  | simulated hm h ht => exact .simulated hm h ht
  | manual hm hp h => exact .manual hm hp (h.widen hab hcd)

/-- A provider effect does not see the ledger. -/
theorem Effect.withEvents {a b : World} {i : PurchaseIntent}
    {s s' : TreasuryState} {events : List LedgerEvent}
    (h : Effect host a b i arm (s.withEvents events) s') :
    ∃ s'', Effect host a b i arm s s'' ∧ s' = s''.withEvents events := by
  cases h with
  | none hm => exact ⟨s, .none hm, rfl⟩
  | simulated hm h ht => exact ⟨_, .simulated hm h ht, rfl⟩
  | manual hm hp h => exact ⟨_, .manual hm hp h, rfl⟩

/-- An effect depends on the intent's id and total only. -/
theorem Effect.congr {a b : World} {i j : PurchaseIntent}
    {s s' : TreasuryState} (h : Effect host a b j arm s s') (hid : j.id = i.id)
    (hreq : j.request = i.request) : Effect host a b i arm s s' := by
  cases h with
  | none hm => exact .none hm
  | manual hm hp h => exact .manual hm hp (hreq ▸ h)
  | simulated hm h ht =>
      refine .simulated hm ?_ ht
      cases h with
      | hold h1 h2 h3 =>
          rw [hid, hreq]
          exact .hold (hid ▸ h1) h2 (hreq ▸ h3)
      | charge h1 h2 h3 h4 =>
          unfold SimulatedProvider.chargeFor
          rw [hid, hreq]
          exact .charge (hid ▸ h1) h2 (hreq ▸ h3) (hreq ▸ h4)
      | settleHold h1 h2 =>
          unfold SimulatedProvider.chargeFor
          rw [hid]
          exact .settleHold (hid ▸ h1) h2
      | confirm h1 h2 =>
          rw [hid]
          exact .confirm (hid ▸ h1) (hid ▸ h2)
      | release h1 =>
          rw [hid]
          exact .release (hid ▸ h1)
      | refund h1 h2 h3 =>
          rw [hid]
          exact .refund (hid ▸ h1) h2 h3

/-- Nothing was logged, so the state can be put back. -/
structure Undoable (w w' : World) : Prop extends Advance w w' where
  log : w'.log = w.log

theorem Quiet.undoable {w' : World} (h : Quiet w w') : Undoable w w' :=
  ⟨h.toAdvance, h.log⟩

theorem Undoable.trans {a b c : World} (h : Undoable a b) (h' : Undoable b c) :
    Undoable a c := ⟨h.toAdvance.trans h'.toAdvance, h'.log.trans h.log⟩

/-- The provider changed and nothing else. -/
structure Affected (host : Host) (i : PurchaseIntent) (arm : Arm)
    (w w' : World) : Prop extends Undoable w w' where
  effect : Effect host w w' i arm w.state w'.state

/-! ## Charging and refunding -/

/-- A reconciled settlement charges the simulated provider. -/
theorem reconcileSettled_spec {i : PurchaseIntent} {reference : String}
    (hm : w.state.providerMode = .simulated) :
    wp (SimulatedProvider.reconcileSettled host i reference)
      (fun _ w' => Affected host i .charge w w') (fun _ w' => Undoable w w') w := by
  unfold SimulatedProvider.reconcileSettled SimulatedProvider.settlePending
    SimulatedProvider.put
  rw [wp_bind, wp_readState]
  dsimp only
  rw [wp_ite]
  constructor
  · intro hheld
    rw [wp_bind, wp_readState]
    refine line_orReject (fun _ => (Quiet.refl w).undoable) fun amount hh => ?_
    rw [wp_bind, wp_modifyState]
    refine line_lift (fun _ => ⟨⟨rfl, Nat.le_refl _, Nat.le_refl _,
      Nat.le_refl _⟩, rfl⟩) fun balance hb => ?_
    rw [wp_bind, wp_newId, wp_bind, wp_modifyState, wp_pure]
    exact ⟨⟨⟨rfl, Nat.le_refl _, Nat.le_succ _, Nat.le_refl _⟩, rfl⟩,
      .simulated hm (.settleHold hh hb) rfl⟩
  intro hfree
  have hnone : w.state.provider.holds.get? i.id = none := by
    cases hget : w.state.provider.holds.get? i.id with
    | none => rfl
    | some amount =>
        exact absurd (SortedMap.contains_iff.mpr ⟨amount, hget⟩) hfree
  cases hc : w.state.provider.charges.get? i.id with
  | some charge =>
      dsimp only
      rw [wp_bind, wp_modifyState, wp_pure]
      exact ⟨⟨⟨rfl, Nat.le_refl _, Nat.le_refl _, Nat.le_refl _⟩, rfl⟩,
        .simulated hm (.confirm hnone hc) rfl⟩
  | none =>
      dsimp only
      have h0 := (Quiet.refl w).undoable
      refine line_lift (fun _ => h0) fun available ha => ?_
      refine line_rejectIf (fun _ => h0) fun hle => ?_
      refine line_lift (fun _ => h0) fun balance hb => ?_
      rw [wp_bind, wp_modifyState, wp_pure]
      exact ⟨⟨⟨rfl, Nat.le_refl _, Nat.le_refl _, Nat.le_refl _⟩, rfl⟩,
        .simulated hm (.charge hc ha (not_lt.mp hle) hb) rfl⟩

theorem manualBalance_spec :
    wp (manualBalance) (fun b w' => w' = w
        ∧ w.state.manualProvider = some b.1 ∧ b.1.balanceSnapshot = some b.2)
      (fun _ w' => w' = w) w := by
  unfold manualBalance
  rw [wp_bind, wp_readState]
  refine line_orReject (fun _ => rfl) fun m hm => ?_
  refine line_orReject (fun _ => rfl) fun snap hs => ?_
  rw [wp_pure]
  exact ⟨rfl, hm, hs⟩

theorem reconciledReference_quietly (given stored : Option String) :
    Quietly (reconciledReference host given stored) := by
  cases given with
  | some r => exact .pure _
  | none =>
      cases stored with
      | some r => exact .pure _
      | none => exact .newId _

/-- **CHARGING** for an intent found settled. -/
theorem chargeReconciled_spec {i : PurchaseIntent}
    {reference : Option String} :
    wp (chargeReconciled host i reference)
      (fun _ w' => Affected host i .charge w w') (fun _ w' => Undoable w w') w := by
  have h0 := (Quiet.refl w).undoable
  unfold chargeReconciled
  rw [wp_bind, wp_readState]
  cases hm : w.state.providerMode with
  | simulated =>
      refine line_quiet (reconciledReference_quietly _ _)
        (fun _ _ h => h.undoable) fun r a ha => ?_
      refine wp_mono (reconcileSettled_spec (ha.state ▸ hm)) ?_ ?_
      · rintro _ w' ⟨hu, he⟩
        exact ⟨ha.undoable.trans hu, ha.state ▸ he.widen ha.toAdvance
          (Advance.refl w')⟩
      · exact fun _ _ hu => ha.undoable.trans hu
  | manualPrepaidCard =>
      refine line_orReject (fun _ => h0) fun r _ => ?_
      refine line (wp_mono manualBalance_spec (fun _ _ h => h)
        (fun _ _ h => h ▸ h0)) ?_
      rintro ⟨m, snap⟩ _ ⟨rfl, hp, hs⟩
      refine line_rejectIf (fun _ => h0) fun hle => ?_
      refine line_lift (fun _ => h0) fun amount hb => ?_
      unfold putManualBalance
      rw [wp_bind, wp_now, wp_bind, wp_modifyState, wp_pure]
      refine ⟨⟨⟨rfl, Nat.le_succ _, Nat.le_refl _, Nat.le_refl _⟩, rfl⟩,
        .manual hm hp (.debit hs (not_lt.mp hle) hb ?_)⟩
      exact .next (Nat.le_refl _) (Nat.lt_succ_self _)

/-- **REFUNDING** takes the amount back from the provider in force. -/
theorem refundProvider_spec {i : PurchaseIntent} {wasSettled : Bool} :
    wp (refundProvider host i wasSettled)
      (fun amount w' => Affected host i (.repay wasSettled) w w'
        ∧ RefundAmount w.state i amount)
      (fun _ w' => Undoable w w') w := by
  have h0 := (Quiet.refl w).undoable
  unfold refundProvider
  rw [wp_bind, wp_readState]
  cases hm : w.state.providerMode with
  | simulated =>
      show wp (SimulatedProvider.refund i.id) _ _ w
      unfold SimulatedProvider.refund SimulatedProvider.put
      rw [wp_bind, wp_readState]
      refine line_orReject (fun _ => h0) fun charge hc => ?_
      refine line_rejectIf (fun _ => h0) fun hr => ?_
      rw [wp_bind, wp_modifyState]
      refine line_lift (fun _ => ⟨⟨rfl, Nat.le_refl _, Nat.le_refl _,
        Nat.le_refl _⟩, rfl⟩) fun balance hb => ?_
      rw [wp_bind, wp_modifyState, wp_pure]
      exact ⟨⟨⟨⟨rfl, Nat.le_refl _, Nat.le_refl _, Nat.le_refl _⟩, rfl⟩,
        .simulated hm (.refund hc (by simpa using hr) hb) rfl⟩,
        .simulated hm hc⟩
  | manualPrepaidCard =>
      refine line (wp_mono manualBalance_spec (fun _ _ h => h)
        (fun _ _ h => h ▸ h0)) ?_
      rintro ⟨m, snap⟩ _ ⟨rfl, hp, hs⟩
      refine line_lift (fun _ => h0) fun amount hb => ?_
      unfold putManualBalance
      rw [wp_bind, wp_now, wp_bind, wp_modifyState, wp_pure]
      refine ⟨⟨⟨⟨rfl, Nat.le_succ _, Nat.le_refl _, Nat.le_refl _⟩, rfl⟩, ?_⟩,
        .manual hm⟩
      refine .manual hm hp ?_
      cases wasSettled with
      | true => exact .credit hs hb (.next (Nat.le_refl _) (Nat.lt_succ_self _))
      | false =>
          obtain rfl := Checks.pure_eq_ok.mp hb
          exact .touch hs (.next (Nat.le_refl _) (Nat.lt_succ_self _))

/-! ## Reconciling -/

section Reconciling

variable {base i : PurchaseIntent} {state : TransactionState} {t : Int}

theorem Reconciled.widen {a b c d : World} {s : TreasuryState}
    {i' : PurchaseIntent} {outcome : ReconciliationOutcome}
    {events : List LedgerEvent}
    (h : Reconciled host b c s base outcome i' events) (hab : Advance a b)
    (hcd : Advance c d) : Reconciled host a d s base outcome i' events := by
  cases h with
  | settled hu hi he => exact .settled hu (hi.widen hab hcd) (he.widen hab hcd)
  | declined hu ht he => exact .declined hu (ht.widen hab hcd) (he.widen hab hcd)
  | refunded hu hi he ht ha hr =>
      exact .refunded hu (hi.widen hab hcd) (he.widen hab hcd)
        (ht.widen hab hcd) ha (hr.widen hab hcd)
  | refundedLater hu ht ha hr =>
      exact .refundedLater hu (ht.widen hab hcd) ha (hr.widen hab hcd)

/-- Settling depends on the ledger of the state only. -/
theorem Settling.ofLedger {a b : World} {s s' : TreasuryState}
    {events : List LedgerEvent} (h : Settling host a b s i events)
    (hs : s'.ledger = s.ledger) : Settling host a b s' i events := by
  have hsame : ∀ kind, hasEvent s' i.id kind = hasEvent s i.id kind := by
    intro kind
    unfold hasEvent
    rw [hs]
  obtain ⟨hr, hset⟩ := h
  rw [← hsame] at hr hset
  exact .mk hr hset

/-- What an intent is settled to does not depend on its state. -/
theorem SettledIn.ofBase {a b : World} {i' : PurchaseIntent}
    (h : SettledIn host a b i i')
    (hi : i = { base with state := state, updatedAt := t }) :
    SettledIn host a b base i' := by
  subst hi
  exact ⟨h.receipt, h.receiptHash, h.shape⟩

/-- The provider, the events and the intent after a reconciliation. -/
structure Booked (host : Host) (base : PurchaseIntent)
    (outcome : ReconciliationOutcome) (w : World) (i' : PurchaseIntent)
    (w' : World) : Prop extends Undoable w w' where
  booked : ∃ s events, Reconciled host w w' w.state base outcome i' events
    ∧ Effect host w w' base (armOf base.state outcome) w.state s
    ∧ w'.state = s.withEvents events

theorem Effect.ledger {a b : World} {s s' : TreasuryState}
    (h : Effect host a b i arm s s') : s'.ledger = s.ledger := by
  obtain ⟨_, _, heq⟩ := h.fields
  rw [heq]

theorem reconcileAsSettled_spec {reference : Option String}
    (hi : i = { base with state := state, updatedAt := t })
    (hu : isUncertain base.state = true) :
    wp (reconcileAsSettled host i reference)
      (fun i' w' => Booked host base .settled w i' w')
      (fun _ w' => Undoable w w') w := by
  have hid : i.id = base.id := by rw [hi]
  have hreq : i.request = base.request := by rw [hi]
  unfold reconcileAsSettled
  refine line chargeReconciled_spec fun r a ha => ?_
  refine wp_mono (settle_spec i r) ?_ ?_
  · rintro i' w' ⟨events, hadv, hlog, hs, hj, hset⟩
    have hset' := (hset.congr hid hreq).ofLedger ha.effect.ledger.symm
    exact ⟨ha.trans ⟨hadv, hlog⟩, _, events, .settled hu
      ((hj.ofBase hi).widen ha.toAdvance (Advance.refl w'))
      (hset'.widen ha.toAdvance (Advance.refl w')),
      (ha.effect.congr hid hreq).widen (Advance.refl w) hadv, hs⟩
  · exact fun _ _ hq => ha.trans hq.undoable

theorem reconcileAsDeclined_spec
    (hi : i = { base with state := state, updatedAt := t })
    (hu : isUncertain base.state = true) :
    wp (reconcileAsDeclined host i)
      (fun i' w' => Booked host base .declined w i' w')
      (fun _ w' => Undoable w w') w := by
  have hid : i.id = base.id := by rw [hi]
  have hreq : i.request = base.request := by rw [hi]
  unfold reconcileAsDeclined
  rw [wp_bind, wp_readState]
  refine line_rejectIf (fun _ => (Quiet.refl w).undoable) fun hcharge => ?_
  -- the hold at the provider is released, if there is one to release
  refine line (P := fun _ a => Affected host i .release w a) (wp_mono
    (Q := fun _ a => Affected host i .release w a)
    (E := fun _ a => Affected host i .release w a) ?_
    (fun _ _ h => h) (fun _ _ h => h.toUndoable)) ?_
  · unfold releaseReconciled
    rw [wp_bind, wp_readState, wp_ite, wp_pure]
    constructor
    · intro hm
      unfold SimulatedProvider.releaseHold SimulatedProvider.put
      rw [wp_bind, wp_readState]
      dsimp only
      rw [wp_modifyState]
      refine ⟨⟨⟨rfl, Nat.le_refl _, Nat.le_refl _, Nat.le_refl _⟩, rfl⟩,
        .simulated hm (.release ?_) rfl⟩
      cases hget : w.state.provider.charges.get? i.id with
      | none => rfl
      | some c =>
          exact absurd ⟨hm, SortedMap.contains_iff.mpr ⟨c, hget⟩⟩ hcharge
    · intro hm
      refine ⟨(Quiet.refl w).undoable, .none ?_⟩
      cases hmode : w.state.providerMode with
      | simulated => exact absurd hmode hm
      | manualPrepaidCard => rfl
  intro _ a ha
  rw [wp_bind]
  refine wp_transition (fun _ => ha.toUndoable) fun _ => ?_
  rw [wp_bind, wp_appendLedger, wp_pure]
  have htick := ha.tick
  rw [hreq, hid]
  refine ⟨⟨ha.toAdvance.trans ⟨rfl, Nat.le_add_right _ 2, Nat.le_succ _,
    Nat.le_refl _⟩, ha.log⟩, _, _, ?_, (ha.effect.congr hid hreq).widen
      (Advance.refl w) ⟨rfl, Nat.le_add_right _ 2, Nat.le_succ _,
        Nat.le_refl _⟩, rfl⟩
  subst hi
  refine .declined hu ⟨a.tick, htick, ?_, rfl⟩ (.next ⟨?_, Nat.lt_succ_self _⟩
    ⟨ha.drawn, Nat.lt_succ_self _⟩)
  · show a.tick < a.tick + 1 + 1
    omega
  · show w.tick ≤ a.tick + 1
    omega

/-- The last steps of a refund: the provider, the state and the event. -/
theorem refundTail_spec {i' : PurchaseIntent} {wasSettled : Bool} {a : World}
    {events : List LedgerEvent} (hid : i'.id = base.id)
    (hreq : i'.request = base.request)
    (hwas : wasSettled = decide (base.state = .settled)) (ha : Undoable w a)
    (hs : a.state = w.state.withEvents events)
    (hbook : ∀ w' t amount e, Advance a w' → ReadIn host w w' t →
      RefundAmount w.state base amount →
      EventIn host w w' .refund amount (some i'.id) e →
      Reconciled host w w' w.state base .refunded
        { i' with state := .refunded, updatedAt := t } (events ++ [e])) :
    wp (do
        let refund ← refundProvider host i' wasSettled
        let intent ← transition host i' .refunded
        appendLedger host .refund refund (some intent.id)
          "owner_reconciliation" true
        pure intent)
      (fun i'' w' => Booked host base .refunded w i'' w')
      (fun _ w' => Undoable w w') a := by
  refine line (wp_mono refundProvider_spec (fun _ _ h => h)
    (fun _ _ h => ha.trans h)) ?_
  rintro amount b ⟨hb, hamount⟩
  rw [wp_bind]
  refine wp_transition (fun _ => ha.trans hb.toUndoable) fun _ => ?_
  rw [wp_bind, wp_appendLedger, wp_pure]
  have hab := ha.trans hb.toUndoable
  have htick := hab.tick
  -- what was booked so far did not touch the charge
  have hamount' : RefundAmount w.state base amount := by
    rw [hs] at hamount
    cases hamount with
    | simulated hm hc => exact .simulated hm (hid ▸ hc)
    | manual hm =>
        rw [hreq]
        exact .manual hm
  obtain ⟨s, heff, hstate⟩ := Effect.withEvents (hs ▸ hb.effect)
  refine ⟨⟨hab.toAdvance.trans ⟨rfl, Nat.le_add_right _ 2, Nat.le_succ _,
    Nat.le_refl _⟩, hab.log⟩, s, _, hbook _ _ amount ?_ ?_ ?_ hamount' ?_,
    ?_, ?_⟩
  · exact eventOf host { b with tick := b.tick + 1 } .refund amount
      (some i'.id) "owner_reconciliation" true
  · exact hb.toAdvance.trans ⟨rfl, Nat.le_add_right _ 2, Nat.le_succ _,
      Nat.le_refl _⟩
  · refine ⟨b.tick, htick, ?_, rfl⟩
    show b.tick < b.tick + 1 + 1
    omega
  · refine .next ⟨?_, Nat.lt_succ_self _⟩ ⟨hab.drawn, Nat.lt_succ_self _⟩
    show w.tick ≤ b.tick + 1
    omega
  · rw [armOf, ← hwas]
    exact (heff.congr hid hreq).widen ha.toAdvance ⟨rfl, Nat.le_add_right _ 2,
      Nat.le_succ _, Nat.le_refl _⟩
  · show b.state.withEvents _ = _
    rw [hstate]
    unfold TreasuryState.withEvents
    rw [List.append_assoc]

theorem reconcileAsRefunded_spec {reference : Option String}
    (hi : i = { base with state := state, updatedAt := t })
    (hu : (isUncertain base.state = true ∧ i.state ≠ .settled)
      ∨ (base.state = .settled ∧ i = base)) :
    wp (reconcileAsRefunded host i reference)
      (fun i' w' => Booked host base .refunded w i' w')
      (fun _ w' => Undoable w w') w := by
  have hid : i.id = base.id := by rw [hi]
  have hreq : i.request = base.request := by rw [hi]
  have h0 := (Quiet.refl w).undoable
  unfold reconcileAsRefunded settleForRefund
  rcases hu with ⟨hu, hne⟩ | ⟨hset, rfl⟩
  · rw [if_neg hne]
    refine line (P := fun i' a => SettledSpec host w i i' a)
      (line_orReject (fun _ => h0) fun r _ => wp_mono (settle_spec i r)
        (fun _ _ h => h) (fun _ _ h => h.undoable)) ?_
    rintro i' a ⟨events, hadv, hlog, hs, hj, hsettling⟩
    have hj' := hj.ofBase hi
    have hwas : decide (i.state = .settled) = decide (base.state = .settled) := by
      rw [decide_eq_false hne, decide_eq_false fun h => by
        rw [h] at hu
        exact nomatch hu]
    refine refundTail_spec hj'.id ?_ hwas ⟨hadv, hlog⟩ hs ?_
    · obtain ⟨_, _, _, _, _, heq⟩ := hj'.shape
      rw [heq]
      rfl
    · intro w' t amount e hw' ht hamount he
      exact .refunded hu (hj'.widen (Advance.refl w) hw')
        ((hsettling.congr hid hreq).widen (Advance.refl w) hw') ht hamount
        (hj'.id ▸ he)
  · rw [if_pos hset]
    refine line (P := fun i' a => i' = i ∧ a = w) ((wp_pure i).mpr ⟨rfl, rfl⟩) ?_
    rintro _ a ⟨rfl, rfl⟩
    refine refundTail_spec rfl rfl rfl h0 (?_ : a.state = a.state.withEvents [])
      ?_
    · simp [TreasuryState.withEvents]
    · intro w' t amount e hw' ht hamount he
      exact .refundedLater hset ht hamount he

theorem reconcileAs_spec {reference : Option String}
    {outcome : ReconciliationOutcome}
    (hi : i = { base with state := state, updatedAt := t })
    (hu : (isUncertain base.state = true ∧ i.state ≠ .settled)
      ∨ (base.state = .settled ∧ i = base ∧ outcome = .refunded)) :
    wp (reconcileAs host i reference outcome)
      (fun i' w' => Booked host base outcome w i' w')
      (fun _ w' => Undoable w w') w := by
  cases outcome with
  | settled =>
      rcases hu with ⟨hu, _⟩ | ⟨_, _, heq⟩
      · exact reconcileAsSettled_spec hi hu
      · exact nomatch heq
  | declined =>
      rcases hu with ⟨hu, _⟩ | ⟨_, _, heq⟩
      · exact reconcileAsDeclined_spec hi hu
      · exact nomatch heq
  | refunded =>
      exact reconcileAsRefunded_spec hi
        (hu.imp_right fun h => ⟨h.1, h.2.1⟩)

/-- An uncertain intent is marked for reconciliation, a settled one is not. -/
theorem enterReconciliation_spec :
    wp (enterReconciliation host base) (fun i w' => Quiet w w'
        ∧ (∃ state t, i = { base with state := state, updatedAt := t })
        ∧ (isUncertain base.state = true → i.state ≠ .settled)
        ∧ (base.state = .settled → i = base))
      (fun _ w' => Quiet w w') w := by
  unfold enterReconciliation
  rw [wp_ite, wp_pure]
  constructor
  · intro hu
    refine wp_transition (fun _ => Quiet.refl w) fun _ => ?_
    refine ⟨Quiet.readClock w, ⟨_, _, rfl⟩, nofun, fun hs => ?_⟩
    rw [hs] at hu
    exact hu.elim nofun nofun
  · intro _
    refine ⟨Quiet.refl w, ⟨_, _, rfl⟩, fun hu hs => ?_, fun _ => rfl⟩
    rw [hs] at hu
    exact nomatch hu

end Reconciling

/-- **A RECONCILIATION** is one change, or the state is put back. -/
theorem ownerReconcile_within {actor : Actor} {id : String}
    {outcome : ReconciliationOutcome} {reference : Option String}
    (hk : Keyed w.state) :
    Within host (permits actor (.ownerReconcile id outcome reference))
      (ownerReconcile host actor id outcome reference) w := by
  have hq : permits actor (.ownerReconcile id outcome reference) .quiet :=
    trivial
  have hundo : ∀ {v}, Undoable w v →
      Path host (permits actor (.ownerReconcile id outcome reference)) w
        { v with state := w.state } := fun h =>
    .quiet hq ⟨⟨h.key, h.tick, h.drawn, h.saves⟩, rfl, h.log⟩
  have h0 := (Quiet.refl w).undoable
  unfold Within ownerReconcile
  rw [wp_bind, wp_readState]
  refine line_lift (fun _ => .refl w) fun _ howner => ?_
  -- a failure from here on puts the state back, so it is quiet
  refine wp_orRestore ?_
  unfold ownerReconcileInner
  rw [wp_bind, wp_readState]
  refine line_lift (fun _ => hundo h0) fun reference' _ => ?_
  refine line_orReject (fun _ => hundo h0) fun i hi => ?_
  obtain rfl := hk _ _ hi
  refine line_rejectIf (fun _ => hundo h0) fun helig => ?_
  refine line (wp_mono enterReconciliation_spec (fun _ _ h => h)
    (fun _ _ h => hundo h.undoable)) ?_
  rintro j a ⟨ha, ⟨state, t, hj⟩, hne, hsame⟩
  refine line (wp_mono (reconcileAs_spec hj ?_) (fun _ _ h => h)
    (fun _ _ h => hundo (ha.undoable.trans h))) ?_
  · rcases not_not.mp helig with hu | ⟨hout, hset⟩
    · exact Or.inl ⟨hu, hne hu⟩
    · exact Or.inr ⟨hset, hsame hset, hout⟩
  rintro i' b ⟨hab, s, events, hrec, heff, hstate⟩
  rw [wp_bind, wp_storeIntent]
  have hwb := ha.undoable.trans hab
  have hid := hrec.id
  generalize hv : World.mk _ _ _ _ _ _ = v
  have hadv : Advance b v := by
    rw [← hv]
    exact ⟨rfl, Nat.le_refl _, Nat.le_refl _, Nat.le_refl _⟩
  have hchange : Change host (.reconcile i.id outcome) w v := by
    apply Change.reconcile
    case ha => exact hwb.toAdvance.trans hadv
    case hi => exact hi
    case hr => exact ha.state ▸ hrec.widen ha.toAdvance hadv
    case hp => exact ha.state ▸ heff.widen ha.toAdvance hadv
    case hs =>
      rw [← hv, hid]
      exact congrArg (TreasuryState.withIntent · i.id i') hstate
    case hl =>
      rw [← hv]
      exact congrArg (· ++ [Event.stored i']) hwb.log
  have hpath : Path host (permits actor (.ownerReconcile i.id outcome reference))
      w v := .single (show permits actor _ (.reconcile i.id outcome) from
        ⟨requireOwner_ok howner, rfl, rfl⟩) hchange
  rw [wp_bind]
  refine wp_audit (fun _ => .rollback (.refl w) hpath) fun hroom => ?_
  rw [wp_pure]
  have haudit : permits actor (.ownerReconcile i.id outcome reference)
      (.audit "reconcile_intent") := .head _
  exact hpath.tail haudit (.audit ⟨rfl, Nat.le_succ _,
    Nat.le_refl _, Nat.le_refl _⟩ (.next hroom rfl rfl ⟨Nat.le_refl _,
      Nat.lt_succ_self _⟩) rfl rfl)

/-! ## Deposits -/

section Deposits

variable {amount : Money} {verified : Bool}

/-- A verified deposit credits the provider in force. -/
theorem creditDeposit_spec :
    wp (creditDeposit host amount verified) (fun _ w' => Undoable w w'
        ∧ Credited host w w' amount verified w.state w'.state)
      (fun _ w' => Quiet w w') w := by
  have h0 := Quiet.refl w
  unfold creditDeposit creditProvider
  rw [wp_ite, wp_pure]
  constructor
  · rintro rfl
    rw [wp_bind, wp_readState]
    cases hm : w.state.providerMode with
    | simulated =>
        refine line_lift (fun _ => h0) fun balance hb => ?_
        unfold SimulatedProvider.put
        rw [wp_modifyState]
        exact ⟨⟨⟨rfl, Nat.le_refl _, Nat.le_refl _, Nat.le_refl _⟩, rfl⟩,
          .simulated hm hb⟩
    | manualPrepaidCard =>
        refine line (wp_mono manualBalance_spec (fun _ _ h => h)
          (fun _ _ h => h ▸ h0)) ?_
        rintro ⟨m, snap⟩ _ ⟨rfl, hp, hs⟩
        refine line_lift (fun _ => h0) fun total hb => ?_
        unfold putManualBalance
        rw [wp_bind, wp_now, wp_modifyState]
        refine ⟨⟨⟨rfl, Nat.le_succ _, Nat.le_refl _, Nat.le_refl _⟩, rfl⟩,
          .manual hm hp hs hb ?_⟩
        exact .next (Nat.le_refl _) (Nat.lt_succ_self _)
  · intro hun
    have hfalse : verified = false := by simpa using hun
    subst hfalse
    exact ⟨h0.undoable, .unverified⟩

theorem Credited.widen {a b c d : World} {s s' : TreasuryState}
    (h : Credited host b c amount verified s s') (hab : Advance a b)
    (hcd : Advance c d) : Credited host a d amount verified s s' := by
  cases h with
  | unverified => exact .unverified
  | simulated hm hb => exact .simulated hm hb
  | manual hm hp hs hb ht => exact .manual hm hp hs hb (ht.widen hab hcd)

/-- One event is appended. -/
theorem appendLedger_spec {kind : LedgerEventKind} {intentId : Option String}
    {source : String} {verified : Bool} {E : TreasuryError → World → Prop} :
    wp (appendLedger host kind amount intentId source verified) (fun _ w' =>
      ∃ e, Undoable w w' ∧ w'.state = w.state.withEvents [e]
        ∧ EventIn host w w' kind amount intentId e) E w := by
  rw [wp_appendLedger]
  exact ⟨_, ⟨⟨rfl, Nat.le_succ _, Nat.le_succ _, Nat.le_refl _⟩, rfl⟩, rfl,
    .next ⟨Nat.le_refl _, Nat.lt_succ_self _⟩
      ⟨Nat.le_refl _, Nat.lt_succ_self _⟩⟩

/-- The events of a deposit. -/
theorem depositEvents_spec {reinvested : Money} {source : String}
    {E : TreasuryError → World → Prop} :
    wp (do
        appendLedger host (incomeKind verified) amount none source verified
        appendReinvestment host reinvested) (fun _ w' => ∃ events,
      Undoable w w' ∧ w'.state = w.state.withEvents events
        ∧ DepositEvents host w w' amount reinvested verified events) E w := by
  refine line appendLedger_spec ?_
  rintro _ a ⟨e, ha, hs, he⟩
  unfold appendReinvestment
  rw [wp_ite, wp_pure]
  constructor
  · intro hpos
    refine wp_mono appendLedger_spec ?_ (fun _ _ h => h)
    rintro _ b ⟨e', hb, hs', he'⟩
    refine ⟨[e, e'], ha.trans hb, ?_, .topUp hpos
      (he.widen (Advance.refl w) hb.toAdvance)
      (he'.widen ha.toAdvance (Advance.refl b))⟩
    rw [hs', hs]
    unfold TreasuryState.withEvents
    rw [List.append_assoc]
    rfl
  · intro hz
    exact ⟨[e], ha, hs, .plain (not_lt.mp hz) he⟩

theorem DepositEvents.widen {a b c d : World} {reinvested : Money}
    {events : List LedgerEvent}
    (h : DepositEvents host b c amount reinvested verified events)
    (hab : Advance a b) (hcd : Advance c d) :
    DepositEvents host a d amount reinvested verified events := by
  cases h with
  | plain hz he => exact .plain hz (he.widen hab hcd)
  | topUp hz he he' => exact .topUp hz (he.widen hab hcd) (he'.widen hab hcd)

theorem Credited.processed {a b : World} {s s' : TreasuryState}
    (h : Credited host a b amount verified s s') :
    s'.processedDeposits = s.processedDeposits := by
  obtain ⟨_, _, heq⟩ := h.fields
  rw [heq]

/-- A deposit recorded between two worlds, under a reference that is new. -/
structure Recorded (host : Host) (amount : Money) (verified : Bool)
    (agentId : Option String) (reference : String) (w w' : World) : Prop where
  advance : Advance w w'
  log : w'.log = w.log
  positive : 0 < amount.minor
  fresh : w.state.processedDeposits.get?
    (opaqueReference host "deposit" reference) = none
  made : ∃ reinvested s events fingerprint,
    depositShare w.state amount verified agentId = .ok reinvested
    ∧ Credited host w w' amount verified w.state s
    ∧ DepositEvents host w w' amount reinvested verified events
    ∧ w'.state = { s.withEvents events with
        processedDeposits := s.processedDeposits.insert
          (opaqueReference host "deposit" reference) fingerprint }

theorem Recorded.change {agentId : Option String} {reference : String}
    {w' : World} (h : Recorded host amount verified agentId reference w w') :
    Change host .deposit w w' := by
  obtain ⟨reinvested, s, events, fingerprint, hshare, hc, he, hs⟩ := h.made
  exact .deposit h.advance h.positive hshare hc he h.fresh hs h.log

/-- **RECORDING A DEPOSIT** under a reference that is known changes nothing,
    and under a new one records it and writes an entry. -/
theorem ownerRecordDeposit_spec {actor : Actor} {source : String}
    {agentId : Option String} {reference : String} :
    wp (ownerRecordDeposit host actor amount source verified agentId reference)
      (fun _ w' => actor = .owner ∧ ((w' = w ∧ w.state.processedDeposits.contains
          (opaqueReference host "deposit" reference) = true)
        ∨ ∃ v e, Recorded host amount verified agentId reference w v
          ∧ Change host (.audit "record_deposit") v w'
          ∧ w'.state = v.state.withEntry e))
      (fun _ w' => actor = .owner ∧ (Quiet w w'
        ∨ Recorded host amount verified agentId reference w w'
          ∧ ¬hasRoom w'.state "record_deposit")
        ∨ w' = w) w := by
  have h0 : (actor = .owner ∧ (Quiet w w
      ∨ Recorded host amount verified agentId reference w w
        ∧ ¬hasRoom w.state "record_deposit")) ∨ w = w :=
    Or.inr rfl
  unfold ownerRecordDeposit
  rw [wp_bind, wp_readState]
  refine line_lift (fun _ => h0) fun _ howner => ?_
  refine line_lift (fun _ => h0) fun _ _ => ?_
  refine line_lift (fun _ => h0) fun _ _ => ?_
  dsimp only
  refine line_rejectIf (fun _ => h0) fun hpos => ?_
  have hactor := requireOwner_ok howner
  -- the reference is bound already, or this is a new deposit
  split
  · rename_i hknown
    rw [wp_ite, wp_pure, wp_throw]
    refine ⟨fun _ => ⟨hactor, Or.inl ⟨rfl, ?_⟩⟩, fun _ => h0⟩
    unfold SortedMap.contains
    rw [hknown]
    rfl
  rename_i hfresh
  unfold recordNewDeposit
  refine line_lift (fun _ => h0) fun reinvested hshare => ?_
  refine line (wp_mono creditDeposit_spec (fun _ _ h => h)
    (fun _ _ h => Or.inl ⟨hactor, Or.inl h⟩)) ?_
  rintro _ a ⟨ha, hc⟩
  rw [← bind_assoc]
  refine line depositEvents_spec ?_
  rintro _ b ⟨events, hb, hstate, hevents⟩
  rw [wp_bind, wp_modifyState]
  have hab := ha.trans hb
  generalize hv : World.mk _ _ _ _ _ _ = v
  have hadv : Advance b v := by
    rw [← hv]
    exact ⟨rfl, Nat.le_refl _, Nat.le_refl _, Nat.le_refl _⟩
  have hrec : Recorded host amount verified agentId reference w v := {
    advance := hab.toAdvance.trans hadv
    log := by
      rw [← hv]
      exact hab.log
    positive := not_le.mp hpos
    fresh := hfresh
    made := ⟨reinvested, _, events, _, hshare,
      hc.widen (Advance.refl w) (hb.toAdvance.trans hadv),
      hevents.widen ha.toAdvance hadv, by
        rw [← hv, hstate]
        rfl⟩ }
  rw [wp_bind]
  refine wp_audit_or (fun hfull _ => Or.inl ⟨hactor, Or.inr ⟨hrec, hfull⟩⟩)
    fun hroom => ?_
  rw [wp_pure]
  exact ⟨hactor, Or.inr ⟨v, _, hrec, .audit ⟨rfl, Nat.le_succ _, Nat.le_refl _,
    Nat.le_refl _⟩ (.next hroom rfl rfl ⟨Nat.le_refl _, Nat.lt_succ_self _⟩)
    rfl rfl, rfl⟩⟩

theorem ownerRecordDeposit_within {actor : Actor} {source : String}
    {agentId : Option String} {reference : String} :
    Within host
      (permits actor (.ownerRecordDeposit amount source verified agentId reference))
      (ownerRecordDeposit host actor amount source verified agentId reference)
      w := by
  have hq : permits actor (.ownerRecordDeposit amount source verified agentId
      reference) .quiet := trivial
  have hone : ∀ {v}, actor = .owner →
      Recorded host amount verified agentId reference w v →
      Path host (permits actor (.ownerRecordDeposit amount source verified
        agentId reference)) w v := fun hactor hrec =>
    .single (l := .deposit) hactor hrec.change
  refine wp_mono ownerRecordDeposit_spec ?_ ?_
  · rintro _ w' ⟨hactor, ⟨rfl, _⟩ | ⟨v, _, hrec, haudit, _⟩⟩
    · exact .refl _
    · exact (hone hactor hrec).tail (l := .audit "record_deposit") (.head _)
        haudit
  · rintro _ w' (⟨hactor, hquiet | ⟨hrec, _⟩⟩ | rfl)
    · exact .quiet hq hquiet
    · exact hone hactor hrec
    · exact .refl _

end Deposits

/-! ## Configuration -/

theorem ownerConfigureReceive_within {actor : Actor}
    {method address memo : String} :
    Within host
      (permits actor (.ownerConfigureReceiveInstructions method address memo))
      (ownerConfigureReceive host actor method address memo) w := by
  unfold Within ownerConfigureReceive
  refine line_lift (fun _ => .refl w) fun _ howner => ?_
  refine line_lift (fun _ => .refl w) fun _ _ => ?_
  refine line_lift (fun _ => .refl w) fun _ _ => ?_
  refine line_lift (fun _ => .refl w) fun _ _ => ?_
  refine line_rejectIf (fun _ => .refl w) fun _ => ?_
  rw [wp_bind, wp_now, wp_bind, wp_modifyState]
  exact auditThen (.single (l := .configureReceive) (requireOwner_ok howner)
    (.configureReceive ⟨rfl, Nat.le_succ _, Nat.le_refl _, Nat.le_refl _⟩ rfl
      rfl)) (.head _) trivial (.pure _)

theorem ownerConfigureManualProvider_within {actor : Actor}
    {c : ManualProviderConfiguration} :
    Within host (permits actor (.ownerConfigureManualProvider c))
      (ownerConfigureManualProvider host actor c) w := by
  unfold Within ownerConfigureManualProvider
  rw [wp_bind, wp_readState]
  refine line_lift (fun _ => .refl w) fun _ howner => ?_
  refine line_lift (fun _ => .refl w) fun _ hc => ?_
  rw [wp_bind, wp_now, wp_bind, wp_modifyState]
  refine auditThen (.single (l := .configureManual) (requireOwner_ok howner)
    (.configureManual ⟨rfl, Nat.le_succ _, Nat.le_refl _, Nat.le_refl _⟩ hc ?_
      rfl rfl)) (.head _) trivial (.pure _)
  exact .next (Nat.le_refl _) (Nat.lt_succ_self _)

/-! ## Every request -/

/-- **A REQUEST CHANGES ONLY WHAT IT PERMITS**, unless it executes. -/
theorem dispatch_within {actor : Actor} {request : Request}
    (hk : Keyed w.state) (hx : executes request = none) :
    Within host (permits actor request) (dispatch host actor request) w := by
  cases request with
  | createPurchaseIntent r => exact createIntent_within r
  | executePurchaseIntent id => exact nomatch hx
  | cancelPurchaseIntent id => exact cancelIntent_within hk
  | ownerCreateAgent name p mode ttl =>
      exact ownerCreateAgent_within trivial (.head _) fun _ _ h _ => h
  | ownerCreateAgentPrepared name p mode ttl token =>
      exact ownerCreateAgent_within trivial (.head _) fun _ _ h h' =>
        ⟨h, (Option.some.inj (h'.resolve_left nofun)).symm⟩
  | ownerUpdatePolicy id p => exact ownerUpdatePolicy_within
  | ownerSetAgentMode id mode => exact ownerSetAgentMode_within
  | ownerRevokeAgent id => exact ownerRevokeAgent_within
  | ownerRotateAgentCapability id ttl token =>
      exact ownerRotateAgentCapability_within
  | ownerSetEmergencyStop stopped =>
      exact wp_mono ownerEmergencyStop_spec (fun _ _ h => h.1)
        (fun _ _ h => h.1)
  | ownerApproveIntent id => exact ownerApprove_within hk
  | ownerDenyIntent id => exact ownerDeny_within hk
  | ownerBeginManualHandoff id => exact nomatch hx
  | ownerCompleteManualHandoff id => exact ownerCompleteManualHandoff_within hk
  | ownerApproveMerchant id domain => exact ownerApproveMerchant_within
  | ownerReconcile id outcome reference => exact ownerReconcile_within hk
  | ownerRecordDeposit amount source verified id reference =>
      exact ownerRecordDeposit_within
  | ownerArmAgentSession id ttl => exact ownerArmAgentSession_within
  | ownerConfigureManualProvider c => exact ownerConfigureManualProvider_within
  | ownerConfigureReceiveInstructions method address memo =>
      exact ownerConfigureReceive_within
  | _ => exact (dispatch_quietly rfl).within trivial

/-- **A REQUEST THAT EXECUTES IS AN ATTEMPT.** -/
theorem dispatch_attempt {actor : Actor} {request : Request} {id : String}
    (h : Workable w.state) (hx : executes request = some id) :
    wp (dispatch host actor request)
      (fun _ w' => Attempt host False id w w')
      (fun _ w' => Attempt host False id w w') w := by
  cases request with
  | executePurchaseIntent id' =>
      cases hx
      exact executeIntent_spec h
  | ownerBeginManualHandoff id' =>
      cases hx
      exact wp_mono (ownerBeginManualHandoff_spec h) (fun _ _ h => h.attempt)
        (fun _ _ h => h.elim .quiet Reserved.attempt)
  | _ => exact nomatch hx

end Treasury
