import Cixa.Quietly

/-! # Paths — composing changes

    Readings, draws and events between two worlds are between any two worlds
    around them.  A quiet line is a step of a path, a change is a step of a
    path, and putting a snapshot back after a failure is a rollback. -/

namespace Treasury

open CixaData CixaHost Outcome Transition

variable {host : Host} {α : Type} {a b c d w w' : World}

/-! ## Widening -/

theorem ReadIn.widen {t : Int} (h : ReadIn host b c t) (hab : Advance a b)
    (hcd : Advance c d) : ReadIn host a d t := by
  obtain ⟨k, hlo, hhi, ht⟩ := h
  exact ⟨k, Nat.le_trans hab.tick hlo, Nat.lt_of_lt_of_le hhi hcd.tick, ht⟩

theorem DrawnIn.widen {kind id : String} (h : DrawnIn host b c kind id)
    (hab : Advance a b) (hcd : Advance c d) : DrawnIn host a d kind id := by
  obtain ⟨i, hlo, hhi, hid⟩ := h
  exact ⟨i, Nat.le_trans hab.drawn hlo, Nat.lt_of_lt_of_le hhi hcd.drawn, hid⟩

theorem EventIn.widen {kind : LedgerEventKind} {amount : Money}
    {intentId : Option String} {e : LedgerEvent}
    (h : EventIn host b c kind amount intentId e) (hab : Advance a b)
    (hcd : Advance c d) : EventIn host a d kind amount intentId e :=
  ⟨h.id.widen hab hcd, h.time.widen hab hcd, h.kind, h.amount, h.intentId⟩

theorem Settling.widen {s : TreasuryState} {i : PurchaseIntent}
    {events : List LedgerEvent} (h : Settling host b c s i events)
    (hab : Advance a b) (hcd : Advance c d) : Settling host a d s i events := by
  obtain ⟨hr, hs⟩ := h
  refine .mk ?_ ?_
  · rcases hr with h | ⟨h, e, hnil, he⟩
    · exact Or.inl h
    · exact Or.inr ⟨h, e, hnil, he.widen hab hcd⟩
  · rcases hs with h | ⟨h, e, hnil, he⟩
    · exact Or.inl h
    · exact Or.inr ⟨h, e, hnil, he.widen hab hcd⟩

theorem SettledIn.widen {i i' : PurchaseIntent} (h : SettledIn host b c i i')
    (hab : Advance a b) (hcd : Advance c d) : SettledIn host a d i i' := by
  obtain ⟨reference, t, t', ht, ht', heq⟩ := h.shape
  exact ⟨h.receipt, h.receiptHash, reference, t, t', ht.widen hab hcd,
    ht'.widen hab hcd, heq⟩

theorem Entered.widen {s : TreasuryState} {action : String} {e : AuditEntry}
    (h : Entered host b c s action e) (hab : Advance a b) (hcd : Advance c d) :
    Entered host a d s action e := by
  obtain ⟨w1, hkey, hs, hlo, hhi, hmade⟩ := h.made
  exact ⟨h.room, w1, hkey.trans hab.key, hs, Nat.le_trans hab.tick hlo,
    Nat.lt_of_lt_of_le hhi hcd.tick, hmade⟩

theorem SessionEnd.widen {ttl expiry : Int} (h : SessionEnd host b c ttl expiry)
    (hab : Quiet a b) (hcd : Advance c d) : SessionEnd host a d ttl expiry := by
  have hs := hab.state
  rcases h with ⟨hstop, h0⟩ | ⟨hstop, t, ht, heq⟩
  · exact Or.inl ⟨hs ▸ hstop, h0⟩
  · exact Or.inr ⟨hs ▸ hstop, t, ht.widen hab.toAdvance hcd, heq⟩

theorem Edited.widen {r r' : AgentRecord} {edit : AgentEdit}
    (h : Edited host b c r edit r') (hab : Quiet a b) (hcd : Advance c d) :
    Edited host a d r edit r' := by
  have hs := hab.state
  have hadv := hab.toAdvance
  cases h with
  | arm hstop hp hlo hhi ht hid =>
      exact .arm (hs ▸ hstop) (hs ▸ hp) hlo hhi (ht.widen hadv hcd)
        (hid.widen hadv hcd)
  | rotate hp htoken hlo hhi ht he hid =>
      exact .rotate (hs ▸ hp) htoken hlo hhi (ht.widen hadv hcd)
        (he.widen hab hcd) (hid.widen hadv hcd)
  | revoke => exact .revoke
  | mode => exact .mode
  | approveMerchant hm hnew hsize => exact .approveMerchant hm hnew hsize
  | stop hid => exact .stop (hid.widen hadv hcd)

/-- Quiet lines before a reservation change nothing of what it checks. -/
theorem Reservable.widen {i : PurchaseIntent} {r : AgentRecord} {p : Policy}
    (h : Reservable host b c i r p) (hab : Quiet a b) (hcd : Advance c d) :
    Reservable host a d i r p := by
  have hs := hab.state
  obtain ⟨t, ht, harmed⟩ := h.armed
  obtain ⟨t1, t2, h1, h2, hle1, hle2⟩ := h.unexpired
  obtain ⟨decision, w1, w2, hq, htick, hdec, hsub⟩ := h.decided
  exact {
    capacity := hs ▸ h.capacity
    executable := h.executable
    agent := hs ▸ h.agent
    scope := h.scope
    policy := hs ▸ h.policy
    armed := ⟨t, ht.widen hab.toAdvance hcd, harmed⟩
    session := h.session
    unexpired := ⟨t1, t2, h1.widen hab.toAdvance hcd,
      h2.widen hab.toAdvance hcd, hle1, hle2⟩
    decided := ⟨decision, w1, w2, hab.trans hq, Nat.le_trans htick hcd.tick,
      hs ▸ hdec, hsub⟩ }

/-- The reading a world is about to make. -/
theorem ReadIn.next (hlo : w.tick ≤ a.tick) (hhi : a.tick < w'.tick) :
    ReadIn host w w' (host.clock a.tick) := ⟨a.tick, hlo, hhi, rfl⟩

/-- The identifier a world is about to draw. -/
theorem DrawnIn.next {kind : String} (hlo : w.drawn ≤ a.drawn)
    (hhi : a.drawn < w'.drawn) :
    DrawnIn host w w' kind (idOfDraw host kind a.drawn) :=
  ⟨a.drawn, hlo, hhi, rfl⟩

/-- The event a world is about to append. -/
theorem EventIn.next {kind : LedgerEventKind} {amount : Money}
    {intentId : Option String} {source : String} {verified : Bool}
    (ht : w.tick ≤ a.tick ∧ a.tick < w'.tick)
    (hd : w.drawn ≤ a.drawn ∧ a.drawn < w'.drawn) :
    EventIn host w w' kind amount intentId
      (eventOf host a kind amount intentId source verified) :=
  ⟨.next hd.1 hd.2, .next ht.1 ht.2, rfl, rfl, rfl⟩

/-- The entry a world is about to append. -/
theorem Entered.next {s : TreasuryState} {actor action : String}
    {intentId : Option String} {policyVersion : Option Nat}
    {decision : Option String} {details : Json}
    (hroom : hasRoom a.state action) (hs : a.state = s)
    (hkey : a.auditKey = w.auditKey)
    (ht : w.tick ≤ a.tick ∧ a.tick < w'.tick) :
    Entered host w w' s action (entryOf host a actor action intentId
      policyVersion decision details) :=
  ⟨hs ▸ hroom, a, hkey, hs, ht.1, ht.2, actor, intentId, policyVersion,
    decision, details, rfl⟩

/-! ## Steps of a path -/

variable {allowed allowed' : Label → Prop}

theorem Path.quiet (hq : allowed .quiet) (h : Quiet w w') :
    Path host allowed w w' := .single hq (.quiet h)

theorem Path.thenQuiet (hp : Path host allowed w a) (hq : allowed .quiet)
    (h : Quiet a w') : Path host allowed w w' := .tail hp hq (.quiet h)

theorem Path.quietThen (h : Quiet w a) (hq : allowed .quiet)
    (hp : Path host allowed a w') : Path host allowed w w' :=
  (Path.quiet hq h).trans hp

/-- **INVARIANTS OF A PATH**: what every allowed change keeps, and giving up
    does not lose. -/
theorem Path.invariant {I : World → Prop}
    (hstep : ∀ l a b, allowed l → Change host l a b → I a → I b)
    (hroll : ∀ a b, Path host allowed a b → I a → I b → I (a.restoreState b))
    (h : Path host allowed w w') : I w → I w' :=
  Reaches.invariant hstep hroll h

/-- Quiet programs are paths. -/
theorem Quietly.path {x : Op α} (h : Quietly x) (hq : allowed .quiet)
    (w : World) : wp x (fun _ w' => Path host allowed w w')
      (fun _ w' => Path host allowed w w') w :=
  wp_mono (h.run w) (fun _ _ h => Path.quiet hq h) (fun _ _ h => Path.quiet hq h)

/-- **PUTTING A SNAPSHOT BACK**: a failure leaves the snapshot's state. -/
theorem wp_orRestore {x : Op α} {Q : α → World → Prop}
    {E : TreasuryError → World → Prop} {w : World} {snapshot : TreasuryState}
    (h : wp x Q (fun e w' => E e { w' with state := snapshot }) w) :
    wp (orRestore snapshot x) Q E w := by
  unfold orRestore
  rw [wp_tryCatch]
  refine wp_mono h (fun _ _ h => h) ?_
  intro e w' hE
  simp only [wp_bind, wp_setState, wp_throw]
  exact hE

/-! ## The fixed parts of a change -/

theorem Change.advance {l : Label} (h : Change host l w w') : Advance w w' := by
  cases h with
  | quiet h => exact h.toAdvance
  | _ => assumption

theorem Advance.restore (h : Advance w w') : Advance w (w.restoreState w') :=
  ⟨h.key, h.tick, h.drawn, h.saves⟩

theorem Path.advance (h : Path host allowed w w') : Advance w w' :=
  h.rel Advance.refl (fun _ _ _ => Advance.trans)
    (fun _ _ _ _ hc => hc.advance) (fun _ _ h => h.restore)

end Treasury
