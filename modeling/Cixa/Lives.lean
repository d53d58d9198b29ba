import Cixa.Crashes

/-! # Lives — where the state of an intent comes from

    An intent that is stored after a change was stored before, is NEW, or has
    just taken one step of its life: it was reserved, moved, concluded or
    reconciled.  With a clock that never goes back, an intent is updated only
    later than it was created, and only later than it was updated before. -/

namespace Treasury

open CixaData CixaHost Transition

variable {host : Host} {w w' : World} {l : Label} {id : String}
  {i i' : PurchaseIntent}

/-! ## Steps of a life -/

/-- The states a provider's outcome or the owner's finding leads to. -/
def Resolved (state : TransactionState) : Prop :=
  state ∈ [.settled, .declined, .providerPending, .unknown, .refunded]

instance (state : TransactionState) : Decidable (Resolved state) :=
  inferInstanceAs (Decidable (_ ∈ _))

/-- One step of the life of an intent. -/
inductive Moves (host : Host) (w w' : World) (l : Label)
    (i i' : PurchaseIntent) : Prop where
  | reserve {r : AgentRecord} {p : Policy} (hl : l = .reserve i.id)
      (hr : Reservable host w w' i r p) (hx : i'.state = .executing)
      (ht : ReadIn host w w' i'.updatedAt) : Moves host w w' l i i'
  | move {next : TransactionState} (hl : l = .move i.id next)
      (hm : movesTo i next) (hx : i'.state = next)
      (ht : i'.updatedAt = i.updatedAt ∨ ReadIn host w w' i'.updatedAt) :
      Moves host w w' l i i'
  | conclude {next : TransactionState} (hl : l = .conclude i.id next)
      (hx : i.state = .executing) (he : Resolved i'.state)
      (ht : ReadIn host w w' i'.updatedAt) : Moves host w w' l i i'
  | reconcile {outcome : ReconciliationOutcome}
      (hl : l = .reconcile i.id outcome)
      (hx : isUncertain i.state = true ∨ i.state = .settled)
      (he : Resolved i'.state) (ht : ReadIn host w w' i'.updatedAt) :
      Moves host w w' l i i'

theorem SettledIn.updated (h : SettledIn host w w' i i') :
    ReadIn host w w' i'.updatedAt := by
  obtain ⟨_, t, _, ht, _, heq⟩ := h.shape
  rw [heq]
  exact ht

theorem Concluded.moves {s : TreasuryState} {next : TransactionState}
    {events : List LedgerEvent} (h : Concluded host w w' s i next i' events)
    (hx : i.state = .executing) (hl : l = .conclude i.id next) :
    Moves host w w' l i i' := by
  cases h with
  | settled hi _ =>
      refine .conclude hl hx ?_ hi.updated
      rw [hi.continues.2]
      decide
  | declined ht _ =>
      exact .conclude hl hx (show Resolved .declined by decide) ht
  | pending ht =>
      exact .conclude hl hx (show Resolved .providerPending by decide) ht
  | unknown ht => exact .conclude hl hx (show Resolved .unknown by decide) ht

theorem Reconciled.moves {s : TreasuryState} {outcome : ReconciliationOutcome}
    {events : List LedgerEvent}
    (h : Reconciled host w w' s i outcome i' events)
    (hl : l = .reconcile i.id outcome) : Moves host w w' l i i' := by
  cases h with
  | settled hu hi _ =>
      refine .reconcile hl (Or.inl hu) ?_ hi.updated
      rw [hi.continues.2]
      decide
  | declined hu ht _ =>
      exact .reconcile hl (Or.inl hu) (show Resolved .declined by decide) ht
  | refunded hu _ _ ht _ _ =>
      exact .reconcile hl (Or.inl hu) (show Resolved .refunded by decide) ht
  | refundedLater hu ht _ _ =>
      exact .reconcile hl (Or.inr hu) (show Resolved .refunded by decide) ht

/-- Where a stored intent comes from. -/
inductive Origin (host : Host) (w w' : World) (l : Label) (id : String)
    (i' : PurchaseIntent) : Prop where
  | kept (hi : w.state.intents.get? id = some i') : Origin host w w' l id i'
  | new (hl : l = .addIntent id) (hid : i'.id = id)
      (hn : NewIntent host w w' i') : Origin host w w' l id i'
  | next {i : PurchaseIntent} (hi : w.state.intents.get? id = some i)
      (hid : i.id = id) (hc : Continues i i') (hm : Moves host w w' l i i') :
      Origin host w w' l id i'

/-- **THE LIFE OF AN INTENT**: what is stored after a change was kept, is new
    or took one step. -/
theorem Change.origin (h : Change host l w w')
    (hi' : w'.state.intents.get? id = some i') : Origin host w w' l id i' := by
  have hsame : w'.state.intents = w.state.intents → Origin host w w' l id i' :=
    fun hs => .kept (hs ▸ hi')
  -- a change of one intent is a step of it, or leaves this one alone
  have hnext : ∀ {j j' : PurchaseIntent},
      w'.state.intents = w.state.intents.insert j.id j' →
      w.state.intents.get? j.id = some j → Continues j j' →
      Moves host w w' l j j' → Origin host w w' l id i' := by
    intro j j' hs hj hc hm
    rw [hs, SortedMap.get?_insert] at hi'
    split at hi'
    · rename_i hid
      obtain rfl := Option.some.inj hi'
      exact .next (hid ▸ hj) hid.symm hc hm
    · exact .kept hi'
  cases h with
  | quiet h => exact hsame (by rw [h.state])
  | @addIntent _ _ j _ _ hn _ hs _ =>
      have hs' : w'.state.intents = w.state.intents.insert j.id j := by
        rw [hs]
        rfl
      rw [hs', SortedMap.get?_insert] at hi'
      split at hi'
      · rename_i hid
        obtain rfl := Option.some.inj hi'
        exact .new (by rw [hid]) hid.symm hn
      · exact .kept hi'
  | reserve _ hj hr _ _ ht hs _ =>
      exact hnext ((congrArg TreasuryState.intents hs).trans rfl) hj
        ⟨rfl, rfl, rfl, rfl, rfl, rfl⟩ (.reserve rfl hr rfl ht)
  | move _ hj hm ht hs _ =>
      exact hnext ((congrArg TreasuryState.intents hs).trans rfl) hj
        ⟨rfl, rfl, rfl, rfl, rfl, rfl⟩ (.move rfl hm rfl ht)
  | conclude _ hj hx hc _ hs _ =>
      exact hnext ((congrArg TreasuryState.intents hs).trans rfl) hj
        hc.continues.1 (hc.moves hx rfl)
  | reconcile _ hj hr hp hs _ =>
      obtain ⟨_, _, rfl⟩ := hp.fields
      exact hnext ((congrArg TreasuryState.intents hs).trans rfl) hj
        hr.continues.1 (hr.moves rfl)
  | deposit _ _ _ hc _ _ hs _ =>
      obtain ⟨_, _, heq⟩ := hc.fields
      exact hsame (by rw [hs, heq]; rfl)
  | writeKey _ hs _ _ => exact hsame (by rw [hs])
  | writeState _ hs _ _ _ => exact hsame (by rw [hs])
  | submit _ hs _ _ _ => exact hsame (by rw [hs])
  | _ =>
      rename_i hs _
      exact hsame ((congrArg TreasuryState.intents hs).trans rfl)

/-- No step leads to a validated intent. -/
theorem Moves.not_validated (h : Moves host w w' l i i') :
    i'.state ≠ .policyValidated := by
  cases h with
  | reserve _ _ hx _ =>
      rw [hx]
      exact nofun
  | move _ hm hx _ =>
      rw [hx]
      rcases hm with ⟨_, rfl | rfl | rfl⟩ | ⟨_, rfl⟩ <;> exact nofun
  | conclude _ _ he _ =>
      intro hv
      rw [hv] at he
      exact absurd he (by decide)
  | reconcile _ _ he _ =>
      intro hv
      rw [hv] at he
      exact absurd he (by decide)

/-- Only the owner's approval leads to an approved intent. -/
theorem Moves.approves (h : Moves host w w' l i i')
    (ha : i'.state = .approved) :
    l = .move i.id .approved ∧ i.state = .approvalRequired := by
  cases h with
  | reserve _ _ hx _ => exact nomatch hx.symm.trans ha
  | move hl hm hx _ =>
      obtain rfl := hx.symm.trans ha
      refine ⟨hl, ?_⟩
      rcases hm with ⟨hcan, _⟩ | ⟨_, hno⟩
      · cases hs : i.state <;> rw [hs] at hcan <;>
          first | rfl | exact nomatch hcan
      · exact nomatch hno
  | conclude _ _ he _ =>
      rw [ha] at he
      exact absurd he (by decide)
  | reconcile _ _ he _ =>
      rw [ha] at he
      exact absurd he (by decide)

/-- The states of an intent that came to nothing. -/
def Dead (state : TransactionState) : Prop :=
  state ∈ [.failed, .declined, .cancelled, .refunded]

instance (state : TransactionState) : Decidable (Dead state) :=
  inferInstanceAs (Decidable (_ ∈ _))

/-- What came to nothing takes no further step. -/
theorem Moves.not_dead (h : Moves host w w' l i i') : ¬Dead i.state := by
  intro hd
  cases h with
  | reserve _ hr _ _ =>
      rcases hr.executable with hx | hx <;>
        (rw [hx] at hd; exact absurd hd (by decide))
  | move _ hm _ _ =>
      rcases hm with ⟨hcan, hnext⟩ | ⟨hx, _⟩
      · cases hs : i.state <;> rw [hs] at hcan hd <;>
          first
            | exact absurd hd (by decide)
            | (rcases hnext with rfl | rfl | rfl <;> exact nomatch hcan)
      · rw [hx] at hd
        exact absurd hd (by decide)
  | conclude _ hx _ _ =>
      rw [hx] at hd
      exact absurd hd (by decide)
  | reconcile _ hx _ _ =>
      rcases hx with hx | hx
      · cases hs : i.state <;> rw [hs] at hx hd <;>
          first | exact absurd hx (by decide) | exact absurd hd (by decide)
      · rw [hx] at hd
        exact absurd hd (by decide)

/-! ## Times -/

/-- An intent was created and then updated at readings before a world. -/
def Timed (host : Host) (w : World) (i : PurchaseIntent) : Prop :=
  ∃ m n, m ≤ n ∧ n < w.tick ∧ i.createdAt = host.clock m
    ∧ i.updatedAt = host.clock n

/-- Every stored intent is timed. -/
def AllTimed (host : Host) (w : World) : Prop :=
  ∀ id i, w.state.intents.get? id = some i → Timed host w i

theorem Timed.later (h : Timed host w i) (hle : w.tick ≤ w'.tick) :
    Timed host w' i := by
  obtain ⟨m, n, hmn, hn, hc, hu⟩ := h
  exact ⟨m, n, hmn, Nat.lt_of_lt_of_le hn hle, hc, hu⟩

/-- A step reads the clock no earlier than the step before it. -/
theorem Moves.updated (h : Moves host w w' l i i') :
    i'.updatedAt = i.updatedAt ∨ ReadIn host w w' i'.updatedAt := by
  cases h with
  | reserve _ _ _ ht => exact Or.inr ht
  | move _ _ _ ht => exact ht
  | conclude _ _ _ ht => exact Or.inr ht
  | reconcile _ _ _ ht => exact Or.inr ht

theorem Change.allTimed (h : Change host l w w') (hw : AllTimed host w) :
    AllTimed host w' := by
  have hle := h.advance.tick
  intro id i' hi'
  cases h.origin hi' with
  | kept hi => exact (hw id i' hi).later hle
  | new _ _ hn =>
      obtain ⟨_, _, _, _, _, _, _, _, k, _, _, _, _, ⟨m, n, _, hmn, hn, hc,
        hu⟩, _⟩ := hn.agent
      exact ⟨m, n, hmn, hn, hc, hu⟩
  | next hi _ hc hm =>
      obtain ⟨m, n, hmn, hn, hcreated, hupdated⟩ := hw id _ hi
      rcases hm.updated with heq | ⟨k, hlo, hhi, ht⟩
      · exact ⟨m, n, hmn, by omega, hc.createdAt ▸ hcreated, heq.trans hupdated⟩
      · exact ⟨m, k, by omega, hhi, hc.createdAt ▸ hcreated, ht⟩

theorem Path.allTimed {allowed : Label → Prop} (h : Path host allowed w w')
    (hw : AllTimed host w) : AllTimed host w' :=
  h.invariant (fun _ _ _ _ hc ha => hc.allTimed ha)
    (fun _ _ hp ha _ id i hi => (ha id i hi).later hp.advance.tick) hw

theorem Started.allTimed {balance : Money} {token : String}
    (h : Started host balance token w) : AllTimed host w := by
  obtain ⟨_, _, _, _, _, _, _, _, hs⟩ := h.state
  intro id i hi
  rw [hs] at hi
  exact nomatch hi

theorem TreasuryRun.allTimed {token : String} {w0 : World} {cs : List Call}
    (h : TreasuryRun host token w0 cs w) : AllTimed host w := by
  obtain ⟨balance, hs⟩ := h.balance
  exact h.path.allTimed hs.allTimed

/-- The clock never goes back. -/
def Onward (host : Host) : Prop := ∀ m n, m ≤ n → host.clock m ≤ host.clock n

theorem Timed.le (h : Timed host w i) (hclock : Onward host) :
    i.createdAt ≤ i.updatedAt := by
  obtain ⟨m, n, hmn, _, hc, hu⟩ := h
  rw [hc, hu]
  exact hclock m n hmn

/-- What was updated before a world was updated before any reading of it. -/
theorem Timed.before (h : Timed host w i) (hclock : Onward host) {k : Nat}
    (hk : w.tick ≤ k) : i.updatedAt ≤ host.clock k := by
  obtain ⟨_, n, _, hn, _, hu⟩ := h
  rw [hu]
  exact hclock n k (by omega)

end Treasury
