import Cixa.Runs
import Mathlib.Data.List.Induction
import Mathlib.Logic.Relation

/-! # Crashes — memory, disk and restarts

    A broker is UP, with a world in memory, or DOWN, with nothing but what it
    wrote.  A crash may cut an operation after any of the things it does that
    can be seen from outside: a file written or a payment submitted.  The
    rest of the log and the whole memory are lost; a save that failed after
    its rename has been written all the same.  A restart loads the disk,
    recovers the interrupted executions and saves.

    Whatever was submitted was on the disk as executing before; and from
    executing there is no way back to a state that can be reserved.  So what
    is submitted once is SPENT, in memory and on every later disk. -/

namespace Treasury

open CixaData CixaHost Outcome Transition

variable {host : Host} {w w' : World} {l : Label}

/-! ## A broker that can crash -/

/-- What a crash leaves: the log, and how far the host's clock, draws and
    saves have got. -/
structure Wreck where
  log : List Event
  tick : Nat
  drawn : Nat
  saves : Nat

/-- A broker that is up, or one that is down with its disk. -/
inductive Broker where
  | up (w : World)
  | down (r : Wreck)

namespace Broker

/-- What the broker has done so far. -/
def log : Broker → List Event
  | up w => w.log
  | down r => r.log

/-- How many identifiers were drawn so far. -/
def drawn : Broker → Nat
  | up w => w.drawn
  | down r => r.drawn

end Broker

/-- What is left when an operation that leads from `w` to `w'` is cut after
    `k` of its events.  The host goes on from where the operation would have
    ended: what it read or drew in between is never used again. -/
def wreckOf (w w' : World) (k : Nat) : Wreck where
  log := w.log ++ (w'.log.drop w.log.length).take k
  tick := w'.tick
  drawn := w'.drawn
  saves := w'.saves

/-- The world loaded from the disk of a wreck. -/
def reload (host : Host) (r : Wreck) : Except TreasuryError World := do
  let (state, key) ← loadFrom host (diskOf r.log)
  pure ⟨state, key, r.tick, r.drawn, r.saves, r.log⟩

/-- What a broker does before it serves anyone. -/
def recoverAndSave (host : Host) : Op Unit := do
  let recovered ← recoverInterruptedExecutions host
  if recovered > 0 then saveTo host else pure ()

/-- What a broker that is up does: persisted calls and saves. -/
inductive Work where
  | call (c : Call)
  | save

namespace Work

/-- Whether the work is done on a broker that saves. -/
def durable : Work → Prop
  | call c => c.durable
  | save => True

/-- What the work makes of a world. -/
def perform (host : Host) : Work → World → World
  | call c, w => exec host c w
  | save, w => final (saveTo host) w

end Work

/-- **WHAT CAN HAPPEN** to a broker.  A restart that fails is a restart cut
    after its last event. -/
inductive Happens (host : Host) : Broker → Broker → Prop where
  | work {w : World} (o : Work) (hd : o.durable)
      (hfit : Fits (o.perform host w)) :
      Happens host (.up w) (.up (o.perform host w))
  | crash {w : World} (o : Work) (hd : o.durable) (k : Nat) :
      Happens host (.up w) (.down (wreckOf w (o.perform host w) k))
  | restart {r : Wreck} {v w : World} (hl : reload host r = .ok v)
      (hr : recoverAndSave host v = .ok () w) (hfit : Fits w) :
      Happens host (.down r) (.up w)
  | crashAgain {r : Wreck} {v : World} (hl : reload host r = .ok v) (k : Nat) :
      Happens host (.down r)
        (.down (wreckOf v (final (recoverAndSave host) v) k))

/-- Anything that happens to a bootstrapped broker. -/
def BrokerRun (host : Host) (b : Broker) : Prop :=
  ∃ name balance w0 token, bootstrap host name balance = .ok (w0, token)
    ∧ Relation.ReflTransGen (Happens host) (.up w0) b

/-! ## What a change logs -/

/-- What an event says of the world before it. -/
def Logged (l : Label) (w : World) : Event → Prop
  | .submitted id => l = .submit id
  | .stateWritten envelope => envelope.state = w.state
  | .keyWritten key => key = w.auditKey
  | .stored _ => True

theorem Change.logged (h : Change host l w w') :
    w'.log = w.log ∨ ∃ e, w'.log = w.log ++ [e] ∧ Logged l w e := by
  cases h with
  | quiet h => exact Or.inl h.log
  | addIntent _ _ _ _ hl => exact Or.inr ⟨_, hl, trivial⟩
  | reserve _ _ _ _ _ _ _ hl => exact Or.inr ⟨_, hl, trivial⟩
  | move _ _ _ _ _ hl => exact Or.inr ⟨_, hl, trivial⟩
  | conclude _ _ _ _ _ _ hl => exact Or.inr ⟨_, hl, trivial⟩
  | reconcile _ _ _ _ _ hl => exact Or.inr ⟨_, hl, trivial⟩
  | writeKey _ _ _ hl => exact Or.inr ⟨_, hl, rfl⟩
  | writeState _ _ _ _ hl => exact Or.inr ⟨_, hl, rfl⟩
  | submit _ _ _ _ hl => exact Or.inr ⟨_, hl, rfl⟩
  | _ => exact Or.inl (by assumption)

/-- The log only grows. -/
theorem Path.grows {allowed : Label → Prop} (h : Path host allowed w w') :
    ∃ tail, w'.log = w.log ++ tail := by
  refine h.rel (R := fun a b => ∃ tail, b.log = a.log ++ tail) ?_ ?_ ?_ ?_
  · exact fun a => ⟨[], (List.append_nil _).symm⟩
  · rintro a b c ⟨t, ht⟩ ⟨u, hu⟩
    exact ⟨t ++ u, by rw [hu, ht, List.append_assoc]⟩
  · intro l a b _ hc
    rcases hc.logged with heq | ⟨e, heq, _⟩
    · exact ⟨[], by rw [heq, List.append_nil]⟩
    · exact ⟨[e], heq⟩
  · exact fun a b hab => hab

/-- No label of a kind submits. -/
def Unsubmitting (allowed : Label → Prop) : Prop :=
  ∀ id, ¬allowed (.submit id)

/-- Without a submission nothing more is submitted. -/
theorem Path.unsubmitted {allowed : Label → Prop}
    (h : Path host allowed w w') (hno : Unsubmitting allowed) {id : String}
    (hmem : .submitted id ∈ w'.log) : .submitted id ∈ w.log := by
  have hrel : ∀ id, .submitted id ∈ w'.log → .submitted id ∈ w.log := by
    refine h.rel (R := fun a b => ∀ id, .submitted id ∈ b.log →
      .submitted id ∈ a.log) ?_ ?_ ?_ ?_
    · exact fun _ _ h => h
    · exact fun a b c hab hbc id h => hab id (hbc id h)
    · intro l a b hl hc id hmem
      rcases hc.logged with heq | ⟨e, heq, he⟩
      · exact heq ▸ hmem
      · rw [heq] at hmem
        refine (List.mem_append.mp hmem).resolve_right fun hlast => ?_
        rw [← List.mem_singleton.mp hlast] at he
        exact hno id (he ▸ hl)
    · exact fun _ _ hab => hab
  exact hrel id hmem

/-! ## Beyond reservation -/

/-- A state from which no reservation is reached. -/
def Beyond (state : TransactionState) : Prop :=
  state ≠ .approvalRequired ∧ state ≠ .policyValidated ∧ state ≠ .approved

theorem movesTo.beyond {i : PurchaseIntent} {next : TransactionState}
    (h : movesTo i next) (hi : Beyond i.state) : Beyond next := by
  rcases h with ⟨hcan, rfl | rfl | rfl⟩ | ⟨_, rfl⟩
  · -- only an intent that waits for the owner is approved
    refine absurd ?_ hi.1
    cases hs : i.state <;> rw [hs] at hcan <;>
      first | rfl | exact nomatch hcan
  · exact ⟨nofun, nofun, nofun⟩
  · exact ⟨nofun, nofun, nofun⟩
  · exact ⟨nofun, nofun, nofun⟩

theorem Concluded.beyond {a b : World} {s : TreasuryState}
    {i i' : PurchaseIntent} {next : TransactionState}
    {events : List LedgerEvent} (h : Concluded host a b s i next i' events) :
    Beyond i'.state := by
  cases h with
  | settled hi _ =>
      rw [hi.continues.2]
      exact ⟨nofun, nofun, nofun⟩
  | _ => exact ⟨nofun, nofun, nofun⟩

theorem Reconciled.beyond {a b : World} {s : TreasuryState}
    {i i' : PurchaseIntent} {outcome : ReconciliationOutcome}
    {events : List LedgerEvent}
    (h : Reconciled host a b s i outcome i' events) : Beyond i'.state := by
  cases h with
  | settled _ hi _ =>
      rw [hi.continues.2]
      exact ⟨nofun, nofun, nofun⟩
  | _ => exact ⟨nofun, nofun, nofun⟩

/-- An intent that is stored beyond reservation stays so, unless another one
    takes its place. -/
theorem Change.beyond_of (h : Change host l w w')
    (hnew : ∀ j, l = .addIntent j → w.state.intents.get? j = none)
    {id : String} {i : PurchaseIntent}
    (hi : w.state.intents.get? id = some i) (hb : Beyond i.state) :
    ∃ i', w'.state.intents.get? id = some i' ∧ Beyond i'.state := by
  -- the next state of the same intent, or another intent
  have hnext : ∀ j j' : PurchaseIntent, w.state.intents.get? j.id = some j →
      (Beyond j.state → Beyond j'.state) →
      w'.state.intents = w.state.intents.insert j.id j' →
      ∃ i', w'.state.intents.get? id = some i' ∧ Beyond i'.state := by
    intro j j' hj hjb hs
    rw [hs, SortedMap.get?_insert]
    split
    · rename_i hid
      rw [hid, hj] at hi
      obtain rfl := Option.some.inj hi
      exact ⟨j', rfl, hjb hb⟩
    · exact ⟨i, hi, hb⟩
  have hsame : w'.state.intents = w.state.intents →
      ∃ i', w'.state.intents.get? id = some i' ∧ Beyond i'.state :=
    fun hs => ⟨i, hs ▸ hi, hb⟩
  cases h with
  | quiet h => exact hsame (by rw [h.state])
  | @addIntent _ _ j _ _ _ _ hs _ =>
      have hne : id ≠ j.id := by
        rintro rfl
        rw [hnew j.id rfl] at hi
        exact nomatch hi
      refine ⟨i, ?_, hb⟩
      rw [hs]
      show (w.state.intents.insert j.id j).get? id = some i
      rw [SortedMap.get?_insert_of_ne _ _ hne]
      exact hi
  | reserve _ hj hr _ _ _ hs _ =>
      refine hnext _ _ hj (fun hjb => ?_) (by rw [hs]; rfl)
      exact hr.executable.elim (fun h => absurd h hjb.2.1)
        (fun h => absurd h hjb.2.2)
  | move _ hj hm _ hs _ =>
      exact hnext _ _ hj (fun hjb => hm.beyond hjb) (by rw [hs]; rfl)
  | conclude _ hj _ hc _ hs _ =>
      exact hnext _ _ hj (fun _ => hc.beyond) (by rw [hs]; rfl)
  | reconcile _ hj hr hp hs _ =>
      obtain ⟨_, _, heq⟩ := hp.fields
      exact hnext _ _ hj (fun _ => hr.beyond) (by rw [hs, heq]; rfl)
  | deposit _ _ _ hc _ _ hs _ =>
      obtain ⟨_, _, heq⟩ := hc.fields
      exact hsame (by rw [hs, heq]; rfl)
  | writeKey _ hs _ _ => exact hsame (by rw [hs])
  | writeState _ hs _ _ _ => exact hsame (by rw [hs])
  | submit _ hs _ _ _ => exact hsame (by rw [hs])
  | _ =>
      rename_i hs _
      exact hsame ((congrArg TreasuryState.intents hs).trans rfl)

/-- **NO WAY BACK** from beyond reservation, with fresh draws. -/
theorem Change.beyond (h : Change host l w w') (hids : IdsDrawn host w)
    (hfresh : FreshBelow host w'.drawn) {id : String} {i : PurchaseIntent}
    (hi : w.state.intents.get? id = some i) (hb : Beyond i.state) :
    ∃ i', w'.state.intents.get? id = some i' ∧ Beyond i'.state := by
  refine h.beyond_of ?_ hi hb
  rintro j rfl
  generalize hl : Label.addIntent j = l at h
  cases h with
  | addIntent _ hn _ _ _ =>
      cases hl
      exact hn.unstored hids hfresh
  | _ => exact nomatch hl

/-! ## Orderly logs -/

/-- Whatever a log submitted is stored beyond reservation. -/
def Spent (log : List Event) (s : TreasuryState) : Prop :=
  ∀ id, .submitted id ∈ log →
    ∃ i, s.intents.get? id = some i ∧ Beyond i.state

/-- A state that may come after a log, made with the first `n` draws. -/
structure Safe (host : Host) (n : Nat) (log : List Event)
    (s : TreasuryState) : Prop where
  kept : Kept s
  ids : ∀ id i, s.intents.get? id = some i →
    ∃ k, k < n ∧ id = idOfDraw host "intent" k
  spent : Spent log s

/-- The disk holds an intent as executing. -/
def HeldExecuting (log : List Event) (id : String) : Prop :=
  ∃ envelope i, (diskOf log).envelope = some envelope
    ∧ envelope.state.intents.get? id = some i ∧ i.state = .executing

/-- What must hold before an event: a submission is the first of its intent
    and the disk holds it as executing; a state that is written is safe. -/
def MayFollow (host : Host) (n : Nat) (log : List Event) : Event → Prop
  | .submitted id => .submitted id ∉ log ∧ HeldExecuting log id
  | .stateWritten envelope => Safe host n log envelope.state
  | _ => True

/-- **ORDERLY LOGS**: every event may follow what is before it. -/
def Orderly (host : Host) (n : Nat) (log : List Event) : Prop :=
  ∀ before e after, log = before ++ e :: after → MayFollow host n before e

theorem Orderly.nil {n : Nat} : Orderly host n [] :=
  fun _ _ _ h => nomatch List.append_eq_nil_iff.mp h.symm

/-- A log cut short is orderly. -/
theorem Orderly.cut {n : Nat} {log tail : List Event}
    (h : Orderly host n (log ++ tail)) : Orderly host n log := by
  rintro before e after rfl
  exact h before e (after ++ tail) (by rw [List.append_assoc]; rfl)

theorem Orderly.snoc {n : Nat} {log : List Event} {e : Event}
    (h : Orderly host n log) (he : MayFollow host n log e) :
    Orderly host n (log ++ [e]) := by
  intro before e' after heq
  rcases List.eq_nil_or_concat after with rfl | ⟨rest, last, rfl⟩
  · obtain ⟨rfl, hlast⟩ := List.append_inj' heq rfl
    obtain ⟨rfl, _⟩ := List.cons.inj hlast
    exact he
  · rw [List.concat_eq_append, ← List.cons_append, ← List.append_assoc] at heq
    obtain ⟨hlog, _⟩ := List.append_inj' heq rfl
    exact h before e' rest hlog

theorem Safe.mono {m n : Nat} {log : List Event} {s : TreasuryState}
    (h : Safe host m log s) (hle : m ≤ n) : Safe host n log s := by
  refine ⟨h.kept, fun id i hi => ?_, h.spent⟩
  obtain ⟨k, hk, hid⟩ := h.ids id i hi
  exact ⟨k, by omega, hid⟩

theorem Orderly.mono {m n : Nat} {log : List Event} (h : Orderly host m log)
    (hle : m ≤ n) : Orderly host n log := by
  intro before e after heq
  have he := h before e after heq
  cases e with
  | stateWritten envelope => exact Safe.mono he hle
  | _ => exact he

/-- **THE DISK IS SAFE** after an orderly log. -/
theorem Orderly.disk {n : Nat} {log : List Event} (h : Orderly host n log)
    {envelope : PersistedEnvelope}
    (hdisk : (diskOf log).envelope = some envelope) :
    Safe host n log envelope.state := by
  induction log using List.reverseRecOn generalizing envelope with
  | nil => exact nomatch hdisk
  | append_singleton log e ih =>
      have he := h log e [] rfl
      rw [diskOf_append] at hdisk
      -- an event that submits nothing leaves the same spent
      have hsame : (∀ id, e ≠ .submitted id) → ∀ {s}, Safe host n log s →
          Safe host n (log ++ [e]) s := by
        intro hne s hs
        refine ⟨hs.kept, hs.ids, fun id hmem => hs.spent id ?_⟩
        refine (List.mem_append.mp hmem).resolve_right fun hlast => ?_
        exact hne id (List.mem_singleton.mp hlast).symm
      -- only the writing of a state changes what the disk holds
      cases e with
      | stored i => exact hsame nofun (ih h.cut hdisk)
      | keyWritten key => exact hsame nofun (ih h.cut hdisk)
      | stateWritten written =>
          obtain rfl : written = envelope := Option.some.inj hdisk
          exact hsame nofun he
      | submitted id =>
          obtain ⟨_, held, i, hheld, hi, hx⟩ := he
          have hdisk' : (diskOf log).envelope = some envelope := hdisk
          have hs := ih h.cut hdisk'
          obtain rfl := Option.some.inj (hheld.symm.trans hdisk')
          refine ⟨hs.kept, hs.ids, fun id' hmem => ?_⟩
          rcases List.mem_append.mp hmem with hmem | hlast
          · exact hs.spent id' hmem
          · obtain ⟨rfl⟩ : id' = id := by
              simpa using List.mem_singleton.mp hlast
            refine ⟨i, hi, ?_⟩
            rw [hx]
            exact ⟨nofun, nofun, nofun⟩

/-! ## A broker that is up -/

/-- The log is orderly and memory is safe after it. -/
structure Alive (host : Host) (w : World) : Prop where
  log : Orderly host w.drawn w.log
  memory : Safe host w.drawn w.log w.state

theorem Change.alive (h : Change host l w w') (hno : ∀ id, l ≠ .submit id)
    (hfresh : FreshBelow host w'.drawn) (hw : Alive host w) :
    Alive host w' := by
  have hdrawn := h.advance.drawn
  have hspent : ∀ id, .submitted id ∈ w.log →
      ∃ i, w'.state.intents.get? id = some i ∧ Beyond i.state := by
    intro id hmem
    obtain ⟨i, hi, hb⟩ := hw.memory.spent id hmem
    exact h.beyond hw.memory.ids hfresh hi hb
  have hsafe : (∀ id, .submitted id ∈ w'.log → .submitted id ∈ w.log) →
      Safe host w'.drawn w'.log w'.state := fun hsub =>
    ⟨h.kept hw.memory.kept, h.idsDrawn hw.memory.ids,
      fun id hmem => hspent id (hsub id hmem)⟩
  rcases h.logged with heq | ⟨e, heq, he⟩
  · exact ⟨heq ▸ hw.log.mono hdrawn, hsafe fun id hmem => heq ▸ hmem⟩
  · refine ⟨?_, hsafe fun id hmem => ?_⟩
    · rw [heq]
      refine (hw.log.mono hdrawn).snoc ?_
      cases e with
      | stored i => trivial
      | keyWritten key => trivial
      | stateWritten envelope =>
          have hstate : envelope.state = w.state := he
          show Safe host _ _ envelope.state
          rw [hstate]
          exact hw.memory.mono hdrawn
      | submitted id => exact absurd he (hno id)
    · rw [heq] at hmem
      refine (List.mem_append.mp hmem).resolve_right fun hlast => ?_
      rw [← List.mem_singleton.mp hlast] at he
      exact hno id he

/-- **A PATH WITHOUT SUBMISSIONS** keeps a broker alive, also when it gives
    up. -/
theorem Path.alive {allowed : Label → Prop} {n : Nat}
    (h : Path host allowed w w') (hno : Unsubmitting allowed)
    (hfresh : FreshBelow host n) (hn : w'.drawn ≤ n) (hw : Alive host w) :
    Alive host w' := by
  refine h.invariant (I := fun v => v.drawn ≤ n → Alive host v) ?_ ?_
    (fun _ => hw) hn
  · intro l a b hl hc ha hb
    have hdrawn := hc.advance.drawn
    exact hc.alive (fun id heq => hno id (heq ▸ hl)) (hfresh.mono hb)
      (ha (by omega))
  · intro a b hp ha hb hdrawn
    have hle := (Path.advance hp).drawn
    have hb' := hb hdrawn
    have hsafe := (ha (Nat.le_trans hle hdrawn)).memory
    refine ⟨hb'.log, hsafe.kept, (hsafe.mono hle).ids, fun id hmem => ?_⟩
    exact hsafe.spent id (Path.unsubmitted hp hno hmem)

theorem saving_unsubmitting : Unsubmitting Saving := fun _ h => h

theorem after_unsubmitting (id : String) : Unsubmitting (AfterSubmit id) :=
  fun _ h => h

theorem recovering_unsubmitting : Unsubmitting Recovering := fun _ h => h

theorem allowed_unsubmitting (actor : Actor) (request : Request) :
    Unsubmitting (Allowed actor request) := by
  rintro id (h | h)
  · cases request <;> exact h
  · exact h

/-- A reserved intent was not submitted before. -/
theorem Change.unsubmitted {id : String} (h : Change host (.reserve id) w w')
    (hw : Spent w.log w.state) : .submitted id ∉ w.log := by
  generalize hl : Label.reserve id = l at h
  cases h with
  | reserve _ hi hr _ _ _ _ _ =>
      cases hl
      intro hmem
      obtain ⟨j, hj, hb⟩ := hw _ hmem
      obtain rfl := Option.some.inj (hi.symm.trans hj)
      exact hr.executable.elim (fun h => hb.2.1 h) (fun h => hb.2.2 h)
  | _ => exact nomatch hl

/-- **THE SUBMISSION ITSELF**: the first of its intent, with the intent
    executing on the disk. -/
theorem Change.submits {id : String} (h : Change host (.submit id) w w')
    (hw : Alive host w) (hdisk : OnDisk w.log w.state)
    (hnew : .submitted id ∉ w.log) : Alive host w' := by
  have hdrawn := h.advance.drawn
  have hstate := h.submitted_state
  generalize hl : Label.submit id = l at h
  cases h with
  | @submit _ _ i _ hs hi hx hlog =>
      cases hl
      obtain ⟨envelope, henv, heq⟩ := hdisk
      refine ⟨?_, ?_⟩
      · rw [hlog]
        exact (hw.log.mono hdrawn).snoc
          ⟨hnew, envelope, i, henv, by rw [heq]; exact hi, hx⟩
      · rw [hlog, hs]
        refine ⟨hw.memory.kept, (hw.memory.mono hdrawn).ids, fun id hmem => ?_⟩
        rcases List.mem_append.mp hmem with hmem | hlast
        · exact hw.memory.spent id hmem
        · obtain rfl : id = i.id := by
            simpa using List.mem_singleton.mp hlast
          refine ⟨i, hi, ?_⟩
          rw [hx]
          exact ⟨nofun, nofun, nofun⟩
  | _ => exact nomatch hl

/-- **A DURABLE ATTEMPT** keeps a broker alive. -/
theorem Attempt.alive {id : String} {n : Nat}
    (h : Attempt host True id w w') (hfresh : FreshBelow host n)
    (hn : w'.drawn ≤ n) (hw : Alive host w) : Alive host w' := by
  -- what leads up to the submission submits nothing
  have hpre : ∀ {b c}, Change host (.reserve id) w b →
      Path host BeforeSubmit b c →
      Path host (fun l => l = .reserve id ∨ BeforeSubmit l) w c :=
    fun hr hp => Transition.Reaches.trans (.single (Or.inl rfl) hr)
      (hp.mono fun _ => Or.inr)
  have hno : Unsubmitting (fun l => l = .reserve id ∨ BeforeSubmit l) := by
    rintro id' (h | h)
    · exact nomatch h
    · exact h
  cases h with
  | refused hp => exact hp.alive saving_unsubmitting hfresh hn hw
  | undone hr hp hback =>
      subst hback
      exact Path.alive (.rollback (.refl w) (hpre hr hp)) hno hfresh hn hw
  | @finished b c d hr hp hs ha =>
      have hcd : c.drawn ≤ d.drawn := by
        rcases hs with rfl | ⟨hsub, _⟩
        · exact Nat.le_refl _
        · exact hsub.advance.drawn
      have hle := (Path.advance ha).drawn
      have hc : Alive host c :=
        Path.alive (hpre hr hp) hno hfresh (by omega) hw
      refine Path.alive ha (after_unsubmitting id) hfresh hn ?_
      rcases hs with rfl | ⟨hsub, hdisk⟩
      · exact hc
      · refine hsub.submits hc (hdisk trivial) fun hmem => ?_
        exact hr.unsubmitted hw.memory.spent
          (Path.unsubmitted (hpre hr hp) hno hmem)

theorem Behaves.alive {c : Call} {n : Nat} (h : Behaves host w w' c)
    (hd : c.durable) (hfresh : FreshBelow host n) (hn : w'.drawn ≤ n)
    (hw : Alive host w) : Alive host w' := by
  cases h with
  | @attempt _ id _ h =>
      have hdurable : c.durable = True := eq_true hd
      rw [hdurable] at h
      exact h.alive hfresh hn hw
  | ordinary _ _ h =>
      cases h with
      | refused hp => exact hp.alive saving_unsubmitting hfresh hn hw
      | served _ hp => exact hp.alive (allowed_unsubmitting _ _) hfresh hn hw
  | recovery h => exact h.path.alive recovering_unsubmitting hfresh hn hw

/-! ## Restarting -/

/-- What a broker does before it serves: it recovers, and saves. -/
structure Reopened (host : Host) (w w' : World) : Prop where
  recovered : ∃ u, Recovered host (executingIds w.state) w u
    ∧ Path host Saving u w'

theorem recoverAndSave_spec (hk : Keyed w.state) :
    wp (recoverAndSave host)
      (fun _ w' => Reopened host w w' ∧ ∃ u, w'.state = u.state
        ∧ Recovered host (executingIds w.state) w u
        ∧ AllUnknown (executingIds w.state) u.state)
      (fun _ w' => Reopened host w w') w := by
  unfold recoverAndSave
  refine line (wp_mono (recover_spec hk) (fun _ _ h => h)
    (fun _ u h => ⟨u, h, .refl u⟩)) ?_
  rintro n u ⟨hr, hu⟩
  rw [wp_ite, wp_pure]
  refine ⟨fun _ => ?_, fun _ => ⟨⟨u, hr, .refl u⟩, u, rfl, hr, hu⟩⟩
  refine wp_mono saveTo_spec ?_ ?_
  · exact fun _ _ h => ⟨⟨u, hr, h.1⟩, u, h.2.1, hr, hu⟩
  · exact fun _ _ h => ⟨u, hr, h.1⟩

theorem Reopened.path (h : Reopened host w w') :
    Path host (fun l => Recovering l ∨ Saving l) w w' := by
  obtain ⟨u, hr, hp⟩ := h.recovered
  exact Transition.Reaches.trans (hr.path.mono fun _ => Or.inl)
    (hp.mono fun _ => Or.inr)

theorem reopening_unsubmitting :
    Unsubmitting (fun l => Recovering l ∨ Saving l) :=
  fun _ h => h.elim id id

theorem reopened_final (hk : Keyed w.state) :
    Reopened host w (final (recoverAndSave host) w) :=
  wp_final.mp (wp_mono (recoverAndSave_spec hk) (fun _ _ h => h.1)
    (fun _ _ h => h))

theorem reload_ok {r : Wreck} {v : World} (h : reload host r = .ok v) :
    v.log = r.log ∧ v.drawn = r.drawn
      ∧ ∃ envelope, (diskOf r.log).envelope = some envelope
        ∧ v.state = envelope.state := by
  unfold reload loadFrom at h
  simp only [Checks.bind_eq_ok, Checks.pure_eq_ok, Checks.orRefuse_eq_ok] at h
  obtain ⟨_, ⟨_, _, _, _, envelope, henv, _, _, _, _, _, _, rfl⟩, rfl⟩ := h
  exact ⟨rfl, rfl, envelope, henv, rfl⟩

/-- What is loaded from an orderly disk is alive. -/
theorem Orderly.reload {r : Wreck} {v : World} (hr : Orderly host r.drawn r.log)
    (h : reload host r = .ok v) : Alive host v := by
  obtain ⟨hlog, hdrawn, envelope, henv, hstate⟩ := reload_ok h
  refine ⟨?_, ?_⟩
  · rw [hlog, hdrawn]
    exact hr
  · rw [hlog, hdrawn, hstate]
    exact hr.disk henv

/-! ## Runs with crashes -/

/-- A broker that is up is alive and its audit log fits; of one that is down
    the log is orderly. -/
def Sturdy (host : Host) : Broker → Prop
  | .up w => Alive host w ∧ Fits w
  | .down r => Orderly host r.drawn r.log

/-- Whatever the operation, a cut of it is orderly. -/
theorem Alive.wreck {allowed : Label → Prop} (hw' : Alive host w')
    (hp : Path host allowed w w') (k : Nat) :
    Sturdy host (.down (wreckOf w w' k)) := by
  obtain ⟨tail, htail⟩ := Path.grows hp
  show Orderly host w'.drawn (w.log ++ (w'.log.drop w.log.length).take k)
  have hlog := hw'.log
  rw [htail] at hlog ⊢
  rw [List.drop_left]
  refine @Orderly.cut _ _ _ (tail.drop k) ?_
  rw [List.append_assoc, List.take_append_drop]
  exact hlog

theorem Work.perform_path (o : Work) (host : Host) (hk : Kept w.state)
    (hf : Fits w) : Path host anyLabel w (o.perform host w) := by
  cases o with
  | call c => exact (exec_behaves (hk.workable hf) c).path
  | save =>
      have hp : Path host Saving w (final (saveTo host) w) :=
        wp_final.mp (wp_mono saveTo_spec (fun _ _ h => h.1) (fun _ _ h => h.1))
      exact hp.mono fun _ _ => trivial

theorem Work.alive (o : Work) (hd : o.durable) (hf : Fits w)
    (hfresh : FreshBelow host (o.perform host w).drawn) (hw : Alive host w) :
    Alive host (o.perform host w) := by
  cases o with
  | call c =>
      exact (exec_behaves (hw.memory.kept.workable hf) c).alive hd hfresh
        (Nat.le_refl _) hw
  | save =>
      have hp : Path host Saving w (final (saveTo host) w) :=
        wp_final.mp (wp_mono saveTo_spec (fun _ _ h => h.1) (fun _ _ h => h.1))
      exact hp.alive saving_unsubmitting hfresh (Nat.le_refl _) hw

/-- **WHATEVER HAPPENS** keeps a broker sturdy. -/
theorem Happens.sturdy {b b' : Broker} (h : Happens host b b')
    (hfresh : FreshBelow host b'.drawn) (hb : Sturdy host b) :
    Sturdy host b' := by
  cases h with
  | work o hd hfit =>
      exact ⟨o.alive hd hb.2 hfresh hb.1, hfit⟩
  | crash o hd k =>
      exact (o.alive hd hb.2 hfresh hb.1).wreck
        (o.perform_path host hb.1.memory.kept hb.2) k
  | restart hl hr hfit =>
      have hv := Orderly.reload hb hl
      obtain ⟨hopen, _⟩ := wp_ok (recoverAndSave_spec hv.memory.kept.intents) hr
      exact ⟨hopen.path.alive reopening_unsubmitting hfresh (Nat.le_refl _) hv,
        hfit⟩
  | crashAgain hl k =>
      have hv := Orderly.reload hb hl
      have hp := (@reopened_final host _ hv.memory.kept.intents).path
      exact (hp.alive reopening_unsubmitting hfresh (Nat.le_refl _) hv).wreck
        hp k

/-! ## Without fresh ids

    That the counters of a broker only grow does not depend on fresh ids, but
    it does depend on the state being kept, also on the disk. -/

/-- Every state that a log wrote is kept. -/
def WroteKept (log : List Event) : Prop :=
  ∀ envelope, .stateWritten envelope ∈ log → Kept envelope.state

/-- What holds of a broker, up or down. -/
def Tidy : Broker → Prop
  | .up w => (Kept w.state ∧ WroteKept w.log) ∧ Fits w
  | .down r => WroteKept r.log

theorem Path.wroteKept {allowed : Label → Prop} (h : Path host allowed w w')
    (hw : Kept w.state ∧ WroteKept w.log) :
    Kept w'.state ∧ WroteKept w'.log := by
  refine h.invariant (I := fun v => Kept v.state ∧ WroteKept v.log) ?_ ?_ hw
  · rintro l a b _ hc ⟨hk, hwrote⟩
    refine ⟨hc.kept hk, fun envelope hmem => ?_⟩
    rcases hc.logged with heq | ⟨e, heq, he⟩
    · exact hwrote envelope (heq ▸ hmem)
    · rw [heq] at hmem
      rcases List.mem_append.mp hmem with hmem | hlast
      · exact hwrote envelope hmem
      · rw [← List.mem_singleton.mp hlast] at he
        have hstate : envelope.state = a.state := he
        rw [hstate]
        exact hk
  · exact fun a b _ ha hb => ⟨ha.1, hb.2⟩

theorem WroteKept.wreck {allowed : Label → Prop} (h : WroteKept w'.log)
    (hp : Path host allowed w w') (k : Nat) :
    WroteKept (wreckOf w w' k).log := by
  obtain ⟨tail, htail⟩ := Path.grows hp
  intro envelope hmem
  refine h envelope ?_
  have hmem' : .stateWritten envelope
      ∈ w.log ++ (w'.log.drop w.log.length).take k := hmem
  rw [htail, List.drop_left] at hmem'
  rw [htail]
  exact (List.mem_append.mp hmem').elim (List.mem_append_left _)
    (fun h => List.mem_append_right _ (List.mem_of_mem_take h))

theorem diskOf_mem {log : List Event} {envelope : PersistedEnvelope}
    (h : (diskOf log).envelope = some envelope) :
    .stateWritten envelope ∈ log := by
  induction log using List.reverseRecOn with
  | nil => exact nomatch h
  | append_singleton log e ih =>
      rw [diskOf_append] at h
      cases e with
      | stateWritten written =>
          obtain rfl : written = envelope := Option.some.inj h
          exact List.mem_append_right _ (List.mem_singleton_self _)
      | _ => exact List.mem_append_left _ (ih h)

theorem WroteKept.reload {r : Wreck} {v : World} (hr : WroteKept r.log)
    (h : reload host r = .ok v) : Kept v.state ∧ WroteKept v.log := by
  obtain ⟨hlog, _, envelope, henv, hstate⟩ := reload_ok h
  rw [hlog, hstate]
  exact ⟨hr envelope (diskOf_mem henv), hr⟩

/-- Whatever happens, the counters only grow. -/
theorem Happens.tidy {b b' : Broker} (h : Happens host b b') (hb : Tidy b) :
    Tidy b' ∧ b.drawn ≤ b'.drawn := by
  cases h with
  | work o _ hfit =>
      have hp := o.perform_path host hb.1.1 hb.2
      exact ⟨⟨Path.wroteKept hp hb.1, hfit⟩, (Path.advance hp).drawn⟩
  | crash o _ k =>
      have hp := o.perform_path host hb.1.1 hb.2
      exact ⟨(Path.wroteKept hp hb.1).2.wreck hp k, (Path.advance hp).drawn⟩
  | restart hl hr hfit =>
      have hv := WroteKept.reload hb hl
      obtain ⟨hopen, _⟩ := wp_ok (recoverAndSave_spec hv.1.intents) hr
      have hle := (Path.advance hopen.path).drawn
      rw [(reload_ok hl).2.1] at hle
      exact ⟨⟨Path.wroteKept hopen.path hv, hfit⟩, hle⟩
  | crashAgain hl k =>
      have hv := WroteKept.reload hb hl
      have hp := (@reopened_final host _ hv.1.intents).path
      have hle := (Path.advance hp).drawn
      rw [(reload_ok hl).2.1] at hle
      exact ⟨(Path.wroteKept hp hv).2.wreck hp k, hle⟩

theorem Started.tidy {balance : Money} {token : String}
    (h : Started host balance token w) : Tidy (.up w) := by
  refine ⟨⟨h.kept, fun envelope hmem => ?_⟩, h.fits⟩
  rw [h.log] at hmem
  exact nomatch hmem

/-! ## The run theorem -/

theorem Started.sturdy {balance : Money} {token : String}
    (h : Started host balance token w) : Sturdy host (.up w) := by
  refine ⟨⟨?_, h.kept, h.idsDrawn, fun id hmem => ?_⟩, h.fits⟩
  · rw [h.log]
    exact .nil
  · rw [h.log] at hmem
    exact nomatch hmem

theorem BrokerRun.sturdy {b : Broker} (h : BrokerRun host b)
    (hfresh : FreshBelow host b.drawn) : Sturdy host b := by
  obtain ⟨_, _, w0, _, hboot, hsteps⟩ := h
  have hstart := bootstrap_started hboot
  -- for any number of draws that is fresh, not only the last
  have hinv : ∀ n, FreshBelow host n → Tidy b ∧ (b.drawn ≤ n →
      Sturdy host b) := by
    intro n hn
    clear hfresh
    induction hsteps with
    | refl => exact ⟨hstart.tidy, fun _ => hstart.sturdy⟩
    | tail _ hstep ih =>
        obtain ⟨htidy, hsturdy⟩ := ih
        obtain ⟨htidy', hle⟩ := hstep.tidy htidy
        exact ⟨htidy', fun hb => hstep.sturdy (hn.mono hb)
          (hsturdy (Nat.le_trans hle hb))⟩
  exact (hinv b.drawn hfresh).2 (Nat.le_refl _)

theorem Sturdy.log {b : Broker} (h : Sturdy host b) :
    Orderly host b.drawn b.log := by
  cases b with
  | up w => exact h.1.log
  | down r => exact h

/-! ## Trying crashes -/

/-- Bootstrap a treasury, make calls, and cut one more call short. -/
def tryCrash (host : Host) (balance : Money) (calls : String → List Call)
    (last : Call) (k : Nat) (check : Wreck → Bool) : Bool :=
  match bootstrap host "owner" balance with
  | .ok (w0, token) => (runCalls host w0 (calls token)).any
      (fun w => check (wreckOf w (exec host last w) k))
  | .error _ => false

theorem Calls.happens {w0 : World} {cs : List Call} (h : Calls host w0 cs w)
    (hd : ∀ c ∈ cs, c.durable) :
    Relation.ReflTransGen (Happens host) (.up w0) (.up w) := by
  induction h with
  | nil => exact .refl
  | snoc c _ hfit ih =>
      refine .tail (ih fun c' hc' => hd c' (List.mem_append_left _ hc')) ?_
      exact .work (.call c)
        (hd c (List.mem_append_right _ (List.mem_singleton_self _))) hfit

theorem tryCrash_run {balance : Money} {calls : String → List Call}
    {last : Call} {k : Nat} {check : Wreck → Bool}
    (h : tryCrash host balance calls last k check = true)
    (hd : ∀ token, ∀ c ∈ calls token, c.durable) (hlast : last.durable) :
    ∃ r, BrokerRun host (.down r) ∧ check r = true := by
  unfold tryCrash at h
  split at h
  · rename_i w0 token hboot
    obtain ⟨w, hrun, hcheck⟩ := (Option.any_eq_true _ _).mp h
    have hcalls := Calls.happens (runCalls_calls .nil hrun) (hd token)
    exact ⟨_, ⟨_, _, w0, token, hboot,
      hcalls.tail (.crash (.call last) hlast k)⟩, hcheck⟩
  · exact nomatch h

/-- The owner creates an agent, which creates an intent; both are saved. -/
def savedOpening (request : PurchaseRequest) (owner : String) : List Call :=
  [.persisted owner (.ownerCreateAgentPrepared "n" Policy.conservativeDemo
      .boundedAutonomous 3600 agentToken),
    .persisted agentToken (.createPurchaseIntent request)]

/-- The id of the first intent after `savedOpening`. -/
def savedIntent (host : Host) : String := idOfDraw host "intent" 7

/-- Whether an event submits an intent. -/
def isSubmission (id : String) : Event → Bool
  | .submitted id' => decide (id' = id)
  | _ => false

/-- The state of an intent after loading a wreck and after recovering it. -/
def reopenedStates (host : Host) (r : Wreck) (id : String) :
    Option (Option TransactionState × Option TransactionState) :=
  match reload host r with
  | .ok v =>
      match recoverAndSave host v with
      | .ok () w => some ((v.state.intents.get? id).map PurchaseIntent.state,
          (w.state.intents.get? id).map PurchaseIntent.state)
      | .error .. => none
  | .error _ => none

/-- **SUBMITTED AT MOST ONCE**: whatever happened to a broker, the log has at
    most one submission of an intent, and right before it the disk held the
    intent as executing.  A restart leaves no intent executing: those that
    were are unknown, every other intent and the ledger are as on the disk. -/
theorem submitted_at_most_once {b : Broker} (h : BrokerRun host b)
    (hfresh : FreshBelow host b.drawn) :
    (∀ before id after, b.log = before ++ .submitted id :: after →
        .submitted id ∉ before ∧ .submitted id ∉ after
          ∧ HeldExecuting before id)
      ∧ ∀ r v w, b = .down r → reload host r = .ok v →
        recoverAndSave host v = .ok () w →
        w.state.ledger = v.state.ledger
          ∧ (∀ id i, w.state.intents.get? id = some i → i.state ≠ .executing)
          ∧ ∀ id i, v.state.intents.get? id = some i →
            (i.state = .executing → ∃ i', w.state.intents.get? id = some i'
              ∧ i'.state = .unknown)
            ∧ (i.state ≠ .executing → w.state.intents.get? id = some i) := by
  have hsturdy := h.sturdy hfresh
  refine ⟨?_, ?_⟩
  · intro before id after hlog
    have horderly := hsturdy.log
    obtain ⟨hnew, hheld⟩ := horderly before _ after hlog
    refine ⟨hnew, fun hmem => ?_, hheld⟩
    -- a second submission would have found the first before it
    obtain ⟨between, rest, rfl⟩ := List.append_of_mem hmem
    rw [hlog, ← List.cons_append, ← List.append_assoc] at horderly
    obtain ⟨hagain, _⟩ := horderly _ _ rest rfl
    exact hagain (List.mem_append_right _ (List.mem_cons_self ..))
  · rintro r v w rfl hl hr
    have hk := (Orderly.reload hsturdy hl).memory.kept.intents
    obtain ⟨_, u, hstate, hrec, hunknown⟩ :=
      wp_ok (recoverAndSave_spec hk) hr
    rw [hstate]
    refine ⟨hrec.ledger, fun id i hi hx => ?_, fun id i hi => ⟨fun hx => ?_,
      fun hx => ?_⟩⟩
    · rcases hrec.intents id with heq | ⟨_, _, i', _, hi', _, hu⟩
      · -- it was executing before, so it was recovered
        obtain ⟨j, hj, hu⟩ := hunknown id
          ((mem_executingIds hk).mpr ⟨i, heq ▸ hi, hx⟩)
        rw [← Option.some.inj (hi.symm.trans hj), hx] at hu
        exact nomatch hu
      · rw [← Option.some.inj (hi.symm.trans hi'), hx] at hu
        exact nomatch hu
    · exact hunknown id ((mem_executingIds hk).mpr ⟨i, hi, hx⟩)
    · rcases hrec.intents id with heq | ⟨_, j, _, hj, _, hxj, _⟩
      · exact heq.trans hi
      · exact absurd (Option.some.inj (hi.symm.trans hj) ▸ hxj) hx

/-- A broker that crashes right after a submission: the disk has the intent as
    executing, and the restart marks it unknown. -/
theorem submitted_at_most_once_interrupted :
    ∃ r before after v w i, BrokerRun stillHost (.down r)
      ∧ r.log = before ++ .submitted (savedIntent stillHost) :: after
      ∧ HeldExecuting before (savedIntent stillHost)
      ∧ reload stillHost r = .ok v ∧ recoverAndSave stillHost v = .ok () w
      ∧ w.state.ledger = v.state.ledger
      ∧ w.state.intents.get? (savedIntent stillHost) = some i
      ∧ i.state = .unknown := by
  have hcrash : tryCrash stillHost ⟨100000, "CAD"⟩ (savedOpening smallPurchase)
      (.persisted agentToken (.executePurchaseIntent (savedIntent stillHost))) 3
      (fun r => decide (r.drawn ≤ 100)
        && (r.log.any (isSubmission (savedIntent stillHost))
        && decide (reopenedStates stillHost r (savedIntent stillHost)
          = some (some .executing, some .unknown)))) = true := by
    decide +kernel
  obtain ⟨r, hrun, hcheck⟩ := tryCrash_run hcrash
    (fun token c hc => by
      rcases List.mem_cons.mp hc with rfl | hc
      · trivial
      · rw [List.mem_singleton.mp hc]
        trivial)
    trivial
  rw [Bool.and_eq_true, Bool.and_eq_true] at hcheck
  obtain ⟨hdrawn, hsubmitted, hstates⟩ := hcheck
  have hfresh : FreshBelow stillHost r.drawn :=
    plainHost_fresh (Nat.le_trans (of_decide_eq_true hdrawn) (by decide))
  obtain ⟨e, he, hsub⟩ := List.any_eq_true.mp hsubmitted
  obtain ⟨before, after, hlog⟩ := List.append_of_mem he
  obtain ⟨honce, hrestart⟩ := submitted_at_most_once hrun hfresh
  cases e with
  | submitted id =>
      obtain rfl := of_decide_eq_true hsub
      obtain ⟨_, _, hheld⟩ := honce before _ after hlog
      have hstates := of_decide_eq_true hstates
      unfold reopenedStates at hstates
      split at hstates
      · rename_i v hv
        split at hstates
        · rename_i w hw
          obtain ⟨hloaded, hrecovered⟩ :=
            Prod.mk.inj (Option.some.inj hstates)
          obtain ⟨j, hj, hx⟩ := Option.map_eq_some_iff.mp hloaded
          obtain ⟨hledger, _, hall⟩ := hrestart r v w rfl hv hw
          obtain ⟨i, hi, hu⟩ := (hall _ j hj).1 hx
          exact ⟨r, before, after, v, w, i, hrun, hlog, hheld, hv, hw, hledger,
            hi, hu⟩
        · exact nomatch hstates
      · exact nomatch hstates
  | _ => exact nomatch hsub

end Treasury
