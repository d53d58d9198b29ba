import Cixa.Calls

/-! # Runs — every sequence of calls from a bootstrapped treasury

    A treasury is bootstrapped once and then called with anything, by anyone.
    The invariants every claim rests on hold in every reachable world:
    intents, agents and policies are stored under their ids, and the
    generation counts the audit entries.  So every call is one of the
    behaviours of `Behaves`, and a run is a path of changes. -/

namespace Treasury

open CixaData CixaHost Outcome Transition

variable {host : Host} {w : World}

/-! ## Calls -/

/-- **THE CALLS** of a treasury's interface. -/
inductive Call where
  | request (token : String) (request : Request)
  | persisted (token : String) (request : Request)
  | controlled (token intentId : String) (executor : CheckoutExecutor)
  | handoff (token intentId : String) (executor : CheckoutExecutor)
  | recover

namespace Call

/-- The program of a call. -/
def perform (host : Host) : Call → Op Json
  | request token r => handle host token r
  | persisted token r => handlePersisted host token r
  | controlled token id executor =>
      executeControlledCheckoutPersisted host token id executor
  | handoff token id executor =>
      ownerExecuteApprovedHandoffPersisted host token id executor
  | recover => do
      let n ← recoverInterruptedExecutions host
      pure (.num n)

/-- The intent a call tries to execute. -/
def attempts : Call → Option String
  | request _ r => executes r
  | persisted _ r => executes r
  | controlled _ id _ => some id
  | handoff _ id _ => some id
  | recover => none

/-- Whether a call submits only what the disk holds. -/
def durable : Call → Prop
  | request .. => False
  | _ => True

/-- The token and the request of a call that carries one. -/
def asks : Call → Option (String × Request)
  | request token r => some (token, r)
  | persisted token r => some (token, r)
  | _ => none

end Call

/-- The world after a call. -/
def exec (host : Host) (c : Call) (w : World) : World :=
  final (c.perform host) w

/-- **WHAT A CALL DOES**: an attempt, a path of what its request permits, or
    a recovery. -/
inductive Behaves (host : Host) (w w' : World) : Call → Prop where
  | attempt {c : Call} {id : String} (hc : c.attempts = some id)
      (h : Attempt host c.durable id w w') : Behaves host w w' c
  | ordinary {c : Call} {token : String} {request : Request}
      (hc : c.asks = some (token, request)) (hx : executes request = none)
      (h : Ordinary host token request w w') : Behaves host w w' c
  | recovery (h : Recovered host (executingIds w.state) w w') :
      Behaves host w w' .recover

theorem exec_behaves (h : Workable w.state) (c : Call) :
    Behaves host w (exec host c w) c := by
  unfold exec
  refine (wp_final (P := fun w' => Behaves host w w' c)).mp ?_
  cases c with
  | request token request =>
      cases hx : executes request with
      | none =>
          exact wp_mono (handle_ordinary h.keyed hx)
            (fun _ _ h => .ordinary rfl hx h) (fun _ _ h => .ordinary rfl hx h)
      | some id =>
          exact wp_mono (handle_attempt h hx) (fun _ _ h => .attempt hx h)
            (fun _ _ h => .attempt hx h)
  | persisted token request =>
      show wp (handlePersisted host token request) _ _ w
      cases request with
      | ownerCreateAgent name p mode ttl =>
          exact (wp_throw _).mpr (.ordinary rfl rfl (.refused (.refl w)))
      | executePurchaseIntent id =>
          exact wp_mono (executePersisted_spec h) (fun _ _ h => .attempt rfl h)
            (fun _ _ h => .attempt rfl h)
      | ownerBeginManualHandoff id =>
          exact wp_mono (handleSaved_handoff h) (fun _ _ h => .attempt rfl h)
            (fun _ _ h => .attempt rfl h)
      | _ =>
          exact wp_mono (handleSaved_ordinary h.keyed rfl)
            (fun _ _ h => .ordinary rfl rfl h) (fun _ _ h => .ordinary rfl rfl h)
  | controlled token id executor =>
      exact wp_mono (executeControlledCheckoutPersisted_spec h)
        (fun _ _ h => .attempt rfl h) (fun _ _ h => .attempt rfl h)
  | handoff token id executor =>
      exact wp_mono (ownerExecuteApprovedHandoffPersisted_spec h)
        (fun _ _ h => .attempt rfl h) (fun _ _ h => .attempt rfl h)
  | recover =>
      refine line (wp_mono (recover_spec h.keyed) (fun _ _ h => h)
        (fun _ _ h => .recovery h)) ?_
      rintro n w' ⟨hr, _⟩
      rw [wp_pure]
      exact .recovery hr

/-- **WHAT A REQUEST LEAVES EITHER WAY**: saved or not, a call leaves what its
    request leaves or what was there before. -/
theorem exec_leaves {c : Call} {token : String} {request : Request}
    {P : TreasuryState → Prop} (hc : c.asks = some (token, request))
    (hx : executes request = none) (hw : P w.state)
    (hspec : wp (handle host token request) (fun _ v => P v.state)
      (fun _ v => P v.state) w) : P (exec host c w).state := by
  cases c with
  | request token' request' =>
      cases hc
      exact (wp_final (P := fun v : World => P v.state)).mp hspec
  | persisted token' request' =>
      cases hc
      have hsaved : wp (handleSaved host token request) (fun _ v => P v.state)
          (fun _ v => P v.state) w :=
        handleSaved_spec (P := fun v => P v.state) hspec (fun _ h _ => h)
          (fun _ _ h hp => by rw [saving_state hp]; exact h) (fun _ _ _ _ => hw)
      cases request with
      | executePurchaseIntent id => exact nomatch hx
      | ownerCreateAgent name p mode ttl => exact hw
      | _ => exact (wp_final (P := fun v : World => P v.state)).mp hsaved
  | _ => exact nomatch hc

/-- Any path at all. -/
def anyLabel : Label → Prop := fun _ => True

theorem Behaves.path {c : Call} {w' : World} (h : Behaves host w w' c) :
    Path host anyLabel w w' := by
  cases h with
  | attempt _ h => exact h.path.mono fun _ _ => trivial
  | ordinary _ _ h =>
      cases h with
      | refused hp => exact hp.mono fun _ _ => trivial
      | served _ hp => exact hp.mono fun _ _ => trivial
  | recovery h => exact h.path.mono fun _ _ => trivial

/-! ## Bootstrapping -/

/-- The world a treasury starts in. -/
structure Started (host : Host) (balance : Money) (token : String)
    (w : World) : Prop where
  currency : balance.currency = "CAD"
  positive : 0 < balance.minor
  bound : balance.minor ≤ 100000
  capability : token = bootstrapToken host
  log : w.log = []
  state : ∃ owner e entry, owner.capabilityTokenHash = tokenHash host token
    ∧ e.kind = .ownerCapital ∧ e.amount = balance ∧ e.intentId = none
    ∧ entry.action = "bootstrap"
    ∧ w.state = ((initialState owner balance).withEvents [e]).withEntry entry

theorem bootstrap_started {name token : String} {balance : Money}
    (h : bootstrap host name balance = .ok (w, token)) :
    Started host balance token w := by
  unfold bootstrap at h
  simp only [Checks.bind_eq_ok, Checks.refuseIf_eq_ok, Checks.pure_eq_ok,
    Prod.mk.injEq] at h
  obtain ⟨_, _, _, hbalance, u, hrun, rfl, rfl⟩ := h
  have hspec : wp (bootstrapEvents host balance)
      (fun _ w' => w'.log = [] ∧ ∃ e entry, e.kind = .ownerCapital
        ∧ e.amount = balance ∧ e.intentId = none ∧ entry.action = "bootstrap"
        ∧ w'.state = ((initialWorld host name balance).state.withEvents
          [e]).withEntry entry)
      (fun _ _ => True) (initialWorld host name balance) := by
    unfold bootstrapEvents
    rw [wp_bind, wp_appendLedger]
    refine wp_audit (fun _ => trivial) fun _ => ?_
    exact ⟨rfl, _, _, rfl, rfl, rfl, rfl, rfl⟩
  obtain ⟨hlog, e, entry, hkind, hamount, hid, haction, hstate⟩ :=
    (wp_iff.mp hspec).1 u hrun
  obtain ⟨hcurrency, hbounds⟩ := not_or.mp hbalance
  obtain ⟨hpos, hmax⟩ := not_or.mp hbounds
  exact ⟨not_not.mp hcurrency, not_le.mp hpos, not_lt.mp hmax, rfl, hlog, _, e,
    entry, rfl, hkind, hamount, hid, haction, hstate⟩

theorem Started.kept {balance : Money} {token : String}
    (h : Started host balance token w) : Kept w.state := by
  obtain ⟨owner, e, entry, _, _, _, _, _, hs⟩ := h.state
  rw [hs]
  refine ⟨fun id i hi => (nomatch hi), fun id r hr => (nomatch hr), ?_, rfl⟩
  intro id p hp
  have hp' : (SortedMap.empty.insert Policy.conservativeDemo.id
      Policy.conservativeDemo).get? id = some p := hp
  rw [SortedMap.get?_insert] at hp'
  split at hp'
  · rename_i hid
    rw [← Option.some.inj hp', hid]
  · exact nomatch hp'

/-! ## Runs -/

/-- The audit log fits into memory. -/
def Fits (w : World) : Prop := w.state.audit.length ≤ 9223372036854775807

theorem Kept.workable (hk : Kept w.state) (hf : Fits w) :
    Workable w.state := by
  refine ⟨hk.intents, ?_⟩
  rw [hk.counted]
  unfold Fits at hf
  unfold u64Max
  omega

theorem Started.fits {balance : Money} {token : String}
    (h : Started host balance token w) : Fits w := by
  obtain ⟨_, _, _, _, _, _, _, _, hs⟩ := h.state
  unfold Fits
  rw [hs]
  show ([] ++ [_] : List AuditEntry).length ≤ _
  simp

/-- A run of calls from a world. -/
abbrev Calls (host : Host) : World → List Call → World → Prop :=
  Run (exec host) Fits

/-- A run of calls from a bootstrapped treasury, whose owner has a token. -/
structure TreasuryRun (host : Host) (token : String) (w0 : World)
    (cs : List Call) (w : World) : Prop where
  started : ∃ name balance, bootstrap host name balance = .ok (w0, token)
  calls : Calls host w0 cs w

/-- **RUNS**: an invariant of the start that every behaviour keeps holds at
    the end. -/
theorem Calls.invariant {w0 : World} {cs : List Call} {I : World → Prop}
    (h : Calls host w0 cs w) (hk : Kept w0.state) (hf : Fits w0) (h0 : I w0)
    (hstep : ∀ c v v', Kept v.state → Behaves host v v' c → I v → I v') :
    Kept w.state ∧ Fits w ∧ I w := by
  -- the invariant may use that the treasury is well formed and in its words
  induction h with
  | nil => exact ⟨hk, hf, h0⟩
  | snoc c _ hfit ih =>
      obtain ⟨hkv, hfv, hv⟩ := ih
      have hb : Behaves host _ _ c := exec_behaves (hkv.workable hfv) c
      exact ⟨hb.path.kept hkv, hfit, hstep c _ _ hkv hb hv⟩

/-- Calls keep a treasury well formed and within its words. -/
theorem Calls.kept {w0 : World} {cs : List Call} (h : Calls host w0 cs w)
    (hk : Kept w0.state) (hf : Fits w0) : Kept w.state ∧ Fits w := by
  obtain ⟨hk', hf', _⟩ := h.invariant hk hf (I := fun _ => True) trivial
    (fun _ _ _ _ _ h => h)
  exact ⟨hk', hf'⟩

/-- Calls one after another are one path. -/
theorem Calls.path {w0 : World} {cs : List Call} (h : Calls host w0 cs w)
    (hk : Kept w0.state) (hf : Fits w0) : Path host anyLabel w0 w :=
  (h.invariant hk hf (.refl w0) (fun _ _ _ _ hb hp => hp.trans hb.path)).2.2

theorem TreasuryRun.balance {token : String} {w0 : World} {cs : List Call}
    (h : TreasuryRun host token w0 cs w) :
    ∃ balance, Started host balance token w0 := by
  obtain ⟨name, balance, hboot⟩ := h.started
  exact ⟨balance, bootstrap_started hboot⟩

theorem TreasuryRun.kept {token : String} {w0 : World} {cs : List Call}
    (h : TreasuryRun host token w0 cs w) : Kept w.state ∧ Fits w := by
  obtain ⟨balance, hs⟩ := h.balance
  exact h.calls.kept hs.kept hs.fits

/-- A run is a path of changes. -/
theorem TreasuryRun.path {token : String} {w0 : World} {cs : List Call}
    (h : TreasuryRun host token w0 cs w) : Path host anyLabel w0 w := by
  obtain ⟨balance, hs⟩ := h.balance
  exact (h.calls.invariant hs.kept hs.fits (.refl w0)
    (fun _ _ _ _ hb hp => hp.trans hb.path)).2.2

/-- A run goes on with a call and then with others. -/
theorem TreasuryRun.andThen {token : String} {w0 v : World}
    {cs ds : List Call} (h : TreasuryRun host token w0 cs v) (c : Call)
    (hfit : Fits (exec host c v)) (hds : Calls host (exec host c v) ds w) :
    TreasuryRun host token w0 (cs ++ c :: ds) w := by
  have hall : Calls host w0 ((cs ++ [c]) ++ ds) w :=
    (Run.snoc c h.calls hfit).append hds
  rw [List.append_assoc] at hall
  exact ⟨h.started, hall⟩

/-! ## Fresh draws -/

/-- The identifiers drawn so far are different. -/
def FreshBelow (host : Host) (n : Nat) : Prop :=
  ∀ i j, i < n → j < n → host.random i 12 = host.random j 12 → i = j

/-- With fresh draws an identifier says when it was drawn. -/
theorem FreshBelow.idOfDraw {n i j : Nat} {kind : String}
    (h : FreshBelow host n) (hi : i < n) (hj : j < n)
    (heq : idOfDraw host kind i = idOfDraw host kind j) : i = j := by
  unfold Treasury.idOfDraw at heq
  have hlist := congrArg String.toList heq
  simp only [String.toList_append] at hlist
  have hhex := String.toList_inj.mp (List.append_cancel_left hlist)
  exact h i j hi hj (Chars.hexEncode_inj hhex)

/-- Every stored intent has an id that was drawn. -/
def IdsDrawn (host : Host) (w : World) : Prop :=
  ∀ id i, w.state.intents.get? id = some i →
    ∃ k, k < w.drawn ∧ id = Treasury.idOfDraw host "intent" k

theorem DrawnIn.below {a b : World} {kind id : String}
    (h : DrawnIn host a b kind id) :
    ∃ k, k < b.drawn ∧ id = Treasury.idOfDraw host kind k := by
  obtain ⟨k, _, hk, hid⟩ := h
  exact ⟨k, hk, hid⟩

/-- An identifier drawn between two worlds is none that was drawn before. -/
theorem DrawnIn.ne_before {a b : World} {kind id id' : String}
    (h : DrawnIn host a b kind id) (hfresh : FreshBelow host b.drawn)
    (hbefore : ∃ k, k < a.drawn ∧ id' = Treasury.idOfDraw host kind k) :
    id' ≠ id := by
  obtain ⟨i, hlo, hhi, hid⟩ := h
  obtain ⟨k, hk, hid'⟩ := hbefore
  intro heq
  rw [hid, hid'] at heq
  have := hfresh.idOfDraw (by omega) hhi heq
  omega

theorem Change.idsDrawn {l : Label} {w' : World} (h : Change host l w w')
    (hids : IdsDrawn host w) : IdsDrawn host w' := by
  have hdrawn := h.advance.drawn
  have hold : ∀ id, (∃ i, w.state.intents.get? id = some i) →
      ∃ k, k < w'.drawn ∧ id = Treasury.idOfDraw host "intent" k := by
    rintro id ⟨i, hi⟩
    obtain ⟨k, hk, hid⟩ := hids id i hi
    exact ⟨k, by omega, hid⟩
  intro id i hi
  cases h.intents with
  | none hs _ => exact hold id ⟨i, hs ▸ hi⟩
  | new _ hn hs _ =>
      rw [hs, SortedMap.get?_insert] at hi
      split at hi
      · rename_i heq
        rw [heq]
        exact hn.id.below
      · exact hold id ⟨i, hi⟩
  | next hi' _ _ hs _ =>
      rw [hs, SortedMap.get?_insert] at hi
      split at hi
      · rename_i heq
        exact hold id ⟨_, heq ▸ hi'⟩
      · exact hold id ⟨i, hi⟩

theorem IdsDrawn.restore {a b : World} (h : IdsDrawn host a)
    (hadv : Advance a b) : IdsDrawn host (a.restoreState b) := by
  intro id i hi
  obtain ⟨k, hk, hid⟩ := h id i hi
  exact ⟨k, Nat.lt_of_lt_of_le hk hadv.drawn, hid⟩

/-- A new intent's id is not stored yet. -/
theorem NewIntent.unstored {w' : World} {i : PurchaseIntent}
    (hn : NewIntent host w w' i) (hids : IdsDrawn host w)
    (hfresh : FreshBelow host w'.drawn) : w.state.intents.get? i.id = none := by
  cases hget : w.state.intents.get? i.id with
  | none => rfl
  | some j => exact absurd rfl (hn.id.ne_before hfresh (hids _ _ hget))

theorem FreshBelow.mono {m n : Nat} (h : FreshBelow host n) (hle : m ≤ n) :
    FreshBelow host m :=
  fun i j hi hj => h i j (by omega) (by omega)

/-! ## What stays of an intent -/

theorem Continues.refl (i : PurchaseIntent) : Continues i i :=
  ⟨rfl, rfl, rfl, rfl, rfl, rfl⟩

theorem Continues.trans {i j k : PurchaseIntent} (h : Continues i j)
    (h' : Continues j k) : Continues i k :=
  ⟨h'.id.trans h.id, h'.agentId.trans h.agentId,
    h'.brokerSessionId.trans h.brokerSessionId, h'.request.trans h.request,
    h'.policyVersion.trans h.policyVersion, h'.createdAt.trans h.createdAt⟩

/-- Every stored intent stays stored, as itself. -/
def Persists (w w' : World) : Prop :=
  ∀ id i, w.state.intents.get? id = some i →
    ∃ i', w'.state.intents.get? id = some i' ∧ Continues i i'

theorem Change.persists {l : Label} {w' : World} (h : Change host l w w')
    (hids : IdsDrawn host w) (hfresh : FreshBelow host w'.drawn) :
    Persists w w' := by
  intro id i hi
  cases h.intents with
  | none hs _ => exact ⟨i, hs ▸ hi, .refl i⟩
  | @new j _ hn hs _ =>
      have hne : id ≠ j.id := by
        rintro rfl
        rw [hn.unstored hids hfresh] at hi
        exact nomatch hi
      exact ⟨i, by rw [hs, SortedMap.get?_insert_of_ne _ _ hne]; exact hi,
        .refl i⟩
  | @next j j' hj hc _ hs _ =>
      by_cases hid : id = j.id
      · rw [hid, hj] at hi
        refine ⟨j', by rw [hs, hid, SortedMap.get?_insert_self], ?_⟩
        rw [← Option.some.inj hi]
        exact hc
      · exact ⟨i, by rw [hs, SortedMap.get?_insert_of_ne _ _ hid]; exact hi,
          .refl i⟩

/-- **INTENTS PERSIST** along a path with fresh draws. -/
theorem Path.persists {allowed : Label → Prop} {n : Nat} {w' : World}
    (h : Path host allowed w w') (hfresh : FreshBelow host n)
    (hn : w'.drawn ≤ n) (hids : IdsDrawn host w) :
    IdsDrawn host w' ∧ Persists w w' := by
  have hrel : Advance w w' ∧ (w'.drawn ≤ n → IdsDrawn host w →
      IdsDrawn host w' ∧ Persists w w') := by
    refine h.rel (R := fun a b => Advance a b ∧ (b.drawn ≤ n →
      IdsDrawn host a → IdsDrawn host b ∧ Persists a b)) ?_ ?_ ?_ ?_
    · exact fun a => ⟨.refl a, fun _ ha => ⟨ha, fun _ i hi => ⟨i, hi, .refl i⟩⟩⟩
    · rintro a b c ⟨hab, h1⟩ ⟨hbc, h2⟩
      refine ⟨hab.trans hbc, fun hc ha => ?_⟩
      obtain ⟨hb, hp⟩ := h1 (Nat.le_trans hbc.drawn hc) ha
      obtain ⟨hc', hp'⟩ := h2 hc hb
      refine ⟨hc', fun id i hi => ?_⟩
      obtain ⟨j, hj, hij⟩ := hp id i hi
      obtain ⟨k, hk, hjk⟩ := hp' id j hj
      exact ⟨k, hk, hij.trans hjk⟩
    · exact fun l a b _ hc => ⟨hc.advance, fun hb ha =>
        ⟨hc.idsDrawn ha, hc.persists ha (hfresh.mono hb)⟩⟩
    · exact fun a b ⟨hab, _⟩ => ⟨hab.restore, fun _ ha =>
        ⟨ha.restore hab, fun _ i hi => ⟨i, hi, .refl i⟩⟩⟩
  exact hrel.2 hn hids

theorem Started.idsDrawn {balance : Money} {token : String}
    (h : Started host balance token w) : IdsDrawn host w := by
  obtain ⟨_, _, _, _, _, _, _, _, hs⟩ := h.state
  intro id i hi
  rw [hs] at hi
  exact nomatch hi

theorem Path.idsDrawn {allowed : Label → Prop} {w' : World}
    (h : Path host allowed w w') (hw : IdsDrawn host w) : IdsDrawn host w' :=
  h.invariant (fun _ _ _ _ hc ha => hc.idsDrawn ha)
    (fun _ _ hp ha _ => ha.restore hp.advance) hw

theorem TreasuryRun.idsDrawn {token : String} {w0 : World} {cs : List Call}
    (h : TreasuryRun host token w0 cs w) : IdsDrawn host w := by
  obtain ⟨balance, hs⟩ := h.balance
  exact h.path.idsDrawn hs.idsDrawn

/-! ## Trying runs -/

instance (w : World) : Decidable (Fits w) :=
  inferInstanceAs (Decidable (_ ≤ _))

/-- Call after call, as long as the audit log fits. -/
def runCalls (host : Host) : World → List Call → Option World
  | w, [] => some w
  | w, c :: cs =>
      if Fits (exec host c w) then runCalls host (exec host c w) cs else none

theorem runCalls_calls {w w' : World} {cs ds : List Call} {w0 : World}
    (h0 : Calls host w0 ds w) (h : runCalls host w cs = some w') :
    Calls host w0 (ds ++ cs) w' := by
  induction cs generalizing w ds with
  | nil =>
      rw [List.append_nil, ← Option.some.inj h]
      exact h0
  | cons c cs ih =>
      unfold runCalls at h
      split at h
      · rename_i hfit
        rw [← List.singleton_append, ← List.append_assoc]
        exact ih (.snoc c h0 hfit) h
      · exact nomatch h

/-- Bootstrap a treasury, make calls with the owner's token, and check the
    world at the end. -/
def tryRun (host : Host) (balance : Money) (calls : String → List Call)
    (check : World → Bool) : Bool :=
  match bootstrap host "owner" balance with
  | .ok (w0, token) => (runCalls host w0 (calls token)).any check
  | .error _ => false

theorem tryRun_run {balance : Money} {calls : String → List Call}
    {check : World → Bool} (h : tryRun host balance calls check = true) :
    ∃ token w0 w, TreasuryRun host token w0 (calls token) w
      ∧ check w = true := by
  unfold tryRun at h
  split at h
  · rename_i w0 token hboot
    cases hrun : runCalls host w0 (calls token) with
    | none =>
        rw [hrun] at h
        exact nomatch h
    | some w =>
        rw [hrun] at h
        exact ⟨token, w0, w, ⟨⟨_, _, hboot⟩, runCalls_calls .nil hrun⟩, h⟩
  · exact nomatch h

/-- The low bytes of a number, least significant first. -/
def lowBytes : Nat → Nat → List UInt8
  | 0, _ => []
  | n + 1, k => UInt8.ofNat k :: lowBytes n (k / 256)

theorem lowBytes_length (n k : Nat) : (lowBytes n k).length = n := by
  induction n generalizing k with
  | zero => rfl
  | succ n ih => exact congrArg (· + 1) (ih (k / 256))

theorem lowBytes_inj {n a b : Nat} (ha : a < 256 ^ n) (hb : b < 256 ^ n)
    (h : lowBytes n a = lowBytes n b) : a = b := by
  induction n generalizing a b with
  | zero => omega
  | succ n ih =>
      obtain ⟨hlow, hrest⟩ := List.cons.inj h
      have hmod : a % 256 = b % 256 := by
        have := congrArg UInt8.toNat hlow
        simpa using this
      have hdiv := ih (by rw [Nat.pow_succ] at ha; omega)
        (by rw [Nat.pow_succ] at hb; omega) hrest
      omega

/-- A host with a given clock, whose draws count and whose libraries are
    plain: the hash is the end of the text, every domain is ASCII. -/
def plainHost (clock : Nat → Int) (hc : ∀ n, 0 ≤ clock n ∧ clock n ≤ 8210266876799)
    : Host where
  clock := clock
  clock_nonneg := fun n => (hc n).1
  clock_le := fun n => (hc n).2
  random := fun i n => lowBytes n i
  random_length := fun i n => lowBytes_length n i
  sha256 := fun bytes => (bytes.reverse ++ List.replicate 32 0).take 32
  sha256_length := fun _ => by simp
  hmacSha256 := fun _ _ => List.replicate 32 0
  hmacSha256_length := fun _ _ => by simp
  domainToAscii := some
  parseUrl := fun _ => none
  setHost := fun _ _ => none
  isWord := fun c => Chars.isAsciiAlphanumeric c || c == '_'
  encodeState := fun _ => []
  saveFault := fun _ => none

theorem plainHost_fresh {clock : Nat → Int}
    {hc : ∀ n, 0 ≤ clock n ∧ clock n ≤ 8210266876799} {n : Nat}
    (hn : n ≤ 256 ^ 12) : FreshBelow (plainHost clock hc) n :=
  fun i j hi hj h => lowBytes_inj (by omega) (by omega) h

/-- The clock of a broker that is faster than its clock. -/
def stillClock : Nat → Int := fun _ => 1000

/-- The plain host whose clock stands still. -/
def stillHost : Host :=
  plainHost stillClock
    (fun _ => show (0 : Int) ≤ 1000 ∧ (1000 : Int) ≤ 8210266876799 by decide)

/-- A purchase that the conservative policy allows. -/
def smallPurchase : PurchaseRequest where
  idempotencyKey := "k"
  amount := ⟨1, "CAD"⟩
  finalTotal := ⟨1, "CAD"⟩
  merchantDomain := "merchant.example.test"
  category := "c"
  items := [⟨"x", 1, 1⟩]
  recurring := false
  trialAutoRenew := false
  storedCard := false
  tipMinor := 0
  preauthorization := false
  installments := false
  fulfillmentProfile := "digital-email"
  paymentForm := .hostedFields
  redirectChain := []
  attempts := 1
  sessionId := "s"
  scenario := .normal

/-- A token an agent is given. -/
def agentToken : String := String.ofList (List.replicate 64 'a')

/-- The owner creates an agent under a policy. -/
def agentWith (p : Policy) (owner : String) : Call :=
  .request owner (.ownerCreateAgentPrepared "n" p .boundedAutonomous 3600
    agentToken)

/-- The owner creates an autonomous agent, which creates an intent. -/
def opening (request : PurchaseRequest) (owner : String) : List Call :=
  [.request owner (.ownerCreateAgentPrepared "n" Policy.conservativeDemo
      .boundedAutonomous 3600 agentToken),
    .request agentToken (.createPurchaseIntent request)]

/-- The parts of a credential reference. -/
def cardUrl : Url where
  scheme := "keychain"
  username := ""
  password := none
  host := some "card"
  port := none
  path := ""
  query := none
  fragment := none
  text := "keychain://card"

/-- The plain host that can read the credential reference, with given
    faults. -/
def cardHost (fault : Nat → Option SaveFault) : Host :=
  { stillHost with
    parseUrl := fun text =>
      if text = "keychain://card" then some cardUrl else none
    saveFault := fault }

/-- A prepaid card whose checkout needs no owner. -/
def prepaidCard : ManualProviderConfiguration where
  credentialReference := "keychain://card"
  providerKind := "macos-keychain"
  lastFour := some "1234"
  balance := ⟨50000, "CAD"⟩
  balanceStatus := .ownerConfirmed
  balanceTtlSecs := 3600
  autonomousCheckout := true

/-- The owner configures a prepaid card before `opening`. -/
def cardOpening (request : PurchaseRequest) (owner : String) : List Call :=
  .request owner (.ownerConfigureManualProvider prepaidCard)
    :: opening request owner

/-- An executor that approves whatever it is asked to pay. -/
def approvingExecutor : CheckoutExecutor where
  executorId := "executor"
  validateOriginAndTotal := fun _ => .ok ⟨⟩
  submitOnce := fun _ => .ok (.approved "reference")

/-- The id of the first intent after `opening`. -/
def firstIntent (host : Host) : String := idOfDraw host "intent" 6

/-- The host of the prepaid card, with a disk that never fails. -/
def soundHost : Host := cardHost fun _ => none

/-- The owner configures a card whose checkout needs the owner, an agent
    creates an intent, and the owner approves it. -/
def approvedOpening (owner : String) : List Call :=
  .request owner (.ownerConfigureManualProvider
      { prepaidCard with autonomousCheckout := false })
    :: opening smallPurchase owner
    ++ [.request owner (.ownerApproveIntent (firstIntent soundHost))]

/-- The owner begins the handoff of the first intent. -/
def beginFirst : Call :=
  .request (bootstrapToken soundHost)
    (.ownerBeginManualHandoff (firstIntent soundHost))

end Treasury
