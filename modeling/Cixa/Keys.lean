import Cixa.Correspondence

/-! # Keys — an idempotency key names one intent

    Creating an intent looks for the agent's key before anything else can
    refuse the request, and only a request whose key is NEW is stored.  So an
    agent's key names at most one intent for ever, and with it at most one
    hold, one settlement and one refund; and repeating a request is answered
    from the store, whatever else has changed since. -/

namespace Treasury

open CixaData CixaHost Outcome Transition

variable {host : Host} {w w' : World} {l : Label} {c : Call} {id : String}
  {i : PurchaseIntent}

/-! ## One intent for a key -/

/-- Two intents have the same agent and the same key. -/
def SameKey (i j : PurchaseIntent) : Prop :=
  i.agentId = j.agentId ∧ i.request.idempotencyKey = j.request.idempotencyKey

/-- **KEYS BIND ONCE**: intents with the same agent and key are one. -/
def Bound (s : TreasuryState) : Prop :=
  ∀ id i id' j, s.intents.get? id = some i → s.intents.get? id' = some j →
    SameKey i j → id = id'

theorem Continues.sameKey {i' : PurchaseIntent} (h : Continues i i') :
    SameKey i i' :=
  ⟨h.agentId.symm, congrArg PurchaseRequest.idempotencyKey h.request.symm⟩

theorem SameKey.trans {j k : PurchaseIntent} (h : SameKey i j)
    (h' : SameKey j k) : SameKey i k :=
  ⟨h.1.trans h'.1, h.2.trans h'.2⟩

theorem SameKey.symm {j : PurchaseIntent} (h : SameKey i j) : SameKey j i :=
  ⟨h.1.symm, h.2.symm⟩

/-- Only a new intent has a key that its agent did not have. -/
theorem Change.bound (h : Change host l w w') (hw : Bound w.state) :
    Bound w'.state := by
  cases h.intents with
  | none hs _ =>
      unfold Bound
      rw [hs]
      exact hw
  | @next i0 i1 hi0 hc _ hs _ =>
      -- the same ids with the same keys were stored before
      have hbefore : ∀ id j, w'.state.intents.get? id = some j →
          ∃ j0, w.state.intents.get? id = some j0 ∧ SameKey j0 j := by
        intro id j hj
        rw [hs, SortedMap.get?_insert] at hj
        split at hj
        · rename_i hid
          rw [hid, ← Option.some.inj hj]
          exact ⟨i0, hi0, hc.sameKey⟩
        · exact ⟨j, hj, rfl, rfl⟩
      intro id i id' j hi hj hsame
      obtain ⟨i0, hi0, h0⟩ := hbefore id i hi
      obtain ⟨j0, hj0, h1⟩ := hbefore id' j hj
      exact hw id i0 id' j0 hi0 hj0 ((h0.trans hsame).trans h1.symm)
  | @new n _ hn hs _ =>
      have hcase : ∀ id j, w'.state.intents.get? id = some j →
          (id = n.id ∧ j = n) ∨ w.state.intents.get? id = some j := by
        intro id j hj
        rw [hs, SortedMap.get?_insert] at hj
        split at hj
        · rename_i hid
          exact Or.inl ⟨hid, (Option.some.inj hj).symm⟩
        · exact Or.inr hj
      intro id i id' j hi hj hsame
      rcases hcase id i hi with ⟨rfl, rfl⟩ | hi
      · rcases hcase id' j hj with ⟨rfl, _⟩ | hj
        · rfl
        · exact absurd hsame.2.symm (hn.unbound id' j hj hsame.1.symm)
      · rcases hcase id' j hj with ⟨rfl, rfl⟩ | hj
        · exact absurd hsame.2 (hn.unbound id i hi hsame.1)
        · exact hw id i id' j hi hj hsame

/-- Every agent has the scopes that agents are made with. -/
def Scoped (s : TreasuryState) : Prop :=
  ∀ id r, s.agents.get? id = some r → r.scopes = agentScopes

theorem Change.scoped (h : Change host l w w') (hw : Scoped w.state) :
    Scoped w'.state := by
  intro id r hr
  rcases h.agents with heq | ⟨id', _, _, r', _, _, hn, heq⟩
    | ⟨id', _, r0, r', _, hr0, he, heq⟩
  · exact hw id r (heq ▸ hr)
  · rw [heq, SortedMap.get?_insert] at hr
    split at hr
    · rw [← Option.some.inj hr]
      exact hn.scopes
    · exact hw id r hr
  · rw [heq, SortedMap.get?_insert] at hr
    split at hr
    · rw [← Option.some.inj hr, he.fixed.2.2]
      exact hw id' r0 hr0
    · exact hw id r hr

theorem Started.keys {balance : Money} {token : String}
    (h : Started host balance token w) : Bound w.state ∧ Scoped w.state := by
  obtain ⟨_, _, _, _, _, _, _, _, hs⟩ := h.state
  rw [hs]
  exact ⟨fun _ _ _ _ hi => (nomatch hi), fun _ _ hr => (nomatch hr)⟩

theorem TreasuryRun.keys {token : String} {w0 : World} {cs : List Call}
    (h : TreasuryRun host token w0 cs w) : Bound w.state ∧ Scoped w.state := by
  obtain ⟨balance, hs⟩ := h.balance
  exact h.path.invariant (I := fun v => Bound v.state ∧ Scoped v.state)
    (fun _ _ _ _ hc hv => ⟨hc.bound hv.1, hc.scoped hv.2⟩)
    (fun _ _ _ ha _ => ha) hs.keys

/-! ## The owner's token -/

/-- **THE OWNER'S TOKEN** is the owner's in every reachable world, whatever
    the clock shows. -/
theorem TreasuryRun.ownerToken {host' : Host} {token : String} {w0 : World}
    {cs : List Call} (h : TreasuryRun host token w0 cs w)
    (hhash : tokenHash host' token = tokenHash host token) :
    authenticate host' token w = .ok .owner w := by
  obtain ⟨balance, hs⟩ := h.balance
  have howner : w.state.owner.capabilityTokenHash = tokenHash host token := by
    refine h.path.invariant (I := fun v =>
      v.state.owner.capabilityTokenHash = tokenHash host token) ?_ ?_ ?_
    · exact fun _ _ _ _ hc ha => (congrArg _ hc.owner).trans ha
    · exact fun _ _ _ ha _ => ha
    · obtain ⟨_, _, _, hhash, _, _, _, _, hstate⟩ := hs.state
      rw [hstate]
      exact hhash
  have hlength : Chars.byteLen token = 64 := by
    rw [hs.capability, bootstrapToken, Chars.hexEncode_byteLen,
      host.random_length]
  have hplain : ¬(token.toList = [] ∨ Chars.byteLen token > 128) := by
    rintro (hnil | hlong)
    · rw [String.toList_eq_nil_iff.mp hnil] at hlength
      exact absurd hlength (by decide)
    · omega
  refine wp_exact ?_
  unfold authenticate
  rw [wp_bind, wp_readState, wp_bind, wp_rejectIf]
  refine ⟨fun hbad => hplain hbad, fun _ => ?_⟩
  rw [wp_ite, wp_pure]
  exact ⟨fun _ => ⟨rfl, rfl⟩, fun hne => absurd (hhash.trans howner.symm) hne⟩

/-! ## Events for a key -/

/-- The ledger events of a kind for the intents of an agent with a key. -/
def eventsFor (s : TreasuryState) (agentId key : String)
    (kind : LedgerEventKind) : List LedgerEvent :=
  s.ledger.filter (fun e => decide (e.kind = kind)
    && e.intentId.any (fun id => (s.intents.get? id).any (fun i =>
      decide (i.agentId = agentId ∧ i.request.idempotencyKey = key))))

/-- No kind of event occurs twice for an intent. -/
theorem eventKinds_nodup {state : TransactionState} {ks : List LedgerEventKind}
    (h : eventKinds state = some ks) : ks.Nodup := by
  have hall : ∀ state, (eventKinds state).all (fun ks => decide ks.Nodup)
      = true := by
    intro state
    cases state <;> rfl
  have hnodup := hall state
  rw [h] at hnodup
  exact of_decide_eq_true hnodup

/-- Of a list without two events of one kind, a kind keeps at most one. -/
theorem length_filter_kind {events : List LedgerEvent} (kind : LedgerEventKind)
    (h : (events.map LedgerEvent.kind).Nodup) :
    (events.filter (fun e => decide (e.kind = kind))).length ≤ 1 := by
  have hcount := List.nodup_iff_count_le_one.mp h kind
  rw [List.count, List.countP_map, List.countP_eq_length_filter] at hcount
  refine Nat.le_trans (le_of_eq (congrArg List.length ?_)) hcount
  refine List.filter_congr fun e _ => ?_
  show decide (e.kind = kind) = (e.kind == kind)
  exact (beq_eq_decide _ _).symm

/-- **AT MOST ONE EVENT OF A KIND** for an agent's key. -/
theorem Corresponds.once (h : Corresponds host w.state) (hk : Kept w.state)
    (hb : Bound w.state) (agentId key : String) (kind : LedgerEventKind) :
    (eventsFor w.state agentId key kind).length ≤ 1 := by
  by_cases hnone : ∃ id i, w.state.intents.get? id = some i
      ∧ i.agentId = agentId ∧ i.request.idempotencyKey = key
  · obtain ⟨id, i, hi, hagent, hkey⟩ := hnone
    obtain rfl := hk.intents _ _ hi
    have hnodup := eventKinds_nodup (h.accounted _ _ hi).kinds
    refine Nat.le_trans (List.Sublist.length_le ?_)
      (length_filter_kind kind hnodup)
    unfold eventsFor eventsOf
    rw [List.filter_filter]
    refine List.monotone_filter_right _ fun e he => ?_
    obtain ⟨hkind, hany⟩ := Bool.and_eq_true_iff.mp he
    rw [Bool.and_eq_true]
    refine ⟨hkind, ?_⟩
    -- the event's intent has the key, so it is this one
    obtain ⟨id, hid, hany⟩ := (Option.any_eq_true _ _).mp hany
    obtain ⟨j, hj, hsame⟩ := (Option.any_eq_true _ _).mp hany
    obtain ⟨hagent', hkey'⟩ := of_decide_eq_true hsame
    have heq : id = i.id := hb id j i.id i hj hi
      ⟨hagent'.trans hagent.symm, hkey'.trans hkey.symm⟩
    exact decide_eq_true (heq ▸ hid)
  · have hempty : eventsFor w.state agentId key kind = [] := by
      refine List.filter_eq_nil_iff.mpr fun e _ he => ?_
      obtain ⟨_, hany⟩ := Bool.and_eq_true_iff.mp he
      obtain ⟨id, _, hany⟩ := (Option.any_eq_true _ _).mp hany
      obtain ⟨j, hj, hsame⟩ := (Option.any_eq_true _ _).mp hany
      exact hnone ⟨id, j, hj, of_decide_eq_true hsame⟩
    rw [hempty]
    exact Nat.zero_le _

/-! ## Repeated requests -/

/-- How a request for a bound key is answered: by what refuses its normal
    form, by the stored intent, or by a conflict. -/
def answerRepeated (host : Host) (i : PurchaseIntent)
    (request : PurchaseRequest) : Except TreasuryError Json :=
  match normalizeRequest host request with
  | .error e => .error e
  | .ok normal =>
      if i.request = normal then .ok (sanitizedIntent i)
      else .error (.conflict
        "idempotency key is already bound to another request")

/-- The normal form of a request has its key. -/
theorem normalizeRequest_key {request normal : PurchaseRequest}
    (h : normalizeRequest host request = .ok normal) :
    normal.idempotencyKey = request.idempotencyKey := by
  unfold normalizeRequest at h
  simp only [Checks.bind_eq_ok, Checks.pure_eq_ok] at h
  obtain ⟨merchant, _, chain, _, rfl⟩ := h
  rfl

theorem agentScopes_create :
    agentScopes.contains "purchase_intents:create" = true := by decide

/-- **A BOUND KEY** is answered from the store, and changes nothing. -/
theorem createIntent_repeated {agentId : String} {r : AgentRecord}
    {request : PurchaseRequest} (hb : Bound w.state) (hs : Scoped w.state)
    (hr : w.state.agents.get? agentId = some r)
    (hi : w.state.intents.get? id = some i) (hagent : i.agentId = agentId)
    (hkey : i.request.idempotencyKey = request.idempotencyKey) :
    wp (createIntent host (.agent agentId) request)
      (fun v w' => w' = w ∧ answerRepeated host i request = .ok v)
      (fun e w' => w' = w ∧ answerRepeated host i request = .error e) w := by
  have hscope : r.scopes.contains "purchase_intents:create" = true := by
    rw [hs _ _ hr]
    exact agentScopes_create
  unfold createIntent answerRepeated
  rw [wp_bind, wp_readState, requireAgentScope_of hr hscope, wp_bind, wp_lift]
  refine ⟨nofun, fun _ heq => ?_⟩
  cases heq
  rw [agent_ok.mpr hr, wp_bind, wp_lift]
  refine ⟨nofun, fun _ _ => ?_⟩
  rw [wp_bind, wp_lift]
  refine ⟨fun e he => ⟨rfl, by rw [he]⟩, fun normal hnormal => ?_⟩
  rw [hnormal]
  have hkey' : i.request.idempotencyKey = normal.idempotencyKey := by
    rw [hkey, normalizeRequest_key hnormal]
  -- the lookup finds an intent with the key, and there is only one
  cases hfind : w.state.intents.values.find? (fun intent =>
      decide (intent.agentId = agentId
        ∧ intent.request.idempotencyKey = normal.idempotencyKey)) with
  | none =>
      have hno := List.find?_eq_none.mp hfind i (SortedMap.mem_values_of_get? hi)
      exact absurd (decide_eq_true ⟨hagent, hkey'⟩) hno
  | some j =>
      have hfound := List.find?_some hfind
      obtain ⟨hagent', hkey''⟩ := of_decide_eq_true hfound
      obtain ⟨id', hj⟩ := SortedMap.mem_values.mp (List.mem_of_find?_eq_some hfind)
      obtain rfl : id' = id := hb id' j id i hj hi
        ⟨hagent'.trans hagent.symm, hkey''.trans hkey'.symm⟩
      obtain rfl : j = i := Option.some.inj (hj.symm.trans hi)
      dsimp only
      rw [wp_ite, wp_pure, wp_throw]
      refine ⟨fun heq => ⟨rfl, ?_⟩, fun hne => ⟨rfl, ?_⟩⟩
      · rw [if_pos heq]
      · rw [if_neg hne]

/-- A token that authenticates as an agent is of a stored agent. -/
theorem authenticate_stored {token agentId : String} {a : World}
    (hk : Kept w.state)
    (h : authenticate host token w = .ok (.agent agentId) a) :
    Quiet w a ∧ ∃ r, w.state.agents.get? agentId = some r := by
  obtain ⟨hq, k, r, _, rfl, hactive⟩ := wp_ok authenticate_spec h
  obtain ⟨id, hr⟩ := SortedMap.mem_values.mp (List.mem_of_find?_eq_some hactive)
  exact ⟨hq, r, by rw [hk.agents id r hr]; exact hr⟩

/-- A program that is given what it is run on. -/
theorem wp_of_run {α : Type} {x : Op α} {a : α} {v : World}
    {Q : α → World → Prop} {E : TreasuryError → World → Prop}
    (hx : x w = .ok a v) (h : Q a v) : wp x Q E w := by
  refine wp_mono (wp_self x) (fun b u hb => ?_) (fun e u he => ?_)
  · rw [hx] at hb
    cases hb
    exact h
  · rw [hx] at he
    exact nomatch he

theorem handle_repeated {token agentId : String} {a : World}
    {request : PurchaseRequest} (hk : Kept w.state) (hb : Bound w.state)
    (hs : Scoped w.state)
    (hauth : authenticate host token w = .ok (.agent agentId) a)
    (hi : w.state.intents.get? id = some i) (hagent : i.agentId = agentId)
    (hkey : i.request.idempotencyKey = request.idempotencyKey) :
    wp (handle host token (.createPurchaseIntent request))
      (fun v w' => w'.state = w.state ∧ answerRepeated host i request = .ok v)
      (fun e w' => w'.state = w.state ∧ answerRepeated host i request = .error e)
      w := by
  obtain ⟨hq, r, hr⟩ := authenticate_stored hk hauth
  have hstate := hq.state
  unfold handle
  rw [wp_bind]
  refine wp_of_run hauth ?_
  refine wp_mono (createIntent_repeated (hstate ▸ hb) (hstate ▸ hs)
    (hstate ▸ hr) (hstate ▸ hi) hagent hkey) ?_ ?_
  · rintro v _ ⟨rfl, h⟩
    exact ⟨hstate, h⟩
  · rintro e _ ⟨rfl, h⟩
    exact ⟨hstate, h⟩

/-- **KEYS BIND ONCE**: in every reachable world an agent's key names at most
    one intent, and at most one event of each kind; and a request for a bound
    key changes nothing, in memory or saved, and is answered from the store,
    by a conflict, or by what refuses its normal form. -/
theorem keys_bind_once {owner : String} {w0 : World} {cs : List Call}
    (hrun : TreasuryRun host owner w0 cs w) :
    Bound w.state
      ∧ (FreshBelow host w.drawn → ∀ agentId key kind,
        (eventsFor w.state agentId key kind).length ≤ 1)
      ∧ ∀ token agentId a request id i,
        authenticate host token w = .ok (.agent agentId) a →
        w.state.intents.get? id = some i → i.agentId = agentId →
        i.request.idempotencyKey = request.idempotencyKey →
        (exec host (.request token (.createPurchaseIntent request)) w).state
            = w.state
          ∧ (exec host (.persisted token (.createPurchaseIntent request))
            w).state = w.state
          ∧ result (handle host token (.createPurchaseIntent request)) w
            = answerRepeated host i request := by
  obtain ⟨hk, _⟩ := hrun.kept
  obtain ⟨hb, hscoped⟩ := hrun.keys
  refine ⟨hb, fun hfresh agentId key kind => ?_, ?_⟩
  · obtain ⟨balance, hs⟩ := hrun.balance
    have hcorr := hrun.path.corresponds hfresh (Nat.le_refl _) hs.kept
      hs.idsDrawn hs.corresponds.1 hs.corresponds.2
    exact hcorr.1.once hk hb agentId key kind
  intro token agentId a request id i hauth hi hagent hkey
  have hrep := handle_repeated hk hb hscoped hauth hi hagent hkey
  obtain ⟨hok, herr⟩ := wp_iff.mp hrep
  have hsame : wp (handle host token (.createPurchaseIntent request))
      (fun _ w' => w'.state = w.state) (fun _ w' => w'.state = w.state) w :=
    wp_mono hrep (fun _ _ h => h.1) (fun _ _ h => h.1)
  refine ⟨wp_final.mp hsame, ?_, ?_⟩
  · refine wp_final.mp (handleSaved_spec hsame (fun _ h _ => h) ?_ ?_)
    · exact fun v w' hv hp => (saving_state hp).trans hv
    · exact fun _ _ _ _ => rfl
  · cases hr : result (handle host token (.createPurchaseIntent request)) w with
    | ok v => exact (hok v hr).2.symm
    | error e => exact (herr e hr).2.symm

/-- Whether a token authenticates as an agent. -/
def isToken (host : Host) (token agentId : String) (w : World) : Bool :=
  match authenticate host token w with
  | .ok actor _ => decide (actor = .agent agentId)
  | .error _ _ => false

theorem isToken_run {token agentId : String}
    (h : isToken host token agentId w = true) :
    ∃ a, authenticate host token w = .ok (.agent agentId) a := by
  unfold isToken at h
  split at h
  · rename_i actor a hauth
    exact ⟨a, by rw [hauth, of_decide_eq_true h]⟩
  · exact nomatch h

/-- Repeating the request of `opening` is answered with its intent. -/
theorem keys_bind_once_repeated :
    ∃ owner w0 w i, TreasuryRun stillHost owner w0 (opening smallPurchase owner) w
      ∧ w.state.intents.get? (firstIntent stillHost) = some i
      ∧ (exec stillHost (.request agentToken
        (.createPurchaseIntent smallPurchase)) w).state = w.state
      ∧ result (handle stillHost agentToken
        (.createPurchaseIntent smallPurchase)) w = .ok (sanitizedIntent i) := by
  have h : tryRun stillHost ⟨100000, "CAD"⟩ (opening smallPurchase)
      (fun w => isToken stillHost agentToken (idOfDraw stillHost "agent" 4) w
        && (w.state.intents.get? (firstIntent stillHost)).any (fun i =>
          decide (i.agentId = idOfDraw stillHost "agent" 4
            ∧ i.request.idempotencyKey = "k"
            ∧ normalizeRequest stillHost smallPurchase = .ok i.request)))
      = true := by decide +kernel
  obtain ⟨owner, w0, w, hrun, hcheck⟩ := tryRun_run h
  obtain ⟨htoken, hstored⟩ := Bool.and_eq_true_iff.mp hcheck
  obtain ⟨a, hauth⟩ := isToken_run htoken
  obtain ⟨i, hi, hfacts⟩ := (Option.any_eq_true _ _).mp hstored
  obtain ⟨hagent, hkey, hnormal⟩ := of_decide_eq_true hfacts
  obtain ⟨_, _, hrepeat⟩ := keys_bind_once hrun
  obtain ⟨hsame, _, hanswer⟩ := hrepeat agentToken _ a smallPurchase _ i hauth
    hi hagent hkey
  refine ⟨owner, w0, w, i, hrun, hi, hsame, ?_⟩
  rw [hanswer, answerRepeated, hnormal]
  exact if_pos rfl

/-- A purchase from nowhere. -/
def nowherePurchase : PurchaseRequest :=
  { smallPurchase with merchantDomain := "" }

/-- A request for a bound key that has no normal form is neither answered
    with the intent nor with a conflict. -/
theorem keys_bind_once_nowhere :
    ∃ owner w0 w i a message, TreasuryRun stillHost owner w0
        (opening smallPurchase owner) w
      ∧ authenticate stillHost agentToken w
        = .ok (.agent (idOfDraw stillHost "agent" 4)) a
      ∧ w.state.intents.get? (firstIntent stillHost) = some i
      ∧ i.agentId = idOfDraw stillHost "agent" 4
      ∧ i.request.idempotencyKey = nowherePurchase.idempotencyKey
      ∧ result (handle stillHost agentToken
        (.createPurchaseIntent nowherePurchase)) w = .error (.invalid message) := by
  have h : tryRun stillHost ⟨100000, "CAD"⟩ (opening smallPurchase)
      (fun w => isToken stillHost agentToken (idOfDraw stillHost "agent" 4) w
        && ((w.state.intents.get? (firstIntent stillHost)).any (fun i =>
          decide (i.agentId = idOfDraw stillHost "agent" 4
            ∧ i.request.idempotencyKey = "k"))
        && match result (handle stillHost agentToken
            (.createPurchaseIntent nowherePurchase)) w with
          | .error (.invalid _) => true
          | _ => false)) = true := by decide +kernel
  obtain ⟨owner, w0, w, hrun, hcheck⟩ := tryRun_run h
  obtain ⟨htoken, hcheck⟩ := Bool.and_eq_true_iff.mp hcheck
  obtain ⟨hstored, hanswer⟩ := Bool.and_eq_true_iff.mp hcheck
  obtain ⟨a, hauth⟩ := isToken_run htoken
  obtain ⟨i, hi, hfacts⟩ := (Option.any_eq_true _ _).mp hstored
  obtain ⟨hagent, hkey⟩ := of_decide_eq_true hfacts
  generalize hr : result (handle stillHost agentToken
    (.createPurchaseIntent nowherePurchase)) w = x at hanswer
  match x, hanswer with
  | .error (.invalid message), _ =>
      exact ⟨owner, w0, w, i, a, message, hrun, hauth, hi, hagent, hkey, hr⟩

end Treasury
