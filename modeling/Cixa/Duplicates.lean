import Cixa.Approvals
import Cixa.Atomic

/-! # Duplicates — two charges with the same checkout facts

    TWINS are two intents of one agent for the same total at the same
    merchant.  The guard against duplicates runs when an intent is created:
    a twin that was updated in the last fifteen minutes sends the new one to
    the owner.  Nothing looks again when an intent is executed.

    So of two twins that need no owner one is STALE, older than the window,
    from the moment the other is created; and what is created after its twin
    was executed is created later than the window.  If no stale intent is
    executed while it has a rival, no two twins enter execution within the
    window without the owner. -/

namespace Treasury

open CixaData CixaHost Outcome Transition

variable {host : Host} {w w' w0 : World} {l : Label} {id id' : String}
  {i j x y : PurchaseIntent}

/-! ## What the guard lets through -/

/-- A decision that makes an intent valid without the owner allows it. -/
theorem stateOfDecision_validated {d : PolicyDecision}
    (h : stateOfDecision d = .policyValidated) :
    d.requiresApproval = false ∧ d.reasons = [] := by
  unfold stateOfDecision at h
  split at h
  · exact nomatch h
  · rename_i hreasons
    split at h
    · exact nomatch h
    · rename_i hno
      have hask := Bool.eq_false_iff.mpr hno
      exact ⟨hask, not_not.mp fun hne => hreasons ⟨hne, hask⟩⟩

/-- **THE GUARD**: what is valid without the owner was no duplicate. -/
theorem guard_unduplicated {s : TreasuryState} {d : PolicyDecision}
    {duplicate : Bool} (hd : Reasoned d)
    (h : stateOfDecision (guardManual s (guardDuplicate duplicate d))
      = .policyValidated) : duplicate = false := by
  obtain ⟨hask, hreasons⟩ := stateOfDecision_validated h
  unfold guardManual at hask hreasons
  split at hask
  · exact nomatch hask
  · rename_i hmanual
    rw [if_neg hmanual] at hreasons
    unfold guardDuplicate at hask hreasons
    by_cases hdup : duplicate = true ∧ d.allowed = true
    · rw [if_pos hdup] at hask
      exact nomatch hask
    · rw [if_neg hdup] at hreasons
      have hallowed := hd.resolve_right (not_not.mpr hreasons)
      exact Bool.eq_false_iff.mpr fun hd' => hdup ⟨hd', hallowed⟩

/-! ## Twins -/

/-- Two intents of one agent for the same checkout. -/
def Twins (i j : PurchaseIntent) : Prop :=
  i.agentId = j.agentId ∧ sameCheckoutFacts i.request j.request = true

theorem Twins.symm (h : Twins i j) : Twins j i := by
  obtain ⟨hagent, hfacts⟩ := h
  obtain ⟨htotal, hdomain⟩ := of_decide_eq_true hfacts
  exact ⟨hagent.symm, decide_eq_true ⟨htotal.symm, hdomain.symm⟩⟩

/-- The length of the window, in seconds. -/
def duplicateWindow : Int := 15 * 60

/-- **WHAT THE GUARD LOOKED AT**: every twin of a new intent that needs no
    owner came to nothing or was updated before the window. -/
theorem NewIntent.unduplicated (h : NewIntent host w w' i)
    (hx : i.state = .policyValidated) (hclock : Onward host)
    (hj : w.state.intents.get? id = some j) (htwins : Twins j i)
    (hlive : ¬Dead j.state) : ∃ k, k < w'.tick
      ∧ j.updatedAt + duplicateWindow < host.clock k
      ∧ host.clock k ≤ i.createdAt := by
  obtain ⟨r, p, _, _, _, _, used, d, k, w1, w2, _, _, ⟨m, n, hkm, hmn, hn,
    hcreated, _⟩, hrun, hdecision⟩ := h.agent
  rw [h.state, hdecision] at hx
  have hreasoned : Reasoned d :=
    wp_ok (P := fun d _ => Reasoned d) decideRequest_reasoned hrun
  have hnone := guard_unduplicated hreasoned hx
  have hold := List.any_eq_false.mp hnone j (SortedMap.mem_values_of_get? hj)
  refine ⟨k, by omega, ?_, hcreated ▸ hclock k m hkm⟩
  -- otherwise the guard had found the twin
  by_contra hrecent
  refine hold ?_
  have hin : j.updatedAt ≥ host.clock k - 15 * 60 := by
    unfold duplicateWindow at hrecent
    omega
  unfold isDuplicateOf
  rw [decide_eq_true ⟨htwins.1, hin, hlive⟩, htwins.2]
  rfl

/-! ## Of two twins one is stale -/

/-- An intent that was created before the window, seen from a world. -/
def Stale (host : Host) (w : World) (i : PurchaseIntent) : Prop :=
  ∃ k, k < w.tick ∧ i.createdAt + duplicateWindow < host.clock k

theorem Stale.later (h : Stale host w i) (hle : w.tick ≤ w'.tick) :
    Stale host w' i := by
  obtain ⟨k, hk, hold⟩ := h
  exact ⟨k, Nat.lt_of_lt_of_le hk hle, hold⟩

/-- Of two twins that wait for execution without the owner, one is stale. -/
def TwinsStale (host : Host) (w : World) : Prop :=
  ∀ id id' i j, w.state.intents.get? id = some i →
    w.state.intents.get? id' = some j → id ≠ id' →
    i.state = .policyValidated → j.state = .policyValidated → Twins i j →
    Stale host w i ∨ Stale host w j

theorem NewIntent.stale (h : NewIntent host w w' i)
    (hx : i.state = .policyValidated) (hclock : Onward host)
    (ht : AllTimed host w) (hj : w.state.intents.get? id = some j)
    (hjx : j.state = .policyValidated) (htwins : Twins j i) :
    Stale host w' j := by
  obtain ⟨k, hk, hold, _⟩ := h.unduplicated hx hclock hj htwins
    (by rw [hjx]; decide)
  have hle := (ht id j hj).le hclock
  exact ⟨k, hk, by omega⟩

theorem Change.twinsStale (h : Change host l w w') (hclock : Onward host)
    (ht : AllTimed host w) (hw : TwinsStale host w) : TwinsStale host w' := by
  have hle := h.advance.tick
  intro id id' i j hi hj hne hix hjx htwins
  cases h.origin hi with
  | next _ _ _ hm => exact absurd hix hm.not_validated
  | kept hi0 =>
      cases h.origin hj with
      | next _ _ _ hm => exact absurd hjx hm.not_validated
      | kept hj0 =>
          exact (hw id id' i j hi0 hj0 hne hix hjx htwins).imp
            (fun h => h.later hle) (fun h => h.later hle)
      | new _ _ hn => exact Or.inl (hn.stale hjx hclock ht hi0 hix htwins)
  | new hl _ hn =>
      cases h.origin hj with
      | next _ _ _ hm => exact absurd hjx hm.not_validated
      | kept hj0 =>
          exact Or.inr (hn.stale hix hclock ht hj0 hjx htwins.symm)
      | new hl' _ _ =>
          exact absurd (Label.addIntent.inj (hl.symm.trans hl')) hne

/-- Along a run, of two twins one is stale. -/
theorem TreasuryRun.twinsStale {owner : String} {cs : List Call}
    (h : TreasuryRun host owner w0 cs w) (hclock : Onward host) :
    TwinsStale host w := by
  obtain ⟨balance, hs⟩ := h.balance
  refine (h.path.invariant (I := fun v => AllTimed host v ∧ TwinsStale host v)
    ?_ ?_ ⟨hs.allTimed, ?_⟩).2
  · rintro _ a b _ hc ⟨ht, htwins⟩
    exact ⟨hc.allTimed ht, hc.twinsStale hclock ht htwins⟩
  · rintro a b hp ⟨ht, htwins⟩ _
    have hle := hp.advance.tick
    refine ⟨fun id i hi => (ht id i hi).later hle, ?_⟩
    intro id id' i j hi hj hne hix hjx htw
    exact (htwins id id' i j hi hj hne hix hjx htw).imp
      (fun h => h.later hle) (fun h => h.later hle)
  · intro id _ i _ hi
    obtain ⟨_, _, _, _, _, _, _, _, hstate⟩ := hs.state
    rw [hstate] at hi
    exact nomatch hi

/-! ## After an intent was entered -/

/-- **AFTER AN ENTRY**: the intent is still there, updated no earlier, and
    unless it came to nothing every twin that waits without the owner was
    there before the entry or was created after the window. -/
def Followed (v : World) (x : PurchaseIntent) (u : World) : Prop :=
  ∃ i, u.state.intents.get? x.id = some i ∧ Continues x i ∧ Beyond i.state
    ∧ x.updatedAt ≤ i.updatedAt
    ∧ (Dead i.state ∨ ∀ id j, u.state.intents.get? id = some j → id ≠ x.id →
      j.state = .policyValidated → Twins x j →
      v.state.intents.get? id = some j
        ∨ x.updatedAt + duplicateWindow < j.createdAt)

theorem Change.followed {v : World} (h : Change host l w w')
    (hclock : Onward host) (ht : AllTimed host w) (hids : IdsDrawn host w)
    (hfresh : FreshBelow host w'.drawn) (hw : Followed v x w) :
    Followed v x w' := by
  obtain ⟨i, hi, hc, hb, hle, htwins⟩ := hw
  obtain ⟨i', hi', hb'⟩ := h.beyond hids hfresh hi hb
  -- the intent is as it was, or took one step
  have hstep : (i' = i ∨ Moves host w w' l i i') ∧ Continues i i' := by
    cases h.origin hi' with
    | kept hkept =>
        obtain rfl := Option.some.inj (hi.symm.trans hkept)
        exact ⟨Or.inl rfl, .refl i⟩
    | new _ hid hn =>
        have hnone := hn.unstored hids hfresh
        rw [hid, hi] at hnone
        exact nomatch hnone
    | next hi0 _ hc0 hm =>
        obtain rfl := Option.some.inj (hi.symm.trans hi0)
        exact ⟨Or.inr hm, hc0⟩
  obtain ⟨hmoves, hcont⟩ := hstep
  have hlater : i.updatedAt ≤ i'.updatedAt := by
    rcases hmoves with rfl | hm
    · exact le_refl _
    · rcases hm.updated with heq | ⟨k, hlo, _, hread⟩
      · rw [heq]
      · rw [hread]
        exact (ht _ i hi).before hclock hlo
  refine ⟨i', hi', hc.trans hcont, hb', le_trans hle hlater, ?_⟩
  -- an intent that is dead stays dead; otherwise a new twin is told apart by
  -- the guard
  by_cases hdead : Dead i.state
  · rcases hmoves with rfl | hm
    · exact Or.inl hdead
    · exact absurd hdead hm.not_dead
  · refine Or.inr fun id j hj hne hjx htw => ?_
    cases h.origin hj with
    | next _ _ _ hm => exact absurd hjx hm.not_validated
    | kept hj0 => exact htwins.resolve_left hdead id j hj0 hne hjx htw
    | new _ _ hn =>
        have htwi : Twins i j := by
          unfold Twins
          rw [hc.agentId, hc.request]
          exact htw
        obtain ⟨k, _, hold, hcreated⟩ :=
          hn.unduplicated hjx hclock hi htwi hdead
        exact Or.inr (by omega)

theorem Path.followed {allowed : Label → Prop} {v : World}
    (h : Path host allowed w w') (hclock : Onward host)
    (ht : AllTimed host w) (hids : IdsDrawn host w)
    (hfresh : FreshBelow host w'.drawn) (hw : Followed v x w) :
    Followed v x w' := by
  refine (h.invariant (I := fun u => AllTimed host u ∧ IdsDrawn host u
    ∧ (u.drawn ≤ w'.drawn → Followed v x u)) ?_ ?_
    ⟨ht, hids, fun _ => hw⟩).2.2 (Nat.le_refl _)
  · rintro _ a b _ hc ⟨ht, hids, hfollowed⟩
    refine ⟨hc.allTimed ht, hc.idsDrawn hids, fun hle => ?_⟩
    have hdrawn := hc.advance.drawn
    exact hc.followed hclock ht hids (hfresh.mono hle)
      (hfollowed (Nat.le_trans hdrawn hle))
  · rintro a b hp ⟨ht, hids, hfollowed⟩ _
    have hadv := hp.advance
    exact ⟨fun id i hi => (ht id i hi).later hadv.tick, hids.restore hadv,
      fun hle => hfollowed (Nat.le_trans hadv.drawn hle)⟩

/-- An entry that is not put back is followed. -/
theorem EnteredBy.followed {v b v' : World} (h : EnteredBy host v b v' x)
    (hx : x.state = .executing) (hpast : Past v'.state x.id)
    (hclock : Onward host) (ht : AllTimed host v) (hids : IdsDrawn host v)
    (hfresh : FreshBelow host v'.drawn)
    (hexec : ∀ j, v.state.intents.get? x.id = some j → ¬Beyond j.state) :
    Followed v x v' := by
  rcases h.after with hback | hpath
  · obtain ⟨i, hi, hb⟩ := hpast
    rw [hback] at hi
    exact absurd hb (hexec i hi)
  · have hstart : Followed v x b := by
      refine ⟨x, ?_, .refl x, ?_, le_refl _, Or.inr fun id j hj hne _ _ => ?_⟩
      · rw [h.intents]
        exact SortedMap.get?_insert_self _ _ _
      · rw [hx]
        exact ⟨nofun, nofun, nofun⟩
      · rw [h.intents, SortedMap.get?_insert_of_ne _ _ hne] at hj
        exact Or.inl hj
    exact hpath.followed hclock (h.reserved.allTimed ht)
      (h.reserved.idsDrawn hids) hfresh hstart

/-! ## Prompt executions -/

/-- Another intent that the window is about: a twin that waits without the
    owner, or that was executed or updated within the window and did not come
    to nothing. -/
def Rival (host : Host) (w : World) (i j : PurchaseIntent) : Prop :=
  j.id ≠ i.id ∧ Twins j i
    ∧ (j.state = .policyValidated
      ∨ (Beyond j.state ∧ ¬Dead j.state
        ∧ host.clock w.tick ≤ j.updatedAt + duplicateWindow))

/-- **A PROMPT CALL** executes what needs no owner within the window from its
    creation, or when it has no rival. -/
def Prompt (host : Host) (c : Call) (w : World) : Prop :=
  ∀ id i, c.attempts = some id → w.state.intents.get? id = some i →
    i.state = .policyValidated →
    host.clock w.tick ≤ i.createdAt + duplicateWindow
      ∨ ∀ id' j, w.state.intents.get? id' = some j → ¬Rival host w i j

theorem Prompt.unrivalled {c : Call} (h : Prompt host c w)
    (hc : c.attempts = some id) (hi : w.state.intents.get? id = some i)
    (hx : i.state = .policyValidated) (hclock : Onward host)
    (hstale : Stale host w i) (hj : w.state.intents.get? id' = some j) :
    ¬Rival host w i j := by
  obtain ⟨k, hk, hold⟩ := hstale
  have hle := hclock k w.tick (by omega)
  rcases h id i hc hi hx with hrecent | hnone
  · omega
  · exact hnone id' j hj

/-- What is known of an entry in a run: the intent before it needed no owner
    or had the owner's approval. -/
structure Entry (host : Host) (w0 : World) (cs : List Call) (w w' : World)
    (c : Call) (x i : PurchaseIntent) : Prop where
  by_ : ∃ b, EnteredBy host w b w' x
  attempts : c.attempts = some x.id
  stored : w.state.intents.get? x.id = some i
  id : i.id = x.id
  executing : ∃ k, w.tick ≤ k
    ∧ x = { i with state := .executing, updatedAt := host.clock k }
  before : ¬Beyond i.state
  owner : i.state = .policyValidated ∨ OwnerApproved host w0 cs x.id

theorem TreasuryRun.entry {owner : String} {cs : List Call} {c : Call}
    (h : TreasuryRun host owner w0 cs w) (he : EntersAs w (exec host c w) x) :
    ∃ i, Entry host w0 cs w (exec host c w) c x i := by
  obtain ⟨hk, hf⟩ := h.kept
  obtain ⟨hc, b, hb⟩ := (exec_behaves (hk.workable hf) c).entry he
  obtain ⟨i, t, hi, hid, ⟨k, hlo, _, rfl⟩, hx⟩ := hb.stored
  obtain ⟨j, r, p, _, _, _, _, hj, hr, _⟩ := hb.reserved.reserve_inv
  obtain rfl : i = j := Option.some.inj (hi.symm.trans hj)
  refine ⟨i, ⟨b, hb⟩, hc, hi, hid, ⟨k, hlo, hx⟩, fun hbeyond => ?_, ?_⟩
  · exact hr.executable.elim hbeyond.2.1 hbeyond.2.2
  · exact hr.executable.imp_right fun hx => h.approved ⟨i, hi, hx⟩

/-- What was entered is a twin of what the intent was before. -/
theorem Entry.twins {cs : List Call} {c : Call}
    (h : Entry host w0 cs w w' c x i) : Twins x j ↔ Twins i j := by
  obtain ⟨k, _, hx⟩ := h.executing
  rw [hx]
  exact Iff.rfl

/-- **DUPLICATES NEED THE OWNER**: of two twins that enter execution within
    the window of each other, one was approved by the owner, when both are
    entered by prompt calls, and the first entry outlives its call and has not
    come to nothing when the second is made. -/
theorem duplicates_need_the_owner {owner : String} {before between : List Call}
    {d c : Call} {v : World} (hrun : TreasuryRun host owner w0 before v)
    (hx : EntersAs v (exec host d v) x) (hpast : Past (exec host d v).state x.id)
    (hfit : Fits (exec host d v))
    (hbetween : Calls host (exec host d v) between w)
    (hy : EntersAs w (exec host c w) y) (hne : x.id ≠ y.id)
    (htwins : Twins x y) (hwindow : y.updatedAt ≤ x.updatedAt + duplicateWindow)
    (hlive : ∀ i, w.state.intents.get? x.id = some i → ¬Dead i.state)
    (hclock : Onward host) (hfresh : FreshBelow host w.drawn)
    (hd : Prompt host d v) (hc : Prompt host c w) :
    OwnerApproved host w0 (before ++ d :: between) x.id
      ∨ OwnerApproved host w0 (before ++ d :: between) y.id := by
  have hall := hrun.andThen d hfit hbetween
  obtain ⟨i, hxi⟩ := hrun.entry hx
  obtain ⟨j, hyj⟩ := hall.entry hy
  rcases hxi.owner with hix | happroved
  rcases hyj.owner with hjx | happroved
  · exfalso
    -- the first intent is followed up to the second entry
    obtain ⟨hk, hf⟩ := hrun.kept
    have hbehaves : Behaves host v _ d := exec_behaves (hk.workable hf) d
    obtain ⟨_, _, hpath⟩ := hbetween.invariant
      (I := fun u => Path host anyLabel (exec host d v) u)
      (hbehaves.path.kept hk) hfit (.refl _)
      (fun _ _ _ _ hb hp => hp.trans hb.path)
    have hids := hrun.idsDrawn
    have htimed := hrun.allTimed
    obtain ⟨b, hb⟩ := hxi.by_
    have hfirst : Followed v x (exec host d v) :=
      hb.followed (by obtain ⟨_, _, _, h⟩ := hx; exact h) hpast hclock htimed
        hids (hfresh.mono hpath.advance.drawn)
        (fun u hu => Option.some.inj (hxi.stored.symm.trans hu) ▸ hxi.before)
    obtain ⟨xi, hxw, hcont, hbeyond, hle, hthere⟩ :=
      hpath.followed hclock (hbehaves.path.allTimed htimed)
        (hbehaves.path.idsDrawn hids) hfresh hfirst
    have hdead := hlive xi hxw
    obtain ⟨ky, hky, hyeq⟩ := hyj.executing
    have hxj : Twins x j := by
      rw [hyeq] at htwins
      exact htwins
    have hnow : host.clock w.tick ≤ y.updatedAt := by
      rw [hyeq]
      exact hclock _ _ hky
    have htick := hbehaves.path.advance.tick.trans hpath.advance.tick
    rcases hthere.resolve_left hdead y.id j hyj.stored hne.symm hjx hxj
      with hold | hlate
    · -- both waited before the first entry, so one was stale
      have hij : Twins i j := hxi.twins.mp hxj
      rcases hrun.twinsStale hclock _ _ i j hxi.stored hold hne hix hjx hij
        with hstale | hstale
      · refine hd.unrivalled hxi.attempts hxi.stored hix hclock hstale hold
          ⟨?_, hij.symm, Or.inl hjx⟩
        rw [hyj.id, hxi.id]
        exact hne.symm
      · refine hc.unrivalled hyj.attempts hyj.stored hjx hclock
          (hstale.later htick) hxw ⟨?_, ?_, Or.inr ⟨hbeyond, hdead, by omega⟩⟩
        · rw [hcont.id, hyj.id]
          exact hne
        · unfold Twins
          rw [hcont.agentId, hcont.request]
          exact hxj
    · -- the second was created after the window of the first
      have hjt := hall.allTimed _ j hyj.stored
      have hcreated := hjt.le hclock
      have hupdated := hjt.before hclock (le_refl _)
      omega
  · exact Or.inr happroved
  · exact Or.inl happroved.mono

/-! ## Two runs with twins -/

instance (i j : PurchaseIntent) : Decidable (Twins i j) :=
  inferInstanceAs (Decidable (_ ∧ _))

/-- The agent executes an intent. -/
def pay (id : String) : Call :=
  .request agentToken (.executePurchaseIntent id)

/-- The agent asks for the small purchase again, under another key. -/
def repeatPurchase : Call :=
  .request agentToken
    (.createPurchaseIntent { smallPurchase with idempotencyKey := "l" })

/-- The id of the second intent. -/
def secondIntent (host : Host) : String := idOfDraw host "intent" 7

/-- Whether paying for the first two intents enters both, as twins, and the
    first came to something. -/
def paidTwins (host : Host) (v : World) : Bool :=
  let w := exec host (pay (firstIntent host)) v
  decide (Fits w ∧ w.drawn ≤ 100)
    && ((w.log.drop v.log.length).any (isEntry (firstIntent host))
    && (((exec host (pay (secondIntent host)) w).log.drop w.log.length).any
      (isEntry (secondIntent host))
    && ((v.state.intents.get? (firstIntent host)).any (fun i =>
        (w.state.intents.get? (secondIntent host)).any (fun j =>
          decide (Twins i j)))
    && (w.state.intents.get? (firstIntent host)).any (fun i =>
        decide (i.state = .settled)))))

/-- Two twins that both enter execution, the second right after the first. -/
structure PaidTwins (host : Host) (v : World) (x y : PurchaseIntent) :
    Prop where
  first : EntersAs v (exec host (pay (firstIntent host)) v) x
  past : Past (exec host (pay (firstIntent host)) v).state x.id
  fits : Fits (exec host (pay (firstIntent host)) v)
  second : EntersAs (exec host (pay (firstIntent host)) v)
    (exec host (pay (secondIntent host))
      (exec host (pay (firstIntent host)) v)) y
  ids : x.id = firstIntent host ∧ y.id = secondIntent host
  twins : Twins x y
  live : ∀ i, (exec host (pay (firstIntent host)) v).state.intents.get? x.id
    = some i → ¬Dead i.state
  times : ∃ m n, v.tick ≤ m ∧ v.tick ≤ n ∧ x.updatedAt = host.clock m
    ∧ y.updatedAt = host.clock n
  drawn : (exec host (pay (firstIntent host)) v).drawn ≤ 100

theorem paidTwins_paid {owner : String} {cs : List Call} {v : World}
    (hrun : TreasuryRun host owner w0 cs v) (h : paidTwins host v = true) :
    ∃ x y, PaidTwins host v x y := by
  obtain ⟨hk, hf⟩ := hrun.kept
  unfold paidTwins at h
  simp only [Bool.and_eq_true, Option.any_eq_true, decide_eq_true_eq] at h
  obtain ⟨⟨hfit, hdrawn⟩, hfirst, hsecond, ⟨i, hi, j, hj, htwins⟩, k, hk', hlive⟩ := h
  have hrun' := hrun.andThen (pay (firstIntent host)) hfit .nil
  obtain ⟨x, hx, hxid⟩ := (enters_of_log (hk.workable hf) hfirst).as
  obtain ⟨y, hy, hyid⟩ := (enters_of_log (hrun'.kept.1.workable hfit) hsecond).as
  obtain ⟨i', hxi⟩ := hrun.entry hx
  obtain ⟨j', hyj⟩ := hrun'.entry hy
  have hxstored := hxi.stored
  have hystored := hyj.stored
  rw [hxid, hi] at hxstored
  rw [hyid, hj] at hystored
  obtain rfl := Option.some.inj hxstored
  obtain rfl := Option.some.inj hystored
  obtain ⟨m, hm, hxeq⟩ := hxi.executing
  obtain ⟨n, hn, hyeq⟩ := hyj.executing
  have hbehaves : Behaves host v _ (pay (firstIntent host)) :=
    exec_behaves (hk.workable hf) _
  have htick := hbehaves.path.advance.tick
  refine ⟨x, y, ⟨hx, ⟨k, ?_, ?_⟩, hfit, hy, ⟨hxid, hyid⟩, ?_, ?_,
    ⟨m, n, hm, Nat.le_trans htick hn, ?_, ?_⟩, hdrawn⟩⟩
  · rw [hxid]
    exact hk'
  · rw [hlive]
    exact ⟨nofun, nofun, nofun⟩
  · rw [hxeq, hyeq]
    exact htwins
  · intro u hu
    rw [hxid, hk'] at hu
    rw [← Option.some.inj hu, hlive]
    decide
  · rw [hxeq]
  · rw [hyeq]

/-- An agent asks twice for the small purchase, and the owner approves the
    second intent. -/
def askedTwins (owner : String) : List Call :=
  opening smallPurchase owner ++ [repeatPurchase,
    .request owner (.ownerApproveIntent (secondIntent stillHost))]

/-- The owner approved the second of two purchases in the same second. -/
theorem duplicates_need_the_owner_asked :
    ∃ owner w0 v, TreasuryRun stillHost owner w0 (askedTwins owner) v
      ∧ (OwnerApproved stillHost w0
          (askedTwins owner ++ [pay (firstIntent stillHost)])
          (firstIntent stillHost)
        ∨ OwnerApproved stillHost w0
          (askedTwins owner ++ [pay (firstIntent stillHost)])
          (secondIntent stillHost)) := by
  have h : tryRun stillHost ⟨100000, "CAD"⟩ askedTwins (paidTwins stillHost)
      = true := by decide +kernel
  obtain ⟨owner, w0, v, hrun, hcheck⟩ := tryRun_run h
  obtain ⟨x, y, hpaid⟩ := paidTwins_paid hrun hcheck
  have hall := hrun.andThen (pay (firstIntent stillHost)) hpaid.fits .nil
  obtain ⟨hxid, hyid⟩ := hpaid.ids
  -- the clock stands still, so every call is prompt
  have hprompt : ∀ {cs c u}, TreasuryRun stillHost owner w0 cs u →
      Prompt stillHost c u := by
    intro cs c u hu id i _ hi _
    obtain ⟨_, _, _, _, hcreated, _⟩ := hu.allTimed id i hi
    rw [hcreated]
    exact Or.inl (show (1000 : Int) ≤ 1000 + duplicateWindow by decide)
  have howner := duplicates_need_the_owner hrun hpaid.first hpaid.past
    hpaid.fits .nil hpaid.second ?_ hpaid.twins ?_ hpaid.live
    (fun _ _ _ => le_refl _)
    (plainHost_fresh (Nat.le_trans hpaid.drawn (by decide))) (hprompt hrun)
    (hprompt hall)
  · rw [hxid, hyid] at howner
    exact ⟨owner, w0, v, hrun, howner⟩
  · rw [hxid, hyid]
    decide
  · obtain ⟨m, n, _, _, hm, hn⟩ := hpaid.times
    rw [hm, hn]
    exact show (1000 : Int) ≤ 1000 + duplicateWindow by decide

/-- A clock that jumps by half an hour after some readings. -/
def jumpClock (n : Nat) : Nat → Int := fun k => if k < n then 1000 else 2800

/-- A host whose clock jumps between the first two intents. -/
def lateHost : Host :=
  plainHost (jumpClock 16) (fun k => by
    unfold jumpClock
    split <;> decide)

/-- The conservative policy with an hour for an intent. -/
def latePolicy : Policy :=
  { Policy.conservativeDemo with intentTtlSecs := 3600, cardSessionTtlSecs := 3600 }

/-- An agent asks twice for the small purchase under the late policy. -/
def lateTwins (owner : String) : List Call :=
  [.request owner (.ownerCreateAgentPrepared "n" latePolicy .boundedAutonomous
      3600 agentToken),
    .request agentToken (.createPurchaseIntent smallPurchase), repeatPurchase]

theorem jumpClock_onward (n : Nat) : ∀ j k, j ≤ k →
    jumpClock n j ≤ jumpClock n k := by
  intro j k hjk
  unfold jumpClock
  split
  · split <;> decide
  · rw [if_neg (by omega)]

/-- **TWO CHARGES WITHOUT THE OWNER**: two equal purchases, asked for half an
    hour apart under a policy with an hour for each, are executed one right
    after the other, and nobody approved either. -/
theorem duplicates_need_the_owner_late :
    ∃ owner w0 v x y, TreasuryRun lateHost owner w0 (lateTwins owner) v
      ∧ PaidTwins lateHost v x y ∧ x.id ≠ y.id
      ∧ y.updatedAt ≤ x.updatedAt + duplicateWindow
      ∧ Onward lateHost
      ∧ FreshBelow lateHost (exec lateHost (pay (firstIntent lateHost)) v).drawn
      ∧ ¬OwnerApproved lateHost w0
        (lateTwins owner ++ [pay (firstIntent lateHost)]) x.id
      ∧ ¬OwnerApproved lateHost w0
        (lateTwins owner ++ [pay (firstIntent lateHost)]) y.id := by
  have h : tryRun lateHost ⟨100000, "CAD"⟩ lateTwins
      (fun v => paidTwins lateHost v && decide (16 ≤ v.tick)) = true := by
    decide +kernel
  obtain ⟨owner, w0, v, hrun, hcheck⟩ := tryRun_run h
  obtain ⟨hpaid, htick⟩ := Bool.and_eq_true_iff.mp hcheck
  obtain ⟨x, y, hpaid⟩ := paidTwins_paid hrun hpaid
  have hlate := of_decide_eq_true htick
  have hnobody : ∀ id, ¬OwnerApproved lateHost w0
      (lateTwins owner ++ [pay (firstIntent lateHost)]) id := by
    rintro id ⟨before, c, after, u, hcalls, _, token, hasks, _⟩
    have hmem : c ∈ lateTwins owner ++ [pay (firstIntent lateHost)] := by
      rw [hcalls]
      simp
    simp only [lateTwins, repeatPurchase, pay, List.cons_append,
      List.nil_append, List.mem_cons, List.not_mem_nil, or_false] at hmem
    rcases hmem with rfl | rfl | rfl | rfl <;> exact nomatch hasks
  refine ⟨owner, w0, v, x, y, hrun, hpaid, ?_, ?_, jumpClock_onward 16,
    plainHost_fresh (Nat.le_trans hpaid.drawn (by decide)), hnobody _,
    hnobody _⟩
  · rw [hpaid.ids.1, hpaid.ids.2]
    decide
  · obtain ⟨m, n, hm, hn, hx, hy⟩ := hpaid.times
    have hjump : ∀ k, 16 ≤ k → lateHost.clock k = 2800 := fun k hk =>
      if_neg (by omega)
    rw [hx, hy, hjump m (by omega), hjump n (by omega)]
    decide

end Treasury
