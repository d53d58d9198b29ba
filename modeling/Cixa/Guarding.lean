import Cixa.Gate
import Mathlib.Data.List.Perm.Basic

/-! # Guarding — what the threads of a daemon hold of its admission

    Every thread that is past the channel holds a guard of it, and every
    thread that is past its capability holds one of that.  A daemon's
    admission takes exactly the steps its interleavings allow, with the guards
    its threads HOLD, as long as their clock is never set back.  So the limits
    are limits on threads: four at once past the channel, one at once for a
    capability, and as many connections as the listeners allow. -/

namespace Treasury

open CixaData CixaHost Outcome Transition Admission

variable {ctx : ServeContext} {d d' : Daemon} {i : Nat} {t : Thread} {w : World}

/-! ## A thread among the others -/

/-- A thread that takes a step is the one that changes. -/
theorem modify_perm {α : Type} {l : List α} {i : Nat} {a : α} (f : α → α)
    (h : l[i]? = some a) :
    ∃ rest, l.Perm (a :: rest) ∧ (l.modify i f).Perm (f a :: rest) := by
  obtain ⟨hi, rfl⟩ := List.getElem?_eq_some_iff.mp h
  refine ⟨l.eraseIdx i, (List.getElem_cons_eraseIdx_perm hi).symm, ?_⟩
  have hi' : i < (l.modify i f).length := by
    rw [List.length_modify]
    exact hi
  have hperm := (List.getElem_cons_eraseIdx_perm hi').symm
  rwa [List.getElem_modify_eq, List.eraseIdx_modify_of_eq] at hperm

theorem perm_erase_head {l rest : List Fingerprint} {f : Fingerprint}
    (h : l.Perm (f :: rest)) : (l.erase f).Perm rest := by
  have herase := h.erase f
  rwa [List.erase_cons_head] at herase

/-! ## What a stage holds -/

/-- The capability a thread asks for, once it holds the channel. -/
def Stage.asksFor (ctx : ServeContext) : Stage → Option Fingerprint
  | .halfway q => some (Daemon.fingerprint ctx q.token)
  | _ => none

/-- The capability a thread holds. -/
def Stage.holdsCapability (ctx : ServeContext) : Stage → Option Fingerprint
  | .admitted q => some (Daemon.fingerprint ctx q.token)
  | .served q _ => some (Daemon.fingerprint ctx q.token)
  | _ => none

/-- Whether a thread was refused its capability and still holds the
    channel. -/
def Stage.isLeaving : Stage → Bool
  | .leaving _ => true
  | _ => false

/-- Whether a thread holds the channel since it had its capability. -/
def Stage.holdsChannel : Stage → Bool
  | .admitted _ => true
  | .served _ _ => true
  | .parting _ => true
  | _ => false

/-- Whether a thread is past the channel. -/
def Stage.inFlight : Stage → Bool
  | .halfway _ => true
  | .leaving _ => true
  | .admitted _ => true
  | .served _ _ => true
  | .parting _ => true
  | _ => false

/-- An admission and the threads that use it are those of a system. -/
structure Mirrors (ctx : ServeContext) (s : AgentAdmissionState)
    (threads : List Thread) (y : System) : Prop where
  state : y.state = s
  halfway : y.halfway.Perm (threads.filterMap fun t => t.stage.asksFor ctx)
  capability : y.capabilityGuards.Perm
    (threads.filterMap fun t => t.stage.holdsCapability ctx)
  leaving : y.leaving = threads.countP fun t => t.stage.isLeaving
  channel : y.channelGuards = threads.countP fun t => t.stage.holdsChannel

theorem Mirrors.perm {s : AgentAdmissionState} {threads threads' : List Thread}
    {y : System} (h : Mirrors ctx s threads y) (hp : threads.Perm threads') :
    Mirrors ctx s threads' y where
  state := h.state
  halfway := h.halfway.trans (hp.filterMap _)
  capability := h.capability.trans (hp.filterMap _)
  leaving := h.leaving.trans (hp.countP_eq _)
  channel := h.channel.trans (hp.countP_eq _)

/-- Two stages that hold the same. -/
structure HoldsSame (ctx : ServeContext) (a b : Stage) : Prop where
  halfway : b.asksFor ctx = a.asksFor ctx
  capability : b.holdsCapability ctx = a.holdsCapability ctx
  leaving : b.isLeaving = a.isLeaving
  channel : b.holdsChannel = a.holdsChannel

/-- What one thread holds, beside the others. -/
theorem mirrors_cons {s : AgentAdmissionState} {rest : List Thread}
    {y : System} : Mirrors ctx s (t :: rest) y
      ↔ y.state = s
        ∧ y.halfway.Perm ((t.stage.asksFor ctx).toList
          ++ rest.filterMap fun t => t.stage.asksFor ctx)
        ∧ y.capabilityGuards.Perm ((t.stage.holdsCapability ctx).toList
          ++ rest.filterMap fun t => t.stage.holdsCapability ctx)
        ∧ y.leaving = rest.countP (fun t => t.stage.isLeaving)
          + t.stage.isLeaving.toNat
        ∧ y.channelGuards = rest.countP (fun t => t.stage.holdsChannel)
          + t.stage.holdsChannel.toNat := by
  have hlist : ∀ f : Thread → Option Fingerprint,
      (t :: rest).filterMap f = (f t).toList ++ rest.filterMap f := by
    intro f
    rw [List.filterMap_cons]
    cases f t with
    | none => rfl
    | some g => rfl
  have hcount : ∀ p : Thread → Bool,
      (t :: rest).countP p = rest.countP p + (p t).toNat := by
    intro p
    rw [List.countP_cons]
    cases p t with
    | false => rfl
    | true => rfl
  constructor
  · rintro ⟨hs, hh, hc, hl, hg⟩
    rw [hlist] at hh hc
    rw [hcount] at hl hg
    exact ⟨hs, hh, hc, hl, hg⟩
  · rintro ⟨hs, hh, hc, hl, hg⟩
    exact ⟨hs, by rw [hlist]; exact hh, by rw [hlist]; exact hc,
      by rw [hcount]; exact hl, by rw [hcount]; exact hg⟩

/-- Two stages before the channel or after it hold nothing. -/
theorem HoldsSame.nothing {a b : Stage} (ha : a.inFlight = false)
    (hb : b.inFlight = false) : HoldsSame ctx a b := by
  have hnone : ∀ c : Stage, c.inFlight = false → c.asksFor ctx = none
      ∧ c.holdsCapability ctx = none ∧ c.isLeaving = false
      ∧ c.holdsChannel = false := by
    intro c hc
    cases c <;> first | exact ⟨rfl, rfl, rfl, rfl⟩ | cases hc
  obtain ⟨ha1, ha2, ha3, ha4⟩ := hnone a ha
  obtain ⟨hb1, hb2, hb3, hb4⟩ := hnone b hb
  exact ⟨hb1.trans ha1.symm, hb2.trans ha2.symm, hb3.trans ha3.symm,
    hb4.trans ha4.symm⟩

theorem close_admission (d : Daemon) (i : Nat) (t : Thread)
    (sent : Option (List UInt8)) : (d.close i t sent).admission = d.admission := by
  unfold Daemon.close
  split
  · rfl
  · rfl

theorem Mirrors.same {s : AgentAdmissionState} {rest : List Thread} {y : System}
    {t t' : Thread} (h : Mirrors ctx s (t :: rest) y)
    (hsame : HoldsSame ctx t.stage t'.stage) : Mirrors ctx s (t' :: rest) y := by
  rw [mirrors_cons, hsame.halfway, hsame.capability, hsame.leaving,
    hsame.channel]
  exact mirrors_cons.mp h

/-- **A STEP OF A THREAD IS ONE OF ITS ADMISSION**, or none. -/
theorem ThreadStep.mirrors {r : Readings} {y : System}
    (h : ThreadStep ctx d i r t d') (ht : d.threads[i]? = some t)
    (hm : Mirrors ctx d.admission d.threads y) (hle : y.time ≤ r.instant) :
    ∃ y', (y' = y ∨ Step ctx.admissionFingerprint y y')
      ∧ (y'.time = y.time ∨ y'.time = r.instant)
      ∧ Mirrors ctx d'.admission d'.threads y' := by
  -- the thread that moves, and the rest in any order
  have hput : ∀ stage, ∃ rest, d.threads.Perm (t :: rest)
      ∧ (d.put i stage).threads.Perm ({ t with stage := stage } :: rest) :=
    fun stage => modify_perm _ ht
  have hsame : ∀ {stage : Stage} {s : AgentAdmissionState} {z : System},
      z.state = s → z.halfway = y.halfway →
      z.capabilityGuards = y.capabilityGuards → z.leaving = y.leaving →
      z.channelGuards = y.channelGuards → HoldsSame ctx t.stage stage →
      Mirrors ctx s (d.put i stage).threads z := by
    intro stage s z hs hh hc hl hg hholds
    obtain ⟨rest, hbefore, hafter⟩ := hput stage
    have hz : Mirrors ctx s d.threads z :=
      ⟨hs, hh ▸ hm.halfway, hc ▸ hm.capability, hl ▸ hm.leaving,
        hg ▸ hm.channel⟩
    have hcons : Mirrors ctx s ({ t with stage := stage } :: rest) z :=
      (hz.perm hbefore).same hholds
    exact hcons.perm hafter.symm
  -- a step that holds as much as before is none of the admission
  have hidle : ∀ stage, HoldsSame ctx t.stage stage →
      d'.admission = d.admission → d'.threads = (d.put i stage).threads →
      ∃ y', (y' = y ∨ Step ctx.admissionFingerprint y y')
        ∧ (y'.time = y.time ∨ y'.time = r.instant)
        ∧ Mirrors ctx d'.admission d'.threads y' := by
    intro stage hholds ha hthreads
    refine ⟨y, Or.inl rfl, Or.inl rfl, ?_⟩
    rw [ha, hthreads]
    exact hsame hm.state rfl rfl rfl rfl hholds
  cases h with
  | lost hs _ =>
      exact hidle _ (by rw [hs]; exact .nothing rfl rfl)
        (close_admission d i t none) (close_threads d i t none)
  | answered hs =>
      exact hidle _ (by rw [hs]; exact .nothing rfl rfl)
        (close_admission d i t _) (close_threads d i t _)
  | malformed hs _ _ => exact hidle _ (by rw [hs]; exact .nothing rfl rfl) rfl rfl
  | framed hs _ _ _ => exact hidle _ (by rw [hs]; exact .nothing rfl rfl) rfl rfl
  | turnedAway hs _ => exact hidle _ (by rw [hs]; exact .nothing rfl rfl) rfl rfl
  | servedOwner hs _ _ _ =>
      exact hidle _ (by rw [hs]; exact .nothing rfl rfl) rfl rfl
  | letThrough hs _ _ _ =>
      exact hidle _ (by rw [hs]; exact .nothing rfl rfl) rfl rfl
  | @asked q hs =>
      refine hidle (d.askStage ctx r q) ?_ rfl rfl
      rw [hs]
      unfold Daemon.askStage
      split
      · exact .nothing rfl rfl
      · exact .nothing rfl rfl
  | ownerOnly hs => exact hidle _ (by rw [hs]; exact ⟨rfl, rfl, rfl, rfl⟩) rfl rfl
  | servedAgent hs _ _ =>
      exact hidle _ (by rw [hs]; exact ⟨rfl, rfl, rfl, rfl⟩) rfl rfl
  | @updated response capabilities hs =>
      refine ⟨_, Or.inr (.replaceKnown capabilities), Or.inl rfl, ?_⟩
      refine hsame (by rw [← hm.state]) rfl rfl rfl rfl ?_
      rw [hs]
      exact .nothing rfl rfl
  | turnedUnknown hs =>
      refine ⟨_, Or.inr (.admitUnauthenticated hle), Or.inr rfl, ?_⟩
      refine hsame (congrArg (fun s => (AgentAdmissionState.admitUnauthenticated
        r.instant s).1) hm.state) rfl rfl rfl rfl ?_
      rw [hs]
      exact .nothing rfl rfl
  | @channel q hs =>
      -- the first half of a call: it ends with the channel guarded, or not
      have hstep : Step ctx.admissionFingerprint y _ :=
        .beginAuthenticated (Daemon.fingerprint ctx q.token) hle
      unfold System.askChannel at hstep
      refine ⟨_, Or.inr hstep, ?_, ?_⟩
      · dsimp only
        split
        · exact Or.inr rfl
        · exact Or.inr rfl
      dsimp only
      unfold Daemon.admitChannel
      rw [hm.state]
      dsimp only
      cases (d.admission.admitChannel r.instant).2 with
      | false =>
          refine hsame rfl rfl rfl rfl rfl ?_
          rw [hs]
          exact .nothing rfl rfl
      | true =>
          simp only [↓reduceIte]
          obtain ⟨rest, hbefore, hafter⟩ := hput (.halfway q)
          obtain ⟨_, hh, hc, hl, hg⟩ := mirrors_cons.mp (hm.perm hbefore)
          rw [hs] at hh hc hl hg
          refine Mirrors.perm (mirrors_cons.mpr ⟨rfl, ?_, hc, hl, hg⟩)
            hafter.symm
          exact hh.cons _
  | @capability q hs =>
      obtain ⟨rest, hbefore, hafter⟩ := hput (.admitted q)
      obtain ⟨rest', hbefore', hafter'⟩ := hput (.leaving q)
      obtain ⟨_, hh, hc, hl, hg⟩ := mirrors_cons.mp (hm.perm hbefore)
      obtain ⟨_, hh', hc', hl', hg'⟩ := mirrors_cons.mp (hm.perm hbefore')
      rw [hs] at hh hc hl hg hh' hc' hl' hg'
      have hmem : Daemon.fingerprint ctx q.token ∈ y.halfway :=
        hh.mem_iff.mpr (List.mem_cons_self ..)
      have hstep : Step ctx.admissionFingerprint y _ :=
        .finishAuthenticated hle hmem
      unfold System.askCapability at hstep
      refine ⟨_, Or.inr hstep, ?_, ?_⟩
      · dsimp only
        split
        · exact Or.inr rfl
        · exact Or.inr rfl
      dsimp only
      unfold Daemon.admitCapability
      rw [hm.state]
      dsimp only
      cases (d.admission.admitCapability r.instant
        (Daemon.fingerprint ctx q.token)).2 with
      | true =>
          simp only [↓reduceIte]
          refine Mirrors.perm (mirrors_cons.mpr ⟨rfl, ?_, hc.cons _, hl, ?_⟩)
            hafter.symm
          · exact perm_erase_head hh
          · exact congrArg (· + 1) hg
      | false =>
          simp only [Bool.false_eq_true, ↓reduceIte]
          refine Mirrors.perm (mirrors_cons.mpr ⟨rfl, ?_, hc', ?_, hg'⟩)
            hafter'.symm
          · exact perm_erase_head hh'
          · exact congrArg (· + 1) hl'
  | @left q error hs =>
      obtain ⟨rest, hbefore, hafter⟩ :=
        hput (.writing (rejectedRpc q error))
      obtain ⟨_, hh, hc, hl, hg⟩ := mirrors_cons.mp (hm.perm hbefore)
      rw [hs] at hh hc hl hg
      have hl : y.leaving = _ + 1 := hl
      refine ⟨_, Or.inr (.leave (by omega)), Or.inl rfl, ?_⟩
      refine Mirrors.perm (mirrors_cons.mpr ⟨by rw [← hm.state], hh, hc, ?_, hg⟩)
        hafter.symm
      show y.leaving - 1 = _
      rw [hl]
      rfl
  | @dropped q response hs =>
      obtain ⟨rest, hbefore, hafter⟩ := hput (.parting response)
      obtain ⟨_, hh, hc, hl, hg⟩ := mirrors_cons.mp (hm.perm hbefore)
      rw [hs] at hh hc hl hg
      have hmem : Daemon.fingerprint ctx q.token ∈ y.capabilityGuards :=
        hc.mem_iff.mpr (List.mem_cons_self ..)
      refine ⟨_, Or.inr (.dropCapability hmem), Or.inl rfl, ?_⟩
      refine Mirrors.perm (mirrors_cons.mpr ⟨by rw [← hm.state], hh, ?_, hl, hg⟩)
        hafter.symm
      exact perm_erase_head hc
  | @parted response hs =>
      obtain ⟨rest, hbefore, hafter⟩ := hput (.writing response)
      obtain ⟨_, hh, hc, hl, hg⟩ := mirrors_cons.mp (hm.perm hbefore)
      rw [hs] at hh hc hl hg
      have hg : y.channelGuards = _ + 1 := hg
      refine ⟨_, Or.inr (.dropChannel (by omega)), Or.inl rfl, ?_⟩
      refine Mirrors.perm (mirrors_cons.mpr ⟨by rw [← hm.state], hh, hc, hl, ?_⟩)
        hafter.symm
      show y.channelGuards - 1 = _
      rw [hg]
      rfl

/-! ## Connections -/

/-- Whether a connection is open. -/
def Stage.isLive : Stage → Bool
  | .closed _ => false
  | _ => true

/-- Whether a thread serves an open connection of a channel. -/
def Thread.isLiveOn (ownerChannel : Bool) (t : Thread) : Bool :=
  t.stage.isLive && decide (t.ownerChannel = ownerChannel)

/-- The counters of the listeners count the open connections, and are within
    their limits. -/
structure Listened (d : Daemon) : Prop where
  owners : d.ownerConnections = d.threads.countP (·.isLiveOn true)
  agents : d.agentConnections = d.threads.countP (·.isLiveOn false)
  ownersBound : d.ownerConnections ≤ maxOwnerConnections
  agentsBound : d.agentConnections ≤ maxConnections

/-- A step of a thread leaves its connection open, or closes it: with an
    answer, unless it could not be read or written. -/
theorem ThreadStep.live {r : Readings} (h : ThreadStep ctx d i r t d') :
    t.stage.isLive = true ∧ ((∃ stage : Stage, stage.isLive = true
        ∧ d'.threads = (d.put i stage).threads
        ∧ d'.ownerConnections = d.ownerConnections
        ∧ d'.agentConnections = d.agentConnections)
      ∨ ∃ sent, d' = d.close i t sent
        ∧ ((sent = none ∧ ∃ e, t.arrival = .error e)
          ∨ ∃ response, t.stage = .writing response
            ∧ sent = Daemon.delivered t.departure (writeResponse response))) := by
  cases h with
  | lost hs ha => exact ⟨by rw [hs]; rfl, Or.inr ⟨_, rfl, Or.inl ⟨rfl, _, ha⟩⟩⟩
  | answered hs =>
      exact ⟨by rw [hs]; rfl, Or.inr ⟨_, rfl, Or.inr ⟨_, hs, rfl⟩⟩⟩
  | @asked q hs =>
      refine ⟨by rw [hs]; rfl, Or.inl ⟨d.askStage ctx r q, ?_, rfl, rfl, rfl⟩⟩
      unfold Daemon.askStage
      split
      · rfl
      · rfl
  | channel hs =>
      refine ⟨by rw [hs]; rfl, Or.inl ⟨_, ?_, rfl, rfl, rfl⟩⟩
      split
      · rfl
      · rfl
  | capability hs =>
      refine ⟨by rw [hs]; rfl, Or.inl ⟨_, ?_, rfl, rfl, rfl⟩⟩
      split
      · rfl
      · rfl
  | malformed hs _ _ => exact ⟨by rw [hs]; rfl, Or.inl ⟨_, rfl, rfl, rfl, rfl⟩⟩
  | framed hs _ _ _ => exact ⟨by rw [hs]; rfl, Or.inl ⟨_, rfl, rfl, rfl, rfl⟩⟩
  | turnedAway hs _ => exact ⟨by rw [hs]; rfl, Or.inl ⟨_, rfl, rfl, rfl, rfl⟩⟩
  | servedOwner hs _ _ _ =>
      exact ⟨by rw [hs]; rfl, Or.inl ⟨_, rfl, rfl, rfl, rfl⟩⟩
  | letThrough hs _ _ _ =>
      exact ⟨by rw [hs]; rfl, Or.inl ⟨_, rfl, rfl, rfl, rfl⟩⟩
  | servedAgent hs _ _ =>
      exact ⟨by rw [hs]; rfl, Or.inl ⟨_, rfl, rfl, rfl, rfl⟩⟩
  | _ hs => exact ⟨by rw [hs]; rfl, Or.inl ⟨_, rfl, rfl, rfl, rfl⟩⟩

/-- A connection that stays open is counted, one that is closed no longer. -/
theorem countP_put (ht : d.threads[i]? = some t) (hlive : t.stage.isLive = true)
    (stage : Stage) (ownerChannel : Bool) :
    (d.put i stage).threads.countP (·.isLiveOn ownerChannel)
        + (decide (t.ownerChannel = ownerChannel)).toNat
      = d.threads.countP (·.isLiveOn ownerChannel)
        + (stage.isLive && decide (t.ownerChannel = ownerChannel)).toNat := by
  obtain ⟨rest, hbefore, hafter⟩ :=
    modify_perm (fun t : Thread => { t with stage := stage }) ht
  have hcount : ∀ u : Thread, (u :: rest).countP (·.isLiveOn ownerChannel)
      = rest.countP (·.isLiveOn ownerChannel)
        + (u.isLiveOn ownerChannel).toNat := by
    intro u
    rw [List.countP_cons]
    cases u.isLiveOn ownerChannel with
    | false => rfl
    | true => rfl
  show (d.threads.modify i _).countP _ + _ = _
  rw [hafter.countP_eq, hbefore.countP_eq, hcount, hcount]
  unfold Thread.isLiveOn
  rw [hlive, Bool.true_and]
  exact Nat.add_right_comm ..

theorem Listened.step {a : Daemon.Action} (hd : Listened d)
    (h : d.step ctx a = some d') : Listened d' := by
  cases a with
  | accept ownerChannel separate arrival departure =>
      obtain rfl := Option.some.inj h
      -- a connection that was turned away is over at once, so it does not count
      have hnew : ∀ (t : Thread) (c : Bool),
          (d.threads ++ [t]).countP (·.isLiveOn c)
            = d.threads.countP (·.isLiveOn c) + (t.isLiveOn c).toNat := by
        intro t c
        rw [List.countP_append, List.countP_singleton]
        cases t.isLiveOn c with
        | false => rfl
        | true => rfl
      obtain ⟨ho, ha, hob, hab⟩ := hd
      unfold Daemon.accept
      dsimp only
      split
      · rename_i hchannel
        subst hchannel
        split
        · exact ⟨by rw [hnew]; exact ho, by rw [hnew]; exact ha, hob, hab⟩
        · rename_i hroom
          refine ⟨?_, by rw [hnew]; exact ha, Nat.not_le.mp hroom, hab⟩
          rw [hnew, ← ho]
          rfl
      · rename_i hchannel
        obtain rfl := Bool.eq_false_iff.mpr hchannel
        split
        · exact ⟨by rw [hnew]; exact ho, by rw [hnew]; exact ha, hob, hab⟩
        split
        · exact ⟨by rw [hnew]; exact ho, by rw [hnew]; exact ha, hob, hab⟩
        · rename_i hroom
          refine ⟨by rw [hnew]; exact ho, ?_, hob, Nat.not_le.mp hroom⟩
          rw [hnew, ← ha]
          rfl
  | advance i r =>
      obtain ⟨t, ht, hmove⟩ := Option.bind_eq_some_iff.mp h
      obtain ⟨hlive, ⟨stage, hopen, hthreads, howners, hagents⟩ | ⟨sent, rfl, _⟩⟩ :=
        (advance_threadStep hmove).live
      -- a thread that goes on counts as before
      · have hcount : ∀ c, d'.threads.countP (·.isLiveOn c)
            = d.threads.countP (·.isLiveOn c) := by
          intro c
          have hput := countP_put ht hlive stage c
          rw [hopen, Bool.true_and] at hput
          rw [hthreads]
          omega
        exact ⟨by rw [howners, hcount]; exact hd.owners,
          by rw [hagents, hcount]; exact hd.agents,
          howners ▸ hd.ownersBound, hagents ▸ hd.agentsBound⟩
      · have hput := countP_put ht hlive (.closed sent)
        obtain ⟨ho, ha, hob, hab⟩ := hd
        have howner := hput true
        have hagent := hput false
        unfold Daemon.close
        split
        · rename_i hchannel
          rw [hchannel] at howner hagent
          refine ⟨?_, ?_, Nat.le_trans (Nat.sub_le _ _) hob, hab⟩
          · show d.ownerConnections - 1
              = (d.put i (.closed sent)).threads.countP _
            have howner : _ + 1 = _ + 0 := howner
            omega
          · exact ha.trans hagent.symm
        · rename_i hchannel
          rw [Bool.eq_false_iff.mpr hchannel] at howner hagent
          refine ⟨ho.trans howner.symm, ?_, hob,
            Nat.le_trans (Nat.sub_le _ _) hab⟩
          show d.agentConnections - 1
            = (d.put i (.closed sent)).threads.countP _
          have hagent : _ + 1 = _ + 0 := hagent
          omega


/-! ## Runs -/

/-- The instants of the steps. -/
def instants (acts : List Daemon.Action) : List Nat :=
  acts.filterMap fun
    | .accept .. => none
    | .advance _ r => some r.instant

/-- The clock that is never set is never set back. -/
def Timely (instant : Nat) (acts : List Daemon.Action) : Prop :=
  (instant :: instants acts).Pairwise (· ≤ ·)

theorem instants_snoc (acts : List Daemon.Action) (i : Nat) (r : Readings) :
    instants (acts ++ [.advance i r]) = instants acts ++ [r.instant] :=
  List.filterMap_append ..

theorem Timely.of_snoc {instant : Nat} {acts : List Daemon.Action}
    {a : Daemon.Action} (h : Timely instant (acts ++ [a])) :
    Timely instant acts := by
  unfold Timely instants at h
  rw [List.filterMap_append, ← List.cons_append] at h
  exact (List.pairwise_append.mp h).1

/-- A step is no earlier than those before it. -/
theorem Timely.le {instant now : Nat} {acts : List Daemon.Action} {r : Readings}
    (h : Timely instant (acts ++ [.advance i r]))
    (hnow : now ∈ instant :: instants acts) : now ≤ r.instant := by
  unfold Timely at h
  rw [instants_snoc, ← List.cons_append] at h
  exact (List.pairwise_append.mp h).2.2 now hnow _ (List.mem_singleton_self _)

/-- **A DAEMON'S ADMISSION IS AN INTERLEAVING**: it is reached by its own
    steps, with the guards the threads hold. -/
theorem Serves.mirrors {acts : List Daemon.Action} {at_ : Int} {instant : Nat}
    (h : Serves ctx (.serve w at_ instant) acts d) (ht : Timely instant acts) :
    ∃ y, Reachable ctx.admissionFingerprint y
      ∧ y.time ∈ instant :: instants acts
      ∧ Mirrors ctx d.admission d.threads y := by
  induction h with
  | start =>
      refine ⟨.new (activeAgentCapabilities w.state at_) instant, .new _ _,
        List.mem_cons_self .., rfl, .refl _, .refl _, rfl, rfl⟩
  | @step acts a d d' hd hs hfit ih =>
      obtain ⟨y, hreach, htime, hm⟩ := ih ht.of_snoc
      -- a new connection holds nothing; a step of a thread is one of the
      -- admission, or none
      rcases step_cases hs with ⟨u, hthreads, _, hadmission, _, hnew, _⟩
        | ⟨i, r, u, rfl, hu, hmove⟩
      · refine ⟨y, hreach, ?_, ?_⟩
        · unfold instants at htime ⊢
          rw [List.filterMap_append, ← List.cons_append]
          exact List.mem_append_left _ htime
        · rw [hthreads, hadmission]
          have hstage : u.stage.inFlight = false := by
            rcases hnew with hs | ⟨sent, hs⟩
            · rw [hs]
              rfl
            · rw [hs]
              rfl
          have hcons : Mirrors ctx d.admission (u :: d.threads) y := by
            have hnone : HoldsSame ctx .reading u.stage := .nothing rfl hstage
            rw [mirrors_cons, hnone.halfway, hnone.capability, hnone.leaving,
              hnone.channel]
            exact ⟨hm.state, hm.halfway, hm.capability, hm.leaving, hm.channel⟩
          exact hcons.perm (List.perm_append_singleton ..).symm
      · obtain ⟨y', hstep, htime', hm'⟩ := hmove.mirrors hu hm (ht.le htime)
        refine ⟨y', ?_, ?_, hm'⟩
        · rcases hstep with rfl | hstep
          · exact hreach
          · exact hreach.step hstep
        · rw [instants_snoc, ← List.cons_append]
          rcases htime' with heq | heq
          · rw [heq]
            exact List.mem_append_left _ htime
          · rw [heq]
            exact List.mem_append_right _ (List.mem_singleton_self _)

/-- The threads past the channel are those that hold it. -/
theorem Mirrors.inFlight {s : AgentAdmissionState} {threads : List Thread}
    {y : System} (h : Mirrors ctx s threads y) :
    threads.countP (fun t => t.stage.inFlight) = y.liveChannel := by
  unfold System.liveChannel
  rw [h.channel, h.halfway.length_eq, h.leaving]
  clear h
  induction threads with
  | nil => rfl
  | cons t threads ih =>
      rw [List.countP_cons, List.countP_cons, List.countP_cons, ih,
        List.filterMap_cons]
      cases hs : t.stage <;> simp [Stage.inFlight, Stage.holdsChannel,
        Stage.isLeaving, Stage.asksFor] <;> omega

/-- **THE THREADS OF A DAEMON HOLD ITS GUARDS**: whatever they do in whatever
    order, the admission counts the threads past the channel, four at most;
    no two threads hold the same capability, and one is marked exactly while a
    thread holds it; and each listener counts its open connections, within its
    limit. -/
theorem threads_hold_guards {acts : List Daemon.Action} {at_ : Int}
    {instant : Nat} (hd : Serves ctx (.serve w at_ instant) acts d)
    (htimely : Timely instant acts) :
    d.admission.inFlight = d.threads.countP (fun t => t.stage.inFlight)
      ∧ d.threads.countP (fun t => t.stage.inFlight) ≤ maxAgentChannelInFlight
      ∧ (d.threads.filterMap fun t => t.stage.holdsCapability ctx).Nodup
      ∧ (∀ f, (∃ e, d.admission.entries.get? f = some e ∧ e.inFlight = true)
        ↔ ∃ t ∈ d.threads, t.stage.holdsCapability ctx = some f)
      ∧ d.admission.entries.size ≤ maxAgentAdmissionEntries
      ∧ Listened d := by
  obtain ⟨y, hreach, _, hm⟩ := hd.mirrors htimely
  have hexact := hreach.exact
  have hflight := hexact.inFlight
  have hbound := hexact.bound
  have hsize := hexact.size
  have hmarks := hexact.marks
  rw [hm.state] at hflight hbound hsize hmarks
  have hlistened : Listened d := by
    refine hd.invariant ?_ fun _ _ _ h hs _ => h.step hs
    exact ⟨rfl, rfl, Nat.zero_le _, Nat.zero_le _⟩
  refine ⟨hflight.trans hm.inFlight.symm, ?_,
    hm.capability.nodup_iff.mp hexact.oneEach, fun f => ?_, hsize, hlistened⟩
  · rw [hm.inFlight, ← hflight]
    exact hbound
  · rw [hmarks f, hm.capability.mem_iff, List.mem_filterMap]

/-- An agent's request that is about to be served is the one in flight. -/
theorem threads_hold_guards_buy : ∃ owner w0 w d,
    TreasuryRun stillHost owner w0 [agentWith Policy.conservativeDemo owner] w
      ∧ Serves (plainContext buyFrame) (.serve w 1000 0) (oneConnection false 5)
        d
      ∧ d.admission.inFlight = 1 ∧ Listened d := by
  have h : tryRun stillHost ⟨100000, "CAD"⟩
      (fun owner => [agentWith Policy.conservativeDemo owner]) (fun w =>
      (runActions (plainContext buyFrame) (.serve w 1000 0)
        (oneConnection false 5)).any fun d =>
          decide (d.threads.countP (fun t => t.stage.inFlight) = 1)) = true := by
    decide +kernel
  obtain ⟨owner, w0, w, hrun, hserves⟩ := tryRun_run h
  obtain ⟨d, hd, hone⟩ := (Option.any_eq_true _ _).mp hserves
  have hd := runActions_serves .start hd
  have htimely : Timely 0 (oneConnection false 5) := by
    unfold Timely
    decide
  obtain ⟨hflight, _, _, _, _, hlistened⟩ := threads_hold_guards hd htimely
  exact ⟨owner, w0, w, d, hrun, hd, hflight.trans (of_decide_eq_true hone),
    hlistened⟩

end Treasury
