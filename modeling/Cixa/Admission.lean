import Cixa.SortedMap

/-! # Admission — how the agent socket limits capabilities

    The agent socket admits a request in two steps, each under one lock: the
    CHANNEL is shared by all capabilities and limits the requests a second and
    the requests in flight; the CAPABILITY has an entry in a table, which
    limits its own requests a second and lets one be in flight.  What a step
    takes is given back when its guard is dropped.

    The two steps of one request are separate, so the steps of several
    requests interleave with each other, with the dropping of guards and with
    the replacement of the known capabilities.  Time is in nanoseconds. -/

namespace SortedMap

variable {κ α : Type} [LinearOrder κ]

/-- Keep the bindings that pass a test. -/
def retain (m : SortedMap κ α) (p : κ → α → Bool) : SortedMap κ α :=
  ⟨m.entries.filter (fun e => p e.1 e.2), m.sorted.filter _⟩

theorem get?_retain {m : SortedMap κ α} {p : κ → α → Bool} {k : κ} {v : α} :
    (m.retain p).get? k = some v ↔ m.get? k = some v ∧ p k v = true := by
  rw [get?_eq_some, get?_eq_some]
  exact List.mem_filter

theorem size_retain_le (m : SortedMap κ α) (p : κ → α → Bool) :
    (m.retain p).size ≤ m.size := List.length_filter_le ..

end SortedMap

namespace Admission

/-! ## The state under the lock -/

/-- The most capabilities that the table keeps. -/
def maxAgentAdmissionEntries : Nat := 128

/-- The requests a second of one capability. -/
def maxAgentRequestsPerSecond : Nat := 100

/-- The requests a second of the agents' socket. -/
def maxAgentChannelRequestsPerSecond : Nat := 200

/-- The requests of the agents' socket under way at once. -/
def maxAgentChannelInFlight : Nat := 4

/-- The requests a second with no known capability. -/
def maxUnauthenticatedRequestsPerSecond : Nat := 20

/-- One second, in nanoseconds. -/
def second : Nat := 1000000000

/-- The hash of the fingerprint of a capability. -/
abbrev Fingerprint := Nat

/-- What is kept of one capability. -/
structure AgentAdmissionEntry where
  windowStarted : Nat
  requests : Nat
  inFlight : Bool
  deriving DecidableEq

/-- What the admission's lock guards. -/
structure AgentAdmissionState where
  knownCapabilities : SortedMap String Int
  entries : SortedMap Fingerprint AgentAdmissionEntry
  windowStarted : Nat
  requests : Nat
  inFlight : Nat
  unauthenticatedWindowStarted : Nat
  unauthenticatedRequests : Nat

/-- The admission of a daemon that starts. -/
def AgentAdmissionState.new (knownCapabilities : List (String × Int))
    (now : Nat) : AgentAdmissionState where
  knownCapabilities := .ofList knownCapabilities
  entries := .empty
  windowStarted := now
  requests := 0
  inFlight := 0
  unauthenticatedWindowStarted := now
  unauthenticatedRequests := 0

namespace AgentAdmissionState

/-! ## The operations -/

/-- Admit a request with no known capability, or refuse it. -/
def admitUnauthenticated (now : Nat) (s : AgentAdmissionState) :
    AgentAdmissionState × Bool :=
  let s := if now - s.unauthenticatedWindowStarted ≥ second then
      { s with unauthenticatedWindowStarted := now, unauthenticatedRequests := 0 }
    else s
  if s.unauthenticatedRequests ≥ maxUnauthenticatedRequestsPerSecond then
    (s, false)
  else
    ({ s with unauthenticatedRequests := s.unauthenticatedRequests + 1 }, true)

/-- The state once the channel's window is that of `now`. -/
def channelWindow (now : Nat) (s : AgentAdmissionState) : AgentAdmissionState :=
  if now - s.windowStarted ≥ second then
    { s with windowStarted := now, requests := 0 }
  else s

/-- Admit a request on the agents' socket, or refuse it. -/
def admitChannel (now : Nat) (s : AgentAdmissionState) :
    AgentAdmissionState × Bool :=
  let s := s.channelWindow now
  if s.inFlight ≥ maxAgentChannelInFlight
      ∨ s.requests ≥ maxAgentChannelRequestsPerSecond then (s, false)
  else ({ s with inFlight := s.inFlight + 1, requests := s.requests + 1 }, true)

/-- Whether an entry is kept when a capability asks. -/
def isRecent (now : Nat) (entry : AgentAdmissionEntry) : Bool :=
  entry.inFlight || decide (now - entry.windowStarted < 2 * second)

/-- The entry of a capability once its window is that of `now`. -/
def entryWindow (now : Nat) (entry : AgentAdmissionEntry) :
    AgentAdmissionEntry :=
  if now - entry.windowStarted ≥ second then
    { entry with windowStarted := now, requests := 0 }
  else entry

/-- The entries that are kept when a capability asks. -/
def recentEntries (now : Nat) (s : AgentAdmissionState) :
    SortedMap Fingerprint AgentAdmissionEntry :=
  s.entries.retain (fun _ entry => isRecent now entry)

/-- The entry of a capability that asks: its own or a new one. -/
def entryOf (now : Nat) (fingerprint : Fingerprint) (s : AgentAdmissionState) :
    AgentAdmissionEntry :=
  entryWindow now
    (((s.recentEntries now).get? fingerprint).getD ⟨now, 0, false⟩)

/-- Admit a request of one capability, or refuse it. -/
def admitCapability (now : Nat) (fingerprint : Fingerprint)
    (s : AgentAdmissionState) : AgentAdmissionState × Bool :=
  let entries := s.recentEntries now
  if entries.contains fingerprint = false
      ∧ entries.size ≥ maxAgentAdmissionEntries then
    ({ s with entries := entries }, false)
  else
    let entry := s.entryOf now fingerprint
    if entry.inFlight = true ∨ entry.requests ≥ maxAgentRequestsPerSecond then
      ({ s with entries := entries.insert fingerprint entry }, false)
    else
      let granted :=
        { entry with inFlight := true, requests := entry.requests + 1 }
      ({ s with entries := entries.insert fingerprint granted }, true)

/-- Drop the guard of a channel. -/
def dropChannel (s : AgentAdmissionState) : AgentAdmissionState :=
  { s with inFlight := s.inFlight - 1 }

/-- Drop the guard of a capability. -/
def dropCapability (fingerprint : Fingerprint) (s : AgentAdmissionState) :
    AgentAdmissionState :=
  match s.entries.get? fingerprint with
  | some entry =>
      let idle := { entry with inFlight := false }
      { s with entries := s.entries.insert fingerprint idle }
  | none => s

/-- Replace the known capabilities; `admissionFingerprint` is the hash of a
    fingerprint. -/
def replaceKnownCapabilities (admissionFingerprint : String → Fingerprint)
    (capabilities : List (String × Int)) (s : AgentAdmissionState) :
    AgentAdmissionState :=
  let known := SortedMap.ofList capabilities
  let activeKeys := known.keys.map admissionFingerprint
  { s with
    knownCapabilities := known
    entries := s.entries.retain (fun fingerprint entry =>
      entry.inFlight || decide (fingerprint ∈ activeKeys)) }

/-- How a request is answered. -/
inductive Admitted where
  | channelRefused
  | capabilityRefused
  | admitted
  deriving DecidableEq

/-- Both steps of a request without anything between; a refused second step
    drops the guard of the first. -/
def admitAuthenticated (now later : Nat) (fingerprint : Fingerprint)
    (s : AgentAdmissionState) : AgentAdmissionState × Admitted :=
  match s.admitChannel now with
  | (s, false) => (s, .channelRefused)
  | (s, true) =>
      match s.admitCapability later fingerprint with
      | (s, false) => (s.dropChannel, .capabilityRefused)
      | (s, true) => (s, .admitted)

end AgentAdmissionState

/-! ## What a step does to the entries -/

namespace AgentAdmissionState

variable {s : AgentAdmissionState} {now : Nat} {f g : Fingerprint}

/-- The channel gives a guard or none, and touches no entry. -/
theorem admitChannel_spec (now : Nat) (s : AgentAdmissionState) :
    (s.admitChannel now).1.entries = s.entries
      ∧ (((s.admitChannel now).2 = true ∧ s.inFlight < maxAgentChannelInFlight
          ∧ (s.admitChannel now).1.inFlight = s.inFlight + 1)
        ∨ ((s.admitChannel now).2 = false
          ∧ (s.admitChannel now).1.inFlight = s.inFlight)) := by
  have hentries : (s.channelWindow now).entries = s.entries := by
    unfold channelWindow
    split
    · rfl
    · rfl
  have hinFlight : (s.channelWindow now).inFlight = s.inFlight := by
    unfold channelWindow
    split
    · rfl
    · rfl
  unfold admitChannel
  dsimp only
  split
  · exact ⟨hentries, Or.inr ⟨rfl, hinFlight⟩⟩
  · rename_i hfree
    have hroom := Nat.not_le.mp (not_or.mp hfree).1
    rw [hinFlight] at hroom
    exact ⟨hentries, Or.inl ⟨rfl, hroom, congrArg (· + 1) hinFlight⟩⟩

/-- There is room for the entry of a capability. -/
def HasRoom (now : Nat) (f : Fingerprint) (s : AgentAdmissionState) : Prop :=
  (s.recentEntries now).get? f = none →
    (s.recentEntries now).size < maxAgentAdmissionEntries

/-- The entries that a capability leaves when it asks: it may be turned away
    for want of room; or its own entry is brought up to date, and marked
    when it is granted. -/
inductive Asked (now : Nat) (f : Fingerprint) (s : AgentAdmissionState) :
    SortedMap Fingerprint AgentAdmissionEntry → Bool → Prop where
  | full (hnone : (s.recentEntries now).get? f = none) :
      Asked now f s (s.recentEntries now) false
  | refused (hroom : s.HasRoom now f) :
      Asked now f s ((s.recentEntries now).insert f (s.entryOf now f)) false
  | granted (hroom : s.HasRoom now f) (hidle : (s.entryOf now f).inFlight = false)
      (hrate : (s.entryOf now f).requests < maxAgentRequestsPerSecond) :
      Asked now f s ((s.recentEntries now).insert f { s.entryOf now f with
        inFlight := true, requests := (s.entryOf now f).requests + 1 }) true

/-- **ASKING FOR A CAPABILITY** leaves the channel alone. -/
theorem admitCapability_spec (now : Nat) (f : Fingerprint)
    (s : AgentAdmissionState) :
    (s.admitCapability now f).1.inFlight = s.inFlight
      ∧ (s.admitCapability now f).1.requests = s.requests
      ∧ (s.admitCapability now f).1.windowStarted = s.windowStarted
      ∧ Asked now f s (s.admitCapability now f).1.entries
        (s.admitCapability now f).2 := by
  unfold admitCapability
  dsimp only
  split
  · rename_i hfull
    refine ⟨rfl, rfl, rfl, .full ?_⟩
    exact Option.not_isSome_iff_eq_none.mp (Bool.eq_false_iff.mp hfull.1)
  · rename_i hroom
    have hroom' : s.HasRoom now f := by
      intro hnone
      by_contra hfull
      refine hroom ⟨?_, Nat.not_lt.mp hfull⟩
      unfold SortedMap.contains
      rw [hnone]
      rfl
    split
    · exact ⟨rfl, rfl, rfl, .refused hroom'⟩
    · rename_i hfree
      obtain ⟨hidle, hrate⟩ := not_or.mp hfree
      exact ⟨rfl, rfl, rfl, .granted hroom' (Bool.eq_false_iff.mpr hidle)
        (Nat.not_le.mp hrate)⟩

end AgentAdmissionState

/-! ## The windows of a capability -/

/-- What happens to the entry of a capability. -/
inductive Event where
  | opened (fingerprint : Fingerprint) (time : Nat)
  | granted (fingerprint : Fingerprint) (time : Nat)
  | removed (fingerprint : Fingerprint)
  deriving DecidableEq

/-- The window that the events, newest first, leave open: when it started and
    how many requests were granted in it. -/
def window (f : Fingerprint) : List Event → Option (Nat × Nat)
  | [] => none
  | .opened g t :: rest => if g = f then some (t, 0) else window f rest
  | .granted g _ :: rest =>
      if g = f then (window f rest).map (fun w => (w.1, w.2 + 1))
      else window f rest
  | .removed g :: rest => if g = f then none else window f rest

/-- **LAWFUL EVENTS**: a window is opened a second after the last one, and a
    request is granted within the second and the rate of its window. -/
def Lawful : List Event → Prop
  | [] => True
  | .opened f t :: rest =>
      (∀ a n, window f rest = some (a, n) → a + second ≤ t) ∧ Lawful rest
  | .granted f t :: rest =>
      (∃ a n, window f rest = some (a, n) ∧ n < maxAgentRequestsPerSecond
        ∧ a ≤ t ∧ t < a + second) ∧ Lawful rest
  | .removed _ :: rest => Lawful rest

/-- How many requests of a capability are granted in events. -/
def grants (f : Fingerprint) : List Event → Nat
  | [] => 0
  | .granted g _ :: rest => if g = f then grants f rest + 1 else grants f rest
  | .opened _ _ :: rest => grants f rest
  | .removed _ :: rest => grants f rest

/-- After its opening a window counts what is granted. -/
theorem window_since {f : Fingerprint} {a : Nat} {later earlier : List Event}
    (hopen : ∀ t, .opened f t ∉ later) (hkeep : .removed f ∉ later) :
    window f (later ++ .opened f a :: earlier) = some (a, grants f later) := by
  induction later with
  | nil => exact if_pos rfl
  | cons e later ih =>
      have ih := ih (fun t h => hopen t (List.mem_cons_of_mem _ h))
        (fun h => hkeep (List.mem_cons_of_mem _ h))
      rw [List.cons_append]
      cases e with
      | opened g t =>
          have hne : g ≠ f := by
            rintro rfl
            exact hopen t (List.mem_cons_self ..)
          exact (if_neg hne).trans ih
      | granted g t =>
          show (if g = f then _ else _) = some (a, if g = f then _ else _)
          by_cases hg : g = f
          · rw [if_pos hg, if_pos hg, ih]
            rfl
          · rw [if_neg hg, if_neg hg, ih]
      | removed g =>
          have hne : g ≠ f := by
            rintro rfl
            exact hkeep (List.mem_cons_self ..)
          exact (if_neg hne).trans ih

/-- **THE RATE OF A WINDOW**: what is granted since a window was opened is
    within the rate and within the second. -/
theorem Lawful.rate {f : Fingerprint} {a : Nat} {later earlier : List Event}
    (h : Lawful (later ++ .opened f a :: earlier))
    (hopen : ∀ t, .opened f t ∉ later) (hkeep : .removed f ∉ later) :
    grants f later ≤ maxAgentRequestsPerSecond
      ∧ ∀ t, .granted f t ∈ later → a ≤ t ∧ t < a + second := by
  induction later with
  | nil => exact ⟨Nat.zero_le _, fun _ hmem => nomatch hmem⟩
  | cons e later ih =>
      have hopen' : ∀ t, .opened f t ∉ later :=
        fun t h => hopen t (List.mem_cons_of_mem _ h)
      have hkeep' : .removed f ∉ later := fun h => hkeep (List.mem_cons_of_mem _ h)
      cases e with
      | opened g t =>
          obtain ⟨hle, hall⟩ := ih h.2 hopen' hkeep'
          refine ⟨hle, fun t' hmem => hall t' ?_⟩
          exact (List.mem_cons.mp hmem).resolve_left nofun
      | granted g t =>
          obtain ⟨hle, hall⟩ := ih h.2 hopen' hkeep'
          obtain ⟨⟨a', n, hwindow, hn, hlow, hhigh⟩, _⟩ := h
          show (if g = f then _ else _) ≤ _ ∧ _
          by_cases hg : g = f
          · subst hg
            -- no window was opened since, so the grant was counted in this one
            have hsince : window g (later ++ .opened g a :: earlier)
                = some (a, grants g later) := window_since hopen' hkeep'
            obtain ⟨rfl, rfl⟩ : a = a' ∧ grants g later = n :=
              Prod.mk.inj (Option.some.inj (hsince.symm.trans hwindow))
            rw [if_pos rfl]
            refine ⟨hn, fun t' hmem => ?_⟩
            rcases List.mem_cons.mp hmem with heq | hmem
            · cases heq
              exact ⟨hlow, hhigh⟩
            · exact hall t' hmem
          · rw [if_neg hg]
            refine ⟨hle, fun t' hmem => hall t' ?_⟩
            rcases List.mem_cons.mp hmem with heq | hmem
            · cases heq
              exact absurd rfl hg
            · exact hmem
      | removed g =>
          obtain ⟨hle, hall⟩ := ih h hopen' hkeep'
          refine ⟨hle, fun t' hmem => hall t' ?_⟩
          exact (List.mem_cons.mp hmem).resolve_left nofun

theorem Lawful.of_append {later earlier : List Event}
    (h : Lawful (later ++ earlier)) : Lawful earlier := by
  induction later with
  | nil => exact h
  | cons e later ih =>
      cases e with
      | opened g t => exact ih h.2
      | granted g t => exact ih h.2
      | removed g => exact ih h

/-- The window that is open after an opening started no earlier. -/
theorem Lawful.window_after {f : Fingerprint} {a : Nat}
    {later earlier : List Event} (h : Lawful (later ++ .opened f a :: earlier))
    (hkeep : .removed f ∉ later) :
    ∃ b n, window f (later ++ .opened f a :: earlier) = some (b, n)
      ∧ a ≤ b := by
  induction later with
  | nil => exact ⟨a, 0, if_pos rfl, Nat.le_refl a⟩
  | cons e later ih =>
      have hkeep' : .removed f ∉ later := fun h => hkeep (List.mem_cons_of_mem _ h)
      cases e with
      | opened g t =>
          obtain ⟨b, n, hb, hle⟩ := ih h.2 hkeep'
          by_cases hg : g = f
          · subst hg
            have hlaw := h.1 b n hb
            exact ⟨t, 0, if_pos rfl, by omega⟩
          · exact ⟨b, n, (if_neg hg).trans hb, hle⟩
      | granted g t =>
          obtain ⟨b, n, hb, hle⟩ := ih h.2 hkeep'
          by_cases hg : g = f
          · refine ⟨b, n + 1, (if_pos hg).trans ?_, hle⟩
            exact congrArg (Option.map (fun w => (w.1, w.2 + 1))) hb
          · exact ⟨b, n, (if_neg hg).trans hb, hle⟩
      | removed g =>
          obtain ⟨b, n, hb, hle⟩ := ih h hkeep'
          have hg : g ≠ f := by
            rintro rfl
            exact hkeep (List.mem_cons_self ..)
          exact ⟨b, n, (if_neg hg).trans hb, hle⟩

/-- **WINDOWS APART**: two windows of a capability whose entry is kept start a
    second apart. -/
theorem Lawful.apart {f : Fingerprint} {a b : Nat}
    {later mid earlier : List Event}
    (h : Lawful (later ++ .opened f b :: (mid ++ .opened f a :: earlier)))
    (hkeep : .removed f ∉ mid) : a + second ≤ b := by
  obtain ⟨hlaw, hrest⟩ := h.of_append
  obtain ⟨c, n, hwindow, hle⟩ := hrest.window_after hkeep
  have hc := hlaw c n hwindow
  omega

/-! ## The events of a step -/

/-- The entries that are gone. -/
def removals (before after : SortedMap Fingerprint AgentAdmissionEntry) :
    List Event :=
  (before.keys.filter (fun f => !after.contains f)).map .removed

/-- What a capability that asks makes happen, newest first. -/
def askEvents (now : Nat) (f : Fingerprint)
    (before after : SortedMap Fingerprint AgentAdmissionEntry)
    (granted : Bool) : List Event :=
  let opened := match after.get? f with
    | some e =>
        if (before.get? f).map AgentAdmissionEntry.windowStarted
          = some e.windowStarted then [] else [.opened f now]
    | none => []
  (if granted = true then [.granted f now] else []) ++ opened
    ++ removals before after

/-- The events account for the entries. -/
def Accounts (log : List Event)
    (entries : SortedMap Fingerprint AgentAdmissionEntry) : Prop :=
  ∀ f, window f log = (entries.get? f).map (fun e => (e.windowStarted, e.requests))

theorem lawful_removed {fs : List Fingerprint} {log : List Event} :
    Lawful (fs.map .removed ++ log) ↔ Lawful log := by
  induction fs with
  | nil => exact Iff.rfl
  | cons f fs ih => exact ih

theorem window_removed (f : Fingerprint) {fs : List Fingerprint}
    {log : List Event} : window f (fs.map .removed ++ log)
      = if f ∈ fs then none else window f log := by
  induction fs with
  | nil => exact (if_neg List.not_mem_nil).symm
  | cons g fs ih =>
      show (if g = f then none else window f (fs.map .removed ++ log)) = _
      rw [ih]
      by_cases hg : g = f
      · rw [if_pos hg, if_pos (hg ▸ List.mem_cons_self ..)]
      · rw [if_neg hg]
        by_cases hmem : f ∈ fs
        · rw [if_pos hmem, if_pos (List.mem_cons_of_mem _ hmem)]
        · rw [if_neg hmem, if_neg (fun h => (List.mem_cons.mp h).elim
            (fun heq => hg heq.symm) hmem)]

theorem mem_removals {f : Fingerprint}
    {before after : SortedMap Fingerprint AgentAdmissionEntry} :
    f ∈ before.keys.filter (fun f => !after.contains f)
      ↔ (∃ e, before.get? f = some e) ∧ after.get? f = none := by
  rw [List.mem_filter, SortedMap.mem_keys]
  refine and_congr_right fun _ => ?_
  unfold SortedMap.contains
  cases after.get? f with
  | none => exact iff_of_true rfl rfl
  | some e => exact iff_of_false Bool.false_ne_true nofun

/-- Removing entries removes their windows. -/
theorem Accounts.removed {log : List Event}
    {before after : SortedMap Fingerprint AgentAdmissionEntry}
    (h : Accounts log before)
    (hsub : ∀ f e, after.get? f = some e → before.get? f = some e) :
    Accounts (removals before after ++ log) after := by
  intro f
  unfold removals
  rw [window_removed]
  split
  · rename_i hmem
    rw [(mem_removals.mp hmem).2]
    rfl
  · rename_i hmem
    rw [h f]
    cases hafter : after.get? f with
    | some e => rw [hsub f e hafter]
    | none =>
        cases hbefore : before.get? f with
        | none => rfl
        | some e => exact absurd (mem_removals.mpr ⟨⟨e, hbefore⟩, hafter⟩) hmem

section Asking

variable {s : AgentAdmissionState} {now : Nat} {f : Fingerprint}
  {log : List Event}

/-- No window started after a time. -/
def StartedBy (now : Nat)
    (entries : SortedMap Fingerprint AgentAdmissionEntry) : Prop :=
  ∀ f e, entries.get? f = some e → e.windowStarted ≤ now

/-- A window is kept within its second and starts anew after it. -/
theorem entryWindow_cases (now : Nat) (e : AgentAdmissionEntry) :
    (now < e.windowStarted + second ∧ AgentAdmissionState.entryWindow now e = e)
      ∨ (e.windowStarted + second ≤ now
        ∧ AgentAdmissionState.entryWindow now e
          = { e with windowStarted := now, requests := 0 }) := by
  have hpos : 0 < second := by decide
  unfold AgentAdmissionState.entryWindow
  by_cases hlate : now - e.windowStarted ≥ second
  · exact Or.inr ⟨by omega, if_pos hlate⟩
  · exact Or.inl ⟨by omega, if_neg hlate⟩

/-- The entry of a capability that asks is its own, still in its window; or
    its window starts now, a second after the last one. -/
theorem entryOf_spec (hstart : StartedBy now s.entries) :
    (s.entryOf now f).windowStarted ≤ now
      ∧ now < (s.entryOf now f).windowStarted + second
      ∧ (s.entries.get? f = some (s.entryOf now f)
        ∨ ((s.entryOf now f).windowStarted = now
          ∧ (s.entryOf now f).requests = 0
          ∧ ∀ old, s.entries.get? f = some old →
            old.windowStarted + second ≤ now)) := by
  have hpos : now < now + second := Nat.lt_add_of_pos_right (by decide)
  unfold AgentAdmissionState.entryOf
  cases hget : (s.recentEntries now).get? f with
  | some old =>
      have hold : s.entries.get? f = some old :=
        (SortedMap.get?_retain.mp hget).1
      rw [Option.getD_some]
      rcases entryWindow_cases now old with ⟨hin, heq⟩ | ⟨hlate, heq⟩
      · rw [heq]
        exact ⟨hstart f old hold, hin, Or.inl hold⟩
      · rw [heq]
        refine ⟨Nat.le_refl _, hpos, Or.inr ⟨rfl, rfl, fun old' hold' => ?_⟩⟩
        obtain rfl := Option.some.inj (hold.symm.trans hold')
        exact hlate
  | none =>
      rw [Option.getD_none]
      have heq : AgentAdmissionState.entryWindow now ⟨now, 0, false⟩
          = ⟨now, 0, false⟩ := by
        rcases entryWindow_cases now ⟨now, 0, false⟩ with ⟨_, heq⟩ | ⟨_, heq⟩
        · exact heq
        · exact heq
      rw [heq]
      refine ⟨Nat.le_refl _, hpos, Or.inr ⟨rfl, rfl, fun old hold => ?_⟩⟩
      -- the entry was there and is not kept, so it was idle for two seconds
      by_contra hearly
      have hrecent : AgentAdmissionState.isRecent now old = true := by
        unfold AgentAdmissionState.isRecent
        rw [decide_eq_true (by omega), Bool.or_true]
      rw [AgentAdmissionState.recentEntries,
        SortedMap.get?_retain.mpr ⟨hold, hrecent⟩] at hget
      exact nomatch hget

/-- The entry of a capability that asks is in flight when its own is. -/
theorem entryOf_inFlight : (s.entryOf now f).inFlight = true
    ↔ ∃ e, s.entries.get? f = some e ∧ e.inFlight = true := by
  have hkeeps : ∀ e, (AgentAdmissionState.entryWindow now e).inFlight
      = e.inFlight := by
    intro e
    unfold AgentAdmissionState.entryWindow
    split
    · rfl
    · rfl
  unfold AgentAdmissionState.entryOf
  rw [hkeeps]
  cases hget : (s.recentEntries now).get? f with
  | some old =>
      have hold : s.entries.get? f = some old :=
        (SortedMap.get?_retain.mp hget).1
      constructor
      · exact fun h => ⟨old, hold, h⟩
      · rintro ⟨e, he, h⟩
        obtain rfl := Option.some.inj (hold.symm.trans he)
        exact h
  | none =>
      refine iff_of_false Bool.false_ne_true ?_
      rintro ⟨e, he, h⟩
      have hrecent : AgentAdmissionState.isRecent now e = true := by
        unfold AgentAdmissionState.isRecent
        rw [h, Bool.true_or]
      rw [AgentAdmissionState.recentEntries,
        SortedMap.get?_retain.mpr ⟨he, hrecent⟩] at hget
      exact nomatch hget

/-- What the events are when the entry of the capability is stored. -/
theorem askEvents_stored {after : SortedMap Fingerprint AgentAdmissionEntry}
    {e : AgentAdmissionEntry} {granted : Bool} (he : after.get? f = some e) :
    askEvents now f s.entries after granted
      = (if granted = true then [.granted f now] else [])
        ++ (if (s.entries.get? f).map AgentAdmissionEntry.windowStarted
            = some e.windowStarted then [] else [.opened f now])
        ++ removals s.entries after := by
  unfold askEvents
  rw [he]

/-- **THE EVENTS OF AN ENTRY**: before anything is granted, the events account
    for the entry of the capability that asks. -/
theorem ask_opens (hlog : Accounts log s.entries)
    (hstart : StartedBy now s.entries)
    {rest : List Event} (hrest : window f rest = window f log)
    (hrestlaw : Lawful rest) :
    Lawful ((if (s.entries.get? f).map AgentAdmissionEntry.windowStarted
        = some (s.entryOf now f).windowStarted then [] else [.opened f now])
          ++ rest)
      ∧ window f ((if (s.entries.get? f).map AgentAdmissionEntry.windowStarted
        = some (s.entryOf now f).windowStarted then [] else [.opened f now])
          ++ rest)
        = some ((s.entryOf now f).windowStarted, (s.entryOf now f).requests) := by
  obtain ⟨_, _, hown | ⟨hnow, hzero, hold⟩⟩ := entryOf_spec (f := f) hstart
  · rw [if_pos (by rw [hown]; rfl)]
    refine ⟨hrestlaw, ?_⟩
    show window f rest = _
    rw [hrest, hlog f, hown]
    rfl
  · have hne : ¬(s.entries.get? f).map AgentAdmissionEntry.windowStarted
        = some (s.entryOf now f).windowStarted := by
      intro heq
      obtain ⟨old, hget, hsame⟩ := Option.map_eq_some_iff.mp heq
      have hlate := hold old hget
      have hpos : 0 < second := by decide
      omega
    rw [if_neg hne, hnow, hzero]
    refine ⟨⟨fun a n hwindow => ?_, hrestlaw⟩, if_pos rfl⟩
    have hold' : window f rest = some (a, n) := hwindow
    rw [hrest, hlog f] at hold'
    obtain ⟨old, hget, heq⟩ := Option.map_eq_some_iff.mp hold'
    cases heq
    exact hold old hget

/-- A kept entry that is not that of the capability is an old one. -/
theorem recent_sub {g : Fingerprint} {e e' : AgentAdmissionEntry}
    (h : ((s.recentEntries now).insert f e').get? g = some e) (hne : g ≠ f) :
    s.entries.get? g = some e := by
  rw [SortedMap.get?_insert_of_ne _ _ hne] at h
  exact (SortedMap.get?_retain.mp h).1

/-- The entry of another capability is accounted for by what was removed. -/
theorem Accounts.other (hlog : Accounts log s.entries)
    {e' : AgentAdmissionEntry} {g : Fingerprint} (hne : g ≠ f) :
    window g (removals s.entries ((s.recentEntries now).insert f e') ++ log)
      = (((s.recentEntries now).insert f e').get? g).map
        (fun e => (e.windowStarted, e.requests)) := by
  unfold removals
  rw [window_removed]
  split
  · rename_i hmem
    rw [(mem_removals.mp hmem).2]
    rfl
  · rename_i hmem
    rw [hlog g]
    cases hafter : ((s.recentEntries now).insert f e').get? g with
    | some e => rw [recent_sub hafter hne]
    | none =>
        cases hbefore : s.entries.get? g with
        | none => rfl
        | some e => exact absurd (mem_removals.mpr ⟨⟨e, hbefore⟩, hafter⟩) hmem

theorem Accounts.own {e' : AgentAdmissionEntry} :
    window f (removals s.entries ((s.recentEntries now).insert f e') ++ log)
      = window f log := by
  unfold removals
  rw [window_removed, if_neg]
  intro hmem
  rw [mem_removals, SortedMap.get?_insert_self] at hmem
  exact nomatch hmem.2

/-- The same with the entries that are gone. -/
theorem ask_stores (hlog : Accounts log s.entries) (hlaw : Lawful log)
    (hstart : StartedBy now s.entries) (e' : AgentAdmissionEntry) :
    Lawful ((if (s.entries.get? f).map AgentAdmissionEntry.windowStarted
        = some (s.entryOf now f).windowStarted then [] else [.opened f now])
          ++ (removals s.entries ((s.recentEntries now).insert f e') ++ log))
      ∧ window f ((if (s.entries.get? f).map AgentAdmissionEntry.windowStarted
        = some (s.entryOf now f).windowStarted then [] else [.opened f now])
          ++ (removals s.entries ((s.recentEntries now).insert f e') ++ log))
        = some ((s.entryOf now f).windowStarted, (s.entryOf now f).requests) :=
  ask_opens hlog hstart Accounts.own (lawful_removed.mpr hlaw)

/-- **ASKING IS ACCOUNTED FOR**: the events of a capability that asks account
    for the entries it leaves, and they are lawful. -/
theorem asked_accounts (hlog : Accounts log s.entries) (hlaw : Lawful log)
    (hstart : StartedBy now s.entries)
    {after : SortedMap Fingerprint AgentAdmissionEntry} {granted : Bool}
    (h : s.Asked now f after granted) :
    Accounts (askEvents now f s.entries after granted ++ log) after
      ∧ Lawful (askEvents now f s.entries after granted ++ log)
      ∧ StartedBy now after := by
  have hold : ∀ e', StartedBy now ((s.recentEntries now).insert f e')
      ↔ e'.windowStarted ≤ now := by
    intro e'
    constructor
    · exact fun hall => hall f e' (SortedMap.get?_insert_self ..)
    · intro hle g e he
      by_cases hg : g = f
      · subst hg
        rw [SortedMap.get?_insert_self] at he
        rw [← Option.some.inj he]
        exact hle
      · exact hstart g e (recent_sub he hg)
  obtain ⟨hle, hin, _⟩ := entryOf_spec (f := f) hstart
  -- no entry is touched for want of room; otherwise the one that was asked for
  -- is stored anew
  cases h with
  | full hnone =>
      have hsub : ∀ g e, (s.recentEntries now).get? g = some e →
          s.entries.get? g = some e :=
        fun g e he => (SortedMap.get?_retain.mp he).1
      unfold askEvents
      rw [hnone]
      exact ⟨hlog.removed hsub, lawful_removed.mpr hlaw,
        fun g e he => hstart g e (hsub g e he)⟩
  | refused =>
      have hopens := ask_stores (f := f) hlog hlaw hstart (s.entryOf now f)
      rw [askEvents_stored (SortedMap.get?_insert_self ..), if_neg nofun,
        List.nil_append, List.append_assoc]
      refine ⟨fun g => ?_, hopens.1, (hold _).mpr hle⟩
      by_cases hg : g = f
      · subst hg
        rw [hopens.2, SortedMap.get?_insert_self]
        rfl
      · rw [← Accounts.other hlog hg]
        split
        · rfl
        · exact if_neg (fun heq => hg heq.symm)
  | granted _ _ hrate =>
      have hopens := ask_stores (f := f) hlog hlaw hstart
        { s.entryOf now f with
          inFlight := true, requests := (s.entryOf now f).requests + 1 }
      rw [askEvents_stored (SortedMap.get?_insert_self ..), if_pos rfl,
        List.append_assoc, List.append_assoc, List.singleton_append]
      refine ⟨fun g => ?_, ⟨⟨_, _, hopens.2, hrate, hle, hin⟩, hopens.1⟩,
        (hold _).mpr hle⟩
      by_cases hg : g = f
      · subst hg
        rw [SortedMap.get?_insert_self]
        refine (if_pos rfl).trans ?_
        rw [hopens.2]
        rfl
      · rw [← Accounts.other hlog hg]
        refine (if_neg (fun heq => hg heq.symm)).trans ?_
        split
        · rfl
        · exact if_neg (fun heq => hg heq.symm)

/-- Which entries are in flight after a capability asked. -/
theorem asked_inFlight {after : SortedMap Fingerprint AgentAdmissionEntry}
    {granted : Bool} (h : s.Asked now f after granted) (g : Fingerprint) :
    (∃ e, after.get? g = some e ∧ e.inFlight = true)
      ↔ (∃ e, s.entries.get? g = some e ∧ e.inFlight = true)
        ∨ (granted = true ∧ g = f) := by
  have hrecent : (∃ e, (s.recentEntries now).get? g = some e ∧ e.inFlight = true)
      ↔ ∃ e, s.entries.get? g = some e ∧ e.inFlight = true := by
    constructor
    · rintro ⟨e, he, hflight⟩
      exact ⟨e, (SortedMap.get?_retain.mp he).1, hflight⟩
    · rintro ⟨e, he, hflight⟩
      refine ⟨e, SortedMap.get?_retain.mpr ⟨he, ?_⟩, hflight⟩
      unfold AgentAdmissionState.isRecent
      rw [hflight, Bool.true_or]
  cases h with
  | full =>
      rw [hrecent]
      exact (or_iff_left (fun h => Bool.false_ne_true h.1)).symm
  | refused =>
      rw [or_iff_left (fun h => Bool.false_ne_true h.1)]
      by_cases hg : g = f
      · subst hg
        rw [SortedMap.get?_insert_self,
          ← (entryOf_inFlight : (s.entryOf now g).inFlight = true ↔ _)]
        exact ⟨fun ⟨e, he, h⟩ => Option.some.inj he ▸ h, fun h => ⟨_, rfl, h⟩⟩
      · rw [SortedMap.get?_insert_of_ne _ _ hg, hrecent]
  | granted =>
      by_cases hg : g = f
      · subst hg
        rw [SortedMap.get?_insert_self]
        exact iff_of_true ⟨_, rfl, rfl⟩ (Or.inr ⟨rfl, rfl⟩)
      · rw [SortedMap.get?_insert_of_ne _ _ hg, hrecent]
        exact (or_iff_left (fun h => hg h.2)).symm

/-- Only an idle capability is granted. -/
theorem asked_idle {after : SortedMap Fingerprint AgentAdmissionEntry}
    (h : s.Asked now f after true) :
    ¬∃ e, s.entries.get? f = some e ∧ e.inFlight = true := by
  cases h with
  | granted _ hidle _ =>
      intro hin
      rw [entryOf_inFlight.mpr hin] at hidle
      exact nomatch hidle

/-- A capability that asks leaves no more entries than are allowed. -/
theorem asked_size {after : SortedMap Fingerprint AgentAdmissionEntry}
    {granted : Bool} (h : s.Asked now f after granted)
    (hsize : s.entries.size ≤ maxAgentAdmissionEntries) :
    after.size ≤ maxAgentAdmissionEntries := by
  have hrecent : (s.recentEntries now).size ≤ maxAgentAdmissionEntries :=
    (SortedMap.size_retain_le _ _).trans hsize
  have hinsert : ∀ e, s.HasRoom now f →
      ((s.recentEntries now).insert f e).size ≤ maxAgentAdmissionEntries := by
    intro e hroom
    cases hget : (s.recentEntries now).get? f with
    | none =>
        rw [SortedMap.size_insert_of_none _ hget]
        exact hroom hget
    | some old =>
        rw [SortedMap.size_insert_of_some _ hget]
        exact hrecent
  cases h with
  | full => exact hrecent
  | refused hroom => exact hinsert _ hroom
  | granted hroom => exact hinsert _ hroom

end Asking

/-! ## Interleavings -/

/-- The state with the guards that are alive: held by callers, or inside a
    request between its two steps (`halfway`), or inside a request whose
    second step was refused and whose guard is about to be dropped. -/
structure System where
  state : AgentAdmissionState
  time : Nat
  channelGuards : Nat
  capabilityGuards : List Fingerprint
  halfway : List Fingerprint
  leaving : Nat
  log : List Event

namespace System

/-- The channel guards that are alive. -/
def liveChannel (y : System) : Nat :=
  y.channelGuards + y.halfway.length + y.leaving

/-- The system of a daemon that starts, with no guard. -/
def new (knownCapabilities : List (String × Int)) (now : Nat) : System where
  state := .new knownCapabilities now
  time := now
  channelGuards := 0
  capabilityGuards := []
  halfway := []
  leaving := 0
  log := []

/-- One step of the channel; what the guard becomes is given. -/
def askChannel (now : Nat) (y : System) (guarded : System → System) : System :=
  let next := { y with state := (y.state.admitChannel now).1, time := now }
  if (y.state.admitChannel now).2 = true then guarded next else next

/-- One step of a capability; what becomes of the guard, or of the refusal, is
    given. -/
def askCapability (now : Nat) (f : Fingerprint) (y : System)
    (guarded refused : System → System) : System :=
  let after := y.state.admitCapability now f
  let next := { y with
    state := after.1
    time := now
    log := askEvents now f y.state.entries after.1.entries after.2 ++ y.log }
  if after.2 = true then guarded next else refused next

end System

/-- **ONE STEP** under the lock, of any thread, at a time no earlier than the
    last. -/
inductive Step (admissionFingerprint : String → Fingerprint) :
    System → System → Prop where
  | admitChannel {y : System} {now : Nat} : y.time ≤ now →
      Step admissionFingerprint y (y.askChannel now fun y =>
        { y with channelGuards := y.channelGuards + 1 })
  | admitCapability {y : System} {now : Nat} (f : Fingerprint) : y.time ≤ now →
      Step admissionFingerprint y (y.askCapability now f
        (fun y => { y with capabilityGuards := f :: y.capabilityGuards }) id)
  | beginAuthenticated {y : System} {now : Nat} (f : Fingerprint) :
      y.time ≤ now → Step admissionFingerprint y (y.askChannel now fun y =>
        { y with halfway := f :: y.halfway })
  | finishAuthenticated {y : System} {now : Nat} {f : Fingerprint} :
      y.time ≤ now → f ∈ y.halfway → Step admissionFingerprint y
        (({ y with halfway := y.halfway.erase f } : System).askCapability now f
          (fun y => { y with
            channelGuards := y.channelGuards + 1
            capabilityGuards := f :: y.capabilityGuards })
          (fun y => { y with leaving := y.leaving + 1 }))
  | leave {y : System} : 0 < y.leaving → Step admissionFingerprint y
      { y with state := y.state.dropChannel, leaving := y.leaving - 1 }
  | dropChannel {y : System} : 0 < y.channelGuards →
      Step admissionFingerprint y { y with
        state := y.state.dropChannel, channelGuards := y.channelGuards - 1 }
  | dropCapability {y : System} {f : Fingerprint} : f ∈ y.capabilityGuards →
      Step admissionFingerprint y { y with
        state := y.state.dropCapability f
        capabilityGuards := y.capabilityGuards.erase f }
  | replaceKnown {y : System} (capabilities : List (String × Int)) :
      Step admissionFingerprint y { y with
        state := y.state.replaceKnownCapabilities admissionFingerprint
          capabilities
        log := removals y.state.entries (y.state.replaceKnownCapabilities
          admissionFingerprint capabilities).entries ++ y.log }
  | admitUnauthenticated {y : System} {now : Nat} : y.time ≤ now →
      Step admissionFingerprint y { y with
        state := (y.state.admitUnauthenticated now).1, time := now }

/-- What any interleaving leads to. -/
inductive Reachable (admissionFingerprint : String → Fingerprint) :
    System → Prop where
  | new (knownCapabilities : List (String × Int)) (now : Nat) :
      Reachable admissionFingerprint (.new knownCapabilities now)
  | step {y y' : System} : Reachable admissionFingerprint y →
      Step admissionFingerprint y y' → Reachable admissionFingerprint y'

/-- **EXACT ACCOUNTS**: the counter is the number of guards, the marks are the
    guards, and the events account for the entries. -/
structure Exact (y : System) : Prop where
  inFlight : y.state.inFlight = y.liveChannel
  bound : y.state.inFlight ≤ maxAgentChannelInFlight
  oneEach : y.capabilityGuards.Nodup
  marks : ∀ f, (∃ e, y.state.entries.get? f = some e ∧ e.inFlight = true)
    ↔ f ∈ y.capabilityGuards
  size : y.state.entries.size ≤ maxAgentAdmissionEntries
  accounts : Accounts y.log y.state.entries
  lawful : Lawful y.log
  started : StartedBy y.time y.state.entries

variable {admissionFingerprint : String → Fingerprint} {y y' : System}

theorem exact_new (knownCapabilities : List (String × Int)) (now : Nat) :
    Exact (.new knownCapabilities now) where
  inFlight := rfl
  bound := Nat.zero_le _
  oneEach := List.nodup_nil
  marks := fun _ => iff_of_false (fun ⟨_, he, _⟩ => nomatch he) List.not_mem_nil
  size := Nat.zero_le _
  accounts := fun _ => rfl
  lawful := trivial
  started := fun _ _ he => nomatch he

theorem StartedBy.mono {entries : SortedMap Fingerprint AgentAdmissionEntry}
    {t now : Nat} (h : StartedBy t entries) (hle : t ≤ now) :
    StartedBy now entries := fun f e he => (h f e he).trans hle

/-- A step of the channel keeps the accounts when its guard counts as one. -/
theorem Exact.askChannel (h : Exact y) {now : Nat} (hle : y.time ≤ now)
    {guarded : System → System}
    (hlive : ∀ z, (guarded z).liveChannel = z.liveChannel + 1)
    (hsame : ∀ z, (guarded z).state = z.state ∧ (guarded z).time = z.time
      ∧ (guarded z).capabilityGuards = z.capabilityGuards
      ∧ (guarded z).log = z.log) : Exact (y.askChannel now guarded) := by
  obtain ⟨hentries, hcases⟩ := y.state.admitChannel_spec now
  unfold System.askChannel
  dsimp only
  have hrest : ∀ z : System, z.state = (y.state.admitChannel now).1 →
      z.time = now → z.capabilityGuards = y.capabilityGuards → z.log = y.log →
      z.state.inFlight = z.liveChannel →
      z.state.inFlight ≤ maxAgentChannelInFlight → Exact z := by
    intro z hstate htime hguards hlog hcount hbound
    have he : z.state.entries = y.state.entries := by rw [hstate, hentries]
    exact ⟨hcount, hbound, hguards ▸ h.oneEach, by rw [he, hguards]; exact h.marks,
      he ▸ h.size, by rw [he, hlog]; exact h.accounts, hlog ▸ h.lawful,
      by rw [he, htime]; exact h.started.mono hle⟩
  rcases hcases with ⟨hgranted, hfree, hcount⟩ | ⟨hrefused, hcount⟩
  · rw [if_pos hgranted]
    obtain ⟨hstate, htime, hguards, hlog⟩ := hsame { y with
      state := (y.state.admitChannel now).1, time := now }
    refine hrest _ hstate htime hguards hlog ?_ ?_
    · rw [hstate, hlive, hcount, h.inFlight]
      rfl
    · rw [hstate, hcount]
      exact hfree
  · rw [hrefused, if_neg Bool.false_ne_true]
    exact hrest _ rfl rfl rfl rfl (hcount.trans h.inFlight)
      (hcount.trans_le h.bound)

/-- A step of a capability keeps the accounts when its guard is one of the
    capability, and the guard of its request stays alive. -/
theorem Exact.askCapability {x : System} (h : Exact y) {now : Nat}
    {f : Fingerprint} (hle : y.time ≤ now)
    (hx : x.state = y.state ∧ x.capabilityGuards = y.capabilityGuards
      ∧ x.log = y.log)
    {guarded refused : System → System}
    (hguarded : ∀ z : System, z.liveChannel = x.liveChannel →
      (guarded z).liveChannel = y.liveChannel ∧ (guarded z).state = z.state
      ∧ (guarded z).time = z.time ∧ (guarded z).log = z.log
      ∧ (guarded z).capabilityGuards = f :: z.capabilityGuards)
    (hrefused : ∀ z : System, z.liveChannel = x.liveChannel →
      (refused z).liveChannel = y.liveChannel ∧ (refused z).state = z.state
      ∧ (refused z).time = z.time ∧ (refused z).log = z.log
      ∧ (refused z).capabilityGuards = z.capabilityGuards) :
    Exact (x.askCapability now f guarded refused) := by
  obtain ⟨hstate, hguards, hlog⟩ := hx
  obtain ⟨hflight, _, _, hasked⟩ := y.state.admitCapability_spec now f
  obtain ⟨haccounts, hlaw, hstart⟩ :=
    asked_accounts h.accounts h.lawful (h.started.mono hle) hasked
  unfold System.askCapability
  dsimp only
  rw [hstate, hlog]
  -- whatever becomes of the channel's guard, the rest stays exact
  have hrest : ∀ z : System, z.liveChannel = y.liveChannel →
      z.state = (y.state.admitCapability now f).1 → z.time = now →
      z.log = askEvents now f y.state.entries
        (y.state.admitCapability now f).1.entries
        (y.state.admitCapability now f).2 ++ y.log →
      z.capabilityGuards.Nodup →
      (∀ g, g ∈ z.capabilityGuards ↔ g ∈ y.capabilityGuards
        ∨ ((y.state.admitCapability now f).2 = true ∧ g = f)) → Exact z := by
    intro z hlive hs ht hl hone hmarks
    refine ⟨?_, ?_, hone, fun g => ?_, ?_, ?_, hl ▸ hlaw, ?_⟩
    · rw [hs, hflight, hlive, h.inFlight]
    · rw [hs, hflight]
      exact h.bound
    · rw [hs, asked_inFlight hasked, h.marks g, hmarks g]
    · rw [hs]
      exact asked_size hasked h.size
    · rw [hs, hl]
      exact haccounts
    · rw [hs, ht]
      exact hstart
  -- granted, one capability more is guarded, and it was not before
  cases hgranted : (y.state.admitCapability now f).2 with
  | true =>
      rw [if_pos rfl]
      obtain ⟨hlive, hs, ht, hl, hg⟩ := hguarded { x with
        state := (y.state.admitCapability now f).1
        time := now
        log := askEvents now f y.state.entries
          (y.state.admitCapability now f).1.entries true ++ y.log } rfl
      have hnew : f ∉ y.capabilityGuards := by
        rw [hgranted] at hasked
        exact fun hmem => asked_idle hasked ((h.marks f).mpr hmem)
      refine hrest _ hlive hs ht (by rw [hl, hgranted]) ?_ fun g => ?_
      · rw [hg]
        exact List.nodup_cons.mpr ⟨hguards ▸ hnew, hguards ▸ h.oneEach⟩
      · rw [hg, List.mem_cons, hgranted]
        show g = f ∨ g ∈ x.capabilityGuards ↔ _
        rw [hguards, or_comm]
        exact or_congr_right (by simp)
  | false =>
      rw [if_neg Bool.false_ne_true]
      obtain ⟨hlive, hs, ht, hl, hg⟩ := hrefused { x with
        state := (y.state.admitCapability now f).1
        time := now
        log := askEvents now f y.state.entries
          (y.state.admitCapability now f).1.entries false ++ y.log } rfl
      refine hrest _ hlive hs ht (by rw [hl, hgranted]) ?_ fun g => ?_
      · rw [hg]
        exact hguards ▸ h.oneEach
      · rw [hg, hgranted]
        show g ∈ x.capabilityGuards ↔ _
        rw [hguards]
        exact (or_iff_left (fun h => Bool.false_ne_true h.1)).symm

/-- Dropping a guard that is alive keeps the accounts. -/
theorem Exact.dropChannel (h : Exact y) {z : System}
    (hlive : z.liveChannel = y.liveChannel - 1)
    (hstate : z.state = y.state.dropChannel) (htime : z.time = y.time)
    (hguards : z.capabilityGuards = y.capabilityGuards) (hlog : z.log = y.log) :
    Exact z where
  inFlight := by
    rw [hstate, hlive, ← h.inFlight]
    rfl
  bound := by
    rw [hstate]
    exact (Nat.sub_le _ _).trans h.bound
  oneEach := hguards ▸ h.oneEach
  marks := by
    rw [hstate, hguards]
    exact h.marks
  size := by
    rw [hstate]
    exact h.size
  accounts := by
    rw [hstate, hlog]
    exact h.accounts
  lawful := hlog ▸ h.lawful
  started := by
    rw [hstate, htime]
    exact h.started

/-- The mark of a dropped guard is taken back, and no other. -/
theorem Exact.dropCapability (h : Exact y) {f : Fingerprint}
    (hf : f ∈ y.capabilityGuards) : Exact { y with
      state := y.state.dropCapability f
      capabilityGuards := y.capabilityGuards.erase f } := by
  obtain ⟨e, he, hin⟩ := (h.marks f).mpr hf
  have hstate : y.state.dropCapability f = { y.state with
      entries := y.state.entries.insert f { e with inFlight := false } } := by
    unfold AgentAdmissionState.dropCapability
    rw [he]
  rw [hstate]
  refine ⟨h.inFlight, h.bound, h.oneEach.erase f, fun g => ?_, ?_, fun g => ?_,
    h.lawful, fun g e' hget => ?_⟩
  · rw [h.oneEach.mem_erase_iff, ← h.marks g]
    show (∃ e', (y.state.entries.insert f _).get? g = some e' ∧ _) ↔ _
    by_cases hg : g = f
    · subst hg
      rw [SortedMap.get?_insert_self]
      refine iff_of_false ?_ (fun h => h.1 rfl)
      rintro ⟨_, heq, hflight⟩
      rw [← Option.some.inj heq] at hflight
      exact Bool.false_ne_true hflight
    · rw [SortedMap.get?_insert_of_ne _ _ hg]
      exact (and_iff_right hg).symm
  · show (y.state.entries.insert f _).size ≤ _
    rw [SortedMap.size_insert_of_some _ he]
    exact h.size
  · show window g y.log = ((y.state.entries.insert f _).get? g).map _
    rw [h.accounts g]
    by_cases hg : g = f
    · subst hg
      rw [SortedMap.get?_insert_self, he]
      rfl
    · rw [SortedMap.get?_insert_of_ne _ _ hg]
  · have hget : (y.state.entries.insert f _).get? g = some e' := hget
    by_cases hg : g = f
    · subst hg
      rw [SortedMap.get?_insert_self] at hget
      rw [← Option.some.inj hget]
      exact h.started g e he
    · rw [SortedMap.get?_insert_of_ne _ _ hg] at hget
      exact h.started g e' hget

/-- Replacing the known capabilities removes idle entries only. -/
theorem Exact.replaceKnown (h : Exact y) (capabilities : List (String × Int)) :
    Exact { y with
      state := y.state.replaceKnownCapabilities admissionFingerprint capabilities
      log := removals y.state.entries (y.state.replaceKnownCapabilities
        admissionFingerprint capabilities).entries ++ y.log } := by
  have hsub : ∀ f e, (y.state.replaceKnownCapabilities admissionFingerprint
      capabilities).entries.get? f = some e → y.state.entries.get? f = some e :=
    fun f e he => (SortedMap.get?_retain.mp he).1
  refine ⟨h.inFlight, h.bound, h.oneEach, fun f => ?_,
    (SortedMap.size_retain_le _ _).trans h.size, h.accounts.removed hsub,
    lawful_removed.mpr h.lawful, fun f e he => h.started f e (hsub f e he)⟩
  rw [← h.marks f]
  constructor
  · rintro ⟨e, he, hin⟩
    exact ⟨e, hsub f e he, hin⟩
  · rintro ⟨e, he, hin⟩
    exact ⟨e, SortedMap.get?_retain.mpr ⟨he, by rw [hin, Bool.true_or]⟩, hin⟩

/-- **EVERY STEP KEEPS THE ACCOUNTS.** -/
theorem Step.exact (hs : Step admissionFingerprint y y') (h : Exact y) :
    Exact y' := by
  cases hs with
  | admitChannel hle =>
      refine h.askChannel hle (fun z => ?_) (fun _ => ⟨rfl, rfl, rfl, rfl⟩)
      show z.channelGuards + 1 + z.halfway.length + z.leaving
        = z.channelGuards + z.halfway.length + z.leaving + 1
      omega
  | admitCapability f hle =>
      exact h.askCapability hle ⟨rfl, rfl, rfl⟩
        (fun _ hz => ⟨hz, rfl, rfl, rfl, rfl⟩)
        (fun _ hz => ⟨hz, rfl, rfl, rfl, rfl⟩)
  | beginAuthenticated f hle =>
      refine h.askChannel hle (fun z => ?_) (fun _ => ⟨rfl, rfl, rfl, rfl⟩)
      show z.channelGuards + (z.halfway.length + 1) + z.leaving
        = z.channelGuards + z.halfway.length + z.leaving + 1
      omega
  | @finishAuthenticated now f hle hf =>
      have hlength := List.length_erase_of_mem hf
      have hpos := List.length_pos_of_mem hf
      -- the guard of the channel goes with the capability, or is left alone
      refine Exact.askCapability (x := { y with halfway := y.halfway.erase f }) h
        hle ⟨rfl, rfl, rfl⟩ (fun z hz => ?_) (fun z hz => ?_)
      · refine ⟨?_, rfl, rfl, rfl, rfl⟩
        have hz : z.channelGuards + z.halfway.length + z.leaving
          = y.channelGuards + (y.halfway.erase f).length + y.leaving := hz
        show z.channelGuards + 1 + z.halfway.length + z.leaving
          = y.channelGuards + y.halfway.length + y.leaving
        omega
      · refine ⟨?_, rfl, rfl, rfl, rfl⟩
        have hz : z.channelGuards + z.halfway.length + z.leaving
          = y.channelGuards + (y.halfway.erase f).length + y.leaving := hz
        show z.channelGuards + z.halfway.length + (z.leaving + 1)
          = y.channelGuards + y.halfway.length + y.leaving
        omega
  | leave hpos =>
      refine h.dropChannel ?_ rfl rfl rfl rfl
      show y.channelGuards + y.halfway.length + (y.leaving - 1)
        = y.channelGuards + y.halfway.length + y.leaving - 1
      omega
  | dropChannel hpos =>
      refine h.dropChannel ?_ rfl rfl rfl rfl
      show y.channelGuards - 1 + y.halfway.length + y.leaving
        = y.channelGuards + y.halfway.length + y.leaving - 1
      omega
  | dropCapability hf => exact h.dropCapability hf
  | replaceKnown capabilities => exact h.replaceKnown capabilities
  | @admitUnauthenticated now hle =>
      -- only the count of unknown requests changes
      have hstate : (y.state.admitUnauthenticated now).1.entries = y.state.entries
          ∧ (y.state.admitUnauthenticated now).1.inFlight = y.state.inFlight := by
        unfold AgentAdmissionState.admitUnauthenticated
        dsimp only
        split
        · split
          · exact ⟨rfl, rfl⟩
          · exact ⟨rfl, rfl⟩
        · split
          · exact ⟨rfl, rfl⟩
          · exact ⟨rfl, rfl⟩
      obtain ⟨hentries, hflight⟩ := hstate
      exact ⟨hflight.trans h.inFlight, hflight ▸ h.bound, h.oneEach,
        by rw [hentries]; exact h.marks, hentries ▸ h.size,
        by rw [hentries]; exact h.accounts, h.lawful,
        by rw [hentries]; exact h.started.mono hle⟩

theorem Reachable.exact (h : Reachable admissionFingerprint y) : Exact y := by
  -- a system that starts is exact, and each half of a call keeps it so
  induction h with
  | new knownCapabilities now => exact exact_new knownCapabilities now
  | step _ hs ih => exact hs.exact ih

/-- **ADMISSION IS EXACT** in any interleaving: the counter of the channel is
    the number of its live guards and within the limit; a capability has at
    most one live guard, and its entry is there and marked exactly while it
    lives; the table is within its limit; and while the entry of a capability
    is kept, its windows start a second apart and each grants no more than the
    rate, within its second. -/
theorem admission_is_exact (h : Reachable admissionFingerprint y) :
    y.state.inFlight = y.channelGuards + y.halfway.length + y.leaving
      ∧ y.state.inFlight ≤ maxAgentChannelInFlight
      ∧ y.capabilityGuards.Nodup
      ∧ (∀ f, (∃ e, y.state.entries.get? f = some e ∧ e.inFlight = true)
        ↔ f ∈ y.capabilityGuards)
      ∧ y.state.entries.size ≤ maxAgentAdmissionEntries
      ∧ (∀ f a later earlier, y.log = later ++ .opened f a :: earlier →
        (∀ t, .opened f t ∉ later) → .removed f ∉ later →
        grants f later ≤ maxAgentRequestsPerSecond
          ∧ ∀ t, .granted f t ∈ later → a ≤ t ∧ t < a + second)
      ∧ ∀ f a b later mid earlier,
        y.log = later ++ .opened f b :: (mid ++ .opened f a :: earlier) →
        .removed f ∉ mid → a + second ≤ b := by
  have hexact := h.exact
  refine ⟨hexact.inFlight, hexact.bound, hexact.oneEach, hexact.marks,
    hexact.size, fun f a later earlier hlog hopen hkeep => ?_,
    fun f a b later mid earlier hlog hkeep => ?_⟩
  · exact (hlog ▸ hexact.lawful).rate hopen hkeep
  · exact (hlog ▸ hexact.lawful).apart hkeep

/-- A hash for examples. -/
def hashLength : String → Fingerprint := String.length

/-- The two steps of an authenticated request. -/
def begins (f : Fingerprint) (now : Nat) (y : System) : System :=
  y.askChannel now fun y => { y with halfway := f :: y.halfway }

/-- The second step, which grants the capability or refuses it. -/
def finishes (f : Fingerprint) (now : Nat) (y : System) : System :=
  ({ y with halfway := y.halfway.erase f } : System).askCapability now f
    (fun y => { y with
      channelGuards := y.channelGuards + 1
      capabilityGuards := f :: y.capabilityGuards })
    (fun y => { y with leaving := y.leaving + 1 })

theorem Reachable.begins {f : Fingerprint} {now : Nat}
    (h : Reachable admissionFingerprint y) (ht : y.time ≤ now) :
    Reachable admissionFingerprint (begins f now y) :=
  h.step (.beginAuthenticated f ht)

theorem Reachable.finishes {f : Fingerprint} {now : Nat}
    (h : Reachable admissionFingerprint y) (ht : y.time ≤ now)
    (hf : f ∈ y.halfway) : Reachable admissionFingerprint (finishes f now y) :=
  h.step (.finishAuthenticated ht hf)

/-- Two requests with one capability on a fresh socket, begun at once. -/
def bothBegun : System := begins 7 2 (begins 7 1 (.new [] 0))

/-- Both are answered, one after the other. -/
def bothFinished : System := finishes 7 4 (finishes 7 3 bothBegun)

/-- The second of two requests with one capability is refused and leaves: two
    guards of the channel, one of the capability. -/
theorem admission_is_exact_refused : bothFinished.channelGuards = 1
    ∧ bothFinished.leaving = 1 ∧ bothFinished.state.inFlight = 2
    ∧ bothFinished.capabilityGuards = [7] := by
  have hfirst : bothBegun.time ≤ 3 ∧ 7 ∈ bothBegun.halfway := by decide
  have hsecond : (finishes 7 3 bothBegun).time ≤ 4
      ∧ 7 ∈ (finishes 7 3 bothBegun).halfway := by decide
  have hnew : Reachable hashLength (.new [] 0) := .new [] 0
  have hone : (begins 7 1 (.new [] 0)).time ≤ 2 := by decide
  have hbegun : Reachable hashLength bothBegun :=
    (hnew.begins (by decide)).begins hone
  have hrefused : Reachable hashLength bothFinished :=
    (hbegun.finishes hfirst.1 hfirst.2).finishes hsecond.1 hsecond.2
  obtain ⟨hcount, _⟩ := admission_is_exact hrefused
  have hguards : bothFinished.channelGuards = 1 := by decide
  have hleaving : bothFinished.leaving = 1 := by decide
  refine ⟨hguards, hleaving, hcount.trans ?_, by decide⟩
  rw [hguards, hleaving]
  decide

end Admission
