import Cixa.Admission

/-! # Starvation — what refused attempts take from the others

    A request that its capability refuses has already been counted by the
    channel.  The guard of the channel gives back the place in flight, and
    NOT the request of the second.  So the attempts of one capability use up
    the second of all the others. -/

namespace Admission

open AgentAdmissionState

variable {s : AgentAdmissionState} {now later : Nat} {f : Fingerprint}

/-! ## One call -/

/-- What the channel counts in its window before a call. -/
theorem channelWindow_cases (now : Nat) (s : AgentAdmissionState) :
    ((s.channelWindow now).inFlight = s.inFlight)
      ∧ ((s.windowStarted + second ≤ now ∧ (s.channelWindow now).requests = 0)
        ∨ (now < s.windowStarted + second
          ∧ (s.channelWindow now).requests = s.requests)) := by
  have hpos : 0 < second := by decide
  unfold channelWindow
  by_cases hlate : now - s.windowStarted ≥ second
  · rw [if_pos hlate]
    exact ⟨rfl, Or.inl ⟨by omega, rfl⟩⟩
  · rw [if_neg hlate]
    exact ⟨rfl, Or.inr ⟨by omega, rfl⟩⟩

/-- The channel refuses when it is full or when its second is used up. -/
def ChannelFull (now : Nat) (s : AgentAdmissionState) : Prop :=
  (s.channelWindow now).inFlight ≥ maxAgentChannelInFlight
    ∨ (s.channelWindow now).requests ≥ maxAgentChannelRequestsPerSecond

/-- **ONE CALL**: what the channel counts after it.  A call that the
    capability refuses is counted like one that is admitted. -/
theorem admitAuthenticated_counts (now later : Nat) (f : Fingerprint)
    (s : AgentAdmissionState) :
    ((s.admitAuthenticated now later f).2 = .channelRefused ↔ ChannelFull now s)
      ∧ ((s.admitAuthenticated now later f).2 = .channelRefused →
        (s.admitAuthenticated now later f).1.requests
            = (s.channelWindow now).requests
          ∧ (s.admitAuthenticated now later f).1.inFlight = s.inFlight)
      ∧ ((s.admitAuthenticated now later f).2 = .capabilityRefused →
        (s.admitAuthenticated now later f).1.requests
            = (s.channelWindow now).requests + 1
          ∧ (s.admitAuthenticated now later f).1.inFlight = s.inFlight)
      ∧ ((s.admitAuthenticated now later f).2 = .admitted →
        (s.admitAuthenticated now later f).1.requests
            = (s.channelWindow now).requests + 1
          ∧ (s.admitAuthenticated now later f).1.inFlight = s.inFlight + 1) := by
  obtain ⟨hflight, _⟩ := channelWindow_cases now s
  by_cases hfull : ChannelFull now s
  · have hchannel : s.admitChannel now = (s.channelWindow now, false) :=
      if_pos hfull
    unfold admitAuthenticated
    rw [hchannel]
    exact ⟨iff_of_true rfl hfull, fun _ => ⟨rfl, hflight⟩, nofun, nofun⟩
  · have hchannel : s.admitChannel now = ({ s.channelWindow now with
        inFlight := (s.channelWindow now).inFlight + 1
        requests := (s.channelWindow now).requests + 1 }, true) := if_neg hfull
    obtain ⟨hkeeps, hcount, _, _⟩ := admitCapability_spec later f
      { s.channelWindow now with
        inFlight := (s.channelWindow now).inFlight + 1
        requests := (s.channelWindow now).requests + 1 }
    unfold admitAuthenticated
    rw [hchannel]
    dsimp only
    split
    · rename_i after heq
      rw [heq] at hkeeps hcount
      refine ⟨iff_of_false nofun hfull, nofun, fun _ => ⟨hcount, ?_⟩, nofun⟩
      show after.inFlight - 1 = s.inFlight
      have hkeeps : after.inFlight = (s.channelWindow now).inFlight + 1 := hkeeps
      omega
    · rename_i after heq
      rw [heq] at hkeeps hcount
      refine ⟨iff_of_false nofun hfull, nofun, nofun, fun _ => ⟨hcount, ?_⟩⟩
      exact hkeeps.trans (congrArg (· + 1) hflight)

/-! ## Calls in sequence -/

/-- What is done to the admission: a request asks, or what it held is
    dropped. -/
inductive Operation where
  | call (now later : Nat) (fingerprint : Fingerprint)
  | dropChannel
  | dropCapability (fingerprint : Fingerprint)
  | replaceKnown (capabilities : List (String × Int))

/-- The admission with how many calls were admitted, and how many were
    refused by their capability, in the current second of the channel. -/
structure Tallied where
  state : AgentAdmissionState
  admitted : Nat
  refused : Nat

namespace Tallied

/-- A fresh socket, with nothing counted. -/
def new (knownCapabilities : List (String × Int)) (now : Nat) : Tallied :=
  ⟨.new knownCapabilities now, 0, 0⟩

/-- The tallies of the second that a call falls into. -/
def at_ (now : Nat) (t : Tallied) : Tallied :=
  if now - t.state.windowStarted ≥ second then
    { t with admitted := 0, refused := 0 }
  else t

/-- One operation, counted. -/
def perform (admissionFingerprint : String → Fingerprint) (t : Tallied) :
    Operation → Tallied
  | .call now later f =>
      let u := t.at_ now
      let answer := t.state.admitAuthenticated now later f
      match answer.2 with
      | .channelRefused => { u with state := answer.1 }
      | .capabilityRefused =>
          { u with state := answer.1, refused := u.refused + 1 }
      | .admitted => { u with state := answer.1, admitted := u.admitted + 1 }
  | .dropChannel => { t with state := t.state.dropChannel }
  | .dropCapability f => { t with state := t.state.dropCapability f }
  | .replaceKnown capabilities => { t with
      state := t.state.replaceKnownCapabilities admissionFingerprint capabilities }

/-- Operations one after another. -/
def run (admissionFingerprint : String → Fingerprint) (t : Tallied)
    (operations : List Operation) : Tallied :=
  operations.foldl (perform admissionFingerprint) t

end Tallied

variable {admissionFingerprint : String → Fingerprint} {t : Tallied}

/-- The channel counts the calls that were admitted and those that were
    refused by their capability. -/
def Tallied.Counts (t : Tallied) : Prop :=
  t.state.requests = t.admitted + t.refused

theorem Tallied.Counts.at_ (h : t.Counts) (now : Nat) :
    (t.state.channelWindow now).requests
      = (t.at_ now).admitted + (t.at_ now).refused := by
  unfold channelWindow Tallied.at_
  by_cases hlate : now - t.state.windowStarted ≥ second
  · rw [if_pos hlate, if_pos hlate]
    rfl
  · rw [if_neg hlate, if_neg hlate]
    exact h

theorem Tallied.Counts.perform (h : t.Counts) (o : Operation) :
    (t.perform admissionFingerprint o).Counts := by
  cases o with
  | call now later f =>
      obtain ⟨_, hchannel, hcapability, hadmitted⟩ :=
        admitAuthenticated_counts now later f t.state
      have hbefore := h.at_ now
      unfold Tallied.perform Tallied.Counts
      dsimp only
      cases hanswer : (t.state.admitAuthenticated now later f).2 with
      | channelRefused => exact (hchannel hanswer).1.trans hbefore
      | capabilityRefused =>
          exact (hcapability hanswer).1.trans (congrArg (· + 1) hbefore)
      | admitted =>
          refine (hadmitted hanswer).1.trans ?_
          show _ = (t.at_ now).admitted + 1 + (t.at_ now).refused
          omega
  | dropChannel => exact h
  | dropCapability f =>
      show (t.state.dropCapability f).requests = _
      unfold AgentAdmissionState.dropCapability
      cases t.state.entries.get? f with
      | none => exact h
      | some e => exact h
  | replaceKnown capabilities => exact h

theorem Tallied.Counts.run (h : t.Counts) (operations : List Operation) :
    (t.run admissionFingerprint operations).Counts := by
  induction operations generalizing t with
  | nil => exact h
  | cons o operations ih => exact ih (h.perform o)

/-- A call is starved: the channel refuses it although fewer than four
    requests are in flight and fewer were admitted in the second than the
    channel admits. -/
def Starved (t : Tallied) (now later : Nat) (f : Fingerprint) : Prop :=
  (t.state.admitAuthenticated now later f).2 = .channelRefused
    ∧ t.state.inFlight < maxAgentChannelInFlight
    ∧ (t.at_ now).admitted < maxAgentChannelRequestsPerSecond

/-- **WHO IS STARVED**: exactly who calls when the attempts that were refused
    make up the second. -/
theorem starved_iff (h : t.Counts) : Starved t now later f
    ↔ t.state.inFlight < maxAgentChannelInFlight
      ∧ (t.at_ now).admitted < maxAgentChannelRequestsPerSecond
      ∧ maxAgentChannelRequestsPerSecond
        ≤ (t.at_ now).admitted + (t.at_ now).refused := by
  obtain ⟨hfull, _⟩ := admitAuthenticated_counts now later f t.state
  obtain ⟨hflight, _⟩ := channelWindow_cases now t.state
  unfold Starved
  rw [hfull]
  unfold ChannelFull
  rw [hflight, h.at_ now]
  constructor
  · rintro ⟨hcount | hcount, hplace, hroom⟩
    · exact absurd hplace (Nat.not_lt.mpr hcount)
    · exact ⟨hplace, hroom, hcount⟩
  · rintro ⟨hplace, hroom, hcount⟩
    exact ⟨Or.inr hcount, hplace, hroom⟩

/-- No call of the sequence is refused by its capability. -/
def NoneRefused (admissionFingerprint : String → Fingerprint) :
    Tallied → List Operation → Prop
  | _, [] => True
  | t, o :: rest =>
      (∀ now later f, o = .call now later f →
        (t.state.admitAuthenticated now later f).2 ≠ .capabilityRefused)
      ∧ NoneRefused admissionFingerprint (t.perform admissionFingerprint o) rest

theorem perform_refused {o : Operation} (h : t.refused = 0)
    (hnone : ∀ now later f, o = .call now later f →
      (t.state.admitAuthenticated now later f).2 ≠ .capabilityRefused) :
    (t.perform admissionFingerprint o).refused = 0 := by
  cases o with
  | call now later f =>
      have hat : (t.at_ now).refused = 0 := by
        unfold Tallied.at_
        split
        · rfl
        · exact h
      unfold Tallied.perform
      dsimp only
      cases hanswer : (t.state.admitAuthenticated now later f).2 with
      | channelRefused => exact hat
      | capabilityRefused => exact absurd hanswer (hnone now later f rfl)
      | admitted => exact hat
  | dropChannel => exact h
  | dropCapability f => exact h
  | replaceKnown capabilities => exact h

theorem NoneRefused.refused {operations : List Operation}
    (h : NoneRefused admissionFingerprint t operations) (ht : t.refused = 0) :
    (t.run admissionFingerprint operations).refused = 0 := by
  induction operations generalizing t with
  | nil => exact ht
  | cons o operations ih => exact ih h.2 (perform_refused ht h.1)

/-! ## The theorem -/

/-- **STARVATION**: a call that its capability refuses leaves the counters of
    the channel exactly when it opens a new second and the last one counted
    one request; in every sequence of operations a call is starved exactly
    when the refused attempts of the second make it up; and where no call is
    refused by its capability, none is starved. -/
theorem refused_attempts_count (s : AgentAdmissionState) (now later : Nat)
    (f : Fingerprint) (admissionFingerprint : String → Fingerprint)
    (known : List (String × Int)) (start : Nat) (operations : List Operation) :
    ((s.admitAuthenticated now later f).2 = .capabilityRefused →
      (((s.admitAuthenticated now later f).1.requests = s.requests
          ∧ (s.admitAuthenticated now later f).1.inFlight = s.inFlight)
        ↔ s.windowStarted + second ≤ now ∧ s.requests = 1))
    ∧ (Starved ((Tallied.new known start).run admissionFingerprint operations)
          now later f
        ↔ ((Tallied.new known start).run admissionFingerprint
              operations).state.inFlight < maxAgentChannelInFlight
          ∧ (((Tallied.new known start).run admissionFingerprint
              operations).at_ now).admitted < maxAgentChannelRequestsPerSecond
          ∧ maxAgentChannelRequestsPerSecond
            ≤ (((Tallied.new known start).run admissionFingerprint
                operations).at_ now).admitted
              + (((Tallied.new known start).run admissionFingerprint
                operations).at_ now).refused)
    ∧ (NoneRefused admissionFingerprint (.new known start) operations →
        ¬Starved ((Tallied.new known start).run admissionFingerprint operations)
          now later f) := by
  refine ⟨fun hanswer => ?_, ?_⟩
  · obtain ⟨hcount, hflight⟩ :=
      (admitAuthenticated_counts now later f s).2.2.1 hanswer
    obtain ⟨_, ⟨hlate, hzero⟩ | ⟨hin, hsame⟩⟩ := channelWindow_cases now s
    · rw [hcount, hzero, and_iff_left hflight, and_iff_right hlate]
      exact eq_comm
    · rw [hcount, hsame]
      refine iff_of_false (fun h => ?_) (fun h => absurd h.1 (Nat.not_le.mpr hin))
      exact absurd h.1 (Nat.succ_ne_self _)
  · have hcounts : ((Tallied.new known start).run admissionFingerprint
        operations).Counts :=
      Tallied.Counts.run (t := .new known start) rfl operations
    refine ⟨starved_iff hcounts, fun hnone hstarved => ?_⟩
    obtain ⟨_, hroom, hfull⟩ := (starved_iff hcounts).mp hstarved
    have hzero := hnone.refused (t := .new known start) rfl
    have hat : (((Tallied.new known start).run admissionFingerprint
        operations).at_ now).refused = 0 := by
      unfold Tallied.at_
      split
      · rfl
      · exact hzero
    rw [hat] at hfull
    omega

/-- One capability holds its request and tries again 199 times. -/
def insistent : List Operation := List.replicate 200 (.call 1 1 7)

/-- **STARVED**: after one request and 199 refused attempts of one capability
    the first request of another is refused, with one request in flight and
    one admitted; and a refused attempt is counted. -/
theorem refused_attempts_starve :
    Starved ((Tallied.new [] 0).run hashLength insistent) 1 1 8
      ∧ ((Tallied.new [] 0).run hashLength insistent).admitted = 1
      ∧ (((Tallied.new [] 0).run hashLength [.call 1 1 7]).state.admitAuthenticated
          1 1 7).2 = .capabilityRefused
      ∧ ((Tallied.new [] 0).run hashLength [.call 1 1 7]).state.requests = 1
      ∧ (((Tallied.new [] 0).run hashLength [.call 1 1 7]).state.admitAuthenticated
          1 1 7).1.requests = 2 := by
  unfold Starved
  decide +kernel

end Admission
