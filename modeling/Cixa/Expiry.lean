import Cixa.Lives
import Cixa.Visibility
import Cixa.Ceilings

/-! # Expiry — sums of clock readings and lifetimes

    Every expiry is a 64-bit sum of a reading of the clock and a lifetime.
    The lifetimes of agents, sessions at creation and balances are capped at
    a day, but a policy's own lifetimes only have to be POSITIVE: a policy
    that is accepted can push an intent's expiry, or that of an armed session,
    out of range, and then it lies in the past.

    With the lifetimes of every policy in range the sums are the true ones,
    and a run that is only given such policies stays there. -/

namespace Treasury

open CixaData CixaHost Outcome Checks Transition

variable {host : Host} {w w' v : World} {s : TreasuryState} {c : Call}

/-! ## Lifetimes that leave room -/

/-- A reading of a clock that is good for thirty-five thousand years. -/
def Reading (t : Int) : Prop := 0 ≤ t ∧ t ≤ 1099511627776

/-- The longest lifetime that can be added to every reading. -/
def longestTtl : Int := 9223372036854775807 - 1099511627776

/-- A policy whose lifetimes leave room. -/
structure Moderate (p : Policy) : Prop where
  intent : p.intentTtlSecs ≤ longestTtl
  card : p.cardSessionTtlSecs ≤ longestTtl

/-- The policy of every agent leaves room. -/
def AllModerate (s : TreasuryState) : Prop :=
  ∀ agent r p, s.agents.get? agent = some r →
    s.policies.get? r.policyId = some p → Moderate p

theorem validate_ttls {p : Policy} (h : p.validate host = .ok ⟨⟩) :
    0 < p.intentTtlSecs ∧ 0 < p.cardSessionTtlSecs := by
  unfold Policy.validate at h
  simp only [bind_eq_ok, refuseIf_eq_ok] at h
  obtain ⟨_, _, _, _, _, _, _, _, _, httl, _⟩ := h
  omega

theorem requireAgentTtl_ok {ttl : Int} :
    requireAgentTtl ttl = .ok ⟨⟩ ↔ 0 < ttl ∧ ttl ≤ 86400 := by
  unfold requireAgentTtl
  rw [refuseIf_eq_ok]
  omega

theorem checkManualConfiguration_ttl {c : ManualProviderConfiguration}
    (h : checkManualConfiguration host s c = .ok ⟨⟩) :
    0 < c.balanceTtlSecs ∧ c.balanceTtlSecs ≤ 86400 := by
  unfold checkManualConfiguration at h
  simp only [bind_eq_ok, refuseIf_eq_ok] at h
  obtain ⟨_, _, _, _, _, httl, _⟩ := h
  omega

/-- A day leaves room. -/
theorem day_le_longest : (86400 : Int) ≤ longestTtl := by decide

/-- A reading and a lifetime that leaves room make their true sum. -/
theorem true_sum {t ttl : Int} (ht : Reading t) (hlo : 0 < ttl)
    (hhi : ttl ≤ longestTtl) : I64.wrappingAdd t ttl = t + ttl := by
  unfold Reading at ht
  unfold longestTtl at hhi
  refine I64.wrappingAdd_of_fits ?_
  unfold I64.Fits I64.minValue I64.maxValue
  omega

/-- So do a reading and at most a day. -/
theorem day_sum {t ttl : Int} (ht : Reading t) (hlo : 0 < ttl)
    (hhi : ttl ≤ 86400) : I64.wrappingAdd t ttl = t + ttl :=
  true_sum ht hlo (hhi.trans day_le_longest)

/-- A lifetime that leaves no room makes the last reading expire in the
    past. -/
theorem wrapped_sum {ttl : Int} (hlong : ¬ttl ≤ longestTtl)
    (hword : I64.Fits ttl) : I64.wrappingAdd 1099511627776 ttl < 0 := by
  unfold longestTtl at hlong
  unfold I64.Fits I64.minValue I64.maxValue at hword
  unfold I64.wrappingAdd I64.wrap I64.minValue
  omega

/-! ## What the operations add up -/

/-- What an operation stores when a treasury in this state accepts it. -/
def Stores (s : TreasuryState) (x : Op Json) (P : World → World → Prop) :
    Prop :=
  ∀ v out v', v.state = s → x v = .ok out v' → P v v'

theorem stores_of {x : Op Json} {P : World → World → Prop}
    (h : ∀ v : World, v.state = s → wp x (fun _ v' => P v v') (fun _ _ => True)
      v) : Stores s x P := by
  intro v out v' hv hx
  have hP := wp_ok (h v hv) hx
  exact hP

/-- When a session given at a tick expires: at once while the stop is active. -/
def sessionAt (host : Host) (s : TreasuryState) (k : Nat) (ttl : Int) : Int :=
  if s.emergencyStop = true then 0 else host.clock k + ttl

/-- **TRUE SUMS**: in this state every operation of the broker that adds a
    lifetime to a reading of the clock, or one to a version, compares and
    stores the sum itself. -/
structure TrueSums (host : Host) (s : TreasuryState) : Prop where
  /-- An intent created at any reading, under the policy of an agent. -/
  unexpired : ∀ agent r p (i : PurchaseIntent) (v : World),
    s.agents.get? agent = some r → s.policies.get? r.policyId = some p →
    Reading i.createdAt →
      ((∃ v', requireUnexpired host i p v = .ok ⟨⟩ v')
        ↔ host.clock v.tick ≤ i.createdAt + p.intentTtlSecs
          ∧ host.clock (v.tick + 1) ≤ i.createdAt + p.cardSessionTtlSecs)
  /-- A session that is armed ends with the agent at the latest. -/
  armed : ∀ actor id ttl,
    Stores s (ownerArmAgentSession host actor id ttl) fun v v' =>
      ∃ r r', s.agents.get? id = some r ∧ v'.state.agents.get? id = some r'
        ∧ r'.brokerSessionExpiresAt
          = min (host.clock v.tick + ttl) r.expiresAt
  /-- A new agent and its first session. -/
  created : ∀ actor name p mode ttl prepared,
    Stores s (ownerCreateAgent host actor name p mode ttl prepared) fun v v' =>
      ∃ id r, v'.state.agents = s.agents.insert id r
        ∧ r.brokerSessionExpiresAt
          = sessionAt host s v.tick (min ttl p.cardSessionTtlSecs)
        ∧ r.expiresAt
          = host.clock (v.tick + if s.emergencyStop = true then 1 else 2) + ttl
  /-- An agent with a new capability, and its session. -/
  rotated : ∀ actor id ttl token,
    Stores s (ownerRotateAgentCapability host actor id ttl token) fun v v' =>
      ∃ r p r', s.agents.get? id = some r
        ∧ s.policies.get? r.policyId = some p
        ∧ v'.state.agents.get? id = some r'
        ∧ r'.expiresAt = host.clock v.tick + ttl
        ∧ r'.brokerSessionExpiresAt
          = sessionAt host s (v.tick + 1) (min ttl p.cardSessionTtlSecs)
  /-- The balance of a card. -/
  configured : ∀ actor c,
    Stores s (ownerConfigureManualProvider host actor c) fun v v' =>
      ∃ provider snapshot, v'.state.manualProvider = some provider
        ∧ provider.balanceSnapshot = some snapshot
        ∧ snapshot.observedAt = host.clock v.tick
        ∧ snapshot.expiresAt = host.clock v.tick + c.balanceTtlSecs
  /-- The next version of a policy. -/
  updated : ∀ actor id p,
    Stores s (ownerUpdatePolicy host actor id p) fun _ v' =>
      ∃ r current p', s.agents.get? id = some r
        ∧ s.policies.get? r.policyId = some current
        ∧ v'.state.policies.get? r.policyId = some p'
        ∧ p'.version = current.version + 1

/-- An intent is unexpired until the words that its two sums leave. -/
theorem requireUnexpired_iff {i : PurchaseIntent} {p : Policy} :
    (∃ v, requireUnexpired host i p w = .ok ⟨⟩ v)
      ↔ host.clock w.tick ≤ I64.wrappingAdd i.createdAt p.intentTtlSecs
        ∧ host.clock (w.tick + 1)
          ≤ I64.wrappingAdd i.createdAt p.cardSessionTtlSecs := by
  have hspec : wp (requireUnexpired host i p)
      (fun _ _ => host.clock w.tick
          ≤ I64.wrappingAdd i.createdAt p.intentTtlSecs
        ∧ host.clock (w.tick + 1)
          ≤ I64.wrappingAdd i.createdAt p.cardSessionTtlSecs)
      (fun _ _ => ¬(host.clock w.tick
          ≤ I64.wrappingAdd i.createdAt p.intentTtlSecs
        ∧ host.clock (w.tick + 1)
          ≤ I64.wrappingAdd i.createdAt p.cardSessionTtlSecs)) w := by
    unfold requireUnexpired
    rw [wp_bind, wp_now, wp_ite, wp_throw, wp_bind, wp_now, wp_rejectIf]
    dsimp only
    exact ⟨fun h hle => by omega, fun h => ⟨fun h' hle => by omega,
      fun h' => ⟨by omega, by omega⟩⟩⟩
  constructor
  · rintro ⟨v, hv⟩
    have h := wp_ok hspec hv
    exact h
  · intro h
    -- it only refuses for one of the sums
    cases hrun : requireUnexpired host i p w with
    | ok _ v => exact ⟨v, rfl⟩
    | error e v =>
        have hnot := wp_error hspec hrun
        exact absurd h hnot

/-- The expiry of a session given in a state, when its sum is the true one. -/
theorem sessionExpiry_true {ttl : Int} {E : TreasuryError → World → Prop}
    (hsum : I64.wrappingAdd (host.clock v.tick) ttl = host.clock v.tick + ttl) :
    wp (sessionExpiry host s ttl) (fun expiry v' =>
      expiry = sessionAt host s v.tick ttl
        ∧ v' = { v with
          tick := v.tick + if s.emergencyStop = true then 0 else 1 }) E v := by
  unfold sessionExpiry sessionAt
  rw [wp_ite, wp_pure, wp_bind, wp_now, wp_pure]
  constructor
  · intro hstop
    rw [if_pos hstop, if_pos hstop]
    exact ⟨rfl, rfl⟩
  · intro hstop
    rw [if_neg hstop, if_neg hstop]
    exact ⟨hsum, rfl⟩

/-- The token of a new agent takes no reading of the clock. -/
theorem tokenFor_unread {prepared : Option String}
    {E : TreasuryError → World → Prop} :
    wp (tokenFor host prepared) (fun _ w' => w'.state = w.state
      ∧ w'.tick = w.tick) E w := by
  cases prepared with
  | none => exact wp_randomHex.mpr ⟨rfl, rfl⟩
  | some t => exact (wp_pure t).mpr ⟨rfl, rfl⟩

section Accepted

variable {actor : Actor} {id : String}

theorem ownerArmAgentSession_true {ttl : Int}
    (hclock : ∀ n, Reading (host.clock n)) (hall : AllModerate s) :
    Stores s (ownerArmAgentSession host actor id ttl) fun v v' =>
      ∃ r r', s.agents.get? id = some r ∧ v'.state.agents.get? id = some r'
        ∧ r'.brokerSessionExpiresAt
          = min (host.clock v.tick + ttl) r.expiresAt := by
  refine stores_of fun v hv => ?_
  unfold ownerArmAgentSession
  rw [wp_bind, wp_readState, hv]
  refine line_lift (fun _ => trivial) fun _ _ => ?_
  refine line_rejectIf (fun _ => trivial) fun _ => ?_
  refine line_lift (fun _ => trivial) fun r hr => ?_
  refine line_lift (fun _ => trivial) fun p hp => ?_
  refine line_rejectIf (fun _ => trivial) fun httl => ?_
  have hm := hall id r p (agent_ok.mp hr) (policy_ok.mp hp)
  obtain ⟨hlo, hhi⟩ := not_or.mp httl
  have hsum := true_sum (hclock v.tick) (not_le.mp hlo)
    ((not_lt.mp hhi).trans hm.card)
  rw [wp_bind, wp_now, hsum, wp_bind, wp_newId, wp_bind, wp_putAgent]
  dsimp only
  rw [wp_bind]
  refine wp_audit (fun _ => trivial) fun _ => ?_
  rw [wp_pure]
  exact ⟨r, _, agent_ok.mp hr, SortedMap.get?_insert_self .., rfl⟩

theorem ownerCreateAgent_true {name : String} {p : Policy}
    {mode : AutonomyMode} {ttl : Int} {prepared : Option String}
    (hclock : ∀ n, Reading (host.clock n)) :
    Stores s (ownerCreateAgent host actor name p mode ttl prepared) fun v v' =>
      ∃ id r, v'.state.agents = s.agents.insert id r
        ∧ r.brokerSessionExpiresAt
          = sessionAt host s v.tick (min ttl p.cardSessionTtlSecs)
        ∧ r.expiresAt
          = host.clock (v.tick + if s.emergencyStop = true then 1 else 2)
            + ttl := by
  refine stores_of fun v hv => ?_
  unfold ownerCreateAgent
  rw [wp_bind, wp_readState, hv]
  refine line_lift (fun _ => trivial) fun _ _ => ?_
  refine line_rejectIf (fun _ => trivial) fun _ => ?_
  refine line_lift (fun _ => trivial) fun _ _ => ?_
  refine line_lift (fun _ => trivial) fun _ hvalid => ?_
  refine line_lift (fun _ => trivial) fun _ _ => ?_
  refine line_lift (fun _ => trivial) fun _ httl => ?_
  obtain ⟨hlo, hhi⟩ := requireAgentTtl_ok.mp httl
  have hcard := (validate_ttls hvalid).2
  refine line tokenFor_unread ?_
  rintro token a ⟨has, hat⟩
  refine line_lift (fun _ => trivial) fun _ _ => ?_
  rw [wp_bind, wp_newId]
  refine line_lift (fun _ => trivial) fun _ _ => ?_
  refine line (sessionExpiry_true (day_sum (hclock a.tick) (lt_min hlo hcard)
    ((min_le_left _ _).trans hhi))) ?_
  -- the session took a reading of its own, unless the stop is active
  rintro expiry b ⟨rfl, rfl⟩
  dsimp only
  rw [wp_bind, wp_newId, wp_bind, wp_now, wp_bind, wp_now, wp_bind,
    wp_putPolicy, wp_bind, wp_putAgent, wp_bind]
  refine wp_audit (fun _ => trivial) fun _ => ?_
  rw [wp_pure]
  have hagents : a.state.agents = s.agents := by rw [has, hv]
  refine ⟨_, _, congrArg (fun m => SortedMap.insert m _ _) hagents, ?_, ?_⟩
  · show sessionAt host s a.tick _ = _
    rw [hat]
  · rw [day_sum (hclock _) hlo hhi]
    dsimp only
    rw [hat]
    split
    · rfl
    · rfl

theorem ownerRotateAgentCapability_true {ttl : Int} {token : String}
    (hclock : ∀ n, Reading (host.clock n)) (hg : Governed host s) :
    Stores s (ownerRotateAgentCapability host actor id ttl token) fun v v' =>
      ∃ r p r', s.agents.get? id = some r
        ∧ s.policies.get? r.policyId = some p
        ∧ v'.state.agents.get? id = some r'
        ∧ r'.expiresAt = host.clock v.tick + ttl
        ∧ r'.brokerSessionExpiresAt
          = sessionAt host s (v.tick + 1) (min ttl p.cardSessionTtlSecs) := by
  refine stores_of fun v hv => ?_
  unfold ownerRotateAgentCapability
  rw [wp_bind, wp_readState, hv]
  refine line_lift (fun _ => trivial) fun _ _ => ?_
  refine line_lift (fun _ => trivial) fun _ httl => ?_
  refine line_lift (fun _ => trivial) fun r hr => ?_
  refine line_lift (fun _ => trivial) fun p hp => ?_
  refine line_lift (fun _ => trivial) fun _ _ => ?_
  obtain ⟨hlo, hhi⟩ := requireAgentTtl_ok.mp httl
  obtain ⟨p', hp', hvalid⟩ := hg id r (agent_ok.mp hr)
  obtain rfl : p = p' := Option.some.inj ((policy_ok.mp hp).symm.trans hp')
  have hcard := (validate_ttls hvalid).2
  rw [wp_bind, wp_now, day_sum (hclock v.tick) hlo hhi]
  refine line (sessionExpiry_true (day_sum (hclock (v.tick + 1))
    (lt_min hlo hcard) ((min_le_left _ _).trans hhi))) ?_
  rintro expiry b ⟨rfl, rfl⟩
  rw [wp_bind, wp_newId, wp_bind, wp_putAgent, wp_bind]
  refine wp_audit (fun _ => trivial) fun _ => ?_
  rw [wp_pure]
  exact ⟨r, p, _, agent_ok.mp hr, hp', SortedMap.get?_insert_self .., rfl, rfl⟩

theorem ownerConfigureManualProvider_true {c : ManualProviderConfiguration}
    (hclock : ∀ n, Reading (host.clock n)) :
    Stores s (ownerConfigureManualProvider host actor c) fun v v' =>
      ∃ provider snapshot, v'.state.manualProvider = some provider
        ∧ provider.balanceSnapshot = some snapshot
        ∧ snapshot.observedAt = host.clock v.tick
        ∧ snapshot.expiresAt = host.clock v.tick + c.balanceTtlSecs := by
  refine stores_of fun v hv => ?_
  unfold ownerConfigureManualProvider
  rw [wp_bind, wp_readState, hv]
  refine line_lift (fun _ => trivial) fun _ _ => ?_
  refine line_lift (fun _ => trivial) fun _ hcheck => ?_
  obtain ⟨hlo, hhi⟩ := checkManualConfiguration_ttl hcheck
  have hsum := day_sum (hclock v.tick) hlo hhi
  rw [wp_bind, wp_now, wp_bind, wp_modifyState]
  dsimp only
  rw [wp_bind]
  refine wp_audit (fun _ => trivial) fun _ => ?_
  rw [wp_pure]
  exact ⟨_, _, rfl, rfl, rfl, hsum⟩

theorem ownerUpdatePolicy_true {p : Policy}
    (hroom : ∀ key p, s.policies.get? key = some p → p.version + 1 ≤ u64Max) :
    Stores s (ownerUpdatePolicy host actor id p) fun _ v' =>
      ∃ r current p', s.agents.get? id = some r
        ∧ s.policies.get? r.policyId = some current
        ∧ v'.state.policies.get? r.policyId = some p'
        ∧ p'.version = current.version + 1 := by
  refine stores_of fun v hv => ?_
  unfold ownerUpdatePolicy
  rw [wp_bind, wp_readState, hv]
  refine line_lift (fun _ => trivial) fun _ _ => ?_
  refine line_lift (fun _ => trivial) fun _ _ => ?_
  refine line_lift (fun _ => trivial) fun _ _ => ?_
  refine line_lift (fun _ => trivial) fun r hr => ?_
  refine line_lift (fun _ => trivial) fun current hcurrent => ?_
  refine line_lift (fun _ => trivial) fun _ _ => ?_
  have hle := hroom _ current (policy_ok.mp hcurrent)
  rw [wp_bind, wp_putPolicy, wp_bind]
  refine wp_audit (fun _ => trivial) fun _ => ?_
  rw [wp_pure]
  refine ⟨r, current, _, agent_ok.mp hr, policy_ok.mp hcurrent,
    SortedMap.get?_insert_self .., ?_⟩
  -- the stored version is taken modulo the word, which has room
  show (current.version + 1) % 18446744073709551616 = current.version + 1
  unfold u64Max at hle
  omega

end Accepted

/-- Every policy that is stored holds lifetimes in 64-bit words. -/
def InWords (s : TreasuryState) : Prop :=
  ∀ key p, s.policies.get? key = some p →
    I64.Fits p.intentTtlSecs ∧ I64.Fits p.cardSessionTtlSecs

/-- Moderate policies, whose versions have room, make true sums. -/
theorem trueSums_of (hclock : ∀ n, Reading (host.clock n))
    (hg : Governed host s) (hall : AllModerate s)
    (hroom : ∀ key p, s.policies.get? key = some p → p.version + 1 ≤ u64Max) :
    TrueSums host s where
  unexpired := by
    intro agent r p i v hr hp ht
    obtain ⟨p', hp', hvalid⟩ := hg agent r hr
    obtain rfl : p = p' := Option.some.inj (hp.symm.trans hp')
    have hm := hall agent r p hr hp
    obtain ⟨hintent, hcard⟩ := validate_ttls hvalid
    rw [requireUnexpired_iff, true_sum ht hintent hm.intent,
      true_sum ht hcard hm.card]
  armed := fun _ _ _ => ownerArmAgentSession_true hclock hall
  created := fun _ _ _ _ _ _ => ownerCreateAgent_true hclock
  rotated := fun _ _ _ _ => ownerRotateAgentCapability_true hclock hg
  configured := fun _ _ => ownerConfigureManualProvider_true hclock
  updated := fun _ _ _ => ownerUpdatePolicy_true hroom

/-- An intent created at the last reading tells whether a policy leaves
    room. -/
theorem TrueSums.moderate (h : TrueSums host w.state)
    (hclock : ∀ n, Reading (host.clock n)) (hg : Governed host w.state)
    (hwords : InWords w.state) : AllModerate w.state := by
  intro agent r p hr hp
  obtain ⟨p', hp', hvalid⟩ := hg agent r hr
  obtain rfl : p = p' := Option.some.inj (hp.symm.trans hp')
  obtain ⟨hintent, hcard⟩ := validate_ttls hvalid
  obtain ⟨hintentWord, hcardWord⟩ := hwords _ p hp
  have hreading : Reading 1099511627776 := ⟨by decide, by decide⟩
  have hlast := h.unexpired agent r p
    (draftIntent "" agent r p smallPurchase ⟨true, false, [], p.version⟩
      1099511627776) w hr hp hreading
  rw [requireUnexpired_iff] at hlast
  have hfirst := hclock w.tick
  have hsecond := hclock (w.tick + 1)
  unfold Reading at hfirst hsecond
  -- the true sums lie after every reading, so the words must
  obtain ⟨hle, hle'⟩ := hlast.mpr ⟨by
    show _ ≤ 1099511627776 + p.intentTtlSecs
    omega, by
    show _ ≤ 1099511627776 + p.cardSessionTtlSecs
    omega⟩
  constructor
  · by_contra hlong
    have hpast := wrapped_sum hlong hintentWord
    exact absurd (hfirst.1.trans hle) (not_le.mpr hpast)
  · by_contra hlong
    have hpast := wrapped_sum hlong hcardWord
    exact absurd (hsecond.1.trans hle') (not_le.mpr hpast)

/-! ## Longer is never earlier -/

/-- With the same circumstances a longer lifetime never makes an intent or a
    session expire earlier. -/
structure NeverEarlier (host : Host) (s : TreasuryState) : Prop where
  /-- An intent under another policy, of this or another state. -/
  intent : ∀ s' agent r p agent' r' p' (i : PurchaseIntent) (v : World),
    TrueSums host s' → s.agents.get? agent = some r →
    s.policies.get? r.policyId = some p → s'.agents.get? agent' = some r' →
    s'.policies.get? r'.policyId = some p' → Reading i.createdAt →
    p.intentTtlSecs ≤ p'.intentTtlSecs →
    p.cardSessionTtlSecs ≤ p'.cardSessionTtlSecs →
    (∃ u, requireUnexpired host i p v = .ok ⟨⟩ u) →
      ∃ u, requireUnexpired host i p' v = .ok ⟨⟩ u
  /-- A session that is armed for longer. -/
  armed : ∀ actor id ttl ttl' v out a out' b, v.state = s → ttl ≤ ttl' →
    ownerArmAgentSession host actor id ttl v = .ok out a →
    ownerArmAgentSession host actor id ttl' v = .ok out' b →
      ∃ r r', a.state.agents.get? id = some r
        ∧ b.state.agents.get? id = some r'
        ∧ r.brokerSessionExpiresAt ≤ r'.brokerSessionExpiresAt
  /-- An agent that is created for longer, under a longer policy. -/
  created : ∀ actor name p p' mode ttl ttl' prepared v out a out' b,
    v.state = s → ttl ≤ ttl' → p.cardSessionTtlSecs ≤ p'.cardSessionTtlSecs →
    ownerCreateAgent host actor name p mode ttl prepared v = .ok out a →
    ownerCreateAgent host actor name p' mode ttl' prepared v = .ok out' b →
      ∃ id r id' r', a.state.agents = s.agents.insert id r
        ∧ b.state.agents = s.agents.insert id' r'
        ∧ r.brokerSessionExpiresAt ≤ r'.brokerSessionExpiresAt
        ∧ r.expiresAt ≤ r'.expiresAt
  /-- A capability that is rotated for longer. -/
  rotated : ∀ actor id ttl ttl' token v out a out' b, v.state = s →
    ttl ≤ ttl' →
    ownerRotateAgentCapability host actor id ttl token v = .ok out a →
    ownerRotateAgentCapability host actor id ttl' token v = .ok out' b →
      ∃ r r', a.state.agents.get? id = some r
        ∧ b.state.agents.get? id = some r'
        ∧ r.brokerSessionExpiresAt ≤ r'.brokerSessionExpiresAt
        ∧ r.expiresAt ≤ r'.expiresAt

theorem sessionAt_mono {k : Nat} {ttl ttl' : Int} (h : ttl ≤ ttl') :
    sessionAt host s k ttl ≤ sessionAt host s k ttl' := by
  unfold sessionAt
  split
  · exact le_refl _
  · exact add_le_add_right h _

/-- **TRUE SUMS ARE MONOTONE**. -/
theorem TrueSums.neverEarlier (h : TrueSums host s) : NeverEarlier host s where
  intent := by
    intro s' agent r p agent' r' p' i v h' hr hp hr' hp' ht hintent hcard hlive
    obtain ⟨hle, hle'⟩ := (h.unexpired agent r p i v hr hp ht).mp hlive
    refine (h'.unexpired agent' r' p' i v hr' hp' ht).mpr ⟨?_, ?_⟩
    · omega
    · omega
  armed := by
    intro actor id ttl ttl' v out a out' b hv hle ha hb
    obtain ⟨r, ra, hr, hra, hea⟩ := h.armed actor id ttl v out a hv ha
    obtain ⟨r', rb, hr', hrb, heb⟩ := h.armed actor id ttl' v out' b hv hb
    -- both calls start from the same record
    obtain rfl : r = r' := Option.some.inj (hr.symm.trans hr')
    refine ⟨ra, rb, hra, hrb, ?_⟩
    rw [hea, heb]
    exact min_le_min_right _ (add_le_add_right hle _)
  created := by
    intro actor name p p' mode ttl ttl' prepared v out a out' b hv hle hcard
      ha hb
    obtain ⟨id, r, hr, hsession, hlife⟩ :=
      h.created actor name p mode ttl prepared v out a hv ha
    obtain ⟨id', r', hr', hsession', hlife'⟩ :=
      h.created actor name p' mode ttl' prepared v out' b hv hb
    refine ⟨id, r, id', r', hr, hr', ?_, ?_⟩
    · rw [hsession, hsession']
      exact sessionAt_mono (min_le_min hle hcard)
    · rw [hlife, hlife']
      exact add_le_add_right hle _
  rotated := by
    intro actor id ttl ttl' token v out a out' b hv hle ha hb
    obtain ⟨r, p, ra, hr, hp, hra, hlife, hsession⟩ :=
      h.rotated actor id ttl token v out a hv ha
    obtain ⟨r', p', rb, hr', hp', hrb, hlife', hsession'⟩ :=
      h.rotated actor id ttl' token v out' b hv hb
    obtain rfl : r = r' := Option.some.inj (hr.symm.trans hr')
    obtain rfl : p = p' := Option.some.inj (hp.symm.trans hp')
    refine ⟨ra, rb, hra, hrb, ?_, ?_⟩
    · rw [hsession, hsession']
      exact sessionAt_mono (min_le_min_right _ hle)
    · rw [hlife, hlife']
      exact add_le_add_right hle _

/-! ## Runs that are given moderate policies -/

/-- The labels that change a policy. -/
def Governing : Label → Prop
  | .addAgent _ _ => True
  | .setPolicy _ => True
  | _ => False

theorem Path.ungoverned {allowed : Label → Prop} (h : Path host allowed w w')
    (hno : ∀ l, allowed l → ¬Governing l) :
    w'.state.policies = w.state.policies := by
  refine h.invariant (I := fun v => v.state.policies = w.state.policies) ?_
    (fun _ _ _ hv _ => hv) rfl
  intro l a b hl hc hp
  rcases hc.policies with hs | ⟨_, _, _, _, rfl, _⟩ | ⟨_, _, _, rfl, _⟩
  · exact hs.trans hp
  · exact absurd trivial (hno _ hl)
  · exact absurd trivial (hno _ hl)

/-- The policy a request carries. -/
def carries : Request → Option Policy
  | .ownerCreateAgent _ p _ _ => some p
  | .ownerCreateAgentPrepared _ p _ _ _ => some p
  | .ownerUpdatePolicy _ p => some p
  | _ => none

theorem permits_governing {actor : Actor} {request : Request} {l : Label}
    (h : permits actor request l) (hl : Governing l) :
    carries request ≠ none := by
  cases l with
  | addAgent id token =>
      cases request with
      | ownerCreateAgent _ _ _ _ => exact nofun
      | ownerCreateAgentPrepared _ _ _ _ _ => exact nofun
      | _ => exact h.elim
  | setPolicy id =>
      cases request with
      | ownerUpdatePolicy _ _ => exact nofun
      | _ => exact h.elim
  | _ => exact hl.elim

/-- A request that carries no policy changes none. -/
theorem exec_ungoverned (hw : Workable w.state)
    (hc : ∀ token request, c.asks = some (token, request) →
      carries request = none) :
    (exec host c w).state.policies = w.state.policies := by
  have hbehaves : Behaves host w (exec host c w) c := exec_behaves hw c
  have hsaving : ∀ l, Saving l → ¬Governing l := by
    intro l hl hg
    cases l with
    | addAgent _ _ => exact hl
    | setPolicy _ => exact hl
    | _ => exact hg
  cases hbehaves with
  | attempt _ h => exact h.governs.2
  | recovery h =>
      refine h.path.ungoverned fun l hl hg => ?_
      cases l with
      | addAgent _ _ => exact hl
      | setPolicy _ => exact hl
      | _ => exact hg
  | ordinary hasks _ h =>
      cases h with
      | refused hp => exact hp.ungoverned hsaving
      | served _ hp =>
          refine hp.ungoverned fun l hl hg => ?_
          rcases hl with hl | hl
          · exact permits_governing hl hg (hc _ _ hasks)
          · exact hsaving l hl hg

/-- Something holds of every stored policy. -/
def EachPolicy (P : Policy → Prop) (s : TreasuryState) : Prop :=
  ∀ key p, s.policies.get? key = some p → P p

namespace EachPolicy

variable {P P' : Policy → Prop}

theorem mono (h : EachPolicy P s) (hP : ∀ p, P p → P' p) :
    EachPolicy P' s := fun key p hp => hP p (h key p hp)

theorem withPolicy (h : EachPolicy P s) (key : String) {p : Policy}
    (hp : P p) : EachPolicy P (s.withPolicy key p) := by
  intro key' p' hp'
  have hget : (s.policies.insert key p).get? key' = some p' := hp'
  rw [SortedMap.get?_insert] at hget
  split at hget
  · rw [← Option.some.inj hget]
    exact hp
  · exact h key' p' hget

end EachPolicy

section Policies

variable {P P' : Policy → Prop} {actor : Actor} {p : Policy}

theorem ownerCreateAgent_policies {name : String} {mode : AutonomyMode}
    {ttlSecs : Int} {prepared : Option String} (hw : EachPolicy P w.state)
    (hnew : ∀ id, P { p with id := id, version := 1 }) :
    wp (ownerCreateAgent host actor name p mode ttlSecs prepared)
      (fun _ v => EachPolicy P v.state) (fun _ v => EachPolicy P v.state)
      w := by
  unfold ownerCreateAgent
  rw [wp_bind, wp_readState]
  refine line_lift (fun _ => hw) fun _ _ => ?_
  refine line_rejectIf (fun _ => hw) fun _ => ?_
  refine line_lift (fun _ => hw) fun _ _ => ?_
  refine line_lift (fun _ => hw) fun _ _ => ?_
  refine line_lift (fun _ => hw) fun _ _ => ?_
  refine line_lift (fun _ => hw) fun _ _ => ?_
  refine line_quiet (tokenFor_quietly _) (fun _ _ h => h.state ▸ hw)
    fun token a ha => ?_
  have hsa : EachPolicy P a.state := ha.state ▸ hw
  refine line_lift (fun _ => hsa) fun _ _ => ?_
  rw [wp_bind, wp_newId]
  refine line_lift (fun _ => hsa) fun _ _ => ?_
  refine line_quiet (sessionExpiry_quietly _ _) (fun _ _ h => h.state ▸ hsa)
    fun expiry b hb => ?_
  rw [wp_bind, wp_newId, wp_bind, wp_now, wp_bind, wp_now, wp_bind,
    wp_putPolicy, wp_bind, wp_putAgent, wp_bind]
  have hsb : EachPolicy P b.state := hb.state ▸ hsa
  have hput := hsb.withPolicy ("policy_" ++ idOfDraw host "agent" a.drawn)
    (hnew ("policy_" ++ idOfDraw host "agent" a.drawn))
  refine wp_audit (fun _ => hput) fun _ => ?_
  rw [wp_pure]
  exact hput

theorem ownerUpdatePolicy_policies {agentId : String}
    (hw : EachPolicy P w.state) (hP : ∀ p, P p → P' p)
    (hnew : ∀ id current, P current → P' { p with
      id := id
      version := (current.version + 1) % 18446744073709551616 }) :
    wp (ownerUpdatePolicy host actor agentId p)
      (fun _ v => EachPolicy P' v.state) (fun _ v => EachPolicy P' v.state)
      w := by
  have hw' : EachPolicy P' w.state := hw.mono hP
  unfold ownerUpdatePolicy
  rw [wp_bind, wp_readState]
  refine line_lift (fun _ => hw') fun _ _ => ?_
  refine line_lift (fun _ => hw') fun _ _ => ?_
  refine line_lift (fun _ => hw') fun _ _ => ?_
  refine line_lift (fun _ => hw') fun r hr => ?_
  refine line_lift (fun _ => hw') fun current hcurrent => ?_
  refine line_lift (fun _ => hw') fun _ _ => ?_
  rw [wp_bind, wp_putPolicy, wp_bind]
  have hput := hw'.withPolicy r.policyId
    (hnew r.policyId current (hw _ _ (policy_ok.mp hcurrent)))
  refine wp_audit (fun _ => hput) fun _ => ?_
  rw [wp_pure]
  exact hput

/-- **WHAT A CALL MAKES OF THE POLICIES**: it leaves them as they are, stores
    the one it carries under version one, or gives it the next version of the
    one it replaces. -/
theorem exec_policies (hw : Workable w.state) (hk : EachPolicy P w.state)
    (hP : ∀ p, P p → P' p)
    (hnew : ∀ token request p, c.asks = some (token, request) →
      carries request = some p → ∀ id, P' { p with id := id, version := 1 })
    (hnext : ∀ token agent p, c.asks = some (token, .ownerUpdatePolicy agent p) →
      ∀ id current, P current → P' { p with
        id := id
        version := (current.version + 1) % 18446744073709551616 }) :
    EachPolicy P' (exec host c w).state := by
  have hk' : EachPolicy P' w.state := hk.mono hP
  -- the three requests that carry a policy, and all other calls
  by_cases hno : ∀ token request, c.asks = some (token, request) →
      carries request = none
  · intro key p hp
    rw [exec_ungoverned hw hno] at hp
    exact hk' key p hp
  · obtain ⟨token, hno⟩ := not_forall.mp hno
    obtain ⟨request, hno⟩ := not_forall.mp hno
    obtain ⟨hasks, hcarries⟩ := Classical.not_imp.mp hno
    obtain ⟨p, hp⟩ := Option.ne_none_iff_exists'.mp hcarries
    have hserve : ∀ {x : Actor → Op Json},
        (∀ actor (a : World), a.state = w.state →
          wp (x actor) (fun _ v => EachPolicy P' v.state)
            (fun _ v => EachPolicy P' v.state) a) →
        wp (authenticate host token >>= x) (fun _ v => EachPolicy P' v.state)
          (fun _ v => EachPolicy P' v.state) w := by
      intro x hx
      exact line_quiet (authenticate_quietly token)
        (fun _ _ h => h.state ▸ hk') fun actor a ha => hx actor a ha.state
    cases request with
    | ownerCreateAgent name p' mode ttl =>
        refine exec_leaves (P := EachPolicy P') hasks rfl hk' (hserve ?_)
        intro actor a ha
        exact ownerCreateAgent_policies (ha ▸ hk') (hnew _ _ _ hasks rfl)
    | ownerCreateAgentPrepared name p' mode ttl fresh =>
        refine exec_leaves (P := EachPolicy P') hasks rfl hk' (hserve ?_)
        intro actor a ha
        exact ownerCreateAgent_policies (ha ▸ hk') (hnew _ _ _ hasks rfl)
    | ownerUpdatePolicy agent p' =>
        refine exec_leaves (P := EachPolicy P') hasks rfl hk' (hserve ?_)
        intro actor a ha
        exact ownerUpdatePolicy_policies (ha ▸ hk) hP (hnext _ _ _ hasks)
    | _ => exact nomatch hp

end Policies

/-- A call that carries a policy carries one that leaves room. -/
def Measured (c : Call) : Prop :=
  ∀ token request p, c.asks = some (token, request) →
    carries request = some p → Moderate p

/-- Whether a request updates a policy. -/
def updatesPolicy : Request → Bool
  | .ownerUpdatePolicy _ _ => true
  | _ => false

/-- The number of calls that ask to update a policy. -/
def updates (cs : List Call) : Nat :=
  cs.countP fun c => c.asks.any fun a => updatesPolicy a.2

theorem exec_moderate (hw : Workable w.state) (hc : Measured c)
    (hk : EachPolicy Moderate w.state) :
    EachPolicy Moderate (exec host c w).state := by
  refine exec_policies hw hk (fun _ h => h) ?_ ?_
  · intro token request p hasks hcarries _
    have hm := hc token request p hasks hcarries
    exact ⟨hm.intent, hm.card⟩
  · intro token agent p hasks _ _ _
    have hm := hc token _ p hasks rfl
    exact ⟨hm.intent, hm.card⟩

/-- Only an update takes a version further, and by one. -/
theorem exec_versions {n : Nat} (hw : Workable w.state)
    (hk : EachPolicy (fun p => p.version ≤ n + 1) w.state) :
    EachPolicy (fun p => p.version ≤ n + updates [c] + 1)
      (exec host c w).state := by
  refine exec_policies hw hk (fun p h => ?_) ?_ ?_
  · exact h.trans (by omega)
  · intro _ _ p _ _ _
    exact Nat.succ_le_succ (Nat.zero_le _)
  · intro token agent p hasks _ current hcurrent
    have hone : updates [c] = 1 := by
      unfold updates
      rw [List.countP_singleton, hasks]
      rfl
    have hle : (current.version + 1) % 18446744073709551616
        ≤ current.version + 1 := Nat.mod_le _ _
    show (current.version + 1) % 18446744073709551616 ≤ _
    omega

theorem Started.policies {balance : Money} {token : String}
    (h : Started host balance token w) :
    EachPolicy (fun p => Moderate p ∧ p.version ≤ 1) w.state := by
  obtain ⟨_, _, _, _, _, _, _, _, hs⟩ := h.state
  rw [hs]
  intro key p hp
  have hp' : (SortedMap.empty.insert Policy.conservativeDemo.id
      Policy.conservativeDemo).get? key = some p := hp
  rw [SortedMap.get?_insert] at hp'
  split at hp'
  · rw [← Option.some.inj hp']
    exact ⟨⟨by decide, by decide⟩, by decide⟩
  · exact nomatch hp'

/-- **THE POLICIES OF A RUN**: a version is at most one more than there were
    updates, and measured calls leave moderate policies. -/
theorem TreasuryRun.policies {owner : String} {w0 : World} {cs : List Call}
    (hrun : TreasuryRun host owner w0 cs w) :
    EachPolicy (fun p => p.version ≤ updates cs + 1) w.state
      ∧ ((∀ c ∈ cs, Measured c) → EachPolicy Moderate w.state) := by
  obtain ⟨balance, hs⟩ := hrun.balance
  have hcalls := hrun.calls
  -- a call needs a well-formed treasury to behave, so the induction carries it
  suffices h : Kept w.state ∧ Fits w
      ∧ EachPolicy (fun p => p.version ≤ updates cs + 1) w.state
      ∧ ((∀ c ∈ cs, Measured c) → EachPolicy Moderate w.state) from h.2.2
  clear hrun
  induction hcalls with
  | nil =>
      exact ⟨hs.kept, hs.fits, hs.policies.mono fun _ h => h.2,
        fun _ => hs.policies.mono fun _ h => h.1⟩
  | @snoc cs v c _ hfit ih =>
      obtain ⟨hk, hf, hversions, hmoderate⟩ := ih
      have hwork := hk.workable hf
      have hbehaves : Behaves host v _ c := exec_behaves hwork c
      refine ⟨hbehaves.path.kept hk, hfit, ?_, fun hall => ?_⟩
      · have hadd : updates (cs ++ [c]) = updates cs + updates [c] := by
          unfold updates
          exact List.countP_append
        rw [hadd]
        exact exec_versions hwork hversions
      · have hc : Measured c := hall c (by simp)
        exact exec_moderate hwork hc
          (hmoderate fun d hd => hall d (List.mem_append_left _ hd))

/-- **EXPIRY SUMS**: in every run whose clock stays below 2^40, with fewer
    policy updates than there are versions, every sum of the broker is the
    true one if the calls carry policies that leave room; in any state
    reached the sums are true exactly when the agents' policies leave room;
    and where they are, longer is never earlier. -/
theorem expiry_never_overflows {owner : String} {w0 : World} {cs : List Call}
    (hrun : TreasuryRun host owner w0 cs w)
    (hclock : ∀ n, host.clock n ≤ 1099511627776)
    (hupdates : updates cs + 2 ≤ u64Max) :
    ((∀ c ∈ cs, Measured c) → TrueSums host w.state)
      ∧ (InWords w.state → (TrueSums host w.state ↔ AllModerate w.state))
      ∧ (TrueSums host w.state → NeverEarlier host w.state) := by
  have hread : ∀ n, Reading (host.clock n) :=
    fun n => ⟨host.clock_nonneg n, hclock n⟩
  obtain ⟨hversions, hmoderate⟩ := hrun.policies
  have htrue : AllModerate w.state → TrueSums host w.state := by
    intro hall
    refine trueSums_of hread hrun.governed hall fun key p hp => ?_
    have hle := hversions key p hp
    omega
  refine ⟨fun hmeasured => htrue fun _ r p _ hp => hmoderate hmeasured _ p hp,
    fun hwords => ⟨fun h => h.moderate hread hrun.governed hwords, htrue⟩,
    TrueSums.neverEarlier⟩

/-- In the opening run every sum is the true one. -/
theorem expiry_never_overflows_opening :
    ∃ owner w0 w, TreasuryRun stillHost owner w0 (opening smallPurchase owner) w
      ∧ TrueSums stillHost w.state := by
  have h : tryRun stillHost ⟨100000, "CAD"⟩ (opening smallPurchase)
      (fun _ => true) = true := by
    decide +kernel
  obtain ⟨owner, w0, w, hrun, _⟩ := tryRun_run h
  have hupdates : updates (opening smallPurchase owner) + 2 ≤ u64Max := by
    show 0 + 2 ≤ u64Max
    decide
  refine ⟨owner, w0, w, hrun,
    (expiry_never_overflows hrun (fun _ =>
      show (1000 : Int) ≤ 1099511627776 by decide) hupdates).1 ?_⟩
  intro c hc token request p hasks hcarries
  rcases List.mem_cons.mp hc with rfl | hc
  · cases hasks
    cases hcarries
    exact ⟨by decide, by decide⟩
  · obtain rfl := List.mem_singleton.mp hc
    cases hasks
    exact nomatch hcarries

/-- The demonstration policy with the longest lifetime an integer can hold. -/
def endlessDemo : Policy :=
  { Policy.conservativeDemo with intentTtlSecs := 9223372036854775807 }

/-- **AN ENDLESS INTENT IS BORN EXPIRED**: the policy is accepted, the intent
    is created, and at the same reading of the clock its execution is refused
    because it has expired. -/
theorem expiry_overflows :
    ∃ owner w0 w i, TreasuryRun stillHost owner w0
        [agentWith endlessDemo owner,
          .request agentToken (.createPurchaseIntent smallPurchase)] w
      ∧ w.state.intents.get? (firstIntent stillHost) = some i
      ∧ i.state = .policyValidated
      ∧ ¬I64.Fits (i.createdAt + endlessDemo.intentTtlSecs)
      ∧ result ((Call.request agentToken
          (.executePurchaseIntent (firstIntent stillHost))).perform stillHost) w
        = .error intentExpired := by
  have h : tryRun stillHost ⟨100000, "CAD"⟩ (fun owner =>
      [agentWith endlessDemo owner,
        .request agentToken (.createPurchaseIntent smallPurchase)]) (fun w =>
        (w.state.intents.get? (firstIntent stillHost)).any (fun i =>
          decide (i.state = .policyValidated
            ∧ ¬I64.Fits (i.createdAt + endlessDemo.intentTtlSecs)))
        && (match result ((Call.request agentToken
          (.executePurchaseIntent (firstIntent stillHost))).perform stillHost) w
          with
          | .error e => decide (e = intentExpired)
          | .ok _ => false)) = true := by
    decide +kernel
  obtain ⟨owner, w0, w, hrun, hcheck⟩ := tryRun_run h
  rw [Bool.and_eq_true, Option.any_eq_true] at hcheck
  obtain ⟨⟨i, hi, hfacts⟩, hrefused⟩ := hcheck
  obtain ⟨hstate, hfit⟩ := of_decide_eq_true hfacts
  refine ⟨owner, w0, w, i, hrun, hi, hstate, hfit, ?_⟩
  split at hrefused
  · rename_i e he
    rw [he, of_decide_eq_true hrefused]
  · exact nomatch hrefused

end Treasury
