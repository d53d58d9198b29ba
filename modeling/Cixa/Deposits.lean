import Cixa.Available

/-! # Deposits — what an accepted deposit does

    A deposit that the owner records under a new reference raises the balance
    of the provider in force by its amount and adds its share to the ledger;
    under a reference that is known it changes nothing, and a saved deposit
    that is refused changes nothing either.

    The treasury size is checked against what the provider REPORTS, which is
    net of the funds it holds, and enforced against the whole balance: so an
    accepted deposit keeps to the size exactly when the funds on hold still
    fit. -/

namespace Treasury

open CixaData CixaHost Outcome Checks Transition

variable {host : Host} {w w' v : World} {s s' : TreasuryState} {c : Call}
  {token : String} {actor : Actor} {amount : Money} {verified : Bool}
  {source reference : String} {agentId : Option String}

/-! ## Accepted deposits -/

/-- The reference of a deposit is known. -/
def Known (host : Host) (reference : String) (s : TreasuryState) : Prop :=
  s.processedDeposits.contains (opaqueReference host "deposit" reference) = true

instance (reference : String) (s : TreasuryState) :
    Decidable (Known host reference s) :=
  inferInstanceAs (Decidable (_ = true))

/-- **AN ACCEPTED DEPOSIT**: recorded under a new reference, with an entry. -/
def Deposited (host : Host) (amount : Money) (verified : Bool)
    (agentId : Option String) (reference : String) (w : World)
    (s' : TreasuryState) : Prop :=
  ∃ v e, Recorded host amount verified agentId reference w v
    ∧ s' = v.state.withEntry e

theorem Recorded.afterQuiet {a : World}
    (h : Recorded host amount verified agentId reference a v) (hq : Quiet w a) :
    Recorded host amount verified agentId reference w v := by
  obtain ⟨reinvested, s, events, fingerprint, hshare, hc, he, hs⟩ := h.made
  have hwa := hq.toAdvance
  exact ⟨hwa.trans h.advance, h.log.trans hq.log, h.positive,
    hq.state ▸ h.fresh, reinvested, s, events, fingerprint, hq.state ▸ hshare,
    hq.state ▸ hc.widen hwa (.refl v), he.widen hwa (.refl v), hs⟩

/-- Recording writes no entry. -/
theorem Recorded.generation
    (h : Recorded host amount verified agentId reference w v) :
    v.state.generation = w.state.generation := by
  obtain ⟨_, s, _, _, _, hc, _, hs⟩ := h.made
  obtain ⟨_, _, heq⟩ := hc.fields
  rw [hs, heq]
  rfl

/-- A request to record a deposit records it, or knows its reference; if it
    fails it has written no entry. -/
theorem handle_deposit :
    wp (handle host token
        (.ownerRecordDeposit amount source verified agentId reference))
      (fun _ v => (v.state = w.state ∧ Known host reference w.state)
        ∨ Deposited host amount verified agentId reference w v.state)
      (fun _ v => v.state = w.state
        ∨ Recorded host amount verified agentId reference w v
          ∧ ¬hasRoom v.state "record_deposit") w := by
  unfold handle
  refine line_quiet (authenticate_quietly token)
    (fun _ v hq => Or.inl hq.state) ?_
  intro actor a ha
  refine wp_mono (ownerRecordDeposit_spec (w := a)) ?_ ?_
  · rintro _ v ⟨_, ⟨rfl, hknown⟩ | ⟨u, e, hrec, _, hs⟩⟩
    · exact Or.inl ⟨ha.state, ha.state ▸ hknown⟩
    · exact Or.inr ⟨u, e, hrec.afterQuiet ha, hs⟩
  · rintro _ v (⟨_, hq | ⟨hrec, hfull⟩⟩ | rfl)
    · exact Or.inl (hq.state.trans ha.state)
    · exact Or.inr ⟨hrec.afterQuiet ha, hfull⟩
    · exact Or.inl ha.state

/-- **A DEPOSIT THAT RETURNS**, in memory or saved, was recorded or known. -/
theorem deposit_returns {value : Json}
    (hc : c.asks = some (token,
      .ownerRecordDeposit amount source verified agentId reference))
    (hx : c.perform host w = .ok value w') :
    (w'.state = w.state ∧ Known host reference w.state)
      ∨ Deposited host amount verified agentId reference w w'.state := by
  cases c with
  | request token' request =>
      cases hc
      have h := wp_ok handle_deposit (show handle host token _ w = _ from hx)
      exact h
  | persisted token' request =>
      cases hc
      have h := wp_ok (handleSaved_returns (P := fun s =>
          (s = w.state ∧ Known host reference w.state)
            ∨ Deposited host amount verified agentId reference w s)
          (wp_mono handle_deposit (fun _ _ h => h) (fun _ _ _ => trivial)))
        (show handleSaved host token _ w = _ from hx)
      exact h
  | _ => exact nomatch hc

/-- A saved request that writes no entry when it fails leaves the state as it
    was when it is refused. -/
theorem handleSaved_refused {request : Request}
    (hrun : wp (handle host token request) (fun _ _ => True)
      (fun _ v => v.state.generation = w.state.generation) w) :
    wp (handleSaved host token request) (fun _ _ => True)
      (fun _ w' => w'.state = w.state) w := by
  unfold handleSaved
  rw [wp_bind, wp_readState, wp_bind, wp_attempt]
  refine wp_mono hrun ?_ ?_
  · intro value v _
    dsimp only
    rw [wp_ite, wp_pure]
    refine ⟨fun _ => trivial, fun _ => ?_⟩
    rw [wp_bind]
    refine wp_orRestore (wp_mono saveTo_spec ?_ ?_)
    · intro _ w' _
      rw [wp_pure]
      trivial
    · exact fun _ w' _ => rfl
  · intro e v hgen
    dsimp only
    rw [wp_bind, wp_readState, wp_ite]
    constructor
    · rintro ⟨_, hgrown⟩
      omega
    · intro _
      rw [wp_bind, wp_setState, wp_throw]

/-- **A SAVED DEPOSIT THAT IS REFUSED** changes nothing. -/
theorem deposit_refused {e : TreasuryError}
    (hx : (Call.persisted token (.ownerRecordDeposit amount source verified
      agentId reference)).perform host w = .error e w') :
    w'.state = w.state := by
  have h := wp_error (handleSaved_refused (wp_mono handle_deposit
      (fun _ _ _ => trivial)
      (fun _ _ h => h.elim (fun hs => by rw [hs]) fun h => h.1.generation)))
    (show handleSaved host token _ w = _ from hx)
  exact h

/-- **WHAT ANY DEPOSIT LEAVES**: what was there; what was recorded, with its
    entry, if it returns; or without one, if there was no room for it. -/
inductive DepositCall (host : Host) (amount : Money) (verified : Bool)
    (agentId : Option String) (reference : String) (w : World) (c : Call) :
    Prop where
  | nothing (hs : (exec host c w).state = w.state)
  | recorded {v : World} {e : AuditEntry}
      (hrec : Recorded host amount verified agentId reference w v)
      (hok : Succeeds host c w) (hs : (exec host c w).state = v.state.withEntry e)
  | half {v : World} (hrec : Recorded host amount verified agentId reference w v)
      (hfull : ¬hasRoom v.state "record_deposit")
      (hs : (exec host c w).state = v.state)

theorem exec_deposit (host : Host) (w : World) (hc : c.asks = some (token,
      .ownerRecordDeposit amount source verified agentId reference)) :
    DepositCall host amount verified agentId reference w c := by
  cases hx : c.perform host w with
  | ok value w' =>
      have hend : exec host c w = w' := by
        unfold exec final
        rw [hx]
      have hok : Succeeds host c w := by
        refine ⟨value, ?_⟩
        unfold result
        rw [hx]
      rcases deposit_returns hc hx with ⟨hs, _⟩ | ⟨v, e, hrec, hs⟩
      · exact .nothing (by rw [hend, hs])
      · exact .recorded hrec hok (by rw [hend, hs])
  | error e w' =>
      have hend : exec host c w = w' := by
        unfold exec final
        rw [hx]
      cases c with
      | request token' request =>
          cases hc
          have h := wp_error handle_deposit (show handle host token _ w = _ from hx)
          rcases h with hs | ⟨hrec, hfull⟩
          · exact .nothing (by rw [hend]; exact hs)
          · exact .half hrec hfull (by rw [hend])
      | persisted token' request =>
          cases hc
          exact .nothing (by rw [hend]; exact deposit_refused hx)
      | _ => exact nomatch hc

/-! ## Balances -/

/-- What the simulated provider holds for intents. -/
def onHold (p : SimulatedProvider) : Int := p.holds.sum Money.minor

/-- The balances a state records: the simulated one and the manual one. -/
def balances (s : TreasuryState) : Money × Option Money :=
  (s.provider.balance, (manualSnapshot s).map ManualBalanceSnapshot.amount)

/-- What a credit of the provider in force does to the balance. -/
structure Raised (amount : Money) (s s' : TreasuryState) : Prop where
  mode : s'.providerMode = s.providerMode
  configured : ∃ b b', configuredBalance s = .ok b
    ∧ configuredBalance s' = .ok b' ∧ b'.minor = b.minor + amount.minor

theorem Credited.raised (h : Credited host w w' amount true s s') :
    Raised amount s s' := by
  cases h with
  | @simulated _ balance hm hb =>
      refine ⟨rfl, s.provider.balance, balance, ?_, ?_, (checkedAdd_minor hb).1⟩
      · unfold configuredBalance
        rw [hm]
        rfl
      · unfold configuredBalance
        dsimp only
        rw [hm]
        rfl
  | @manual _ m snap balance t hm hp hs hb ht =>
      refine ⟨rfl, snap.amount, balance, ?_, ?_, (checkedAdd_minor hb).1⟩
      · unfold configuredBalance manualSnapshot
        rw [hm, hp]
        dsimp only
        rw [Option.bind_some, hs]
        rfl
      · unfold configuredBalance manualSnapshot
        dsimp only
        rw [hm]
        rfl

theorem Credited.unraised (h : Credited host w w' amount false s s') :
    s' = s := by
  cases h
  rfl

/-- Nothing else a deposit writes is a balance. -/
theorem Deposited.state (h : Deposited host amount verified agentId reference w
    s') : ∃ reinvested s v events entry, depositShare w.state amount verified
        agentId = .ok reinvested
      ∧ Credited host w v amount verified w.state s
      ∧ DepositEvents host w v amount reinvested verified events
      ∧ 0 < amount.minor
      ∧ s'.ledger = w.state.ledger ++ events
      ∧ s'.intents = w.state.intents
      ∧ s' = { s with
          ledger := s'.ledger
          processedDeposits := s'.processedDeposits
          audit := w.state.audit ++ [entry]
          generation := w.state.generation + 1 } := by
  obtain ⟨v, e, hrec, rfl⟩ := h
  obtain ⟨reinvested, s, events, fingerprint, hshare, hc, he, hs⟩ := hrec.made
  obtain ⟨p, m, heq⟩ := hc.fields
  refine ⟨reinvested, s, v, events, e, hshare, hc, he, hrec.positive, ?_, ?_, ?_⟩
  · rw [hs, heq]
    rfl
  · rw [hs, heq]
    rfl
  · rw [hs, heq]
    rfl

/-- A verified deposit raises the balance in force by its amount. -/
theorem Deposited.raised
    (h : Deposited host amount true agentId reference w s') :
    Raised amount w.state s' := by
  obtain ⟨_, s, v, _, entry, _, hc, _, _, _, _, hs⟩ := h.state
  obtain ⟨hmode, b, b', hb, hb', hadd⟩ := hc.raised
  rw [hs]
  exact ⟨hmode, b, b', hb, hb', hadd⟩

/-! ## The treasury size -/

/-- A balance within a policy's treasury size. -/
def WithinSize (s : TreasuryState) (p : Policy) : Prop :=
  ∃ b, configuredBalance s = .ok b ∧ b.minor ≤ p.maxTreasurySize.minor

/-- The funds on hold fit beside a deposit into a treasury size. -/
def HoldsFit (s : TreasuryState) (p : Policy) (amount : Money) : Prop :=
  s.providerMode = .simulated → ∀ available,
    s.provider.availableBalance = .ok available →
      onHold s.provider
        ≤ p.maxTreasurySize.minor - (available.minor + amount.minor)

/-- An accepted deposit keeps to the size of its policy exactly when the funds
    on hold fit. -/
theorem Deposited.within {id : String}
    (h : Deposited host amount true (some id) reference w s') :
    ∃ r p, w.state.agents.get? id = some r
      ∧ w.state.policies.get? r.policyId = some p
      ∧ (WithinSize s' p ↔ HoldsFit w.state p amount) := by
  obtain ⟨_, b, b', hb, hb', hadd⟩ := h.raised
  obtain ⟨reinvested, _, _, _, _, hshare, _⟩ := h.state
  obtain ⟨_, r, p, available, projected, _, _, hid, hr, hp, _, hreport, hproj,
    hsize, _⟩ := depositShare_verified.mp hshare
  obtain rfl := Option.some.inj hid
  refine ⟨r, p, hr, hp, ?_⟩
  have hprojected := (checkedAdd_minor hproj).1
  have hwithin : WithinSize s' p ↔ b'.minor ≤ p.maxTreasurySize.minor := by
    constructor
    · rintro ⟨b'', hb'', hle⟩
      rw [hb'] at hb''
      cases hb''
      exact hle
    · exact fun hle => ⟨b', hb', hle⟩
  rw [hwithin, hadd]
  cases hm : w.state.providerMode with
  | simulated =>
      -- what is reported is net of the holds, the balance is not
      unfold providerReportedBalance at hreport
      unfold configuredBalance at hb
      rw [hm] at hreport hb
      cases hb
      replace hreport : w.state.provider.availableBalance = .ok available :=
        hreport
      have hnet := availableBalance_minor hreport
      unfold HoldsFit onHold
      constructor
      · intro hle _ a ha
        rw [hreport] at ha
        cases ha
        omega
      · intro hfit
        have := hfit hm available hreport
        omega
  | manualPrepaidCard =>
      unfold providerReportedBalance at hreport
      unfold configuredBalance at hb
      rw [hm] at hreport hb
      rw [hreport] at hb
      cases hb
      constructor
      · exact fun _ hsim => nomatch hm.symm.trans hsim
      · intro _
        omega

/-- The reason for which a purchase is denied while the treasury is too big. -/
def tooBig : String := "provider balance exceeds maximum treasury size"

theorem tooBig_denyIf {q : Prop} [Decidable q] {reason : String}
    {d : PolicyDecision} (hne : reason ≠ tooBig) :
    tooBig ∈ (denyIf q reason d).reasons ↔ tooBig ∈ d.reasons := by
  unfold denyIf deny
  split
  · simp [Ne.symm hne]
  · rfl

/-- **ENFORCEMENT** denies a purchase for the size of the treasury exactly
    when the balance is not within it. -/
theorem enforceAuthority_tooBig {d : PolicyDecision} {request : PurchaseRequest}
    {used : BudgetUsage} {p : Policy}
    (hcur : request.finalTotal.currency = p.primaryCurrency)
    (hd : tooBig ∉ d.reasons) :
    wp (enforceAuthority host s d request used p)
      (fun d' _ => tooBig ∈ d'.reasons ↔ ¬WithinSize s p)
      (fun _ _ => True) w := by
  unfold enforceAuthority
  rw [if_neg (not_not.mpr hcur)]
  refine line_lift (fun _ => trivial) fun _ _ => ?_
  refine line_quiet (providerAvailableBalance_quietly s)
    (fun _ _ _ => trivial) fun _ _ _ => ?_
  refine line_lift (fun _ => trivial) fun b hb => ?_
  refine line_lift (fun _ => trivial) fun _ _ => ?_
  rw [wp_pure, tooBig_denyIf (by decide)]
  have hwithin : WithinSize s p ↔ b.minor ≤ p.maxTreasurySize.minor := by
    constructor
    · rintro ⟨b', hb', hle⟩
      rw [hb] at hb'
      cases hb'
      exact hle
    · exact fun hle => ⟨b, hb, hle⟩
  rw [hwithin, not_le]
  unfold denyIf
  split
  · rename_i hbig
    exact ⟨fun _ => hbig, fun _ => by unfold deny; simp [tooBig]⟩
  · rename_i hsmall
    refine ⟨fun hmem => ?_, fun hbig => absurd hbig hsmall⟩
    refine absurd hmem ?_
    show tooBig ∉ (denyIf _ _ (denyIf _ _ d)).reasons
    rw [tooBig_denyIf (by decide), tooBig_denyIf (by decide)]
    exact hd

/-- **DEPOSITS AND THE TREASURY SIZE**: a verified deposit that is accepted,
    in memory or saved, leaves a balance within the size of its agent's policy
    exactly when the funds on hold fit; and otherwise the next purchase decided
    under that policy is denied for the size of the treasury. -/
theorem deposit_within_size {id : String} {value : Json}
    (hc : c.asks = some (token,
      .ownerRecordDeposit amount source true (some id) reference))
    (hnew : ¬Known host reference w.state)
    (hx : c.perform host w = .ok value w') :
    ∃ r p, w.state.agents.get? id = some r
      ∧ w.state.policies.get? r.policyId = some p
      ∧ (WithinSize w'.state p ↔ HoldsFit w.state p amount)
      ∧ ∀ d request used v d' v', request.finalTotal.currency = p.primaryCurrency →
        tooBig ∉ d.reasons →
        enforceAuthority host w'.state d request used p v = .ok d' v' →
        (tooBig ∈ d'.reasons ↔ ¬HoldsFit w.state p amount) := by
  rcases deposit_returns hc hx with ⟨_, hknown⟩ | h
  · exact absurd hknown hnew
  obtain ⟨r, p, hr, hp, hfit⟩ := h.within
  refine ⟨r, p, hr, hp, hfit, fun d request used v d' v' hcur hd hrun => ?_⟩
  have hiff := wp_ok (enforceAuthority_tooBig hcur hd) hrun
  rw [hiff, hfit]

/-- The owner deposits the smallest amount for the first agent. -/
def smallDeposit (owner : String) : Call :=
  .request owner (.ownerRecordDeposit ⟨1, "CAD"⟩ "s" true
    (some (firstAgent stillHost)) "r")

/-- The calls that leave the smallest amount on hold. -/
def pendingOpening (owner : String) : List Call :=
  opening { smallPurchase with scenario := .delayedSettlement } owner
    ++ [.request agentToken (.executePurchaseIntent (firstIntent stillHost))]

/-- The small deposit is accepted while funds are on hold, and leaves a
    balance. -/
def Leaves (balance : Int) (w : World) : Prop :=
  let c := smallDeposit (bootstrapToken stillHost)
  onHold w.state.provider = 1 ∧ ¬Known stillHost "r" w.state
    ∧ Succeeds stillHost c w
    ∧ (exec stillHost c w).state.providerMode = .simulated
    ∧ (exec stillHost c w).state.provider.balance.minor = balance
    ∧ ((w.state.agents.get? (firstAgent stillHost)).bind fun r =>
        w.state.policies.get? r.policyId).map (fun p => p.maxTreasurySize.minor)
      = some 100000

instance (balance : Int) (w : World) : Decidable (Leaves balance w) :=
  inferInstanceAs (Decidable (_ ∧ _ ∧ _ ∧ _ ∧ _ ∧ _))

/-- A call that returns a value ends where it ends. -/
theorem Succeeds.returns (h : Succeeds host c w) :
    ∃ value, c.perform host w = .ok value (exec host c w) := by
  obtain ⟨value, hvalue⟩ := h
  unfold result at hvalue
  unfold exec final
  cases hx : c.perform host w with
  | ok value' w' => exact ⟨value', rfl⟩
  | error e w' =>
      rw [hx] at hvalue
      exact nomatch hvalue

/-- What the small deposit leaves is within the size as far as its balance
    is. -/
theorem Leaves.size {balance : Int} (h : Leaves balance w) {r : AgentRecord}
    {p : Policy} (hr : w.state.agents.get? (firstAgent stillHost) = some r)
    (hp : w.state.policies.get? r.policyId = some p) :
    WithinSize (exec stillHost (smallDeposit (bootstrapToken stillHost)) w).state
      p ↔ balance ≤ 100000 := by
  obtain ⟨_, _, _, hm, hb, hsize⟩ := h
  have hmax : p.maxTreasurySize.minor = 100000 := by
    rw [hr] at hsize
    rw [show (some r).bind (fun r => w.state.policies.get? r.policyId) = some p
      from hp] at hsize
    exact Option.some.inj hsize
  unfold WithinSize configuredBalance
  rw [hm, hmax]
  constructor
  · rintro ⟨b, hget, hle⟩
    cases hget
    omega
  · intro hle
    exact ⟨_, rfl, by omega⟩

/-- A deposit that fits beside the hold leaves a balance within the size. -/
theorem deposit_within_size_fits :
    ∃ owner w0 w value w' r p, TreasuryRun stillHost owner w0
        (pendingOpening owner) w
      ∧ (smallDeposit owner).perform stillHost w = .ok value w'
      ∧ w.state.agents.get? (firstAgent stillHost) = some r
      ∧ w.state.policies.get? r.policyId = some p
      ∧ HoldsFit w.state p ⟨1, "CAD"⟩ ∧ WithinSize w'.state p := by
  have h : tryRun stillHost ⟨50000, "CAD"⟩ pendingOpening
      (fun w => decide (Leaves 50001 w)) = true := by
    decide +kernel
  obtain ⟨owner, w0, w, hrun, hcheck⟩ := tryRun_run h
  have hleaves : Leaves 50001 w := of_decide_eq_true hcheck
  obtain ⟨balance, hs⟩ := hrun.balance
  obtain rfl := hs.capability
  obtain ⟨value, hx⟩ := Succeeds.returns hleaves.2.2.1
  obtain ⟨r, p, hr, hp, hiff, _⟩ := deposit_within_size rfl hleaves.2.1 hx
  have hwithin := (hleaves.size hr hp).mpr (by decide)
  exact ⟨_, w0, w, value, _, r, p, hrun, hx, hr, hp, hiff.mp hwithin, hwithin⟩

/-- **A BIGGER TREASURY**: with the smallest amount on hold and the treasury as
    big as it may be, a deposit of as much is accepted and leaves a balance
    over the size. -/
theorem deposit_over_size :
    ∃ owner w0 w value w' r p, TreasuryRun stillHost owner w0
        (pendingOpening owner) w
      ∧ ¬Known stillHost "r" w.state
      ∧ (smallDeposit owner).perform stillHost w = .ok value w'
      ∧ w.state.agents.get? (firstAgent stillHost) = some r
      ∧ w.state.policies.get? r.policyId = some p
      ∧ ¬WithinSize w'.state p := by
  have h : tryRun stillHost ⟨100000, "CAD"⟩ pendingOpening
      (fun w => decide (Leaves 100001 w)) = true := by
    decide +kernel
  obtain ⟨owner, w0, w, hrun, hcheck⟩ := tryRun_run h
  have hleaves : Leaves 100001 w := of_decide_eq_true hcheck
  obtain ⟨balance, hs⟩ := hrun.balance
  obtain rfl := hs.capability
  obtain ⟨value, hx⟩ := Succeeds.returns hleaves.2.2.1
  have hdep := (deposit_returns (show (smallDeposit _).asks = _ from rfl)
    hx).resolve_left fun hk => hleaves.2.1 hk.2
  obtain ⟨r, p, hr, hp, _⟩ := hdep.within
  refine ⟨_, w0, w, value, _, r, p, hrun, hleaves.2.1, hx, hr, hp, fun hw => ?_⟩
  exact absurd ((hleaves.size hr hp).mp hw) (by decide)

end Treasury
