import Cixa.Grants
import Cixa.JsonText
import Cixa.Runs

/-! # Redemption — a grant is redeemed once, and only a signed one

    Two facts carry the result.  The checks accept exactly a grant that
    signing would produce: every field is under the code.  And between the
    creation of a mark and its synchronisation the mark is on disk, so no
    other call can create it: the marks that are synchronised and those
    that are being synchronised are all DIFFERENT. -/

namespace Treasury

open CixaData CixaHost Chars Checks

variable {host : Host} {w : HelperWorld} {es : List HelperEvent}
  {r : Redemption} {t : Int}

/-! ## What the code covers -/

/-- Equal payloads are equal in every field but the code. -/
theorem helperPayload_inj {o o' : ApprovedSecretOperation}
    (h : o.helperPayload = o'.helperPayload) :
    o = { o' with helperMac := o.helperMac } := by
  have hfield : ∀ k, Json.getField? k o.helperPayload
      = Json.getField? k o'.helperPayload := fun k => by rw [h]
  have hoperation : o.operationId = o'.operationId := by
    simpa [ApprovedSecretOperation.helperPayload, Json.getField?_mkObj]
      using hfield "operation_id"
  have hintent : o.intentId = o'.intentId := by
    simpa [ApprovedSecretOperation.helperPayload, Json.getField?_mkObj]
      using hfield "intent_id"
  have hcard : o.cardReference = o'.cardReference := by
    simpa [ApprovedSecretOperation.helperPayload, Json.getField?_mkObj]
      using hfield "card_reference"
  have hexpiry : o.expiresAt = o'.expiresAt := by
    simpa [ApprovedSecretOperation.helperPayload, Json.getField?_mkObj]
      using hfield "expires_at"
  have hnonce : o.nonce = o'.nonce := by
    simpa [ApprovedSecretOperation.helperPayload, Json.getField?_mkObj]
      using hfield "nonce"
  have hhelper : Json.optStr o.helperId = Json.optStr o'.helperId := by
    simpa [ApprovedSecretOperation.helperPayload, Json.getField?_mkObj]
      using hfield "helper_id"
  have huid : Json.optNum (o.brokerUid.map fun uid => (uid.toNat : Int))
      = Json.optNum (o'.brokerUid.map fun uid => (uid.toNat : Int)) := by
    simpa [ApprovedSecretOperation.helperPayload, Json.getField?_mkObj]
      using hfield "broker_uid"
  have hhelper' : o.helperId = o'.helperId := by
    revert hhelper
    cases o.helperId <;> cases o'.helperId <;> simp [Json.optStr]
  have huid' : o.brokerUid = o'.brokerUid := by
    revert huid
    cases o.brokerUid <;> cases o'.brokerUid <;>
      simp [Json.optNum, UInt32.toNat_inj]
  cases o
  cases o'
  simp_all

/-- A grant that was signed. -/
theorem signForHelper_ok {o signed : ApprovedSecretOperation}
    {key : List UInt8} {id : String} {uid : UInt32} :
    signForHelper host o key id uid = .ok signed
      ↔ 32 ≤ key.length ∧ bounded id "secret_helper_id" 128 = .ok ()
        ∧ signed = { o.addressed id uid with
            helperMac := some (hmacHash host key
              (o.addressed id uid).helperPayload) } := by
  unfold signForHelper
  simp only [bind_eq_ok, refuseIf_eq_ok, pure_eq_ok, not_lt]
  constructor
  · rintro ⟨_, hkey, _, hid, rfl⟩
    exact ⟨hkey, hid, rfl⟩
  · rintro ⟨hkey, hid, rfl⟩
    exact ⟨(), hkey, (), hid, rfl⟩

/-- **THE CHECKS** accept exactly a grant in time, for this helper and this
    peer, whose code is the one that signing computes. -/
theorem authorizeRedemption_ok : authorizeRedemption host r t = .ok ()
    ↔ 32 ≤ r.helperKey.length ∧ t < r.operation.expiresAt
      ∧ r.operation.helperId = some r.helperId
      ∧ r.operation.brokerUid = some r.peerUid
      ∧ r.operation.helperMac
        = some (hmacHash host r.helperKey r.operation.helperPayload) := by
  have hcode : ∀ mac : Option String, utf8Bytes
        (hmacHash host r.helperKey r.operation.helperPayload)
        = utf8Bytes (mac.getD "")
      ↔ mac = some (hmacHash host r.helperKey r.operation.helperPayload) := by
    intro mac
    cases mac with
    | some mac =>
        exact ⟨fun h => congrArg some (utf8Bytes_inj h).symm,
          fun h => congrArg utf8Bytes (Option.some.inj h).symm⟩
    | none =>
        refine ⟨fun h => ?_, nofun⟩
        -- a code is not the empty text
        have hlength := congrArg List.length h
        have hcode : byteLen (hmacHash host r.helperKey
            r.operation.helperPayload) = 64 := by
          unfold hmacHash
          rw [hexEncode_byteLen, host.hmacSha256_length]
        have hempty : (utf8Bytes ((none : Option String).getD "")).length = 0 :=
          rfl
        unfold byteLen at hcode
        omega
  unfold authorizeRedemption
  simp only [bind_eq_ok, refuseIf_eq_ok, not_or, not_lt, not_le, not_not,
    Bool.not_eq_false, constantTimeEq_iff, hcode]
  constructor
  · rintro ⟨_, ⟨hkey, htime, hid, huid⟩, hmac⟩
    exact ⟨hkey, htime, hid, huid, hmac⟩
  · rintro ⟨hkey, htime, hid, huid, hmac⟩
    exact ⟨(), ⟨hkey, htime, hid, huid⟩, hmac⟩

/-! ## One mark for one call -/

/-- **EXCLUSIVE**: a mark that is being synchronised is on disk, is not yet
    durable, and is of one process; every accepted call has a durable mark
    of its own. -/
structure Exclusive (host : Host) (w : HelperWorld) : Prop where
  shown : ∀ name ∈ w.durable, name ∈ w.files
  marked : ∀ p r, w.calls.get? p = some (r, .marked) →
    r.markName host ∈ w.files ∧ r.markName host ∉ w.durable
  apart : ∀ p q r r', w.calls.get? p = some (r, .marked) →
    w.calls.get? q = some (r', .marked) → r.markName host = r'.markName host →
    p = q
  accepted : ∀ r ∈ w.accepted, r.markName host ∈ w.durable
  once : (w.accepted.map (Redemption.markName host)).Nodup

/-- Ending a call leaves the marks as they are. -/
theorem Exclusive.erase {calls : SortedMap Nat (Redemption × RedemptionPhase)}
    {w' : HelperWorld} (h : Exclusive host w) (hfiles : w'.files = w.files)
    (hdurable : w'.durable = w.durable) (haccepted : w'.accepted = w.accepted)
    (hcalls : w'.calls = calls)
    (hsub : ∀ p r, calls.get? p = some (r, .marked) →
      w.calls.get? p = some (r, .marked)) : Exclusive host w' := by
  constructor
  · rw [hdurable, hfiles]
    exact h.shown
  · intro p r hp
    rw [hfiles, hdurable]
    exact h.marked p r (hsub p r (hcalls ▸ hp))
  · intro p q r r' hp hq
    exact h.apart p q r r' (hsub p r (hcalls ▸ hp)) (hsub q r' (hcalls ▸ hq))
  · rw [haccepted, hdurable]
    exact h.accepted
  · rw [haccepted]
    exact h.once

theorem get?_erase_some {calls : SortedMap Nat (Redemption × RedemptionPhase)}
    {p q : Nat} {c : Redemption × RedemptionPhase}
    (h : (calls.erase p).get? q = some c) : q ≠ p ∧ calls.get? q = some c := by
  rw [SortedMap.get?_erase] at h
  split at h
  · exact nomatch h
  · rename_i hne
    exact ⟨hne, h⟩

theorem Exclusive.reject {p : Nat} {e : TreasuryError} (h : Exclusive host w) :
    Exclusive host (w.reject p r e) :=
  h.erase rfl rfl rfl rfl fun _ _ hq => (get?_erase_some hq).2

theorem Exclusive.start {p : Nat} (h : Exclusive host w) :
    Exclusive host (startCall host w p r t) := by
  unfold startCall
  split
  · exact h.reject
  · refine h.erase rfl rfl rfl rfl fun q r' hq => ?_
    rw [SortedMap.get?_insert] at hq
    split at hq
    · exact nomatch hq
    · exact hq

theorem Exclusive.mark {p : Nat} {fault : Option String}
    (h : Exclusive host w) : Exclusive host (markCall host w p r fault) := by
  unfold markCall
  cases fault with
  | some message => exact h.reject
  | none =>
      dsimp only
      split
      · exact h.reject
      rename_i hnew
      have hother : ∀ q r', q ≠ p →
          (w.calls.insert p (r, .marked)).get? q = some (r', .marked) →
          w.calls.get? q = some (r', .marked) := by
        intro q r' hne hq
        rwa [SortedMap.get?_insert_of_ne _ _ hne] at hq
      have hself : ∀ r', (w.calls.insert p (r, .marked)).get? p
          = some (r', RedemptionPhase.marked) → r' = r := by
        intro r' hp
        rw [SortedMap.get?_insert_self] at hp
        exact (congrArg Prod.fst (Option.some.inj hp)).symm
      constructor
      · exact fun name hname => List.mem_cons_of_mem _ (h.shown name hname)
      · intro q r' hq
        -- the new mark, or one of another process
        by_cases hne : q = p
        · subst hne
          rw [hself r' hq]
          exact ⟨List.mem_cons_self .., fun hd => hnew (h.shown _ hd)⟩
        · obtain ⟨hfile, hdurable⟩ := h.marked q r' (hother q r' hne hq)
          exact ⟨List.mem_cons_of_mem _ hfile, hdurable⟩
      · -- the file was not there, so no other process is marking it
        intro q q' r' r'' hq hq' hname
        by_cases hqp : q = p
        · by_cases hq'p : q' = p
          · rw [hqp, hq'p]
          · subst hqp
            have hfile := (h.marked q' r'' (hother q' r'' hq'p hq')).1
            rw [← hname, hself r' hq] at hfile
            exact absurd hfile hnew
        · by_cases hq'p : q' = p
          · subst hq'p
            have hfile := (h.marked q r' (hother q r' hqp hq)).1
            rw [hname, hself r'' hq'] at hfile
            exact absurd hfile hnew
          · exact h.apart q q' r' r'' (hother q r' hqp hq)
              (hother q' r'' hq'p hq') hname
      · exact h.accepted
      · exact h.once

theorem Exclusive.finish {p : Nat} {fault : Option String}
    (h : Exclusive host w) (hp : w.calls.get? p = some (r, .marked)) :
    Exclusive host (finishCall host w p r fault) := by
  unfold finishCall
  cases fault with
  | some message => exact h.reject
  | none =>
      obtain ⟨hfile, hnew⟩ := h.marked p r hp
      constructor
      · intro name hname
        rcases List.mem_cons.mp hname with rfl | hname
        · exact hfile
        · exact h.shown name hname
      · intro q r' hq
        obtain ⟨hne, hq⟩ := get?_erase_some hq
        obtain ⟨hfile', hnew'⟩ := h.marked q r' hq
        refine ⟨hfile', fun hmem => ?_⟩
        -- the mark that became durable was of this process only
        rcases List.mem_cons.mp hmem with hname | hmem
        · exact hne (h.apart q p r' r hq hp hname)
        · exact hnew' hmem
      · intro q q' r' r'' hq hq'
        exact h.apart q q' r' r'' (get?_erase_some hq).2 (get?_erase_some hq').2
      · intro r' hr'
        rcases List.mem_cons.mp hr' with rfl | hr'
        · exact List.mem_cons_self ..
        · exact List.mem_cons_of_mem _ (h.accepted r' hr')
      · refine List.nodup_cons.mpr ⟨fun hmem => ?_, h.once⟩
        obtain ⟨r', hr', hname⟩ := List.mem_map.mp hmem
        exact hnew (hname ▸ h.accepted r' hr')

/-- **ONE STEP** keeps the marks apart, whichever event it is. -/
theorem Exclusive.step (h : Exclusive host w) (e : HelperEvent) :
    Exclusive host (helperStep host w e) := by
  unfold helperStep
  -- one case for each event; the helper's own steps are the lemmas above
  cases e with
  | sign o key id uid =>
      dsimp only
      split
      · exact h
      · exact ⟨h.shown, h.marked, h.apart, h.accepted, h.once⟩
  | start p r t =>
      dsimp only
      split
      · exact h.start
      · exact h
  | mark p fault =>
      dsimp only
      split
      · exact h.mark
      · exact h
  | finish p fault =>
      dsimp only
      split
      · rename_i hp
        exact h.finish hp
      · exact h
  | crash p => exact h.erase rfl rfl rfl rfl fun _ _ hq => (get?_erase_some hq).2
  | powerLoss lost =>
      refine ⟨fun name hname => ?_, nofun, (fun _ _ _ _ hp => nomatch hp),
        h.accepted, h.once⟩
      exact List.mem_filter.mpr ⟨h.shown name hname,
        decide_eq_true (Or.inr hname)⟩

theorem HelperRun.exclusive (h : HelperRun host es w) : Exclusive host w := by
  induction h with
  | nil =>
      exact ⟨nofun, nofun, (fun _ _ _ _ hp => nomatch hp), nofun, List.nodup_nil⟩
  | snoc e _ _ ih => exact ih.step e

/-! ## Only what was signed -/

/-- The grants of an event, with the keys they are signed or checked with. -/
def HelperEvent.grants : HelperEvent → List (List UInt8 × ApprovedSecretOperation)
  | .sign o key id uid => [(key, o.addressed id uid)]
  | .start _ r _ => [(r.helperKey, r.operation)]
  | _ => []

/-- The grants of an event of a run are the run's. -/
theorem grants_of_event {e : HelperEvent}
    {g : List UInt8 × ApprovedSecretOperation} (he : e ∈ es)
    (hg : g ∈ e.grants) : g ∈ es.flatMap HelperEvent.grants :=
  List.mem_flatMap.mpr ⟨e, he, hg⟩

/-- **NO COLLISION** among the grants of a run: different payloads have
    different codes, different nonces have different marks. -/
structure CollisionFree (host : Host) (es : List HelperEvent) : Prop where
  codes : ∀ g ∈ es.flatMap HelperEvent.grants,
    ∀ g' ∈ es.flatMap HelperEvent.grants, g.1 = g'.1 →
      host.hmacSha256 g.1 g.2.helperPayload.render
        = host.hmacSha256 g.1 g'.2.helperPayload.render →
      g.2.helperPayload.render = g'.2.helperPayload.render
  names : ∀ g ∈ es.flatMap HelperEvent.grants,
    ∀ g' ∈ es.flatMap HelperEvent.grants,
      opaqueReference host "helper_nonce" g.2.nonce
        = opaqueReference host "helper_nonce" g'.2.nonce →
      g.2.nonce = g'.2.nonce

/-- The grant of a call was signed, under its key, for its helper and its
    peer. -/
def SignedIn (host : Host) (es : List HelperEvent) (r : Redemption) : Prop :=
  ∃ o, HelperEvent.sign o r.helperKey r.helperId r.peerUid ∈ es
    ∧ signForHelper host o r.helperKey r.helperId r.peerUid = .ok r.operation

/-- A call passed its checks, in time, with a grant that was signed
    before. -/
def Began (host : Host) (es : List HelperEvent) (r : Redemption) : Prop :=
  ∃ earlier later p t, es = earlier ++ HelperEvent.start p r t :: later
    ∧ authorizeRedemption host r t = .ok () ∧ t < r.operation.expiresAt
    ∧ SignedIn host earlier r

theorem CollisionFree.before {e : HelperEvent}
    (h : CollisionFree host (es ++ [e])) : CollisionFree host es := by
  have hsub : ∀ g ∈ es.flatMap HelperEvent.grants,
      g ∈ (es ++ [e]).flatMap HelperEvent.grants := fun g hg => by
    rw [List.flatMap_append]
    exact List.mem_append_left _ hg
  exact ⟨fun g hg g' hg' => h.codes g (hsub g hg) g' (hsub g' hg'),
    fun g hg g' hg' => h.names g (hsub g hg) g' (hsub g' hg')⟩

theorem Began.next (h : Began host es r) (e : HelperEvent) :
    Began host (es ++ [e]) r := by
  obtain ⟨earlier, later, p, t, rfl, hok, htime, hsigned⟩ := h
  exact ⟨earlier, later ++ [e], p, t, by simp, hok, htime, hsigned⟩

/-- The grant of a call that began is one of the run's. -/
theorem Began.grant (h : Began host es r) :
    (r.helperKey, r.operation) ∈ es.flatMap HelperEvent.grants := by
  obtain ⟨earlier, later, p, t, rfl, _⟩ := h
  exact grants_of_event (List.mem_append_right _ (List.mem_cons_self ..))
    (List.mem_singleton_self _)

/-- Where everything in a helper's world comes from. -/
structure Traced (host : Host) (es : List HelperEvent) (w : HelperWorld) :
    Prop where
  issued : ∀ key mac, (key, mac) ∈ w.issued → ∃ o id uid,
    HelperEvent.sign o key id uid ∈ es ∧ 32 ≤ key.length
      ∧ bounded id "secret_helper_id" 128 = .ok ()
      ∧ mac = hmacHash host key (o.addressed id uid).helperPayload
  calls : ∀ p c, w.calls.get? p = some c → Began host es c.1
  files : ∀ name ∈ w.files, ∃ r, Began host es r ∧ r.markName host = name
  accepted : ∀ r ∈ w.accepted, Began host es r

theorem Traced.next (h : Traced host es w) (e : HelperEvent) :
    Traced host (es ++ [e]) w := by
  refine ⟨fun key mac hmac => ?_, fun p c hp => (h.calls p c hp).next e,
    fun name hname => ?_, fun r hr => (h.accepted r hr).next e⟩
  · obtain ⟨o, id, uid, hmem, hrest⟩ := h.issued key mac hmac
    exact ⟨o, id, uid, List.mem_append_left _ hmem, hrest⟩
  · obtain ⟨r, hr, hrname⟩ := h.files name hname
    exact ⟨r, hr.next e, hrname⟩

/-- **UNFORGEABLE**: a grant that passes the checks was signed, in every
    field. -/
theorem Traced.signed {p : Nat} (h : Traced host es w)
    (hfree : CollisionFree host (es ++ [.start p r t]))
    (hunforged : Unforged host w r)
    (hok : authorizeRedemption host r t = .ok ()) : SignedIn host es r := by
  obtain ⟨hkey, _, hid, huid, hmac⟩ := authorizeRedemption_ok.mp hok
  obtain ⟨o, id, uid, hmem, _, hbounded, hcode⟩ :=
    h.issued _ _ (hunforged _ hmac ⟨_, rfl⟩)
  have hgrants : (r.helperKey, o.addressed id uid)
      ∈ (es ++ [HelperEvent.start p r t]).flatMap HelperEvent.grants :=
    grants_of_event (List.mem_append_left _ hmem) (List.mem_singleton_self _)
  have hcall : (r.helperKey, r.operation)
      ∈ (es ++ [HelperEvent.start p r t]).flatMap HelperEvent.grants :=
    grants_of_event (List.mem_append_right _ (List.mem_singleton_self _))
      (List.mem_singleton_self _)
  have htext : r.operation.helperPayload.render
      = (o.addressed id uid).helperPayload.render :=
    hfree.codes (r.helperKey, r.operation) hcall
      (r.helperKey, o.addressed id uid) hgrants rfl (hexEncode_inj hcode)
  have hsame := helperPayload_inj (Json.render_injective htext)
  -- the code covers whom the grant is for
  obtain rfl : id = r.helperId :=
    Option.some.inj
      ((congrArg ApprovedSecretOperation.helperId hsame).symm.trans hid)
  obtain rfl : uid = r.peerUid :=
    Option.some.inj
      ((congrArg ApprovedSecretOperation.brokerUid hsame).symm.trans huid)
  refine ⟨o, hmem, signForHelper_ok.mpr ⟨hkey, hbounded, ?_⟩⟩
  rw [← hcode, ← hmac]
  exact hsame

theorem Traced.reject {p : Nat} {e : TreasuryError} (h : Traced host es w) :
    Traced host es (w.reject p r e) :=
  ⟨h.issued, fun q c hq => h.calls q c (get?_erase_some hq).2, h.files,
    h.accepted⟩

/-- A call that began goes on. -/
theorem Traced.insert {p : Nat} {phase : RedemptionPhase}
    (h : Traced host es w) (hr : Began host es r) :
    ∀ q c, (w.calls.insert p (r, phase)).get? q = some c →
      Began host es c.1 := by
  intro q c hq
  rw [SortedMap.get?_insert] at hq
  split at hq
  · rw [← Option.some.inj hq]
    exact hr
  · exact h.calls q c hq

theorem Traced.mark {p : Nat} {fault : Option String} (h : Traced host es w)
    (hr : Began host es r) : Traced host es (markCall host w p r fault) := by
  unfold markCall
  cases fault with
  | some message => exact h.reject
  | none =>
      dsimp only
      split
      · exact h.reject
      · refine ⟨h.issued, h.insert hr, fun name hname => ?_, h.accepted⟩
        rcases List.mem_cons.mp hname with rfl | hname
        · exact ⟨r, hr, rfl⟩
        · exact h.files name hname

theorem Traced.finish {p : Nat} {fault : Option String} (h : Traced host es w)
    (hr : Began host es r) : Traced host es (finishCall host w p r fault) := by
  unfold finishCall
  cases fault with
  | some message => exact h.reject
  | none =>
      refine ⟨h.issued, fun q c hq => h.calls q c (get?_erase_some hq).2,
        h.files, fun r' hr' => ?_⟩
      rcases List.mem_cons.mp hr' with rfl | hr'
      · exact hr
      · exact h.accepted r' hr'

/-- **ONE STEP** keeps everything traced. -/
theorem Traced.step {e : HelperEvent} (h : Traced host es w)
    (hfree : CollisionFree host (es ++ [e])) (he : Possible host w e) :
    Traced host (es ++ [e]) (helperStep host w e) := by
  have hnext := h.next e
  unfold helperStep
  -- a signature and the start of a call bring something new, which this event
  -- explains; the rest passes on what came before
  cases e with
  | sign o key id uid =>
      dsimp only
      split
      · exact hnext
      · rename_i signed hsigned
        obtain ⟨hkey, hid, rfl⟩ := signForHelper_ok.mp hsigned
        refine ⟨fun key' mac hmac => ?_, hnext.calls, hnext.files,
          hnext.accepted⟩
        rcases List.mem_cons.mp hmac with heq | hmac
        · cases heq
          exact ⟨o, id, uid, List.mem_append_right _ (List.mem_singleton_self _),
            hkey, hid, rfl⟩
        · exact hnext.issued key' mac hmac
  | start p r t =>
      dsimp only
      split
      · unfold startCall
        split
        · exact hnext.reject
        · rename_i hok
          have hbegan : Began host (es ++ [.start p r t]) r :=
            ⟨es, [], p, t, rfl, hok, (authorizeRedemption_ok.mp hok).2.1,
              h.signed hfree he hok⟩
          exact ⟨hnext.issued, hnext.insert hbegan, hnext.files,
            hnext.accepted⟩
      · exact hnext
  | mark p fault =>
      dsimp only
      split
      · rename_i hp
        exact hnext.mark (hnext.calls p _ hp)
      · exact hnext
  | finish p fault =>
      dsimp only
      split
      · rename_i hp
        exact hnext.finish (hnext.calls p _ hp)
      · exact hnext
  | crash p =>
      exact ⟨hnext.issued, fun q c hq => hnext.calls q c (get?_erase_some hq).2,
        hnext.files, hnext.accepted⟩
  | powerLoss lost =>
      exact ⟨hnext.issued, nofun,
        fun name hname => hnext.files name (List.mem_filter.mp hname).1,
        hnext.accepted⟩

theorem HelperRun.traced (h : HelperRun host es w)
    (hfree : CollisionFree host es) : Traced host es w := by
  -- collisions are excluded for the whole run, so for each beginning of it
  induction h with
  | nil => exact ⟨nofun, nofun, nofun, nofun⟩
  | snoc e _ he ih => exact (ih hfree.before).step hfree he

/-! ## Grants are one-time -/

/-- A call that fails its checks marks nothing and disturbs no other call. -/
theorem start_refused {p : Nat} {e : TreasuryError}
    (h : authorizeRedemption host r t = .error e) :
    (helperStep host w (.start p r t)).files = w.files
      ∧ (helperStep host w (.start p r t)).durable = w.durable
      ∧ ∀ q, (helperStep host w (.start p r t)).calls.get? q
        = w.calls.get? q := by
  unfold helperStep
  dsimp only
  split
  · rename_i hidle
    -- the process was idle, so erasing its call changes nothing
    have hreject : startCall host w p r t = w.reject p r e := by
      unfold startCall
      rw [h]
    rw [hreject]
    refine ⟨rfl, rfl, fun q => ?_⟩
    show (w.calls.erase p).get? q = _
    rw [SortedMap.get?_erase]
    split
    · rename_i hq
      rw [hq, hidle]
    · rfl
  · exact ⟨rfl, rfl, fun _ => rfl⟩

/-- The redemption of a grant by a process that nothing interrupts. -/
def redeems (p : Nat) (r : Redemption) (t : Int) : List HelperEvent :=
  [.start p r t, .mark p none, .finish p none]

/-- A genuine grant that left no mark yet is accepted. -/
theorem genuine_accepted {p : Nat} (hok : authorizeRedemption host r t = .ok ())
    (hidle : w.calls.get? p = none) (hnew : r.markName host ∉ w.files) :
    r ∈ ((redeems p r t).foldl (helperStep host) w).accepted := by
  have hstart : helperStep host w (.start p r t)
      = { w with calls := w.calls.insert p (r, .checked) } := by
    unfold helperStep
    dsimp only
    rw [hidle]
    dsimp only
    unfold startCall
    rw [hok]
  -- no file has the name, so it is created
  have hmark : helperStep host
      { w with calls := w.calls.insert p (r, .checked) } (.mark p none)
      = { w with
          files := r.markName host :: w.files
          calls := (w.calls.insert p (r, .checked)).insert p (r, .marked) } := by
    unfold helperStep
    dsimp only
    rw [SortedMap.get?_insert_self]
    dsimp only
    unfold markCall
    exact if_neg hnew
  unfold redeems
  rw [List.foldl_cons, hstart, List.foldl_cons, hmark, List.foldl_cons,
    List.foldl_nil]
  unfold helperStep
  dsimp only
  rw [SortedMap.get?_insert_self]
  exact List.mem_cons_self ..

/-- **ONE-TIME, UNFORGEABLE GRANTS**: in every interleaving of signatures,
    redemptions and crashes a nonce is accepted at most once; a call is
    accepted only with a grant that was signed before, in every field, under
    its key and for its helper and peer, and in time; a call that fails its
    checks leaves every mark and every other call as it was; and a genuine
    grant in time is accepted, unless a call began with its nonce before. -/
theorem grants_are_one_time (hrun : HelperRun host es w)
    (hfree : CollisionFree host es) :
    (∀ nonce, (w.accepted.filter
        fun r => decide (r.operation.nonce = nonce)).length ≤ 1)
      ∧ (∀ r ∈ w.accepted, Began host es r)
      ∧ (∀ p r t e, authorizeRedemption host r t = .error e →
        (helperStep host w (.start p r t)).files = w.files
          ∧ (helperStep host w (.start p r t)).durable = w.durable
          ∧ ∀ q, (helperStep host w (.start p r t)).calls.get? q
            = w.calls.get? q)
      ∧ ∀ p r t, authorizeRedemption host r t = .ok () →
        w.calls.get? p = none → CollisionFree host (es ++ [.start p r t]) →
        (∀ r', Began host es r' → r'.operation.nonce ≠ r.operation.nonce) →
        r ∈ ((redeems p r t).foldl (helperStep host) w).accepted := by
  have htraced := hrun.traced hfree
  refine ⟨fun nonce => ?_, htraced.accepted,
    fun p r t e he => start_refused he, fun p r t hok hidle hfresh hnew => ?_⟩
  · -- the marks of the accepted calls with a nonce are equal and different
    have hsub : ((w.accepted.filter
          fun r => decide (r.operation.nonce = nonce)).map
          (Redemption.markName host)).Sublist
        (w.accepted.map (Redemption.markName host)) :=
      List.filter_sublist.map _
    have honce := hrun.exclusive.once.sublist hsub
    have hsame : ∀ name ∈ (w.accepted.filter
          fun r => decide (r.operation.nonce = nonce)).map
          (Redemption.markName host),
        name = opaqueReference host "helper_nonce" nonce := by
      intro name hname
      obtain ⟨r, hr, rfl⟩ := List.mem_map.mp hname
      have hnonce := of_decide_eq_true (List.mem_filter.mp hr).2
      exact congrArg (opaqueReference host "helper_nonce") hnonce
    rw [List.eq_replicate_of_mem hsame, List.nodup_replicate,
      List.length_map] at honce
    exact honce
  · refine genuine_accepted hok hidle fun hname => ?_
    obtain ⟨r', hr', hsame⟩ := htraced.files _ hname
    have hmem := (hr'.next (.start p r t)).grant
    have hcall : (r.helperKey, r.operation)
        ∈ (es ++ [HelperEvent.start p r t]).flatMap HelperEvent.grants :=
      grants_of_event (List.mem_append_right _ (List.mem_singleton_self _))
        (List.mem_singleton_self _)
    exact hnew r' hr' (hfresh.names _ hmem _ hcall hsame)

/-! ## A grant, a tampered copy, and a second redemption -/

/-- A keyed checksum of a text, for runs on given grants. -/
def checksum (key bytes : List UInt8) : List UInt8 :=
  lowBytes 32 ((key ++ bytes).foldl (fun n b => n * 257 + b.toNat + 1) 0)

/-- The plain host with a keyed checksum for its codes. -/
def helperHost : Host :=
  { stillHost with
    hmacSha256 := checksum
    hmacSha256_length := fun _ _ => lowBytes_length 32 _ }

/-- The key of the helper. -/
def helperKey : List UInt8 := List.replicate 32 9

/-- A grant for the helper, before it is signed. -/
def freshGrant : ApprovedSecretOperation where
  operationId := "op"
  intentId := "intent"
  cardReference := "card"
  expiresAt := 300
  nonce := "n1"
  helperId := none
  brokerUid := none
  helperMac := none

/-- The grant as it is signed for a helper and a broker. -/
def signedGrant : ApprovedSecretOperation :=
  { freshGrant.addressed "h" 7 with
    helperMac := some (hmacHash helperHost helperKey
      (freshGrant.addressed "h" 7).helperPayload) }

/-- A call of the helper. -/
def redemptionOf (o : ApprovedSecretOperation) : Redemption :=
  ⟨o, helperKey, "h", 7⟩

/-- A tampered grant is tried first; then two processes redeem the grant at
    the same time, and power is lost at the end. -/
def helperEvents : List HelperEvent :=
  [.sign freshGrant helperKey "h" 7,
    .start 0 (redemptionOf { signedGrant with intentId := "other" }) 10,
    .start 1 (redemptionOf signedGrant) 10,
    .start 2 (redemptionOf signedGrant) 10,
    .mark 2 none,
    .mark 1 none,
    .finish 2 none,
    .powerLoss [(redemptionOf signedGrant).markName helperHost]]

/-- Whether the code that is presented was issued before. -/
def honest (w : HelperWorld) : HelperEvent → Bool
  | .start _ r _ => r.operation.helperMac.all
      fun mac => decide ((r.helperKey, mac) ∈ w.issued)
  | _ => true

theorem possible_of_honest {e : HelperEvent} (h : honest w e = true) :
    Possible host w e := by
  cases e with
  | start p r t =>
      intro mac hmac _
      have h' : r.operation.helperMac.all
          (fun mac => decide ((r.helperKey, mac) ∈ w.issued)) = true := h
      rw [hmac] at h'
      exact of_decide_eq_true h'
  | _ => trivial

/-- Event after event, as long as no code is made up. -/
def tryEvents (host : Host) : HelperWorld → List HelperEvent → Option HelperWorld
  | w, [] => some w
  | w, e :: es =>
      if honest w e then tryEvents host (helperStep host w e) es else none

theorem tryEvents_run {ds es : List HelperEvent} {w w' : HelperWorld}
    (h0 : HelperRun host ds w) (h : tryEvents host w es = some w') :
    HelperRun host (ds ++ es) w' := by
  induction es generalizing w ds with
  | nil =>
      rw [List.append_nil, ← Option.some.inj h]
      exact h0
  | cons e es ih =>
      unfold tryEvents at h
      split at h
      · rename_i hhonest
        rw [← List.singleton_append, ← List.append_assoc]
        exact ih (.snoc e h0 (possible_of_honest hhonest)) h
      · exact nomatch h

theorem helperEvents_free : CollisionFree helperHost helperEvents :=
  ⟨by decide +kernel, by decide +kernel⟩

/-- The tampered copy is refused and leaves no mark; one of the two calls
    with the grant is accepted, and its mark survives. -/
theorem grants_are_one_time_raced :
    ∃ w, HelperRun helperHost helperEvents w
      ∧ w.accepted = [redemptionOf signedGrant]
      ∧ w.rejected = [(redemptionOf signedGrant, alreadyRedeemed),
        (redemptionOf { signedGrant with intentId := "other" },
          .forbidden "secret-helper grant authentication failed")]
      ∧ w.files = [(redemptionOf signedGrant).markName helperHost]
      ∧ Began helperHost helperEvents (redemptionOf signedGrant)
      ∧ (w.accepted.filter
        fun r => decide (r.operation.nonce = "n1")).length ≤ 1 := by
  have htry : (tryEvents helperHost .initial helperEvents).any (fun w =>
      decide (w.accepted = [redemptionOf signedGrant]
        ∧ w.rejected = [(redemptionOf signedGrant, alreadyRedeemed),
          (redemptionOf { signedGrant with intentId := "other" },
            .forbidden "secret-helper grant authentication failed")]
        ∧ w.files = [(redemptionOf signedGrant).markName helperHost]))
      = true := by
    decide +kernel
  obtain ⟨w, hw, hcheck⟩ := (Option.any_eq_true _ _).mp htry
  obtain ⟨haccepted, hrejected, hfiles⟩ := of_decide_eq_true hcheck
  have hrun : HelperRun helperHost helperEvents w := tryEvents_run .nil hw
  obtain ⟨honce, hbegan, _⟩ := grants_are_one_time hrun helperEvents_free
  refine ⟨w, hrun, haccepted, hrejected, hfiles, hbegan _ ?_, honce "n1"⟩
  rw [haccepted]
  exact List.mem_singleton_self _

end Treasury
