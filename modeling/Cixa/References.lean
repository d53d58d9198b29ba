import Cixa.Redacted
import Cixa.Workflow
import Cixa.Canonical

/-! # References — every stored provider reference passes its check

    A text of word characters is matched as a whole or not at all, and what
    the broker makes itself does not begin as a card number or a phrase does.
    So the fallback of a reference and the drawn ones pass the check, for ANY
    digest and any draw, and the workflow stores nothing else. -/

namespace Treasury

open Regex Chars CixaData CixaHost UrlHost Outcome Transition

variable {host : Host} {w w' : World}

/-! ## Texts of word characters -/

/-- A text of word characters is clean when it does not begin as a card number
    or a phrase does. -/
theorem clean_of_words {isWord : Char → Bool} (hw : WordChars isWord)
    {x y : Char} {rest : List Char}
    (hwords : ∀ c ∈ x :: y :: rest, isWord c = true)
    (hx : isAsciiDigit x = false) (hbegins : ¬Begins x y) :
    Clean isWord (x :: y :: rest) := by
  have hwhole : ∀ {u v m : List Char} {d : Cursor}, x :: y :: rest = u ++ v →
      Shaped isWord (lastOf none u) m d.input → u = [] := by
    intro u v m d heq hshape
    rcases List.eq_nil_or_concat u with rfl | ⟨u', z, rfl⟩
    · rfl
    · have hz : isWord z = true := hwords z (by rw [heq]; simp)
      have hstart := hshape.start
      rw [List.concat_eq_append, lastOf_append] at hstart
      exact absurd hz (Bool.eq_false_iff.mp hstart)
  constructor
  · intro u v heq _ d hd
    rw [List.append_nil] at hd
    obtain ⟨m, hread, hshape, hcard, _⟩ := pan_shaped hw hd
    obtain rfl := hwhole heq hshape
    obtain ⟨z, m', rfl, _⟩ := hshape.head
    obtain ⟨rfl, _⟩ := List.cons.inj (heq.trans hread.1)
    rcases hcard x List.mem_cons_self with h | h
    · rw [hx] at h
      cases h
    · have hsep := hw.sep h
      rw [hwords x List.mem_cons_self] at hsep
      cases hsep
  · intro u v heq _ d hd
    rw [List.append_nil] at hd
    obtain ⟨kept, gap, code, hread, hshape, hphrase, _⟩ := cvv_shaped hw hd
    obtain rfl := hwhole heq hshape
    obtain ⟨x', y', m', rfl, hbegin⟩ := hphrase.begins
    obtain ⟨rfl, htail⟩ := List.cons.inj (heq.trans hread.1)
    obtain ⟨rfl, _⟩ := List.cons.inj htail
    exact hbegins hbegin

/-- A character of the references that the broker makes. -/
def isPlain (c : Char) : Bool := isAsciiAlphanumeric c || c == '_'

theorem isPlain_ascii {c : Char} (h : isPlain c = true) : IsAscii c := by
  have hle : ∀ {b : Char}, b.val ≤ 122 → c ≤ b → IsAscii c := fun hb hc =>
    UInt32.lt_of_le_of_lt (UInt32.le_trans hc hb) (by decide)
  unfold isPlain isAsciiAlphanumeric at h
  rw [Bool.or_eq_true, Bool.or_eq_true, Bool.or_eq_true, beq_iff_eq] at h
  rcases h with ((h | h) | h) | rfl
  · exact isAscii_digit h
  · exact hle (by decide) (of_decide_eq_true (Bool.and_eq_true_iff.mp h).2)
  · exact hle (by decide) (of_decide_eq_true (Bool.and_eq_true_iff.mp h).2)
  · decide

theorem hexChars_plainChars {bytes : List UInt8} :
    ∀ c ∈ hexChars bytes, isPlain c = true := by
  intro c hc
  obtain ⟨b, _, hmem⟩ := List.mem_flatMap.mp hc
  have hb := b.toNat_lt
  have hdigit : ∀ n < 16, isPlain (hexDigit n) = true := by decide
  rcases List.mem_cons.mp hmem with rfl | hmem
  · exact hdigit _ (by omega)
  · rw [List.mem_singleton.mp hmem]
    exact hdigit _ (by omega)

/-- A made reference passes the check. -/
theorem validates_plain (hw : WordChars host.isWord) {t : String} {x y : Char}
    {rest : List Char} (ht : t.toList = x :: y :: rest)
    (hplain : ∀ c ∈ t.toList, isPlain c = true) (hlength : t.toList.length ≤ 128)
    (hx : isAsciiDigit x = false) (hbegins : ¬Begins x y) :
    validateProviderReference host t = .ok t := by
  have hfacts : ∀ c, isPlain c = true → host.isWord c = true
      ∧ isControl c = false ∧ (isAsciiAlphanumeric c || c == '_' || c == '-'
        || c == '.') = true := by
    intro c hc
    have hascii := isPlain_ascii hc
    refine ⟨(hw.ascii c hascii).trans hc, ?_⟩
    exact hascii.cases (P := fun c => isPlain c = true → isControl c = false
      ∧ (isAsciiAlphanumeric c || c == '_' || c == '-' || c == '.') = true)
      (by decide) hc
  have hclean : Clean host.isWord t.toList := by
    rw [ht]
    refine clean_of_words hw (fun c hc => (hfacts c (hplain c ?_)).1) hx hbegins
    rw [ht]
    exact hc
  refine validateProviderReference_ok.mpr ⟨rfl, hclean.same hw, bounded_ok.mpr
    ⟨?_, hlength, ?_⟩, List.all_eq_true.mpr fun c hc => (hfacts c (hplain c hc)).2.2⟩
  · rw [ht]
    exact List.cons_ne_nil _ _
  · refine List.any_eq_false.mpr fun c hc => ?_
    rw [(hfacts c (hplain c hc)).2.1]
    exact Bool.false_ne_true

/-- A name and hexadecimal digits. -/
theorem validates_made (hw : WordChars host.isWord) {t : String} {x y : Char}
    {name hex : List Char} (ht : t.toList = (x :: y :: name) ++ hex)
    (hname : (x :: y :: name).all isPlain = true)
    (hhex : ∀ c ∈ hex, isPlain c = true)
    (hlength : (x :: y :: name).length + hex.length ≤ 128)
    (hx : isAsciiDigit x = false) (hbegins : ¬Begins x y) :
    validateProviderReference host t = .ok t := by
  refine validates_plain hw ht (fun c hc => ?_) ?_ hx hbegins
  · rw [ht] at hc
    exact (List.mem_append.mp hc).elim (List.all_eq_true.mp hname c) (hhex c)
  · rw [ht, List.length_append]
    exact hlength

instance (x y : Char) : Decidable (Begins x y) :=
  inferInstanceAs (Decidable (_ ∨ _))

/-- A drawn reference. -/
theorem idOfDraw_validates (hw : WordChars host.isWord) {kind : String}
    {x y : Char} {name : List Char} (n : Nat)
    (hkind : (kind ++ "_").toList = x :: y :: name)
    (hname : (x :: y :: name).all isPlain = true)
    (hlength : (x :: y :: name).length ≤ 104) (hx : isAsciiDigit x = false)
    (hbegins : ¬Begins x y) : validateProviderReference host
      (idOfDraw host kind n) = .ok (idOfDraw host kind n) := by
  have ht : (idOfDraw host kind n).toList
      = (x :: y :: name) ++ hexChars (host.random n 12) := by
    unfold idOfDraw hexEncode
    rw [String.toList_append, hkind, String.toList_ofList]
  refine validates_made hw ht hname hexChars_plainChars ?_ hx hbegins
  rw [hexChars_length, host.random_length]
  omega

/-- The fallback of a reference, for any digest. -/
theorem fallback_validates (hw : WordChars host.isWord) (bytes : List UInt8) :
    validateProviderReference host ("provider_ref_" ++ digestOf host bytes 24)
      = .ok ("provider_ref_" ++ digestOf host bytes 24) := by
  have hdigest : (digestOf host bytes 24).toList
      = (hexChars (host.sha256 bytes)).take 24 := by
    unfold digestOf hexEncode
    rw [String.toList_ofList, String.toList_ofList]
  have ht : ("provider_ref_" ++ digestOf host bytes 24).toList
      = ('p' :: 'r' :: "ovider_ref_".toList)
        ++ (hexChars (host.sha256 bytes)).take 24 := by
    rw [String.toList_append, hdigest]
    rfl
  refine validates_made hw ht (by decide)
    (fun c hc => hexChars_plainChars c (List.mem_of_mem_take hc)) ?_ (by decide)
    (by decide)
  have hle := List.length_take_le 24 (hexChars (host.sha256 bytes))
  have hname : ('p' :: 'r' :: "ovider_ref_".toList).length = 13 := by decide
  omega

/-- **THE SANITIZED** passes the check, as it is. -/
theorem sanitizeProviderReference_validates (hw : WordChars host.isWord)
    (r : String) : validateProviderReference host
      (sanitizeProviderReference host r) = .ok (sanitizeProviderReference host r) := by
  unfold sanitizeProviderReference
  cases h : validateProviderReference host r with
  | ok t =>
      obtain ⟨rfl, _⟩ := validateProviderReference_ok.mp h
      exact h
  | error _ => exact fallback_validates hw _

/-- What passes the check is not changed. -/
theorem sanitizeProviderReference_same {r : String}
    (h : validateProviderReference host r = .ok r) :
    sanitizeProviderReference host r = r := by
  unfold sanitizeProviderReference
  rw [h]

/-- Every reference that the broker makes or checks passes. -/
theorem validates_issues (hw : WordChars host.isWord) :
    Issues host (fun r => validateProviderReference host r = .ok r) where
  sanitized := sanitizeProviderReference_validates hw
  charged n := by
    have hkind : ("sim_charge" ++ "_").toList = 's' :: 'i' :: "m_charge_".toList :=
      rfl
    exact idOfDraw_validates hw n hkind (by decide) (by decide) (by decide)
      (by decide)
  reconciled n := by
    have hkind : ("reconciled" ++ "_").toList = 'r' :: 'e' :: "conciled_".toList :=
      rfl
    exact idOfDraw_validates hw n hkind (by decide) (by decide) (by decide)
      (by decide)
  given r t h := by
    obtain ⟨rfl, _⟩ := validateProviderReference_ok.mp h
    exact h

/-! ## Changes that write no reference -/

/-- Anything but an outcome, a submission or a reconciliation. -/
def Unreferring : Label → Prop
  | .conclude _ _ => False
  | .authorize _ => False
  | .reconcile _ _ => False
  | _ => True

theorem aside_true : Aside (fun _ => True) :=
  ⟨fun _ _ _ => trivial, fun _ _ _ _ => trivial, fun _ _ _ _ => trivial,
    fun _ _ _ _ => trivial⟩

variable {V : String → Prop}

/-- Intents and charges that satisfy a condition. -/
abbrev AllRefer (V : String → Prop) (s : TreasuryState) : Prop :=
  Referenced V (fun _ => True) s

theorem AllRefer.same {s t : TreasuryState} (h : AllRefer V s)
    (hi : t.intents = s.intents) (hc : t.provider.charges = s.provider.charges) :
    AllRefer V t where
  intents := by
    rw [hi]
    exact h.intents
  charges := by
    rw [hc]
    exact h.charges
  aside := trivial

theorem NewIntent.refers {i : PurchaseIntent} (h : NewIntent host w w' i) :
    Refers V i where
  reference := by
    rw [h.providerReference]
    exact nofun
  receipt := by
    rw [h.receipt]
    exact nofun

theorem Credited.charges {a b : World} {amount : Money} {verified : Bool}
    {s t : TreasuryState} (h : Credited host a b amount verified s t) :
    t.provider.charges = s.provider.charges := by
  cases h with
  | unverified => rfl
  | simulated _ _ => rfl
  | manual _ _ _ _ _ => rfl

theorem Change.allRefer {l : Label} (h : Change host l w w')
    (hl : Unreferring l) (hw : AllRefer V w.state) : AllRefer V w'.state := by
  cases h with
  | quiet h =>
      rw [h.state]
      exact hw
  | addIntent _ hn _ hs _ =>
      rw [hs]
      refine Referenced.withIntent aside_true ?_ hn.refers
      exact hw.same rfl rfl
  | reserve _ hi _ _ _ _ hs _ =>
      obtain ⟨hreference, hreceipt⟩ := hw.intents _ _ hi
      rw [hs]
      refine Referenced.withIntent aside_true ?_ ⟨hreference, hreceipt⟩
      exact hw.same rfl rfl
  | move _ hi _ _ hs _ =>
      obtain ⟨hreference, hreceipt⟩ := hw.intents _ _ hi
      rw [hs]
      exact Referenced.withIntent aside_true hw ⟨hreference, hreceipt⟩
  | conclude _ _ _ _ _ _ _ => exact hl.elim
  | authorize _ _ _ _ _ _ _ _ => exact hl.elim
  | reconcile _ _ _ _ _ _ => exact hl.elim
  | deposit _ _ _ hc _ _ hs _ =>
      obtain ⟨_, _, heq⟩ := hc.fields
      refine hw.same ?_ ?_
      · rw [hs, heq]
        rfl
      · rw [hs]
        exact hc.charges
  | writeKey _ hs _ _ =>
      rw [hs]
      exact hw
  | writeState _ hs _ _ _ =>
      rw [hs]
      exact hw
  | submit _ hs _ _ _ =>
      rw [hs]
      exact hw
  | _ =>
      rename_i hs _
      rw [hs]
      exact hw.same rfl rfl

theorem Path.allRefer {allowed : Label → Prop} (h : Path host allowed w w')
    (hl : ∀ l, allowed l → Unreferring l) (hw : AllRefer V w.state) :
    AllRefer V w'.state :=
  h.invariant (I := fun v : World => AllRefer V v.state)
    (fun _ _ _ ha hc hv => hc.allRefer (hl _ ha) hv) (fun _ _ _ ha _ => ha) hw

/-- Only a reconciliation may write a reference outside of an execution. -/
theorem permits_unreferring {actor : Actor} {request : Request} {l : Label}
    (h : permits actor request l)
    (hr : ∀ id outcome r, request ≠ .ownerReconcile id outcome r) :
    Unreferring l := by
  cases l with
  | conclude id next => cases request <;> exact h.elim
  | authorize id => cases request <;> exact h.elim
  | reconcile id outcome =>
      cases request with
      | ownerReconcile id' outcome' r => exact absurd rfl (hr _ _ _)
      | _ => exact h.elim
  | _ => trivial

/-- **ANY CALL** leaves references that satisfy the condition. -/
theorem exec_allRefer (hv : Issues host V) (h : Workable w.state) (c : Call)
    (hw : AllRefer V w.state) : AllRefer V (exec host c w).state := by
  have hbeh : Behaves host w _ c := exec_behaves h c
  cases hbeh with
  | attempt hid _ => exact exec_guards aside_true hv hid hw
  | recovery hr =>
      refine hr.path.allRefer (fun l hl => ?_) hw
      cases l with
      | conclude _ _ => exact hl
      | authorize _ => exact hl
      | reconcile _ _ => exact hl
      | _ => trivial
  | ordinary hasks hx ho =>
      have hsaving : ∀ l, Saving l → Unreferring l := by
        intro l hl
        cases l with
        | conclude _ _ => exact hl
        | authorize _ => exact hl
        | reconcile _ _ => exact hl
        | _ => trivial
      cases ho with
      | refused hp => exact hp.allRefer hsaving hw
      | served _ hp =>
          rename_i token request actor _
          by_cases hr : ∃ id outcome r, request = .ownerReconcile id outcome r
          · obtain ⟨id, outcome, r, rfl⟩ := hr
            have hguards : Keeping (Referenced V fun _ => True)
                (handle host token (.ownerReconcile id outcome r)) :=
              .next (authenticate_guards token) fun actor =>
                ownerReconcile_guards aside_true hv actor id outcome r
            refine exec_leaves (P := AllRefer V) hasks rfl hw ?_
            exact wp_mono (hguards w hw) (fun _ _ h => h.1) (fun _ _ h => h)
          · refine hp.allRefer (fun l hl => hl.elim (fun hl => ?_) (hsaving l)) hw
            exact permits_unreferring hl fun id outcome r heq =>
              hr ⟨id, outcome, r, heq⟩

/-! ## The theorem -/

theorem Started.allRefer {balance : Money} {token : String}
    (h : Started host balance token w) : AllRefer V w.state := by
  obtain ⟨owner, _, _, _, _, _, _, _, hs⟩ := h.state
  have hempty : AllRefer V (initialState owner balance) :=
    ⟨fun _ _ hi => (nomatch hi), fun _ _ hc => (nomatch hc), trivial⟩
  rw [hs]
  exact hempty.same rfl rfl

/-- **EVERY REFERENCE IS VALID**: what is sanitized passes the check and is not
    changed by sanitizing again, and in every reachable state so are the
    references of all intents and receipts. -/
theorem references_validate {owner : String} {w0 : World} {cs : List Call}
    (hw : WordChars host.isWord) (hrun : TreasuryRun host owner w0 cs w) :
    (∀ r, validateProviderReference host (sanitizeProviderReference host r)
          = .ok (sanitizeProviderReference host r)
        ∧ sanitizeProviderReference host (sanitizeProviderReference host r)
          = sanitizeProviderReference host r)
      ∧ ∀ id i, w.state.intents.get? id = some i →
        (∀ r, i.providerReference = some r →
            validateProviderReference host r = .ok r)
          ∧ ∀ rc, i.receipt = some rc → ∀ r, rc.providerReference = some r →
            validateProviderReference host r = .ok r := by
  refine ⟨fun r => ?_, fun id i hi => ?_⟩
  · have hvalid := sanitizeProviderReference_validates hw r
    exact ⟨hvalid, sanitizeProviderReference_same hvalid⟩
  · obtain ⟨balance, hs⟩ := hrun.balance
    have hall : AllRefer (fun r => validateProviderReference host r = .ok r)
        w.state := by
      refine (Run.invariant hrun.calls (I := fun v => Kept v.state ∧ Fits v
        ∧ AllRefer _ v.state) ⟨hs.kept, hs.fits, hs.allRefer⟩ ?_).2.2
      rintro c v ⟨hk, hf, hv⟩ hfit
      have hwork := hk.workable hf
      have hbeh : Behaves host v _ c := exec_behaves hwork c
      exact ⟨hbeh.path.kept hk, hfit,
        exec_allRefer (validates_issues hw) hwork c hv⟩
    obtain ⟨hreference, hreceipt⟩ := hall.intents id i hi
    exact ⟨hreference, hreceipt⟩

/-- The reference of a purchase that is executed and settled is valid. -/
theorem references_validate_settled :
    ∃ owner w0 w i r, TreasuryRun wordHost owner w0
        (opening smallPurchase owner ++ [.request agentToken
          (.executePurchaseIntent (firstIntent wordHost))]) w
      ∧ w.state.intents.get? (firstIntent wordHost) = some i
      ∧ i.providerReference = some r
      ∧ validateProviderReference wordHost r = .ok r := by
  have hrun : tryRun wordHost ⟨100000, "CAD"⟩
      (fun owner => opening smallPurchase owner ++ [.request agentToken
        (.executePurchaseIntent (firstIntent wordHost))])
      (fun w => (w.state.intents.get? (firstIntent wordHost)).any
        (fun i => i.providerReference.isSome)) = true := by
    decide +kernel
  obtain ⟨owner, w0, w, hrun, hcheck⟩ := tryRun_run hrun
  obtain ⟨i, hi, hsome⟩ := (Option.any_eq_true _ _).mp hcheck
  obtain ⟨r, hr⟩ := Option.isSome_iff_exists.mp hsome
  obtain ⟨_, hvalid⟩ := references_validate wordHost_words hrun
  exact ⟨owner, w0, w, i, r, hrun, hi, hr, (hvalid _ i hi).1 r hr⟩

end Treasury
