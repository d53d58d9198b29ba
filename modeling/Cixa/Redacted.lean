import Cixa.Masking
import Cixa.Runs

/-! # Redacted text — what no longer matches, and what gets through

    Redaction runs two masks one after the other.  A block of the output stood
    in the input between the same two characters, so what matches nowhere in
    the input matches nowhere in the output, and neither pattern matches after
    both passes.  A card number gets through exactly where a run of digits
    that holds it touches a word character or is longer than a card number. -/

namespace Treasury

open Regex Chars CixaData CixaHost UrlHost Checks

variable {host : Host} {isWord : Char → Bool} {r r' : Regex}
  {replacement replacement' : Cursor → List Char}

/-! ## One pass -/

/-- What matches nowhere before, and what was replaced, matches nowhere
    after. -/
theorem Masks.leaves (hw : WordChars isWord) (h : Masks isWord r replacement)
    (h' : Masks isWord r' replacement') {b : Option Char}
    {text out : List Char} (hcut : Cut isWord r replacement b text out)
    (hclean : r' = r ∨ Unmatched isWord r' b text []) :
    Unmatched isWord r' b out [] := by
  intro u v heq _ d hd
  rw [List.append_nil] at hd
  obtain ⟨m, _, _, hread, hshape, _⟩ := h'.shaped hd
  have hv : v = m ++ d.input := hread.1
  obtain ⟨u', v', htext, hlast, hnext, hno⟩ :=
    h.back hw hcut (Or.inl rfl) hshape.toBlock (by rw [heq, hv])
  obtain ⟨d', hd', _⟩ := Steps.movable h'.proper _ _
    ⟨lastOf b u', m ++ v', []⟩ m v' hd hread
    ⟨rfl, congrArg (Option.any isWord) hlast, congrArg (Option.any isWord) hnext⟩
  rcases hclean with rfl | hclean
  · exact hno d' hd'
  · have hne := List.append_ne_nil_of_left_ne_nil hshape.nonempty v'
    refine hclean u' (m ++ v') htext hne d' ?_
    rwa [List.append_nil]

/-! ## Both passes -/

/-- Replacing in a whole text cuts it. -/
theorem Masks.cuts (h : Masks isWord r replacement) (s : String) :
    Cut isWord r replacement none s.toList
      (replaceAll isWord r replacement s).toList := by
  unfold replaceAll
  rw [String.toList_ofList]
  exact replaceFrom_cut h.reads (le_refl _)

theorem redactSensitive_cuts (hw : WordChars host.isWord) (s : String) :
    ∃ mid, Cut host.isWord panPattern (fun _ => "[REDACTED_PAN]".toList) none
        s.toList mid
      ∧ Cut host.isWord cvvPattern (fun c => c.groupText 1 ++ c.groupText 2
        ++ "[REDACTED_CVV]".toList) none mid (redactSensitive host s).toList :=
  ⟨_, (panMasks hw).cuts s, (cvvMasks hw).cuts _⟩

/-- Neither pattern matches anywhere. -/
def Clean (isWord : Char → Bool) (text : List Char) : Prop :=
  Unmatched isWord panPattern none text []
    ∧ Unmatched isWord cvvPattern none text []

theorem redactSensitive_clean (hw : WordChars host.isWord) (s : String) :
    Clean host.isWord (redactSensitive host s).toList := by
  obtain ⟨mid, hpan, hcvv⟩ := redactSensitive_cuts hw s
  have hmid := (panMasks hw).leaves hw (panMasks hw) hpan (Or.inl rfl)
  exact ⟨(cvvMasks hw).leaves hw (panMasks hw) hcvv (Or.inr hmid),
    (cvvMasks hw).leaves hw (cvvMasks hw) hcvv (Or.inl rfl)⟩

/-- Clean text stays. -/
theorem Clean.same (hw : WordChars host.isWord) {s : String}
    (h : Clean host.isWord s.toList) : redactSensitive host s = s := by
  obtain ⟨mid, hpan, hcvv⟩ := redactSensitive_cuts hw s
  have hmid : mid = s.toList := hpan.same h.1 (panMasks hw).reads
  rw [hmid] at hcvv
  have hout : (redactSensitive host s).toList = s.toList :=
    hcvv.same h.2 (cvvMasks hw).reads
  exact String.toList_inj.mp hout

/-- No match is found anywhere. -/
theorem Clean.finds (hw : WordChars isWord) {text u v : List Char}
    (h : Clean isWord text) (heq : text = u ++ v) :
    matchAt isWord panPattern (lastOf none u) v = none
      ∧ matchAt isWord cvvPattern (lastOf none u) v = none := by
  have hnone : ∀ {r : Regex} {replacement : Cursor → List Char},
      Masks isWord r replacement → Unmatched isWord r none text [] →
      matchAt isWord r (lastOf none u) v = none := by
    intro r replacement hmask hclean
    refine matchAt_eq_none fun d hd => ?_
    obtain ⟨m, _, _, hread, hshape, _⟩ := hmask.shaped hd
    have hv : v = m ++ d.input := hread.1
    have hne : v ≠ [] := by
      rw [hv]
      exact List.append_ne_nil_of_left_ne_nil hshape.nonempty _
    refine hclean u v heq hne d ?_
    rwa [List.append_nil]
  exact ⟨hnone (panMasks hw) h.1, hnone (cvvMasks hw) h.2⟩

/-- Redacting twice is redacting once. -/
theorem redactSensitive_again (hw : WordChars host.isWord) (s : String) :
    redactSensitive host (redactSensitive host s) = redactSensitive host s :=
  (redactSensitive_clean hw s).same hw

mutual

theorem redactJsonValue_again (hw : WordChars host.isWord) : ∀ j : Json,
    redactJsonValue host (redactJsonValue host j) = redactJsonValue host j
  | .null => rfl
  | .bool _ => rfl
  | .num _ => rfl
  | .str s => congrArg Json.str (redactSensitive_again hw s)
  | .arr items => congrArg Json.arr (redactJsonItems_again hw items)
  | .obj fields => congrArg Json.obj (redactJsonFields_again hw fields)

theorem redactJsonItems_again (hw : WordChars host.isWord) : ∀ items : List Json,
    redactJsonItems host (redactJsonItems host items)
      = redactJsonItems host items
  | [] => rfl
  | j :: rest => congrArg₂ List.cons (redactJsonValue_again hw j)
      (redactJsonItems_again hw rest)

theorem redactJsonFields_again (hw : WordChars host.isWord) :
    ∀ fields : List (String × Json),
      redactJsonFields host (redactJsonFields host fields)
        = redactJsonFields host fields
  | [] => rfl
  | (k, j) :: rest => congrArg₂ List.cons
      (congrArg (Prod.mk k) (redactJsonValue_again hw j))
      (redactJsonFields_again hw rest)

end

/-! ## References -/

/-- What a reference must be besides free of payment data. -/
def WellSpelled (text : String) : Prop :=
  bounded text "provider_reference" 128 = .ok ⟨⟩
    ∧ text.toList.all (fun c => isAsciiAlphanumeric c || c == '_' || c == '-'
      || c == '.') = true

/-- A reference passes as it is, if it is well spelled and redaction keeps
    it. -/
theorem validateProviderReference_ok {s t : String} :
    validateProviderReference host s = .ok t
      ↔ s = t ∧ redactSensitive host s = s ∧ WellSpelled s := by
  unfold validateProviderReference WellSpelled
  simp only [bind_eq_ok, refuseIf_eq_ok, pure_eq_ok, not_not, Bool.not_eq_false]
  constructor
  · rintro ⟨⟨⟩, hbound, _, hkept, _, hchars, heq⟩
    exact ⟨heq, hkept, hbound, hchars⟩
  · rintro ⟨heq, hkept, hbound, hchars⟩
    exact ⟨⟨⟩, hbound, ⟨⟩, hkept, ⟨⟩, hchars, heq⟩

/-- Text that redaction keeps is not refused as payment data. -/
theorem validateProviderReference_kept {s : String}
    (h : redactSensitive host s = s) :
    FailsWith (fun e => e ≠ TreasuryError.invalid
        "provider reference appears to contain payment data")
      (validateProviderReference host s) := by
  have hbounded : FailsWith (fun e => e ≠ TreasuryError.invalid
      "provider reference appears to contain payment data")
      (bounded s "provider_reference" 128) := by
    refine .bind (.refuseIf fun _ => ?_) fun _ _ => .refuseIf fun _ => ?_
    · decide +kernel
    · decide +kernel
  refine .bind hbounded fun _ _ => .bind (.refuseIf fun hne => absurd h hne)
    fun _ _ => .bind (.refuseIf fun _ => ?_) fun _ _ => .pure s
  decide +kernel

/-- **ONE PASS SETTLES**: after redaction neither pattern matches anywhere,
    redacting again changes nothing, in a text and in a JSON value, and a
    reference is refused only for its length or its characters. -/
theorem redaction_settles (hw : WordChars host.isWord) (s : String) (j : Json) :
    (∀ u v, (redactSensitive host s).toList = u ++ v →
        matchAt host.isWord panPattern (lastOf none u) v = none
          ∧ matchAt host.isWord cvvPattern (lastOf none u) v = none)
      ∧ redactSensitive host (redactSensitive host s) = redactSensitive host s
      ∧ redactJsonValue host (redactJsonValue host j) = redactJsonValue host j
      ∧ (validateProviderReference host (redactSensitive host s)
          = .ok (redactSensitive host s)
        ↔ WellSpelled (redactSensitive host s))
      ∧ validateProviderReference host (redactSensitive host s) ≠ .error
        (.invalid "provider reference appears to contain payment data") := by
  have hagain := redactSensitive_again hw s
  refine ⟨fun _ _ => (redactSensitive_clean hw s).finds hw, hagain,
    redactJsonValue_again hw j, ?_, fun he => ?_⟩
  · rw [validateProviderReference_ok]
    exact ⟨fun h => h.2.2, fun h => ⟨rfl, hagain, h⟩⟩
  · exact validateProviderReference_kept hagain _ he rfl

/-- The plain host with the long s as a word character. -/
def wordHost : Host :=
  { stillHost with
    isWord := fun c => isAsciiAlphanumeric c || c == '_'
      || c == Char.ofNat 0x17f }

theorem wordHost_words : WordChars wordHost.isWord where
  ascii c hc := hc.cases (P := fun c =>
    wordHost.isWord c = (isAsciiAlphanumeric c || c == '_')) (by decide +kernel)
  long := by decide +kernel

/-- A text with a card number in it settles. -/
theorem redaction_settles_card :
    redactSensitive wordHost "card 4111111111111111 cvv: 123"
        = "card [REDACTED_PAN] cvv: [REDACTED_CVV]"
      ∧ redactSensitive wordHost (redactSensitive wordHost
          "card 4111111111111111 cvv: 123")
        = redactSensitive wordHost "card 4111111111111111 cvv: 123" :=
  ⟨by decide +kernel, (redaction_settles wordHost_words
    "card 4111111111111111 cvv: 123" .null).2.1⟩

/-- **THE NOTE IS REFUSED**: a redacted card number is free of payment data,
    and no reference may have its brackets. -/
theorem redacted_refused :
    redactSensitive wordHost "4111111111111111" = "[REDACTED_PAN]"
      ∧ validateProviderReference wordHost
          (redactSensitive wordHost "4111111111111111")
        = .error (.invalid
          "provider reference contains unsupported characters") := by
  decide +kernel

end Treasury
