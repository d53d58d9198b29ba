import Mathlib.Tactic.Common
import Std.Data.String.ToInt
import Cixa.Json

/-! # The text of a document — one text, one document

    The compact text of a document determines the document: `render` is
    INJECTIVE.  Inside a longer text a document ends where its own text says,
    except that a number goes on as long as there are digits; so the
    statement is about what follows: a comma, a closing bracket, a closing
    brace, or nothing. -/

namespace Json

open Chars

/-! ## Strings -/

/-- How many bytes the escape at the start of a text has. -/
def escapeLength : List UInt8 → Nat
  | 92 :: 117 :: _ => 6
  | 92 :: _ => 2
  | _ => 1

/-- The byte that an escape stands for. -/
def unescape : List UInt8 → UInt8
  | [92, 110] => 10
  | [92, 114] => 13
  | [92, 116] => 9
  | [92, 98] => 8
  | [92, 102] => 12
  | [92, b] => b
  | [92, 117, 48, 48, high, low] =>
      (high - 48) * 16 + (if low < 58 then low - 48 else low - 87)
  | [b] => b
  | _ => 0

theorem unescape_escapeByte (b : UInt8) : unescape (escapeByte b) = b := by
  have h : ∀ n : Fin 256, unescape (escapeByte (UInt8.ofNat n.val))
      = UInt8.ofNat n.val := by decide +kernel
  have hb := h ⟨b.toNat, b.toNat_lt⟩
  rwa [UInt8.ofNat_toNat] at hb

theorem escapeByte_length (b : UInt8) (rest : List UInt8) :
    escapeLength (escapeByte b ++ rest) = (escapeByte b).length := by
  unfold escapeByte
  by_cases hquoted : b.toNat = 34 ∨ b.toNat = 92
  · -- a backslash before a quote or a backslash
    rw [if_pos hquoted]
    have hne : b ≠ 117 := by
      rintro rfl
      revert hquoted
      decide
    show escapeLength (92 :: b :: rest) = 2
    unfold escapeLength
    split
    · rename_i heq
      injection heq with _ htail
      exact absurd (List.cons.inj htail).1 hne
    · rfl
    · rename_i h
      exact absurd rfl (h _)
  rw [if_neg hquoted]
  by_cases hplain : 32 ≤ b.toNat
  · rw [if_pos hplain]
    have hne : b ≠ 92 := by
      rintro rfl
      revert hquoted
      decide
    show escapeLength (b :: rest) = 1
    unfold escapeLength
    split
    · rename_i heq
      exact absurd (List.cons.inj heq).1 hne
    · rename_i heq
      exact absurd (List.cons.inj heq).1 hne
    · rfl
  rw [if_neg hplain]
  split_ifs <;> rfl

/-- No escape starts with a quote. -/
theorem escapeByte_ne {b : UInt8} {xs ys : List UInt8} :
    escapeByte b ++ xs ≠ 34 :: ys := by
  intro h
  have hhead : ∀ n : Fin 256,
      (escapeByte (UInt8.ofNat n.val)).head? ≠ some 34
        ∧ escapeByte (UInt8.ofNat n.val) ≠ [] := by decide +kernel
  obtain ⟨hb, hnil⟩ := hhead ⟨b.toNat, b.toNat_lt⟩
  rw [UInt8.ofNat_toNat] at hb hnil
  cases hcode : escapeByte b with
  | nil => exact hnil hcode
  | cons c cs =>
      rw [hcode] at h hb
      exact hb (congrArg some (List.cons.inj h).1)

/-- A text ends at its first quote that is not escaped. -/
theorem escaped_next {bs cs : List UInt8} {r r' : List UInt8}
    (h : bs.flatMap escapeByte ++ 34 :: r = cs.flatMap escapeByte ++ 34 :: r') :
    bs = cs ∧ r = r' := by
  induction bs generalizing cs with
  | nil =>
      cases cs with
      | nil => exact ⟨rfl, (List.cons.inj h).2⟩
      | cons c cs =>
          rw [List.flatMap_cons, List.append_assoc] at h
          exact absurd h.symm escapeByte_ne
  | cons b bs ih =>
      cases cs with
      | nil =>
          rw [List.flatMap_cons, List.append_assoc] at h
          exact absurd h escapeByte_ne
      | cons c cs =>
          rw [List.flatMap_cons, List.flatMap_cons, List.append_assoc,
            List.append_assoc] at h
          have hlength : (escapeByte b).length = (escapeByte c).length := by
            rw [← escapeByte_length b, ← escapeByte_length c, h]
          obtain ⟨hcode, hrest⟩ := List.append_inj h hlength
          have hbyte := congrArg unescape hcode
          rw [unescape_escapeByte, unescape_escapeByte] at hbyte
          obtain ⟨hbytes, hr⟩ := ih hrest
          exact ⟨by rw [hbyte, hbytes], hr⟩

theorem quote_next {s t : String} {r r' : List UInt8}
    (h : quote s ++ r = quote t ++ r') : s = t ∧ r = r' := by
  have htail : (utf8Bytes s).flatMap escapeByte ++ [34] ++ r
      = (utf8Bytes t).flatMap escapeByte ++ [34] ++ r' := (List.cons.inj h).2
  rw [List.append_assoc, List.append_assoc] at htail
  obtain ⟨hbytes, hr⟩ := escaped_next htail
  exact ⟨utf8Bytes_inj hbytes, hr⟩

/-! ## Numbers -/

/-- The bytes of a number: digits, after a sign. -/
def isNumeric (b : UInt8) : Bool := b == 45 || (48 ≤ b && b ≤ 57)

theorem utf8Bytes_digits {cs : List Char} (h : ∀ c ∈ cs, c.isDigit = true)
    {b : UInt8} (hb : b ∈ utf8Bytes (String.ofList cs)) : isNumeric b = true := by
  rw [utf8Bytes_ofList] at hb
  obtain ⟨c, hc, hbc⟩ := List.mem_flatMap.mp hb
  have hdigit := h c hc
  have hall : ∀ k : Fin 58, (Char.ofNat k.val).isDigit = true →
      ∀ b ∈ String.utf8EncodeChar (Char.ofNat k.val), isNumeric b = true := by
    decide +kernel
  have hlt : c.toNat < 58 := by
    have hle : c.toNat ≤ 57 := (Char.isDigit_iff_toNat.mp hdigit).2
    omega
  have hc := hall ⟨c.toNat, hlt⟩
  rw [Char.ofNat_toNat] at hc
  exact hc hdigit b hbc

theorem repr_numeric (n : Nat) : ∀ b ∈ utf8Bytes (Nat.repr n),
    isNumeric b = true := by
  intro b hb
  refine @utf8Bytes_digits (Nat.toDigits 10 n) (fun c hc => ?_) b hb
  exact Nat.isDigit_of_mem_toDigits (by decide) (by decide) hc

theorem num_numeric (n : Int) : ∀ b ∈ render (.num n), isNumeric b = true := by
  intro b hb
  have hb' : b ∈ utf8Bytes (Int.repr n) := hb
  rw [Int.repr_eq_if] at hb'
  split at hb'
  · exact repr_numeric _ b hb'
  · rw [utf8Bytes_append, List.mem_append] at hb'
    rcases hb' with hsign | hdigits
    · have hminus : utf8Bytes "-" = [45] := by decide +kernel
      rw [hminus] at hsign
      rw [List.mem_singleton.mp hsign]
      rfl
    · exact repr_numeric _ b hdigits

/-- What may follow a document inside a document. -/
def Delimited (r : List UInt8) : Prop :=
  ∀ b ∈ r.head?, b = 44 ∨ b = 93 ∨ b = 125

theorem Delimited.takeWhile {xs r : List UInt8} (hr : Delimited r)
    (hx : ∀ b ∈ xs, isNumeric b = true) :
    (xs ++ r).takeWhile isNumeric = xs := by
  rw [List.takeWhile_append_of_pos hx]
  cases r with
  | nil => exact List.append_nil xs
  | cons b r =>
      have hb : isNumeric b = false := by
        rcases hr b rfl with rfl | rfl | rfl <;> rfl
      rw [List.takeWhile_cons, hb]
      exact List.append_nil xs

theorem num_next {m n : Int} {r r' : List UInt8} (hr : Delimited r)
    (hr' : Delimited r')
    (h : render (.num m) ++ r = render (.num n) ++ r') : m = n ∧ r = r' := by
  have hsame := congrArg (List.takeWhile isNumeric) h
  rw [hr.takeWhile (num_numeric m), hr'.takeWhile (num_numeric n)] at hsame
  rw [hsame] at h
  exact ⟨Int.repr_injective (utf8Bytes_inj hsame), List.append_cancel_left h⟩

/-! ## Documents -/

/-- The kind of document that a byte starts. -/
def kindOf (b : UInt8) : Nat :=
  if b = 110 then 0
  else if b = 116 then 1
  else if b = 102 then 2
  else if b = 34 then 3
  else if b = 91 then 4
  else if b = 123 then 5
  else if isNumeric b then 6 else 7

/-- The kind of a document. -/
def kind : Json → Nat
  | .null => 0
  | .bool true => 1
  | .bool false => 2
  | .str _ => 3
  | .arr _ => 4
  | .obj _ => 5
  | .num _ => 6

theorem kindOf_numeric {b : UInt8} (h : isNumeric b = true) : kindOf b = 6 := by
  have hall : ∀ n : Fin 256, isNumeric (UInt8.ofNat n.val) = true →
      kindOf (UInt8.ofNat n.val) = 6 := by decide +kernel
  have hb := hall ⟨b.toNat, b.toNat_lt⟩
  rw [UInt8.ofNat_toNat] at hb
  exact hb h

theorem num_nonempty (n : Int) : render (.num n) ≠ [] := by
  intro h
  have hempty : Int.repr n = "" := utf8Bytes_inj h
  have hone : Int.repr n ≠ "" := by
    rw [Int.repr_eq_if]
    split
    · exact Nat.repr_ne_empty
    · intro h'
      have hlength := congrArg String.length h'
      rw [String.length_append] at hlength
      have hminus : "-".length = 1 := rfl
      have hzero : "".length = 0 := rfl
      omega
  exact hone hempty

/-- The first byte says what kind of document follows. -/
theorem render_kind : ∀ j : Json, ∃ b rest, render j = b :: rest
    ∧ kindOf b = kind j
  | .null => ⟨110, _, rfl, rfl⟩
  | .bool true => ⟨116, _, rfl, rfl⟩
  | .bool false => ⟨102, _, rfl, rfl⟩
  | .str _ => ⟨34, _, rfl, rfl⟩
  | .arr _ => ⟨91, _, rfl, rfl⟩
  | .obj _ => ⟨123, _, rfl, rfl⟩
  | .num n => by
      cases hr : render (.num n) with
      | nil => exact absurd hr (num_nonempty n)
      | cons b rest =>
          refine ⟨b, rest, rfl, kindOf_numeric (num_numeric n b ?_)⟩
          rw [hr]
          exact List.mem_cons_self ..

theorem same_kind {j k : Json} {r r' : List UInt8}
    (h : render j ++ r = render k ++ r') : kind j = kind k := by
  obtain ⟨b, rest, hj, hb⟩ := render_kind j
  obtain ⟨c, rest', hk, hc⟩ := render_kind k
  rw [hj, hk] at h
  rw [← hb, ← hc, (List.cons.inj h).1]

/-- No document starts with a closing bracket or brace. -/
theorem render_ne {j : Json} {c : UInt8} {r r' : List UInt8} (hc : kindOf c = 7) :
    render j ++ r ≠ c :: r' := by
  intro h
  obtain ⟨b, rest, hj, hb⟩ := render_kind j
  rw [hj] at h
  rw [(List.cons.inj h).1, hc] at hb
  cases j with
  | bool v => cases v <;> exact nomatch hb
  | _ => exact nomatch hb

/-- What follows the first item of an array. -/
def afterItem (rest : List Json) (r : List UInt8) : List UInt8 :=
  match rest with
  | [] => 93 :: r
  | rest => 44 :: (renderItems rest ++ 93 :: r)

theorem renderItems_cons (j : Json) (rest : List Json) (r : List UInt8) :
    renderItems (j :: rest) ++ 93 :: r = render j ++ afterItem rest r := by
  cases rest with
  | nil => rfl
  | cons k rest =>
      show (render j ++ 44 :: renderItems (k :: rest)) ++ 93 :: r = _
      rw [List.append_assoc]
      rfl

theorem afterItem_delimited (rest : List Json) (r : List UInt8) :
    Delimited (afterItem rest r) := by
  intro b hb
  cases rest with
  | nil => exact Or.inr (Or.inl (Option.some.inj hb).symm)
  | cons _ _ => exact Or.inl (Option.some.inj hb).symm

/-- What follows the first field of an object. -/
def afterField (rest : List (String × Json)) (r : List UInt8) : List UInt8 :=
  match rest with
  | [] => 125 :: r
  | rest => 44 :: (renderFields rest ++ 125 :: r)

theorem renderFields_cons (k : String) (j : Json) (rest : List (String × Json))
    (r : List UInt8) : renderFields ((k, j) :: rest) ++ 125 :: r
      = quote k ++ 58 :: (render j ++ afterField rest r) := by
  cases rest with
  | nil =>
      show (quote k ++ 58 :: render j) ++ 125 :: r = _
      rw [List.append_assoc]
      rfl
  | cons f rest =>
      show (quote k ++ 58 :: (render j ++ 44 :: renderFields (f :: rest)))
        ++ 125 :: r = _
      rw [List.append_assoc, List.cons_append, List.append_assoc]
      rfl

theorem afterField_delimited (rest : List (String × Json)) (r : List UInt8) :
    Delimited (afterField rest r) := by
  intro b hb
  cases rest with
  | nil => exact Or.inr (Or.inr (Option.some.inj hb).symm)
  | cons _ _ => exact Or.inl (Option.some.inj hb).symm

mutual

/-- **WHERE A DOCUMENT ENDS**: two texts that start with a document and go on
    with a delimiter start with the same document. -/
theorem render_next : ∀ (j k : Json) {r r' : List UInt8}, Delimited r →
    Delimited r' → render j ++ r = render k ++ r' → j = k ∧ r = r'
  | .null, k, r, r', _, _, h => by
      have hkind := same_kind h
      cases k with
      | null => exact ⟨rfl, List.append_cancel_left h⟩
      | bool v => cases v <;> exact nomatch hkind
      | _ => exact nomatch hkind
  | .bool b, k, r, r', _, _, h => by
      have hkind := same_kind h
      cases k with
      | bool c =>
          obtain rfl : b = c := by
            cases b <;> cases c <;> first | rfl | exact nomatch hkind
          exact ⟨rfl, List.append_cancel_left h⟩
      | _ => cases b <;> exact nomatch hkind
  | .num m, k, r, r', hr, hr', h => by
      have hkind := same_kind h
      cases k with
      | num n =>
          obtain ⟨rfl, hrest⟩ := num_next hr hr' h
          exact ⟨rfl, hrest⟩
      | bool v => cases v <;> exact nomatch hkind
      | _ => exact nomatch hkind
  | .str s, k, r, r', _, _, h => by
      have hkind := same_kind h
      cases k with
      | str t =>
          obtain ⟨rfl, hrest⟩ := quote_next h
          exact ⟨rfl, hrest⟩
      | bool v => cases v <;> exact nomatch hkind
      | _ => exact nomatch hkind
  | .arr xs, k, r, r', _, _, h => by
      have hkind := same_kind h
      cases k with
      | arr ys =>
          -- after the bracket come the items, and what ends them
          have htail : renderItems xs ++ [93] ++ r = renderItems ys ++ [93] ++ r' :=
            (List.cons.inj h).2
          rw [List.append_assoc, List.append_assoc] at htail
          obtain ⟨rfl, hrest⟩ := renderItems_next xs ys htail
          exact ⟨rfl, hrest⟩
      | bool v => cases v <;> exact nomatch hkind
      | _ => exact nomatch hkind
  | .obj fs, k, r, r', _, _, h => by
      have hkind := same_kind h
      cases k with
      | obj gs =>
          have htail : renderFields fs ++ [125] ++ r
              = renderFields gs ++ [125] ++ r' := (List.cons.inj h).2
          rw [List.append_assoc, List.append_assoc] at htail
          obtain ⟨rfl, hrest⟩ := renderFields_next fs gs htail
          exact ⟨rfl, hrest⟩
      | bool v => cases v <;> exact nomatch hkind
      | _ => exact nomatch hkind

theorem renderItems_next : ∀ (xs ys : List Json) {r r' : List UInt8},
    renderItems xs ++ 93 :: r = renderItems ys ++ 93 :: r' → xs = ys ∧ r = r'
  | [], [], _, _, h => ⟨rfl, (List.cons.inj h).2⟩
  | [], k :: ys, r, r', h => by
      rw [renderItems_cons] at h
      exact absurd h.symm (render_ne rfl)
  | j :: xs, [], r, r', h => by
      rw [renderItems_cons] at h
      exact absurd h (render_ne rfl)
  | j :: xs, k :: ys, r, r', h => by
      rw [renderItems_cons, renderItems_cons] at h
      obtain ⟨rfl, hafter⟩ := render_next j k (afterItem_delimited xs r)
        (afterItem_delimited ys r') h
      cases xs with
      | nil =>
          cases ys with
          | nil => exact ⟨rfl, (List.cons.inj hafter).2⟩
          | cons _ _ => exact nomatch (List.cons.inj hafter).1
      | cons x xs =>
          cases ys with
          | nil => exact nomatch (List.cons.inj hafter).1
          | cons y ys =>
              obtain ⟨hitems, hrest⟩ :=
                renderItems_next (x :: xs) (y :: ys) (List.cons.inj hafter).2
              exact ⟨congrArg (j :: ·) hitems, hrest⟩

theorem renderFields_next : ∀ (fs gs : List (String × Json))
    {r r' : List UInt8}, renderFields fs ++ 125 :: r = renderFields gs ++ 125 :: r' →
      fs = gs ∧ r = r'
  | [], [], _, _, h => ⟨rfl, (List.cons.inj h).2⟩
  | [], (k, j) :: gs, r, r', h => by
      rw [renderFields_cons] at h
      exact nomatch (List.cons.inj h).1
  | (k, j) :: fs, [], r, r', h => by
      rw [renderFields_cons] at h
      exact nomatch (List.cons.inj h).1
  | (a, j) :: fs, (b, k) :: gs, r, r', h => by
      rw [renderFields_cons, renderFields_cons] at h
      obtain ⟨rfl, hvalue⟩ := quote_next h
      obtain ⟨rfl, hafter⟩ := render_next j k (afterField_delimited fs r)
        (afterField_delimited gs r') (List.cons.inj hvalue).2
      cases fs with
      | nil =>
          cases gs with
          | nil => exact ⟨rfl, (List.cons.inj hafter).2⟩
          | cons _ _ => exact nomatch (List.cons.inj hafter).1
      | cons f fs =>
          cases gs with
          | nil => exact nomatch (List.cons.inj hafter).1
          | cons g gs =>
              obtain ⟨hfields, hrest⟩ :=
                renderFields_next (f :: fs) (g :: gs) (List.cons.inj hafter).2
              exact ⟨congrArg ((a, j) :: ·) hfields, hrest⟩

end

/-- **ONE TEXT, ONE DOCUMENT**. -/
theorem render_injective {j k : Json} (h : render j = render k) : j = k := by
  have hnone : Delimited [] := fun b hb => nomatch hb
  refine (@render_next j k [] [] hnone hnone ?_).1
  rw [h]

/-! ## The fields of an object -/

theorem find_putField (k k' : String) (v : Json) (l : List (String × Json)) :
    (putField k v l).find? (fun f => f.1 == k')
      = if k = k' then some (k, v) else l.find? (fun f => f.1 == k') := by
  induction l with
  | nil =>
      by_cases hk : k = k'
      · simp [putField, hk]
      · simp [putField, hk]
  | cons f rest ih =>
      unfold putField
      split
      · by_cases hk : k = k'
        · simp [hk]
        · simp [hk]
      · rename_i hle
        split
        · rename_i hsame
          by_cases hk : k = k'
          · simp [hk]
          · simp [← hsame, hk]
        · rename_i hne
          rw [List.find?_cons, List.find?_cons, ih]
          by_cases hf : f.1 = k'
          · -- an earlier field keeps its place, and its key is another one
            have hk : k ≠ k' := fun h => hne (h.trans hf.symm)
            simp [hf, hk]
          · rw [beq_eq_false_iff_ne.mpr hf]

/-- An object has the last value that is given for a key. -/
theorem getField?_mkObj (k : String) (fields : List (String × Json)) :
    getField? k (mkObj fields)
      = (fields.reverse.find? (fun f => f.1 == k)).map Prod.snd := by
  have h : ∀ acc, (fields.foldl (fun acc f => putField f.1 f.2 acc) acc).find?
        (fun f => f.1 == k)
      = (fields.reverse ++ acc).find? (fun f => f.1 == k) := by
    induction fields with
    | nil => exact fun _ => rfl
    | cons f rest ih =>
        intro acc
        rw [List.foldl_cons, ih, List.find?_append, find_putField,
          List.reverse_cons, List.append_assoc, List.find?_append]
        congr 1
        by_cases hk : f.1 = k
        · simp [← hk]
        · simp [hk]
  show ((fields.foldl _ []).find? _).map Prod.snd = _
  rw [h [], List.append_nil]

/-! ## Compact bytes are printable -/

/-- A text is printable when every byte of it is. -/
theorem printable_of_all {text : List UInt8}
    (h : text.all (fun x => decide (32 ≤ x.toNat)) = true) :
    ∀ x ∈ text, 32 ≤ x.toNat :=
  fun x hx => of_decide_eq_true (List.all_eq_true.mp h x hx)

theorem escapeByte_printable (b : UInt8) : ∀ x ∈ escapeByte b, 32 ≤ x.toNat := by
  have hhex : ∀ n, n < 16 → 32 ≤ (hexByte n).toNat := by decide
  have hb := b.toNat_lt
  unfold escapeByte
  dsimp only
  intro x hx
  split at hx
  · rename_i hquote
    rcases List.mem_cons.mp hx with rfl | hx
    · decide
    · obtain rfl := List.mem_singleton.mp hx
      omega
  split at hx
  · rename_i hprint
    obtain rfl := List.mem_singleton.mp hx
    exact hprint
  rename_i hcontrol
  split at hx
  · exact printable_of_all rfl x hx
  split at hx
  · exact printable_of_all rfl x hx
  split at hx
  · exact printable_of_all rfl x hx
  split at hx
  · exact printable_of_all rfl x hx
  split at hx
  · exact printable_of_all rfl x hx
  · simp only [List.mem_cons, List.not_mem_nil, or_false] at hx
    rcases hx with rfl | rfl | rfl | rfl | rfl | rfl
    · decide
    · decide
    · decide
    · decide
    · exact hhex _ (by omega)
    · exact hhex _ (Nat.mod_lt _ (by decide))

theorem quote_printable (s : String) : ∀ x ∈ quote s, 32 ≤ x.toNat := by
  intro x hx
  unfold quote at hx
  rcases List.mem_cons.mp hx with rfl | hx
  · decide
  rcases List.mem_append.mp hx with hx | hx
  · obtain ⟨b, _, hb⟩ := List.mem_flatMap.mp hx
    exact escapeByte_printable b x hb
  · obtain rfl := List.mem_singleton.mp hx
    decide

theorem isNumeric_printable {b : UInt8} (h : isNumeric b = true) :
    32 ≤ b.toNat := by
  unfold isNumeric at h
  rw [Bool.or_eq_true, beq_iff_eq, Bool.and_eq_true, decide_eq_true_eq] at h
  rcases h with rfl | ⟨h, _⟩
  · decide
  · exact Nat.le_trans (by decide) (UInt8.le_iff_toNat_le.mp h)

mutual

/-- **COMPACT TEXT IS PRINTABLE**: it holds no control character. -/
theorem render_printable : ∀ (j : Json), ∀ x ∈ render j, 32 ≤ x.toNat
  | .null => printable_of_all rfl
  | .bool true => printable_of_all rfl
  | .bool false => printable_of_all rfl
  | .num n => fun x hx => isNumeric_printable (num_numeric n x hx)
  | .str s => quote_printable s
  | .arr items => by
      intro x hx
      rw [render] at hx
      rcases List.mem_cons.mp hx with rfl | hx
      · decide
      rcases List.mem_append.mp hx with hx | hx
      · exact renderItems_printable items x hx
      · obtain rfl := List.mem_singleton.mp hx
        decide
  | .obj fields => by
      intro x hx
      rw [render] at hx
      rcases List.mem_cons.mp hx with rfl | hx
      · decide
      rcases List.mem_append.mp hx with hx | hx
      · exact renderFields_printable fields x hx
      · obtain rfl := List.mem_singleton.mp hx
        decide

theorem renderItems_printable :
    ∀ (items : List Json), ∀ x ∈ renderItems items, 32 ≤ x.toNat
  | [] => fun _ hx => absurd hx List.not_mem_nil
  | [j] => render_printable j
  | j :: k :: rest => by
      intro x hx
      rw [renderItems] at hx
      · rcases List.mem_append.mp hx with hx | hx
        · exact render_printable j x hx
        rcases List.mem_cons.mp hx with rfl | hx
        · decide
        · exact renderItems_printable (k :: rest) x hx
      · exact List.cons_ne_nil k rest

theorem renderFields_printable :
    ∀ (fields : List (String × Json)), ∀ x ∈ renderFields fields, 32 ≤ x.toNat
  | [] => fun _ hx => absurd hx List.not_mem_nil
  | [(k, j)] => by
      intro x hx
      rw [renderFields] at hx
      rcases List.mem_append.mp hx with hx | hx
      · exact quote_printable k x hx
      rcases List.mem_cons.mp hx with rfl | hx
      · decide
      · exact render_printable j x hx
  | (k, j) :: f :: rest => by
      intro x hx
      rw [renderFields] at hx
      · rcases List.mem_append.mp hx with hx | hx
        · exact quote_printable k x hx
        rcases List.mem_cons.mp hx with rfl | hx
        · decide
        rcases List.mem_append.mp hx with hx | hx
        · exact render_printable j x hx
        rcases List.mem_cons.mp hx with rfl | hx
        · decide
        · exact renderFields_printable (f :: rest) x hx
      · exact List.cons_ne_nil f rest

end

end Json
