import Cixa.Chars
import Mathlib.Algebra.GroupWithZero.Nat

/-! # JSON values — documents, their compact bytes and their length

    A JSON document with integer numbers only.  `render` is the bytes of the
    compact text of a document; `size` is their number, computed without
    building them, and `size_eq` says that the two agree.  An object built by
    `mkObj` lists its fields in key order. -/

/-- A JSON document. -/
inductive Json where
  | null
  | bool (b : Bool)
  | num (n : Int)
  | str (s : String)
  | arr (items : List Json)
  | obj (fields : List (String × Json))

namespace Json

open Chars

instance : Inhabited Json := ⟨.null⟩

/-- Put a field into key-sorted fields, replacing an equal key. -/
def putField (k : String) (v : Json) : List (String × Json) →
    List (String × Json)
  | [] => [(k, v)]
  | f :: rest =>
      if k < f.1 then (k, v) :: f :: rest
      else if k = f.1 then (k, v) :: rest
      else f :: putField k v rest

/-- An object with its fields in key order.  A record inside it keeps the
    order in which its fields are declared, where `serde_json` sorts those of
    a nested value as well: that order changes no size and no field. -/
def mkObj (fields : List (String × Json)) : Json :=
  .obj (fields.foldl (fun acc f => putField f.1 f.2 acc) [])

/-- A text, or null. -/
def optStr : Option String → Json
  | none => .null
  | some s => .str s

/-- A number, or null. -/
def optNum : Option Int → Json
  | none => .null
  | some n => .num n

/-- A field of an object. -/
def getField? (k : String) : Json → Option Json
  | .obj fields => (fields.find? (fun f => f.1 == k)).map Prod.snd
  | _ => none

/-- The text of a string document. -/
def asStr? : Json → Option String
  | .str s => some s
  | _ => none

/-! ## Compact bytes -/

/-- A lowercase hexadecimal digit as a byte. -/
def hexByte (n : Nat) : UInt8 := UInt8.ofNat (if n < 10 then 48 + n else 87 + n)

/-- The escape of a byte inside a JSON string. -/
def escapeByte (b : UInt8) : List UInt8 :=
  let n := b.toNat
  if n = 34 ∨ n = 92 then [92, b]
  else if 32 ≤ n then [b]
  else if n = 10 then [92, 110]
  else if n = 13 then [92, 114]
  else if n = 9 then [92, 116]
  else if n = 8 then [92, 98]
  else if n = 12 then [92, 102]
  else [92, 117, 48, 48, hexByte (n / 16), hexByte (n % 16)]

/-- A quoted JSON string. -/
def quote (s : String) : List UInt8 :=
  34 :: ((utf8Bytes s).flatMap escapeByte ++ [34])

mutual

/-- The compact bytes of a document. -/
def render : Json → List UInt8
  | .null => utf8Bytes "null"
  | .bool true => utf8Bytes "true"
  | .bool false => utf8Bytes "false"
  | .num n => utf8Bytes (toString n)
  | .str s => quote s
  | .arr items => 91 :: (renderItems items ++ [93])
  | .obj fields => 123 :: (renderFields fields ++ [125])

/-- The items of an array between commas. -/
def renderItems : List Json → List UInt8
  | [] => []
  | [j] => render j
  | j :: rest => render j ++ 44 :: renderItems rest

/-- The fields of an object between commas. -/
def renderFields : List (String × Json) → List UInt8
  | [] => []
  | [(k, j)] => quote k ++ 58 :: render j
  | (k, j) :: rest => quote k ++ 58 :: (render j ++ 44 :: renderFields rest)

end

/-! ## The number of bytes -/

/-- The number of bytes of an escape. -/
def escapeSize (b : UInt8) : Nat :=
  let n := b.toNat
  if n = 34 ∨ n = 92 then 2
  else if 32 ≤ n then 1
  else if n = 10 ∨ n = 13 ∨ n = 9 ∨ n = 8 ∨ n = 12 then 2
  else 6

/-- The number of bytes of a quoted string. -/
def quoteSize (s : String) : Nat := ((utf8Bytes s).map escapeSize).sum + 2

mutual

/-- The number of bytes of the compact text. -/
def size : Json → Nat
  | .null => 4
  | .bool true => 4
  | .bool false => 5
  | .num n => byteLen (toString n)
  | .str s => quoteSize s
  | .arr items => sizeItems items + 2
  | .obj fields => sizeFields fields + 2

/-- The number of bytes of the items between commas. -/
def sizeItems : List Json → Nat
  | [] => 0
  | [j] => size j
  | j :: rest => size j + sizeItems rest + 1

/-- The number of bytes of the fields between commas. -/
def sizeFields : List (String × Json) → Nat
  | [] => 0
  | [(k, j)] => quoteSize k + size j + 1
  | (k, j) :: rest => quoteSize k + size j + sizeFields rest + 2

end

theorem escapeByte_size (b : UInt8) : (escapeByte b).length = escapeSize b := by
  unfold escapeByte escapeSize
  by_cases h1 : b.toNat = 34 ∨ b.toNat = 92
  · simp only [h1, if_true]
    rfl
  by_cases h2 : 32 ≤ b.toNat
  · simp only [h1, h2, if_true, if_false]
    rfl
  by_cases h3 : b.toNat = 10
  · simp [h3]
  by_cases h4 : b.toNat = 13
  · simp [h4]
  by_cases h5 : b.toNat = 9
  · simp [h5]
  by_cases h6 : b.toNat = 8
  · simp [h6]
  by_cases h7 : b.toNat = 12
  · simp [h7]
  simp [h1, h2, h3, h4, h5, h6, h7]

theorem quote_size (s : String) : (quote s).length = quoteSize s := by
  unfold quote quoteSize
  rw [List.length_cons, List.length_append, List.length_flatMap]
  simp only [escapeByte_size]
  rfl

mutual

/-- `size` is the number of rendered bytes. -/
theorem size_eq : ∀ j : Json, (render j).length = size j
  | .null => rfl
  | .bool true => rfl
  | .bool false => rfl
  | .num _ => rfl
  | .str s => quote_size s
  | .arr items => by
      have h := sizeItems_eq items
      simp only [render, size, List.length_cons, List.length_append, h]
      rfl
  | .obj fields => by
      have h := sizeFields_eq fields
      simp only [render, size, List.length_cons, List.length_append, h]
      rfl

theorem sizeItems_eq :
    ∀ items : List Json, (renderItems items).length = sizeItems items
  | [] => rfl
  | [j] => size_eq j
  | j :: k :: rest => by
      have h := size_eq j
      have hr := sizeItems_eq (k :: rest)
      simp only [renderItems, sizeItems, List.length_cons,
        List.length_append, h] at hr ⊢
      omega

theorem sizeFields_eq : ∀ fields : List (String × Json),
    (renderFields fields).length = sizeFields fields
  | [] => rfl
  | [(k, j)] => by
      have h := size_eq j
      simp only [renderFields, sizeFields, List.length_cons,
        List.length_append, quote_size, h]
      omega
  | (k, j) :: f :: rest => by
      have h := size_eq j
      have hr := sizeFields_eq (f :: rest)
      simp only [renderFields, sizeFields, List.length_cons,
        List.length_append, quote_size, h] at hr ⊢
      omega

end

end Json
