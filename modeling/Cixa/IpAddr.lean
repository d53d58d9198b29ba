import Cixa.Chars

/-! # IP addresses — the textual forms of IPv4 and IPv6

    The standard library's parser of address literals: dotted-decimal IPv4
    without leading zeros, and IPv6 groups with one `::` and an optional
    embedded IPv4 tail.  A reader returns the rest of the input or fails
    without consuming anything; an address is parsed only if nothing is left
    over. -/

/-- An address: four octets, or eight 16-bit segments. -/
inductive IpAddr where
  | v4 (a b c d : Nat)
  | v6 (segments : List Nat)
  deriving DecidableEq

namespace IpAddr

open Chars

/-- The value of a digit in a radix up to 16. -/
def digitValue (radix : Nat) (c : Char) : Option Nat :=
  let v :=
    if isAsciiDigit c then some (c.toNat - 48)
    else if 'a' ≤ c ∧ c ≤ 'f' then some (c.toNat - 87)
    else if 'A' ≤ c ∧ c ≤ 'F' then some (c.toNat - 55)
    else none
  v.filter (fun n => decide (n < radix))

/-- The digits at the head of the input, and the rest. -/
def readDigits (radix : Nat) : List Char → List Nat × List Char
  | [] => ([], [])
  | c :: cs =>
      match digitValue radix c with
      | some d => ((d :: (readDigits radix cs).1), (readDigits radix cs).2)
      | none => ([], c :: cs)

/-- A number of at most `maxDigits` digits and at most `bound`. -/
def readNumber (radix maxDigits bound : Nat) (allowZeroPrefix : Bool)
    (cs : List Char) : Option (Nat × List Char) :=
  let (digits, rest) := readDigits radix cs
  let value := digits.foldl (fun acc d => acc * radix + d) 0
  if digits.length > maxDigits then none
  else if digits.length = 0 then none
  else if allowZeroPrefix = false ∧ cs.head? = some '0' ∧ digits.length > 1 then
    none
  else if value > bound then none
  else some (value, rest)

/-- Pass over one character, if it is next. -/
def readGivenChar (c : Char) : List Char → Option (List Char)
  | [] => none
  | d :: cs => if d = c then some cs else none

/-- A separator before every element but the first. -/
def readSeparator {α : Type} (sep : Char) (index : Nat)
    (inner : List Char → Option (α × List Char)) (cs : List Char) :
    Option (α × List Char) :=
  if index > 0 then (readGivenChar sep cs).bind inner else inner cs

/-- Four decimal octets. -/
def readIpv4 (cs : List Char) : Option ((Nat × Nat × Nat × Nat) × List Char) := do
  let octet := readNumber 10 3 255 false
  let (a, cs) ← readSeparator '.' 0 octet cs
  let (b, cs) ← readSeparator '.' 1 octet cs
  let (c, cs) ← readSeparator '.' 2 octet cs
  let (d, cs) ← readSeparator '.' 3 octet cs
  return ((a, b, c, d), cs)

/-- Up to `limit` groups, read from index `i`; whether an embedded IPv4
    address ended them. -/
def readGroups (limit : Nat) : Nat → Nat → List Char →
    List Nat × Bool × List Char
  | 0, _, cs => ([], false, cs)
  | fuel + 1, i, cs =>
      let embedded := if i + 1 < limit then readSeparator ':' i readIpv4 cs else none
      match embedded with
      | some ((a, b, c, d), rest) => ([a * 256 + b, c * 256 + d], true, rest)
      | none =>
          match readSeparator ':' i (readNumber 16 4 65535 true) cs with
          | none => ([], false, cs)
          | some (g, rest) =>
              let (groups, tailV4, rest') := readGroups limit fuel (i + 1) rest
              (g :: groups, tailV4, rest')

/-- Eight groups, `::` standing for at least one zero group. -/
def readIpv6 (cs : List Char) : Option (List Nat × List Char) := do
  let (head, headV4, rest) := readGroups 8 8 0 cs
  if head.length = 8 then
    return (head, rest)
  else if headV4 then
    none
  else
    let rest ← readGivenChar ':' rest
    let rest ← readGivenChar ':' rest
    let limit := 8 - (head.length + 1)
    let (tail, _, rest) := readGroups limit limit 0 rest
    return (head ++ List.replicate (8 - head.length - tail.length) 0 ++ tail, rest)

/-- Parse a whole text as an address. -/
def parse (s : String) : Option IpAddr :=
  match readIpv4 s.toList with
  | some ((a, b, c, d), rest) => if rest.isEmpty then some (.v4 a b c d) else none
  | none =>
      match readIpv6 s.toList with
      | some (segments, rest) => if rest.isEmpty then some (.v6 segments) else none
      | none => none

example : parse "127.0.0.1" = some (.v4 127 0 0 1) := by decide
example : parse "::ffff:10.0.0.1" = some (.v6 [0, 0, 0, 0, 0, 65535, 2560, 1]) := by
  decide

end IpAddr
