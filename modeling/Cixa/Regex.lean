import Cixa.Chars

/-! # Regular expressions — leftmost-first matching and replacement

    Backtracking patterns with greedy repetition, word boundaries and capture
    groups, matched in priority order: the earliest position first, and at
    one position the first alternative and the longest repetition that lets
    the rest succeed.  `replaceAll` rewrites every match, left to right,
    without overlap.

    Which characters count as word characters is a parameter. -/

/-- A pattern. -/
inductive Regex where
  | char (p : Char → Bool)
  | seq (a b : Regex)
  | alt (a b : Regex)
  | rep (lo hi : Nat) (r : Regex)
  | star (r : Regex)
  | boundary
  | group (index : Nat) (r : Regex)

namespace Regex

/-- Where a match stands: the character before it, the input after it and
    the groups captured so far. -/
structure Cursor where
  before : Option Char
  input : List Char
  groups : List (Nat × List Char)

/-- What is still to be matched after a pattern. -/
abbrev Cont := Cursor → Option Cursor

/-- Greedy repetition of a matcher, between `lo` and `hi` times. -/
def repeatMatch (step : Cont → Cont) : Nat → Nat → Cont → Cont
  | _, 0, k => k
  | lo + 1, hi + 1, k => step (repeatMatch step lo hi k)
  | 0, hi + 1, k => fun c =>
      (step (repeatMatch step 0 hi k) c).orElse (fun _ => k c)

/-- Match a pattern, then what follows it. -/
def run (isWord : Char → Bool) : Regex → Cont → Cont
  | .char p, k => fun c =>
      match c.input with
      | [] => none
      | x :: xs => if p x then k { c with before := some x, input := xs } else none
  | .seq a b, k => run isWord a (run isWord b k)
  | .alt a b, k => fun c => (run isWord a k c).orElse (fun _ => run isWord b k c)
  | .rep lo hi r, k => repeatMatch (run isWord r) lo hi k
  | .star r, k => fun c => repeatMatch (run isWord r) 0 c.input.length k c
  | .boundary, k => fun c =>
      if (c.before.any isWord) != (c.input.head?.any isWord) then k c else none
  | .group index r, k => fun c =>
      run isWord r (fun c' =>
        let taken := c.input.take (c.input.length - c'.input.length)
        k { c' with groups := (index, taken) :: c'.groups }) c

/-- The match of a pattern at one position. -/
def matchAt (isWord : Char → Bool) (r : Regex) (before : Option Char)
    (input : List Char) : Option Cursor :=
  run isWord r some { before := before, input := input, groups := [] }

/-- The text of a capture group, empty if it did not take part. -/
def Cursor.groupText (c : Cursor) (index : Nat) : List Char :=
  ((c.groups.find? (fun g => g.1 == index)).map Prod.snd).getD []

/-- Replace every match, scanning at most `fuel` characters. -/
def replaceFrom (isWord : Char → Bool) (r : Regex)
    (replacement : Cursor → List Char) :
    Nat → Option Char → List Char → List Char
  | 0, _, input => input
  | _ + 1, _, [] => []
  | fuel + 1, before, x :: xs =>
      match matchAt isWord r before (x :: xs) with
      | some c => replacement c
          ++ replaceFrom isWord r replacement fuel c.before c.input
      | none => x :: replaceFrom isWord r replacement fuel (some x) xs

/-- Replace every match of a pattern in a text. -/
def replaceAll (isWord : Char → Bool) (r : Regex)
    (replacement : Cursor → List Char) (s : String) : String :=
  String.ofList (replaceFrom isWord r replacement s.toList.length none s.toList)

end Regex
