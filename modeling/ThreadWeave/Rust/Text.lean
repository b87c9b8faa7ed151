import Mathlib.Data.List.Basic

/-!
# Rust string and number primitives

The pieces of Rust's standard library whose exact behaviour matters: `trim`
strips the characters with the Unicode property `White_Space` at both ends, a
float comparison is false as soon as one side is NaN.
-/

namespace Rust

/-- `char::is_whitespace`: the Unicode property `White_Space`. -/
def isWhitespace (c : Char) : Bool :=
  (9 ≤ c.toNat && c.toNat ≤ 13) || c.toNat == 0x20 || c.toNat == 0x85 || c.toNat == 0xA0 ||
  c.toNat == 0x1680 || (0x2000 ≤ c.toNat && c.toNat ≤ 0x200A) || c.toNat == 0x2028 ||
  c.toNat == 0x2029 || c.toNat == 0x202F || c.toNat == 0x205F || c.toNat == 0x3000

theorem isWhitespace_of_isDigit {c : Char} (h : c.isDigit = true) : isWhitespace c = false := by
  have hc := Char.isDigit_iff_toNat.mp h
  have hlow : 48 ≤ c.toNat := hc.1
  have hhigh : c.toNat ≤ 57 := hc.2
  unfold isWhitespace
  simp only [Bool.or_eq_false_iff, Bool.and_eq_false_iff, decide_eq_false_iff_not,
    beq_eq_false_iff_ne]
  omega

/-- `str::trim`, on the characters of a string. -/
def trimChars (cs : List Char) : List Char :=
  ((cs.dropWhile isWhitespace).reverse.dropWhile isWhitespace).reverse

/-- `s.trim().is_empty()`. -/
def isBlank (s : String) : Bool := (trimChars s.toList).isEmpty

/-- `str::trim_end_matches` of one character. -/
def trimEndMatches (s : String) (c : Char) : String :=
  String.ofList (s.toList.reverse.dropWhile (· == c)).reverse

/-- `str::replace` of one character, on the characters of a string. -/
def replaceChar (c : Char) (text : List Char) (cs : List Char) : List Char :=
  cs.flatMap fun d => if d = c then text else [d]

/-- A floating-point value as far as comparisons see it: a finite float is a
rational number (`-0.0` and `0.0` are the same one). -/
inductive Float where
  | finite (q : Rat)
  | infinite (negative : Bool)
  | nan
deriving DecidableEq, Repr

/-- `(0.0..=1.0).contains(&x)`. -/
def Float.inUnitRange : Float → Bool
  | .finite q => 0 ≤ q && q ≤ 1
  | .infinite _ => false
  | .nan => false

end Rust
