import Mathlib.Algebra.Ring.Int.Defs
import Mathlib.Algebra.Ring.Nat
import Mathlib.Data.List.Basic

/-!
# Integers as decimal text

`Display` and `FromStr` of Rust's fixed-width integers: printing has no leading
zeros and no `+`, parsing takes a leading `+` (and `-` for the signed types), at
least one digit, and only values of the width. `parseUnsigned_eq_some`: which
texts are read; `parseUnsigned_toString` and `parseSigned_toString`: what was
printed is read back.
-/

namespace Rust

/-- The value of a non-empty list of digits. -/
def digitsValue (cs : List Char) : Option Nat :=
  if cs ≠ [] ∧ cs.all Char.isDigit then some (Nat.ofDigitChars 10 cs 0) else none

/-- `parse` to an unsigned integer of that many bits. -/
def parseUnsigned (bits : Nat) (s : String) : Option Nat :=
  match s.toList with
  | '+' :: cs => (digitsValue cs).filter (· < 2 ^ bits)
  | cs => (digitsValue cs).filter (· < 2 ^ bits)

/-- The texts that are read as `n`: perhaps a `+`, then digits of that value. -/
theorem parseUnsigned_eq_some {bits : Nat} {s : String} {n : Nat} :
    parseUnsigned bits s = some n ↔
      ∃ digits, (s.toList = digits ∨ s.toList = '+' :: digits) ∧ digits ≠ [] ∧
        (∀ c ∈ digits, c.isDigit = true) ∧ n = Nat.ofDigitChars 10 digits 0 ∧ n < 2 ^ bits := by
  have hvalue {digits : List Char} : (digitsValue digits).filter (· < 2 ^ bits) = some n ↔
      digits ≠ [] ∧ (∀ c ∈ digits, c.isDigit = true) ∧ n = Nat.ofDigitChars 10 digits 0 ∧
        n < 2 ^ bits := by
    simp only [digitsValue, Option.filter_eq_some_iff, Option.ite_none_right_eq_some,
      Option.some.injEq, List.all_eq_true, decide_eq_true_eq]
    constructor
    · rintro ⟨⟨⟨hne, hall⟩, rfl⟩, hlt⟩
      exact ⟨hne, hall, rfl, hlt⟩
    · rintro ⟨hne, hall, rfl, hlt⟩
      exact ⟨⟨⟨hne, hall⟩, rfl⟩, hlt⟩
  unfold parseUnsigned
  split
  · rename_i cs hcs
    rw [hvalue]
    constructor
    · intro h
      exact ⟨cs, Or.inr hcs, h⟩
    · rintro ⟨digits, hdigits | hdigits, h⟩
      · -- a `+` is no digit
        have hplus := h.2.1 '+' (by rw [← hdigits, hcs]; exact List.mem_cons_self)
        cases hplus
      · rw [hcs, List.cons.injEq] at hdigits
        rw [hdigits.2]
        exact h
  · rename_i cs hcs
    rw [hvalue]
    constructor
    · intro h
      exact ⟨_, Or.inl rfl, h⟩
    · rintro ⟨digits, hdigits | hdigits, h⟩
      · rw [hdigits]
        exact h
      · exact absurd hdigits (hcs digits)

/-- `parse` to a signed integer of that many bits. -/
def parseSigned (bits : Nat) (s : String) : Option Int :=
  match s.toList with
  | '-' :: cs => ((digitsValue cs).filter (· ≤ 2 ^ (bits - 1))).map fun n : Nat => -(n : Int)
  | '+' :: cs => ((digitsValue cs).filter (· < 2 ^ (bits - 1))).map fun n : Nat => (n : Int)
  | cs => ((digitsValue cs).filter (· < 2 ^ (bits - 1))).map fun n : Nat => (n : Int)

theorem digitsValue_toDigits (n : Nat) : digitsValue (Nat.toDigits 10 n) = some n := by
  have hdigits : (Nat.toDigits 10 n).all Char.isDigit = true := by
    rw [List.all_eq_true]
    intro c hc
    exact Nat.isDigit_of_mem_toDigits (by decide) (by decide) hc
  unfold digitsValue
  rw [if_pos ⟨Nat.toDigits_ne_nil, hdigits⟩, Nat.ofDigitChars_ten_toDigits]

theorem toDigits_ne_cons {c : Char} (hc : c.isDigit = false) (n : Nat) (cs : List Char) :
    Nat.toDigits 10 n ≠ c :: cs := by
  intro h
  have hdigit : c.isDigit = true :=
    Nat.isDigit_of_mem_toDigits (by decide) (by decide) (h ▸ List.mem_cons_self)
  rw [hc] at hdigit
  cases hdigit

theorem toList_toString (n : Nat) : (toString n).toList = Nat.toDigits 10 n := Nat.toList_repr

theorem isDigit_of_mem_toString {n : Nat} {c : Char} (hc : c ∈ (toString n).toList) :
    c.isDigit = true := by
  rw [toList_toString] at hc
  exact Nat.isDigit_of_mem_toDigits (by decide) (by decide) hc

theorem toString_injective : Function.Injective (toString : Nat → String) := by
  intro m n h
  have hdigits := congrArg String.toList h
  rw [toList_toString, toList_toString] at hdigits
  have hvalue := digitsValue_toDigits m
  rw [hdigits, digitsValue_toDigits, Option.some.injEq] at hvalue
  exact hvalue.symm

theorem parseUnsigned_toString (bits : Nat) {n : Nat} (hn : n < 2 ^ bits) :
    parseUnsigned bits (toString n) = some n := by
  unfold parseUnsigned
  rw [toList_toString]
  split
  · rename_i cs hcs
    exact absurd hcs (toDigits_ne_cons (by decide) n cs)
  · rw [digitsValue_toDigits]
    simp [Option.filter_some, hn]

theorem parseSigned_toString (bits : Nat) {i : Int} (hlow : -2 ^ (bits - 1) ≤ i)
    (hhigh : i < 2 ^ (bits - 1)) : parseSigned bits (toString i) = some i := by
  unfold parseSigned
  rcases i with n | n
  · have htext : (toString (Int.ofNat n)).toList = Nat.toDigits 10 n := toList_toString n
    have hn : n < 2 ^ (bits - 1) := by
      have hcast : ((n : Nat) : Int) < ((2 ^ (bits - 1) : Nat) : Int) := by
        push_cast
        exact hhigh
      exact Int.ofNat_lt.mp hcast
    rw [htext]
    split
    · rename_i cs hcs
      exact absurd hcs (toDigits_ne_cons (by decide) n cs)
    · rename_i cs hcs
      exact absurd hcs (toDigits_ne_cons (by decide) n cs)
    · rw [digitsValue_toDigits]
      simp [Option.filter_some, hn]
  · have htext : (toString (Int.negSucc n)).toList = '-' :: Nat.toDigits 10 (n + 1) := by
      show ("-" ++ toString (n + 1)).toList = _
      rw [String.toList_append, toList_toString]
      rfl
    have hn : n + 1 ≤ 2 ^ (bits - 1) := by
      have hcast : ((n + 1 : Nat) : Int) ≤ ((2 ^ (bits - 1) : Nat) : Int) := by
        push_cast
        rw [Int.negSucc_eq] at hlow
        omega
      exact Int.ofNat_le.mp hcast
    rw [htext]
    show ((digitsValue (Nat.toDigits 10 (n + 1))).filter (· ≤ 2 ^ (bits - 1))).map _ = _
    rw [digitsValue_toDigits]
    simp [Option.filter_some, hn, Int.negSucc_eq]

end Rust
