import Mathlib.Algebra.Ring.Nat
import Mathlib.Data.String.Basic
import ThreadWeave.Rust.Text

/-!
# Cutting strings

A Rust `str` is UTF-8 text and is indexed by bytes: `len` is Lean's
`utf8ByteSize`, and a position is a character boundary where some of the
characters end. `is_char_boundary` and `split_at` walk over the characters;
`split_once` looks for the first occurrence of a delimiter, `rsplit_once` for
the last one of a character.

* `trim_eq_self` — a text without white space stays.
* `stripSuffix_eq_some` — what stands before a suffix.
* `splitAt_eq_ok`, `isCharBoundary_iff` — a string is cut between two strings.
* `splitOnce_char`, `rsplitOnce_eq_some` — with one character as the delimiter,
  the part on its side does not contain it.
* `splitOnce_append` — a longer delimiter, after a text without its first
  character.
* `splitOnce_append_right`, `splitOnce_append_word` — what a text behind the first
  occurrence changes, and one behind a text without any.
-/

namespace Rust

/-- A `str` has at most `isize::MAX` bytes. -/
abbrev Str := { s : String // s.utf8ByteSize < 2 ^ 63 }

/-- The call does not return. -/
structure Panic where
  message : String
deriving DecidableEq, Repr

/-! ## `trim` and `strip_suffix` -/

/-- `str::trim`. -/
def trim (s : String) : String := String.ofList (trimChars s.toList)

/-- There is nothing to strip. -/
theorem trim_eq_self {s : String} (h : ∀ c ∈ s.toList, isWhitespace c = false) :
    trim s = s := by
  have hdrop (cs : List Char) (hcs : ∀ c ∈ cs, isWhitespace c = false) :
      cs.dropWhile isWhitespace = cs := by
    cases cs with
    | nil => rfl
    | cons c cs =>
        have hc := hcs c List.mem_cons_self
        rw [List.dropWhile_cons_of_neg (by simp [hc])]
  unfold trim trimChars
  rw [hdrop _ h, hdrop _ fun c hc => h c (List.mem_reverse.mp hc), List.reverse_reverse,
    String.ofList_toList]

/-- `str::strip_suffix`. -/
def stripSuffix (s suffix : String) : Option String :=
  if suffix.toList <:+ s.toList then
    some (String.ofList (s.toList.take (s.toList.length - suffix.toList.length)))
  else none

theorem stripSuffix_eq_some {s suffix b : String} :
    stripSuffix s suffix = some b ↔ s = b ++ suffix := by
  unfold stripSuffix
  constructor
  · intro h
    split_ifs at h with hsuffix
    rcases hsuffix with ⟨u, hu⟩
    rw [Option.some.injEq] at h
    rw [← h, ← String.toList_inj, String.toList_append, String.toList_ofList, ← hu]
    simp
  · rintro rfl
    have hsuffix : suffix.toList <:+ (b ++ suffix).toList := by
      rw [String.toList_append]
      exact List.suffix_append _ _
    rw [if_pos hsuffix]
    simp

/-! ## `is_char_boundary` and `split_at` -/

/-- Whether some of the characters end after exactly that many bytes. -/
def boundary : List Char → Nat → Bool
  | _, 0 => true
  | [], _ + 1 => false
  | c :: cs, n + 1 => c.utf8Size ≤ n + 1 && boundary cs (n + 1 - c.utf8Size)

/-- `str::is_char_boundary`. -/
def isCharBoundary (s : String) (index : Nat) : Bool := boundary s.toList index

/-- The characters of the first bytes, and the others. -/
def cut : List Char → Nat → Option (List Char × List Char)
  | cs, 0 => some ([], cs)
  | [], _ + 1 => none
  | c :: cs, n + 1 =>
      if c.utf8Size ≤ n + 1 then (cut cs (n + 1 - c.utf8Size)).map fun p => (c :: p.1, p.2)
      else none

/-- `str::split_at`, which panics where `mid` is not a character boundary. -/
def splitAt (s : String) (mid : Nat) : Except Panic (String × String) :=
  match cut s.toList mid with
  | none => .error ⟨"failed to slice string"⟩
  | some (a, b) => .ok (String.ofList a, String.ofList b)

/-- The bytes of these characters. -/
def byteLen (cs : List Char) : Nat := (cs.map Char.utf8Size).sum

@[simp] theorem byteLen_nil : byteLen [] = 0 := rfl

@[simp] theorem byteLen_cons (c : Char) (cs : List Char) :
    byteLen (c :: cs) = c.utf8Size + byteLen cs := by
  simp [byteLen]

theorem byteLen_toList (s : String) : byteLen s.toList = s.utf8ByteSize := by
  generalize hcs : s.toList = cs
  obtain rfl : s = String.ofList cs := by rw [← hcs, String.ofList_toList]
  clear hcs
  induction cs with
  | nil => rfl
  | cons c cs ih =>
      rw [byteLen_cons, ih, String.ofList_cons, String.utf8ByteSize_append,
        String.utf8ByteSize_singleton]

theorem cut_eq_some {cs a b : List Char} {n : Nat} :
    cut cs n = some (a, b) ↔ cs = a ++ b ∧ byteLen a = n := by
  induction cs generalizing n a with
  | nil =>
      cases n with
      | zero =>
          cases a with
          | nil => simp [cut, eq_comm]
          | cons c a => simp [cut]
      | succ n =>
          simp only [cut, reduceCtorEq, false_iff, not_and, List.nil_eq_append_iff]
          rintro ⟨rfl, rfl⟩
          simp
  | cons c cs ih =>
      cases n with
      | zero =>
          -- no character is empty
          have hc := c.utf8Size_pos
          cases a with
          | nil => simp [cut, eq_comm]
          | cons d a =>
              simp only [cut, Option.some.injEq, Prod.mk.injEq, List.nil_eq, reduceCtorEq,
                false_and, byteLen_cons, List.cons_append, List.cons.injEq, false_iff, not_and]
              rintro ⟨rfl, -⟩
              omega
      | succ n =>
          simp only [cut]
          split_ifs with hle
          · simp only [Option.map_eq_some_iff, Prod.exists, Prod.mk.injEq]
            constructor
            · rintro ⟨a', b', hcut, rfl, rfl⟩
              have hpart := ih.mp hcut
              rw [hpart.1, byteLen_cons, hpart.2]
              exact ⟨rfl, by omega⟩
            · rintro ⟨hcs, hlen⟩
              cases a with
              | nil => simp at hlen
              | cons d a =>
                  simp only [List.cons_append, List.cons.injEq] at hcs
                  rcases hcs with ⟨rfl, hcs⟩
                  rw [byteLen_cons] at hlen
                  exact ⟨a, b, ih.mpr ⟨hcs, by omega⟩, rfl, rfl⟩
          · simp only [false_iff, not_and]
            intro hcs hlen
            cases a with
            | nil => simp at hlen
            | cons d a =>
                simp only [List.cons_append, List.cons.injEq] at hcs
                rw [byteLen_cons, ← hcs.1] at hlen
                omega

theorem boundary_eq (cs : List Char) (n : Nat) : boundary cs n = (cut cs n).isSome := by
  induction cs generalizing n with
  | nil => cases n <;> rfl
  | cons c cs ih =>
      cases n with
      | zero => rfl
      | succ n =>
          simp only [boundary, cut, ih]
          split_ifs with hle <;> simp [hle]

theorem splitAt_eq_ok {s a b : String} {mid : Nat} :
    splitAt s mid = .ok (a, b) ↔ s = a ++ b ∧ a.utf8ByteSize = mid := by
  have hcut := @cut_eq_some s.toList a.toList b.toList mid
  rw [← String.toList_append, String.toList_inj, byteLen_toList] at hcut
  rw [← hcut, splitAt]
  cases h : cut s.toList mid with
  | none => simp
  | some p =>
      simp only [Except.ok.injEq, Option.some.injEq, Prod.ext_iff, ← String.toList_inj,
        String.toList_ofList]

/-- Between two strings, and only there, a string may be split. -/
theorem isCharBoundary_iff {s : String} {index : Nat} :
    isCharBoundary s index = true ↔ ∃ a b, splitAt s index = .ok (a, b) := by
  rw [isCharBoundary, boundary_eq, splitAt]
  cases cut s.toList index with
  | none => simp
  | some p => simp

/-! ## `split_once` and `rsplit_once` -/

/-- What stands before and after the first occurrence of `delimiter`. -/
def splitOnceChars (delimiter : List Char) : List Char → Option (List Char × List Char)
  | [] => if delimiter = [] then some ([], []) else none
  | c :: cs =>
      if delimiter <+: c :: cs then some ([], (c :: cs).drop delimiter.length)
      else (splitOnceChars delimiter cs).map fun p => (c :: p.1, p.2)

/-- `str::split_once`. -/
def splitOnce (s delimiter : String) : Option (String × String) :=
  (splitOnceChars delimiter.toList s.toList).map fun p => (String.ofList p.1, String.ofList p.2)

/-- `str::rsplit_once` of a character. -/
def rsplitOnce (s : String) (delimiter : Char) : Option (String × String) :=
  (splitOnceChars [delimiter] s.toList.reverse).map fun p =>
    (String.ofList p.2.reverse, String.ofList p.1.reverse)

theorem splitOnceChars_append {c : Char} {cs a : List Char} (hc : c ∉ a) (b : List Char) :
    splitOnceChars (c :: cs) (a ++ (c :: cs ++ b)) = some (a, b) := by
  induction a with
  | nil => simp [splitOnceChars]
  | cons d a ih =>
      rw [List.mem_cons, not_or] at hc
      rw [List.cons_append, splitOnceChars, if_neg (by simp [hc.1]), ih hc.2, Option.map_some]

theorem splitOnceChars_eq_none {c : Char} {cs : List Char} :
    splitOnceChars [c] cs = none ↔ c ∉ cs := by
  induction cs with
  | nil => simp [splitOnceChars]
  | cons d cs ih =>
      by_cases hd : c = d
      · simp [splitOnceChars, hd]
      · simp [splitOnceChars, hd, ih]

theorem splitOnceChars_eq_some {c : Char} {cs a b : List Char} :
    splitOnceChars [c] cs = some (a, b) ↔ cs = a ++ c :: b ∧ c ∉ a := by
  constructor
  · intro h
    by_cases hc : c ∈ cs
    · -- the list is cut before the first `c`
      rcases List.append_of_mem hc with ⟨u, v, rfl⟩
      clear hc
      induction u generalizing a with
      | nil =>
          simp only [List.nil_append, splitOnceChars, List.cons_prefix_cons, List.nil_prefix,
            and_self, if_true, Option.some.injEq, Prod.mk.injEq] at h
          rcases h with ⟨rfl, rfl⟩
          simp
      | cons d u ih =>
          by_cases hd : c = d
          · simp only [List.cons_append, splitOnceChars, hd, List.cons_prefix_cons,
              List.nil_prefix, and_self, if_true, Option.some.injEq, Prod.mk.injEq] at h
            rcases h with ⟨rfl, rfl⟩
            simp [hd]
          · simp only [List.cons_append, splitOnceChars, List.cons_prefix_cons, hd, false_and,
              if_false, Option.map_eq_some_iff, Prod.exists, Prod.mk.injEq] at h
            rcases h with ⟨a', b', hcut, rfl, rfl⟩
            rcases ih hcut with ⟨hcs, hnot⟩
            simp [hcs, hd, hnot]
    · rw [splitOnceChars_eq_none.mpr hc] at h
      cases h
  · rintro ⟨rfl, hc⟩
    exact splitOnceChars_append hc b

theorem splitOnceChars_spec {d cs a b : List Char} (h : splitOnceChars d cs = some (a, b)) :
    cs = a ++ (d ++ b) := by
  induction cs generalizing a with
  | nil =>
      rw [splitOnceChars] at h
      split_ifs at h with hd
      cases h
      simp [hd]
  | cons c cs ih =>
      rw [splitOnceChars] at h
      split_ifs at h with hprefix
      · cases h
        rw [List.nil_append, List.prefix_iff_eq_append.mp hprefix]
      · rcases Option.map_eq_some_iff.mp h with ⟨⟨a', b'⟩, hrest, heq⟩
        cases heq
        rw [List.cons_append, ← ih hrest]

/-- A delimiter is found where it occurs. -/
theorem splitOnceChars_isSome {d cs : List Char} : (splitOnceChars d cs).isSome ↔ d <:+: cs := by
  induction cs with
  | nil =>
      rw [splitOnceChars, List.infix_nil]
      split_ifs with hd
      · simp [hd]
      · simp [hd]
  | cons c cs ih =>
      rw [splitOnceChars, List.infix_cons_iff]
      split_ifs with hhead
      · simp [hhead]
      · rw [Option.isSome_map, ih, or_iff_right hhead]

/-- The first occurrence stays the first. -/
theorem splitOnceChars_append_right {d a u v : List Char}
    (h : splitOnceChars d a = some (u, v)) (b : List Char) :
    splitOnceChars d (a ++ b) = some (u, v ++ b) := by
  induction a generalizing u with
  | nil =>
      rw [splitOnceChars] at h
      split_ifs at h with hd
      subst hd
      cases h
      cases b <;> simp [splitOnceChars]
  | cons c a ih =>
      rw [splitOnceChars] at h
      rw [List.cons_append, splitOnceChars]
      split_ifs at h with hprefix
      · cases h
        have hlong : d <+: c :: (a ++ b) := hprefix.trans (List.prefix_append (c :: a) b)
        rw [if_pos hlong, ← List.cons_append, List.drop_append_of_le_length hprefix.length_le]
      · rcases Option.map_eq_some_iff.mp h with ⟨⟨u', v'⟩, hrest, heq⟩
        cases heq
        have hlen : d.length ≤ (c :: a).length :=
          (splitOnceChars_isSome.mp (by rw [hrest]; rfl)).length_le.trans (Nat.le_succ _)
        have hnot : ¬ d <+: c :: (a ++ b) := fun hlong =>
          hprefix (List.prefix_of_prefix_length_le hlong (List.prefix_append (c :: a) b) hlen)
        rw [if_neg hnot, ih hrest, Option.map_some]

/-- No occurrence reaches over a character that the delimiter does not have. -/
theorem splitOnceChars_append_cons {d a : List Char} {c : Char} (hd : d ≠ []) (hc : c ∉ d)
    (h : splitOnceChars d a = none) (b : List Char) :
    splitOnceChars d (a ++ c :: b) = (splitOnceChars d b).map fun p => (a ++ c :: p.1, p.2) := by
  induction a with
  | nil =>
      have hnot : ¬ d <+: c :: b := by
        rintro ⟨t, ht⟩
        cases d with
        | nil => exact hd rfl
        | cons x d =>
            rw [List.cons_append, List.cons.injEq] at ht
            exact hc (ht.1 ▸ List.mem_cons_self)
      rw [List.nil_append, splitOnceChars, if_neg hnot]
      rfl
  | cons x a ih =>
      rw [splitOnceChars] at h
      split_ifs at h with hprefix
      have hnot : ¬ d <+: x :: (a ++ c :: b) := by
        rintro ⟨t, ht⟩
        rw [← List.cons_append] at ht
        rcases List.append_eq_append_iff.mp ht with ⟨l, hl, -⟩ | ⟨l, rfl, hl⟩
        · exact hprefix ⟨l, hl.symm⟩
        · cases l with
          | nil => exact hprefix (by simp)
          | cons y l =>
              rw [List.cons_append, List.cons.injEq] at hl
              exact hc (by simp [hl.1])
      rw [List.cons_append, splitOnceChars, if_neg hnot, ih (Option.map_eq_none_iff.mp h),
        Option.map_map]
      rfl

theorem splitOnceChars_append_word {d a w : List Char} (hd : d ≠ []) (hw : w ≠ [])
    (hc : ∀ c ∈ w, c ∉ d) (h : splitOnceChars d a = none) (b : List Char) :
    splitOnceChars d (a ++ (w ++ b)) =
      (splitOnceChars d b).map fun p => (a ++ (w ++ p.1), p.2) := by
  induction w generalizing a with
  | nil => exact absurd rfl hw
  | cons c w ih =>
      have hhead : c ∉ d := hc c List.mem_cons_self
      cases w with
      | nil => exact splitOnceChars_append_cons hd hhead h b
      | cons c' w =>
          have hnone : splitOnceChars d (a ++ [c]) = none := by
            rw [splitOnceChars_append_cons hd hhead h, splitOnceChars, if_neg hd, Option.map_none]
          have hword := ih (List.cons_ne_nil c' w) (fun x hx => hc x (List.mem_cons_of_mem c hx))
            hnone
          simpa using hword

theorem splitOnce_spec {s d a b : String} (h : splitOnce s d = some (a, b)) :
    s = a ++ d ++ b := by
  rcases Option.map_eq_some_iff.mp h with ⟨⟨u, v⟩, hchars, heq⟩
  cases heq
  rw [← String.toList_inj, splitOnceChars_spec hchars]
  simp

theorem splitOnce_isSome {s d : String} :
    (splitOnce s d).isSome ↔ d.toList <:+: s.toList := by
  rw [splitOnce, Option.isSome_map, splitOnceChars_isSome]

theorem splitOnce_append_right {s d a b : String} (h : splitOnce s d = some (a, b)) (t : String) :
    splitOnce (s ++ t) d = some (a, b ++ t) := by
  rcases Option.map_eq_some_iff.mp h with ⟨⟨u, v⟩, hchars, heq⟩
  cases heq
  rw [splitOnce, String.toList_append, splitOnceChars_append_right hchars, Option.map_some,
    String.ofList_append, String.ofList_toList]

/-- Nor over a word of such characters. -/
theorem splitOnce_append_word {s d w : String} (hd : d ≠ "") (hw : w ≠ "")
    (hc : ∀ c ∈ w.toList, c ∉ d.toList) (h : splitOnce s d = none) (t : String) :
    splitOnce (s ++ w ++ t) d = (splitOnce t d).map fun p => (s ++ w ++ p.1, p.2) := by
  have hchars : splitOnceChars d.toList s.toList = none := Option.map_eq_none_iff.mp h
  have hdne : d.toList ≠ [] := fun hnil => hd (String.toList_eq_nil_iff.mp hnil)
  have hwne : w.toList ≠ [] := fun hnil => hw (String.toList_eq_nil_iff.mp hnil)
  have hlist : (s ++ w ++ t).toList = s.toList ++ (w.toList ++ t.toList) := by simp
  rw [splitOnce, hlist, splitOnceChars_append_word hdne hwne hc hchars, splitOnce,
    Option.map_map, Option.map_map]
  congr 1
  funext p
  simp [← String.toList_inj]

theorem splitOnce_append {d s : String} {c : Char} {cs : List Char} (hd : d.toList = c :: cs)
    (hc : c ∉ s.toList) (t : String) : splitOnce (s ++ d ++ t) d = some (s, t) := by
  rw [splitOnce, String.toList_append, String.toList_append, hd, List.append_assoc,
    splitOnceChars_append hc]
  simp

theorem splitOnce_char {s d a b : String} {c : Char} (hd : d.toList = [c]) :
    splitOnce s d = some (a, b) ↔ s = a ++ d ++ b ∧ c ∉ a.toList := by
  simp only [splitOnce, hd, Option.map_eq_some_iff, Prod.exists, Prod.mk.injEq,
    splitOnceChars_eq_some]
  constructor
  · rintro ⟨u, v, ⟨hs, hc⟩, rfl, rfl⟩
    refine ⟨?_, by simpa using hc⟩
    rw [← String.toList_inj, hs]
    simp [hd]
  · rintro ⟨rfl, hc⟩
    exact ⟨a.toList, b.toList, ⟨by simp [hd], hc⟩, by simp, by simp⟩

theorem rsplitOnce_eq_some {s a b : String} {c : Char} :
    rsplitOnce s c = some (a, b) ↔ s = a ++ String.singleton c ++ b ∧ c ∉ b.toList := by
  simp only [rsplitOnce, Option.map_eq_some_iff, Prod.exists, Prod.mk.injEq,
    splitOnceChars_eq_some]
  constructor
  · rintro ⟨u, v, ⟨hs, hc⟩, rfl, rfl⟩
    rw [List.reverse_eq_iff] at hs
    refine ⟨?_, by simpa using hc⟩
    rw [← String.toList_inj, hs]
    simp
  · rintro ⟨rfl, hc⟩
    exact ⟨b.toList.reverse, a.toList.reverse, ⟨by simp, by simpa using hc⟩, by simp, by simp⟩

theorem rsplitOnce_eq_none {s : String} {c : Char} : rsplitOnce s c = none ↔ c ∉ s.toList := by
  rw [rsplitOnce, Option.map_eq_none_iff, splitOnceChars_eq_none, List.mem_reverse]

end Rust
