import ThreadWeave.Rust.Decimal
import ThreadWeave.Rust.Str

/-!
# Memory sizes in the configuration

`parse_memory` of `config/mod.rs`: a number followed by one of seven units. The
loop over the table of units takes the first suffix that fits; since no unit is
a suffix of another one, it is the only one.

`format_memory` of `worker.rs` prints what was configured. It has a table of its
own and takes the largest unit that divides the size; a size that no unit divides
is printed with `B`, which is none of the units that are read.

* `parseMemory_eq_ok` — which texts are read, and as what.
* `memory_sizes` — the same for every order of the table.
* `formatUnits_cases` — what is printed.
* `memory_round_trip` — what is printed is read as what it was, or not at all.
-/

namespace ThreadWeave.Config

/-- `UNITS`. -/
def units : List (String × Nat) :=
  [("TiB", 1 <<< 40), ("GiB", 1 <<< 30), ("MiB", 1 <<< 20), ("KiB", 1 <<< 10),
   ("TB", 1000000000000), ("GB", 1000000000), ("MB", 1000000)]

/-- A number of one unit. -/
def parseNumber (unit : String × Nat) (number : String) : Except String Nat :=
  match Rust.parseUnsigned 64 (Rust.trim number) with
  | none => .error ("worker memory must be an integer followed by " ++ unit.1)
  | some n =>
      -- `checked_mul`
      if n * unit.2 < 2 ^ 64 then .ok (n * unit.2)
      else .error "worker memory exceeds the supported range"

/-- The loop over a table of units. -/
def parseUnits : List (String × Nat) → String → Except String Nat
  | [], _ => .error "worker memory must use one of KiB, MiB, GiB, TiB, MB, GB, or TB"
  | unit :: rest, value =>
      match Rust.stripSuffix value unit.1 with
      | some number => parseNumber unit number
      | none => parseUnits rest value

def parseMemory (value : String) : Except String Nat := parseUnits units (Rust.trim value)

theorem parseNumber_eq_ok {unit : String × Nat} {number : String} {v : Nat} :
    parseNumber unit number = .ok v ↔
      ∃ n, Rust.parseUnsigned 64 (Rust.trim number) = some n ∧ v = n * unit.2 ∧ v < 2 ^ 64 := by
  unfold parseNumber
  cases Rust.parseUnsigned 64 (Rust.trim number) with
  | none => simp
  | some n =>
      simp only [Option.some.injEq]
      split_ifs with hfits
      · simp only [Except.ok.injEq]
        constructor
        · rintro rfl
          exact ⟨n, rfl, rfl, hfits⟩
        · rintro ⟨_, rfl, rfl, -⟩
          rfl
      · simp only [false_iff]
        rintro ⟨_, rfl, rfl, hlt⟩
        exact hfits hlt

/-- A table in which no unit is a suffix of another one. -/
def SuffixFree (table : List (String × Nat)) : Prop :=
  ∀ u ∈ table, ∀ u' ∈ table, u.1.toList <:+ u'.1.toList → u = u'

instance (table : List (String × Nat)) : Decidable (SuffixFree table) :=
  inferInstanceAs (Decidable (∀ u ∈ table, ∀ u' ∈ table, u.1.toList <:+ u'.1.toList → u = u'))

theorem suffixFree_units : SuffixFree units := by
  decide

section Table

variable {table : List (String × Nat)} {value : String}

/-- Of two suffixes of one text the shorter is a suffix of the longer. -/
theorem SuffixFree.unique (h : SuffixFree table) {u u' : String × Nat} (hu : u ∈ table)
    (hu' : u' ∈ table) {b b' : String} (hb : value = b ++ u.1) (hb' : value = b' ++ u'.1) :
    u = u' := by
  have hsuffix : u.1.toList <:+ value.toList := by
    rw [hb, String.toList_append]
    exact List.suffix_append _ _
  have hsuffix' : u'.1.toList <:+ value.toList := by
    rw [hb', String.toList_append]
    exact List.suffix_append _ _
  rcases List.suffix_or_suffix_of_suffix hsuffix hsuffix' with hle | hle
  · exact h u hu u' hu' hle
  · exact (h u' hu' u hu hle).symm

/-- The loop finds the unit the text ends with. -/
theorem parseUnits_of_mem (h : SuffixFree table) {u : String × Nat} (hu : u ∈ table)
    {b : String} (hb : value = b ++ u.1) : parseUnits table value = parseNumber u b := by
  induction table with
  | nil => cases hu
  | cons u' rest ih =>
      unfold parseUnits
      cases hstrip : Rust.stripSuffix value u'.1 with
      | some b' =>
          have hb' := Rust.stripSuffix_eq_some.mp hstrip
          obtain rfl : u = u' := h.unique hu List.mem_cons_self hb hb'
          have hstrip' := Rust.stripSuffix_eq_some.mpr hb
          rw [hstrip, Option.some.injEq] at hstrip'
          rw [hstrip']
      | none =>
          have hne : u ≠ u' := by
            rintro rfl
            rw [Rust.stripSuffix_eq_some.mpr hb] at hstrip
            cases hstrip
          have hrest : SuffixFree rest := fun v hv v' hv' =>
            h v (List.mem_cons_of_mem _ hv) v' (List.mem_cons_of_mem _ hv')
          exact ih hrest (List.mem_of_ne_of_mem hne hu)

theorem parseUnits_of_forall (hnone : ∀ u ∈ table, ∀ b, value ≠ b ++ u.1) :
    parseUnits table value =
      .error "worker memory must use one of KiB, MiB, GiB, TiB, MB, GB, or TB" := by
  induction table with
  | nil => rfl
  | cons u rest ih =>
      unfold parseUnits
      cases hstrip : Rust.stripSuffix value u.1 with
      | some b =>
          exact absurd (Rust.stripSuffix_eq_some.mp hstrip) (hnone u List.mem_cons_self b)
      | none => exact ih fun v hv => hnone v (List.mem_cons_of_mem _ hv)

/-- Nothing depends on the order of the table. -/
theorem parseUnits_perm {table' : List (String × Nat)} (h : SuffixFree table)
    (hperm : table'.Perm table) : parseUnits table' value = parseUnits table value := by
  have h' : SuffixFree table' := fun u hu u' hu' =>
    h u (hperm.mem_iff.mp hu) u' (hperm.mem_iff.mp hu')
  by_cases hex : ∃ u ∈ table, ∃ b, value = b ++ u.1
  · rcases hex with ⟨u, hu, b, hb⟩
    rw [parseUnits_of_mem h hu hb, parseUnits_of_mem h' (hperm.mem_iff.mpr hu) hb]
  · have hnone : ∀ u ∈ table, ∀ b, value ≠ b ++ u.1 :=
      fun u hu b hb => hex ⟨u, hu, b, hb⟩
    rw [parseUnits_of_forall hnone,
      parseUnits_of_forall fun u hu => hnone u (hperm.mem_iff.mp hu)]

theorem parseUnits_eq_ok (h : SuffixFree table) {v : Nat} :
    parseUnits table value = .ok v ↔
      ∃ u ∈ table, ∃ b, value = b ++ u.1 ∧ parseNumber u b = .ok v := by
  constructor
  · intro hok
    by_cases hex : ∃ u ∈ table, ∃ b, value = b ++ u.1
    · rcases hex with ⟨u, hu, b, hb⟩
      rw [parseUnits_of_mem h hu hb] at hok
      exact ⟨u, hu, b, hb, hok⟩
    · rw [parseUnits_of_forall fun u hu b hb => hex ⟨u, hu, b, hb⟩] at hok
      cases hok
  · rintro ⟨u, hu, b, hb, hok⟩
    rw [parseUnits_of_mem h hu hb, hok]

end Table

/-- The texts that are read as `v` bytes. -/
theorem parseMemory_eq_ok {s : String} {v : Nat} :
    parseMemory s = .ok v ↔
      ∃ u ∈ units, ∃ body digits n, Rust.trim s = body ++ u.1 ∧
        ((Rust.trim body).toList = digits ∨ (Rust.trim body).toList = '+' :: digits) ∧
        digits ≠ [] ∧ (∀ c ∈ digits, c.isDigit = true) ∧ n = Nat.ofDigitChars 10 digits 0 ∧
        n < 2 ^ 64 ∧ v = n * u.2 ∧ v < 2 ^ 64 := by
  unfold parseMemory
  rw [parseUnits_eq_ok suffixFree_units]
  simp only [parseNumber_eq_ok, Rust.parseUnsigned_eq_some]
  constructor
  · rintro ⟨u, hu, body, hbody, n, ⟨digits, htext, hne, hall, hn, hlt⟩, hv⟩
    exact ⟨u, hu, body, digits, n, hbody, htext, hne, hall, hn, hlt, hv⟩
  · rintro ⟨u, hu, body, digits, n, hbody, htext, hne, hall, hn, hlt, hv⟩
    exact ⟨u, hu, body, hbody, n, ⟨digits, htext, hne, hall, hn, hlt⟩, hv⟩

/-- Memory sizes are read exactly and never wrap, at most one unit fits a text,
and the order of the table does not matter. -/
theorem memory_sizes :
    (∀ s v, parseMemory s = .ok v ↔
      ∃ u ∈ units, ∃ body digits n, Rust.trim s = body ++ u.1 ∧
        ((Rust.trim body).toList = digits ∨ (Rust.trim body).toList = '+' :: digits) ∧
        digits ≠ [] ∧ (∀ c ∈ digits, c.isDigit = true) ∧ n = Nat.ofDigitChars 10 digits 0 ∧
        n < 2 ^ 64 ∧ v = n * u.2 ∧ v < 2 ^ 64) ∧
    (∀ s, (∀ v, parseMemory s ≠ .ok v) → ∃ message, parseMemory s = .error message) ∧
    (∀ s, ∀ u ∈ units, ∀ u' ∈ units, (Rust.stripSuffix s u.1).isSome = true →
      (Rust.stripSuffix s u'.1).isSome = true → u = u') ∧
    (∀ table : List (String × Nat), table.Perm units →
      ∀ s, parseUnits table (Rust.trim s) = parseMemory s) := by
  refine ⟨fun s v => parseMemory_eq_ok, ?_, ?_, ?_⟩
  · intro s hnot
    cases h : parseMemory s with
    | ok v => exact absurd h (hnot v)
    | error message => exact ⟨message, rfl⟩
  · intro s u hu u' hu' h h'
    rcases Option.isSome_iff_exists.mp h with ⟨b, hb⟩
    rcases Option.isSome_iff_exists.mp h' with ⟨b', hb'⟩
    exact suffixFree_units.unique hu hu' (Rust.stripSuffix_eq_some.mp hb)
      (Rust.stripSuffix_eq_some.mp hb')
  · intro table hperm s
    exact parseUnits_perm suffixFree_units hperm

example : parseMemory "  +32 GiB " = .ok 34359738368 := by decide +kernel

/-! ## Printing -/

/-- `UNITS` of `format_memory`. -/
def printedUnits : List (String × Nat) :=
  [("TiB", 1 <<< 40), ("GiB", 1 <<< 30), ("MiB", 1 <<< 20), ("KiB", 1 <<< 10)]

/-- The loop of `format_memory` over a table of units. -/
def formatUnits : List (String × Nat) → Nat → String
  | [], bytes => toString bytes ++ "B"
  | unit :: rest, bytes =>
      -- `is_multiple_of`
      if unit.2 ≤ bytes ∧ bytes % unit.2 = 0 then toString (bytes / unit.2) ++ unit.1
      else formatUnits rest bytes

def formatMemory (bytes : Nat) : String := formatUnits printedUnits bytes

/-- A unit of the table that divides the size is printed, or there is none. -/
theorem formatUnits_cases (table : List (String × Nat)) (bytes : Nat) :
    (∃ u ∈ table, u.2 ≤ bytes ∧ u.2 ∣ bytes ∧
      formatUnits table bytes = toString (bytes / u.2) ++ u.1) ∨
    ((∀ u ∈ table, u.2 ≤ bytes → ¬ u.2 ∣ bytes) ∧
      formatUnits table bytes = toString bytes ++ "B") := by
  induction table with
  | nil => exact Or.inr ⟨by simp, rfl⟩
  | cons u rest ih =>
      unfold formatUnits
      by_cases hu : u.2 ≤ bytes ∧ bytes % u.2 = 0
      · rw [if_pos hu]
        exact Or.inl ⟨u, List.mem_cons_self, hu.1, Nat.dvd_of_mod_eq_zero hu.2, rfl⟩
      · rw [if_neg hu]
        rcases ih with ⟨u', hu', hle, hdvd, htext⟩ | ⟨hnone, htext⟩
        · exact Or.inl ⟨u', List.mem_cons_of_mem _ hu', hle, hdvd, htext⟩
        · refine Or.inr ⟨?_, htext⟩
          intro u' hu' hle hdvd
          rcases List.mem_cons.mp hu' with rfl | hrest
          · exact hu ⟨hle, Nat.mod_eq_zero_of_dvd hdvd⟩
          · exact hnone u' hrest hle hdvd

/-- What is printed with a unit can be read with it; the smallest one is `KiB`. -/
theorem printedUnits_spec : ∀ u ∈ printedUnits, u ∈ units ∧ 1024 ∣ u.2 := by
  decide

/-- A unit that is read has a letter before its last character. -/
theorem units_spec :
    ∀ u ∈ units, 0 < u.2 ∧ u.1.toList.all (fun c => !Rust.isWhitespace c) = true ∧
      u.1.toList.dropLast.any (fun c => !c.isDigit) = true := by
  decide

section Printing

variable {b n : Nat}

theorem formatMemory_of_multiple (hpos : 0 < b) (hdvd : 1024 ∣ b) :
    ∃ u ∈ printedUnits, u.2 ∣ b ∧ formatMemory b = toString (b / u.2) ++ u.1 := by
  rcases formatUnits_cases printedUnits b with ⟨u, hu, -, hunit, htext⟩ | ⟨hnone, -⟩
  · exact ⟨u, hu, hunit, htext⟩
  · have hkib : ("KiB", 1024) ∈ printedUnits := by decide
    exact absurd hdvd (hnone _ hkib (Nat.le_of_dvd hpos hdvd))

theorem formatMemory_of_not_multiple (h : ¬ (0 < b ∧ 1024 ∣ b)) :
    formatMemory b = toString b ++ "B" := by
  rcases formatUnits_cases printedUnits b with ⟨u, hu, hle, hdvd, -⟩ | ⟨-, htext⟩
  · rcases printedUnits_spec u hu with ⟨hread, hkib⟩
    have hpos : 0 < b := lt_of_lt_of_le (units_spec u hread).1 hle
    exact absurd ⟨hpos, Nat.dvd_trans hkib hdvd⟩ h
  · exact htext

theorem isWhitespace_of_mem_toString {c : Char} (hc : c ∈ (toString n).toList) :
    Rust.isWhitespace c = false :=
  Rust.isWhitespace_of_isDigit (Rust.isDigit_of_mem_toString hc)

/-- A printed size has no white space. -/
theorem trim_printed (n : Nat) {text : String}
    (htext : text.toList.all (fun c => !Rust.isWhitespace c) = true) :
    Rust.trim (toString n ++ text) = toString n ++ text := by
  apply Rust.trim_eq_self
  intro c hc
  rw [String.toList_append, List.mem_append] at hc
  rcases hc with hdigit | htail
  · exact isWhitespace_of_mem_toString hdigit
  · simpa using List.all_eq_true.mp htext c htail

/-- A number with a unit is read as the product, where that is a `u64`. -/
theorem parseMemory_unit {u : String × Nat} (hu : u ∈ units) (hfits : n * u.2 < 2 ^ 64) :
    parseMemory (toString n ++ u.1) = .ok (n * u.2) := by
  rcases units_spec u hu with ⟨hpos, htext, -⟩
  have hlt : n < 2 ^ 64 := lt_of_le_of_lt (Nat.le_mul_of_pos_right n hpos) hfits
  have hnumber : Rust.trim (toString n) = toString n := by
    apply Rust.trim_eq_self
    intro c hc
    exact isWhitespace_of_mem_toString hc
  unfold parseMemory
  rw [trim_printed n htext, parseUnits_of_mem suffixFree_units hu rfl, parseNumber_eq_ok, hnumber]
  exact ⟨n, Rust.parseUnsigned_toString 64 hlt, rfl, hfits⟩

/-- A number of bytes ends with none of the units: before the `B` stands a
digit. -/
theorem parseMemory_bytes (n : Nat) : parseMemory (toString n ++ "B") =
    .error "worker memory must use one of KiB, MiB, GiB, TiB, MB, GB, or TB" := by
  unfold parseMemory
  rw [trim_printed n (by decide)]
  apply parseUnits_of_forall
  intro u hu body htext
  rcases units_spec u hu with ⟨-, -, hletter⟩
  rcases List.any_eq_true.mp hletter with ⟨c, hc, hnot⟩
  have hne : u.1.toList ≠ [] := by
    intro hnil
    rw [hnil] at hc
    cases hc
  have hdigits : (toString n).toList = body.toList ++ u.1.toList.dropLast := by
    have hlist := congrArg (fun s => s.toList.dropLast) htext
    simpa [List.dropLast_append_of_ne_nil hne] using hlist
  have hdigit : c.isDigit = true := by
    apply Rust.isDigit_of_mem_toString (n := n)
    rw [hdigits]
    exact List.mem_append_right _ hc
  rw [hdigit] at hnot
  cases hnot

theorem parseMemory_formatMemory (hb : b < 2 ^ 64) :
    parseMemory (formatMemory b) =
      if 0 < b ∧ 1024 ∣ b then .ok b
      else .error "worker memory must use one of KiB, MiB, GiB, TiB, MB, GB, or TB" := by
  split_ifs with h
  · rcases formatMemory_of_multiple h.1 h.2 with ⟨u, hu, hdvd, htext⟩
    have hproduct : b / u.2 * u.2 = b := Nat.div_mul_cancel hdvd
    have hread := parseMemory_unit (printedUnits_spec u hu).1 (n := b / u.2) (by rwa [hproduct])
    rw [htext, hread, hproduct]
  · rw [formatMemory_of_not_multiple h, parseMemory_bytes]

end Printing

/-- A printed memory size is read back exactly if it is a positive multiple of
1 KiB, and refused otherwise. So it is never read as another size, and no two
sizes are printed alike. -/
theorem memory_round_trip :
    (∀ b < 2 ^ 64, parseMemory (formatMemory b) =
      if 0 < b ∧ 1024 ∣ b then .ok b
      else .error "worker memory must use one of KiB, MiB, GiB, TiB, MB, GB, or TB") ∧
    (∀ b < 2 ^ 64, ∀ v, parseMemory (formatMemory b) = .ok v → v = b) ∧
    (∀ b < 2 ^ 64, ∀ b' < 2 ^ 64, formatMemory b = formatMemory b' → b = b') := by
  have hexact : ∀ b < 2 ^ 64, ∀ v, parseMemory (formatMemory b) = .ok v → v = b := by
    intro b hb v hv
    rw [parseMemory_formatMemory hb] at hv
    split_ifs at hv
    cases hv
    rfl
  refine ⟨fun b hb => parseMemory_formatMemory hb, hexact, ?_⟩
  intro b hb b' hb' hsame
  by_cases h : 0 < b ∧ 1024 ∣ b
  · have hread := parseMemory_formatMemory hb
    rw [if_pos h, hsame] at hread
    exact hexact b' hb' b hread
  · by_cases h' : 0 < b' ∧ 1024 ∣ b'
    · have hread := parseMemory_formatMemory hb'
      rw [if_pos h', ← hsame] at hread
      exact (hexact b hb b' hread).symm
    · -- both are printed in bytes
      rw [formatMemory_of_not_multiple h, formatMemory_of_not_multiple h'] at hsame
      exact Rust.toString_injective (by simpa using hsame)

example : formatMemory 1610612736 = "1536MiB" := by decide +kernel

end ThreadWeave.Config
