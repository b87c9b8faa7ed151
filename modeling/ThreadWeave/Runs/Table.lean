import Mathlib.Data.Finmap

/-!
# Hash maps

A hash map is a finite map: `Finmap` gives it extensional equality, a
`Finset` of keys and no order of iteration. The first lemmas put lookups after
an update in one normal form, an `if` on the keys, which `simp` and `split`
then decide; `retain` keeps the entries that satisfy a test, `mapValues` writes
every value, and `collect` gathers something from every value.
-/

namespace Runs

/-- A finite map from `κ` to `ν`. -/
abbrev HashMap (κ ν : Type*) := Finmap fun _ : κ => ν

namespace HashMap

variable {κ ν : Type*} [DecidableEq κ]

theorem lookup_insert_ite (m : HashMap κ ν) (k k' : κ) (v : ν) :
    (m.insert k v).lookup k' = if k' = k then some v else m.lookup k' := by
  by_cases h : k' = k
  · subst h
    simp
  · simp [h, Finmap.lookup_insert_of_ne]

theorem lookup_erase_ite (m : HashMap κ ν) (k k' : κ) :
    (m.erase k).lookup k' = if k' = k then none else m.lookup k' := by
  by_cases h : k' = k
  · subst h
    simp
  · simp [h, Finmap.lookup_erase_ne]

/-- Where an entry comes from after an insertion. -/
theorem lookup_insert_some {m : HashMap κ ν} {k k' : κ} {v x : ν}
    (h : (m.insert k v).lookup k' = some x) :
    (k' = k ∧ x = v) ∨ (k' ≠ k ∧ m.lookup k' = some x) := by
  rw [lookup_insert_ite] at h
  split_ifs at h with hk
  · exact Or.inl ⟨hk, (Option.some.inj h).symm⟩
  · exact Or.inr ⟨hk, h⟩

theorem lookup_erase_some {m : HashMap κ ν} {k k' : κ} {x : ν}
    (h : (m.erase k).lookup k' = some x) : k' ≠ k ∧ m.lookup k' = some x := by
  rw [lookup_erase_ite] at h
  split_ifs at h with hk
  exact ⟨hk, h⟩

/-! ## An entry put in and taken out -/

theorem insert_of_lookup {m : HashMap κ ν} {k : κ} {v : ν} (h : m.lookup k = some v) :
    m.insert k v = m := by
  apply Finmap.ext_lookup
  intro k'
  rw [lookup_insert_ite]
  split_ifs with hk
  · rw [hk, h]
  · rfl

theorem insert_insert (m : HashMap κ ν) (k : κ) (v v' : ν) :
    (m.insert k v).insert k v' = m.insert k v' := by
  apply Finmap.ext_lookup
  intro k'
  rw [lookup_insert_ite, lookup_insert_ite, lookup_insert_ite]
  split_ifs <;> rfl

theorem erase_insert (m : HashMap κ ν) (k : κ) (v : ν) : (m.insert k v).erase k = m.erase k := by
  apply Finmap.ext_lookup
  intro k'
  rw [lookup_erase_ite, lookup_erase_ite, lookup_insert_ite]
  split_ifs <;> rfl

theorem erase_of_notMem {m : HashMap κ ν} {k : κ} (h : k ∉ m) : m.erase k = m := by
  apply Finmap.ext_lookup
  intro k'
  rw [lookup_erase_ite]
  split_ifs with hk
  · rw [hk, Finmap.lookup_eq_none.mpr h]
  · rfl

/-! ## `retain` -/

omit [DecidableEq κ] in
theorem nodupKeys_filter {entries : Multiset (Sigma fun _ : κ => ν)} (h : entries.NodupKeys)
    (p : (Sigma fun _ : κ => ν) → Prop) [DecidablePred p] :
    (entries.filter p).NodupKeys := by
  have hkeys : (entries.filter p).keys ≤ entries.keys :=
    Multiset.map_le_map (Multiset.filter_le p entries)
  rw [← Multiset.nodup_keys] at h ⊢
  exact Multiset.nodup_of_le hkeys h

/-- The entries whose key and value pass the test. -/
def retain (p : κ → ν → Bool) (m : HashMap κ ν) : HashMap κ ν where
  entries := m.entries.filter fun e => p e.1 e.2 = true
  nodupKeys := nodupKeys_filter m.nodupKeys _

@[simp] theorem lookup_retain (p : κ → ν → Bool) (m : HashMap κ ν) (k : κ) :
    (retain p m).lookup k = (m.lookup k).filter (p k) := by
  ext v
  rw [Option.filter_eq_some_iff, ← Option.mem_def, ← Option.mem_def, Finmap.mem_lookup_iff,
    Finmap.mem_lookup_iff]
  exact Multiset.mem_filter

/-! ## `values_mut` -/

/-- Every value replaced by its image. -/
def mapValues (f : ν → ν) (m : HashMap κ ν) : HashMap κ ν where
  entries := m.entries.map fun e => ⟨e.1, f e.2⟩
  nodupKeys := by
    have hkeys : (m.entries.map fun e => (⟨e.1, f e.2⟩ : Sigma fun _ : κ => ν)).keys =
        m.entries.keys := by
      unfold Multiset.keys
      rw [Multiset.map_map]
      rfl
    rw [← Multiset.nodup_keys, hkeys, Multiset.nodup_keys]
    exact m.nodupKeys

@[simp] theorem lookup_mapValues (f : ν → ν) (m : HashMap κ ν) (k : κ) :
    (mapValues f m).lookup k = (m.lookup k).map f := by
  ext v
  rw [Option.map_eq_some_iff, ← Option.mem_def, Finmap.mem_lookup_iff]
  constructor
  · intro hv
    obtain ⟨⟨k', u⟩, hmem, he⟩ := Multiset.mem_map.mp hv
    cases he
    exact ⟨u, Finmap.mem_lookup_iff.mpr hmem, rfl⟩
  · rintro ⟨u, hu, rfl⟩
    exact Multiset.mem_map.mpr ⟨⟨k, u⟩, Finmap.mem_lookup_iff.mp hu, rfl⟩

theorem mapValues_insert (f : ν → ν) (m : HashMap κ ν) (k : κ) (v : ν) :
    mapValues f (m.insert k v) = (mapValues f m).insert k (f v) := by
  apply Finmap.ext_lookup
  intro k'
  rw [lookup_mapValues, lookup_insert_ite, lookup_insert_ite, lookup_mapValues]
  split_ifs <;> rfl

/-! ## What the values of a map give -/

section Collect

variable {β : Type*}

/-- What `f` gives for the values of the map, as often as it gives it. -/
def collect (f : ν → Option β) (m : HashMap κ ν) : Multiset β :=
  m.entries.filterMap fun e => f e.2

omit [DecidableEq κ] in
@[simp] theorem collect_empty (f : ν → Option β) : collect f (∅ : HashMap κ ν) = 0 := rfl

theorem collect_insert_of_notMem (f : ν → Option β) {m : HashMap κ ν} {k : κ} (h : k ∉ m)
    (v : ν) : collect f (m.insert k v) = (f v).toList + collect f m := by
  rw [collect, collect, Finmap.entries_insert_of_notMem h]
  rw [Multiset.filterMap_cons]
  cases f v with
  | none => simp
  | some b => simp

theorem collect_insert (f : ν → Option β) (m : HashMap κ ν) (k : κ) (v : ν) :
    collect f (m.insert k v) = (f v).toList + collect f (m.erase k) := by
  rw [← collect_insert_of_notMem f Finmap.notMem_erase_self]
  congr 1
  apply Finmap.ext_lookup
  intro k'
  rw [lookup_insert_ite, lookup_insert_ite, lookup_erase_ite]
  split_ifs <;> rfl

theorem mem_collect {f : ν → Option β} {m : HashMap κ ν} {b : β} :
    b ∈ collect f m ↔ ∃ k v, m.lookup k = some v ∧ f v = some b := by
  unfold collect
  rw [Multiset.mem_filterMap]
  constructor
  · rintro ⟨⟨k, v⟩, hmem, hb⟩
    exact ⟨k, v, Finmap.mem_lookup_iff.mpr hmem, hb⟩
  · rintro ⟨k, v, hk, hb⟩
    exact ⟨⟨k, v⟩, Finmap.mem_lookup_iff.mp hk, hb⟩

theorem collect_of_lookup (f : ν → Option β) {m : HashMap κ ν} {k : κ} {v : ν}
    (h : m.lookup k = some v) : collect f m = (f v).toList + collect f (m.erase k) := by
  rw [← collect_insert, insert_of_lookup h]

end Collect

end HashMap

end Runs
