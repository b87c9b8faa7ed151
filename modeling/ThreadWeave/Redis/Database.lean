import ThreadWeave.Redis.Scan

/-!
# A Redis database

All that lies in one database: under each key a string, a list or a hash, with
its expiry time. A command for one type fails on a key that holds another, and
leaves it alone.

* `set`, `rpush`, `lpop`, `hget` — the commands.
* `eval` — a script over one key that wants a hash there, as a function of the
  keyspace of hashes.
* `Local` — such a function reads and writes that key only; the operations on
  hashes compose to local ones.
* `eval_local` — then the script does in the database what it does in any keyspace
  with the same hash under that key.
-/

namespace Redis

open Runs (HashMap)

inductive Value where
  | string (bytes : ByteArray)
  | list (items : List ByteArray)
  | hash (fields : HashMap String ByteArray)
deriving DecidableEq

structure Item where
  value : Value
  expireAt : Option Nat
deriving DecidableEq

def Item.visibleAt (item : Item) (t : Nat) : Bool := item.expireAt.all fun u => t < u

def Entry.item (entry : Entry) : Item := { value := .hash entry.fields, expireAt := entry.expireAt }

def Item.entry : Item → Option Entry
  | ⟨.hash fields, expireAt⟩ => some { fields := fields, expireAt := expireAt }
  | _ => none

@[simp] theorem Entry.entry_item (entry : Entry) : entry.item.entry = some entry := rfl

@[simp] theorem Entry.visibleAt_item (entry : Entry) (t : Nat) :
    entry.item.visibleAt t = entry.visibleAt t := rfl

abbrev Database := HashMap String Item

/-- The error of a command for another type. -/
def wrongType : String := "WRONGTYPE Operation against a key holding the wrong kind of value"

namespace Database

variable (db : Database) (t : Nat)

def find (key : String) : Option Item := (db.lookup key).filter fun item => item.visibleAt t

/-- The keys that match and that a command at `t` sees. -/
def matching (pattern : String) : Finset String :=
  db.keys.filter fun key => (db.find t key).isSome && Glob.isMatch pattern key

/-- `SET` writes over anything, and takes away the expiry time. -/
def set (key : String) (bytes : ByteArray) : Database :=
  db.insert key { value := .string bytes, expireAt := none }

/-- `RPUSH` appends, and answers the new length. -/
def rpush (key : String) (bytes : ByteArray) : Database × Except String Nat :=
  match db.find t key with
  | none => (db.insert key { value := .list [bytes], expireAt := none }, .ok 1)
  | some ⟨.list items, expireAt⟩ =>
      (db.insert key { value := .list (items ++ [bytes]), expireAt := expireAt },
        .ok (items.length + 1))
  | some _ => (db, .error wrongType)

/-- `LPOP` takes the first item, and the list with its last one. `BLPOP` does the
same when there is one. -/
def lpop (key : String) : Database × Except String (Option ByteArray) :=
  match db.find t key with
  | none => (db, .ok none)
  | some ⟨.list [], _⟩ => (db, .ok none)
  | some ⟨.list [item], _⟩ => (db.erase key, .ok (some item))
  | some ⟨.list (item :: items), expireAt⟩ =>
      (db.insert key { value := .list items, expireAt := expireAt }, .ok (some item))
  | some _ => (db, .error wrongType)

def hget (key field : String) : Except String (Option ByteArray) :=
  match db.find t key with
  | none => .ok none
  | some item =>
      match item.entry with
      | none => .error wrongType
      | some entry => .ok (entry.fields.lookup field)

/-- The hash under one key. -/
def hashAt (key : String) : Keyspace :=
  match (db.lookup key).bind Item.entry with
  | none => ∅
  | some entry => Finmap.insert key entry ∅

def put (key : String) : Option Entry → Database
  | none => db.erase key
  | some entry => db.insert key entry.item

/-- A script over the hash under `key`; `wrong` is what comes of it where the key
holds something else. -/
def eval {α : Type} (key : String) (wrong : α) (script : Keyspace → Keyspace × α) :
    Database × α :=
  match db.find t key with
  | some ⟨.string _, _⟩ => (db, wrong)
  | some ⟨.list _, _⟩ => (db, wrong)
  | _ =>
      let (ks, answer) := script (db.hashAt key)
      (db.put key (ks.lookup key), answer)

variable {db} {t}

theorem find_of_lookup {key : String} {value : Value}
    (h : db.lookup key = some { value := value, expireAt := none }) :
    db.find t key = some { value := value, expireAt := none } := by
  unfold find
  rw [h]
  rfl

theorem find_of_lookup_none {key : String} (h : db.lookup key = none) : db.find t key = none := by
  unfold find
  rw [h]
  rfl

theorem mem_matching {pattern key : String} : key ∈ db.matching t pattern ↔
    (db.find t key).isSome = true ∧ Glob.isMatch pattern key = true := by
  unfold matching
  rw [Finset.mem_filter, Bool.and_eq_true]
  constructor
  · intro h
    exact h.2
  · intro h
    refine ⟨?_, h⟩
    obtain ⟨item, hfind⟩ := Option.isSome_iff_exists.mp h.1
    have hlook := (Option.filter_eq_some_iff.mp hfind).1
    exact Finmap.mem_keys.mpr (Finmap.mem_of_lookup_eq_some hlook)

theorem lookup_put (db : Database) (key key' : String) (entry : Option Entry) :
    (db.put key entry).lookup key' =
      if key' = key then entry.map Entry.item else db.lookup key' := by
  cases entry with
  | none => exact HashMap.lookup_erase_ite db key key'
  | some entry => exact HashMap.lookup_insert_ite db key key' entry.item

/-! ## The database and a keyspace of hashes -/

section Hashes

variable {ks : Keyspace} {key : String}

theorem find_eq_map (h : db.lookup key = (ks.lookup key).map Entry.item) :
    db.find t key = (ks.find t key).map Entry.item := by
  unfold find Keyspace.find
  rw [h]
  cases hlook : ks.lookup key with
  | none => rfl
  | some entry =>
      rw [Option.map_some, Option.filter_some, Option.filter_some, Entry.visibleAt_item]
      split_ifs <;> rfl

/-- A database and a keyspace that agree on the keys of a pattern. -/
theorem matching_eq {pattern : String}
    (h : ∀ key, Glob.isMatch pattern key = true → db.lookup key = (ks.lookup key).map Entry.item) :
    db.matching t pattern = ks.matching t pattern := by
  ext key
  rw [mem_matching, Keyspace.mem_matching]
  constructor
  · rintro ⟨hfind, hmatch⟩
    rw [find_eq_map (h key hmatch), Option.isSome_map] at hfind
    exact ⟨hfind, hmatch⟩
  · rintro ⟨hfind, hmatch⟩
    rw [find_eq_map (h key hmatch), Option.isSome_map]
    exact ⟨hfind, hmatch⟩

theorem hget_eq (h : db.lookup key = (ks.lookup key).map Entry.item) (field : String) :
    db.hget t key field = .ok (ks.hget t key field) := by
  unfold hget Keyspace.hget
  rw [find_eq_map h]
  cases ks.find t key <;> rfl

theorem lookup_hashAt (h : db.lookup key = (ks.lookup key).map Entry.item) :
    (db.hashAt key).lookup key = ks.lookup key := by
  unfold hashAt
  rw [h]
  cases ks.lookup key with
  | none => exact Finmap.lookup_empty _
  | some entry => exact Finmap.lookup_insert _

end Hashes

end Database

/-! ## Scripts over one key -/

/-- The script reads and writes nothing but `key`. -/
structure Local {α : Type} (key : String) (script : Keyspace → Keyspace × α) : Prop where
  frame : ∀ ks key', key' ≠ key → (script ks).1.lookup key' = ks.lookup key'
  answer : ∀ ks ks', ks.lookup key = ks'.lookup key → (script ks).2 = (script ks').2
  entry : ∀ ks ks', ks.lookup key = ks'.lookup key →
    (script ks).1.lookup key = (script ks').1.lookup key

namespace Database

variable {db : Database} {t : Nat} {ks : Keyspace} {key : String}

/-- A local script, in the database and in a keyspace with the same hash. -/
theorem eval_local {α : Type} {script : Keyspace → Keyspace × α} (hlocal : Local key script)
    (h : db.lookup key = (ks.lookup key).map Entry.item) (wrong : α) :
    (db.eval t key wrong script).2 = (script ks).2 ∧
    (db.eval t key wrong script).1.lookup key = ((script ks).1.lookup key).map Entry.item ∧
    ∀ key', key' ≠ key → (db.eval t key wrong script).1.lookup key' = db.lookup key' := by
  have hsame := lookup_hashAt h
  have heval : db.eval t key wrong script =
      (db.put key ((script (db.hashAt key)).1.lookup key), (script (db.hashAt key)).2) := by
    unfold eval
    rw [find_eq_map h]
    cases ks.find t key <;> rfl
  rw [heval]
  refine ⟨hlocal.answer _ _ hsame, ?_, ?_⟩
  · rw [lookup_put, if_pos rfl, hlocal.entry _ _ hsame]
  · intro key' hne
    rw [lookup_put, if_neg hne]

end Database

/-! ## Local operations -/

namespace Keyspace

variable {ks ks' : Keyspace} {t : Nat} {key : String}

theorem find_congr (h : ks.lookup key = ks'.lookup key) : ks.find t key = ks'.find t key := by
  unfold find
  rw [h]

theorem contains_congr (h : ks.lookup key = ks'.lookup key) :
    ks.contains t key = ks'.contains t key := by
  unfold contains
  rw [find_congr h]

theorem hget_congr (h : ks.lookup key = ks'.lookup key) (field : String) :
    ks.hget t key field = ks'.hget t key field := by
  unfold hget
  rw [find_congr h]

theorem hset_congr (h : ks.lookup key = ks'.lookup key) (values : List (String × ByteArray)) :
    (ks.hset t key values).lookup key = (ks'.hset t key values).lookup key := by
  unfold hset
  rw [find_congr h, Finmap.lookup_insert, Finmap.lookup_insert]

theorem hset_frame {key' : String} (hne : key' ≠ key) (values : List (String × ByteArray)) :
    (ks.hset t key values).lookup key' = ks.lookup key' := by
  unfold hset
  rw [HashMap.lookup_insert_ite, if_neg hne]

/-- What `PEXPIRE` answers and leaves depends on the key alone. -/
theorem pexpire_congr (h : ks.lookup key = ks'.lookup key) (millis : Nat) :
    (∃ e, ks.pexpire t key millis = .error e ∧ ks'.pexpire t key millis = .error e) ∨
    ∃ ks₁ ks₁', ks.pexpire t key millis = .ok ks₁ ∧ ks'.pexpire t key millis = .ok ks₁' ∧
      ks₁.lookup key = ks₁'.lookup key := by
  unfold pexpire
  rw [← find_congr h]
  by_cases hmillis : 2 ^ 63 ≤ millis
  · rw [if_pos hmillis, if_pos hmillis]
    exact Or.inl ⟨_, rfl, rfl⟩
  · rw [if_neg hmillis, if_neg hmillis]
    by_cases hsum : 2 ^ 63 ≤ t / 1000000 + millis
    · rw [if_pos hsum, if_pos hsum]
      exact Or.inl ⟨_, rfl, rfl⟩
    · rw [if_neg hsum, if_neg hsum]
      right
      cases ks.find t key with
      | none => exact ⟨ks, ks', rfl, rfl, h⟩
      | some entry =>
          dsimp only
          split_ifs
          · refine ⟨_, _, rfl, rfl, ?_⟩
            rw [HashMap.lookup_erase_ite, HashMap.lookup_erase_ite, if_pos rfl, if_pos rfl]
          · refine ⟨_, _, rfl, rfl, ?_⟩
            rw [Finmap.lookup_insert, Finmap.lookup_insert]

theorem pexpire_frame {ks₁ : Keyspace} {millis : Nat} (h : ks.pexpire t key millis = .ok ks₁)
    {key' : String} (hne : key' ≠ key) : ks₁.lookup key' = ks.lookup key' := by
  unfold pexpire at h
  cases hfind : ks.find t key with
  | none =>
      rw [hfind] at h
      dsimp only at h
      split_ifs at h
      cases h
      rfl
  | some entry =>
      rw [hfind] at h
      dsimp only at h
      split_ifs at h
      · cases h
        rw [HashMap.lookup_erase_ite, if_neg hne]
      · cases h
        rw [HashMap.lookup_insert_ite, if_neg hne]

end Keyspace

namespace Local

variable {α β : Type} {t : Nat} {key : String}

theorem pure (key : String) (a : α) : Local key fun ks => (ks, a) where
  frame _ _ _ := rfl
  answer _ _ _ := rfl
  entry _ _ h := h

/-- A call that goes on from the answer of a script. -/
theorem of_answer {c : Keyspace → Keyspace × α} {c' : Keyspace → Keyspace × β} (h : Local key c)
    (hstate : ∀ ks, (c' ks).1 = (c ks).1)
    (hanswer : ∀ ks ks', (c ks).2 = (c ks').2 → (c' ks).2 = (c' ks').2) : Local key c' where
  frame ks key' hne := by rw [hstate, h.frame ks key' hne]
  answer ks ks' hsame := hanswer ks ks' (h.answer ks ks' hsame)
  entry ks ks' hsame := by rw [hstate, hstate, h.entry ks ks' hsame]

/-- A script that reads under the key, and is local whatever it reads. -/
theorem read {c : Keyspace → Keyspace × α} (g : Keyspace → β)
    (hread : ∀ ks ks', ks.lookup key = ks'.lookup key → g ks = g ks')
    (h : ∀ b, ∃ c', (∀ ks, g ks = b → c ks = c' ks) ∧ Local key c') : Local key c where
  frame ks key' hne := by
    obtain ⟨c', heq, hlocal⟩ := h (g ks)
    rw [heq ks rfl, hlocal.frame ks key' hne]
  answer ks ks' hsame := by
    obtain ⟨c', heq, hlocal⟩ := h (g ks)
    rw [heq ks rfl, heq ks' (hread ks ks' hsame).symm, hlocal.answer ks ks' hsame]
  entry ks ks' hsame := by
    obtain ⟨c', heq, hlocal⟩ := h (g ks)
    rw [heq ks rfl, heq ks' (hread ks ks' hsame).symm, hlocal.entry ks ks' hsame]

theorem ite {p : Prop} [Decidable p] {c c' : Keyspace → Keyspace × α}
    (h : Local key c) (h' : Local key c') :
    Local key fun ks => if p then c ks else c' ks := by
  by_cases hp : p
  · simpa only [if_pos hp] using h
  · simpa only [if_neg hp] using h'

/-- `HSET` and then a script. -/
theorem hset {c : Keyspace → Keyspace × α} (h : Local key c)
    (values : List (String × ByteArray)) : Local key fun ks => c (ks.hset t key values) where
  frame ks key' hne := by rw [h.frame _ key' hne, Keyspace.hset_frame hne]
  answer ks ks' hsame := h.answer _ _ (Keyspace.hset_congr hsame values)
  entry ks ks' hsame := h.entry _ _ (Keyspace.hset_congr hsame values)

/-- `PEXPIRE` at the end of a script, which fails with it. -/
theorem pexpire (millis : Nat) (a : α) :
    Local key fun ks =>
      match ks.pexpire t key millis with
      | .error e => (ks, (.error e : Except String α))
      | .ok ks => (ks, .ok a) where
  frame ks key' hne := by
    rcases hexpire : ks.pexpire t key millis with e | ks₁
    · rfl
    · exact Keyspace.pexpire_frame hexpire hne
  answer ks ks' hsame := by
    rcases Keyspace.pexpire_congr (t := t) hsame millis with ⟨e, h, h'⟩ | ⟨ks₁, ks₁', h, h', -⟩
    · rw [h, h']
    · rw [h, h']
  entry ks ks' hsame := by
    rcases Keyspace.pexpire_congr (t := t) hsame millis with ⟨e, h, h'⟩ | ⟨ks₁, ks₁', h, h', hsame'⟩
    · rw [h, h']
      exact hsame
    · rw [h, h']
      exact hsame'

end Local

end Redis
