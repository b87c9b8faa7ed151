import Mathlib
import ThreadWeave.Runs.Table

/-!
# A Redis keyspace

The part of Redis that scripts over hashes use. A key holds a hash, and
possibly the time at which it expires; an expired key stays in the map, where
no command sees it. Values are byte strings, times are nanoseconds.

A script runs without interleaving, so it is a function of the keyspace and of
the time it runs at.

* `find` — the entry of a key that a command at `t` sees.
* `hget`, `hmget`, `hset`, `pexpire`, `contains` — the commands.
* `Expiring` — every key has an expiry time.
* `Glob` — the patterns of `SCAN MATCH`, `FullScan` — what a full iteration with
  `SCAN` is known to return.
-/

namespace Redis

open Runs (HashMap)

/-- The bytes of a text argument. -/
def text (s : String) : ByteArray := s.toUTF8

@[simp] theorem text_inj {s t : String} : text s = text t ↔ s = t := String.toByteArray_inj

/-- A text argument is read back as it was. -/
@[simp] theorem fromUTF8?_text (s : String) : String.fromUTF8? (text s) = some s :=
  dif_pos s.isValidUTF8

structure Entry where
  fields : HashMap String ByteArray
  expireAt : Option Nat
deriving DecidableEq

/-- A key without an expiry time is always visible. -/
def Entry.visibleAt (entry : Entry) (t : Nat) : Bool := entry.expireAt.all fun u => t < u

/-- The fields written one after another, the last value of a field wins. -/
def Entry.write (entry : Entry) (values : List (String × ByteArray)) : Entry :=
  { entry with fields := values.foldl (fun fields v => fields.insert v.1 v.2) entry.fields }

@[simp] theorem Entry.visibleAt_write (entry : Entry) (values : List (String × ByteArray))
    (t : Nat) : (entry.write values).visibleAt t = entry.visibleAt t := rfl

/-- The hash of a key that is written for the first time. -/
def Entry.empty : Entry := { fields := ∅, expireAt := none }

abbrev Keyspace := HashMap String Entry

namespace Keyspace

variable (ks : Keyspace) (t : Nat)

def find (key : String) : Option Entry := (ks.lookup key).filter fun entry => entry.visibleAt t

def contains (key : String) : Bool := (ks.find t key).isSome

def hget (key field : String) : Option ByteArray :=
  (ks.find t key).bind fun entry => entry.fields.lookup field

def hmget (key : String) (fields : List String) : List (Option ByteArray) :=
  fields.map (ks.hget t key)

/-- Writes into the hash that is there or into a new one. -/
def hset (key : String) (values : List (String × ByteArray)) : Keyspace :=
  ks.insert key (((ks.find t key).getD .empty).write values)

/-- The argument is a signed 64-bit number of milliseconds, and so must be the
time that it stands for; a time that is not in the future deletes the key. -/
def pexpire (key : String) (millis : Nat) : Except String Keyspace :=
  if 2 ^ 63 ≤ millis then .error "value is not an integer or out of range"
  else if 2 ^ 63 ≤ t / 1000000 + millis then
    .error "invalid expire time in 'pexpire' command"
  else match ks.find t key with
    | none => .ok ks
    | some entry =>
        if millis = 0 then .ok (ks.erase key)
        else .ok (ks.insert key { entry with expireAt := some (t + millis * 1000000) })

/-- `PEXPIRE` takes that many milliseconds at `t`. -/
def ExpiryFits (millis : Nat) : Prop := t / 1000000 + millis < 2 ^ 63

instance (millis : Nat) : Decidable (ExpiryFits t millis) :=
  inferInstanceAs (Decidable (_ < _))

variable {ks} {t}

theorem ExpiryFits.lt {millis : Nat} (h : ExpiryFits t millis) : millis < 2 ^ 63 := by
  have hsum : t / 1000000 + millis < 2 ^ 63 := h
  omega

theorem find_eq_some {key : String} {entry : Entry} :
    ks.find t key = some entry ↔ ks.lookup key = some entry ∧ entry.visibleAt t := by
  simp [find, Option.filter_eq_some_iff]

theorem find_insert (key key' : String) (entry : Entry) :
    find (ks.insert key entry) t key' =
      if key' = key then (if entry.visibleAt t then some entry else none) else ks.find t key' := by
  unfold find
  rw [HashMap.lookup_insert_ite]
  split_ifs with hkey hvis
  · simp [Option.filter_some, hvis]
  · simp [Option.filter_some, hvis]
  · rfl

theorem find_erase (key key' : String) :
    find (ks.erase key) t key' = if key' = key then none else ks.find t key' := by
  unfold find
  rw [HashMap.lookup_erase_ite]
  split_ifs with hkey
  · rfl
  · rfl

/-- What a number that does not fit is answered; nothing is done. -/
theorem pexpire_of_not_fits {key : String} {millis : Nat} (hfits : ¬ ExpiryFits t millis) :
    ∃ error, ks.pexpire t key millis = .error error := by
  have hsum : 2 ^ 63 ≤ t / 1000000 + millis := Nat.not_lt.mp hfits
  unfold pexpire
  by_cases hmillis : 2 ^ 63 ≤ millis
  · exact ⟨_, if_pos hmillis⟩
  · rw [if_neg hmillis, if_pos hsum]
    exact ⟨_, rfl⟩

theorem pexpire_of_fits {key : String} {entry : Entry} {millis : Nat}
    (hfind : ks.find t key = some entry) (hfits : ExpiryFits t millis) :
    ks.pexpire t key millis =
      if millis = 0 then .ok (ks.erase key)
      else .ok (ks.insert key { entry with expireAt := some (t + millis * 1000000) }) := by
  have hsum : t / 1000000 + millis < 2 ^ 63 := hfits
  unfold pexpire
  rw [if_neg (Nat.not_le.mpr hfits.lt), if_neg (Nat.not_le.mpr hsum), hfind]

/-- `PEXPIRE` on a key that is there gives it a new time and leaves the hash. -/
theorem pexpire_of_find {key : String} {entry : Entry} {millis : Nat}
    (hfind : ks.find t key = some entry) (hpos : 0 < millis) (hfits : ExpiryFits t millis) :
    ks.pexpire t key millis =
      .ok (ks.insert key { entry with expireAt := some (t + millis * 1000000) }) := by
  rw [pexpire_of_fits hfind hfits, if_neg (Nat.pos_iff_ne_zero.mp hpos)]

/-- What `HSET` writes into is visible. -/
theorem find_hset (ks : Keyspace) (t : Nat) (key : String) (values : List (String × ByteArray)) :
    (ks.hset t key values).find t key =
      some (((ks.find t key).getD .empty).write values) := by
  have hvis : ((ks.find t key).getD .empty).visibleAt t = true := by
    rcases hfind : ks.find t key with _ | entry
    · rfl
    · exact (find_eq_some.mp hfind).2
  unfold hset
  rw [find_insert, if_pos rfl, Entry.visibleAt_write, if_pos hvis]

/-- `PEXPIRE` right after `HSET`: the hash lives for that time. -/
theorem hset_pexpire (ks : Keyspace) (t : Nat) (key : String)
    (values : List (String × ByteArray)) {millis : Nat} (hpos : 0 < millis)
    (hfits : ExpiryFits t millis) :
    ∃ ks', (ks.hset t key values).pexpire t key millis = .ok ks' ∧
      ks'.lookup key = some
        { ((ks.find t key).getD .empty).write values with
          expireAt := some (t + millis * 1000000) } ∧
      ∀ key', key' ≠ key → ks'.lookup key' = ks.lookup key' := by
  rw [pexpire_of_find (ks.find_hset t key values) hpos hfits]
  refine ⟨_, rfl, ?_, ?_⟩
  · rw [HashMap.lookup_insert_ite, if_pos rfl]
  · intro key' hne
    unfold hset
    rw [HashMap.lookup_insert_ite, if_neg hne, HashMap.lookup_insert_ite, if_neg hne]

theorem contains_of_hget {key field : String} {value : ByteArray}
    (h : ks.hget t key field = some value) : ks.contains t key = true := by
  rcases Option.bind_eq_some_iff.mp h with ⟨entry, hfind, -⟩
  unfold contains
  rw [hfind]
  rfl

theorem contains_hset (ks : Keyspace) (t : Nat) (key : String)
    (values : List (String × ByteArray)) : (ks.hset t key values).contains t key = true := by
  unfold contains
  rw [find_hset]
  rfl

/-- A key with a later time is visible. -/
theorem find_insert_later (ks : Keyspace) (key : String) (entry : Entry) {u : Nat} (h : t < u) :
    find (ks.insert key { entry with expireAt := some u }) t key =
      some { entry with expireAt := some u } := by
  have hvis : Entry.visibleAt { entry with expireAt := some u } t = true := by
    simpa [Entry.visibleAt] using h
  rw [find_insert, if_pos rfl, if_pos hvis]

/-- `PEXPIRE` on a visible key: without a millisecond left the key goes, else it
has a time. -/
theorem pexpire_of_contains {key : String} {millis : Nat} (hkey : ks.contains t key = true)
    (hfits : ExpiryFits t millis) :
    ∃ ks', ks.pexpire t key millis = .ok ks' ∧
      (millis = 0 → ks'.contains t key = false) ∧
      (0 < millis → ∃ entry, ks'.find t key = some entry ∧ entry.expireAt.isSome) := by
  rcases Option.isSome_iff_exists.mp hkey with ⟨entry, hfind⟩
  rw [pexpire_of_fits hfind hfits]
  by_cases hzero : millis = 0
  · rw [if_pos hzero]
    refine ⟨_, rfl, ?_, ?_⟩
    · intro _
      unfold contains
      rw [find_erase, if_pos rfl]
      rfl
    · intro hpos
      omega
  · rw [if_neg hzero]
    refine ⟨_, rfl, ?_, ?_⟩
    · intro hmillis
      exact absurd hmillis hzero
    · intro hpos
      have hlater : t < t + millis * 1000000 := by omega
      exact ⟨_, find_insert_later ks key entry hlater, rfl⟩

/-! ## Keys that expire -/

/-- Every key has a time at which it goes. -/
def Expiring (ks : Keyspace) : Prop :=
  ∀ key entry, ks.lookup key = some entry → entry.expireAt.isSome

theorem expiring_empty : Expiring ∅ := by
  intro key entry h
  rw [Finmap.lookup_empty] at h
  cases h

/-- `HSET` into a hash that is there leaves its time. -/
theorem Expiring.hset (h : Expiring ks) {key : String} (hkey : ks.contains t key = true)
    (values : List (String × ByteArray)) : Expiring (ks.hset t key values) := by
  rcases Option.isSome_iff_exists.mp hkey with ⟨entry, hfind⟩
  have hlook := (find_eq_some.mp hfind).1
  intro key' entry' hlook'
  unfold Keyspace.hset at hlook'
  rw [HashMap.lookup_insert_ite, hfind] at hlook'
  split_ifs at hlook' with hsame
  · cases hlook'
    exact h key entry hlook
  · exact h key' entry' hlook'

/-- `PEXPIRE` on the one key that may be without a time. -/
theorem Expiring.of_pexpire {ks' : Keyspace} {key : String} {millis : Nat}
    (hother : ∀ key' entry, key' ≠ key → ks.lookup key' = some entry → entry.expireAt.isSome)
    (hkey : ks.contains t key = true) (hok : ks.pexpire t key millis = .ok ks') :
    Expiring ks' := by
  rcases Option.isSome_iff_exists.mp hkey with ⟨entry, hfind⟩
  unfold pexpire at hok
  rw [hfind] at hok
  dsimp only at hok
  intro key' entry' hlook
  split_ifs at hok with h₁ h₂ hzero
  · cases hok
    rw [HashMap.lookup_erase_ite] at hlook
    split_ifs at hlook with hsame
    exact hother key' entry' hsame hlook
  · cases hok
    rw [HashMap.lookup_insert_ite] at hlook
    split_ifs at hlook with hsame
    · cases hlook
      rfl
    · exact hother key' entry' hsame hlook

/-- `HSET` and then `PEXPIRE`, if that is taken. -/
theorem Expiring.hset_pexpire (h : Expiring ks) {ks' : Keyspace} {key : String}
    {values : List (String × ByteArray)} {millis : Nat}
    (hok : (ks.hset t key values).pexpire t key millis = .ok ks') : Expiring ks' := by
  refine .of_pexpire ?_ (contains_hset ks t key values) hok
  intro key' entry hne hlook
  unfold Keyspace.hset at hlook
  rw [HashMap.lookup_insert_ite, if_neg hne] at hlook
  exact h key' entry hlook

end Keyspace

/-! ## Patterns -/

namespace Glob

/-- One piece of a pattern: a character, `?`, `*`, or a class with its ranges. -/
inductive Token where
  | char (c : Char)
  | anyChar
  | anyText
  | oneOf (negated : Bool) (ranges : List (Char × Char))
deriving DecidableEq

/-- The pieces of a pattern. `cls` is the class that is being read: `\` takes
the next character literally, in a class and outside. -/
def tokens (cls : Option (Bool × List (Char × Char))) (pattern : List Char) : List Token :=
  match cls, pattern with
  | none, [] => []
  | none, '*' :: rest => .anyText :: tokens none rest
  | none, '?' :: rest => .anyChar :: tokens none rest
  | none, '[' :: '^' :: rest => tokens (some (true, [])) rest
  | none, '[' :: rest => tokens (some (false, [])) rest
  | none, '\\' :: c :: rest => .char c :: tokens none rest
  | none, c :: rest => .char c :: tokens none rest
  | some (negated, ranges), [] => [.oneOf negated ranges]
  | some (negated, ranges), '\\' :: c :: rest => tokens (some (negated, (c, c) :: ranges)) rest
  | some (negated, ranges), ']' :: rest => .oneOf negated ranges :: tokens none rest
  | some (negated, ranges), a :: '-' :: b :: rest =>
      tokens (some (negated, (if a ≤ b then (a, b) else (b, a)) :: ranges)) rest
  | some (negated, ranges), c :: rest => tokens (some (negated, (c, c) :: ranges)) rest
termination_by structural pattern

/-- Whether the pieces match the whole text. -/
def matchTokens : List Token → List Char → Bool
  | [], cs => cs.isEmpty
  | .char c :: rest, d :: cs => c == d && matchTokens rest cs
  | .anyChar :: rest, _ :: cs => matchTokens rest cs
  | .oneOf negated ranges :: rest, d :: cs =>
      (ranges.any (fun r => r.1 ≤ d && d ≤ r.2) != negated) && matchTokens rest cs
  | .anyText :: rest, cs => cs.tails.any (matchTokens rest)
  | _ :: _, [] => false

/-- The UTF-8 bytes of a text: Redis matches byte by byte, and a byte is the
character with that number. -/
def bytes (cs : List Char) : List Char :=
  cs.flatMap fun c => (String.utf8EncodeChar c).map Char.ofUInt8

/-- `key` matches `pattern`. -/
def isMatch (pattern key : String) : Bool :=
  matchTokens (tokens none (bytes pattern.toList)) (bytes key.toList)

/-- A run of plain characters before a final `*`. -/
theorem matchTokens_chars_anyText {cs ds : List Char} :
    matchTokens (cs.map .char ++ [.anyText]) ds = true ↔ cs <+: ds := by
  induction cs generalizing ds with
  | nil =>
      simp only [List.map_nil, List.nil_append, matchTokens, List.any_eq_true, List.mem_tails,
        List.nil_prefix, iff_true]
      exact ⟨[], List.nil_suffix, rfl⟩
  | cons c cs ih =>
      cases ds with
      | nil => simp [matchTokens]
      | cons d ds =>
          rw [List.cons_prefix_cons, ← ih]
          simp [matchTokens]

/-! ## Bytes -/

theorem bytes_append (cs ds : List Char) : bytes (cs ++ ds) = bytes cs ++ bytes ds :=
  List.flatMap_append

theorem toNat_ofUInt8 (b : UInt8) : (Char.ofUInt8 b).toNat = b.toNat := by
  exact UInt8.toNat_toUInt32 b

theorem ofUInt8_injective : Function.Injective Char.ofUInt8 := by
  intro b b' h
  have hnat := congrArg Char.toNat h
  rw [toNat_ofUInt8, toNat_ofUInt8] at hnat
  exact UInt8.toNat_inj.mp hnat

/-- An ASCII character is its own byte; the bytes of any other one are above. -/
theorem bytes_char (c : Char) :
    (String.utf8EncodeChar c).map Char.ofUInt8 = [c] ∨
      ∀ d ∈ (String.utf8EncodeChar c).map Char.ofUInt8, 128 ≤ d.toNat := by
  unfold String.utf8EncodeChar
  dsimp only
  split_ifs with h₁ h₂ h₃
  · left
    rw [List.map_singleton, List.singleton_inj]
    apply Char.toNat_inj.mp
    rw [toNat_ofUInt8, UInt8.toNat_ofNat']
    have hsmall : c.toNat ≤ 127 := h₁
    show c.toNat % 256 = c.toNat
    omega
  · right
    simp only [List.map_cons, List.map_nil, List.forall_mem_cons, toNat_ofUInt8,
      UInt8.toNat_ofNat']
    exact ⟨by omega, by omega, by simp⟩
  · right
    simp only [List.map_cons, List.map_nil, List.forall_mem_cons, toNat_ofUInt8,
      UInt8.toNat_ofNat']
    exact ⟨by omega, by omega, by omega, by simp⟩
  · right
    simp only [List.map_cons, List.map_nil, List.forall_mem_cons, toNat_ofUInt8,
      UInt8.toNat_ofNat']
    exact ⟨by omega, by omega, by omega, by omega, by simp⟩

theorem utf8EncodeChar_append_inj {c d : Char} {u v : List UInt8}
    (h : String.utf8EncodeChar c ++ u = String.utf8EncodeChar d ++ v) : c = d ∧ u = v := by
  have hc := @ByteArray.utf8DecodeChar?_utf8EncodeChar_append u.toByteArray c
  have hd := @ByteArray.utf8DecodeChar?_utf8EncodeChar_append v.toByteArray d
  rw [← List.toByteArray_append, h, List.toByteArray_append, hd, Option.some.injEq] at hc
  subst hc
  exact ⟨rfl, List.append_cancel_left h⟩

/-- UTF-8 is a prefix code. -/
theorem bytes_prefix {cs ds : List Char} : bytes cs <+: bytes ds ↔ cs <+: ds := by
  have hmap (l : List Char) : bytes l = (l.flatMap String.utf8EncodeChar).map Char.ofUInt8 := by
    rw [bytes, List.map_flatMap]
  constructor
  · intro h
    rw [hmap, hmap, List.prefix_map_iff] at h
    rcases h with ⟨u, hu, hcs⟩
    rw [(List.map_injective_iff.mpr ofUInt8_injective).eq_iff] at hcs
    subst hcs
    induction cs generalizing ds with
    | nil => exact List.nil_prefix
    | cons c cs ih =>
        cases ds with
        | nil => simp [String.utf8EncodeChar_ne_nil] at hu
        | cons d ds =>
            rcases hu with ⟨rest, hrest⟩
            rw [List.flatMap_cons, List.flatMap_cons, List.append_assoc] at hrest
            rcases utf8EncodeChar_append_inj hrest with ⟨rfl, htail⟩
            exact List.cons_prefix_cons.mpr ⟨rfl, ih ⟨rest, htail⟩⟩
  · rintro ⟨rest, rfl⟩
    rw [bytes_append]
    exact List.prefix_append _ _

end Glob

/-! ## `SCAN` -/

/-- One reply of `SCAN`: the next cursor and a batch of keys. -/
abbrev ScanReply := Nat × List String

/-- The cursor is 0 in the last reply and in no other. -/
def EndsScan : List ScanReply → Prop
  | [] => False
  | [reply] => reply.1 = 0
  | reply :: replies => reply.1 ≠ 0 ∧ EndsScan replies

instance decidableEndsScan : (replies : List ScanReply) → Decidable (EndsScan replies)
  | [] => inferInstanceAs (Decidable False)
  | [reply] => inferInstanceAs (Decidable (reply.1 = 0))
  | reply :: reply' :: replies =>
      have := decidableEndsScan (reply' :: replies)
      inferInstanceAs (Decidable (reply.1 ≠ 0 ∧ EndsScan (reply' :: replies)))

/-- A full iteration at `t`, in any batching and with any repetition: every
key that is visible and matches is returned. Nothing is assumed about what else
is returned. -/
def FullScan (ks : Keyspace) (t : Nat) (pattern : String) (replies : List ScanReply) : Prop :=
  EndsScan replies ∧
  ∀ key ∈ ks.keys, (ks.contains t key && Glob.isMatch pattern key) = true →
    ∃ reply ∈ replies, key ∈ reply.2

instance (ks : Keyspace) (t : Nat) (pattern : String) (replies : List ScanReply) :
    Decidable (FullScan ks t pattern replies) :=
  inferInstanceAs (Decidable (_ ∧ _))

/-- There always is a full iteration. -/
theorem exists_fullScan (ks : Keyspace) (t : Nat) (pattern : String) :
    ∃ replies, FullScan ks t pattern replies := by
  refine ⟨[(0, ks.keys.val.toList)], rfl, ?_⟩
  intro key hkey _
  exact ⟨_, List.mem_singleton_self _, Multiset.mem_toList.mpr hkey⟩

end Redis
