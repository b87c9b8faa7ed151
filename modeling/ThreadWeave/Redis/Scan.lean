import ThreadWeave.Redis.Keyspace

/-!
# An iteration with `SCAN`

`SCAN` goes over the keys in many commands, and between two of them the keys may
change. Redis promises little about such an iteration: a key that was there from
the first to the last command of it is returned, a key that came or went may be
returned or not, and any key may be returned more than once.

* `Keyspace.matching` — the keys that an iteration is about.
* `Iteration` — those of them that have stayed, and the ones that were returned.
* `Iteration.Allows` — what the next reply may be.
-/

namespace Redis

/-- The keys that match and that a command at `t` sees. -/
def Keyspace.matching (ks : Keyspace) (t : Nat) (pattern : String) : Finset String :=
  ks.keys.filter fun key => ks.contains t key && Glob.isMatch pattern key

theorem Keyspace.mem_matching {ks : Keyspace} {t : Nat} {pattern key : String} :
    key ∈ ks.matching t pattern ↔
      ks.contains t key = true ∧ Glob.isMatch pattern key = true := by
  unfold Keyspace.matching
  rw [Finset.mem_filter, Bool.and_eq_true]
  constructor
  · intro h
    exact h.2
  · intro h
    refine ⟨?_, h⟩
    obtain ⟨entry, hfind⟩ := Option.isSome_iff_exists.mp h.1
    rw [Finmap.mem_keys, Finmap.mem_iff]
    exact ⟨entry, (Keyspace.find_eq_some.mp hfind).1⟩

/-- An iteration that is under way: the matching keys that were there all the time
since its first command, and the keys of its replies. -/
structure Iteration where
  stayed : Finset String
  returned : List String
deriving DecidableEq

namespace Iteration

/-- The iteration at its first command. -/
def begin (matching : Finset String) : Iteration := { stayed := matching, returned := [] }

/-- What is left of it when `matching` are the keys. -/
def keep (iteration : Iteration) (matching : Finset String) : Iteration :=
  { iteration with stayed := iteration.stayed ∩ matching }

/-- A reply has matching keys only, and the last one completes the iteration. -/
def Allows (iteration : Iteration) (pattern : String) (reply : ScanReply) : Prop :=
  (∀ key ∈ reply.2, Glob.isMatch pattern key = true) ∧
  (reply.1 = 0 → ∀ key ∈ iteration.stayed, key ∈ iteration.returned ++ reply.2)

instance decidableAllows (iteration : Iteration) (pattern : String) (reply : ScanReply) :
    Decidable (iteration.Allows pattern reply) :=
  inferInstanceAs (Decidable (_ ∧ _))

def reply (iteration : Iteration) (keys : List String) : Iteration :=
  { iteration with returned := iteration.returned ++ keys }

theorem keep_stayed {iteration : Iteration} {matching : Finset String} {key : String} :
    key ∈ (iteration.keep matching).stayed ↔ key ∈ iteration.stayed ∧ key ∈ matching :=
  Finset.mem_inter

end Iteration

end Redis
