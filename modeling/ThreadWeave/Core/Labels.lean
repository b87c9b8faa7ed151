import ThreadWeave.Core.Once

/-!
# The ids of executions and assignments

`schedule_one` draws an execution id and an assignment id after it has consumed
a task. Both travel with the assignment and are written into the record. As
`Core.Once` counts jobs, this module counts ids: those of assignments whose
record has yet to be created and those of records, together.

* `Label` — one of the two ids, by where it is found.
* `Unique` — no id is had twice, none is blank; `unique_takes` is its step.
* `Labelled.create_new` — `create` never finds the id taken.
-/

namespace ThreadWeave.Core

open Runs (HashMap Machine)

variable {Bytes : Type} {cfg : Config Bytes}

/-- An id that `schedule_one` draws for an assignment and copies to its record. -/
structure Label where
  ofAssignment : AssignExecutionRequest → String
  ofRecord : ExecutionRecord → String
  drawn : ∀ request jobId assignmentId executionId,
    ofAssignment (assignmentFor request jobId assignmentId executionId) ∈
      [assignmentId, executionId]
  copied : ∀ assignment workerId now,
    ofRecord (executionFor assignment workerId now) = ofAssignment assignment
  kept : ∀ (execution : ExecutionRecord) (state : ExecutionState) (now : Timestamp),
    ofRecord { execution with state := state, updatedAt := now } = ofRecord execution

def executionLabel : Label where
  ofAssignment := AssignExecutionRequest.executionId
  ofRecord := ExecutionRecord.executionId
  drawn := by simp [assignmentFor]
  copied := fun _ _ _ => rfl
  kept := fun _ _ _ => rfl

def assignmentLabel : Label where
  ofAssignment := AssignExecutionRequest.assignmentId
  ofRecord := ExecutionRecord.assignmentId
  drawn := by simp [assignmentFor]
  copied := fun _ _ _ => rfl
  kept := fun _ _ _ => rfl

namespace Label

variable (l : Label)

/-- The id of the assignment whose record a `schedule_one` is about to create. -/
def creating : SchedulePc Bytes → Option String
  | .creating _ assignment _ _ => some (l.ofAssignment assignment)
  | _ => none

/-- Every id as often as it stands for an assignment without a record or for a
record. -/
def labelsOf (schedules : HashMap Nat (SchedulePc Bytes)) (executions : MemoryExecutionStore) :
    Multiset String :=
  HashMap.collect l.creating schedules + HashMap.collect (fun e => some (l.ofRecord e)) executions

def labels (s : CoreState Bytes) : Multiset String := l.labelsOf s.schedules s.executions

/-! ## What a step does to them -/

theorem labelsOf_le {schedules schedules' : HashMap Nat (SchedulePc Bytes)}
    {executions : MemoryExecutionStore}
    (h : HashMap.collect l.creating schedules' ≤ HashMap.collect l.creating schedules) :
    l.labelsOf schedules' executions ≤ l.labelsOf schedules executions :=
  add_le_add h le_rfl

theorem labelsOf_update {schedules : HashMap Nat (SchedulePc Bytes)} {m : MemoryExecutionStore}
    {id : String} {e : ExecutionRecord} (he : m.lookup id = some e) (state : ExecutionState)
    (now : Timestamp) :
    l.labelsOf schedules (m.insert id { e with state := state, updatedAt := now }) =
      l.labelsOf schedules m := by
  unfold labelsOf
  rw [HashMap.collect_insert, l.kept, HashMap.collect_of_lookup _ he]

variable {s s' : CoreState Bytes} {a : Act} {o : Out Bytes}

/-- `create` turns the id of an assignment into that of a record. -/
theorem labelsOf_created {k : Nat} {w : String} {asg : AssignExecutionRequest}
    {submitted : BrokerEnvelope Bytes} {now : Timestamp}
    (hpc : s.schedules.lookup k = some (.creating w asg submitted now))
    (hnew : asg.executionId ∉ s.executions) :
    l.labelsOf (s.schedules.insert k (.publishing w asg submitted))
        (s.executions.insert asg.executionId (executionFor asg w now)) = l.labels s := by
  unfold labels labelsOf
  rw [HashMap.collect_insert l.creating, HashMap.collect_of_lookup l.creating hpc,
    HashMap.collect_insert_of_notMem _ hnew, l.copied]
  simp only [creating, Option.toList_none, Multiset.coe_nil, zero_add]
  ac_rfl

/-- `schedule_one` adds the id it has drawn. -/
theorem labelsOf_consumed {k : Nat} {w : String} (asg : AssignExecutionRequest)
    (submitted : BrokerEnvelope Bytes) (now : Timestamp)
    (hpc : s.schedules.lookup k = some (.consuming w)) :
    l.labelsOf (s.schedules.insert k (.creating w asg submitted now)) s.executions =
      l.ofAssignment asg ::ₘ l.labels s := by
  unfold labels labelsOf
  rw [HashMap.collect_insert, HashMap.collect_of_lookup l.creating hpc]
  simp only [creating, Option.toList_some, Option.toList_none, Multiset.coe_nil, zero_add,
    Multiset.coe_singleton, Multiset.singleton_add, Multiset.cons_add]

/-- Only a `schedule_one` that has consumed a task adds an id, and it is a new
one. -/
theorem labels_takes (h : Takes cfg s a o s') :
    l.labels s' ≤ l.labels s ∨
    ∃ x, x ∉ s.drawn ∧ Rust.isBlank x = false ∧ x ∈ s'.drawn ∧
      l.labels s' = x ::ₘ l.labels s := by
  have hleave (k : Nat) : l.labelsOf (s.schedules.erase k) s.executions ≤ l.labels s :=
    l.labelsOf_le (collect_erase_le _ _ k)
  have hinsert (k : Nat) (pc : SchedulePc Bytes) (hpc : l.creating pc = none) :
      l.labelsOf (s.schedules.insert k pc) s.executions ≤ l.labels s :=
    l.labelsOf_le (collect_insert_le _ k hpc)
  cases h with
  | stateUpdated k now report state jobId outcome e hpc hexec =>
      exact Or.inl (l.labelsOf_update hexec state now).le
  | stateLost k error now report state jobId outcome e hpc hexec =>
      exact Or.inl (l.labelsOf_update hexec state now).le
  | scheduleOne k hfree => exact Or.inl (hinsert k _ rfl)
  | directoryFailed k error hpc => exact Or.inl (hleave k)
  | noWorker k hpc hread => exact Or.inl (hleave k)
  | chosen k workerId rest hpc hread => exact Or.inl (hinsert k _ rfl)
  | consumeFailed k error workerId hpc => exact Or.inl (hleave k)
  | undecodable k f asg x now workerId error submitted rest hpc hqueue hfresh hdecode =>
      exact Or.inl (hleave k)
  | consumed k f asg x now workerId submitted rest request hpc hqueue hfresh hdecode =>
      have hmem := l.drawn request (submitted.correlationId.getD f) asg x
      have hnew := hfresh.2 _ (List.mem_cons_of_mem f hmem)
      refine Or.inr ⟨_, hnew.1, hnew.2, ?_, l.labelsOf_consumed _ submitted now hpc⟩
      exact Finset.mem_union_right _ (List.mem_toFinset.mpr (List.mem_cons_of_mem f hmem))
  | createFailed k answer error workerId asg submitted now hpc hcreate => exact Or.inl (hleave k)
  | created k workerId asg submitted now hpc hnew => exact Or.inl (l.labelsOf_created hpc hnew).le
  | dispatchFailed k messageId now error workerId asg submitted hpc hfresh =>
      exact Or.inl (hleave k)
  | dispatched k messageId now workerId asg submitted hpc hfresh => exact Or.inl (hleave k)
  | _ => exact Or.inl le_rfl

/-! ## Unique -/

/-- No id is had twice, and each has been drawn. -/
structure Unique (s : CoreState Bytes) : Prop where
  nodup : (l.labels s).Nodup
  drawn : ∀ x ∈ l.labels s, x ∈ s.drawn
  named : ∀ x ∈ l.labels s, Rust.isBlank x = false

variable {l}

theorem unique_takes (h : Takes cfg s a o s') (hu : l.Unique s) : l.Unique s' := by
  rcases l.labels_takes h with hle | ⟨x, hnew, hblank, hdrawn, heq⟩
  · refine ⟨Multiset.nodup_of_le hle hu.nodup, ?_, ?_⟩
    · intro x hx
      exact drawn_stays h (hu.drawn x (Multiset.mem_of_le hle hx))
    · intro x hx
      exact hu.named x (Multiset.mem_of_le hle hx)
  · have hnotin : x ∉ l.labels s := fun hx => hnew (hu.drawn x hx)
    refine ⟨?_, ?_, ?_⟩
    · rw [heq]
      exact Multiset.nodup_cons.mpr ⟨hnotin, hu.nodup⟩
    · intro y hy
      rw [heq] at hy
      rcases Multiset.mem_cons.mp hy with rfl | hold
      · exact hdrawn
      · exact drawn_stays h (hu.drawn y hold)
    · intro y hy
      rw [heq] at hy
      rcases Multiset.mem_cons.mp hy with rfl | hold
      · exact hblank
      · exact hu.named y hold

theorem unique_start (l : Label) (registry : MemoryWorkerRegistry) :
    l.Unique (CoreState.start Bytes registry) := by
  have hlabels : l.labels (CoreState.start Bytes registry) = 0 := rfl
  refine ⟨?_, ?_, ?_⟩
  · rw [hlabels]
    exact Multiset.nodup_zero
  · intro x hx
    exact absurd (hlabels ▸ hx) (Multiset.notMem_zero x)
  · intro x hx
    exact absurd (hlabels ▸ hx) (Multiset.notMem_zero x)

theorem mem_labels_of_record {id : String} {e : ExecutionRecord}
    (he : s.executions.lookup id = some e) : l.ofRecord e ∈ l.labels s :=
  Multiset.mem_add.mpr (Or.inr (HashMap.mem_collect.mpr ⟨id, e, he, rfl⟩))

/-- Two records have different ids. -/
theorem Unique.record_unique (hu : l.Unique s) {id id' : String} {e e' : ExecutionRecord}
    (he : s.executions.lookup id = some e) (he' : s.executions.lookup id' = some e')
    (hlabel : l.ofRecord e = l.ofRecord e') : id = id' := by
  by_contra hne
  have hnd : (HashMap.collect (fun e => some (l.ofRecord e)) s.executions).Nodup :=
    Multiset.nodup_of_le (Multiset.le_add_left _ _) hu.nodup
  have he'' : (s.executions.erase id).lookup id' = some e' := by
    rw [Finmap.lookup_erase_ne (Ne.symm hne)]
    exact he'
  rw [HashMap.collect_of_lookup _ he, HashMap.collect_of_lookup _ he''] at hnd
  simp [hlabel] at hnd

/-- An assignment whose record is yet to be created has an id of its own. -/
theorem Unique.creating_new (hu : l.Unique s) {k : Nat} {w : String}
    {asg : AssignExecutionRequest} {submitted : BrokerEnvelope Bytes} {now : Timestamp}
    (hpc : s.schedules.lookup k = some (.creating w asg submitted now)) {id : String}
    {e : ExecutionRecord} (he : s.executions.lookup id = some e) :
    l.ofRecord e ≠ l.ofAssignment asg := by
  intro heq
  have hnd := hu.nodup
  unfold labels labelsOf at hnd
  rw [HashMap.collect_of_lookup _ hpc, HashMap.collect_of_lookup _ he] at hnd
  simp [creating, heq] at hnd

end Label

/-! ## `create` -/

/-- Records are kept under their execution id. -/
def RecordsKeyed (s : CoreState Bytes) : Prop :=
  ∀ id e, s.executions.lookup id = some e → e.executionId = id

theorem recordsKeyed_takes {s s' : CoreState Bytes} {a : Act} {o : Out Bytes}
    (h : Takes cfg s a o s') (hk : RecordsKeyed s) : RecordsKeyed s' := by
  intro id e he
  rcases executions_of_takes h he with ⟨e₀, he₀, hid⟩ | ⟨k, w, asg, sub, now, -, rfl, rfl⟩
  · have hsame : e₀.executionId = e.executionId := congrArg Prod.fst hid
    rw [← hsame]
    exact hk id e₀ he₀
  · rfl

/-- The ids are in order. -/
structure Labelled (s : CoreState Bytes) : Prop where
  executions : executionLabel.Unique s
  assignments : assignmentLabel.Unique s
  keyed : RecordsKeyed s

theorem labelled_takes {s s' : CoreState Bytes} {a : Act} {o : Out Bytes}
    (h : Takes cfg s a o s') (hl : Labelled s) : Labelled s' where
  executions := Label.unique_takes h hl.executions
  assignments := Label.unique_takes h hl.assignments
  keyed := recordsKeyed_takes h hl.keyed

theorem labelled_start (registry : MemoryWorkerRegistry) :
    Labelled (CoreState.start Bytes registry) where
  executions := Label.unique_start _ registry
  assignments := Label.unique_start _ registry
  keyed := by
    intro id e he
    simp [CoreState.start] at he

/-- `create` is never asked to create a record that is there. -/
theorem Labelled.create_new {s : CoreState Bytes} (hl : Labelled s) {k : Nat} {w : String}
    {asg : AssignExecutionRequest} {submitted : BrokerEnvelope Bytes} {now : Timestamp}
    (hpc : s.schedules.lookup k = some (.creating w asg submitted now)) :
    asg.executionId ∉ s.executions := by
  intro hmem
  rcases Finmap.mem_iff.mp hmem with ⟨e, he⟩
  exact hl.executions.creating_new hpc he (hl.keyed _ e he)

end ThreadWeave.Core
