import AtmCore.LedgerState

/-! Reading a task row. The decoder goes through the text of the columns, and for a row whose columns pass
the schema it gives the row back: what is loaded determines every column of the stored row, the position
by its number. A read can still fail, on a counter that outgrew its type, but never with a constraint. -/

namespace AtmCore

open Fallible Option

/-- The fault is not an abort by the unique index over the queue positions. -/
def Fault.sparesQueueIndex : Fault → Prop
  | .err error => error.cause ≠ some (.constraint .tasksPositionPerMember)
  | .panic => True

theorem Fault.sparesQueueIndex_of_cause_none {error : AtmError} (h : error.cause = none) :
    (Fault.err error).sparesQueueIndex := by
  simp [sparesQueueIndex, h]

variable {α : Type} {x : Except AtmError α}

theorem ensures_fail_new {Q : α → Prop} {code : AtmErrorCode} {detail : String} :
    Ensures Fault.sparesQueueIndex Q (Outcome.fail (.new code detail) : Outcome α) :=
  Fault.sparesQueueIndex_of_cause_none rfl

theorem ensures_lift {Q : α → Prop}
    (herr : ∀ error, x = .error error → error.cause ≠ some (.constraint .tasksPositionPerMember))
    (hok : ∀ a, x = .ok a → Q a) : Ensures Fault.sparesQueueIndex Q (Outcome.lift x) := by
  cases x with
  | ok a => exact hok a rfl
  | error error => exact herr error rfl

variable {tag : TaskStateTag}

@[simp] theorem parseStateTag_name : parseStateTag (taskStateTagName tag) = .ok tag := by
  cases tag <;> rfl

@[simp] theorem parseCloseOutcome_asStr {outcome : TaskCloseOutcome} :
    parseCloseOutcome outcome.asStr = .ok outcome := by
  cases outcome <;> rfl

/-- The state columns are read as they are joined. -/
theorem parseState_eq {outcome : Option TaskCloseOutcome} :
    parseState (taskStateTagName tag) (outcome.map TaskCloseOutcome.asStr) =
      readParsed "task state" (TaskState.fromParts tag outcome) := by
  unfold parseState
  cases outcome <;> simp [mapM_some, pure, Except.pure, bind, Except.bind]

/-- A failed conversion of a column. -/
def SqliteFailure.IsConversion (failure : SqliteFailure) : Prop := ∃ column, failure = .conversion column

variable {column : String}

theorem readU32_spec {value : Nat} :
    Ensures SqliteFailure.IsConversion (fun read => read = value ∧ value < 2 ^ 32) (readU32 column value) := by
  unfold readU32
  split
  · next h => exact ⟨rfl, h⟩
  · exact ⟨column, rfl⟩

theorem readParsed_spec : Ensures SqliteFailure.IsConversion (fun a => x = .ok a) (readParsed column x) := by
  cases x with
  | ok a => exact rfl
  | error e => exact ⟨column, rfl⟩

theorem mapM_readU32_spec {value : Option Nat} :
    Ensures SqliteFailure.IsConversion (fun read => read = value ∧ ∀ n, value = some n → n < 2 ^ 32)
      (value.mapM (readU32 column)) := by
  cases value with
  | none => exact ⟨rfl, by simp⟩
  | some n =>
    refine (readU32_spec).bind (fun read hread => ?_)
    obtain ⟨rfl, hlt⟩ := hread
    exact ⟨rfl, by simpa using hlt⟩

/-- What a loaded row says about the columns it was read from. -/
structure Decodes (columns : TaskColumns) (row : TaskRow) : Prop where
  core : row.core = columns.core
  position : row.position = columns.position.bind QueuePosition.new?

theorem decodeRow_spec (columns : TaskColumns) :
    Ensures SqliteFailure.IsConversion (Decodes columns) (decodeRow columns) := by
  refine (mapM_readU32_spec).bind (fun position hpos => ?_)
  obtain ⟨rfl, -⟩ := hpos
  refine (readU32_spec).bind (fun count hcount => ?_)
  obtain ⟨rfl, -⟩ := hcount
  refine (readU32_spec).bind (fun lead hlead => ?_)
  obtain ⟨rfl, -⟩ := hlead
  simp only [Segment.parse_val, TaskId.parse_val, readParsed, Fallible.bind_ok, parseState_eq]
  refine (readParsed_spec).bind (fun state hstate => ?_)
  obtain ⟨htag, hout⟩ := (TaskState.fromParts_eq_ok_iff _).mp hstate
  refine ⟨?_, rfl⟩
  simp [TaskRow.core, TaskColumns.core, htag, hout]

/-- What a load says about the table. -/
structure Loads (tasks : TaskTable) (key : TaskKey) (row : Option TaskRow) : Prop where
  core : (tasks.find? key).map TaskColumns.core = row.map TaskRow.core
  decodes : ∀ r, row = some r → ∃ columns, tasks.find? key = some columns ∧ Decodes columns r

variable {tasks : TaskTable}

theorem Loads.of_find? {key : TaskKey} {row : Option TaskRow} {columns : TaskColumns}
    (h : Loads tasks key row) (hfind : tasks.find? key = some columns) :
    ∃ old, row = some old ∧ Decodes columns old := by
  cases row with
  | none =>
    have hcore := h.core
    rw [hfind] at hcore
    cases hcore
  | some old =>
    obtain ⟨columns', hfind', hdec⟩ := h.decodes old rfl
    obtain rfl := some.inj (hfind.symm.trans hfind')
    exact ⟨old, rfl, hdec⟩

theorem loadTaskRow_spec {team : TeamName} {taskId : TaskId} :
    Ensures Fault.sparesQueueIndex (Loads tasks (team, taskId)) (loadTaskRow tasks team taskId) := by
  unfold loadTaskRow selectTaskRow
  cases hfind : tasks.find? (team, taskId) with
  | none => exact ⟨by rw [hfind]; rfl, by simp⟩
  | some columns =>
    have hspec := decodeRow_spec columns
    simp only [mapM_some, Functor.map, Except.map]
    cases hrow : decodeRow columns with
    | error failure =>
      rw [hrow] at hspec
      obtain ⟨column, rfl⟩ := hspec
      simp [Outcome.fail, Fault.sparesQueueIndex]
    | ok row =>
      rw [hrow] at hspec
      refine ⟨?_, ?_⟩
      · rw [hfind]
        exact congrArg some hspec.core.symm
      · rintro r ⟨⟩
        exact ⟨columns, hfind, hspec⟩

end AtmCore
