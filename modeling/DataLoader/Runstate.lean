import DataLoader.Metadata.Models
import Mathlib.Data.List.AList
import Mathlib.Data.List.Sort

/-!
# The run-state registry

Model of `internal/runstate/registry.go`: the in-memory status of every load
that `/status` shows. The map `loads` is an association list with unique keys.

* `status`: the description of a load, which only `Register` sets.
* `Filed`: entries are filed under their own id. `Snapshot` then has each once and in
  increasing order (`Filed.increasing`).
-/

namespace DataLoader

/-- `runstate.LoadState` (lines 10–28). `lastStatus` is empty before the first run. -/
structure LoadState where
  loadID : Int
  loadName : String
  sourceName : String
  sourceKind : String
  cronExpression : String
  lastRunUUID : String := ""
  lastStartedAt : Time := 0
  lastFinishedAt : Time := 0
  lastStatus : String := ""
  lastRowsRead : Int := 0
  lastRowsWritten : Int := 0
  lastError : String := ""
  currentlyRunning : Bool := false
  deriving DecidableEq, Repr

/-- The fields of a `LoadState` that describe a load. -/
structure StatusRow where
  loadID : Int
  loadName : String
  sourceName : String
  sourceKind : String
  cronExpression : String
  deriving DecidableEq, Repr

def LoadState.described (s : LoadState) : StatusRow :=
  ⟨s.loadID, s.loadName, s.sourceName, s.sourceKind, s.cronExpression⟩

/-- `runstate.Registry`, its map `loads`. -/
abbrev Registry := AList fun _ : Int => LoadState

namespace Registry

/-- Model of `Register` (lines 48–63): the run fields of an existing entry are
    kept. -/
def register (r : Registry) (s : LoadState) : Registry :=
  let s' : LoadState :=
    match r.lookup s.loadID with
    | none => s
    | some e =>
      { s with
        lastRunUUID := e.lastRunUUID, lastStartedAt := e.lastStartedAt
        lastFinishedAt := e.lastFinishedAt, lastStatus := e.lastStatus
        lastRowsRead := e.lastRowsRead, lastRowsWritten := e.lastRowsWritten
        lastError := e.lastError, currentlyRunning := e.currentlyRunning }
  r.insert s.loadID s'

/-- Model of `MarkRunning` (lines 66–78). -/
def markRunning (r : Registry) (loadID : Int) (runUUID : String) (startedAt : Time) : Registry :=
  match r.lookup loadID with
  | none => r
  | some s =>
    r.insert loadID
      { s with
        currentlyRunning := true, lastRunUUID := runUUID, lastStartedAt := startedAt
        lastStatus := "running", lastError := "" }

/-- Model of `MarkFinished` (lines 81–94). -/
def markFinished (r : Registry) (loadID : Int) (status : String) (finishedAt : Time)
    (rowsRead rowsWritten : Int) (errMsg : String) : Registry :=
  match r.lookup loadID with
  | none => r
  | some s =>
    r.insert loadID
      { s with
        currentlyRunning := false, lastFinishedAt := finishedAt, lastStatus := status
        lastRowsRead := rowsRead, lastRowsWritten := rowsWritten, lastError := errMsg }

theorem lookup_markRunning (r : Registry) (loadID : Int) (runUUID : String) (startedAt : Time) :
    (r.markRunning loadID runUUID startedAt).lookup loadID = (r.lookup loadID).map fun s =>
      { s with
        currentlyRunning := true, lastRunUUID := runUUID, lastStartedAt := startedAt
        lastStatus := "running", lastError := "" } := by
  unfold markRunning
  cases h : r.lookup loadID with
  | none => simpa using h
  | some s => simp [AList.lookup_insert]

theorem lookup_markFinished (r : Registry) (loadID : Int) (status : String) (finishedAt : Time)
    (rowsRead rowsWritten : Int) (errMsg : String) :
    (r.markFinished loadID status finishedAt rowsRead rowsWritten errMsg).lookup loadID =
      (r.lookup loadID).map fun s =>
        { s with
          currentlyRunning := false, lastFinishedAt := finishedAt, lastStatus := status
          lastRowsRead := rowsRead, lastRowsWritten := rowsWritten, lastError := errMsg } := by
  unfold markFinished
  cases h : r.lookup loadID with
  | none => simpa using h
  | some s => simp [AList.lookup_insert]

/-- Model of `Snapshot` (lines 97–106). -/
def snapshot (r : Registry) : List LoadState :=
  (r.entries.map (·.2)).insertionSort fun a b => a.loadID ≤ b.loadID

/-! ## Descriptions -/

/-- What the registry says about a load. -/
def status (r : Registry) (id : Int) : Option StatusRow := (r.lookup id).map LoadState.described

/-- Entries are filed under their own id. -/
def Filed (r : Registry) : Prop := ∀ id s, r.lookup id = some s → s.loadID = id

variable {r : Registry}

theorem Filed.insert (h : r.Filed) {id : Int} {s : LoadState} (hs : s.loadID = id) :
    Filed (AList.insert id s r) := by
  intro id' s' hl
  by_cases hid : id' = id
  · subst hid
    rw [AList.lookup_insert] at hl
    cases hl
    exact hs
  · rw [AList.lookup_insert_ne hid] at hl
    exact h id' s' hl

theorem status_insert (r : Registry) (id : Int) (s : LoadState) :
    status (AList.insert id s r) = Function.update r.status id (some s.described) := by
  funext id'
  by_cases hid : id' = id
  · subst hid
    simp [status]
  · rw [Function.update_of_ne hid, status, AList.lookup_insert_ne hid, status]

/-- `Register` sets the descriptive fields. -/
theorem status_register (r : Registry) (s : LoadState) :
    (r.register s).status = Function.update r.status s.loadID (some s.described) := by
  unfold register
  rw [status_insert]
  cases r.lookup s.loadID <;> rfl

theorem Filed.register (h : r.Filed) (s : LoadState) : (r.register s).Filed := by
  refine h.insert ?_
  cases r.lookup s.loadID <;> rfl

/-- An update of an entry that keeps its description. -/
theorem status_update {id : Int} {s s' : LoadState} (hl : r.lookup id = some s)
    (hs : s'.described = s.described) : status (AList.insert id s' r) = r.status := by
  rw [status_insert, hs]
  refine Function.update_eq_self_iff.2 ?_
  rw [status, hl, Option.map_some]

theorem status_markRunning (r : Registry) (loadID : Int) (runUUID : String) (startedAt : Time) :
    (r.markRunning loadID runUUID startedAt).status = r.status := by
  unfold markRunning
  cases hl : r.lookup loadID with
  | none => rfl
  | some s => exact status_update hl rfl

theorem status_markFinished (r : Registry) (loadID : Int) (status : String) (finishedAt : Time)
    (rowsRead rowsWritten : Int) (errMsg : String) :
    (r.markFinished loadID status finishedAt rowsRead rowsWritten errMsg).status = r.status := by
  unfold markFinished
  cases hl : r.lookup loadID with
  | none => rfl
  | some s => exact status_update hl rfl

theorem Filed.markRunning (h : r.Filed) (loadID : Int) (runUUID : String) (startedAt : Time) :
    (r.markRunning loadID runUUID startedAt).Filed := by
  unfold Registry.markRunning
  cases hl : r.lookup loadID with
  | none => exact h
  | some s => exact h.insert (h loadID s hl)

theorem Filed.markFinished (h : r.Filed) (loadID : Int) (status : String) (finishedAt : Time)
    (rowsRead rowsWritten : Int) (errMsg : String) :
    (r.markFinished loadID status finishedAt rowsRead rowsWritten errMsg).Filed := by
  unfold Registry.markFinished
  cases hl : r.lookup loadID with
  | none => exact h
  | some s => exact h.insert (h loadID s hl)

/-! ## The view -/

theorem mem_snapshot {s : LoadState} : s ∈ r.snapshot ↔ ∃ id, r.lookup id = some s := by
  simp only [snapshot, List.mem_insertionSort, List.mem_map]
  constructor
  · rintro ⟨e, he, rfl⟩
    exact ⟨e.1, AList.mem_lookup_iff.2 he⟩
  · rintro ⟨id, hl⟩
    exact ⟨⟨id, s⟩, AList.mem_lookup_iff.1 hl, rfl⟩

theorem mem_described_snapshot {d : StatusRow} :
    d ∈ r.snapshot.map LoadState.described ↔ ∃ id, r.status id = some d := by
  simp only [List.mem_map, mem_snapshot, status, Option.map_eq_some_iff]
  constructor
  · rintro ⟨s, ⟨id, hl⟩, rfl⟩
    exact ⟨id, s, hl, rfl⟩
  · rintro ⟨id, s, hl, rfl⟩
    exact ⟨s, ⟨id, hl⟩, rfl⟩

/-- The rows of the view are in increasing order of their ids, each once. -/
theorem Filed.increasing (h : r.Filed) : (r.snapshot.map (·.loadID)).Pairwise (· < ·) := by
  have hkeys : (r.entries.map (·.2)).map (·.loadID) = r.keys := by
    rw [List.map_map]
    exact List.map_congr_left fun e he => h e.1 e.2 (AList.mem_lookup_iff.2 he)
  have hsorted : r.snapshot.map (·.loadID) = r.keys.insertionSort (· ≤ ·) := by
    rw [snapshot, List.map_insertionSort _ (· ≤ ·) _ _ fun a _ b _ => Iff.rfl, hkeys]
  rw [hsorted]
  have hle : (r.keys.insertionSort (· ≤ ·)).Pairwise (· ≤ ·) := List.pairwise_insertionSort _ _
  have hne : (r.keys.insertionSort (· ≤ ·)).Nodup :=
    (List.perm_insertionSort _ _).nodup_iff.2 r.keys_nodup
  exact (hle.and hne).imp fun h => lt_of_le_of_ne h.1 h.2

end Registry

end DataLoader
