import DataLoader.Metadata.Models
import Mathlib.Logic.Function.Basic

/-!
# The metadata store

Model of the repository functions that the runner and the scheduler call
(`internal/metadata/repository.go`): the watermark of a load and the rows of
`meta_load_runs`. Each function is one statement or one transaction, so it acts
atomically; whether it succeeds is decided by the schedule (`Outcome`).
-/

namespace DataLoader

/-- How a call to another system ends. `fail msg done` is an error with text
    `msg` after the first `done` parts of the work took effect; for a call that
    is one statement, `done = 0` means that nothing happened and any other value
    that the statement ran and only its acknowledgement was lost. -/
inductive Outcome
  | ok
  | fail (msg : Err) (done : ℕ)
  deriving DecidableEq, Repr

/-- The error the caller sees. -/
def Outcome.err : Outcome → Option Err
  | .ok => none
  | .fail msg _ => some msg

/-- Whether a call that is one statement took effect. -/
def Outcome.effective : Outcome → Bool
  | .ok => true
  | .fail _ done => decide (0 < done)

@[simp] theorem Outcome.effective_ok : Outcome.ok.effective = true := rfl

@[simp] theorem Outcome.err_ok : Outcome.ok.err = none := rfl

theorem Outcome.err_eq_none {o : Outcome} : o.err = none ↔ o = .ok := by
  cases o <;> simp [Outcome.err]

/-- The tables of the metadata database that runs write. -/
structure Store where
  watermarks : Int → Option WatermarkRow
  runs : List LoadRun
  nextRunID : ℕ

namespace Store

/-- The stored watermark value of a load, empty when there is no row. -/
def watermark (s : Store) (loadID : Int) : String :=
  ((s.watermarks loadID).map (·.value)).getD ""

/-- Model of `GetWatermark` (lines 67–77): no row is no error. -/
def getWatermark (s : Store) (loadID : Int) : Option WatermarkRow := s.watermarks loadID

/-- Model of `UpsertWatermark` (lines 80–99): create the row, or move its value
    to `previous_value` and store the new one. -/
def upsertWatermark (s : Store) (loadID : Int) (newValue : String) (now : Time) : Store :=
  let row : WatermarkRow :=
    match s.watermarks loadID with
    | none => ⟨newValue, now, ""⟩
    | some existing => ⟨newValue, now, existing.value⟩
  { s with watermarks := Function.update s.watermarks loadID (some row) }

/-- The row that `StartRun` creates (lines 117–124). The UUID only has to be
    fresh, so it is derived from the row's key. -/
def newRun (s : Store) (loadID : Int) (watermarkStart : String) (now : Time) : LoadRun :=
  { id := s.nextRunID, runUUID := toString s.nextRunID, loadID, status := .running,
    startedAt := now, watermarkStart }

/-- Model of `StartRun` (lines 117–129). -/
def startRun (s : Store) (loadID : Int) (watermarkStart : String) (now : Time) : Store :=
  { s with runs := s.runs ++ [s.newRun loadID watermarkStart now], nextRunID := s.nextRunID + 1 }

/-- The row that `FinishRun` saves (lines 131–140). -/
def finished (run : LoadRun) (status : RunStatus) (rowsRead rowsWritten : Int)
    (watermarkEnd errMsg : String) (now : Time) : LoadRun :=
  { run with
    finishedAt := some now, status, rowsRead, rowsWritten, watermarkEnd, errorMessage := errMsg
    durationMs := (now - run.startedAt).tdiv 1000000 }

/-- `tx.Save(run)`: overwrite the row with that key, whatever it holds. -/
def saveRun (s : Store) (run : LoadRun) : Store :=
  { s with runs := s.runs.map fun r => if r.id = run.id then run else r }

/-- The row that `AbortRunningRuns` leaves for `r` (lines 43–54). -/
def aborted (reason : String) (now : Time) (r : LoadRun) : LoadRun :=
  if r.status = .running then
    { r with
      status := .aborted, finishedAt := some now
      errorMessage := if reason = "" then "aborted" else reason
      -- DATEDIFF(millisecond, started_at, now) counts the boundaries crossed
      durationMs := now / 1000000 - r.startedAt / 1000000 }
  else r

/-- Model of `AbortRunningRuns` (lines 43–55). -/
def abortRunningRuns (s : Store) (reason : String) (now : Time) : Store :=
  { s with runs := s.runs.map (aborted reason now) }

@[simp] theorem watermark_upsertWatermark (s : Store) (loadID : Int) (v : String) (now : Time) :
    (s.upsertWatermark loadID v now).watermark loadID = v := by
  simp only [watermark, upsertWatermark, Function.update_self]
  cases s.watermarks loadID <;> rfl

theorem watermark_upsertWatermark_of_ne (s : Store) {loadID id : Int} (h : id ≠ loadID)
    (v : String) (now : Time) :
    (s.upsertWatermark loadID v now).watermark id = s.watermark id := by
  simp [watermark, upsertWatermark, Function.update_of_ne h]

@[simp] theorem watermark_startRun (s : Store) (loadID id : Int) (v : String) (now : Time) :
    (s.startRun loadID v now).watermark id = s.watermark id := rfl

@[simp] theorem watermark_saveRun (s : Store) (run : LoadRun) (id : Int) :
    (s.saveRun run).watermark id = s.watermark id := rfl

@[simp] theorem watermark_abortRunningRuns (s : Store) (reason : String) (now : Time) (id : Int) :
    (s.abortRunningRuns reason now).watermark id = s.watermark id := rfl

@[simp] theorem runs_upsertWatermark (s : Store) (loadID : Int) (v : String) (now : Time) :
    (s.upsertWatermark loadID v now).runs = s.runs := rfl

end Store

/-- The calls of the interface `pipeline.RunStore` and of `scheduler.RunAborter`
    that write runs. -/
inductive StoreCall
  | getWatermark (loadID : Int)
  | upsertWatermark (loadID : Int) (newValue : String)
  | startRun (loadID : Int) (watermarkStart : String)
  | finishRun (run : LoadRun) (status : RunStatus) (rowsRead rowsWritten : Int)
      (watermarkEnd errMsg : String)

/-- The results of these calls. -/
def StoreCall.Ans : StoreCall → Type
  | .getWatermark _ => Except Err (Option WatermarkRow)
  | .upsertWatermark _ _ => Option Err
  | .startRun _ _ => Except Err LoadRun
  | .finishRun .. => Option Err

/-- One call on the store at time `now`. -/
def Store.answer (now : Time) (o : Outcome) : (c : StoreCall) → Store → c.Ans × Store
  | .getWatermark loadID, s =>
    (match o with
      | .ok => .ok (s.getWatermark loadID)
      | .fail msg _ => .error msg, s)
  | .upsertWatermark loadID v, s =>
    (o.err, if o.effective then s.upsertWatermark loadID v now else s)
  | .startRun loadID v, s =>
    (match o with
      | .ok => .ok (s.newRun loadID v now)
      | .fail msg _ => .error msg, if o.effective then s.startRun loadID v now else s)
  | .finishRun run status rr rw wmEnd msg, s =>
    (o.err, if o.effective then s.saveRun (Store.finished run status rr rw wmEnd msg now) else s)

end DataLoader
