import DataLoader.Pipeline.System
import Mathlib.Algebra.Ring.Int.Defs

/-!
# Counters

Model of `ObserveRun` in `internal/metrics/metrics.go`, and of the counters that it adds to.

* `CounterVec`: the counters of one name, as what was added to each series.
* `Counters.observeRun`: the end of a run.
* `Counters.runsTotal`, `Counters.rowsWrittenTotal`: what the counters of a load show.
-/

namespace DataLoader

open Effects

/-- The counters of one name: what was added, with the labels of the series. -/
abbrev CounterVec (κ : Type) := List (κ × Int)

namespace CounterVec

variable {κ : Type}

/-- `WithLabelValues(labels).Add(n)`. -/
def add (v : CounterVec κ) (labels : κ) (n : Int) : CounterVec κ := v ++ [(labels, n)]

/-- The sum of the series whose labels meet `p`. -/
def total (v : CounterVec κ) (p : κ → Bool) : Int := ((v.filter fun x => p x.1).map (·.2)).sum

@[simp] theorem total_add (v : CounterVec κ) (labels : κ) (n : Int) (p : κ → Bool) :
    (v.add labels n).total p = v.total p + if p labels then n else 0 := by
  unfold add total
  by_cases hp : p labels = true <;> simp [hp]

end CounterVec

/-- The counters that `ObserveRun` adds to. -/
structure Counters where
  /-- `loader_runs_total`, by load and status. -/
  runs : CounterVec (String × RunStatus) := []
  /-- `loader_rows_read_total`, by load. -/
  rowsRead : CounterVec String := []
  /-- `loader_rows_written_total`, by load and target. -/
  rowsWritten : CounterVec (String × String) := []

/-- Model of `loadLabel` (lines 115–120). -/
def loadLabel (name : String) : String := if name = "" then "unknown" else name

namespace Counters

/-- Model of `ObserveRun` (lines 67–81), as far as it adds to counters. -/
def observeRun (m : Counters) (loadName : String) (status : RunStatus) (target : String)
    (rowsRead rowsWritten : Int) : Counters :=
  let label := loadLabel loadName
  { runs := m.runs.add (label, status) 1
    rowsRead := if rowsRead > 0 then m.rowsRead.add label rowsRead else m.rowsRead
    rowsWritten :=
      if rowsWritten > 0 then m.rowsWritten.add (label, target) rowsWritten else m.rowsWritten }

/-- One observation. The others set gauges, or count skipped runs. -/
def observe (m : Counters) : Observation → Counters
  | .run load status target rowsRead rowsWritten =>
    m.observeRun load status target rowsRead rowsWritten
  | .watermarkLag .. | .overlapSkip _ => m

/-- What `loader_runs_total` shows for a load and a status. -/
def runsTotal (m : Counters) (loadName : String) (status : RunStatus) : Int :=
  m.runs.total (· = (loadLabel loadName, status))

/-- What `loader_rows_written_total` shows for a load, over all targets. -/
def rowsWrittenTotal (m : Counters) (loadName : String) : Int :=
  m.rowsWritten.total (·.1 = loadLabel loadName)

variable (m : Counters) (loadName name target : String) (status st : RunStatus) (rr rw : Int)

theorem runsTotal_observeRun :
    (m.observeRun loadName st target rr rw).runsTotal name status =
      m.runsTotal name status +
        if loadLabel loadName = loadLabel name ∧ st = status then 1 else 0 := by
  simp [runsTotal, observeRun]

theorem rowsWrittenTotal_observeRun {rw : Int} (hrw : 0 ≤ rw) :
    (m.observeRun loadName st target rr rw).rowsWrittenTotal name =
      m.rowsWrittenTotal name + if loadLabel loadName = loadLabel name then rw else 0 := by
  unfold rowsWrittenTotal observeRun
  dsimp only
  split_ifs with hpos hlabel hlabel
  · simp [hlabel]
  · simp [hlabel]
  · omega
  · omega

end Counters

namespace World

variable {S : Sig} {side : SourceSide S}

/-- The counters after everything that was observed. -/
def counters (w : World side) : Counters := w.metrics.foldl Counters.observe {}

end World

end DataLoader
