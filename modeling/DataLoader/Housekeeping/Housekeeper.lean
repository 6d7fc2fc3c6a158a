import DataLoader.Effects.Embed
import DataLoader.Effects.Protocol
import DataLoader.Metadata.Prune

/-!
# Housekeeping

Model of `internal/housekeeping/housekeeper.go`.

* `execute`: the program of a sweep, over the pruning of `Metadata.Prune`.
* `protocol`, `execute_follows`: in which order a sweep locks, looks, marks and prunes, and with
  which cutoffs.

`Housekeeping.Sweeps` is about sweeps at the same time.
-/

namespace DataLoader.Housekeeping

open Effects

/-! ## The program -/

/-- `housekeeping.Config` without the cron expression. -/
structure Config where
  logRetentionDays : Int
  loadRunRetentionDays : Int
  batchSize : Int
  batchPause : Int

/-- The defaults of `New`. -/
def Config.new (cfg : Config) : Config :=
  { cfg with batchSize := if cfg.batchSize ≤ 0 then 5000 else cfg.batchSize }

/-- The calls of `execute`; `running` is read and written under the lock. -/
inductive Call
  | lock
  | unlock
  | running
  | setRunning (b : Bool)
  /-- `time.Now()`. -/
  | now
  | logs (c : PruneCall LogEntry)
  | loadRuns (c : PruneCall LoadRun)

/-- What each call returns. -/
abbrev Call.Ans : Call → Type
  | .lock | .unlock | .setRunning _ => Unit
  | .running => Bool
  | .now => Time
  | .logs c => c.Ans
  | .loadRuns c => c.Ans

abbrev hkSig : Sig := ⟨Call, Call.Ans⟩

/-- A day in nanoseconds. -/
def dayNanos : Int := 86400000000000

/-- `t.UTC().AddDate(0, 0, days)`: all days of UTC have the same length. -/
def addDays (t : Time) (days : Int) : Time := t + days * dayNanos

/-- What a call has pruned: per table the number of rows and the error, if the table has a
    retention period. -/
inductive Result
  | skipped
  | swept (logs loadRuns : Option (Option (Int × Option Err)))

/-- Prune one table, if it has a retention period. -/
def pruneTable {α : Type} (f : PruneCall α → Call) (g : ∀ c, (f c).Ans → c.Ans) (days : Int)
    (prune : Time → Prog (pruneSig α) (Option (Int × Option Err))) :
    Prog hkSig (Option (Option (Int × Option Err))) :=
  if days > 0 then do
    let now ← Prog.perform (S := hkSig) .now
    let res ← (prune (addDays now (-days))).via (T := hkSig) f g
    return some res
  else return none

/-- Lines 102–121. -/
def pruneLogs (cfg : Config) (fuel : ℕ) : Prog hkSig (Option (Option (Int × Option Err))) :=
  pruneTable .logs (fun _ r => r) cfg.logRetentionDays fun cutoff =>
    pruneLogEntries fuel cutoff cfg.batchSize cfg.batchPause

/-- Lines 123–142. -/
def pruneRuns (cfg : Config) (fuel : ℕ) : Prog hkSig (Option (Option (Int × Option Err))) :=
  pruneTable .loadRuns (fun _ r => r) cfg.loadRunRetentionDays fun cutoff =>
    pruneLoadRuns fuel cutoff cfg.batchSize cfg.batchPause

/-- The part of `execute` after the lock has been given back, with the deferred function. An
    error of the first table does not keep the second one from being pruned. -/
def sweep (cfg : Config) (fuel : ℕ) : Prog hkSig Result := do
  let logs ← pruneLogs cfg fuel
  let loadRuns ← pruneRuns cfg fuel
  Prog.perform (S := hkSig) .lock
  Prog.perform (S := hkSig) (.setRunning false)
  Prog.perform (S := hkSig) .unlock
  return .swept logs loadRuns

/-- Model of `execute` (lines 84–148). -/
def execute (cfg : Config) (fuel : ℕ) : Prog hkSig Result := do
  Prog.perform (S := hkSig) .lock
  if ← Prog.perform (S := hkSig) .running then
    Prog.perform (S := hkSig) .unlock
    return .skipped
  else
    Prog.perform (S := hkSig) (.setRunning true)
    Prog.perform (S := hkSig) .unlock
    sweep cfg fuel

/-! ## The protocol of a call -/

/-- Where a call of `execute` is. -/
inductive Phase
  | idle
  /-- It has the lock. -/
  | entered
  /-- It has found a sweep in progress. -/
  | busy
  /-- It has found none. -/
  | free
  | marked
  /-- It prunes; `now` is the last time that it has read. -/
  | sweeping (now : Option Time)
  | leaving
  | cleared
  | ended

/-- A DELETE with a cutoff `days` before `now`. -/
def cutoffOk {α : Type} (stmt : Retention α) (days : Int) (now : Option Time) : PruneCall α → Prop
  | .exec s _ cutoff => s = stmt ∧ 0 < days ∧ ∃ t, now = some t ∧ cutoff = addDays t (-days)
  | _ => True

/-- The order of the calls. -/
def protocol (cfg : Config) : Protocol hkSig Phase where
  allows q c :=
    match q, c with
    | .idle, .lock => True
    | .entered, .running => True
    | .busy, .unlock => True
    | .free, .setRunning true => True
    | .marked, .unlock => True
    | .sweeping _, .now => True
    | .sweeping now, .logs c => cutoffOk logEntryRetention cfg.logRetentionDays now c
    | .sweeping now, .loadRuns c => cutoffOk loadRunRetention cfg.loadRunRetentionDays now c
    | .sweeping _, .lock => True
    | .leaving, .setRunning false => True
    | .cleared, .unlock => True
    | _, _ => False
  next q c r :=
    match q, c, r with
    | .idle, .lock, _ => .entered
    | .entered, .running, (true : Bool) => .busy
    | .entered, .running, (false : Bool) => .free
    | .busy, .unlock, _ => .ended
    | .free, .setRunning _, _ => .marked
    | .marked, .unlock, _ => .sweeping none
    | .sweeping _, .now, t => .sweeping (some t)
    | .sweeping _, .lock, _ => .leaving
    | .leaving, .setRunning _, _ => .cleared
    | .cleared, .unlock, _ => .ended
    | q, _, _ => q

theorem pruneLoop_calls {α : Type} (stmt : Retention α) (batchSize : Int) (cutoff : Time)
    (pause : Int) (fuel : ℕ) (total : Int) {N : PruneCall α → Prop}
    (hexec : N (.exec stmt batchSize cutoff)) (hctx : N .ctxErr) (hwait : N (.wait pause)) :
    (pruneLoop stmt batchSize cutoff pause fuel total).Calls N := by
  induction fuel generalizing total with
  | zero => trivial
  | succ fuel ih =>
    refine ⟨hctx, fun r => ?_⟩
    cases r with
    | some e => trivial
    | none =>
      refine ⟨hexec, fun r => ?_⟩
      cases r with
      | error e => trivial
      | ok res =>
        dsimp only [Prog.bind]
        cases res.rowsAffected with
        | error e => trivial
        | ok n =>
          dsimp only
          split_ifs
          · trivial
          · refine ⟨hwait, fun r => ?_⟩
            cases r with
            | some e => trivial
            | none => exact ih _
          · exact ih _

theorem pruneInBatches_calls {α : Type} (fuel : ℕ) (stmt : Retention α) (batchSize : Int)
    (days : Int) (pause : Int) (now : Time) (hdays : 0 < days) :
    (pruneInBatches fuel stmt batchSize (addDays now (-days)) pause).Calls
      (cutoffOk stmt days (some now)) := by
  refine ⟨trivial, fun r => ?_⟩
  cases r with
  | some e => trivial
  | none => exact pruneLoop_calls _ _ _ _ _ _ ⟨rfl, hdays, now, rfl, rfl⟩ trivial trivial

theorem pruneTable_follows {α : Type} {cfg : Config} {f : PruneCall α → Call}
    {g : ∀ c, (f c).Ans → c.Ans} {days : Int}
    {prune : Time → Prog (pruneSig α) (Option (Int × Option Err))} {stmt : Retention α}
    (hprune : ∀ t, 0 < days → (prune (addDays t (-days))).Calls (cutoffOk stmt days (some t)))
    (hallows : ∀ now c, cutoffOk stmt days now c → (protocol cfg).allows (.sweeping now) (f c))
    (hstays : ∀ now c r, (protocol cfg).next (.sweeping now) (f c) r = .sweeping now)
    (now : Option Time) :
    (protocol cfg).Follows (pruneTable f g days prune) (fun _ q => ∃ now, q = .sweeping now)
      (.sweeping now) := by
  unfold pruneTable
  split_ifs with hdays
  · refine ⟨trivial, fun t => ?_⟩
    have hcalls := (hprune t hdays).mono fun c hc => And.intro (hallows _ c hc) (hstays (some t) c)
    have hvia : (protocol cfg).Follows ((prune (addDays t (-days))).via (T := hkSig) f g)
        (fun _ q => q = .sweeping (some t)) (.sweeping (some t)) := .stay (.via hcalls)
    exact hvia.seq fun _ q hq => ⟨some t, hq⟩
  · exact ⟨now, rfl⟩

theorem pruneLogs_follows (cfg : Config) (fuel : ℕ) (now : Option Time) :
    (protocol cfg).Follows (pruneLogs cfg fuel) (fun _ q => ∃ now, q = .sweeping now)
      (.sweeping now) := by
  unfold pruneLogs
  refine pruneTable_follows (fun t hdays => pruneInBatches_calls fuel logEntryRetention _ _ _ t hdays)
    ?_ ?_ now
  · exact fun _ _ hc => hc
  · exact fun _ _ _ => rfl

theorem pruneRuns_follows (cfg : Config) (fuel : ℕ) (now : Option Time) :
    (protocol cfg).Follows (pruneRuns cfg fuel) (fun _ q => ∃ now, q = .sweeping now)
      (.sweeping now) := by
  unfold pruneRuns
  refine pruneTable_follows (fun t hdays => pruneInBatches_calls fuel loadRunRetention _ _ _ t hdays)
    ?_ ?_ now
  · exact fun _ _ hc => hc
  · exact fun _ _ _ => rfl

theorem sweep_follows (cfg : Config) (fuel : ℕ) :
    (protocol cfg).Follows (sweep cfg fuel) (fun _ q => q = .ended) (.sweeping none) := by
  refine (pruneLogs_follows cfg fuel none).seq ?_
  rintro logs _ ⟨now, rfl⟩
  refine (pruneRuns_follows cfg fuel now).seq ?_
  rintro loadRuns _ ⟨now, rfl⟩
  exact ⟨trivial, fun _ => ⟨trivial, fun _ => ⟨trivial, fun _ => rfl⟩⟩⟩

theorem execute_follows (cfg : Config) (fuel : ℕ) :
    (protocol cfg).Follows (execute cfg fuel) (fun _ q => q = .ended) .idle := by
  refine ⟨trivial, fun _ => ⟨trivial, fun r => ?_⟩⟩
  cases r with
  | true => exact ⟨trivial, fun _ => rfl⟩
  | false => exact ⟨trivial, fun _ => ⟨trivial, fun _ => sweep_follows cfg fuel⟩⟩

end DataLoader.Housekeeping
