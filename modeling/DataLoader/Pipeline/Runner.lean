import DataLoader.Pipeline.Replace

/-!
# The runner

Model of `internal/pipeline/runner.go`. A source's `Read` is a program over its
driver calls and the batch handler (`ReadCall`); `interpret` runs it with the
runner's handler, whose captured variables are the `HandlerState`. Logging is
left out. The deferred calls stand where Go runs them: `repl.abort` and then
`release`, after the body has returned.
-/

namespace DataLoader

open Effects

/-- The calls of a `Source.Read`: its driver, and the batch handler. -/
inductive ReadCall (S : Sig)
  | driver (c : S.Call)
  | emit (b : Batch)

/-- The results of these calls. -/
def ReadCall.Ans {S : Sig} : ReadCall S → Type
  | .driver c => S.Ans c
  | .emit _ => Option Err

/-- The signature of `Source.Read`. -/
def readSig (S : Sig) : Sig := ⟨ReadCall S, ReadCall.Ans⟩

/-- `Source.Read` as a program: the result and the error it returns. -/
abbrev Reader (S : Sig) := LoadConfig → Prog (readSig S) (ReadResult × Option Err)

/-- `handler(ctx, batch)` as a source calls it. -/
def emit {S : Sig} (b : Batch) : Prog (readSig S) (Option Err) :=
  Prog.perform (S := readSig S) (.emit b)

/-- A driver call of a source. -/
def driver {S : Sig} (c : S.Call) : Prog (readSig S) (S.Ans c) :=
  Prog.perform (S := readSig S) (.driver c)

/-- The runner's fixed collaborators: `config.ResolveParams` in the process
    environment, the sink and the source module. The store, the session, the
    registry and the metrics are reached by calls. -/
structure Runner (S : Sig) where
  resolveParams : String → Except Err Params
  sink : Sink S
  read : Reader S

/-- The variables that the batch handler captures (lines 131–137). -/
structure HandlerState (S : Sig) where
  rowsWritten : Int := 0
  firstBatch : Bool := true
  writeTarget : TargetTable
  repl : Option (ReplaceSession S)

namespace Runner

variable {S : Sig}

/-! ## Calls on the collaborators -/

def obtain (cfg : SourceConfig) : Prog (sysSig S) (Except Err ℕ) :=
  Prog.perform (S := sysSig S) (.obtain cfg)

def release (src : ℕ) (invalidate : Bool) : Prog (sysSig S) Unit :=
  Prog.perform (S := sysSig S) (.release src invalidate)

def getWatermark (loadID : Int) : Prog (sysSig S) (Except Err (Option WatermarkRow)) :=
  Prog.perform (S := sysSig S) (.store (.getWatermark loadID))

def upsertWatermark (loadID : Int) (v : String) : Prog (sysSig S) (Option Err) :=
  Prog.perform (S := sysSig S) (.store (.upsertWatermark loadID v))

def startRun (loadID : Int) (watermarkStart : String) : Prog (sysSig S) (Except Err LoadRun) :=
  Prog.perform (S := sysSig S) (.store (.startRun loadID watermarkStart))

def finishRun (run : LoadRun) (status : RunStatus) (rowsRead rowsWritten : Int)
    (watermarkEnd errMsg : String) : Prog (sysSig S) (Option Err) :=
  Prog.perform (S := sysSig S)
    (.store (.finishRun run status rowsRead rowsWritten watermarkEnd errMsg))

def markRunning (loadID : Int) (runUUID : String) (startedAt : Time) : Prog (sysSig S) Unit :=
  Prog.perform (S := sysSig S) (.markRunning loadID runUUID startedAt)

def markFinished (loadID : Int) (status : String) (finishedAt : Time)
    (rowsRead rowsWritten : Int) (errMsg : String) : Prog (sysSig S) Unit :=
  Prog.perform (S := sysSig S)
    (.markFinished loadID status finishedAt rowsRead rowsWritten errMsg)

def observe (m : Observation) : Prog (sysSig S) Unit := Prog.perform (S := sysSig S) (.observe m)

def now : Prog (sysSig S) Time := Prog.perform (S := sysSig S) .now

/-! ## `Execute` -/

/-- Telemetry sources are forced to append without a watermark (lines 59–67). -/
def pointBased (load : Load) : Load :=
  if load.source.kind = "modbus" ∨ load.source.kind = "opcua" then
    { load with mode := loadModeAppend, watermarkColumn := "", watermarkType := watermarkNone }
  else load

theorem id_pointBased (load : Load) : (pointBased load).id = load.id := by
  unfold pointBased
  split_ifs <;> rfl

theorem name_pointBased (load : Load) : (pointBased load).name = load.name := by
  unfold pointBased
  split_ifs <;> rfl

/-- The handler's work on the first batch (lines 140–155). -/
def onFirstBatch (r : Runner S) (load : Load) (st : HandlerState S) (batch : Batch) :
    Prog (sysSig S) (Except Err (HandlerState S)) := do
  match st.repl with
  | some repl =>
    match ← repl.ensureFirstBatch r.sink load.autoCreateTable batch.columns with
    | .error e => return .error e
    | .ok repl =>
      return .ok { st with repl := some repl, writeTarget := repl.writeTo, firstBatch := false }
  | none =>
    if load.autoCreateTable then
      match ← r.sink.ensureTable load.target batch.columns with
      | some e => return .error ("ensure target: " ++ e)
      | none => return .ok { st with firstBatch := false }
    else return .ok { st with firstBatch := false }

/-- Write one batch and count its rows (lines 156–166). -/
def writeBatch (r : Runner S) (loadTS : Time) (st : HandlerState S) (batch : Batch) :
    Prog (sysSig S) (HandlerState S × Option Err) := do
  match ← r.sink.writeBatch st.writeTarget batch loadTS with
  | .error e => return (st, some e)
  | .ok n => return ({ st with rowsWritten := st.rowsWritten + n }, none)

/-- Model of `handler` (lines 139–167). -/
def handler (r : Runner S) (load : Load) (loadTS : Time) (st : HandlerState S) (batch : Batch) :
    Prog (sysSig S) (HandlerState S × Option Err) := do
  if st.firstBatch then
    match ← r.onFirstBatch load st batch with
    | .error e => return (st, some e)
    | .ok st => r.writeBatch loadTS st batch
  else r.writeBatch loadTS st batch

/-- Run a `Read` on the leased source `src` with a batch handler over a state. -/
def interpret {σ α : Type} (src : ℕ) (h : σ → Batch → Prog (sysSig S) (σ × Option Err)) :
    Prog (readSig S) α → σ → Prog (sysSig S) (σ × α)
  | .ret a, st => .ret (st, a)
  | .call (.driver c) k, st => .call (S := sysSig S) (.source src c) fun r => interpret src h (k r) st
  | .call (.emit b) k, st =>
    .call (S := sysSig S) (.deliver b) fun _ => (h st b).bind fun se => interpret src h (k se.2) se.1

/-- `fmt.Sprintf("%s.%s", target.Schema, target.Name)`. -/
def targetLabel (load : Load) : String := load.targetSchema ++ "." ++ load.targetTable

/-- The bookkeeping of an exit after the read (lines 182–184, 196–198 and
    213–215): `FinishRun`, whose error is dropped, `MarkFinished`, `ObserveRun`. -/
def failRun (load : Load) (run : LoadRun) (rowsRead rowsWritten : Int) (watermark : String)
    (msg : Err) : Prog (sysSig S) Unit := do
  let _ ← finishRun run .failed rowsRead rowsWritten watermark msg
  markFinished load.id "failed" (← now) rowsRead rowsWritten msg
  observe (.run load.name .failed (targetLabel load) rowsRead rowsWritten)

/-- Whether the watermark is persisted (lines 205–206). -/
def advances (load : Load) (result : ReadResult) (current : String) : Bool :=
  load.mode = loadModeDelta && result.newWatermark.value != "" &&
    (result.watermarkInit || result.newWatermark.value != current)

/-- The end of a run whose read and commit succeeded (lines 231–247). -/
def finishSuccess (load : Load) (run : LoadRun) (result : ReadResult) (rowsWritten : Int) :
    Prog (sysSig S) (Option Err) := do
  let newWM := result.newWatermark.value
  match ← finishRun run .success result.rowsRead rowsWritten newWM "" with
  | some e =>
    markFinished load.id "failed" (← now) result.rowsRead rowsWritten e
    observe (.run load.name .failed (targetLabel load) result.rowsRead rowsWritten)
    return some e
  | none =>
    markFinished load.id "success" (← now) result.rowsRead rowsWritten ""
    observe (.run load.name .success (targetLabel load) result.rowsRead rowsWritten)
    if load.mode = loadModeDelta ∧ load.watermarkType = watermarkDatetime then
      observe (.watermarkLag load.name newWM)
    return none

/-- Persist the watermark where it advances, then finish (lines 204–247). -/
def finishRead (load : Load) (run : LoadRun) (current : String) (result : ReadResult)
    (rowsWritten : Int) : Prog (sysSig S) (Option Err) := do
  if advances load result current then
    match ← upsertWatermark load.id result.newWatermark.value with
    | some e =>
      failRun load run result.rowsRead rowsWritten current ("update watermark: " ++ e)
      return some ("update watermark: " ++ e)
    | none => finishSuccess load run result rowsWritten
  else finishSuccess load run result rowsWritten

/-- The `LoadConfig` of a run (lines 169–178). -/
def loadConfig (load : Load) (current : Watermark) : LoadConfig :=
  { loadID := load.id, name := load.name, objectName := load.objectName, mode := load.mode
    watermarkColumn := load.watermarkColumn, watermarkType := load.watermarkType
    lastWatermark := current, batchSize := load.batchSize }

/-- What the deferred calls need when the body of `Execute` has returned. -/
structure Exit (S : Sig) where
  err : Option Err
  invalidate : Bool := false
  repl : Option (ReplaceSession S) := none

/-- The deferred `repl.abort(ctx)` (line 128); `abort` accepts a nil session. -/
def Exit.abort (exit : Exit S) : Prog (sysSig S) Unit :=
  match exit.repl with
  | none => return ()
  | some repl => repl.abort

/-- From the read to the end of `Execute` (lines 131–247). -/
def readAndFinish (r : Runner S) (load : Load) (src : ℕ) (run : LoadRun) (current : Watermark)
    (loadTS : Time) (repl : Option (ReplaceSession S)) : Prog (sysSig S) (Exit S) := do
  let st : HandlerState S :=
    { writeTarget := (repl.map (·.writeTo)).getD load.target, repl }
  let (st, result, rerr) ←
    interpret src (r.handler load loadTS) (r.read (loadConfig load current)) st
  match rerr with
  | some e =>
    failRun load run result.rowsRead st.rowsWritten current.value e
    return { err := some e, invalidate := true, repl := st.repl }
  | none =>
    match st.repl with
    | none =>
      return { err := ← finishRead load run current.value result st.rowsWritten }
    | some repl =>
      match ← repl.commit with
      | .error e =>
        failRun load run result.rowsRead st.rowsWritten current.value e
        return { err := some e, repl := some repl }
      | .ok repl =>
        return { err := ← finishRead load run current.value result st.rowsWritten
                 repl := some repl }

/-- From `MarkRunning` on (lines 112–247), with the deferred `repl.abort`. -/
def runStarted (r : Runner S) (load : Load) (src : ℕ) (run : LoadRun) (current : Watermark) :
    Prog (sysSig S) (Exit S) := do
  markRunning load.id run.runUUID run.startedAt
  let loadTS ← now
  if load.mode = loadModeReplace then
    match ← (ReplaceSession.new r.sink load.target).prepareExisting r.sink with
    | .error e =>
      let _ ← finishRun run .failed 0 0 current.value e
      markFinished load.id "failed" (← now) 0 0 e
      return { err := some e }
    | .ok repl =>
      let exit ← r.readAndFinish load src run current loadTS (some repl)
      exit.abort
      return exit
  else r.readAndFinish load src run current loadTS none

/-- From `GetWatermark` on (lines 90–247). -/
def leased (r : Runner S) (load : Load) (src : ℕ) : Prog (sysSig S) (Exit S) := do
  match ← getWatermark load.id with
  | .error e => return { err := some e }
  | .ok wm =>
    let current : Watermark := ⟨load.watermarkType, (wm.map (·.value)).getD ""⟩
    match ← startRun load.id current.value with
    | .error e => return { err := some e }
    | .ok run => r.runStarted load src run current

/-- Model of `Execute` (lines 50–248). -/
def execute (r : Runner S) (load : Load) : Prog (sysSig S) (Option Err) := do
  let load := pointBased load
  match r.resolveParams load.source.paramsJSON with
  | .error e => return some e
  | .ok params =>
    match ← obtain ⟨load.sourceID, load.source.kind, load.source.name, params⟩ with
    | .error e => return some e
    | .ok src =>
      let exit ← r.leased load src
      release src exit.invalidate
      return exit.err

end Runner

/-! ## The calls at the end of a run -/

/-- The calls with which a run is closed. -/
def SysCall.closes {S : Sig} : SysCall S → Prop
  | .store (.finishRun ..) | .markFinished .. | .observe _ | .now => True
  | _ => False

namespace Runner

variable {S : Sig} (load : Load) (run : LoadRun)

theorem calls_failRun (rr rw : Int) (wm : String) (msg : Err) :
    (failRun (S := S) load run rr rw wm msg).Calls SysCall.closes :=
  ⟨trivial, fun _ => ⟨trivial, fun _ => ⟨trivial, fun _ => ⟨trivial, fun _ => trivial⟩⟩⟩⟩

theorem calls_finishSuccess (result : ReadResult) (rw : Int) :
    (finishSuccess (S := S) load run result rw).Calls SysCall.closes := by
  refine ⟨trivial, fun e => ?_⟩
  match e with
  | some e => exact ⟨trivial, fun _ => ⟨trivial, fun _ => ⟨trivial, fun _ => trivial⟩⟩⟩
  | none =>
    refine ⟨trivial, fun _ => ⟨trivial, fun _ => ⟨trivial, fun _ => ?_⟩⟩⟩
    dsimp only
    split_ifs
    · exact ⟨trivial, fun _ => trivial⟩
    · exact trivial

theorem calls_finishRead {P : SysCall S → Prop} (hclose : ∀ c, SysCall.closes c → P c)
    (hupsert : ∀ id v, P (.store (.upsertWatermark id v))) (current : String)
    (result : ReadResult) (rw : Int) :
    (finishRead (S := S) load run current result rw).Calls P := by
  have hsuccess := (calls_finishSuccess (S := S) load run result rw).mono hclose
  unfold finishRead
  split_ifs
  · refine ⟨hupsert _ _, fun e => ?_⟩
    match e with
    | some e => exact ((calls_failRun load run _ _ _ _).mono hclose).bind fun _ => trivial
    | none => exact hsuccess
  · exact hsuccess

end Runner

end DataLoader
