import DataLoader.Sink.Mssql

/-!
# The replace session

Model of `internal/pipeline/replace.go`: the state of a `replace` run between
the moment staging is prepared and the commit or the deferred abort. The Go
session is shared by pointer; here each method returns the session it leaves.
-/

namespace DataLoader

open Effects

/-- `replaceSession` (lines 12–20). `atomic = none` is `legacy = true`. -/
structure ReplaceSession (S : Sig) where
  atomic : Option (AtomicReplacer S)
  live : TargetTable
  writeTo : TargetTable
  staging : TargetTable := ⟨"", ""⟩
  active : Bool := false
  committed : Bool := false

namespace ReplaceSession

variable {S : Sig}

/-- Model of `newReplaceSession` (lines 22–30). -/
def new (sink : Sink S) (live : TargetTable) : ReplaceSession S :=
  { atomic := sink.atomic, live, writeTo := live }

/-- The session once staging has begun (lines 60–62 and 93–95). -/
def begun (s : ReplaceSession S) (stg : TargetTable) : ReplaceSession S :=
  { s with staging := stg, writeTo := stg, active := true }

/-- Model of `prepareExisting` (lines 34–68). -/
def prepareExisting (s : ReplaceSession S) (sink : Sink S) :
    Prog (sysSig S) (Except Err (ReplaceSession S)) := do
  match s.atomic with
  | none =>
    match ← sink.tableExists s.live with
    | .error e => return .error e
    | .ok false => return .ok s
    | .ok true =>
      match ← sink.truncate s.live with
      | some e => return .error ("truncate target: " ++ e)
      | none => return .ok s
  | some atomic =>
    match ← sink.tableExists s.live with
    | .error e => return .error e
    | .ok false => return .ok s
    | .ok true =>
      match ← atomic.beginReplace s.live [] with
      | .error e => return .error ("begin replace: " ++ e)
      | .ok stg => return .ok (s.begun stg)

/-- Model of `ensureFirstBatch` (lines 71–101). -/
def ensureFirstBatch (s : ReplaceSession S) (sink : Sink S) (autoCreate : Bool)
    (cols : List Column) : Prog (sysSig S) (Except Err (ReplaceSession S)) := do
  match s.atomic with
  | none =>
    if autoCreate then
      match ← sink.ensureTable s.live cols with
      | some e => return .error ("ensure target: " ++ e)
      | none => return .ok s
    else return .ok s
  | some atomic =>
    if s.active then return .ok s
    else
      match ← atomic.beginReplace s.live cols with
      | .error e => return .error ("begin replace: " ++ e)
      | .ok stg => return .ok (s.begun stg)

/-- Model of `commit` (lines 103–116). -/
def commit (s : ReplaceSession S) : Prog (sysSig S) (Except Err (ReplaceSession S)) := do
  match s.atomic with
  | none => return .ok s
  | some atomic =>
    if !s.active then return .ok s
    else
      match ← atomic.commitReplace s.live s.staging with
      | some e => return .error ("commit replace: " ++ e)
      | none => return .ok { s with committed := true }

/-- Model of `abort` (lines 118–123); the error is dropped. -/
def abort (s : ReplaceSession S) : Prog (sysSig S) Unit := do
  match s.atomic with
  | none => return ()
  | some atomic =>
    if !s.active || s.committed then return ()
    else
      let _ ← atomic.abortReplace s.staging
      return ()

end ReplaceSession

end DataLoader
