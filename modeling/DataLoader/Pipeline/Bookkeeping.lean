import DataLoader.Pipeline.HandlerPaths
import DataLoader.Pipeline.SinkProtocol

/-!
# What a run records

The bookkeeping of a run are its calls on the store, the registry and the source
session. `Executes` lists the paths of `Execute` with these calls and their
answers, and with `Read` and what it returned; `execute_run` shows that every run
takes one of them, with any source module and any sink whose calls are statements.
What `Read` returned is read off the log of the run (`ReadOf`, `ReadOf.unique`).
-/

namespace DataLoader

open Effects SinkProtocol

variable {S : Sig}

/-- The calls on the store, the registry and the session. -/
def SysCall.books : SysCall S → Bool
  | .obtain _ | .release .. | .store _ | .markRunning .. | .markFinished .. => true
  | _ => false

/-- The calls of `Read`: the driver's, and the batches it hands over. -/
def SysCall.reads : SysCall S → Bool
  | .source .. | .deliver _ => true
  | _ => false

/-- The other calls: statements on the sink, metrics and the clock. -/
def SysCall.aside (c : SysCall S) : Prop := c.books = false ∧ c.reads = false

/-- The log of a run. -/
abbrev SysLog (S : Sig) := List (Entry (sysSig S) Outcome)

/-- A bookkeeping call with its answer. -/
inductive Booked
  | obtain (r : Except Err ℕ)
  | release (src : ℕ) (invalidate : Bool)
  | getWatermark (loadID : Int) (r : Except Err (Option WatermarkRow))
  | upsertWatermark (loadID : Int) (newValue : String) (o : Outcome)
  | startRun (loadID : Int) (r : Except Err LoadRun)
  | finishRun (run : LoadRun) (status : RunStatus) (rowsRead rowsWritten : Int)
      (watermarkEnd errMsg : String) (e : Option Err)
  | markRunning (loadID : Int) (runUUID : String) (startedAt : Time)
  | markFinished (loadID : Int) (status : String) (finishedAt : Time)
      (rowsRead rowsWritten : Int) (errMsg : String)
  deriving DecidableEq

/-- An entry of a run's log, if it is bookkeeping. -/
def booked : Entry (sysSig S) Outcome → Option Booked
  | ⟨.obtain _, _, r⟩ => some (.obtain r)
  | ⟨.release src inv, _, _⟩ => some (.release src inv)
  | ⟨.store (.getWatermark id), _, r⟩ => some (.getWatermark id r)
  | ⟨.store (.upsertWatermark id v), o, _⟩ => some (.upsertWatermark id v o)
  | ⟨.store (.startRun id _), _, r⟩ => some (.startRun id r)
  | ⟨.store (.finishRun run st rr rw wm msg), _, e⟩ => some (.finishRun run st rr rw wm msg e)
  | ⟨.markRunning id uuid t, _, _⟩ => some (.markRunning id uuid t)
  | ⟨.markFinished id st t rr rw msg, _, _⟩ => some (.markFinished id st t rr rw msg)
  | ⟨.source .., _, _⟩ | ⟨.db _, _, _⟩ | ⟨.observe _, _, _⟩ | ⟨.now, _, _⟩ | ⟨.deliver _, _, _⟩ =>
    none

/-- The bookkeeping of a run. -/
def books (l : SysLog S) : List Booked := l.filterMap booked

@[simp] theorem books_nil : books ([] : SysLog S) = [] := rfl

@[simp] theorem books_append (l l' : SysLog S) :
    books (l ++ l') = books l ++ books l' := List.filterMap_append

@[simp] theorem books_cons (x : Entry (sysSig S) Outcome) (l : SysLog S) :
    books (x :: l) = (booked x).toList ++ books l := by
  simp only [books, List.filterMap_cons]
  cases booked x <;> rfl

theorem books_eq_nil {l : SysLog S}
    (h : ∀ x ∈ l, SysCall.books x.call = false) : books l = [] := by
  refine List.filterMap_eq_nil_iff.2 fun x hx => ?_
  obtain ⟨c, o, r⟩ := x
  have hc : c.books = false := h _ hx
  cases c <;> first | rfl | cases hc

variable {side : SourceSide S} {srv : SqlServer}

/-- The runs of the programs of the pipeline. -/
abbrev World.Runs {α : Type} (srv : SqlServer) (p : Prog (sysSig S) α) (w : World side)
    (l : SysLog S) (a : α) (w' : World side) : Prop :=
  (World.machine srv side).Runs p w l a w'

/-! ## Parts of a run that record nothing -/

/-- Calls that record nothing lead from `w` to `w'`. -/
structure Quiet (w : World side) (l : SysLog S) (w' : World side) :
    Prop where
  store : w'.store = w.store
  registry : w'.registry = w.registry
  aside : ∀ x ∈ l, SysCall.aside x.call

/-- The store and the registry have stayed as they were. -/
def Unrecorded (w w' : World side) : Prop := w'.store = w.store ∧ w'.registry = w.registry

namespace Unrecorded

variable {w w₁ w' : World side}

theorem env (h : Unrecorded w w₁) {e : EnvStep side} (he : World.env side e w₁ = some w') :
    Unrecorded w w' := by
  cases e with
  | tick d =>
    obtain rfl := Option.some.inj he
    exact h
  | cancel =>
    obtain rfl := Option.some.inj he
    exact h
  | change c =>
    simp only [World.env, Option.map_eq_some_iff] at he
    obtain ⟨s, -, rfl⟩ := he
    exact h

theorem answer (h : Unrecorded w w₁) {c : SysCall S} (hc : c.books = false) {o : Outcome}
    {r : c.Ans} (ha : (World.machine srv side).answer c o w₁ = some (r, w')) :
    Unrecorded w w' := by
  obtain ⟨-, hans⟩ := World.machine_answer ha
  obtain rfl : (World.answer srv side o c w₁).2 = w' := congrArg Prod.snd hans
  refine ⟨Eq.trans ?_ h.1, Eq.trans ?_ h.2⟩
  · exact World.store_answer o (fun s hs => by rw [hs] at hc; cases hc) w₁
  · cases c <;> first | rfl | cases hc

theorem runs {α : Type} {p : Prog (sysSig S) α} (hp : p.Calls fun c => SysCall.books c = false)
    {l : SysLog S} {a : α}
    (h : World.Runs srv p w l a w') : Unrecorded w w' :=
  h.keeps (fun hu he => Unrecorded.env hu he) (fun hc hu ha => Unrecorded.answer hu hc ha) hp
    ⟨rfl, rfl⟩

end Unrecorded

namespace Quiet

variable {α β : Type} {w w₁ w' : World side} {l l' : SysLog S}

theorem refl (w : World side) : Quiet w [] w := ⟨rfl, rfl, by simp⟩

theorem trans (h : Quiet w l w₁) (h' : Quiet w₁ l' w') : Quiet w (l ++ l') w' := by
  refine ⟨h'.store.trans h.store, h'.registry.trans h.registry, ?_⟩
  exact List.forall_mem_append.2 ⟨h.aside, h'.aside⟩

theorem books (h : Quiet w l w') : books l = [] :=
  books_eq_nil fun x hx => (h.aside x hx).1

theorem runs {p : Prog (sysSig S) α} (hp : p.Calls SysCall.aside) {a : α}
    (h : World.Runs srv p w l a w') : Quiet w l w' := by
  have hbooks : p.Calls fun c => SysCall.books c = false := hp.mono fun _ hc => hc.1
  obtain ⟨hstore, hregistry⟩ := Unrecorded.runs hbooks h
  exact ⟨hstore, hregistry, h.log_calls hp⟩

end Quiet

/-- The call `c` was made with the outcome `o` and the answer `r`, and nothing else
    was recorded. -/
def Made (srv : SqlServer) (c : SysCall S) (o : Outcome) (r : c.Ans) (w w' : World side) : Prop :=
  ∃ w₁, Unrecorded w w₁ ∧ o.allowed c w₁.cancelled = true ∧ World.answer srv side o c w₁ = (r, w')

/-- A call and what follows it. -/
theorem Made.of_bind {α : Type} {c : SysCall S} {k : c.Ans → Prog (sysSig S) α} {w w' : World side}
    {l : SysLog S} {a : α}
    (h : World.Runs srv (Prog.perform (S := sysSig S) c >>= k) w l a w') :
    ∃ o r w₁, ∃ l' : SysLog S, Made srv c o r w w₁ ∧ l = ⟨c, o, r⟩ :: l' ∧
      World.Runs srv (k r) w₁ l' a w' := by
  obtain ⟨w₁, o, r, w₂, l', hdrift, ha, hl, hrest⟩ := Machine.Runs.of_call h
  obtain ⟨hallowed, hans⟩ := World.machine_answer ha
  have hsame : Unrecorded w w₁ :=
    hdrift.keeps (fun hu he => Unrecorded.env hu he) ⟨rfl, rfl⟩
  exact ⟨o, r, w₂, l', ⟨w₁, hsame, hallowed, hans⟩, hl, hrest⟩

/-- A part of a run and what follows it. -/
theorem World.runs_bind {α β : Type} {p : Prog (sysSig S) α} {f : α → Prog (sysSig S) β}
    {w w' : World side} {l : SysLog S} {b : β} (h : World.Runs srv (p >>= f) w l b w') :
    ∃ a w₁, ∃ l₁ l₂ : SysLog S, World.Runs srv p w l₁ a w₁ ∧ World.Runs srv (f a) w₁ l₂ b w' ∧
      l = l₁ ++ l₂ :=
  h.of_bind

/-- A part that records nothing and what follows it. -/
theorem Quiet.of_bind {α β : Type} {p : Prog (sysSig S) α} {f : α → Prog (sysSig S) β}
    {w w' : World side} {l : SysLog S} {b : β}
    (h : World.Runs srv (p >>= f) w l b w') (hp : p.Calls SysCall.aside) :
    ∃ a w₁, ∃ l₁ l₂ : SysLog S, Quiet w l₁ w₁ ∧ World.Runs srv p w l₁ a w₁ ∧
      World.Runs srv (f a) w₁ l₂ b w' ∧ l = l₁ ++ l₂ := by
  obtain ⟨a, w₁, l₁, l₂, h₁, h₂, hl⟩ := World.runs_bind h
  exact ⟨a, w₁, l₁, l₂, Quiet.runs hp h₁, h₁, h₂, hl⟩

/-! ## The `Read` of a run -/

/-- The calls of a `Read` with their answers, what it returned, and whether `repl.commit` was
    then called and returned nil. Without a session there is nothing to commit. -/
structure ReadRun (S : Sig) where
  trace : List (Step (readSig S))
  result : ReadResult
  err : Option Err
  committed : Bool

namespace Runner

/-- The `Read` of `readAndFinish` and the commit. -/
def reading (r : Runner S) (load : Load) (src : ℕ) (current : Watermark) (loadTS : Time)
    (repl : Option (ReplaceSession S)) : Prog (sysSig S) (Option (ReadRun S)) := do
  let (st, trace, result, err) ← interpret src (r.handler load loadTS)
    ((r.read (loadConfig load current)).traced [])
    { writeTarget := (repl.map (·.writeTo)).getD load.target, repl }
  match err, st.repl with
  | some e, _ => return some ⟨trace, result, some e, false⟩
  | none, none => return some ⟨trace, result, none, true⟩
  | none, some repl => return some ⟨trace, result, none, (← repl.commit).isOk⟩

/-- `runStarted` up to there. -/
def startedRead (r : Runner S) (load : Load) (src : ℕ) (run : LoadRun) (current : Watermark) :
    Prog (sysSig S) (Option (ReadRun S)) := do
  markRunning load.id run.runUUID run.startedAt
  let loadTS ← now
  if load.mode = loadModeReplace then
    match ← (ReplaceSession.new r.sink load.target).prepareExisting r.sink with
    | .error _ => return none
    | .ok repl => r.reading load src current loadTS (some repl)
  else r.reading load src current loadTS none

/-- `leased` up to there. -/
def leasedRead (r : Runner S) (load : Load) (src : ℕ) : Prog (sysSig S) (Option (ReadRun S)) := do
  match ← getWatermark load.id with
  | .error _ => return none
  | .ok wm =>
    let current : Watermark := ⟨load.watermarkType, (wm.map (·.value)).getD ""⟩
    match ← startRun load.id current.value with
    | .error _ => return none
    | .ok run => r.startedRead load src run current

/-- `Execute` up to there; none if it ends without a `Read`. -/
def uptoRead (r : Runner S) (load : Load) : Prog (sysSig S) (Option (ReadRun S)) := do
  let load := pointBased load
  match r.resolveParams load.source.paramsJSON with
  | .error _ => return none
  | .ok params =>
    match ← obtain ⟨load.sourceID, load.source.kind, load.source.name, params⟩ with
    | .error _ => return none
    | .ok src => r.leasedRead load src

/-- Nothing else is called for the trace. -/
theorem interpret_traced {σ α : Type} (src : ℕ) (h : σ → Batch → Prog (sysSig S) (σ × Option Err))
    (p : Prog (readSig S) α) (past : List (Step (readSig S))) (st : σ) :
    interpret src h p st =
      interpret src h (p.traced past) st >>= fun x => Prog.ret (x.1, x.2.2) := by
  induction p generalizing past st with
  | ret a => rfl
  | call c k ih =>
    cases c with
    | driver c => exact congrArg (Prog.call (S := sysSig S) (.source src c)) (funext fun r => ih r _ st)
    | emit b =>
      refine congrArg (Prog.call (S := sysSig S) (.deliver b)) (funext fun _ => ?_)
      refine Eq.trans ?_ (Prog.bind_assoc (h st b) _ _).symm
      exact congrArg ((h st b).bind ·) (funext fun se => ih se.2 _ se.1)

end Runner

/-- What `Read` did and returned in a run of `Execute` with the log `l`, or none if it was not
    called: the start of the log is a path of `Execute` up to there. -/
def ReadOf (r : Runner S) (load : Load) (l : SysLog S) (read : Option (ReadRun S)) : Prop :=
  (r.uptoRead load).Begins (l.map Entry.step) read

/-- The log decides it. -/
theorem ReadOf.unique {r : Runner S} {load : Load} {l : SysLog S} {read read' : Option (ReadRun S)}
    (h : ReadOf r load l read) (h' : ReadOf r load l read') : read = read' :=
  Prog.Begins.unique h h'

/-! ## The paths of `Execute` -/

/-- The status that a run with the error `err` is given. -/
def runStatus : Option Err → RunStatus
  | none => .success
  | some _ => .failed

/-- `FinishRun` for a run with the error `verdict`, and `MarkFinished`. The run then
    fails with `err`: its own error, or that of `FinishRun`. -/
inductive Closes (srv : SqlServer) (load : Load) (run : LoadRun) (verdict : Option Err)
    (rowsRead rowsWritten : Int) (watermarkEnd : String) :
    World side → SysLog S → Option Err → World side → Prop
  | mk {w w₁ w₂ w₃ w' : World side} {l l' : SysLog S} {o o' : Outcome} {fe : Option Err} {t : Time}
      (hfinish : Made srv (.store (.finishRun run (runStatus verdict) rowsRead rowsWritten
        watermarkEnd (verdict.getD ""))) o fe w w₁)
      (hquiet : Quiet w₁ l w₂)
      (hmark : Made srv (.markFinished load.id (runStatus (verdict.or fe)).text t rowsRead rowsWritten
        ((verdict.or fe).getD "")) o' () w₂ w₃)
      (hrest : Quiet w₃ l' w') :
      Closes srv load run verdict rowsRead rowsWritten watermarkEnd w
        (⟨.store (.finishRun run (runStatus verdict) rowsRead rowsWritten watermarkEnd
            (verdict.getD "")), o, fe⟩ :: l ++
          ⟨.markFinished load.id (runStatus (verdict.or fe)).text t rowsRead rowsWritten
            ((verdict.or fe).getD ""), o', ()⟩ :: l')
        (verdict.or fe) w'

/-- From the return of `Read` with the error `rerr` to the deferred calls. The Boolean tells
    whether the commit was reached and succeeded. -/
inductive Finishes (srv : SqlServer) (load : Load) (run : LoadRun) (current : String)
    (result : ReadResult) (rowsWritten : Int) :
    Option Err → Bool → World side → SysLog S → Option Err → World side → Prop
  | readFailed {w w' : World side} {l : SysLog S} {e : Err} {err : Option Err}
      (hclose : Closes srv load run (some e) result.rowsRead rowsWritten current w l err w') :
      Finishes srv load run current result rowsWritten (some e) false w l err w'
  | commitFailed {w w₁ w' : World side} {l l' : SysLog S} {e : Err} {err : Option Err}
      (hmode : load.mode = loadModeReplace) (hquiet : Quiet w l w₁)
      (hclose : Closes srv load run (some e) result.rowsRead rowsWritten current w₁ l' err w') :
      Finishes srv load run current result rowsWritten none false w (l ++ l') err w'
  | upsertFailed {w w₁ w₂ w' : World side} {l l' : SysLog S} {o : Outcome} {e : Err}
      {err : Option Err} (hquiet : Quiet w l w₁)
      (hadvances : Runner.advances load result current = true)
      (hupsert : Made srv (.store (.upsertWatermark load.id result.newWatermark.value)) o (some e)
        w₁ w₂)
      (hclose : Closes srv load run (some ("update watermark: " ++ e)) result.rowsRead rowsWritten
        current w₂ l' err w') :
      Finishes srv load run current result rowsWritten none true w
        (l ++ ⟨.store (.upsertWatermark load.id result.newWatermark.value), o, some e⟩ :: l') err w'
  | advanced {w w₁ w₂ w' : World side} {l l' : SysLog S} {o : Outcome} {err : Option Err}
      (hquiet : Quiet w l w₁) (hadvances : Runner.advances load result current = true)
      (hupsert : Made srv (.store (.upsertWatermark load.id result.newWatermark.value)) o none w₁ w₂)
      (hclose : Closes srv load run none result.rowsRead rowsWritten result.newWatermark.value
        w₂ l' err w') :
      Finishes srv load run current result rowsWritten none true w
        (l ++ ⟨.store (.upsertWatermark load.id result.newWatermark.value), o, none⟩ :: l') err w'
  | kept {w w₁ w' : World side} {l l' : SysLog S} {err : Option Err}
      (hquiet : Quiet w l w₁) (hadvances : Runner.advances load result current = false)
      (hclose : Closes srv load run none result.rowsRead rowsWritten result.newWatermark.value
        w₁ l' err w') :
      Finishes srv load run current result rowsWritten none true w (l ++ l') err w'

/-- From `MarkRunning` to the deferred release. `read` is what `Read` did, if it was
    called. -/
inductive Started (srv : SqlServer) (r : Runner S) (load : Load) (src : ℕ) (run : LoadRun)
    (current : Watermark) :
    World side → SysLog S → Option (ReadRun S) → Option Err → World side → Prop
  | unprepared {w w₁ w' : World side} {l l' : SysLog S} {e : Err} {err : Option Err}
      (hmode : load.mode = loadModeReplace) (hquiet : Quiet w l w₁)
      (hclose : Closes srv load run (some e) 0 0 current.value w₁ l' err w') :
      Started srv r load src run current w (l ++ l') none err w'
  | read {w w₁ w₂ w' : World side} {l l₁ l₂ : SysLog S} {loadTS : Time} {result : ReadResult}
      {rerr err : Option Err} {target : TargetTable} {repl : Option (ReplaceSession S)}
      {st : HandlerState S} {trace : List (Step (readSig S))} {committed : Bool} (hquiet : Quiet w l w₁)
      (hrepl : ∀ s, repl = some s → OnDb s)
      (hread : World.Runs srv (Runner.interpret src (r.handler load loadTS)
        ((r.read (Runner.loadConfig load current)).traced []) ⟨0, true, target, repl⟩) w₁ l₁
        (st, trace, result, rerr) w₂)
      (hfinish : Finishes srv load run current.value result st.rowsWritten rerr committed w₂ l₂ err
        w') :
      Started srv r load src run current w (l ++ l₁ ++ l₂) (some ⟨trace, result, rerr, committed⟩)
        err w'

/-- From `GetWatermark` to the deferred release. -/
inductive Leases (srv : SqlServer) (r : Runner S) (load : Load) (src : ℕ) :
    World side → SysLog S → Option (ReadRun S) → Option Err → World side → Prop
  | noWatermark {w w' : World side} {o : Outcome} {e : Err}
      (hget : Made srv (.store (.getWatermark load.id)) o (.error e) w w') :
      Leases srv r load src w [⟨.store (.getWatermark load.id), o, .error e⟩] none (some e) w'
  | noRun {w w₁ w' : World side} {o o' : Outcome} {wm : Option WatermarkRow} {v : String} {e : Err}
      (hget : Made srv (.store (.getWatermark load.id)) o (.ok wm) w w₁)
      (hstart : Made srv (.store (.startRun load.id v)) o' (.error e) w₁ w') :
      Leases srv r load src w [⟨.store (.getWatermark load.id), o, .ok wm⟩,
        ⟨.store (.startRun load.id v), o', .error e⟩] none (some e) w'
  | started {w w₁ w₂ w₃ w' : World side} {o o' o'' : Outcome} {wm : Option WatermarkRow}
      {run : LoadRun} {l : SysLog S} {read : Option (ReadRun S)} {err : Option Err}
      (hget : Made srv (.store (.getWatermark load.id)) o (.ok wm) w w₁)
      (hstart : Made srv (.store (.startRun load.id ((wm.map (·.value)).getD ""))) o' (.ok run) w₁ w₂)
      (hmark : Made srv (.markRunning load.id run.runUUID run.startedAt) o'' () w₂ w₃)
      (hrun : Started srv r load src run ⟨load.watermarkType, (wm.map (·.value)).getD ""⟩ w₃ l read
        err w') :
      Leases srv r load src w (⟨.store (.getWatermark load.id), o, .ok wm⟩ ::
        ⟨.store (.startRun load.id ((wm.map (·.value)).getD "")), o', .ok run⟩ ::
        ⟨.markRunning load.id run.runUUID run.startedAt, o'', ()⟩ :: l) read err w'

/-- `Execute`. The source is invalidated if `Read` was called and failed. -/
inductive Executes (srv : SqlServer) (r : Runner S) (load : Load) :
    World side → SysLog S → Option (ReadRun S) → Option Err → World side → Prop
  | unresolved {w : World side} {e : Err}
      (hparams : r.resolveParams load.source.paramsJSON = .error e) :
      Executes srv r load w [] none (some e) w
  | unobtained {w w' : World side} {cfg : SourceConfig} {o : Outcome} {e : Err}
      (hobtain : Made srv (.obtain cfg) o (.error e) w w') :
      Executes srv r load w [⟨.obtain cfg, o, .error e⟩] none (some e) w'
  | leased {w w₁ w₂ w' : World side} {cfg : SourceConfig} {o o' : Outcome} {src : ℕ} {l : SysLog S}
      {read : Option (ReadRun S)} {err : Option Err}
      (hobtain : Made srv (.obtain cfg) o (.ok src) w w₁)
      (hlease : Leases srv r load src w₁ l read err w₂)
      (hrelease : Made srv (.release src (read.bind (·.err)).isSome) o' () w₂ w') :
      Executes srv r load w (⟨.obtain cfg, o, .ok src⟩ :: l ++
        [⟨.release src (read.bind (·.err)).isSome, o', ()⟩]) read err w'

/-! ## Every run takes one of them -/

section

variable {r : Runner S} {load : Load} {run : LoadRun} {w w₁ w' : World side} {l l' : SysLog S}
  {err : Option Err}

/-- The deferred abort comes after the run is closed. -/
theorem Closes.quiet {verdict : Option Err} {rr rw : Int} {wm : String}
    (h : Closes srv load run verdict rr rw wm w l err w₁) (hq : Quiet w₁ l' w') :
    Closes srv load run verdict rr rw wm w (l ++ l') err w' := by
  cases h with
  | mk hfinish hquiet hmark hrest =>
    simpa using Closes.mk hfinish hquiet hmark (hrest.trans hq)

theorem Finishes.quiet {current : String} {result : ReadResult} {rw : Int} {rerr : Option Err}
    {committed : Bool} (h : Finishes srv load run current result rw rerr committed w l err w₁)
    (hq : Quiet w₁ l' w') :
    Finishes srv load run current result rw rerr committed w (l ++ l') err w' := by
  cases h with
  | readFailed hclose => exact .readFailed (hclose.quiet hq)
  | commitFailed hmode hquiet hclose =>
    simpa using Finishes.commitFailed hmode hquiet (hclose.quiet hq)
  | upsertFailed hquiet hadvances hupsert hclose =>
    simpa using Finishes.upsertFailed hquiet hadvances hupsert (hclose.quiet hq)
  | advanced hquiet hadvances hupsert hclose =>
    simpa using Finishes.advanced hquiet hadvances hupsert (hclose.quiet hq)
  | kept hquiet hadvances hclose => simpa using Finishes.kept hquiet hadvances (hclose.quiet hq)

/-- A statement on the sink records nothing. -/
theorem aside_of_onDb {c : SysCall S} (hc : c.onDb) : c.aside := by
  cases c <;> first | exact hc.elim | exact ⟨rfl, rfl⟩

theorem allowing_ignores_onDb {N : SysCall S → Prop} (hN : ∀ c, SysCall.aside c → N c) :
    (allowing (S := sysSig S) N).Ignores SysCall.onDb :=
  fun c hc _ => ⟨hN c (aside_of_onDb hc), fun _ => rfl⟩

theorem observe_run {m : Observation} {u : Unit}
    (h : World.Runs srv (Runner.observe m) w l u w') : Quiet w l w' :=
  Quiet.runs (p := Runner.observe m) ⟨⟨rfl, rfl⟩, fun _ => trivial⟩ h

theorem failRun_run {rr rw : Int} {wm : String} {msg : Err} {u : Unit}
    (h : World.Runs srv (Runner.failRun load run rr rw wm msg) w l u w') :
    Closes srv load run (some msg) rr rw wm w l (some msg) w' := by
  obtain ⟨o, fe, w₁, l₁, hfinish, rfl, h₁⟩ := Made.of_bind h
  obtain ⟨t, w₂, l₂, l₃, hnow, -, h₂, rfl⟩ := Quiet.of_bind h₁ ⟨⟨rfl, rfl⟩, fun _ => trivial⟩
  obtain ⟨o', _, w₃, l₄, hmark, rfl, h₃⟩ := Made.of_bind h₂
  exact .mk hfinish hnow hmark (observe_run h₃)

theorem finishSuccess_run {result : ReadResult} {rw : Int}
    (h : World.Runs srv (Runner.finishSuccess load run result rw) w l err w') :
    Closes srv load run none result.rowsRead rw result.newWatermark.value w l err w' := by
  obtain ⟨o, fe, w₁, l₁, hfinish, rfl, h₁⟩ := Made.of_bind h
  cases fe with
  | some e =>
    obtain ⟨t, w₂, l₂, l₃, hnow, -, h₂, rfl⟩ := Quiet.of_bind h₁ ⟨⟨rfl, rfl⟩, fun _ => trivial⟩
    obtain ⟨o', _, w₃, l₄, hmark, rfl, h₃⟩ := Made.of_bind h₂
    obtain ⟨_, hobs, rfl⟩ := Machine.Runs.of_bind_ret h₃
    exact .mk hfinish hnow hmark (observe_run hobs)
  | none =>
    obtain ⟨t, w₂, l₂, l₃, hnow, -, h₂, rfl⟩ := Quiet.of_bind h₁ ⟨⟨rfl, rfl⟩, fun _ => trivial⟩
    obtain ⟨o', _, w₃, l₄, hmark, rfl, h₃⟩ := Made.of_bind h₂
    split_ifs at h₃
    · obtain ⟨_, w₄, l₅, l₆, hobs, -, h₄, rfl⟩ := Quiet.of_bind h₃ ⟨⟨rfl, rfl⟩, fun _ => trivial⟩
      obtain ⟨_, hlag, rfl⟩ := Machine.Runs.of_bind_ret h₄
      exact .mk hfinish hnow hmark (hobs.trans (observe_run hlag))
    · obtain ⟨_, hobs, rfl⟩ := Machine.Runs.of_bind_ret h₃
      exact .mk hfinish hnow hmark (observe_run hobs)

theorem finishRead_run {current : String} {result : ReadResult} {rw : Int}
    (hquiet : Quiet w l w₁)
    (h : World.Runs srv (Runner.finishRead load run current result rw) w₁ l' err w') :
    Finishes srv load run current result rw none true w (l ++ l') err w' := by
  unfold Runner.finishRead at h
  split_ifs at h with hadvances
  · obtain ⟨o, e, w₂, l₂, hupsert, rfl, h₁⟩ := Made.of_bind h
    cases e with
    | some e =>
      obtain ⟨_, hfail, rfl⟩ := Machine.Runs.of_bind_ret h₁
      exact .upsertFailed hquiet hadvances hupsert (failRun_run hfail)
    | none => exact .advanced hquiet hadvances hupsert (finishSuccess_run h₁)
  · exact .kept hquiet (by simpa using hadvances) (finishSuccess_run h)

/-- What the deferred calls get from the end of a run. -/
theorem readAndFinish_run (hk : r.sink.OnDb) {src : ℕ} {current : Watermark} {loadTS : Time}
    {repl : Option (ReplaceSession S)} (hrepl : ∀ s, repl = some s → OnDb s)
    (hmode : repl ≠ none → load.mode = loadModeReplace) {exit : Runner.Exit S}
    (h : World.Runs srv (r.readAndFinish load src run current loadTS repl) w l exit w') :
    (∀ s, exit.repl = some s → OnDb s) ∧ ∃ w₁, ∃ l₁ l₂ : SysLog S, ∃ target st trace result rerr committed,
      World.Runs srv (Runner.interpret src (r.handler load loadTS)
        ((r.read (Runner.loadConfig load current)).traced []) ⟨0, true, target, repl⟩) w l₁
        (st, trace, result, rerr) w₁ ∧
      (r.reading load src current loadTS repl).Begins (l.map Entry.step)
        (some ⟨trace, result, rerr, committed⟩) ∧
      Finishes srv load run current.value result st.rowsWritten rerr committed w₁ l₂ exit.err w' ∧
      exit.invalidate = rerr.isSome ∧ l = l₁ ++ l₂ := by
  unfold Runner.readAndFinish at h
  obtain ⟨⟨st, result, rerr⟩, w₁, l₁, l₂, hplain, h₁, rfl⟩ := World.runs_bind h
  rw [Runner.interpret_traced src _ _ []] at hplain
  obtain ⟨⟨st', trace, result', rerr'⟩, hread, heq⟩ := Machine.Runs.of_bind_ret hplain
  obtain ⟨rfl, heq⟩ := Prod.mk.inj heq
  obtain ⟨rfl, rfl⟩ := Prod.mk.inj heq
  unfold Runner.reading
  rw [List.map_append]
  have hignore := allowing_ignores_onDb (S := S) (N := fun _ => True) fun _ _ => trivial
  have hst₀ : HandlerOnDb (S := S) ⟨0, true, (repl.map (·.writeTo)).getD load.target, repl⟩ := hrepl
  obtain ⟨-, hst⟩ := hread.of_follows (interpret_follows (q := ()) (N := fun _ => True) hignore
    (fun _ _ _ => ⟨trivial, fun _ => rfl⟩) (fun _ _ => trivial) (fun _ => trivial) hk src hst₀)
  have hnone : repl = none → st.repl = none := by
    intro hn
    exact interpret_keeps (I := fun st : HandlerState S => st.repl = none)
      (fun hst h => (handler_path h).session hst) hn hread.path
  cases rerr with
  | some e =>
    obtain ⟨_, hfail, rfl⟩ := Machine.Runs.of_bind_ret h₁
    exact ⟨hst, w₁, l₁, l₂, _, st, trace, result, some e, false, hread,
      .bind hread.path (.ret _ _), .readFailed (failRun_run hfail), rfl, rfl⟩
  | none =>
    cases hr : st.repl with
    | none =>
      simp only [hr] at h₁
      obtain ⟨err, hfin, rfl⟩ := Machine.Runs.of_bind_ret h₁
      refine ⟨by simp, w₁, l₁, l₂, _, st, trace, result, none, true, hread, .bind hread.path ?_,
        finishRead_run (.refl w₁) hfin, rfl, rfl⟩
      simp only [hr]
      exact .ret _ _
    | some s =>
      simp only [hr] at h₁
      have hcommit : s.commit.Calls SysCall.aside := (commit_follows (q := ())
        (allowing_ignores_onDb fun _ hc => hc) (hst s hr)).calls
      obtain ⟨res, w₂, l₃, l₄, hquiet, hres, h₂, rfl⟩ := Quiet.of_bind h₁ hcommit
      cases res with
      | error e =>
        obtain ⟨_, hfail, rfl⟩ := Machine.Runs.of_bind_ret h₂
        have hsome : repl ≠ none := fun hn => by simp [hnone hn] at hr
        refine ⟨?_, w₁, l₁, _, _, st, trace, result, none, false, hread, .bind hread.path ?_,
          .commitFailed (hmode hsome) hquiet (failRun_run hfail), rfl, rfl⟩
        · exact fun s' hs' => (Option.some.inj hs') ▸ hst s hr
        · simp only [hr, List.map_append]
          exact .bind hres.path (.ret _ _)
      | ok s' =>
        obtain ⟨-, hok⟩ := hres.of_follows (commit_follows (q := ()) hignore (hst s hr))
        obtain ⟨err, hfin, rfl⟩ := Machine.Runs.of_bind_ret h₂
        refine ⟨?_, w₁, l₁, _, _, st, trace, result, none, true, hread, .bind hread.path ?_,
          finishRead_run hquiet hfin, rfl, rfl⟩
        · exact fun s'' hs'' => (Option.some.inj hs'') ▸ hok s' rfl
        · simp only [hr, List.map_append]
          exact .bind hres.path (.ret _ _)

theorem runStarted_run (hk : r.sink.OnDb) {src : ℕ} {current : Watermark} {exit : Runner.Exit S}
    (h : World.Runs srv (r.runStarted load src run current) w l exit w') :
    ∃ w₁ o, ∃ l' : SysLog S, ∃ read, Made srv (.markRunning load.id run.runUUID run.startedAt) o () w w₁ ∧
      l = ⟨.markRunning load.id run.runUUID run.startedAt, o, ()⟩ :: l' ∧
      Started srv r load src run current w₁ l' read exit.err w' ∧
      (r.startedRead load src run current).Begins (l.map Entry.step) read ∧
      exit.invalidate = (read.bind (·.err)).isSome := by
  unfold Runner.runStarted at h
  obtain ⟨o, _, w₁, l₁, hmark, rfl, h₁⟩ := Made.of_bind h
  obtain ⟨loadTS, w₂, l₂, l₃, hnow, hclock, h₂, rfl⟩ :=
    Quiet.of_bind h₁ ⟨⟨rfl, rfl⟩, fun _ => trivial⟩
  split_ifs at h₂ with hmode
  · have hnew : OnDb (ReplaceSession.new r.sink load.target) := hk.atomic
    have hprepare : ((ReplaceSession.new r.sink load.target).prepareExisting r.sink).Calls
        SysCall.aside :=
      (prepareExisting_follows (q := ()) (allowing_ignores_onDb fun _ hc => hc) hk hnew).calls
    obtain ⟨res, w₃, l₄, l₅, hquiet, hres, h₃, rfl⟩ := Quiet.of_bind h₂ hprepare
    cases res with
    | error e =>
      obtain ⟨o', fe, w₄, l₆, hfinish, rfl, h₄⟩ := Made.of_bind h₃
      obtain ⟨t, w₅, l₇, l₈, hnow', -, h₅, rfl⟩ := Quiet.of_bind h₄ ⟨⟨rfl, rfl⟩, fun _ => trivial⟩
      obtain ⟨o'', _, w₆, l₉, hmark', rfl, h₆⟩ := Made.of_bind h₅
      obtain ⟨rfl, rfl, rfl⟩ := Machine.Runs.of_ret h₆
      have hclose : Closes srv load run (some e) 0 0 current.value w₃ _ (some e) w' :=
        .mk hfinish hnow' hmark' (.refl w')
      refine ⟨w₁, o, _, none, hmark, rfl, ?_, ?_, rfl⟩
      · rw [← List.append_assoc]
        exact .unprepared hmode (hnow.trans hquiet) hclose
      · rw [List.map_cons, List.map_append, List.map_append]
        refine .perform (.bind hclock.path ?_)
        rw [if_pos hmode]
        exact .bind hres.path (.ret _ _)
    | ok s =>
      obtain ⟨-, hok⟩ := hres.of_follows (prepareExisting_follows (q := ())
        (allowing_ignores_onDb (N := fun _ => True) fun _ _ => trivial) hk hnew)
      obtain ⟨exit', w₄, l₆, l₇, hbody, h₄, rfl⟩ := World.runs_bind h₃
      obtain ⟨hrepl, w₅, l₈, l₉, target, st, trace, result, rerr, committed, hread, hreading, hfinish,
        hinv, rfl⟩ :=
        readAndFinish_run hk (fun s' hs' => (Option.some.inj hs') ▸ hok s rfl) (fun _ => hmode) hbody
      obtain ⟨_, habort, rfl⟩ := Machine.Runs.of_bind_ret h₄
      have hquiet' := Quiet.runs
        (exitAbort_follows (q := ()) (allowing_ignores_onDb fun _ hc => hc) hrepl).calls habort
      refine ⟨w₁, o, _, some ⟨trace, result, rerr, committed⟩, hmark, rfl, ?_, ?_, hinv⟩
      · have hrun := Started.read (hnow.trans hquiet)
          (fun s' hs' => (Option.some.inj hs') ▸ hok s rfl) hread (hfinish.quiet hquiet')
        simpa using hrun
      · rw [List.map_cons, List.map_append, List.map_append, List.map_append]
        refine .perform (.bind hclock.path ?_)
        rw [if_pos hmode]
        exact .bind hres.path (hreading.append _)
  · obtain ⟨-, w₃, l₄, l₅, target, st, trace, result, rerr, committed, hread, hreading, hfinish, hinv,
      rfl⟩ := readAndFinish_run hk (by simp) (by simp) h₂
    refine ⟨w₁, o, _, some ⟨trace, result, rerr, committed⟩, hmark, rfl, ?_, ?_, hinv⟩
    · have hrun := Started.read hnow (by simp) hread hfinish
      simpa using hrun
    · rw [List.map_cons, List.map_append]
      refine .perform (.bind hclock.path ?_)
      rw [if_neg hmode]
      exact hreading

theorem leased_run (hk : r.sink.OnDb) {src : ℕ} {exit : Runner.Exit S}
    (h : World.Runs srv (r.leased load src) w l exit w') :
    ∃ read, Leases srv r load src w l read exit.err w' ∧
      (r.leasedRead load src).Begins (l.map Entry.step) read ∧
      exit.invalidate = (read.bind (·.err)).isSome := by
  unfold Runner.leased at h
  obtain ⟨o, res, w₁, l₁, hget, rfl, h₁⟩ := Made.of_bind h
  cases res with
  | error e =>
    obtain ⟨rfl, rfl, rfl⟩ := Machine.Runs.of_ret h₁
    exact ⟨none, .noWatermark hget, .perform (.ret _ _), rfl⟩
  | ok wm =>
    obtain ⟨o', res, w₂, l₂, hstart, rfl, h₂⟩ := Made.of_bind h₁
    cases res with
    | error e =>
      obtain ⟨rfl, rfl, rfl⟩ := Machine.Runs.of_ret h₂
      exact ⟨none, .noRun hget hstart, .perform (.perform (.ret _ _)), rfl⟩
    | ok run =>
      obtain ⟨w₃, o'', l₃, read, hmark, rfl, hrun, hbegins, hinv⟩ := runStarted_run hk h₂
      exact ⟨read, .started hget hstart hmark hrun, .perform (.perform hbegins), hinv⟩

/-- Every run of `Execute` takes one of the paths, with the `Read` its log tells. -/
theorem execute_run (hk : r.sink.OnDb)
    (h : World.Runs srv (r.execute load) w l err w') :
    ∃ read, ReadOf r load l read ∧ Executes srv r (Runner.pointBased load) w l read err w' := by
  unfold ReadOf Runner.uptoRead
  unfold Runner.execute at h
  dsimp only at h ⊢
  cases hparams : r.resolveParams (Runner.pointBased load).source.paramsJSON with
  | error e =>
    rw [hparams] at h
    obtain ⟨rfl, rfl, rfl⟩ := Machine.Runs.of_ret h
    exact ⟨none, .ret _ _, .unresolved hparams⟩
  | ok params =>
    rw [hparams] at h
    obtain ⟨o, res, w₁, l₁, hobtain, rfl, h₁⟩ := Made.of_bind h
    cases res with
    | error e =>
      obtain ⟨rfl, rfl, rfl⟩ := Machine.Runs.of_ret h₁
      exact ⟨none, .perform (.ret _ _), .unobtained hobtain⟩
    | ok src =>
      obtain ⟨exit, w₂, l₂, l₃, hbody, h₂, rfl⟩ := World.runs_bind h₁
      obtain ⟨read, hlease, hbegins, hinv⟩ := leased_run hk hbody
      obtain ⟨o', _, w₃, l₄, hrelease, rfl, h₃⟩ := Made.of_bind h₂
      obtain ⟨rfl, rfl, rfl⟩ := Machine.Runs.of_ret h₃
      rw [hinv] at hrelease ⊢
      refine ⟨read, ?_, .leased hobtain hlease hrelease⟩
      rw [List.map_cons, List.map_append]
      exact .perform (hbegins.append _)

end

end DataLoader
