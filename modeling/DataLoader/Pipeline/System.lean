import DataLoader.Effects.Prog
import DataLoader.Runstate
import DataLoader.Sink.Database

/-!
# The system that a run works on

The calls that `internal/pipeline` makes on its collaborators (`SysCall`), the
state behind them (`World`) and the machine that answers them. The source side
is a parameter: `S` is the signature of the driver calls of a source module and
`SourceSide S` the system they reach, together with the source session.

A store or sink call made with a cancelled run context fails without effect.
Source drivers may ignore the context, so their calls can still succeed.
-/

namespace DataLoader

open Effects

/-- What `metrics.ObserveRun`, `metrics.ObserveWatermarkLag` and
    `metrics.ObserveOverlapSkip` record. -/
inductive Observation
  | run (load : String) (status : RunStatus) (target : String) (rowsRead rowsWritten : Int)
  | watermarkLag (load watermark : String)
  | overlapSkip (load : String)
  deriving DecidableEq, Repr

/-- The calls of the pipeline over a source signature `S`. A leased source is
    known by the number of its lease. -/
inductive SysCall (S : Sig)
  | obtain (cfg : SourceConfig)
  | release (src : ℕ) (invalidate : Bool)
  | source (src : ℕ) (c : S.Call)
  | store (c : StoreCall)
  | db (c : DbCall)
  | markRunning (loadID : Int) (runUUID : String) (startedAt : Time)
  | markFinished (loadID : Int) (status : String) (finishedAt : Time)
      (rowsRead rowsWritten : Int) (errMsg : String)
  | observe (m : Observation)
  | now
  /-- The source hands a batch to the handler. It changes nothing and stands in
      the trace as a mark of what the run read. -/
  | deliver (b : Batch)

/-- The results of these calls. -/
def SysCall.Ans {S : Sig} : SysCall S → Type
  | .obtain _ => Except Err ℕ
  | .source _ c => S.Ans c
  | .store c => c.Ans
  | .db c => c.Ans
  | .now => Time
  | .release .. | .markRunning .. | .markFinished .. | .observe _ | .deliver _ => Unit

/-- The signature of the pipeline. -/
def sysSig (S : Sig) : Sig := ⟨SysCall S, SysCall.Ans⟩

/-- The source side of the system: its state, the session that leases sources
    and the driver calls on a leased source, at a given time. -/
structure SourceSide (S : Sig) where
  State : Type
  Change : Type
  /-- What others do to the source. -/
  change : Change → State → Option State
  obtain : SourceConfig → Outcome → Time → State → Except Err ℕ × State
  release : ℕ → Bool → Time → State → State
  answer : ℕ → (c : S.Call) → Outcome → Time → State → S.Ans c × State

/-- The whole state. -/
structure World {S : Sig} (side : SourceSide S) where
  src : side.State
  db : Db
  store : Store
  registry : Registry
  metrics : List Observation
  clock : Time
  /-- Whether the run context has been cancelled. -/
  cancelled : Bool
  /-- The calls made so far, for statements about what a run did. -/
  trace : List (SysCall S) := []

/-- Steps of other parties: time passes, the source changes, the context is
    cancelled. -/
inductive EnvStep {S : Sig} (side : SourceSide S)
  | tick (d : ℕ)
  | change (c : side.Change)
  | cancel

/-- The store and sink calls, which take the run context. -/
def SysCall.takesContext {S : Sig} : SysCall S → Bool
  | .store _ => true
  | .db .rollbackTx => false
  | .db _ => true
  | _ => false

/-- The outcomes that are possible for a call. -/
def Outcome.allowed {S : Sig} (c : SysCall S) (cancelled : Bool) (o : Outcome) : Bool :=
  !(c.takesContext && cancelled) || (o != .ok && !o.effective)

namespace World

variable {S : Sig} (srv : SqlServer) (side : SourceSide S)

/-- The effect of one call, and its result. -/
def effect (o : Outcome) : (c : SysCall S) → World side → c.Ans × World side
  | .obtain cfg, w =>
    let (r, s) := side.obtain cfg o w.clock w.src
    (r, { w with src := s })
  | .release l inv, w => ((), { w with src := side.release l inv w.clock w.src })
  | .source l c, w =>
    let (r, s) := side.answer l c o w.clock w.src
    (r, { w with src := s })
  | .store c, w =>
    let (r, s) := w.store.answer w.clock o c
    (r, { w with store := s })
  | .db c, w =>
    let (r, d) := w.db.answer srv o c
    (r, { w with db := d })
  | .markRunning id uuid at', w => ((), { w with registry := w.registry.markRunning id uuid at' })
  | .markFinished id st at' rr rw msg, w =>
    ((), { w with registry := w.registry.markFinished id st at' rr rw msg })
  | .observe m, w => ((), { w with metrics := w.metrics ++ [m] })
  | .now, w => (w.clock, w)
  | .deliver _, w => ((), w)

/-- The answer to one call, with its mark in the trace. -/
def answer (o : Outcome) (c : SysCall S) (w : World side) : c.Ans × World side :=
  effect srv side o c { w with trace := w.trace ++ [c] }

/-- The steps of other parties. -/
def env : EnvStep side → World side → Option (World side)
  | .tick d, w => some { w with clock := w.clock + d }
  | .change c, w => (side.change c w.src).map fun s => { w with src := s }
  | .cancel, w => some { w with cancelled := true }

/-- The machine on which the pipeline runs. -/
def machine : Machine (sysSig S) (World side) where
  Out := Outcome
  Env := EnvStep side
  answer c o w := if o.allowed c w.cancelled then some (World.answer srv side o c w) else none
  env := World.env side

variable {srv side}

theorem machine_answer {c : SysCall S} {o : Outcome} {w w' : World side} {r : c.Ans}
    (h : (machine srv side).answer c o w = some (r, w')) :
    o.allowed c w.cancelled = true ∧ World.answer srv side o c w = (r, w') := by
  have h' : (if o.allowed c w.cancelled then some (World.answer srv side o c w) else none) =
      some (r, w') := h
  split_ifs at h' with ha
  exact ⟨ha, Option.some.inj h'⟩

/-! ## What one call leaves alone -/

@[simp] theorem trace_answer (o : Outcome) (c : SysCall S) (w : World side) :
    (World.answer srv side o c w).2.trace = w.trace ++ [c] := by
  cases c <;> rfl

@[simp] theorem cancelled_answer (o : Outcome) (c : SysCall S) (w : World side) :
    (World.answer srv side o c w).2.cancelled = w.cancelled := by
  cases c <;> rfl

@[simp] theorem clock_answer (o : Outcome) (c : SysCall S) (w : World side) :
    (World.answer srv side o c w).2.clock = w.clock := by
  cases c <;> rfl

/-- Only statements change the sink database. -/
theorem db_answer (o : Outcome) {c : SysCall S} (hc : ∀ s, c ≠ .db s) (w : World side) :
    (World.answer srv side o c w).2.db = w.db := by
  cases c <;> first | rfl | exact absurd rfl (hc _)

/-- Only store calls change the store. -/
theorem store_answer (o : Outcome) {c : SysCall S} (hc : ∀ s, c ≠ .store s) (w : World side) :
    (World.answer srv side o c w).2.store = w.store := by
  cases c <;> first | rfl | exact absurd rfl (hc _)

/-- Other parties touch neither the sink database nor the store. -/
theorem env_db {e : EnvStep side} {w w' : World side} (h : World.env side e w = some w') :
    w'.db = w.db ∧ w'.store = w.store ∧ w'.trace = w.trace := by
  cases e with
  | tick d => cases h; exact ⟨rfl, rfl, rfl⟩
  | cancel => cases h; exact ⟨rfl, rfl, rfl⟩
  | change c =>
    simp only [World.env, Option.map_eq_some_iff] at h
    obtain ⟨s, -, rfl⟩ := h
    exact ⟨rfl, rfl, rfl⟩

end World

end DataLoader
