import DataLoader.Effects.Slots
import DataLoader.Effects.Transition
import DataLoader.Pipeline.AllOrNothing
import DataLoader.Scheduler.Reload

/-!
# The scheduler at work

Model of `trigger` and `Stop` (`internal/scheduler/scheduler.go`, lines 185–255)
together with everything they run against: the goroutines that cron has started,
`Reload`, the runs of `Execute`, and the store. One action of the transition
system is one locked section, one call that `Execute` makes, or one step of
another party, so that every interleaving of them is a run.

* `Thread`: where a goroutine of `trigger` stands.
* `Phase`: how far `Stop` has come.
* `Stepped`, `step_cases`: everything that one step can do.
-/

namespace DataLoader

open Effects

/-- A goroutine that cron has started for a load. -/
inductive Thread (S : Sig)
  /-- Before the locked section of `trigger`. -/
  | spawned (id : Int)
  /-- Past the guard, with the load read from the map. -/
  | guarded (id : Int) (load : Load)
  /-- Inside `Execute`, with the rest of its program. -/
  | executing (id : Int) (load : Load) (rest : Prog (sysSig S) (Option Err))
  /-- `Execute` has returned. -/
  | returned (id : Int) (load : Load)
  /-- `running[id]` has been deleted, `wg.Done` is still to come. -/
  | cleaned (id : Int)
  | finished

/-- The run that a goroutine has in flight: past the guard and before the
    deferred cleanup. -/
def Thread.flight {S : Sig} : Thread S → Option (Int × Load)
  | .guarded id load | .executing id load _ | .returned id load => some (id, load)
  | _ => none

/-- What a goroutine still has to do inside `Execute`. -/
def Thread.rest {S : Sig} : Thread S → Option (Prog (sysSig S) (Option Err))
  | .executing _ _ p => some p
  | _ => none

/-- How far `main` has come with the scheduler, and then `Stop`. -/
inductive Phase
  | created
  | started
  | cronStopped
  | cancelled
  /-- The wait for the runs has ended, by completion or by timeout. -/
  | waited
  /-- `Stop` has returned, after `AbortRunningRuns` returned `err`. -/
  | stopped (err : Option Err)
  deriving DecidableEq, Repr

namespace Scheduler

variable {S : Sig}

/-- The scheduler, its goroutines and the system they work on. -/
structure State (side : SourceSide S) where
  sched : Scheduler
  world : World side
  wg : ℕ
  threads : List (Thread S)
  phase : Phase

/-- The actions. `i` is the number of a goroutine. -/
inductive Act (side : SourceSide S)
  /-- The call of `AbortRunningRuns` in `Load`, before cron is started. -/
  | abortOrphans (o : Outcome)
  | start
  /-- Cron starts the job of a live entry. -/
  | fire (e : CronEntry)
  /-- The locked section of `trigger`. -/
  | enter (i : ℕ)
  /-- `wg.Add(1)` and the call of `Execute`. -/
  | execute (i : ℕ)
  /-- The next call of `Execute` is answered. -/
  | answer (i : ℕ) (o : Outcome)
  | ret (i : ℕ)
  /-- The deferred deletion of `running[id]`. -/
  | cleanup (i : ℕ)
  | wgDone (i : ℕ)
  /-- The locked section of `Reload`. -/
  | reload (fp : String) (desired : List Load) (o : Orders)
  | clock (d : ℕ)
  | change (c : side.Change)
  | stopCron
  | cancel
  /-- The `select` of `Stop` takes the branch of `done`, or of the timer. -/
  | wait (timeout : Bool)
  | abortRuns (o : Outcome)

variable {side : SourceSide S}

/-- A call of `AbortRunningRuns` on the store. -/
def abortRunningRuns (reason : String) (o : Outcome) (w : World side) : World side :=
  if o.effective then { w with store := w.store.abortRunningRuns reason w.clock } else w

/-- Model of the locked section of `trigger` (lines 186–205), with the metric of
    a skipped run. -/
def enter (s : State side) (i : ℕ) (id : Int) : State side :=
  match s.sched.scheduled.lookup id with
  | none => { s with threads := s.threads.set i .finished }
  | some entry =>
    if s.sched.running id then
      { s with
        threads := s.threads.set i .finished
        world := { s.world with metrics := s.world.metrics ++ [.overlapSkip entry.load.name] } }
    else
      { s with
        sched := { s.sched with running := Function.update s.sched.running id true }
        threads := s.threads.set i (.guarded id entry.load) }

/-- The transition system. -/
def step (srv : SqlServer) (r : Runner S) (parses : String → Bool) :
    Act side → State side → Option (State side)
  | .abortOrphans o, s =>
    if s.phase = .created then
      some { s with
        world := abortRunningRuns "aborted: orphaned running row at startup" o s.world }
    else none
  | .start, s => if s.phase = .created then some { s with phase := .started } else none
  | .fire e, s =>
    if s.phase = .started ∧ e ∈ s.sched.cron.entries then
      some { s with threads := s.threads ++ [.spawned e.loadID] }
    else none
  | .enter i, s =>
    match s.threads[i]? with
    | some (.spawned id) => some (enter s i id)
    | _ => none
  | .execute i, s =>
    match s.threads[i]? with
    | some (.guarded id load) =>
      some { s with
        wg := s.wg + 1, threads := s.threads.set i (.executing id load (r.execute load)) }
    | _ => none
  | .answer i o, s =>
    match s.threads[i]? with
    | some (.executing id load (.call c k)) =>
      ((World.machine srv side).answer c o s.world).map fun rw =>
        { s with world := rw.2, threads := s.threads.set i (.executing id load (k rw.1)) }
    | _ => none
  | .ret i, s =>
    match s.threads[i]? with
    | some (.executing id load (.ret _)) =>
      some { s with threads := s.threads.set i (.returned id load) }
    | _ => none
  | .cleanup i, s =>
    match s.threads[i]? with
    | some (.returned id _) =>
      some { s with
        sched := { s.sched with running := Function.update s.sched.running id false }
        threads := s.threads.set i (.cleaned id) }
    | _ => none
  | .wgDone i, s =>
    match s.threads[i]? with
    | some (.cleaned _) => some { s with wg := s.wg - 1, threads := s.threads.set i .finished }
    | _ => none
  | .reload fp desired o, s =>
    (s.sched.applyReload parses fp desired o).map fun sched =>
      { s with sched, world := { s.world with registry := registerLoads desired s.world.registry } }
  | .clock d, s => some { s with world := { s.world with clock := s.world.clock + d } }
  | .change c, s => (side.change c s.world.src).map fun src => { s with world := { s.world with src } }
  | .stopCron, s =>
    if s.phase = .created ∨ s.phase = .started then some { s with phase := .cronStopped } else none
  | .cancel, s =>
    if s.phase = .cronStopped then
      some { s with phase := .cancelled, world := { s.world with cancelled := true } }
    else none
  | .wait timeout, s =>
    if s.phase = .cancelled ∧ (timeout = true ∨ s.wg = 0) then some { s with phase := .waited }
    else none
  | .abortRuns o, s =>
    if s.phase = .waited then
      some { s with
        phase := .stopped o.err
        world := abortRunningRuns "aborted: shutdown timeout" o s.world }
    else none

/-- A scheduler as `New` returns it, on a store whose rows have distinct keys
    below the next one. -/
structure Initial (s : State side) : Prop where
  sched : s.sched = {}
  threads : s.threads = []
  phase : s.phase = .created
  cancelled : s.world.cancelled = false
  keys : (s.world.store.runs.map (·.id)).Nodup
  nextKey : ∀ row ∈ s.world.store.runs, row.id < s.world.store.nextRunID

/-! ## Views of the goroutines -/

/-- A view of every goroutine by its number. -/
def view {β : Type} (f : Thread S → Option β) (ts : List (Thread S)) (i : ℕ) : Option β :=
  ts[i]?.bind f

theorem view_set {β : Type} (f : Thread S → Option β) {ts : List (Thread S)} {i : ℕ} {t : Thread S}
    (h : ts[i]? = some t) (t' : Thread S) :
    view f (ts.set i t') = Function.update (view f ts) i (f t') :=
  slot_set h t'

/-- A step of a goroutine that its view does not show. -/
theorem view_set_of_eq {β : Type} (f : Thread S → Option β) {ts : List (Thread S)} {i : ℕ}
    {t : Thread S} (h : ts[i]? = some t) {t' : Thread S} (ht : f t' = f t) :
    view f (ts.set i t') = view f ts :=
  slot_set_of_eq h ht

theorem view_append {β : Type} (f : Thread S → Option β) (ts : List (Thread S)) {t : Thread S}
    (ht : f t = none) : view f (ts ++ [t]) = view f ts :=
  slot_append ht

/-- The run in flight of goroutine `i`. -/
def State.flight (s : State side) : ℕ → Option (Int × Load) := view Thread.flight s.threads

/-- The rest of `Execute` for goroutine `i`. -/
def State.rest (s : State side) : ℕ → Option (Prog (sysSig S) (Option Err)) :=
  view Thread.rest s.threads

/-! ## What one step can do -/

/-- The steps of the phase, with whether the run context is cancelled before and
    after. -/
inductive PhaseStep : Phase → Bool → Phase → Bool → Prop
  | same (p : Phase) (c : Bool) : PhaseStep p c p c
  | start (c : Bool) : PhaseStep .created c .started c
  | stopCron {p : Phase} (h : p = .created ∨ p = .started) (c : Bool) :
      PhaseStep p c .cronStopped c
  | cancel (c : Bool) : PhaseStep .cronStopped c .cancelled true
  | wait (c : Bool) : PhaseStep .cancelled c .waited c

/-- Everything that a step can do. -/
inductive Stepped (srv : SqlServer) (r : Runner S) (parses : String → Bool) (a : Act side)
    (s s' : State side) : Prop
  /-- A goroutine passes the guard. -/
  | start (i : ℕ) (id : Int) (x : ScheduledLoad) (act : a = .enter i)
      (thread : s.threads[i]? = some (.spawned id)) (free : s.sched.running id = false)
      (held : s.sched.scheduled.lookup id = some x)
      (eq : s' = { s with
        sched := { s.sched with running := Function.update s.sched.running id true }
        threads := s.threads.set i (.guarded id x.load) })
  /-- A goroutine is turned away at the guard, enters or leaves `Execute`, or
      ends. -/
  | move (i : ℕ) (t t' : Thread S) (thread : s.threads[i]? = some t)
      (threads : s'.threads = s.threads.set i t') (flight : t'.flight = t.flight)
      (rest : t'.rest = none ∨ t.rest = none ∧ ∃ ld, t'.rest = some (r.execute ld))
      (sched : s'.sched = s.sched) (store : s'.world.store = s.world.store)
      (cancelled : s'.world.cancelled = s.world.cancelled) (phase : s'.phase = s.phase)
  /-- A call of `Execute` is answered. -/
  | call (i : ℕ) (id : Int) (ld : Load) (c : SysCall S)
      (k : c.Ans → Prog (sysSig S) (Option Err)) (o : Outcome) (ans : c.Ans)
      (thread : s.threads[i]? = some (.executing id ld (.call (S := sysSig S) c k)))
      (allowed : o.allowed c s.world.cancelled = true)
      (answer : World.answer srv side o c s.world = (ans, s'.world))
      (threads : s'.threads = s.threads.set i (.executing id ld (k ans)))
      (sched : s'.sched = s.sched) (phase : s'.phase = s.phase)
  /-- The deferred deletion of `running[id]`. -/
  | cleanup (i : ℕ) (id : Int) (ld : Load) (thread : s.threads[i]? = some (.returned id ld))
      (eq : s' = { s with
        sched := { s.sched with running := Function.update s.sched.running id false }
        threads := s.threads.set i (.cleaned id) })
  | spawn (id : Int) (started : s.phase = .started)
      (eq : s' = { s with threads := s.threads ++ [.spawned id] })
  | reload (fp : String) (desired : List Load) (o : Orders) (act : a = .reload fp desired o)
      (applied : s.sched.applyReload parses fp desired o = some s'.sched)
      (threads : s'.threads = s.threads) (store : s'.world.store = s.world.store)
      (cancelled : s'.world.cancelled = s.world.cancelled) (phase : s'.phase = s.phase)
  | abort (reason : String) (o : Outcome) (world : s'.world = abortRunningRuns reason o s.world)
      (threads : s'.threads = s.threads) (sched : s'.sched = s.sched)
      (phase : s.phase = .created ∧ s'.phase = .created ∨
        s.phase = .waited ∧ s'.phase = .stopped o.err)
  /-- Time passes, the source changes, or the phase does. -/
  | phase (step : PhaseStep s.phase s.world.cancelled s'.phase s'.world.cancelled)
      (threads : s'.threads = s.threads) (sched : s'.sched = s.sched)
      (store : s'.world.store = s.world.store)

variable {srv : SqlServer} {r : Runner S} {parses : String → Bool} {a : Act side}
  {s s' : State side}

theorem stepped_enter {i : ℕ} {id : Int} (ht : s.threads[i]? = some (.spawned id)) :
    Stepped srv r parses (.enter i) s (enter s i id) := by
  unfold enter
  split
  next => exact .move i _ _ ht rfl rfl (.inl rfl) rfl rfl rfl rfl
  next x hx =>
    split_ifs with hrun
    · exact .move i _ _ ht rfl rfl (.inl rfl) rfl rfl rfl rfl
    · exact .start i id x rfl ht (by simpa using hrun) hx rfl

theorem step_cases (h : step srv r parses a s = some s') : Stepped srv r parses a s s' := by
  cases a with
  | enter i =>
    simp only [step] at h
    split at h
    next id ht =>
      obtain rfl := Option.some.inj h
      exact stepped_enter ht
    next => cases h
  | execute i =>
    simp only [step] at h
    split at h
    next id ld ht =>
      obtain rfl := Option.some.inj h
      exact .move i _ _ ht rfl rfl (.inr ⟨rfl, ld, rfl⟩) rfl rfl rfl rfl
    next => cases h
  | answer i o =>
    simp only [step] at h
    split at h
    next id ld c k ht =>
      obtain ⟨⟨ans, w⟩, hw, rfl⟩ := Option.map_eq_some_iff.1 h
      obtain ⟨hallowed, hanswer⟩ := World.machine_answer hw
      exact .call i id ld c k o ans ht hallowed hanswer rfl rfl rfl
    next => cases h
  | ret i =>
    simp only [step] at h
    split at h
    next id ld e ht =>
      obtain rfl := Option.some.inj h
      exact .move i _ _ ht rfl rfl (.inl rfl) rfl rfl rfl rfl
    next => cases h
  | cleanup i =>
    simp only [step] at h
    split at h
    next id ld ht =>
      obtain rfl := Option.some.inj h
      exact .cleanup i id ld ht rfl
    next => cases h
  | wgDone i =>
    simp only [step] at h
    split at h
    next id ht =>
      obtain rfl := Option.some.inj h
      exact .move i _ _ ht rfl rfl (.inl rfl) rfl rfl rfl rfl
    next => cases h
  | fire e =>
    simp only [step, Option.ite_none_right_eq_some, Option.some.injEq] at h
    obtain ⟨⟨hp, -⟩, rfl⟩ := h
    exact .spawn e.loadID hp rfl
  | reload fp desired o =>
    obtain ⟨sched, hs, rfl⟩ := Option.map_eq_some_iff.1 h
    exact .reload fp desired o rfl hs rfl rfl rfl rfl
  | abortOrphans o =>
    simp only [step, Option.ite_none_right_eq_some, Option.some.injEq] at h
    obtain ⟨hp, rfl⟩ := h
    exact .abort _ o rfl rfl rfl (.inl ⟨hp, hp⟩)
  | abortRuns o =>
    simp only [step, Option.ite_none_right_eq_some, Option.some.injEq] at h
    obtain ⟨hp, rfl⟩ := h
    exact .abort _ o rfl rfl rfl (.inr ⟨hp, rfl⟩)
  | change c =>
    obtain ⟨src, -, rfl⟩ := Option.map_eq_some_iff.1 h
    exact .phase (.same _ _) rfl rfl rfl
  | clock d =>
    obtain rfl := Option.some.inj h
    exact .phase (.same _ _) rfl rfl rfl
  | start =>
    simp only [step, Option.ite_none_right_eq_some, Option.some.injEq] at h
    obtain ⟨hp, rfl⟩ := h
    exact .phase (by rw [hp]; exact .start _) rfl rfl rfl
  | stopCron =>
    simp only [step, Option.ite_none_right_eq_some, Option.some.injEq] at h
    obtain ⟨hp, rfl⟩ := h
    exact .phase (.stopCron hp _) rfl rfl rfl
  | cancel =>
    simp only [step, Option.ite_none_right_eq_some, Option.some.injEq] at h
    obtain ⟨hp, rfl⟩ := h
    exact .phase (by rw [hp]; exact .cancel _) rfl rfl rfl
  | wait timeout =>
    simp only [step, Option.ite_none_right_eq_some, Option.some.injEq] at h
    obtain ⟨hp, rfl⟩ := h
    exact .phase (by rw [hp.1]; exact .wait _) rfl rfl rfl

/-! ## A small system -/

/-- A runner over the source of one row. -/
def oneRowRunner [GoLib] : Runner noDriver :=
  { resolveParams := fun _ => .ok [], sink := Mssql.sink, read := readOneRow }

/-- A new scheduler on an empty sink and an empty store. -/
def idleState : State plainSide :=
  { sched := {}, world := sinkWorld fun _ => none, wg := 0, threads := [], phase := .created }

theorem initial_idleState : Initial idleState :=
  ⟨rfl, rfl, rfl, rfl, List.nodup_nil, by simp [idleState, sinkWorld]⟩

/-- One load is scheduled and its cron entry fires `n` times. -/
def firedTimes (n : ℕ) : List (Act plainSide) :=
  [.reload "a" [loadAt 1 "0 2 * * *"] ⟨[], [loadAt 1 "0 2 * * *"]⟩, .start] ++
    List.replicate n (.fire ⟨1, "0 2 * * *", 1⟩)

end Scheduler

end DataLoader
