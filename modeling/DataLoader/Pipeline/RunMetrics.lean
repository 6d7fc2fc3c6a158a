import DataLoader.Metrics.Counters
import DataLoader.Pipeline.RowCounts

/-!
# Run metrics and run rows

`Execute` calls `ObserveRun` by hand on each of its exits, beside `FinishRun`. What the
counters of a load show is compared here with the rows of its runs, over any sequence of
executions in which `FinishRun` succeeds.

* `execute_ends`: the `FinishRun` and `ObserveRun` calls of an execution, on every path.
* `Lags`: by how much the rows of a load get ahead of its counters.
* `run_metrics_agree_iff`: the counters agree with the rows if and only if no run failed in
  `prepareExisting`. That exit saves a failed row and observes nothing.
-/

namespace DataLoader

open Effects SinkProtocol

variable {S : Sig}

/-! ## The end of a run in its log -/

/-- A call that ends a run, in the store or in the metrics. -/
inductive RunEvent
  | finish (status : RunStatus) (rowsRead rowsWritten : Int) (e : Option Err)
  | observe (load : String) (status : RunStatus) (target : String) (rowsRead rowsWritten : Int)

/-- Whether a call ends a run. -/
def SysCall.ends : SysCall S → Bool
  | .store (.finishRun ..) | .observe (.run ..) => true
  | _ => false

/-- A step of a run, if it ends the run. -/
def runEvent : Step (sysSig S) → Option RunEvent
  | ⟨.store (.finishRun _ status rr rw _ _), e⟩ => some (.finish status rr rw e)
  | ⟨.observe (.run load status target rr rw), _⟩ => some (.observe load status target rr rw)
  | _ => none

def runEvents (tr : List (Step (sysSig S))) : List RunEvent := tr.filterMap runEvent

theorem runEvents_append (tr tr' : List (Step (sysSig S))) :
    runEvents (tr ++ tr') = runEvents tr ++ runEvents tr' := List.filterMap_append

theorem runEvent_eq_none {s : Step (sysSig S)} (h : SysCall.ends s.1 = false) :
    runEvent s = none := by
  obtain ⟨c, r⟩ := s
  cases c with
  | store c => cases c <;> first | rfl | cases h
  | observe m => cases m <;> first | rfl | cases h
  | _ => rfl

theorem runEvents_eq_nil {tr : List (Step (sysSig S))} (h : ∀ s ∈ tr, SysCall.ends s.1 = false) :
    runEvents tr = [] :=
  List.filterMap_eq_nil_iff.2 fun s hs => runEvent_eq_none (h s hs)

/-- A part of a path that ends no run. -/
theorem runEvents_of_calls {α : Type} {p : Prog (sysSig S) α}
    (hp : p.Calls fun c => SysCall.ends c = false) {tr : List (Step (sysSig S))} {a : α}
    (h : p.Path tr a) : runEvents tr = [] :=
  runEvents_eq_nil (h.calls hp)

theorem ends_of_onDb {c : SysCall S} (hc : c.onDb) : c.ends = false := by
  cases c <;> first | exact hc.elim | rfl

/-- Statements on the sink end no run. -/
theorem ends_ignores_onDb :
    (allowing (S := sysSig S) fun c => SysCall.ends c = false).Ignores SysCall.onDb :=
  fun _ hc _ => ⟨ends_of_onDb hc, fun _ => rfl⟩

theorem runEvent_eq_finish {x : Entry (sysSig S) Outcome} {status : RunStatus} {rr rw : Int}
    {e : Option Err} : runEvent x.step = some (.finish status rr rw e) ↔
      ∃ run wm msg, booked x = some (.finishRun run status rr rw wm msg e) := by
  obtain ⟨c, o, a⟩ := x
  cases c with
  | store c =>
    cases c with
    | finishRun run status' rr' rw' wm msg =>
      constructor
      · intro h
        obtain ⟨rfl, rfl, rfl, rfl⟩ := RunEvent.finish.inj (Option.some.inj h)
        exact ⟨run, wm, msg, rfl⟩
      · rintro ⟨run', wm', msg', h⟩
        obtain ⟨-, rfl, rfl, rfl, -, -, rfl⟩ := Booked.finishRun.inj (Option.some.inj h)
        rfl
    | _ => simp [Entry.step, runEvent, booked]
  | observe m => cases m <;> simp [Entry.step, runEvent, booked]
  | _ => simp [Entry.step, runEvent, booked]

/-- The `FinishRun` calls are those of the bookkeeping. -/
theorem finish_mem_runEvents {l : SysLog S} {status : RunStatus} {rr rw : Int} {e : Option Err} :
    .finish status rr rw e ∈ runEvents (l.map Entry.step) ↔
      ∃ run wm msg, .finishRun run status rr rw wm msg e ∈ books l := by
  simp only [runEvents, books, List.filterMap_map, List.mem_filterMap, Function.comp_apply,
    runEvent_eq_finish]
  constructor
  · rintro ⟨x, hx, run, wm, msg, hb⟩
    exact ⟨run, wm, msg, x, hx, hb⟩
  · rintro ⟨run, wm, msg, x, hx, hb⟩
    exact ⟨x, hx, run, wm, msg, hb⟩

/-! ## The ends of `Execute` -/

/-- The events at the end of a run: its row is saved and the run is observed with the same
    numbers, and with the same status if the row could be saved. -/
def ClosedWith (load : Load) (rowsRead rowsWritten : Int) (evs : List RunEvent) : Prop :=
  ∃ verdict fe, evs = [.finish (runStatus verdict) rowsRead rowsWritten fe,
    .observe load.name (runStatus (verdict.or fe)) (Runner.targetLabel load) rowsRead rowsWritten]

section

variable {r : Runner S} {load : Load} {run : LoadRun} {tr : List (Step (sysSig S))}

theorem failRun_events {rr rw : Int} {wm : String} {msg : Err} {u : Unit}
    (h : (Runner.failRun load run rr rw wm msg).Path tr u) :
    ClosedWith load rr rw (runEvents tr) := by
  obtain ⟨fe, tr₁, rfl, h₁⟩ := Prog.Path.of_perform h
  obtain ⟨t, tr₂, rfl, h₂⟩ := Prog.Path.of_perform h₁
  obtain ⟨_, tr₃, rfl, h₃⟩ := Prog.Path.of_perform h₂
  obtain ⟨_, tr₄, rfl, h₄⟩ := Prog.Path.of_call h₃
  obtain ⟨-, rfl⟩ := Prog.Path.of_ret h₄
  exact ⟨some msg, fe, rfl⟩

theorem finishSuccess_events {result : ReadResult} {rw : Int} {err : Option Err}
    (h : (Runner.finishSuccess load run result rw).Path tr err) :
    ClosedWith load result.rowsRead rw (runEvents tr) := by
  obtain ⟨fe, tr₁, rfl, h₁⟩ := Prog.Path.of_perform h
  cases fe with
  | some e =>
    obtain ⟨t, tr₂, rfl, h₂⟩ := Prog.Path.of_perform h₁
    obtain ⟨_, tr₃, rfl, h₃⟩ := Prog.Path.of_perform h₂
    obtain ⟨_, tr₄, rfl, h₄⟩ := Prog.Path.of_perform h₃
    obtain ⟨-, rfl⟩ := Prog.Path.of_ret h₄
    exact ⟨none, some e, rfl⟩
  | none =>
    obtain ⟨t, tr₂, rfl, h₂⟩ := Prog.Path.of_perform h₁
    obtain ⟨_, tr₃, rfl, h₃⟩ := Prog.Path.of_perform h₂
    split_ifs at h₃
    · obtain ⟨_, tr₄, rfl, h₄⟩ := Prog.Path.of_perform h₃
      obtain ⟨_, tr₅, rfl, h₅⟩ := Prog.Path.of_perform h₄
      obtain ⟨-, rfl⟩ := Prog.Path.of_ret h₅
      exact ⟨none, none, rfl⟩
    · obtain ⟨_, tr₄, rfl, h₄⟩ := Prog.Path.of_perform h₃
      obtain ⟨-, rfl⟩ := Prog.Path.of_ret h₄
      exact ⟨none, none, rfl⟩

theorem finishRead_events {current : String} {result : ReadResult} {rw : Int} {err : Option Err}
    (h : (Runner.finishRead load run current result rw).Path tr err) :
    ClosedWith load result.rowsRead rw (runEvents tr) := by
  unfold Runner.finishRead at h
  split_ifs at h
  · obtain ⟨e, tr₁, rfl, h₁⟩ := Prog.Path.of_perform h
    cases e with
    | some e =>
      obtain ⟨_, tr₂, tr₃, hfail, hret, rfl⟩ := Prog.Path.of_bind h₁
      obtain ⟨-, rfl⟩ := Prog.Path.of_ret hret
      rw [List.append_nil]
      show ClosedWith load result.rowsRead rw (runEvents tr₂)
      exact failRun_events hfail
    | none =>
      show ClosedWith load result.rowsRead rw (runEvents tr₁)
      exact finishSuccess_events h₁
  · exact finishSuccess_events h

/-- `WriteBatch` never reports a negative number of rows. -/
def Sink.NonNeg (k : Sink S) : Prop :=
  ∀ t b loadTS part n, (k.writeBatch t b loadTS).Path part (.ok n) → 0 ≤ n

theorem Sink.Counts.nonNeg {k : Sink S} (h : k.Counts) : k.NonNeg := by
  intro t b loadTS part n hpath
  rw [h t b loadTS part n hpath]
  exact Int.natCast_nonneg _

theorem handler_nonNeg (hn : r.sink.NonNeg) {loadTS : Time} {st st' : HandlerState S} {b : Batch}
    {e : Option Err} (hst : 0 ≤ st.rowsWritten)
    (h : (r.handler load loadTS st b).Path tr (st', e)) : 0 ≤ st'.rowsWritten := by
  obtain ⟨n, hadds, hsum⟩ := (handler_path h).rows
  have hpos : 0 ≤ n := by
    cases hadds with
    | refused => exact le_rfl
    | accepted hwrite => exact hn _ _ _ _ _ hwrite
  omega

theorem readAndFinish_events (hk : r.sink.OnDb) (hn : r.sink.NonNeg) {src : ℕ}
    {current : Watermark} {loadTS : Time} {repl : Option (ReplaceSession S)}
    (hrepl : ∀ s, repl = some s → OnDb s) {exit : Runner.Exit S}
    (h : (r.readAndFinish load src run current loadTS repl).Path tr exit) :
    (∀ s, exit.repl = some s → OnDb s) ∧
      ∃ rr rw, 0 ≤ rw ∧ ClosedWith load rr rw (runEvents tr) := by
  unfold Runner.readAndFinish at h
  obtain ⟨⟨st, result, rerr⟩, tr₁, tr₂, hread, h₁, rfl⟩ := Prog.Path.of_bind h
  have hst₀ : HandlerOnDb (S := S) ⟨0, true, (repl.map (·.writeTo)).getD load.target, repl⟩ := hrepl
  have hfollows : (allowing (S := sysSig S) fun c => SysCall.ends c = false).Follows
      (Runner.interpret src (r.handler load loadTS) (r.read (Runner.loadConfig load current))
        ⟨0, true, (repl.map (·.writeTo)).getD load.target, repl⟩)
      (fun sa q' => q' = () ∧ HandlerOnDb sa.1) () :=
    interpret_follows ends_ignores_onDb (fun _ hc _ => ⟨hc, fun _ => rfl⟩) (fun _ _ => rfl)
      (fun _ => rfl) hk src hst₀
  obtain ⟨-, -, hst⟩ := hread.of_follows hfollows
  have hnonneg : 0 ≤ st.rowsWritten :=
    interpret_keeps (I := fun st : HandlerState S => 0 ≤ st.rowsWritten)
      (fun hst h => handler_nonNeg hn hst h) (le_refl (0 : Int)) hread
  rw [runEvents_append, runEvents_of_calls hfollows.calls hread, List.nil_append]
  cases rerr with
  | some e =>
    obtain ⟨_, tr₃, tr₄, hfail, hret, rfl⟩ := Prog.Path.of_bind h₁
    obtain ⟨rfl, rfl⟩ := Prog.Path.of_ret hret
    rw [List.append_nil]
    exact ⟨hst, _, _, hnonneg, failRun_events hfail⟩
  | none =>
    cases hr : st.repl with
    | none =>
      simp only [hr] at h₁
      obtain ⟨err, tr₃, tr₄, hfin, hret, rfl⟩ := Prog.Path.of_bind h₁
      obtain ⟨rfl, rfl⟩ := Prog.Path.of_ret hret
      rw [List.append_nil]
      exact ⟨by simp, _, _, hnonneg, finishRead_events hfin⟩
    | some s =>
      simp only [hr] at h₁
      obtain ⟨res, tr₃, tr₄, hcommit, h₂, rfl⟩ := Prog.Path.of_bind h₁
      have hfollows' := commit_follows (q := ()) ends_ignores_onDb (hst s hr)
      rw [runEvents_append, runEvents_of_calls hfollows'.calls hcommit, List.nil_append]
      cases res with
      | error e =>
        obtain ⟨_, tr₅, tr₆, hfail, hret, rfl⟩ := Prog.Path.of_bind h₂
        obtain ⟨rfl, rfl⟩ := Prog.Path.of_ret hret
        rw [List.append_nil]
        refine ⟨?_, _, _, hnonneg, failRun_events hfail⟩
        exact fun s' hs' => Option.some.inj hs' ▸ hst s hr
      | ok s' =>
        obtain ⟨-, -, hok⟩ := hcommit.of_follows hfollows'
        obtain ⟨err, tr₅, tr₆, hfin, hret, rfl⟩ := Prog.Path.of_bind h₂
        obtain ⟨rfl, rfl⟩ := Prog.Path.of_ret hret
        rw [List.append_nil]
        refine ⟨?_, _, _, hnonneg, finishRead_events hfin⟩
        exact fun s'' hs'' => Option.some.inj hs'' ▸ hok s' rfl

/-! ### `prepareExisting` -/

/-- After `n` calls of the trace `tr` comes `prepareExisting`, and it returns `res`. -/
def PreparesAt (r : Runner S) (load : Load) (n : ℕ) (tr : List (Step (sysSig S)))
    (res : Except Err (ReplaceSession S)) : Prop :=
  ∃ pre part rest, tr = pre ++ part ++ rest ∧ pre.length = n ∧
    ((ReplaceSession.new r.sink load.target).prepareExisting r.sink).Path part res

theorem PreparesAt.unique {n : ℕ} {res res' : Except Err (ReplaceSession S)}
    (h : PreparesAt r load n tr res) (h' : PreparesAt r load n tr res') : res = res' := by
  obtain ⟨pre, part, rest, rfl, rfl, hpath⟩ := h
  obtain ⟨pre', part', rest', heq, hlen, hpath'⟩ := h'
  simp only [List.append_assoc] at heq
  obtain ⟨rfl, heq'⟩ := List.append_inj heq hlen.symm
  exact (hpath.unique hpath' heq').1

theorem PreparesAt.wrap {n : ℕ} {res : Except Err (ReplaceSession S)}
    (h : PreparesAt r load n tr res) (pre rest : List (Step (sysSig S))) :
    PreparesAt r load (pre.length + n) (pre ++ tr ++ rest) res := by
  obtain ⟨pre', part, rest', rfl, rfl, hpath⟩ := h
  exact ⟨pre ++ pre', part, rest' ++ rest, by simp, by simp, hpath⟩

/-- The run with the log `l` failed in `prepareExisting`, which comes after the calls
    `Obtain`, `GetWatermark`, `StartRun`, `MarkRunning` and `time.Now`. -/
def Unprepared (r : Runner S) (load : Load) (l : SysLog S) : Prop :=
  load.mode = loadModeReplace ∧ ∃ e, PreparesAt r load 5 (l.map Entry.step) (.error e)

/-- How a run ends that has been started, with `prepareExisting` after `n` calls. -/
inductive RunEnds (r : Runner S) (load : Load) (n : ℕ) (tr : List (Step (sysSig S))) : Prop
  | unprepared {e : Err} (hmode : load.mode = loadModeReplace)
      (hfailed : PreparesAt r load n tr (.error e))
      (hevents : ∃ fe, runEvents tr = [.finish .failed 0 0 fe])
  | closed {rr rw : Int}
      (hprepared : load.mode = loadModeReplace → ∃ s, PreparesAt r load n tr (.ok s))
      (hrw : 0 ≤ rw) (hevents : ClosedWith load rr rw (runEvents tr))

theorem RunEnds.wrap {n : ℕ} (h : RunEnds r load n tr) (pre rest : List (Step (sysSig S)))
    (hpre : runEvents pre = []) (hrest : runEvents rest = []) :
    RunEnds r load (pre.length + n) (pre ++ tr ++ rest) := by
  have hevents : runEvents (pre ++ tr ++ rest) = runEvents tr := by
    rw [runEvents_append, runEvents_append, hpre, hrest, List.nil_append, List.append_nil]
  cases h with
  | unprepared hmode hfailed h =>
    exact .unprepared hmode (hfailed.wrap pre rest) (hevents ▸ h)
  | closed hprepared hrw h =>
    refine .closed (fun hmode => ?_) hrw (hevents ▸ h)
    obtain ⟨s, hs⟩ := hprepared hmode
    exact ⟨s, hs.wrap pre rest⟩

theorem runStarted_ends (hk : r.sink.OnDb) (hn : r.sink.NonNeg) {src : ℕ} {current : Watermark}
    {exit : Runner.Exit S} (h : (r.runStarted load src run current).Path tr exit) :
    RunEnds r load 2 tr := by
  unfold Runner.runStarted at h
  obtain ⟨_, tr₁, rfl, h₁⟩ := Prog.Path.of_perform h
  obtain ⟨loadTS, tr₂, rfl, h₂⟩ := Prog.Path.of_perform h₁
  split_ifs at h₂ with hmode
  · have hnew : OnDb (ReplaceSession.new r.sink load.target) := hk.atomic
    have hfollows := prepareExisting_follows (q := ()) ends_ignores_onDb hk hnew
    obtain ⟨res, tr₃, tr₄, hprepare, h₃, rfl⟩ := Prog.Path.of_bind h₂
    have hskip := runEvents_of_calls hfollows.calls hprepare
    have hat : ∀ s s' : Step (sysSig S), PreparesAt r load 2 (s :: s' :: (tr₃ ++ tr₄)) res :=
      fun s s' => ⟨[s, s'], tr₃, tr₄, rfl, rfl, hprepare⟩
    cases res with
    | error e =>
      obtain ⟨fe, tr₅, rfl, h₄⟩ := Prog.Path.of_perform h₃
      obtain ⟨t, tr₆, rfl, h₅⟩ := Prog.Path.of_perform h₄
      obtain ⟨_, tr₇, rfl, h₆⟩ := Prog.Path.of_perform h₅
      obtain ⟨-, rfl⟩ := Prog.Path.of_ret h₆
      refine .unprepared hmode (hat _ _) ⟨fe, ?_⟩
      show runEvents (tr₃ ++ _) = _
      rw [runEvents_append, hskip]
      rfl
    | ok s =>
      obtain ⟨-, -, hok⟩ := hprepare.of_follows hfollows
      obtain ⟨exit', tr₅, tr₆, hbody, h₄, rfl⟩ := Prog.Path.of_bind h₃
      obtain ⟨hrepl, rr, rw', hrw, hclosed⟩ :=
        readAndFinish_events hk hn (fun s' hs' => Option.some.inj hs' ▸ hok s rfl) hbody
      obtain ⟨_, tr₇, tr₈, habort, hret, rfl⟩ := Prog.Path.of_bind h₄
      obtain ⟨-, rfl⟩ := Prog.Path.of_ret hret
      have hskip' := runEvents_of_calls
        (exitAbort_follows (q := ()) ends_ignores_onDb hrepl).calls habort
      have hevents : ClosedWith load rr rw' (runEvents (tr₃ ++ (tr₅ ++ (tr₇ ++ [])))) := by
        rwa [runEvents_append, hskip, List.nil_append, runEvents_append, List.append_nil, hskip',
          List.append_nil]
      exact .closed (fun _ => ⟨s, hat _ _⟩) hrw hevents
  · obtain ⟨-, rr, rw', hrw, hclosed⟩ := readAndFinish_events hk hn (by simp) h₂
    exact .closed (fun h => absurd h hmode) hrw hclosed

/-- Every execution: it ends before the run is started, or as a started run does. -/
theorem execute_ends (hk : r.sink.OnDb) (hn : r.sink.NonNeg) {err : Option Err}
    (h : (r.execute load).Path tr err) :
    (runEvents tr = [] ∧ tr.length < 5) ∨ RunEnds r (Runner.pointBased load) 5 tr := by
  unfold Runner.execute at h
  dsimp only at h
  generalize Runner.pointBased load = load at h ⊢
  split at h
  · obtain ⟨-, rfl⟩ := Prog.Path.of_ret h
    exact .inl ⟨rfl, by simp⟩
  · obtain ⟨res, tr₁, rfl, h₁⟩ := Prog.Path.of_perform h
    cases res with
    | error e =>
      obtain ⟨-, rfl⟩ := Prog.Path.of_ret h₁
      exact .inl ⟨rfl, by simp⟩
    | ok src =>
      obtain ⟨exit, tr₂, tr₃, hbody, h₂, rfl⟩ := Prog.Path.of_bind h₁
      obtain ⟨_, tr₄, rfl, h₃⟩ := Prog.Path.of_perform h₂
      obtain ⟨-, rfl⟩ := Prog.Path.of_ret h₃
      unfold Runner.leased at hbody
      obtain ⟨res, tr₅, rfl, h₄⟩ := Prog.Path.of_perform hbody
      cases res with
      | error e =>
        obtain ⟨-, rfl⟩ := Prog.Path.of_ret h₄
        exact .inl ⟨rfl, by simp⟩
      | ok wm =>
        obtain ⟨res, tr₆, rfl, h₅⟩ := Prog.Path.of_perform h₄
        cases res with
        | error e =>
          obtain ⟨-, rfl⟩ := Prog.Path.of_ret h₅
          exact .inl ⟨rfl, by simp⟩
        | ok run =>
          right
          exact (runStarted_ends hk hn h₅).wrap [_, _, _] [_] rfl rfl

end

/-! ## Counters and rows -/

variable {side : SourceSide S} {srv : SqlServer}

/-- What an event adds to the counters. -/
def RunEvent.count (m : Counters) : RunEvent → Counters
  | .finish .. => m
  | .observe load status target rr rw => m.observeRun load status target rr rw

section

variable {α : Type} {p : Prog (sysSig S) α} {w w' : World side} {l : SysLog S} {a : α}

theorem World.env_metrics {e : EnvStep side} (h : World.env side e w = some w') :
    w'.metrics = w.metrics := by
  cases e with
  | tick d => cases h; rfl
  | cancel => cases h; rfl
  | change c =>
    simp only [World.env, Option.map_eq_some_iff] at h
    obtain ⟨s, -, rfl⟩ := h
    rfl

/-- What a step adds to the counters. -/
def countStep (m : Counters) (s : Step (sysSig S)) : Counters :=
  (runEvent s).elim m (RunEvent.count m)

theorem World.counters_answer (o : Outcome) (c : SysCall S) (a : c.Ans) (w : World side) :
    (World.answer srv side o c w).2.counters = countStep w.counters ⟨c, a⟩ := by
  cases c with
  | observe m =>
    have hlast : (World.answer srv side o (.observe m) w).2.counters = w.counters.observe m := by
      show (w.metrics ++ [m]).foldl Counters.observe {} = _
      rw [List.foldl_append]
      rfl
    rw [hlast]
    cases m <;> rfl
  | store c => cases c <;> rfl
  | _ => rfl

theorem foldl_countStep (tr : List (Step (sysSig S))) (m : Counters) :
    tr.foldl countStep m = (runEvents tr).foldl RunEvent.count m := by
  induction tr generalizing m with
  | nil => rfl
  | cons s tr ih =>
    rw [List.foldl_cons, ih]
    unfold runEvents countStep
    cases hs : runEvent s with
    | none => rw [List.filterMap_cons_none hs]; rfl
    | some ev => rw [List.filterMap_cons_some hs]; rfl

/-- The counters after a run are those that its `ObserveRun` calls lead to. -/
theorem World.counters_runs (h : World.Runs srv p w l a w') :
    w'.counters = (runEvents (l.map Entry.step)).foldl RunEvent.count w.counters := by
  rw [← foldl_countStep]
  refine Machine.Runs.folds (fun {e w w'} he => ?_) (fun {c o w r w'} ha => ?_) h
  · unfold World.counters
    rw [World.env_metrics he]
  · obtain ⟨-, hans⟩ := World.machine_answer ha
    obtain rfl : (World.answer srv side o c w).2 = w' := congrArg Prod.snd hans
    exact World.counters_answer o c r w

/-- Runs keep the keys of the rows distinct. -/
theorem World.keyed_runs (h : World.Runs srv p w l a w') (hkeyed : w.store.Keyed) :
    w'.store.Keyed := by
  refine h.always (I := fun w => w.store.Keyed) (fun {e w w'} hw he => ?_)
    (fun {c o w r w'} hw ha => ?_) hkeyed
  · rw [(World.env_db he).2.1]
    exact hw
  · obtain ⟨-, hans⟩ := World.machine_answer ha
    obtain rfl : (World.answer srv side o c w).2 = w' := congrArg Prod.snd hans
    cases c with
    | store c => exact hw.answer w.clock o c
    | _ => exact hw

end

/-- The number of rows of a load that ended with `status`. -/
def Store.endedRuns (s : Store) (loadID : Int) (status : RunStatus) : ℕ :=
  s.runs.countP fun row => row.loadID = loadID ∧ row.status = status

/-- The sum of `rows_written` over the rows of a load that ended in success or failure. -/
def Store.writtenRows (s : Store) (loadID : Int) : Int :=
  ((s.runs.filter fun row => row.loadID = loadID ∧
    (row.status = .success ∨ row.status = .failed)).map (·.rowsWritten)).sum

section

variable {s s' : Store} {row : LoadRun}

theorem Store.endedRuns_append (h : s'.runs = s.runs ++ [row]) (loadID : Int)
    (status : RunStatus) : s'.endedRuns loadID status = s.endedRuns loadID status +
      if row.loadID = loadID ∧ row.status = status then 1 else 0 := by
  simp [Store.endedRuns, h, List.countP_singleton]

theorem Store.writtenRows_append (h : s'.runs = s.runs ++ [row]) (loadID : Int) :
    s'.writtenRows loadID = s.writtenRows loadID +
      if row.loadID = loadID ∧ (row.status = .success ∨ row.status = .failed) then row.rowsWritten
      else 0 := by
  unfold Store.writtenRows
  rw [h, List.filter_append, List.map_append, List.sum_append, List.filter_singleton]
  split_ifs with hrow <;> simp [hrow]

end

section

variable {r : Runner S} {load : Load} {run : LoadRun} {w w₁ w' : World side} {l : SysLog S}
  {err : Option Err}

theorem Made.startRun_runs {id : Int} {v : String} {o : Outcome} {res : Except Err LoadRun}
    (h : Made srv (.store (.startRun id v)) o res w w') : w'.store.runs = w.store.runs ∨
      ∃ t, w'.store.runs = w.store.runs ++ [w.store.newRun id v t] := by
  obtain ⟨-, t, hans⟩ := h.store
  obtain ⟨-, hs⟩ := Prod.mk.inj hans
  rw [← hs]
  split_ifs
  · exact .inr ⟨t, rfl⟩
  · exact .inl rfl

/-- An execution without `FinishRun` adds no row, or one that has not ended. -/
theorem Executes.runs_of_unfinished (hk : r.sink.OnDb) {read : Option (ReadRun S)}
    (h : Executes srv r load w l read err w') (hno : ∀ b ∈ books l, b.finishes = false) :
    w'.store.runs = w.store.runs ∨
      ∃ row, w'.store.runs = w.store.runs ++ [row] ∧ row.status = .running := by
  cases h with
  | unresolved => exact .inl rfl
  | unobtained hobtain => exact .inl (by rw [hobtain.obtain.1])
  | leased hobtain hlease hrelease =>
    rw [hrelease.release.1, ← hobtain.obtain.1]
    cases hlease with
    | noWatermark hget => exact .inl (by rw [hget.getWatermark.1])
    | noRun hget hstart =>
      rw [← hget.getWatermark.1]
      rcases hstart.startRun_runs with hsame | ⟨t, hadded⟩
      · exact .inl hsame
      · exact .inr ⟨_, hadded, rfl⟩
    | @started w₃ w₄ w₅ _ o o' o'' wm run l read _ hget hstart hmark hstarted =>
      obtain ⟨w₆, l₁, l₂, verdict, rr, rw', wmEnd, rfl, -, -, hclose⟩ := hstarted.closes hk
      obtain ⟨fe, t, hacc⟩ := hclose.account
      have hclosed := hno (.finishRun run (runStatus verdict) rr rw' wmEnd (verdict.getD "") fe)
        (by simp [hacc.books])
      cases hclosed

/-- An execution whose `FinishRun` succeeded adds the row of the run, with the status and
    the numbers of the call. -/
theorem Executes.runs_of_finished (hk : r.sink.OnDb) {read : Option (ReadRun S)}
    (h : Executes srv r load w l read err w') (hkeyed : w.store.Keyed) {status : RunStatus}
    {rr rw : Int} {wm msg : String}
    (hfinish : .finishRun run status rr rw wm msg none ∈ books l) :
    ∃ row, w'.store.runs = w.store.runs ++ [row] ∧ row.loadID = load.id ∧ row.status = status ∧
      row.rowsWritten = rw := by
  obtain ⟨w₁, w₂, l₀, l', l₃, src, run', t, rfl, -, hothers, hrow, hstored, hstarted, hsame⟩ :=
    h.of_finish hfinish rfl
  obtain ⟨w₃, l₁, l₂, verdict, rr', rw', wmEnd, rfl, hopens, -, hclose⟩ := hstarted.closes hk
  obtain ⟨fe, t', hacc⟩ := hclose.account
  have hin := mem_books_closing hfinish rfl hothers hopens.books
  obtain ⟨rfl, rfl, rfl, rfl, -, -, hfe⟩ := hacc.of_finish hin
  obtain ⟨t'', hsaved⟩ := hacc.row hfe.symm
  have hadded : w₃.store.runs = w.store.runs ++ [run] := by rw [hopens.runs, hstored, hrow]; rfl
  have hfinal : w'.store.runs = w.store.runs ++
      [Store.finished run (runStatus verdict) rr rw wmEnd (verdict.getD "") t''] := by
    rw [hsame.1, hsaved]
    exact hkeyed.runs_saveRun_added hadded (by rw [hrow]; rfl) rfl
  exact ⟨_, hfinal, by rw [hrow]; rfl, rfl, rfl⟩

/-! ## Agreement over sequences of executions -/

/-- From `w` to `w'` the rows of a load get ahead of its counters by `n` failed runs, and
    by nothing else. -/
structure Lags (load : Load) (w w' : World side) (n : ℕ) : Prop where
  success : (w'.store.endedRuns load.id .success : Int) - w'.counters.runsTotal load.name .success =
    w.store.endedRuns load.id .success - w.counters.runsTotal load.name .success
  failed : (w'.store.endedRuns load.id .failed : Int) - w'.counters.runsTotal load.name .failed =
    w.store.endedRuns load.id .failed - w.counters.runsTotal load.name .failed + n
  written : w'.store.writtenRows load.id - w'.counters.rowsWrittenTotal load.name =
    w.store.writtenRows load.id - w.counters.rowsWrittenTotal load.name

theorem Lags.trans {n m : ℕ} (h : Lags load w w₁ n) (h' : Lags load w₁ w' m) :
    Lags load w w' (n + m) := by
  refine ⟨h'.success.trans h.success, ?_, h'.written.trans h.written⟩
  rw [h'.failed, h.failed]
  push_cast
  ring

theorem Lags.of_same (hruns : w'.store.runs = w.store.runs) (hcounters : w'.counters = w.counters) :
    Lags load w w' 0 := by
  have hended : ∀ status, w'.store.endedRuns load.id status = w.store.endedRuns load.id status :=
    fun status => by rw [Store.endedRuns, hruns, Store.endedRuns]
  have hwritten : w'.store.writtenRows load.id = w.store.writtenRows load.id := by
    rw [Store.writtenRows, hruns, Store.writtenRows]
  refine ⟨?_, ?_, ?_⟩ <;> simp [hcounters, hended, hwritten]

/-- A row that has not ended is not counted. -/
theorem Lags.of_running {row : LoadRun} (hruns : w'.store.runs = w.store.runs ++ [row])
    (hstatus : row.status = .running) (hcounters : w'.counters = w.counters) :
    Lags load w w' 0 := by
  have hended := Store.endedRuns_append hruns load.id
  have hwritten := Store.writtenRows_append hruns load.id
  simp only [hstatus, reduceCtorEq, and_false, or_false, if_false, Int.add_zero]
    at hended hwritten
  refine ⟨?_, ?_, ?_⟩ <;> simp [hcounters, hended, hwritten]

/-- A failed row without rows written that is not observed. -/
theorem Lags.of_unobserved {row : LoadRun} (hruns : w'.store.runs = w.store.runs ++ [row])
    (hstatus : row.status = .failed) (hrows : row.rowsWritten = 0)
    (hcounters : w'.counters = w.counters) :
    Lags load w w' (if row.loadID = load.id then 1 else 0) := by
  have hended := Store.endedRuns_append hruns load.id
  have hwritten := Store.writtenRows_append hruns load.id
  rw [hrows, ite_self, Int.add_zero] at hwritten
  refine ⟨?_, ?_, ?_⟩
  · simp [hcounters, hended, hstatus]
  · rw [hcounters, hended, hstatus]
    push_cast
    simp only [and_true]
    ring
  · rw [hcounters, hwritten]

/-- A row that is observed with its status and its numbers. -/
theorem Lags.of_observed {row : LoadRun} {name target : String} {rr : Int}
    (hruns : w'.store.runs = w.store.runs ++ [row])
    (hstatus : row.status = .success ∨ row.status = .failed) (hrows : 0 ≤ row.rowsWritten)
    (hlabel : loadLabel name = loadLabel load.name ↔ row.loadID = load.id)
    (hcounters : w'.counters = w.counters.observeRun name row.status target rr row.rowsWritten) :
    Lags load w w' 0 := by
  have hended := Store.endedRuns_append hruns load.id
  have hwritten := Store.writtenRows_append hruns load.id
  have hcounted := fun status => Counters.runsTotal_observeRun w.counters name load.name target
    status row.status rr row.rowsWritten
  have hsum := Counters.rowsWrittenTotal_observeRun w.counters name load.name target row.status rr
    hrows
  rw [← hcounters] at hsum
  simp only [← hcounters, hlabel] at hcounted hsum
  simp only [hstatus, and_true] at hwritten
  refine ⟨?_, ?_, ?_⟩
  · rw [hended, hcounted]
    push_cast
    ring
  · rw [hended, hcounted]
    push_cast
    ring
  · rw [hwritten, hsum]
    ring

/-- Whether a bookkeeping call is not a `FinishRun` that failed. -/
def Booked.saves : Booked → Bool
  | .finishRun _ _ _ _ _ _ e => e.isNone
  | _ => true

/-- Whether every `FinishRun` of the log succeeded. -/
def savesRows (l : SysLog S) : Bool := (books l).all Booked.saves

/-- One execution of the load `ran`. -/
theorem execute_lags (hk : r.sink.OnDb) (hn : r.sink.NonNeg) {ran : Load}
    (h : World.Runs srv (r.execute ran) w l err w') (hkeyed : w.store.Keyed)
    (hsaves : savesRows l = true)
    (hlabel : loadLabel ran.name = loadLabel load.name ↔ ran.id = load.id) :
    ∃ n, Lags load w w' n ∧
      (n = 0 ↔ (ran.id = load.id → ¬Unprepared r (Runner.pointBased ran) l)) := by
  obtain ⟨read, -, hx⟩ := execute_run hk h
  have hcounters := World.counters_runs h
  have hpath : (r.execute ran).Path (l.map Entry.step) err := h.path
  have hends := execute_ends hk hn hpath
  rw [← Runner.name_pointBased, ← Runner.id_pointBased] at hlabel
  rw [← Runner.id_pointBased]
  generalize Runner.pointBased ran = ran at hx hends hlabel ⊢
  -- the row of a run that called `FinishRun`
  have hrow : ∀ {status rr rw fe}, .finish status rr rw fe ∈ runEvents (l.map Entry.step) →
      fe = none ∧ ∃ row, w'.store.runs = w.store.runs ++ [row] ∧ row.loadID = ran.id ∧
        row.status = status ∧ row.rowsWritten = rw := by
    intro status rr rw fe hmem
    obtain ⟨run, wm, msg, hb⟩ := finish_mem_runEvents.1 hmem
    obtain rfl := Option.isNone_iff_eq_none.1 (List.all_eq_true.1 hsaves _ hb)
    exact ⟨rfl, hx.runs_of_finished hk hkeyed hb⟩
  rcases hends with ⟨hevents, hlen⟩ | ⟨hmode, hfailed, hevents⟩ | ⟨hprepared, hrw, hevents⟩
  · have hunfinished : ∀ b ∈ books l, b.finishes = false := by
      intro b hb
      cases b with
      | finishRun run status rr rw wm msg e =>
        have hmem := finish_mem_runEvents.2 ⟨run, wm, msg, hb⟩
        rw [hevents] at hmem
        cases hmem
      | _ => rfl
    rw [hevents] at hcounters
    have hshort : ¬Unprepared r ran l := by
      rintro ⟨-, e, pre, part, rest, heq, hpre, -⟩
      simp only [heq, List.length_append] at hlen
      omega
    refine ⟨0, ?_, iff_of_true rfl fun _ => hshort⟩
    rcases hx.runs_of_unfinished hk hunfinished with hsame | ⟨row, hadded, hrunning⟩
    · exact .of_same hsame hcounters
    · exact .of_running hadded hrunning hcounters
  · obtain ⟨fe, hevents⟩ := hevents
    obtain ⟨rfl, row, hadded, hid, hstatus, hrows⟩ := hrow (hevents ▸ List.mem_cons_self)
    rw [hevents] at hcounters
    refine ⟨_, .of_unobserved hadded hstatus hrows hcounters, ?_⟩
    have hunprepared : Unprepared r ran l := ⟨hmode, _, hfailed⟩
    rw [hid]
    split_ifs with heq <;> simp [heq, hunprepared]
  · obtain ⟨verdict, fe, hevents⟩ := hevents
    obtain ⟨rfl, row, hadded, hid, hstatus, hrows⟩ := hrow (hevents ▸ List.mem_cons_self)
    rw [hevents, Option.or_none, ← hstatus, ← hrows] at hcounters
    have hok : ¬Unprepared r ran l := by
      rintro ⟨hmode, e, hfailed⟩
      obtain ⟨s, hs⟩ := hprepared hmode
      cases hs.unique hfailed
    refine ⟨0, .of_observed hadded ?_ (hrows ▸ hrw) (hid ▸ hlabel) hcounters,
      iff_of_true rfl fun _ => hok⟩
    rw [hstatus]
    cases verdict with
    | none => exact .inl rfl
    | some e => exact .inr rfl

/-- An execution in a sequence: the load, and the log. -/
structure Execution (S : Sig) where
  load : Load
  log : SysLog S

/-- A sequence of executions. In between, others change anything but the rows of runs and
    what was observed. -/
inductive Executions (srv : SqlServer) (r : Runner S) :
    World side → List (Execution S) → World side → Prop
  | nil (w : World side) : Executions srv r w [] w
  | cons {w w₁ w₂ w' : World side} {ran : Load} {l : SysLog S} {err : Option Err}
      {xs : List (Execution S)} (hruns : w₁.store.runs = w.store.runs)
      (hnext : w₁.store.nextRunID = w.store.nextRunID) (hmetrics : w₁.metrics = w.metrics)
      (hrun : World.Runs srv (r.execute ran) w₁ l err w₂) (hrest : Executions srv r w₂ xs w') :
      Executions srv r w (⟨ran, l⟩ :: xs) w'

theorem Executions.lags (hk : r.sink.OnDb) (hn : r.sink.NonNeg) {xs : List (Execution S)}
    (h : Executions srv r w xs w') (hkeyed : w.store.Keyed)
    (hsaves : ∀ x ∈ xs, savesRows x.log = true)
    (hlabel : ∀ x ∈ xs, loadLabel x.load.name = loadLabel load.name ↔ x.load.id = load.id) :
    ∃ n, Lags load w w' n ∧
      (n = 0 ↔ ∀ x ∈ xs, x.load.id = load.id → ¬Unprepared r (Runner.pointBased x.load) x.log) := by
  induction h with
  | nil w => exact ⟨0, .of_same rfl rfl, by simp⟩
  | @cons w w₁ w₂ w' ran l err xs hruns hnext hmetrics hrun hrest ih =>
    rw [List.forall_mem_cons] at hsaves hlabel
    have hkeyed₁ : w₁.store.Keyed := by
      refine ⟨?_, ?_⟩
      · rw [hruns]
        exact hkeyed.nodup
      · rw [hruns, hnext]
        exact hkeyed.lt_next
    have hgap : Lags load w w₁ 0 :=
      .of_same hruns (by rw [World.counters, hmetrics, World.counters])
    obtain ⟨n, hstep, hn⟩ := execute_lags hk hn hrun hkeyed₁ hsaves.1 hlabel.1
    obtain ⟨m, htail, hm⟩ := ih (World.keyed_runs hrun hkeyed₁) hsaves.2 hlabel.2
    refine ⟨_, (hgap.trans hstep).trans htail, ?_⟩
    rw [List.forall_mem_cons, ← hn, ← hm]
    omega

/-- Over any sequence of executions in which `FinishRun` succeeds, the counters of a load
    grow with its rows in success and in rows written. They do in failure if and only if no
    execution of the load failed in `prepareExisting`. The labels must tell the load from
    the others. -/
theorem run_metrics_agree_iff (load : Load) (hk : r.sink.OnDb) (hn : r.sink.NonNeg)
    {xs : List (Execution S)} (h : Executions srv r w xs w') (hkeyed : w.store.Keyed)
    (hsaves : ∀ x ∈ xs, savesRows x.log = true)
    (hlabel : ∀ x ∈ xs, loadLabel x.load.name = loadLabel load.name ↔ x.load.id = load.id) :
    w'.counters.runsTotal load.name .success - w.counters.runsTotal load.name .success =
        (w'.store.endedRuns load.id .success : Int) - w.store.endedRuns load.id .success ∧
      w'.counters.rowsWrittenTotal load.name - w.counters.rowsWrittenTotal load.name =
        w'.store.writtenRows load.id - w.store.writtenRows load.id ∧
      (w'.counters.runsTotal load.name .failed - w.counters.runsTotal load.name .failed =
          (w'.store.endedRuns load.id .failed : Int) - w.store.endedRuns load.id .failed ↔
        ∀ x ∈ xs, x.load.id = load.id → ¬Unprepared r (Runner.pointBased x.load) x.log) := by
  obtain ⟨n, hlags, hiff⟩ := h.lags hk hn hkeyed hsaves hlabel
  have hsuccess := hlags.success
  have hwritten := hlags.written
  have hfailed := hlags.failed
  refine ⟨by omega, by omega, ?_⟩
  rw [← hiff]
  omega

end

section

attribute [local instance] GoLib.ascii

/-- The source connection is lost in `Read`. -/
def lostReadSchedule : List numberMachine.Event :=
  List.replicate 5 (.answer .ok) ++ [.answer (.fail "lost" 0)] ++ List.replicate 5 (.answer .ok)

/-- A run that succeeds, and one whose `Read` fails. -/
theorem two_runs_counted :
    ∃ xs w', Executions ⟨"wh", "dbo"⟩ numberLoad.runner registeredWorld xs w' ∧ xs.length = 2 ∧
      w'.counters.runsTotal "load" .success = 1 ∧ w'.counters.rowsWrittenTotal "load" = 1 ∧
      w'.counters.runsTotal "load" .failed = 1 := by
  have heval : ((numberMachine.exec calmSchedule numberLoad.execute registeredWorld).bind fun x =>
      (numberMachine.exec lostReadSchedule numberLoad.execute x.2).map fun y =>
        (savesRows (numberMachine.log lostReadSchedule numberLoad.execute x.2),
          y.2.store.endedRuns 1 .success, y.2.store.writtenRows 1, y.2.store.endedRuns 1 .failed)) =
      some (true, 1, 1, 1) := by decide +kernel
  obtain ⟨⟨_, w₁⟩, hx₁, hrest⟩ := Option.bind_eq_some_iff.1 heval
  obtain ⟨⟨_, w₂⟩, hx₂, hends⟩ := Option.map_eq_some_iff.1 hrest
  obtain ⟨hsaves₂, hends⟩ := Prod.mk.inj hends
  obtain ⟨hsuccess, hends⟩ := Prod.mk.inj hends
  obtain ⟨hwritten, hfailed⟩ := Prod.mk.inj hends
  have hsaves₁ : savesRows (numberMachine.log calmSchedule numberLoad.execute registeredWorld) =
      true := by decide +kernel
  have hruns : Executions ⟨"wh", "dbo"⟩ numberLoad.runner registeredWorld
      [⟨numberLoad.load, numberMachine.log calmSchedule numberLoad.execute registeredWorld⟩,
        ⟨numberLoad.load, numberMachine.log lostReadSchedule numberLoad.execute w₁⟩] w₂ :=
    .cons rfl rfl rfl (Machine.Runs.of_exec hx₁)
      (.cons rfl rfl rfl (Machine.Runs.of_exec hx₂) (.nil w₂))
  have hmode : ∀ l, ¬Unprepared numberLoad.runner (Runner.pointBased numberLoad.load) l :=
    fun l h => absurd h.1 (by decide)
  obtain ⟨hs, hw, hf⟩ := run_metrics_agree_iff numberLoad.load Mssql.sink_onDb
    Mssql.sink_counts.nonNeg hruns ⟨by decide, by decide⟩
    (by simpa using ⟨hsaves₁, hsaves₂⟩) (by simp)
  have hf := hf.2 (List.forall_mem_cons.2 ⟨fun _ => hmode _,
    List.forall_mem_cons.2 ⟨fun _ => hmode _, by simp⟩⟩)
  have hs : w₂.counters.runsTotal "load" .success - 0 = (w₂.store.endedRuns 1 .success : Int) - 0 :=
    hs
  have hw : w₂.counters.rowsWrittenTotal "load" - 0 = w₂.store.writtenRows 1 - 0 := hw
  have hf : w₂.counters.runsTotal "load" .failed - 0 = (w₂.store.endedRuns 1 .failed : Int) - 0 :=
    hf
  rw [hsuccess] at hs
  rw [hwritten] at hw
  rw [hfailed] at hf
  exact ⟨_, w₂, hruns, rfl, by omega, by omega, by omega⟩

/-- The number load in replace mode. -/
def replacedLoad : Load := { numberLoad.load with mode := loadModeReplace }

/-- The sink cannot tell whether the target exists. -/
def unpreparedSchedule : List numberMachine.Event :=
  List.replicate 5 (.answer .ok) ++ [.answer (.fail "deadlock" 0)] ++ List.replicate 4 (.answer .ok)

/-- The run fails in `prepareExisting`: its row is failed, and no failed run is counted. -/
theorem unprepared_run_not_counted :
    ∃ l w', Executions ⟨"wh", "dbo"⟩ numberLoad.runner registeredWorld [⟨replacedLoad, l⟩] w' ∧
      savesRows l = true ∧ registeredWorld.store.endedRuns 1 .failed = 0 ∧
      w'.store.endedRuns 1 .failed = 1 ∧ registeredWorld.counters.runsTotal "load" .failed = 0 ∧
      w'.counters.runsTotal "load" .failed = 0 := by
  have heval : (numberMachine.exec unpreparedSchedule (numberLoad.runner.execute replacedLoad)
      registeredWorld).map (fun p => (p.2.store.endedRuns 1 .failed,
        p.2.counters.runsTotal "load" .failed)) = some (1, 0) := by decide +kernel
  obtain ⟨⟨_, w'⟩, hx, hends⟩ := Option.map_eq_some_iff.1 heval
  obtain ⟨hrows, hcounter⟩ := Prod.mk.inj hends
  refine ⟨_, w', .cons rfl rfl rfl (Machine.Runs.of_exec hx) (.nil w'), ?_, rfl, hrows, rfl,
    hcounter⟩
  decide +kernel

end

end DataLoader
