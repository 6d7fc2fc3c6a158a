import DataLoader.Effects.Moments
import DataLoader.Pipeline.ReplaceSpec
import DataLoader.Pipeline.RowCounts

/-!
# What a run has read and when

* `trace_of_runs`: a run adds the calls of its log to the trace.
* `replace_fails_iff`: a replace run that fails at or before `CommitReplace` is one that is never
  recorded as successful.
* `execute_reads`: the batches that a run hands over are those on a path of `Read`, and a run
  that succeeds has completed its `Read`.
* `Shows.moment`: every driver call of that path was answered by the source in its state at a
  moment of the run.
* `SourceKind.reports`: every source returns an error if its handler did.
-/

namespace DataLoader

open Effects

variable {S : Sig} {side : SourceSide S} {srv : SqlServer} {r : Runner S} {load : Load}
  {w w' : World side} {l : SysLog S} {err : Option Err}

/-! ## Batches -/

/-- The batches on a path of `Read`. -/
def emittedBatches (tr : List (Step (readSig S))) : List Batch :=
  tr.filterMap fun
    | ⟨.emit b, _⟩ => some b
    | ⟨.driver _, _⟩ => none

@[simp] theorem emittedBatches_nil : emittedBatches ([] : List (Step (readSig S))) = [] := rfl

@[simp] theorem emittedBatches_driver (c : S.Call) (a : S.Ans c) (tr : List (Step (readSig S))) :
    emittedBatches (⟨.driver c, a⟩ :: tr) = emittedBatches tr := rfl

@[simp] theorem emittedBatches_emit (b : Batch) (e : Option Err) (tr : List (Step (readSig S))) :
    emittedBatches (⟨.emit b, e⟩ :: tr) = b :: emittedBatches tr := rfl

@[simp] theorem emittedBatches_append (tr tr' : List (Step (readSig S))) :
    emittedBatches (tr ++ tr') = emittedBatches tr ++ emittedBatches tr' := List.filterMap_append

theorem emittedBatches_eq_nil {tr : List (Step (readSig S))}
    (h : ∀ s ∈ tr, ∃ c, s.1 = ReadCall.driver c) : emittedBatches tr = [] := by
  refine List.filterMap_eq_nil_iff.2 fun s hs => ?_
  obtain ⟨c, hc⟩ := h s hs
  obtain ⟨c', a⟩ := s
  obtain rfl : c' = .driver c := hc
  rfl

/-- The batch of an event. -/
def ReadEvent.batch? : ReadEvent S → Option Batch
  | .driver _ _ => none
  | .batch b => some b

theorem filterMap_pathEvents (tr : List (Step (readSig S))) :
    (pathEvents tr).filterMap ReadEvent.batch? = emittedBatches tr := by
  rw [pathEvents, List.filterMap_map, emittedBatches]
  refine List.filterMap_congr fun s _ => ?_
  obtain ⟨c, a⟩ := s
  cases c <;> rfl

/-- The calls of a log. -/
def loggedCalls (l : SysLog S) : List (SysCall S) := l.map Entry.call

/-- A run adds the calls of its log to the trace. -/
theorem trace_of_runs {α : Type} {p : Prog (sysSig S) α} {a : α} (h : World.Runs srv p w l a w') :
    w'.trace = w.trace ++ loggedCalls l := by
  have hfold : ∀ (l : SysLog S) (tr : List (SysCall S)),
      (l.map Entry.step).foldl (fun tr s => tr ++ [s.1]) tr = tr ++ loggedCalls l := by
    intro l
    induction l with
    | nil => exact fun tr => (List.append_nil tr).symm
    | cons x l ih => exact fun tr => (ih _).trans (List.append_assoc ..)
  rw [← hfold]
  refine Machine.Runs.folds (f := fun w : World side => w.trace) ?_ ?_ h
  · intro e w w' he
    obtain ⟨-, -, htrace⟩ := World.env_db he
    exact htrace
  · intro (c : SysCall S) o w res w' ha
    obtain ⟨-, hans⟩ := World.machine_answer ha
    have htrace : (World.answer srv side o c w).2.trace = w.trace ++ [c] := World.trace_answer o c w
    rw [hans] at htrace
    exact htrace

/-- The batches that a run hands over are in its log. -/
theorem delivered_of_runs {α : Type} {p : Prog (sysSig S) α} {a : α}
    (h : World.Runs srv p w l a w') :
    (sinkView w').delivered = (sinkView w).delivered ++
      (readEvents (l.map Entry.step)).filterMap ReadEvent.batch? := by
  have hbatches : (loggedCalls l).filterMap SysCall.batch? =
      (readEvents (l.map Entry.step)).filterMap ReadEvent.batch? := by
    rw [readEvents, List.filterMap_filterMap, List.filterMap_map]
    refine List.filterMap_map.trans (List.filterMap_congr fun x _ => ?_)
    obtain ⟨c, o, res⟩ := x
    cases c <;> rfl
  rw [← hbatches, sinkView, sinkView, trace_of_runs h]
  exact List.filterMap_append

/-! ## The read of a run -/

/-- A run is recorded as successful by the calls in its log. -/
theorem finishes_of_runs {α : Type} {p : Prog (sysSig S) α} {a : α} (h : World.Runs srv p w l a w') :
    (sinkView w').finishes =
      (sinkView w).finishes + l.countP fun x => SysCall.finishesSuccess x.call := by
  rw [sinkView, sinkView, trace_of_runs h]
  exact List.countP_append.trans (congrArg _ List.countP_map)

theorem Closes.noSuccess {run : LoadRun} {verdict : Option Err} {rr rw : Int} {wm : String}
    (h : Closes srv load run verdict rr rw wm w l err w') (hverdict : verdict ≠ none) :
    err ≠ none ∧ ∀ x ∈ l, SysCall.finishesSuccess x.call = false := by
  have haside : ∀ {l : SysLog S} {w w' : World side}, Quiet w l w' →
      ∀ x ∈ l, SysCall.finishesSuccess x.call = false := by
    intro l w w' hquiet x hx
    obtain ⟨hbooks, -⟩ := hquiet.aside x hx
    obtain ⟨c, o, a⟩ := x
    cases c with
    | store s => cases hbooks
    | _ => rfl
  cases h with
  | mk hfinish hquiet hmark hrest =>
    cases verdict with
    | none => exact absurd rfl hverdict
    | some e =>
      refine ⟨nofun, ?_⟩
      simp only [List.cons_append, List.forall_mem_cons, List.forall_mem_append]
      exact ⟨rfl, haside hquiet, rfl, haside hrest⟩

theorem Opens.noSuccess (h : Opens w l w') : ∀ x ∈ l, SysCall.finishesSuccess x.call = false := by
  intro x hx
  obtain ⟨c, o, a⟩ := x
  cases c with
  | store s =>
    cases s with
    | finishRun run status rr rw wm msg =>
      have hmem : Booked.finishRun run status rr rw wm msg a ∈ DataLoader.books l :=
        List.mem_filterMap.2 ⟨_, hx, rfl⟩
      cases h.books _ hmem
    | _ => rfl
  | _ => rfl

/-- A replace run is recorded as successful exactly if its commit was reached and succeeded. -/
theorem Executes.recorded_iff (hk : r.sink.OnDb) (hmode : load.mode = loadModeReplace)
    {read : Option (ReadRun S)} (h : Executes srv r load w l read err w') :
    (∃ x ∈ l, SysCall.finishesSuccess x.call = true) ↔ ∃ y, read = some y ∧ y.committed = true := by
  cases h with
  | unresolved => simp
  | unobtained => simp [SysCall.finishesSuccess]
  | leased hobtain hlease hrelease =>
    cases hlease with
    | noWatermark => simp [SysCall.finishesSuccess]
    | noRun => simp [SysCall.finishesSuccess]
    | started hget hstart hmark hstarted =>
      obtain ⟨w₁, l₁, l₂, verdict, rr, rw, wmEnd, rfl, hopens, hcommitted, hclose⟩ :=
        hstarted.closes hk
      rw [← hcommitted hmode]
      refine ⟨fun hex => ?_, ?_⟩
      · contrapose! hex
        simp only [List.cons_append, List.forall_mem_cons, List.forall_mem_append, Bool.not_eq_true]
        exact ⟨rfl, rfl, rfl, rfl, ⟨hopens.noSuccess, (hclose.noSuccess hex).2⟩, rfl, by simp⟩
      · rintro rfl
        have hentry : ∃ x ∈ l₂, SysCall.finishesSuccess x.call = true := by
          cases hclose with
          | mk => exact ⟨_, List.mem_append_left _ List.mem_cons_self, rfl⟩
        obtain ⟨x, hx, hsuccess⟩ := hentry
        exact ⟨x, by simp [hx], hsuccess⟩

/-- The same for the state: what fails at or before `CommitReplace` is never recorded as
    successful, and nothing else is. -/
theorem replace_fails_iff (hk : r.sink.OnDb)
    (hmode : (Runner.pointBased load).mode = loadModeReplace)
    (h : World.Runs srv (r.execute load) w l err w') :
    ∃ read, ReadOf r load l read ∧
      (successes w'.trace = successes w.trace ↔ ∀ y, read = some y → y.committed = false) := by
  obtain ⟨read, hread, hx⟩ := execute_run hk h
  refine ⟨read, hread, ?_⟩
  have hcount : successes w'.trace = successes w.trace + _ := finishes_of_runs h
  rw [hcount, Nat.add_eq_left, List.countP_eq_zero]
  simpa using not_congr (hx.recorded_iff hk hmode)

/-- The `Read` of a run. A run whose `Read` was not completed fails and is not recorded as
    successful. -/
theorem Executes.reads (hk : r.sink.OnDb) (hc : r.sink.Counts) {read : Option (ReadRun S)}
    (h : Executes srv r load w l read err w') :
    ∃ current, Shows r load current l read ∧ ((∀ y, read = some y → y.err ≠ none) →
      err ≠ none ∧ ∀ x ∈ l, SysCall.finishesSuccess x.call = false) := by
  cases h with
  | unresolved => exact ⟨⟨"", ""⟩, .unread rfl, fun _ => ⟨nofun, by simp⟩⟩
  | unobtained =>
    exact ⟨⟨"", ""⟩, .unread rfl, fun _ => ⟨nofun, by simp [SysCall.finishesSuccess]⟩⟩
  | @leased w₁ w₂ _ cfg o o' src l read _ hobtain hlease hrelease =>
    cases hlease with
    | noWatermark =>
      exact ⟨⟨"", ""⟩, .unread rfl, fun _ => ⟨nofun, by simp [SysCall.finishesSuccess]⟩⟩
    | noRun =>
      exact ⟨⟨"", ""⟩, .unread rfl, fun _ => ⟨nofun, by simp [SysCall.finishesSuccess]⟩⟩
    | @started w₃ w₄ w₅ _ p p' p'' wm run l read _ hget hstart hmark hstarted =>
      obtain ⟨hshows, w₆, l₁, l₂, verdict, rr, rw, wmEnd, rfl, hopens, hclose, hcounted⟩ :=
        hstarted.counted hk hc
      refine ⟨⟨load.watermarkType, (wm.map (·.value)).getD ""⟩, ?_, fun hfailed => ?_⟩
      · have hothers : ∀ x ∈ ([⟨.obtain cfg, o, .ok src⟩,
            ⟨.store (.getWatermark load.id), p, .ok wm⟩,
            ⟨.store (.startRun load.id ((wm.map (·.value)).getD "")), p', .ok run⟩,
            ⟨.markRunning load.id run.runUUID run.startedAt, p'', ()⟩] : SysLog S) ++
            [⟨.release src (read.bind (·.err)).isSome, o', ()⟩], SysCall.reads x.call = false := by
          simp [SysCall.reads]
        exact hshows.extend hothers
      · have hverdict : verdict ≠ none := by
          cases hcounted with
          | unread => exact nofun
          | @read y _ hsome =>
            obtain ⟨e, he⟩ := Option.ne_none_iff_exists'.1 (hfailed y rfl)
            rw [hsome e he]
            exact nofun
        obtain ⟨herr, hnone⟩ := hclose.noSuccess hverdict
        refine ⟨herr, ?_⟩
        simp only [List.cons_append, List.forall_mem_cons, List.forall_mem_append]
        exact ⟨rfl, rfl, rfl, rfl, ⟨hopens.noSuccess, hnone⟩, rfl, by simp⟩

/-- The batches of a `Read`. -/
def ReadRun.batches (y : ReadRun S) : List Batch := emittedBatches y.trace

/-- The `Read` of a run, with the batches that it handed over. -/
theorem execute_reads (hk : r.sink.OnDb) (hc : r.sink.Counts)
    (h : World.Runs srv (r.execute load) w l err w') :
    ∃ current read, ReadOf r load l read ∧ Shows r (Runner.pointBased load) current l read ∧
      (sinkView w').delivered = (sinkView w).delivered ++ read.elim [] ReadRun.batches ∧
      ((∀ y, read = some y → y.err ≠ none) →
        err ≠ none ∧ (sinkView w').finishes = (sinkView w).finishes) := by
  obtain ⟨read, hread, hx⟩ := execute_run hk h
  obtain ⟨current, hshows, hfailed⟩ := hx.reads hk hc
  refine ⟨current, read, hread, hshows, ?_, fun hnone => ?_⟩
  · rw [delivered_of_runs h]
    cases hshows with
    | unread hevents => rw [hevents]; rfl
    | read _ hevents => rw [hevents, filterMap_pathEvents]; rfl
  · obtain ⟨herr, hl⟩ := hfailed hnone
    rw [finishes_of_runs h, List.countP_eq_zero.2 fun x hx => Bool.eq_false_iff.1 (hl x hx)]
    exact ⟨herr, rfl⟩

theorem Shows.moment {p : Prog (sysSig S) (Option Err)}
    {x : (World.machine srv side).TimedRun (Option Err)} (h : Machine.Ran p x)
    {current : Watermark} {y : ReadRun S} (hshows : Shows r load current x.log (some y))
    {c : S.Call} {a : S.Ans c} (hc : ⟨.driver c, a⟩ ∈ y.trace) :
    ∃ v ∈ x.moments, ∃ src o, (side.answer src c o v.clock v.src).1 = a := by
  have hevent : ReadEvent.driver c a ∈ readEvents (x.log.map Entry.step) := by
    cases hshows with
    | read _ hevents =>
      have hmem : ReadEvent.driver c a ∈ pathEvents y.trace := List.mem_map.2 ⟨_, hc, rfl⟩
      exact (congrArg (ReadEvent.driver c a ∈ ·) hevents).mpr hmem
  obtain ⟨s, hs, hsource⟩ := List.mem_filterMap.1 hevent
  obtain ⟨e, he, rfl⟩ := List.mem_map.1 hs
  obtain ⟨v, hv, v', hans⟩ := h.moment he
  obtain ⟨c', o, a'⟩ := e
  cases c' with
  | source src c' =>
    obtain ⟨rfl, ha⟩ := ReadEvent.driver.inj (Option.some.inj hsource)
    obtain rfl := eq_of_heq ha
    obtain ⟨-, hanswer⟩ := World.machine_answer hans
    exact ⟨v, hv, src, o, congrArg Prod.fst hanswer⟩
  | deliver b => cases hsource
  | _ => cases hsource

/-! ## Errors of the handler -/

theorem reports_of_path {p : Prog (readSig S) (ReadResult × Option Err)} {failed : Bool}
    (h : ∀ tr a, p.Path tr a → failed = true ∨ (∃ d ∈ handedRows tr, d.2 ≠ none) → a.2 ≠ none) :
    Reports failed p := by
  induction p generalizing failed with
  | ret a => exact fun hfailed => h [] a (.ret a) (.inl hfailed)
  | call c k ih =>
    cases c with
    | driver c => exact fun a => ih a fun tr res hpath => h (⟨.driver c, a⟩ :: tr) res (.call hpath)
    | emit b =>
      refine fun e => ih e fun tr res hpath hfailed => h (⟨.emit b, e⟩ :: tr) res (.call hpath) ?_
      rcases hfailed with hfailed | ⟨d, hd, hne⟩
      · rcases Bool.or_eq_true_iff.1 hfailed with hfailed | he
        · exact .inl hfailed
        · exact .inr ⟨(b.rows, e), by simp, Option.isSome_iff_ne_none.1 he⟩
      · exact .inr ⟨d, by simp [hd], hne⟩

/-- A `Read` all of whose batches were accepted if it returned no error. -/
theorem reports_of_accepted {read : Reader S} {cfg : LoadConfig}
    (h : ∀ {tr result}, (read cfg).Path tr (result, none) → ∀ d ∈ handedRows tr, d.2 = none) :
    Reports false (read cfg) := by
  refine reports_of_path ?_
  rintro tr ⟨result, err⟩ hpath (hfailed | ⟨d, hd, hne⟩) herr
  · cases hfailed
  · replace herr : err = none := herr
    subst herr
    exact hne (h hpath d hd)

theorem Modbus.read_reports [GoLib] [GoText] [GoFloat] (catalogue : Bool) (cfg : LoadConfig) :
    Reports false (Modbus.read catalogue cfg) := by
  refine reports_of_accepted fun hpath d hd => ?_
  cases Modbus.read_path hpath with
  | empty => cases hd
  | polled _ hparts =>
    replace hd := (congrArg (d ∈ ·) (Modbus.handedRows_parts hparts _)).mp hd
    rw [List.mem_singleton.1 hd]

/-- Every source returns an error if its handler did. -/
theorem SourceKind.reports [GoLib] [GoText] [GoFloat] [GoOpcua] {read : Reader S}
    {Fits : List (Step (readSig S)) → Option Err → Prop} (h : SourceKind S read Fits)
    (cfg : LoadConfig) : Reports false (read cfg) := by
  cases h with
  | sql dialect =>
    refine reports_of_accepted fun hpath d hd => ?_
    cases dialect.read_path hpath with
    | unasked hmax =>
      rw [handedRows_of_asksMax hmax] at hd
      cases hd
    | asked hmax hread =>
      rw [handedRows_append, handedRows_of_asksMax hmax, List.nil_append] at hd
      cases hread with
      | read _ _ hchunked => exact hchunked.all_accepted d hd
  | modbus => exact Modbus.read_reports _ cfg
  | opcua =>
    refine reports_of_accepted fun hpath d hd => ?_
    cases Opcua.read_path hpath with
    | empty => cases hd
    | polled _ hpoll =>
      obtain ⟨-, pollTS, rows, -, hhanded, -⟩ := Opcua.poll_path hpoll
      replace hd := (congrArg (d ∈ ·) hhanded).mp hd
      rw [List.mem_singleton.1 hd]

end DataLoader
