import DataLoader.Pipeline.RunOutcome

/-!
# The audited watermark range

The row of a run records a watermark at its start and one at its end. The first is
always the stored one. The second is handed to `FinishRun` on each exit, while the
decision to store it is made before.

* `Settles`: what a run has done to the watermark when it is closed, and the value that
  it then records.
* `audited_range_iff`: when the recorded end is the stored watermark. A run that stores
  nothing records what `Read` reported, which is empty in the modes without a watermark.
-/

namespace DataLoader

open Effects SinkProtocol

variable {S : Sig} {side : SourceSide S} {srv : SqlServer}

/-- The row that `StartRun` returns. -/
theorem Made.startRun_ok {w w' : World side} {o : Outcome} {id : Int} {v : String} {run : LoadRun}
    (h : Made srv (.store (.startRun id v)) o (.ok run) w w') :
    ∃ t, run = w.store.newRun id v t ∧ w'.store = w.store.startRun id v t := by
  obtain ⟨-, t, hans⟩ := h.store
  obtain ⟨hr, hs⟩ := Prod.mk.inj hans
  cases o with
  | ok => exact ⟨t, (Except.ok.inj hr).symm, hs.symm⟩
  | fail msg n => cases hr

section

variable {r : Runner S} {load : Load} {run : LoadRun} {w w' : World side} {l : SysLog S}
  {err : Option Err}

/-- What a run, whose `Read` returned `read`, has done to the watermark `before` when it
    is closed with `verdict`: its calls of `UpsertWatermark`, the value that it records and
    the one that is then stored. -/
inductive Settles (load : Load) (before : String) (read : Option (ReadRun S)) :
    List Booked → Option Err → String → String → Prop
  | failed {e : Err} : Settles load before read [] (some e) before before
  | upsertFailed {v : String} {msg : Err} {n : ℕ} {e : Err} :
      Settles load before read [.upsertWatermark load.id v (.fail msg n)] (some e) before
        (if 0 < n then v else before)
  | advanced {x : ReadRun S} (hread : read = some x) (hok : x.err = none)
      (hadvances : Runner.advances load x.result before = true) :
      Settles load before read [.upsertWatermark load.id x.result.newWatermark.value .ok] none
        x.result.newWatermark.value x.result.newWatermark.value
  | kept {x : ReadRun S} (hread : read = some x) (hok : x.err = none)
      (hadvances : Runner.advances load x.result before = false) :
      Settles load before read [] none x.result.newWatermark.value before

theorem Finishes.settles {result : ReadResult} {rw : Int} {rerr : Option Err} {committed : Bool}
    (trace : List (Step (readSig S)))
    (h : Finishes srv load run (w.store.watermark load.id) result rw rerr committed w l err w') :
    ∃ w₁, ∃ l₁ l₂ : SysLog S, ∃ verdict wmEnd, l = l₁ ++ l₂ ∧ w₁.store.runs = w.store.runs ∧
      Settles load (w.store.watermark load.id) (some ⟨trace, result, rerr, committed⟩) (books l₁)
        verdict wmEnd (w₁.store.watermark load.id) ∧
      Closes srv load run verdict result.rowsRead rw wmEnd w₁ l₂ err w' := by
  cases h with
  | readFailed hclose => exact ⟨w, [], l, _, _, rfl, rfl, .failed, hclose⟩
  | @commitFailed _ w₁ _ l₁ l₂ e _ _ hquiet hclose =>
    refine ⟨w₁, l₁, l₂, _, _, rfl, by rw [hquiet.store], ?_, hclose⟩
    rw [hquiet.books, hquiet.store]
    exact .failed
  | @upsertFailed _ w₁ w₂ _ l₁ l₂ o e _ hquiet _ hupsert hclose =>
    obtain ⟨he, hruns, hwm⟩ := hupsert.upsertWatermark
    refine ⟨w₂, l₁ ++ [_], l₂, _, _, List.append_cons .., by rw [hruns, hquiet.store], ?_, hclose⟩
    cases o with
    | ok => cases he
    | fail msg n =>
      have hafter : w₂.store.watermark load.id =
          if 0 < n then result.newWatermark.value else w.store.watermark load.id := by
        simpa [Outcome.effective, hquiet.store] using hwm
      simp only [books_append, hquiet.books, books_cons, books_nil, booked, hafter]
      exact .upsertFailed
  | @advanced _ w₁ w₂ _ l₁ l₂ o _ hquiet hadvances hupsert hclose =>
    obtain ⟨he, hruns, hwm⟩ := hupsert.upsertWatermark
    obtain rfl := Outcome.err_eq_none.1 he.symm
    refine ⟨w₂, l₁ ++ [_], l₂, _, _, List.append_cons .., by rw [hruns, hquiet.store], ?_, hclose⟩
    have hafter : w₂.store.watermark load.id = result.newWatermark.value := by simpa using hwm
    simp only [books_append, hquiet.books, books_cons, books_nil, booked, hafter]
    exact .advanced rfl rfl hadvances
  | @kept _ w₁ _ l₁ l₂ _ hquiet hadvances hclose =>
    refine ⟨w₁, l₁, l₂, _, _, rfl, by rw [hquiet.store], ?_, hclose⟩
    rw [hquiet.books, hquiet.store]
    exact .kept rfl rfl hadvances

theorem Started.settles (hk : r.sink.OnDb) {src : ℕ} {type : String}
    {read : Option (ReadRun S)}
    (h : Started srv r load src run ⟨type, w.store.watermark load.id⟩ w l read err w') :
    ∃ w₁, ∃ l₁ l₂ : SysLog S, ∃ verdict rr rw wmEnd, l = l₁ ++ l₂ ∧ w₁.store.runs = w.store.runs ∧
      Settles load (w.store.watermark load.id) read (books l₁) verdict wmEnd
        (w₁.store.watermark load.id) ∧
      Closes srv load run verdict rr rw wmEnd w₁ l₂ err w' := by
  cases h with
  | @unprepared w₁ _ l₁ l₂ e _ _ hquiet hclose =>
    refine ⟨w₁, l₁, l₂, _, _, _, _, rfl, by rw [hquiet.store], ?_, hclose⟩
    rw [hquiet.books, hquiet.store]
    exact .failed
  | @read w₁ w₂ _ l₁ l₂ l₃ _ _ _ _ _ _ _ trace _ hquiet hrepl hread hfinish =>
    obtain ⟨hsame, hbooks⟩ := read_unrecorded hk hrepl hread
    have hstore : w₂.store = w.store := hsame.1.trans hquiet.store
    rw [← hstore] at hfinish
    obtain ⟨w₃, l₄, l₅, verdict, wmEnd, rfl, hruns, hsettles, hclose⟩ :=
      hfinish.settles trace
    refine ⟨w₃, l₁ ++ l₂ ++ l₄, l₅, verdict, _, _, wmEnd, by simp, by rw [hruns, hstore], ?_, hclose⟩
    rw [books_append, books_append, hquiet.books, hbooks, ← hstore]
    exact hsettles

theorem Settles.upserts {before wmEnd after : String} {verdict : Option Err}
    {read : Option (ReadRun S)} {bs : List Booked}
    (h : Settles load before read bs verdict wmEnd after) : ∀ b ∈ bs, b.upserts = true := by
  cases h <;> simp [Booked.upserts]

/-- The condition on a run with the result `err`: if it succeeds without storing a
    watermark, `Read` has reported the stored one, and an `UpsertWatermark` that fails has
    not stored another. -/
structure RangeKept (load : Load) (before : String) (read : Option (ReadRun S))
    (err : Option Err) (bs : List Booked) : Prop where
  kept : err = none → ∀ x, read = some x → x.err = none →
    Runner.advances load x.result before = false → x.result.newWatermark.value = before
  failed : ∀ v msg n, .upsertWatermark load.id v (.fail msg n) ∈ bs → n = 0 ∨ v = before

theorem Settles.end_eq_iff {before wmEnd after : String} {verdict : Option Err}
    {read : Option (ReadRun S)} {bs bs' : List Booked}
    (h : Settles load before read bs verdict wmEnd after)
    (hbs : ∀ b, b.upserts = true → (b ∈ bs' ↔ b ∈ bs)) :
    wmEnd = after ↔ RangeKept load before read verdict bs' := by
  have hmem : ∀ v o, .upsertWatermark load.id v o ∈ bs' ↔ .upsertWatermark load.id v o ∈ bs :=
    fun v o => hbs _ rfl
  cases h with
  | failed => exact ⟨fun _ => ⟨by simp, by simp [hmem]⟩, fun _ => rfl⟩
  | @upsertFailed v msg n e =>
    constructor
    · intro heq
      refine ⟨by simp, fun v' msg' n' hb => ?_⟩
      obtain ⟨rfl, rfl, rfl⟩ : v' = v ∧ msg' = msg ∧ n' = n := by simpa [hmem] using hb
      by_cases hn : 0 < n'
      · rw [if_pos hn] at heq
        exact .inr heq.symm
      · exact .inl (by omega)
    · intro hkept
      rcases hkept.failed v msg n (by simp [hmem]) with rfl | rfl
      · rfl
      · rw [ite_self]
  | @advanced x hread hok hadvances =>
    refine ⟨fun _ => ⟨fun _ x' hread' _ hkeeps => ?_, by simp [hmem]⟩, fun _ => rfl⟩
    obtain rfl := Option.some.inj (hread.symm.trans hread')
    simp [hadvances] at hkeeps
  | @kept x hread hok hadvances =>
    constructor
    · intro heq
      refine ⟨fun _ x' hread' _ _ => ?_, by simp [hmem]⟩
      obtain rfl := Option.some.inj (hread.symm.trans hread')
      exact heq
    · exact fun hkept => hkept.kept rfl x hread hok hadvances

/-- A run that calls `FinishRun` has got past `StartRun`: the calls before and after the
    rest of it neither read from the source, nor close a run, nor store a watermark. -/
theorem Executes.of_finish {read : Option (ReadRun S)}
    (h : Executes srv r load w l read err w') {b : Booked} (hb : b ∈ books l)
    (hfinishes : b.finishes = true) :
    ∃ w₁ w₂ : World side, ∃ l₀ l' l₁ : SysLog S, ∃ src run t, l = l₀ ++ l' ++ l₁ ∧
      (∀ x ∈ l₀ ++ l₁, SysCall.reads x.call = false) ∧
      (∀ b ∈ books (l₀ ++ l₁), b.finishes = false ∧ b.upserts = false) ∧
      run = w.store.newRun load.id (w.store.watermark load.id) t ∧
      w₁.store = w.store.startRun load.id (w.store.watermark load.id) t ∧
      Started srv r load src run ⟨load.watermarkType, w.store.watermark load.id⟩ w₁ l' read err w₂ ∧
      Unrecorded w₂ w' := by
  cases h with
  | unresolved => simp at hb
  | unobtained =>
    obtain rfl := by simpa [booked] using hb
    cases hfinishes
  | @leased w₁ w₂ _ cfg o o' src l read _ hobtain hlease hrelease =>
    cases hlease with
    | noWatermark =>
      rcases (by simpa [booked] using hb) with rfl | rfl | rfl <;> cases hfinishes
    | noRun =>
      rcases (by simpa [booked] using hb) with rfl | rfl | rfl | rfl <;> cases hfinishes
    | @started w₃ w₄ w₅ _ p p' p'' wm run l read _ hget hstart hmark hstarted =>
      obtain ⟨hsame, hwm⟩ := hget.getWatermark
      have hcurrent : (wm.map (·.value)).getD "" = w.store.watermark load.id := by
        rw [hwm wm rfl, hobtain.obtain.1, Store.watermark]
      rw [hcurrent] at hstart hstarted
      obtain ⟨t, hrow, hstored⟩ := hstart.startRun_ok
      rw [hsame, hobtain.obtain.1] at hrow hstored
      refine ⟨w₅, w₂, [_, _, _, _], l, [_], src, run, t, rfl, ?_, ?_, hrow, ?_, hstarted,
        hrelease.release⟩
      · simp [SysCall.reads]
      · simp [booked, Booked.finishes, Booked.upserts]
      · rw [hmark.markRunning.1, hstored]

/-- The call that closes a run comes after the watermark is stored. -/
theorem mem_books_closing {l₀ l₁ l₂ l₃ : SysLog S} {b : Booked}
    (hb : b ∈ books (l₀ ++ (l₁ ++ l₂) ++ l₃)) (hfinishes : b.finishes = true)
    (hothers : ∀ b ∈ books (l₀ ++ l₃), b.finishes = false ∧ b.upserts = false)
    (hupserts : ∀ b ∈ books l₁, b.upserts = true) : b ∈ books l₂ := by
  rw [books_append] at hothers
  simp only [books_append, List.mem_append] at hb
  rcases hb with (hb | hb | hb) | hb
  · simp [(hothers b (List.mem_append_left _ hb)).1] at hfinishes
  · have hups := hupserts b hb
    cases b <;> first | (cases hfinishes; done) | cases hups
  · exact hb
  · simp [(hothers b (List.mem_append_right _ hb)).1] at hfinishes

/-- The row of a run whose `FinishRun` succeeded starts at the stored watermark. It ends
    at the one that is stored after the run if and only if the range was kept. -/
theorem audited_range_iff (hk : r.sink.OnDb) (h : World.Runs srv (r.execute load) w l err w')
    {status : RunStatus} {rowsRead rowsWritten : Int} {watermarkEnd msg : String}
    (hfinish : .finishRun run status rowsRead rowsWritten watermarkEnd msg none ∈ books l) :
    ∃ read, ReadOf r load l read ∧
      (∃ row ∈ w'.store.runs, row.id = run.id) ∧
      ∀ row ∈ w'.store.runs, row.id = run.id →
        row.watermarkStart = w.store.watermark load.id ∧
        (row.watermarkEnd = w'.store.watermark load.id ↔
          RangeKept (Runner.pointBased load) (w.store.watermark load.id) read err (books l)) := by
  obtain ⟨read, hread, hx⟩ := execute_run hk h
  refine ⟨read, hread, ?_⟩
  rw [← Runner.id_pointBased load]
  generalize Runner.pointBased load = load at hx ⊢
  obtain ⟨w₁, w₂, l₀, l', l₃, src, run', t, rfl, -, hothers, hrow, hstored, hstarted, hsame⟩ :=
    hx.of_finish hfinish rfl
  have hbefore : w₁.store.watermark load.id = w.store.watermark load.id := by
    rw [hstored, Store.watermark_startRun]
  rw [← hbefore] at hstarted ⊢
  obtain ⟨w₃, l₁, l₂, verdict, rr, rw', wmEnd, rfl, hruns, hsettles, hclose⟩ := hstarted.settles hk
  obtain ⟨fe, t', hacc⟩ := hclose.account
  have hin := mem_books_closing hfinish rfl hothers hsettles.upserts
  obtain ⟨rfl, -, -, -, -, -, rfl⟩ := hacc.of_finish hin
  -- the upserts of the run are those before it is closed
  have hupserts : ∀ b, b.upserts = true → (b ∈ books (l₀ ++ (l₁ ++ l₂) ++ l₃) ↔ b ∈ books l₁) := by
    intro b hb
    rw [books_append] at hothers
    simp only [books_append, hacc.books, List.mem_append]
    refine ⟨?_, fun hb' => .inl (.inr (.inl hb'))⟩
    rintro ((hb' | hb' | hb') | hb')
    · simp [(hothers b (List.mem_append_left _ hb')).2] at hb
    · exact hb'
    · rcases (by simpa using hb') with rfl | rfl <;> cases hb
    · simp [(hothers b (List.mem_append_right _ hb')).2] at hb
  obtain ⟨t'', hsaved⟩ := hacc.row rfl
  have hafter : w'.store.watermark load.id = w₃.store.watermark load.id := by
    rw [hsame.1, hsaved, Store.watermark_saveRun]
  have hmem : run ∈ w₃.store.runs := by
    rw [hruns, hstored, hrow]
    exact List.mem_append_right _ (List.mem_singleton_self _)
  rw [hafter, hsame.1, hsaved, show err = verdict by rw [hacc.ends, Option.or_none]]
  refine ⟨Store.exists_saveRun hmem rfl, fun row hrow' hid => ?_⟩
  obtain rfl := Store.eq_of_mem_saveRun hrow' hid
  refine ⟨?_, hsettles.end_eq_iff hupserts⟩
  rw [hbefore, hrow]
  rfl

end

section

attribute [local instance] GoLib.ascii

/-- A run whose `UpsertWatermark` fails without effect ends where it started. -/
theorem unmoved_run_audited :
    ∃ l w', World.Runs ⟨"wh", "dbo"⟩ numberLoad.execute registeredWorld l
        (some "update watermark: lost") w' ∧
      ∃ row ∈ w'.store.runs, row.watermarkStart = "1" ∧ row.watermarkEnd = w'.store.watermark 1 := by
  have heval : (numberMachine.exec unmovedSchedule numberLoad.execute registeredWorld).map (·.1) =
      some (some "update watermark: lost") := by decide +kernel
  obtain ⟨⟨_, w'⟩, hx, rfl⟩ := Option.map_eq_some_iff.1 heval
  have hrun := Machine.Runs.of_exec hx
  have hfinish : .finishRun (registeredWorld.store.newRun 1 "1" 0) .failed 1 1 "1"
      "update watermark: lost" none ∈
      books (numberMachine.log unmovedSchedule numberLoad.execute registeredWorld) := by
    decide +kernel
  obtain ⟨read, -, ⟨row, hrow, hid⟩, hrange⟩ := audited_range_iff Mssql.sink_onDb hrun hfinish
  obtain ⟨hstart, hend⟩ := hrange row hrow hid
  refine ⟨_, w', hrun, row, hrow, hstart, hend.2 ⟨by simp, fun v msg n hb => ?_⟩⟩
  exact .inl (Outcome.fail.inj (unmoved_upserts hb)).2

/-- The number load after it has been switched to append mode. -/
def switchedLoad : Load := { numberLoad.load with mode := loadModeAppend }

/-- Its run records an empty end of the range while the watermark of the last delta run
    is still stored. -/
theorem switched_run_misstates_end :
    ∃ l w', World.Runs ⟨"wh", "dbo"⟩ (numberLoad.runner.execute switchedLoad) registeredWorld l
        none w' ∧
      w'.store.runs.map (fun row => (row.status, row.watermarkStart, row.watermarkEnd)) =
        [(.success, "1", "")] ∧
      w'.store.watermark 1 = "1" := by
  have heval : (numberMachine.exec (List.replicate 14 (.answer .ok))
      (numberLoad.runner.execute switchedLoad) registeredWorld).map (fun p =>
      (p.1, p.2.store.runs.map (fun row => (row.status, row.watermarkStart, row.watermarkEnd)),
        p.2.store.watermark 1)) = some (none, [(.success, "1", "")], "1") := by decide +kernel
  obtain ⟨⟨_, w'⟩, hx, hends⟩ := Option.map_eq_some_iff.1 heval
  obtain ⟨rfl, hends⟩ := Prod.mk.inj hends
  obtain ⟨hrows, hstored⟩ := Prod.mk.inj hends
  exact ⟨_, w', Machine.Runs.of_exec hx, hrows, hstored⟩

end

end DataLoader
