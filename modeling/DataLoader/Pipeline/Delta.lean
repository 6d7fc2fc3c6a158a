import DataLoader.Pipeline.DeltaSpec

/-!
# Delta loads lose nothing

A delta load tails its table with the stored watermark as the cursor
(`Feed.Tailed`). While the table only grows, with increasing watermark values:

* `delta_loses_nothing`: after any history of runs, failed or not, every row
  between the first stored watermark and the current one is in the sink; and in a
  history without failures the sink has received exactly the rows up to the
  current watermark, each once.

The proviso is on the runs that find no MAX. The SQL Server module then sends its
SELECT with an empty upper bound, which the server converts like any other text:
`delta_reads_above_watermark` is a clean run that reads a row in this way without
moving the watermark.
-/

namespace DataLoader

open Effects SourceRow Feed

open scoped List

section

variable [GoLib] {V : Type} [LinearOrder V]

/-- The condition on SELECTs: one with an empty upper bound finds no row. -/
def emptyFindsNothing (col : WatermarkColumn V) : Checks V where
  range lo up f := up ≠ .text "" ||
    match lo.value col, up.value col with
    | some x, some y => (covered x y f.rows).isEmpty
    | _, _ => true

/-- The cells of the rows that the sink has received. -/
def cellsOf (rows : List SinkRow) : List (Option (List (String × Value))) :=
  rows.map fun s => some s.cells

/-- The state of the feed after the sink has received `D`, when it began with the
    watermark `v₀`; `clean` says that no run has failed. -/
structure Fed (col : WatermarkColumn V) (types : List ColumnType) (d : Dialect) (type : String)
    (v₀ : V) (clean : Prop) (D : List SinkRow) (f : FeedView V) (lo x : V) : Prop where
  started : f.stored ≠ ""
  stored : d.bound col type f.stored = some x
  le : lo ≤ v₀
  tailed : Tailed SourceRow.wm lo x f.rows
  atLeast : (covered lo x f.rows).map (d.image types) <+~ cellsOf D
  exactly : clean → cellsOf D ~ (covered lo x f.rows).map (d.image types)

variable {col : WatermarkColumn V} {types : List ColumnType} {d : Dialect} {type : String} {v₀ : V}
  {clean clean' : Prop} {D D' : List SinkRow} {f f' : FeedView V} {lo x : V}

omit [GoLib] in
theorem cellsOf_append (D D' : List SinkRow) : cellsOf (D ++ D') = cellsOf D ++ cellsOf D' :=
  List.map_append

/-- The watermark is kept: nothing more is due, and what came is extra unless the
    history is clean. -/
theorem Fed.keep (h : Fed col types d type v₀ clean D f lo x) (hstored : f'.stored = f.stored)
    (hrows : Grows SourceRow.wm f.rows f'.rows) (hclean : clean' → clean ∧ D' = []) :
    Fed col types d type v₀ clean' (D ++ D') f' lo x := by
  have hdue : covered lo x f'.rows = covered lo x f.rows := h.tailed.between_eq hrows
  refine ⟨hstored ▸ h.started, hstored ▸ h.stored, h.le, h.tailed.grow hrows, ?_, fun hc => ?_⟩
  · rw [hdue, cellsOf_append]
    exact h.atLeast.trans (List.sublist_append_left _ _).subperm
  · obtain ⟨hbefore, rfl⟩ := hclean hc
    rw [hdue, List.append_nil]
    exact h.exactly hbefore

/-- Nothing is due at the beginning. -/
theorem Fed.start (hstarted : f.stored ≠ "") (hstored : d.bound col type f.stored = some v₀) :
    Fed col types d type v₀ clean [] f v₀ v₀ := by
  refine ⟨hstarted, hstored, le_rfl, .start v₀ _, ?_, fun _ => ?_⟩ <;>
    rw [covered, between_eq_nil le_rfl]
  · exact List.nil_subperm
  · exact List.Perm.refl _

/-- Between runs the table grows. -/
theorem Fed.drift (h : Fed col types d type v₀ clean D f lo x) (hdrift : f.Drifts increasing f') :
    Fed col types d type v₀ clean D f' lo x := by
  have hkeep := h.keep hdrift.stored hdrift.rows.grows fun hc => ⟨hc, (rfl : ([] : List SinkRow) = [])⟩
  rwa [List.append_nil] at hkeep

/-- The watermark moves to the MAX `u` that was taken at `rows₁`, after the rows
    in range at `rows₂` have been stored. -/
theorem Fed.advance (h : Fed col types d type v₀ clean D f lo x) {rows₁ rows₂ : List (SourceRow V)}
    {u : V} (hbefore : Grows SourceRow.wm f.rows rows₁) (hmax : maxWm rows₁ = some u)
    (hbetween : Grows SourceRow.wm rows₁ rows₂) (hafter : Grows SourceRow.wm rows₂ f'.rows)
    (hD : cellsOf D' ~ (covered x u rows₂).map (d.image types)) (hstarted : f'.stored ≠ "")
    (hstored : d.bound col type f'.stored = some u) (hclean : clean' → clean) :
    ∃ lo', Fed col types d type v₀ clean' (D ++ D') f' lo' u := by
  obtain ⟨lo', hle, htailed, hperm⟩ := (h.tailed.grow hbefore).advance hmax hbetween
  have hdue : covered lo' u f'.rows = covered lo' u rows₂ := htailed.between_eq hafter
  have hold : between SourceRow.wm lo x rows₂ = covered lo x f.rows :=
    h.tailed.between_eq (hbefore.trans hbetween)
  have himage : (covered lo' u f'.rows).map (d.image types) ~
      (covered lo x f.rows).map (d.image types) ++ (covered x u rows₂).map (d.image types) := by
    rw [hdue, ← List.map_append, ← hold]
    exact hperm.map _
  refine ⟨lo', hstarted, hstored, hle.trans h.le, htailed.grow hafter, ?_, fun hc => ?_⟩
  · rw [cellsOf_append]
    refine himage.subperm.trans (((List.subperm_append_right _).2 h.atLeast).trans ?_)
    exact (List.subperm_append_left _).2 hD.symm.subperm
  · rw [cellsOf_append]
    exact ((h.exactly (hclean hc)).append hD).trans himage.symm

/-- What `emptyFindsNothing` is there for. -/
def Checks.SelectsNothing (g : Checks V) (col : WatermarkColumn V) : Prop :=
  ∀ {f : FeedView V} {lo : SqlArg} {x y : V}, g.range lo (.text "") f = true →
    lo.value col = some x → (SqlArg.text "").value col = some y → covered x y f.rows = []

omit [GoLib] in
theorem selectsNothing_emptyFindsNothing : (emptyFindsNothing col).SelectsNothing col := by
  intro f lo x y h hx hy
  simp only [emptyFindsNothing, hx, hy] at h
  simpa using h

/-- One run. -/
theorem Fed.run {g : Checks V} (hlossless : d.Lossless col type)
    (h : Fed col types d type v₀ clean D f lo x) (hg : clean → g.SelectsNothing col)
    {err : Option Err}
    (hrows : Grows SourceRow.wm f.rows f'.rows)
    (hrun : (err ≠ none ∧ f'.stored = f.stored) ∨
      ∃ wm, Completed col types increasing g d type f D' f' wm ∧
        ((f'.stored = wm ∧ wm ≠ "") ∨ (f'.stored = f.stored ∧ (err ≠ none ∨ wm = "")))) :
    ∃ lo' x', Fed col types d type v₀ (clean ∧ err = none) (D ++ D') f' lo' x' := by
  rcases hrun with ⟨herr, hstored⟩ | ⟨wm, hcomp, hstored⟩
  · exact ⟨lo, x, h.keep hstored hrows fun hc => absurd hc.2 herr⟩
  cases hcomp with
  | init hfirst => exact absurd hfirst h.started
  | @range rows₁ rows₂ obj c a b x₁ y hfirst hbefore hmax hwm hbetween hrange ha hb hx hy hD hafter =>
    -- the lower bound is the value of the stored watermark
    obtain rfl : x₁ = x := Option.some.inj ((Dialect.bound_eq_some ha hx).symm.trans h.stored)
    have hempty : clean → wm = "" → D' = [] := by
      intro hclean hwm
      rw [hwm] at hb
      obtain rfl := Dialect.arg_empty hb
      rw [show covered x₁ y rows₂ = [] from hg hclean hrange hx hy] at hD
      exact List.map_eq_nil_iff.1 hD.eq_nil
    rcases hstored with ⟨hstored, hne⟩ | ⟨hstored, hnot⟩
    · cases hu : maxWm rows₁ with
      | none => exact absurd (by rw [hwm, hu]; rfl) hne
      | some u =>
        have hbound := Dialect.bound_eq_some hb hy
        obtain rfl : y = u := hlossless u y (by rw [← hu, ← hwm]; exact hbound)
        obtain ⟨lo', hfed⟩ := h.advance hbefore.grows hu hbetween.grows hafter.grows hD
          (hstored ▸ hne) (hstored ▸ hbound) (And.left : clean ∧ err = none → clean)
        exact ⟨lo', y, hfed⟩
    · refine ⟨lo, x₁, h.keep hstored hrows fun hc => ⟨hc.1, hempty hc.1 ?_⟩⟩
      exact hnot.resolve_left fun hne => hne hc.2

/-- What holds after every history: the load lost nothing, and duplicated nothing
    if no run failed. -/
theorem delta_loses_nothing {srv : SqlServer} {l : DeltaLoad d}
    (hlossless : d.Lossless col l.load.watermarkType)
    {w w' : World (sqlSide col types increasing)}
    {hs : List (((World.machine srv (sqlSide col types increasing)).guard
      ((emptyFindsNothing col).call l.load.id)).HEvent Unit)}
    {rs : List (Run (World (sqlSide col types increasing)) (Option Err))}
    (hstarted : w.store.watermark l.load.id ≠ "")
    (hstored : d.bound col l.load.watermarkType (w.store.watermark l.load.id) = some v₀)
    (h : ((World.machine srv (sqlSide col types increasing)).guard
      ((emptyFindsNothing col).call l.load.id)).runHistory (fun _ => l.execute) hs w =
        some (rs, w')) :
    ∃ v D, d.bound col l.load.watermarkType (w'.store.watermark l.load.id) = some v ∧
      (sinkView w').content l.load.target = (sinkView w).content l.load.target ++ D ∧
      (covered v₀ v w'.src).map (d.image types) <+~ cellsOf D ∧
      ((∀ y ∈ rs, y.result = none) →
        ∃ lo ≤ v₀, cellsOf D ~ (covered lo v w'.src).map (d.image types)) := by
  have hfed := (deltaSpec_meets srv col types increasing (emptyFindsNothing col)
    l.load.id).runHistory (l := [])
    (I := fun rs v => ∃ D lo x, v.1.content l.load.target =
        (sinkView w).content l.load.target ++ D ∧
      Fed col types d l.load.watermarkType v₀ (∀ y ∈ rs, y.result = none) D v.2 lo x)
    ?_ ?_ ?_ h
  · obtain ⟨D, lo, x, hcontent, hfed⟩ := hfed
    refine ⟨x, D, hfed.stored, hcontent, ?_, fun hclean => ⟨lo, hfed.le, hfed.exactly ?_⟩⟩
    · exact ((between_sublist hfed.le _).map _).subperm.trans hfed.atLeast
    · simpa [Run.map] using hclean
  · -- between runs the table grows
    rintro rs v v' ⟨D, lo, x, hcontent, hfed⟩ ⟨hsink, hdrift⟩
    exact ⟨D, lo, x, hsink ▸ hcontent, hfed.drift hdrift⟩
  · rintro rs _ v ⟨D, lo, x, hcontent, hfed⟩
    refine Spec.wp_mono (wp_executeDelta l rfl v) fun err v' hrun => ?_
    obtain ⟨D', hcontent', hout⟩ := hrun.outcome
    obtain ⟨lo', x', hfed'⟩ := hfed.run hlossless (fun _ => selectsNothing_emptyFindsNothing)
      hrun.rows.grows hout
    refine ⟨D ++ D', lo', x', by rw [hcontent', hcontent, List.append_assoc], ?_⟩
    have hclean : (∀ y ∈ rs ++ [⟨v, err, v'⟩], y.result = none) ↔
        (∀ y ∈ rs, y.result = none) ∧ err = none := by
      simp [or_imp, forall_and]
    rw [hclean]
    exact hfed'
  · exact ⟨[], v₀, v₀, by simp, .start hstarted hstored⟩

end

/-! ## A table of numbers -/

/-- The result set of `SELECT *` on a table with one integer column. -/
def numberTypes : List ColumnType := [⟨"id", "BIGINT", false⟩]

/-- The row of a number. -/
def number (n : Int) : SourceRow Int := ⟨some n, [.int64 n]⟩

/-- The SQL Server source of such a table. -/
abbrev numberSide (policy : TableChange Int → List (SourceRow Int) → Bool) : SourceSide sqlSig :=
  sqlSide intColumn numberTypes policy

/-- A delta load of the table `t` into `dbo.t`. -/
def numberLoad [GoLib] : DeltaLoad .sqlserver where
  runner := { resolveParams := fun _ => .ok [], sink := Mssql.sink, read := Dialect.sqlserver.read }
  load :=
    { id := 1, sourceID := 1, source := ⟨1, "src", "sqlserver", "", true⟩, name := "load"
      objectName := "t", targetSchema := "dbo", targetTable := "t", mode := loadModeDelta
      watermarkColumn := "id", watermarkType := watermarkNumeric, batchSize := 0
      autoCreateTable := true, cronExpression := "", isEnabled := true }
  sink := rfl
  read := rfl
  kind := rfl
  mode := rfl

/-- A system whose source table holds `rows`, with the given stored watermark and
    an empty target. -/
def numberWorld (policy : TableChange Int → List (SourceRow Int) → Bool) (stored : String)
    (rows : List (SourceRow Int)) : World (numberSide policy) :=
  { src := rows, db := ⟨fun u => if u = ⟨"dbo", "t"⟩ then some [] else none, none⟩
    store := ⟨fun _ => if stored = "" then none else some ⟨stored, 0, ""⟩, [], 1⟩, registry := ∅
    metrics := [], clock := 0, cancelled := false }

section

attribute [local instance] GoLib.ascii

/-- One run with the stored watermark -5 on a table that is empty when MAX is
    taken; the number -3 is inserted before the SELECT. -/
def unboundedRun : Option (List (Run (World (numberSide increasing)) (Option Err)) ×
    World (numberSide increasing)) :=
  (World.machine ⟨"wh", "dbo"⟩ (numberSide increasing)).runHistory (fun _ => numberLoad.execute)
    [.run () (List.replicate 6 (.answer .ok) ++ .env (.change (.insert (number (-3)))) ::
      List.replicate 9 (.answer .ok))]
    (numberWorld increasing "-5" [])

/-- The SELECT had the upper bound `''`, which is zero. The row is in the sink
    while the stored watermark is still below it. -/
theorem delta_reads_above_watermark :
    ∃ x w', unboundedRun = some ([x], w') ∧ x.result = none ∧
      Dialect.sqlserver.bound intColumn watermarkNumeric (w'.store.watermark 1) = some (-5) ∧
      w'.src = [number (-3)] ∧
      cellsOf ((sinkView w').content ⟨"dbo", "t"⟩) =
        [Dialect.sqlserver.image numberTypes (number (-3))] := by
  have heval : unboundedRun.map (fun p => (p.1.map (·.result), (feedView 1 p.2).rows)) =
      some ([none], [number (-3)]) := by decide +kernel
  have hsink : unboundedRun.map (fun p =>
      (Dialect.sqlserver.bound intColumn watermarkNumeric (p.2.store.watermark 1),
        cellsOf ((sinkView p.2).content ⟨"dbo", "t"⟩))) =
      some (some (-5), [Dialect.sqlserver.image numberTypes (number (-3))]) := by decide +kernel
  obtain ⟨⟨rs, w'⟩, hrun, hrs⟩ := Option.map_eq_some_iff.1 heval
  simp only [hrun, Option.map_some, Option.some.injEq, Prod.mk.injEq] at hrs hsink
  obtain ⟨x, rfl, hx⟩ := List.map_eq_singleton_iff.1 hrs.1
  exact ⟨x, w', hrun, hx, hsink.1, hrs.2, hsink.2⟩

/-- A history on a table that holds 1, with the stored watermark 1: the number 2
    is inserted, a run stores it but fails to move the watermark, and the next run
    succeeds. -/
def retriedRun : Option (List (Run (World (numberSide increasing)) (Option Err)) ×
    World (numberSide increasing)) :=
  ((World.machine ⟨"wh", "dbo"⟩ (numberSide increasing)).guard
    ((emptyFindsNothing intColumn).call 1)).runHistory (fun _ => numberLoad.execute)
    [.env (.change (.insert (number 2))),
      .run () (List.replicate 10 (.answer .ok) ++ .answer (.fail "lost" 0) ::
        List.replicate 5 (.answer .ok)),
      .run () (List.replicate 16 (.answer .ok))]
    (numberWorld increasing "1" [number 1])

theorem retriedRun_loses_nothing :
    ∃ rs w', retriedRun = some (rs, w') ∧ rs.map (·.result) = [some "update watermark: lost", none] ∧
      ∃ v D, Dialect.sqlserver.bound intColumn watermarkNumeric (w'.store.watermark 1) = some v ∧
        (sinkView w').content ⟨"dbo", "t"⟩ = [] ++ D ∧
        (covered 1 v w'.src).map (Dialect.sqlserver.image numberTypes) <+~ cellsOf D := by
  have heval : retriedRun.map (fun p => p.1.map (·.result)) =
      some [some "update watermark: lost", none] := by decide +kernel
  obtain ⟨⟨rs, w'⟩, hrun, hrs⟩ := Option.map_eq_some_iff.1 heval
  have hstarted : (numberWorld increasing "1" [number 1]).store.watermark 1 ≠ "" := by decide
  have hstored : Dialect.sqlserver.bound intColumn watermarkNumeric
      ((numberWorld increasing "1" [number 1]).store.watermark 1) = some 1 := by decide
  obtain ⟨v, D, hv, hD, hall, -⟩ :=
    delta_loses_nothing (l := numberLoad) lossless_intColumn hstarted hstored hrun
  exact ⟨rs, w', hrun, hrs, v, D, hv, hD, hall⟩

end

end DataLoader
