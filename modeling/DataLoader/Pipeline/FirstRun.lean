import DataLoader.Pipeline.Delta

/-!
# After the first run of a delta load

The first run of a delta load stores MAX and reads nothing.
`rows_after_first_run_arrive`: whatever is inserted after a successful first run
is in the sink after any later successful run, or still above the stored
watermark, provided the first run found a MAX to store.

Without it nothing is stored, so the next run is a first run again:
`rows_after_first_run_skipped` has a row that arrives in between and is lost.
-/

namespace DataLoader

open Effects SourceRow Feed

open scoped List

section

variable [GoLib] {V : Type} [LinearOrder V]

/-- The condition on the first run: when it takes MAX there is one, and its text
    is not empty. -/
def maxHasText (col : WatermarkColumn V) (type : String) : Checks V where
  max f := mark col type (maxWm f.rows) ≠ ""

variable {col : WatermarkColumn V} {types : List ColumnType} {d : Dialect} {type : String}

/-- What the first successful run leaves behind. -/
theorem DeltaRun.seeds {load : Load} {v v' : SinkView × FeedView V}
    (h : DeltaRun col types increasing (maxHasText col load.watermarkType) d load v none v')
    (hnone : v.2.stored = "") :
    ∃ u ∈ keys SourceRow.wm v'.2.rows, v'.2.stored = mark col load.watermarkType (some u) ∧
      v'.2.stored ≠ "" := by
  obtain ⟨D, -, hout⟩ := h.outcome
  rcases hout with ⟨herr, -⟩ | ⟨wm, hcomp, hstored⟩
  · exact absurd rfl herr
  cases hcomp with
  | range hfirst => exact absurd hnone hfirst
  | @init rows₁ _ hbefore hmax hwm hD hafter hasked =>
    have hne : wm ≠ "" := by
      rw [hwm]
      simpa [maxHasText] using hmax
    have hst : v'.2.stored = wm := by
      rcases hstored with ⟨hst, -⟩ | ⟨-, herr | hempty⟩
      · exact hst
      · exact absurd rfl herr
      · exact absurd hempty hne
    cases hu : maxWm rows₁ with
    | none =>
      rw [hu] at hwm
      exact absurd hwm hne
    | some u =>
      refine ⟨u, hafter.grows.mem_keys (mem_of_top hu), ?_, hst ▸ hne⟩
      rw [hst, hwm, hu]

/-- The load after its first run, which left the rows `rows₀` and the content `c`:
    the stored watermark cannot be read, so that every run fails, or the load
    tails the table from `u`. -/
structure Seeded (col : WatermarkColumn V) (types : List ColumnType) (d : Dialect) (type : String)
    (u : V) (rows₀ : List (SourceRow V)) (c : List SinkRow) (content : List SinkRow)
    (f : FeedView V) : Prop where
  rows : Grows SourceRow.wm rows₀ f.rows
  started : f.stored ≠ ""
  tails : d.bound col type f.stored = none ∨
    ∃ D lo x, content = c ++ D ∧ Fed col types d type u False D f lo x

variable {u : V} {rows₀ : List (SourceRow V)} {c content : List SinkRow} {f f' : FeedView V}

theorem Seeded.grow (h : Seeded col types d type u rows₀ c content f)
    (hd : f.Drifts increasing f') : Seeded col types d type u rows₀ c content f' := by
  refine ⟨h.rows.trans hd.rows.grows, hd.stored ▸ h.started, ?_⟩
  rcases h.tails with hnone | ⟨D, lo, x, hcontent, hfed⟩
  · exact .inl (hd.stored ▸ hnone)
  · have hkeep : Fed col types d type u False (D ++ []) f' lo x :=
      hfed.keep hd.stored hd.rows.grows False.elim
    exact .inr ⟨D, lo, x, hcontent, List.append_nil D ▸ hkeep⟩

/-- A later run. -/
theorem Seeded.run {g : Checks V} (hlossless : d.Lossless col type)
    (h : Seeded col types d type u rows₀ c content f) {err : Option Err} {D' : List SinkRow}
    (hrows : Grows SourceRow.wm f.rows f'.rows)
    (hrun : (err ≠ none ∧ f'.stored = f.stored) ∨
      ∃ wm, Completed col types increasing g d type f D' f' wm ∧
        ((f'.stored = wm ∧ wm ≠ "") ∨ (f'.stored = f.stored ∧ (err ≠ none ∨ wm = "")))) :
    Seeded col types d type u rows₀ c (content ++ D') f' ∧
      (err = none → d.bound col type f'.stored ≠ none) := by
  rcases h.tails with hnone | ⟨D, lo, x, hcontent, hfed⟩
  · -- a read that completes has read the stored watermark
    rcases hrun with ⟨herr, hstored⟩ | ⟨wm, hcomp, -⟩
    · exact ⟨⟨h.rows.trans hrows, hstored ▸ h.started, .inl (hstored ▸ hnone)⟩,
        fun herr' => absurd herr' herr⟩
    · cases hcomp with
      | init hfirst => exact absurd hfirst h.started
      | range _ _ _ _ _ _ hlo _ hx =>
        rw [Dialect.bound_eq_some hlo hx] at hnone
        cases hnone
  · obtain ⟨lo', x', hfed'⟩ := hfed.run hlossless False.elim hrows hrun
    have hfed'' : Fed col types d type u False (D ++ D') f' lo' x' :=
      ⟨hfed'.started, hfed'.stored, hfed'.le, hfed'.tailed, hfed'.atLeast, False.elim⟩
    refine ⟨⟨h.rows.trans hrows, hfed'.started, .inr ⟨D ++ D', lo', x', ?_, hfed''⟩⟩, fun _ => ?_⟩
    · rw [hcontent, List.append_assoc]
    · rw [hfed'.stored]
      simp

/-- A row has arrived when it is in the sink or above the stored watermark. -/
def Arrived (col : WatermarkColumn V) (types : List ColumnType) (d : Dialect) (type : String)
    (content : List SinkRow) (f : FeedView V) (r : SourceRow V) : Prop :=
  d.image types r ∈ cellsOf content ∨
    ∃ v x, d.bound col type f.stored = some v ∧ r.wm = some x ∧ v < x

theorem Seeded.arrived (h : Seeded col types d type u rows₀ c content f)
    (hu : u ∈ keys SourceRow.wm rows₀) (hbound : d.bound col type f.stored ≠ none) :
    ∀ r ∈ f.rows.drop rows₀.length, Arrived col types d type content f r := by
  obtain ⟨D, lo, x, rfl, hfed⟩ := h.tails.resolve_left hbound
  obtain ⟨added, hadded, habove⟩ := h.rows
  intro r hr
  rw [hadded, List.drop_left] at hr
  obtain ⟨y, hy, hlt⟩ := habove r hr
  by_cases hyx : y ≤ x
  · left
    have hmem : r ∈ covered lo x f.rows := by
      refine mem_between.2 ⟨?_, y, hy, hfed.le.trans_lt (hlt u hu), hyx⟩
      rw [hadded]
      exact List.mem_append_right _ hr
    rw [cellsOf_append]
    exact List.mem_append_right _ (hfed.atLeast.subset (List.mem_map_of_mem hmem))
  · exact .inr ⟨x, y, hfed.stored, hy, not_le.1 hyx⟩

/-- Nothing that is inserted after the first successful run is skipped. -/
theorem rows_after_first_run_arrive {srv : SqlServer} {l : DeltaLoad d}
    (hlossless : d.Lossless col l.load.watermarkType)
    {w w₁ w' : World (sqlSide col types increasing)}
    {es : List ((World.machine srv (sqlSide col types increasing)).guard
      ((maxHasText col l.load.watermarkType).call l.load.id)).Event}
    {hs : List ((World.machine srv (sqlSide col types increasing)).HEvent Unit)}
    {rs : List (Run (World (sqlSide col types increasing)) (Option Err))}
    (hnone : w.store.watermark l.load.id = "")
    (hfirst : ((World.machine srv (sqlSide col types increasing)).guard
      ((maxHasText col l.load.watermarkType).call l.load.id)).exec es l.execute w =
        some (none, w₁))
    (h : (World.machine srv (sqlSide col types increasing)).runHistory (fun _ => l.execute) hs w₁ =
      some (rs, w')) :
    ∀ y ∈ rs, y.result = none →
      ∀ r ∈ (feedView l.load.id y.after).rows.drop (feedView l.load.id w₁).rows.length,
        Arrived col types d l.load.watermarkType ((sinkView y.after).content l.load.target)
          (feedView l.load.id y.after) r := by
  obtain ⟨u, hu, hstored, hstarted⟩ := ((deltaSpec_meets srv col types increasing _ l.load.id).exec
    (wp_executeDelta l rfl (sinkView w, feedView l.load.id w)) hfirst).seeds hnone
  have hruns := (deltaSpec_meets_machine srv col types increasing l.load.id).runHistory (l := [])
    (I := fun rs v => Seeded col types d l.load.watermarkType u (feedView l.load.id w₁).rows
        ((sinkView w₁).content l.load.target) (v.1.content l.load.target) v.2 ∧
      ∀ y ∈ rs, y.result = none → ∀ r ∈ y.after.2.rows.drop (feedView l.load.id w₁).rows.length,
        Arrived col types d l.load.watermarkType (y.after.1.content l.load.target) y.after.2 r)
    ?_ ?_ ?_ h
  · intro y hy
    exact hruns.2 (y.map _) (by simpa using ⟨y, hy, rfl⟩)
  · rintro rs v v' ⟨hseed, hrs⟩ ⟨hsink, hdrift⟩
    exact ⟨hsink ▸ hseed.grow hdrift, hrs⟩
  · rintro rs _ v ⟨hseed, hrs⟩
    refine Spec.wp_mono (wp_executeDelta l rfl v) fun err v' hrun => ?_
    obtain ⟨D', hcontent, hout⟩ := hrun.outcome
    obtain ⟨hseed', hbound⟩ := hseed.run hlossless hrun.rows.grows hout
    rw [← hcontent] at hseed'
    refine ⟨hseed', fun y hy herr => ?_⟩
    rcases List.mem_append.1 hy with hy | hy
    · exact hrs y hy herr
    · obtain rfl := List.mem_singleton.1 hy
      exact hseed'.arrived hu (hbound herr)
  · refine ⟨⟨.refl _, hstarted, ?_⟩, by simp⟩
    cases hbound : d.bound col l.load.watermarkType (feedView l.load.id w₁).stored with
    | none => exact .inl rfl
    | some x =>
      obtain rfl : x = u := hlossless u x (by rw [← hstored]; exact hbound)
      exact .inr ⟨[], x, x, by simp, .start hstarted hbound⟩

end

/-! ## Runs on a table of numbers -/

section

attribute [local instance] GoLib.ascii

/-- A first run on an empty table; the number 5 is inserted, and a second run
    succeeds. -/
def emptyFirstRun : Option (List (Run (World (numberSide increasing)) (Option Err)) ×
    World (numberSide increasing)) :=
  (World.machine ⟨"wh", "dbo"⟩ (numberSide increasing)).runHistory (fun _ => numberLoad.execute)
    [.run () (List.replicate 11 (.answer .ok)), .env (.change (.insert (number 5))),
      .run () (List.replicate 12 (.answer .ok))]
    (numberWorld increasing "" [])

/-- The second run stores 5 without having read it. -/
theorem rows_after_first_run_skipped :
    ∃ x y w', emptyFirstRun = some ([x, y], w') ∧ x.result = none ∧ y.result = none ∧
      (feedView 1 x.after).rows = [] ∧ (feedView 1 w').rows = [number 5] ∧
      ¬Arrived intColumn numberTypes .sqlserver watermarkNumeric
        ((sinkView w').content ⟨"dbo", "t"⟩) (feedView 1 w') (number 5) := by
  have heval : emptyFirstRun.map (fun p => p.1.map fun x => (x.result, (feedView 1 x.after).rows)) =
      some [(none, []), (none, [number 5])] := by decide +kernel
  have hend : emptyFirstRun.map (fun p => ((feedView 1 p.2).rows, p.2.store.watermark 1,
      (sinkView p.2).content ⟨"dbo", "t"⟩)) = some ([number 5], "5", []) := by decide +kernel
  obtain ⟨⟨rs, w'⟩, hrun, hrs⟩ := Option.map_eq_some_iff.1 heval
  obtain ⟨x, rs, rfl, hx, hrs⟩ := List.map_eq_cons_iff.1 hrs
  obtain ⟨y, rfl, hy⟩ := List.map_eq_singleton_iff.1 hrs
  simp only [hrun, Option.map_some, Option.some.injEq, Prod.mk.injEq] at hx hy hend
  refine ⟨x, y, w', hrun, hx.1, hy.1, hx.2, hend.1, ?_⟩
  intro harrived
  rcases harrived with hmem | ⟨v, z, hv, hz, hlt⟩
  · rw [hend.2.2] at hmem
    cases hmem
  · have hstored : (feedView 1 w').stored = "5" := hend.2.1
    have hbound : Dialect.sqlserver.bound intColumn watermarkNumeric "5" = some 5 := by decide
    rw [hstored, hbound] at hv
    obtain rfl := Option.some.inj hv
    obtain rfl := Option.some.inj hz
    exact absurd hlt (lt_irrefl 5)

/-- A first run on a table that holds 1. -/
def seededFirstRun : Option (Option Err × World (numberSide increasing)) :=
  ((World.machine ⟨"wh", "dbo"⟩ (numberSide increasing)).guard
    ((maxHasText intColumn watermarkNumeric).call 1)).exec (List.replicate 12 (.answer .ok))
    numberLoad.execute (numberWorld increasing "" [number 1])

/-- Then the number 2 is inserted, and a second run succeeds. -/
def secondRun (w : World (numberSide increasing)) :
    Option (List (Run (World (numberSide increasing)) (Option Err)) ×
      World (numberSide increasing)) :=
  (World.machine ⟨"wh", "dbo"⟩ (numberSide increasing)).runHistory (fun _ => numberLoad.execute)
    [.env (.change (.insert (number 2))), .run () (List.replicate 16 (.answer .ok))] w

theorem secondRun_arrives :
    ∃ w₁ y w', seededFirstRun = some (none, w₁) ∧ secondRun w₁ = some ([y], w') ∧
      y.result = none ∧ ∀ r ∈ (feedView 1 y.after).rows.drop (feedView 1 w₁).rows.length,
        Arrived intColumn numberTypes .sqlserver watermarkNumeric
          ((sinkView y.after).content ⟨"dbo", "t"⟩) (feedView 1 y.after) r := by
  have heval : seededFirstRun.map (fun p => (p.1, (secondRun p.2).map fun q => q.1.map (·.result))) =
      some (none, some [none]) := by decide +kernel
  obtain ⟨⟨e, w₁⟩, hfirst, hsecond⟩ := Option.map_eq_some_iff.1 heval
  simp only [Prod.mk.injEq] at hsecond
  obtain ⟨rfl, hsecond⟩ := hsecond
  obtain ⟨⟨rs, w'⟩, hrun, hrs⟩ := Option.map_eq_some_iff.1 hsecond
  obtain ⟨y, rfl, hy⟩ := List.map_eq_singleton_iff.1 hrs
  refine ⟨w₁, y, w', hfirst, hrun, hy, ?_⟩
  exact rows_after_first_run_arrive (l := numberLoad) lossless_intColumn (by decide) hfirst hrun y
    (List.mem_singleton.2 rfl) hy

end

end DataLoader
