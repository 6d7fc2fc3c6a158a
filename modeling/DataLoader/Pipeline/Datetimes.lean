import DataLoader.Pipeline.Delta
import DataLoader.Sources.Timestamps

/-!
# Delta loads of PostgreSQL with a datetime watermark

What `Pipeline.Delta` needs of a source holds of PostgreSQL with a datetime watermark. The
stored text is read back as the time that it was written for, and an empty upper bound is not
sent: `time.Parse` refuses it.

* `datetimes_lose_nothing`: after any history of runs, failed or not, every row between the
  first stored watermark and the current one is in the sink, and in a history without failures
  each row has come once.
-/

namespace DataLoader

open Effects SourceRow Feed

open scoped List

section

variable [GoLib] {V : Type} [LinearOrder V] {col : WatermarkColumn V} {types : List ColumnType}
  {policy : TableChange V → List (SourceRow V) → Bool}

/-- The upper bound of a completed read is a time. -/
theorem Completed.emptyFindsNothing {f f' : FeedView V} {D : List SinkRow} {wm : String}
    (h : Completed col types policy {} .postgres watermarkDatetime f D f' wm) :
    Completed col types policy (emptyFindsNothing col) .postgres watermarkDatetime f D f' wm := by
  cases h with
  | init hfirst hbefore hmax hwm hD hafter hasked =>
    exact .init hfirst hbefore hmax hwm hD hafter hasked
  | @range rows₁ rows₂ obj c lo up x y hfirst hbefore hmax hwm hbetween hrange hlo hup hx hy hD
      hafter hasked =>
    have htime : up ≠ .text "" := by
      rintro rfl
      simp only [Dialect.arg, Postgres.parseWatermark, if_pos] at hup
      cases hparse : GoLib.parseTime wm with
      | error e => rw [hparse] at hup; cases hup
      | ok t => rw [hparse] at hup; cases hup
    refine .range hfirst hbefore hmax hwm hbetween ?_ hlo hup hx hy hD hafter hasked
    simp [DataLoader.emptyFindsNothing, htime]

/-- The stored watermark is the text of a value. -/
def FeedView.Marked (col : WatermarkColumn V) (f : FeedView V) : Prop :=
  ∃ v, f.stored = mark col watermarkDatetime (some v)

theorem FeedView.Marked.run {f f' : FeedView V} {err : Option Err} {D : List SinkRow}
    (h : f.Marked col)
    (hrun : (err ≠ none ∧ f'.stored = f.stored) ∨
      ∃ wm, Completed col types policy {} .postgres watermarkDatetime f D f' wm ∧
        ((f'.stored = wm ∧ wm ≠ "") ∨ (f'.stored = f.stored ∧ (err ≠ none ∨ wm = "")))) :
    f'.Marked col := by
  have hkeep : f'.stored = f.stored → f'.Marked col := by
    rintro hstored
    obtain ⟨v, hv⟩ := h
    exact ⟨v, hstored.trans hv⟩
  have hmax : ∀ {wm : String} {m : Option V}, wm = mark col watermarkDatetime m →
      f'.stored = wm → wm ≠ "" → f'.Marked col := by
    rintro wm m rfl hstored hne
    cases m with
    | none => exact absurd rfl hne
    | some v => exact ⟨v, hstored⟩
  rcases hrun with ⟨-, hstored⟩ | ⟨wm, hcomp, ⟨hstored, hne⟩ | ⟨hstored, -⟩⟩
  · exact hkeep hstored
  · cases hcomp with
    | init _ _ _ hwm => exact hmax hwm hstored hne
    | range _ _ _ hwm => exact hmax hwm hstored hne
  · exact hkeep hstored

/-- The state of the feed after the sink has received `D` in the runs `rs`. -/
structure FedTimes (col : WatermarkColumn V) (types : List ColumnType) (v₀ : V) {W : Type}
    (rs : List (Run W (Option Err))) (D : List SinkRow) (f : FeedView V) : Prop where
  marked : f.Marked col
  fed : ∃ lo x, Fed col types .postgres watermarkDatetime v₀ (∀ y ∈ rs, y.result = none) D f lo x

variable {v₀ : V} {W : Type} {rs : List (Run W (Option Err))} {D D' : List SinkRow}
  {f f' : FeedView V}

theorem FedTimes.drift (h : FedTimes col types v₀ rs D f) (hdrift : f.Drifts increasing f') :
    FedTimes col types v₀ rs D f' := by
  obtain ⟨lo, x, hfed⟩ := h.fed
  obtain ⟨v, hv⟩ := h.marked
  exact ⟨⟨v, hdrift.stored.trans hv⟩, lo, x, hfed.drift hdrift⟩

theorem FedTimes.run (hlossless : Dialect.postgres.Lossless col watermarkDatetime)
    (h : FedTimes col types v₀ rs D f) (y : Run W (Option Err))
    (hrows : Grows SourceRow.wm f.rows f'.rows)
    (hrun : (y.result ≠ none ∧ f'.stored = f.stored) ∨
      ∃ wm, Completed col types increasing {} .postgres watermarkDatetime f D' f' wm ∧
        ((f'.stored = wm ∧ wm ≠ "") ∨ (f'.stored = f.stored ∧ (y.result ≠ none ∨ wm = "")))) :
    FedTimes col types v₀ (rs ++ [y]) (D ++ D') f' := by
  obtain ⟨lo, x, hfed⟩ := h.fed
  have hout := hrun.imp_right
    (Exists.imp fun wm => And.imp_left Completed.emptyFindsNothing)
  obtain ⟨lo', x', hfed'⟩ := hfed.run hlossless (fun _ => selectsNothing_emptyFindsNothing) hrows hout
  have hclean : (∀ z ∈ rs ++ [y], z.result = none) ↔
      (∀ z ∈ rs, z.result = none) ∧ y.result = none := by
    simp [or_imp, forall_and]
  refine ⟨h.marked.run hrun, lo', x', ?_⟩
  rw [hclean]
  exact hfed'

variable [GoTime]

/-- What holds after every history of a load of PostgreSQL whose watermarks are times. -/
theorem datetimes_lose_nothing {srv : SqlServer} {l : DeltaLoad .postgres}
    (hcol : col.HoldsTimes) (htype : l.load.watermarkType = watermarkDatetime)
    {w w' : World (sqlSide col types increasing)}
    {hs : List ((World.machine srv (sqlSide col types increasing)).HEvent Unit)}
    {rs : List (Run (World (sqlSide col types increasing)) (Option Err))}
    (hstored : w.store.watermark l.load.id = GoLib.formatTime (col.time v₀))
    (h : (World.machine srv (sqlSide col types increasing)).runHistory (fun _ => l.execute) hs w =
      some (rs, w')) :
    ∃ v D, w'.store.watermark l.load.id = GoLib.formatTime (col.time v) ∧
      (sinkView w').content l.load.target = (sinkView w).content l.load.target ++ D ∧
      (covered v₀ v w'.src).map (Dialect.postgres.image types) <+~ cellsOf D ∧
      ((∀ y ∈ rs, y.result = none) →
        ∃ lo ≤ v₀, cellsOf D ~ (covered lo v w'.src).map (Dialect.postgres.image types)) := by
  have hfaithful := faithful_postgres hcol
  have hlossless : Dialect.postgres.Lossless col watermarkDatetime := fun u v huv =>
    Option.some.inj (huv.symm.trans (hfaithful u))
  have hruns := (deltaSpec_meets_machine srv col types increasing l.load.id).runHistory (l := [])
    (I := fun rs v => ∃ D, v.1.content l.load.target = (sinkView w).content l.load.target ++ D ∧
      FedTimes col types v₀ rs D v.2)
    ?_ ?_ ?_ h
  · obtain ⟨D, hcontent, ⟨v, hmark⟩, lo, x, hfed⟩ := hruns
    obtain rfl : v = x := by
      have hbound := hfed.stored
      rw [hmark, hfaithful v] at hbound
      exact Option.some.inj hbound
    refine ⟨v, D, hmark.trans (mark_datetime v), hcontent, ?_, fun hclean => ⟨lo, hfed.le, ?_⟩⟩
    · exact ((between_sublist hfed.le _).map _).subperm.trans hfed.atLeast
    · exact hfed.exactly (by simpa [Run.map] using hclean)
  · -- between runs the table grows
    rintro rs v v' ⟨D, hcontent, hfed⟩ ⟨hsink, hdrift⟩
    exact ⟨D, hsink ▸ hcontent, hfed.drift hdrift⟩
  · rintro rs _ v ⟨D, hcontent, hfed⟩
    refine Spec.wp_mono (wp_executeDelta l rfl v) fun err v' hrun => ?_
    obtain ⟨D', hcontent', hout⟩ := hrun.outcome
    rw [htype] at hout
    refine ⟨D ++ D', by rw [hcontent', hcontent, List.append_assoc], ?_⟩
    exact hfed.run hlossless ⟨v, err, v'⟩ hrun.rows.grows hout
  · have hmark : (feedView l.load.id w).stored = mark col watermarkDatetime (some v₀) :=
      hstored.trans (mark_datetime v₀).symm
    have hne : (feedView l.load.id w).stored ≠ "" := by
      rw [hmark, mark_datetime]
      exact formatTime_ne_empty (hcol.inYears v₀)
    have hbound : Dialect.postgres.bound col watermarkDatetime (feedView l.load.id w).stored =
        some v₀ := by
      rw [hmark]
      exact hfaithful v₀
    exact ⟨[], by simp, ⟨v₀, hmark⟩, v₀, v₀, .start hne hbound⟩

end

/-! ## A table of instants -/

instance (t : Time) : Decidable (Rfc3339.InYears t) := inferInstanceAs (Decidable (_ ∧ _))

/-- An instant in the years 0 to 9999, in whole microseconds. -/
abbrev Instant := {t : Time // Rfc3339.InYears t ∧ t % 1000 = 0}

theorem inYears_microsecond {t : Time} (h : Rfc3339.InYears t) : Rfc3339.InYears (t - t % 1000) := by
  have hday : (Rfc3339.split (t - t % 1000)).1 = (Rfc3339.split t).1 := by
    simp only [Rfc3339.split]
    omega
  unfold Rfc3339.InYears
  rwa [hday]

/-- The microsecond of a time. -/
def Instant.ofTime (t : Time) (h : Rfc3339.InYears t) : Instant :=
  ⟨t - t % 1000, inYears_microsecond h, by rw [Int.sub_emod, Int.emod_emod, sub_self, Int.zero_emod]⟩

/-- A column of type TIMESTAMPTZ. -/
def instantColumn : WatermarkColumn Instant where
  time v := v.1
  text v := String.ofList (Rfc3339.format v.1)
  ofTime t := if h : Rfc3339.InYears t then some (.ofTime t h) else none
  ofText _ := none

theorem holdsTimes_instantColumn : instantColumn.HoldsTimes := by
  refine ⟨fun v => v.2.1, fun v => (dif_pos v.2.1).trans (congrArg some (Subtype.ext ?_))⟩
  show v.1 - v.1 % 1000 = v.1
  rw [v.2.2, sub_zero]

/-- The result set of `SELECT *` on a table with one such column. -/
def instantTypes : List ColumnType := [⟨"at", "TIMESTAMPTZ", false⟩]

/-- The row of an instant. -/
def instantRow (v : Instant) : SourceRow Instant := ⟨some v, [.time v.1]⟩

section

attribute [local instance] GoLib.rfc3339

/-- A delta load of the table `t` into `dbo.t`. -/
def instantLoad : DeltaLoad .postgres where
  runner := { resolveParams := fun _ => .ok [], sink := Mssql.sink, read := Dialect.postgres.read }
  load :=
    { id := 1, sourceID := 1, source := ⟨1, "src", "postgres", "", true⟩, name := "load"
      objectName := "t", targetSchema := "dbo", targetTable := "t", mode := loadModeDelta
      watermarkColumn := "at", watermarkType := watermarkDatetime, batchSize := 0
      autoCreateTable := true, cronExpression := "", isEnabled := true }
  sink := rfl
  read := rfl
  kind := rfl
  mode := rfl

/-- One second and a half after the beginning of Unix time, and a microsecond later. -/
def earlier : Instant := ⟨1500000000, by decide⟩

def later : Instant := ⟨1500001000, by decide⟩

/-- A system whose source table holds `earlier`, which is also the stored watermark. -/
def instantWorld : World (sqlSide instantColumn instantTypes increasing) :=
  { src := [instantRow earlier]
    db := ⟨fun u => if u = ⟨"dbo", "t"⟩ then some [] else none, none⟩
    store := ⟨fun _ => some ⟨"1970-01-01T00:00:01.5Z", 0, ""⟩, [], 1⟩, registry := ∅
    metrics := [], clock := 0, cancelled := false }

/-- `later` is inserted, a run stores it but fails to move the watermark, and the next run
    succeeds. -/
def instantRuns : Option (List (Run (World (sqlSide instantColumn instantTypes increasing))
    (Option Err)) × World (sqlSide instantColumn instantTypes increasing)) :=
  (World.machine ⟨"wh", "dbo"⟩ (sqlSide instantColumn instantTypes increasing)).runHistory
    (fun _ => instantLoad.execute)
    [.env (.change (.insert (instantRow later))),
      .run () (List.replicate 10 (.answer .ok) ++ .answer (.fail "lost" 0) ::
        List.replicate 5 (.answer .ok)),
      .run () (List.replicate 17 (.answer .ok))]
    instantWorld

theorem instantRuns_lose_nothing :
    ∃ rs w', instantRuns = some (rs, w') ∧
      rs.map (·.result) = [some "update watermark: lost", none] ∧
      ∃ v D, w'.store.watermark 1 = GoLib.formatTime v.1 ∧
        (sinkView w').content ⟨"dbo", "t"⟩ = [] ++ D ∧
        (covered earlier v w'.src).map (Dialect.postgres.image instantTypes) <+~ cellsOf D := by
  have heval : instantRuns.map (fun p => p.1.map (·.result)) =
      some [some "update watermark: lost", none] := by decide +kernel
  obtain ⟨⟨rs, w'⟩, hrun, hrs⟩ := Option.map_eq_some_iff.1 heval
  have hstored : instantWorld.store.watermark 1 = GoLib.formatTime (instantColumn.time earlier) := by
    decide +kernel
  have := goTime_rfc3339
  obtain ⟨v, D, hv, hD, hall, -⟩ :=
    datetimes_lose_nothing (l := instantLoad) holdsTimes_instantColumn rfl hstored hrun
  exact ⟨rs, w', hrun, hrs, v, D, hv, hD, hall⟩

end

end DataLoader
