import DataLoader.Pipeline.RunOutcome

/-!
# Which loads are delta loads

The mode of a load is any text. Four places compare it: the first-run branch of
`Read` and the watermark of `Execute` with `delta`, `buildQuery` with `append` and
`replace`, and the set-up of `Execute` with `replace`. A mode that none of them knows
is filtered by watermark in `buildQuery` and is no delta load anywhere else.

* `modes_agree_iff`: source and runner agree on the documented modes, and on no other.
-/

namespace DataLoader

open Effects

/-! ## The source -/

/-- A query for the MAX of the watermark column. -/
def ReadCall.isMax : ReadCall sqlSig → Prop
  | .driver (.maxTime ..) | .driver (.maxText ..) => True
  | .driver (.query _) | .emit _ => False

/-- The read hands over no rows, asks for the MAX only and reports a first run. -/
def SeedsOnly (p : Prog (readSig sqlSig) (ReadResult × Option Err)) : Prop :=
  (allowing (S := readSig sqlSig) ReadCall.isMax).Follows p
    (fun res _ => res.2 = none → res.1.watermarkInit = true ∧ res.1.rowsRead = 0) ()

section

variable [GoLib]

theorem scanMax_follows (obj col wmType : String) :
    (allowing (S := readSig sqlSig) ReadCall.isMax).Follows (Sql.scanMax obj col wmType)
      (fun _ _ => True) () := by
  unfold Sql.scanMax
  split_ifs
  all_goals
    refine ⟨trivial, fun r => ?_⟩
    rcases r with e | (_ | x) <;> exact trivial

theorem Sqlserver.currentMaxWatermark_follows (obj col wmType : String) :
    (allowing (S := readSig sqlSig) ReadCall.isMax).Follows
      (Sqlserver.currentMaxWatermark obj col wmType) (fun _ _ => True) () := by
  unfold Sqlserver.currentMaxWatermark
  cases Sqlident.validate col with
  | some e => exact trivial
  | none => exact scanMax_follows _ _ _

theorem Postgres.currentMaxWatermark_follows (obj col wmType : String) :
    (allowing (S := readSig sqlSig) ReadCall.isMax).Follows
      (Postgres.currentMaxWatermark obj col wmType) (fun _ _ => True) () := by
  unfold Postgres.currentMaxWatermark
  cases Sqlident.validate col with
  | some e => exact trivial
  | none =>
    cases hobj : Sqlident.quotePostgresQualified obj with
    | error e => exact trivial
    | ok quoted => exact scanMax_follows _ _ _

omit [GoLib] in
/-- A delta load without a stored watermark that is not a first run has no watermark
    column or type. -/
theorem unfiltered_of_not_first {load : LoadConfig} (hmode : load.mode = loadModeDelta)
    (hlast : load.lastWatermark.value = "") (hfirst : ¬Sql.isFirstRun load = true) :
    load.watermarkColumn = "" ∨ load.watermarkType = watermarkNone := by
  by_contra hnone
  apply hfirst
  simp only [not_or] at hnone
  simp [Sql.isFirstRun, hmode, hlast, hnone]

theorem Sqlserver.read_seedsOnly {load : LoadConfig} (hmode : load.mode = loadModeDelta)
    (hlast : load.lastWatermark.value = "") : SeedsOnly (Sqlserver.read load) := by
  unfold SeedsOnly Sqlserver.read
  split_ifs with hfirst
  · cases Sqlserver.quoteObject load.objectName with
    | error e => exact fun h => nomatch h
    | ok obj =>
      refine (Sqlserver.currentMaxWatermark_follows _ _ _).seq fun res _ _ => ?_
      cases res with
      | error e => exact fun h => nomatch h
      | ok upper => exact fun _ => ⟨rfl, rfl⟩
  · unfold Sqlserver.buildQuery
    cases Sqlserver.quoteObject load.objectName with
    | error e => exact fun h => nomatch h
    | ok obj =>
      have hother : ¬(load.mode = loadModeAppend ∨ load.mode = loadModeReplace) := by
        rw [hmode]
        decide
      simp only [if_neg hother, if_pos (unfiltered_of_not_first hmode hlast hfirst)]
      exact fun h => nomatch h

theorem Postgres.read_seedsOnly {load : LoadConfig} (hmode : load.mode = loadModeDelta)
    (hlast : load.lastWatermark.value = "") : SeedsOnly (Postgres.read load) := by
  unfold SeedsOnly Postgres.read
  split_ifs with hfirst
  · refine (Postgres.currentMaxWatermark_follows _ _ _).seq fun res _ _ => ?_
    cases res with
    | error e => exact fun h => nomatch h
    | ok upper => exact fun _ => ⟨rfl, rfl⟩
  · unfold Postgres.buildQuery
    cases Sqlident.quotePostgresQualified load.objectName with
    | error e => exact fun h => nomatch h
    | ok obj =>
      have hother : ¬(load.mode = loadModeAppend ∨ load.mode = loadModeReplace) := by
        rw [hmode]
        decide
      simp only [if_neg hother, if_pos (unfiltered_of_not_first hmode hlast hfirst)]
      exact fun h => nomatch h

theorem Dialect.read_seedsOnly (d : Dialect) {load : LoadConfig} (hmode : load.mode = loadModeDelta)
    (hlast : load.lastWatermark.value = "") : SeedsOnly (d.read load) := by
  cases d with
  | sqlserver => exact Sqlserver.read_seedsOnly hmode hlast
  | postgres => exact Postgres.read_seedsOnly hmode hlast

/-- A load of the table `t` in any mode, with the watermark column `id` and no stored
    watermark. -/
def freshConfig (mode : String) : LoadConfig :=
  { loadID := 1, name := "load", objectName := "t", mode, watermarkColumn := "id"
    watermarkType := watermarkNumeric, lastWatermark := ⟨watermarkNumeric, ""⟩, batchSize := 0 }

theorem validate_ascii (name : String) (hascii : name.toList.all (·.toNat < 128) = true) :
    Sqlident.validate name = none ↔ @Sqlident.validate GoLib.ascii name = none := by
  have h : ∀ c ∈ name.toList, c.toNat < 128 := fun c hc => by
    simpa using List.all_eq_true.1 hascii c hc
  have hre : Sqlident.identRE name.toList = @Sqlident.identRE GoLib.ascii name.toList := by
    cases hname : name.toList with
    | nil => rfl
    | cons c cs =>
      have hall : cs.all Sqlident.isIdentPart = cs.all (@Sqlident.isIdentPart GoLib.ascii) := by
        rw [Bool.eq_iff_iff, List.all_eq_true, List.all_eq_true]
        refine forall₂_congr fun x hx => ?_
        have hx : x.toNat < 128 := h x (by simp [hname, hx])
        rw [Sqlident.isIdentPart_ascii hx, @Sqlident.isIdentPart_ascii GoLib.ascii x hx]
      have hc : GoLib.isLetter c = c.isAlpha := GoLib.isLetter_ascii c (h c (by simp [hname]))
      rw [Sqlident.identRE, @Sqlident.identRE.eq_2 GoLib.ascii, hall, Sqlident.isIdentStart, hc]
      rfl
  rw [Sqlident.validate_eq_none, @Sqlident.validate_eq_none GoLib.ascii, hre]

/-- The name of the table is valid. -/
theorem validateQualified_t : Sqlident.validateQualified "t" = none := by
  have hparts : ['t'].splitOn '.' = [['t']] := by decide
  have hpart : String.ofList (Sqlident.trim ['[', ']', '"'] ['t']) = "t" := by decide
  have hvalid : Sqlident.validate "t" = none := (validate_ascii "t" (by decide)).2 (by decide)
  simp [Sqlident.validateQualified, hparts, Sqlident.validateParts, hpart, hvalid]

/-- In a mode that nobody knows the SELECT is sent without a stored watermark. -/
theorem Dialect.read_unknown (d : Dialect) {mode : String} (happend : mode ≠ loadModeAppend)
    (hreplace : mode ≠ loadModeReplace) (hdelta : mode ≠ loadModeDelta) :
    ¬SeedsOnly (d.read (freshConfig mode)) := by
  have hfirst : Sql.isFirstRun (freshConfig mode) = false := by
    simp [Sql.isFirstRun, freshConfig, hdelta]
  have hother : ¬((freshConfig mode).mode = loadModeAppend ∨
      (freshConfig mode).mode = loadModeReplace) := by simp [freshConfig, happend, hreplace]
  have hcol : Sqlident.validate (freshConfig mode).watermarkColumn = none :=
    (validate_ascii "id" (by decide)).2 (by decide)
  have hname : Sqlident.validateQualified (freshConfig mode).objectName = none := validateQualified_t
  have hnumeric : (freshConfig mode).watermarkType = watermarkNumeric := rfl
  intro hseeds
  cases d with
  | sqlserver =>
    simp only [SeedsOnly, Dialect.read, Sqlserver.read, hfirst, Sqlserver.buildQuery,
      Sqlserver.quoteObject, Sqlident.quoteMSSQLQualified, hname, hother, hcol,
      Sqlserver.currentMaxWatermark, Sql.scanMax, hnumeric, if_true, if_false] at hseeds
    -- the answer to the MAX query, and then the SELECT
    exact (hseeds.2 (.ok none)).1
  | postgres =>
    simp only [SeedsOnly, Dialect.read, Postgres.read, hfirst, Postgres.buildQuery,
      Sqlident.quotePostgresQualified, hname, hother, hcol,
      Postgres.currentMaxWatermark, Sql.scanMax, hnumeric, if_true, if_false] at hseeds
    exact (hseeds.2 (.ok none)).1

end

/-! ## The runner -/

section

variable {S : Sig} {side : SourceSide S} {srv : SqlServer} {r : Runner S} {load : Load}
  {w w' : World side} {l : SysLog S} {err : Option Err}

/-- A delta load stores the watermark that `Read` has reported. -/
theorem Executes.persists (hk : r.sink.OnDb) {trace : List (Step (readSig S))} {result : ReadResult}
    {committed : Bool} (h : Executes srv r load w l (some ⟨trace, result, none, committed⟩) err w')
    (hmode : load.mode = loadModeDelta)
    (hne : result.newWatermark.value ≠ "")
    (hdiff : result.newWatermark.value ≠ w.store.watermark load.id) :
    ∃ o, .upsertWatermark load.id result.newWatermark.value o ∈ books l ∧
      (o = .ok → w'.store.watermark load.id = result.newWatermark.value) := by
  have hmem : ∃ o, .upsertWatermark load.id result.newWatermark.value o ∈ books l := by
    cases h with
    | leased hobtain hlease hrelease =>
      cases hlease with
      | @started w₁ w₂ w₃ _ _ _ _ wm _ _ _ _ hget hstart hmark hstarted =>
        cases hstarted with
        | @read w₄ w₅ _ l₁ l₂ l₃ _ _ _ _ _ _ _ _ _ hquiet hrepl hread hfinish =>
          cases hfinish with
          | commitFailed hreplace => exact absurd (hmode.symm.trans hreplace) (by decide)
          | @upsertFailed _ _ _ _ _ _ o => exact ⟨o, by simp [booked]⟩
          | @advanced _ _ _ _ _ _ o => exact ⟨o, by simp [booked]⟩
          | kept _ hadvances =>
            have hcurrent : (wm.map (·.value)).getD "" = w.store.watermark load.id := by
              rw [hget.getWatermark.2 wm rfl, hobtain.obtain.1]
              rfl
            rw [hcurrent] at hadvances
            simp [Runner.advances, hmode, hne, hdiff] at hadvances
  obtain ⟨o, hmem⟩ := hmem
  refine ⟨o, hmem, fun ho => ?_⟩
  cases h.moves hk with
  | kept _ hnone => cases hnone _ hmem
  | moved hafter _ honly =>
    obtain ⟨-, hv, rfl⟩ := Booked.upsertWatermark.inj (honly _ hmem rfl)
    rw [hafter, ← hv, ho]
    rfl

end

/-! ## Source and runner -/

section

variable [GoLib]

/-- Source and runner agree on the loads of a mode: without a stored watermark the read
    only seeds one, and a watermark that `Read` has reported is stored. -/
structure ModeAgrees (d : Dialect) (mode : String) : Prop where
  seeds : ∀ load : LoadConfig, load.mode = mode → load.lastWatermark.value = "" →
    SeedsOnly (d.read load)
  persists : ∀ {side : SourceSide sqlSig} {srv : SqlServer} {r : Runner sqlSig} {load : Load}
    {w w' : World side} {l : SysLog sqlSig} {err : Option Err}, r.read = d.read → r.sink.OnDb →
    load.source.kind = d.kind → load.mode = mode → World.Runs srv (r.execute load) w l err w' →
    ∃ read, ReadOf r load l read ∧ ∀ x, read = some x → x.err = none →
      x.result.newWatermark.value ≠ "" → x.result.newWatermark.value ≠ w.store.watermark load.id →
      ∃ o, .upsertWatermark load.id x.result.newWatermark.value o ∈ books l ∧
        (o = .ok → w'.store.watermark load.id = x.result.newWatermark.value)

omit [GoLib] in
theorem Dialect.pointBased {d : Dialect} {load : Load} (h : load.source.kind = d.kind) :
    Runner.pointBased load = load := by
  unfold Runner.pointBased
  rw [h, if_neg]
  cases d <;> decide

theorem modeAgrees_delta (d : Dialect) : ModeAgrees d loadModeDelta where
  seeds _ hmode hlast := d.read_seedsOnly hmode hlast
  persists := by
    intro side srv r load w w' l err _ hk hkind hmode h
    obtain ⟨read, hread, hx⟩ := execute_run hk h
    rw [Dialect.pointBased hkind] at hx
    refine ⟨read, hread, ?_⟩
    rintro ⟨trace, result, _, committed⟩ rfl rfl hne hdiff
    exact hx.persists hk hmode hne hdiff

/-- Where `buildQuery` filters by watermark, source and runner agree that the load is a
    delta load, if and only if the mode is one of the documented ones. -/
theorem modes_agree_iff (d : Dialect) (mode : String) :
    (mode ≠ loadModeAppend → mode ≠ loadModeReplace → ModeAgrees d mode) ↔
      mode = loadModeAppend ∨ mode = loadModeReplace ∨ mode = loadModeDelta := by
  constructor
  · intro hagrees
    by_contra hunknown
    simp only [not_or] at hunknown
    obtain ⟨happend, hreplace, hdelta⟩ := hunknown
    exact d.read_unknown happend hreplace hdelta
      ((hagrees happend hreplace).seeds (freshConfig mode) rfl rfl)
  · rintro (rfl | rfl | rfl) happend hreplace
    · exact absurd rfl happend
    · exact absurd rfl hreplace
    · exact modeAgrees_delta d

end

section

attribute [local instance] GoLib.ascii

/-- The number load in the mode `incremental`. -/
def incrementalLoad : Load := { numberLoad.load with mode := "incremental" }

/-- A first run of it in which every call succeeds. -/
def incrementalSchedule : List numberMachine.Event := List.replicate 15 (.answer .ok)

/-- The row is loaded, and the watermark that the run row shows is not stored. -/
theorem incremental_load_never_seeds :
    ∃ l w', World.Runs ⟨"wh", "dbo"⟩ (numberLoad.runner.execute incrementalLoad)
        (numberWorld increasing "" [number 2]) l none w' ∧
      ((sinkView w').content ⟨"dbo", "t"⟩).length = 1 ∧
      w'.store.runs.map (·.watermarkEnd) = ["2"] ∧ w'.store.watermark 1 = "" := by
  have heval : (numberMachine.exec incrementalSchedule (numberLoad.runner.execute incrementalLoad)
      (numberWorld increasing "" [number 2])).map (fun p =>
        (p.1, ((sinkView p.2).content ⟨"dbo", "t"⟩).length, p.2.store.runs.map (·.watermarkEnd),
          p.2.store.watermark 1)) = some (none, 1, ["2"], "") := by decide +kernel
  obtain ⟨⟨_, w'⟩, hx, hend⟩ := Option.map_eq_some_iff.1 heval
  simp only [Prod.mk.injEq] at hend
  obtain ⟨rfl, hrows, hruns, hwm⟩ := hend
  exact ⟨_, w', Machine.Runs.of_exec hx, hrows, hruns, hwm⟩

end

end DataLoader
