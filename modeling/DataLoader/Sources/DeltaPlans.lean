import DataLoader.Sources.ReadSpec

/-!
# The two SQL sources plan a delta run alike

`readTable` is the `Read` of a module on a table that does not change, with database
calls that succeed and a handler that takes every batch.

* `delta_plans_alike_iff`: on the same table and stored watermark the two modules hand
  over the same rows and report the same, if and only if the table has a MAX or its
  database accepts the empty upper bound. The PostgreSQL module parses a datetime bound
  on the client, and an empty text is no time.
-/

namespace DataLoader

open Effects SourceRow Sql

open scoped List

variable {V : Type} [LinearOrder V]

/-- The answers of a database that holds `rows`, and of a handler that takes every batch.
    The state is the batches handed over so far. -/
def tableAnswer (col : WatermarkColumn V) (types : List ColumnType) (rows : List (SourceRow V)) :
    (c : ReadCall sqlSig) → List Batch → Option (c.Ans × List Batch)
  | .driver c, bs => some (c.answer col types rows .ok, bs)
  | .emit b, bs => some (none, bs ++ [b])

section

variable [GoLib] (d : Dialect) (col : WatermarkColumn V) (types : List ColumnType)
  (rows : List (SourceRow V)) (load : LoadConfig)

/-- `Read` on a table: its result and the batches that it hands over. -/
def readTable : Option ((ReadResult × Option Err) × List Batch) :=
  (d.read load).eval (tableAnswer col types rows) []

/-- `Read` returns nil, hands over the rows `out` and reports their number and the
    watermark `wm`. -/
def ReadsTable (out : List (SourceRow V)) (wm : String) : Prop :=
  ∃ result batches, readTable d col types rows load = some ((result, none), batches) ∧
    batches.flatMap (·.rows) = out.map (fun r => d.flavour.row (d.columns types) r.values) ∧
    result.rowsRead = out.length ∧ result.newWatermark.value = wm

end

/-! ## The parts of `Read` -/

section

variable [GoLib] {col : WatermarkColumn V} {types : List ColumnType} {rows : List (SourceRow V)}
  {bs : List Batch}

omit [GoLib] in
theorem driver_eval {α : Type} {c : SqlCall} {k : c.Ans → Prog (readSig sqlSig) α} {r : c.Ans}
    {res : Option (α × List Batch)} (hr : c.answer col types rows .ok = r)
    (hk : (k r).eval (tableAnswer col types rows) bs = res) :
    (driver (S := sqlSig) c >>= k).eval (tableAnswer col types rows) bs = res := by
  subst hr
  exact hk

variable (col types rows) in
theorem scanMax_eval (obj c type : String) :
    (scanMax obj c type).eval (tableAnswer col types rows) bs =
      some (.ok ⟨type, mark col type (maxWm rows)⟩, bs) := by
  unfold scanMax
  split_ifs with htime hnumeric
  all_goals
    refine Prog.eval_call (S := readSig sqlSig) rfl ?_
    cases hmax : maxWm rows with
    | none => simp [SqlCall.answer, hmax, mark]; rfl
    | some m => simp [SqlCall.answer, mark, *]; rfl

variable (col types rows bs) in
omit [GoLib] in
/-- The loop hands over what was pending and the rows of the result set, up to what is
    pending at its end. -/
theorem readLoop_eval (f : Flavour) (columns : List Column) (size : ℕ) (vals : List (List Value))
    (pending : List Row) (n : Int) :
    ∃ rest bs', (readLoop f columns size (vals.map .ok) pending n).eval
        (tableAnswer col types rows) bs = some (.ok (rest, n + vals.length), bs') ∧
      bs'.flatMap (·.rows) ++ rest =
        bs.flatMap (·.rows) ++ pending ++ vals.map (f.row columns) := by
  induction vals generalizing pending n bs with
  | nil => exact ⟨pending, bs, by simp [readLoop]; rfl, by simp⟩
  | cons v vals ih =>
    simp only [List.map_cons, readLoop]
    have hcount : n + 1 + (vals.length : Int) = n + ((v :: vals).length : Int) := by
      rw [List.length_cons]
      omega
    split_ifs
    · obtain ⟨rest, bs', heval, hrows⟩ := ih (bs ++ [⟨columns, pending ++ [f.row columns v]⟩])
        [] (n + 1)
      refine ⟨rest, bs', ?_, ?_⟩
      · rw [← hcount]
        exact heval
      · rw [hrows]
        simp
    · obtain ⟨rest, bs', heval, hrows⟩ := ih bs (pending ++ [f.row columns v]) (n + 1)
      refine ⟨rest, bs', ?_, ?_⟩
      · rw [← hcount]
        exact heval
      · rw [hrows]
        simp

variable (types bs) in
omit [GoLib] in
/-- A SELECT that goes through. -/
theorem readRows_eval (f : Flavour) (size : Int) {q : Select} (wm : Watermark)
    {out : List (SourceRow V)} (hq : q.rows col rows = .ok out) :
    ∃ bs', (readRows f size q wm).eval (tableAnswer col types rows) bs =
        some (({ rowsRead := out.length, newWatermark := wm }, none), bs') ∧
      bs'.flatMap (·.rows) =
        bs.flatMap (·.rows) ++ out.map (fun r => f.row (types.map f.column) r.values) := by
  have hanswer : SqlCall.answer col types rows .ok (.query q) =
      .ok ⟨.ok types, (out.map (·.values)).map .ok, none⟩ := by
    simp only [SqlCall.answer, Select.answer, hq, Outcome.cursor, List.map_map]
    rfl
  obtain ⟨rest, bs₁, hloop, hrows⟩ := readLoop_eval col types rows bs
    f (types.map f.column) (effectiveBatchSize size) (out.map (·.values)) [] 0
  have hcount : (0 : Int) + ((out.map (·.values)).length : Int) = out.length := by
    rw [List.length_map]
    omega
  rw [hcount] at hloop
  have hall : bs₁.flatMap (·.rows) ++ rest =
      bs.flatMap (·.rows) ++ out.map (fun r => f.row (types.map f.column) r.values) := by
    simpa [Function.comp_def] using hrows
  by_cases hempty : rest.isEmpty = true
  · refine ⟨bs₁, driver_eval hanswer (Prog.eval_bind hloop ?_), ?_⟩
    · simp only [hempty, if_true]
      rfl
    · rw [← hall, List.isEmpty_iff.1 hempty, List.append_nil]
  · refine ⟨bs₁ ++ [⟨types.map f.column, rest⟩], driver_eval hanswer (Prog.eval_bind hloop ?_), ?_⟩
    · simp only [hempty]
      rfl
    · rw [← hall]
      simp

omit [GoLib] in
/-- A SELECT whose bounds the database cannot convert. -/
theorem readRows_eval_error (f : Flavour) (size : Int) {q : Select} (wm : Watermark) {e : Err}
    (hq : q.rows col rows = .error e) :
    (readRows f size q wm).eval (tableAnswer col types rows) bs =
      some (({}, some (f.queryErr e)), bs) := by
  have hanswer : SqlCall.answer col types rows .ok (.query q) = .error e := by
    simp only [SqlCall.answer, Select.answer, hq]
    rfl
  exact driver_eval hanswer rfl

end

/-! ## `Read` of a delta run -/

/-- The names that both modules accept. -/
def ValidNames [GoLib] (load : LoadConfig) : Prop :=
  Sqlident.validateQualified load.objectName = none ∧ Sqlident.validate load.watermarkColumn = none

section

variable [GoLib] {d : Dialect} {col : WatermarkColumn V} {types : List ColumnType}
  {rows : List (SourceRow V)} {load : LoadConfig} {type stored : String}

omit [GoLib] in
theorem DeltaConfig.not_first (h : DeltaConfig load type stored) (hstored : stored ≠ "") :
    isFirstRun load = false := by
  simp [isFirstRun, h.last, hstored]

omit [GoLib] in
theorem DeltaConfig.filtered (h : DeltaConfig load type stored) :
    ¬(load.mode = loadModeAppend ∨ load.mode = loadModeReplace) := by
  rw [h.mode]
  decide

/-- A delta run needs a column and a type. -/
theorem ValidNames.watermarked (hnames : ValidNames load) (htype : type ≠ watermarkNone) :
    ¬(load.watermarkColumn = "" ∨ type = watermarkNone) := by
  rintro (hcol | hnone)
  · exact (Sqlident.validate_eq_none.1 hnames.2).1 hcol
  · exact htype hnone

variable (col types rows) in
theorem Sqlserver.buildQuery_eval (hload : DeltaConfig load type stored)
    (htype : type ≠ watermarkNone) (hnames : ValidNames load) :
    ∃ obj c, (Sqlserver.buildQuery load).eval (tableAnswer col types rows) [] =
      some (.ok (.range obj c (.text stored) (.text (mark col type (maxWm rows))),
        ⟨type, mark col type (maxWm rows)⟩), []) := by
  obtain ⟨obj, hobj⟩ : ∃ obj, Sqlserver.quoteObject load.objectName = .ok obj := by
    rw [Sqlserver.quoteObject, Sqlident.quoteMSSQLQualified, hnames.1]
    exact ⟨_, rfl⟩
  refine ⟨obj, String.ofList (Sqlident.quoteMSSQL load.watermarkColumn.toList), ?_⟩
  unfold Sqlserver.buildQuery Sqlserver.currentMaxWatermark
  simp only [hobj, if_neg hload.filtered, if_neg (hnames.watermarked htype), hnames.2,
    hload.last, hload.wmType]
  exact Prog.eval_bind (scanMax_eval col types rows _ _ _) rfl

variable (col types rows) in
theorem Postgres.buildQuery_eval (hload : DeltaConfig load type stored)
    (htype : type ≠ watermarkNone) (hnames : ValidNames load) {lo : SqlArg}
    (hlo : Postgres.parseWatermark ⟨type, stored⟩ = .ok lo) :
    ∃ obj c, (Postgres.buildQuery load).eval (tableAnswer col types rows) [] =
      some ((Postgres.parseWatermark ⟨type, mark col type (maxWm rows)⟩).map fun up =>
        (.range obj c lo up, ⟨type, mark col type (maxWm rows)⟩), []) := by
  obtain ⟨obj, hobj⟩ : ∃ obj, Sqlident.quotePostgresQualified load.objectName = .ok obj := by
    rw [Sqlident.quotePostgresQualified, hnames.1]
    exact ⟨_, rfl⟩
  refine ⟨obj, String.ofList (Sqlident.quotePostgres load.watermarkColumn.toList), ?_⟩
  unfold Postgres.buildQuery Postgres.currentMaxWatermark
  simp only [hobj, if_neg hload.filtered, if_neg (hnames.watermarked htype), hnames.2,
    hload.last, hload.wmType, hlo]
  refine Prog.eval_bind (scanMax_eval col types rows _ _ _) ?_
  dsimp only
  cases Postgres.parseWatermark ⟨type, mark col type (maxWm rows)⟩ with
  | error e => rfl
  | ok up => rfl

variable (col types rows) in
/-- The plan of a delta run: MAX, and then the SELECT between the two bounds. -/
theorem readTable_eval (hload : DeltaConfig load type stored) (hstored : stored ≠ "")
    (htype : type ≠ watermarkNone) (hnames : ValidNames load) {lo : SqlArg}
    (hlo : d.arg type stored = .ok lo) :
    (∀ e, d.arg type (mark col type (maxWm rows)) = .error e →
      readTable d col types rows load = some (({}, some e), [])) ∧
    ∀ up, d.arg type (mark col type (maxWm rows)) = .ok up → ∃ obj c,
      readTable d col types rows load = (readRows d.flavour load.batchSize (.range obj c lo up)
        ⟨type, mark col type (maxWm rows)⟩).eval (tableAnswer col types rows) [] := by
  have hfirst := hload.not_first hstored
  cases d with
  | sqlserver =>
    obtain rfl := Except.ok.inj hlo
    obtain ⟨obj, c, hquery⟩ := Sqlserver.buildQuery_eval col types rows
      hload htype hnames
    refine ⟨fun e he => (by cases he), fun up hup => ⟨obj, c, ?_⟩⟩
    obtain rfl := Except.ok.inj hup
    unfold readTable Dialect.read Sqlserver.read
    simp only [hfirst]
    exact Prog.eval_bind hquery rfl
  | postgres =>
    obtain ⟨obj, c, hquery⟩ := Postgres.buildQuery_eval col types rows
      hload htype hnames hlo
    unfold readTable Dialect.read Postgres.read
    simp only [hfirst]
    refine ⟨fun e he => ?_, fun up hup => ⟨obj, c, ?_⟩⟩
    · rw [show Postgres.parseWatermark _ = _ from he] at hquery
      exact Prog.eval_bind hquery rfl
    · rw [show Postgres.parseWatermark _ = _ from hup] at hquery
      exact Prog.eval_bind hquery rfl

variable (types) in
/-- Bounds that the database can compare give the rows between them. -/
theorem reads_between (hload : DeltaConfig load type stored) (hstored : stored ≠ "")
    (htype : type ≠ watermarkNone) (hnames : ValidNames load) {lo up : SqlArg} {x y : V}
    (hlo : d.arg type stored = .ok lo) (hx : lo.value col = some x)
    (hup : d.arg type (mark col type (maxWm rows)) = .ok up) (hy : up.value col = some y) :
    ReadsTable d col types rows load ((covered x y rows).mergeSort wmLe) (mark col type (maxWm rows)) := by
  obtain ⟨obj, c, hread⟩ := (readTable_eval col types rows hload hstored htype hnames hlo).2 up hup
  have hrows : (Select.range obj c lo up).rows col rows = .ok ((covered x y rows).mergeSort wmLe) := by
    simp only [Select.rows, hx, hy]
  obtain ⟨batches, heval, hall⟩ := readRows_eval types [] d.flavour
    load.batchSize ⟨type, mark col type (maxWm rows)⟩ hrows
  exact ⟨_, batches, hread.trans heval, by simpa [Dialect.columns] using hall, rfl, rfl⟩

/-- A bound that cannot be passed or compared fails the read. -/
theorem not_reads (hload : DeltaConfig load type stored) (hstored : stored ≠ "")
    (htype : type ≠ watermarkNone) (hnames : ValidNames load) {lo : SqlArg}
    (hlo : d.arg type stored = .ok lo)
    (hup : d.bound col type (mark col type (maxWm rows)) = none)
    {out : List (SourceRow V)} {wm : String} : ¬ReadsTable d col types rows load out wm := by
  rintro ⟨result, batches, hread, -⟩
  obtain ⟨herror, hok⟩ := readTable_eval col types rows hload hstored
    htype hnames hlo
  cases harg : d.arg type (mark col type (maxWm rows)) with
  | error e =>
    rw [herror e harg] at hread
    cases hread
  | ok up =>
    obtain ⟨obj, c, heval⟩ := hok up harg
    have hvalue : up.value col = none := by
      rw [Dialect.bound, harg] at hup
      exact hup
    have hrows : (Select.range obj c lo up).rows col rows = .error "conversion failed" := by
      simp only [Select.rows, hvalue]
      cases lo.value col <;> rfl
    rw [heval, readRows_eval_error _ _ _ hrows] at hread
    cases hread

theorem sqlserver_refuses_names (hload : DeltaConfig load type stored) (hstored : stored ≠ "")
    (hnames : ¬ValidNames load) {out : List (SourceRow V)} {wm : String} :
    ¬ReadsTable .sqlserver col types rows load out wm := by
  rintro ⟨result, batches, hread, -⟩
  have hfirst := hload.not_first hstored
  unfold readTable Dialect.read Sqlserver.read Sqlserver.buildQuery at hread
  simp only [hfirst, Bool.false_eq_true, if_false] at hread
  cases hname : Sqlident.validateQualified load.objectName with
  | some e =>
    simp only [Sqlserver.quoteObject, Sqlident.quoteMSSQLQualified, hname] at hread
    cases hread
  | none =>
    simp only [Sqlserver.quoteObject, Sqlident.quoteMSSQLQualified, hname, if_neg hload.filtered] at hread
    cases hcol : Sqlident.validate load.watermarkColumn with
    | none => exact hnames ⟨hname, hcol⟩
    | some e =>
      simp only [hcol] at hread
      split_ifs at hread <;> cases hread

end

/-! ## The two modules -/

section

variable [GoLib]

/-- Both modules return nil, hand over the same rows, which are those above the stored
    `u` up to MAX, and report the same number and watermark; without a MAX there are no
    rows and no watermark. -/
def PlansAlike (colS colP : WatermarkColumn V) (typesS typesP : List ColumnType)
    (rows : List (SourceRow V)) (load : LoadConfig) (u : V) : Prop :=
  ∃ out wm, ReadsTable .sqlserver colS typesS rows load out wm ∧
    ReadsTable .postgres colP typesP rows load out wm ∧
    (∀ m, maxWm rows = some m → out ~ covered u m rows) ∧
    (maxWm rows = none → out = [] ∧ wm = "")

/-- The same table in both databases, which render its watermarks alike and read them
    back as they were: the modules plan a delta run above the stored watermark of `u`
    alike if and only if the names are valid and the table has a MAX, or the type is
    numeric and both databases accept the empty text as a bound. -/
theorem delta_plans_alike_iff {colS colP : WatermarkColumn V} (htext : colP.text = colS.text)
    (htime : colP.time = colS.time) {type : String}
    (htype : type = watermarkDatetime ∨ type = watermarkNumeric)
    (hS : Dialect.sqlserver.Faithful colS type) (hP : Dialect.postgres.Faithful colP type)
    (typesS typesP : List ColumnType) (rows : List (SourceRow V)) {load : LoadConfig} {u : V}
    (hload : DeltaConfig load type (mark colS type (some u)))
    (hstored : mark colS type (some u) ≠ "") :
    PlansAlike colS colP typesS typesP rows load u ↔
      ValidNames load ∧ (maxWm rows ≠ none ∨
        type = watermarkNumeric ∧ colS.ofText "" ≠ none ∧ colP.ofText "" ≠ none) := by
  have hmark : ∀ m, mark colP type m = mark colS type m := by
    intro m
    cases m <;> simp [mark, htext, htime]
  have hnone : type ≠ watermarkNone := by
    rcases htype with rfl | rfl <;> decide
  obtain ⟨loS, hloS, hxS⟩ := Dialect.arg_of_bound (hS u)
  obtain ⟨loP, hloP, hxP⟩ := Dialect.arg_of_bound (hP u)
  rw [hmark] at hloP
  constructor
  · rintro ⟨out, wm, hreadS, hreadP, -⟩
    have hnames : ValidNames load := by
      by_contra hinvalid
      exact sqlserver_refuses_names hload hstored hinvalid hreadS
    refine ⟨hnames, ?_⟩
    by_cases hmax : maxWm rows = none
    · -- the upper bound is the empty text, and both modules have passed it
      have hboundS : Dialect.sqlserver.bound colS type "" ≠ none := by
        intro hbound
        exact not_reads hload hstored hnone hnames hloS (by rw [hmax]; exact hbound) hreadS
      have hboundP : Dialect.postgres.bound colP type "" ≠ none := by
        intro hbound
        exact not_reads hload hstored hnone hnames hloP (by rw [hmax]; exact hbound) hreadP
      refine .inr ?_
      rcases htype with rfl | rfl
      · exact absurd Dialect.postgres_bound_datetime_empty hboundP
      · exact ⟨rfl, hboundS, hboundP⟩
    · exact .inl hmax
  · rintro ⟨hnames, hbound⟩
    cases hmax : maxWm rows with
    | some m =>
      obtain ⟨upS, hupS, hyS⟩ := Dialect.arg_of_bound (hS m)
      obtain ⟨upP, hupP, hyP⟩ := Dialect.arg_of_bound (hP m)
      have hreadS := reads_between typesS hload hstored hnone hnames hloS hxS
        (by rw [hmax]; exact hupS) hyS
      have hreadP := reads_between typesP hload hstored hnone hnames hloP hxP
        (by rw [hmax]; exact hupP) hyP
      rw [hmark] at hreadP
      refine ⟨_, _, hreadS, hreadP, fun m' hm' => ?_, fun hn => (by cases hmax.symm.trans hn)⟩
      obtain rfl := Option.some.inj (hmax.symm.trans hm')
      exact List.mergeSort_perm ..
    | none =>
      obtain ⟨rfl, hS₀, hP₀⟩ := hbound.resolve_left (fun hne => hne hmax)
      obtain ⟨yS, hyS⟩ := Option.ne_none_iff_exists'.1 hS₀
      obtain ⟨yP, hyP⟩ := Option.ne_none_iff_exists'.1 hP₀
      have hreadS := reads_between typesS hload hstored hnone hnames hloS hxS
        (show Dialect.sqlserver.arg _ _ = .ok (.text "") by rw [hmax]; rfl) hyS
      have hreadP := reads_between typesP hload hstored hnone hnames hloP hxP
        (show Dialect.postgres.arg _ _ = .ok (.text "") by rw [hmax]; rfl) hyP
      have hempty : ∀ x y, (covered x y rows).mergeSort wmLe = [] := by
        intro x y
        rw [covered, Feed.between_of_top_none hmax, List.mergeSort_nil]
      rw [hempty] at hreadS hreadP
      rw [hmark, hmax] at hreadP
      rw [hmax] at hreadS
      exact ⟨[], _, hreadS, hreadP, fun m hm => (by cases hmax.symm.trans hm), fun _ => ⟨rfl, rfl⟩⟩

end

/-! ## Fixed tables -/

section

attribute [local instance] GoLib.ascii

/-- A delta load of the table `t` above the stored number 1. -/
def numberConfig : LoadConfig :=
  { loadID := 1, name := "load", objectName := "t", mode := loadModeDelta, watermarkColumn := "id"
    watermarkType := watermarkNumeric, lastWatermark := ⟨watermarkNumeric, "1"⟩, batchSize := 0 }

theorem numberConfig_delta :
    DeltaConfig numberConfig watermarkNumeric (mark intColumn watermarkNumeric (some 1)) :=
  ⟨rfl, rfl, by decide⟩

theorem numbers_plan_alike :
    PlansAlike intColumn intColumn [⟨"id", "BIGINT", false⟩] [⟨"id", "INT8", false⟩]
      [⟨some 1, [.int64 1]⟩, ⟨some 2, [.int64 2]⟩] numberConfig 1 :=
  (delta_plans_alike_iff rfl rfl (.inr rfl) (faithful_intColumn _) (faithful_intColumn _) _ _ _
    numberConfig_delta (by decide)).2
    ⟨by unfold ValidNames; decide, .inl (by decide)⟩

end

/-- A library that knows one instant, the beginning of Unix time. -/
@[reducible] def GoLib.epoch : GoLib :=
  { GoLib.ascii with
    formatTime := fun _ => "1970-01-01T00:00:00Z"
    parseTime := fun s => if s = "1970-01-01T00:00:00Z" then .ok 0 else .error "cannot parse"
    parseTime_empty := fun _ h => by cases h }

/-- A datetime column of SQL Server, which reads the empty text as the year 1900. -/
def datetimeColumn : WatermarkColumn Time where
  time := id
  text _ := "1970-01-01T00:00:00Z"
  ofTime := some
  ofText s :=
    if s = "" then some (-2208988800000000000)
    else if s = "1970-01-01T00:00:00Z" then some 0 else none

section

attribute [local instance] GoLib.epoch

/-- A delta load of the table `t` above the stored beginning of Unix time. -/
def epochConfig : LoadConfig :=
  { loadID := 1, name := "load", objectName := "t", mode := loadModeDelta, watermarkColumn := "at"
    watermarkType := watermarkDatetime
    lastWatermark := ⟨watermarkDatetime, "1970-01-01T00:00:00Z"⟩, batchSize := 0 }

/-- On an empty table the SQL Server module returns nil, and the PostgreSQL module fails
    after its only query has succeeded. -/
theorem empty_table_fails_postgres :
    readTable .sqlserver datetimeColumn [] [] epochConfig =
        some (({ newWatermark := ⟨watermarkDatetime, ""⟩ }, none), []) ∧
      readTable .postgres datetimeColumn [] [] epochConfig =
        some (({}, some "cannot parse"), []) := by
  constructor <;> decide +kernel

end

end DataLoader
