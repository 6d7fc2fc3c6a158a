import DataLoader.Sources.FeedSpec

/-!
# What a SQL `Read` does

`Read` over the view `ReadView`: the source as in `FeedView`, and the rows that
the handler has stored so far.

* `Progress`: what any `Read` does, also one that fails.
* `Completed`: what a `Read` that returns nil has done: it took MAX at one moment
  and, unless it only initialises the watermark, handed over all rows in range at
  a later one.
* `wp_read`: this holds of the `Read` of either module.
-/

namespace DataLoader

open Effects SourceRow Sql

open scoped List

variable [GoLib] {V : Type} [LinearOrder V]

/-- The system as a `Read` sees it, with the rows stored by its handler. -/
structure ReadView (V : Type) where
  feed : FeedView V
  out : List SinkRow

section

variable (col : WatermarkColumn V) (types : List ColumnType)
  (policy : TableChange V → List (SourceRow V) → Bool) (g : Checks V) (loadTS : Time)

/-- What one call of a `Read` does: a handler that returns nil has stored the
    rows of the batch, any other a part of something. -/
def readStep : (c : ReadCall sqlSig) → ReadView V → c.Ans → ReadView V → Prop
  | .driver c, u, r, u' => u.feed.Answers col types g c r u'.feed ∧ u'.out = u.out
  | .emit b, u, r, u' => u.feed.Drifts policy u'.feed ∧ ∃ D, u'.out = u.out ++ D ∧
      (r = none → Mssql.prepareRows b.columns loadTS b.rows = .ok D)

/-- The specification of what a `Read` can call. -/
def readSpec : Spec (readSig sqlSig) (ReadView V) where
  step := readStep col types policy g loadTS
  drift u u' := u.feed.Drifts policy u'.feed ∧ u'.out = u.out
  drift_refl u := ⟨.refl u.feed, rfl⟩
  drift_trans h h' := ⟨h.1.trans h'.1, h'.2.trans h.2⟩

variable (d : Dialect) (type : String)

/-- A SELECT above the stored watermark, of which there has to be one. -/
def AsksAbove (stored : String) (q : Select) : Prop :=
  stored ≠ "" ∧ ∃ obj c lo up, q = .range obj c lo up ∧ d.arg type stored = .ok lo

/-- What every `Read` does to the feed: rows change as others change them, and
    SELECTs sent have the stored watermark as their lower bound. -/
structure Progress (f f' : FeedView V) : Prop where
  rows : Evolves policy f.rows f'.rows
  stored : f'.stored = f.stored
  asked : ∃ qs, f'.asked = f.asked ++ qs ∧ ∀ q ∈ qs, AsksAbove d type f.stored q

/-- A `Read` that returned nil with the watermark `wm`, having stored `D`. -/
inductive Completed (f : FeedView V) (D : List SinkRow) (f' : FeedView V) (wm : String) : Prop
  /-- The first run takes MAX and reads nothing. -/
  | init {rows₁ : List (SourceRow V)} (hfirst : f.stored = "")
      (hbefore : Evolves policy f.rows rows₁) (hmax : g.max { f with rows := rows₁ } = true)
      (hwm : wm = mark col type (maxWm rows₁)) (hD : D = [])
      (hafter : Evolves policy rows₁ f'.rows) (hasked : f'.asked = f.asked)
  /-- Any other run takes MAX and then reads the rows above the stored watermark
      and at most that. -/
  | range {rows₁ rows₂ : List (SourceRow V)} {obj c : String} {lo up : SqlArg} {x y : V}
      (hfirst : f.stored ≠ "")
      (hbefore : Evolves policy f.rows rows₁) (hmax : g.max { f with rows := rows₁ } = true)
      (hwm : wm = mark col type (maxWm rows₁))
      (hbetween : Evolves policy rows₁ rows₂)
      (hrange : g.range lo up { f with rows := rows₂ } = true)
      (hlo : d.arg type f.stored = .ok lo) (hup : d.arg type wm = .ok up)
      (hx : lo.value col = some x) (hy : up.value col = some y)
      (hD : D.map (fun s => some s.cells) ~ (covered x y rows₂).map (d.image types))
      (hafter : Evolves policy rows₂ f'.rows)
      (hasked : f'.asked = f.asked ++ [.range obj c lo up])

end

variable {col : WatermarkColumn V} {types : List ColumnType}
  {policy : TableChange V → List (SourceRow V) → Bool} {g : Checks V} {loadTS : Time}

/-! ## Preparing rows -/

omit [LinearOrder V] in
theorem prepareRows_cons_eq_ok {columns : List Column} {row : Row} {rows : List Row}
    {D : List SinkRow} :
    Mssql.prepareRows columns loadTS (row :: rows) = .ok D ↔
      ∃ cells D₁, Mssql.prepareCells row columns = .ok cells ∧
        Mssql.prepareRows columns loadTS rows = .ok D₁ ∧ D = ⟨cells, loadTS⟩ :: D₁ := by
  rw [Mssql.prepareRows]
  cases Mssql.prepareCells row columns with
  | error e => simp
  | ok cells =>
    cases Mssql.prepareRows columns loadTS rows with
    | error e => simp [Except.map]
    | ok D₁ => simp [Except.map, eq_comm]

omit [LinearOrder V] in
theorem prepareRows_append {columns : List Column} {rows rows' : List Row} {D D' : List SinkRow}
    (h : Mssql.prepareRows columns loadTS rows = .ok D)
    (h' : Mssql.prepareRows columns loadTS rows' = .ok D') :
    Mssql.prepareRows columns loadTS (rows ++ rows') = .ok (D ++ D') := by
  induction rows generalizing D with
  | nil =>
    obtain rfl : [] = D := Except.ok.inj h
    simpa using h'
  | cons row rows ih =>
    obtain ⟨cells, D₁, hcells, hrows, rfl⟩ := prepareRows_cons_eq_ok.1 h
    exact prepareRows_cons_eq_ok.2 ⟨cells, D₁ ++ D', hcells, ih hrows, rfl⟩

omit [LinearOrder V] in
/-- The cells of prepared rows are the images of the source rows. -/
theorem map_cells_of_prepareRows {d : Dialect} {out : List (SourceRow V)} {D : List SinkRow}
    (h : Mssql.prepareRows (d.columns types) loadTS
      (out.map fun r => d.flavour.row (d.columns types) r.values) = .ok D) :
    D.map (fun s => some s.cells) = out.map (d.image types) := by
  induction out generalizing D with
  | nil =>
    obtain rfl : [] = D := Except.ok.inj h
    rfl
  | cons r out ih =>
    obtain ⟨cells, D₁, hcells, hrows, rfl⟩ := prepareRows_cons_eq_ok.1 h
    rw [List.map_cons, List.map_cons, ih hrows, Dialect.image, hcells]
    rfl

/-! ## Queries -/

theorem wp_driver (c : SqlCall) (u : ReadView V) :
    (readSpec col types policy g loadTS).wp (driver (S := sqlSig) c)
      (fun r u' => ∃ rows₁, Evolves policy u.feed.rows rows₁ ∧
        g.ok c { u.feed with rows := rows₁ } = true ∧ (∃ o, r = c.answer col types rows₁ o) ∧
        u' = ⟨⟨rows₁, u.feed.stored, u.feed.asked ++ (SysCall.select? (.source 0 c)).toList⟩,
          u.out⟩) u := by
  intro u₁ hdrift r u₂ hstep
  obtain ⟨⟨rows₁, stored₁, asked₁⟩, out₁⟩ := u₁
  obtain ⟨⟨hrows, hstored, hasked⟩, hout⟩ := hdrift
  obtain ⟨⟨hok, hans, hf⟩, hout₂⟩ := hstep
  simp only at hstored hasked hout hrows hf hok
  subst hstored hasked hout
  refine ⟨rows₁, hrows, hok, hans, ?_⟩
  obtain ⟨f₂, out₂⟩ := u₂
  simp only at hf hout₂
  rw [hf, hout₂]

/-- The MAX of a run, taken when the table held `rows₁`. -/
def MaxTaken (col : WatermarkColumn V) (policy : TableChange V → List (SourceRow V) → Bool)
    (g : Checks V) (type : String) (u : ReadView V) (wm : Except Err Watermark)
    (u' : ReadView V) : Prop :=
  ∃ rows₁, Evolves policy u.feed.rows rows₁ ∧ u' = { u with feed := { u.feed with rows := rows₁ } } ∧
    ∀ m, wm = .ok m → g.max u'.feed = true ∧ m = ⟨type, mark col type (maxWm rows₁)⟩

theorem wp_scanMax (obj c type : String) (u : ReadView V) :
    (readSpec col types policy g loadTS).wp (scanMax obj c type)
      (MaxTaken col policy g type u) u := by
  have hsame : ∀ rows₁, (⟨⟨rows₁, u.feed.stored, u.feed.asked ++ []⟩, u.out⟩ : ReadView V) =
      { u with feed := { u.feed with rows := rows₁ } } := fun rows₁ => by rw [List.append_nil]
  -- in each branch the answer is an error or the MAX of that moment
  unfold scanMax
  split_ifs with hdate hnum
  · refine Spec.wp_seq (wp_driver (.maxTime obj c) u) ?_
    rintro r u' ⟨rows₁, hrows, hok, ⟨o, rfl⟩, rfl⟩
    have hu := hsame rows₁
    cases o with
    | fail msg n => exact ⟨rows₁, hrows, hu, by simp⟩
    | ok =>
      simp only [SqlCall.answer]
      cases hmax : maxWm rows₁ with
      | none => exact ⟨rows₁, hrows, hu, fun m hm => ⟨hu ▸ hok, by cases hm; rw [hmax]; rfl⟩⟩
      | some v =>
        refine ⟨rows₁, hrows, hu, fun m hm => ⟨hu ▸ hok, ?_⟩⟩
        cases hm
        rw [hmax, mark, if_pos hdate]
  · refine Spec.wp_seq (wp_driver (.maxText obj c) u) ?_
    rintro r u' ⟨rows₁, hrows, hok, ⟨o, rfl⟩, rfl⟩
    have hu := hsame rows₁
    cases o with
    | fail msg n => exact ⟨rows₁, hrows, hu, by simp⟩
    | ok =>
      simp only [SqlCall.answer]
      cases hmax : maxWm rows₁ with
      | none => exact ⟨rows₁, hrows, hu, fun m hm => ⟨hu ▸ hok, by cases hm; rw [hmax]; rfl⟩⟩
      | some v =>
        refine ⟨rows₁, hrows, hu, fun m hm => ⟨hu ▸ hok, ?_⟩⟩
        cases hm
        rw [hmax, mark, if_neg hdate, if_pos hnum]
  · refine Spec.wp_seq (wp_driver (.maxText obj c) u) ?_
    rintro r u' ⟨rows₁, hrows, hok, ⟨o, rfl⟩, rfl⟩
    have hu := hsame rows₁
    cases o with
    | fail msg n => exact ⟨rows₁, hrows, hu, by simp⟩
    | ok =>
      refine ⟨rows₁, hrows, hu, fun m hm => ⟨hu ▸ hok, ?_⟩⟩
      cases hm
      cases hmax : maxWm rows₁ with
      | none => simp [mark]
      | some v => simp [mark, hdate, hnum]

/-- The configuration of a delta run with stored watermark `stored`. -/
structure DeltaConfig (cfg : LoadConfig) (type stored : String) : Prop where
  mode : cfg.mode = loadModeDelta
  wmType : cfg.watermarkType = type
  last : cfg.lastWatermark = ⟨type, stored⟩

/-- The query that `buildQuery` returns, and the watermark to persist. -/
def QueryBuilt (col : WatermarkColumn V) (policy : TableChange V → List (SourceRow V) → Bool)
    (g : Checks V) (d : Dialect) (cfg : LoadConfig) (type : String) (u : ReadView V)
    (r : Except Err (Select × Watermark)) (u' : ReadView V) : Prop :=
  MaxTaken col policy g type u (r.map (·.2)) u' ∧
    ∀ q m, r = .ok (q, m) → ¬(cfg.watermarkColumn = "" ∨ type = watermarkNone) ∧
      ∃ obj c lo up, q = .range obj c lo up ∧
        d.arg type u.feed.stored = .ok lo ∧ d.arg type m.value = .ok up

theorem MaxTaken.error (type : String) (e : Err) (u : ReadView V) :
    MaxTaken col policy g type u (.error e) u :=
  ⟨u.feed.rows, .refl, rfl, by simp⟩

theorem wp_currentMaxWatermark_sqlserver (obj c type : String) (u : ReadView V) :
    (readSpec col types policy g loadTS).wp (Sqlserver.currentMaxWatermark obj c type)
      (MaxTaken col policy g type u) u := by
  unfold Sqlserver.currentMaxWatermark
  cases Sqlident.validate c with
  | some e => exact .error type _ u
  | none => exact wp_scanMax ..

theorem wp_currentMaxWatermark_postgres (obj c type : String) (u : ReadView V) :
    (readSpec col types policy g loadTS).wp (Postgres.currentMaxWatermark obj c type)
      (MaxTaken col policy g type u) u := by
  unfold Postgres.currentMaxWatermark
  cases Sqlident.validate c with
  | some e => exact .error type _ u
  | none =>
    cases Sqlident.quotePostgresQualified obj with
    | error e => exact .error type _ u
    | ok obj => exact wp_scanMax ..

theorem QueryBuilt.error (d : Dialect) (cfg : LoadConfig) (type : String) (e : Err)
    (u : ReadView V) : QueryBuilt col policy g d cfg type u (.error e) u :=
  ⟨.error type e u, by simp⟩

theorem QueryBuilt.of_error {d : Dialect} {cfg : LoadConfig} {type : String} {e : Err} {u u' : ReadView V}
    {r : Except Err Watermark} (h : MaxTaken col policy g type u r u') :
    QueryBuilt col policy g d cfg type u (.error e) u' := by
  obtain ⟨rows₁, hrows, hu, -⟩ := h
  exact ⟨⟨rows₁, hrows, hu, by simp [Except.map]⟩, by simp⟩

theorem wp_buildQuery_sqlserver {cfg : LoadConfig} {type : String} {u : ReadView V}
    (hcfg : DeltaConfig cfg type u.feed.stored) :
    (readSpec col types policy g loadTS).wp (Sqlserver.buildQuery cfg)
      (QueryBuilt col policy g .sqlserver cfg type u) u := by
  unfold Sqlserver.buildQuery
  cases Sqlserver.quoteObject cfg.objectName with
  | error e => exact .error _ cfg type _ u
  | ok obj =>
  simp only [hcfg.mode, hcfg.wmType, hcfg.last]
  rw [if_neg (by decide)]
  split_ifs with hnone
  · exact .error _ cfg type _ u
  · cases Sqlident.validate cfg.watermarkColumn with
    | some e => exact .error _ cfg type _ u
    | none =>
      refine Spec.wp_seq (wp_currentMaxWatermark_sqlserver obj _ type u) ?_
      intro r u' hmax
      cases r with
      | error e => exact .of_error hmax
      | ok upper =>
        refine ⟨hmax, fun q m h => ?_⟩
        cases h
        exact ⟨hnone, _, _, _, _, rfl, rfl, rfl⟩

theorem wp_buildQuery_postgres {cfg : LoadConfig} {type : String} {u : ReadView V}
    (hcfg : DeltaConfig cfg type u.feed.stored) :
    (readSpec col types policy g loadTS).wp (Postgres.buildQuery cfg)
      (QueryBuilt col policy g .postgres cfg type u) u := by
  unfold Postgres.buildQuery
  cases Sqlident.quotePostgresQualified cfg.objectName with
  | error e => exact .error _ cfg type _ u
  | ok obj =>
  simp only [hcfg.mode, hcfg.wmType, hcfg.last]
  rw [if_neg (by decide)]
  split_ifs with hnone
  · exact .error _ cfg type _ u
  · cases Sqlident.validate cfg.watermarkColumn with
    | some e => exact .error _ cfg type _ u
    | none =>
      refine Spec.wp_seq (wp_currentMaxWatermark_postgres cfg.objectName _ type u) ?_
      intro r u' hmax
      cases r with
      | error e => exact .of_error hmax
      | ok upper =>
        cases hlast : Postgres.parseWatermark ⟨type, u.feed.stored⟩ with
        | error e => exact .of_error hmax
        | ok last =>
          dsimp only
          cases hup : Postgres.parseWatermark upper with
          | error e => exact .of_error hmax
          | ok up =>
            refine ⟨hmax, fun q m h => ?_⟩
            cases h
            obtain ⟨rows₁, -, -, hm⟩ := hmax
            rw [(hm upper rfl).2] at hup
            exact ⟨hnone, _, _, _, _, rfl, hlast, by rw [(hm upper rfl).2]; exact hup⟩

/-! ## The loop -/

/-- `readLoop` hands over what was pending and the rows it scanned, up to what is
    pending at its end. -/
theorem wp_readLoop (f : Flavour) (columns : List Column) (size : ℕ)
    (hs : List (Except Err (List Value))) (pending : List Row) (n : Int) (u : ReadView V) :
    (readSpec col types policy g loadTS).wp (readLoop f columns size hs pending n)
      (fun r u' => u.feed.Drifts policy u'.feed ∧ ∃ D, u'.out = u.out ++ D ∧
        ∀ rest m, r = .ok (rest, m) → ∃ (vals : List (List Value)) (written : List Row),
          hs = vals.map .ok ∧
          pending ++ vals.map (f.row columns) = written ++ rest ∧
          Mssql.prepareRows columns loadTS written = .ok D) u := by
  induction hs generalizing pending n u with
  | nil =>
    refine ⟨.refl _, [], by simp, fun rest m h => ⟨[], [], rfl, ?_, rfl⟩⟩
    cases h
    simp
  | cons h hs ih =>
    cases h with
    | error e => exact ⟨.refl _, [], by simp, by simp⟩
    | ok vs =>
      simp only [readLoop]
      split_ifs with hfull
      · -- the batch is full: what it held is written, or the loop ends with an error
        intro u₁ hdrift e u₂ hstep
        obtain ⟨hdrift₂, D, hout, hprep⟩ := hstep
        have hfeed := hdrift.1.trans hdrift₂
        rw [hdrift.2] at hout
        cases e with
        | some e => exact ⟨hfeed, D, hout, by simp⟩
        | none =>
          refine Spec.wp_mono (ih [] (n + 1) u₂) ?_
          rintro r u' ⟨hdrift', D', hout', hok⟩
          refine ⟨hfeed.trans hdrift', D ++ D', by rw [hout', hout, List.append_assoc], ?_⟩
          intro rest m hr
          obtain ⟨vals, written, rfl, hsplit, hprep'⟩ := hok rest m hr
          refine ⟨vs :: vals, _, rfl, ?_, prepareRows_append (hprep rfl) hprep'⟩
          rw [List.append_assoc, ← hsplit]
          simp
      · refine Spec.wp_mono (ih (pending ++ [f.row columns vs]) (n + 1) u) ?_
        rintro r u' ⟨hdrift', D', hout', hok⟩
        refine ⟨hdrift', D', hout', fun rest m hr => ?_⟩
        obtain ⟨vals, written, rfl, hsplit, hprep'⟩ := hok rest m hr
        exact ⟨vs :: vals, written, rfl, by simpa using hsplit, hprep'⟩

/-- A SELECT over a range that goes through hands over the rows in range at the
    moment it is sent. -/
theorem wp_readRows (d : Dialect) (size : Int) (obj c : String) (lo up : SqlArg) (wm : Watermark)
    (u : ReadView V) :
    (readSpec col types policy g loadTS).wp (readRows d.flavour size (.range obj c lo up) wm)
      (fun res u' => Evolves policy u.feed.rows u'.feed.rows ∧ u'.feed.stored = u.feed.stored ∧
        u'.feed.asked = u.feed.asked ++ [.range obj c lo up] ∧ ∃ D, u'.out = u.out ++ D ∧
        (res.2 = none → res.1.newWatermark = wm ∧ res.1.watermarkInit = false ∧
          ∃ rows₂ x y, Evolves policy u.feed.rows rows₂ ∧
            g.range lo up { u.feed with rows := rows₂ } = true ∧
            lo.value col = some x ∧ up.value col = some y ∧
            D.map (fun s => some s.cells) ~ (covered x y rows₂).map (d.image types) ∧
            Evolves policy rows₂ u'.feed.rows)) u := by
  unfold readRows
  refine Spec.wp_seq (wp_driver (.query (.range obj c lo up)) u) ?_
  rintro r u₁ ⟨rows₂, hrows, hok, ⟨o, hr⟩, rfl⟩
  match r, hr with
  | .error e, _ => exact ⟨hrows, rfl, rfl, [], by simp, by simp⟩
  | .ok cur, hr =>
  dsimp only
  cases htypes : cur.columnTypes with
  | error e => exact ⟨hrows, rfl, rfl, [], by simp, by simp⟩
  | ok ts =>
  refine Spec.wp_seq (wp_readLoop d.flavour (ts.map d.flavour.column) _ cur.rows [] 0 _) ?_
  rintro r u₂ ⟨hdrift, D, hout, hloop⟩
  have hrows₂ : Evolves policy u.feed.rows u₂.feed.rows := Relation.ReflTransGen.trans hrows hdrift.rows
  cases r with
  | error e => exact ⟨hrows₂, hdrift.stored, hdrift.asked, D, hout, by simp⟩
  | ok res =>
  obtain ⟨pending, n⟩ := res
  dsimp only
  obtain ⟨vals, written, hvals, hsplit, hprep⟩ := hloop pending n rfl
  cases herr : cur.err with
  | some e => exact ⟨hrows₂, hdrift.stored, hdrift.asked, D, hout, by simp⟩
  | none =>
  -- the rows of the result set are those in range, in the order of the column
  obtain ⟨out, hsel, hcur⟩ := Select.answer_ok hr.symm
  obtain ⟨x, y, hx, hy, rfl⟩ := Select.range_rows_ok hsel
  obtain ⟨rfl, rfl⟩ := Outcome.cursor_ok hcur htypes hvals herr
  have hdone : ∀ D', Mssql.prepareRows (d.columns ts) loadTS (written ++ pending) = .ok D' →
      D'.map (fun s => some s.cells) ~ (covered x y rows₂).map (d.image ts) := by
    intro D' hD'
    rw [← hsplit, List.nil_append, List.map_map] at hD'
    rw [map_cells_of_prepareRows hD']
    exact (List.mergeSort_perm ..).map _
  dsimp only
  split_ifs with hempty
  · refine ⟨hrows₂, hdrift.stored, hdrift.asked, D, hout, fun _ => ⟨rfl, rfl, rows₂, x, y, hrows,
      hok, hx, hy, hdone D ?_, hdrift.rows⟩⟩
    rw [List.isEmpty_iff.1 hempty, List.append_nil]
    exact hprep
  · intro u₃ hdrift₃ e u₄ hstep
    obtain ⟨hdrift₄, D', hout', hprep'⟩ := hstep
    have hdrift' := (hdrift.trans hdrift₃.1).trans hdrift₄
    have hrows₄ : Evolves policy u.feed.rows u₄.feed.rows :=
      Relation.ReflTransGen.trans hrows hdrift'.rows
    have hout₄ : u₄.out = u.out ++ (D ++ D') := by
      rw [hout', hdrift₃.2, hout, List.append_assoc]
    cases e with
    | some e => exact ⟨hrows₄, hdrift'.stored, hdrift'.asked, D ++ D', hout₄, by simp⟩
    | none =>
      exact ⟨hrows₄, hdrift'.stored, hdrift'.asked, D ++ D', hout₄, fun _ => ⟨rfl, rfl, rows₂, x, y,
        hrows, hok, hx, hy, hdone _ (prepareRows_append hprep (hprep' rfl)), hdrift'.rows⟩⟩

/-! ## `Read` -/

/-- What a `Read` does, with the result it returns. -/
def ReadDone (col : WatermarkColumn V) (types : List ColumnType)
    (policy : TableChange V → List (SourceRow V) → Bool) (g : Checks V) (d : Dialect)
    (type : String) (u : ReadView V) (res : ReadResult × Option Err) (u' : ReadView V) : Prop :=
  Progress policy d type u.feed u'.feed ∧ ∃ D, u'.out = u.out ++ D ∧
    (res.2 = none → Completed col types policy g d type u.feed D u'.feed res.1.newWatermark.value ∧
      (res.1.watermarkInit = true ↔ u.feed.stored = ""))

theorem ReadDone.failed {d : Dialect} {type : String} {u u' : ReadView V} {r : ReadResult} {e : Err}
    {m : Except Err Watermark} (h : MaxTaken col policy g type u m u') :
    ReadDone col types policy g d type u (r, some e) u' := by
  obtain ⟨rows₁, hrows, rfl, -⟩ := h
  exact ⟨⟨hrows, rfl, [], by simp, by simp⟩, [], by simp, by simp⟩

/-- The first run of a load. -/
theorem wp_initialize {d : Dialect} {type : String} {u : ReadView V} (hfirst : u.feed.stored = "")
    {p : Prog (readSig sqlSig) (Except Err Watermark)}
    (hp : (readSpec col types policy g loadTS).wp p (MaxTaken col policy g type u) u) :
    (readSpec col types policy g loadTS).wp
      (do match ← p with
          | .error e => return ({}, some ("initialize watermark: " ++ e))
          | .ok upper => return ({ newWatermark := upper, watermarkInit := true }, none))
      (ReadDone col types policy g d type u) u := by
  refine Spec.wp_seq hp ?_
  intro r u' hmax
  cases r with
  | error e => exact .failed hmax
  | ok upper =>
    obtain ⟨rows₁, hrows, rfl, hm⟩ := hmax
    obtain ⟨hg, rfl⟩ := hm upper rfl
    exact ⟨⟨hrows, rfl, [], by simp, by simp⟩, [], by simp,
      fun _ => ⟨.init hfirst hrows hg rfl rfl .refl rfl, by simp [hfirst]⟩⟩

/-- Any other run. -/
theorem wp_select {d : Dialect} {cfg : LoadConfig} {type : String} {u : ReadView V}
    (hcfg : DeltaConfig cfg type u.feed.stored) (hfirst : isFirstRun cfg = false)
    {p : Prog (readSig sqlSig) (Except Err (Select × Watermark))}
    (hp : (readSpec col types policy g loadTS).wp p (QueryBuilt col policy g d cfg type u) u) :
    (readSpec col types policy g loadTS).wp
      (do match ← p with
          | .error e => return ({}, some e)
          | .ok (q, newWM) => readRows d.flavour cfg.batchSize q newWM)
      (ReadDone col types policy g d type u) u := by
  refine Spec.wp_seq hp ?_
  intro r u₁ hbuilt
  obtain ⟨hmax, hquery⟩ := hbuilt
  match r with
  | .error e => exact .failed hmax
  | .ok (q, m) =>
    obtain ⟨hnone, obj, c, lo, up, rfl, hlo, hup⟩ := hquery q m rfl
    have hstored : u.feed.stored ≠ "" := by
      intro hempty
      simp [isFirstRun, hcfg.mode, hcfg.wmType, hcfg.last, hempty] at hfirst
      exact hnone (by tauto)
    obtain ⟨rows₁, hrows₁, rfl, hm⟩ := hmax
    obtain ⟨hg, rfl⟩ := hm m rfl
    refine Spec.wp_mono (wp_readRows d cfg.batchSize obj c lo up _ _) ?_
    rintro res u' ⟨hrows, hst, hasked, D, hout, hdone⟩
    refine ⟨⟨Relation.ReflTransGen.trans hrows₁ hrows, hst, _, hasked, ?_⟩, D, hout, fun hnil => ?_⟩
    · intro q hq
      obtain rfl := List.mem_singleton.1 hq
      exact ⟨hstored, obj, c, lo, up, rfl, hlo⟩
    · obtain ⟨hwm, hinit, rows₂, x, y, hrows₂, hrange, hx, hy, hD, hafter⟩ := hdone hnil
      rw [hwm, hinit]
      exact ⟨.range hstored hrows₁ hg rfl hrows₂ hrange hlo hup hx hy hD hafter hasked,
        by simp [hstored]⟩

theorem wp_read (d : Dialect) {cfg : LoadConfig} {type : String} {u : ReadView V}
    (hcfg : DeltaConfig cfg type u.feed.stored) :
    (readSpec col types policy g loadTS).wp (d.read cfg) (ReadDone col types policy g d type u) u := by
  have hstored : isFirstRun cfg = true → u.feed.stored = "" := by
    intro h
    simp only [isFirstRun, hcfg.last, Bool.and_eq_true, decide_eq_true_eq] at h
    exact h.2
  cases d with
  | sqlserver =>
    change (readSpec col types policy g loadTS).wp (Sqlserver.read cfg) _ u
    unfold Sqlserver.read
    by_cases hfirst : isFirstRun cfg = true
    · rw [if_pos hfirst]
      cases Sqlserver.quoteObject cfg.objectName with
      | error e => exact .failed (.error type e u)
      | ok obj =>
        exact wp_initialize (hstored hfirst) (hcfg.wmType ▸ wp_currentMaxWatermark_sqlserver ..)
    · rw [if_neg hfirst]
      exact wp_select hcfg (by simpa using hfirst) (wp_buildQuery_sqlserver hcfg)
  | postgres =>
    change (readSpec col types policy g loadTS).wp (Postgres.read cfg) _ u
    unfold Postgres.read
    by_cases hfirst : isFirstRun cfg = true
    · rw [if_pos hfirst]
      exact wp_initialize (hstored hfirst) (hcfg.wmType ▸ wp_currentMaxWatermark_postgres ..)
    · rw [if_neg hfirst]
      exact wp_select hcfg (by simpa using hfirst) (wp_buildQuery_postgres hcfg)

end DataLoader
