import DataLoader.Pipeline.AllOrNothing
import DataLoader.Pipeline.AppendSpec
import DataLoader.Pipeline.Delivered

/-!
# The target and the source table

Loads of a SQL source that read the whole table, from the source to the sink.

* `RowsEmitted`: the batches of such a `Read`.
* `PartOfTable`, `CopyOfTable`: rows of the sink that are rows of the source table, or all of
  them, as it was at a moment of a run; `batches_of_table`.
* `replace_is_snapshot`: the target of a replace load is a copy of the source table as it was
  during one run, and stays that until a later run replaces it.
* `append_adds_snapshots`: every successful run of an append load adds such a copy, and no run
  adds anything else.
-/

namespace DataLoader

open Effects Mssql

open scoped List

/-! ## Paths of a full read -/

section

variable {f : Sql.Flavour} {columns : List Column} {size : ℕ}

open Sql

theorem rowsOf_map_ok (f : Flavour) (columns : List Column) (vals : List (List Value)) :
    f.rowsOf columns (vals.map .ok) = vals.map (f.row columns) := by
  induction vals with
  | nil => rfl
  | cons v vals ih => rw [List.map_cons, Flavour.rowsOf_cons, ih, List.map_cons]

/-- The loop hands over rows of the result set in order, and all but the pending ones if it gets
    to the end. -/
theorem readLoop_emits {rows : List (Except Err (List Value))} {pending : List Row} {n : Int}
    {tr : List (Step (readSig sqlSig))} {res : Except Err (List Row × Int)}
    (h : (readLoop f columns size rows pending n).Path tr res) :
    (∀ b ∈ emittedBatches tr, b.columns = columns) ∧
      (emittedBatches tr).flatMap (·.rows) <+: pending ++ f.rowsOf columns rows ∧
      ∀ rest m, res = .ok (rest, m) → ∃ vals : List (List Value), rows = vals.map .ok ∧
        (emittedBatches tr).flatMap (·.rows) ++ rest = pending ++ vals.map (f.row columns) := by
  induction rows generalizing pending n tr with
  | nil =>
    obtain ⟨rfl, rfl⟩ := Prog.Path.of_ret h
    refine ⟨by simp, List.nil_prefix, ?_⟩
    rintro rest m ⟨⟩
    exact ⟨[], rfl, by simp⟩
  | cons row rows ih =>
    cases row with
    | error e =>
      obtain ⟨rfl, rfl⟩ := Prog.Path.of_ret h
      exact ⟨by simp, List.nil_prefix, fun _ _ hres => by cases hres⟩
    | ok holders =>
      unfold readLoop at h
      dsimp only at h
      split_ifs at h
      · obtain ⟨e, tr', rfl, hrest⟩ := Prog.Path.of_perform h
        cases e with
        | some e =>
          obtain ⟨rfl, rfl⟩ := Prog.Path.of_ret hrest
          exact ⟨by simp, by simp, fun _ _ hres => by cases hres⟩
        | none =>
          obtain ⟨hcolumns, hrows, hall⟩ := ih hrest
          refine ⟨by simpa using hcolumns, by simpa using hrows, fun rest m hres => ?_⟩
          obtain ⟨vals, rfl, hvals⟩ := hall rest m hres
          exact ⟨holders :: vals, rfl, by simpa using hvals⟩
      · obtain ⟨hcolumns, hrows, hall⟩ := ih h
        refine ⟨hcolumns, by simpa using hrows, fun rest m hres => ?_⟩
        obtain ⟨vals, rfl, hvals⟩ := hall rest m hres
        exact ⟨holders :: vals, rfl, by simpa using hvals⟩

/-- How the part of `Read` after `buildQuery` ends. -/
inductive RowsEmitted (f : Flavour) (q : Select) : List (Step (readSig sqlSig)) → Option Err → Prop
  | unread {tr : List (Step (readSig sqlSig))} {e : Err} (hnone : emittedBatches tr = []) :
      RowsEmitted f q tr (some e)
  | read {cur : Cursor} {types : List ColumnType} {tr : List (Step (readSig sqlSig))}
      {err : Option Err} (hquery : ⟨.driver (.query q), .ok cur⟩ ∈ tr)
      (htypes : cur.columnTypes = .ok types)
      (hcolumns : ∀ b ∈ emittedBatches tr, b.columns = types.map f.column)
      (hrows : (emittedBatches tr).flatMap (·.rows) <+: f.rowsOf (types.map f.column) cur.rows)
      (hall : err = none → cur.err = none ∧ ∃ vals : List (List Value), cur.rows = vals.map .ok ∧
        (emittedBatches tr).flatMap (·.rows) = vals.map (f.row (types.map f.column))) :
      RowsEmitted f q tr err

theorem readRows_emits {batchSize : Int} {q : Select} {wm : Watermark}
    {tr : List (Step (readSig sqlSig))} {result : ReadResult} {err : Option Err}
    (h : (readRows f batchSize q wm).Path tr (result, err)) : RowsEmitted f q tr err := by
  unfold readRows at h
  obtain ⟨ans, tr', rfl, hrest⟩ := Prog.Path.of_perform h
  cases ans with
  | error e =>
    obtain ⟨rfl, rfl, rfl⟩ := Prog.Path.of_ret_pair hrest
    exact .unread rfl
  | ok cur =>
  dsimp only at hrest
  cases htypes : cur.columnTypes with
  | error e =>
    rw [htypes] at hrest
    obtain ⟨rfl, rfl, rfl⟩ := Prog.Path.of_ret_pair hrest
    exact .unread rfl
  | ok types =>
  rw [htypes] at hrest
  obtain ⟨res, tr₁, tr₂, hloop, hend, rfl⟩ := Prog.Path.of_bind hrest
  obtain ⟨hcolumns, hrows, hall⟩ := readLoop_emits hloop
  have hread : ∀ {tr' : List (Step (readSig sqlSig))} {err : Option Err},
      (∀ b ∈ emittedBatches tr', b.columns = types.map f.column) →
      (emittedBatches tr').flatMap (·.rows) <+: f.rowsOf (types.map f.column) cur.rows →
      (err = none → cur.err = none ∧ ∃ vals : List (List Value), cur.rows = vals.map .ok ∧
        (emittedBatches tr').flatMap (·.rows) = vals.map (f.row (types.map f.column))) →
      RowsEmitted f q (⟨.driver (.query q), .ok cur⟩ :: tr') err :=
    fun hcolumns hrows hall => .read List.mem_cons_self htypes hcolumns hrows hall
  cases res with
  | error e =>
    obtain ⟨rfl, rfl, rfl⟩ := Prog.Path.of_ret_pair hend
    exact hread (by simpa using hcolumns) (by simpa using hrows) nofun
  | ok res =>
  obtain ⟨rest, m⟩ := res
  obtain ⟨vals, hvals, hflat⟩ := hall rest m rfl
  have hscan : f.rowsOf (types.map f.column) cur.rows = vals.map (f.row (types.map f.column)) := by
    rw [hvals]
    exact rowsOf_map_ok f _ vals
  dsimp only at hend
  cases herr : cur.err with
  | some e =>
    rw [herr] at hend
    obtain ⟨rfl, rfl, rfl⟩ := Prog.Path.of_ret_pair hend
    exact hread (by simpa using hcolumns) (by simpa using hrows) nofun
  | none =>
  rw [herr] at hend
  dsimp only at hend
  split_ifs at hend with hempty
  · obtain ⟨rfl, rfl, rfl⟩ := Prog.Path.of_ret_pair hend
    refine hread (by simpa using hcolumns) (by simpa using hrows) fun _ => ⟨herr, vals, hvals, ?_⟩
    rw [List.isEmpty_iff.1 hempty] at hflat
    simpa using hflat
  · obtain ⟨e, tr₃, rfl, hret⟩ := Prog.Path.of_perform hend
    have htr₃ : tr₃ = [] ∧ err = e := by
      cases e with
      | some e =>
        obtain ⟨hres, rfl⟩ := Prog.Path.of_ret hret
        exact ⟨rfl, (Prod.mk.inj hres).2⟩
      | none =>
        obtain ⟨hres, rfl⟩ := Prog.Path.of_ret hret
        exact ⟨rfl, (Prod.mk.inj hres).2⟩
    obtain ⟨rfl, rfl⟩ := htr₃
    have hflat' : (emittedBatches (tr₁ ++ [⟨.emit ⟨types.map f.column, rest⟩, err⟩])).flatMap (·.rows) =
        vals.map (f.row (types.map f.column)) := by
      simpa using hflat
    refine hread ?_ (by rw [hflat', hscan]) fun _ => ⟨herr, vals, hvals, hflat'⟩
    simpa [or_imp, forall_and] using hcolumns

end

section

variable [GoLib]

/-- `Read` of a load that reads the whole table. -/
theorem Dialect.read_emits (d : Dialect) {load : LoadConfig}
    (hmode : load.mode = loadModeAppend ∨ load.mode = loadModeReplace)
    {tr : List (Step (readSig sqlSig))} {result : ReadResult} {err : Option Err}
    (h : (d.read load).Path tr (result, err)) : ∃ obj, RowsEmitted d.flavour (.all obj) tr err := by
  have hdelta : load.mode ≠ loadModeDelta := by
    rcases hmode with hmode | hmode <;> rw [hmode] <;> decide
  have hfirst : ¬Sql.isFirstRun load = true := by simp [Sql.isFirstRun, hdelta]
  cases d with
  | sqlserver =>
    unfold Dialect.read Sqlserver.read Sqlserver.buildQuery at h
    simp only [if_neg hfirst, if_pos hmode] at h
    cases hobj : Sqlserver.quoteObject load.objectName with
    | error e =>
      rw [hobj] at h
      obtain ⟨rfl, rfl, rfl⟩ := Prog.Path.of_ret_pair h
      exact ⟨"", .unread rfl⟩
    | ok obj =>
      rw [hobj] at h
      exact ⟨obj, readRows_emits h⟩
  | postgres =>
    unfold Dialect.read Postgres.read Postgres.buildQuery at h
    simp only [if_neg hfirst, if_pos hmode] at h
    cases hobj : Sqlident.quotePostgresQualified load.objectName with
    | error e =>
      rw [hobj] at h
      obtain ⟨rfl, rfl, rfl⟩ := Prog.Path.of_ret_pair h
      exact ⟨"", .unread rfl⟩
    | ok obj =>
      rw [hobj] at h
      exact ⟨obj, readRows_emits h⟩

/-! ## The rows in the sink -/

/-- The cells of a row under the columns of its batch, if the sink accepts it. -/
def cellsUnder (columns : List Column) (row : Row) : Option (List (String × Value)) :=
  (prepareCells row columns).toOption

theorem cellsOf_prepareRows {columns : List Column} {loadTS : Time} {rows : List Row}
    {D : List SinkRow} (h : prepareRows columns loadTS rows = .ok D) :
    cellsOf D = rows.map (cellsUnder columns) := by
  induction rows generalizing D with
  | nil =>
    obtain rfl : [] = D := Except.ok.inj h
    rfl
  | cons row rows ih =>
    obtain ⟨cells, D₁, hcells, hrows, rfl⟩ := prepareRows_cons_eq_ok.1 h
    have hcell : cellsUnder columns row = some cells := by rw [cellsUnder, hcells]; rfl
    rw [List.map_cons, ← ih hrows, hcell]
    rfl

theorem cellsOf_storedRows {columns : List Column} {loadTS : Time} {bs : List Batch}
    (hcolumns : ∀ b ∈ bs, b.columns = columns) {D : List SinkRow}
    (h : storedRows loadTS bs = .ok D) :
    cellsOf D = (bs.flatMap (·.rows)).map (cellsUnder columns) := by
  induction bs generalizing D with
  | nil =>
    obtain rfl : [] = D := Except.ok.inj h
    rfl
  | cons b bs ih =>
    obtain ⟨hb, hbs⟩ := List.forall_mem_cons.1 hcolumns
    rw [storedRows, hb] at h
    cases hrows : prepareRows columns loadTS b.rows with
    | error e =>
      rw [hrows] at h
      cases h
    | ok rows =>
      rw [hrows] at h
      cases hrest : storedRows loadTS bs with
      | error e =>
        rw [hrest] at h
        cases h
      | ok rest =>
        rw [hrest] at h
        obtain rfl := Except.ok.inj h
        rw [cellsOf_append, cellsOf_prepareRows hrows, ih hbs hrest, List.flatMap_cons, List.map_append]

theorem cellsOf_preparedRows {columns : List Column} (loadTS : Time) {bs : List Batch}
    (hcolumns : ∀ b ∈ bs, b.columns = columns) :
    cellsOf (bs.flatMap (preparedRows loadTS)) <+ (bs.flatMap (·.rows)).map (cellsUnder columns) := by
  induction bs with
  | nil => exact .refl _
  | cons b bs ih =>
    obtain ⟨hb, hbs⟩ := List.forall_mem_cons.1 hcolumns
    have hone : cellsOf (preparedRows loadTS b) <+ b.rows.map (cellsUnder columns) := by
      rw [preparedRows, hb]
      cases hrows : prepareRows columns loadTS b.rows with
      | error e => exact List.nil_sublist _
      | ok rows => rw [cellsOf_prepareRows hrows]
    rw [List.flatMap_cons, cellsOf_append, List.flatMap_cons, List.map_append]
    exact hone.append (ih hbs)

/-! ## Copies of the table -/

variable {V : Type} [LinearOrder V] {col : WatermarkColumn V} {types : List ColumnType}
  {policy : TableChange V → List (SourceRow V) → Bool} {srv : SqlServer} {d : Dialect}

omit [GoLib] [LinearOrder V] in
/-- A result set holds the first of the selected rows, before its error if it has one. -/
theorem scanned_cursor {out : List (SourceRow V)} {o : Outcome} {cur : Cursor} {ts : List ColumnType}
    (h : o.cursor types out = .ok cur) (hts : cur.columnTypes = .ok ts) :
    ts = types ∧ Sql.scanned cur.rows <+: out.map (·.values) := by
  have hscan : ∀ (vals : List (SourceRow V)) (rest : List (Except Err (List Value))),
      Sql.scanned rest = [] → Sql.scanned (vals.map (.ok ·.values) ++ rest) = vals.map (·.values) := by
    intro vals rest hrest
    induction vals with
    | nil => exact hrest
    | cons v vals ih => exact congrArg (v.values :: ·) ih
  unfold Outcome.cursor at h
  split at h
  · obtain rfl := Except.ok.inj h
    refine ⟨(Except.ok.inj hts).symm, ?_⟩
    have hall := hscan out [] rfl
    rw [List.append_nil] at hall
    rw [hall]
  · cases h
  · obtain rfl := Except.ok.inj h
    cases hts
  · rename_i msg n
    simp only at h
    split_ifs at h with heven
    · obtain rfl := Except.ok.inj h
      refine ⟨(Except.ok.inj hts).symm, ?_⟩
      have htaken := hscan (out.take (n / 2)) [] rfl
      rw [List.append_nil] at htaken
      rw [htaken]
      exact (List.take_prefix (n / 2) out).map _
    · obtain rfl := Except.ok.inj h
      refine ⟨(Except.ok.inj hts).symm, ?_⟩
      rw [hscan (out.take (n / 2)) [.error msg] rfl]
      exact (List.take_prefix (n / 2) out).map _

omit [LinearOrder V] in
theorem map_image (rows : List (SourceRow V)) :
    rows.map (d.image types) = ((rows.map (·.values)).map (d.flavour.row (d.columns types))).map
      (cellsUnder (d.columns types)) := by
  rw [List.map_map, List.map_map]
  rfl

/-- `D` are rows of the source table as it was at a moment of the run `x`. -/
def PartOfTable (d : Dialect)
    (x : (World.machine srv (sqlSide col types policy)).TimedRun (Option Err)) (D : List SinkRow) : Prop :=
  ∃ v ∈ x.moments, cellsOf D <+~ v.src.map (d.image types)

/-- `D` are all rows of the source table as it was at a moment of the run. -/
def CopyOfTable (d : Dialect)
    (x : (World.machine srv (sqlSide col types policy)).TimedRun (Option Err)) (D : List SinkRow) : Prop :=
  ∃ v ∈ x.moments, cellsOf D ~ v.src.map (d.image types)

/-- The batches of a run are rows of the table at a moment of the run, and all of them if the
    run has got to the end of its `Read`. -/
theorem batches_of_table {r : Runner sqlSig} (hsink : r.sink = Mssql.sink) (hread : r.read = d.read)
    {load : Load} (hmode : (Runner.pointBased load).mode = loadModeAppend ∨
      (Runner.pointBased load).mode = loadModeReplace)
    {x : (World.machine srv (sqlSide col types policy)).TimedRun (Option Err)}
    (h : Machine.Ran (r.execute load) x) :
    ∃ bs, (sinkView x.after).delivered = (sinkView x.before).delivered ++ bs ∧
      (∀ loadTS D, D <+ bs.flatMap (preparedRows loadTS) → PartOfTable d x D) ∧
      (x.result = none ∨ (sinkView x.after).finishes ≠ (sinkView x.before).finishes →
        ∀ loadTS D, storedRows loadTS bs = .ok D → CopyOfTable d x D) := by
  have hk : r.sink.OnDb := hsink ▸ Mssql.sink_onDb
  have hc : r.sink.Counts := hsink ▸ Mssql.sink_counts
  obtain ⟨current, read, -, hshows, hdel, hfailed⟩ := execute_reads hk hc h.runs
  refine ⟨read.elim [] ReadRun.batches, hdel, ?_⟩
  have hunread : read.elim [] ReadRun.batches = [] → (∀ y, read = some y → y.err ≠ none) →
      (∀ loadTS D, D <+ (read.elim [] ReadRun.batches).flatMap (preparedRows loadTS) →
        PartOfTable d x D) ∧
      (x.result = none ∨ (sinkView x.after).finishes ≠ (sinkView x.before).finishes →
        ∀ loadTS D, storedRows loadTS (read.elim [] ReadRun.batches) = .ok D → CopyOfTable d x D) := by
    intro hnil hnone
    refine ⟨fun loadTS D hD => ?_, fun hend => ?_⟩
    · rw [hnil] at hD
      obtain rfl := List.sublist_nil.1 hD
      exact ⟨x.before, List.mem_cons_self, List.nil_subperm⟩
    · obtain ⟨herr, hfin⟩ := hfailed hnone
      rcases hend with hend | hend
      · exact absurd hend herr
      · exact absurd hfin hend
  cases read with
  | none => exact hunread rfl nofun
  | some y =>
  obtain ⟨tr, result, rerr⟩ := y
  have hmoment := fun c a => hshows.moment h (c := c) (a := a)
  cases hshows with
  | read hpath hevents =>
    rw [hread] at hpath
    obtain ⟨obj, hemits⟩ := d.read_emits hmode hpath
    cases hemits with
    | unread hnone =>
      refine hunread hnone ?_
      rintro _ ⟨⟩
      exact nofun
    | @read cur ts _ _ hquery htypes hcolumns hrows hall =>
      obtain ⟨v, hv, src, o, hanswer⟩ := hmoment _ _ hquery
      have hselect : (Select.all obj).answer col types v.src o = .ok cur := hanswer
      obtain ⟨out, hout, hcursor⟩ := Select.answer_ok hselect
      obtain rfl : v.src = out := Except.ok.inj hout
      obtain ⟨rfl, hscanned⟩ := scanned_cursor hcursor htypes
      have himages : List.map (d.image ts) v.src = _ := map_image v.src
      refine ⟨fun loadTS D hD => ⟨v, hv, ?_⟩, fun hend loadTS D hD => ⟨v, hv, ?_⟩⟩
      · have hcells : cellsOf D <+ cellsOf ((emittedBatches tr).flatMap (preparedRows loadTS)) :=
          hD.map _
        have hsub := (hcells.trans (cellsOf_preparedRows loadTS hcolumns)).trans
          ((hrows.sublist.map _).trans ((hscanned.sublist.map _).map _))
        exact hsub.subperm.trans (List.Perm.of_eq himages.symm).subperm
      · have hrerr : rerr = none := by
          by_contra hne
          obtain ⟨herr, hfin⟩ := hfailed fun _ heq => Option.some.inj heq ▸ hne
          rcases hend with hend | hend
          · exact herr hend
          · exact hend hfin
        obtain ⟨hiter, vals, hvals, hflat⟩ := hall hrerr
        obtain ⟨-, rfl⟩ := Outcome.cursor_ok hcursor htypes hvals hiter
        have hcells := cellsOf_storedRows hcolumns hD
        rw [hflat] at hcells
        exact .of_eq (hcells.trans himages.symm)

/-! ## Histories -/

variable {t : TargetTable}

/-- What one run of a replace load leaves in the target. -/
theorem replace_run_copies {l : ReplaceLoad sqlSig t} (hread : l.runner.read = d.read)
    (hname : NamesItself srv t)
    {x : (World.machine srv (sqlSide col types policy)).TimedRun (Option Err)}
    (h : Machine.Ran l.execute x) :
    (x.result ≠ none ∧ x.after.db.tables t = x.before.db.tables t) ∨
      CopyOfTable d x ((sinkView x.after).content t) := by
  have hpoint : Runner.pointBased l.load = l.load := if_neg (not_or.2 l.kind)
  have hmode : (Runner.pointBased l.load).mode = loadModeReplace := by rw [hpoint, l.mode]
  obtain ⟨bs, hdel, -, hcopy⟩ := batches_of_table l.sink hread (.inr hmode) h
  have hfinished : (sinkView x.after).finishes = (sinkView x.before).finishes + 1 →
      (sinkView x.after).finishes ≠ (sinkView x.before).finishes :=
    fun heq => heq ▸ Nat.succ_ne_self _
  have hstg : t ∉ [staging t] := by simpa using (staging_ne t).symm
  obtain ⟨es, hx, -⟩ := h
  cases (sinkSpec_meets srv _).exec (wp_execute l (sinkView x.before)) hx with
  | failed hfail =>
    exact .inl ⟨hfail.err, hfail.off t (by simpa using ⟨(staging_ne t).symm, (old_ne t).symm⟩)⟩
  | nothing habsent hfin hdel' hoff =>
    -- no batch came, and the target is still missing
    obtain rfl : bs = [] := List.append_right_eq_self.1 (hdel.symm.trans hdel')
    have hcontent : (sinkView x.after).content t = [] := by
      rw [SinkView.content, hoff t hstg, habsent]
      rfl
    rw [hcontent]
    exact .inr (hcopy (.inr (hfinished hfin)) 0 [] rfl)
  | @published bs' loadTS rows a hrows _ hobj hfin hdel' _ hlive =>
    obtain rfl : bs' = bs := List.append_cancel_left (hdel'.symm.trans hdel)
    have hcontent : (sinkView x.after).content t = rows := by
      rw [SinkView.content, hlive (hname a hobj)]
      rfl
    rw [hcontent]
    exact .inr (hcopy (.inr (hfinished hfin)) loadTS rows hrows)

/-- The target of a replace load is a copy of the source table as it was at a moment of one of
    the runs, and every later run has failed; or no run has touched it, and all have failed. -/
theorem replace_is_snapshot {l : ReplaceLoad sqlSig t} (hread : l.runner.read = d.read)
    (hname : NamesItself srv t) {w w' : World (sqlSide col types policy)}
    {hs : List ((World.machine srv (sqlSide col types policy)).HEvent Unit)}
    {rs : List ((World.machine srv (sqlSide col types policy)).TimedRun (Option Err))}
    (h : (World.machine srv (sqlSide col types policy)).timeline (fun _ => l.execute) hs w =
      some (rs, w')) :
    (w'.db.tables t = w.db.tables t ∧ ∀ x ∈ rs, x.result ≠ none) ∨
      ∃ rs₁ x rs₂, rs = rs₁ ++ x :: rs₂ ∧ (∀ y ∈ rs₂, y.result ≠ none) ∧
        CopyOfTable d x ((sinkView w').content t) := by
  refine Machine.timeline_inv (l := []) (I := fun rs w' =>
    (w'.db.tables t = w.db.tables t ∧ ∀ x ∈ rs, x.result ≠ none) ∨
      ∃ rs₁ x rs₂, rs = rs₁ ++ x :: rs₂ ∧ (∀ y ∈ rs₂, y.result ≠ none) ∧
        CopyOfTable d x ((sinkView w').content t))
    ?_ ?_ (.inl ⟨rfl, by simp⟩) h
  · intro rs w₁ e w₂ hI he
    have hdb := (World.env_db he).1
    have hcontent : (sinkView w₂).content t = (sinkView w₁).content t :=
      congrArg (fun db : Db => (db.tables t).getD []) hdb
    rw [hdb, hcontent]
    exact hI
  · intro rs i x hI hran
    rcases replace_run_copies hread hname hran with ⟨herr, hsame⟩ | hcopy
    · -- a failed run leaves the target to the runs before it
      have hcontent : (sinkView x.after).content t = (sinkView x.before).content t :=
        congrArg (Option.getD · []) hsame
      rcases hI with ⟨hold, hfailed⟩ | ⟨rs₁, y, rs₂, rfl, hfailed, hcopy⟩
      · exact .inl ⟨hsame.trans hold, List.forall_mem_append.2 ⟨hfailed, by simpa using herr⟩⟩
      · refine .inr ⟨rs₁, y, rs₂ ++ [x], by simp,
          List.forall_mem_append.2 ⟨hfailed, by simpa using herr⟩, ?_⟩
        rw [hcontent]
        exact hcopy
    · exact .inr ⟨rs, _, [], rfl, by simp, hcopy⟩

/-- Over every history of an append load the target grows run by run: by rows of the source
    table as it was at a moment of the run, all of them if the run succeeded. No other table
    changes. -/
theorem append_adds_snapshots {l : AppendLoad sqlSig t} (hread : l.runner.read = d.read)
    (hmode : (Runner.pointBased l.load).mode = loadModeAppend)
    {w w' : World (sqlSide col types policy)}
    {hs : List ((World.machine srv (sqlSide col types policy)).HEvent Unit)}
    {rs : List ((World.machine srv (sqlSide col types policy)).TimedRun (Option Err))}
    (h : (World.machine srv (sqlSide col types policy)).timeline (fun _ => l.execute) hs w =
      some (rs, w')) :
    ∃ parts, List.Forall₂ (fun x D => PartOfTable d x D ∧
        (x.result = none → CopyOfTable d x D)) rs parts ∧
      (sinkView w').content t = (sinkView w).content t ++ parts.flatten ∧
      ∀ u ≠ t, w'.db.tables u = w.db.tables u := by
  refine append_history ?_ h
  intro x bs loadTS D hran hdel hsub hall
  obtain ⟨bs', hdel', hpart, hcopy⟩ := batches_of_table l.sink hread (.inl hmode) hran
  obtain rfl : bs = bs' := List.append_cancel_left (hdel.symm.trans hdel')
  exact ⟨hpart loadTS D hsub, fun hnone => hcopy (.inl hnone) loadTS D (hall hnone)⟩

end

section

attribute [local instance] GoLib.ascii GoText.ascii GoFloat.finite GoOpcua.plain

/-- The number load in replace mode. -/
def mirrorLoad : ReplaceLoad sqlSig ⟨"dbo", "t"⟩ where
  runner := numberLoad.runner
  load := { numberLoad.load with mode := loadModeReplace }
  sink := rfl
  mode := rfl
  kind := by decide
  target := rfl
  reports := SourceKind.reports (.sql .sqlserver)

/-- A run copies the table; after an insert the next run fails in its last statement. -/
def mirrorRuns : Option (List (numberMachine.TimedRun (Option Err)) × World (numberSide increasing)) :=
  numberMachine.timeline (fun _ => mirrorLoad.execute)
    [.run () (List.replicate 26 (.answer .ok)), .env (.change (.insert (number 2))),
      .run () (List.replicate 19 (.answer .ok) ++ .answer (.fail "lost" 0) ::
        List.replicate 7 (.answer .ok))]
    (numberWorld increasing "" [number 1])

theorem mirrorRuns_snapshot :
    ∃ rs w', mirrorRuns = some (rs, w') ∧
      rs.map (·.result) = [none, some "commit replace: lost"] ∧
      ∃ x ∈ rs, CopyOfTable .sqlserver x ((sinkView w').content ⟨"dbo", "t"⟩) := by
  have heval : mirrorRuns.map (fun p => p.1.map (·.result)) =
      some [none, some "commit replace: lost"] := by decide +kernel
  obtain ⟨⟨rs, w'⟩, hrun, hrs⟩ := Option.map_eq_some_iff.1 heval
  refine ⟨rs, w', hrun, hrs, ?_⟩
  rcases replace_is_snapshot (l := mirrorLoad) (d := .sqlserver) rfl
    (namesItself_of_notMem (by decide) (by decide)) hrun with ⟨-, hfailed⟩ | ⟨rs₁, x, rs₂, rfl, -, hcopy⟩
  · obtain ⟨x, rs, rfl, hx, -⟩ := List.map_eq_cons_iff.1 hrs
    exact absurd hx (hfailed x (by simp))
  · exact ⟨x, by simp, hcopy⟩

/-- The number load in append mode, in batches of one row. -/
def addingLoad : AppendLoad sqlSig ⟨"dbo", "t"⟩ where
  runner := numberLoad.runner
  load := smallBatches
  sink := rfl
  mode := by decide
  target := rfl
  reports := SourceKind.reports (.sql .sqlserver)

/-- The sink refuses the second batch of the first run. -/
def addingRuns : Option (List (numberMachine.TimedRun (Option Err)) × World (numberSide increasing)) :=
  numberMachine.timeline (fun _ => addingLoad.execute)
    [.run () (List.replicate 10 (.answer .ok) ++ .answer (.fail "lost" 0) ::
        List.replicate 5 (.answer .ok)),
      .run () (List.replicate 16 (.answer .ok))]
    (numberWorld increasing "" [number 1, number 2])

theorem addingRuns_snapshots :
    ∃ x y w' D D', addingRuns = some ([x, y], w') ∧ x.result = some "lost" ∧ y.result = none ∧
      (sinkView w').content ⟨"dbo", "t"⟩ = D ++ D' ∧
      PartOfTable .sqlserver x D ∧ CopyOfTable .sqlserver y D' := by
  have heval : addingRuns.map (fun p => p.1.map (·.result)) = some [some "lost", none] := by
    decide +kernel
  obtain ⟨⟨rs, w'⟩, hrun, hrs⟩ := Option.map_eq_some_iff.1 heval
  obtain ⟨x, rs, rfl, hx, hrs⟩ := List.map_eq_cons_iff.1 hrs
  obtain ⟨y, rfl, hy⟩ := List.map_eq_singleton_iff.1 hrs
  obtain ⟨parts, hparts, hcontent, -⟩ :=
    append_adds_snapshots (l := addingLoad) (d := .sqlserver) rfl (by decide) hrun
  obtain _ | ⟨hD, hparts⟩ := hparts
  obtain _ | ⟨hD', hparts⟩ := hparts
  obtain _ | _ := hparts
  have hempty : (sinkView (numberWorld increasing "" [number 1, number 2])).content ⟨"dbo", "t"⟩ = [] :=
    rfl
  exact ⟨x, y, w', _, _, hrun, hx, hy, by simpa [hempty] using hcontent, hD.1, hD'.2 hy⟩

end

end DataLoader
