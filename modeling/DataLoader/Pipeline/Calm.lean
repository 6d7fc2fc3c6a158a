import DataLoader.Pipeline.ReplaceSpec

/-!
# Runs that nothing disturbs

A program evaluated alone, with every call answered by success. An operation of
the sink can then still fail on its own, by an illegal name or a missing table;
the lemmas here give the conditions under which it does not, and the tables it
leaves. Such an evaluation is one of the runs of the machine (`Calmly.can`).
-/

namespace DataLoader

open Effects Mssql

variable {S : Sig} {srv : SqlServer} {side : SourceSide S} {α : Type}

/-- Every call succeeds and nobody else takes a step. -/
def World.calm (srv : SqlServer) (side : SourceSide S) (c : (sysSig S).Call) (w : World side) :
    Option ((sysSig S).Ans c × World side) :=
  some (World.answer srv side .ok c w)

/-- The evaluation of `p` without disturbance ends in `Q`. -/
abbrev Calmly (srv : SqlServer) (p : Prog (sysSig S) α) (Q : α → World side → Prop)
    (w : World side) : Prop :=
  p.Ends (World.calm srv side) Q w

/-- Without a cancelled context it is a run of the machine. -/
theorem Calmly.can {p : Prog (sysSig S) α} {Q : α → World side → Prop} {w : World side}
    (h : Calmly srv p Q w) (hw : w.cancelled = false) : (World.machine srv side).Can p Q w := by
  obtain ⟨a, w', hx, hQ⟩ := h
  induction p generalizing w with
  | ret b =>
    obtain ⟨rfl, rfl⟩ := Prod.mk.inj (Option.some.inj hx)
    exact .ret hQ
  | call c k ih =>
    have hans : (World.machine srv side).answer c Outcome.ok w =
        some (World.answer srv side .ok c w) := by
      change (if Outcome.allowed c w.cancelled .ok then some _ else none) = some _
      rw [hw, if_pos (by simp [Outcome.allowed])]
    have hrun : (World.answer srv side .ok c w).2.cancelled = false :=
      (World.cancelled_answer .ok c w).trans hw
    exact Machine.Can.call Outcome.ok hans (ih _ hrun hx)

/-- The tables of a running system. -/
structure At (ts : Tables) (w : World side) : Prop where
  running : w.cancelled = false
  tables : w.db.tables = ts

variable {ts : Tables} {w : World side}

/-- A call outside the sink database leaves the tables. -/
theorem At.answer {c : SysCall S} (hw : At ts w) (hc : ∀ s, c ≠ .db s) (o : Outcome) :
    At ts (World.answer srv side o c w).2 :=
  ⟨by simp [hw.running], by rw [World.db_answer _ hc, hw.tables]⟩

theorem calmly_perform {c : SysCall S} (hc : ∀ s, c ≠ .db s) (hw : At ts w) :
    Calmly srv (Prog.perform (S := sysSig S) c)
      (fun r w' => r = (World.answer srv side .ok c w).1 ∧ At ts w') w :=
  .call rfl (.ret ⟨rfl, hw.answer hc .ok⟩)

/-! ## Statements -/

theorem calmly_statement {c : DbCall} {r : c.Ans} {db : Db} (hw : w.cancelled = false)
    (hc : w.db.answer srv .ok c = (r, db)) :
    Calmly srv (statement c) (fun a w' => a = r ∧ w'.cancelled = false ∧ w'.db = db) w := by
  refine .call rfl (.ret ⟨?_, by simp [hw], ?_⟩)
  · change (w.db.answer srv .ok c).1 = r
    rw [hc]
  · change (w.db.answer srv .ok c).2 = db
    rw [hc]

/-- A statement that leaves the tables `ts'`. -/
theorem calmly_tables {c : DbCall} {r : c.Ans} {ts' : Tables} (hw : At ts w)
    (hc : w.db.answer srv .ok c = (r, { w.db with tables := ts' })) :
    Calmly srv (statement c) (fun a w' => a = r ∧ At ts' w') w :=
  (calmly_statement hw.running hc).mono fun _ _ h => ⟨h.1, h.2.1, by rw [h.2.2]⟩

theorem calmly_tableExists' (t : TargetTable) (hw : At ts w) :
    Calmly srv (tableExists' t) (fun r w' => r = .ok (ts t).isSome ∧ At ts w') w := by
  refine calmly_tables hw ?_
  rw [← hw.tables]
  rfl

theorem calmly_dropTableIfExists (t : TargetTable) (hw : At ts w) :
    Calmly srv (dropTableIfExists t)
      (fun e w' => e = none ∧ At (Function.update ts t none) w') w := by
  refine calmly_tables hw ?_
  rw [← hw.tables]
  rfl

theorem calmly_selectInto {t stg : TargetTable} (hw : At ts w) (hstg : ts stg = none)
    (ht : (ts t).isSome = true) :
    Calmly srv (statement (.selectInto stg t))
      (fun (e : Option Err) w' => e = none ∧ At (Function.update ts stg (some [])) w') w := by
  obtain ⟨rows, hrows⟩ := Option.isSome_iff_exists.1 ht
  refine calmly_tables hw ?_
  simp only [Db.answer, Db.statement, hw.tables, hstg, hrows]
  rfl

theorem calmly_truncateTable {t : TargetTable} (hw : At ts w) (ht : (ts t).isSome = true) :
    Calmly srv (statement (.truncateTable t))
      (fun (e : Option Err) w' => e = none ∧ At (Function.update ts t (some [])) w') w := by
  obtain ⟨rows, hrows⟩ := Option.isSome_iff_exists.1 ht
  refine calmly_tables hw ?_
  simp only [Db.answer, Db.statement, hw.tables, hrows]
  rfl

theorem calmly_createTable {t : TargetTable} (cols : List ColumnDef) (hw : At ts w)
    (ht : ts t = none) :
    Calmly srv (statement (.createTable t cols))
      (fun (e : Option Err) w' => e = none ∧ At (Function.update ts t (some [])) w') w := by
  refine calmly_tables hw ?_
  simp only [Db.answer, Db.statement, Db.create, hw.tables, ht]
  rfl

theorem calmly_bulkCopy {t : TargetTable} {old : List SinkRow} (rows : List SinkRow) (hw : At ts w)
    (ht : ts t = some old) :
    Calmly srv (statement (.bulkCopy t rows))
      (fun (e : Option Err) w' => e = none ∧ At (Function.update ts t (some (old ++ rows))) w') w := by
  refine calmly_tables hw ?_
  simp only [Db.answer, Db.append, hw.tables, ht]
  rfl

/-! ## The operations of the sink -/

variable [GoLib] {t : TargetTable}

theorem validateTarget_staging (ht : validateTarget t = none)
    (hstg : Sqlident.validate (t.name ++ stagingSuffix) = none) :
    validateTarget (staging t) = none :=
  validateTarget_eq_none.2 ⟨(validateTarget_eq_none.1 ht).1, hstg⟩

/-- The suffixes are legal in an identifier. -/
theorem suffix_chars : stagingSuffix.toList.all Sqlident.isIdentPart = true ∧
    oldSuffix.toList.all Sqlident.isIdentPart = true := by
  have hstg : stagingSuffix.toList = ['_', 's', 't', 'g'] := rfl
  have hold : oldSuffix.toList = ['_', 'o', 'l', 'd'] := rfl
  simp [hstg, hold, Sqlident.isIdentPart_ascii]

theorem validate_old (ht : validateTarget t = none)
    (hstg : Sqlident.validate (t.name ++ stagingSuffix) = none) :
    Sqlident.validate (t.name ++ oldSuffix) = none := by
  have hname : t.name ≠ "" := (Sqlident.validate_eq_none.1 (validateTarget_eq_none.1 ht).2).1
  exact Sqlident.validate_append_congr hname hstg suffix_chars.2 (by decide) (by decide)

theorem calmly_tableExists (ht : validateTarget t = none) (hw : At ts w) :
    Calmly srv (Mssql.tableExists t) (fun r w' => r = .ok (ts t).isSome ∧ At ts w') w := by
  unfold Mssql.tableExists
  rw [ht]
  exact calmly_tableExists' t hw

theorem calmly_truncate (ht : validateTarget t = none) (hw : At ts w)
    (hlive : (ts t).isSome = true) :
    Calmly srv (Mssql.truncate t)
      (fun e w' => e = none ∧ At (Function.update ts t (some [])) w') w := by
  unfold Mssql.truncate
  rw [ht]
  exact calmly_truncateTable hw hlive

/-- `EnsureTable` on a present table. -/
theorem calmly_ensureTable_present (ht : validateTarget t = none) (cols : List Column)
    (hw : At ts w) (hlive : (ts t).isSome = true) :
    Calmly srv (ensureTable t cols) (fun e w' => e = none ∧ At ts w') w := by
  unfold ensureTable
  rw [ht]
  refine (calmly_tableExists' t hw).seq ?_
  rintro _ w₁ ⟨rfl, h₁⟩
  rw [hlive]
  exact .ret ⟨rfl, h₁⟩

/-- `EnsureTable` on a missing table. -/
theorem calmly_ensureTable (ht : validateTarget t = none) {cols : List Column}
    {defs : List ColumnDef} (hcols : columnDefs cols = .ok defs) (hw : At ts w)
    (hnone : ts t = none) :
    Calmly srv (ensureTable t cols)
      (fun e w' => e = none ∧ At (Function.update ts t (some [])) w') w := by
  unfold ensureTable
  rw [ht, hcols]
  refine (calmly_tableExists' t hw).seq ?_
  rintro _ w₁ ⟨rfl, h₁⟩
  rw [hnone]
  exact calmly_createTable defs h₁ hnone

/-- `WriteBatch` on a present table. -/
theorem calmly_writeBatch (ht : validateTarget t = none) {b : Batch} {loadTS : Time}
    {old rows : List SinkRow} (hcols : b.rows ≠ [] → validateColumns b.columns = none)
    (hrows : prepareRows b.columns loadTS b.rows = .ok rows) (hw : At ts w)
    (hold : ts t = some old) :
    Calmly srv (Mssql.writeBatch t b loadTS)
      (fun r w' => r = .ok (b.rows.length : Int) ∧
        At (Function.update ts t (some (old ++ rows))) w') w := by
  unfold Mssql.writeBatch
  by_cases hb : b.rows = []
  · obtain rfl : [] = rows := by
      rw [hb] at hrows
      exact Except.ok.inj hrows
    rw [if_pos (by simp [hb]), List.append_nil, ← hold, Function.update_eq_self]
    exact .ret ⟨by simp [hb], hw⟩
  · rw [if_neg (by simpa using hb), ht, hcols hb, hrows]
    refine (calmly_bulkCopy rows hw hold).seq ?_
    rintro _ w₁ ⟨rfl, h₁⟩
    exact .ret ⟨rfl, h₁⟩

/-- `BeginReplace` clones a present target. -/
theorem calmly_beginReplace (ht : validateTarget t = none)
    (hstg : Sqlident.validate (t.name ++ stagingSuffix) = none) (cols : List Column) (hw : At ts w)
    (hlive : (ts t).isSome = true) :
    Calmly srv (beginReplace t cols)
      (fun r w' => r = .ok (staging t) ∧ At (Function.update ts (staging t) (some [])) w') w := by
  have hlive₁ : (Function.update ts (staging t) none t).isSome = true := by
    rwa [Function.update_of_ne (staging_ne t).symm]
  unfold beginReplace stagingTarget
  rw [ht, hstg]
  refine (calmly_dropTableIfExists (staging t) hw).seq ?_
  rintro _ w₁ ⟨rfl, h₁⟩
  refine (calmly_tableExists' t h₁).seq ?_
  rintro _ w₂ ⟨rfl, h₂⟩
  rw [hlive₁]
  refine (calmly_selectInto h₂ (Function.update_self ..) hlive₁).seq ?_
  rintro _ w₃ ⟨rfl, h₃⟩
  rw [Function.update_idem] at h₃
  exact .ret ⟨rfl, h₃⟩

/-- For a missing target it creates the staging table from the columns. -/
theorem calmly_beginReplace_columns (ht : validateTarget t = none)
    (hstg : Sqlident.validate (t.name ++ stagingSuffix) = none) {cols : List Column}
    {defs : List ColumnDef} (hne : cols ≠ []) (hcols : columnDefs cols = .ok defs) (hw : At ts w)
    (hnone : ts t = none) :
    Calmly srv (beginReplace t cols)
      (fun r w' => r = .ok (staging t) ∧ At (Function.update ts (staging t) (some [])) w') w := by
  unfold beginReplace stagingTarget
  rw [ht, hstg]
  refine (calmly_dropTableIfExists (staging t) hw).seq ?_
  rintro _ w₁ ⟨rfl, h₁⟩
  refine (calmly_tableExists' t h₁).seq ?_
  rintro _ w₂ ⟨rfl, h₂⟩
  rw [Function.update_of_ne (staging_ne t).symm, hnone]
  change Calmly srv (if cols.isEmpty then _ else _) _ w₂
  rw [if_neg (by simpa using hne)]
  refine (calmly_ensureTable (validateTarget_staging ht hstg) hcols h₂ (Function.update_self ..)).seq ?_
  rintro _ w₃ ⟨rfl, h₃⟩
  rw [Function.update_idem] at h₃
  exact .ret ⟨rfl, h₃⟩

/-! ### Transactions -/

/-- The state inside a transaction on the tables `ts₀`, with the working copy `ts`. -/
structure Within (ts₀ ts : Tables) (w : World side) : Prop where
  running : w.cancelled = false
  db : w.db = ⟨ts₀, some ts⟩

variable {ts₀ ts' : Tables}

omit [GoLib] in
/-- A transaction whose body succeeds makes its working copy current. -/
theorem calmly_inTx {body : Prog (sysSig S) (Option Err)} (hw : At ts w)
    (hbody : ∀ w₁ : World side, Within ts ts w₁ →
      Calmly srv body (fun e w' => e = none ∧ Within ts ts' w') w₁) :
    Calmly srv (Mssql.inTx body) (fun e w' => e = none ∧ At ts' w') w := by
  have hbegin : w.db.answer srv .ok .beginTx = (none, ⟨ts, some ts⟩) := by
    rw [← hw.tables]
    rfl
  refine (calmly_statement hw.running hbegin).seq ?_
  rintro _ w₁ ⟨rfl, hr₁, hdb₁⟩
  refine (hbody w₁ ⟨hr₁, hdb₁⟩).seq ?_
  rintro _ w₂ ⟨rfl, h₂⟩
  have hcommit : w₂.db.answer srv .ok .commitTx = (none, ⟨ts', none⟩) := by
    rw [h₂.db]
    rfl
  refine (calmly_statement h₂.running hcommit).seq ?_
  rintro _ w₃ ⟨rfl, hr₃, hdb₃⟩
  have hrollback : w₃.db.answer srv .ok .rollbackTx = ((), ⟨ts', none⟩) := by
    rw [hdb₃]
    rfl
  refine (calmly_statement hr₃ hrollback).seq ?_
  rintro _ w₄ ⟨-, hr₄, hdb₄⟩
  exact .ret ⟨rfl, hr₄, by rw [hdb₄]⟩

omit [GoLib] in
/-- One statement of a transaction. -/
theorem calmly_within {c : DbCall} {r : c.Ans} (hw : Within ts₀ ts w)
    (hc : Db.answer srv .ok c ⟨ts₀, some ts⟩ = (r, ⟨ts₀, some ts'⟩)) :
    Calmly srv (statement c) (fun a w' => a = r ∧ Within ts₀ ts' w') w :=
  (calmly_statement hw.running (by rw [hw.db, hc])).mono fun _ _ h => ⟨h.1, h.2.1, h.2.2⟩

theorem calmly_renameInTx {source : TargetTable} {newName : String}
    (hname : Sqlident.validate newName = none)
    (hren : srv.rename ts (dotted source) newName = .ok ts') (hw : Within ts₀ ts w) :
    Calmly srv (renameInTx source newName) (fun e w' => e = none ∧ Within ts₀ ts' w') w := by
  have hans : Db.answer srv .ok (.spRename (dotted source) newName) ⟨ts₀, some ts⟩ =
      (none, ⟨ts₀, some ts'⟩) := by
    simp only [Db.answer, Db.inTx, hren]
    rfl
  unfold renameInTx
  rw [hname]
  refine (calmly_within hw hans).seq ?_
  rintro _ w₁ ⟨rfl, h₁⟩
  exact .ret ⟨rfl, h₁⟩

/-- The swap of a present target. -/
theorem calmly_swapInTx (ht : validateTarget t = none)
    (hold : Sqlident.validate (t.name ++ oldSuffix) = none)
    (hswap : Swapped srv t (staging t) (old t) ts ts') (hw : Within ts₀ ts w) :
    Calmly srv (swapInTx t (staging t) (old t)) (fun e w' => e = none ∧ Within ts₀ ts' w') w := by
  obtain ⟨ts₁, ts₂, h₁, h₂, hdrop, rfl⟩ := hswap
  have hans : Db.answer srv .ok (.dropTable (old t)) ⟨ts₀, some ts₂⟩ =
      (none, ⟨ts₀, some (Function.update ts₂ (old t) none)⟩) := by
    obtain ⟨rows, hrows⟩ := Option.ne_none_iff_exists'.1 hdrop
    simp only [Db.answer, Db.inTx, Db.drop, hrows]
    rfl
  refine (calmly_renameInTx hold h₁ hw).seq ?_
  rintro _ w₁ ⟨rfl, hw₁⟩
  refine (calmly_renameInTx (validateTarget_eq_none.1 ht).2 h₂ hw₁).seq ?_
  rintro _ w₂ ⟨rfl, hw₂⟩
  refine (calmly_within hw₂ hans).seq ?_
  rintro _ w₃ ⟨rfl, hw₃⟩
  exact .ret ⟨rfl, hw₃⟩

/-- The tables that `CommitReplace` leaves when its statements succeed: a present
    target is swapped, for a missing one the staging table is renamed. -/
def CommitLeaves (srv : SqlServer) (t : TargetTable) (ts ts' : Tables) : Prop :=
  if (ts t).isSome then Swapped srv t (staging t) (old t) (Function.update ts (old t) none) ts'
  else srv.rename ts (dotted (staging t)) t.name = .ok ts'

theorem calmly_commitReplace (ht : validateTarget t = none)
    (hstg : Sqlident.validate (t.name ++ stagingSuffix) = none) (hw : At ts w)
    (hsome : (ts (staging t)).isSome = true) (hpub : CommitLeaves srv t ts ts') :
    Calmly srv (commitReplace t (staging t)) (fun e w' => e = none ∧ At ts' w') w := by
  have hold := validate_old ht hstg
  unfold commitReplace oldTarget
  rw [ht, validateTarget_staging ht hstg, hold]
  refine (calmly_tableExists' t hw).seq ?_
  rintro _ w₁ ⟨rfl, h₁⟩
  refine (calmly_tableExists' (staging t) h₁).seq ?_
  rintro _ w₂ ⟨rfl, h₂⟩
  rw [hsome]
  unfold CommitLeaves at hpub
  cases hlive : (ts t).isSome with
  | false =>
    rw [hlive, if_neg Bool.false_ne_true] at hpub
    exact calmly_inTx h₂ fun w₃ h₃ =>
      calmly_renameInTx (validateTarget_eq_none.1 ht).2 hpub h₃
  | true =>
    rw [hlive, if_pos rfl] at hpub
    refine (calmly_dropTableIfExists (old t) h₂).seq ?_
    rintro _ w₃ ⟨rfl, h₃⟩
    exact calmly_inTx h₃ fun w₄ h₄ => calmly_swapInTx ht hold hpub h₄

/-! ## The end of a run -/

omit [GoLib] in
theorem calmly_failRun (hw : At ts w) (load : Load) (run : LoadRun) (rr rw : Int) (wm : String)
    (msg : Err) :
    Calmly srv (Runner.failRun load run rr rw wm msg) (fun _ w' => At ts w') w := by
  refine (calmly_perform (by simp) hw).seq fun _ w₁ h₁ => (calmly_perform (by simp) h₁.2).seq ?_
  intro _ w₂ h₂
  refine (calmly_perform (by simp) h₂.2).seq fun _ w₃ h₃ => (calmly_perform (by simp) h₃.2).mono ?_
  exact fun _ _ h => h.2

omit [GoLib] in
theorem calmly_finishSuccess (hw : At ts w) {load : Load} (hmode : load.mode = loadModeReplace)
    (run : LoadRun) (result : ReadResult) (rw : Int) :
    Calmly srv (Runner.finishSuccess load run result rw) (fun e w' => e = none ∧ At ts w') w := by
  refine (calmly_perform (by simp) hw).seq ?_
  rintro _ w₁ ⟨rfl, h₁⟩
  refine (calmly_perform (by simp) h₁).seq fun _ w₂ h₂ => (calmly_perform (by simp) h₂.2).seq ?_
  intro _ w₃ h₃
  refine (calmly_perform (by simp) h₃.2).seq fun _ w₄ h₄ => ?_
  rw [if_neg (by simp [hmode, loadModeReplace, loadModeDelta])]
  exact .ret ⟨rfl, h₄.2⟩

omit [GoLib] in
theorem calmly_finishRead (hw : At ts w) {load : Load} (hmode : load.mode = loadModeReplace)
    (run : LoadRun) (current : String) (result : ReadResult) (rw : Int) :
    Calmly srv (Runner.finishRead load run current result rw)
      (fun e w' => e = none ∧ At ts w') w := by
  unfold Runner.finishRead
  rw [if_neg (by simp [Runner.advances, hmode, loadModeReplace, loadModeDelta])]
  exact calmly_finishSuccess hw hmode run result rw

end DataLoader
