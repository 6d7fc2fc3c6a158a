import DataLoader.Pipeline.AllOrNothing
import DataLoader.Pipeline.CalmReplace

/-!
# Which tables a replace run touches

Besides its target a replace run works on helper tables whose names are derived
from the target (`staging`, `old`), and on whatever `sp_rename` reads from those
names. `Touches` lists these tables. `preserves_iff` shows that the list is
exact: a run leaves every other valid table as it was, and for every table of the
list some run changes it. `replace_drops_other_target` is such a run for a target
of another load that is called like the staging table.
-/

namespace DataLoader

open Effects Mssql

section

variable {S : Sig} [GoLib] {srv : SqlServer} {side : SourceSide S} {t u : TargetTable}

/-- The tables other than `t` that a replace run on `t` can change. -/
inductive Touches (srv : SqlServer) (t : TargetTable) : TargetTable → Prop
  | staging : Touches srv t (staging t)
  | old : Touches srv t (old t)
  /-- The name of the target is read as that of another table `a`. -/
  | renamed {a : TargetTable} (hstg : validateTarget (Mssql.staging t) = none)
      (hobj : srv.object (dotted t) = some a) (hne : a ≠ t) : Touches srv t (Mssql.staging a)
  | newName {a : TargetTable} (hstg : validateTarget (Mssql.staging t) = none)
      (hobj : srv.object (dotted t) = some a) (hne : a ≠ t) : Touches srv t ⟨a.schema, t.name⟩

theorem ReplaceRun.tables_eq (hne : u ≠ t) (hu : ¬Touches srv t u) {v v' : SinkView}
    {err : Option Err} (h : ReplaceRun srv t v err v') : v'.tables u = v.tables u := by
  have hstg : u ≠ staging t := fun h => hu (h ▸ .staging)
  have hold : u ≠ old t := fun h => hu (h ▸ .old)
  cases h with
  | failed h => exact h.off u (by simp [hstg, hold])
  | nothing _ _ _ hoff => exact hoff u (by simp [hstg])
  | @published bs loadTS rows a _ hvalid hobj _ _ hoff _ =>
    refine hoff u ?_
    by_cases hat : a = t
    · subst hat
      simp [hstg, hold, hne]
    · have h1 : u ≠ staging a := fun h => hu (h ▸ .renamed hvalid hobj hat)
      have h2 : u ≠ ⟨a.schema, t.name⟩ := fun h => hu (h ▸ .newName hvalid hobj hat)
      simp [hstg, hold, h1, h2]

/-! ## Runs that touch each of these tables -/

variable {ts : Tables} {w : World side}

omit [GoLib] in
theorem can_perform {c : SysCall S} (hc : ∀ s, c ≠ .db s) (hw : At ts w) :
    (World.machine srv side).Can (Prog.perform (S := sysSig S) c)
      (fun r w' => r = (World.answer srv side .ok c w).1 ∧ At ts w') w :=
  (calmly_perform hc hw).can hw.running

/-- The start of a run of a load whose source can be leased. -/
theorem can_execute {l : ReplaceLoad noDriver t} {w : World plainSide} (hw : At ts w)
    (hparams : ∃ p, l.runner.resolveParams l.load.source.paramsJSON = .ok p) {P : Tables → Prop}
    (h : ∀ (run : LoadRun) (current : Watermark) (w' : World plainSide), At ts w' →
      (World.machine srv plainSide).Can (l.runner.runStarted l.load 0 run current)
        (fun _ w'' => ∃ ts', At ts' w'' ∧ P ts') w') :
    (World.machine srv plainSide).Can l.execute (fun _ w' => P w'.db.tables) w := by
  have hpoint : Runner.pointBased l.load = l.load := if_neg (not_or.2 l.kind)
  obtain ⟨params, hparams⟩ := hparams
  unfold ReplaceLoad.execute Runner.execute
  simp only [hpoint, hparams]
  refine (can_perform (by simp) hw).seq ?_
  rintro _ w₁ ⟨rfl, h₁⟩
  have hleased : (World.machine srv plainSide).Can (l.runner.leased l.load 0)
      (fun _ w'' => ∃ ts', At ts' w'' ∧ P ts') w₁ := by
    refine (can_perform (by simp) h₁).seq ?_
    rintro _ w₂ ⟨rfl, h₂⟩
    refine (can_perform (by simp) h₂).seq ?_
    rintro _ w₃ ⟨rfl, h₃⟩
    exact h _ _ w₃ h₃
  refine hleased.seq ?_
  rintro exit w₂ ⟨ts', h₂, hP⟩
  refine (can_perform (by simp) h₂).seq ?_
  rintro _ w₃ ⟨-, h₃⟩
  exact .ret (h₃.tables ▸ hP)

/-! ### The helper tables -/

/-- A commit that drops the old table and then cannot begin its transaction. -/
theorem can_commitReplace_fail (ht : validateTarget t = none)
    (hstg : Sqlident.validate (t.name ++ stagingSuffix) = none) (hw : At ts w)
    (hlive : (ts t).isSome = true) (hsome : (ts (staging t)).isSome = true) :
    (World.machine srv side).Can (commitReplace t (staging t))
      (fun e w' => e = some "lost" ∧ At (Function.update ts (old t) none) w') w := by
  have hlost : ∀ {w₁ : World side}, At (Function.update ts (old t) none) w₁ →
      (World.machine srv side).Can (statement .beginTx)
        (fun (e : Option Err) w' => e = some "lost" ∧ At (Function.update ts (old t) none) w') w₁ := by
    intro w₁ h₁
    have hans : (World.machine srv side).answer (.db .beginTx) (.fail "lost" 0 : Outcome) w₁ =
        some (World.answer srv side (.fail "lost" 0) (.db .beginTx) w₁) := by
      change (if Outcome.allowed _ w₁.cancelled _ then some _ else none) = some _
      rw [h₁.running, if_pos (by simp [Outcome.allowed])]
    exact Machine.Can.call (.fail "lost" 0 : Outcome) hans (.ret ⟨rfl, h₁.running, h₁.tables⟩)
  unfold commitReplace oldTarget
  rw [ht, validateTarget_staging ht hstg, validate_old ht hstg]
  refine ((calmly_tableExists' t hw).can hw.running).seq ?_
  rintro _ w₁ ⟨rfl, h₁⟩
  refine ((calmly_tableExists' (staging t) h₁).can h₁.running).seq ?_
  rintro _ w₂ ⟨rfl, h₂⟩
  rw [hlive, hsome]
  refine ((calmly_dropTableIfExists (old t) h₂).can h₂.running).seq ?_
  rintro _ w₃ ⟨rfl, h₃⟩
  refine (hlost h₃).seq ?_
  rintro _ w₄ ⟨rfl, h₄⟩
  exact .ret ⟨rfl, h₄⟩

/-- A source without rows. -/
def readNothing : Reader noDriver := fun _ => return ({}, none)

omit [GoLib] in
theorem reports_readNothing (cfg : LoadConfig) : Reports false (readNothing cfg) := by
  simp [readNothing, Reports]

/-- A run without rows on a present table whose transaction cannot begin: both
    helper tables are gone. -/
theorem can_drop_helpers (ht : validateTarget t = none)
    (hstg : Sqlident.validate (t.name ++ stagingSuffix) = none) {w : World plainSide} (hw : At ts w)
    (hlive : (ts t).isSome = true) :
    (World.machine srv plainSide).Can (plainLoad t reports_readNothing).execute
      (fun _ w' => w'.db.tables (staging t) = none ∧ w'.db.tables (old t) = none) w := by
  refine can_execute (P := fun ts => ts (staging t) = none ∧ ts (old t) = none) hw ⟨_, rfl⟩ ?_
  intro run current w₁ h₁
  refine (can_perform (by simp) h₁).seq fun _ w₂ h₂ => (can_perform (by simp) h₂.2).seq ?_
  rintro loadTS w₃ ⟨-, h₃⟩
  refine ((calmly_prepareExisting ht hstg hlive h₃).can h₃.running).seq ?_
  rintro _ w₄ ⟨rfl, h₄⟩
  have hlive₄ : (Function.update ts (staging t) (some []) t).isSome = true := by
    rwa [Function.update_of_ne (staging_ne t).symm]
  have hread : (World.machine srv plainSide).Can
      ((plainLoad t reports_readNothing).runner.readAndFinish (plainLoad t reports_readNothing).load
        0 run current loadTS (some (begunSession noDriver t)))
      (fun exit w' => exit.repl = some (begunSession noDriver t) ∧
        At (Function.update (Function.update ts (staging t) (some [])) (old t) none) w') w₄ := by
    -- nothing is read, so the commit is next
    have hcommit : (World.machine srv plainSide).Can (begunSession noDriver t).commit
        (fun r w' => r = .error "commit replace: lost" ∧
          At (Function.update (Function.update ts (staging t) (some [])) (old t) none) w') w₄ := by
      refine (can_commitReplace_fail ht hstg h₄ hlive₄ (by simp)).seq ?_
      rintro _ w₅ ⟨rfl, h₅⟩
      exact .ret ⟨rfl, h₅⟩
    refine hcommit.seq ?_
    rintro _ w₅ ⟨rfl, h₅⟩
    refine ((calmly_failRun h₅ _ _ _ _ _ _).can h₅.running).seq fun _ w₆ h₆ => .ret ⟨rfl, h₆⟩
  refine hread.seq ?_
  rintro exit w₅ ⟨hexit, h₅⟩
  have habort : (World.machine srv plainSide).Can exit.abort
      (fun _ w' => At (Function.update (Function.update (Function.update ts (staging t) (some []))
        (old t) none) (staging t) none) w') w₅ := by
    unfold Runner.Exit.abort
    rw [hexit]
    change (World.machine srv plainSide).Can (abortReplace (staging t) >>= _) _ w₅
    unfold abortReplace
    rw [validateTarget_staging ht hstg]
    refine ((calmly_dropTableIfExists (staging t) h₅).can h₅.running).seq ?_
    rintro _ w₆ ⟨-, h₆⟩
    exact .ret h₆
  refine habort.seq fun _ w₆ h₆ => .ret ⟨_, h₆, by simp, ?_⟩
  rw [Function.update_of_ne (staging_ne_old t).symm, Function.update_self]

/-! ### Tables that `sp_rename` hits -/

theorem validate_id : Sqlident.validate "id" = none := by
  refine Sqlident.validate_eq_none.2 ⟨by decide, by decide, ?_⟩
  simp [Sqlident.identRE, Sqlident.isIdentStart, Sqlident.isIdentPart_ascii,
    GoLib.isLetter_ascii, show "id".toList = ['i', 'd'] from rfl]

/-- The row of `oneRow` can be stored, and a table be created for it. -/
theorem storable_oneRow (loadTS : Time) :
    Storable loadTS [oneRow] [⟨[("id", .int64 1)], loadTS⟩] := by
  refine ⟨fun b hb _ => ?_, rfl⟩
  obtain rfl := List.mem_singleton.1 hb
  simp [validateColumns, oneRow, validate_id]

theorem columnDefs_oneRow : oneRow.columns ≠ [] ∧ ∃ defs, columnDefs oneRow.columns = .ok defs := by
  refine ⟨by simp [oneRow], ?_⟩
  simp [columnDefs, oneRow, validate_id, Except.map]

omit [GoLib] in
theorem supplies_oneRow [GoLib] {w : World plainSide} :
    Supplies (oneRowLoad t).runner (oneRowLoad t).load w [oneRow] :=
  ⟨[], 0, (), { rowsRead := 1 }, rfl, rfl, rfl⟩

/-- A run of one row without a live table: the staging table of `a` is renamed. -/
theorem can_rename_other {a : TargetTable} (hobj : srv.object (dotted t) = some a) (hne : a ≠ t)
    (ht : validateTarget t = none) (hstg : Sqlident.validate (t.name ++ stagingSuffix) = none)
    {w : World plainSide} (hw : At ts w) (hnone : ts t = none) {rows : List SinkRow}
    (hrows : ts (staging a) = some rows) (hfree : ts ⟨a.schema, t.name⟩ = none) :
    (World.machine srv plainSide).Can (oneRowLoad t).execute
      (fun _ w' => w'.db.tables (staging a) = none ∧
        w'.db.tables ⟨a.schema, t.name⟩ = some rows) w := by
  obtain ⟨hrun, rfl⟩ := hw
  have hstga : staging a ≠ staging t := fun h => hne (staging_inj h)
  have hnew : (⟨a.schema, t.name⟩ : TargetTable) ≠ staging t := fun h =>
    suffixed_name_ne (by decide) t (congrArg TargetTable.name h).symm
  have hpub : ∀ staged : List SinkRow,
      CommitLeaves srv t (Function.update w.db.tables (staging t) (some staged))
        (Function.update (Function.update (Function.update w.db.tables (staging t) (some staged))
          (staging a) none) ⟨a.schema, t.name⟩ (some rows)) := by
    intro staged
    unfold CommitLeaves
    rw [if_neg (by simp [Function.update_of_ne (staging_ne t).symm, hnone])]
    have hobj' : srv.object (dotted (staging t)) = some (staging a) := by
      rw [object_staging, hobj]
      rfl
    refine rename_eq_ok hobj' ?_ ?_
    · rw [Function.update_of_ne hstga, hrows]
    · rw [staging_schema, Function.update_of_ne hnew, hfree]
  have hcalm : Undisturbed srv (oneRowLoad t) w [oneRow] [⟨[("id", .int64 1)], w.clock⟩] :=
    { running := hrun, supplies := supplies_oneRow, target := ht, staging := hstg
      storable := storable_oneRow w.clock
      columns := fun _ b hb => Option.some.inj hb ▸ columnDefs_oneRow
      commits := fun _ => ⟨_, hpub _⟩ }
  refine ((hcalm.calmly_published (.inr (by simp)) (hpub _)).can hrun).mono ?_
  rintro _ w' ⟨-, htables⟩
  rw [htables]
  refine ⟨?_, by rw [Function.update_self]⟩
  rw [Function.update_of_ne (fun h => name_ne_of_object hobj (by rw [h])), Function.update_self]

/-! ## The frame of a replace run -/

/-- No run of a replace load on `t` changes the table `u`. -/
def Preserves (srv : SqlServer) (t u : TargetTable) : Prop :=
  ∀ (S : Sig) (side : SourceSide S) (l : ReplaceLoad S t) (es : List (World.machine srv side).Event)
    (w w' : World side) (err : Option Err),
    (World.machine srv side).exec es l.execute w = some (err, w') →
      w'.db.tables u = w.db.tables u

/-- A table is safe from the replace runs on `t` if and only if it is not one of
    those that `Touches` lists. -/
theorem preserves_iff (ht : validateTarget t = none) (hu : validateTarget u = none) (hne : u ≠ t) :
    Preserves srv t u ↔ ¬Touches srv t u := by
  constructor
  · intro hpres htouch
    have hcontra : ∀ (l : ReplaceLoad noDriver t) (ts : Tables),
        ¬(World.machine srv plainSide).Can l.execute (fun _ w' => w'.db.tables u ≠ ts u)
          (sinkWorld ts) := by
      rintro l ts ⟨es, err, w', hx, hchanged⟩
      exact hchanged (hpres _ _ l es _ _ err hx)
    have hname : t.name ≠ "" := (Sqlident.validate_eq_none.1 (validateTarget_eq_none.1 ht).2).1
    have hat : ∀ ts, At ts (sinkWorld ts) := fun ts => ⟨rfl, rfl⟩
    -- a system whose only table is the one that is read as the staging table
    have hother : ∀ a, validateTarget (staging t) = none → srv.object (dotted t) = some a → a ≠ t →
        (World.machine srv plainSide).Can (oneRowLoad t).execute
          (fun _ w' => w'.db.tables (staging a) = none ∧
            w'.db.tables ⟨a.schema, t.name⟩ = some [])
          (sinkWorld fun u => if u = staging a then some [] else none) := by
      intro a hstg hobj ha
      have hnew : ∀ s, (⟨s, t.name⟩ : TargetTable) ≠ staging a := fun s h =>
        name_ne_of_object hobj (by rw [← h])
      exact can_rename_other hobj ha ht (validateTarget_eq_none.1 hstg).2 (hat _)
        (if_neg (hnew t.schema)) (if_pos rfl) (if_neg (hnew a.schema))
    cases htouch with
    | staging =>
      have hstg : Sqlident.validate (t.name ++ stagingSuffix) = none :=
        (validateTarget_eq_none.1 hu).2
      refine hcontra (plainLoad t reports_readNothing) (fun _ => some []) ?_
      exact (can_drop_helpers ht hstg (hat _) rfl).mono fun _ _ h => by simp [h.1]
    | old =>
      have hold : Sqlident.validate (t.name ++ oldSuffix) = none :=
        (validateTarget_eq_none.1 hu).2
      have hstg : Sqlident.validate (t.name ++ stagingSuffix) = none :=
        Sqlident.validate_append_congr hname hold suffix_chars.1 (by decide) (by decide)
      refine hcontra (plainLoad t reports_readNothing) (fun _ => some []) ?_
      exact (can_drop_helpers ht hstg (hat _) rfl).mono fun _ _ h => by simp [h.2]
    | @renamed a hstg hobj ha =>
      exact hcontra _ _ ((hother a hstg hobj ha).mono fun _ _ h => by simp [h.1])
    | @newName a hstg hobj ha =>
      have hnew : (⟨a.schema, t.name⟩ : TargetTable) ≠ staging a := fun h =>
        name_ne_of_object hobj (by rw [← h])
      exact hcontra _ _ ((hother a hstg hobj ha).mono fun _ _ h => by simp [h.2, hnew])
  · intro hu S side l es w w' err hx
    have h := (sinkSpec_meets srv side).exec (wp_execute l (sinkView w)) hx
    exact h.tables_eq hne hu

/-- When the name of the target is read as itself, only its two helper tables
    are touched. -/
theorem Touches.of_namesItself (hname : NamesItself srv t) (h : Touches srv t u) :
    u = Mssql.staging t ∨ u = Mssql.old t := by
  cases h with
  | staging => exact .inl rfl
  | old => exact .inr rfl
  | renamed _ hobj hne => exact absurd (hname _ hobj) hne
  | newName _ hobj hne => exact absurd (hname _ hobj) hne

end

section

attribute [local instance] GoLib.ascii

/-- The targets `dbo.orders` and `dbo.orders_stg` are distinct and valid, and a
    successful run on the first drops the second. -/
theorem replace_drops_other_target :
    validateTarget ⟨"dbo", "orders"⟩ = none ∧ validateTarget ⟨"dbo", "orders_stg"⟩ = none ∧
      (⟨"dbo", "orders_stg"⟩ : TargetTable) ≠ ⟨"dbo", "orders"⟩ ∧
      ((World.machine ⟨"wh", "dbo"⟩ plainSide).exec (succeed _ 25)
          (oneRowLoad ⟨"dbo", "orders"⟩).execute (sinkWorld fun _ => some [⟨[], 0⟩])).map
        (fun p => (p.1, p.2.db.tables ⟨"dbo", "orders_stg"⟩)) = some (none, none) := by
  decide +kernel

/-- Targets like `dbo.orders` and `dbo.customers` do not get in each other's way. -/
theorem orders_preserve_customers :
    Preserves ⟨"wh", "dbo"⟩ ⟨"dbo", "orders"⟩ ⟨"dbo", "customers"⟩ := by
  refine (preserves_iff (by decide) (by decide) (by decide)).2 fun h => ?_
  rcases h.of_namesItself (namesItself_of_notMem (by decide) (by decide)) with h | h
  · revert h; decide
  · revert h; decide

end

end DataLoader
