import DataLoader.Pipeline.Footprint

/-!
# Atomic and legacy replace

A sink without `AtomicReplacer` is replaced by truncating the live table before
the read and writing to it. `replace_kinds_agree_iff` compares the two on runs that
nothing disturbs: they agree on a present table and on a source without batches.
A missing table is created by the atomic replace whatever `auto_create_table` says,
by the legacy one only where it is set (`missing_table_fails_legacy`).
-/

namespace DataLoader

open Effects Mssql SinkProtocol

section

variable {S : Sig} [GoLib]

/-- The sink without its `AtomicReplacer`. -/
def Mssql.truncateOnly : Sink S := { Mssql.sink with atomic := none }

theorem Mssql.truncateOnly_onDb : (truncateOnly : Sink S).OnDb where
  tableExists := sink_onDb.tableExists
  ensureTable := sink_onDb.ensureTable
  truncate := sink_onDb.truncate
  writeBatch := sink_onDb.writeBatch
  atomic _ h := by cases h

variable {srv : SqlServer} {side : SourceSide S} {t : TargetTable} {ts : Tables} {w : World side}

/-- The runner of a replace load with that sink. -/
def ReplaceLoad.legacyRunner (l : ReplaceLoad S t) : Runner S :=
  { l.runner with sink := truncateOnly }

/-- `Execute` of the load with that runner. -/
def ReplaceLoad.executeLegacy (l : ReplaceLoad S t) : Prog (sysSig S) (Option Err) :=
  l.legacyRunner.execute l.load

/-- The legacy session on `t`. -/
abbrev legacySession (S : Sig) (t : TargetTable) : ReplaceSession S := .new truncateOnly t

theorem onDb_legacySession : OnDb (legacySession S t) := truncateOnly_onDb.atomic

/-! ## The legacy path -/

theorem calmly_prepareExisting_legacy (ht : validateTarget t = none) (hlive : (ts t).isSome = true)
    (hw : At ts w) :
    Calmly srv ((legacySession S t).prepareExisting truncateOnly)
      (fun res w' => res = .ok (legacySession S t) ∧ At (Function.update ts t (some [])) w') w := by
  refine (calmly_tableExists ht hw).seq ?_
  rintro _ w₁ ⟨rfl, h₁⟩
  rw [hlive]
  refine (calmly_truncate ht h₁ hlive).seq ?_
  rintro _ w₂ ⟨rfl, h₂⟩
  exact .ret ⟨rfl, h₂⟩

theorem calmly_prepareExisting_legacy_absent (ht : validateTarget t = none) (hnone : ts t = none)
    (hw : At ts w) :
    Calmly srv ((legacySession S t).prepareExisting truncateOnly)
      (fun res w' => res = .ok (legacySession S t) ∧ At ts w') w := by
  refine (calmly_tableExists ht hw).seq ?_
  rintro _ w₁ ⟨rfl, h₁⟩
  rw [hnone]
  exact .ret ⟨rfl, h₁⟩

section

variable {r : Runner S} (hsink : r.sink = truncateOnly) {load : Load} {loadTS : Time}

include hsink

/-- The first batch on a table that is emptied or created before the write. -/
theorem calmly_onFirstBatch_legacy {b : Batch} {ts₁ : Tables}
    (hensure : load.autoCreateTable = true → Calmly srv (Mssql.ensureTable t b.columns)
      (fun e w' => e = none ∧ At (Function.update ts t (some [])) w') w)
    (hskip : load.autoCreateTable = false → ts₁ = Function.update ts t (some [])) (hw : At ts₁ w) :
    Calmly srv (r.onFirstBatch load ⟨0, true, t, some (legacySession S t)⟩ b)
      (fun res w' => ∃ st ts', res = .ok st ∧ At ts' w' ∧
        Filling t (legacySession S t) ts loadTS [] st ts') w := by
  have hfirst : Calmly srv
      ((legacySession S t).ensureFirstBatch r.sink load.autoCreateTable b.columns)
      (fun res w' => res = .ok (legacySession S t) ∧ At (Function.update ts t (some [])) w') w := by
    rw [hsink]
    cases hauto : load.autoCreateTable with
    | true =>
      refine (hensure hauto).seq ?_
      rintro _ w₁ ⟨rfl, h₁⟩
      exact .ret ⟨rfl, h₁⟩
    | false => exact .ret ⟨rfl, hskip hauto ▸ hw⟩
  refine hfirst.seq ?_
  rintro _ w₁ ⟨rfl, h₁⟩
  exact .ret ⟨_, _, rfl, h₁, rfl, rfl, rfl, [], rfl, rfl⟩

end

theorem calmly_commit_legacy {ts' : Tables} {Q : Option Err → Tables → Prop} (hQ : Q none ts')
    (hw : At ts' w) :
    Calmly srv (legacySession S t).commit
      (fun res w' => ∃ s₃ ts'', res = .ok s₃ ∧ s₃.abort = pure () ∧ At ts'' w' ∧ Q none ts'') w :=
  .ret ⟨legacySession S t, ts', rfl, rfl, hw, hQ⟩

/-! ## The runs -/

namespace Undisturbed

variable {l : ReplaceLoad S t} {rows : List SinkRow} {bs : List Batch}

/-- The runs with the legacy sink. -/
theorem executeLegacy (h : Undisturbed srv l w bs rows) {ts₁ : Tables}
    {Q : Option Err → Tables → Prop}
    (hprep : ∀ {w₁ : World side}, At w.db.tables w₁ →
      Calmly srv ((legacySession S t).prepareExisting truncateOnly)
        (fun res w' => res = .ok (legacySession S t) ∧ At ts₁ w') w₁)
    (hrest : ∀ {src run current result} {w₁ : World side}, At ts₁ w₁ →
      feed side src w₁.clock (l.legacyRunner.read (Runner.loadConfig l.load current)) w₁.src =
        (bs, result, none) →
      Calmly srv (l.legacyRunner.readAndFinish l.load src run current w.clock
          (some (legacySession S t)))
        (fun exit w' => exit.abort = pure () ∧ ∃ ts', At ts' w' ∧ Q exit.err ts') w₁) :
    Calmly srv l.executeLegacy (fun err w' => Q err w'.db.tables) w := by
  have hpoint : Runner.pointBased l.load = l.load := if_neg (not_or.2 l.kind)
  have hk : l.legacyRunner.sink.OnDb := truncateOnly_onDb
  refine calmly_replace hk l.mode hpoint h.supplies h.running (fun h₁ => ?_) hrest
  change Calmly srv ((ReplaceSession.new truncateOnly l.load.target).prepareExisting truncateOnly) _ _
  rw [l.target]
  exact hprep h₁

/-- The legacy replace of a present table, and of a missing one that it may
    create. -/
theorem calmly_legacy (h : Undisturbed srv l w bs rows)
    (hsome : (w.db.tables t).isSome ∨ (l.load.autoCreateTable = true ∧ bs ≠ [])) :
    Calmly srv l.executeLegacy
      (fun err w' => Leaves (Function.update w.db.tables t (some rows)) err w'.db.tables) w := by
  by_cases hlive : (w.db.tables t).isSome
  · refine h.executeLegacy (fun h₁ => calmly_prepareExisting_legacy h.target hlive h₁)
      fun h₁ hfeed => ?_
    refine calmly_fill _ truncateOnly_onDb rfl l.mode h.target h.storable onDb_legacySession
      onDb_legacySession (fun _ h₂ => ?_) (fun hbs => ⟨rfl, ?_⟩) (fun _ => rfl)
      (fun h₂ => calmly_commit_legacy ⟨rfl, rfl⟩ h₂) h₁ hfeed
    · have hpresent : (Function.update w.db.tables t (some []) t).isSome = true := by simp
      refine calmly_onFirstBatch_legacy rfl (fun _ => ?_) (fun _ => rfl) h₂
      exact calmly_ensureTable_present h.target _ h₂ hpresent
    · subst hbs
      rw [← Except.ok.inj h.storable.rows]
  · have hnone : w.db.tables t = none := by simpa using hlive
    obtain ⟨hauto, hbs⟩ := hsome.resolve_left hlive
    refine h.executeLegacy (fun h₁ => calmly_prepareExisting_legacy_absent h.target hnone h₁)
      fun h₁ hfeed => ?_
    refine calmly_fill (s := legacySession S t) _ truncateOnly_onDb rfl l.mode h.target h.storable
      onDb_legacySession onDb_legacySession (fun hb h₂ => ?_) (fun hbs' => absurd hbs' hbs) (fun _ => rfl)
      (fun h₂ => calmly_commit_legacy ⟨rfl, rfl⟩ h₂) h₁ hfeed
    obtain ⟨-, defs, hdefs⟩ := h.columns hnone _ hb
    refine calmly_onFirstBatch_legacy rfl (fun _ => ?_) (by simp [hauto]) h₂
    exact calmly_ensureTable h.target hdefs h₂ hnone

/-- Without a table and without a batch nothing happens. -/
theorem calmly_legacy_nothing (h : Undisturbed srv l w [] rows) (hnone : w.db.tables t = none) :
    Calmly srv l.executeLegacy (fun err w' => Leaves w.db.tables err w'.db.tables) w := by
  refine h.executeLegacy (fun h₁ => calmly_prepareExisting_legacy_absent h.target hnone h₁)
    fun h₁ hfeed => ?_
  exact calmly_fill w.db.tables truncateOnly_onDb rfl l.mode h.target h.storable onDb_legacySession
    onDb_legacySession (by simp) (fun _ => ⟨rfl, rfl⟩) (by simp)
    (fun h₂ => calmly_commit_legacy ⟨rfl, rfl⟩ h₂) h₁ hfeed

end Undisturbed

/-! ## A missing table that may not be created -/

/-- The handler of a legacy session. -/
def Waiting (t : TargetTable) (st : HandlerState S) : Prop :=
  st.writeTarget = t ∧ st.repl = some (legacySession S t)

omit [GoLib] in
theorem calmly_bulkCopy_missing {t : TargetTable} (rows : List SinkRow) (hw : At ts w)
    (hnone : ts t = none) :
    Calmly srv (statement (.bulkCopy t rows))
      (fun (e : Option Err) w' => e ≠ none ∧ At ts w') w := by
  have hans : w.db.answer srv .ok (.bulkCopy t rows) = (some "invalid object name", w.db) := by
    simp only [Db.answer, Db.append, hw.tables, hnone]
    rfl
  refine (calmly_statement hw.running hans).mono ?_
  rintro _ w₁ ⟨rfl, hr, hdb⟩
  exact ⟨by simp, hr, by rw [hdb, hw.tables]⟩

/-- Only a batch without rows can be written to a missing table. -/
theorem calmly_writeBatch_missing {b : Batch} {loadTS : Time} (hw : At ts w) (hnone : ts t = none) :
    Calmly srv (Mssql.writeBatch t b loadTS)
      (fun r w' => At ts w' ∧ ((∃ n, r = .ok n) ↔ b.rows = [])) w := by
  unfold Mssql.writeBatch
  by_cases hb : b.rows = []
  · rw [if_pos (by simp [hb])]
    exact .ret ⟨hw, by simp [hb]⟩
  · rw [if_neg (by simpa using hb)]
    cases validateTarget t with
    | some e => exact .ret ⟨hw, by simp [hb]⟩
    | none =>
      cases validateColumns b.columns with
      | some e => exact .ret ⟨hw, by simp [hb]⟩
      | none =>
        cases prepareRows b.columns loadTS b.rows with
        | error e => exact .ret ⟨hw, by simp [hb]⟩
        | ok rows =>
          refine (calmly_bulkCopy_missing rows hw hnone).seq ?_
          rintro (_ | e) w₁ ⟨hne, h₁⟩
          · exact absurd rfl hne
          · exact .ret ⟨h₁, by simp [hb]⟩

section

variable {r : Runner S} (hsink : r.sink = truncateOnly) {load : Load} {loadTS : Time}

include hsink

theorem calmly_handler_missing (hauto : load.autoCreateTable = false) {st : HandlerState S}
    (hst : Waiting t st) {b : Batch} (hw : At ts w) (hnone : ts t = none) :
    Calmly srv (r.handler load loadTS st b)
      (fun se w' => Waiting t se.1 ∧ At ts w' ∧ (se.2 = none ↔ b.rows = [])) w := by
  have hwrite : ∀ {st : HandlerState S}, Waiting t st → Calmly srv (r.writeBatch loadTS st b)
      (fun se w' => Waiting t se.1 ∧ At ts w' ∧ (se.2 = none ↔ b.rows = [])) w := by
    intro st hst
    unfold Runner.writeBatch
    rw [hst.1, hsink]
    refine (calmly_writeBatch_missing hw hnone).seq ?_
    rintro (e | n) w₁ ⟨h₁, hiff⟩
    · exact .ret ⟨hst, h₁, by simpa using hiff⟩
    · exact .ret ⟨⟨rfl, hst.2⟩, h₁, by simpa using hiff⟩
  unfold Runner.handler
  split_ifs with hfirst
  · unfold Runner.onFirstBatch
    rw [hst.2]
    unfold ReplaceSession.ensureFirstBatch
    rw [hauto]
    exact hwrite ⟨rfl, rfl⟩
  · exact hwrite hst

/-- The source of a load that can write no row: nothing is stored, and `Read`
    succeeds when no batch has rows. -/
theorem calmly_interpret_missing (hauto : load.autoCreateTable = false) {src : ℕ} {failed : Bool}
    {p : Prog (readSig S) (ReadResult × Option Err)} (hp : Reports failed p) {st : HandlerState S}
    (hst : Waiting t st) (hw : At ts w) (hnone : ts t = none) :
    Calmly srv (Runner.interpret src (r.handler load loadTS) p st)
      (fun sr w' => Waiting t sr.1 ∧ At ts w' ∧ (failed = true → sr.2.2 ≠ none) ∧
        (sr.2.2 = none → ∀ b ∈ (feed side src w.clock p w.src).1, b.rows = []) ∧
        ((∀ b ∈ (feed side src w.clock p w.src).1, b.rows = []) → failed = false →
          sr.2 = (feed side src w.clock p w.src).2)) w := by
  have hk : r.sink.OnDb := hsink ▸ truncateOnly_onDb
  induction p generalizing failed st w with
  | ret a => exact .ret ⟨hst, hw, hp, fun _ b hb => (List.not_mem_nil hb).elim, fun _ _ => rfl⟩
  | call c k ih =>
    cases c with
    | driver c =>
      have h₁ : At ts (World.answer srv side .ok (.source src c) w).2 := hw.answer (by simp) .ok
      exact .call rfl (ih _ (hp _) hst h₁)
    | emit b =>
      have h₁ : At ts (World.answer srv side .ok (.deliver b) w).2 := hw.answer (by simp) .ok
      have hdb : HandlerOnDb st := fun s hs => by
        rw [hst.2] at hs
        exact Option.some.inj hs ▸ onDb_legacySession
      refine .call rfl (Prog.Ends.seq ((calmly_handler_missing hsink hauto hst h₁ hnone).keeps
        (handler_calls hk hdb b) World.calm_onDb ⟨rfl, rfl⟩) ?_)
      rintro ⟨st', e⟩ w₂ ⟨⟨hst', h₂, hiff⟩, hsrc, hclock⟩
      refine (ih e (hp e) hst' h₂).mono ?_
      rintro sr w₃ ⟨hsr, h₃, hfailed, hempty, hdone⟩
      cases e with
      | some e =>
        have hb : b.rows ≠ [] := fun h => Option.some_ne_none e (hiff.2 h)
        have herr : sr.2.2 ≠ none := hfailed (by simp)
        exact ⟨hsr, h₃, fun _ => herr, fun h => absurd h herr,
          fun h _ => absurd (h b List.mem_cons_self) hb⟩
      | none =>
        have hfeed : feed side src w₂.clock (k none) w₂.src =
            feed side src w.clock (k none) w.src := by
          rw [hsrc, hclock]
          rfl
        rw [hfeed] at hempty hdone
        refine ⟨hsr, h₃, fun h => hfailed (by simp [h]), fun h => ?_, fun h hf => ?_⟩
        · exact List.forall_mem_cons.2 ⟨hiff.1 rfl, hempty h⟩
        · exact hdone (List.forall_mem_cons.1 h).2 (by simp [hf])

end

namespace Undisturbed

variable {l : ReplaceLoad S t} {rows : List SinkRow} {bs : List Batch}

/-- The legacy replace of a missing table that it may not create. -/
theorem calmly_legacy_missing (h : Undisturbed srv l w bs rows) (hnone : w.db.tables t = none)
    (hauto : l.load.autoCreateTable = false) :
    Calmly srv l.executeLegacy (fun err w' => w'.db.tables = w.db.tables ∧
      (err = none ↔ ∀ b ∈ bs, b.rows = [])) w := by
  refine h.executeLegacy (Q := fun err ts => ts = w.db.tables ∧ (err = none ↔ ∀ b ∈ bs, b.rows = []))
    (fun h₁ => calmly_prepareExisting_legacy_absent h.target hnone h₁) ?_
  intro src run current result w₁ h₁ hfeed
  unfold Runner.readAndFinish
  refine (calmly_interpret_missing rfl hauto (l.reports _) ⟨rfl, rfl⟩ h₁ hnone).seq ?_
  rintro ⟨st, result, rerr⟩ w₂ ⟨hst, h₂, -, hempty, hdone⟩
  have hiff : rerr = none ↔ ∀ b ∈ bs, b.rows = [] := by
    rw [show l.runner.read = l.legacyRunner.read from rfl, hfeed] at hempty hdone
    exact ⟨hempty, fun hb => congrArg Prod.snd (hdone hb rfl)⟩
  have hrepl : st.repl = some (legacySession S t) := hst.2
  cases rerr with
  | some e =>
    refine (calmly_failRun h₂ _ _ _ _ _ _).seq fun _ w₃ h₃ => ?_
    exact .ret ⟨by simp only [Runner.Exit.abort, hrepl]; rfl, _, h₃, rfl, hiff⟩
  | none =>
    simp only [hrepl]
    refine (calmly_finishRead h₂ l.mode _ _ _ _).seq ?_
    rintro _ w₃ ⟨rfl, h₃⟩
    exact .ret ⟨rfl, _, h₃, rfl, hiff⟩

end Undisturbed

/-! ## The comparison -/

/-- Both runs end, they succeed together, and then the live table is missing
    after both or has the same rows after both. -/
def ReplaceKindsAgree (srv : SqlServer) (l : ReplaceLoad S t) (w : World side) : Prop :=
  ∃ e₁ w₁ e₂ w₂, l.execute.eval (World.calm srv side) w = some (e₁, w₁) ∧
    l.executeLegacy.eval (World.calm srv side) w = some (e₂, w₂) ∧
    (e₁ = none ↔ e₂ = none) ∧ (e₁ = none → w₁.db.tables t = w₂.db.tables t)

/-- The commit of the staged rows leaves `x` under the name of the target. -/
def Publishes (srv : SqlServer) (t : TargetTable) (ts : Tables) (rows : List SinkRow)
    (x : Option (List SinkRow)) : Prop :=
  ∃ ts', CommitLeaves srv t (Function.update ts (staging t) (some rows)) ts' ∧ ts' t = x

omit [GoLib] in
/-- The swap of a present table that goes through publishes the staged rows. -/
theorem CommitLeaves.eq_some {t : TargetTable} {rows : List SinkRow} {ts' : Tables}
    (hlive : (ts t).isSome = true)
    (h : CommitLeaves srv t (Function.update ts (staging t) (some rows)) ts') : ts' t = some rows := by
  have hlive' : (Function.update ts (staging t) (some rows) t).isSome = true := by
    rwa [Function.update_of_ne (staging_ne t).symm]
  unfold CommitLeaves at h
  rw [if_pos hlive'] at h
  have hobj : srv.object (dotted t) = some t := by
    refine Swapped.object_eq ?_ (Function.update_self ..) h
    rw [Function.update_of_ne (old_ne t).symm]
    exact Option.isSome_iff_ne_none.1 hlive'
  rw [(Swapped.spec hobj h).1, Function.update_of_ne (staging_ne_old t), Function.update_self]

omit [GoLib] in
theorem CommitLeaves.unique {t : TargetTable} {rows : List SinkRow} {ts₁ ts₂ : Tables}
    (hnone : ts t = none)
    (h₁ : CommitLeaves srv t (Function.update ts (staging t) (some rows)) ts₁)
    (h₂ : CommitLeaves srv t (Function.update ts (staging t) (some rows)) ts₂) : ts₁ = ts₂ := by
  have habsent : ¬(Function.update ts (staging t) (some rows) t).isSome = true := by
    rw [Function.update_of_ne (staging_ne t).symm, hnone]
    simp
  unfold CommitLeaves at h₁ h₂
  rw [if_neg habsent] at h₁ h₂
  exact Except.ok.inj (h₁.symm.trans h₂)

/-- Two runs that end as `R₁` and `R₂` say. -/
theorem replaceKindsAgree_iff_of {l : ReplaceLoad S t} {P : Prop}
    {R₁ R₂ : Option Err → World side → Prop} (h₁ : Calmly srv l.execute R₁ w)
    (h₂ : Calmly srv l.executeLegacy R₂ w)
    (hP : ∀ {e₁ w₁ e₂ w₂}, R₁ e₁ w₁ → R₂ e₂ w₂ →
      (((e₁ = none ↔ e₂ = none) ∧ (e₁ = none → w₁.db.tables t = w₂.db.tables t)) ↔ P)) :
    ReplaceKindsAgree srv l w ↔ P := by
  obtain ⟨e₁, w₁, hx₁, hR₁⟩ := h₁
  obtain ⟨e₂, w₂, hx₂, hR₂⟩ := h₂
  constructor
  · rintro ⟨e₁', w₁', e₂', w₂', hx₁', hx₂', hagree⟩
    obtain ⟨rfl, rfl⟩ := Prod.mk.inj (Option.some.inj (hx₁.symm.trans hx₁'))
    obtain ⟨rfl, rfl⟩ := Prod.mk.inj (Option.some.inj (hx₂.symm.trans hx₂'))
    exact (hP hR₁ hR₂).1 hagree
  · intro h
    exact ⟨e₁, w₁, e₂, w₂, hx₁, hx₂, (hP hR₁ hR₂).2 h⟩

/-- Atomic and legacy replace agree on an undisturbed run exactly when the table is
    present, or no batch comes, or the legacy sink may create the table and the
    atomic one renames its staged rows to that name. The last case is that neither
    leaves a table: no batch has rows, and the rename of the empty staging table
    went to another name. -/
theorem replace_kinds_agree_iff {l : ReplaceLoad S t} {bs : List Batch} {rows : List SinkRow}
    (h : Undisturbed srv l w bs rows) :
    ReplaceKindsAgree srv l w ↔ (w.db.tables t).isSome ∨ bs = [] ∨
      (l.load.autoCreateTable = true ∧ Publishes srv t w.db.tables rows (some rows)) ∨
      (l.load.autoCreateTable = false ∧ (∀ b ∈ bs, b.rows = []) ∧
        Publishes srv t w.db.tables rows none) := by
  by_cases hlive : (w.db.tables t).isSome
  · obtain ⟨ts', hpub⟩ := h.commits (.inl hlive)
    refine replaceKindsAgree_iff_of (h.calmly_published (.inl hlive) hpub) (h.calmly_legacy (.inl hlive)) ?_
    rintro e₁ w₁ e₂ w₂ ⟨rfl, ht₁⟩ ⟨rfl, ht₂⟩
    simp [hlive, ht₁, ht₂, hpub.eq_some hlive]
  have hnone : w.db.tables t = none := by simpa using hlive
  by_cases hbs : bs = []
  · subst hbs
    refine replaceKindsAgree_iff_of (h.calmly_nothing hnone) (h.calmly_legacy_nothing hnone) ?_
    rintro e₁ w₁ e₂ w₂ ⟨rfl, ht₁⟩ ⟨rfl, ht₂⟩
    simp [ht₁, ht₂]
  obtain ⟨ts', hpub⟩ := h.commits (.inr hbs)
  have hpublishes : ∀ x, Publishes srv t w.db.tables rows x ↔ ts' t = x := fun x =>
    ⟨fun ⟨ts'', hpub'', hx⟩ => CommitLeaves.unique hnone hpub'' hpub ▸ hx, fun hx => ⟨ts', hpub, hx⟩⟩
  cases hauto : l.load.autoCreateTable with
  | true =>
    refine replaceKindsAgree_iff_of (h.calmly_published (.inr hbs) hpub) (h.calmly_legacy (.inr ⟨hauto, hbs⟩)) ?_
    rintro e₁ w₁ e₂ w₂ ⟨rfl, ht₁⟩ ⟨rfl, ht₂⟩
    simp [hlive, hbs, ht₁, ht₂, hpublishes]
  | false =>
    refine replaceKindsAgree_iff_of (h.calmly_published (.inr hbs) hpub) (h.calmly_legacy_missing hnone hauto) ?_
    rintro e₁ w₁ e₂ w₂ ⟨rfl, ht₁⟩ ⟨ht₂, hiff⟩
    simp [hbs, ht₁, ht₂, hpublishes, hnone, hiff]

end

/-- The commit of a target whose name is read as its own goes through. -/
theorem publishes_of_object {srv : SqlServer} {t : TargetTable}
    (hobj : srv.object (dotted t) = some t) (ts : Tables) (rows : List SinkRow) :
    Publishes srv t ts rows (some rows) := by
  have hsame : Function.update ts (staging t) (some rows) t = ts t :=
    Function.update_of_ne (staging_ne t).symm ..
  cases ht : ts t with
  | none =>
    refine ⟨Function.update (Function.update (Function.update ts (staging t) (some rows))
      (staging t) none) t (some rows), ?_, Function.update_self ..⟩
    unfold CommitLeaves
    rw [hsame, ht, if_neg (by simp)]
    refine rename_eq_ok ?_ (Function.update_self ..) (hsame.trans ht)
    rw [object_staging, hobj]
    rfl
  | some live =>
    have hpub : ∃ ts', CommitLeaves srv t (Function.update ts (staging t) (some rows)) ts' := by
      unfold CommitLeaves
      simp only [hsame, ht, Option.isSome_some, if_true]
      have hlive : Function.update (Function.update ts (staging t) (some rows)) (old t) none t =
          some live := by
        rw [Function.update_of_ne (old_ne t).symm, hsame, ht]
      have hstg : Function.update (Function.update ts (staging t) (some rows)) (old t) none
          (staging t) = some rows := by
        rw [Function.update_of_ne (staging_ne_old t), Function.update_self]
      exact Swapped.of_object hobj hlive (Function.update_self ..) hstg
    obtain ⟨ts', hpub⟩ := hpub
    exact ⟨ts', hpub, hpub.eq_some (by rw [ht]; rfl)⟩

section

attribute [local instance] GoLib.ascii

theorem object_orders : (⟨"wh", "dbo"⟩ : SqlServer).object (dotted orders) = some orders := by
  decide +kernel

/-- A replace of a present table by one row. -/
theorem oneRow_undisturbed : Undisturbed ⟨"wh", "dbo"⟩ (oneRowLoad orders) emptyOrders [oneRow]
    [⟨[("id", .int64 1)], 0⟩] where
  running := rfl
  supplies := supplies_oneRow
  target := by decide +kernel
  staging := by decide +kernel
  storable := storable_oneRow 0
  columns h := by simp [emptyOrders, sinkWorld] at h
  commits _ := by
    obtain ⟨ts', hpub, -⟩ := publishes_of_object object_orders emptyOrders.db.tables _
    exact ⟨ts', hpub⟩

theorem present_orders_agree : ReplaceKindsAgree ⟨"wh", "dbo"⟩ (oneRowLoad orders) emptyOrders :=
  (replace_kinds_agree_iff oneRow_undisturbed).2 (.inl rfl)

/-- The load of one row without `auto_create_table`. -/
def manualLoad (t : TargetTable) : ReplaceLoad noDriver t :=
  { oneRowLoad t with load := { (oneRowLoad t).load with autoCreateTable := false } }

/-- Nothing but the write to the missing table fails, and the runs disagree: the
    atomic replace creates the table and succeeds, the legacy one fails. -/
theorem missing_table_fails_legacy :
    (Undisturbed ⟨"wh", "dbo"⟩ (manualLoad orders) (sinkWorld fun _ => none) [oneRow]
      [⟨[("id", .int64 1)], 0⟩]) ∧
    (((manualLoad orders).execute.eval (World.calm ⟨"wh", "dbo"⟩ plainSide)
      (sinkWorld fun _ => none)).map fun x => (x.1, x.2.db.tables orders)) =
      some (none, some [⟨[("id", .int64 1)], 0⟩]) ∧
    (((manualLoad orders).executeLegacy.eval (World.calm ⟨"wh", "dbo"⟩ plainSide)
      (sinkWorld fun _ => none)).map fun x => (x.1, x.2.db.tables orders)) =
      some (some "invalid object name", none) := by
  refine ⟨?_, by decide +kernel, by decide +kernel⟩
  obtain ⟨ts', hpub, -⟩ := publishes_of_object object_orders (fun _ => none)
    [⟨[("id", .int64 1)], 0⟩]
  exact ⟨rfl, ⟨[], 0, (), { rowsRead := 1 }, rfl, rfl, rfl⟩, by decide +kernel, by decide +kernel,
    storable_oneRow 0, fun _ b hb => Option.some.inj hb ▸ columnDefs_oneRow, fun _ => ⟨ts', hpub⟩⟩

end

end DataLoader
