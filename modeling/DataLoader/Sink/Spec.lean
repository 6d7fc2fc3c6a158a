import DataLoader.Effects.Spec
import DataLoader.Sink.Mssql

/-!
# What the sink functions do to the tables

Specifications of the functions of `internal/sink`, over an abstract view of the
system: the sink database, the batches handed over by sources and the number of
runs that were finished as successful. Each says which tables may differ
afterwards (`Off`) and what a nil error means.

* `sinkSpec`, `sinkSpec_meets`: the view, and that the system meets it.
* `object_suffixed`: `sp_rename` reads the name of a suffixed table as the
  suffixed reading of the table's own name.
* `wp_beginReplace`, `wp_writeBatch`, `wp_commitReplace`, `wp_abortReplace`.
-/

namespace DataLoader

open Effects

variable {S : Sig}

/-! ## The view -/

/-- The batch that a call hands over. -/
def SysCall.batch? : SysCall S → Option Batch
  | .deliver b => some b
  | _ => none

/-- Whether a call records a run as successful. -/
def SysCall.finishesSuccess : SysCall S → Bool
  | .store (.finishRun _ status _ _ _ _) => status = .success
  | _ => false

/-- The batches that sources have handed over, in order. -/
def deliveredBatches (trace : List (SysCall S)) : List Batch := trace.filterMap SysCall.batch?

/-- How often a run has been recorded as successful. -/
def successes (trace : List (SysCall S)) : ℕ := trace.countP SysCall.finishesSuccess

/-- The system as the sink functions are concerned with it. -/
structure SinkView where
  db : Db
  delivered : List Batch
  finishes : ℕ

/-- The view of a state. -/
def sinkView {side : SourceSide S} (w : World side) : SinkView :=
  ⟨w.db, deliveredBatches w.trace, successes w.trace⟩

/-- The tables of a view. -/
abbrev SinkView.tables (v : SinkView) : Tables := v.db.tables

/-- The rows of a table, none when it is missing. -/
def SinkView.content (v : SinkView) (t : TargetTable) : List SinkRow := (v.tables t).getD []

/-- The view after a statement left the database `db`. -/
abbrev SinkView.withDb (v : SinkView) (db : Db) : SinkView := { v with db }

@[simp] theorem SinkView.tables_withDb (v : SinkView) (db : Db) :
    (v.withDb db).tables = db.tables := rfl

/-- What one call does to the view. -/
def sinkStep (srv : SqlServer) : (c : SysCall S) → SinkView → c.Ans → SinkView → Prop
  | .db s, v, r, v' =>
    ∃ o, r = (v.db.answer srv o s).1 ∧ v' = v.withDb (v.db.answer srv o s).2
  | .deliver b, v, _, v' => v' = { v with delivered := v.delivered ++ [b] }
  | .store (.finishRun _ status _ _ _ _), v, _, v' =>
    v' = { v with finishes := v.finishes + if status = .success then 1 else 0 }
  | _, v, _, v' => v' = v

/-- The specification of the sink side of a run; nobody else writes to it. -/
def sinkSpec (S : Sig) (srv : SqlServer) : Spec (sysSig S) SinkView := .quiet (sinkStep srv)

theorem sinkSpec_meets (srv : SqlServer) (side : SourceSide S) :
    Meets (World.machine srv side) (sinkSpec S srv) sinkView where
  step {c o w r w'} h := by
    obtain ⟨-, ha⟩ := World.machine_answer h
    obtain ⟨rfl, rfl⟩ := Prod.mk.inj ha
    change sinkStep srv c _ _ _
    cases c with
    | db s =>
      refine ⟨o, rfl, ?_⟩
      simp [sinkView, deliveredBatches, successes, SysCall.batch?,
        SysCall.finishesSuccess]
    | store s =>
      cases s <;>
        simp [sinkStep, sinkView, deliveredBatches, successes,
          SysCall.batch?, SysCall.finishesSuccess, List.countP_append, List.countP_cons]
    | _ =>
      simp [sinkStep, sinkView, deliveredBatches, successes,
        SysCall.batch?, SysCall.finishesSuccess]
  env {e w w'} h := by
    obtain ⟨hdb, -, htr⟩ := World.env_db h
    simp [sinkSpec, Spec.quiet, sinkView, hdb, htr]

variable {srv : SqlServer} {α : Type}

theorem wp_statement {c : DbCall} {Q : c.Ans → SinkView → Prop} {v : SinkView} :
    (sinkSpec S srv).wp (Mssql.statement c) Q v ↔
      ∀ o, Q (v.db.answer srv o c).1 (v.withDb (v.db.answer srv o c).2) := by
  refine ⟨fun h o => h v rfl _ _ ⟨o, rfl, rfl⟩, ?_⟩
  rintro h _ rfl _ _ ⟨o, rfl, rfl⟩
  exact h o

/-- A call that the view does not see. -/
def SysCall.silent : SysCall S → Bool
  | .db _ | .deliver _ => false
  | .store (.finishRun _ status _ _ _ _) => status ≠ .success
  | _ => true

theorem wp_silent {c : SysCall S} (hc : c.silent = true) {k : c.Ans → Prog (sysSig S) α}
    {Q : α → SinkView → Prop} {v : SinkView} (h : ∀ r, (sinkSpec S srv).wp (k r) Q v) :
    (sinkSpec S srv).wp (Prog.perform (S := sysSig S) c >>= k) Q v := by
  rintro _ rfl r v' hs
  have hv : v' = v := by
    cases c with
    | db s => cases hc
    | deliver b => cases hc
    | store s => cases s <;> simp_all [SysCall.silent, sinkSpec, Spec.quiet, sinkStep]
    | _ => exact hs
  exact hv ▸ h r

/-! ## Frames -/

/-- Only tables of `X` may differ; nothing was handed over or finished. -/
def Off (X : List TargetTable) (v v' : SinkView) : Prop :=
  (∀ u ∉ X, v'.tables u = v.tables u) ∧ v'.delivered = v.delivered ∧ v'.finishes = v.finishes

namespace Off

variable {X Y : List TargetTable} {v v₁ v₂ : SinkView}

theorem refl (X : List TargetTable) (v : SinkView) : Off X v v := ⟨fun _ _ => rfl, rfl, rfl⟩

theorem trans (h₁ : Off X v v₁) (h₂ : Off X v₁ v₂) : Off X v v₂ :=
  ⟨fun u hu => (h₂.1 u hu).trans (h₁.1 u hu), h₂.2.1.trans h₁.2.1, h₂.2.2.trans h₁.2.2⟩

theorem mono (h : Off X v v₁) (hXY : X ⊆ Y) : Off Y v v₁ :=
  ⟨fun u hu => h.1 u fun hx => hu (hXY hx), h.2⟩

end Off

/-! ## The statements -/

/-- A statement outside a transaction that can only set the table `t` to `x`: a
    nil error means that it did. -/
theorem statement_sets {v : SinkView} {t : TargetTable} {x : Option (List SinkRow)}
    {f : Tables → Except Err Tables}
    (hf : ∀ ts, f v.tables = .ok ts → ts = Function.update v.tables t x) (o : Outcome) :
    Off [t] v (v.withDb (v.db.statement o f).2) ∧
      ((v.db.statement o f).1 = none → (v.db.statement o f).2.tables t = x) := by
  unfold Db.statement
  cases hts : f v.tables with
  | error e => exact ⟨Off.refl _ _, by simp⟩
  | ok ts =>
    obtain rfl := hf ts hts
    have hoff : Off [t] v (v.withDb { v.db with tables := Function.update v.tables t x }) :=
      ⟨fun u hu => Function.update_of_ne (by simpa using hu) _ _, rfl, rfl⟩
    cases o with
    | ok => exact ⟨hoff, fun _ => Function.update_self ..⟩
    | fail msg n =>
      refine ⟨?_, fun h => by simp [Outcome.err] at h⟩
      cases n with
      | zero => exact Off.refl _ _
      | succ n => exact hoff

/-- A statement outside a transaction has its effect or none. -/
theorem statement_tables (db : Db) (o : Outcome) (f : Tables → Except Err Tables) :
    (db.statement o f).2.tables = db.tables ∨ f db.tables = .ok (db.statement o f).2.tables := by
  unfold Db.statement
  cases f db.tables with
  | error e => exact .inl rfl
  | ok ts =>
    cases o.effective
    · exact .inl rfl
    · exact .inr rfl

namespace Mssql

theorem wp_tableExists' (t : TargetTable) (v : SinkView) :
    (sinkSpec S srv).wp (tableExists' t)
      (fun r v' => v' = v ∧ ∀ b, r = .ok b → b = (v.tables t).isSome) v := by
  refine wp_statement.2 fun o => ⟨rfl, ?_⟩
  cases o with
  | ok => rintro b ⟨⟩; rfl
  | fail msg n => rintro b ⟨⟩

theorem wp_dropTableIfExists (t : TargetTable) (v : SinkView) :
    (sinkSpec S srv).wp (dropTableIfExists t)
      (fun e v' => Off [t] v v' ∧ (e = none → v'.tables t = none)) v := by
  refine wp_statement.2 fun o => statement_sets ?_ o
  rintro ts ⟨⟩
  rfl

theorem wp_selectInto (stg t : TargetTable) (v : SinkView) :
    (sinkSpec S srv).wp (statement (.selectInto stg t))
      (fun (e : Option Err) v' => Off [stg] v v' ∧ (e = none → v'.tables stg = some [])) v := by
  refine wp_statement.2 fun o => statement_sets ?_ o
  intro ts hts
  split at hts
  · exact (Except.ok.inj hts).symm
  · cases hts
  · cases hts

theorem create_ok {ts ts' : Tables} {t : TargetTable} (h : Db.create ts t = .ok ts') :
    ts t = none ∧ ts' = Function.update ts t (some []) := by
  unfold Db.create at h
  split at h
  · rename_i hnone
    exact ⟨hnone, (Except.ok.inj h).symm⟩
  · cases h

/-- `CREATE TABLE` makes an empty table, or leaves what is there. -/
theorem wp_createTable (t : TargetTable) (cols : List ColumnDef) (v : SinkView) :
    (sinkSpec S srv).wp (statement (.createTable t cols))
      (fun (e : Option Err) v' => Off [t] v v' ∧ (e = none → v'.tables t = some []) ∧
        v'.content t = v.content t) v := by
  refine wp_statement.2 fun o => ?_
  obtain ⟨hoff, hok⟩ := statement_sets (f := fun ts => Db.create ts t)
    (fun _ h => (create_ok h).2 : ∀ ts, Db.create v.tables t = .ok ts → _) o
  refine ⟨hoff, hok, ?_⟩
  rcases statement_tables v.db o (fun ts => Db.create ts t) with hsame | hset
  · exact congrArg (fun ts : Tables => (ts t).getD []) hsame
  · obtain ⟨hnone, hnew⟩ := create_ok hset
    have hold : v.content t = [] := by simp [SinkView.content, SinkView.tables, hnone]
    have hcur := congrArg (fun ts : Tables => (ts t).getD []) hnew
    rw [hold]
    simpa [SinkView.content, Db.answer] using hcur

/-- A bulk copy appends its rows, or a part of them and fails; to a missing
    table it only fails. -/
theorem wp_bulkCopy (t : TargetTable) (rows : List SinkRow) (v : SinkView) :
    (sinkSpec S srv).wp (statement (.bulkCopy t rows))
      (fun (e : Option Err) v' => Off [t] v v' ∧ ∃ D, v'.tables t = (v.tables t).map (· ++ D) ∧
        v'.content t = v.content t ++ D ∧ (e = none → D = rows)) v := by
  refine wp_statement.2 fun o => ?_
  simp only [Db.answer, Db.append]
  cases htab : v.db.tables t with
  | none =>
    cases o <;> exact ⟨Off.refl _ _, [], by simp [htab], by simp, by simp [Outcome.err]⟩
  | some cur =>
    have hoff : ∀ x, Off [t] v (v.withDb { v.db with tables := Function.update v.tables t x }) :=
      fun x => ⟨fun u hu => Function.update_of_ne (by simpa using hu) _ _, rfl, rfl⟩
    cases o with
    | ok => exact ⟨hoff _, rows, by simp [htab], by simp [SinkView.content, htab], fun _ => rfl⟩
    | fail msg k =>
      exact ⟨hoff _, rows.take k, by simp [htab], by simp [SinkView.content, htab],
        by simp [Outcome.err]⟩

/-! ## Names in `sp_rename` -/

@[simp] theorem staging_schema (t : TargetTable) : (staging t).schema = t.schema := rfl

theorem suffixed_name_ne {suf : String} (h : suf ≠ "") (t : TargetTable) :
    (suffixed t suf).name ≠ t.name := by
  intro heq
  have hlen : (t.name ++ suf).length = t.name.length := congrArg String.length heq
  rw [String.length_append] at hlen
  exact h (String.length_eq_zero_iff.1 (by omega))

theorem suffixed_ne {suf : String} (h : suf ≠ "") (t : TargetTable) : suffixed t suf ≠ t :=
  fun heq => suffixed_name_ne h t (congrArg TargetTable.name heq)

theorem staging_ne (t : TargetTable) : staging t ≠ t := suffixed_ne (by decide) t

theorem old_ne (t : TargetTable) : old t ≠ t := suffixed_ne (by decide) t

theorem staging_inj {t u : TargetTable} (h : staging t = staging u) : t = u := by
  have hschema : (staging t).schema = (staging u).schema := by rw [h]
  have hname : (staging t).name = (staging u).name := by rw [h]
  obtain ⟨s, n⟩ := t
  obtain ⟨s', n'⟩ := u
  simpa [staging, suffixed] using And.intro hschema hname

theorem staging_ne_old (t : TargetTable) : staging t ≠ old t := by
  intro heq
  have hname : t.name ++ stagingSuffix = t.name ++ oldSuffix :=
    congrArg (fun u : TargetTable => u.name) heq
  exact absurd (String.append_right_inj t.name |>.1 hname) (by decide)

/-- The object name that `renameInTx` builds. -/
abbrev dotted (t : TargetTable) : String := t.schema ++ "." ++ t.name

theorem toList_dotted (t : TargetTable) :
    (dotted t).toList = t.schema.toList ++ '.' :: t.name.toList := by
  simp [dotted, String.toList_append, show ".".toList = ['.'] from rfl]

/-- Names without a dot are the parts of the dotted name. -/
theorem splitOn_dotted {t : TargetTable} (hschema : '.' ∉ t.schema.toList)
    (hname : '.' ∉ t.name.toList) :
    (dotted t).toList.splitOn '.' = [t.schema.toList, t.name.toList] := by
  rw [toList_dotted, List.splitOn_append_cons_self_of_not_mem hschema,
    List.splitOn_eq_singleton hname]

/-- Text without a separator only extends the last part. -/
theorem splitOn_append_of_notMem {suf : List Char} (h : '.' ∉ suf) (l : List Char) :
    ∃ parts last, l.splitOn '.' = parts ++ [last] ∧
      (l ++ suf).splitOn '.' = parts ++ [last ++ suf] := by
  induction l with
  | nil => exact ⟨[], [], by simp, by simpa using List.splitOn_eq_singleton h⟩
  | cons c l ih =>
    obtain ⟨parts, last, hl, hls⟩ := ih
    rw [List.cons_append, List.splitOn_cons_eq_if_modifyHead, List.splitOn_cons_eq_if_modifyHead,
      hl, hls]
    split_ifs
    · exact ⟨[] :: parts, last, rfl, rfl⟩
    · cases parts with
      | nil => exact ⟨[], c :: last, rfl, rfl⟩
      | cons p ps => exact ⟨(c :: p) :: ps, last, rfl, rfl⟩

theorem notMem_of_mem_splitOn {l p : List Char} (hp : p ∈ l.splitOn '.') : '.' ∉ p := by
  induction l generalizing p with
  | nil => simp_all
  | cons c l ih =>
    rw [List.splitOn_cons_eq_if_modifyHead] at hp
    split_ifs at hp with hc
    · rcases List.mem_cons.1 hp with rfl | hp
      · simp
      · exact ih hp
    · cases hl : l.splitOn '.' with
      | nil => simp [hl] at hp
      | cons q qs =>
        rw [hl] at hp ih
        rcases List.mem_cons.1 hp with rfl | hp
        · have hc : '.' ≠ c := fun h => hc (by simp [← h])
          simpa [hc] using ih (List.mem_cons_self ..)
        · exact ih (List.mem_cons_of_mem _ hp)

/-- The table read from a name is called like the last part of it. -/
theorem object_name {t a : TargetTable} (h : srv.object (dotted t) = some a) :
    ∃ parts, t.name.toList.splitOn '.' = parts ++ [a.name.toList] := by
  have hlast : ∃ init, (dotted t).toList.splitOn '.' = init ++ [a.name.toList] := by
    unfold SqlServer.object at h
    split at h
    · rename_i s n hparts
      obtain rfl := Option.some.inj h
      exact ⟨[s], by simpa using hparts⟩
    · rename_i d s n hparts
      have hname : n = a.name.toList := by
        split_ifs at h <;> obtain rfl := Option.some.inj h <;> simp
      exact ⟨[d, s], by simpa [hname] using hparts⟩
    · cases h
  obtain ⟨init, hinit⟩ := hlast
  rw [toList_dotted, List.splitOn_append_cons_self] at hinit
  rcases List.eq_nil_or_concat (t.name.toList.splitOn '.') with hnil | ⟨parts, last, hparts⟩
  · exact absurd hnil (List.splitOn_ne_nil _ _)
  · rw [List.concat_eq_append] at hparts
    rw [hparts, ← List.append_assoc] at hinit
    obtain ⟨-, hlast⟩ := List.append_inj' hinit rfl
    exact ⟨parts, by rw [hparts, hlast]⟩

/-- So the target is never called like the staging table of what is read. -/
theorem name_ne_of_object {t a : TargetTable} (h : srv.object (dotted t) = some a) :
    t.name ≠ (staging a).name := by
  intro heq
  obtain ⟨parts, hparts⟩ := object_name h
  have hdot : '.' ∉ a.name.toList := notMem_of_mem_splitOn (l := t.name.toList) (by simp [hparts])
  have hchars : t.name.toList = a.name.toList ++ stagingSuffix.toList := by
    rw [heq]; simp [staging, suffixed, String.toList_append]
  rw [hchars, List.splitOn_eq_singleton (by simpa [stagingSuffix] using hdot)] at hparts
  have hlast : [a.name.toList ++ stagingSuffix.toList] = [a.name.toList] :=
    (List.append_inj' (List.nil_append _ |>.trans hparts) rfl).2
  have hlen := congrArg List.length (List.singleton_inj.1 hlast)
  simp [stagingSuffix] at hlen

/-- `sp_rename` reads the name of a suffixed table as the suffixed reading of
    the table's own name. -/
theorem object_suffixed {suf : String} (h : '.' ∉ suf.toList) (t : TargetTable) :
    srv.object (dotted (suffixed t suf)) = (srv.object (dotted t)).map (suffixed · suf) := by
  obtain ⟨parts, last, hl, hls⟩ := splitOn_append_of_notMem h (dotted t).toList
  have htext : (dotted (suffixed t suf)).toList = (dotted t).toList ++ suf.toList := by
    simp [suffixed, String.append_assoc]
  have hlast : String.ofList (last ++ suf.toList) = String.ofList last ++ suf := by
    simp [String.ofList_append]
  simp only [SqlServer.object, htext, hl, hls]
  match parts with
  | [] => rfl
  | [s] => simp [suffixed, hlast]
  | [d, s] =>
    simp only [List.cons_append, List.nil_append]
    split_ifs <;> simp [suffixed, hlast]
  | _ :: _ :: _ :: _ => simp

theorem object_staging (t : TargetTable) :
    srv.object (dotted (staging t)) = (srv.object (dotted t)).map staging :=
  object_suffixed (by decide) t

theorem rename_ok {ts ts' : Tables} {objname newname : String}
    (h : srv.rename ts objname newname = .ok ts') :
    ∃ a rows, srv.object objname = some a ∧ ts a = some rows ∧ ts ⟨a.schema, newname⟩ = none ∧
      ts' = Function.update (Function.update ts a none) ⟨a.schema, newname⟩ (some rows) := by
  unfold SqlServer.rename at h
  cases hobj : srv.object objname with
  | none => rw [hobj] at h; cases h
  | some a =>
    simp only [hobj] at h
    split at h
    · rename_i rows hrows hfree
      exact ⟨a, rows, rfl, hrows, hfree, (Except.ok.inj h).symm⟩
    · cases h
    · cases h

theorem rename_eq_ok {ts : Tables} {objname newname : String} {a : TargetTable}
    {rows : List SinkRow} (hobj : srv.object objname = some a) (hrows : ts a = some rows)
    (hfree : ts ⟨a.schema, newname⟩ = none) :
    srv.rename ts objname newname =
      .ok (Function.update (Function.update ts a none) ⟨a.schema, newname⟩ (some rows)) := by
  simp only [SqlServer.rename, hobj, hrows, hfree]

/-- What the three steps of the swap do to the working copy. -/
def Swapped (srv : SqlServer) (t stg old : TargetTable) (ts ts' : Tables) : Prop :=
  ∃ ts₁ ts₂, srv.rename ts (dotted t) old.name = .ok ts₁ ∧
    srv.rename ts₁ (dotted stg) t.name = .ok ts₂ ∧ ts₂ old ≠ none ∧
    ts' = Function.update ts₂ old none

/-- A swap of present tables that goes through is one of the target itself:
    with any other reading of its name there is no old table to drop, or the
    name of the live table is still taken. -/
theorem Swapped.object_eq {t : TargetTable} {ts ts' : Tables} (hlive : ts t ≠ none)
    (hold : ts (old t) = none) (h : Swapped srv t (staging t) (old t) ts ts') :
    srv.object (dotted t) = some t := by
  obtain ⟨ts₁, ts₂, h₁, h₂, hdrop, -⟩ := h
  obtain ⟨a, ra, ha, -, -, rfl⟩ := rename_ok h₁
  obtain ⟨b, rb, hb, -, hfree, rfl⟩ := rename_ok h₂
  obtain rfl : staging a = b := by simpa [object_staging, ha] using hb
  have hschema : a.schema = t.schema := by
    by_contra hne
    have hne' : ∀ n, old t ≠ ⟨a.schema, n⟩ := fun n heq =>
      hne (congrArg TargetTable.schema heq).symm
    refine hdrop ?_
    rw [staging_schema, Function.update_of_ne (hne' _)]
    simp only [Function.update_apply, if_neg (hne' _)]
    split_ifs <;> simp [hold]
  have ht : (⟨(staging a).schema, t.name⟩ : TargetTable) = t := by
    rw [staging_schema, hschema]
  have ho : (⟨a.schema, (old t).name⟩ : TargetTable) = old t := by rw [hschema]; rfl
  rw [ht, ho, Function.update_of_ne (old_ne t).symm] at hfree
  by_contra hat
  have : t ≠ a := fun h => hat (by rw [ha, ← h])
  rw [Function.update_of_ne this] at hfree
  exact hlive hfree

/-- A swap of the target itself moves the staging rows under its name. -/
theorem Swapped.spec {t : TargetTable} {ts ts' : Tables} (hobj : srv.object (dotted t) = some t)
    (h : Swapped srv t (staging t) (old t) ts ts') :
    ts' t = ts (staging t) ∧ ∀ u ∉ [staging t, t, old t], ts' u = ts u := by
  obtain ⟨ts₁, ts₂, h₁, h₂, -, rfl⟩ := h
  obtain ⟨a, ra, ha, -, -, rfl⟩ := rename_ok h₁
  obtain ⟨b, rb, hb, hrb, -, rfl⟩ := rename_ok h₂
  obtain rfl : t = a := by simpa [hobj] using ha
  obtain rfl : staging t = b := by simpa [object_staging, hobj] using hb
  have hold : (⟨t.schema, (old t).name⟩ : TargetTable) = old t := rfl
  have hlive : (⟨(staging t).schema, t.name⟩ : TargetTable) = t := rfl
  rw [hold] at hrb ⊢
  rw [hlive]
  rw [Function.update_of_ne (staging_ne_old t), Function.update_of_ne (staging_ne t)] at hrb
  refine ⟨?_, fun u hu => ?_⟩
  · rw [Function.update_of_ne (old_ne t).symm, Function.update_self, hrb]
  · simp only [List.mem_cons, List.not_mem_nil, or_false, not_or] at hu
    simp [Function.update_of_ne, hu]

/-- A swap goes through when the name of the target is read as its own. -/
theorem Swapped.of_object {t : TargetTable} {ts : Tables} {live rows : List SinkRow}
    (hobj : srv.object (dotted t) = some t) (hlive : ts t = some live) (hold : ts (old t) = none)
    (hstg : ts (staging t) = some rows) : ∃ ts', Swapped srv t (staging t) (old t) ts ts' := by
  have hobj' : srv.object (dotted (staging t)) = some (staging t) := by
    rw [object_staging, hobj]
    rfl
  have h₁ : srv.rename ts (dotted t) (old t).name =
      .ok (Function.update (Function.update ts t none) (old t) (some live)) :=
    rename_eq_ok hobj hlive hold
  have h₂ : srv.rename (Function.update (Function.update ts t none) (old t) (some live))
      (dotted (staging t)) t.name =
      .ok (Function.update (Function.update (Function.update (Function.update ts t none) (old t)
        (some live)) (staging t) none) t (some rows)) := by
    refine rename_eq_ok hobj' ?_ ?_
    · rw [Function.update_of_ne (staging_ne_old t), Function.update_of_ne (staging_ne t), hstg]
    · change Function.update (Function.update ts t none) (old t) (some live) t = none
      rw [Function.update_of_ne (old_ne t).symm, Function.update_self]
  refine ⟨_, _, _, h₁, h₂, ?_, rfl⟩
  rw [Function.update_of_ne (old_ne t), Function.update_of_ne (staging_ne_old t).symm,
    Function.update_self]
  exact Option.some_ne_none live

/-- What a commit of the staging table did: `sp_rename` read the name of the
    target as `a`, only the tables it then renamed or dropped differ, and the
    staging rows are live when `a` is the target. -/
def Published (srv : SqlServer) (t : TargetTable) (v v' : SinkView) : Prop :=
  ∃ a, srv.object (dotted t) = some a ∧ Off [staging a, ⟨a.schema, t.name⟩, old t] v v' ∧
    (a = t → v'.tables t = v.tables (staging t))

/-! ## Transactions -/

/-- The view inside a transaction with working copy `ts`. -/
abbrev inside (v : SinkView) (ts : Tables) : SinkView := v.withDb ⟨v.tables, some ts⟩

/-- The rule of transactions: a body that leaves working copies satisfying `R`
    either fails and nothing happened, or its working copy is current. -/
theorem wp_inTx {body : Prog (sysSig S) (Option Err)} {R : Option Err → Tables → Prop} {v : SinkView}
    (h : (sinkSpec S srv).wp body (fun e v' => ∃ ts, R e ts ∧ v' = inside v ts)
      (inside v v.tables)) :
    (sinkSpec S srv).wp (inTx body)
      (fun e v' => (e ≠ none ∧ Off [] v v') ∨
        (e = none ∧ R none v'.tables ∧ v'.delivered = v.delivered ∧ v'.finishes = v.finishes)) v := by
  refine (Spec.wp_bind _ _ _ _).2 (wp_statement.2 fun o => ?_)
  cases o with
  | fail msg n => exact .inl ⟨by simp, Off.refl _ _⟩
  | ok =>
    refine Spec.wp_seq h ?_
    rintro (_ | e) _ ⟨ts, hR, rfl⟩
    · refine (Spec.wp_bind _ _ _ _).2 (wp_statement.2 fun o => ?_)
      refine (Spec.wp_bind _ _ _ _).2 (wp_statement.2 fun _ => ?_)
      cases o with
      | ok => exact .inr ⟨rfl, hR, rfl, rfl⟩
      | fail msg n => exact .inl ⟨by simp [Db.answer, Db.commit], Off.refl _ _⟩
    · refine (Spec.wp_bind _ _ _ _).2 (wp_statement.2 fun _ => ?_)
      exact .inl ⟨by simp, Off.refl _ _⟩

/-- A statement of the transaction changes the working copy as `f` says when it
    reports no error. -/
theorem inside_inTx (v : SinkView) (ts : Tables) (f : Tables → Except Err Tables) (o : Outcome) :
    ∃ ts', (((inside v ts).db.inTx o f).1 = none → f ts = .ok ts') ∧
      (inside v ts).withDb ((inside v ts).db.inTx o f).2 = inside v ts' := by
  cases o with
  | fail msg n => exact ⟨ts, fun h => by simp [Db.inTx] at h, rfl⟩
  | ok =>
    cases hf : f ts with
    | error e => exact ⟨ts, fun h => by simp [Db.inTx, hf] at h, by simp [Db.inTx, hf]⟩
    | ok ts' => exact ⟨ts', fun _ => rfl, by simp [Db.inTx, hf]⟩

variable [GoLib]

/-! ## The functions of `mssql.go` -/

theorem validateTarget_eq_none {t : TargetTable} :
    validateTarget t = none ↔ Sqlident.validate t.schema = none ∧ Sqlident.validate t.name = none := by
  unfold validateTarget
  cases Sqlident.validate t.schema <;> cases Sqlident.validate t.name <;> simp

/-- A table that `EnsureTable` finds missing is empty when it succeeds; rows are
    never touched. -/
theorem wp_ensureTable (t : TargetTable) (cols : List Column) (v : SinkView) :
    (sinkSpec S srv).wp (ensureTable t cols)
      (fun e v' => Off [t] v v' ∧ (v.tables t = none → e = none → v'.tables t = some []) ∧
        v'.content t = v.content t) v := by
  unfold ensureTable
  cases validateTarget t with
  | some e => exact ⟨Off.refl _ _, by simp, rfl⟩
  | none =>
    refine Spec.wp_seq (wp_tableExists' t v) ?_
    rintro r v ⟨rfl, hex⟩
    match r, hex with
    | .error e, _ => exact ⟨Off.refl _ _, by simp, rfl⟩
    | .ok true, hex => exact ⟨Off.refl _ _, fun hn => by simpa [hn] using hex true rfl, rfl⟩
    | .ok false, _ =>
      cases columnDefs cols with
      | error e => exact ⟨Off.refl _ _, by simp, rfl⟩
      | ok defs =>
        exact Spec.wp_mono (wp_createTable t defs v) fun e v' h => ⟨h.1, fun _ => h.2.1, h.2.2⟩

/-- `WriteBatch` appends the prepared rows of the batch when it succeeds, and a
    part of them otherwise. -/
theorem wp_writeBatch (t : TargetTable) (batch : Batch) (loadTS : Time) (v : SinkView) :
    (sinkSpec S srv).wp (writeBatch t batch loadTS)
      (fun r v' => Off [t] v v' ∧ ∃ D, v'.tables t = (v.tables t).map (· ++ D) ∧
        v'.content t = v.content t ++ D ∧
        ∀ n, r = .ok n → prepareRows batch.columns loadTS batch.rows = .ok D) v := by
  have hnothing : ∀ r : Except Err Int, (∀ n, r = .ok n →
      prepareRows batch.columns loadTS batch.rows = .ok []) →
      Off [t] v v ∧ ∃ D, v.tables t = (v.tables t).map (· ++ D) ∧
        v.content t = v.content t ++ D ∧
        ∀ n, r = .ok n → prepareRows batch.columns loadTS batch.rows = .ok D :=
    fun r h => ⟨Off.refl _ _, [], by simp, by simp, h⟩
  unfold writeBatch
  split_ifs with hempty
  · refine hnothing _ fun n _ => ?_
    rw [List.isEmpty_iff.1 hempty, prepareRows]
  cases validateTarget t with
  | some e => exact hnothing _ (by simp)
  | none =>
  cases validateColumns batch.columns with
  | some e => exact hnothing _ (by simp)
  | none =>
  cases hrows : prepareRows batch.columns loadTS batch.rows with
  | error e => exact ⟨Off.refl _ _, [], by simp, by simp, by simp⟩
  | ok rows =>
  refine Spec.wp_seq (wp_bulkCopy t rows v) ?_
  rintro (_ | e) v' ⟨hoff, D, htab, hcontent, hall⟩
  · exact ⟨hoff, D, htab, hcontent, fun n _ => by rw [hall rfl]⟩
  · exact ⟨hoff, D, htab, hcontent, by simp⟩

/-- The rows that the sink stores for a sequence of batches. -/
def storedRows (loadTS : Time) : List Batch → Except Err (List SinkRow)
  | [] => .ok []
  | b :: bs =>
    match prepareRows b.columns loadTS b.rows with
    | .error e => .error e
    | .ok rows => (storedRows loadTS bs).map (rows ++ ·)

theorem storedRows_concat {loadTS : Time} {bs : List Batch} {b : Batch} {rs rows : List SinkRow}
    (hbs : storedRows loadTS bs = .ok rs)
    (hb : prepareRows b.columns loadTS b.rows = .ok rows) :
    storedRows loadTS (bs ++ [b]) = .ok (rs ++ rows) := by
  induction bs generalizing rs with
  | nil =>
    obtain rfl : [] = rs := Except.ok.inj hbs
    simp [storedRows, hb, Except.map]
  | cons c bs ih =>
    simp only [storedRows, List.cons_append] at hbs ⊢
    cases hc : prepareRows c.columns loadTS c.rows with
    | error e => rw [hc] at hbs; cases hbs
    | ok cs =>
      rw [hc] at hbs
      cases hr : storedRows loadTS bs with
      | error e => rw [hr] at hbs; cases hbs
      | ok rest =>
        rw [hr] at hbs
        obtain rfl : cs ++ rest = rs := Except.ok.inj hbs
        simp [ih hr, Except.map]

/-! ## The functions of `replace.go` -/

/-- `BeginReplace` touches only the staging table, which is empty when it
    succeeds. -/
theorem wp_beginReplace (t : TargetTable) (cols : List Column) (v : SinkView) :
    (sinkSpec S srv).wp (beginReplace t cols)
      (fun r v' => Off [staging t] v v' ∧ ∀ stg, r = .ok stg →
        stg = staging t ∧ v'.tables (staging t) = some []) v := by
  unfold beginReplace stagingTarget
  cases validateTarget t with
  | some e => exact ⟨Off.refl _ _, by simp⟩
  | none =>
  cases Sqlident.validate (t.name ++ stagingSuffix) with
  | some e => exact ⟨Off.refl _ _, by simp⟩
  | none =>
  refine Spec.wp_seq (wp_dropTableIfExists (staging t) v) ?_
  rintro e v₁ ⟨hoff₁, hdrop⟩
  cases e with
  | some e => exact ⟨hoff₁, by simp⟩
  | none =>
  refine Spec.wp_seq (wp_tableExists' t v₁) ?_
  rintro r v₁ ⟨rfl, -⟩
  match r with
  | .error e => exact ⟨hoff₁, by simp⟩
  | .ok true =>
    refine Spec.wp_seq (wp_selectInto (staging t) t v₁) ?_
    rintro (_ | e) v₂ ⟨hoff₂, hnew⟩
    · refine ⟨hoff₁.trans hoff₂, ?_⟩
      rintro stg ⟨⟩
      exact ⟨rfl, hnew rfl⟩
    · exact ⟨hoff₁.trans hoff₂, by simp⟩
  | .ok false =>
    simp only
    split_ifs
    · exact ⟨hoff₁, by simp⟩
    · refine Spec.wp_seq (wp_ensureTable (staging t) cols v₁) ?_
      rintro (_ | e) v₂ ⟨hoff₂, hnew, -⟩
      · refine ⟨hoff₁.trans hoff₂, ?_⟩
        rintro stg ⟨⟩
        exact ⟨rfl, hnew (hdrop rfl) rfl⟩
      · exact ⟨hoff₁.trans hoff₂, by simp⟩

/-- `AbortReplace` touches only the staging table. -/
theorem wp_abortReplace (stg : TargetTable) (v : SinkView) :
    (sinkSpec S srv).wp (abortReplace stg) (fun _ v' => Off [stg] v v') v := by
  unfold abortReplace
  cases validateTarget stg with
  | some e => exact Off.refl _ _
  | none => exact Spec.wp_mono (wp_dropTableIfExists stg v) fun _ _ h => h.1

theorem wp_renameInTx (source : TargetTable) (newName : String) (v : SinkView) (ts : Tables) :
    (sinkSpec S srv).wp (renameInTx source newName)
      (fun e v' => ∃ ts', (e = none → srv.rename ts (dotted source) newName = .ok ts') ∧
        v' = inside v ts') (inside v ts) := by
  unfold renameInTx
  cases Sqlident.validate newName with
  | some e => exact ⟨ts, by simp, rfl⟩
  | none =>
    refine (Spec.wp_bind _ _ _ _).2 (wp_statement.2 fun o => ?_)
    obtain ⟨ts', hok, hv⟩ :=
      inside_inTx v ts (fun ts => srv.rename ts (dotted source) newName) o
    simp only [Db.answer, hv]
    split
    · exact ⟨ts', by simp, rfl⟩
    · rename_i hnone
      exact ⟨ts', fun _ => hok hnone, rfl⟩

theorem wp_swapInTx (t stg old : TargetTable) (v : SinkView) (ts : Tables) :
    (sinkSpec S srv).wp (swapInTx t stg old)
      (fun e v' => ∃ ts', (e = none → Swapped srv t stg old ts ts') ∧ v' = inside v ts')
      (inside v ts) := by
  refine Spec.wp_seq (wp_renameInTx t old.name v ts) ?_
  rintro (_ | e) _ ⟨ts₁, hren₁, rfl⟩
  swap
  · exact ⟨ts₁, by simp, rfl⟩
  refine Spec.wp_seq (wp_renameInTx stg t.name v ts₁) ?_
  rintro (_ | e) _ ⟨ts₂, hren₂, rfl⟩
  swap
  · exact ⟨ts₂, by simp, rfl⟩
  refine (Spec.wp_bind _ _ _ _).2 (wp_statement.2 fun o => ?_)
  obtain ⟨ts₃, hok, hv⟩ := inside_inTx v ts₂ (fun ts => Db.drop ts old) o
  simp only [Db.answer, hv]
  split
  · exact ⟨ts₃, by simp, rfl⟩
  · rename_i hnone
    refine ⟨ts₃, fun _ => ⟨ts₁, ts₂, hren₁ rfl, hren₂ rfl, ?_⟩, rfl⟩
    have hdrop := hok hnone
    simp only [Db.drop] at hdrop
    cases hold : ts₂ old with
    | none => rw [hold] at hdrop; cases hdrop
    | some rows =>
      rw [hold] at hdrop
      exact ⟨by simp, (Except.ok.inj hdrop).symm⟩

/-- The rename of the staging table when there is no live table. -/
theorem wp_renameTable (t : TargetTable) (v : SinkView) :
    (sinkSpec S srv).wp (renameTable (staging t) t.name)
      (fun e v' => (e ≠ none ∧ Off [] v v') ∨ (e = none ∧ Published srv t v v')) v := by
  have hbody : (sinkSpec S srv).wp (renameInTx (staging t) t.name)
      (fun e v' => ∃ ts, (e = none → srv.rename v.tables (dotted (staging t)) t.name = .ok ts) ∧
        v' = inside v ts) (inside v v.tables) := wp_renameInTx ..
  refine Spec.wp_mono (wp_inTx hbody) ?_
  rintro e v' (hfail | ⟨rfl, hren, hdel, hfin⟩)
  · exact .inl hfail
  · obtain ⟨b, rows, hb, hrows, -, hts⟩ := rename_ok (hren rfl)
    rw [object_staging, Option.map_eq_some_iff] at hb
    obtain ⟨a, ha, rfl⟩ := hb
    refine .inr ⟨rfl, a, ha, ⟨fun u hu => ?_, hdel, hfin⟩, ?_⟩
    · simp only [List.mem_cons, List.not_mem_nil, or_false, not_or] at hu
      rw [hts, staging_schema, Function.update_of_ne hu.2.1, Function.update_of_ne hu.1]
    · rintro rfl
      rw [hts, hrows]
      exact Function.update_self ..

/-- The swap of the staging table with the live one. -/
theorem wp_swap {t : TargetTable} {v : SinkView} (hlive : v.tables t ≠ none)
    (hold : v.tables (old t) = none) :
    (sinkSpec S srv).wp (inTx (swapInTx t (staging t) (old t)))
      (fun e v' => (e ≠ none ∧ Off [] v v') ∨ (e = none ∧ Published srv t v v')) v := by
  refine Spec.wp_mono (wp_inTx (wp_swapInTx t (staging t) (old t) v v.tables)) ?_
  rintro e v' (hfail | ⟨rfl, hswap, hdel, hfin⟩)
  · exact .inl hfail
  · have hobj := (hswap rfl).object_eq hlive hold
    obtain ⟨hpub, hoff⟩ := (hswap rfl).spec hobj
    exact .inr ⟨rfl, t, hobj, ⟨hoff, hdel, hfin⟩, fun _ => hpub⟩

/-- `CommitReplace` fails and leaves everything but a previous old table as it
    was, or publishes the staging table. -/
theorem wp_commitReplace (t : TargetTable) (v : SinkView) :
    (sinkSpec S srv).wp (commitReplace t (staging t))
      (fun e v' => (e ≠ none ∧ Off [old t] v v') ∨
        (e = none ∧ validateTarget (staging t) = none ∧ Published srv t v v')) v := by
  unfold commitReplace oldTarget
  cases validateTarget t with
  | some e => exact .inl ⟨by simp, Off.refl _ _⟩
  | none =>
  cases hstg : validateTarget (staging t) with
  | some e => exact .inl ⟨by simp, Off.refl _ _⟩
  | none =>
  refine Spec.wp_seq (wp_tableExists' t v) ?_
  rintro (e | liveExists) v ⟨rfl, hlive⟩
  · exact .inl ⟨by simp, Off.refl _ _⟩
  refine Spec.wp_seq (wp_tableExists' (staging t) v) ?_
  rintro (e | stgExists) v ⟨rfl, -⟩
  · exact .inl ⟨by simp, Off.refl _ _⟩
  cases stgExists with
  | false => exact .inl ⟨by simp, Off.refl _ _⟩
  | true =>
  have hlive : liveExists = (v.tables t).isSome := hlive _ rfl
  cases liveExists with
  | false =>
    refine Spec.wp_mono (wp_renameTable t v) ?_
    rintro e v' (⟨hne, hoff⟩ | ⟨rfl, hpub⟩)
    · exact .inl ⟨hne, hoff.mono (by simp)⟩
    · exact .inr ⟨rfl, rfl, hpub⟩
  | true =>
    simp only [Bool.not_true, Bool.false_eq_true, if_false]
    cases Sqlident.validate (t.name ++ oldSuffix) with
    | some e => exact .inl ⟨by simp, Off.refl _ _⟩
    | none =>
    refine Spec.wp_seq (wp_dropTableIfExists (old t) v) ?_
    rintro (_ | e) v₁ ⟨hoff, hdrop⟩
    swap
    · exact .inl ⟨by simp, hoff⟩
    have hlive₁ : v₁.tables t ≠ none := by
      rw [hoff.1 t (by simpa using (old_ne t).symm)]
      exact Option.isSome_iff_ne_none.1 hlive.symm
    refine Spec.wp_mono (wp_swap hlive₁ (hdrop rfl)) ?_
    rintro e v' (⟨hne, hoff'⟩ | ⟨rfl, a, ha, hoff', hpub⟩)
    · exact .inl ⟨hne, hoff.trans (hoff'.mono (by simp))⟩
    · refine .inr ⟨rfl, trivial, a, ha, (hoff.mono (by simp)).trans hoff', fun hat => ?_⟩
      rw [hpub hat, hoff.1 _ (by simpa using staging_ne_old t)]

end Mssql

end DataLoader
