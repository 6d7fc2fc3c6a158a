import DataLoader.Effects.Moments
import DataLoader.Pipeline.Bookkeeping
import DataLoader.Pipeline.ReplaceSpec

/-!
# What a run outside replace mode does to the sink

Without a replace session the handler writes to the target itself. `AppendRun`: the rows that
a run adds are rows that the sink made of batches of this run, in their order, and all of them
if it succeeds (`wp_executeAppend`); `append_history` is that for a history of runs.

While the source is read the invariant is `Appending`, together with `Complete` (every batch so
far is in the target), which is lost when the handler fails.
-/

namespace DataLoader

open Effects Mssql

open scoped List

variable {S : Sig} {srv : SqlServer} {t : TargetTable}

/-! ## Calls off the sink -/

/-- The calls that neither write to the sink nor hand over a batch. -/
def SysCall.offSink : SysCall S → Bool
  | .db _ | .deliver _ => false
  | _ => true

/-- The sink and what was handed over are the same. -/
structure SameSink (v v' : SinkView) : Prop where
  db : v'.db = v.db
  delivered : v'.delivered = v.delivered

namespace SameSink

variable {v v₁ v' : SinkView}

theorem refl (v : SinkView) : SameSink v v := ⟨rfl, rfl⟩

theorem trans (h : SameSink v v₁) (h' : SameSink v₁ v') : SameSink v v' :=
  ⟨h'.db.trans h.db, h'.delivered.trans h.delivered⟩

theorem tables (h : SameSink v v') : v'.tables = v.tables := congrArg Db.tables h.db

theorem content (h : SameSink v v') (t : TargetTable) : v'.content t = v.content t := by
  rw [SinkView.content, h.tables, SinkView.content]

end SameSink

theorem wp_offSink {α : Type} {p : Prog (sysSig S) α}
    (hp : p.Calls fun c => SysCall.offSink c = true) (v : SinkView) :
    (sinkSpec S srv).wp p (fun _ v' => SameSink v v') v := by
  refine Spec.wp_inv (P := fun c => SysCall.offSink c = true) ?_ ?_ hp (.refl v)
  · rintro v₁ _ h rfl
    exact h
  · intro c v₁ a v₂ hc h hs
    cases c with
    | db s => cases hc
    | deliver b => cases hc
    | store s =>
      cases s with
      | finishRun run status rr rw wm msg =>
        rw [show v₂ = _ from hs]
        exact ⟨h.db, h.delivered⟩
      | _ => rw [show v₂ = v₁ from hs]; exact h
    | _ => rw [show v₂ = v₁ from hs]; exact h

/-- One call off the sink, and what follows it. -/
theorem wp_offSink_call {α : Type} {c : SysCall S} (hc : c.offSink = true)
    {k : c.Ans → Prog (sysSig S) α} {Q : α → SinkView → Prop} {v : SinkView}
    (h : ∀ a v₁, SameSink v v₁ → (sinkSpec S srv).wp (k a) Q v₁) :
    (sinkSpec S srv).wp (Prog.perform (S := sysSig S) c >>= k) Q v :=
  Spec.wp_seq (wp_offSink (p := Prog.perform (S := sysSig S) c) ⟨hc, fun _ => trivial⟩ v) h

theorem offSink_of_closes (c : SysCall S) (h : c.closes) : c.offSink = true := by
  cases c <;> first | rfl | exact h.elim

/-! ## Writing to the target -/

/-- A bulk copy that fails has copied the first rows. -/
theorem wp_bulkCopy_first (t : TargetTable) (rows : List SinkRow) (v : SinkView) :
    (sinkSpec S srv).wp (statement (.bulkCopy t rows))
      (fun (_ : Option Err) v' => ∃ D, v'.content t = v.content t ++ D ∧ D <+: rows) v := by
  refine wp_statement.2 fun o => ?_
  simp only [Db.answer, Db.append]
  cases htab : v.db.tables t with
  | none => exact ⟨[], by simp, List.nil_prefix⟩
  | some cur =>
    cases o with
    | ok => exact ⟨rows, by simp [SinkView.content, htab], List.prefix_refl rows⟩
    | fail msg k => exact ⟨rows.take k, by simp [SinkView.content, htab], List.take_prefix k rows⟩

variable [GoLib]

/-- The rows that the sink makes of a batch, none if it refuses it. -/
def preparedRows (loadTS : Time) (b : Batch) : List SinkRow :=
  match prepareRows b.columns loadTS b.rows with
  | .ok rows => rows
  | .error _ => []

theorem preparedRows_of_ok {loadTS : Time} {b : Batch} {rows : List SinkRow}
    (h : prepareRows b.columns loadTS b.rows = .ok rows) : preparedRows loadTS b = rows := by
  rw [preparedRows, h]

theorem wp_writeBatch_first (t : TargetTable) (batch : Batch) (loadTS : Time) (v : SinkView) :
    (sinkSpec S srv).wp (writeBatch t batch loadTS)
      (fun _ v' => ∃ D, v'.content t = v.content t ++ D ∧ D <+: preparedRows loadTS batch) v := by
  have hnothing : ∃ D, v.content t = v.content t ++ D ∧ D <+: preparedRows loadTS batch :=
    ⟨[], by simp, List.nil_prefix⟩
  unfold writeBatch
  split_ifs
  · exact hnothing
  cases validateTarget t with
  | some e => exact hnothing
  | none =>
  cases validateColumns batch.columns with
  | some e => exact hnothing
  | none =>
  cases hrows : prepareRows batch.columns loadTS batch.rows with
  | error e => exact hnothing
  | ok rows =>
  rw [preparedRows_of_ok hrows]
  refine Spec.wp_seq (wp_bulkCopy_first t rows v) ?_
  rintro (_ | e) v' h
  · exact h
  · exact h

/-- `WriteBatch` appends the first of the rows that it makes of the batch, and all of them when
    it succeeds. -/
theorem wp_writeBatch_append (t : TargetTable) (batch : Batch) (loadTS : Time) (v : SinkView) :
    (sinkSpec S srv).wp (writeBatch t batch loadTS)
      (fun r v' => Off [t] v v' ∧ ∃ D, v'.content t = v.content t ++ D ∧
        D <+: preparedRows loadTS batch ∧
        ∀ n, r = .ok n → prepareRows batch.columns loadTS batch.rows = .ok D) v := by
  refine Spec.wp_mono (Spec.wp_and (wp_writeBatch t batch loadTS v)
    (wp_writeBatch_first t batch loadTS v)) ?_
  rintro r v' ⟨⟨hoff, D, -, hcontent, hok⟩, D', hcontent', hpre⟩
  obtain rfl : D = D' := List.append_cancel_left (hcontent.symm.trans hcontent')
  exact ⟨hoff, D, hcontent, hpre, hok⟩

/-! ## The batch handler -/

/-- While the source is read, after the batches `bs`: only the target has changed, and what it
    has got are rows of these batches. -/
structure Appending (t : TargetTable) (loadTS : Time) (v₀ : SinkView) (bs : List Batch)
    (st : HandlerState S) (v : SinkView) : Prop where
  off : ∀ u ∉ [t], v.tables u = v₀.tables u
  session : st.repl = none
  target : st.writeTarget = t
  rows : ∃ D, v.content t = v₀.content t ++ D ∧ D <+ bs.flatMap (preparedRows loadTS)

/-- The target has got the rows of the batches `bs`. -/
def Complete (t : TargetTable) (loadTS : Time) (v₀ : SinkView) (bs : List Batch) (v : SinkView) :
    Prop :=
  ∃ D, v.content t = v₀.content t ++ D ∧ storedRows loadTS bs = .ok D

variable {r : Runner S} {load : Load} {loadTS : Time} {v₀ : SinkView} {bs : List Batch}

/-- The target may have been created, and rows may have been handed over. -/
theorem Appending.keep {st st' : HandlerState S} {v v' : SinkView}
    (h : Appending t loadTS v₀ bs st v) (hoff : Off [t] v v') (hcontent : v'.content t = v.content t)
    (hsession : st'.repl = none) (htarget : st'.writeTarget = st.writeTarget) :
    Appending t loadTS v₀ bs st' v' := by
  obtain ⟨D, hD, hsub⟩ := h.rows
  exact ⟨fun u hu => (hoff.1 u hu).trans (h.off u hu), hsession, htarget.trans h.target, D,
    hcontent.trans hD, hsub⟩

/-- The handler refuses the batch `b`. -/
theorem Appending.refuse {st : HandlerState S} {v : SinkView} (h : Appending t loadTS v₀ bs st v)
    (b : Batch) : Appending t loadTS v₀ (bs ++ [b]) st v := by
  obtain ⟨D, hD, hsub⟩ := h.rows
  refine ⟨h.off, h.session, h.target, D, hD, ?_⟩
  rw [List.flatMap_append]
  exact hsub.trans (List.sublist_append_left _ _)

/-- The work on the first batch creates the target where it is missing. -/
theorem wp_onFirstBatch_append (hsink : r.sink = Mssql.sink) (htarget : load.target = t) {b : Batch}
    {st : HandlerState S} (hsession : st.repl = none) (v : SinkView) :
    (sinkSpec S srv).wp (r.onFirstBatch load st b)
      (fun res v' => Off [t] v v' ∧ v'.content t = v.content t ∧
        ∀ st', res = .ok st' → st'.repl = none ∧ st'.writeTarget = st.writeTarget) v := by
  unfold Runner.onFirstBatch
  simp only [hsession]
  split_ifs
  · rw [hsink, htarget]
    refine Spec.wp_seq (wp_ensureTable t b.columns v) ?_
    rintro (_ | e) v' ⟨hoff, -, hcontent⟩
    · refine ⟨hoff, hcontent, ?_⟩
      rintro st' ⟨⟩
      exact ⟨rfl, rfl⟩
    · exact ⟨hoff, hcontent, nofun⟩
  · refine ⟨.refl _ _, rfl, ?_⟩
    rintro st' ⟨⟩
    exact ⟨rfl, rfl⟩

theorem wp_writeBatch_appending (hsink : r.sink = Mssql.sink) {b : Batch} {st : HandlerState S}
    {v : SinkView} (hR : Appending t loadTS v₀ bs st v) :
    (sinkSpec S srv).wp (r.writeBatch loadTS st b)
      (fun se v' => Appending t loadTS v₀ (bs ++ [b]) se.1 v' ∧ v'.delivered = v.delivered ∧
        (se.2 = none → Complete t loadTS v₀ bs v → Complete t loadTS v₀ (bs ++ [b]) v')) v := by
  obtain ⟨D, hD, hsub⟩ := hR.rows
  unfold Runner.writeBatch
  rw [hsink, hR.target]
  refine Spec.wp_seq (wp_writeBatch_append t b loadTS v) ?_
  rintro res v' ⟨hoff, D', hcontent, hpre, hok⟩
  have happending : ∀ st' : HandlerState S, st'.repl = none → st'.writeTarget = t →
      Appending t loadTS v₀ (bs ++ [b]) st' v' := by
    intro st' hsession htarget
    refine ⟨fun u hu => (hoff.1 u hu).trans (hR.off u hu), hsession, htarget, D ++ D',
      by rw [hcontent, hD, List.append_assoc], ?_⟩
    rw [List.flatMap_append, List.flatMap_singleton]
    exact hsub.append hpre.sublist
  cases res with
  | error e => exact ⟨happending st hR.session hR.target, hoff.2.1, nofun⟩
  | ok n =>
    refine ⟨happending _ hR.session rfl, hoff.2.1, ?_⟩
    rintro - ⟨E, hE, hstored⟩
    exact ⟨E ++ D', by rw [hcontent, hE, List.append_assoc], storedRows_concat hstored (hok n rfl)⟩

theorem wp_handler_append (hsink : r.sink = Mssql.sink) (htarget : load.target = t) {b : Batch}
    {st : HandlerState S} {v : SinkView} (hR : Appending t loadTS v₀ bs st v) :
    (sinkSpec S srv).wp (r.handler load loadTS st b)
      (fun se v' => Appending t loadTS v₀ (bs ++ [b]) se.1 v' ∧ v'.delivered = v.delivered ∧
        (se.2 = none → Complete t loadTS v₀ bs v → Complete t loadTS v₀ (bs ++ [b]) v')) v := by
  unfold Runner.handler
  split_ifs
  · refine Spec.wp_seq (wp_onFirstBatch_append hsink htarget hR.session v) ?_
    rintro (e | st₁) v₁ ⟨hoff, hcontent, hok⟩
    · exact ⟨(hR.keep hoff hcontent hR.session rfl).refuse b, hoff.2.1, nofun⟩
    · obtain ⟨hsession, hwrite⟩ := hok st₁ rfl
      refine Spec.wp_mono (wp_writeBatch_appending hsink (hR.keep hoff hcontent hsession hwrite)) ?_
      rintro se v' ⟨hR', hdel, hcomplete⟩
      refine ⟨hR', hdel.trans hoff.2.1, ?_⟩
      rintro hnone ⟨E, hE, hstored⟩
      exact hcomplete hnone ⟨E, hcontent.trans hE, hstored⟩
  · exact wp_writeBatch_appending hsink hR

/-- Reading the source: the target is complete unless the source returned an error. -/
theorem wp_interpret_append (hsink : r.sink = Mssql.sink) (htarget : load.target = t) (src : ℕ) :
    ∀ (p : Prog (readSig S) (ReadResult × Option Err)) (failed : Bool) (bs : List Batch)
      (st : HandlerState S) (v : SinkView), Reports failed p → Appending t loadTS v₀ bs st v →
      v.delivered = v₀.delivered ++ bs → (failed = false → Complete t loadTS v₀ bs v) →
      (sinkSpec S srv).wp (Runner.interpret src (r.handler load loadTS) p st)
        (fun sr v' => ∃ bs', Appending t loadTS v₀ bs' sr.1 v' ∧ v'.delivered = v₀.delivered ++ bs' ∧
          (sr.2.2 = none → Complete t loadTS v₀ bs' v')) v
  | .ret a, failed, bs, st, v, hrep, hR, hdel, hC => by
    refine ⟨bs, hR, hdel, fun hnone => hC ?_⟩
    by_contra hfailed
    exact hrep (by simpa using hfailed) hnone
  | .call (.driver c) k, failed, bs, st, v, hrep, hR, hdel, hC => by
    rintro _ rfl a _ rfl
    exact wp_interpret_append hsink htarget src (k a) failed bs st _ (hrep a) hR hdel hC
  | .call (.emit b) k, failed, bs, st, v, hrep, hR, hdel, hC => by
    rintro _ rfl _ v₁ rfl
    have hR₁ : Appending t loadTS v₀ bs st { v with delivered := v.delivered ++ [b] } :=
      ⟨hR.off, hR.session, hR.target, hR.rows⟩
    refine (Spec.wp_bind _ _ _ _).2 (Spec.wp_mono (wp_handler_append hsink htarget hR₁) ?_)
    rintro ⟨st', e⟩ v' ⟨hR', hdel', hcomplete⟩
    refine wp_interpret_append hsink htarget src (k e) _ (bs ++ [b]) st' v' (hrep e) hR' ?_ ?_
    · rw [hdel', hdel, List.append_assoc]
    · intro hok
      obtain ⟨hfailed, he⟩ := Bool.or_eq_false_iff.1 hok
      exact hcomplete (by simpa using he) (hC hfailed)

/-! ## `Execute` -/

/-- What a run that began in `v₀` has done to the sink. -/
structure AppendRun (t : TargetTable) (v₀ : SinkView) (err : Option Err) (v : SinkView) : Prop where
  off : ∀ u ∉ [t], v.tables u = v₀.tables u
  rows : ∃ bs loadTS D, v.delivered = v₀.delivered ++ bs ∧ v.content t = v₀.content t ++ D ∧
    D <+ bs.flatMap (preparedRows loadTS) ∧ (err = none → storedRows loadTS bs = .ok D)

/-- The run failed before it read anything. -/
theorem AppendRun.early {v v' : SinkView} {e : Err} (h : SameSink v v') :
    AppendRun t v (some e) v' := by
  refine ⟨fun u _ => by rw [h.tables], [], 0, [], by simpa using h.delivered, ?_, .refl _, nofun⟩
  rw [h.content, List.append_nil]

/-- What a run does before and after the sink plays no part. -/
theorem AppendRun.around {v v₁ v₂ v' : SinkView} {err : Option Err} (h : AppendRun t v₁ err v₂)
    (hbefore : SameSink v v₁) (hafter : SameSink v₂ v') : AppendRun t v err v' := by
  obtain ⟨bs, loadTS, D, hdel, hcontent, hsub, hok⟩ := h.rows
  refine ⟨fun u hu => ?_, bs, loadTS, D, ?_, ?_, hsub, hok⟩
  · rw [hafter.tables, h.off u hu, hbefore.tables]
  · rw [hafter.delivered, hdel, hbefore.delivered]
  · rw [hafter.content, hcontent, hbefore.content]

theorem wp_readAndFinish_append (hsink : r.sink = Mssql.sink) (htarget : load.target = t)
    (hread : ∀ cfg, Reports false (r.read cfg)) (src : ℕ) (run : LoadRun) (current : Watermark)
    (loadTS : Time) (v : SinkView) :
    (sinkSpec S srv).wp (r.readAndFinish load src run current loadTS none)
      (fun exit v' => AppendRun t v exit.err v') v := by
  unfold Runner.readAndFinish
  have hR₀ : Appending t loadTS v []
      ({ writeTarget := load.target, repl := none } : HandlerState S) v :=
    ⟨fun _ _ => rfl, rfl, htarget, [], by simp, .refl _⟩
  refine Spec.wp_seq (wp_interpret_append hsink htarget src _ false [] _ v (hread _) hR₀ (by simp)
    fun _ => ⟨[], by simp, rfl⟩) ?_
  rintro ⟨st, result, rerr⟩ v₁ ⟨bs, hR, hdel, hC⟩
  obtain ⟨D, hD, hsub⟩ := hR.rows
  have hrun : ∀ err, (err = none → rerr = none) → AppendRun t v err v₁ := by
    intro err herr
    refine ⟨hR.off, bs, loadTS, D, hdel, hD, hsub, fun hnone => ?_⟩
    obtain ⟨E, hE, hstored⟩ := hC (herr hnone)
    rwa [List.append_cancel_left (hD.symm.trans hE)]
  cases rerr with
  | some e =>
    refine Spec.wp_seq (wp_offSink ((Runner.calls_failRun ..).mono offSink_of_closes) v₁) ?_
    exact fun _ v' hsame => (hrun (some e) nofun).around (.refl _) hsame
  | none =>
    dsimp only
    rw [show st.repl = none from hR.session]
    refine Spec.wp_seq (wp_offSink (Runner.calls_finishRead _ _ offSink_of_closes (fun _ _ => rfl) ..) v₁) ?_
    exact fun err v' hsame => (hrun err fun _ => rfl).around (.refl _) hsame

/-- A load outside replace mode on the target `t` of the SQL Server sink, with the runner that
    executes it. Point-based sources always are. -/
structure AppendLoad (S : Sig) [GoLib] (t : TargetTable) where
  runner : Runner S
  load : Load
  sink : runner.sink = Mssql.sink
  mode : (Runner.pointBased load).mode ≠ loadModeReplace
  target : load.target = t
  reports : ∀ cfg, Reports false (runner.read cfg)

/-- `Execute` of such a load. -/
def AppendLoad.execute (l : AppendLoad S t) : Prog (sysSig S) (Option Err) :=
  l.runner.execute l.load

omit [GoLib] in
theorem target_pointBased (load : Load) : (Runner.pointBased load).target = load.target := by
  unfold Runner.pointBased
  split_ifs <;> rfl

/-- Every run of the load adds to the target only, rows of its own batches only, and all of
    them if it succeeds. -/
theorem wp_executeAppend (l : AppendLoad S t) (v : SinkView) :
    (sinkSpec S srv).wp l.execute (fun err v' => AppendRun t v err v') v := by
  unfold AppendLoad.execute Runner.execute
  dsimp only
  cases l.runner.resolveParams (Runner.pointBased l.load).source.paramsJSON with
  | error e => exact .early (.refl v)
  | ok params =>
  refine wp_offSink_call rfl fun src v₁ h₁ => ?_
  cases src with
  | error e => exact .early h₁
  | ok src =>
  have hleased : (sinkSpec S srv).wp (l.runner.leased (Runner.pointBased l.load) src)
      (fun exit v' => AppendRun t v exit.err v') v₁ := by
    unfold Runner.leased
    refine wp_offSink_call rfl fun wm v₂ h₂ => ?_
    cases wm with
    | error e => exact .early (h₁.trans h₂)
    | ok wm =>
    refine wp_offSink_call rfl fun run v₃ h₃ => ?_
    cases run with
    | error e => exact .early ((h₁.trans h₂).trans h₃)
    | ok run =>
    refine wp_offSink_call rfl fun _ v₄ h₄ => wp_offSink_call rfl fun loadTS v₅ h₅ => ?_
    rw [if_neg l.mode]
    refine Spec.wp_mono (wp_readAndFinish_append l.sink ((target_pointBased l.load).trans l.target)
      l.reports src run _ loadTS v₅) ?_
    exact fun exit v' h => h.around ((((h₁.trans h₂).trans h₃).trans h₄).trans h₅) (.refl _)
  refine Spec.wp_seq hleased fun exit v' h => ?_
  exact wp_offSink_call rfl fun _ v'' hsame => h.around (.refl _) hsame

/-! ## Histories -/

variable {side : SourceSide S}

/-- Over every history the target grows by one part for each run, and no other table changes. -/
theorem append_history {l : AppendLoad S t}
    {Part : (World.machine srv side).TimedRun (Option Err) → List SinkRow → Prop}
    (hpart : ∀ {x : (World.machine srv side).TimedRun (Option Err)} {bs loadTS D},
      Machine.Ran l.execute x →
      (sinkView x.after).delivered = (sinkView x.before).delivered ++ bs →
      D <+ bs.flatMap (preparedRows loadTS) → (x.result = none → storedRows loadTS bs = .ok D) →
      Part x D)
    {w w' : World side} {hs : List ((World.machine srv side).HEvent Unit)}
    {rs : List ((World.machine srv side).TimedRun (Option Err))}
    (h : (World.machine srv side).timeline (fun _ => l.execute) hs w = some (rs, w')) :
    ∃ parts, List.Forall₂ Part rs parts ∧
      (sinkView w').content t = (sinkView w).content t ++ parts.flatten ∧
      ∀ u ≠ t, w'.db.tables u = w.db.tables u := by
  refine Machine.timeline_inv (l := []) (I := fun rs w' => ∃ parts, List.Forall₂ Part rs parts ∧
    (sinkView w').content t = (sinkView w).content t ++ parts.flatten ∧
    ∀ u ≠ t, w'.db.tables u = w.db.tables u) ?_ ?_ ⟨[], .nil, by simp, fun _ _ => rfl⟩ h
  · rintro rs w₁ e w₂ ⟨parts, hparts, hcontent, hoff⟩ he
    have hdb := (World.env_db he).1
    refine ⟨parts, hparts, ?_, fun u hu => by rw [hdb, hoff u hu]⟩
    rw [← hcontent]
    exact congrArg (fun db : Db => (db.tables t).getD []) hdb
  · rintro rs i x ⟨parts, hparts, hcontent, hoff⟩ hran
    have ⟨es, hx, _⟩ := hran
    have hrun := (sinkSpec_meets srv side).exec (wp_executeAppend l (sinkView x.before)) hx
    obtain ⟨bs, loadTS, D, hdel, hrows, hsub, hall⟩ := hrun.rows
    refine ⟨parts ++ [D], List.rel_append hparts (.cons ?_ .nil), ?_, fun u hu => ?_⟩
    · exact hpart hran hdel hsub hall
    · rw [hrows, hcontent]
      simp
    · exact (hrun.off u (by simpa using hu)).trans (hoff u hu)

end DataLoader
