import DataLoader.Pipeline.Runner
import DataLoader.Sink.Spec

/-!
# What a replace run does to the sink

`ReplaceRun` lists the three ways in which a `replace` run on the SQL Server
sink can end: it failed at or before the commit, there was nothing to publish,
or the staging table was published. `wp_execute` shows that every run of
`Execute` ends in one of them, whatever fails on the way.

While the source is read the invariant is `Reading` (only the staging table
differs) together with `Filled` (the staging table holds the rows of the batches
so far), which is lost when the handler fails; a source then has to return an
error (`Reports`).
-/

namespace DataLoader

open Effects Mssql

variable {S : Sig}

/-- The source returns an error whenever its handler did; `failed` says whether
    the handler already has. -/
def Reports : Bool → Prog (readSig S) (ReadResult × Option Err) → Prop
  | failed, .ret r => failed = true → r.2 ≠ none
  | failed, .call (.driver _) k => ∀ r, Reports failed (k r)
  | failed, .call (.emit _) k => ∀ e : Option Err, Reports (failed || e.isSome) (k e)

variable [GoLib] {srv : SqlServer} {t : TargetTable}

/-! ## The session -/

/-- A session on `t` before the commit. -/
structure Session (t : TargetTable) (s : ReplaceSession S) : Prop where
  atomic : s.atomic = (Mssql.sink (S := S)).atomic
  live : s.live = t
  committed : s.committed = false
  active : s.active = true → s.staging = staging t ∧ s.writeTo = staging t

/-- The tables when a session has been prepared and nothing written: an empty
    staging table, or no live table yet. -/
def Prepared (t : TargetTable) (s : ReplaceSession S) (v : SinkView) : Prop :=
  if s.active then v.tables (staging t) = some [] else v.tables t = none

theorem Session.begun {s : ReplaceSession S} (hs : Session t s) : Session t (s.begun (staging t)) :=
  ⟨hs.atomic, hs.live, hs.committed, fun _ => ⟨rfl, rfl⟩⟩

theorem wp_prepareExisting (t : TargetTable) (v : SinkView) :
    (sinkSpec S srv).wp ((ReplaceSession.new Mssql.sink t).prepareExisting Mssql.sink)
      (fun r v' => Off [staging t] v v' ∧ ∀ s, r = .ok s → Session t s ∧ Prepared t s v') v := by
  have hnew : Session t (ReplaceSession.new (S := S) Mssql.sink t) := ⟨rfl, rfl, rfl, by rintro ⟨⟩⟩
  change (sinkSpec S srv).wp (Mssql.tableExists t >>= _) _ v
  unfold Mssql.tableExists
  cases validateTarget t with
  | some e => exact ⟨Off.refl _ _, by simp⟩
  | none =>
  refine Spec.wp_seq (wp_tableExists' t v) ?_
  rintro (e | b) v ⟨rfl, hex⟩
  · exact ⟨Off.refl _ _, by simp⟩
  cases b with
  | false =>
    refine ⟨Off.refl _ _, ?_⟩
    rintro s ⟨⟩
    refine ⟨hnew, ?_⟩
    simpa [Prepared, ReplaceSession.new] using (hex false rfl).symm
  | true =>
    refine Spec.wp_seq (wp_beginReplace t [] v) ?_
    rintro (e | stg) v' ⟨hoff, hstg⟩
    · exact ⟨hoff, by simp⟩
    · obtain ⟨rfl, hempty⟩ := hstg stg rfl
      refine ⟨hoff, ?_⟩
      rintro s ⟨⟩
      exact ⟨hnew.begun, by simpa [Prepared, ReplaceSession.begun] using hempty⟩

theorem wp_ensureFirstBatch {s : ReplaceSession S} (hs : Session t s) (autoCreate : Bool)
    (cols : List Column) (v : SinkView) :
    (sinkSpec S srv).wp (s.ensureFirstBatch Mssql.sink autoCreate cols)
      (fun r v' => Off [staging t] v v' ∧ ∀ s', r = .ok s' → Session t s' ∧ s'.active = true ∧
        (Prepared t s v → v'.tables (staging t) = some [])) v := by
  unfold ReplaceSession.ensureFirstBatch
  rw [hs.atomic, hs.live]
  simp only [Mssql.sink]
  split_ifs with hact
  · refine ⟨Off.refl _ _, ?_⟩
    rintro s' ⟨⟩
    exact ⟨hs, hact, fun h => by simpa [Prepared, hact] using h⟩
  · refine Spec.wp_seq (wp_beginReplace t cols v) ?_
    rintro (e | stg) v' ⟨hoff, hstg⟩
    · exact ⟨hoff, by simp⟩
    · obtain ⟨rfl, hempty⟩ := hstg stg rfl
      refine ⟨hoff, ?_⟩
      rintro s' ⟨⟩
      exact ⟨hs.begun, rfl, fun _ => hempty⟩

/-! ## The batch handler -/

/-- While the source is read, after the batches `bs`: only the staging table has
    changed, and it is the one that batches are written to. -/
structure Reading (t : TargetTable) (v₀ : SinkView) (bs : List Batch) (st : HandlerState S)
    (v : SinkView) : Prop where
  off : ∀ u ∉ [staging t], v.tables u = v₀.tables u
  delivered : v.delivered = v₀.delivered ++ bs
  finishes : v.finishes = v₀.finishes
  repl : ∃ s, st.repl = some s ∧ Session t s ∧
    (st.firstBatch = false → s.active = true ∧ st.writeTarget = staging t)

/-- The staging table holds the rows of the batches `bs`; before the first batch
    there may be no staging table yet. -/
inductive Filled (t : TargetTable) (loadTS : Time) (bs : List Batch) (st : HandlerState S)
    (v : SinkView) : Prop
  | start (hfirst : st.firstBatch = true) (hbs : bs = [])
      (hprep : ∀ s, st.repl = some s → Prepared t s v)
  | rows {rows : List SinkRow} (hfirst : st.firstBatch = false)
      (hrows : storedRows loadTS bs = .ok rows) (hstg : v.tables (staging t) = some rows)

theorem Reading.trans_off {v₀ v v' : SinkView} {bs : List Batch} {st : HandlerState S}
    (h : Reading t v₀ bs st v) (hoff : Off [staging t] v v') : Reading t v₀ bs st v' :=
  ⟨fun u hu => (hoff.1 u hu).trans (h.off u hu), hoff.2.1.trans h.delivered,
    hoff.2.2.trans h.finishes, h.repl⟩

variable {r : Runner S} {load : Load} {loadTS : Time} {v₀ : SinkView} {bs : List Batch}

/-- Writing a batch appends its rows to the staging table. -/
theorem wp_writeBatch_reading (hsink : r.sink = Mssql.sink) {b : Batch} {st : HandlerState S}
    {v : SinkView} (hR : Reading t v₀ (bs ++ [b]) st v) (hfirst : st.firstBatch = false) :
    (sinkSpec S srv).wp (r.writeBatch loadTS st b)
      (fun se v' => Reading t v₀ (bs ++ [b]) se.1 v' ∧
        (se.2 = none → ∀ rows, storedRows loadTS bs = .ok rows →
          v.tables (staging t) = some rows → Filled t loadTS (bs ++ [b]) se.1 v')) v := by
  obtain ⟨s, hs, hses, hwrite⟩ := hR.repl
  unfold Runner.writeBatch
  rw [hsink, (hwrite hfirst).2]
  refine Spec.wp_seq (wp_writeBatch (staging t) b loadTS v) ?_
  rintro (e | n) v' ⟨hoff, rows, htab', -, hprep⟩
  · exact ⟨hR.trans_off hoff, by simp⟩
  · have hR' := hR.trans_off hoff
    refine ⟨⟨hR'.off, hR'.delivered, hR'.finishes, s, hs, hses,
      fun _ => ⟨(hwrite hfirst).1, rfl⟩⟩, fun _ cur hcur htab => ?_⟩
    rw [htab, Option.map_some] at htab'
    exact .rows hfirst (storedRows_concat hcur (hprep n rfl)) htab'

/-- On the first batch staging is begun unless it already was. -/
theorem wp_onFirstBatch (loadTS : Time) (hsink : r.sink = Mssql.sink) {b : Batch}
    {st : HandlerState S} {v : SinkView} (hR : Reading t v₀ (bs ++ [b]) st v) (hfirst : st.firstBatch = true) :
    (sinkSpec S srv).wp (r.onFirstBatch load st b)
      (fun res v' => Off [staging t] v v' ∧ ∀ st', res = .ok st' →
        Reading t v₀ (bs ++ [b]) st' v' ∧ st'.firstBatch = false ∧
          (Filled t loadTS bs st v → bs = [] ∧ v'.tables (staging t) = some [])) v := by
  obtain ⟨s, hs, hses, -⟩ := hR.repl
  unfold Runner.onFirstBatch
  rw [hs, hsink]
  refine Spec.wp_seq (wp_ensureFirstBatch hses _ _ v) ?_
  rintro (e | s') v₁ ⟨hoff, hok⟩
  · exact ⟨hoff, by simp⟩
  · obtain ⟨hses', hact, hempty⟩ := hok s' rfl
    have hR₁ := hR.trans_off hoff
    refine ⟨hoff, ?_⟩
    rintro st' ⟨⟩
    refine ⟨⟨hR₁.off, hR₁.delivered, hR₁.finishes, s', rfl, hses',
      fun _ => ⟨hact, (hses'.active hact).2⟩⟩, rfl, fun hF => ?_⟩
    cases hF with
    | start _ hbs hprep => exact ⟨hbs, hempty (hprep s hs)⟩
    | rows hfirst' => rw [hfirst] at hfirst'; cases hfirst'

/-- The handler on a batch that has just been handed over. -/
theorem wp_handler (hsink : r.sink = Mssql.sink) {b : Batch} {st : HandlerState S} {v : SinkView}
    (hR : Reading t v₀ (bs ++ [b]) st v) :
    (sinkSpec S srv).wp (r.handler load loadTS st b)
      (fun se v' => Reading t v₀ (bs ++ [b]) se.1 v' ∧
        (se.2 = none → Filled t loadTS bs st v → Filled t loadTS (bs ++ [b]) se.1 v')) v := by
  unfold Runner.handler
  split_ifs with hfirst
  · refine Spec.wp_seq (wp_onFirstBatch loadTS hsink hR hfirst) ?_
    rintro (e | st₁) v₁ ⟨hoff, hok⟩
    · exact ⟨hR.trans_off hoff, by simp⟩
    · obtain ⟨hR₁, hfirst₁, hempty⟩ := hok st₁ rfl
      refine Spec.wp_mono (wp_writeBatch_reading hsink hR₁ hfirst₁) ?_
      rintro se v' ⟨hR', hF'⟩
      refine ⟨hR', fun hnone hF => ?_⟩
      obtain ⟨rfl, hstg⟩ := hempty hF
      exact hF' hnone [] rfl hstg
  · have hfirst : st.firstBatch = false := by simpa using hfirst
    refine Spec.wp_mono (wp_writeBatch_reading hsink hR hfirst) ?_
    rintro se v' ⟨hR', hF'⟩
    refine ⟨hR', fun hnone hF => ?_⟩
    cases hF with
    | start hfirst' => rw [hfirst] at hfirst'; cases hfirst'
    | rows _ hrows hstg => exact hF' hnone _ hrows hstg

/-- Reading the source: the invariant holds at the end, and the staging table is
    filled unless the source returned an error. -/
theorem wp_interpret (hsink : r.sink = Mssql.sink) (src : ℕ) :
    ∀ (p : Prog (readSig S) (ReadResult × Option Err)) (failed : Bool) (bs : List Batch)
      (st : HandlerState S) (v : SinkView), Reports failed p → Reading t v₀ bs st v →
      (failed = false → Filled t loadTS bs st v) →
      (sinkSpec S srv).wp (Runner.interpret src (r.handler load loadTS) p st)
        (fun sr v' => ∃ bs', Reading t v₀ bs' sr.1 v' ∧
          (sr.2.2 = none → Filled t loadTS bs' sr.1 v')) v := by
  intro p
  induction p with
  | ret res =>
    intro failed bs st v hp hR hF
    refine ⟨bs, hR, fun hnone => hF ?_⟩
    cases failed with
    | false => rfl
    | true => exact absurd hnone (hp rfl)
  | call c k ih =>
    intro failed bs st v hp hR hF
    cases c with
    | driver c => exact wp_silent rfl fun res => ih res failed bs st v (hp res) hR hF
    | emit b =>
      rintro _ rfl _ _ rfl
      have hR₁ : Reading t v₀ (bs ++ [b]) st { v with delivered := v.delivered ++ [b] } :=
        ⟨hR.off, by simp [hR.delivered], hR.finishes, hR.repl⟩
      refine (Spec.wp_bind _ _ _ _).2 (Spec.wp_mono (wp_handler hsink hR₁) ?_)
      rintro ⟨st', e⟩ v' ⟨hR', hF'⟩
      refine ih e _ (bs ++ [b]) st' v' (hp e) hR' fun hok => ?_
      simp only [Bool.or_eq_false_iff, Option.isSome_eq_false_iff, Option.isNone_iff_eq_none] at hok
      refine hF' hok.2 ?_
      -- handing a batch over does not touch the tables
      cases hF hok.1 with
      | start hfirst hbs hprep => exact .start hfirst hbs hprep
      | rows hfirst hrows hstg => exact .rows hfirst hrows hstg

/-! ## The end of a run -/

omit [GoLib] in
theorem wp_failRun (load : Load) (run : LoadRun) (rr rw : Int) (wm : String) (msg : Err)
    (v : SinkView) :
    (sinkSpec S srv).wp (Runner.failRun load run rr rw wm msg) (fun _ v' => v' = v) v :=
  wp_silent rfl fun _ => wp_silent rfl fun _ => wp_silent rfl fun _ => wp_silent rfl fun _ => rfl

omit [GoLib] in
theorem wp_finishSuccess (load : Load) (run : LoadRun) (result : ReadResult) (rw : Int)
    (v : SinkView) :
    (sinkSpec S srv).wp (Runner.finishSuccess load run result rw)
      (fun _ v' => v' = { v with finishes := v.finishes + 1 }) v := by
  rintro _ rfl (_ | e) _ rfl
  · refine wp_silent rfl fun _ => wp_silent rfl fun _ => wp_silent rfl fun _ => ?_
    by_cases hlag : load.mode = loadModeDelta ∧ load.watermarkType = watermarkDatetime
    · rw [if_pos hlag]
      exact wp_silent rfl fun _ => rfl
    · rw [if_neg hlag]
      rfl
  · exact wp_silent rfl fun _ => wp_silent rfl fun _ => wp_silent rfl fun _ => rfl

omit [GoLib] in
/-- A replace run has no watermark to persist. -/
theorem wp_finishRead (hmode : load.mode = loadModeReplace) (run : LoadRun) (current : String)
    (result : ReadResult) (rw : Int) (v : SinkView) :
    (sinkSpec S srv).wp (Runner.finishRead load run current result rw)
      (fun _ v' => v' = { v with finishes := v.finishes + 1 }) v := by
  have hadv : Runner.advances load result current = false := by
    simp [Runner.advances, hmode, loadModeReplace, loadModeDelta]
  unfold Runner.finishRead
  rw [hadv]
  exact wp_finishSuccess load run result rw v

/-- The run failed at or before the commit: it was not recorded as successful,
    and only helper tables differ. -/
structure Failed (t : TargetTable) (v₀ : SinkView) (err : Option Err) (v : SinkView) : Prop where
  err : err ≠ none
  finishes : v.finishes = v₀.finishes
  delivered : ∃ bs, v.delivered = v₀.delivered ++ bs
  off : ∀ u ∉ [staging t, old t], v.tables u = v₀.tables u

/-- How a replace run on `t` that began in `v₀` can end. -/
inductive ReplaceRun (srv : SqlServer) (t : TargetTable) (v₀ : SinkView) (err : Option Err)
    (v : SinkView) : Prop
  | failed (h : Failed t v₀ err v)
  /-- There is no live table and no batch came. -/
  | nothing (habsent : v₀.tables t = none) (hfin : v.finishes = v₀.finishes + 1)
      (hdel : v.delivered = v₀.delivered) (hoff : ∀ u ∉ [staging t], v.tables u = v₀.tables u)
  /-- `sp_rename` read the target as `a` and moved the rows of the batches. -/
  | published {bs : List Batch} {loadTS : Time} {rows : List SinkRow} {a : TargetTable}
      (hrows : storedRows loadTS bs = .ok rows) (hstg : validateTarget (staging t) = none)
      (hobj : srv.object (dotted t) = some a)
      (hfin : v.finishes = v₀.finishes + 1) (hdel : v.delivered = v₀.delivered ++ bs)
      (hoff : ∀ u ∉ [staging t, staging a, ⟨a.schema, t.name⟩, old t],
        v.tables u = v₀.tables u)
      (hlive : a = t → v.tables t = some rows)

/-- The first failure of a run from the read to the commit. -/
theorem Reading.failed {st : HandlerState S} {v v' : SinkView} {e : Err}
    (h : Reading t v₀ bs st v) (hoff : Off [old t] v v') : Failed t v₀ (some e) v' := by
  refine ⟨by simp, hoff.2.2.trans h.finishes, ⟨bs, hoff.2.1.trans h.delivered⟩, fun u hu => ?_⟩
  simp only [List.mem_cons, List.not_mem_nil, or_false, not_or] at hu
  rw [hoff.1 u (by simpa using hu.2), h.off u (by simpa using hu.1)]

theorem wp_commit {s : ReplaceSession S} (hs : Session t s) (v : SinkView) :
    (sinkSpec S srv).wp s.commit
      (fun res v' => match res with
        | .error _ => Off [old t] v v'
        | .ok s' => (s.active = false ∧ s' = s ∧ v' = v) ∨
            (s' = { s with committed := true } ∧ s.active = true ∧
              validateTarget (staging t) = none ∧ Published srv t v v')) v := by
  unfold ReplaceSession.commit
  rw [hs.atomic, hs.live]
  simp only [Mssql.sink]
  split_ifs with hact
  · exact .inl ⟨by simpa using hact, rfl, rfl⟩
  · have hact : s.active = true := by simpa using hact
    rw [(hs.active hact).1]
    refine Spec.wp_seq (wp_commitReplace t v) ?_
    rintro (_ | e) v' (⟨hne, hoff⟩ | ⟨hnone, hstg, hpub⟩)
    · exact absurd rfl hne
    · exact .inr ⟨rfl, hact, hstg, hpub⟩
    · exact hoff
    · cases hnone

/-- Publishing the filled staging table of a run. -/
theorem ReplaceRun.of_published {st : HandlerState S} {s : ReplaceSession S} {v v₁ v' : SinkView}
    {err : Option Err} (hR : Reading t v₀ bs st v) (hF : Filled t loadTS bs st v)
    (hs : st.repl = some s) (hact : s.active = true) (hvalid : validateTarget (staging t) = none)
    (hpub : Published srv t v v₁)
    (hv' : v' = { v₁ with finishes := v₁.finishes + 1 }) : ReplaceRun srv t v₀ err v' := by
  obtain ⟨a, hobj, hoff, hlive⟩ := hpub
  have hstg : ∃ rows, storedRows loadTS bs = .ok rows ∧ v.tables (staging t) = some rows := by
    cases hF with
    | start _ hbs hprep =>
      have hempty := hprep s hs
      rw [Prepared, if_pos hact] at hempty
      exact ⟨[], by rw [hbs]; rfl, hempty⟩
    | rows _ hrows hstg => exact ⟨_, hrows, hstg⟩
  obtain ⟨rows, hrows, htab⟩ := hstg
  subst hv'
  refine .published hrows hvalid hobj (by rw [hoff.2.2, hR.finishes]) (by rw [hoff.2.1, hR.delivered])
    (fun u hu => ?_) fun hat => (hlive hat).trans htab
  simp only [List.mem_cons, List.not_mem_nil, or_false, not_or] at hu
  rw [hoff.1 u (by simpa using hu.2), hR.off u (by simpa using hu.1)]

/-- A session without a staging table at the commit: no batch came. -/
theorem ReplaceRun.of_nothing {st : HandlerState S} {s : ReplaceSession S} {v v' : SinkView}
    {err : Option Err} (hR : Reading t v₀ bs st v) (hF : Filled t loadTS bs st v)
    (hs : st.repl = some s) (hact : s.active = false)
    (hv' : v' = { v with finishes := v.finishes + 1 }) : ReplaceRun srv t v₀ err v' := by
  subst hv'
  obtain ⟨s', hs', -, hwrite⟩ := hR.repl
  obtain rfl : s = s' := by simpa [hs] using hs'
  cases hF with
  | start _ hbs hprep =>
    have habsent := hprep s hs
    rw [Prepared, if_neg (by simp [hact]), hR.off t (by simpa using (staging_ne t).symm)] at habsent
    exact .nothing habsent (by rw [hR.finishes]) (by simpa [hbs] using hR.delivered) hR.off
  | rows hfirst => rw [(hwrite hfirst).1] at hact; cases hact

/-- What the deferred abort still has to know about the end of the body. -/
def Aborts (t : TargetTable) (v₀ : SinkView) (exit : Runner.Exit S) (v : SinkView) : Prop :=
  ∃ s, exit.repl = some s ∧ s.atomic = (Mssql.sink (S := S)).atomic ∧
    (s.active = true → s.committed = false → s.staging = staging t ∧ Failed t v₀ exit.err v)

theorem wp_readAndFinish (hsink : r.sink = Mssql.sink) (hmode : load.mode = loadModeReplace)
    (hread : ∀ cfg, Reports false (r.read cfg)) (src : ℕ) (run : LoadRun) (current : Watermark)
    (loadTS : Time) {s : ReplaceSession S} (hs : Session t s) {v : SinkView}
    (hprep : Prepared t s v) :
    (sinkSpec S srv).wp (r.readAndFinish load src run current loadTS (some s))
      (fun exit v' => ReplaceRun srv t v exit.err v' ∧ Aborts t v exit v') v := by
  unfold Runner.readAndFinish
  have hR₀ : Reading t v []
      ({ writeTarget := s.writeTo, repl := some s } : HandlerState S) v :=
    ⟨fun _ _ => rfl, by simp, rfl, s, rfl, hs, by simp⟩
  have hF₀ : Filled t loadTS [] ({ writeTarget := s.writeTo, repl := some s } : HandlerState S) v :=
    .start rfl rfl (by rintro _ ⟨⟩; exact hprep)
  refine Spec.wp_seq (wp_interpret hsink src _ false [] _ v (hread _) hR₀ fun _ => hF₀) ?_
  rintro ⟨st, result, rerr⟩ v₁ ⟨bs, hR, hF⟩
  obtain ⟨s₁, hs₁, hses, -⟩ := hR.repl
  cases rerr with
  | some e =>
    refine Spec.wp_seq (wp_failRun _ _ _ _ _ _ v₁) ?_
    rintro _ v₁ rfl
    have hfail := hR.failed (e := e) (Off.refl _ _)
    exact ⟨.failed hfail, s₁, hs₁, hses.atomic, fun hact _ => ⟨(hses.active hact).1, hfail⟩⟩
  | none =>
    replace hs₁ : st.repl = some s₁ := hs₁
    simp only [hs₁]
    refine Spec.wp_seq (wp_commit hses v₁) ?_
    rintro (e | s₂) v₂ hcommit
    · refine Spec.wp_seq (wp_failRun _ _ _ _ _ _ v₂) ?_
      rintro _ v₂ rfl
      have hfail := hR.failed (e := e) hcommit
      exact ⟨.failed hfail, s₁, rfl, hses.atomic, fun hact _ => ⟨(hses.active hact).1, hfail⟩⟩
    · refine Spec.wp_seq (wp_finishRead hmode _ _ _ _ v₂) ?_
      rintro err v₃ hv₃
      rcases hcommit with ⟨hact, rfl, rfl⟩ | ⟨rfl, hact, hvalid, hpub⟩
      · exact ⟨.of_nothing hR (hF rfl) hs₁ hact hv₃, s₂, rfl, hses.atomic, by simp [hact]⟩
      · exact ⟨.of_published hR (hF rfl) hs₁ hact hvalid hpub hv₃, _, rfl, hses.atomic, by simp⟩

/-! ## `Execute` -/

theorem wp_exitAbort {exit : Runner.Exit S} {v : SinkView}
    (hrun : ReplaceRun srv t v₀ exit.err v) (hab : Aborts t v₀ exit v) :
    (sinkSpec S srv).wp exit.abort (fun _ v' => ReplaceRun srv t v₀ exit.err v') v := by
  obtain ⟨s, hs, hatomic, hstg⟩ := hab
  unfold Runner.Exit.abort ReplaceSession.abort
  simp only [hs, hatomic, Mssql.sink]
  split_ifs with hdone
  · exact hrun
  · simp only [Bool.or_eq_true, Bool.not_eq_true', not_or, Bool.not_eq_false,
      Bool.not_eq_true] at hdone
    obtain ⟨hstg, hfail⟩ := hstg hdone.1 hdone.2
    rw [hstg]
    refine Spec.wp_seq (wp_abortReplace (staging t) v) ?_
    rintro _ v' ⟨hoff, hdel, hfin⟩
    obtain ⟨bs, hbs⟩ := hfail.delivered
    refine .failed ⟨hfail.err, hfin.trans hfail.finishes, ⟨bs, hdel.trans hbs⟩, fun u hu => ?_⟩
    have hu' : u ∉ [staging t] := fun h => hu (by simp [List.mem_singleton.1 h])
    rw [hoff u hu', hfail.off u hu]

/-- Preparing the staging table is part of the run. -/
theorem ReplaceRun.of_off {v v₁ v' : SinkView} {err : Option Err} (h : ReplaceRun srv t v₁ err v')
    (hoff : Off [staging t] v v₁) : ReplaceRun srv t v err v' := by
  have hsame : ∀ (X : List TargetTable) u, u ∉ staging t :: X → v₁.tables u = v.tables u :=
    fun X u hu => hoff.1 u fun h => hu (by simp [List.mem_singleton.1 h])
  cases h with
  | failed h =>
    refine .failed ⟨h.err, h.finishes.trans hoff.2.2, ?_, fun u hu => (h.off u hu).trans (hsame _ u hu)⟩
    obtain ⟨bs, hbs⟩ := h.delivered
    exact ⟨bs, by rw [hbs, hoff.2.1]⟩
  | nothing habsent hfin hdel hoff' =>
    rw [hoff.1 t (by simpa using (staging_ne t).symm)] at habsent
    exact .nothing habsent (by rw [hfin, hoff.2.2]) (by rw [hdel, hoff.2.1])
      fun u hu => (hoff' u hu).trans (hsame _ u hu)
  | published hrows hstg hobj hfin hdel hoff' hlive =>
    exact .published hrows hstg hobj (by rw [hfin, hoff.2.2]) (by rw [hdel, hoff.2.1])
      (fun u hu => (hoff' u hu).trans (hsame _ u hu)) hlive

omit [GoLib] in
/-- A run that ended before the sink was touched. -/
theorem Failed.early {v : SinkView} {e : Err} : Failed t v (some e) v :=
  ⟨by simp, rfl, ⟨[], by simp⟩, fun _ _ => rfl⟩

theorem wp_runStarted (hsink : r.sink = Mssql.sink) (hmode : load.mode = loadModeReplace)
    (htarget : load.target = t) (hread : ∀ cfg, Reports false (r.read cfg)) (src : ℕ)
    (run : LoadRun) (current : Watermark) (v : SinkView) :
    (sinkSpec S srv).wp (r.runStarted load src run current)
      (fun exit v' => ReplaceRun srv t v exit.err v') v := by
  refine wp_silent rfl fun _ => wp_silent rfl fun loadTS => ?_
  rw [if_pos hmode, hsink, htarget]
  refine Spec.wp_seq (wp_prepareExisting t v) ?_
  rintro (e | s) v₁ ⟨hoff, hok⟩
  · refine wp_silent rfl fun _ => wp_silent rfl fun _ => wp_silent rfl fun _ => .failed ?_
    exact ⟨by simp, hoff.2.2, ⟨[], by simpa using hoff.2.1⟩,
      fun u hu => hoff.1 u fun h => hu (by simp [List.mem_singleton.1 h])⟩
  · obtain ⟨hs, hprep⟩ := hok s rfl
    refine Spec.wp_seq (wp_readAndFinish hsink hmode hread src run current loadTS hs hprep) ?_
    rintro exit v₂ ⟨hrun, hab⟩
    refine Spec.wp_seq (wp_exitAbort hrun hab) ?_
    exact fun _ v' h => h.of_off hoff

theorem wp_leased (hsink : r.sink = Mssql.sink) (hmode : load.mode = loadModeReplace)
    (htarget : load.target = t) (hread : ∀ cfg, Reports false (r.read cfg)) (src : ℕ)
    (v : SinkView) :
    (sinkSpec S srv).wp (r.leased load src) (fun exit v' => ReplaceRun srv t v exit.err v') v := by
  refine wp_silent rfl fun wm => ?_
  cases wm with
  | error e => exact .failed .early
  | ok wm =>
    refine wp_silent rfl fun run => ?_
    cases run with
    | error e => exact .failed .early
    | ok run => exact wp_runStarted hsink hmode htarget hread src run _ v

/-- A load in replace mode on the target `t` of the SQL Server sink, with the
    runner that executes it. Point-based sources are never run in this mode. -/
structure ReplaceLoad (S : Sig) [GoLib] (t : TargetTable) where
  runner : Runner S
  load : Load
  sink : runner.sink = Mssql.sink
  mode : load.mode = loadModeReplace
  kind : load.source.kind ≠ "modbus" ∧ load.source.kind ≠ "opcua"
  target : load.target = t
  reports : ∀ cfg, Reports false (runner.read cfg)

/-- `Execute` of such a load. -/
def ReplaceLoad.execute (l : ReplaceLoad S t) : Prog (sysSig S) (Option Err) :=
  l.runner.execute l.load

/-- Every run of a replace load ends in one of the ways of `ReplaceRun`. -/
theorem wp_execute (l : ReplaceLoad S t) (v : SinkView) :
    (sinkSpec S srv).wp l.execute (fun err v' => ReplaceRun srv t v err v') v := by
  have hpoint : Runner.pointBased l.load = l.load := if_neg (not_or.2 l.kind)
  unfold ReplaceLoad.execute Runner.execute
  simp only [hpoint]
  cases l.runner.resolveParams l.load.source.paramsJSON with
  | error e => exact .failed .early
  | ok params =>
    refine wp_silent rfl fun src => ?_
    cases src with
    | error e => exact .failed .early
    | ok src =>
      refine Spec.wp_seq (wp_leased l.sink l.mode l.target l.reports src v) fun exit v' h => ?_
      exact wp_silent rfl fun _ => h

end DataLoader
