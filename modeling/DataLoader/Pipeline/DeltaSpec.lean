import DataLoader.Pipeline.ReplaceSpec
import DataLoader.Sink.Calls
import DataLoader.Sources.ReadSpec

/-!
# What a delta run does

The whole of `Execute` for a delta load over a SQL source, on the sink and the
source side by side (`deltaSpec`).

* `wp_interpret_of`: a `Read` that meets its specification does so when it is
  run with a handler that meets that of `emit`.
* `DeltaRun`, `wp_executeDelta`: every run of `Execute` either fails and leaves
  the stored watermark, or has completed its read before it touches it.
-/

namespace DataLoader

open Effects Mssql SourceRow

open scoped List

/-! ## Running a `Read` -/

section

variable {S : Sig} {V U σ α : Type}

/-- If the driver calls and the handler do what `B` allows a `Read` to see, then
    a `Read` run with them does what it does over `B`. -/
theorem wp_interpret_of {A : Spec (sysSig S) V} {B : Spec (readSig S) U} {src : ℕ}
    {h : σ → Batch → Prog (sysSig S) (σ × Option Err)} {R : σ → V → U → Prop}
    (hdriver : ∀ {c : S.Call} {st v u v₁} {r : S.Ans c} {v₂}, R st v u → A.drift v v₁ →
      A.step (.source src c) v₁ r v₂ → ∃ u₁ u₂, B.drift u u₁ ∧ B.step (.driver c) u₁ r u₂ ∧ R st v₂ u₂)
    (hemit : ∀ {b st v u v₁ v₂}, R st v u → A.drift v v₁ → A.step (.deliver b) v₁ () v₂ →
      A.wp (h st b) (fun se v' => ∃ u', B.step (.emit b) u se.2 u' ∧ R se.1 v' u') v₂)
    {p : Prog (readSig S) α} {Q : α → U → Prop} {st : σ} {v : V} {u : U} (hp : B.wp p Q u)
    (hR : R st v u) :
    A.wp (Runner.interpret src h p st) (fun sa v' => ∃ u', Q sa.2 u' ∧ R sa.1 v' u') v := by
  induction p generalizing st v u with
  | ret a => exact ⟨u, hp, hR⟩
  | call c k ih =>
    cases c with
    | driver c =>
      intro v₁ hd r v₂ hs
      obtain ⟨u₁, u₂, hd', hs', hR'⟩ := hdriver hR hd hs
      exact ih r (hp u₁ hd' r u₂ hs') hR'
    | emit b =>
      intro v₁ hd r v₂ hs
      refine (Spec.wp_bind _ _ _ _).2 (Spec.wp_mono (hemit hR hd hs) ?_)
      rintro ⟨st', e⟩ v' ⟨u', hs', hR'⟩
      exact ih e (hp u (B.drift_refl u) e u' hs') hR'

end

/-! ## Sink and source side by side -/

variable {V : Type} [LinearOrder V]

/-- The specification of a delta run. -/
abbrev deltaSpec (srv : SqlServer) (col : WatermarkColumn V) (types : List ColumnType)
    (policy : TableChange V → List (SourceRow V) → Bool) (g : Checks V) (id : Int) :
    Spec (sysSig sqlSig) (SinkView × FeedView V) :=
  (sinkSpec sqlSig srv).prod (feedSpec col types policy g id)

/-- The calls that neither write to the sink, nor query the source, nor move a
    watermark. -/
def SysCall.idle {S : Sig} : SysCall S → Prop
  | .db _ | .source .. | .store (.upsertWatermark ..) => False
  | _ => True

variable {srv : SqlServer} {col : WatermarkColumn V} {types : List ColumnType}
  {policy : TableChange V → List (SourceRow V) → Bool} {g : Checks V} {id : Int}

/-- While a program makes idle calls only, others still change the table. -/
theorem wp_idle {α : Type} {p : Prog (sysSig sqlSig) α} (hp : p.Calls SysCall.idle)
    (v : SinkView × FeedView V) :
    (deltaSpec srv col types policy g id).wp p
      (fun _ v' => v'.1.db = v.1.db ∧ v.2.Drifts policy v'.2) v := by
  refine Spec.wp_inv (P := SysCall.idle) ?_ ?_ hp ⟨rfl, .refl _⟩
  · rintro v₁ v₂ ⟨hdb, hf⟩ ⟨hs, hd⟩
    exact ⟨by rw [← hs, hdb], hf.trans hd⟩
  · rintro c v₁ r v₂ hc ⟨hdb, hf⟩ ⟨hs, hd⟩
    cases c with
    | db s => exact hc.elim
    | source l c => exact hc.elim
    | store s =>
      cases s with
      | getWatermark i => exact ⟨by rw [hs, hdb], by rw [hd.1]; exact hf⟩
      | upsertWatermark i s => exact hc.elim
      | startRun i s => exact ⟨by rw [hs, hdb], by rw [hd]; exact hf⟩
      | finishRun run st rr rw wm msg => exact ⟨by rw [hs, hdb], by rw [hd]; exact hf⟩
    | _ => exact ⟨by rw [hs, hdb], by rw [hd]; exact hf⟩

/-- A program that only talks to the sink. -/
theorem wp_onDb {α : Type} {p : Prog (sysSig sqlSig) α} (hp : p.Calls SysCall.onDb)
    {Q : α → SinkView → Prop} {v : SinkView × FeedView V}
    (h : (sinkSpec sqlSig srv).wp p Q v.1) :
    (deltaSpec srv col types policy g id).wp p
      (fun a v' => Q a v'.1 ∧ v.2.Drifts policy v'.2) v := by
  refine Spec.wp_prod h (Spec.wp_inv (P := SysCall.onDb) ?_ ?_ hp (.refl v.2))
  · exact fun _ _ hf hd => hf.trans hd
  · intro c f r f' hc hf hs
    cases c with
    | db s => rw [show f' = f from hs]; exact hf
    | _ => exact hc.elim

/-! ## The handler -/

variable [GoLib] {r : Runner sqlSig} {load : Load} {loadTS : Time}

/-- A handler state outside replace mode. -/
structure Appends (load : Load) (st : HandlerState sqlSig) : Prop where
  repl : st.repl = none
  target : st.writeTarget = load.target

theorem wp_writeBatch_delta (hsink : r.sink = Mssql.sink) {st : HandlerState sqlSig}
    (hst : Appends load st) (b : Batch) (v : SinkView × FeedView V) :
    (deltaSpec srv col types policy g id).wp (r.writeBatch loadTS st b)
      (fun se v' => v.2.Drifts policy v'.2 ∧ Appends load se.1 ∧
        ∃ D, v'.1.content load.target = v.1.content load.target ++ D ∧
          (se.2 = none → prepareRows b.columns loadTS b.rows = .ok D)) v := by
  unfold Runner.writeBatch
  rw [hsink, hst.target]
  refine Spec.wp_seq (wp_onDb (calls_writeBatch (fun _ _ => trivial) load.target b loadTS)
    (wp_writeBatch load.target b loadTS v.1)) ?_
  rintro res v' ⟨⟨-, D, -, hcontent, hprep⟩, hdrift⟩
  cases res with
  | error e => exact ⟨hdrift, hst, D, hcontent, by simp⟩
  | ok n => exact ⟨hdrift, ⟨hst.repl, rfl⟩, D, hcontent, fun _ => hprep n rfl⟩

theorem wp_onFirstBatch_delta (hsink : r.sink = Mssql.sink) {st : HandlerState sqlSig}
    (hst : Appends load st) (b : Batch) (v : SinkView × FeedView V) :
    (deltaSpec srv col types policy g id).wp (r.onFirstBatch load st b)
      (fun res v' => v.2.Drifts policy v'.2 ∧
        v'.1.content load.target = v.1.content load.target ∧
        ∀ st', res = .ok st' → Appends load st') v := by
  unfold Runner.onFirstBatch
  simp only [hst.repl]
  split_ifs
  · rw [hsink]
    refine Spec.wp_seq (wp_onDb (calls_ensureTable (fun _ _ => trivial) load.target b.columns)
      (wp_ensureTable load.target b.columns v.1)) ?_
    rintro e v' ⟨⟨-, -, hcontent⟩, hdrift⟩
    cases e with
    | some e => exact ⟨hdrift, hcontent, by simp⟩
    | none =>
      refine ⟨hdrift, hcontent, fun st' h => ?_⟩
      obtain rfl := Except.ok.inj h
      exact ⟨rfl, hst.target⟩
  · refine ⟨.refl _, rfl, fun st' h => ?_⟩
    obtain rfl := Except.ok.inj h
    exact ⟨rfl, hst.target⟩

theorem wp_handler_delta (hsink : r.sink = Mssql.sink) {st : HandlerState sqlSig}
    (hst : Appends load st) (b : Batch) (v : SinkView × FeedView V) :
    (deltaSpec srv col types policy g id).wp (r.handler load loadTS st b)
      (fun se v' => v.2.Drifts policy v'.2 ∧ Appends load se.1 ∧
        ∃ D, v'.1.content load.target = v.1.content load.target ++ D ∧
          (se.2 = none → prepareRows b.columns loadTS b.rows = .ok D)) v := by
  unfold Runner.handler
  split_ifs
  · refine Spec.wp_seq (wp_onFirstBatch_delta hsink hst b v) ?_
    rintro res v₁ ⟨hdrift, hcontent, hok⟩
    cases res with
    | error e => exact ⟨hdrift, hst, [], by simpa using hcontent, by simp⟩
    | ok st₁ =>
      refine Spec.wp_mono (wp_writeBatch_delta hsink (hok st₁ rfl) b v₁) ?_
      rintro se v' ⟨hdrift', hst', D, hD, hprep⟩
      exact ⟨hdrift.trans hdrift', hst', D, by rw [hD, hcontent], hprep⟩
  · exact wp_writeBatch_delta hsink hst b v

/-- The read of a delta run. -/
theorem wp_interpret_delta (hsink : r.sink = Mssql.sink) {d : Dialect} (hread : r.read = d.read)
    (src : ℕ) {cfg : LoadConfig} {type : String} {v : SinkView × FeedView V}
    (hcfg : DeltaConfig cfg type v.2.stored) {st : HandlerState sqlSig} (hst : Appends load st) :
    (deltaSpec srv col types policy g id).wp
      (Runner.interpret src (r.handler load loadTS) (r.read cfg) st)
      (fun sr v' => ReadDone col types policy g d type ⟨v.2, v.1.content load.target⟩ sr.2
        ⟨v'.2, v'.1.content load.target⟩ ∧ Appends load sr.1) v := by
  rw [hread]
  refine Spec.wp_mono (wp_interpret_of
    (B := readSpec col types policy g loadTS)
    (R := fun st v u => u = ⟨v.2, v.1.content load.target⟩ ∧ Appends load st)
    ?_ ?_ (wp_read d (u := ⟨v.2, v.1.content load.target⟩) hcfg) ⟨rfl, hst⟩) ?_
  · rintro c st v _ v₁ r v₂ ⟨rfl, hst⟩ ⟨hs, hd⟩ ⟨hs', hd'⟩
    refine ⟨⟨v₁.2, v₁.1.content load.target⟩, ⟨v₂.2, v₂.1.content load.target⟩, ⟨hd, ?_⟩, ⟨hd', ?_⟩,
      rfl, hst⟩
    · rw [← hs]
    · rw [show v₂.1 = v₁.1 from hs']
  · rintro b st v _ v₁ v₂ ⟨rfl, hst⟩ ⟨hs, hd⟩ ⟨hs', hd'⟩
    have hcontent : v₂.1.content load.target = v.1.content load.target := by
      rw [show v₂.1 = _ from hs', ← hs]
      rfl
    have hfeed : v.2.Drifts policy v₂.2 := by
      rw [show v₂.2 = v₁.2 from hd']
      exact hd
    refine Spec.wp_mono (wp_handler_delta hsink hst b v₂) ?_
    rintro se v' ⟨hdrift, hst', D, hD, hprep⟩
    exact ⟨⟨v'.2, v'.1.content load.target⟩, ⟨hfeed.trans hdrift, D, by rw [hD, hcontent], hprep⟩,
      rfl, hst'⟩
  · rintro sr v' ⟨u', hdone, rfl, hst'⟩
    exact ⟨hdone, hst'⟩

/-! ## The end of a run -/

omit [GoLib] in
theorem idle_of_closes {S : Sig} (c : SysCall S) (h : c.closes) : c.idle := by
  cases c with
  | store s => cases s <;> trivial
  | _ => trivial

/-- What the end of a run does with the new watermark `wm`: it is stored, or the
    old one is kept because of an error or because there is none. -/
structure Persisted (policy : TableChange V → List (SourceRow V) → Bool) (wm : String)
    (v : SinkView × FeedView V) (err : Option Err) (v' : SinkView × FeedView V) : Prop where
  db : v'.1.db = v.1.db
  rows : Evolves policy v.2.rows v'.2.rows
  asked : v'.2.asked = v.2.asked
  stored : (v'.2.stored = wm ∧ wm ≠ "") ∨ (v'.2.stored = v.2.stored ∧ (err ≠ none ∨ wm = ""))

omit [GoLib] in
theorem wp_finishRead_delta (hmode : load.mode = loadModeDelta) (hid : load.id = id)
    (run : LoadRun) {current : String} {result : ReadResult} (rw : Int) {v : SinkView × FeedView V}
    (hcur : current = v.2.stored) :
    (deltaSpec srv col types policy g id).wp (Runner.finishRead load run current result rw)
      (fun err v' => Persisted policy result.newWatermark.value v err v') v := by
  unfold Runner.finishRead
  split_ifs with hadv
  · -- the watermark moves: the upsert has its effect, fails, or both
    intro v₁ hd e v₂ hs
    obtain ⟨hsink, hfeed⟩ := hd
    obtain ⟨hsink₂, o, rfl, hf₂⟩ := hs
    have hwm : result.newWatermark.value ≠ "" := by
      simp only [Runner.advances, Bool.and_eq_true, bne_iff_ne] at hadv
      exact hadv.1.2
    have hdb : v₂.1.db = v.1.db := by rw [show v₂.1 = v₁.1 from hsink₂, ← hsink]
    have hrows : Evolves policy v.2.rows v₂.2.rows := by
      rw [hf₂]
      split_ifs <;> exact hfeed.rows
    have hasked : v₂.2.asked = v.2.asked := by
      rw [hf₂]
      split_ifs <;> exact hfeed.asked
    have hstored : v₂.2.stored = result.newWatermark.value ∨
        (v₂.2.stored = v.2.stored ∧ o ≠ .ok) := by
      rw [hf₂]
      split_ifs with heff
      · exact .inl rfl
      · refine .inr ⟨hfeed.stored, fun ho => heff ⟨?_, hid⟩⟩
        rw [ho, Outcome.effective_ok]
    cases o with
    | ok =>
      refine Spec.wp_mono (wp_idle ((Runner.calls_finishSuccess load run result rw).mono idle_of_closes) v₂) ?_
      rintro err v' ⟨hdb', hdrift⟩
      refine ⟨hdb'.trans hdb, Relation.ReflTransGen.trans hrows hdrift.rows,
        hdrift.asked.trans hasked, .inl ?_⟩
      rcases hstored with hst | ⟨-, hne⟩
      · exact ⟨hdrift.stored.trans hst, hwm⟩
      · exact absurd rfl hne
    | fail msg n =>
      change (deltaSpec srv col types policy g id).wp (Runner.failRun _ _ _ _ _ _ >>= _) _ v₂
      refine Spec.wp_seq (wp_idle ((Runner.calls_failRun load run _ _ _ _).mono idle_of_closes) v₂) ?_
      rintro _ v' ⟨hdb', hdrift⟩
      refine ⟨hdb'.trans hdb, Relation.ReflTransGen.trans hrows hdrift.rows,
        hdrift.asked.trans hasked, ?_⟩
      rcases hstored with hst | ⟨hst, -⟩
      · exact .inl ⟨hdrift.stored.trans hst, hwm⟩
      · exact .inr ⟨hdrift.stored.trans hst, .inl (by simp)⟩
  · -- it does not: there is none, or it is the stored one
    refine Spec.wp_mono (wp_idle ((Runner.calls_finishSuccess load run result rw).mono idle_of_closes) v) ?_
    rintro err v' ⟨hdb, hdrift⟩
    refine ⟨hdb, hdrift.rows, hdrift.asked, ?_⟩
    by_cases hempty : result.newWatermark.value = ""
    · exact .inr ⟨hdrift.stored, .inr hempty⟩
    · left
      have hsame : result.newWatermark.value = current := by
        by_contra hne
        exact hadv (by simp [Runner.advances, hmode, hempty, hne])
      exact ⟨by rw [hdrift.stored, hsame, hcur], hempty⟩

/-! ## `Execute` -/

/-- A delta load over a SQL source of the dialect `d`, into the SQL Server sink,
    with the runner that executes it. -/
structure DeltaLoad (d : Dialect) [GoLib] where
  runner : Runner sqlSig
  load : Load
  sink : runner.sink = Mssql.sink
  read : runner.read = d.read
  kind : load.source.kind = d.kind
  mode : load.mode = loadModeDelta

/-- `Execute` of such a load. -/
def DeltaLoad.execute {d : Dialect} (l : DeltaLoad d) : Prog (sysSig sqlSig) (Option Err) :=
  l.runner.execute l.load

/-- What a delta run does: it keeps the stored watermark and fails, or it has
    completed its read, and then the watermark that was read is stored unless an
    error prevents it or there is none. -/
structure DeltaRun (col : WatermarkColumn V) (types : List ColumnType)
    (policy : TableChange V → List (SourceRow V) → Bool) (g : Checks V) (d : Dialect) (load : Load)
    (v : SinkView × FeedView V) (err : Option Err) (v' : SinkView × FeedView V) : Prop where
  rows : Evolves policy v.2.rows v'.2.rows
  asked : ∃ qs, v'.2.asked = v.2.asked ++ qs ∧
    ∀ q ∈ qs, AsksAbove d load.watermarkType v.2.stored q
  outcome : ∃ D, v'.1.content load.target = v.1.content load.target ++ D ∧
    ((err ≠ none ∧ v'.2.stored = v.2.stored) ∨
      ∃ wm, Completed col types policy g d load.watermarkType v.2 D v'.2 wm ∧
        ((v'.2.stored = wm ∧ wm ≠ "") ∨
          (v'.2.stored = v.2.stored ∧ (err ≠ none ∨ wm = ""))))

variable {d : Dialect}

/-- A run that failed before it read anything. -/
theorem DeltaRun.early {v v' : SinkView × FeedView V} {e : Err} (hdb : v'.1.db = v.1.db)
    (hdrift : v.2.Drifts policy v'.2) :
    DeltaRun col types policy g d load v (some e) v' := by
  refine ⟨hdrift.rows, ⟨[], by simpa using hdrift.asked, by simp⟩, [], ?_, .inl ⟨by simp, hdrift.stored⟩⟩
  rw [List.append_nil, SinkView.content, SinkView.tables, hdb]
  rfl

theorem Completed.mono {type : String} {f f₁ f₂ : FeedView V} {D : List SinkRow} {wm : String}
    (h : Completed col types policy g d type f D f₁ wm) (hrows : Evolves policy f₁.rows f₂.rows)
    (hasked : f₂.asked = f₁.asked) : Completed col types policy g d type f D f₂ wm := by
  cases h with
  | init hfirst hbefore hmax hwm hD hafter hasked₁ =>
    exact .init hfirst hbefore hmax hwm hD (Relation.ReflTransGen.trans hafter hrows)
      (hasked.trans hasked₁)
  | range hfirst hbefore hmax hwm hbetween hrange hlo hup hx hy hD hafter hasked₁ =>
    exact .range hfirst hbefore hmax hwm hbetween hrange hlo hup hx hy hD
      (Relation.ReflTransGen.trans hafter hrows) (hasked.trans hasked₁)

theorem wp_readAndFinish_delta (l : DeltaLoad d) (hid : l.load.id = id) (src : ℕ) (run : LoadRun)
    (loadTS : Time) {current : Watermark} {v : SinkView × FeedView V}
    (hcur : current = ⟨l.load.watermarkType, v.2.stored⟩) :
    (deltaSpec srv col types policy g id).wp
      (l.runner.readAndFinish l.load src run current loadTS none)
      (fun exit v' => DeltaRun col types policy g d l.load v exit.err v') v := by
  have hcfg : DeltaConfig (Runner.loadConfig l.load current) l.load.watermarkType v.2.stored :=
    ⟨l.mode, rfl, hcur⟩
  have hst : Appends l.load ({ writeTarget := l.load.target, repl := none } : HandlerState sqlSig) :=
    ⟨rfl, rfl⟩
  unfold Runner.readAndFinish
  refine Spec.wp_seq (wp_interpret_delta l.sink l.read src hcfg hst) ?_
  rintro ⟨st, result, rerr⟩ v₁ ⟨⟨hprog, D, hout, hdone⟩, hst₁⟩
  cases rerr with
  | some e =>
    refine Spec.wp_seq (wp_idle ((Runner.calls_failRun l.load run _ _ _ _).mono idle_of_closes) v₁) ?_
    rintro _ v' ⟨hdb, hdrift⟩
    obtain ⟨qs, hqs, hlower⟩ := hprog.asked
    refine ⟨Relation.ReflTransGen.trans hprog.rows hdrift.rows,
      ⟨qs, hdrift.asked.trans hqs, hlower⟩, D, ?_, .inl ⟨by simp, hdrift.stored.trans hprog.stored⟩⟩
    rw [SinkView.content, SinkView.tables, hdb]
    exact hout
  | none =>
    obtain ⟨hcomp, -⟩ := hdone rfl
    have hrepl : st.repl = none := hst₁.repl
    simp only [hrepl]
    have hstored : current.value = v₁.2.stored := by rw [hcur]; exact hprog.stored.symm
    refine Spec.wp_seq (wp_finishRead_delta l.mode hid run st.rowsWritten hstored) ?_
    intro err v' hp
    obtain ⟨qs, hqs, hlower⟩ := hprog.asked
    refine ⟨Relation.ReflTransGen.trans hprog.rows hp.rows, ⟨qs, hp.asked.trans hqs, hlower⟩, D, ?_,
      .inr ⟨_, hcomp.mono hp.rows hp.asked, ?_⟩⟩
    · rw [SinkView.content, SinkView.tables, hp.db]
      exact hout
    · rw [← show v₁.2.stored = v.2.stored from hprog.stored]
      exact hp.stored

/-- Changes of the table before the run only add to those during it. -/
theorem Completed.of_drift {type : String} {f f₁ f₂ : FeedView V} {D : List SinkRow} {wm : String}
    (h : Completed col types policy g d type f₁ D f₂ wm) (hd : f.Drifts policy f₁) :
    Completed col types policy g d type f D f₂ wm := by
  have hwith : ∀ rows, ({ f₁ with rows := rows } : FeedView V) = { f with rows := rows } :=
    fun rows => by rw [hd.stored, hd.asked]
  cases h with
  | init hfirst hbefore hmax hwm hD hafter hasked =>
    exact .init (hd.stored ▸ hfirst) (Relation.ReflTransGen.trans hd.rows hbefore)
      (hwith _ ▸ hmax) hwm hD hafter (hasked.trans hd.asked)
  | range hfirst hbefore hmax hwm hbetween hrange hlo hup hx hy hD hafter hasked =>
    exact .range (hd.stored ▸ hfirst) (Relation.ReflTransGen.trans hd.rows hbefore)
      (hwith _ ▸ hmax) hwm hbetween (hwith _ ▸ hrange) (hd.stored ▸ hlo) hup hx hy hD hafter
      (hd.asked ▸ hasked)

theorem DeltaRun.before {v v₁ v' : SinkView × FeedView V} {err : Option Err}
    (h : DeltaRun col types policy g d load v₁ err v') (hdb : v₁.1.db = v.1.db)
    (hd : v.2.Drifts policy v₁.2) : DeltaRun col types policy g d load v err v' := by
  obtain ⟨qs, hqs, hlower⟩ := h.asked
  obtain ⟨D, hD, hout⟩ := h.outcome
  refine ⟨Relation.ReflTransGen.trans hd.rows h.rows, ⟨qs, by rw [hqs, hd.asked], ?_⟩, D, ?_, ?_⟩
  · rw [← hd.stored]
    exact hlower
  · rw [hD, SinkView.content, SinkView.tables, hdb]
    rfl
  · rw [← hd.stored]
    refine hout.imp_right ?_
    rintro ⟨wm, hcomp, hst⟩
    exact ⟨wm, hcomp.of_drift hd, hst⟩

theorem DeltaRun.after {v v₁ v' : SinkView × FeedView V} {err : Option Err}
    (h : DeltaRun col types policy g d load v err v₁) (hdb : v'.1.db = v₁.1.db)
    (hd : v₁.2.Drifts policy v'.2) : DeltaRun col types policy g d load v err v' := by
  obtain ⟨qs, hqs, hlower⟩ := h.asked
  obtain ⟨D, hD, hout⟩ := h.outcome
  refine ⟨Relation.ReflTransGen.trans h.rows hd.rows, ⟨qs, hd.asked.trans hqs, hlower⟩, D, ?_, ?_⟩
  · rw [← hD, SinkView.content, SinkView.tables, hdb]
    rfl
  · rw [hd.stored]
    refine hout.imp_right ?_
    rintro ⟨wm, hcomp, hst⟩
    exact ⟨wm, hcomp.mono hd.rows hd.asked, hst⟩

/-- A run goes on after a call that its view does not see. -/
theorem wp_idle_call {c : SysCall sqlSig} (hc : c.idle)
    {k : c.Ans → Prog (sysSig sqlSig) (Runner.Exit sqlSig)} {v : SinkView × FeedView V}
    (h : ∀ r v₁, v₁.2.stored = v.2.stored → (deltaSpec srv col types policy g id).wp (k r)
      (fun exit v' => DeltaRun col types policy g d load v₁ exit.err v') v₁) :
    (deltaSpec srv col types policy g id).wp (Prog.perform (S := sysSig sqlSig) c >>= k)
      (fun exit v' => DeltaRun col types policy g d load v exit.err v') v := by
  have hcall : (Prog.perform (S := sysSig sqlSig) c).Calls SysCall.idle := ⟨hc, fun _ => trivial⟩
  refine Spec.wp_seq (wp_idle hcall v) ?_
  rintro r v₁ ⟨hdb, hd⟩
  exact Spec.wp_mono (h r v₁ hd.stored) fun _ _ hrun => hrun.before hdb hd

theorem wp_runStarted_delta (l : DeltaLoad d) (hid : l.load.id = id) (src : ℕ) (run : LoadRun)
    {current : Watermark} {v : SinkView × FeedView V}
    (hcur : current = ⟨l.load.watermarkType, v.2.stored⟩) :
    (deltaSpec srv col types policy g id).wp (l.runner.runStarted l.load src run current)
      (fun exit v' => DeltaRun col types policy g d l.load v exit.err v') v := by
  refine wp_idle_call (by trivial) fun _ v₁ hv₁ => wp_idle_call (by trivial) fun loadTS v₂ hv₂ => ?_
  have hmode : ¬l.load.mode = loadModeReplace := by rw [l.mode]; decide
  rw [if_neg hmode]
  exact wp_readAndFinish_delta l hid src run loadTS (by rw [hcur, hv₂, hv₁])

theorem wp_leased_delta (l : DeltaLoad d) (hid : l.load.id = id) (src : ℕ)
    (v : SinkView × FeedView V) :
    (deltaSpec srv col types policy g id).wp (l.runner.leased l.load src)
      (fun exit v' => DeltaRun col types policy g d l.load v exit.err v') v := by
  intro v₁ hd wm v₂ hs
  obtain ⟨hsink, hfeed⟩ := hd
  obtain ⟨hsink₂, hfeed₂, hwm⟩ := hs
  have hdb : v₂.1.db = v.1.db := by rw [show v₂.1 = v₁.1 from hsink₂, ← hsink]
  have hdrift : v.2.Drifts policy v₂.2 := by rw [show v₂.2 = v₁.2 from hfeed₂]; exact hfeed
  cases wm with
  | error e => exact .early hdb hdrift
  | ok row =>
    refine Spec.wp_mono (wp_idle_call (by trivial) fun run v₃ hv₃ => ?_) fun _ _ hrun =>
      hrun.before hdb hdrift
    cases run with
    | error e => exact .early rfl (.refl _)
    | ok run =>
      refine wp_runStarted_delta l hid src run ?_
      rw [hv₃, show v₂.2 = v₁.2 from hfeed₂, ← hwm row hid rfl]

/-- Every run of a delta load. -/
theorem wp_executeDelta (l : DeltaLoad d) (hid : l.load.id = id) (v : SinkView × FeedView V) :
    (deltaSpec srv col types policy g id).wp l.execute
      (fun err v' => DeltaRun col types policy g d l.load v err v') v := by
  have hpoint : Runner.pointBased l.load = l.load := by
    refine if_neg ?_
    rw [l.kind]
    cases d <;> decide
  unfold DeltaLoad.execute Runner.execute
  simp only [hpoint]
  cases l.runner.resolveParams l.load.source.paramsJSON with
  | error e => exact .early rfl (.refl _)
  | ok params =>
    have hobtain : (Runner.obtain (S := sqlSig) ⟨l.load.sourceID, l.load.source.kind,
        l.load.source.name, params⟩).Calls SysCall.idle := ⟨trivial, fun _ => trivial⟩
    refine Spec.wp_seq (wp_idle hobtain v) ?_
    rintro src v₁ ⟨hdb, hd⟩
    cases src with
    | error e => exact .early hdb hd
    | ok src =>
      refine Spec.wp_seq (wp_leased_delta l hid src v₁) fun exit v₂ hrun => ?_
      have hrelease : (Runner.release (S := sqlSig) src exit.invalidate).Calls SysCall.idle :=
        ⟨trivial, fun _ => trivial⟩
      refine Spec.wp_seq (wp_idle hrelease v₂) ?_
      rintro _ v' ⟨hdb', hd'⟩
      exact (hrun.before hdb hd).after hdb' hd'

omit [GoLib] in
/-- So every run of the system ends as `DeltaRun` says. -/
theorem deltaSpec_meets (srv : SqlServer) (col : WatermarkColumn V) (types : List ColumnType)
    (policy : TableChange V → List (SourceRow V) → Bool) (g : Checks V) (id : Int) :
    Meets ((World.machine srv (sqlSide col types policy)).guard (g.call id))
      (deltaSpec srv col types policy g id) (fun w => (sinkView w, feedView id w)) :=
  ((sinkSpec_meets srv _).of_guard _).prod (feedSpec_meets srv col types policy g id)

omit [GoLib] in
theorem deltaSpec_meets_machine (srv : SqlServer) (col : WatermarkColumn V)
    (types : List ColumnType) (policy : TableChange V → List (SourceRow V) → Bool) (id : Int) :
    Meets (World.machine srv (sqlSide col types policy)) (deltaSpec srv col types policy {} id)
      (fun w => (sinkView w, feedView id w)) :=
  (sinkSpec_meets srv _).prod (feedSpec_meets_machine srv col types policy id)

end DataLoader
