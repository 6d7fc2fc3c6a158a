import DataLoader.Pipeline.Calm
import DataLoader.Pipeline.SinkProtocol

/-!
# Replace runs that nothing disturbs

The evaluation of `Execute` for a load in replace mode when every call succeeds,
with an arbitrary source. `feed` is what such a source delivers. From the first
batch on the handler fills one table (`Filling`): the staging table, or with a
sink that can only truncate the live table itself. `calmly_execute_atomic` gives
the tables after an atomic replace.
-/

namespace DataLoader

open Effects Mssql SinkProtocol

variable {S : Sig} {srv : SqlServer} {side : SourceSide S} {α : Type}

/-! ## The source -/

/-- The batches that a source delivers while its driver calls succeed and its
    batches are accepted, and what `Read` then returns. -/
def feed (side : SourceSide S) (src : ℕ) (now : Time) :
    Prog (readSig S) α → side.State → List Batch × α
  | .ret a, _ => ([], a)
  | .call (.driver c) k, s =>
    feed side src now (k (side.answer src c .ok now s).1) (side.answer src c .ok now s).2
  | .call (.emit b) k, s =>
    (b :: (feed side src now (k none) s).1, (feed side src now (k none) s).2)

variable {ts : Tables} {w : World side}

/-- A statement leaves the source and the time. -/
theorem World.calm_onDb {c : SysCall S} {r : c.Ans} {w w' w₀ : World side} (hc : c.onDb)
    (h : World.calm srv side c w = some (r, w')) (hw : w.src = w₀.src ∧ w.clock = w₀.clock) :
    w'.src = w₀.src ∧ w'.clock = w₀.clock := by
  cases c with
  | db c =>
    obtain rfl : _ = w' := congrArg Prod.snd (Option.some.inj h)
    exact hw
  | _ => exact hc.elim

/-- A `Read` whose batches are all accepted, with an invariant of the handler on
    the batches that it has accepted. -/
theorem calmly_interpret {σ : Type} {src : ℕ} {h : σ → Batch → Prog (sysSig S) (σ × Option Err)}
    {I : List Batch → σ → Tables → Prop} {all : List Batch}
    (hcalls : ∀ {bs st ts b}, I bs st ts → (h st b).Calls SysCall.onDb)
    (hstep : ∀ {bs st ts b} {w : World side}, bs ++ [b] <+: all → I bs st ts → At ts w →
      Calmly srv (h st b)
        (fun se w' => se.2 = none ∧ ∃ ts', At ts' w' ∧ I (bs ++ [b]) se.1 ts') w)
    (p : Prog (readSig S) α) {bs : List Batch} {st : σ} (hI : I bs st ts) (hw : At ts w)
    (hall : bs ++ (feed side src w.clock p w.src).1 = all) :
    Calmly srv (Runner.interpret src h p st)
      (fun sr w' => sr.2 = (feed side src w.clock p w.src).2 ∧ ∃ ts', At ts' w' ∧ I all sr.1 ts') w := by
  induction p generalizing bs st ts w with
  | ret a =>
    obtain rfl : bs = all := (List.append_nil bs).symm.trans hall
    exact .ret ⟨rfl, ts, hw, hI⟩
  | call c k ih =>
    cases c with
    | driver c =>
      have h₁ : At ts (World.answer srv side .ok (.source src c) w).2 := hw.answer (by simp) .ok
      exact .call rfl (ih _ hI h₁ hall)
    | emit b =>
      have h₁ : At ts (World.answer srv side .ok (.deliver b) w).2 := hw.answer (by simp) .ok
      have hall' : bs ++ [b] ++ (feed side src w.clock (k none) w.src).1 = all := by
        rw [List.append_assoc]
        exact hall
      have hpre : bs ++ [b] <+: all := ⟨_, hall'⟩
      refine .call rfl (Prog.Ends.seq ((hstep hpre hI h₁).keeps (hcalls hI) World.calm_onDb
        ⟨rfl, rfl⟩) ?_)
      rintro ⟨st', _⟩ w₂ ⟨⟨rfl, ts', h₂, hI'⟩, hsrc, hclock⟩
      have hfeed : feed side src w₂.clock (k none) w₂.src =
          feed side src w.clock (k none) w.src := by
        rw [hsrc, hclock]
        rfl
      have := ih none hI' h₂ (hfeed ▸ hall')
      rw [hfeed] at this
      exact this

/-! ## The run -/

variable {r : Runner S} {load : Load} {loadTS : Time}

/-- The source of a run: its parameters resolve, it can be leased, and `Read` for
    the watermark of the store delivers the batches `bs` and returns nil. -/
def Supplies (r : Runner S) (load : Load) (w : World side) (bs : List Batch) : Prop :=
  ∃ params src s result, r.resolveParams load.source.paramsJSON = .ok params ∧
    side.obtain ⟨load.sourceID, load.source.kind, load.source.name, params⟩ .ok w.clock w.src =
      (.ok src, s) ∧
    feed side src w.clock (r.read (Runner.loadConfig load
      ⟨load.watermarkType, ((w.store.getWatermark load.id).map (·.value)).getD ""⟩)) s =
      (bs, result, none)

theorem calmly_call (c : SysCall S) (w : World side) :
    Calmly srv (Prog.perform (S := sysSig S) c)
      (fun r w' => r = (World.answer srv side .ok c w).1 ∧ w' = (World.answer srv side .ok c w).2) w :=
  .call rfl (.ret ⟨rfl, rfl⟩)

/-- The start of a run up to `StartRun`, and the release at its end. -/
theorem calmly_execute (hpoint : Runner.pointBased load = load) {bs : List Batch}
    (hsup : Supplies r load w bs) (hw : At ts w) {Q : Option Err → Tables → Prop}
    (h : ∀ {src run current} (result : ReadResult) {w₁ : World side}, At ts w₁ →
      w₁.clock = w.clock →
      feed side src w₁.clock (r.read (Runner.loadConfig load current)) w₁.src = (bs, result, none) →
      Calmly srv (r.runStarted load src run current)
        (fun exit w' => ∃ ts', At ts' w' ∧ Q exit.err ts') w₁) :
    Calmly srv (r.execute load) (fun err w' => Q err w'.db.tables) w := by
  obtain ⟨params, src, s, result, hparams, hobtain, hfeed⟩ := hsup
  unfold Runner.execute
  simp only [hpoint, hparams]
  refine (calmly_call _ w).seq ?_
  rintro _ w₁ ⟨rfl, hw₁⟩
  have hans : (World.answer srv side .ok
      (.obtain ⟨load.sourceID, load.source.kind, load.source.name, params⟩) w).1 = .ok src :=
    congrArg Prod.fst hobtain
  have hsrc : w₁.src = s := hw₁ ▸ congrArg Prod.snd hobtain
  have h₁ : At ts w₁ := hw₁ ▸ hw.answer (by simp) .ok
  have hclock : w₁.clock = w.clock := by rw [hw₁, World.clock_answer]
  have hstore : w₁.store = w.store := by rw [hw₁, World.store_answer _ (by simp)]
  rw [hans]
  have hleased : Calmly srv (r.leased load src)
      (fun exit w' => ∃ ts', At ts' w' ∧ Q exit.err ts') w₁ := by
    refine (calmly_call _ w₁).seq ?_
    rintro _ w₂ ⟨rfl, hw₂⟩
    have h₂ : At ts w₂ := hw₂ ▸ h₁.answer (by simp) .ok
    refine (calmly_call _ w₂).seq ?_
    rintro _ w₃ ⟨rfl, hw₃⟩
    have h₃ : At ts w₃ := hw₃ ▸ h₂.answer (by simp) .ok
    have hclock₃ : w₃.clock = w.clock := by
      rw [hw₃, World.clock_answer, hw₂, World.clock_answer, hclock]
    have hsrc₃ : w₃.src = s := by
      rw [hw₃, hw₂]
      exact hsrc
    refine h result h₃ hclock₃ ?_
    rw [hclock₃, hsrc₃, ← hfeed, ← hstore]
  refine hleased.seq ?_
  rintro exit w₂ ⟨ts', h₂, hQ⟩
  refine (calmly_perform (by simp) h₂).seq ?_
  rintro _ w₃ ⟨-, h₃⟩
  exact .ret (h₃.tables ▸ hQ)

/-- From `MarkRunning` to the read, and the deferred abort when it does nothing. -/
theorem calmly_runStarted (hk : r.sink.OnDb) (hmode : load.mode = loadModeReplace)
    {s₁ : ReplaceSession S} {ts₁ : Tables} {src : ℕ} {run : LoadRun} {current : Watermark}
    {w₀ : World side} {Q : Option Err → Tables → Prop} (hw : At ts w) (hsrc : w.src = w₀.src)
    (hclock : w.clock = w₀.clock)
    (hprep : ∀ {w : World side}, At ts w →
      Calmly srv ((ReplaceSession.new r.sink load.target).prepareExisting r.sink)
        (fun res w' => res = .ok s₁ ∧ At ts₁ w') w)
    (hrest : ∀ {w : World side}, At ts₁ w → w.src = w₀.src → w.clock = w₀.clock →
      Calmly srv (r.readAndFinish load src run current w₀.clock (some s₁))
        (fun exit w' => exit.abort = pure () ∧ ∃ ts', At ts' w' ∧ Q exit.err ts') w) :
    Calmly srv (r.runStarted load src run current)
      (fun exit w' => ∃ ts', At ts' w' ∧ Q exit.err ts') w := by
  unfold Runner.runStarted
  refine (calmly_call _ w).seq ?_
  rintro _ w₁ ⟨-, rfl⟩
  refine (calmly_call _ _).seq ?_
  rintro _ w₂ ⟨rfl, hw₂⟩
  have h₂ : At ts w₂ := hw₂ ▸ (hw.answer (by simp) .ok).answer (by simp) .ok
  rw [if_pos hmode]
  have hnew : OnDb (ReplaceSession.new r.sink load.target) := hk.atomic
  have hkeeps : w₂.src = w₀.src ∧ w₂.clock = w₀.clock := by
    rw [hw₂]
    exact ⟨hsrc, hclock⟩
  refine ((hprep h₂).keeps (prepareExisting_calls hk hnew) World.calm_onDb hkeeps).seq ?_
  rintro _ w₃ ⟨⟨rfl, h₃⟩, hsrc₃, hclock₃⟩
  have hnow : (World.answer srv side .ok .now
      (World.answer srv side .ok (.markRunning load.id run.runUUID run.startedAt) w).2).1 = w₀.clock :=
    hclock
  refine (hnow ▸ hrest h₃ hsrc₃ hclock₃ : Calmly srv _ _ w₃).seq ?_
  rintro exit w₄ ⟨habort, hexit⟩
  rw [habort]
  exact .ret hexit

/-- A read that returned nil and a commit that succeeds. -/
theorem calmly_readAndFinish (hmode : load.mode = loadModeReplace) {s₁ : ReplaceSession S}
    {src : ℕ} {run : LoadRun} {current : Watermark} {Q : Option Err → Tables → Prop}
    (hread : Calmly srv (Runner.interpret src (r.handler load loadTS)
        (r.read (Runner.loadConfig load current)) ⟨0, true, s₁.writeTo, some s₁⟩)
      (fun sr w' => sr.2.2 = none ∧ ∃ s₂, sr.1.repl = some s₂ ∧ Calmly srv s₂.commit
        (fun res w'' => ∃ s₃ ts', res = .ok s₃ ∧ s₃.abort = pure () ∧ At ts' w'' ∧ Q none ts') w') w) :
    Calmly srv (r.readAndFinish load src run current loadTS (some s₁))
      (fun exit w' => exit.abort = pure () ∧ ∃ ts', At ts' w' ∧ Q exit.err ts') w := by
  unfold Runner.readAndFinish
  refine hread.seq ?_
  rintro ⟨st, result, _⟩ w₁ ⟨rfl, s₂, hs₂, hcommit⟩
  replace hs₂ : st.repl = some s₂ := hs₂
  simp only [hs₂]
  refine hcommit.seq ?_
  rintro _ w₂ ⟨s₃, ts', rfl, habort, h₂, hQ⟩
  refine (calmly_finishRead h₂ hmode run current.value result st.rowsWritten).seq ?_
  rintro _ w₃ ⟨rfl, h₃⟩
  exact .ret ⟨habort, ts', h₃, hQ⟩

/-- A whole run in replace mode, by what it prepares and what it does from the
    read on. -/
theorem calmly_replace (hk : r.sink.OnDb) (hmode : load.mode = loadModeReplace)
    (hpoint : Runner.pointBased load = load) {bs : List Batch} (hsup : Supplies r load w bs)
    {s₁ : ReplaceSession S} {ts₁ : Tables} {Q : Option Err → Tables → Prop}
    (hw : w.cancelled = false)
    (hprep : ∀ {w₁ : World side}, At w.db.tables w₁ →
      Calmly srv ((ReplaceSession.new r.sink load.target).prepareExisting r.sink)
        (fun res w' => res = .ok s₁ ∧ At ts₁ w') w₁)
    (hrest : ∀ {src run current result} {w₁ : World side}, At ts₁ w₁ →
      feed side src w₁.clock (r.read (Runner.loadConfig load current)) w₁.src = (bs, result, none) →
      Calmly srv (r.readAndFinish load src run current w.clock (some s₁))
        (fun exit w' => exit.abort = pure () ∧ ∃ ts', At ts' w' ∧ Q exit.err ts') w₁) :
    Calmly srv (r.execute load) (fun err w' => Q err w'.db.tables) w := by
  refine calmly_execute hpoint hsup ⟨hw, rfl⟩ ?_
  intro src run current result w₁ h₁ hclock hfeed
  refine calmly_runStarted (Q := Q) hk hmode h₁ rfl rfl hprep ?_
  intro w₂ h₂ hsrc₂ hclock₂
  rw [hclock]
  exact hrest h₂ (by rw [hsrc₂, hclock₂, hfeed])

/-! ## The handler -/

variable [GoLib] {t u : TargetTable}

/-- Batches that the sink can store, as the rows `rows`. -/
structure Storable (loadTS : Time) (bs : List Batch) (rows : List SinkRow) : Prop where
  columns : ∀ b ∈ bs, b.rows ≠ [] → validateColumns b.columns = none
  rows : storedRows loadTS bs = .ok rows

theorem prepareRows_of_mem {bs : List Batch} {rows : List SinkRow}
    (h : storedRows loadTS bs = .ok rows) {b : Batch} (hb : b ∈ bs) :
    ∃ rows, prepareRows b.columns loadTS b.rows = .ok rows := by
  induction bs generalizing rows with
  | nil => cases hb
  | cons c bs ih =>
    unfold storedRows at h
    cases hc : prepareRows c.columns loadTS c.rows with
    | error e => rw [hc] at h; cases h
    | ok cs =>
      obtain rfl | hb := List.mem_cons.1 hb
      · exact ⟨cs, hc⟩
      · rw [hc] at h
        cases hbs : storedRows loadTS bs with
        | error e => rw [hbs] at h; cases h
        | ok rest => exact ih hbs hb

/-- From the first batch on: the rows of the batches so far are in the table `u`
    and nothing else differs from `base`. -/
structure Filling (u : TargetTable) (s : ReplaceSession S) (base : Tables) (loadTS : Time)
    (bs : List Batch) (st : HandlerState S) (ts : Tables) : Prop where
  first : st.firstBatch = false
  target : st.writeTarget = u
  repl : st.repl = some s
  rows : ∃ rows, storedRows loadTS bs = .ok rows ∧ ts = Function.update base u (some rows)

variable {s : ReplaceSession S} {base : Tables} {bs : List Batch}

theorem calmly_writeBatch_filling (hwrite : r.sink.writeBatch = Mssql.writeBatch)
    (hu : validateTarget u = none) {b : Batch} {new : List SinkRow}
    (hcols : b.rows ≠ [] → validateColumns b.columns = none)
    (hnew : prepareRows b.columns loadTS b.rows = .ok new) {st : HandlerState S}
    (hst : Filling u s base loadTS bs st ts) (hw : At ts w) :
    Calmly srv (r.writeBatch loadTS st b)
      (fun se w' => se.2 = none ∧ ∃ ts', At ts' w' ∧ Filling u s base loadTS (bs ++ [b]) se.1 ts') w := by
  obtain ⟨rows, hrows, rfl⟩ := hst.rows
  unfold Runner.writeBatch
  rw [hwrite, hst.target]
  refine (calmly_writeBatch hu hcols hnew hw (Function.update_self ..)).seq ?_
  rintro _ w₁ ⟨rfl, h₁⟩
  rw [Function.update_idem] at h₁
  exact .ret ⟨rfl, _, h₁, hst.first, rfl, hst.repl, _, storedRows_concat hrows hnew, rfl⟩

/-- The handler either has seen no batch, or it is filling `u`. -/
def Reached (st₀ : HandlerState S) (ts₁ : Tables) (u : TargetTable) (s : ReplaceSession S)
    (base : Tables) (loadTS : Time) (bs : List Batch) (st : HandlerState S) (ts : Tables) : Prop :=
  (bs = [] ∧ st = st₀ ∧ ts = ts₁) ∨ (bs ≠ [] ∧ Filling u s base loadTS bs st ts)

theorem Filling.tables {st : HandlerState S} {rows : List SinkRow}
    (h : Filling u s base loadTS bs st ts) (hrows : storedRows loadTS bs = .ok rows) :
    ts = Function.update base u (some rows) := by
  obtain ⟨rows', hrows', rfl⟩ := h.rows
  rw [Except.ok.inj (hrows'.symm.trans hrows)]

/-- A `Read` of storable batches, where the first of them opens the table `u`. -/
theorem calmly_read (hk : r.sink.OnDb) (hwrite : r.sink.writeBatch = Mssql.writeBatch)
    (hu : validateTarget u = none) (hs : OnDb s) {st₀ : HandlerState S} (hst₀ : HandlerOnDb st₀)
    (hfirst : st₀.firstBatch = true) {all : List Batch} {rows : List SinkRow}
    (hstore : Storable loadTS all rows) {ts₁ : Tables}
    (hopen : ∀ {b} {w : World side}, all.head? = some b → At ts₁ w →
      Calmly srv (r.onFirstBatch load st₀ b)
        (fun res w' => ∃ st ts', res = .ok st ∧ At ts' w' ∧ Filling u s base loadTS [] st ts') w)
    {src : ℕ} (p : Prog (readSig S) α) (hw : At ts₁ w)
    (hall : (feed side src w.clock p w.src).1 = all) :
    Calmly srv (Runner.interpret src (r.handler load loadTS) p st₀)
      (fun sr w' => sr.2 = (feed side src w.clock p w.src).2 ∧
        ∃ ts', At ts' w' ∧ Reached st₀ ts₁ u s base loadTS all sr.1 ts') w := by
  refine calmly_interpret ?_ ?_ p (.inl ⟨rfl, rfl, rfl⟩) hw hall
  · rintro bs st ts b (⟨-, rfl, -⟩ | ⟨-, hfill⟩)
    · exact handler_calls hk hst₀ b
    · refine handler_calls hk ?_ b
      intro s' hs'
      rw [hfill.repl] at hs'
      obtain rfl := Option.some.inj hs'
      exact hs
  · rintro bs st ts b w₁ hpre hI h₁
    have hmem : b ∈ all := hpre.subset (by simp)
    obtain ⟨new, hnew⟩ := prepareRows_of_mem hstore.rows hmem
    have hcols := hstore.columns b hmem
    have hnext : ∀ {st : HandlerState S} {ts : Tables} {w : World side},
        Filling u s base loadTS bs st ts → At ts w → Calmly srv (r.writeBatch loadTS st b)
          (fun se w' => se.2 = none ∧
            ∃ ts', At ts' w' ∧ Reached st₀ ts₁ u s base loadTS (bs ++ [b]) se.1 ts') w :=
      fun hfill hw => (calmly_writeBatch_filling hwrite hu hcols hnew hfill hw).mono
        fun _ _ ⟨he, ts', h', hfill'⟩ => ⟨he, ts', h', .inr ⟨by simp, hfill'⟩⟩
    unfold Runner.handler
    obtain ⟨rfl, rfl, rfl⟩ | ⟨-, hfill⟩ := hI
    · rw [if_pos hfirst]
      obtain ⟨rest, hrest⟩ := hpre
      refine (hopen (by rw [← hrest]; rfl) h₁).seq ?_
      rintro _ w₂ ⟨st, ts', rfl, h₂, hfill⟩
      exact hnext hfill h₂
    · rw [if_neg (by simp [hfill.first])]
      exact hnext hfill h₁

variable (base) in
/-- From the read on, when the first batch opens the table `u`, and the tables are
    `filled` once every batch has been accepted. -/
theorem calmly_fill (hk : r.sink.OnDb) (hwrite : r.sink.writeBatch = Mssql.writeBatch)
    (hmode : load.mode = loadModeReplace) (hu : validateTarget u = none) {rows : List SinkRow}
    (hstore : Storable loadTS bs rows) (hs : OnDb s) {s₁ : ReplaceSession S} (hs₁ : OnDb s₁)
    {ts₁ filled : Tables} {Q : Option Err → Tables → Prop}
    (hopen : ∀ {b} {w₁ : World side}, bs.head? = some b → At ts₁ w₁ →
      Calmly srv (r.onFirstBatch load ⟨0, true, s₁.writeTo, some s₁⟩ b)
        (fun res w' => ∃ st ts', res = .ok st ∧ At ts' w' ∧ Filling u s base loadTS [] st ts') w₁)
    (hnone : bs = [] → s₁ = s ∧ ts₁ = filled)
    (hsome : bs ≠ [] → filled = Function.update base u (some rows))
    (hcommit : ∀ {w₁ : World side}, At filled w₁ → Calmly srv s.commit
      (fun res w' => ∃ s₃ ts', res = .ok s₃ ∧ s₃.abort = pure () ∧ At ts' w' ∧ Q none ts') w₁)
    {src : ℕ} {run : LoadRun} {current : Watermark} {result : ReadResult} (hw : At ts₁ w)
    (hfeed : feed side src w.clock (r.read (Runner.loadConfig load current)) w.src =
      (bs, result, none)) :
    Calmly srv (r.readAndFinish load src run current loadTS (some s₁))
      (fun exit w' => exit.abort = pure () ∧ ∃ ts', At ts' w' ∧ Q exit.err ts') w := by
  have hst₀ : HandlerOnDb (⟨0, true, s₁.writeTo, some s₁⟩ : HandlerState S) :=
    fun s hs => Option.some.inj hs ▸ hs₁
  refine calmly_readAndFinish (Q := Q) hmode ?_
  refine (calmly_read hk hwrite hu hs hst₀ rfl hstore hopen _ hw (congrArg Prod.fst hfeed)).mono ?_
  rintro ⟨st, res⟩ w₂ ⟨hres, ts₂, h₂, hreached⟩
  obtain rfl : res = _ := hres.trans (congrArg Prod.snd hfeed)
  have hfilled : st.repl = some s ∧ ts₂ = filled := by
    obtain ⟨rfl, rfl, rfl⟩ | ⟨hne, hfill⟩ := hreached
    · obtain ⟨rfl, rfl⟩ := hnone rfl
      exact ⟨rfl, rfl⟩
    · exact ⟨hfill.repl, (hfill.tables hstore.rows).trans (hsome hne).symm⟩
  obtain ⟨hrepl, rfl⟩ := hfilled
  exact ⟨rfl, s, hrepl, hcommit h₂⟩

/-! ## Atomic replace -/

/-- The session on `t` before and after staging was begun. -/
abbrev session (S : Sig) (t : TargetTable) : ReplaceSession S := .new Mssql.sink t
abbrev begunSession (S : Sig) (t : TargetTable) : ReplaceSession S := (session S t).begun (staging t)

theorem onDb_session : OnDb (session S t) := sink_onDb.atomic

theorem onDb_begunSession : OnDb (begunSession S t) := sink_onDb.atomic

theorem calmly_prepareExisting (ht : validateTarget t = none)
    (hstg : Sqlident.validate (t.name ++ stagingSuffix) = none) (hlive : (ts t).isSome = true)
    (hw : At ts w) :
    Calmly srv ((session S t).prepareExisting Mssql.sink)
      (fun res w' => res = .ok (begunSession S t) ∧
        At (Function.update ts (staging t) (some [])) w') w := by
  refine (calmly_tableExists ht hw).seq ?_
  rintro _ w₁ ⟨rfl, h₁⟩
  rw [hlive]
  refine (calmly_beginReplace ht hstg [] h₁ hlive).seq ?_
  rintro _ w₂ ⟨rfl, h₂⟩
  exact .ret ⟨rfl, h₂⟩

theorem calmly_prepareExisting_absent (ht : validateTarget t = none) (hnone : ts t = none)
    (hw : At ts w) :
    Calmly srv ((session S t).prepareExisting Mssql.sink)
      (fun res w' => res = .ok (session S t) ∧ At ts w') w := by
  refine (calmly_tableExists ht hw).seq ?_
  rintro _ w₁ ⟨rfl, h₁⟩
  rw [hnone]
  exact .ret ⟨rfl, h₁⟩

/-- With staging begun before the read the first batch changes nothing. -/
theorem calmly_onFirstBatch (b : Batch)
    (hw : At (Function.update ts (staging t) (some [])) w) :
    Calmly srv (r.onFirstBatch load ⟨0, true, staging t, some (begunSession S t)⟩ b)
      (fun res w' => ∃ st ts', res = .ok st ∧ At ts' w' ∧
        Filling (staging t) (begunSession S t) ts loadTS [] st ts') w := by
  refine .ret ⟨_, _, rfl, hw, ?_⟩
  exact ⟨rfl, rfl, rfl, [], rfl, rfl⟩

/-- Without a live table it begins staging. -/
theorem calmly_onFirstBatch_absent (ht : validateTarget t = none)
    (hstg : Sqlident.validate (t.name ++ stagingSuffix) = none) (hnone : ts t = none) {b : Batch}
    (hb : b.columns ≠ [] ∧ ∃ defs, columnDefs b.columns = .ok defs) (hw : At ts w) :
    Calmly srv (r.onFirstBatch load ⟨0, true, t, some (session S t)⟩ b)
      (fun res w' => ∃ st ts', res = .ok st ∧ At ts' w' ∧
        Filling (staging t) (begunSession S t) ts loadTS [] st ts') w := by
  obtain ⟨hne, defs, hdefs⟩ := hb
  have hensure : Calmly srv ((session S t).ensureFirstBatch r.sink load.autoCreateTable b.columns)
      (fun res w' => res = .ok (begunSession S t) ∧
        At (Function.update ts (staging t) (some [])) w') w := by
    refine (calmly_beginReplace_columns ht hstg hne hdefs hw hnone).seq ?_
    rintro _ w₁ ⟨rfl, h₁⟩
    exact .ret ⟨rfl, h₁⟩
  refine hensure.seq ?_
  rintro _ w₁ ⟨rfl, h₁⟩
  exact .ret ⟨_, _, rfl, h₁, rfl, rfl, rfl, [], rfl, rfl⟩

/-- The commit of the filled staging table. -/
theorem calmly_commit (ht : validateTarget t = none)
    (hstg : Sqlident.validate (t.name ++ stagingSuffix) = none) {rows : List SinkRow}
    {ts' : Tables} (hpub : CommitLeaves srv t (Function.update ts (staging t) (some rows)) ts')
    {Q : Option Err → Tables → Prop} (hQ : Q none ts')
    (hw : At (Function.update ts (staging t) (some rows)) w) :
    Calmly srv (begunSession S t).commit
      (fun res w' => ∃ s₃ ts'', res = .ok s₃ ∧ s₃.abort = pure () ∧ At ts'' w' ∧ Q none ts'') w := by
  refine (calmly_commitReplace ht hstg hw (by simp) hpub).seq ?_
  rintro _ w₁ ⟨rfl, h₁⟩
  exact .ret ⟨_, ts', rfl, rfl, h₁, hQ⟩

/-- A run that returned nil and left the tables `ts'`. -/
def Leaves (ts' : Tables) (err : Option Err) (ts : Tables) : Prop := err = none ∧ ts = ts'

/-- A run of a replace load in which no operation fails: the names are legal, the
    batches can be stored as the rows `rows`, the first batch of a missing table
    has columns to create it from, and the statements of the commit succeed. -/
structure Undisturbed (srv : SqlServer) (l : ReplaceLoad S t) (w : World side) (bs : List Batch)
    (rows : List SinkRow) : Prop where
  running : w.cancelled = false
  supplies : Supplies l.runner l.load w bs
  target : validateTarget t = none
  staging : Sqlident.validate (t.name ++ stagingSuffix) = none
  storable : Storable w.clock bs rows
  columns : w.db.tables t = none → ∀ b, bs.head? = some b →
    b.columns ≠ [] ∧ ∃ defs, columnDefs b.columns = .ok defs
  commits : (w.db.tables t).isSome ∨ bs ≠ [] →
    ∃ ts', CommitLeaves srv t (Function.update w.db.tables (Mssql.staging t) (some rows)) ts'

namespace Undisturbed

variable {l : ReplaceLoad S t} {rows : List SinkRow} {ts' : Tables}

/-- The runs of a replace load. -/
theorem execute (h : Undisturbed srv l w bs rows) {s₁ : ReplaceSession S} {ts₁ : Tables}
    {Q : Option Err → Tables → Prop}
    (hprep : ∀ {w₁ : World side}, At w.db.tables w₁ →
      Calmly srv ((session S t).prepareExisting Mssql.sink)
        (fun res w' => res = .ok s₁ ∧ At ts₁ w') w₁)
    (hrest : ∀ {src run current result} {w₁ : World side}, At ts₁ w₁ →
      feed side src w₁.clock (l.runner.read (Runner.loadConfig l.load current)) w₁.src =
        (bs, result, none) →
      Calmly srv (l.runner.readAndFinish l.load src run current w.clock (some s₁))
        (fun exit w' => exit.abort = pure () ∧ ∃ ts', At ts' w' ∧ Q exit.err ts') w₁) :
    Calmly srv l.execute (fun err w' => Q err w'.db.tables) w := by
  have hpoint : Runner.pointBased l.load = l.load := if_neg (not_or.2 l.kind)
  have hk : l.runner.sink.OnDb := l.sink ▸ sink_onDb
  refine calmly_replace hk l.mode hpoint h.supplies h.running (fun h₁ => ?_) hrest
  rw [l.sink, l.target]
  exact hprep h₁

/-- The atomic replace of a present table, or of a missing one with a batch. -/
theorem calmly_published (h : Undisturbed srv l w bs rows)
    (hsome : (w.db.tables t).isSome ∨ bs ≠ [])
    (hpub : CommitLeaves srv t (Function.update w.db.tables (Mssql.staging t) (some rows)) ts') :
    Calmly srv l.execute (fun err w' => Leaves ts' err w'.db.tables) w := by
  have hvalid := validateTarget_staging h.target h.staging
  have hk : l.runner.sink.OnDb := l.sink ▸ sink_onDb
  have hwrite : l.runner.sink.writeBatch = Mssql.writeBatch := by rw [l.sink]; rfl
  by_cases hlive : (w.db.tables t).isSome
  · refine h.execute
      (fun h₁ => calmly_prepareExisting h.target h.staging hlive h₁) fun h₁ hfeed => ?_
    refine calmly_fill _ hk hwrite l.mode hvalid
      h.storable onDb_begunSession onDb_begunSession (fun _ h₂ => calmly_onFirstBatch _ h₂)
      (fun hbs => ⟨rfl, ?_⟩) (fun _ => rfl)
      (fun h₂ => calmly_commit h.target h.staging hpub ⟨rfl, rfl⟩ h₂) h₁ hfeed
    subst hbs
    rw [← Except.ok.inj h.storable.rows]
  · have hnone : w.db.tables t = none := by simpa using hlive
    have hbs : bs ≠ [] := hsome.resolve_left hlive
    refine h.execute
      (fun h₁ => calmly_prepareExisting_absent h.target hnone h₁) fun h₁ hfeed => ?_
    refine calmly_fill _ hk hwrite l.mode hvalid
      h.storable onDb_begunSession onDb_session (fun hb h₂ => ?_) (fun hbs' => absurd hbs' hbs)
      (fun _ => rfl) (fun h₂ => calmly_commit h.target h.staging hpub ⟨rfl, rfl⟩ h₂) h₁ hfeed
    exact calmly_onFirstBatch_absent h.target h.staging hnone (h.columns hnone _ hb) h₂

/-- Without a table and without a batch nothing happens. -/
theorem calmly_nothing (h : Undisturbed srv l w [] rows) (hnone : w.db.tables t = none) :
    Calmly srv l.execute (fun err w' => Leaves w.db.tables err w'.db.tables) w := by
  have hk : l.runner.sink.OnDb := l.sink ▸ sink_onDb
  have hwrite : l.runner.sink.writeBatch = Mssql.writeBatch := by rw [l.sink]; rfl
  refine h.execute
    (fun h₁ => calmly_prepareExisting_absent h.target hnone h₁) fun h₁ hfeed => ?_
  refine calmly_fill w.db.tables hk hwrite
    l.mode h.target h.storable onDb_session onDb_session (by simp) (fun _ => ⟨rfl, rfl⟩) (by simp)
    (fun h₂ => ?_) h₁ hfeed
  exact .ret ⟨session S t, _, rfl, rfl, h₂, rfl, rfl⟩

end Undisturbed

end DataLoader
