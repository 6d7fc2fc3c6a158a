import DataLoader.Metadata.RunRows
import DataLoader.Pipeline.Bookkeeping
import DataLoader.Pipeline.Delta

/-!
# How a run ends

What `Execute` leaves in the store and in the registry, on every path.

* `row_and_registry_close_together`: a run that was started is closed exactly once in
  both, with the same account, and its source is released exactly once.
* `failure_visible_iff`: when a failed execution can be seen in the registry. An exit
  before `MarkRunning` leaves the entry of the load as it was.
* `failed_run_keeps_watermark_iff`: when a failed run leaves the watermark alone. It is
  stored before `FinishRun`, whose failure then fails the run.
-/

namespace DataLoader

open Effects SinkProtocol

variable {S : Sig} {side : SourceSide S} {srv : SqlServer}

/-! ## What each call records -/

namespace Made

variable {w w' : World side} {o : Outcome}

/-- A call on the store. -/
theorem store {c : StoreCall} {r : c.Ans} (h : Made srv (.store c) o r w w') :
    w'.registry = w.registry ∧ ∃ t, w.store.answer t o c = (r, w'.store) := by
  obtain ⟨w₁, hsame, -, hans⟩ := h
  obtain ⟨rfl, rfl⟩ := Prod.mk.inj hans
  refine ⟨hsame.2, w₁.clock, ?_⟩
  rw [← hsame.1]
  rfl

theorem getWatermark {id : Int} {r : Except Err (Option WatermarkRow)}
    (h : Made srv (.store (.getWatermark id)) o r w w') :
    w'.store = w.store ∧ ∀ wm, r = .ok wm → wm = w.store.watermarks id := by
  obtain ⟨-, t, hans⟩ := h.store
  obtain ⟨hr, hs⟩ := Prod.mk.inj hans
  refine ⟨hs.symm, fun wm hwm => ?_⟩
  cases o with
  | ok => exact (Except.ok.inj (hr.trans hwm)).symm
  | fail msg n => cases hr.trans hwm

theorem upsertWatermark {id : Int} {v : String} {e : Option Err}
    (h : Made srv (.store (.upsertWatermark id v)) o e w w') :
    e = o.err ∧ w'.store.runs = w.store.runs ∧
      w'.store.watermark id = if o.effective then v else w.store.watermark id := by
  obtain ⟨-, t, hans⟩ := h.store
  obtain ⟨he, hs⟩ := Prod.mk.inj hans
  rw [← hs]
  by_cases hoe : o.effective = true
  · simp only [hoe, if_true]
    exact ⟨he.symm, rfl, Store.watermark_upsertWatermark _ _ _ _⟩
  · simp only [hoe]
    exact ⟨he.symm, rfl, rfl⟩

theorem startRun {id : Int} {v : String} {r : Except Err LoadRun}
    (h : Made srv (.store (.startRun id v)) o r w w') :
    w'.store.watermarks = w.store.watermarks ∧ ∀ run, r = .ok run → run ∈ w'.store.runs := by
  obtain ⟨-, t, hans⟩ := h.store
  obtain ⟨hr, hs⟩ := Prod.mk.inj hans
  rw [← hs]
  cases o with
  | ok =>
    refine ⟨rfl, fun run hrun => ?_⟩
    obtain rfl := Except.ok.inj (hr.trans hrun)
    exact List.mem_append_right _ (List.mem_singleton_self _)
  | fail msg n =>
    refine ⟨?_, fun run hrun => by cases hr.trans hrun⟩
    split_ifs <;> rfl

theorem finishRun {run : LoadRun} {st : RunStatus} {rr rw : Int} {wm msg : String} {e : Option Err}
    (h : Made srv (.store (.finishRun run st rr rw wm msg)) o e w w') :
    w'.store.watermarks = w.store.watermarks ∧
      (e = none → ∃ t, w'.store = w.store.saveRun (Store.finished run st rr rw wm msg t)) := by
  obtain ⟨-, t, hans⟩ := h.store
  obtain ⟨he, hs⟩ := Prod.mk.inj hans
  rw [← hs]
  refine ⟨?_, fun hnone => ⟨t, ?_⟩⟩
  · split_ifs <;> rfl
  · obtain rfl := Outcome.err_eq_none.1 (he.trans hnone)
    rfl

theorem markRunning {id : Int} {uuid : String} {t : Time}
    (h : Made srv (.markRunning id uuid t) o () w w') :
    w'.store = w.store ∧ w'.registry = w.registry.markRunning id uuid t := by
  obtain ⟨w₁, hsame, -, hans⟩ := h
  obtain ⟨-, rfl⟩ := Prod.mk.inj hans
  rw [← hsame.2]
  exact ⟨hsame.1, rfl⟩

theorem markFinished {id : Int} {st : String} {t : Time} {rr rw : Int} {msg : String}
    (h : Made srv (.markFinished id st t rr rw msg) o () w w') :
    w'.store = w.store ∧ w'.registry = w.registry.markFinished id st t rr rw msg := by
  obtain ⟨w₁, hsame, -, hans⟩ := h
  obtain ⟨-, rfl⟩ := Prod.mk.inj hans
  rw [← hsame.2]
  exact ⟨hsame.1, rfl⟩

theorem obtain {cfg : SourceConfig} {r : Except Err ℕ} (h : Made srv (.obtain cfg) o r w w') :
    Unrecorded w w' := by
  obtain ⟨w₁, hsame, -, hans⟩ := h
  obtain ⟨-, rfl⟩ := Prod.mk.inj hans
  exact hsame

theorem release {src : ℕ} {inv : Bool} (h : Made srv (.release src inv) o () w w') :
    Unrecorded w w' := by
  obtain ⟨w₁, hsame, -, hans⟩ := h
  obtain ⟨-, rfl⟩ := Prod.mk.inj hans
  exact hsame

end Made

/-! ## The end of a started run -/

section

variable {r : Runner S} {load : Load} {run : LoadRun} {w w' : World side} {l : SysLog S}
  {err : Option Err}

/-- What closing a run records. -/
structure Account (load : Load) (run : LoadRun) (w : World side) (l : SysLog S) (err : Option Err)
    (w' : World side) (verdict fe : Option Err) (rr rw : Int) (wm : String) (t : Time) : Prop where
  ends : err = verdict.or fe
  books : books l = [.finishRun run (runStatus verdict) rr rw wm (verdict.getD "") fe,
    .markFinished load.id (runStatus err).text t rr rw (err.getD "")]
  noReads : ∀ x ∈ l, SysCall.reads x.call = false
  watermarks : w'.store.watermarks = w.store.watermarks
  registry : w'.registry = w.registry.markFinished load.id (runStatus err).text t rr rw (err.getD "")
  row : fe = none → ∃ t', w'.store =
    w.store.saveRun (Store.finished run (runStatus verdict) rr rw wm (verdict.getD "") t')

theorem Closes.account {verdict : Option Err} {rr rw : Int} {wm : String}
    (h : Closes srv load run verdict rr rw wm w l err w') :
    ∃ fe t, Account load run w l err w' verdict fe rr rw wm t := by
  cases h with
  | @mk w₁ w₂ w₃ _ l l' o o' fe t hfinish hquiet hmark hrest =>
    obtain ⟨hwms, hrow⟩ := hfinish.finishRun
    obtain ⟨hstore, hreg⟩ := hmark.markFinished
    have hsame : w'.store = w₁.store := hrest.store.trans (hstore.trans hquiet.store)
    refine ⟨fe, t, rfl, ?_, ?_, ?_, ?_, fun hfe => ?_⟩
    · simp [booked, hquiet.books, hrest.books]
    · simp only [List.cons_append, List.forall_mem_cons, List.forall_mem_append]
      exact ⟨rfl, fun x hx => (hquiet.aside x hx).2, rfl, fun x hx => (hrest.aside x hx).2⟩
    · rw [hsame, hwms]
    · rw [hrest.registry, hreg, hquiet.registry, hfinish.store.1]
    · obtain ⟨t', ht'⟩ := hrow hfe
      exact ⟨t', hsame.trans ht'⟩

/-- The `FinishRun` call of the account. -/
theorem Account.of_finish {w : World side} {verdict fe fe' : Option Err} {rr rw rr' rw' : Int}
    {wm wm' msg : String} {t : Time} {run' : LoadRun} {status : RunStatus}
    (hacc : Account load run w l err w' verdict fe rr rw wm t)
    (h : .finishRun run' status rr' rw' wm' msg fe' ∈ DataLoader.books l) :
    run' = run ∧ status = runStatus verdict ∧ rr' = rr ∧ rw' = rw ∧ wm' = wm ∧
      msg = verdict.getD "" ∧ fe' = fe := by
  simpa [hacc.books] using h

/-- Whether a bookkeeping call is `UpsertWatermark`. -/
def Booked.upserts : Booked → Bool
  | .upsertWatermark .. => true
  | _ => false

/-- The part of a started run before it is closed. -/
structure Opens (w : World side) (l : SysLog S) (w' : World side) : Prop where
  registry : w'.registry = w.registry
  runs : w'.store.runs = w.store.runs
  books : ∀ b ∈ books l, b.upserts = true

theorem Unrecorded.opens {w₁ : World side} {l' : SysLog S} (h : Unrecorded w w₁)
    (hbooks : DataLoader.books l = []) (h' : Opens w₁ l' w') : Opens w (l ++ l') w' := by
  refine ⟨h'.registry.trans h.2, h'.runs.trans (by rw [h.1]), ?_⟩
  simpa [hbooks] using h'.books

theorem Quiet.opens {w₁ : World side} {l' : SysLog S} (h : Quiet w l w₁) (h' : Opens w₁ l' w') :
    Opens w (l ++ l') w' :=
  Unrecorded.opens ⟨h.store, h.registry⟩ h.books h'

theorem Quiet.opens_self (h : Quiet w l w') : Opens w l w' :=
  ⟨h.registry, by rw [h.store], by simp [h.books]⟩

theorem Made.opens {o : Outcome} {id : Int} {v : String} {e : Option Err}
    (h : Made srv (.store (.upsertWatermark id v)) o e w w') :
    Opens w [⟨.store (.upsertWatermark id v), o, e⟩] w' :=
  ⟨h.store.1, h.upsertWatermark.2.1, by simp [DataLoader.books, booked, Booked.upserts]⟩

/-- Every end of a run closes it, once. -/
theorem Finishes.closes {current : String} {result : ReadResult} {rw : Int} {rerr : Option Err}
    {committed : Bool} (h : Finishes srv load run current result rw rerr committed w l err w') :
    ∃ w₁, ∃ l₁ l₂ : SysLog S, ∃ verdict wm, l = l₁ ++ l₂ ∧ Opens w l₁ w₁ ∧
      (∀ x ∈ l₁, SysCall.reads x.call = false) ∧ (∀ e, rerr = some e → verdict = some e) ∧
      (Runner.advances load result current = false → (verdict = none ↔ committed = true)) ∧
      Closes srv load run verdict result.rowsRead rw wm w₁ l₂ err w' := by
  have haside : ∀ {w₁ : World side} {l₁ : SysLog S}, Quiet w l₁ w₁ →
      ∀ x ∈ l₁, SysCall.reads x.call = false := fun hq x hx => (hq.aside x hx).2
  cases h with
  | @readFailed _ _ _ e _ hclose =>
    exact ⟨w, [], l, some e, current, rfl, (Quiet.refl w).opens_self, by simp,
      fun _ h => h.symm ▸ rfl, by simp, hclose⟩
  | @commitFailed _ w₁ _ l₁ l₂ e _ _ hquiet hclose =>
    exact ⟨w₁, l₁, l₂, some e, current, rfl, hquiet.opens_self, haside hquiet, by simp, by simp,
      hclose⟩
  | @upsertFailed _ w₁ w₂ _ l₁ l₂ o e _ hquiet hadvances hupsert hclose =>
    refine ⟨w₂, l₁ ++ [_], l₂, _, current, List.append_cons .., hquiet.opens hupsert.opens, ?_, by simp,
      by simp [hadvances], hclose⟩
    exact List.forall_mem_append.2 ⟨haside hquiet, by simp [SysCall.reads]⟩
  | @advanced _ w₁ w₂ _ l₁ l₂ o _ hquiet hadvances hupsert hclose =>
    refine ⟨w₂, l₁ ++ [_], l₂, none, _, List.append_cons .., hquiet.opens hupsert.opens, ?_, by simp,
      by simp [hadvances], hclose⟩
    exact List.forall_mem_append.2 ⟨haside hquiet, by simp [SysCall.reads]⟩
  | @kept _ w₁ _ l₁ l₂ _ hquiet _ hclose =>
    exact ⟨w₁, l₁, l₂, none, _, rfl, hquiet.opens_self, haside hquiet, by simp, by simp, hclose⟩

/-- `Read` records nothing. -/
theorem read_unrecorded (hk : r.sink.OnDb) {α : Type} {src : ℕ} {loadTS : Time}
    {p : Prog (readSig S) α} {target : TargetTable} {repl : Option (ReplaceSession S)}
    (hrepl : ∀ s, repl = some s → OnDb s) {res : HandlerState S × α}
    (h : World.Runs srv (Runner.interpret src (r.handler load loadTS) p ⟨0, true, target, repl⟩)
      w l res w') : Unrecorded w w' ∧ books l = [] := by
  have hst : HandlerOnDb (⟨0, true, target, repl⟩ : HandlerState S) := hrepl
  have hcalls : (Runner.interpret src (r.handler load loadTS) p ⟨0, true, target, repl⟩).Calls
      fun c => SysCall.books c = false :=
    (interpret_follows (q := ()) (P := allowing (S := sysSig S) _)
      (N := fun c => SysCall.books c = false)
      (allowing_ignores_onDb fun _ hc => hc.1) (fun _ hc _ => ⟨hc, fun _ => rfl⟩)
      (fun _ _ => rfl) (fun _ => rfl) hk src hst).calls
  exact ⟨Unrecorded.runs hcalls h, books_eq_nil (h.log_calls hcalls)⟩

theorem Started.closes (hk : r.sink.OnDb) {src : ℕ} {current : Watermark}
    {read : Option (ReadRun S)} (h : Started srv r load src run current w l read err w') :
    ∃ w₁, ∃ l₁ l₂ : SysLog S, ∃ verdict rr rw wm, l = l₁ ++ l₂ ∧ Opens w l₁ w₁ ∧
      (load.mode = loadModeReplace →
        (verdict = none ↔ ∃ y, read = some y ∧ y.committed = true)) ∧
      Closes srv load run verdict rr rw wm w₁ l₂ err w' := by
  cases h with
  | @unprepared w₁ _ l₁ l₂ e _ _ hquiet hclose =>
    exact ⟨w₁, l₁, l₂, some e, 0, 0, _, rfl, hquiet.opens_self, by simp, hclose⟩
  | @read w₁ w₂ _ l₁ l₂ l₃ _ _ _ _ _ _ _ _ committed hquiet hrepl hread hfinish =>
    obtain ⟨w₃, l₄, l₅, verdict, wm, rfl, hopens, -, -, hcommitted, hclose⟩ := hfinish.closes
    obtain ⟨hsame, hbooks⟩ := read_unrecorded hk hrepl hread
    refine ⟨w₃, l₁ ++ (l₂ ++ l₄), l₅, verdict, _, _, wm, by simp,
      hquiet.opens (hsame.opens hbooks hopens), fun hmode => ?_, hclose⟩
    rw [hcommitted (by simp [Runner.advances, hmode, loadModeReplace, loadModeDelta])]
    simp

/-! ## The two ways through `Execute` -/

/-- A run that was started. -/
theorem Executes.of_started (hk : r.sink.OnDb) {read : Option (ReadRun S)}
    (h : Executes srv r load w l read err w') (hrun : .startRun load.id (.ok run) ∈ books l) :
    ∃ w₁ w₂ : World side, ∃ l₁ l₂ : SysLog S, ∃ src wm verdict fe rr rw wmEnd t,
      books l = [.obtain (.ok src), .getWatermark load.id (.ok wm), .startRun load.id (.ok run),
        .markRunning load.id run.runUUID run.startedAt] ++ books l₁ ++ books l₂ ++
        [.release src (read.bind (·.err)).isSome] ∧
      (∀ b ∈ books l₁, b.upserts = true) ∧ run ∈ w₁.store.runs ∧
      w₁.registry = w.registry.markRunning load.id run.runUUID run.startedAt ∧
      Account load run w₁ l₂ err w₂ verdict fe rr rw wmEnd t ∧ Unrecorded w₂ w' := by
  cases h with
  | unresolved => simp at hrun
  | unobtained => simp [booked] at hrun
  | @leased w₁ w₂ _ cfg o o' src l read _ hobtain hlease hrelease =>
    cases hlease with
    | noWatermark => simp [booked] at hrun
    | noRun => simp [booked] at hrun
    | @started w₃ w₄ w₅ _ p p' p'' wm run' l read _ hget hstart hmark hstarted =>
      obtain ⟨w₆, l₁, l₂, verdict, rr, rw, wmEnd, rfl, hopens, -, hclose⟩ := hstarted.closes hk
      obtain ⟨fe, t, hacc⟩ := hclose.account
      have hbooks : books (⟨.obtain cfg, o, .ok src⟩ :: (⟨.store (.getWatermark load.id), p, .ok wm⟩ ::
          ⟨.store (.startRun load.id ((wm.map (·.value)).getD "")), p', .ok run'⟩ ::
          ⟨.markRunning load.id run'.runUUID run'.startedAt, p'', ()⟩ :: (l₁ ++ l₂)) ++
          [⟨.release src (read.bind (·.err)).isSome, o', ()⟩]) =
          [.obtain (.ok src), .getWatermark load.id (.ok wm), .startRun load.id (.ok run'),
            .markRunning load.id run'.runUUID run'.startedAt] ++ books l₁ ++ books l₂ ++
            [.release src (read.bind (·.err)).isSome] := by
        simp [booked]
      -- only one entry is `StartRun`
      obtain rfl : run = run' := by
        have hnot : ∀ b ∈ books l₁, b ≠ .startRun load.id (.ok run) := by
          rintro b hb rfl
          cases hopens.books _ hb
        have hl₁ : Booked.startRun load.id (.ok run) ∉ books l₁ := fun hb => hnot _ hb rfl
        rw [hbooks] at hrun
        simpa [hacc.books, hl₁] using hrun
      refine ⟨w₆, w₂, l₁, l₂, src, wm, verdict, fe, rr, rw, wmEnd, t, hbooks, hopens.books, ?_, ?_,
        hacc, hrelease.release⟩
      · rw [hopens.runs, hmark.markRunning.1]
        exact hstart.startRun.2 run rfl
      · rw [hopens.registry, hmark.markRunning.2, hstart.store.1, hget.store.1, hobtain.obtain.2]

/-- A run that was not started. -/
theorem Executes.of_unstarted {read : Option (ReadRun S)} (h : Executes srv r load w l read err w')
    (hrun : ∀ run, .startRun load.id (.ok run) ∉ books l) :
    err ≠ none ∧ w'.registry = w.registry := by
  cases h with
  | unresolved => exact ⟨by simp, rfl⟩
  | unobtained hobtain => exact ⟨by simp, hobtain.obtain.2⟩
  | leased hobtain hlease hrelease =>
    cases hlease with
    | noWatermark hget =>
      exact ⟨by simp, by rw [hrelease.release.2, hget.store.1, hobtain.obtain.2]⟩
    | noRun hget hstart =>
      exact ⟨by simp, by rw [hrelease.release.2, hstart.store.1, hget.store.1, hobtain.obtain.2]⟩
    | @started _ _ _ _ _ _ _ _ run _ _ _ _ _ _ _ =>
      exact absurd (by simp [booked]) (hrun run)

/-! ## Row and registry -/

/-- The calls of a kind in a run's bookkeeping. -/
def Booked.finishes : Booked → Bool
  | .finishRun .. => true
  | _ => false

def Booked.marks : Booked → Bool
  | .markRunning .. | .markFinished .. => true
  | _ => false

def Booked.releases : Booked → Bool
  | .release .. => true
  | _ => false

theorem filter_upserts_eq_nil {bs : List Booked} (h : ∀ b ∈ bs, b.upserts = true)
    {p : Booked → Bool} (hp : ∀ id v o, p (.upsertWatermark id v o) = false) : bs.filter p = [] := by
  refine List.filter_eq_nil_iff.2 fun b hb => ?_
  have hb := h b hb
  cases b with
  | upsertWatermark id v o => simp [hp]
  | _ => cases hb

/-- The session is used before and after the lease only. -/
theorem Leases.offSession (hk : r.sink.OnDb) {src : ℕ} {read : Option (ReadRun S)}
    (h : Leases srv r load src w l read err w') :
    (books l).filter Booked.releases = [] ∧ ∀ res, .obtain res ∉ books l := by
  cases h with
  | noWatermark => simp [booked, Booked.releases]
  | noRun => simp [booked, Booked.releases]
  | started hget hstart hmark hstarted =>
    obtain ⟨w₆, l₁, l₂, verdict, rr, rw, wmEnd, rfl, hopens, -, hclose⟩ := hstarted.closes hk
    obtain ⟨fe, t, hacc⟩ := hclose.account
    have hnil := filter_upserts_eq_nil hopens.books (p := Booked.releases) fun _ _ _ => rfl
    have hnot : ∀ res, Booked.obtain res ∉ books l₁ := by
      intro res hb
      cases hopens.books _ hb
    refine ⟨?_, fun res => ?_⟩
    · simp [booked, Booked.releases, hacc.books, hnil]
    · simp [booked, hacc.books, hnot]

theorem text_runStatus_eq_success {e : Option Err} : (runStatus e).text = "success" ↔ e = none := by
  cases e <;> simp [runStatus, RunStatus.text]

/-- A run that was started is closed once in the store and once in the registry, with
    the same account when `FinishRun` succeeded, and its source is released once. -/
theorem row_and_registry_close_together (hk : r.sink.OnDb)
    (h : World.Runs srv (r.execute load) w l err w') :
    (∀ run, .startRun load.id (.ok run) ∈ books l →
      ∃ status msg fe rowsRead rowsWritten watermarkEnd status' t msg',
        (books l).filter Booked.finishes =
          [.finishRun run status rowsRead rowsWritten watermarkEnd msg fe] ∧
        (books l).filter Booked.marks = [.markRunning load.id run.runUUID run.startedAt,
          .markFinished load.id status' t rowsRead rowsWritten msg'] ∧
        (status' = "success" ↔ err = none) ∧
        (∀ s, w'.registry.lookup load.id = some s →
          s.currentlyRunning = false ∧ s.lastStatus = status') ∧
        (fe = none → (∃ row ∈ w'.store.runs, row.id = run.id) ∧
          ∀ row ∈ w'.store.runs, row.id = run.id → row.status.text = status' ∧
            row.rowsRead = rowsRead ∧ row.rowsWritten = rowsWritten ∧ row.errorMessage = msg')) ∧
    ∀ src, .obtain (.ok src) ∈ books l → ∃ read,
      ReadOf r load l read ∧
      (books l).filter Booked.releases = [.release src (read.bind (·.err)).isSome] := by
  obtain ⟨read, hread, hx⟩ := execute_run hk h
  rw [← Runner.id_pointBased load]
  refine ⟨fun run hrun => ?_, fun src hsrc => ⟨read, hread, ?_⟩⟩
  · obtain ⟨w₁, w₂, l₁, l₂, src, wm, verdict, fe, rr, rw', wmEnd, t, hbooks, hups, hmem, -, hacc, hsame⟩ :=
      hx.of_started hk hrun
    refine ⟨runStatus verdict, verdict.getD "", fe, rr, rw', wmEnd, (runStatus err).text, t, err.getD "",
      ?_, ?_, text_runStatus_eq_success, ?_, fun hfe => ?_⟩
    · have hnil := filter_upserts_eq_nil hups (p := Booked.finishes) fun _ _ _ => rfl
      simp [hbooks, hacc.books, Booked.finishes, hnil, List.filter_cons]
    · have hnil := filter_upserts_eq_nil hups (p := Booked.marks) fun _ _ _ => rfl
      simp [hbooks, hacc.books, Booked.marks, hnil, List.filter_cons]
    · intro s hs
      rw [hsame.2, hacc.registry, Registry.lookup_markFinished, Option.map_eq_some_iff] at hs
      obtain ⟨s', -, rfl⟩ := hs
      exact ⟨rfl, rfl⟩
    · obtain ⟨t', hstore⟩ := hacc.row hfe
      have hverdict : err = verdict := by rw [hacc.ends, hfe, Option.or_none]
      rw [hsame.1, hstore, hverdict]
      exact ⟨Store.exists_saveRun hmem rfl, fun row hrow hid => by
        rw [Store.eq_of_mem_saveRun hrow hid]; exact ⟨rfl, rfl, rfl, rfl⟩⟩
  · cases hx with
    | unresolved => simp at hsrc
    | unobtained => simp [booked] at hsrc
    | leased hobtain hlease hrelease =>
      obtain ⟨hnil, hnot⟩ := hlease.offSession hk
      obtain rfl := by simpa [booked, hnot] using hsrc
      simp [booked, Booked.releases, hnil]

/-- The number load is registered, and its entry shows a success. -/
def registeredWorld : World (numberSide increasing) :=
  { numberWorld increasing "1" [number 1, number 2] with
    registry := (∅ : Registry).register
      { loadID := 1, loadName := "load", sourceName := "src", sourceKind := "sqlserver"
        cronExpression := "", lastStatus := "success" } }

/-- The machine of the number load. -/
abbrev numberMachine : Machine (sysSig sqlSig) (World (numberSide increasing)) :=
  World.machine ⟨"wh", "dbo"⟩ (numberSide increasing)

section

attribute [local instance] GoLib.ascii

/-- A run in which every call succeeds. -/
def calmSchedule : List numberMachine.Event := List.replicate 16 (.answer .ok)

theorem calm_run_closes :
    ∃ l w' run, World.Runs ⟨"wh", "dbo"⟩ numberLoad.execute registeredWorld l none w' ∧
      .startRun 1 (.ok run) ∈ books l ∧
      ∃ status msg fe rowsRead rowsWritten watermarkEnd, (books l).filter Booked.finishes =
        [.finishRun run status rowsRead rowsWritten watermarkEnd msg fe] := by
  have heval : (numberMachine.exec calmSchedule numberLoad.execute registeredWorld).map (·.1) =
      some none := by decide +kernel
  obtain ⟨⟨_, w'⟩, hx, rfl⟩ := Option.map_eq_some_iff.1 heval
  have hrun := Machine.Runs.of_exec hx
  have hstart : .startRun 1 (.ok (registeredWorld.store.newRun 1 "1" 0)) ∈
      books (numberMachine.log calmSchedule numberLoad.execute registeredWorld) := by decide +kernel
  obtain ⟨hclosed, -⟩ := row_and_registry_close_together Mssql.sink_onDb hrun
  obtain ⟨status, msg, fe, rr, rw', wm, -, -, -, honce, -⟩ := hclosed _ hstart
  exact ⟨_, w', _, hrun, hstart, status, msg, fe, rr, rw', wm, honce⟩

end

/-! ## Failures in the registry -/

/-- The entry shows a failed execution. -/
def LoadState.ShowsFailure (s : LoadState) : Prop :=
  s.lastStatus = "failed" ∧ s.lastError ≠ "" ∧ s.currentlyRunning = false

/-- A failed execution can be seen in the registry if its run was started and its error
    has a text; without a run the entry stays as it was. -/
theorem failure_visible_iff (hk : r.sink.OnDb) (h : World.Runs srv (r.execute load) w l err w')
    {s : LoadState} (hs : w.registry.lookup load.id = some s) :
    ∃ s', w'.registry.lookup load.id = some s' ∧ (err = none → s'.lastStatus = "success") ∧
      ∀ e, err = some e → (s'.ShowsFailure ↔
        ((∃ run, .startRun load.id (.ok run) ∈ books l) → e ≠ "") ∧
        ((∀ run, .startRun load.id (.ok run) ∉ books l) → s.ShowsFailure)) := by
  obtain ⟨read, -, hx⟩ := execute_run hk h
  rw [← Runner.id_pointBased load] at hs ⊢
  by_cases hstarted : ∃ run, .startRun (Runner.pointBased load).id (.ok run) ∈ books l
  · obtain ⟨run, hrun⟩ := hstarted
    obtain ⟨w₁, w₂, l₁, l₂, src, wm, verdict, fe, rr, rw', wmEnd, t, -, -, -, hreg, hacc, hsame⟩ :=
      hx.of_started hk hrun
    rw [hsame.2, hacc.registry, Registry.lookup_markFinished, hreg, Registry.lookup_markRunning, hs]
    refine ⟨_, rfl, fun herr => ?_, fun e herr => ?_⟩
    · rw [herr]
      rfl
    · subst herr
      have hvisible : ∀ s : LoadState, s.lastStatus = "failed" → s.lastError = e →
          s.currentlyRunning = false → (s.ShowsFailure ↔ e ≠ "") := by
        intro s hstatus herror hrunning
        simp [LoadState.ShowsFailure, hstatus, herror, hrunning]
      rw [hvisible _ rfl rfl rfl]
      exact ⟨fun he => ⟨fun _ => he, fun hnone => absurd hrun (hnone run)⟩, fun he => he.1 ⟨run, hrun⟩⟩
  · have hnone : ∀ run, .startRun (Runner.pointBased load).id (.ok run) ∉ books l := by
      simpa using hstarted
    obtain ⟨herr, hreg⟩ := hx.of_unstarted hnone
    refine ⟨s, by rw [hreg, hs], fun h => absurd h herr, fun e _ => ?_⟩
    exact ⟨fun hshow => ⟨fun hrun => absurd hrun hstarted, fun _ => hshow⟩, fun hc => hc.2 hnone⟩

section

attribute [local instance] GoLib.ascii

/-- `Obtain` fails. -/
def refusedSchedule : List numberMachine.Event := [.answer (.fail "refused" 0)]

/-- The entry still shows the success of the run before. -/
theorem refused_source_not_visible :
    ∃ l w', World.Runs ⟨"wh", "dbo"⟩ numberLoad.execute registeredWorld l (some "refused") w' ∧
      (w'.registry.lookup 1).map (fun s => (s.lastStatus, s.lastError)) = some ("success", "") := by
  have heval : (numberMachine.exec refusedSchedule numberLoad.execute registeredWorld).map (fun p =>
      (p.1, (p.2.registry.lookup 1).map (fun s => (s.lastStatus, s.lastError)))) =
      some (some "refused", some ("success", "")) := by decide +kernel
  obtain ⟨⟨_, w'⟩, hx, hshown⟩ := Option.map_eq_some_iff.1 heval
  obtain ⟨rfl, hshown⟩ := Prod.mk.inj hshown
  exact ⟨_, w', Machine.Runs.of_exec hx, hshown⟩

/-- `FinishRun` fails, after the watermark has been stored. -/
def unclosedSchedule : List numberMachine.Event :=
  List.replicate 11 (.answer .ok) ++ .answer (.fail "lost" 0) :: List.replicate 4 (.answer .ok)

theorem unclosed_run_visible :
    ∃ l w', World.Runs ⟨"wh", "dbo"⟩ numberLoad.execute registeredWorld l (some "lost") w' ∧
      ∃ s', w'.registry.lookup 1 = some s' ∧ s'.ShowsFailure := by
  have heval : (numberMachine.exec unclosedSchedule numberLoad.execute registeredWorld).map (·.1) =
      some (some "lost") := by decide +kernel
  obtain ⟨⟨_, w'⟩, hx, rfl⟩ := Option.map_eq_some_iff.1 heval
  have hrun := Machine.Runs.of_exec hx
  have hstart : .startRun 1 (.ok (registeredWorld.store.newRun 1 "1" 0)) ∈
      books (numberMachine.log unclosedSchedule numberLoad.execute registeredWorld) := by
    decide +kernel
  obtain ⟨s', hs', -, hshows⟩ := failure_visible_iff Mssql.sink_onDb hrun (by rfl)
  refine ⟨_, w', hrun, s', hs', (hshows "lost" rfl).2 ⟨fun _ => by decide, fun hnone => ?_⟩⟩
  exact absurd hstart (hnone _)

end

/-! ## Failures and the watermark -/

/-- The watermark of the load `id` in a run: it is kept, or `UpsertWatermark` was called
    once, and a failure after its success is one of `FinishRun`. -/
inductive Moves (id : Int) (before : String) (bs : List Booked) (err : Option Err)
    (after : String) : Prop
  | kept (hafter : after = before) (hnone : ∀ b ∈ bs, b.upserts = false)
  | moved {v : String} {o : Outcome} (hafter : after = if o.effective then v else before)
      (hmem : .upsertWatermark id v o ∈ bs)
      (honly : ∀ b ∈ bs, b.upserts = true → b = .upsertWatermark id v o)
      (hfail : o = .ok → ∀ e, err = some e → ∃ run status rr rw wm msg,
        .finishRun run status rr rw wm msg (some e) ∈ bs)

theorem Moves.within {id : Int} {before after : String} {bs : List Booked}
    (h : Moves id before bs err after) (bs₁ bs₂ : List Booked) (h₁ : ∀ b ∈ bs₁, b.upserts = false)
    (h₂ : ∀ b ∈ bs₂, b.upserts = false) : Moves id before (bs₁ ++ bs ++ bs₂) err after := by
  have hmem : ∀ {b : Booked}, b ∈ bs → b ∈ bs₁ ++ bs ++ bs₂ := fun hb => by simp [hb]
  cases h with
  | kept hafter hnone =>
    exact .kept hafter (List.forall_mem_append.2 ⟨List.forall_mem_append.2 ⟨h₁, hnone⟩, h₂⟩)
  | moved hafter hup honly hfail =>
    refine .moved hafter (hmem hup) ?_ fun ho e he => ?_
    · have hnot : ∀ {bs : List Booked} {p : Booked → Prop}, (∀ b ∈ bs, b.upserts = false) →
          ∀ b ∈ bs, b.upserts = true → p b := fun hbs b hb hb' => by simp [hbs b hb] at hb'
      exact List.forall_mem_append.2 ⟨List.forall_mem_append.2 ⟨hnot h₁, honly⟩, hnot h₂⟩
    · obtain ⟨run, status, rr, rw', wm, msg, hb⟩ := hfail ho e he
      exact ⟨run, status, rr, rw', wm, msg, hmem hb⟩

/-- Closing a run stores no watermark. -/
theorem Account.offWatermark {verdict fe : Option Err} {rr rw : Int} {wm : String} {t : Time}
    (h : Account load run w l err w' verdict fe rr rw wm t) :
    w'.store.watermark load.id = w.store.watermark load.id ∧
      ∀ b ∈ DataLoader.books l, b.upserts = false := by
  refine ⟨by rw [Store.watermark, h.watermarks, Store.watermark], ?_⟩
  rw [h.books]
  simp [Booked.upserts]

theorem Account.moves {verdict fe : Option Err} {rr rw : Int} {wm : String} {t : Time}
    (h : Account load run w l err w' verdict fe rr rw wm t) :
    Moves load.id (w.store.watermark load.id) (DataLoader.books l) err
      (w'.store.watermark load.id) :=
  .kept h.offWatermark.1 h.offWatermark.2

/-- `UpsertWatermark`, and the end of the run after it. -/
theorem Made.moves {w₁ : World side} {v : String} {o : Outcome} {e : Option Err}
    {verdict fe : Option Err} {rr rw : Int} {wm : String} {t : Time}
    (hupsert : Made srv (.store (.upsertWatermark load.id v)) o e w w₁)
    (hacc : Account load run w₁ l err w' verdict fe rr rw wm t) (hverdict : e = none → verdict = none) :
    Moves load.id (w.store.watermark load.id) (.upsertWatermark load.id v o :: books l) err
      (w'.store.watermark load.id) := by
  obtain ⟨herr, -, hwm⟩ := hupsert.upsertWatermark
  obtain ⟨hsame, hnone⟩ := hacc.offWatermark
  refine .moved (hsame.trans hwm) (by simp) ?_ fun ho e' he' => ?_
  · refine List.forall_mem_cons.2 ⟨fun _ => rfl, fun b hb hb' => ?_⟩
    simp [hnone b hb] at hb'
  · obtain rfl := hverdict (by rw [herr, ho]; rfl)
    obtain rfl : fe = some e' := by simpa [he'] using hacc.ends.symm
    refine ⟨run, .success, rr, rw, wm, "", ?_⟩
    rw [hacc.books]
    simp [runStatus]

theorem Finishes.moves {current : String} {result : ReadResult} {rw : Int} {rerr : Option Err}
    {committed : Bool} (h : Finishes srv load run current result rw rerr committed w l err w') :
    Moves load.id (w.store.watermark load.id) (books l) err (w'.store.watermark load.id) := by
  cases h with
  | readFailed hclose =>
    obtain ⟨fe, t, hacc⟩ := hclose.account
    exact hacc.moves
  | commitFailed _ hquiet hclose =>
    obtain ⟨fe, t, hacc⟩ := hclose.account
    rw [books_append, hquiet.books, ← hquiet.store]
    exact hacc.moves
  | upsertFailed hquiet hadvances hupsert hclose =>
    obtain ⟨fe, t, hacc⟩ := hclose.account
    rw [books_append, hquiet.books, ← hquiet.store, books_cons]
    exact hupsert.moves hacc (by simp)
  | advanced hquiet hadvances hupsert hclose =>
    obtain ⟨fe, t, hacc⟩ := hclose.account
    rw [books_append, hquiet.books, ← hquiet.store, books_cons]
    exact hupsert.moves hacc (fun _ => rfl)
  | kept hquiet hadvances hclose =>
    obtain ⟨fe, t, hacc⟩ := hclose.account
    rw [books_append, hquiet.books, ← hquiet.store]
    exact hacc.moves

theorem Started.moves (hk : r.sink.OnDb) {src : ℕ} {current : Watermark}
    {read : Option (ReadRun S)} (h : Started srv r load src run current w l read err w') :
    Moves load.id (w.store.watermark load.id) (books l) err (w'.store.watermark load.id) := by
  cases h with
  | unprepared _ hquiet hclose =>
    obtain ⟨fe, t, hacc⟩ := hclose.account
    rw [books_append, hquiet.books, ← hquiet.store]
    exact hacc.moves
  | read hquiet hrepl hread hfinish =>
    obtain ⟨hsame, hbooks⟩ := read_unrecorded hk hrepl hread
    rw [books_append, books_append, hquiet.books, hbooks, ← hquiet.store, ← hsame.1]
    exact hfinish.moves

theorem Leases.moves (hk : r.sink.OnDb) {src : ℕ} {read : Option (ReadRun S)}
    (h : Leases srv r load src w l read err w') :
    Moves load.id (w.store.watermark load.id) (books l) err (w'.store.watermark load.id) := by
  cases h with
  | noWatermark hget => exact .kept (by rw [hget.getWatermark.1]) (by simp [booked, Booked.upserts])
  | noRun hget hstart =>
    refine .kept ?_ (by simp [booked, Booked.upserts])
    rw [Store.watermark, hstart.startRun.1, hget.getWatermark.1, Store.watermark]
  | @started w₁ w₂ w₃ _ _ _ _ _ _ _ _ _ hget hstart hmark hstarted =>
    have hsame : w₃.store.watermark load.id = w.store.watermark load.id := by
      rw [hmark.markRunning.1, Store.watermark, hstart.startRun.1, hget.getWatermark.1,
        Store.watermark]
    rw [← hsame]
    simpa [booked] using (hstarted.moves hk).within [_, _, _] [] (by simp [Booked.upserts]) (by simp)

theorem Executes.moves (hk : r.sink.OnDb) {read : Option (ReadRun S)}
    (h : Executes srv r load w l read err w') :
    Moves load.id (w.store.watermark load.id) (books l) err (w'.store.watermark load.id) := by
  cases h with
  | unresolved => exact .kept rfl (by simp)
  | unobtained hobtain => exact .kept (by rw [hobtain.obtain.1]) (by simp [booked, Booked.upserts])
  | leased hobtain hlease hrelease =>
    rw [← hobtain.obtain.1, hrelease.release.1]
    simpa [booked] using (hlease.moves hk).within [_] [_] (by simp [Booked.upserts])
      (by simp [Booked.upserts])

/-- The value `v` stays out of the watermark when the run fails: an `UpsertWatermark`
    that fails has not stored it, and after one that succeeds `FinishRun` succeeds. -/
structure Orderly (loadID : Int) (v : String) (bs : List Booked) : Prop where
  failed : ∀ msg n, .upsertWatermark loadID v (.fail msg n) ∈ bs → n = 0
  closed : .upsertWatermark loadID v .ok ∈ bs → ∀ run status rr rw wm msg e,
    .finishRun run status rr rw wm msg (some e) ∉ bs

/-- A failed run leaves the watermark alone if and only if its calls were orderly for
    every other value. -/
theorem failed_run_keeps_watermark_iff (hk : r.sink.OnDb) {e : Err}
    (h : World.Runs srv (r.execute load) w l (some e) w') :
    w'.store.watermark load.id = w.store.watermark load.id ↔
      ∀ v, v ≠ w.store.watermark load.id → Orderly load.id v (books l) := by
  obtain ⟨read, -, hx⟩ := execute_run hk h
  have hmoves := hx.moves hk
  rw [Runner.id_pointBased] at hmoves
  cases hmoves with
  | kept hafter hnone =>
    refine ⟨fun _ v _ => ⟨fun msg n hb => ?_, fun hb => ?_⟩, fun _ => hafter⟩
    · cases hnone _ hb
    · cases hnone _ hb
  | @moved v o hafter hmem honly hfail =>
    constructor
    · intro hsame v' hne
      -- a call that stored `v'` would have changed the watermark
      have hstored : ∀ o', .upsertWatermark load.id v' o' ∈ books l → o'.effective = false := by
        intro o' hb
        obtain ⟨-, rfl, rfl⟩ := Booked.upsertWatermark.inj (honly _ hb rfl)
        by_contra ho
        rw [if_pos (by simpa using ho)] at hafter
        exact hne (hafter.symm.trans hsame)
      refine ⟨fun msg n hb => ?_, fun hb => ?_⟩
      · simpa [Outcome.effective] using hstored _ hb
      · cases hstored _ hb
    · intro horderly
      by_cases hv : v = w.store.watermark load.id
      · rw [hafter, hv, ite_self]
      · obtain ⟨hfailed, hclosed⟩ := horderly v hv
        cases o with
        | ok =>
          obtain ⟨run, status, rr, rw', wm, msg, hb⟩ := hfail rfl e rfl
          exact absurd hb (hclosed hmem run status rr rw' wm msg e)
        | fail msg n =>
          rw [hafter, hfailed msg n hmem]
          rfl

section

attribute [local instance] GoLib.ascii

/-- The watermark has moved although the run failed. -/
theorem unclosed_run_moves_watermark :
    ∃ l w', World.Runs ⟨"wh", "dbo"⟩ numberLoad.execute registeredWorld l (some "lost") w' ∧
      registeredWorld.store.watermark 1 = "1" ∧ w'.store.watermark 1 = "2" := by
  have heval : (numberMachine.exec unclosedSchedule numberLoad.execute registeredWorld).map (fun p =>
      (p.1, p.2.store.watermark 1)) = some (some "lost", "2") := by decide +kernel
  obtain ⟨⟨_, w'⟩, hx, hmoved⟩ := Option.map_eq_some_iff.1 heval
  obtain ⟨rfl, hmoved⟩ := Prod.mk.inj hmoved
  exact ⟨_, w', Machine.Runs.of_exec hx, by decide, hmoved⟩

/-- `UpsertWatermark` fails without effect. -/
def unmovedSchedule : List numberMachine.Event :=
  List.replicate 10 (.answer .ok) ++ .answer (.fail "lost" 0) :: List.replicate 5 (.answer .ok)

/-- The only `UpsertWatermark` of that run is the one that fails. -/
theorem unmoved_upserts {v : String} {o : Outcome} (hb : .upsertWatermark 1 v o ∈
    books (numberMachine.log unmovedSchedule numberLoad.execute registeredWorld)) :
    o = .fail "lost" 0 := by
  have hups : (books (numberMachine.log unmovedSchedule numberLoad.execute registeredWorld)).filter
      Booked.upserts = [.upsertWatermark 1 "2" (.fail "lost" 0)] := by decide +kernel
  have hmem := List.mem_filter.2 ⟨hb, (rfl : Booked.upserts (.upsertWatermark 1 v o) = true)⟩
  rw [hups, List.mem_singleton] at hmem
  exact (Booked.upsertWatermark.inj hmem).2.2

theorem unmoved_run_keeps_watermark :
    ∃ l w', World.Runs ⟨"wh", "dbo"⟩ numberLoad.execute registeredWorld l
        (some "update watermark: lost") w' ∧
      w'.store.watermark 1 = registeredWorld.store.watermark 1 := by
  have heval : (numberMachine.exec unmovedSchedule numberLoad.execute registeredWorld).map (·.1) =
      some (some "update watermark: lost") := by decide +kernel
  obtain ⟨⟨_, w'⟩, hx, rfl⟩ := Option.map_eq_some_iff.1 heval
  have hrun := Machine.Runs.of_exec hx
  refine ⟨_, w', hrun, (failed_run_keeps_watermark_iff Mssql.sink_onDb hrun).2 ?_⟩
  intro v _
  refine ⟨fun msg n hb => ?_, fun hb => ?_⟩
  · exact (Outcome.fail.inj (unmoved_upserts hb)).2
  · cases unmoved_upserts hb

end

end

end DataLoader
