import DataLoader.Pipeline.SinkProtocol

/-!
# How a run uses its row

`Execute` creates at most one row of `meta_load_runs` and closes no row but that
one, once, with a status other than `running`. This is a protocol on its store
calls (`runProtocol`), and `execute_follows` shows that `Execute` follows it
through every branch, with any source module and any outcome of any call.
-/

namespace DataLoader

open Effects SinkProtocol

/-- Where a run stands with its row: not created yet, open under a key, or done
    with. -/
inductive RunPhase
  | unstarted
  | started (id : ℕ)
  | closed
  deriving DecidableEq, Repr

variable {S : Sig}

/-- The protocol of `StartRun` and `FinishRun`. -/
def runProtocol (S : Sig) : Protocol (sysSig S) RunPhase where
  allows q c :=
    match c with
    | .store (.startRun ..) => q = .unstarted
    | .store (.finishRun run status ..) => q = .started run.id ∧ status.terminal = true
    | _ => True
  next q c r :=
    match c, r with
    | .store (.startRun ..), (.ok run : Except Err LoadRun) => .started run.id
    | .store (.startRun ..), (.error _ : Except Err LoadRun) => .closed
    | .store (.finishRun ..), _ => .closed
    | _, _ => q

/-- The calls that the protocol does not speak about. -/
def SysCall.offRuns : SysCall S → Prop
  | .store (.startRun ..) | .store (.finishRun ..) => False
  | _ => True

namespace RunProtocol

theorem offRuns_neutral : (runProtocol S).Ignores SysCall.offRuns := by
  intro c hc q
  cases c with
  | store s => cases s <;> first | exact hc.elim | exact ⟨trivial, fun _ => rfl⟩
  | _ => exact ⟨trivial, fun _ => rfl⟩

variable {α : Type} {q : RunPhase}

/-- A program that makes no call on runs leaves the phase as it is. -/
theorem of_offRuns {p : Prog (sysSig S) α} (hp : p.Calls SysCall.offRuns) :
    (runProtocol S).Follows p (fun _ q' => q' = q) q :=
  Protocol.Follows.of_calls offRuns_neutral hp

theorem any_of_offRuns {p : Prog (sysSig S) α} (hp : p.Calls SysCall.offRuns) :
    (runProtocol S).Follows p (fun _ _ => True) q :=
  (of_offRuns hp).mono fun _ _ _ => trivial

theorem onDb_neutral : (runProtocol S).Ignores SysCall.onDb := by
  intro c hc
  apply offRuns_neutral c
  cases c <;> first | exact hc.elim | exact trivial

/-- A call that the protocol does not speak about, and what follows it. -/
theorem call_offRuns {c : SysCall S} (hc : c.offRuns) {k : c.Ans → Prog (sysSig S) α}
    {R : α → RunPhase → Prop} (hk : ∀ r, (runProtocol S).Follows (k r) R q) :
    (runProtocol S).Follows (.call (S := sysSig S) c k) R q :=
  Protocol.Follows.call_ignored offRuns_neutral hc hk

/-! ## The end of a run -/

variable {r : Runner S} {load : Load} {loadTS : Time} {run : LoadRun}

/-- `FinishRun` on the open row closes it. -/
theorem finishRun_follows {status : RunStatus} (ht : status.terminal = true) (rr rw : Int)
    (wm msg : String) :
    (runProtocol S).Follows (Runner.finishRun run status rr rw wm msg)
      (fun _ q' => q' = .closed) (.started run.id) :=
  ⟨⟨rfl, ht⟩, fun _ => rfl⟩

theorem failRun_follows (rr rw : Int) (wm : String) (msg : Err) :
    (runProtocol S).Follows (Runner.failRun load run rr rw wm msg)
      (fun _ _ => True) (.started run.id) := by
  unfold Runner.failRun
  refine (finishRun_follows rfl rr rw wm msg).seq fun _ q' _ => ?_
  apply any_of_offRuns
  exact ⟨trivial, fun _ => ⟨trivial, fun _ => ⟨trivial, fun _ => trivial⟩⟩⟩

theorem finishSuccess_follows (result : ReadResult) (rw : Int) :
    (runProtocol S).Follows (Runner.finishSuccess load run result rw)
      (fun _ _ => True) (.started run.id) := by
  unfold Runner.finishSuccess
  refine (finishRun_follows rfl _ _ _ _).seq fun e q' _ => ?_
  apply any_of_offRuns
  match e with
  | some e => exact ⟨trivial, fun _ => ⟨trivial, fun _ => ⟨trivial, fun _ => trivial⟩⟩⟩
  | none =>
    refine ⟨trivial, fun _ => ⟨trivial, fun _ => ⟨trivial, fun _ => ?_⟩⟩⟩
    dsimp only
    split_ifs
    · exact ⟨trivial, fun _ => trivial⟩
    · exact trivial

theorem finishRead_follows (current : String) (result : ReadResult) (rw : Int) :
    (runProtocol S).Follows (Runner.finishRead load run current result rw)
      (fun _ _ => True) (.started run.id) := by
  unfold Runner.finishRead
  split_ifs
  · refine call_offRuns (by trivial) fun e => ?_
    match e with
    | some e => exact (failRun_follows _ _ _ _).seq fun _ _ _ => trivial
    | none => exact finishSuccess_follows result rw
  · exact finishSuccess_follows result rw

/-- The read, the commit and the end of the run. The session that the deferred
    abort gets only calls the sink database. -/
theorem readAndFinish_follows (hk : r.sink.OnDb) (src : ℕ) (current : Watermark)
    {repl : Option (ReplaceSession S)} (hrepl : ∀ s, repl = some s → OnDb s) :
    (runProtocol S).Follows (r.readAndFinish load src run current loadTS repl)
      (fun exit _ => ∀ s, exit.repl = some s → OnDb s) (.started run.id) := by
  unfold Runner.readAndFinish
  have hst₀ : HandlerOnDb (S := S) ⟨0, true, (repl.map (·.writeTo)).getD load.target, repl⟩ := hrepl
  refine (interpret_follows onDb_neutral offRuns_neutral (fun _ _ => trivial) (fun _ => trivial)
    hk src hst₀).seq ?_
  rintro ⟨st, result, rerr⟩ _ ⟨rfl, hst⟩
  cases rerr with
  | some e => exact (failRun_follows _ _ _ _).seq fun _ _ _ => hst
  | none =>
    cases hr : st.repl with
    | none =>
      simp only [hr]
      exact (finishRead_follows _ _ _).seq fun _ _ _ s hs => nomatch hs
    | some s =>
      simp only [hr]
      refine (commit_follows onDb_neutral (hst s hr)).seq ?_
      rintro res _ ⟨rfl, hok⟩
      cases res with
      | error e =>
        refine (failRun_follows _ _ _ _).seq fun _ _ _ => ?_
        exact fun s' hs' => (Option.some.inj hs') ▸ hst s hr
      | ok s' =>
        refine (finishRead_follows _ _ _).seq fun _ _ _ => ?_
        exact fun s'' hs'' => (Option.some.inj hs'') ▸ hok s' rfl

theorem runStarted_follows (hk : r.sink.OnDb) (src : ℕ) (current : Watermark) :
    (runProtocol S).Follows (r.runStarted load src run current)
      (fun _ _ => True) (.started run.id) := by
  unfold Runner.runStarted
  refine call_offRuns (by trivial) fun _ => call_offRuns (by trivial) fun loadTS => ?_
  split_ifs
  · have hnew : OnDb (ReplaceSession.new r.sink load.target) := hk.atomic
    refine (prepareExisting_follows onDb_neutral hk hnew).seq ?_
    rintro res _ ⟨rfl, hok⟩
    cases res with
    | error e =>
      refine (finishRun_follows rfl _ _ _ _).seq fun _ q' _ => ?_
      apply any_of_offRuns
      exact ⟨trivial, fun _ => ⟨trivial, fun _ => trivial⟩⟩
    | ok s =>
      refine (readAndFinish_follows hk src current ?_).seq fun exit q' hexit => ?_
      · exact fun s' hs' => (Option.some.inj hs') ▸ hok s rfl
      · exact (exitAbort_follows onDb_neutral hexit).seq fun _ _ _ => trivial
  · exact (readAndFinish_follows hk src current (by simp)).mono fun _ _ _ => trivial

/-- `Execute` follows the protocol of its row. -/
theorem execute_follows (hk : r.sink.OnDb) (load : Load) :
    (runProtocol S).Follows (r.execute load) (fun _ _ => True) .unstarted := by
  unfold Runner.execute
  dsimp only
  cases r.resolveParams (Runner.pointBased load).source.paramsJSON with
  | error e => exact trivial
  | ok params =>
    refine call_offRuns (by trivial) fun res => ?_
    match res with
    | .error e => exact trivial
    | .ok src =>
      have hleased : (runProtocol S).Follows (r.leased (Runner.pointBased load) src)
          (fun _ _ => True) .unstarted := by
        unfold Runner.leased
        refine call_offRuns (by trivial) fun wm => ?_
        match wm with
        | .error e => exact trivial
        | .ok wm =>
          refine ⟨rfl, fun run => ?_⟩
          match run with
          | .error e => exact trivial
          | .ok run => exact runStarted_follows hk src _
      refine hleased.seq fun exit q' _ => ?_
      exact call_offRuns (by trivial) fun _ => trivial

end RunProtocol

end DataLoader
