import DataLoader.Pipeline.SinkProtocol

/-!
# How a run uses its source

`Execute` obtains a source once, reads through the lease it got and releases it
once, on every path that obtained one. Between, the calls on the source follow
the protocol `D` of its module, from the state `u₀` in which a lease is granted.
-/

namespace DataLoader

open Effects SinkProtocol

/-- Where a run stands with its source: not obtained yet, leased, or done with. -/
inductive LeasePhase (U : Type)
  | idle
  | leased (l : ℕ) (u : U)
  | done

variable {S : Sig} {U α σ : Type}

/-- The protocol of a module's driver calls as one of its `Read`. -/
def readProtocol (D : Protocol S U) : Protocol (readSig S) U where
  allows u c :=
    match c with
    | .driver c => D.allows u c
    | .emit _ => True
  next u c r :=
    match c, r with
    | .driver c, r => D.next u c r
    | .emit _, _ => u

/-- The protocol of `Obtain` and its release function, for a run that obtains the
    source `cfg`. -/
def leaseProtocol (D : Protocol S U) (u₀ : U) (cfg : SourceConfig) :
    Protocol (sysSig S) (LeasePhase U) where
  allows q c :=
    match c with
    | .obtain cfg' => q = .idle ∧ cfg' = cfg
    | .source l c => ∃ u, q = .leased l u ∧ D.allows u c
    | .release l _ => ∃ u, q = .leased l u
    | _ => True
  next q c r :=
    match c, r with
    | .obtain _, (.ok l : Except Err ℕ) => .leased l u₀
    | .obtain _, (.error _ : Except Err ℕ) => .done
    | .source _ c, r =>
      match q with
      | .leased l u => .leased l (D.next u c r)
      | _ => q
    | .release .., _ => .done
    | _, _ => q

/-- The calls that are not on the source. -/
def SysCall.offSource : SysCall S → Prop
  | .obtain _ | .source .. | .release .. => False
  | _ => True

namespace World

variable {srv : SqlServer} {side : SourceSide S}

/-- Such a call neither sees nor changes the source side. -/
theorem answer_offSource {c : SysCall S} (hc : c.offSource) (o : Outcome) (w : World side)
    (src : side.State) :
    World.answer srv side o c { w with src } =
      ((World.answer srv side o c w).1, { (World.answer srv side o c w).2 with src }) := by
  cases c <;> first | exact hc.elim | rfl

theorem src_answer_offSource {c : SysCall S} (hc : c.offSource) (o : Outcome) (w : World side) :
    (World.answer srv side o c w).2.src = w.src := by
  cases c <;> first | exact hc.elim | rfl

end World

/-- The load reads the source that is configured as `cfg`. -/
def Runner.On (r : Runner S) (cfg : SourceConfig) (load : Load) : Prop :=
  ∀ params, r.resolveParams load.source.paramsJSON = .ok params →
    (⟨load.sourceID, load.source.kind, load.source.name, params⟩ : SourceConfig) = cfg

namespace LeaseProtocol

variable {D : Protocol S U} {u₀ : U} {cfg : SourceConfig} {q : LeasePhase U}

theorem offSource_neutral : (leaseProtocol D u₀ cfg).Ignores SysCall.offSource := by
  intro c hc q
  cases c <;> first | exact hc.elim | exact ⟨trivial, fun _ => rfl⟩

theorem onDb_neutral : (leaseProtocol D u₀ cfg).Ignores SysCall.onDb := by
  intro c hc
  apply offSource_neutral c
  cases c <;> first | exact hc.elim | exact trivial

/-- A program that makes no call on the source. -/
theorem of_offSource {p : Prog (sysSig S) α} (hp : p.Calls SysCall.offSource) :
    (leaseProtocol D u₀ cfg).Follows p (fun _ q' => q' = q) q :=
  Protocol.Follows.of_calls offSource_neutral hp

theorem call_offSource {c : SysCall S} (hc : c.offSource) {k : c.Ans → Prog (sysSig S) α}
    {R : α → LeasePhase U → Prop} (hk : ∀ r, (leaseProtocol D u₀ cfg).Follows (k r) R q) :
    (leaseProtocol D u₀ cfg).Follows (.call (S := sysSig S) c k) R q :=
  Protocol.Follows.call_ignored offSource_neutral hc hk

/-! ## The read -/

/-- A `Read` that follows the protocol of its module, run with a handler that
    leaves the source alone. -/
theorem interpret_follows {h : σ → Batch → Prog (sysSig S) (σ × Option Err)} {I : σ → Prop}
    (hh : ∀ {st b q}, I st →
      (leaseProtocol D u₀ cfg).Follows (h st b) (fun se q' => q' = q ∧ I se.1) q)
    {p : Prog (readSig S) α} {u : U} (hp : (readProtocol D).Follows p (fun _ _ => True) u)
    (l : ℕ) {st : σ} (hst : I st) :
    (leaseProtocol D u₀ cfg).Follows (Runner.interpret l h p st)
      (fun sa q' => (∃ u', q' = .leased l u') ∧ I sa.1) (.leased l u) := by
  induction p generalizing u st with
  | ret a => exact ⟨⟨u, rfl⟩, hst⟩
  | call c k ih =>
    cases c with
    | driver c => exact ⟨⟨u, rfl, hp.1⟩, fun ans => ih ans (hp.2 ans) hst⟩
    | emit b =>
      refine call_offSource (by trivial) fun _ => ?_
      refine Protocol.Follows.seq (hh hst) ?_
      rintro se _ ⟨rfl, hse⟩
      exact ih se.2 (hp.2 se.2) hse

/-! ## The end of a run -/

variable {r : Runner S} {load : Load} {run : LoadRun}

theorem offSource_of_closes (c : SysCall S) (h : c.closes) : c.offSource := by
  cases c <;> trivial

theorem failRun_calls (rr rw : Int) (wm : String) (msg : Err) :
    (Runner.failRun (S := S) load run rr rw wm msg).Calls SysCall.offSource :=
  (Runner.calls_failRun load run rr rw wm msg).mono offSource_of_closes

theorem finishRead_calls (current : String) (result : ReadResult) (rw : Int) :
    (Runner.finishRead (S := S) load run current result rw).Calls SysCall.offSource :=
  Runner.calls_finishRead load run offSource_of_closes (fun _ _ => trivial) current result rw

/-- A run that has its source reads it and leaves it leased. -/
theorem readAndFinish_follows (hk : r.sink.OnDb)
    (hread : ∀ lc, (readProtocol D).Follows (r.read lc) (fun _ _ => True) u₀) (l : ℕ)
    (current : Watermark) (loadTS : Time) {repl : Option (ReplaceSession S)}
    (hrepl : ∀ s, repl = some s → OnDb s) :
    (leaseProtocol D u₀ cfg).Follows (r.readAndFinish load l run current loadTS repl)
      (fun exit q' => (∃ u, q' = .leased l u) ∧ ∀ s, exit.repl = some s → OnDb s)
      (.leased l u₀) := by
  unfold Runner.readAndFinish
  have hst₀ : HandlerOnDb (S := S) ⟨0, true, (repl.map (·.writeTo)).getD load.target, repl⟩ := hrepl
  have hhandler : ∀ {st : HandlerState S} {b : Batch} {q : LeasePhase U}, HandlerOnDb st →
      (leaseProtocol D u₀ cfg).Follows (r.handler load loadTS st b)
        (fun se q' => q' = q ∧ HandlerOnDb se.1) q :=
    fun hst => handler_follows onDb_neutral hk hst _
  refine (interpret_follows hhandler (hread _) l hst₀).seq ?_
  rintro ⟨st, result, rerr⟩ q' ⟨hq', hst⟩
  cases rerr with
  | some e => exact (of_offSource (failRun_calls _ _ _ _)).seq fun _ _ h => ⟨h ▸ hq', hst⟩
  | none =>
    cases hr : st.repl with
    | none =>
      simp only [hr]
      exact (of_offSource (finishRead_calls _ _ _)).seq fun _ _ h => ⟨h ▸ hq', nofun⟩
    | some s =>
      simp only [hr]
      refine (commit_follows onDb_neutral (hst s hr)).seq ?_
      rintro res _ ⟨rfl, hok⟩
      cases res with
      | error e =>
        refine (of_offSource (failRun_calls _ _ _ _)).seq fun _ _ h => ⟨h ▸ hq', ?_⟩
        exact fun s' hs' => (Option.some.inj hs') ▸ hst s hr
      | ok s' =>
        refine (of_offSource (finishRead_calls _ _ _)).seq fun _ _ h => ⟨h ▸ hq', ?_⟩
        exact fun s'' hs'' => (Option.some.inj hs'') ▸ hok s' rfl

theorem runStarted_follows (hk : r.sink.OnDb)
    (hread : ∀ lc, (readProtocol D).Follows (r.read lc) (fun _ _ => True) u₀) (l : ℕ)
    (current : Watermark) :
    (leaseProtocol D u₀ cfg).Follows (r.runStarted load l run current)
      (fun _ q' => ∃ u, q' = .leased l u) (.leased l u₀) := by
  unfold Runner.runStarted
  refine call_offSource (by trivial) fun _ => call_offSource (by trivial) fun loadTS => ?_
  split_ifs
  · have hnew : OnDb (ReplaceSession.new r.sink load.target) := hk.atomic
    refine (prepareExisting_follows onDb_neutral hk hnew).seq ?_
    rintro res _ ⟨rfl, hok⟩
    cases res with
    | error e =>
      refine (of_offSource ?_).mono fun _ _ h => ⟨u₀, h⟩
      exact ⟨trivial, fun _ => ⟨trivial, fun _ => ⟨trivial, fun _ => trivial⟩⟩⟩
    | ok s =>
      refine (readAndFinish_follows hk hread l current loadTS ?_).seq ?_
      · exact fun s' hs' => (Option.some.inj hs') ▸ hok s rfl
      · rintro exit q' ⟨hq', hexit⟩
        exact (exitAbort_follows onDb_neutral hexit).seq fun _ _ h => h ▸ hq'
  · exact (readAndFinish_follows hk hread l current loadTS (by simp)).mono fun _ _ h => h.1

/-- `Execute` follows the protocol of its source. It ends without a lease. -/
theorem execute_follows (hk : r.sink.OnDb)
    (hread : ∀ lc, (readProtocol D).Follows (r.read lc) (fun _ _ => True) u₀)
    (hon : r.On cfg load) :
    (leaseProtocol D u₀ cfg).Follows (r.execute load) (fun _ q' => q' = .idle ∨ q' = .done)
      .idle := by
  have hsource : (Runner.pointBased load).source = load.source ∧
      (Runner.pointBased load).sourceID = load.sourceID := by
    unfold Runner.pointBased
    split_ifs <;> exact ⟨rfl, rfl⟩
  unfold Runner.execute
  dsimp only
  rw [hsource.1, hsource.2]
  cases hp : r.resolveParams load.source.paramsJSON with
  | error e => exact .inl rfl
  | ok params =>
    refine ⟨⟨rfl, hon params hp⟩, fun res => ?_⟩
    match res with
    | .error e => exact .inr rfl
    | .ok l =>
      have hleased : (leaseProtocol D u₀ cfg).Follows (r.leased (Runner.pointBased load) l)
          (fun _ q' => ∃ u, q' = .leased l u) (.leased l u₀) := by
        unfold Runner.leased
        refine call_offSource (by trivial) fun wm => ?_
        match wm with
        | .error e => exact ⟨u₀, rfl⟩
        | .ok wm =>
          refine call_offSource (by trivial) fun run => ?_
          match run with
          | .error e => exact ⟨u₀, rfl⟩
          | .ok run => exact runStarted_follows hk hread l _
      refine hleased.seq fun exit q' hq' => ?_
      exact ⟨hq', fun _ => .inr rfl⟩

end LeaseProtocol

end DataLoader
