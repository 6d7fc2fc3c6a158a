import DataLoader.Metadata.RunRows
import DataLoader.Pipeline.RunProtocol
import DataLoader.Scheduler.System

/-!
# `Stop` leaves no run open

What holds of the rows of `meta_load_runs` over every interleaving of `trigger`,
`Execute`, `Reload` and `Stop`. A run owns the row that its `StartRun` created:
while the run context is not cancelled only the owner can end that row, and
after the cancel no call of a run has an effect any more, so that
`AbortRunningRuns` has the last word.

* `RestStep`, `step_rest`: what one step can do to the rows and to the calls
  that are still to be made.
* `Owned`, `owned_step`: every run follows the protocol of its row, and no two
  runs own the same one.
-/

namespace DataLoader

open Effects

namespace Scheduler

variable {S : Sig} {side : SourceSide S} {srv : SqlServer} {r : Runner S} {parses : String → Bool}
  {a : Act side} {s s' : State side}

/-! ## The phases -/

/-- The phases in which the run context is cancelled. -/
def cancels : Phase → Bool
  | .cancelled | .waited | .stopped _ => true
  | _ => false

namespace PhaseStep

variable {p p' : Phase} {c c' : Bool}

theorem cancelled (h : PhaseStep p c p' c') : c = true → c' = true := by
  cases h <;> simp

theorem stopped (h : PhaseStep p c p' c') (e : Option Err) :
    p' = .stopped e ↔ p = .stopped e := by
  cases h with
  | stopCron hp => rcases hp with rfl | rfl <;> simp
  | _ => simp

theorem created (h : PhaseStep p c p' c') : p' = .created → p = .created := by
  cases h <;> simp

theorem cancels (h : PhaseStep p c p' c') (hc : cancels p = true → c = true) :
    Scheduler.cancels p' = true → c' = true := by
  cases h with
  | same => exact hc
  | wait => exact fun _ => hc rfl
  | cancel => exact fun _ => rfl
  | _ => simp [Scheduler.cancels]

end PhaseStep

/-! ## What one step can do -/

/-- A step answers a call of a run, aborts the rows that are running, or leaves
    the rows alone. In the last case a goroutine may enter or leave `Execute`. -/
inductive RestStep (srv : SqlServer) (r : Runner S) (s s' : State side) : Prop
  | call (i : ℕ) (c : SysCall S) (k : c.Ans → Prog (sysSig S) (Option Err)) (o : Outcome)
      (ans : c.Ans) (before : s.rest i = some (.call (S := sysSig S) c k))
      (allowed : o.allowed c s.world.cancelled = true)
      (answer : World.answer srv side o c s.world = (ans, s'.world))
      (rest : s'.rest = Function.update s.rest i (some (k ans))) (phase : s'.phase = s.phase)
  | abort (reason : String) (o : Outcome) (rest : s'.rest = s.rest)
      (world : s'.world = abortRunningRuns reason o s.world)
      (phase : s.phase = .created ∧ s'.phase = .created ∨
        s.phase = .waited ∧ s'.phase = .stopped o.err)
  | quiet (store : s'.world.store = s.world.store)
      (cancelled : s.world.cancelled = true → s'.world.cancelled = true)
      (rest : ∀ {i p}, s'.rest i = some p →
        s.rest i = some p ∨ s.rest i = none ∧ ∃ ld, p = r.execute ld)
      (phase : ∀ e, s'.phase = .stopped e ↔ s.phase = .stopped e)

theorem rest_of_thread {i : ℕ} {t : Thread S} (ht : s.threads[i]? = some t) :
    s.rest i = t.rest := by
  rw [State.rest, view, ht, Option.bind_some]

/-- A step after which every goroutine is where it was in `Execute`. -/
theorem RestStep.same (hrest : s'.rest = s.rest) (hstore : s'.world.store = s.world.store)
    (hcan : s.world.cancelled = true → s'.world.cancelled = true)
    (hphase : ∀ e, s'.phase = .stopped e ↔ s.phase = .stopped e) : RestStep srv r s s' := by
  refine .quiet hstore hcan ?_ hphase
  intro i p hi
  rw [hrest] at hi
  exact .inl hi

/-- A goroutine moved and left `Execute`, entered it, or was not in it. -/
theorem RestStep.set {i : ℕ} {t t' : Thread S} (ht : s.threads[i]? = some t)
    (hthreads : s'.threads = s.threads.set i t')
    (hrest : t'.rest = none ∨ t.rest = none ∧ ∃ ld, t'.rest = some (r.execute ld))
    (hstore : s'.world.store = s.world.store) (hcan : s'.world.cancelled = s.world.cancelled)
    (hphase : s'.phase = s.phase) : RestStep srv r s s' := by
  refine .quiet hstore (fun h => hcan.trans h) ?_ (fun e => by rw [hphase])
  intro j p hj
  rw [State.rest, hthreads, view_set Thread.rest ht] at hj
  by_cases hji : j = i
  · rw [hji, Function.update_self] at hj
    rw [hji, rest_of_thread ht]
    rcases hrest with hnone | ⟨hbefore, ld, hld⟩
    · rw [hnone] at hj
      cases hj
    · rw [hld] at hj
      exact .inr ⟨hbefore, ld, (Option.some.inj hj).symm⟩
  · rw [Function.update_of_ne hji] at hj
    exact .inl hj

theorem step_rest (h : step srv r parses a s = some s') : RestStep srv r s s' := by
  cases step_cases h with
  | start i id x _ ht _ _ heq =>
    subst heq
    exact .set ht rfl (.inl rfl) rfl rfl rfl
  | move i t t' ht hthreads _ hrest _ hstore hcan hphase =>
    exact .set ht hthreads hrest hstore hcan hphase
  | call i id ld c k o ans ht hallowed hanswer hthreads _ hphase =>
    refine .call i c k o ans (rest_of_thread ht) hallowed hanswer ?_ hphase
    rw [State.rest, hthreads]
    exact view_set Thread.rest ht _
  | cleanup i id ld ht heq =>
    subst heq
    exact .set ht rfl (.inl rfl) rfl rfl rfl
  | spawn id _ heq =>
    subst heq
    exact .same (view_append Thread.rest s.threads rfl) rfl (fun h => h) fun _ => Iff.rfl
  | reload fp desired o _ _ hthreads hstore hcan hphase =>
    exact .same (by rw [State.rest, hthreads]; rfl) hstore (fun h => hcan.trans h)
      fun e => by rw [hphase]
  | abort reason o hworld hthreads _ hphase =>
    exact .abort reason o (by rw [State.rest, hthreads]; rfl) hworld hphase
  | phase hstep hthreads _ hstore =>
    exact .same (by rw [State.rest, hthreads]; rfl) hstore hstep.cancelled hstep.stopped

/-! ## Goroutines and phases -/

/-- Before cron has been started there is no goroutine, and from the cancel on
    the run context is cancelled. -/
structure PhaseOk (s : State side) : Prop where
  created : s.phase = .created → s.threads = []
  cancelled : cancels s.phase = true → s.world.cancelled = true

/-- A goroutine moved: there is one, so the scheduler has been started. -/
theorem PhaseOk.set (h : PhaseOk s) {i : ℕ} {t : Thread S} (ht : s.threads[i]? = some t)
    (hcan : s'.world.cancelled = s.world.cancelled) (hphase : s'.phase = s.phase) : PhaseOk s' := by
  refine ⟨fun hc => ?_, fun hc => ?_⟩
  · rw [hphase] at hc
    rw [h.created hc] at ht
    cases ht
  · rw [hphase] at hc
    rw [hcan, h.cancelled hc]

theorem phaseOk_step (h : PhaseOk s) (hs : step srv r parses a s = some s') : PhaseOk s' := by
  cases step_cases hs with
  | start i id x _ ht _ _ heq =>
    subst heq
    exact h.set ht rfl rfl
  | move i t t' ht _ _ _ _ _ hcan hphase => exact h.set ht hcan hphase
  | call i id ld c k o ans ht _ hanswer _ _ hphase =>
    have hcan : (World.answer srv side o c s.world).2.cancelled = s.world.cancelled :=
      World.cancelled_answer o c s.world
    rw [hanswer] at hcan
    exact h.set ht hcan hphase
  | cleanup i id ld ht heq =>
    subst heq
    exact h.set ht rfl rfl
  | spawn id hstarted heq =>
    subst heq
    refine ⟨fun hc => ?_, h.cancelled⟩
    rw [hstarted] at hc
    cases hc
  | reload fp desired o _ _ hthreads _ hcan hphase =>
    exact ⟨by rw [hthreads, hphase]; exact h.created, by rw [hcan, hphase]; exact h.cancelled⟩
  | abort reason o hworld hthreads _ hphase =>
    have hcan : s'.world.cancelled = s.world.cancelled := by
      rw [hworld, abortRunningRuns]
      split_ifs <;> rfl
    rcases hphase with ⟨hp, hp'⟩ | ⟨hp, hp'⟩
    · exact ⟨fun _ => by rw [hthreads, h.created hp], by simp [hp', cancels]⟩
    · exact ⟨by simp [hp'], fun _ => by rw [hcan, h.cancelled (by rw [hp]; rfl)]⟩
  | phase hstep hthreads _ _ =>
    exact ⟨fun hc => by rw [hthreads, h.created (hstep.created hc)], hstep.cancels h.cancelled⟩

/-! ## Who owns a row -/

/-- Goroutine `i` is inside `Execute` and has opened the row `k`. -/
def Owns (ph : ℕ → RunPhase) (s : State side) (i k : ℕ) : Prop :=
  s.rest i ≠ none ∧ ph i = .started k

/-- With `ph` as the phases of the runs, every run follows the protocol of its
    row, no two runs own the same row, and while the run context is not cancelled
    the rows that are owned have not ended. -/
structure OwnedBy (ph : ℕ → RunPhase) (s : State side) : Prop where
  keyed : s.world.store.Keyed
  follows : ∀ {i p}, s.rest i = some p → (runProtocol S).Follows p (fun _ _ => True) (ph i)
  distinct : ∀ {i j k}, Owns ph s i k → Owns ph s j k → i = j
  lt_next : ∀ {i k}, Owns ph s i k → k < s.world.store.nextRunID
  opened : s.world.cancelled = false → ∀ {i k}, Owns ph s i k → s.world.store.Open k

variable {ph : ℕ → RunPhase}

/-- The runs that a quiet step leaves inside `Execute` keep their phases, one
    that it starts has no row yet. -/
theorem OwnedBy.quiet (hk : r.sink.OnDb) (h : OwnedBy ph s)
    (hstore : s'.world.store = s.world.store)
    (hcan : s.world.cancelled = true → s'.world.cancelled = true)
    (hrest : ∀ {i p}, s'.rest i = some p →
      s.rest i = some p ∨ s.rest i = none ∧ ∃ ld, p = r.execute ld) :
    OwnedBy (fun i => if (s.rest i).isNone then .unstarted else ph i) s' := by
  have howns : ∀ {i k}, Owns (fun i => if (s.rest i).isNone then .unstarted else ph i) s' i k →
      Owns ph s i k := by
    rintro i k ⟨-, hi⟩
    dsimp only at hi
    split_ifs at hi with hnone
    exact ⟨fun hn => hnone (by rw [hn]; rfl), hi⟩
  refine ⟨by rw [hstore]; exact h.keyed, ?_, ?_, ?_, ?_⟩
  · intro i p hi
    rcases hrest hi with hp | ⟨hnone, ld, rfl⟩
    · simp only [hp, Option.isNone_some, Bool.false_eq_true, if_false]
      exact h.follows hp
    · simp only [hnone, Option.isNone_none, if_true]
      exact RunProtocol.execute_follows hk ld
  · exact fun hi hj => h.distinct (howns hi) (howns hj)
  · rw [hstore]
    exact fun hi => h.lt_next (howns hi)
  · intro hc i k hi
    have hc₀ : s.world.cancelled = false := by
      by_contra hne
      rw [hcan (by simpa using hne)] at hc
      cases hc
    rw [hstore]
    exact h.opened hc₀ (howns hi)

/-- A call of goroutine `i` took it to phase `q`. What is left to show is about
    the store: the row of `q` is new to the others, and the rows of the others
    are still open. -/
theorem OwnedBy.call (h : OwnedBy ph s) {i : ℕ} {p : Prog (sysSig S) (Option Err)} {q : RunPhase}
    (hrest : s'.rest = Function.update s.rest i (some p))
    (hfollows : (runProtocol S).Follows p (fun _ _ => True) q) (hkeyed : s'.world.store.Keyed)
    (hnext : s.world.store.nextRunID ≤ s'.world.store.nextRunID)
    (hnew : ∀ k, q = .started k → k < s'.world.store.nextRunID ∧
      (∀ j, j ≠ i → ¬Owns ph s j k) ∧ (s'.world.cancelled = false → s'.world.store.Open k))
    (hothers : s'.world.cancelled = false →
      ∀ j k, j ≠ i → Owns ph s j k → s'.world.store.Open k) :
    OwnedBy (Function.update ph i q) s' := by
  have howns : ∀ {j k}, Owns (Function.update ph i q) s' j k →
      j = i ∧ q = .started k ∨ j ≠ i ∧ Owns ph s j k := by
    rintro j k ⟨hj, hphase⟩
    by_cases hji : j = i
    · rw [hji, Function.update_self] at hphase
      exact .inl ⟨hji, hphase⟩
    · rw [Function.update_of_ne hji] at hphase
      rw [hrest, Function.update_of_ne hji] at hj
      exact .inr ⟨hji, hj, hphase⟩
  refine ⟨hkeyed, ?_, ?_, ?_, ?_⟩
  · intro j p' hj
    rw [hrest] at hj
    by_cases hji : j = i
    · rw [hji, Function.update_self] at hj ⊢
      rw [← Option.some.inj hj]
      exact hfollows
    · rw [Function.update_of_ne hji] at hj ⊢
      exact h.follows hj
  · intro j j' k hj hj'
    rcases howns hj with ⟨rfl, hq⟩ | ⟨hji, ho⟩
    · rcases howns hj' with ⟨rfl, -⟩ | ⟨hj'i, ho'⟩
      · rfl
      · exact absurd ho' ((hnew k hq).2.1 j' hj'i)
    · rcases howns hj' with ⟨rfl, hq⟩ | ⟨-, ho'⟩
      · exact absurd ho ((hnew k hq).2.1 j hji)
      · exact h.distinct ho ho'
  · intro j k hj
    rcases howns hj with ⟨-, hq⟩ | ⟨-, hj⟩
    · exact (hnew k hq).1
    · exact lt_of_lt_of_le (h.lt_next hj) hnext
  · intro hc j k hj
    rcases howns hj with ⟨-, hq⟩ | ⟨hji, hj⟩
    · exact (hnew k hq).2.2 hc
    · exact hothers hc j k hji hj

/-- A call that does not touch the rows. -/
theorem OwnedBy.offRuns (h : OwnedBy ph s) {i : ℕ} {p p' : Prog (sysSig S) (Option Err)}
    (hbefore : s.rest i = some p') (hrest : s'.rest = Function.update s.rest i (some p))
    (hfollows : (runProtocol S).Follows p (fun _ _ => True) (ph i))
    (hcan : s'.world.cancelled = s.world.cancelled)
    (hruns : s'.world.store.runs = s.world.store.runs)
    (hnext : s'.world.store.nextRunID = s.world.store.nextRunID) :
    OwnedBy (Function.update ph i (ph i)) s' := by
  have hopen : ∀ {k}, s.world.store.Open k → s'.world.store.Open k := by
    intro k hk
    unfold Store.Open
    rw [hruns]
    exact hk
  refine h.call hrest hfollows ⟨?_, ?_⟩ (le_of_eq hnext.symm) ?_ ?_
  · rw [hruns]
    exact h.keyed.nodup
  · rw [hruns, hnext]
    exact h.keyed.lt_next
  · intro k hq
    have howns : Owns ph s i k := ⟨by rw [hbefore]; simp, hq⟩
    refine ⟨by rw [hnext]; exact h.lt_next howns, fun j hji hj => hji (h.distinct hj howns), ?_⟩
    exact fun hc => hopen (h.opened (hcan ▸ hc) howns)
  · exact fun hc j k _ hj => hopen (h.opened (hcan ▸ hc) hj)

/-- `StartRun` takes a fresh key. -/
theorem OwnedBy.startRun (h : OwnedBy ph s) {i : ℕ} {p : Prog (sysSig S) (Option Err)}
    {q : RunPhase} (hrest : s'.rest = Function.update s.rest i (some p))
    (hfollows : (runProtocol S).Follows p (fun _ _ => True) q)
    (hq : q = .started s.world.store.nextRunID ∨ q = .closed)
    (hcan : s'.world.cancelled = s.world.cancelled) {loadID : Int} {v : String} {now : Time}
    (hstore : s'.world.store = s.world.store.startRun loadID v now) :
    OwnedBy (Function.update ph i q) s' := by
  refine h.call hrest hfollows ?_ ?_ ?_ ?_ <;> rw [hstore]
  · exact h.keyed.startRun loadID v now
  · exact Nat.le_succ _
  · intro k hk
    obtain rfl : s.world.store.nextRunID = k := by
      rcases hq with hq | hq
      · exact RunPhase.started.inj (hq.symm.trans hk)
      · rw [hq] at hk
        cases hk
    exact ⟨Nat.lt_succ_self _, fun j _ hj => Nat.lt_irrefl _ (h.lt_next hj),
      fun _ => h.keyed.open_next.startRun loadID v now⟩
  · exact fun hc j k _ hj => (h.opened (hcan ▸ hc) hj).startRun loadID v now

/-- `FinishRun` closes the row of its own run. -/
theorem OwnedBy.finishRun (h : OwnedBy ph s) {i : ℕ} {p : Prog (sysSig S) (Option Err)}
    {run row : LoadRun} (howns : Owns ph s i run.id)
    (hstore : s'.world.store = s.world.store.saveRun row) (hrow : row.id = run.id)
    (hrest : s'.rest = Function.update s.rest i (some p))
    (hfollows : (runProtocol S).Follows p (fun _ _ => True) .closed)
    (hcan : s'.world.cancelled = s.world.cancelled) :
    OwnedBy (Function.update ph i .closed) s' := by
  refine h.call hrest hfollows ?_ ?_ (fun k hk => by cases hk) ?_ <;> rw [hstore]
  · exact h.keyed.saveRun row
  · exact le_rfl
  · intro hc j k hji hj
    refine (h.opened (hcan ▸ hc) hj).saveRun ?_
    rintro rfl
    exact hji (h.distinct (hrow ▸ hj) howns)

/-- A call that fails without effect ends the run's part in its row. -/
theorem OwnedBy.noEffect (h : OwnedBy ph s) {i : ℕ} {p : Prog (sysSig S) (Option Err)}
    (hrest : s'.rest = Function.update s.rest i (some p))
    (hfollows : (runProtocol S).Follows p (fun _ _ => True) .closed)
    (hcan : s'.world.cancelled = s.world.cancelled) (hstore : s'.world.store = s.world.store) :
    OwnedBy (Function.update ph i .closed) s' := by
  refine h.call hrest hfollows ?_ ?_ (fun k hk => by cases hk) ?_ <;> rw [hstore]
  · exact h.keyed
  · exact fun hc j k _ hj => h.opened (hcan ▸ hc) hj

/-- Calls that the protocol does not speak about leave the rows alone. -/
theorem runs_answer_offRuns {c : SysCall S} (hc : c.offRuns) (o : Outcome) (w : World side) :
    (World.answer srv side o c w).2.store.runs = w.store.runs ∧
      (World.answer srv side o c w).2.store.nextRunID = w.store.nextRunID := by
  cases c with
  | store c =>
    cases c with
    | getWatermark id => exact ⟨rfl, rfl⟩
    | upsertWatermark id v =>
      change (if o.effective then _ else _ : Store).runs = _ ∧
        (if o.effective then _ else _ : Store).nextRunID = _
      split_ifs <;> exact ⟨rfl, rfl⟩
    | startRun id v => exact hc.elim
    | finishRun run status rr rw wm msg => exact hc.elim
  | _ => exact ⟨rfl, rfl⟩

/-- A store call under a cancelled context has no effect. -/
theorem effective_of_allowed {c : StoreCall} {o : Outcome} {cancelled : Bool}
    (h : o.allowed (S := S) (.store c) cancelled = true) (he : o.effective = true) :
    cancelled = false := by
  cases cancelled with
  | false => rfl
  | true => simp [Outcome.allowed, SysCall.takesContext, he] at h

/-- After a call of a run the rows are still owned, and no status that was final
    has changed. -/
theorem owned_call (h : OwnedBy ph s) {i : ℕ} {c : SysCall S}
    {k : c.Ans → Prog (sysSig S) (Option Err)} {o : Outcome} {ans : c.Ans}
    (hbefore : s.rest i = some (.call (S := sysSig S) c k))
    (hallowed : o.allowed c s.world.cancelled = true)
    (hanswer : World.answer srv side o c s.world = (ans, s'.world))
    (hrest : s'.rest = Function.update s.rest i (some (k ans))) :
    (∃ ph', OwnedBy ph' s') ∧ s.world.store.Final s'.world.store := by
  obtain ⟨hallows, hfollows⟩ := h.follows hbefore
  have hcan : (World.answer srv side o c s.world).2.cancelled = s.world.cancelled :=
    World.cancelled_answer o c s.world
  rw [hanswer] at hcan
  have hoff : c.offRuns → (∃ ph', OwnedBy ph' s') ∧ s.world.store.Final s'.world.store := by
    intro hc
    have hw : (World.answer srv side o c s.world).2.store.runs = s.world.store.runs ∧
        (World.answer srv side o c s.world).2.store.nextRunID = s.world.store.nextRunID :=
      runs_answer_offRuns hc o s.world
    rw [hanswer] at hw
    obtain ⟨hruns, hnext⟩ := hw
    have hq := (RunProtocol.offRuns_neutral c hc (ph i)).2 ans
    exact ⟨⟨_, h.offRuns hbefore hrest (hq ▸ hfollows ans) hcan hruns hnext⟩, .of_runs_eq hruns⟩
  cases c with
  | store c =>
    cases c with
    | getWatermark id => exact hoff trivial
    | upsertWatermark id v => exact hoff trivial
    | startRun id v =>
      cases o with
      | ok =>
        obtain ⟨rfl, hw⟩ := Prod.mk.inj hanswer
        have hstore := congrArg World.store hw.symm
        refine ⟨⟨_, h.startRun hrest (hfollows _) (.inl rfl) hcan hstore⟩, ?_⟩
        rw [hstore]
        exact Store.final_startRun _ _ _
      | fail msg d =>
        obtain ⟨rfl, hw⟩ := Prod.mk.inj hanswer
        have hstore : s'.world.store = if (Outcome.fail msg d).effective then
            s.world.store.startRun id v s.world.clock else s.world.store :=
          congrArg World.store hw.symm
        split_ifs at hstore
        · refine ⟨⟨_, h.startRun hrest (hfollows _) (.inr rfl) hcan hstore⟩, ?_⟩
          rw [hstore]
          exact Store.final_startRun _ _ _
        · refine ⟨⟨_, h.noEffect hrest (hfollows _) hcan hstore⟩, ?_⟩
          rw [hstore]
          exact .refl _
    | finishRun run status rr rw wm msg =>
      have hstore : s'.world.store = if o.effective then
          s.world.store.saveRun (Store.finished run status rr rw wm msg s.world.clock)
            else s.world.store :=
        (congrArg (fun x => x.2.store) hanswer).symm
      have howns : Owns ph s i run.id := ⟨by rw [hbefore]; simp, hallows.1⟩
      split_ifs at hstore with heff
      · -- the call has an effect, so the context is not cancelled and the row is open
        have hopen := h.opened (effective_of_allowed hallowed heff) howns
        refine ⟨⟨_, h.finishRun howns hstore rfl hrest (hfollows ans) hcan⟩, ?_⟩
        rw [hstore]
        exact Store.final_saveRun hopen
      · refine ⟨⟨_, h.noEffect hrest (hfollows ans) hcan hstore⟩, ?_⟩
        rw [hstore]
        exact .refl _
  | _ => exact hoff trivial

/-! ## All interleavings -/

/-- The rows after a call of `AbortRunningRuns`. -/
theorem store_abortRunningRuns (reason : String) (o : Outcome) (w : World side) :
    (abortRunningRuns reason o w).store = if o.effective then
      w.store.abortRunningRuns reason w.clock else w.store := by
  unfold abortRunningRuns
  split_ifs <;> rfl

theorem OwnedBy.abort (h : OwnedBy ph s) (hp : PhaseOk s) {reason : String} {o : Outcome}
    (hrest : s'.rest = s.rest) (hworld : s'.world = abortRunningRuns reason o s.world)
    (hphase : s.phase = .created ∨ s.phase = .waited) : OwnedBy ph s' := by
  have howns : ∀ {i k}, Owns ph s' i k → Owns ph s i k := by
    rintro i k ⟨hi, hk⟩
    exact ⟨hrest ▸ hi, hk⟩
  have hstore : s'.world.store = if o.effective then
      s.world.store.abortRunningRuns reason s.world.clock else s.world.store := by
    rw [hworld, store_abortRunningRuns]
  have hcan : s'.world.cancelled = s.world.cancelled := by
    rw [hworld, abortRunningRuns]
    split_ifs <;> rfl
  refine ⟨?_, by rw [hrest]; exact h.follows, fun hi hj => h.distinct (howns hi) (howns hj),
    ?_, ?_⟩
  · rw [hstore]
    split_ifs
    · exact h.keyed.abortRunningRuns reason s.world.clock
    · exact h.keyed
  · intro i k hi
    rw [hstore]
    split_ifs <;> exact h.lt_next (howns hi)
  · intro hc i k hi
    rcases hphase with hcreated | hwaited
    · -- no goroutine has been started
      refine absurd ?_ (howns hi).1
      simp [State.rest, view, hp.created hcreated]
    · rw [hcan, hp.cancelled (by rw [hwaited]; rfl)] at hc
      cases hc

/-- The invariant: the rows are owned, and once `Stop` has returned from a
    successful `AbortRunningRuns` every row has ended. -/
structure Inv (s : State side) : Prop where
  phase : PhaseOk s
  owned : ∃ ph, OwnedBy ph s
  ended : s.phase = .stopped none → ∀ row ∈ s.world.store.runs, row.status.terminal = true

/-- After `Stop` has returned no row changes any more. -/
theorem runs_after_stop {e : Option Err} (hp : PhaseOk s) (hstopped : s.phase = .stopped e)
    (hs : step srv r parses a s = some s') :
    s'.phase = .stopped e ∧ s'.world.store.runs = s.world.store.runs := by
  cases step_rest hs with
  | call i c k o ans _ hallowed hanswer _ hphase =>
    refine ⟨hphase.trans hstopped, ?_⟩
    have hcan : s.world.cancelled = true := hp.cancelled (by rw [hstopped]; rfl)
    have hw : s'.world = (World.answer srv side o c s.world).2 := by rw [hanswer]
    rw [hw]
    cases c with
    | store c =>
      have heff : ¬o.effective = true := by
        intro heff
        rw [effective_of_allowed hallowed heff] at hcan
        cases hcan
      cases c with
      | startRun id v =>
        change (if o.effective then _ else _ : Store).runs = _
        rw [if_neg heff]
      | finishRun run status rr rw wm msg =>
        change (if o.effective then _ else _ : Store).runs = _
        rw [if_neg heff]
      | _ => exact (runs_answer_offRuns (by trivial) o s.world).1
    | _ => exact (runs_answer_offRuns (by trivial) o s.world).1
  | abort reason o _ _ hphase =>
    rw [hstopped] at hphase
    rcases hphase with ⟨hc, -⟩ | ⟨hc, -⟩ <;> cases hc
  | quiet hstore _ _ hphase => exact ⟨(hphase e).2 hstopped, by rw [hstore]⟩

theorem inv_step (hk : r.sink.OnDb) (h : Inv s) (hs : step srv r parses a s = some s') :
    Inv s' ∧ s.world.store.Final s'.world.store := by
  obtain ⟨ph, hph⟩ := h.owned
  have hphase := phaseOk_step h.phase hs
  have hafter := fun hstopped => runs_after_stop h.phase (e := none) hstopped hs
  cases step_rest hs with
  | call i c k o ans hbefore hallowed hanswer hrest hp =>
    obtain ⟨howned, hfinal⟩ := owned_call hph hbefore hallowed hanswer hrest
    refine ⟨⟨hphase, howned, fun hstopped => ?_⟩, hfinal⟩
    rw [hp] at hstopped
    rw [(hafter hstopped).2]
    exact h.ended hstopped
  | abort reason o hrest hworld hp =>
    have hstore : s'.world.store = if o.effective then
        s.world.store.abortRunningRuns reason s.world.clock else s.world.store := by
      rw [hworld, store_abortRunningRuns]
    refine ⟨⟨hphase, ⟨ph, hph.abort h.phase hrest hworld (hp.imp And.left And.left)⟩, ?_⟩, ?_⟩
    · intro hstopped
      rcases hp with ⟨-, hp⟩ | ⟨-, hp⟩
      · rw [hp] at hstopped
        cases hstopped
      · -- `AbortRunningRuns` returned nil, so it had its effect
        rw [hp] at hstopped
        obtain rfl := Outcome.err_eq_none.1 (Phase.stopped.inj hstopped)
        rw [hstore]
        exact Store.terminal_abortRunningRuns reason s.world.clock
    · rw [hstore]
      split_ifs
      · exact Store.final_abortRunningRuns reason s.world.clock
      · exact .refl _
  | quiet hstore hcan hrest hp =>
    refine ⟨⟨hphase, ⟨_, hph.quiet hk hstore hcan hrest⟩, fun hstopped => ?_⟩, ?_⟩
    · rw [hstore]
      exact h.ended ((hp none).1 hstopped)
    · rw [hstore]
      exact .refl _

theorem inv_initial (h : Initial s) : Inv s where
  phase := ⟨fun _ => h.threads, by simp [h.phase, cancels]⟩
  owned := by
    have hrest : ∀ i, s.rest i = none := fun i => by simp [State.rest, view, h.threads]
    have hnone : ∀ {i k}, ¬Owns (fun _ => .closed) s i k := fun ho => ho.1 (hrest _)
    refine ⟨fun _ => .closed, ⟨h.keys, h.nextKey⟩, ?_, fun hi => (hnone hi).elim,
      fun hi => (hnone hi).elim, fun _ _ _ hi => (hnone hi).elim⟩
    intro i p hi
    rw [hrest i] at hi
    cases hi
  ended := by simp [h.phase]

/-- When `Stop` has returned from a successful `AbortRunningRuns`, every row has
    ended and no row changes afterwards; and over every run of the whole system a
    row that has ended keeps its status. -/
theorem stop_leaves_no_run_open [GoLib] (srv : SqlServer) (r : Runner S) (parses : String → Bool)
    (hsink : r.sink = Mssql.sink) (s₀ s : State side) (acts : List (Act side)) (h₀ : Initial s₀)
    (h : runs (step srv r parses) acts s₀ = some s) :
    (s.phase = .stopped none →
      (∀ row ∈ s.world.store.runs, row.status.terminal = true) ∧
      ∀ acts' s', runs (step srv r parses) acts' s = some s' →
        s'.world.store.runs = s.world.store.runs) ∧
    ∀ acts' s', runs (step srv r parses) acts' s = some s' →
      (s'.world.store.runs.map (·.id)).Nodup ∧ s.world.store.Final s'.world.store := by
  have hk : r.sink.OnDb := hsink ▸ Mssql.sink_onDb
  have hinv : Inv s := runs_inv (fun hi hs => (inv_step hk hi hs).1) (inv_initial h₀) h
  refine ⟨fun hstopped => ⟨hinv.ended hstopped, fun acts' s' h' => ?_⟩, fun acts' s' h' => ⟨?_, ?_⟩⟩
  · have hrel : s.phase = .stopped none →
        s'.phase = .stopped none ∧ s'.world.store.runs = s.world.store.runs := by
      refine runs_rel (I := Inv) (P := fun _ => True)
        (R := fun t t' => t.phase = .stopped none →
          t'.phase = .stopped none ∧ t'.world.store.runs = t.world.store.runs)
        (fun hi hs => (inv_step hk hi hs).1) (fun _ hp => ⟨hp, rfl⟩) ?_ ?_
        (fun _ _ => trivial) hinv h'
      · intro t₁ t₂ t₃ h₁ h₂ hp
        obtain ⟨hp₂, hr₂⟩ := h₁ hp
        obtain ⟨hp₃, hr₃⟩ := h₂ hp₂
        exact ⟨hp₃, hr₃.trans hr₂⟩
      · exact fun _ hi hs hp => runs_after_stop hi.phase hp hs
    exact (hrel hstopped).2
  · obtain ⟨ph, hph⟩ := (runs_inv (fun hi hs => (inv_step hk hi hs).1) hinv h').owned
    exact hph.keyed.nodup
  · exact runs_rel (I := Inv) (P := fun _ => True)
      (R := fun t t' => t.world.store.Final t'.world.store)
      (fun hi hs => (inv_step hk hi hs).1) (fun _ => .refl _) .trans
      (fun _ hi hs => (inv_step hk hi hs).2) (fun _ _ => trivial) hinv h'

section

attribute [local instance] GoLib.ascii

/-- A run has created its row when `Stop` cancels it, and the wait times out. -/
def stoppedRun : List (Act plainSide) :=
  firedTimes 1 ++ [.enter 0, .execute 0] ++ List.replicate 3 (.answer 0 .ok) ++
    [.stopCron, .cancel, .wait true, .abortRuns .ok]

theorem stoppedRun_leaves_no_run_open :
    ∃ s, runs (step ⟨"wh", "dbo"⟩ oneRowRunner acceptsNotBad) stoppedRun idleState = some s ∧
      s.world.store.runs.map (·.status) = [.aborted] ∧
      ∀ row ∈ s.world.store.runs, row.status.terminal = true := by
  have heval : (runs (step ⟨"wh", "dbo"⟩ oneRowRunner acceptsNotBad) stoppedRun idleState).map
      (fun s => (s.phase, s.world.store.runs.map (·.status))) =
        some (.stopped none, [.aborted]) := by
    decide +kernel
  obtain ⟨s, hs, hend⟩ := Option.map_eq_some_iff.1 heval
  obtain ⟨hphase, hruns⟩ := Prod.mk.inj hend
  have h := stop_leaves_no_run_open _ _ _ rfl idleState s stoppedRun initial_idleState hs
  exact ⟨s, hs, hruns, (h.1 hphase).1⟩

end

end Scheduler

end DataLoader
