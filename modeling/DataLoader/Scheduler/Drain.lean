import DataLoader.Scheduler.System

/-!
# Draining on shutdown

`Stop` waits for the wait group and returns after `AbortRunningRuns`. A goroutine
of `trigger` counts in the wait group from `wg.Add(1)` on, which comes after the
guard, and cron does not wait for the goroutines that it has started.

* `ThreadStep`, `step_threads`: what one step does to the goroutines and to the
  wait group.
* `Balanced`: the wait group counts the goroutines between `wg.Add` and `wg.Done`.
* `drainable`: no goroutine slips between the guard and the wait group while
  `Stop` is about to return.
-/

namespace DataLoader

open Effects

variable {S : Sig}

/-- Between `wg.Add(1)` and `wg.Done()`. -/
def Thread.registered : Thread S → Bool
  | .executing .. | .returned .. | .cleaned _ => true
  | _ => false

/-- Before the guard, or ended. -/
def Thread.out : Thread S → Bool
  | .spawned _ | .finished => true
  | _ => false

/-- Past the guard and before `wg.Add(1)`. -/
def Thread.unregistered : Thread S → Bool
  | .guarded .. => true
  | _ => false

namespace Scheduler

variable {side : SourceSide S} {srv : SqlServer} {r : Runner S} {parses : String → Bool}
  {a : Act side} {s s' : State side}

/-- The guard lets no run of the load start. -/
def turnsAway (s : State side) (id : Int) : Bool :=
  match s.sched.scheduled.lookup id with
  | none => true
  | some _ => s.sched.running id

/-- When the wait ends because the wait group is at zero, no goroutine stands
    between the guard and `wg.Add(1)`, and from then on until `Stop` has returned
    none passes the guard. -/
def drainable : Act side → State side → Bool
  | .wait false, s => s.threads.all fun t => !t.unregistered
  | .enter i, s =>
    match s.phase, s.threads[i]? with
    | .waited, some (.spawned id) => turnsAway s id
    | _, _ => true
  | _, _ => true

/-! ## Goroutines and the wait group -/

/-- What a step does to the goroutines and to the wait group. -/
inductive ThreadStep (a : Act side) (s s' : State side) : Prop
  /-- The wait of `Stop` ends in this case only. -/
  | quiet (threads : s'.threads = s.threads) (wg : s'.wg = s.wg)
      (phase : s'.phase = .waited →
        s.phase = .waited ∨ ∃ timeout, a = .wait timeout ∧ (timeout = true ∨ s.wg = 0))
  | spawn (id : Int) (started : s.phase = .started) (threads : s'.threads = s.threads ++ [.spawned id])
      (wg : s'.wg = s.wg) (phase : s'.phase = s.phase)
  | turnedAway (i : ℕ) (id : Int) (thread : s.threads[i]? = some (.spawned id))
      (threads : s'.threads = s.threads.set i .finished) (wg : s'.wg = s.wg)
      (phase : s'.phase = s.phase)
  | admitted (i : ℕ) (id : Int) (ld : Load) (act : a = .enter i)
      (thread : s.threads[i]? = some (.spawned id)) (passes : turnsAway s id = false)
      (threads : s'.threads = s.threads.set i (.guarded id ld)) (wg : s'.wg = s.wg)
      (phase : s'.phase = s.phase)
  /-- `wg.Add(1)`. -/
  | add (i : ℕ) (t t' : Thread S) (thread : s.threads[i]? = some t) (old : t.unregistered = true)
      (new : t'.registered = true) (threads : s'.threads = s.threads.set i t')
      (wg : s'.wg = s.wg + 1) (phase : s'.phase = s.phase)
  | inside (i : ℕ) (t t' : Thread S) (thread : s.threads[i]? = some t) (old : t.registered = true)
      (new : t'.registered = true) (threads : s'.threads = s.threads.set i t')
      (wg : s'.wg = s.wg) (phase : s'.phase = s.phase)
  /-- `wg.Done()`. -/
  | done (i : ℕ) (t : Thread S) (thread : s.threads[i]? = some t) (old : t.registered = true)
      (threads : s'.threads = s.threads.set i .finished) (wg : s'.wg = s.wg - 1)
      (phase : s'.phase = s.phase)

theorem enter_threads {i : ℕ} {id : Int} (ht : s.threads[i]? = some (.spawned id)) :
    ThreadStep (.enter i) s (enter s i id) := by
  unfold enter
  split
  next => exact .turnedAway i id ht rfl rfl rfl
  next x hx =>
    split_ifs with hrun
    · exact .turnedAway i id ht rfl rfl rfl
    · refine .admitted i id x.load rfl ht ?_ rfl rfl rfl
      simpa [turnsAway, hx] using hrun

theorem step_threads (h : step srv r parses a s = some s') : ThreadStep a s s' := by
  cases a with
  | enter i =>
    simp only [step] at h
    split at h
    next id ht =>
      obtain rfl := Option.some.inj h
      exact enter_threads ht
    next => cases h
  | execute i =>
    simp only [step] at h
    split at h
    next id ld ht =>
      obtain rfl := Option.some.inj h
      exact .add i _ _ ht rfl rfl rfl rfl rfl
    next => cases h
  | answer i o =>
    simp only [step] at h
    split at h
    next id ld c k ht =>
      obtain ⟨rw, -, rfl⟩ := Option.map_eq_some_iff.1 h
      exact .inside i _ _ ht rfl rfl rfl rfl rfl
    next => cases h
  | ret i =>
    simp only [step] at h
    split at h
    next id ld e ht =>
      obtain rfl := Option.some.inj h
      exact .inside i _ _ ht rfl rfl rfl rfl rfl
    next => cases h
  | cleanup i =>
    simp only [step] at h
    split at h
    next id ld ht =>
      obtain rfl := Option.some.inj h
      exact .inside i _ _ ht rfl rfl rfl rfl rfl
    next => cases h
  | wgDone i =>
    simp only [step] at h
    split at h
    next id ht =>
      obtain rfl := Option.some.inj h
      exact .done i _ ht rfl rfl rfl rfl
    next => cases h
  | fire e =>
    simp only [step, Option.ite_none_right_eq_some, Option.some.injEq] at h
    obtain ⟨⟨hp, -⟩, rfl⟩ := h
    exact .spawn e.loadID hp rfl rfl rfl
  | reload fp desired o =>
    obtain ⟨sched, -, rfl⟩ := Option.map_eq_some_iff.1 h
    exact .quiet rfl rfl .inl
  | change c =>
    obtain ⟨src, -, rfl⟩ := Option.map_eq_some_iff.1 h
    exact .quiet rfl rfl .inl
  | clock d =>
    obtain rfl := Option.some.inj h
    exact .quiet rfl rfl .inl
  | abortOrphans o =>
    simp only [step, Option.ite_none_right_eq_some, Option.some.injEq] at h
    obtain ⟨-, rfl⟩ := h
    exact .quiet rfl rfl .inl
  | wait timeout =>
    simp only [step, Option.ite_none_right_eq_some, Option.some.injEq] at h
    obtain ⟨⟨-, hw⟩, rfl⟩ := h
    exact .quiet rfl rfl fun _ => .inr ⟨timeout, rfl, hw⟩
  | _ =>
    simp only [step, Option.ite_none_right_eq_some, Option.some.injEq] at h
    obtain ⟨-, rfl⟩ := h
    exact .quiet rfl rfl fun hp => by cases hp

/-- The wait group counts the goroutines between `wg.Add` and `wg.Done`. -/
def Balanced (s : State side) : Prop := s.wg = s.threads.countP Thread.registered

theorem countP_set_of_eq {ts : List (Thread S)} {i : ℕ} {t : Thread S} (t' : Thread S)
    (ht : ts[i]? = some t) (heq : t'.registered = t.registered) :
    (ts.set i t').countP Thread.registered = ts.countP Thread.registered := by
  obtain ⟨hi, rfl⟩ := List.getElem?_eq_some_iff.1 ht
  rw [List.countP_set hi, heq]
  split_ifs with hreg
  · have hpos := List.countP_pos_iff.2 ⟨_, List.getElem_mem hi, hreg⟩
    omega
  · omega

theorem balanced_step (hb : Balanced s) (h : step srv r parses a s = some s') : Balanced s' := by
  unfold Balanced at hb ⊢
  cases step_threads h with
  | quiet threads wg phase => rw [threads, wg, hb]
  | spawn id started threads wg phase => rw [threads, wg, hb, List.countP_append]; rfl
  | turnedAway i id thread threads wg phase => rw [threads, wg, hb, countP_set_of_eq .finished thread rfl]
  | admitted i id ld act thread passes threads wg phase =>
    rw [threads, wg, hb, countP_set_of_eq (.guarded id ld) thread rfl]
  | inside i t t' thread old new threads wg phase =>
    rw [threads, wg, hb, countP_set_of_eq _ thread (by rw [old, new])]
  | add i t t' thread old new threads wg phase =>
    obtain ⟨hi, rfl⟩ := List.getElem?_eq_some_iff.1 thread
    have hold : s.threads[i].registered = false := by
      cases ht : s.threads[i] <;> rw [ht] at old <;> first | rfl | cases old
    rw [threads, wg, hb, List.countP_set hi, hold, new]
    simp
  | done i t thread old threads wg phase =>
    obtain ⟨hi, rfl⟩ := List.getElem?_eq_some_iff.1 thread
    have hnew : (Thread.finished : Thread S).registered = false := rfl
    rw [threads, wg, hb, List.countP_set hi, old, hnew]
    simp

/-! ## The end of `Stop` -/

/-- Once `Stop` has stopped waiting, no goroutine is between the guard and
    `wg.Done()`. -/
def Drained (s : State side) : Prop := s.phase = .waited → ∀ t ∈ s.threads, t.out = true

theorem out_of_unregistered {t : Thread S} (hreg : t.registered = false)
    (hun : t.unregistered = false) : t.out = true := by
  cases t with
  | spawned | finished => rfl
  | guarded => cases hun
  | executing | returned | cleaned => cases hreg

/-- The wait ends at zero. -/
theorem drained_wait (hb : Balanced s) (hok : drainable (.wait false) s = true) (hwg : s.wg = 0) :
    ∀ t ∈ s.threads, t.out = true := by
  intro t ht
  refine out_of_unregistered ?_ ?_
  · unfold Balanced at hb
    rw [hwg] at hb
    have hnone := List.countP_eq_zero.1 hb.symm t ht
    simpa using hnone
  · simpa using List.all_eq_true.1 hok t ht

/-- A change of a goroutine that ends it, or that no goroutine which is out makes. -/
theorem out_set {i : ℕ} {t t' : Thread S} {ts : List (Thread S)} (hout : ∀ x ∈ ts, x.out = true)
    (hnew : t'.out = true ∨ ts[i]? = some t ∧ t.out = false) : ∀ x ∈ ts.set i t', x.out = true := by
  intro x hx
  rcases List.mem_or_eq_of_mem_set hx with hmem | rfl
  · exact hout x hmem
  · rcases hnew with hnew | ⟨ht, hold⟩
    · exact hnew
    · have htrue := hout t (List.mem_of_getElem? ht)
      rw [hold] at htrue
      cases htrue

/-- While `Stop` is about to return, no goroutine gets past the guard. -/
theorem drained_waited (hphase : s.phase = .waited) (hout : ∀ t ∈ s.threads, t.out = true)
    (hok : drainable a s = true) (h : step srv r parses a s = some s') :
    ∀ t ∈ s'.threads, t.out = true := by
  cases step_threads h with
  | quiet threads wg phase =>
    rw [threads]
    exact hout
  | spawn id started threads wg phase =>
    rw [hphase] at started
    cases started
  | turnedAway i id thread threads wg phase =>
    rw [threads]
    exact out_set (t := .finished) hout (.inl rfl)
  | admitted i id ld act thread passes threads wg phase =>
    subst act
    simp only [drainable, hphase, thread] at hok
    rw [passes] at hok
    cases hok
  | add i t t' thread old new threads wg phase =>
    rw [threads]
    refine out_set hout (.inr ⟨thread, ?_⟩)
    cases t <;> first | rfl | cases old
  | inside i t t' thread old new threads wg phase =>
    rw [threads]
    refine out_set hout (.inr ⟨thread, ?_⟩)
    cases t <;> first | rfl | cases old
  | done i t thread old threads wg phase =>
    rw [threads]
    exact out_set (t := .finished) hout (.inl rfl)

theorem drained_step (hb : Balanced s) (hd : Drained s) (hok : drainable a s = true)
    (hwait : a ≠ .wait true) (h : step srv r parses a s = some s') : Drained s' := by
  intro hphase
  by_cases hwaited : s.phase = .waited
  · exact drained_waited hwaited (hd hwaited) hok h
  · cases step_threads h with
    | quiet threads wg phase =>
      rcases phase hphase with hp | ⟨timeout, rfl, hzero⟩
      · exact absurd hp hwaited
      · cases timeout with
        | true => exact absurd rfl hwait
        | false =>
          rw [threads]
          exact drained_wait hb hok (by simpa using hzero)
    | spawn id started threads wg phase => exact absurd (phase.symm.trans hphase) hwaited
    | turnedAway i id thread threads wg phase => exact absurd (phase.symm.trans hphase) hwaited
    | admitted i id ld act thread passes threads wg phase =>
      exact absurd (phase.symm.trans hphase) hwaited
    | add i t t' thread old new threads wg phase => exact absurd (phase.symm.trans hphase) hwaited
    | inside i t t' thread old new threads wg phase => exact absurd (phase.symm.trans hphase) hwaited
    | done i t thread old threads wg phase => exact absurd (phase.symm.trans hphase) hwaited

theorem drained_runs {acts : List (Act side)} (hwait : ∀ a ∈ acts, a ≠ .wait true)
    (hb : Balanced s) (hd : Drained s)
    (hr : runs (guarded drainable (step srv r parses)) acts s = some s') : Drained s' := by
  induction acts generalizing s with
  | nil =>
    obtain rfl := Option.some.inj hr
    exact hd
  | cons a acts ih =>
    obtain ⟨s₁, hs, hr⟩ := runs_cons_eq_some.1 hr
    obtain ⟨hok, hs⟩ := guarded_eq_some.1 hs
    have hd₁ := drained_step hb hd hok (hwait a List.mem_cons_self) hs
    exact ih (fun b hmem => hwait b (List.mem_cons_of_mem _ hmem)) (balanced_step hb hs) hd₁ hr

/-- If the wait of `Stop` ends because the wait group is at zero, then no run is in
    flight when `Stop` returns, in every run of the system that is drainable. -/
theorem stop_drains (srv : SqlServer) (r : Runner S) (parses : String → Bool)
    (s₀ s s' : State side) (acts : List (Act side)) (o : Outcome) (h₀ : Initial s₀)
    (hwg : s₀.wg = 0) (hr : runs (guarded drainable (step srv r parses)) acts s₀ = some s)
    (hwait : ∀ a ∈ acts, a ≠ .wait true)
    (hstop : step srv r parses (.abortRuns o) s = some s') :
    ∀ t ∈ s'.threads, t.flight = none := by
  have hb : Balanced s₀ := by
    rw [Balanced, hwg, h₀.threads]
    rfl
  have hd : Drained s₀ := by
    intro hp
    rw [h₀.phase] at hp
    cases hp
  simp only [step, Option.ite_none_right_eq_some, Option.some.injEq] at hstop
  obtain ⟨hphase, rfl⟩ := hstop
  intro t ht
  have hout := drained_runs hwait hb hd hr hphase t ht
  cases t <;> first | rfl | cases hout

section

attribute [local instance] GoLib.ascii

/-- `Stop` up to the end of its wait, which ends at zero. -/
def stopAtZero : List (Act plainSide) := [.stopCron, .cancel, .wait false]

/-- Cron fires once, and the goroutine has ended before `Stop` waits. -/
def endedBeforeStop : List (Act plainSide) :=
  firedTimes 1 ++ [.enter 0, .stopCron, .cancel, .execute 0, .answer 0 .ok,
    .answer 0 (.fail "context canceled" 0), .answer 0 .ok, .ret 0, .cleanup 0, .wgDone 0,
    .wait false]

theorem endedBeforeStop_drains :
    ∃ s s', runs (guarded drainable (step ⟨"wh", "dbo"⟩ oneRowRunner acceptsNotBad))
        endedBeforeStop idleState = some s ∧
      step ⟨"wh", "dbo"⟩ oneRowRunner acceptsNotBad (.abortRuns .ok) s = some s' ∧
      ∀ t ∈ s'.threads, t.flight = none := by
  have heval : ((runs (guarded drainable (step ⟨"wh", "dbo"⟩ oneRowRunner acceptsNotBad))
      endedBeforeStop idleState).map fun s =>
        (step ⟨"wh", "dbo"⟩ oneRowRunner acceptsNotBad (.abortRuns .ok) s).isSome) =
      some true := by decide +kernel
  obtain ⟨s, hs, hsome⟩ := Option.map_eq_some_iff.1 heval
  obtain ⟨s', hs'⟩ := Option.isSome_iff_exists.1 hsome
  refine ⟨s, s', hs, hs', stop_drains _ _ _ idleState s s' endedBeforeStop .ok initial_idleState rfl
    hs ?_ hs'⟩
  simp [endedBeforeStop, firedTimes]

/-- Cron fires once and the goroutine passes the guard. Before it gets to
    `wg.Add(1)`, `Stop` finds the wait group at zero and returns. -/
theorem stop_overtakes_trigger :
    ∃ s, runs (step ⟨"wh", "dbo"⟩ oneRowRunner acceptsNotBad)
        (firedTimes 1 ++ [.enter 0] ++ stopAtZero ++ [.abortRuns .ok]) idleState = some s ∧
      s.phase = .stopped none ∧ s.flight 0 = some (1, loadAt 1 "0 2 * * *") ∧
      s.threads.any Thread.unregistered = true := by
  have heval : ((runs (step ⟨"wh", "dbo"⟩ oneRowRunner acceptsNotBad)
      (firedTimes 1 ++ [.enter 0] ++ stopAtZero ++ [.abortRuns .ok]) idleState).map fun s =>
        (s.phase, s.flight 0, s.threads.any Thread.unregistered)) =
      some (.stopped none, some (1, loadAt 1 "0 2 * * *"), true) := by decide +kernel
  obtain ⟨s, hs, heq⟩ := Option.map_eq_some_iff.1 heval
  obtain ⟨hphase, heq⟩ := Prod.mk.inj heq
  obtain ⟨hflight, hany⟩ := Prod.mk.inj heq
  exact ⟨s, hs, hphase, hflight, hany⟩

end

end Scheduler

end DataLoader
