import DataLoader.Effects.Exclusion
import DataLoader.Scheduler.System

/-!
# No overlapping and no unscheduled runs

What holds of the runs in flight over every interleaving of cron jobs, reloads
and completions. A run starts where `trigger` passes its guard, which reads the
map and sets `running[id]` in one locked section.

* `NoOverlap`, `noOverlap_step`: at most one run of a load is in flight, and
  `running` marks exactly the loads with one.
* `started_of_flight`: every run in flight was started with the load that the
  map held at that moment.
* `noneStarts_runs`: without a reload that brings a load back, no run of it starts.
-/

namespace DataLoader

open Effects

namespace Scheduler

variable {S : Sig} {side : SourceSide S} {srv : SqlServer} {r : Runner S} {parses : String → Bool}
  {a : Act side} {s s' : State side}

/-! ## `Reload` leaves the running loads alone -/

theorem running_removeStale (desired : AList fun _ : Int => Load) (ids : List Int)
    (s : Scheduler) : (removeStale desired ids s).running = s.running := by
  induction ids generalizing s with
  | nil => rfl
  | cons id ids ih =>
    rw [removeStale]
    split <;> rw [ih]

theorem running_upsert (parses : String → Bool) (s : Scheduler) (ld : Load) :
    (s.upsert parses ld).running = s.running := by
  unfold upsert
  split
  · split_ifs
    · dsimp only
      split <;> rfl
    · rfl
  · split <;> rfl

theorem running_applyReload {parses : String → Bool} {fp : String} {desired : List Load}
    {o : Orders} {s s' : Scheduler} (h : s.applyReload parses fp desired o = some s') :
    s'.running = s.running := by
  have hfold : ∀ (order : List Load) (t : Scheduler),
      (order.foldl (upsert parses) t).running = t.running := by
    intro order
    induction order with
    | nil => exact fun t => rfl
    | cons ld order ih => exact fun t => (ih _).trans (running_upsert parses t ld)
  unfold applyReload at h
  simp only [Option.ite_none_right_eq_some, Option.some.injEq] at h
  obtain ⟨-, rfl⟩ := h
  exact (hfold _ _).trans (running_removeStale _ _ _)

/-! ## What a step does to the runs in flight -/

/-- A step starts a run, ends one, or leaves them, also while `Reload` changes
    the map. -/
inductive FlightStep (parses : String → Bool) (a : Act side) (s s' : State side) : Prop
  | keep (flight : s'.flight = s.flight) (running : s'.sched.running = s.sched.running)
      (scheduled : s'.sched.scheduled = s.sched.scheduled)
  | reload (fp : String) (desired : List Load) (o : Orders) (act : a = .reload fp desired o)
      (applied : s.sched.applyReload parses fp desired o = some s'.sched)
      (flight : s'.flight = s.flight)
  | start (i : ℕ) (id : Int) (x : ScheduledLoad) (act : a = .enter i) (idle : s.flight i = none)
      (free : s.sched.running id = false) (held : s.sched.scheduled.lookup id = some x)
      (flight : s'.flight = Function.update s.flight i (some (id, x.load)))
      (running : s'.sched.running = Function.update s.sched.running id true)
      (scheduled : s'.sched.scheduled = s.sched.scheduled)
  | finish (i : ℕ) (id : Int) (ld : Load) (inFlight : s.flight i = some (id, ld))
      (flight : s'.flight = Function.update s.flight i none)
      (running : s'.sched.running = Function.update s.sched.running id false)
      (scheduled : s'.sched.scheduled = s.sched.scheduled)

/-- A goroutine moved and its run in flight is the same. -/
theorem FlightStep.set {i : ℕ} {t t' : Thread S} (ht : s.threads[i]? = some t)
    (hthreads : s'.threads = s.threads.set i t') (hf : t'.flight = t.flight)
    (hsched : s'.sched = s.sched) : FlightStep parses a s s' := by
  refine .keep ?_ (by rw [hsched]) (by rw [hsched])
  unfold State.flight
  rw [hthreads]
  exact view_set_of_eq Thread.flight ht hf

theorem flight_of_thread {i : ℕ} {t : Thread S} (ht : s.threads[i]? = some t) :
    s.flight i = t.flight := by
  rw [State.flight, view, ht, Option.bind_some]

theorem step_flight (h : step srv r parses a s = some s') : FlightStep parses a s s' := by
  cases step_cases h with
  | start i id x hact ht hfree hheld heq =>
    subst heq
    exact .start i id x hact (flight_of_thread ht) hfree hheld (view_set Thread.flight ht _) rfl rfl
  | move i t t' ht hthreads hf _ hsched => exact .set ht hthreads hf hsched
  | call i id ld c k o ans ht _ _ hthreads hsched => exact .set ht hthreads rfl hsched
  | cleanup i id ld ht heq =>
    subst heq
    exact .finish i id ld (flight_of_thread ht) (view_set Thread.flight ht _) rfl rfl
  | spawn id _ heq =>
    subst heq
    exact .keep (view_append Thread.flight s.threads rfl) rfl rfl
  | reload fp desired o hact happ hthreads =>
    exact .reload fp desired o hact happ (by rw [State.flight, hthreads]; rfl)
  | abort reason o _ hthreads hsched =>
    exact .keep (by rw [State.flight, hthreads]; rfl) (by rw [hsched]) (by rw [hsched])
  | phase _ hthreads hsched =>
    exact .keep (by rw [State.flight, hthreads]; rfl) (by rw [hsched]) (by rw [hsched])

/-! ## Exclusion -/

/-- The load that goroutine `i` has in flight. -/
def State.inFlight (s : State side) (i : ℕ) : Option Int := (s.flight i).map Prod.fst

/-- At most one run of each load is in flight, and `running` is set for exactly
    the loads that have one. -/
def NoOverlap (s : State side) : Prop := Excludes s.inFlight s.sched.running

theorem flight_initial (h : Initial s) (i : ℕ) : s.flight i = none := by
  simp [State.flight, view, h.threads]

theorem noOverlap_initial (h : Initial s) : NoOverlap s := by
  have hf : s.inFlight = fun _ => none := by
    funext i
    simp [State.inFlight, flight_initial h]
  unfold NoOverlap
  rw [hf, h.sched]
  exact Excludes.none

theorem inFlight_congr (h : s'.flight = s.flight) : s'.inFlight = s.inFlight := by
  funext i
  rw [State.inFlight, State.inFlight, h]

theorem inFlight_update {i : ℕ} {x : Option (Int × Load)}
    (h : s'.flight = Function.update s.flight i x) :
    s'.inFlight = Function.update s.inFlight i (x.map Prod.fst) := by
  funext j
  by_cases hj : j = i
  · subst hj
    simp [State.inFlight, h]
  · simp [State.inFlight, h, Function.update_of_ne hj]

theorem noOverlap_step (h : NoOverlap s) (hs : step srv r parses a s = some s') : NoOverlap s' := by
  unfold NoOverlap
  cases step_flight hs with
  | keep hf hr _ =>
    rw [inFlight_congr hf, hr]
    exact h
  | reload fp desired o _ happ hf =>
    rw [inFlight_congr hf, running_applyReload happ]
    exact h
  | start i id x _ hidle hfree _ hf hr _ =>
    rw [inFlight_update hf, hr]
    exact Excludes.take h (by rw [State.inFlight, hidle]; rfl) hfree
  | finish i id ld hin hf hr _ =>
    rw [inFlight_update hf, hr]
    exact Excludes.drop h (by rw [State.inFlight, hin]; rfl)

/-! ## Where a run in flight comes from -/

/-- In the run `acts` from `s₀` to `s`, goroutine `i` passed the guard while the
    map held `ld` for `id`. -/
def StartedFromMap (srv : SqlServer) (r : Runner S) (parses : String → Bool)
    (acts : List (Act side)) (s₀ s : State side) (i : ℕ) (id : Int) (ld : Load) : Prop :=
  ∃ acts₁ acts₂ s₁ s₂, acts = acts₁ ++ .enter i :: acts₂ ∧
    runs (step srv r parses) acts₁ s₀ = some s₁ ∧
    step srv r parses (.enter i) s₁ = some s₂ ∧
    runs (step srv r parses) acts₂ s₂ = some s ∧
    s₁.flight i = none ∧ s₂.flight i = some (id, ld) ∧
    (s₁.sched.scheduled.lookup id).map (·.load) = some ld

theorem started_of_flight {acts : List (Act side)} {s₀ : State side}
    (h : runs (step srv r parses) acts s₀ = some s) {i : ℕ} {id : Int} {ld : Load}
    (hf : s.flight i = some (id, ld)) :
    s₀.flight i = some (id, ld) ∨ StartedFromMap srv r parses acts s₀ s i id ld := by
  induction acts generalizing s₀ with
  | nil =>
    obtain rfl := Option.some.inj h
    exact .inl hf
  | cons a acts ih =>
    obtain ⟨s₁, hs, hr⟩ := runs_cons_eq_some.1 h
    rcases ih hr with hf₁ | ⟨acts₁, acts₂, t₁, t₂, rfl, h₁, hrest⟩
    · cases step_flight hs with
      | keep hflight _ _ => exact .inl (by rw [← hflight, hf₁])
      | reload _ _ _ _ _ hflight => exact .inl (by rw [← hflight, hf₁])
      | start j id' x hact hidle _ hheld hflight _ _ =>
        by_cases hij : i = j
        · subst hij
          have heq := hf₁
          rw [hflight, Function.update_self] at heq
          obtain ⟨rfl, rfl⟩ := Prod.mk.inj (Option.some.inj heq)
          subst hact
          exact .inr ⟨[], acts, s₀, s₁, rfl, rfl, hs, hr, hidle, hf₁, by rw [hheld]; rfl⟩
        · rw [hflight, Function.update_of_ne hij] at hf₁
          exact .inl hf₁
      | finish j id' ld' _ hflight _ _ =>
        rw [hflight] at hf₁
        have hij : i ≠ j := by rintro rfl; simp at hf₁
        rw [Function.update_of_ne hij] at hf₁
        exact .inl hf₁
    · exact .inr ⟨a :: acts₁, acts₂, t₁, t₂, rfl, runs_cons_eq_some.2 ⟨s₁, hs, h₁⟩, hrest⟩

/-! ## A load that is not in the map -/

theorem mem_of_desiredByID {desired : List Load} {ld : Load}
    (h : ld ∈ (desiredByID desired).entries.map (·.2)) : ld ∈ desired := by
  have hfold : ∀ (ds : List Load) (m : AList fun _ : Int => Load) (id : Int),
      (ds.foldl (fun m ld => m.insert ld.id ld) m).lookup id = some ld →
        ld ∈ ds ∨ m.lookup id = some ld := by
    intro ds
    induction ds with
    | nil => exact fun m id hl => .inr hl
    | cons d ds ih =>
      intro m id hl
      rcases ih _ _ hl with hmem | hl
      · exact .inl (List.mem_cons_of_mem _ hmem)
      · by_cases hid : id = d.id
        · rw [hid, AList.lookup_insert] at hl
          exact .inl (by rw [← Option.some.inj hl]; exact List.mem_cons_self)
        · rw [AList.lookup_insert_ne hid] at hl
          exact .inr hl
  obtain ⟨e, he, rfl⟩ := List.mem_map.1 h
  rcases hfold desired ∅ e.1 (AList.mem_lookup_iff.2 he) with hmem | hl
  · exact hmem
  · simp at hl

theorem absent_removeStale {id : Int} (desired : AList fun _ : Int => Load) (ids : List Int)
    {t : Scheduler} (h : t.scheduled.lookup id = none) :
    (removeStale desired ids t).scheduled.lookup id = none := by
  induction ids generalizing t with
  | nil => exact h
  | cons i ids ih =>
    rw [removeStale]
    split
    next x hx _ =>
      apply ih
      have hid : id ≠ i := by
        rintro rfl
        rw [h] at hx
        cases hx
      rw [AList.lookup_erase_ne hid, h]
    next => exact ih h

theorem absent_upsert {id : Int} {ld : Load} (hid : id ≠ ld.id) {t : Scheduler}
    (h : t.scheduled.lookup id = none) : (t.upsert parses ld).scheduled.lookup id = none := by
  unfold upsert
  split
  · split_ifs
    · dsimp only
      split
      · exact h
      · rw [AList.lookup_insert_ne hid, h]
    · rw [AList.lookup_insert_ne hid, h]
  · split
    · exact h
    · rw [AList.lookup_insert_ne hid, h]

/-- A reload does not bring back a load that its snapshot does not have. -/
theorem absent_applyReload {id : Int} {fp : String} {desired : List Load} {o : Orders}
    {t t' : Scheduler} (h : t.scheduled.lookup id = none) (hd : ∀ ld ∈ desired, ld.id ≠ id)
    (hr : t.applyReload parses fp desired o = some t') : t'.scheduled.lookup id = none := by
  have hfold : ∀ (order : List Load), (∀ ld ∈ order, ld.id ≠ id) → ∀ t : Scheduler,
      t.scheduled.lookup id = none →
        (order.foldl (upsert parses) t).scheduled.lookup id = none := by
    intro order
    induction order with
    | nil => exact fun _ t ht => ht
    | cons ld order ih =>
      intro hne t ht
      exact ih (fun l hl => hne l (List.mem_cons_of_mem _ hl)) _
        (absent_upsert (hne ld List.mem_cons_self).symm ht)
  unfold applyReload at hr
  simp only [Bool.and_eq_true, List.isPerm_iff, Option.ite_none_right_eq_some, Option.some.injEq]
    at hr
  obtain ⟨⟨-, hperm⟩, rfl⟩ := hr
  refine hfold o.desired (fun ld hld => ?_) _ (absent_removeStale _ _ h)
  exact hd ld (mem_of_desiredByID (hperm.mem_iff.1 hld))

/-- The action does not bring the load `id` into the map. -/
def LeavesOut (id : Int) : Act side → Prop
  | .reload _ desired _ => ∀ ld ∈ desired, ld.id ≠ id
  | _ => True

/-- From a state without the load, no run of it starts. -/
def NoneStarts (id : Int) (s s' : State side) : Prop :=
  s.sched.scheduled.lookup id = none → s'.sched.scheduled.lookup id = none ∧
    ∀ i ld, s'.flight i = some (id, ld) → s.flight i = some (id, ld)

theorem noneStarts_step {id : Int} (ha : LeavesOut id a)
    (hs : step srv r parses a s = some s') : NoneStarts id s s' := by
  intro habs
  cases step_flight hs with
  | keep hf _ hsched => exact ⟨by rw [hsched, habs], by rw [hf]; exact fun _ _ h => h⟩
  | reload fp desired o hact happ hf =>
    subst hact
    exact ⟨absent_applyReload habs ha happ, by rw [hf]; exact fun _ _ h => h⟩
  | start j id' x _ _ _ hheld hf _ hsched =>
    refine ⟨by rw [hsched, habs], fun i ld hi => ?_⟩
    rw [hf] at hi
    by_cases hij : i = j
    · rw [hij, Function.update_self] at hi
      obtain ⟨rfl, -⟩ := Prod.mk.inj (Option.some.inj hi)
      rw [habs] at hheld
      cases hheld
    · rwa [Function.update_of_ne hij] at hi
  | finish j id' ld' _ hf _ hsched =>
    refine ⟨by rw [hsched, habs], fun i ld hi => ?_⟩
    rw [hf] at hi
    by_cases hij : i = j
    · rw [hij, Function.update_self] at hi
      cases hi
    · rwa [Function.update_of_ne hij] at hi

theorem noneStarts_runs {id : Int} {acts : List (Act side)} (ha : ∀ a ∈ acts, LeavesOut id a)
    (h : runs (step srv r parses) acts s = some s') : NoneStarts id s s' := by
  refine runs_rel (I := fun _ => True) (R := NoneStarts id) (P := LeavesOut id)
    (fun _ _ => trivial) (fun _ hn => ⟨hn, fun _ _ h => h⟩) ?_ ?_ ha trivial h
  · intro s₁ s₂ s₃ h₁ h₂ hn
    obtain ⟨hn₂, hf₂⟩ := h₁ hn
    obtain ⟨hn₃, hf₃⟩ := h₂ hn₂
    exact ⟨hn₃, fun i ld hi => hf₂ i ld (hf₃ i ld hi)⟩
  · exact fun hP _ hs => noneStarts_step hP hs

/-- `Execute` is called with the load that the goroutine has in flight. -/
theorem rest_execute {i : ℕ} (h : step srv r parses (.execute i) s = some s') :
    ∃ id ld, s.flight i = some (id, ld) ∧ s'.rest i = some (r.execute ld) := by
  simp only [step] at h
  split at h
  next id ld ht =>
    obtain rfl := Option.some.inj h
    refine ⟨id, ld, by simp [State.flight, view, ht, Thread.flight], ?_⟩
    rw [State.rest, view_set Thread.rest ht, Function.update_self]
    rfl
  next => cases h

/-! ## All interleavings -/

/-- In every state that any interleaving reaches, no two runs of a load are in
    flight and `running` marks exactly the loads with one; every run in flight
    was started with the load that the map held when the guard was passed, and
    `Execute` is called with that load; and from a state in which the map does
    not have a load, no run of it starts before a reload brings it back. -/
theorem trigger_never_overlaps (srv : SqlServer) (r : Runner S) (parses : String → Bool)
    (s₀ s : State side) (acts : List (Act side)) (h₀ : Initial s₀)
    (h : runs (step srv r parses) acts s₀ = some s) :
    NoOverlap s ∧
    (∀ i id ld, s.flight i = some (id, ld) → StartedFromMap srv r parses acts s₀ s i id ld) ∧
    (∀ i s', step srv r parses (.execute i) s = some s' →
      ∃ id ld, s.flight i = some (id, ld) ∧ s'.rest i = some (r.execute ld)) ∧
    ∀ id acts' s', (∀ a ∈ acts', LeavesOut id a) →
      runs (step srv r parses) acts' s = some s' → NoneStarts id s s' := by
  refine ⟨runs_inv noOverlap_step (noOverlap_initial h₀) h, ?_, ?_, ?_⟩
  · intro i id ld hf
    rcases started_of_flight h hf with hf₀ | hstart
    · rw [flight_initial h₀ i] at hf₀
      cases hf₀
    · exact hstart
  · exact fun i s' hs => rest_execute hs
  · exact fun id acts' s' ha hr => noneStarts_runs ha hr

section

attribute [local instance] GoLib.ascii

/-- Cron fires twice and both goroutines reach the guard. -/
def twoTicks : List (Act plainSide) := firedTimes 2 ++ [.enter 0, .enter 1, .execute 0]

/-- The second goroutine is turned away while the first one executes. -/
theorem twoTicks_never_overlap :
    ∃ s, runs (step ⟨"wh", "dbo"⟩ oneRowRunner acceptsNotBad) twoTicks idleState = some s ∧
      s.flight 0 = some (1, loadAt 1 "0 2 * * *") ∧ s.flight 1 = none ∧ NoOverlap s ∧
      StartedFromMap ⟨"wh", "dbo"⟩ oneRowRunner acceptsNotBad twoTicks idleState s 0 1
        (loadAt 1 "0 2 * * *") := by
  have heval : (runs (step ⟨"wh", "dbo"⟩ oneRowRunner acceptsNotBad) twoTicks idleState).map
      (fun s => (s.flight 0, s.flight 1)) = some (some (1, loadAt 1 "0 2 * * *"), none) := by
    decide +kernel
  obtain ⟨s, hs, hflight⟩ := Option.map_eq_some_iff.1 heval
  obtain ⟨h₀, h₁⟩ := Prod.mk.inj hflight
  have h := trigger_never_overlaps _ _ _ idleState s twoTicks initial_idleState hs
  exact ⟨s, hs, h₀, h₁, h.1, h.2.1 0 1 _ h₀⟩

/-- The goroutine has passed the guard and left the lock when a reload removes its load. -/
def removedInBetween : List (Act plainSide) := firedTimes 1 ++ [.enter 0, .reload "b" [] ⟨[1], []⟩]

/-- `Execute` starts for a load that is not in the map. -/
theorem removed_load_executes :
    ∃ s s', runs (step ⟨"wh", "dbo"⟩ oneRowRunner acceptsNotBad) removedInBetween idleState = some s ∧
      s.sched.scheduled.lookup 1 = none ∧
      step ⟨"wh", "dbo"⟩ oneRowRunner acceptsNotBad (.execute 0) s = some s' ∧
      s'.rest 0 = some (oneRowRunner.execute (loadAt 1 "0 2 * * *")) := by
  have heval : (runs (step ⟨"wh", "dbo"⟩ oneRowRunner acceptsNotBad) removedInBetween idleState).map
      (fun s => (s.flight 0, (s.sched.scheduled.lookup 1).isNone,
        (step ⟨"wh", "dbo"⟩ oneRowRunner acceptsNotBad (.execute 0) s).isSome)) =
      some (some (1, loadAt 1 "0 2 * * *"), true, true) := by decide +kernel
  obtain ⟨s, hs, hstate⟩ := Option.map_eq_some_iff.1 heval
  simp only [Prod.mk.injEq] at hstate
  obtain ⟨hflight, hnone, hstep⟩ := hstate
  obtain ⟨s', hs'⟩ := Option.isSome_iff_exists.1 hstep
  obtain ⟨id, ld, hld, hrest⟩ := rest_execute hs'
  obtain ⟨rfl, rfl⟩ := Prod.mk.inj (Option.some.inj (hflight.symm.trans hld))
  exact ⟨s, s', hs, Option.isNone_iff_eq_none.1 hnone, hs', hrest⟩

end

end Scheduler

end DataLoader
