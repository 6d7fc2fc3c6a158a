import DataLoader.Effects.Runs

/-!
# Moments of a run

`M.steps es p w` are the calls that the program `p` makes under the schedule `es`, each with the
state in which it was answered. A timeline is a history that keeps them.

* `map_steps`: the calls are those of the log.
* `Ran`: the record of one run as it was executed.
* `timeline_runHistory`: without the steps a timeline is the history of the same events.
* `timeline_inv`: the rule of timelines, with a run as it is executed.
-/

namespace DataLoader.Effects.Machine

variable {S : Sig} {W α ι : Type}

def steps (M : Machine S W) : List M.Event → Prog S α → W → List (W × Entry S M.Out)
  | .env e :: es, .call c k, w => ((M.env e w).map fun w' => steps M es (.call c k) w').getD []
  | .answer o :: es, .call c k, w =>
    ((M.answer c o w).map fun rw => (w, ⟨c, o, rw.1⟩) :: steps M es (k rw.1) rw.2).getD []
  | _, _, _ => []

/-- One run of a program with its calls. -/
structure TimedRun (M : Machine S W) (α : Type) extends Run W α where
  steps : List (W × Entry S M.Out)

variable {M : Machine S W} {w w' : W}

namespace TimedRun

def log (x : TimedRun M α) : List (Entry S M.Out) := x.steps.map (·.2)

/-- The states in which the run began and its calls were answered. -/
def moments (x : TimedRun M α) : List W := x.before :: x.steps.map (·.1)

end TimedRun

def timeline (M : Machine S W) (prog : ι → Prog S α) :
    List (M.HEvent ι) → W → Option (List (TimedRun M α) × W)
  | [], w => some ([], w)
  | .env e :: hs, w => (M.env e w).bind (timeline M prog hs)
  | .run i es :: hs, w =>
    (M.exec es (prog i) w).bind fun aw =>
      (timeline M prog hs aw.2).map fun rs =>
        (⟨⟨w, aw.1, aw.2⟩, M.steps es (prog i) w⟩ :: rs.1, rs.2)

theorem map_steps (es : List M.Event) (p : Prog S α) (w : W) :
    (M.steps es p w).map (·.2) = M.log es p w := by
  induction es generalizing p w with
  | nil => rfl
  | cons e es ih =>
    cases p with
    | ret a => cases e <;> rfl
    | call c k =>
      cases e with
      | env e =>
        cases he : M.env e w with
        | none => simp [steps, log, he]
        | some w₁ => simp [steps, log, he, ih]
      | answer o =>
        cases ha : M.answer c o w with
        | none => simp [steps, log, ha]
        | some rw => simp [steps, log, ha, ih]

theorem answer_of_mem_steps {es : List M.Event} {p : Prog S α} {v : W} {x : Entry S M.Out}
    (h : (v, x) ∈ M.steps es p w) : ∃ v', M.answer x.call x.out v = some (x.ans, v') := by
  induction es generalizing p w with
  | nil => cases h
  | cons e es ih =>
    cases p with
    | ret a => cases e <;> cases h
    | call c k =>
      cases e with
      | env e =>
        cases he : M.env e w with
        | none => simp [steps, he] at h
        | some w₁ => exact ih (by simpa [steps, he] using h)
      | answer o =>
        cases ha : M.answer c o w with
        | none => simp [steps, ha] at h
        | some rw =>
          simp only [steps, ha, Option.map_some, Option.getD_some, List.mem_cons] at h
          rcases h with heq | h
          · obtain ⟨rfl, rfl⟩ := Prod.mk.inj heq
            exact ⟨rw.2, ha⟩
          · exact ih h

/-- The record of a run of `p`. -/
def Ran (p : Prog S α) (x : TimedRun M α) : Prop :=
  ∃ es, M.exec es p x.before = some (x.result, x.after) ∧ x.steps = M.steps es p x.before

namespace Ran

variable {p : Prog S α} {x : TimedRun M α}

theorem runs (h : Ran p x) : M.Runs p x.before x.log x.result x.after := by
  obtain ⟨es, hx, hsteps⟩ := h
  rw [TimedRun.log, hsteps, map_steps]
  exact .of_exec hx

/-- Every call in the log was answered at a moment of the run. -/
theorem moment (h : Ran p x) {e : Entry S M.Out} (he : e ∈ x.log) :
    ∃ v ∈ x.moments, ∃ v', M.answer e.call e.out v = some (e.ans, v') := by
  obtain ⟨es, -, hsteps⟩ := h
  obtain ⟨⟨v, e⟩, hmem, rfl⟩ := List.mem_map.1 he
  refine ⟨v, List.mem_cons_of_mem _ (List.mem_map.2 ⟨_, hmem, rfl⟩), ?_⟩
  rw [hsteps] at hmem
  exact answer_of_mem_steps hmem

end Ran

theorem timeline_runHistory (prog : ι → Prog S α) (hs : List (M.HEvent ι)) (w : W) :
    (M.timeline prog hs w).map (fun rs => (rs.1.map (·.toRun), rs.2)) = M.runHistory prog hs w := by
  induction hs generalizing w with
  | nil => rfl
  | cons e hs ih =>
    cases e with
    | env e =>
      cases he : M.env e w with
      | none => simp [timeline, runHistory, he]
      | some w₁ => simpa [timeline, runHistory, he] using ih w₁
    | run i es =>
      cases hx : M.exec es (prog i) w with
      | none => simp [timeline, runHistory, hx]
      | some aw =>
        simp only [timeline, runHistory, hx, Option.bind_some, ← ih, Option.map_map]
        rfl

/-- `I l w` is an invariant of the records `l` of the runs so far and of the state `w`. -/
theorem timeline_inv {prog : ι → Prog S α} {I : List (TimedRun M α) → W → Prop}
    (henv : ∀ {l w e w'}, I l w → M.env e w = some w' → I l w')
    (hrun : ∀ {l i} {x : TimedRun M α}, I l x.before → Ran (prog i) x → I (l ++ [x]) x.after)
    {hs : List (M.HEvent ι)} {rs l : List (TimedRun M α)} (h : I l w)
    (hx : M.timeline prog hs w = some (rs, w')) : I (l ++ rs) w' := by
  induction hs generalizing w rs l with
  | nil =>
    simp only [timeline, Option.some.injEq, Prod.mk.injEq] at hx
    obtain ⟨rfl, rfl⟩ := hx
    simpa using h
  | cons e hs ih =>
    cases e with
    | env e =>
      simp only [timeline, Option.bind_eq_some_iff] at hx
      obtain ⟨w₁, he, hx⟩ := hx
      exact ih (henv h he) hx
    | run i es =>
      simp only [timeline, Option.bind_eq_some_iff, Option.map_eq_some_iff, Prod.exists,
        Prod.mk.injEq] at hx
      obtain ⟨a, w₁, hx₁, rs', w₂, hx, rfl, rfl⟩ := hx
      have hstep := hrun (x := ⟨⟨w, a, w₁⟩, M.steps es (prog i) w⟩) h ⟨es, hx₁, rfl⟩
      simpa using ih hstep hx

end DataLoader.Effects.Machine
