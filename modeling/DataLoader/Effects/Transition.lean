import Mathlib.Tactic.Common

/-!
# Transition systems

A transition system is a function `step` from an action and a state to the next
state, `none` where the action is not enabled. `runs` performs a list of actions
one after another; which action comes next is the schedule, so a concurrent
system is covered by quantifying over the list.

* `runs_inv`: what every step keeps holds in every state reached.
* `runs_rel`: a preorder that every step respects relates the two ends of a run.
* `guarded`: the system restricted to the steps that meet a condition.
-/

namespace DataLoader.Effects

variable {A W : Type} {step : A → W → Option W}

/-- A run: one action after another. -/
def runs (step : A → W → Option W) : List A → W → Option W
  | [], w => some w
  | a :: as, w => (step a w).bind (runs step as)

@[simp] theorem runs_nil (w : W) : runs step [] w = some w := rfl

theorem runs_cons_eq_some {a : A} {as : List A} {w w' : W} :
    runs step (a :: as) w = some w' ↔ ∃ w₁, step a w = some w₁ ∧ runs step as w₁ = some w' :=
  Option.bind_eq_some_iff

/-- The invariant rule for a run whose actions satisfy `P`. -/
theorem runs_inv_of {I : W → Prop} {P : A → Prop}
    (hstep : ∀ {a w w'}, P a → I w → step a w = some w' → I w') {as : List A} (hP : ∀ a ∈ as, P a)
    {w w' : W} (h : I w) (hr : runs step as w = some w') : I w' := by
  induction as generalizing w with
  | nil =>
    obtain rfl := Option.some.inj hr
    exact h
  | cons a as ih =>
    obtain ⟨w₁, hs, hr⟩ := runs_cons_eq_some.1 hr
    exact ih (fun b hb => hP b (List.mem_cons_of_mem _ hb)) (hstep (hP a List.mem_cons_self) h hs) hr

/-- The invariant rule. -/
theorem runs_inv {I : W → Prop} (hstep : ∀ {a w w'}, I w → step a w = some w' → I w')
    {as : List A} {w w' : W} (h : I w) (hr : runs step as w = some w') : I w' :=
  runs_inv_of (P := fun _ => True) (fun _ h hs => hstep h hs) (fun _ _ => trivial) h hr

/-- The rule for a preorder that every step from an invariant state respects;
    `P` restricts the actions of the run. -/
theorem runs_rel {I : W → Prop} {R : W → W → Prop} {P : A → Prop}
    (hinv : ∀ {a w w'}, I w → step a w = some w' → I w') (hrefl : ∀ w, R w w)
    (htrans : ∀ {w₁ w₂ w₃}, R w₁ w₂ → R w₂ w₃ → R w₁ w₃)
    (hstep : ∀ {a w w'}, P a → I w → step a w = some w' → R w w') {as : List A}
    (hP : ∀ a ∈ as, P a) {w w' : W} (h : I w) (hr : runs step as w = some w') : R w w' := by
  induction as generalizing w with
  | nil =>
    obtain rfl := Option.some.inj hr
    exact hrefl w
  | cons a as ih =>
    obtain ⟨w₁, hs, hr⟩ := runs_cons_eq_some.1 hr
    have hrest := ih (fun b hb => hP b (List.mem_cons_of_mem _ hb)) (hinv h hs) hr
    exact htrans (hstep (hP a List.mem_cons_self) h hs) hrest

/-- The system that only takes the steps that meet `ok`. Its runs are the runs in
    which every step meets the condition. -/
def guarded (ok : A → W → Bool) (step : A → W → Option W) (a : A) (w : W) : Option W :=
  if ok a w then step a w else none

theorem guarded_eq_some {ok : A → W → Bool} {a : A} {w w' : W} :
    guarded ok step a w = some w' ↔ ok a w = true ∧ step a w = some w' := by
  unfold guarded
  split_ifs with hok <;> simp [hok]

theorem runs_of_guarded {ok : A → W → Bool} {as : List A} {w w' : W}
    (h : runs (guarded ok step) as w = some w') : runs step as w = some w' := by
  induction as generalizing w with
  | nil => exact h
  | cons a as ih =>
    obtain ⟨w₁, hs, hr⟩ := runs_cons_eq_some.1 h
    exact runs_cons_eq_some.2 ⟨w₁, (guarded_eq_some.1 hs).2, ih hr⟩

end DataLoader.Effects
