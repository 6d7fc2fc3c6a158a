import Mathlib.Logic.Function.Basic
import Mathlib.Tactic.Common

/-!
# Numbered threads

The threads of a system as a list, seen through a function that shows what
matters of each. A step of one thread changes what is seen at one number.
-/

namespace DataLoader.Effects

variable {T β : Type} (f : T → Option β)

/-- What `f` shows of the thread number `i`. -/
def slot (ts : List T) (i : ℕ) : Option β := ts[i]?.bind f

variable {f} {ts : List T} {i : ℕ} {t : T}

theorem slot_of_getElem? (h : ts[i]? = some t) : slot f ts i = f t := by
  rw [slot, h, Option.bind_some]

theorem slot_set (h : ts[i]? = some t) (t' : T) :
    slot f (ts.set i t') = Function.update (slot f ts) i (f t') := by
  obtain ⟨hi, -⟩ := List.getElem?_eq_some_iff.1 h
  funext j
  by_cases hj : j = i
  · subst hj
    simp [slot, hi]
  · rw [Function.update_of_ne hj, slot, slot, List.getElem?_set_ne (Ne.symm hj)]

/-- A step of a thread that `f` does not show. -/
theorem slot_set_of_eq (h : ts[i]? = some t) {t' : T} (ht : f t' = f t) :
    slot f (ts.set i t') = slot f ts := by
  rw [slot_set h, ht]
  exact Function.update_eq_self_iff.2 (slot_of_getElem? h).symm

/-- A new thread of which `f` shows nothing. -/
theorem slot_append (ht : f t = none) : slot f (ts ++ [t]) = slot f ts := by
  funext j
  unfold slot
  by_cases hj : j < ts.length
  · rw [List.getElem?_append_left hj]
  · rw [List.getElem?_append_right (by omega), List.getElem?_eq_none (l := ts) (by omega)]
    by_cases hz : j - ts.length = 0
    · simp [hz, ht]
    · simp [hz]

end DataLoader.Effects
