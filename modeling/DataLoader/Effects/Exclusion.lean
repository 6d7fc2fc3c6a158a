import Mathlib.Logic.Function.Basic
import Mathlib.Tactic.Common

/-!
# Mutual exclusion by key

Parties `ι` hold keys `K`, and a table marks the keys that are held. Taking a key
that is not marked and giving a key back keep the table exact: no key has two
holders and a key is marked exactly while it has one.
-/

namespace DataLoader.Effects

variable {ι K : Type}

/-- No key has two holders, and the marked keys are the ones with a holder. -/
structure Excludes (holds : ι → Option K) (marked : K → Bool) : Prop where
  single : ∀ {i j k}, holds i = some k → holds j = some k → i = j
  marked : ∀ {k}, marked k = true ↔ ∃ i, holds i = some k

namespace Excludes

theorem none : Excludes (fun _ : ι => (Option.none : Option K)) fun _ => false :=
  ⟨by simp, by simp⟩

variable {holds : ι → Option K} {marked : K → Bool} {i : ι} {k : K}

theorem ne_of_free (h : Excludes holds marked) (hfree : marked k = false) (j : ι) :
    holds j ≠ some k := by
  intro hj
  have hm := h.marked.2 ⟨j, hj⟩
  rw [hfree] at hm
  cases hm

variable [DecidableEq ι] [DecidableEq K]

/-- A party that holds nothing takes a key that is free. -/
theorem take (h : Excludes holds marked) (hidle : holds i = Option.none)
    (hfree : marked k = false) :
    Excludes (Function.update holds i (some k)) (Function.update marked k true) := by
  have hholds : ∀ {j k'}, Function.update holds i (some k) j = some k' ↔
      (j = i ∧ k' = k) ∨ (j ≠ i ∧ holds j = some k') := by
    intro j k'
    by_cases hj : j = i
    · subst hj
      simp [eq_comm]
    · simp [hj]
  constructor
  · intro j l k' hj hl
    rcases hholds.1 hj with ⟨rfl, rfl⟩ | ⟨-, hj'⟩
    · rcases hholds.1 hl with ⟨rfl, -⟩ | ⟨-, hl'⟩
      · rfl
      · exact absurd hl' (h.ne_of_free hfree l)
    · rcases hholds.1 hl with ⟨-, rfl⟩ | ⟨-, hl'⟩
      · exact absurd hj' (h.ne_of_free hfree j)
      · exact h.single hj' hl'
  · intro k'
    by_cases hk : k' = k
    · subst hk
      rw [Function.update_self]
      exact ⟨fun _ => ⟨i, hholds.2 (.inl ⟨rfl, rfl⟩)⟩, fun _ => rfl⟩
    · rw [Function.update_of_ne hk, h.marked]
      refine exists_congr fun j => ?_
      rw [hholds]
      constructor
      · intro hj
        refine .inr ⟨?_, hj⟩
        rintro rfl
        rw [hidle] at hj
        cases hj
      · rintro (⟨-, heq⟩ | ⟨-, hj⟩)
        · exact absurd heq hk
        · exact hj

/-- A party gives its key back. -/
theorem drop (h : Excludes holds marked) (hheld : holds i = some k) :
    Excludes (Function.update holds i Option.none) (Function.update marked k false) := by
  have hholds : ∀ {j k'}, Function.update holds i Option.none j = some k' ↔
      j ≠ i ∧ holds j = some k' := by
    intro j k'
    by_cases hj : j = i
    · subst hj
      simp
    · simp [hj]
  constructor
  · intro j l k' hj hl
    exact h.single (hholds.1 hj).2 (hholds.1 hl).2
  · intro k'
    by_cases hk : k' = k
    · subst hk
      rw [Function.update_self]
      refine ⟨fun hf => (Bool.false_ne_true hf).elim, ?_⟩
      rintro ⟨j, hj⟩
      obtain ⟨hne, hj⟩ := hholds.1 hj
      exact absurd (h.single hj hheld) hne
    · rw [Function.update_of_ne hk, h.marked]
      refine exists_congr fun j => ?_
      rw [hholds]
      constructor
      · intro hj
        refine ⟨?_, hj⟩
        rintro rfl
        rw [hheld] at hj
        exact hk (Option.some.inj hj).symm
      · exact fun hj => hj.2

/-- A party hands its key to one that holds nothing. -/
theorem move (h : Excludes holds marked) (hheld : holds i = some k) {j : ι} (hij : j ≠ i)
    (hidle : holds j = Option.none) :
    Excludes (Function.update (Function.update holds i Option.none) j (some k)) marked := by
  have hj : Function.update holds i Option.none j = Option.none := by
    rw [Function.update_of_ne hij, hidle]
  have hmoved := (h.drop hheld).take hj (Function.update_self k false marked)
  have hmark : Function.update marked k true = marked :=
    Function.update_eq_self_iff.2 (h.marked.2 ⟨i, hheld⟩).symm
  rw [Function.update_idem, hmark] at hmoved
  exact hmoved

end Excludes

end DataLoader.Effects
