import Mathlib.Data.List.MinMax
import Mathlib.Data.List.Perm.Basic
import Mathlib.Order.Lattice

/-!
# Tailing a log by its keys

A log is a list of entries, each with an optional key from a linear order. A
reader tails it with a cursor `v`: it takes the greatest key `u` in the log, reads
the entries with keys in `(v, u]` and moves the cursor to `u`. The log may grow at
any moment, as long as each new entry has a key above all keys before it.

* `Grows.between_eq`: entries added later have no key at or below a visible one.
* `Tailed.advance`: what has been read up to the old cursor and what is read
  now are together what is due up to the new one.
-/

namespace DataLoader.Feed

open scoped List

variable {R V : Type} [LinearOrder V] (key : R → Option V)

/-- The keys of a log. -/
abbrev keys (log : List R) : List V := log.filterMap key

/-- The greatest key of a log. -/
def top (log : List R) : Option V := (keys key log).max?

/-- Whether an entry has a key above `lo` and at most `up`. -/
def inRange (lo up : V) (r : R) : Bool := (key r).any fun x => decide (lo < x ∧ x ≤ up)

/-- The entries with keys above `lo` and at most `up`. -/
def between (lo up : V) (log : List R) : List R := log.filter (inRange key lo up)

/-- The log has been extended by entries with keys above all that were there. -/
def Grows (log log' : List R) : Prop :=
  ∃ added, log' = log ++ added ∧ ∀ r ∈ added, ∃ y, key r = some y ∧ ∀ x ∈ keys key log, x < y

/-- A cursor `v` that began at `lo`: it has not moved, or stands at a key of the
    log. -/
structure Tailed (lo v : V) (log : List R) : Prop where
  le : lo ≤ v
  visible : lo = v ∨ v ∈ keys key log

variable {key}

theorem mem_of_top {log : List R} {u : V} (h : top key log = some u) : u ∈ keys key log :=
  (List.max?_eq_some_iff.1 h).1

theorem le_of_top {log : List R} {u x : V} (h : top key log = some u) (hx : x ∈ keys key log) :
    x ≤ u :=
  (List.max?_eq_some_iff.1 h).2 x hx

@[simp] theorem inRange_iff {lo up : V} {r : R} :
    inRange key lo up r = true ↔ ∃ x, key r = some x ∧ lo < x ∧ x ≤ up := by
  cases h : key r <;> simp [inRange, h]

theorem mem_between {lo up : V} {log : List R} {r : R} :
    r ∈ between key lo up log ↔ r ∈ log ∧ ∃ x, key r = some x ∧ lo < x ∧ x ≤ up := by
  simp [between]

theorem between_append (lo up : V) (log log' : List R) :
    between key lo up (log ++ log') = between key lo up log ++ between key lo up log' :=
  List.filter_append ..

theorem between_eq_nil {lo up : V} (h : up ≤ lo) (log : List R) : between key lo up log = [] := by
  refine List.filter_eq_nil_iff.2 fun r _ hr => ?_
  obtain ⟨x, -, hlo, hup⟩ := inRange_iff.1 hr
  exact absurd (hlo.trans_le hup) (not_lt.2 h)

/-- Without keys no range has entries. -/
theorem between_of_top_none {log : List R} (h : top key log = none) (lo up : V) :
    between key lo up log = [] := by
  have hkeys : keys key log = [] := List.max?_eq_none_iff.1 h
  refine List.filter_eq_nil_iff.2 fun r hr hin => ?_
  obtain ⟨x, hx, -, -⟩ := inRange_iff.1 hin
  have hmem : x ∈ keys key log := List.mem_filterMap.2 ⟨r, hr, hx⟩
  rw [hkeys] at hmem
  exact absurd hmem (List.not_mem_nil)

/-- A range cut in two. -/
theorem between_perm {lo v up : V} (hlo : lo ≤ v) (hup : v ≤ up) (log : List R) :
    between key lo up log ~ between key lo v log ++ between key v up log := by
  have hleft : (between key lo up log).filter (inRange key lo v) = between key lo v log := by
    rw [between, List.filter_filter]
    refine List.filter_congr fun r _ => ?_
    rw [Bool.eq_iff_iff, Bool.and_eq_true, inRange_iff, inRange_iff]
    constructor
    · exact fun h => h.1
    · intro h
      obtain ⟨x, hx, hlt, hle⟩ := h
      exact ⟨⟨x, hx, hlt, hle⟩, x, hx, hlt, hle.trans hup⟩
  have hright : (between key lo up log).filter (fun r => !inRange key lo v r) =
      between key v up log := by
    rw [between, List.filter_filter]
    refine List.filter_congr fun r _ => ?_
    rw [Bool.eq_iff_iff, Bool.and_eq_true, Bool.not_eq_true', ← Bool.not_eq_true, inRange_iff,
      inRange_iff, inRange_iff]
    constructor
    · intro ⟨hnot, x, hx, hlt, hle⟩
      refine ⟨x, hx, ?_, hle⟩
      by_contra hv
      exact hnot ⟨x, hx, hlt, not_lt.1 hv⟩
    · intro ⟨x, hx, hlt, hle⟩
      refine ⟨?_, x, hx, hlo.trans_lt hlt, hle⟩
      intro ⟨y, hy, _, hyv⟩
      rw [hx, Option.some.injEq] at hy
      exact absurd (hy ▸ hyv) (not_le.2 hlt)
  calc between key lo up log
      ~ (between key lo up log).filter (inRange key lo v) ++
        (between key lo up log).filter (fun r => !inRange key lo v r) :=
        (List.filter_append_perm _ _).symm
    _ = between key lo v log ++ between key v up log := by rw [hleft, hright]

theorem between_sublist {lo lo' up : V} (h : lo' ≤ lo) (log : List R) :
    (between key lo up log).Sublist (between key lo' up log) := by
  refine List.monotone_filter_right log fun r hr => ?_
  obtain ⟨x, hx, hlt, hle⟩ := inRange_iff.1 hr
  exact inRange_iff.2 ⟨x, hx, h.trans_lt hlt, hle⟩

/-! ## Growth -/

namespace Grows

theorem refl (log : List R) : Grows key log log := ⟨[], by simp, by simp⟩

theorem trans {log log₁ log₂ : List R} (h : Grows key log log₁) (h' : Grows key log₁ log₂) :
    Grows key log log₂ := by
  obtain ⟨added, rfl, hadded⟩ := h
  obtain ⟨added', rfl, hadded'⟩ := h'
  refine ⟨added ++ added', by rw [List.append_assoc], fun r hr => ?_⟩
  rcases List.mem_append.1 hr with hr | hr
  · exact hadded r hr
  · obtain ⟨y, hy, hlt⟩ := hadded' r hr
    refine ⟨y, hy, fun x hx => hlt x ?_⟩
    rw [keys, List.filterMap_append]
    exact List.mem_append_left _ hx

theorem mem_keys {log log' : List R} (h : Grows key log log') {x : V} (hx : x ∈ keys key log) :
    x ∈ keys key log' := by
  obtain ⟨added, rfl, -⟩ := h
  rw [keys, List.filterMap_append]
  exact List.mem_append_left _ hx

/-- New entries are above every visible key. -/
theorem between_eq {log log' : List R} (h : Grows key log log') {v : V} (hv : v ∈ keys key log)
    (lo : V) : between key lo v log' = between key lo v log := by
  obtain ⟨added, rfl, hadded⟩ := h
  have hnone : between key lo v added = [] := by
    refine List.filter_eq_nil_iff.2 fun r hr hrange => ?_
    obtain ⟨y, hy, hlt⟩ := hadded r hr
    obtain ⟨x, hx, -, hle⟩ := inRange_iff.1 hrange
    rw [hy, Option.some.injEq] at hx
    exact absurd (hlt v hv) (not_lt.2 (hx ▸ hle))
  rw [between_append, hnone, List.append_nil]

end Grows

/-! ## The cursor -/

namespace Tailed

variable {lo v : V} {log log' : List R}

theorem start (v : V) (log : List R) : Tailed key v v log := ⟨le_rfl, .inl rfl⟩

theorem grow (h : Tailed key lo v log) (hg : Grows key log log') : Tailed key lo v log' :=
  ⟨h.le, h.visible.imp_right hg.mem_keys⟩

/-- What is due up to the cursor does not change when the log grows. -/
theorem between_eq (h : Tailed key lo v log) (hg : Grows key log log') :
    between key lo v log' = between key lo v log := by
  rcases h.visible with rfl | hv
  · rw [between_eq_nil le_rfl, between_eq_nil le_rfl]
  · exact hg.between_eq hv lo

/-- The cursor moves to the greatest key `u`. When that is below a cursor that
    has not moved yet, nothing has been read and the reader starts over from `u`. -/
theorem advance (h : Tailed key lo v log) {u : V} (hu : top key log = some u)
    (hg : Grows key log log') :
    ∃ lo' ≤ lo, Tailed key lo' u log' ∧
      between key lo' u log' ~ between key lo v log' ++ between key v u log' := by
  have hmem := hg.mem_keys (mem_of_top hu)
  by_cases hvu : v ≤ u
  · exact ⟨lo, le_rfl, ⟨h.le.trans hvu, .inr hmem⟩, between_perm h.le hvu log'⟩
  · have hlt : u < v := not_le.1 hvu
    have hlo : lo = v := h.visible.resolve_right fun hv => hvu (le_of_top hu hv)
    refine ⟨u, hlo ▸ hlt.le, start u log', ?_⟩
    rw [hlo, between_eq_nil le_rfl, between_eq_nil le_rfl, between_eq_nil hlt.le]
    exact List.Perm.refl _

end Tailed

end DataLoader.Feed
