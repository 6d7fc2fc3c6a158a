import Mathlib.Data.List.GetD

/-!
# Slices of shared arrays

A Go slice is a window on an array, and several slices may share one: `append` writes
into the free capacity behind its slice, where another slice may look. Here the arrays of
one element type are numbered, and a slice starts at the first element of its array.

* `Shows`: what a slice shows; it goes on doing so when further arrays are made
  (`Shows.extend`).
* `fresh`: an array that has just been made, with its elements so far and its free
  capacity. Appending to it changes no other array (`append_fresh`).
* `foldl_append_make`, `store_copy_make`: two ways to extend a slice in an array of its own.
-/

namespace DataLoader.Effects

/-- A slice: its array, its length and its capacity. -/
structure Slice where
  ref : ℕ
  len : ℕ
  cap : ℕ
  deriving DecidableEq, Repr

/-- The arrays, by number. -/
abbrev Arrays (α : Type) := List (List α)

variable {α β : Type}

namespace Arrays

/-- The arrays before any is made: the number 0 is empty, and is that of the nil slice. -/
def start : Arrays α := [[]]

end Arrays

/-- The nil slice. -/
def Slice.nil : Slice := ⟨0, 0, 0⟩

namespace Arrays

/-- The elements of a slice. -/
def view (m : Arrays α) (s : Slice) : List α := (m.getD s.ref []).take s.len

/-- The array with `xs` written from the index `i` on. -/
def overwrite (a : List α) (i : ℕ) (xs : List α) : List α :=
  a.take i ++ xs ++ a.drop (i + xs.length)

/-- Writes `xs` into a slice from the index `i` on. -/
def store (m : Arrays α) (s : Slice) (i : ℕ) (xs : List α) : Arrays α :=
  m.set s.ref (overwrite (m.getD s.ref []) i xs)

/-- `make([]T, len, cap)`. -/
def make [Inhabited α] (m : Arrays α) (len cap : ℕ) : Arrays α × Slice :=
  (m ++ [List.replicate cap default], ⟨m.length, len, cap⟩)

/-- `append(s, xs...)`: in place if the capacity is there, and into a new array, here
    without spare capacity, if not. -/
def append (m : Arrays α) (s : Slice) (xs : List α) : Arrays α × Slice :=
  if s.len + xs.length ≤ s.cap then (m.store s s.len xs, { s with len := s.len + xs.length })
  else (m ++ [m.view s ++ xs], ⟨m.length, s.len + xs.length, s.len + xs.length⟩)

/-- `copy(dst, src)`. -/
def copy (m : Arrays α) (dst src : Slice) : Arrays α :=
  m.store dst 0 ((m.view src).take dst.len)

-- two slices of one array: what is appended to the one is seen in the other
example : view (append (append [[7, 0]] ⟨0, 1, 2⟩ [8]).1 ⟨0, 1, 2⟩ [9]).1 ⟨0, 2, 2⟩ = [7, 9] := by
  decide

/-- The slice is one of these arrays and shows `xs`. -/
structure Shows (m : Arrays α) (s : Slice) (xs : List α) : Prop where
  ref_lt : s.ref < m.length
  view_eq : m.view s = xs
  len_eq : s.len = xs.length

theorem shows_nil : Shows (start : Arrays α) .nil [] := ⟨Nat.zero_lt_one, rfl, rfl⟩

variable {m : Arrays α} {s : Slice} {xs : List α}

/-- A slice shows the same when more arrays are made. -/
theorem Shows.extend (h : m.Shows s xs) (as : Arrays α) : Shows (m ++ as) s xs := by
  refine ⟨?_, ?_, h.len_eq⟩
  · rw [List.length_append]
    exact Nat.lt_add_right _ h.ref_lt
  · rw [← h.view_eq, view, view, List.getD_append _ _ _ _ h.ref_lt]

/-! ## An array of one's own -/

/-- A new array with the elements `xs` and room for as many more as `room` has. -/
def fresh (m : Arrays α) (xs room : List α) : Arrays α × Slice :=
  (m ++ [xs ++ room], ⟨m.length, xs.length, xs.length + room.length⟩)

theorem shows_fresh (m : Arrays α) (xs room : List α) :
    Shows (fresh m xs room).1 (fresh m xs room).2 xs := by
  refine ⟨?_, ?_, rfl⟩
  · simp [fresh]
  · simp [fresh, view]

theorem make_eq_fresh [Inhabited α] (m : Arrays α) (cap : ℕ) :
    make m 0 cap = fresh m [] (List.replicate cap default) := by
  simp [make, fresh]

theorem store_last (m : Arrays α) (a : List α) (len cap i : ℕ) (xs : List α) :
    store (m ++ [a]) ⟨m.length, len, cap⟩ i xs = m ++ [overwrite a i xs] := by
  simp [store]

theorem append_fresh (m : Arrays α) (ys : List α) {xs room : List α}
    (h : xs.length ≤ room.length) :
    append (fresh m ys room).1 (fresh m ys room).2 xs =
      fresh m (ys ++ xs) (room.drop xs.length) := by
  have hcap : ys.length + xs.length ≤ ys.length + room.length := by omega
  have hlen : ys.length + room.length =
      ys.length + xs.length + (room.length - xs.length) := by omega
  rw [fresh, append, if_pos hcap, store_last]
  simp [fresh, overwrite, List.drop_append, hlen]

/-- Appending one element after another. -/
theorem foldl_append_fresh (m : Arrays α) (f : β → α) (bs : List β) :
    ∀ {ys room : List α}, bs.length ≤ room.length →
      bs.foldl (fun p b => append p.1 p.2 [f b]) (fresh m ys room) =
        fresh m (ys ++ bs.map f) (room.drop bs.length) := by
  induction bs with
  | nil => intro ys room h; simp
  | cons b bs ih =>
    intro ys room h
    have hone : ([f b] : List α).length ≤ room.length := by simpa using Nat.one_le_of_lt h
    have hrest : bs.length ≤ (room.drop 1).length := by
      rw [List.length_drop]
      simp only [List.length_cons] at h
      omega
    rw [List.foldl_cons, append_fresh m ys hone]
    simp only [List.length_singleton]
    rw [ih hrest]
    simp

/-- Copying a slice into a new array and appending more elements one by one. -/
theorem foldl_append_make [Inhabited α] (h : m.Shows s xs) (f : β → α) (bs : List β) :
    bs.foldl (fun p b => append p.1 p.2 [f b])
      (append (make m 0 (s.len + bs.length)).1 (make m 0 (s.len + bs.length)).2
        ((make m 0 (s.len + bs.length)).1.view s)) = fresh m (xs ++ bs.map f) [] := by
  have hview : (make m 0 (s.len + bs.length)).1.view s = xs := (h.extend _).view_eq
  have hlen := h.len_eq
  rw [hview, make_eq_fresh, append_fresh, foldl_append_fresh]
  · simp [hlen]
  · rw [List.length_drop, List.length_replicate]
    omega
  · rw [List.length_replicate]
    omega

/-- Copying a slice into a new array with one more element, and setting that one. -/
theorem store_copy_make [Inhabited α] (h : m.Shows s xs) (x : α) :
    store (copy (make m (s.len + 1) (s.len + 1)).1 (make m (s.len + 1) (s.len + 1)).2 s)
      (make m (s.len + 1) (s.len + 1)).2 s.len [x] = (fresh m (xs ++ [x]) []).1 := by
  have hview : view (m ++ [List.replicate (xs.length + 1) default]) s = xs := (h.extend _).view_eq
  have htake : xs.take (xs.length + 1) = xs := List.take_of_length_le (Nat.le_succ _)
  simp only [make, h.len_eq, copy, hview, htake, store_last]
  simp [overwrite, fresh]

end Arrays

end DataLoader.Effects
