import Mathlib.Data.List.Basic

/-!
# Buffers with bounds checks

Indexed reads and writes that fail where an index is out of range, and the two loops
over a buffer that are written with them: filling it pair by pair (`fillPairs`) and
reading its first elements (`readFirst`).
-/

namespace DataLoader.Codec

variable {α : Type}

/-- `buf[i] = x`. -/
def setAt (buf : List α) (i : ℕ) (x : α) : Option (List α) :=
  if i < buf.length then some (buf.set i x) else none

/-- The write right after what has been written. -/
theorem setAt_append (written : List α) (y : α) (rest : List α) (x : α) :
    setAt (written ++ y :: rest) written.length x = some (written ++ x :: rest) := by
  simp [setAt]

/-- `for i in 0..n`, write the two elements of `f i` at `2 * i` and `2 * i + 1`. -/
def fillPairs (f : ℕ → Option (α × α)) (n : ℕ) (buf : List α) : Option (List α) :=
  (List.range n).foldlM (fun out i => do
    let (a, b) ← f i
    let out ← setAt out (i * 2) a
    setAt out (i * 2 + 1) b) buf

theorem fillPairs_eq {f : ℕ → Option (α × α)} {g : ℕ → α × α} {n : ℕ} {buf : List α}
    (hf : ∀ i < n, f i = some (g i)) (hlen : n * 2 ≤ buf.length) :
    fillPairs f n buf =
      some ((List.range n).flatMap (fun i => [(g i).1, (g i).2]) ++ buf.drop (n * 2)) := by
  induction n with
  | zero => simp [fillPairs]
  | succ n ih =>
    have hwritten : ((List.range n).flatMap fun i => [(g i).1, (g i).2]).length = n * 2 := by
      simp [List.length_flatMap]
    -- two more elements are left to write over
    have hrest : buf.drop (n * 2) =
        buf[n * 2] :: buf[n * 2 + 1] :: buf.drop ((n + 1) * 2) := by
      rw [List.drop_eq_getElem_cons (by omega), List.drop_eq_getElem_cons (by omega)]
      congr 3
      omega
    have ih := ih (fun i hi => hf i (by omega)) (by omega)
    unfold fillPairs at ih ⊢
    rw [List.range_succ, List.foldlM_append, ih, hrest, List.flatMap_append]
    generalize (List.range n).flatMap (fun i => [(g i).1, (g i).2]) = written at hwritten
    have hfirst := setAt_append written buf[n * 2] (buf[n * 2 + 1] :: buf.drop ((n + 1) * 2)) (g n).1
    have hsecond := setAt_append (written ++ [(g n).1]) buf[n * 2 + 1] (buf.drop ((n + 1) * 2)) (g n).2
    rw [hwritten] at hfirst
    rw [List.length_append, hwritten, List.append_assoc, List.append_assoc] at hsecond
    simp only [List.foldlM_cons, List.foldlM_nil, hf n (by omega), Option.bind_eq_bind,
      Option.bind_some, hfirst]
    simpa using hsecond

/-- `buf[0]`, …, `buf[n - 1]`. -/
def readFirst (n : ℕ) (buf : List α) : Option (List α) := (List.range n).mapM fun i => buf[i]?

theorem readFirst_eq {n : ℕ} {buf : List α} (h : n ≤ buf.length) :
    readFirst n buf = some (buf.take n) := by
  induction n with
  | zero => simp [readFirst]
  | succ n ih =>
    have ih := ih (by omega)
    unfold readFirst at ih ⊢
    rw [List.range_succ, List.mapM_append, ih, List.take_add_one]
    simp [List.getElem?_eq_getElem (show n < buf.length by omega)]

end DataLoader.Codec
