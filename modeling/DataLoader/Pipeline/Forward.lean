import DataLoader.Pipeline.Delta
import Mathlib.Order.WithBot

/-!
# Stored watermarks move forward

`watermark_forward_only`: in every history of a delta load, under any changes of
its table, the stored watermark never decreases, and no run selects rows below
the upper bound of an earlier successful run, provided the MAX that a run takes
is never below the stored watermark.

The runner stores whatever MAX the source reports: `watermark_moves_back` is a
successful run after the greatest row was deleted.
-/

namespace DataLoader

open Effects SourceRow

section

variable [GoLib] {V : Type} [LinearOrder V]

/-- The value of a stored watermark; none is below all others. -/
def level (d : Dialect) (col : WatermarkColumn V) (type stored : String) : WithBot V :=
  if stored = "" then ⊥ else (d.bound col type stored).elim ⊥ (↑)

/-- The condition on a run with a stored watermark when it takes MAX: MAX is not
    below the stored watermark; and if there is none, then the empty text is not
    read as a value above it. -/
def maxForward (d : Dialect) (col : WatermarkColumn V) (type : String) : Checks V where
  max f := f.stored = "" ||
    match d.bound col type f.stored, d.bound col type (mark col type (maxWm f.rows)) with
    | some x, some y =>
      if mark col type (maxWm f.rows) = "" then decide (y ≤ x) else decide (x ≤ y)
    | _, _ => true

/-- The bounds of a SELECT. -/
def Select.lower (col : WatermarkColumn V) : Select → Option V
  | .all _ => none
  | .range _ _ lo _ => lo.value col

def Select.upper (col : WatermarkColumn V) : Select → Option V
  | .all _ => none
  | .range _ _ _ up => up.value col

/-- The SELECTs that a run sent. -/
def selectsOf {α : Type} (y : Run (FeedView V) α) : List Select :=
  y.after.asked.drop y.before.asked.length

variable {col : WatermarkColumn V} {types : List ColumnType} {d : Dialect} {type : String}

omit [LinearOrder V] in
theorem level_of_bound {stored : String} {x : V} (hne : stored ≠ "")
    (h : d.bound col type stored = some x) : level d col type stored = x := by
  rw [level, if_neg hne, h, Option.elim_some]

/-- What one run does to the stored watermark, and what it selects. -/
structure MovesForward (d : Dialect) (col : WatermarkColumn V) (type : String) (f : FeedView V)
    (err : Option Err) (f' : FeedView V) : Prop where
  level_le : level d col type f.stored ≤ level d col type f'.stored
  lower : ∀ q ∈ selectsOf ⟨f, err, f'⟩, ∀ x ∈ q.lower col, level d col type f.stored = x
  upper : err = none → ∀ q ∈ selectsOf ⟨f, err, f'⟩, ∀ x ∈ q.upper col,
    (x : WithBot V) ≤ level d col type f'.stored

theorem DeltaRun.movesForward {load : Load}
    {policy : TableChange V → List (SourceRow V) → Bool} {v v' : SinkView × FeedView V}
    {err : Option Err}
    (h : DeltaRun col types policy (maxForward d col load.watermarkType) d load v err v') :
    MovesForward d col load.watermarkType v.2 err v'.2 := by
  obtain ⟨qs, hqs, habove⟩ := h.asked
  obtain ⟨D, -, hout⟩ := h.outcome
  have hsel : ∀ e : Option Err, selectsOf ⟨v.2, e, v'.2⟩ = qs := fun e => by
    rw [selectsOf, hqs, List.drop_left]
  have hlower : ∀ q ∈ selectsOf ⟨v.2, err, v'.2⟩, ∀ x ∈ q.lower col,
      level d col load.watermarkType v.2.stored = x := by
    intro q hq x hx
    rw [hsel] at hq
    obtain ⟨hne, obj, c, lo, up, rfl, hlo⟩ := habove q hq
    exact level_of_bound hne (Dialect.bound_eq_some hlo hx)
  rcases hout with ⟨herr, hstored⟩ | ⟨wm, hcomp, hstored⟩
  · exact ⟨by rw [hstored], hlower, fun hnone => absurd hnone herr⟩
  cases hcomp with
  | init hfirst hbefore hmax hwm hD hafter hasked =>
    -- nothing was stored before, and nothing is selected
    have hnil : qs = [] := by simpa [hasked] using hqs
    refine ⟨by rw [level, if_pos hfirst]; exact bot_le, hlower, fun _ q hq => ?_⟩
    rw [hsel, hnil] at hq
    cases hq
  | @range rows₁ rows₂ obj c lo up x y hfirst hbefore hmax hwm hbetween hrange hlo hup hx hy hD
      hafter hasked =>
    have hxy : if wm = "" then y ≤ x else x ≤ y := by
      simp only [maxForward, hfirst, decide_false, Bool.false_or,
        Dialect.bound_eq_some hlo hx, ← hwm, Dialect.bound_eq_some hup hy] at hmax
      split_ifs at hmax ⊢ <;> simpa using hmax
    have hlevel : level d col load.watermarkType v.2.stored = x :=
      level_of_bound hfirst (Dialect.bound_eq_some hlo hx)
    have hone : qs = [.range obj c lo up] := List.append_cancel_left (hqs.symm.trans hasked)
    have hupper : (y : WithBot V) ≤ level d col load.watermarkType v'.2.stored →
        ∀ q ∈ selectsOf ⟨v.2, err, v'.2⟩, ∀ x ∈ q.upper col,
          (x : WithBot V) ≤ level d col load.watermarkType v'.2.stored := by
      intro hle q hq z hz
      rw [hsel, hone] at hq
      obtain rfl := List.mem_singleton.1 hq
      obtain rfl : y = z := Option.some.inj (hy.symm.trans hz)
      exact hle
    rcases hstored with ⟨hstored, hne⟩ | ⟨hstored, hnot⟩
    · rw [if_neg hne] at hxy
      have hlevel' : level d col load.watermarkType v'.2.stored = y := by
        rw [hstored]
        exact level_of_bound hne (Dialect.bound_eq_some hup hy)
      refine ⟨?_, hlower, fun _ => hupper hlevel'.ge⟩
      rw [hlevel, hlevel']
      exact WithBot.coe_le_coe.2 hxy
    · refine ⟨by rw [hstored], hlower, fun hnone => hupper ?_⟩
      rw [if_pos (hnot.resolve_left fun hne => hne hnone)] at hxy
      rw [hstored, hlevel]
      exact WithBot.coe_le_coe.2 hxy

omit [GoLib] in
/-- A nondecreasing sequence goes on with a value that is not below its last. -/
theorem pairwise_extend {α : Type} [Preorder α] {L : List α} {a b : α}
    (h : (L ++ [a]).Pairwise (· ≤ ·)) (hab : a ≤ b) :
    (L ++ [a, b] ++ [b]).Pairwise (· ≤ ·) := by
  obtain ⟨hL, -, hlast⟩ := List.pairwise_append.1 h
  rw [List.append_assoc]
  refine List.pairwise_append.2 ⟨hL, by simp [hab], fun x hx y hy => ?_⟩
  have hxa := hlast x hx a (by simp)
  simp only [List.cons_append, List.nil_append, List.mem_cons, List.not_mem_nil, or_false,
    or_self] at hy
  rcases hy with rfl | rfl
  · exact hxa
  · exact hxa.trans hab

/-- The sequence of stored watermarks before and after each run. -/
def levels (d : Dialect) (col : WatermarkColumn V) (type : String)
    (rs : List (Run (FeedView V) (Option Err))) : List (WithBot V) :=
  rs.flatMap fun y => [level d col type y.before.stored, level d col type y.after.stored]

/-- What has been covered by a successful run is not selected again. -/
def NotReread (col : WatermarkColumn V) (y z : Run (FeedView V) (Option Err)) : Prop :=
  y.result = none → ∀ q ∈ selectsOf y, ∀ q' ∈ selectsOf z,
    ∀ x ∈ q.upper col, ∀ x' ∈ q'.lower col, x ≤ x'

/-- The invariant of a history that began at the watermark `start`. -/
structure Forward (d : Dialect) (col : WatermarkColumn V) (type : String) (start : WithBot V)
    (rs : List (Run (FeedView V) (Option Err))) (f : FeedView V) : Prop where
  levels : (start :: levels d col type rs ++ [level d col type f.stored]).Pairwise (· ≤ ·)
  ranges : rs.Pairwise (NotReread col)
  covered : ∀ y ∈ rs, y.result = none → ∀ q ∈ selectsOf y, ∀ x ∈ q.upper col,
    (x : WithBot V) ≤ level d col type f.stored

theorem Forward.run {start : WithBot V} {rs : List (Run (FeedView V) (Option Err))}
    {f f' : FeedView V} {err : Option Err} (h : Forward d col type start rs f)
    (hrun : MovesForward d col type f err f') :
    Forward d col type start (rs ++ [⟨f, err, f'⟩]) f' := by
  refine ⟨?_, ?_, ?_⟩
  · have := pairwise_extend h.levels hrun.level_le
    simpa [DataLoader.levels, List.flatMap_append] using this
  · refine List.pairwise_append.2 ⟨h.ranges, List.pairwise_singleton _ _, ?_⟩
    intro y hy z hz hnone q hq q' hq' x hx x' hx'
    obtain rfl := List.mem_singleton.1 hz
    have hle := h.covered y hy hnone q hq x hx
    rw [hrun.lower q' hq' x' hx'] at hle
    exact WithBot.coe_le_coe.1 hle
  · intro y hy hnone q hq x hx
    rcases List.mem_append.1 hy with hy | hy
    · exact (h.covered y hy hnone q hq x hx).trans hrun.level_le
    · obtain rfl := List.mem_singleton.1 hy
      exact hrun.upper hnone q hq x hx

/-- The stored watermark never decreases, and no run selects below the upper
    bound of an earlier successful one. -/
theorem watermark_forward_only {srv : SqlServer} {l : DeltaLoad d}
    {w w' : World (sqlSide col types anyChange)}
    {hs : List (((World.machine srv (sqlSide col types anyChange)).guard
      ((maxForward d col l.load.watermarkType).call l.load.id)).HEvent Unit)}
    {rs : List (Run (World (sqlSide col types anyChange)) (Option Err))}
    (h : ((World.machine srv (sqlSide col types anyChange)).guard
      ((maxForward d col l.load.watermarkType).call l.load.id)).runHistory
        (fun _ => l.execute) hs w = some (rs, w')) :
    Forward d col l.load.watermarkType
      (level d col l.load.watermarkType (w.store.watermark l.load.id))
      (rs.map (Run.map (feedView l.load.id))) (feedView l.load.id w') := by
  have hinv := (deltaSpec_meets srv col types anyChange (maxForward d col l.load.watermarkType)
    l.load.id).runHistory (l := [])
    (I := fun rs v => Forward d col l.load.watermarkType
      (level d col l.load.watermarkType (w.store.watermark l.load.id))
      (rs.map (Run.map Prod.snd)) v.2) ?_ ?_ ?_ h
  · rw [List.nil_append, List.map_map] at hinv
    exact hinv
  · rintro rs v v' hf ⟨-, hdrift⟩
    exact ⟨by rw [hdrift.stored]; exact hf.levels, hf.ranges, by rw [hdrift.stored]; exact hf.covered⟩
  · intro rs _ v hf
    refine Spec.wp_mono (wp_executeDelta l rfl v) fun err v' hrun => ?_
    rw [List.map_append]
    exact hf.run hrun.movesForward
  · exact ⟨by simp [DataLoader.levels, feedView], List.Pairwise.nil, by simp⟩

end

/-! ## Runs on a table of numbers -/

section

attribute [local instance] GoLib.ascii

/-- The greatest of the numbers 1 and 5 is deleted, and then a run of the load
    with the stored watermark 5 succeeds. -/
def deletedRun : Option (List (Run (World (numberSide anyChange)) (Option Err)) ×
    World (numberSide anyChange)) :=
  (World.machine ⟨"wh", "dbo"⟩ (numberSide anyChange)).runHistory (fun _ => numberLoad.execute)
    [.env (.change (.delete 1)), .run () (List.replicate 13 (.answer .ok))]
    (numberWorld anyChange "5" [number 1, number 5])

/-- The run stores the lower MAX. -/
theorem watermark_moves_back :
    ∃ x w', deletedRun = some ([x], w') ∧ x.result = none ∧
      level .sqlserver intColumn watermarkNumeric (x.before.store.watermark 1) = (5 : Int) ∧
      level .sqlserver intColumn watermarkNumeric (x.after.store.watermark 1) = (1 : Int) := by
  have heval : deletedRun.map (fun p => p.1.map fun x => (x.result, x.before.store.watermark 1,
      x.after.store.watermark 1)) = some [(none, "5", "1")] := by decide +kernel
  obtain ⟨⟨rs, w'⟩, hrun, hrs⟩ := Option.map_eq_some_iff.1 heval
  obtain ⟨x, rfl, hx⟩ := List.map_eq_singleton_iff.1 hrs
  simp only [Prod.mk.injEq] at hx
  obtain ⟨hres, hbefore, hafter⟩ := hx
  refine ⟨x, w', hrun, hres, ?_, ?_⟩
  · rw [hbefore]
    exact level_of_bound (by decide) (by decide)
  · rw [hafter]
    exact level_of_bound (by decide) (by decide)

/-- Two runs with the stored watermark 1: the number 3 is inserted before the
    first; then 1 is deleted and 2 inserted late, which the second does not see. -/
def lateRun : Option (List (Run (World (numberSide anyChange)) (Option Err)) ×
    World (numberSide anyChange)) :=
  ((World.machine ⟨"wh", "dbo"⟩ (numberSide anyChange)).guard
    ((maxForward .sqlserver intColumn watermarkNumeric).call 1)).runHistory
    (fun _ => numberLoad.execute)
    [.env (.change (.insert (number 3))), .run () (List.replicate 16 (.answer .ok)),
      .env (.change (.delete 0)), .env (.change (.insert (number 2))),
      .run () (List.replicate 12 (.answer .ok))]
    (numberWorld anyChange "1" [number 1])

theorem lateRun_forward :
    ∃ rs w', lateRun = some (rs, w') ∧
      rs.map (fun x => (x.result, x.after.store.watermark 1)) = [(none, "3"), (none, "3")] ∧
      Forward .sqlserver intColumn watermarkNumeric
        (level .sqlserver intColumn watermarkNumeric "1") (rs.map (Run.map (feedView 1)))
        (feedView 1 w') := by
  have heval : lateRun.map (fun p => p.1.map fun x => (x.result, x.after.store.watermark 1)) =
      some [(none, "3"), (none, "3")] := by decide +kernel
  obtain ⟨⟨rs, w'⟩, hrun, hrs⟩ := Option.map_eq_some_iff.1 heval
  exact ⟨rs, w', hrun, hrs, watermark_forward_only (l := numberLoad) hrun⟩

end

end DataLoader
