import DataLoader.Effects.Spec
import DataLoader.Sources.Dialect
import Mathlib.Logic.Relation

/-!
# What the SQL readers report

A delta run as its source sees it (`FeedView`): the rows of the table, the stored
watermark of the load and the SELECTs sent so far. The table may change at any
moment within a policy.

* `feedSpec`, `feedSpec_meets`: the view of the whole system.
-/

namespace DataLoader

open Effects SourceRow

open scoped List

variable {V : Type}

/-! ## The table over time -/

/-- The table has changed as the policy allows. -/
def Evolves (policy : TableChange V → List (SourceRow V) → Bool) :
    List (SourceRow V) → List (SourceRow V) → Prop :=
  Relation.ReflTransGen fun rows rows' => ∃ c : TableChange V, policy c rows ∧ rows' = c.apply rows

/-- With increasing inserts only, the table is a log that grows. -/
theorem Evolves.grows [LinearOrder V] {rows rows' : List (SourceRow V)} (h : Evolves increasing rows rows') :
    Feed.Grows SourceRow.wm rows rows' := by
  induction h with
  | refl => exact .refl rows
  | @tail rows₁ rows₂ _ hstep ih =>
    obtain ⟨c, hc, rfl⟩ := hstep
    refine ih.trans ?_
    match c, hc with
    | .insert ⟨some x, vals⟩, hc =>
      refine ⟨[⟨some x, vals⟩], rfl, fun r hr => ?_⟩
      obtain rfl := List.mem_singleton.1 hr
      refine ⟨x, rfl, fun y hy => ?_⟩
      obtain ⟨r, hr, hwm⟩ := List.mem_filterMap.1 hy
      have hlt := List.all_eq_true.1 hc r hr
      rw [hwm] at hlt
      simpa using hlt

/-! ## The view -/

/-- The system as a delta load's source is concerned with it. -/
structure FeedView (V : Type) where
  rows : List (SourceRow V)
  stored : String
  asked : List Select

/-- The SELECT that a call sends. -/
def SysCall.select? : SysCall sqlSig → Option Select
  | .source _ (.query q) => some q
  | _ => none

/-- The SELECTs that have been sent, in order. -/
def askedSelects (trace : List (SysCall sqlSig)) : List Select := trace.filterMap SysCall.select?

/-- Others only change the rows. -/
structure FeedView.Drifts (policy : TableChange V → List (SourceRow V) → Bool) (f f' : FeedView V) :
    Prop where
  rows : Evolves policy f.rows f'.rows
  stored : f'.stored = f.stored
  asked : f'.asked = f.asked

namespace FeedView.Drifts

variable {policy : TableChange V → List (SourceRow V) → Bool} {f f₁ f₂ : FeedView V}

theorem refl (f : FeedView V) : f.Drifts policy f := ⟨.refl, rfl, rfl⟩

theorem trans (h : f.Drifts policy f₁) (h' : f₁.Drifts policy f₂) : f.Drifts policy f₂ :=
  ⟨Relation.ReflTransGen.trans h.rows h'.rows, h'.stored.trans h.stored, h'.asked.trans h.asked⟩

end FeedView.Drifts

variable [LinearOrder V]

/-- The view of a state for the load with key `id`. -/
def feedView {col : WatermarkColumn V} {types : List ColumnType}
    {policy : TableChange V → List (SourceRow V) → Bool} (id : Int)
    (w : World (sqlSide col types policy)) : FeedView V :=
  ⟨w.src, w.store.watermark id, askedSelects w.trace⟩

/-- A condition on the states in which a run takes MAX and in which it selects a
    range. -/
structure Checks (V : Type) where
  max : FeedView V → Bool := fun _ => true
  range : SqlArg → SqlArg → FeedView V → Bool := fun _ _ _ => true

/-- Whether a query is sent in a state that meets the condition. -/
def Checks.ok (g : Checks V) : SqlCall → FeedView V → Bool
  | .maxTime .., f | .maxText .., f => g.max f
  | .query (.range _ _ lo up), f => g.range lo up f
  | .query (.all _), _ => true

/-- The condition on the calls of a run of the load with key `id`. -/
def Checks.call {col : WatermarkColumn V} {types : List ColumnType}
    {policy : TableChange V → List (SourceRow V) → Bool} (g : Checks V) (id : Int) :
    SysCall sqlSig → World (sqlSide col types policy) → Bool
  | .source _ c, w => g.ok c (feedView id w)
  | _, _ => true

/-- One query of the source. -/
def FeedView.Answers (col : WatermarkColumn V) (types : List ColumnType) (g : Checks V)
    (c : SqlCall) (f : FeedView V) (r : c.Ans) (f' : FeedView V) : Prop :=
  g.ok c f = true ∧ (∃ o, r = c.answer col types f.rows o) ∧
    f' = { f with asked := f.asked ++ (SysCall.select? (.source 0 c)).toList }

/-- What one call does to the view. -/
def feedStep (col : WatermarkColumn V) (types : List ColumnType) (g : Checks V) (id : Int) :
    (c : SysCall sqlSig) → FeedView V → c.Ans → FeedView V → Prop
  | .source _ c, f, r, f' => f.Answers col types g c r f'
  | .store (.getWatermark i), f, r, f' =>
    f' = f ∧ ∀ row : Option WatermarkRow, i = id → r = .ok row →
      (row.map (·.value)).getD "" = f.stored
  | .store (.upsertWatermark i s), f, r, f' =>
    ∃ o : Outcome, r = o.err ∧ f' = if o.effective ∧ i = id then { f with stored := s } else f
  | _, f, _, f' => f' = f

/-- The specification of the source side of a delta run. -/
def feedSpec (col : WatermarkColumn V) (types : List ColumnType)
    (policy : TableChange V → List (SourceRow V) → Bool) (g : Checks V) (id : Int) :
    Spec (sysSig sqlSig) (FeedView V) where
  step := feedStep col types g id
  drift := FeedView.Drifts policy
  drift_refl := .refl
  drift_trans := .trans

/-- No call changes the rows, and SELECTs are noted. -/
theorem feedView_answer {srv : SqlServer} {col : WatermarkColumn V} {types : List ColumnType}
    {policy : TableChange V → List (SourceRow V) → Bool} (id : Int) (o : Outcome)
    (c : SysCall sqlSig) (w : World (sqlSide col types policy)) :
    feedView id (World.answer srv _ o c w).2 =
      ⟨w.src, (World.answer srv _ o c w).2.store.watermark id,
        askedSelects w.trace ++ c.select?.toList⟩ := by
  have hsrc : (World.answer srv _ o c w).2.src = w.src := by cases c <;> rfl
  have hasked : askedSelects (w.trace ++ [c]) = askedSelects w.trace ++ c.select?.toList := by
    rw [askedSelects, askedSelects, List.filterMap_append]
    cases h : c.select? <;> simp [h]
  rw [feedView, hsrc, World.trace_answer, hasked]

/-- Store calls that do not touch watermarks leave the stored one. -/
theorem watermark_answer {srv : SqlServer} {S : Sig} {side : SourceSide S} (id : Int) (o : Outcome)
    {c : SysCall S} (hc : ∀ i s, c ≠ .store (.upsertWatermark i s)) (w : World side) :
    (World.answer srv side o c w).2.store.watermark id = w.store.watermark id := by
  by_cases hstore : ∃ s, c = .store s
  · obtain ⟨s, rfl⟩ := hstore
    cases s with
    | getWatermark i => rfl
    | upsertWatermark i s => exact absurd rfl (hc i s)
    | startRun i s => cases ho : o.effective <;> simp [World.answer, World.effect, Store.answer, ho]
    | finishRun run st rr rw wm msg =>
      cases ho : o.effective <;> simp [World.answer, World.effect, Store.answer, ho]
  · rw [World.store_answer o (fun s h => hstore ⟨s, h⟩)]

theorem feedStep_answer {srv : SqlServer} {col : WatermarkColumn V} {types : List ColumnType}
    {policy : TableChange V → List (SourceRow V) → Bool} {g : Checks V} {id : Int} (o : Outcome)
    {c : SysCall sqlSig} {w : World (sqlSide col types policy)} (hok : g.call id c w = true) :
    feedStep col types g id c (feedView id w) (World.answer srv _ o c w).1
      (feedView id (World.answer srv _ o c w).2) := by
  rw [feedView_answer]
  cases c with
  | source l c =>
    refine ⟨hok, ⟨o, rfl⟩, ?_⟩
    rw [watermark_answer id o (by simp)]
    cases c <;> rfl
  | store s =>
    cases s with
    | getWatermark i =>
      refine ⟨by rw [watermark_answer id o (by simp)]; simp [SysCall.select?, feedView], ?_⟩
      intro row hi hrow
      subst hi
      cases o with
      | ok => obtain rfl := Except.ok.inj hrow; rfl
      | fail msg n => cases hrow
    | upsertWatermark i s =>
      refine ⟨o, rfl, ?_⟩
      by_cases hi : i = id
      · subst hi
        cases ho : o.effective <;>
          simp [feedView, SysCall.select?, World.answer, World.effect, Store.answer, ho]
      · have hne : id ≠ i := fun h => hi h.symm
        cases ho : o.effective <;>
          simp [feedView, SysCall.select?, World.answer, World.effect, Store.answer, ho, hi,
            Store.watermark_upsertWatermark_of_ne _ hne]
    | _ =>
      rw [watermark_answer id o (by simp)]
      simp [feedStep, SysCall.select?, feedView]
  | _ =>
    rw [watermark_answer id o (by simp)]
    simp [feedStep, SysCall.select?, feedView]

/-- Others change the rows as the policy allows. -/
theorem feedView_env {col : WatermarkColumn V} {types : List ColumnType}
    {policy : TableChange V → List (SourceRow V) → Bool} {e : EnvStep (sqlSide col types policy)}
    {w w' : World (sqlSide col types policy)} (id : Int) (h : World.env _ e w = some w') :
    (feedView id w).Drifts policy (feedView id w') := by
  obtain ⟨-, hst, htr⟩ := World.env_db h
  refine ⟨?_, by simp [feedView, hst], by simp [feedView, htr]⟩
  cases e with
  | tick d => obtain rfl := Option.some.inj h; exact .refl
  | cancel => obtain rfl := Option.some.inj h; exact .refl
  | change c =>
    obtain ⟨rows, hrows, rfl⟩ := Option.map_eq_some_iff.1 h
    simp only [sqlSide] at hrows
    split_ifs at hrows with hc
    exact .single ⟨c, hc, (Option.some.inj hrows).symm⟩

theorem feedSpec_meets (srv : SqlServer) (col : WatermarkColumn V) (types : List ColumnType)
    (policy : TableChange V → List (SourceRow V) → Bool) (g : Checks V) (id : Int) :
    Meets ((World.machine srv (sqlSide col types policy)).guard (g.call id))
      (feedSpec col types policy g id) (feedView id) where
  step {c o w r w'} h := by
    obtain ⟨hok, hans⟩ := Machine.guard_answer h
    obtain ⟨-, ha⟩ := World.machine_answer hans
    obtain ⟨rfl, rfl⟩ := Prod.mk.inj ha
    exact feedStep_answer o hok
  env h := feedView_env id h

/-- Without a condition the system itself meets the specification. -/
theorem feedSpec_meets_machine (srv : SqlServer) (col : WatermarkColumn V)
    (types : List ColumnType) (policy : TableChange V → List (SourceRow V) → Bool) (id : Int) :
    Meets (World.machine srv (sqlSide col types policy)) (feedSpec col types policy {} id)
      (feedView id) where
  step {c o w r w'} h := by
    obtain ⟨-, ha⟩ := World.machine_answer h
    obtain ⟨rfl, rfl⟩ := Prod.mk.inj ha
    refine feedStep_answer o ?_
    cases c with
    | source l c =>
      cases c with
      | query q => cases q <;> rfl
      | _ => rfl
    | _ => rfl
  env h := feedView_env id h

end DataLoader
