import DataLoader.Pipeline.ReplaceSpec

/-!
# Replace is all or nothing

`replace_allOrNothing`: in every history of replace runs on a target, each run
leaves the live table as it found it or with exactly the rows it read, provided
`sp_rename` reads the name of the target as the target or not at all.

The proviso is needed. `renameInTx` passes `schema.table` without quoting, and
identifiers may contain dots, so the name of one table can be the three-part name
of another: `replace_publishes_other_table` is a run that returns nil and has
published a table of another schema.
-/

namespace DataLoader

open Effects Mssql

section

variable {S : Sig} [GoLib] {srv : SqlServer} {side : SourceSide S} {t : TargetTable}

/-- The live table holds exactly the rows of the batches. -/
def Holds (t : TargetTable) (loadTS : Time) (bs : List Batch) (ts : Tables) : Prop :=
  ∃ rows, storedRows loadTS bs = .ok rows ∧ ts t = some rows

/-- What all or nothing means for one run, which read the batches `bs`. A run
    that fails at or before `CommitReplace` is one that is never recorded as
    successful (`replace_fails_iff`). -/
structure AllOrNothing (t : TargetTable) (x : Run (World side) (Option Err)) (bs : List Batch)
    (loadTS : Time) : Prop where
  batches : deliveredBatches x.after.trace = deliveredBatches x.before.trace ++ bs
  either : x.after.db.tables t = x.before.db.tables t ∨ Holds t loadTS bs x.after.db.tables
  success : x.result = none → Holds t loadTS bs x.after.db.tables ∨
    (x.before.db.tables t = none ∧ bs = [] ∧ x.after.db.tables t = none)
  failure : successes x.after.trace = successes x.before.trace →
    x.after.db.tables t = x.before.db.tables t

/-- The condition on the target: no other table is read from its name. -/
def NamesItself (srv : SqlServer) (t : TargetTable) : Prop :=
  ∀ a, srv.object (dotted t) = some a → a = t

omit [GoLib] in
/-- Names without a dot meet it. -/
theorem namesItself_of_notMem (hschema : '.' ∉ t.schema.toList) (hname : '.' ∉ t.name.toList) :
    NamesItself srv t := by
  intro a ha
  simp only [SqlServer.object, splitOn_dotted hschema hname, String.ofList_toList, Option.some.injEq] at ha
  exact ha.symm

theorem ReplaceRun.allOrNothing (hname : NamesItself srv t) {x : Run (World side) (Option Err)}
    (h : ReplaceRun srv t (sinkView x.before) x.result (sinkView x.after)) :
    ∃ bs loadTS, AllOrNothing t x bs loadTS := by
  have hstg : t ∉ [staging t] := by simpa using (staging_ne t).symm
  cases h with
  | failed h =>
    obtain ⟨bs, hbs⟩ := h.delivered
    have hsame : x.after.db.tables t = x.before.db.tables t :=
      h.off t (by simpa using ⟨(staging_ne t).symm, (old_ne t).symm⟩)
    exact ⟨bs, 0, hbs, .inl hsame, fun hnone => absurd hnone h.err, fun _ => hsame⟩
  | nothing habsent hfin hdel hoff =>
    have hsame : x.after.db.tables t = x.before.db.tables t := hoff t hstg
    exact ⟨[], 0, hdel.trans (List.append_nil _).symm, .inl hsame,
      fun _ => .inr ⟨habsent, rfl, hsame.trans habsent⟩, fun _ => hsame⟩
  | @published bs loadTS rows a hrows _ hobj hfin hdel hoff hlive =>
    have hholds : Holds t loadTS bs x.after.db.tables := ⟨rows, hrows, hlive (hname a hobj)⟩
    refine ⟨bs, loadTS, hdel, .inr hholds, fun _ => .inl hholds, fun heq => ?_⟩
    exact absurd (hfin.symm.trans heq) (Nat.succ_ne_self _)

/-- Replace is all or nothing in every run of every history. -/
theorem replace_allOrNothing (hname : NamesItself srv t) {w w' : World side}
    {hs : List ((World.machine srv side).HEvent (ReplaceLoad S t))}
    {rs : List (Run (World side) (Option Err))}
    (h : (World.machine srv side).runHistory ReplaceLoad.execute hs w = some (rs, w')) :
    ∀ x ∈ rs, ∃ bs loadTS, AllOrNothing t x bs loadTS := by
  have hruns := (sinkSpec_meets srv side).runHistory
    (I := fun l _ => ∀ y ∈ l, ReplaceRun srv t y.before y.result y.after) (l := [])
    (fun l v v' hl _ => hl)
    (fun l i v hl => Spec.wp_mono (wp_execute i v) fun err v' hrun y hy => ?_) (by simp) h
  · intro x hx
    exact (hruns (x.map sinkView) (by simpa using ⟨x, hx, rfl⟩)).allOrNothing hname
  · rcases List.mem_append.1 hy with hy | hy
    · exact hl y hy
    · obtain rfl := List.mem_singleton.1 hy
      exact hrun

end

/-! ## A source of one row -/

/-- A source module without driver calls. -/
def noDriver : Sig := ⟨Empty, Empty.elim⟩

/-- A session that always succeeds unless the schedule says otherwise. -/
def plainSide : SourceSide noDriver where
  State := Unit
  Change := Empty
  change := Empty.elim
  obtain _ o _ s := (match o with | .ok => .ok 0 | .fail msg _ => .error msg, s)
  release _ _ _ s := s
  answer _ c _ _ _ := c.elim

/-- The batch that the source hands over. -/
def oneRow : Batch := ⟨[⟨"id", "int64", false⟩], [[("id", .int64 1)]]⟩

/-- A `Read` that hands over one batch. -/
def readOneRow : Reader noDriver := fun _ => do
  match ← emit oneRow with
  | some e => return ({}, some e)
  | none => return ({ rowsRead := 1 }, none)

theorem reports_readOneRow (cfg : LoadConfig) : Reports false (readOneRow cfg) := by
  rintro (_ | e)
  · exact fun h => absurd h (by simp)
  · exact fun _ => by simp

/-- A replace load of such a source on the target `t`. -/
def plainLoad [GoLib] (t : TargetTable) {read : Reader noDriver}
    (reports : ∀ cfg, Reports false (read cfg)) : ReplaceLoad noDriver t where
  runner := { resolveParams := fun _ => .ok [], sink := Mssql.sink, read }
  load :=
    { id := 1, sourceID := 1, source := ⟨1, "src", "sqlserver", "", true⟩, name := "load"
      objectName := "t", targetSchema := t.schema, targetTable := t.name, mode := loadModeReplace
      watermarkColumn := "", watermarkType := watermarkNone, batchSize := 0
      autoCreateTable := true, cronExpression := "", isEnabled := true }
  sink := rfl
  mode := rfl
  kind := by simp
  target := rfl
  reports := reports

/-- The load of one row. -/
def oneRowLoad [GoLib] (t : TargetTable) : ReplaceLoad noDriver t := plainLoad t reports_readOneRow

/-- A system with the given tables in the sink. -/
def sinkWorld (ts : Tables) : World plainSide :=
  { src := (), db := ⟨ts, none⟩, store := ⟨fun _ => none, [], 1⟩, registry := ∅, metrics := []
    clock := 0, cancelled := false }

/-- The orders table of a sink that holds nothing else. -/
def orders : TargetTable := ⟨"dbo", "orders"⟩

/-- A system in which `orders` has no rows. -/
def emptyOrders : World plainSide := sinkWorld (Function.update (fun _ => none) orders (some []))

section

attribute [local instance] GoLib.ascii

/-- `n` calls in a row that succeed. -/
def succeed (srv : SqlServer) (n : ℕ) : List (World.machine srv plainSide).Event :=
  List.replicate n (.answer .ok)

/-- A run with the database `wh`: the target is the absent table `a.b` in the
    schema `wh`, and there is a table `b_stg` in the schema `a`. -/
def dottedRun : Option (List (Run (World plainSide) (Option Err)) × World plainSide) :=
  (World.machine ⟨"wh", "dbo"⟩ plainSide).runHistory ReplaceLoad.execute
    [.run (oneRowLoad ⟨"wh", "a.b"⟩) (succeed _ 23)]
    (sinkWorld fun u => if u = ⟨"a", "b_stg"⟩ then some [] else none)

/-- Nothing fails and `Execute` returns nil, but instead of the target there is
    a table `a.b` in the schema `a`. -/
theorem replace_publishes_other_table :
    ∃ x w', dottedRun = some ([x], w') ∧ x.result = none ∧
      x.after.db.tables ⟨"wh", "a.b"⟩ = none ∧ x.after.db.tables ⟨"a", "a.b"⟩ = some [] ∧
      ¬∃ bs loadTS, AllOrNothing ⟨"wh", "a.b"⟩ x bs loadTS := by
  have heval : dottedRun.map (fun p => p.1.map fun x => (x.result,
      x.after.db.tables ⟨"wh", "a.b"⟩, x.after.db.tables ⟨"a", "a.b"⟩)) =
      some [(none, none, some [])] := by decide +kernel
  have hbatches : dottedRun.map (fun p => p.1.map fun x => (deliveredBatches x.before.trace,
      deliveredBatches x.after.trace)) = some [([], [oneRow])] := by decide +kernel
  obtain ⟨⟨rs, w'⟩, hrun, hrs⟩ := Option.map_eq_some_iff.1 heval
  obtain ⟨x, rfl, hx⟩ := List.map_eq_singleton_iff.1 hrs
  simp only [hrun, Option.map_some, List.map_cons, List.map_nil, Option.some.injEq,
    List.cons.injEq, Prod.mk.injEq, and_true] at hbatches hx
  obtain ⟨hres, hlive, hother⟩ := hx
  refine ⟨x, w', hrun, hres, hlive, hother, ?_⟩
  rintro ⟨bs, loadTS, h⟩
  rcases h.success hres with ⟨rows, -, hrows⟩ | ⟨-, rfl, -⟩
  · rw [hlive] at hrows; cases hrows
  · have := h.batches
    rw [hbatches.1, hbatches.2] at this
    cases this

/-- Two runs on a present table `dbo.t`: the first fails when its transaction
    commits, the second publishes its row. -/
def twoRuns : Option (List (Run (World plainSide) (Option Err)) × World plainSide) :=
  (World.machine ⟨"wh", "dbo"⟩ plainSide).runHistory ReplaceLoad.execute
    [.run (oneRowLoad ⟨"dbo", "t"⟩) (succeed _ 18 ++ .answer (.fail "lost" 0) :: succeed _ 7),
      .run (oneRowLoad ⟨"dbo", "t"⟩) (succeed _ 25)]
    (sinkWorld fun u => if u = ⟨"dbo", "t"⟩ then some [⟨[], 0⟩] else none)

theorem twoRuns_allOrNothing :
    ∃ rs w', twoRuns = some (rs, w') ∧ rs.map (·.result) = [some "commit replace: lost", none] ∧
      ∀ x ∈ rs, ∃ bs loadTS, AllOrNothing ⟨"dbo", "t"⟩ x bs loadTS := by
  have heval : twoRuns.map (fun p => p.1.map (·.result)) =
      some [some "commit replace: lost", none] := by decide +kernel
  obtain ⟨⟨rs, w'⟩, hrun, hrs⟩ := Option.map_eq_some_iff.1 heval
  exact ⟨rs, w', hrun, hrs,
    replace_allOrNothing (namesItself_of_notMem (by decide) (by decide)) hrun⟩

end

end DataLoader
