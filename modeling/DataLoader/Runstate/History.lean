import DataLoader.Runstate
import Mathlib.Data.List.Induction

/-!
# Histories of the run-state registry

`Reload` registers every load again while runs report to the registry
(`internal/runstate/registry.go`). `RegistryOp` is a call that changes the registry;
each takes the lock, so what the goroutines do is a list of calls. An entry consists
of a description and of the fields that runs set, and no call mixes the two:

* `outcome_apply`: what a call does to the run fields depends on the run fields alone,
  and is nothing for a load that is registered again.
* `status_apply`: what a call does to the descriptions depends on the call alone.
* `outcome_dropReregisters`: a history without its repeated registrations leaves the
  same run fields.
-/

namespace DataLoader

/-- The fields of a `LoadState` that runs set. -/
structure RunFields where
  lastRunUUID : String
  lastStartedAt : Time
  lastFinishedAt : Time
  lastStatus : String
  lastRowsRead : Int
  lastRowsWritten : Int
  lastError : String
  currentlyRunning : Bool
  deriving DecidableEq, Repr

def LoadState.runFields (s : LoadState) : RunFields :=
  ⟨s.lastRunUUID, s.lastStartedAt, s.lastFinishedAt, s.lastStatus, s.lastRowsRead,
    s.lastRowsWritten, s.lastError, s.currentlyRunning⟩

/-- A call that changes the registry. -/
inductive RegistryOp
  | register (s : LoadState)
  | markRunning (loadID : Int) (runUUID : String) (startedAt : Time)
  | markFinished (loadID : Int) (status : String) (finishedAt : Time)
      (rowsRead rowsWritten : Int) (errMsg : String)
  deriving DecidableEq, Repr

namespace RegistryOp

/-- The load that a call is about. -/
def loadID : RegistryOp → Int
  | .register s => s.loadID
  | .markRunning loadID .. => loadID
  | .markFinished loadID .. => loadID

/-- What a call registers. -/
def registered : RegistryOp → Option LoadState
  | .register s => some s
  | _ => none

/-- What a call does to the run fields. -/
def onOutcomes : RegistryOp → (Int → Option RunFields) → Int → Option RunFields
  | .register s, o => Function.update o s.loadID (some ((o s.loadID).getD s.runFields))
  | .markRunning loadID runUUID startedAt, o =>
    Function.update o loadID ((o loadID).map fun f =>
      { f with
        currentlyRunning := true, lastRunUUID := runUUID, lastStartedAt := startedAt
        lastStatus := "running", lastError := "" })
  | .markFinished loadID status finishedAt rowsRead rowsWritten errMsg, o =>
    Function.update o loadID ((o loadID).map fun f =>
      { f with
        currentlyRunning := false, lastFinishedAt := finishedAt, lastStatus := status
        lastRowsRead := rowsRead, lastRowsWritten := rowsWritten, lastError := errMsg })

/-- What a call does to the descriptions. -/
def onStatus : RegistryOp → (Int → Option StatusRow) → Int → Option StatusRow
  | .register s, d => Function.update d s.loadID (some s.described)
  | _, d => d

/-- A load that is there keeps its run fields when it is registered again. -/
theorem onOutcomes_register_again {s : LoadState} {o : Int → Option RunFields}
    (h : o s.loadID ≠ none) : (RegistryOp.register s).onOutcomes o = o := by
  obtain ⟨f, hf⟩ := Option.ne_none_iff_exists'.1 h
  rw [onOutcomes, hf, Option.getD_some, ← hf, Function.update_eq_self]

theorem update_map_ne_none {o : Int → Option RunFields} {id : Int} (h : o id ≠ none)
    (id' : Int) (g : RunFields → RunFields) :
    Function.update o id' ((o id').map g) id ≠ none := by
  rw [Function.update_apply]
  split_ifs with hid
  · subst hid
    simpa only [ne_eq, Option.map_eq_none_iff] using h
  · exact h

/-- No call takes a load out. -/
theorem onOutcomes_ne_none (op : RegistryOp) {o : Int → Option RunFields} {id : Int}
    (h : o id ≠ none) : op.onOutcomes o id ≠ none := by
  cases op with
  | register s =>
    rw [onOutcomes, Function.update_apply]
    split_ifs
    · exact Option.some_ne_none _
    · exact h
  | markRunning loadID runUUID startedAt => exact update_map_ne_none h loadID _
  | markFinished loadID status finishedAt rowsRead rowsWritten errMsg =>
    exact update_map_ne_none h loadID _

end RegistryOp

namespace Registry

/-- One call. -/
def apply (r : Registry) : RegistryOp → Registry
  | .register s => r.register s
  | .markRunning loadID runUUID startedAt => r.markRunning loadID runUUID startedAt
  | .markFinished loadID status finishedAt rowsRead rowsWritten errMsg =>
    r.markFinished loadID status finishedAt rowsRead rowsWritten errMsg

/-- The registry after the calls `ops` on the one that `New` makes. -/
def replay (ops : List RegistryOp) : Registry := ops.foldl apply ∅

theorem replay_append (ops : List RegistryOp) (op : RegistryOp) :
    replay (ops ++ [op]) = (replay ops).apply op := by
  rw [replay, replay, List.foldl_append, List.foldl_cons, List.foldl_nil]

/-- The run fields of a load. -/
def outcome (r : Registry) (id : Int) : Option RunFields := (r.lookup id).map LoadState.runFields

/-! ## One call -/

theorem outcome_insert (r : Registry) (id : Int) (s : LoadState) :
    outcome (AList.insert id s r) = Function.update r.outcome id (some s.runFields) := by
  funext id'
  by_cases hid : id' = id
  · subst hid
    simp [outcome]
  · rw [Function.update_of_ne hid, outcome, AList.lookup_insert_ne hid, outcome]

/-- An update of an entry, and nothing for an unknown load. -/
theorem outcome_update (r : Registry) (id : Int) (f : LoadState → LoadState)
    (g : RunFields → RunFields) (hg : ∀ s, (f s).runFields = g s.runFields) :
    outcome (match r.lookup id with
      | none => r
      | some s => r.insert id (f s)) = Function.update r.outcome id ((r.outcome id).map g) := by
  cases hl : r.lookup id with
  | none =>
    have hnone : r.outcome id = none := by rw [outcome, hl, Option.map_none]
    rw [hnone, Option.map_none, ← hnone, Function.update_eq_self]
  | some s =>
    have hsome : r.outcome id = some s.runFields := by rw [outcome, hl, Option.map_some]
    rw [outcome_insert, hg, hsome, Option.map_some]

theorem outcome_apply (r : Registry) (op : RegistryOp) :
    (r.apply op).outcome = op.onOutcomes r.outcome := by
  cases op with
  | register s =>
    rw [apply, register, outcome_insert, RegistryOp.onOutcomes, outcome]
    cases r.lookup s.loadID <;> rfl
  | markRunning loadID runUUID startedAt => exact outcome_update r loadID _ _ fun s => rfl
  | markFinished loadID status finishedAt rowsRead rowsWritten errMsg =>
    exact outcome_update r loadID _ _ fun s => rfl

theorem status_apply (r : Registry) (op : RegistryOp) :
    (r.apply op).status = op.onStatus r.status := by
  cases op with
  | register s => exact status_register r s
  | markRunning loadID runUUID startedAt => exact status_markRunning ..
  | markFinished loadID status finishedAt rowsRead rowsWritten errMsg =>
    exact status_markFinished ..

theorem Filed.apply {r : Registry} (h : r.Filed) (op : RegistryOp) : (r.apply op).Filed := by
  cases op with
  | register s => exact h.register s
  | markRunning loadID runUUID startedAt => exact h.markRunning loadID runUUID startedAt
  | markFinished loadID status finishedAt rowsRead rowsWritten errMsg =>
    exact h.markFinished loadID status finishedAt rowsRead rowsWritten errMsg

/-- A call changes at most the entry of its load. -/
theorem apply_eq (r : Registry) (op : RegistryOp) :
    r.apply op = r ∨ ∃ s, r.apply op = r.insert op.loadID s := by
  cases op with
  | register s => exact .inr ⟨_, rfl⟩
  | markRunning loadID runUUID startedAt =>
    rw [apply, markRunning]
    cases r.lookup loadID with
    | none => exact .inl rfl
    | some s => exact .inr ⟨_, rfl⟩
  | markFinished loadID status finishedAt rowsRead rowsWritten errMsg =>
    rw [apply, markFinished]
    cases r.lookup loadID with
    | none => exact .inl rfl
    | some s => exact .inr ⟨_, rfl⟩

theorem lookup_apply_of_ne (r : Registry) {op : RegistryOp} {id : Int} (h : id ≠ op.loadID) :
    (r.apply op).lookup id = r.lookup id := by
  obtain heq | ⟨s, heq⟩ := r.apply_eq op
  · rw [heq]
  · rw [heq, AList.lookup_insert_ne h]

/-! ## Histories -/

theorem filed_replay (ops : List RegistryOp) : (replay ops).Filed := by
  induction ops using List.reverseRecOn with
  | nil =>
    intro id s hl
    rw [replay, List.foldl_nil, AList.lookup_empty] at hl
    cases hl
  | append_singleton ops op ih =>
    rw [replay_append]
    exact ih.apply op

/-- The last registration of a load. -/
def lastRegister (ops : List RegistryOp) (id : Int) : Option LoadState :=
  ((ops.filterMap RegistryOp.registered).filter fun s => s.loadID = id).getLast?

theorem lastRegister_append_register (ops : List RegistryOp) (s : LoadState) (id : Int) :
    lastRegister (ops ++ [.register s]) id =
      if s.loadID = id then some s else lastRegister ops id := by
  unfold lastRegister
  rw [List.filterMap_append, List.filter_append]
  by_cases hid : s.loadID = id <;> simp [RegistryOp.registered, hid]

theorem lastRegister_append_of_none (ops : List RegistryOp) {op : RegistryOp}
    (h : op.registered = none) (id : Int) :
    lastRegister (ops ++ [op]) id = lastRegister ops id := by
  simp [lastRegister, h]

/-- The descriptions are those of the last registrations. -/
theorem status_replay (ops : List RegistryOp) (id : Int) :
    (replay ops).status id = (lastRegister ops id).map LoadState.described := by
  induction ops using List.reverseRecOn with
  | nil => rfl
  | append_singleton ops op ih =>
    rw [replay_append, status_apply]
    cases op with
    | register s =>
      rw [lastRegister_append_register, RegistryOp.onStatus, Function.update_apply]
      split_ifs with h₁ h₂ h₂
      · rfl
      · exact absurd h₁.symm h₂
      · exact absurd h₂.symm h₁
      · exact ih
    | markRunning loadID runUUID startedAt =>
      rw [lastRegister_append_of_none ops rfl]
      exact ih
    | markFinished loadID status finishedAt rowsRead rowsWritten errMsg =>
      rw [lastRegister_append_of_none ops rfl]
      exact ih

/-- The history without the registrations of the ids in `p` that are not the id's
    first; the ids in `seen` have been registered before. -/
def dropReregisters (p : Int → Bool) : List Int → List RegistryOp → List RegistryOp
  | _, [] => []
  | seen, .register s :: ops =>
    if p s.loadID ∧ s.loadID ∈ seen then dropReregisters p seen ops
    else .register s :: dropReregisters p (s.loadID :: seen) ops
  | seen, op :: ops => op :: dropReregisters p seen ops

/-- Two registries with the same run fields, one of which skips registrations of
    loads that it has. -/
theorem outcome_dropReregisters (p : Int → Bool) (ops : List RegistryOp) :
    ∀ {seen : List Int} {r r' : Registry}, r'.outcome = r.outcome →
      (∀ id ∈ seen, r.outcome id ≠ none) →
      ((dropReregisters p seen ops).foldl apply r').outcome = (ops.foldl apply r).outcome := by
  induction ops with
  | nil => exact fun h _ => h
  | cons op ops ih =>
    intro seen r r' h hseen
    have hstep : (r'.apply op).outcome = (r.apply op).outcome := by
      rw [outcome_apply, outcome_apply, h]
    have hkept : ∀ id ∈ seen, (r.apply op).outcome id ≠ none := by
      intro id hid
      rw [outcome_apply]
      exact op.onOutcomes_ne_none (hseen id hid)
    cases op with
    | register s =>
      rw [dropReregisters]
      split_ifs with hagain
      · -- the kept history has no counterpart of this call
        refine ih (h.trans ?_) hkept
        rw [outcome_apply, RegistryOp.onOutcomes_register_again (hseen _ hagain.2)]
      · refine ih hstep ?_
        intro id hid
        rcases List.mem_cons.1 hid with rfl | hid
        · rw [outcome_apply, RegistryOp.onOutcomes, Function.update_self]
          simp
        · exact hkept id hid
    | markRunning loadID runUUID startedAt => exact ih hstep hkept
    | markFinished loadID status finishedAt rowsRead rowsWritten errMsg => exact ih hstep hkept

/-! ## The view -/

/-- Entries are told apart by their ids, so the view is determined by what it
    contains. -/
theorem eq_of_increasing {α : Type} (key : α → Int) {l l' : List α}
    (h : (l.map key).Pairwise (· < ·)) (h' : (l'.map key).Pairwise (· < ·))
    (hmem : ∀ a, a ∈ l ↔ a ∈ l') : l = l' := by
  have : Std.Irrefl fun a b => key a < key b := ⟨fun a => lt_irrefl (key a)⟩
  have : Std.Antisymm fun a b => key a < key b := ⟨fun a b hab hba => absurd hab hba.asymm⟩
  exact (List.pairwise_map.1 h).eq_of_mem_iff (List.pairwise_map.1 h') hmem

theorem Filed.mem_snapshot_iff {r : Registry} (h : r.Filed) {s : LoadState} :
    s ∈ r.snapshot ↔ r.lookup s.loadID = some s := by
  rw [mem_snapshot]
  constructor
  · rintro ⟨id, hl⟩
    rwa [h id s hl]
  · exact fun hl => ⟨_, hl⟩

/-- The outcomes in the view are those of the registry. -/
theorem Filed.mem_outcomes {r : Registry} (h : r.Filed) {id : Int} {f : RunFields} :
    (id, f) ∈ r.snapshot.map (fun s => (s.loadID, s.runFields)) ↔ r.outcome id = some f := by
  simp only [List.mem_map, h.mem_snapshot_iff, outcome, Option.map_eq_some_iff, Prod.mk.injEq]
  constructor
  · rintro ⟨s, hl, rfl, hf⟩
    exact ⟨s, hl, hf⟩
  · rintro ⟨s, hl, hf⟩
    have hid := h id s hl
    exact ⟨s, hid ▸ hl, hid, hf⟩

theorem Filed.outcomes_eq {r r' : Registry} (h : r.Filed) (h' : r'.Filed)
    (heq : r'.outcome = r.outcome) :
    r'.snapshot.map (fun s => (s.loadID, s.runFields)) =
      r.snapshot.map fun s => (s.loadID, s.runFields) := by
  refine eq_of_increasing Prod.fst ?_ ?_ ?_
  · rw [List.map_map]
    exact h'.increasing
  · rw [List.map_map]
    exact h.increasing
  · rintro ⟨id, f⟩
    rw [h.mem_outcomes, h'.mem_outcomes, heq]

/-- The view finds a load exactly if the registry has it. -/
theorem Filed.find?_snapshot {r : Registry} (h : r.Filed) (id : Int) :
    r.snapshot.find? (fun s => s.loadID = id) = r.lookup id := by
  cases hfind : r.snapshot.find? (fun s => s.loadID = id) with
  | none =>
    refine (Option.eq_none_iff_forall_ne_some.2 fun s hl => ?_).symm
    have hmem := List.find?_eq_none.1 hfind s (mem_snapshot.2 ⟨id, hl⟩)
    exact hmem (decide_eq_true (h id s hl))
  | some s =>
    have hid : s.loadID = id := by simpa only [decide_eq_true_eq] using List.find?_some hfind
    rw [← hid, h.mem_snapshot_iff.1 (List.mem_of_find?_eq_some hfind)]

theorem Filed.snapshot_apply_of_ne {r : Registry} (h : r.Filed) (op : RegistryOp) :
    (r.apply op).snapshot.filter (fun s => s.loadID ≠ op.loadID) =
      r.snapshot.filter fun s => s.loadID ≠ op.loadID := by
  have hsub : ∀ {r : Registry}, r.Filed →
      ((r.snapshot.filter fun s => s.loadID ≠ op.loadID).map (·.loadID)).Pairwise (· < ·) :=
    fun h => h.increasing.sublist (List.filter_sublist.map _)
  refine eq_of_increasing (·.loadID) (hsub (h.apply op)) (hsub h) fun s => ?_
  simp only [List.mem_filter, decide_eq_true_eq, (h.apply op).mem_snapshot_iff, h.mem_snapshot_iff]
  refine and_congr_left fun hne => ?_
  rw [r.lookup_apply_of_ne hne]

/-- After any calls, the registrations of a load after its first have set nothing
    but its description, which is that of the last one: without them, whichever
    loads `p` they are left out for, the view has the same loads with the same run
    fields. A call leaves the entries of the other loads as they were, and the view
    is in increasing order of the ids, each once. -/
theorem reregistering_keeps_outcomes (ops : List RegistryOp) :
    (∀ p : Int → Bool,
      (replay (dropReregisters p [] ops)).snapshot.map (fun s => (s.loadID, s.runFields)) =
        (replay ops).snapshot.map fun s => (s.loadID, s.runFields)) ∧
    (∀ id, ((replay ops).snapshot.find? (fun s => s.loadID = id)).map LoadState.described =
      (lastRegister ops id).map LoadState.described) ∧
    (∀ op, (replay (ops ++ [op])).snapshot.filter (fun s => s.loadID ≠ op.loadID) =
      (replay ops).snapshot.filter fun s => s.loadID ≠ op.loadID) ∧
    ((replay ops).snapshot.map (·.loadID)).Pairwise (· < ·) := by
  have hfiled := filed_replay ops
  refine ⟨fun p => ?_, fun id => ?_, fun op => ?_, hfiled.increasing⟩
  · refine hfiled.outcomes_eq (filed_replay _) ?_
    exact outcome_dropReregisters p ops rfl fun id hid => absurd hid List.not_mem_nil
  · rw [hfiled.find?_snapshot]
    exact status_replay ops id
  · rw [replay_append]
    exact hfiled.snapshot_apply_of_ne op

-- a load is registered again, under a new name, while it runs
example : (replay [.register ⟨1, "a", "s", "sqlserver", "@daily", "", 0, 0, "", 0, 0, "", false⟩,
      .markRunning 1 "u" 5,
      .register ⟨1, "b", "s", "sqlserver", "@daily", "", 0, 0, "", 0, 0, "", false⟩,
      .markFinished 1 "success" 9 3 3 ""]).snapshot =
    [⟨1, "b", "s", "sqlserver", "@daily", "u", 5, 9, "success", 3, 3, "", false⟩] := by
  decide

end Registry

end DataLoader
