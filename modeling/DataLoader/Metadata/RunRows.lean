import DataLoader.Metadata.Store
import Mathlib.Data.List.Nodup

/-!
# The rows of `meta_load_runs`

How the store calls change the rows of runs: which keys there are, and which
rows keep their status.

* `Keyed`: the rows have distinct keys below the next one.
* `Final`: a row that has ended keeps its status.
-/

namespace DataLoader.Store

/-- The rows have distinct keys below the next one. -/
structure Keyed (s : Store) : Prop where
  nodup : (s.runs.map (·.id)).Nodup
  lt_next : ∀ row ∈ s.runs, row.id < s.nextRunID

/-- Every row that has ended in `s` is in `s'` with the same status. -/
def Final (s s' : Store) : Prop :=
  ∀ row ∈ s.runs, row.status.terminal = true →
    ∃ row' ∈ s'.runs, row'.id = row.id ∧ row'.status = row.status

theorem Final.refl (s : Store) : Final s s := fun row hrow _ => ⟨row, hrow, rfl, rfl⟩

theorem Final.trans {s₁ s₂ s₃ : Store} (h₁ : Final s₁ s₂) (h₂ : Final s₂ s₃) : Final s₁ s₃ := by
  intro row hrow ht
  obtain ⟨row₂, hrow₂, hid₂, hst₂⟩ := h₁ row hrow ht
  obtain ⟨row₃, hrow₃, hid₃, hst₃⟩ := h₂ row₂ hrow₂ (by rw [hst₂, ht])
  exact ⟨row₃, hrow₃, hid₃.trans hid₂, hst₃.trans hst₂⟩

theorem Final.of_runs_eq {s s' : Store} (h : s'.runs = s.runs) : Final s s' :=
  fun row hrow _ => ⟨row, h ▸ hrow, rfl, rfl⟩

/-- The row `k` has not ended. -/
def Open (s : Store) (k : ℕ) : Prop := ∀ row ∈ s.runs, row.id = k → row.status = .running

variable {s : Store}

/-! ## `StartRun` -/

theorem Keyed.startRun (h : s.Keyed) (loadID : Int) (v : String) (now : Time) :
    (s.startRun loadID v now).Keyed := by
  refine ⟨?_, fun row hrow => ?_⟩
  · simp only [Store.startRun, List.map_append, List.map_cons, List.map_nil]
    refine List.nodup_append.2 ⟨h.nodup, List.nodup_singleton _, ?_⟩
    intro k hk k' hk' heq
    obtain ⟨row, hrow, rfl⟩ := List.mem_map.1 hk
    have hlt := h.lt_next row hrow
    rw [heq, List.mem_singleton.1 hk'] at hlt
    exact absurd hlt (Nat.lt_irrefl _)
  · rcases List.mem_append.1 hrow with hrow | hrow
    · exact Nat.lt_succ_of_lt (h.lt_next row hrow)
    · rw [List.mem_singleton.1 hrow]
      exact Nat.lt_succ_self _

theorem final_startRun (loadID : Int) (v : String) (now : Time) :
    Final s (s.startRun loadID v now) :=
  fun row hrow _ => ⟨row, List.mem_append_left _ hrow, rfl, rfl⟩

theorem Open.startRun {k : ℕ} (h : s.Open k) (loadID : Int) (v : String) (now : Time) :
    (s.startRun loadID v now).Open k := by
  intro row hrow hid
  rcases List.mem_append.1 hrow with hrow | hrow
  · exact h row hrow hid
  · rw [List.mem_singleton.1 hrow]
    rfl

theorem Keyed.open_next (h : s.Keyed) : s.Open s.nextRunID := by
  intro row hrow hid
  have := h.lt_next row hrow
  omega

/-! ## `FinishRun` -/

theorem runs_saveRun_ids (run : LoadRun) :
    (s.saveRun run).runs.map (·.id) = s.runs.map (·.id) := by
  simp only [saveRun, List.map_map]
  refine List.map_congr_left fun row _ => ?_
  by_cases hid : row.id = run.id <;> simp [hid]

theorem exists_saveRun {run row : LoadRun} (h : row ∈ s.runs) (hid : run.id = row.id) :
    ∃ row' ∈ (s.saveRun run).runs, row'.id = row.id :=
  ⟨run, List.mem_map.2 ⟨row, h, if_pos hid.symm⟩, hid⟩

theorem eq_of_mem_saveRun {run row : LoadRun} (h : row ∈ (s.saveRun run).runs)
    (hid : row.id = run.id) : row = run := by
  obtain ⟨row', -, rfl⟩ := List.mem_map.1 h
  by_cases heq : row'.id = run.id
  · rw [if_pos heq]
  · rw [if_neg heq] at hid
    exact absurd hid heq

theorem Keyed.saveRun (h : s.Keyed) (run : LoadRun) : (s.saveRun run).Keyed := by
  refine ⟨by rw [runs_saveRun_ids]; exact h.nodup, fun row hrow => ?_⟩
  have hmem := List.mem_map_of_mem (f := fun row : LoadRun => row.id) hrow
  rw [runs_saveRun_ids] at hmem
  obtain ⟨row', hrow', heq⟩ := List.mem_map.1 hmem
  have hlt := h.lt_next row' hrow'
  rwa [heq] at hlt

/-- Saving over a row that has not ended changes no status that is final. -/
theorem final_saveRun {run : LoadRun} (h : s.Open run.id) : Final s (s.saveRun run) := by
  intro row hrow ht
  have hne : row.id ≠ run.id := by
    intro heq
    rw [h row hrow heq] at ht
    cases ht
  refine ⟨row, List.mem_map.2 ⟨row, hrow, if_neg hne⟩, rfl, rfl⟩

theorem Open.saveRun {k : ℕ} (h : s.Open k) {run : LoadRun} (hne : k ≠ run.id) :
    (s.saveRun run).Open k := by
  intro row hrow hid
  obtain ⟨row', hrow', rfl⟩ := List.mem_map.1 hrow
  by_cases heq : row'.id = run.id
  · rw [if_pos heq] at hid
    exact absurd hid.symm hne
  · rw [if_neg heq] at hid ⊢
    exact h row' hrow' hid

theorem Keyed.answer (h : s.Keyed) (now : Time) (o : Outcome) (c : StoreCall) :
    (s.answer now o c).2.Keyed := by
  cases c with
  | getWatermark loadID => exact h
  | upsertWatermark loadID v =>
    simp only [Store.answer]
    split_ifs
    · exact ⟨h.nodup, h.lt_next⟩
    · exact h
  | startRun loadID v =>
    simp only [Store.answer]
    split_ifs
    · exact h.startRun loadID v now
    · exact h
  | finishRun run status rr rw wm msg =>
    simp only [Store.answer]
    split_ifs
    · exact h.saveRun _
    · exact h

/-- Saving over a row that was added to those of `s`. -/
theorem Keyed.runs_saveRun_added (h : s.Keyed) {s' : Store} {row run : LoadRun}
    (hruns : s'.runs = s.runs ++ [row]) (hrow : row.id = s.nextRunID) (hid : run.id = row.id) :
    (s'.saveRun run).runs = s.runs ++ [run] := by
  have hold : s.runs.map (fun r => if r.id = run.id then run else r) = s.runs := by
    refine (List.map_congr_left fun r hr => if_neg ?_).trans (List.map_id _)
    have hlt := h.lt_next r hr
    omega
  show s'.runs.map (fun r => if r.id = run.id then run else r) = s.runs ++ [run]
  rw [hruns, List.map_append, hold, List.map_singleton, if_pos hid.symm]

/-! ## `AbortRunningRuns` -/

theorem aborted_id (reason : String) (now : Time) (row : LoadRun) :
    (aborted reason now row).id = row.id := by
  unfold aborted
  split_ifs <;> rfl

theorem aborted_terminal (reason : String) (now : Time) (row : LoadRun) :
    (aborted reason now row).status.terminal = true := by
  unfold aborted
  by_cases h : row.status = .running
  · rw [if_pos h]
    rfl
  · rw [if_neg h]
    simpa [RunStatus.terminal] using h

theorem aborted_of_terminal {row : LoadRun} (h : row.status.terminal = true) (reason : String)
    (now : Time) : aborted reason now row = row := by
  unfold aborted
  rw [if_neg]
  intro hr
  rw [hr] at h
  cases h

theorem Keyed.abortRunningRuns (h : s.Keyed) (reason : String) (now : Time) :
    (s.abortRunningRuns reason now).Keyed := by
  refine ⟨?_, fun row hrow => ?_⟩
  · simp only [Store.abortRunningRuns, List.map_map]
    rw [show (fun row : LoadRun => row.id) ∘ aborted reason now = fun row => row.id from
      funext (aborted_id reason now)]
    exact h.nodup
  · obtain ⟨row', hrow', rfl⟩ := List.mem_map.1 hrow
    rw [aborted_id]
    exact h.lt_next row' hrow'

theorem final_abortRunningRuns (reason : String) (now : Time) :
    Final s (s.abortRunningRuns reason now) := by
  intro row hrow ht
  exact ⟨row, List.mem_map.2 ⟨row, hrow, aborted_of_terminal ht reason now⟩, rfl, rfl⟩

theorem terminal_abortRunningRuns (reason : String) (now : Time) :
    ∀ row ∈ (s.abortRunningRuns reason now).runs, row.status.terminal = true := by
  intro row hrow
  obtain ⟨row', -, rfl⟩ := List.mem_map.1 hrow
  exact aborted_terminal reason now row'

end DataLoader.Store
