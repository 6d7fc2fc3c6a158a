import DataLoader.Pipeline.PoolFit

/-!
# The pool does not deadlock

The functions of the pool take the lock of one entry at a time and give it back, or hand
it to a lease, before they take another (`lock_free`). A call that has to wait therefore
waits for a lease that is outstanding or for a call that holds the lock and can go on by
itself until it has given it back (`pool_progress`), also when `InvalidateAll` and
`PingAll` walk the entries in different orders. No call unlocks an entry that is not locked.
-/

namespace DataLoader

open Effects

/-- Only a lock that is taken makes a step wait, and only one that is not makes it a fault. -/
theorem PoolState.effect_enabled (s : PoolState) (c : PoolCall)
    (hfree : ∀ id, c = .lock id → s.locked id = false)
    (htaken : ∀ id, c = .unlock id → s.locked id = true) : ∃ o r s', s.effect o c = some (r, s') := by
  cases c with
  | slots => exact ⟨.order s.slots, s.slots, s, if_pos (List.isPerm_iff.2 (.refl _))⟩
  | lock id =>
    refine ⟨.ok, (), { s with locked := Function.update s.locked id true }, ?_⟩
    simp [PoolState.effect, hfree id rfl]
  | unlock id =>
    exact ⟨.ok, (), { s with locked := Function.update s.locked id false }, if_pos (htaken id rfl)⟩
  | _ => exact ⟨.ok, _, _, rfl⟩

namespace PoolSys

variable {p : SourcePool} {w : PoolSys} {ph : ℕ → PoolPhase} {place : ℕ → Place}

/-- The call of caller `i` can make its next step. -/
def CanStep (p : SourcePool) (w : PoolSys) (i : ℕ) : Prop :=
  ∃ o w', step p (.step i o) w = some w'

/-- The entry whose lock the call of caller `i` is to take next. -/
def asksLock (w : PoolSys) (i : ℕ) : Option Int :=
  match w.busy i with
  | some ⟨_, _, .call (.lock id) _⟩ => some id
  | _ => none

theorem asksLock_eq_some {i : ℕ} {id : Int} : w.asksLock i = some id ↔
    ∃ job since k, w.busy i = some ⟨job, since, .call (S := poolSig) (.lock id) k⟩ := by
  unfold asksLock
  constructor
  · intro h
    split at h
    next job since id' k hrun =>
      cases h
      exact ⟨job, since, k, hrun⟩
    next => cases h
  · rintro ⟨job, since, k, hrun⟩
    rw [hrun]

/-- On every path the rest of a call gives the lock of the entry `id` back, or hands it to a
    lease, before it asks for a lock or returns. -/
def GivesBack (id : Int) : Prog poolSig PoolResult → Prop
  | .ret _ => False
  | .call c k => c = .unlock id ∨ (∃ src, c = .newLease id src) ∨
      (∀ id', c ≠ .lock id') ∧ ∀ r, GivesBack id (k r)

/-- The call of caller `j` holds the lock of the entry `id`. -/
def HoldsLock (w : PoolSys) (j : ℕ) (id : Int) : Prop :=
  w.pool.locked id = true ∧ ∃ run, w.busy j = some run ∧ GivesBack id run.rest

/-- A call that holds a lock must give it back, since it holds none in the end. -/
theorem givesBack_of_follows {job : PoolJob} {rest : Prog poolSig PoolResult} {q : PoolPhase}
    {id : Int} (h : (SourcePool.protocol job).Follows rest (fun _ q => q = .free) q)
    (hq : q.key = some id) : GivesBack id rest := by
  induction rest generalizing q with
  | ret res =>
    obtain rfl : q = .free := h
    cases hq
  | call c k ih =>
    obtain ⟨hallow, hrest⟩ := h
    have hnot : ∀ id', c ≠ .lock id' := by
      rintro id' rfl
      obtain rfl : q = .free := hallow
      cases hq
    by_cases hunlock : c = .unlock id
    · exact .inl hunlock
    by_cases hlease : ∃ src, c = .newLease id src
    · exact .inr (.inl hlease)
    refine .inr (.inr ⟨hnot, fun r => ih r (hrest r) ?_⟩)
    rcases SourcePool.key_next r hallow hq with hkey | hc | hc
    · exact hkey
    · exact absurd hc hunlock
    · exact absurd hc hlease

namespace Inv

variable (h : Inv ph place w)
include h

theorem holdsLock {i : ℕ} {id : Int} (hkey : (ph i).key = some id) : HoldsLock w i id := by
  refine ⟨h.sound.locks.marked.2 ⟨.inl i, hkey⟩, ?_⟩
  obtain ⟨run, hrun⟩ := h.busy_of_phase (i := i) (by
    intro hfree
    rw [hfree] at hkey
    cases hkey)
  exact ⟨run, hrun, givesBack_of_follows (h.follows hrun) hkey⟩

/-- A call makes its next step if it has no lock to wait for. -/
theorem canStep_of_call {i : ℕ} {job : PoolJob} {since : Time} {c : PoolCall}
    {k : c.Ans → Prog poolSig PoolResult} (hrun : w.busy i = some ⟨job, since, .call c k⟩)
    (hfree : ∀ id, c = .lock id → w.pool.locked id = false) : CanStep p w i := by
  have htaken : ∀ id, c = .unlock id → w.pool.locked id = true := by
    rintro id rfl
    obtain ⟨x, hx, -⟩ := (h.follows hrun).1
    exact (h.holdsLock (i := i) (by rw [hx]; rfl)).1
  obtain ⟨o, r, s', heff⟩ := w.pool.effect_enabled c hfree htaken
  refine ⟨o, ⟨s', w.calls.set i (some ⟨job, since, k r⟩), w.pool.record job w.log c r⟩, ?_⟩
  simp only [step, hrun, heff, Option.map_some]

/-- A call that holds the lock of an entry does not ask for another. -/
theorem lock_free {i : ℕ} {id : Int} (hkey : (ph i).key = some id) : w.asksLock i = none := by
  refine Option.eq_none_iff_forall_ne_some.2 fun id' hasks => ?_
  obtain ⟨job, since, k, hrun⟩ := asksLock_eq_some.1 hasks
  have hfree : ph i = .free := (h.follows hrun).1
  rw [hfree] at hkey
  cases hkey

/-- A call that holds the lock of an entry has not returned, and can go on. -/
theorem holder_canStep {j : ℕ} {id : Int} (hkey : (ph j).key = some id) : CanStep p w j := by
  obtain ⟨⟨job, since, rest⟩, hrun⟩ := h.busy_of_phase (i := j) (by
    intro hfree
    rw [hfree] at hkey
    cases hkey)
  cases rest with
  | ret res =>
    have hfree : ph j = .free := h.follows hrun
    rw [hfree] at hkey
    cases hkey
  | call c k =>
    refine h.canStep_of_call hrun ?_
    rintro id' rfl
    have hasks := asksLock_eq_some.2 ⟨job, since, k, hrun⟩
    rw [h.lock_free hkey] at hasks
    cases hasks

/-- Who holds an entry that is locked. -/
theorem locked_cases {id : Int} (hlocked : w.pool.locked id = true) :
    (∃ j, (ph j).key = some id) ∨ ∃ m l, w.pool.outstanding m = some l ∧ l.id = id := by
  obtain ⟨j | m, hheld⟩ := h.sound.locks.marked.1 hlocked
  · exact .inl ⟨j, hheld⟩
  · obtain ⟨l, hl, hid⟩ := Option.map_eq_some_iff.1 hheld
    exact .inr ⟨m, l, hl, hid⟩

theorem progress {i : ℕ} {job : PoolJob} {since : Time} {c : PoolCall}
    {k : c.Ans → Prog poolSig PoolResult} (hrun : w.busy i = some ⟨job, since, .call c k⟩) :
    CanStep p w i ∨ ∃ id, w.asksLock i = some id ∧
      ((∃ m l, w.pool.outstanding m = some l ∧ l.id = id) ∨
        ∃ j, j ≠ i ∧ HoldsLock w j id ∧ CanStep p w j ∧ w.asksLock j = none) := by
  by_cases hfree : ∀ id, c = .lock id → w.pool.locked id = false
  · exact .inl (h.canStep_of_call hrun hfree)
  · push Not at hfree
    obtain ⟨id, rfl, hlocked⟩ := hfree
    have hasks : w.asksLock i = some id := asksLock_eq_some.2 ⟨job, since, k, hrun⟩
    refine .inr ⟨id, hasks, ?_⟩
    rcases h.locked_cases (by simpa using hlocked) with ⟨j, hj⟩ | hleased
    · refine .inr ⟨j, ?_, h.holdsLock hj, h.holder_canStep hj, h.lock_free hj⟩
      rintro rfl
      rw [h.lock_free hj] at hasks
      cases hasks
    · exact .inl hleased

end Inv

/-- In every state that callers can bring about whose calls of one release function do
    not overlap, a call in progress that has not returned can make its next step, or it
    waits for the lock of an entry that is leased, or for one that another call holds,
    and that call can go on and waits for no lock. -/
theorem pool_progress {n : ℕ} {t : Time} {as : List PoolAct}
    (hr : runs (guarded PoolAct.apart (step p)) as (start n t) = some w) {i : ℕ} {job : PoolJob}
    {since : Time} {c : PoolCall} {k : c.Ans → Prog poolSig PoolResult}
    (hrun : w.busy i = some ⟨job, since, .call c k⟩) :
    CanStep p w i ∨ ∃ id, w.asksLock i = some id ∧
      ((∃ m l, w.pool.outstanding m = some l ∧ l.id = id) ∨
        ∃ j, j ≠ i ∧ HoldsLock w j id ∧ CanStep p w j ∧ w.asksLock j = none) := by
  have hinv : ∃ ph place, Inv ph place w := by
    refine runs_inv (I := fun w => ∃ ph place, Inv ph place w) ?_ ⟨_, _, inv_start n t⟩ hr
    intro a w w' h hs
    obtain ⟨hok, hs⟩ := guarded_eq_some.1 hs
    exact inv_step h hok hs
  obtain ⟨ph, place, h⟩ := hinv
  exact h.progress hrun

/-- Caller 0 is about to open a source for the entry that caller 1 asks for. -/
theorem opening_progress :
    ∃ w, runs (guarded PoolAct.apart (step demoPool)) ([.call 0 (.obtain demoConfig)] ++
        steps 0 6 ++ [.call 1 (.obtain demoConfig)] ++ steps 1 1) (start 2 0) = some w ∧
      w.asksLock 1 = some 1 ∧ (CanStep demoPool w 1 ∨ ∃ id, w.asksLock 1 = some id ∧
        ((∃ m l, w.pool.outstanding m = some l ∧ l.id = id) ∨
          ∃ j, j ≠ 1 ∧ HoldsLock w j id ∧ CanStep demoPool w j ∧ w.asksLock j = none)) := by
  have hrun : ((runs (guarded PoolAct.apart (step demoPool)) ([.call 0 (.obtain demoConfig)] ++
      steps 0 6 ++ [.call 1 (.obtain demoConfig)] ++ steps 1 1) (start 2 0)).map
      fun w => w.asksLock 1) = some (some 1) := by decide +kernel
  obtain ⟨w, hr, hasks⟩ := Option.map_eq_some_iff.1 hrun
  obtain ⟨job, since, k, hbusy⟩ := asksLock_eq_some.1 hasks
  exact ⟨w, hr, hasks, pool_progress hr hbusy⟩

end PoolSys

end DataLoader
