import DataLoader.Effects.Slots
import DataLoader.Effects.Transition
import DataLoader.Pipeline.PoolProtocol

/-!
# Callers of the pool

Any number of callers that call the functions of the pool at the same time. One
action starts a call, makes the next step of a call in progress, or ends a call
that has returned, so every interleaving is a run of `PoolSys.step`. A release
function can be called by anyone once its lease has been granted, and as often
as one likes.

* `Stepped`, `step_cases`: everything that one action can do.
* `PoolAct.apart`: the calls of one release function do not overlap.
-/

namespace DataLoader

open Effects

/-- A call in progress: what was called and when, and what is left of it. -/
structure PoolRun where
  job : PoolJob
  since : Time
  rest : Prog poolSig PoolResult

/-- What has happened to a source: the configuration that it was built from, when
    it was opened, and when a lease on it last ended. -/
structure SourceLog where
  config : Option SourceConfig := none
  opened : Time := 0
  used : Time := 0

/-- The log after the step `c` of a call from the state `s`. A lease ends when its
    release function unlocks the entry. -/
def PoolState.record (s : PoolState) (job : PoolJob) (log : ℕ → SourceLog) :
    (c : PoolCall) → c.Ans → ℕ → SourceLog
  | .build cfg, (.ok src : Except Err ℕ) => Function.update log src ⟨some cfg, s.clock, s.clock⟩
  | .openSrc src, (none : Option Err) =>
    Function.update log src { log src with opened := s.clock, used := s.clock }
  | .unlock id, _ =>
    match job, (s.entry id).src with
    | .release _ _, some src => Function.update log src { log src with used := s.clock }
    | _, _ => log
  | _, _ => log

/-- The pool with its callers; `none` is a caller without a call in progress. -/
structure PoolSys where
  pool : PoolState := {}
  calls : List (Option PoolRun)
  log : ℕ → SourceLog := fun _ => {}

/-- The actions; `i` is the number of a caller. -/
inductive PoolAct
  | call (i : ℕ) (job : PoolJob)
  | step (i : ℕ) (o : PoolOut)
  | ret (i : ℕ)
  | tick (d : ℕ)

/-- A release function exists once its lease has been granted. -/
def PoolJob.callable (s : PoolState) : PoolJob → Bool
  | .release l _ => s.leases[l.num]? == some l
  | _ => true

namespace PoolSys

/-- A new pool with `n` callers at time `t`. -/
def start (n : ℕ) (t : Time) : PoolSys :=
  { pool := { clock := t }, calls := List.replicate n none }

/-- The call that a caller has in progress. -/
def busy (w : PoolSys) (i : ℕ) : Option PoolRun := (w.calls[i]?).join

/-- The transition system. -/
def step (p : SourcePool) : PoolAct → PoolSys → Option PoolSys
  | .call i job, w =>
    match w.calls[i]? with
    | some none =>
      if job.callable w.pool then
        some { w with calls := w.calls.set i (some ⟨job, w.pool.clock, job.prog p⟩) }
      else none
    | _ => none
  | .step i o, w =>
    match w.busy i with
    | some ⟨job, since, .call c k⟩ =>
      (w.pool.effect o c).map fun rs =>
        { pool := rs.2
          calls := w.calls.set i (some ⟨job, since, k rs.1⟩)
          log := w.pool.record job w.log c rs.1 }
    | _ => none
  | .ret i, w =>
    match w.busy i with
    | some ⟨_, _, .ret _⟩ => some { w with calls := w.calls.set i none }
    | _ => none
  | .tick d, w => some { w with pool := { w.pool with clock := w.pool.clock + d } }

end PoolSys

/-- A release function is called while no other call of it is in progress. -/
def PoolAct.apart : PoolAct → PoolSys → Bool
  | .call _ (.release l _), w =>
    w.calls.all fun x =>
      match x with
      | some ⟨.release l' _, _, _⟩ => l'.num != l.num
      | _ => true
  | _, _ => true

namespace PoolSys

variable {p : SourcePool} {w w' : PoolSys}

/-! ## Inversion -/

@[simp] theorem busy_start (n : ℕ) (t : Time) (i : ℕ) : (start n t).busy i = none := by
  unfold busy start
  rcases Nat.lt_or_ge i n with hlt | hge
  · simp [hlt]
  · simp [hge]

theorem calls_of_busy {i : ℕ} {run : PoolRun} (h : w.busy i = some run) :
    w.calls[i]? = some (some run) :=
  Option.join_eq_some_iff.1 h

/-- The calls in progress after one caller's has changed. -/
theorem busy_set {i : ℕ} {x : Option PoolRun} (hi : w.calls[i]? = some x) (y : Option PoolRun) :
    (fun j => ((w.calls.set i y)[j]?).join) = Function.update w.busy i y :=
  slot_set (f := fun x => x) hi y

/-- What one action does to the calls in progress and to the pool. -/
inductive Stepped (p : SourcePool) (w w' : PoolSys) : PoolAct → Prop
  | call (i : ℕ) (job : PoolJob) (hidle : w.busy i = none) (hjob : job.callable w.pool = true)
      (hpool : w'.pool = w.pool) (hlog : w'.log = w.log)
      (hbusy : w'.busy = Function.update w.busy i (some ⟨job, w.pool.clock, job.prog p⟩)) :
      Stepped p w w' (.call i job)
  | step (i : ℕ) (o : PoolOut) (job : PoolJob) (since : Time) (c : PoolCall)
      (k : c.Ans → Prog poolSig PoolResult) (r : c.Ans)
      (hrun : w.busy i = some ⟨job, since, .call c k⟩)
      (heff : w.pool.effect o c = some (r, w'.pool)) (hlog : w'.log = w.pool.record job w.log c r)
      (hbusy : w'.busy = Function.update w.busy i (some ⟨job, since, k r⟩)) :
      Stepped p w w' (.step i o)
  | ret (i : ℕ) (job : PoolJob) (since : Time) (res : PoolResult)
      (hrun : w.busy i = some ⟨job, since, .ret res⟩) (hpool : w'.pool = w.pool)
      (hlog : w'.log = w.log) (hbusy : w'.busy = Function.update w.busy i none) :
      Stepped p w w' (.ret i)
  | tick (d : ℕ) (hpool : w'.pool = { w.pool with clock := w.pool.clock + d })
      (hlog : w'.log = w.log) (hbusy : w'.busy = w.busy) : Stepped p w w' (.tick d)

theorem step_cases {a : PoolAct} (h : step p a w = some w') : Stepped p w w' a := by
  cases a with
  | call i job =>
    simp only [step] at h
    split at h
    · rename_i hi
      split_ifs at h with hjob
      cases h
      have hidle : w.busy i = none := by rw [busy, hi]; rfl
      exact .call i job hidle hjob rfl rfl (busy_set hi _)
    · cases h
  | step i o =>
    simp only [step] at h
    split at h
    · rename_i job since c k hrun
      simp only [Option.map_eq_some_iff] at h
      obtain ⟨⟨r, s'⟩, heff, rfl⟩ := h
      exact .step i o job since c k r hrun heff rfl (busy_set (calls_of_busy hrun) _)
    · cases h
  | ret i =>
    simp only [step] at h
    split at h
    · rename_i job since res hrun
      cases h
      exact .ret i job since res hrun rfl rfl (busy_set (calls_of_busy hrun) _)
    · cases h
  | tick d =>
    cases h
    exact .tick d rfl rfl rfl

end PoolSys

end DataLoader
