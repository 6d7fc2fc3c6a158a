import DataLoader.Pipeline.PoolSafety
import DataLoader.Pipeline.PoolSystem

/-!
# Lifecycle of pooled sources

What holds of the pool and its sources in every state that any number of callers
can bring about, whatever fails and however their calls interleave.

* `Inv`, `inv_step`: the invariant of the callers' system.
* `Safe`: the lifecycle of leases and sources, `Inv.safe`.
* `overlappingReleases`: two calls of one release function that overlap.
-/

namespace DataLoader

open Effects

namespace PoolSys

variable {p : SourcePool} {w w' : PoolSys} {ph : ℕ → PoolPhase} {place : ℕ → Place}

/-- The invariant, with `ph` as the phases of the callers and `place` as the places
    of the sources. -/
structure Inv (ph : ℕ → PoolPhase) (place : ℕ → Place) (w : PoolSys) : Prop where
  sound : SourcePool.Sound ph place w.pool
  follows : ∀ {i run}, w.busy i = some run →
    (SourcePool.protocol run.job).Follows run.rest (fun _ q => q = .free) (ph i)
  linked : ∀ {i run}, w.busy i = some run → SourcePool.Linked run.job (ph i)
  idle : ∀ {i}, w.busy i = none → ph i = .free
  granted : ∀ {i run l inv}, w.busy i = some run → run.job = .release l inv →
    w.pool.leases[l.num]? = some l
  apart : ∀ {i j x y l l' inv inv'}, w.busy i = some x → w.busy j = some y →
    x.job = .release l inv → y.job = .release l' inv' → l'.num = l.num → j = i
  ends : ∀ {i run cfg}, w.busy i = some run → run.job = .obtain cfg →
    ∃ q, (lastCall poolSig).Follows run.rest
      (fun res q' => ∀ e, res = .failed e → q' = some (.unlock cfg.sourceID)) q

theorem inv_start (n : ℕ) (t : Time) : Inv (fun _ => .free) (fun _ => .unbuilt) (start n t) := by
  have hsound : SourcePool.Sound (fun _ => .free) (fun _ => .unbuilt) (start n t).pool := by
    refine ⟨?_, fun _ => trivial, ?_, ?_, ?_, fun _ => rfl, ?_, fun _ => rfl, ?_⟩
    · have hnone : SourcePool.holders (fun _ => .free) (start n t).pool = fun _ => none := by
        funext x
        cases x <;> rfl
      rw [hnone]
      exact Excludes.none
    all_goals simp [start, PoolState.outstanding]
  exact ⟨hsound, by simp, by simp, fun _ => rfl, by simp, by simp, by simp⟩

/-- Leases that have been granted stay so. -/
theorem leases_effect {c : PoolCall} {o : PoolOut} {r : c.Ans} {s s' : PoolState}
    (heff : s.effect o c = some (r, s')) {n : ℕ} {l : Lease} (hl : s.leases[n]? = some l) :
    s'.leases[n]? = some l := by
  cases c with
  | newLease id src =>
    cases heff
    exact (List.getElem?_append_left (List.getElem?_eq_some_iff.1 hl).1).trans hl
  | slot id =>
    cases heff
    split_ifs
    · exact hl
    · exact hl
  | slots =>
    cases o <;> simp only [PoolState.effect] at heff
    · cases heff
    · cases heff
    · split_ifs at heff
      cases heff
      exact hl
  | lock id | unlock id =>
    simp only [PoolState.effect] at heff
    split_ifs at heff
    cases heff
    exact hl
  | build cfg =>
    cases o <;> cases heff <;> exact hl
  | _ =>
    cases heff
    exact hl

/-- A release function is called while no other call of it is in progress. -/
theorem apart_call {i j : ℕ} {l l' : Lease} {inv inv' : Bool} {run : PoolRun}
    (h : PoolAct.apart (.call i (.release l inv)) w = true) (hj : w.busy j = some run)
    (hjob : run.job = .release l' inv') : l'.num ≠ l.num := by
  have hmem : some run ∈ w.calls := List.mem_of_getElem? (calls_of_busy hj)
  have hall := List.all_eq_true.1 h _ hmem
  obtain ⟨job, since, rest⟩ := run
  obtain rfl : job = .release l' inv' := hjob
  simpa using hall

/-- After a change to the call of one caller, a call in progress is the new one or
    an old one of another caller. -/
theorem busy_cases {i j : ℕ} {run run' : PoolRun}
    (hbusy : w'.busy = Function.update w.busy i (some run')) (hj : w'.busy j = some run) :
    (j = i ∧ run = run') ∨ (j ≠ i ∧ w.busy j = some run) := by
  rw [hbusy] at hj
  by_cases hji : j = i
  · rw [hji, Function.update_self] at hj
    exact .inl ⟨hji, (Option.some.inj hj).symm⟩
  · rw [Function.update_of_ne hji] at hj
    exact .inr ⟨hji, hj⟩

/-- An idle caller starts a call. -/
theorem Inv.call {i : ℕ} {job : PoolJob} (h : Inv ph place w) (hidle : w.busy i = none)
    (hjob : job.callable w.pool = true) (happart : PoolAct.apart (.call i job) w = true)
    (hpool : w'.pool = w.pool)
    (hbusy : w'.busy = Function.update w.busy i (some ⟨job, w.pool.clock, job.prog p⟩)) :
    Inv ph place w' := by
  have hnew : ∀ {j run}, w'.busy j = some run →
      (j = i ∧ run = ⟨job, w.pool.clock, job.prog p⟩) ∨ (j ≠ i ∧ w.busy j = some run) :=
    fun hj => busy_cases hbusy hj
  refine ⟨by rw [hpool]; exact h.sound, ?_, ?_, ?_, ?_, ?_, ?_⟩
  · intro j run hj
    rcases hnew hj with ⟨rfl, rfl⟩ | ⟨-, hj⟩
    · rw [h.idle hidle]
      exact SourcePool.job_follows job
    · exact h.follows hj
  · intro j run hj
    rcases hnew hj with ⟨rfl, rfl⟩ | ⟨-, hj⟩
    · rw [h.idle hidle]
      trivial
    · exact h.linked hj
  · intro j hj
    refine h.idle ?_
    rw [hbusy] at hj
    by_cases hji : j = i
    · rw [hji, Function.update_self] at hj
      cases hj
    · rwa [Function.update_of_ne hji] at hj
  · intro j run l inv hj hl
    rw [hpool]
    rcases hnew hj with ⟨rfl, rfl⟩ | ⟨-, hj⟩
    · obtain rfl : job = .release l inv := hl
      simpa [PoolJob.callable] using hjob
    · exact h.granted hj hl
  · intro j₁ j₂ x y l l' inv inv' h₁ h₂ hx hy hnum
    rcases hnew h₁ with ⟨rfl, rfl⟩ | ⟨-, h₁⟩
    · rcases hnew h₂ with ⟨rfl, rfl⟩ | ⟨-, h₂⟩
      · rfl
      · obtain rfl : job = .release l inv := hx
        exact absurd hnum (apart_call happart h₂ hy)
    · rcases hnew h₂ with ⟨rfl, rfl⟩ | ⟨-, h₂⟩
      · obtain rfl : job = .release l' inv' := hy
        exact absurd hnum.symm (apart_call happart h₁ hx)
      · exact h.apart h₁ h₂ hx hy hnum
  · intro j run cfg hj hcfg
    rcases hnew hj with ⟨rfl, rfl⟩ | ⟨-, hj⟩
    · obtain rfl : job = .obtain cfg := hcfg
      exact ⟨none, SourcePool.obtain_ends cfg none⟩
    · exact h.ends hj hcfg

/-- A call in progress makes a step. -/
theorem Inv.effect {i : ℕ} {o : PoolOut} {job : PoolJob} {since : Time} {c : PoolCall}
    {k : c.Ans → Prog poolSig PoolResult} {r : c.Ans} (h : Inv ph place w)
    (hrun : w.busy i = some ⟨job, since, .call c k⟩)
    (heff : w.pool.effect o c = some (r, w'.pool))
    (hbusy : w'.busy = Function.update w.busy i (some ⟨job, since, k r⟩)) :
    ∃ place', Inv (Function.update ph i ((SourcePool.protocol job).next (ph i) c r)) place' w' := by
  have hnew : ∀ {j run}, w'.busy j = some run →
      (j = i ∧ run = ⟨job, since, k r⟩) ∨ (j ≠ i ∧ w.busy j = some run) :=
    fun hj => busy_cases hbusy hj
  have hfollows := h.follows hrun
  have hlinked := h.linked hrun
  -- two calls that have seen the flag of one lease unset are calls of one release function
  have halone : ∀ j l l', j ≠ i → ph i = .unreleased l → ph j = .unreleased l' →
      l'.num ≠ l.num := by
    intro j l l' hj hi hj' hnum
    cases hjb : w.busy j with
    | none => rw [h.idle hjb] at hj'; cases hj'
    | some run =>
      have hlj := h.linked hjb
      rw [hi] at hlinked
      rw [hj'] at hlj
      obtain ⟨inv, hli⟩ := hlinked
      obtain ⟨inv', hlj⟩ := hlj
      exact hj (h.apart hrun hjb hli hlj hnum)
  obtain ⟨place', hsound⟩ := SourcePool.sound_effect h.sound hfollows.1
    (fun l inv hl => h.granted hrun hl) halone heff
  refine ⟨place', hsound, ?_, ?_, ?_, ?_, ?_, ?_⟩
  · intro j run hj
    rcases hnew hj with ⟨rfl, rfl⟩ | ⟨hji, hj⟩
    · rw [Function.update_self]
      exact hfollows.2 r
    · rw [Function.update_of_ne hji]
      exact h.follows hj
  · intro j run hj
    rcases hnew hj with ⟨rfl, rfl⟩ | ⟨hji, hj⟩
    · rw [Function.update_self]
      exact SourcePool.linked_next r hlinked hfollows.1
    · rw [Function.update_of_ne hji]
      exact h.linked hj
  · intro j hj
    rw [hbusy] at hj
    by_cases hji : j = i
    · rw [hji, Function.update_self] at hj
      cases hj
    · rw [Function.update_of_ne hji] at hj ⊢
      exact h.idle hj
  · intro j run l inv hj hl
    refine leases_effect heff ?_
    rcases hnew hj with ⟨rfl, rfl⟩ | ⟨-, hj⟩
    · exact h.granted hrun hl
    · exact h.granted hj hl
  · intro j₁ j₂ x y l l' inv inv' h₁ h₂ hx hy hnum
    rcases hnew h₁ with ⟨rfl, rfl⟩ | ⟨-, h₁⟩
    · rcases hnew h₂ with ⟨rfl, rfl⟩ | ⟨-, h₂⟩
      · rfl
      · exact h.apart hrun h₂ hx hy hnum
    · rcases hnew h₂ with ⟨rfl, rfl⟩ | ⟨-, h₂⟩
      · exact h.apart h₁ hrun hx hy hnum
      · exact h.apart h₁ h₂ hx hy hnum
  · intro j run cfg hj hcfg
    rcases hnew hj with ⟨rfl, rfl⟩ | ⟨-, hj⟩
    · obtain ⟨q, hq⟩ := h.ends hrun hcfg
      exact ⟨_, hq.2 r⟩
    · exact h.ends hj hcfg

/-- A call that has returned is over. -/
theorem Inv.ret {i : ℕ} {job : PoolJob} {since : Time} {res : PoolResult} (h : Inv ph place w)
    (hrun : w.busy i = some ⟨job, since, .ret res⟩) (hpool : w'.pool = w.pool)
    (hbusy : w'.busy = Function.update w.busy i none) : Inv ph place w' := by
  have hold : ∀ {j run}, w'.busy j = some run → w.busy j = some run := by
    intro j run hj
    rw [hbusy] at hj
    by_cases hji : j = i
    · rw [hji, Function.update_self] at hj
      cases hj
    · rwa [Function.update_of_ne hji] at hj
  refine ⟨by rw [hpool]; exact h.sound, fun hj => h.follows (hold hj), fun hj => h.linked (hold hj),
    ?_, ?_, fun h₁ h₂ => h.apart (hold h₁) (hold h₂), fun hj => h.ends (hold hj)⟩
  · intro j hj
    by_cases hji : j = i
    · subst hji
      exact h.follows hrun
    · rw [hbusy, Function.update_of_ne hji] at hj
      exact h.idle hj
  · rw [hpool]
    exact fun hj => h.granted (hold hj)

theorem Inv.tick {d : ℕ} (h : Inv ph place w)
    (hpool : w'.pool = { w.pool with clock := w.pool.clock + d }) (hbusy : w'.busy = w.busy) :
    Inv ph place w' := by
  refine ⟨by rw [hpool]; exact h.sound.congr_slots, ?_, ?_, ?_, ?_, ?_, ?_⟩
  all_goals rw [hbusy]
  · exact h.follows
  · exact h.linked
  · exact h.idle
  · rw [hpool]
    exact h.granted
  · exact h.apart
  · exact h.ends

/-- Every action keeps the invariant, if the calls of a release function do not
    overlap. -/
theorem inv_step {a : PoolAct} (h : ∃ ph place, Inv ph place w) (happart : a.apart w = true)
    (hstep : step p a w = some w') : ∃ ph place, Inv ph place w' := by
  obtain ⟨ph, place, h⟩ := h
  cases step_cases hstep with
  | call i job hidle hjob hpool hlog hbusy =>
    exact ⟨ph, place, h.call hidle hjob happart hpool hbusy⟩
  | step i o job since c k r hrun heff hlog hbusy => exact ⟨_, h.effect hrun heff hbusy⟩
  | ret i job since res hrun hpool hlog hbusy => exact ⟨ph, place, h.ret hrun hpool hbusy⟩
  | tick d hpool hlog hbusy => exact ⟨ph, place, h.tick hpool hbusy⟩

/-! ## The lifecycle -/

/-- The next step of the call of caller `i` is to close `src`. -/
def Closes (w : PoolSys) (i src : ℕ) : Prop :=
  ∃ job since k, w.busy i = some ⟨job, since, .call (S := poolSig) (.closeSrc src) k⟩

/-- A call in progress that holds the lock of an entry has `src` in its hands: it
    has closed the source of the entry and is about to drop it, or it is an
    `Obtain` that has built the source for the empty entry. -/
def InHands (w : PoolSys) (src : ℕ) : Prop :=
  ∃ i run id, w.busy i = some run ∧ w.pool.locked id = true ∧
    ((w.pool.closed src = 1 ∧ (w.pool.entry id).src = some src) ∨
      (w.pool.closed src = 0 ∧ (w.pool.entry id).src = none ∧
        (∀ id', (w.pool.entry id').src ≠ some src) ∧
        ∃ cfg, run.job = .obtain cfg ∧ cfg.sourceID = id))

/-- The lifecycle of leases and sources. -/
structure Safe (p : SourcePool) (w : PoolSys) : Prop where
  /-- No two outstanding leases are for one source id. -/
  single : ∀ {n m l l'}, w.pool.outstanding n = some l → w.pool.outstanding m = some l' →
    l.id = l'.id → n = m
  /-- The source of an outstanding lease is open and is the current one of its entry. -/
  current : ∀ {n l}, w.pool.outstanding n = some l →
    w.pool.closed l.src = 0 ∧ (w.pool.entry l.id).src = some l.src
  /-- No call is about to close a source that is leased. -/
  spares : ∀ {i src n l}, w.Closes i src → w.pool.outstanding n = some l → l.src ≠ src
  /-- Every source that was built is closed once and gone, open and in exactly one
      entry, or in the hands of a call in progress. -/
  accounted : ∀ {src}, src < w.pool.nextSrc →
    (w.pool.closed src = 1 ∧ ∀ id, (w.pool.entry id).src ≠ some src) ∨
      (w.pool.closed src = 0 ∧ ∃! id, (w.pool.entry id).src = some src) ∨ w.InHands src
  /-- The step with which an `Obtain` fails leaves its entry empty and unlocked. -/
  failed : ∀ {i o w' cfg since since' rest e}, step p (.step i o) w = some w' →
    w.busy i = some ⟨.obtain cfg, since, rest⟩ →
    w'.busy i = some ⟨.obtain cfg, since', .ret (.failed e)⟩ →
    (w'.pool.entry cfg.sourceID).src = none ∧ w'.pool.locked cfg.sourceID = false

namespace Inv

variable (h : Inv ph place w)
include h

theorem busy_of_phase {i : ℕ} (hi : ph i ≠ .free) : ∃ run, w.busy i = some run := by
  cases hrun : w.busy i with
  | none => exact absurd (h.idle hrun) hi
  | some run => exact ⟨run, rfl⟩

theorem locked_of_key {i : ℕ} {id : Int} (hi : (ph i).key = some id) : w.pool.locked id = true := by
  have hheld : SourcePool.holders ph w.pool (.inl i) = some id := hi
  exact h.sound.locks.marked.2 ⟨.inl i, hheld⟩

theorem single {n m : ℕ} {l l' : Lease} (hn : w.pool.outstanding n = some l)
    (hm : w.pool.outstanding m = some l') (hid : l.id = l'.id) : n = m := by
  have hn' : SourcePool.holders ph w.pool (.inr n) = some l.id := by
    rw [SourcePool.holders, hn]
    rfl
  have hm' : SourcePool.holders ph w.pool (.inr m) = some l.id := by
    rw [SourcePool.holders, hm, hid]
    rfl
  exact Sum.inr.inj (h.sound.locks.single hn' hm')

theorem spares {i src n : ℕ} {l : Lease} (hc : w.Closes i src)
    (hn : w.pool.outstanding n = some l) : l.src ≠ src := by
  rintro rfl
  obtain ⟨job, since, k, hrun⟩ := hc
  obtain ⟨id, hq | hq⟩ := (h.follows hrun).1
  · have hfit := h.sound.fits i
    rw [hq] at hfit
    have hid : place l.src = .entry id := h.sound.entries.1 hfit
    rw [h.sound.entries.1 (h.sound.leased hn)] at hid
    exact h.sound.lease_ne (by rw [hq]; rfl) hn (Place.entry.inj hid)
  · have hfit := h.sound.fits i
    rw [hq] at hfit
    have hhand := hfit.2
    rw [h.sound.entries.1 (h.sound.leased hn)] at hhand
    cases hhand

theorem accounted {src : ℕ} (hsrc : src < w.pool.nextSrc) :
    (w.pool.closed src = 1 ∧ ∀ id, (w.pool.entry id).src ≠ some src) ∨
      (w.pool.closed src = 0 ∧ ∃! id, (w.pool.entry id).src = some src) ∨ w.InHands src := by
  have hcount := h.sound.counts src
  have hno : ∀ P, place src = P → (∀ id, P ≠ .entry id) →
      ∀ id, (w.pool.entry id).src ≠ some src := by
    intro P hP hne id hid
    exact hne id (hP.symm.trans (h.sound.entries.1 hid))
  cases hp : place src with
  | unbuilt => exact absurd (h.sound.unbuilt.1 hp) (Nat.not_le.2 hsrc)
  | gone =>
    rw [hp] at hcount
    exact .inl ⟨hcount, hno _ hp (by simp)⟩
  | hand i =>
    rw [hp] at hcount
    obtain ⟨id, hq⟩ := h.sound.hands hp
    obtain ⟨run, hrun⟩ := h.busy_of_phase (i := i) (by rw [hq]; simp)
    have hlinked := h.linked hrun
    have hfit := h.sound.fits i
    rw [hq] at hlinked hfit
    refine .inr (.inr ⟨i, run, id, hrun, h.locked_of_key (i := i) (by rw [hq]; rfl), .inr ?_⟩)
    exact ⟨hcount, hfit.1, hno _ hp (by simp), hlinked⟩
  | entry id =>
    rw [hp] at hcount
    have hid : (w.pool.entry id).src = some src := h.sound.entries.2 hp
    rcases hcount with h0 | ⟨h1, i, hq⟩
    · refine .inr (.inl ⟨h0, id, hid, fun id' hid' => ?_⟩)
      have hplace := h.sound.entries.1 hid'
      rw [hp] at hplace
      exact (Place.entry.inj hplace).symm
    · obtain ⟨run, hrun⟩ := h.busy_of_phase (i := i) (by rw [hq]; simp)
      exact .inr (.inr ⟨i, run, id, hrun, h.locked_of_key (i := i) (by rw [hq]; rfl),
        .inl ⟨h1, hid⟩⟩)

theorem failed {i : ℕ} {o : PoolOut} {cfg : SourceConfig} {since since' : Time}
    {rest : Prog poolSig PoolResult} {e : Err} (hstep : step p (.step i o) w = some w')
    (hrun : w.busy i = some ⟨.obtain cfg, since, rest⟩)
    (hret : w'.busy i = some ⟨.obtain cfg, since', .ret (.failed e)⟩) :
    (w'.pool.entry cfg.sourceID).src = none ∧ w'.pool.locked cfg.sourceID = false := by
  cases step_cases hstep with
  | step i o job t c k r hrun' heff hlog hbusy =>
    rw [hrun] at hrun'
    cases hrun'
    rw [hbusy, Function.update_self] at hret
    have hk : k r = .ret (.failed e) := congrArg PoolRun.rest (Option.some.inj hret)
    -- the step was the unlocking of the entry, which `Obtain` only does when it is empty
    obtain ⟨q, hq⟩ := h.ends hrun rfl
    have hlast := hq.2 r
    rw [hk] at hlast
    obtain rfl : c = .unlock cfg.sourceID := Option.some.inj (hlast e rfl)
    obtain ⟨x, hx, hnone⟩ := (h.follows hrun).1
    have hfit := h.sound.fits i
    rw [hx, hnone ⟨cfg, rfl⟩] at hfit
    simp only [PoolState.effect] at heff
    split_ifs at heff
    have hpool : w'.pool =
        { w.pool with locked := Function.update w.pool.locked cfg.sourceID false } :=
      (congrArg Prod.snd (Option.some.inj heff)).symm
    rw [hpool]
    exact ⟨hfit, Function.update_self ..⟩

theorem safe : Safe p w where
  single := h.single
  current hn := ⟨h.sound.leased_open hn, h.sound.leased hn⟩
  spares := h.spares
  accounted := h.accounted
  failed := h.failed

end Inv

/-- In every state that callers can bring about whose calls of one release
    function do not overlap, the lifecycle of leases and sources is as it should be. -/
theorem pool_lifecycle {n : ℕ} {t : Time} {as : List PoolAct}
    (hr : runs (guarded PoolAct.apart (step p)) as (start n t) = some w) : Safe p w := by
  have hinv : ∃ ph place, Inv ph place w := by
    refine runs_inv (I := fun w => ∃ ph place, Inv ph place w) ?_ ⟨_, _, inv_start n t⟩ hr
    intro a w w' h hs
    obtain ⟨hok, hs⟩ := guarded_eq_some.1 hs
    exact inv_step h hok hs
  obtain ⟨ph, place, h⟩ := hinv
  exact h.safe

/-! ## Runs of the system -/

/-- A pool with the default idle timeout and no maximal age. -/
def demoPool : SourcePool := .new 0 0 fun kind _ => kind

/-- A source to ask the pool for. -/
def demoConfig : SourceConfig := ⟨1, "modbus", "plant", []⟩

/-- `n` steps of a call without failures. -/
def steps (i n : ℕ) : List PoolAct := List.replicate n (.step i .ok)

/-- Caller 0 fails to open the source. Caller 1 then gets one, releases it with
    `invalidate` and calls the release function again. -/
def failedThenReleased : List PoolAct :=
  [.call 0 (.obtain demoConfig)] ++ steps 0 6 ++ [.call 1 (.obtain demoConfig)] ++ steps 1 1 ++
    [.step 0 (.fail "refused")] ++ steps 0 2 ++ [.ret 0] ++ steps 1 8 ++ [.ret 1] ++
    [.call 1 (.release ⟨0, 1, 1⟩ true)] ++ steps 1 6 ++ [.ret 1] ++
    [.call 1 (.release ⟨0, 1, 1⟩ true)] ++ steps 1 1 ++ [.ret 1]

theorem failedThenReleased_lifecycle :
    ∃ w, runs (guarded PoolAct.apart (step demoPool)) failedThenReleased (start 2 0) = some w ∧
      w.pool.nextSrc = 2 ∧ Safe demoPool w := by
  have hrun : ((runs (guarded PoolAct.apart (step demoPool)) failedThenReleased (start 2 0)).map
      fun w => w.pool.nextSrc) = some 2 := by decide +kernel
  obtain ⟨w, hr, hnext⟩ := Option.map_eq_some_iff.1 hrun
  exact ⟨w, hr, hnext, pool_lifecycle hr⟩

/-- Callers 0 and 1 call one release function at the same time and both find its
    flag unset. After the first has unlocked the entry, caller 2 gets the source;
    then the second call unlocks the entry as well and caller 3 gets it too. -/
def overlappingReleases : List PoolAct :=
  [.call 0 (.obtain demoConfig)] ++ steps 0 9 ++ [.ret 0] ++
    [.call 0 (.release ⟨0, 1, 0⟩ false), .call 1 (.release ⟨0, 1, 0⟩ false)] ++ steps 0 1 ++
    steps 1 1 ++ steps 0 5 ++ [.ret 0, .call 2 (.obtain demoConfig)] ++ steps 2 6 ++ steps 1 5 ++
    [.call 3 (.obtain demoConfig)] ++ steps 3 6

theorem overlappingReleases_lease_twice :
    ∃ w, runs (step demoPool) overlappingReleases (start 4 0) = some w ∧
      w.pool.outstanding 1 = some ⟨1, 1, 0⟩ ∧ w.pool.outstanding 2 = some ⟨2, 1, 0⟩ ∧
      ¬ Safe demoPool w := by
  have hrun : ((runs (step demoPool) overlappingReleases (start 4 0)).map
      fun w => (w.pool.outstanding 1, w.pool.outstanding 2)) =
      some (some ⟨1, 1, 0⟩, some ⟨2, 1, 0⟩) := by decide +kernel
  obtain ⟨w, hr, hout⟩ := Option.map_eq_some_iff.1 hrun
  obtain ⟨h₁, h₂⟩ := Prod.mk.inj hout
  refine ⟨w, hr, h₁, h₂, fun hsafe => ?_⟩
  have hsame : (1 : ℕ) = 2 := hsafe.single h₁ h₂ rfl
  omega

end PoolSys

end DataLoader
