import DataLoader.Scheduler.ReloadSystem
import Mathlib.Logic.Function.Basic

/-!
# The reload coordinator

Model of `internal/reload/coordinator.go` and `fanout.go` over the system of
`Scheduler.ReloadSystem`. Two loops call `Reload`, one for `SIGHUP` and one for the ticker; each
receives from a channel that holds one value and drops the others. `Stop` closes a channel that
both loops watch, and waits for them.

* `Stepped`, `step_cases`: everything that one action can do.
* `trigger_converges`: a signal or a tick is not lost. When its loop waits again, the scheduler
  has the loads of the metadata, however the calls of the two loops were interleaved.
* `stop_ends_reloads`: when `Stop` has returned, no call of `Reload` is in progress and none
  begins.
-/

namespace DataLoader

open Effects

/-- The `source` of `doReload`. -/
inductive ReloadSource
  | sighup
  | periodic
  deriving DecidableEq, Repr

/-- Where a loop is. -/
inductive LoopPhase
  /-- It has not been started. -/
  | off
  /-- In its `select`. -/
  | waiting
  /-- In the call of `Primary.Reload` with this number. -/
  | reloading (i : ℕ)
  /-- In the functions `After`. -/
  | hooks
  | exited
  deriving DecidableEq, Repr

/-- The loop receives signals or ticks: it has called `Notify` or `NewTicker`, and not `Stop`. -/
def LoopPhase.listens : LoopPhase → Bool
  | .off | .exited => false
  | _ => true

/-- The coordinator; `pending` says that there is a value in the channel of a loop. -/
structure CoordSys (M : Type) where
  sys : ReloadSys M
  phase : ReloadSource → LoopPhase
  pending : ReloadSource → Bool := fun _ => false
  /-- `Stop` has closed `stopCh`. -/
  closed : Bool := false
  /-- `Stop` has returned. -/
  returned : Bool := false

inductive CoordAct (M : Type)
  | edit (m : M)
  /-- A signal or a tick. -/
  | fire (t : ReloadSource)
  | receive (t : ReloadSource)
  /-- A step of a call of `Primary.Reload`. -/
  | reload (a : ReloadAct M)
  /-- `Primary.Reload` returns. -/
  | finish (t : ReloadSource)
  /-- The functions `After` have returned. -/
  | hooked (t : ReloadSource)
  | close
  | exit (t : ReloadSource)
  | stopped

/-- A step within a call. -/
def ReloadAct.inner {M : Type} : ReloadAct M → Bool
  | .edit _ | .call => false
  | _ => true

namespace CoordSys

variable {M : Type} (parses : String → Bool) (snap : M → Snapshot)

/-- The loop of a source moves on. -/
def moved (w : CoordSys M) (t : ReloadSource) (p : LoopPhase) : CoordSys M :=
  { w with phase := Function.update w.phase t p }

/-- The transition system. -/
def step : CoordAct M → CoordSys M → Option (CoordSys M)
  | .edit m, w => some { w with sys := { w.sys with metadata := m } }
  | .fire t, w =>
    if (w.phase t).listens then some { w with pending := Function.update w.pending t true } else none
  | .receive t, w =>
    if w.phase t = .waiting ∧ w.pending t then
      some { w with
        sys := { w.sys with calls := w.sys.calls ++ [.called] }
        phase := Function.update w.phase t (.reloading w.sys.calls.length)
        pending := Function.update w.pending t false }
    else none
  | .reload a, w =>
    if a.inner then (ReloadSys.step parses snap a w.sys).map fun sys => { w with sys } else none
  | .finish t, w =>
    match w.phase t with
    | .reloading i => if w.sys.calls[i]?.any ReloadCall.over then some (w.moved t .hooks) else none
    | _ => none
  | .hooked t, w => if w.phase t = .hooks then some (w.moved t .waiting) else none
  | .close, w => if w.closed then none else some { w with closed := true }
  | .exit t, w => if w.phase t = .waiting ∧ w.closed then some (w.moved t .exited) else none
  | .stopped, w =>
    if w.closed ∧ (w.phase .sighup).listens = false ∧ (w.phase .periodic).listens = false then
      some { w with returned := true }
    else none

/-- Right after `Start`. -/
def init (m : M) (handleHUP ticks : Bool) : CoordSys M where
  sys := { metadata := m }
  phase
    | .sighup => if handleHUP then .waiting else .off
    | .periodic => if ticks then .waiting else .off

/-- The condition of `ReloadAct.consistent` on the calls. -/
def consistent : CoordAct M → CoordSys M → Bool
  | .reload a, w => a.consistent parses snap w.sys
  | _, _ => true

end CoordSys

def CoordAct.isEdit {M : Type} : CoordAct M → Bool
  | .edit _ => true
  | _ => false

namespace CoordSys

variable {M : Type} {parses : String → Bool} {snap : M → Snapshot} {w w' : CoordSys M}
  {a : CoordAct M}

/-- Everything that an action can do. -/
inductive Stepped (parses : String → Bool) (snap : M → Snapshot) (w w' : CoordSys M) :
    CoordAct M → Prop
  | edit (m : M) (eq : w' = { w with sys := { w.sys with metadata := m } }) :
      Stepped parses snap w w' (.edit m)
  | fire (t : ReloadSource) (listens : (w.phase t).listens = true)
      (eq : w' = { w with pending := Function.update w.pending t true }) :
      Stepped parses snap w w' (.fire t)
  | receive (t : ReloadSource) (waiting : w.phase t = .waiting)
      (eq : w' = { w with
        sys := { w.sys with calls := w.sys.calls ++ [.called] }
        phase := Function.update w.phase t (.reloading w.sys.calls.length)
        pending := Function.update w.pending t false }) :
      Stepped parses snap w w' (.receive t)
  | reload (b : ReloadAct M) (sys : ReloadSys M) (inner : b.inner = true)
      (stepped : ReloadSys.step parses snap b w.sys = some sys) (eq : w' = { w with sys }) :
      Stepped parses snap w w' (.reload b)
  | finish (t : ReloadSource) (i : ℕ) (c : ReloadCall) (reloading : w.phase t = .reloading i)
      (call : w.sys.calls[i]? = some c) (ended : c.over = true) (eq : w' = w.moved t .hooks) :
      Stepped parses snap w w' (.finish t)
  | hooked (t : ReloadSource) (hooks : w.phase t = .hooks) (eq : w' = w.moved t .waiting) :
      Stepped parses snap w w' (.hooked t)
  | close (eq : w' = { w with closed := true }) : Stepped parses snap w w' .close
  | exit (t : ReloadSource) (waiting : w.phase t = .waiting) (eq : w' = w.moved t .exited) :
      Stepped parses snap w w' (.exit t)
  | stopped (silent : ∀ t, (w.phase t).listens = false) (eq : w' = { w with returned := true }) :
      Stepped parses snap w w' .stopped

theorem step_cases (h : step parses snap a w = some w') : Stepped parses snap w w' a := by
  cases a with
  | edit m => exact .edit m (Option.some.inj h).symm
  | fire t =>
    simp only [step] at h
    split_ifs at h with hl
    exact .fire t hl (Option.some.inj h).symm
  | receive t =>
    simp only [step] at h
    split_ifs at h with hw
    exact .receive t hw.1 (Option.some.inj h).symm
  | reload b =>
    simp only [step] at h
    split_ifs at h with hb
    obtain ⟨sys, hs, rfl⟩ := Option.map_eq_some_iff.1 h
    exact .reload b sys hb hs rfl
  | finish t =>
    simp only [step] at h
    split at h
    next i hi =>
      split_ifs at h with hover
      cases hcall : w.sys.calls[i]? with
      | none => simp [hcall] at hover
      | some c =>
        exact .finish t i c hi hcall (by simpa [hcall] using hover) (Option.some.inj h).symm
    next => cases h
  | hooked t =>
    simp only [step] at h
    split_ifs at h with hh
    exact .hooked t hh (Option.some.inj h).symm
  | close =>
    simp only [step] at h
    split_ifs at h
    exact .close (Option.some.inj h).symm
  | exit t =>
    simp only [step] at h
    split_ifs at h with hw
    exact .exit t hw.1 (Option.some.inj h).symm
  | stopped =>
    simp only [step] at h
    split_ifs at h with hs
    refine .stopped (fun t => ?_) (Option.some.inj h).symm
    cases t with
    | sighup => exact hs.2.1
    | periodic => exact hs.2.2

end CoordSys

/-! ## The steps of a call -/

namespace ReloadSys

variable {M : Type} {parses : String → Bool} {snap : M → Snapshot} {w w' : ReloadSys M}
  {a : ReloadAct M}

/-- One call moves on, which was not over. -/
theorem inner_step (ha : a.inner = true) (h : step parses snap a w = some w') :
    w'.metadata = w.metadata ∧
      ∃ i x y, w.calls[i]? = some x ∧ x.over = false ∧ w'.calls = w.calls.set i y := by
  cases step_cases h with
  | edit m eq => cases ha
  | call eq => cases ha
  | fail i c e a call running eq => subst eq; exact ⟨rfl, i, c, _, call, running, rfl⟩
  | read i call eq => subst eq; exact ⟨rfl, i, _, _, call, rfl, rfl⟩
  | skip i call eq => subst eq; exact ⟨rfl, i, _, _, call, rfl, rfl⟩
  | pass i fp call eq => subst eq; exact ⟨rfl, i, _, _, call, rfl, rfl⟩
  | list i fp call eq => subst eq; exact ⟨rfl, i, _, _, call, rfl, rfl⟩
  | apply i o fp loads s call applied eq => subst eq; exact ⟨rfl, i, _, _, call, rfl, rfl⟩

/-- What a step of a call leaves of the calls. -/
theorem inner_calls (ha : a.inner = true) (h : step parses snap a w = some w') :
    w'.calls.length = w.calls.length ∧
      (∀ (j : ℕ) (c : ReloadCall), w.calls[j]? = some c → c.over = true →
        w'.calls[j]? = some c) ∧
      ∀ (j : ℕ) (c' : ReloadCall), w'.calls[j]? = some c' → c'.over = false →
        ∃ c, w.calls[j]? = some c ∧ c.over = false := by
  obtain ⟨-, i, x, y, hx, hover, heq⟩ := inner_step ha h
  rw [heq]
  refine ⟨List.length_set, fun j c hc hcover => ?_, fun j c' hc' hrunning => ?_⟩
  · have hij : i ≠ j := by
      rintro rfl
      rw [hx] at hc
      rw [← Option.some.inj hc, hover] at hcover
      cases hcover
    rw [List.getElem?_set_ne hij]
    exact hc
  · rcases getElem?_set_cases hx hc' with ⟨rfl, -⟩ | ⟨-, hold⟩
    · exact ⟨x, hx, hover⟩
    · exact ⟨c', hold, hrunning⟩

/-- The metadata is `m`, and every call that is not over has only read `m`; those from `k` on
    that have returned without an error have left the scheduler in line. -/
structure Fresh (parses : String → Bool) (snap : M → Snapshot) (m : M) (k : ℕ) (w : ReloadSys M) :
    Prop where
  metadata : w.metadata = m
  tracked : Tracked parses snap w
  reads : ∀ c ∈ w.calls, c.over = false → Reads snap m c
  done : ∀ i, k ≤ i → w.calls[i]? = some .done → w.scheduler.Synced parses (snap m)

variable {m : M} {k : ℕ}

theorem Fresh.set (h : Fresh parses snap m k w) {i : ℕ} {x y : ReloadCall} {s : Scheduler}
    (hx : w.calls[i]? = some x) (hy : Reads snap m y)
    (hkeep : w.scheduler.Synced parses (snap m) → s.Synced parses (snap m))
    (hdone : y = .done → s.Synced parses (snap m))
    (htracked : Tracked parses snap { w with scheduler := s, calls := w.calls.set i y }) :
    Fresh parses snap m k { w with scheduler := s, calls := w.calls.set i y } := by
  refine ⟨h.metadata, htracked, fun c hc hover => ?_, fun j hj hc => ?_⟩
  · rcases List.mem_or_eq_of_mem_set hc with hc | rfl
    · exact h.reads c hc hover
    · exact hy
  · rcases getElem?_set_cases hx hc with ⟨rfl, heq⟩ | ⟨-, hold⟩
    · exact hdone heq.symm
    · exact hkeep (h.done j hj hold)

/-- A new call. -/
theorem Fresh.append (h : Fresh parses snap m k w)
    (htracked : Tracked parses snap { w with calls := w.calls ++ [.called] }) :
    Fresh parses snap m k { w with calls := w.calls ++ [.called] } := by
  refine ⟨h.metadata, htracked, fun c hc hover => ?_, fun j hj hc => ?_⟩
  · rcases List.mem_append.1 hc with hc | hc
    · exact h.reads c hc hover
    · rw [List.mem_singleton.1 hc]
      trivial
  · rcases getElem?_append_cases hc with hc | ⟨-, hcalled⟩
    · exact h.done j hj hc
    · cases hcalled

theorem fresh_step (hinj : ∀ m m', (snap m).fingerprint = (snap m').fingerprint → m = m')
    (hne : ∀ m, (snap m).fingerprint ≠ "") (h : Fresh parses snap m k w)
    (hok : a.consistent parses snap w = true) (hquiet : a.isEdit = false)
    (hs : step parses snap a w = some w') : Fresh parses snap m k w' := by
  have htracked := tracked_step h.tracked hok hs
  cases quiet_step h.metadata h.tracked hok hquiet hs with
  | append => exact h.append htracked
  | set hx hover hreads hkeep hdone =>
    have hr := h.reads _ (List.mem_of_getElem? hx) hover
    exact h.set hx (hreads hr) (hkeep hr) (hdone hinj hne hr) htracked

/-- The metadata has been `m` since there were `n` calls. -/
structure Since (parses : String → Bool) (snap : M → Snapshot) (m : M) (n : ℕ) (w : ReloadSys M) :
    Prop where
  metadata : w.metadata = m
  tracked : Tracked parses snap w
  reads : ∀ i c, n ≤ i → w.calls[i]? = some c → Reads snap m c

theorem Since.fresh {n : ℕ} (h : Since parses snap m n w)
    (hover : ∀ i c, i < n → w.calls[i]? = some c → c.over = true) :
    Fresh parses snap m w.calls.length w := by
  refine ⟨h.metadata, h.tracked, fun c hc hrunning => ?_, fun i hi hc => ?_⟩
  · obtain ⟨i, hi⟩ := List.mem_iff_getElem?.1 hc
    refine h.reads i c ?_ hi
    by_contra hlt
    rw [hover i c (by omega) hi] at hrunning
    cases hrunning
  · rw [List.getElem?_eq_none hi] at hc
    cases hc

theorem since_step {n : ℕ} (h : Since parses snap m n w) (hok : a.consistent parses snap w = true)
    (hquiet : a.isEdit = false) (hs : step parses snap a w = some w') :
    Since parses snap m n w' := by
  have htracked := tracked_step h.tracked hok hs
  cases quiet_step h.metadata h.tracked hok hquiet hs with
  | append =>
    refine ⟨h.metadata, htracked, fun i c hi hc => ?_⟩
    rcases getElem?_append_cases hc with hc | ⟨-, rfl⟩
    · exact h.reads i c hi hc
    · trivial
  | set hx _ hreads =>
    refine ⟨h.metadata, htracked, fun j c hj hc => ?_⟩
    rcases getElem?_set_cases hx hc with ⟨rfl, rfl⟩ | ⟨-, hold⟩
    · exact hreads (h.reads _ _ hj hx)
    · exact h.reads j c hj hold

end ReloadSys

/-! ## The calls of the loops -/

namespace CoordSys

variable {M : Type} {parses : String → Bool} {snap : M → Snapshot} {w w' : CoordSys M}
  {a : CoordAct M}

/-- An action of the coordinator is an action of the calls, or none that they notice. -/
theorem sys_step (hs : step parses snap a w = some w') :
    w'.sys = w.sys ∨ ∃ b, ReloadSys.step parses snap b w.sys = some w'.sys ∧
      b.isEdit = a.isEdit ∧
      (consistent parses snap a w = true → b.consistent parses snap w.sys = true) := by
  cases step_cases hs with
  | edit m eq => subst eq; exact .inr ⟨.edit m, rfl, rfl, fun _ => rfl⟩
  | fire t listens eq => subst eq; exact .inl rfl
  | receive t waiting eq => subst eq; exact .inr ⟨.call, rfl, rfl, fun _ => rfl⟩
  | reload b sys inner stepped eq =>
    subst eq
    refine .inr ⟨b, stepped, ?_, fun hok => hok⟩
    cases b <;> first | rfl | cases inner
  | finish t i c reloading call ended eq => subst eq; exact .inl rfl
  | hooked t hooks eq => subst eq; exact .inl rfl
  | close eq => subst eq; exact .inl rfl
  | exit t waiting eq => subst eq; exact .inl rfl
  | stopped silent eq => subst eq; exact .inl rfl

/-- What the calls keep, the coordinator keeps. -/
theorem runs_sys {I : ReloadSys M → Prop} {q : Bool}
    (hstep : ∀ {b : ReloadAct M} {s s'}, (q = true → b.isEdit = false) → I s →
      b.consistent parses snap s = true → ReloadSys.step parses snap b s = some s' → I s')
    {as : List (CoordAct M)} (hquiet : q = true → ∀ a ∈ as, a.isEdit = false) (h : I w.sys)
    (hr : runs (guarded (consistent parses snap) (step parses snap)) as w = some w') :
    I w'.sys := by
  refine runs_inv_of (I := fun w => I w.sys) (P := fun a => q = true → a.isEdit = false) ?_
    (fun a ha hq => hquiet hq a ha) h hr
  intro a w w' hq h hs
  obtain ⟨hok, hs⟩ := guarded_eq_some.1 hs
  rcases sys_step hs with heq | ⟨b, hb, hedit, hcons⟩
  · rw [heq]
    exact h
  · exact hstep (fun hq' => hedit.trans (hq hq')) h (hcons hok) hb

/-- A call that is not over belongs to a loop, and once `Stop` has returned there is no loop. -/
structure Owned (w : CoordSys M) : Prop where
  owns : ∀ i c, w.sys.calls[i]? = some c → c.over = false → ∃ t, w.phase t = .reloading i
  silent : w.returned = true → ∀ t, (w.phase t).listens = false

theorem Owned.moved {t : ReloadSource} {p : LoopPhase} (h : Owned w)
    (hlistens : (w.phase t).listens = true)
    (hover : ∀ i c, w.phase t = .reloading i → w.sys.calls[i]? = some c → c.over = true) :
    Owned (w.moved t p) := by
  refine ⟨fun i c hc hrunning => ?_, fun hret => ?_⟩
  · obtain ⟨t', ht'⟩ := h.owns i c hc hrunning
    have hne : t' ≠ t := by
      rintro rfl
      rw [hover i c ht' hc] at hrunning
      cases hrunning
    exact ⟨t', (Function.update_of_ne hne ..).trans ht'⟩
  · rw [h.silent hret t] at hlistens
    cases hlistens

theorem owned_step (h : Owned w) (hs : step parses snap a w = some w') : Owned w' := by
  have hnot : ∀ {t i c}, w.phase t = .waiting ∨ w.phase t = .hooks → w.phase t = .reloading i →
      w.sys.calls[i]? = some c → c.over = true := by
    intro t i c ht hi
    rcases ht with ht | ht <;> rw [ht] at hi <;> cases hi
  cases step_cases hs with
  | edit m eq => subst eq; exact ⟨h.owns, h.silent⟩
  | fire t listens eq => subst eq; exact ⟨h.owns, h.silent⟩
  | receive t waiting eq =>
    subst eq
    refine ⟨fun i c hc hrunning => ?_, fun hret => ?_⟩
    · rcases ReloadSys.getElem?_append_cases hc with hc | ⟨rfl, -⟩
      · obtain ⟨t', ht'⟩ := h.owns i c hc hrunning
        have hne : t' ≠ t := by
          rintro rfl
          rw [waiting] at ht'
          cases ht'
        exact ⟨t', (Function.update_of_ne hne ..).trans ht'⟩
      · exact ⟨t, Function.update_self ..⟩
    · have hsilent := h.silent hret t
      rw [waiting] at hsilent
      cases hsilent
  | reload b sys inner stepped eq =>
    subst eq
    obtain ⟨-, -, hrun⟩ := ReloadSys.inner_calls inner stepped
    refine ⟨fun i c hc hrunning => ?_, h.silent⟩
    obtain ⟨c₀, hc₀, hrunning₀⟩ := hrun i c hc hrunning
    exact h.owns i c₀ hc₀ hrunning₀
  | finish t i c reloading call ended eq =>
    subst eq
    refine h.moved (by rw [reloading]; rfl) fun j d hj hd => ?_
    rw [reloading] at hj
    obtain rfl := LoopPhase.reloading.inj hj
    rw [call] at hd
    rw [← Option.some.inj hd]
    exact ended
  | hooked t hooks eq =>
    subst eq
    exact h.moved (by rw [hooks]; rfl) fun i c => hnot (.inr hooks)
  | close eq => subst eq; exact ⟨h.owns, h.silent⟩
  | exit t waiting eq =>
    subst eq
    exact h.moved (by rw [waiting]; rfl) fun i c => hnot (.inl waiting)
  | stopped silent eq => subst eq; exact ⟨h.owns, fun _ => silent⟩

theorem owned_init (m : M) (handleHUP ticks : Bool) : Owned (init m handleHUP ticks) :=
  ⟨fun _ _ hc => (by cases hc), fun hret => (by cases hret)⟩

/-! ## No trigger is lost -/

/-- The loop of `t` has still to receive, or it has made a call from number `k` on. -/
def Served (k : ℕ) (t : ReloadSource) (w : CoordSys M) : Prop :=
  k ≤ w.sys.calls.length ∧
    (w.phase t = .exited ∨ w.pending t = true ∨
      ∃ i c, k ≤ i ∧ w.sys.calls[i]? = some c ∧ (c.over = true ∨ w.phase t = .reloading i))

theorem Served.moved {k : ℕ} {t t' : ReloadSource} {p : LoopPhase} (h : Served k t w)
    (hlistens : (w.phase t').listens = true)
    (hover : p = .exited ∨ ∀ i c, w.phase t' = .reloading i → w.sys.calls[i]? = some c →
      c.over = true) : Served k t (w.moved t' p) := by
  refine ⟨h.1, ?_⟩
  by_cases ht : t' = t
  · subst ht
    rcases hover with rfl | hover
    · exact .inl (Function.update_self ..)
    rcases h.2 with hexited | hpending | ⟨i, c, hi, hc, hcover | hphase⟩
    · rw [hexited] at hlistens
      cases hlistens
    · exact .inr (.inl hpending)
    · exact .inr (.inr ⟨i, c, hi, hc, .inl hcover⟩)
    · exact .inr (.inr ⟨i, c, hi, hc, .inl (hover i c hphase hc)⟩)
  · have hphase : (w.moved t' p).phase t = w.phase t := Function.update_of_ne (Ne.symm ht) ..
    rw [hphase]
    exact h.2

/-- The loop `t'` begins a call. -/
theorem Served.receive {k : ℕ} {t t' : ReloadSource} (h : Served k t w) :
    Served k t { w with
      sys := { w.sys with calls := w.sys.calls ++ [.called] }
      phase := Function.update w.phase t' (.reloading w.sys.calls.length)
      pending := Function.update w.pending t' false } := by
  have hlen : k ≤ (w.sys.calls ++ [ReloadCall.called]).length := by
    have := h.1
    simp
    omega
  refine ⟨hlen, ?_⟩
  by_cases ht : t' = t
  · subst ht
    refine .inr (.inr ⟨w.sys.calls.length, .called, h.1, ?_, .inr (Function.update_self ..)⟩)
    simp
  · simp only [Function.update_of_ne (Ne.symm ht)]
    refine h.2.imp_right (Or.imp_right ?_)
    rintro ⟨i, c, hi, hc, hserved⟩
    obtain ⟨hlt, -⟩ := List.getElem?_eq_some_iff.1 hc
    exact ⟨i, c, hi, by rw [List.getElem?_append_left hlt]; exact hc, hserved⟩

theorem served_step {k : ℕ} {t : ReloadSource} (h : Served k t w)
    (hs : step parses snap a w = some w') : Served k t w' := by
  cases step_cases hs with
  | edit m eq => subst eq; exact h
  | fire t' listens eq =>
    subst eq
    refine ⟨h.1, h.2.imp_right (Or.imp_left fun hpending => ?_)⟩
    by_cases ht : t' = t
    · subst ht
      exact Function.update_self ..
    · exact (Function.update_of_ne (Ne.symm ht) ..).trans hpending
  | receive t' waiting eq => subst eq; exact h.receive
  | reload b sys inner stepped eq =>
    subst eq
    obtain ⟨hlen, hkeep, -⟩ := ReloadSys.inner_calls inner stepped
    refine ⟨by rw [hlen]; exact h.1, h.2.imp_right (Or.imp_right ?_)⟩
    rintro ⟨i, c, hi, hc, hover | hphase⟩
    · exact ⟨i, c, hi, hkeep i c hc hover, .inl hover⟩
    · obtain ⟨hlt, -⟩ := List.getElem?_eq_some_iff.1 hc
      exact ⟨i, _, hi, List.getElem?_eq_getElem (by rw [hlen]; exact hlt), .inr hphase⟩
  | finish t' i c reloading call ended eq =>
    subst eq
    refine h.moved (by rw [reloading]; rfl) (.inr fun j d hj hd => ?_)
    rw [reloading] at hj
    obtain rfl := LoopPhase.reloading.inj hj
    rw [call] at hd
    rw [← Option.some.inj hd]
    exact ended
  | hooked t' hooks eq =>
    subst eq
    refine h.moved (by rw [hooks]; rfl) (.inr fun i c hi => ?_)
    rw [hooks] at hi
    cases hi
  | close eq => subst eq; exact h
  | exit t' waiting eq => subst eq; exact h.moved (by rw [waiting]; rfl) (.inl rfl)
  | stopped silent eq => subst eq; exact h

/-- A loop that waits and has nothing to receive has made its call. -/
theorem Served.over {k : ℕ} {t : ReloadSource} (h : Served k t w) (hwaiting : w.phase t = .waiting)
    (hempty : w.pending t = false) : ∃ i c, k ≤ i ∧ w.sys.calls[i]? = some c ∧ c.over = true := by
  rcases h.2 with hexited | hpending | ⟨i, c, hi, hc, hover | hphase⟩
  · rw [hwaiting] at hexited
    cases hexited
  · rw [hempty] at hpending
    cases hpending
  · exact ⟨i, c, hi, hc, hover⟩
  · rw [hwaiting] at hphase
    cases hphase

/-- A signal or a tick after the last edit, and after the calls of that time have returned:
    once its loop waits again with an empty channel, and no later call has failed, the scheduler
    has exactly the enabled loads of the metadata whose expressions parse. -/
theorem trigger_converges (parses : String → Bool) (snap : M → Snapshot)
    (hinj : ∀ m m', (snap m).fingerprint = (snap m').fingerprint → m = m')
    (hne : ∀ m, (snap m).fingerprint ≠ "") {m₀ : M} {handleHUP ticks : Bool}
    {as bs cs : List (CoordAct M)} {w₁ w₂ w₃ : CoordSys M} {t : ReloadSource}
    (hr : runs (guarded (consistent parses snap) (step parses snap)) as
      (init m₀ handleHUP ticks) = some w)
    (hr₁ : runs (guarded (consistent parses snap) (step parses snap)) bs w = some w₁)
    (hbs : ∀ a ∈ bs, a.isEdit = false)
    (hover : ∀ i c, i < w.sys.calls.length → w₁.sys.calls[i]? = some c → c.over = true)
    (hfire : step parses snap (.fire t) w₁ = some w₂)
    (hr₂ : runs (guarded (consistent parses snap) (step parses snap)) cs w₂ = some w₃)
    (hcs : ∀ a ∈ cs, a.isEdit = false) (hwaiting : w₃.phase t = .waiting)
    (hempty : w₃.pending t = false)
    (hok : ∀ i e, w₂.sys.calls.length ≤ i → w₃.sys.calls[i]? ≠ some (.failed e))
    (id : Int) (ld : Load) :
    w₃.sys.scheduler.held id = some ld ↔ ld ∈ (snap w.sys.metadata).accepted parses ∧ ld.id = id := by
  have htracked : ReloadSys.Tracked parses snap w.sys :=
    runs_sys (I := ReloadSys.Tracked parses snap) (q := false)
      (fun _ h hok hs => ReloadSys.tracked_step h hok hs) (by simp) ⟨.inl rfl, by simp [init]⟩ hr
  have hsince : ReloadSys.Since parses snap w.sys.metadata w.sys.calls.length w₁.sys := by
    refine runs_sys (q := true) (fun hq h hok hs => ReloadSys.since_step h hok (hq rfl) hs)
      (fun _ => hbs) ⟨rfl, htracked, fun i c hi hc => ?_⟩ hr₁
    rw [List.getElem?_eq_none hi] at hc
    cases hc
  obtain ⟨hlisten, rfl⟩ : (w₁.phase t).listens = true ∧
      w₂ = { w₁ with pending := Function.update w₁.pending t true } := by
    cases step_cases hfire with
    | fire t listens eq => exact ⟨listens, eq⟩
  have hfresh : ReloadSys.Fresh parses snap w.sys.metadata w₁.sys.calls.length w₃.sys := by
    refine runs_sys (q := true)
      (fun hq h hok hs => ReloadSys.fresh_step hinj hne h hok (hq rfl) hs) (fun _ => hcs) ?_ hr₂
    exact hsince.fresh hover
  have hserved : Served w₁.sys.calls.length t w₃ := by
    refine runs_inv (I := Served w₁.sys.calls.length t) (fun h hs => ?_) ?_ hr₂
    · exact served_step h (guarded_eq_some.1 hs).2
    · exact ⟨Nat.le_refl _, .inr (.inl (Function.update_self ..))⟩
  obtain ⟨i, c, hi, hc, hcover⟩ := hserved.over hwaiting hempty
  cases c with
  | done => exact (hfresh.done i hi hc).held
  | failed e => exact absurd hc (hok i e hi)
  | called => cases hcover
  | read fp => cases hcover
  | passed fp => cases hcover
  | listed fp loads => cases hcover

/-! ## Stopping -/

theorem Owned.calls_over (h : Owned w) (hret : w.returned = true) :
    ∀ c ∈ w.sys.calls, c.over = true := by
  intro c hc
  by_contra hrunning
  obtain ⟨i, hi⟩ := List.mem_iff_getElem?.1 hc
  obtain ⟨t, ht⟩ := h.owns i c hi (by simpa using hrunning)
  have hsilent := h.silent hret t
  rw [ht] at hsilent
  cases hsilent

/-- What an action can still do when `Stop` has returned. -/
theorem returned_step (h : Owned w) (hret : w.returned = true)
    (hs : step parses snap a w = some w') :
    w'.returned = true ∧ w'.sys.calls = w.sys.calls ∧ w'.sys.scheduler = w.sys.scheduler := by
  have hnone : ∀ {t p}, w.phase t = p → p.listens = true → False := by
    intro t p hp hl
    rw [← hp, h.silent hret t] at hl
    cases hl
  cases step_cases hs with
  | edit m eq => subst eq; exact ⟨hret, rfl, rfl⟩
  | fire t listens eq => exact (hnone rfl listens).elim
  | receive t waiting eq => exact (hnone waiting rfl).elim
  | reload b sys inner stepped eq =>
    obtain ⟨-, i, x, y, hx, hrunning, -⟩ := ReloadSys.inner_step inner stepped
    rw [h.calls_over hret x (List.mem_of_getElem? hx)] at hrunning
    cases hrunning
  | finish t i c reloading call ended eq => exact (hnone reloading rfl).elim
  | hooked t hooks eq => exact (hnone hooks rfl).elim
  | close eq => subst eq; exact ⟨hret, rfl, rfl⟩
  | exit t waiting eq => exact (hnone waiting rfl).elim
  | stopped silent eq => subst eq; exact ⟨rfl, rfl, rfl⟩

/-- When `Stop` has returned, every call is over, and no later action makes one or touches the
    scheduler. -/
theorem stop_ends_reloads (parses : String → Bool) (snap : M → Snapshot) {m₀ : M}
    {handleHUP ticks : Bool} {as bs : List (CoordAct M)} {w₁ : CoordSys M}
    (hr : runs (step parses snap) as (init m₀ handleHUP ticks) = some w)
    (hret : w.returned = true) (hr₁ : runs (step parses snap) bs w = some w₁) :
    (∀ c ∈ w.sys.calls, c.over = true) ∧ w₁.sys.calls = w.sys.calls ∧
      w₁.sys.scheduler = w.sys.scheduler := by
  have howned : Owned w := runs_inv owned_step (owned_init m₀ handleHUP ticks) hr
  refine ⟨howned.calls_over hret, ?_⟩
  have hend := runs_inv (I := fun w' => Owned w' ∧ w'.returned = true ∧
      w'.sys.calls = w.sys.calls ∧ w'.sys.scheduler = w.sys.scheduler) ?_
    ⟨howned, hret, rfl, rfl⟩ hr₁
  · exact hend.2.2
  · rintro a w₂ w₃ ⟨h, hret₂, hcalls, hsched⟩ hs
    obtain ⟨hret₃, hcalls₃, hsched₃⟩ := returned_step h hret₂ hs
    exact ⟨owned_step h hs, hret₃, hcalls₃.trans hcalls, hsched₃.trans hsched⟩

/-! ## Histories -/

section

open ReloadSys Scheduler

/-- The load is edited while the poll loop reloads. -/
def editDuringPoll : List (CoordAct Edition) :=
  [.fire .periodic, .receive .periodic, .edit .hourly]

/-- The reload fails, and the next one begins with the next tick. -/
def pollAgain : List (CoordAct Edition) :=
  [.reload (.read 0 (some "timeout")), .finish .periodic, .hooked .periodic, .fire .periodic,
    .receive .periodic]

/-- A reload for `SIGHUP`, in the middle of that of the poll loop. -/
def hupDuringPoll : List (CoordAct Edition) :=
  [.receive .sighup, .reload (.read 2 none), .reload (.read 1 none), .reload (.test 2),
    .reload (.list 2 none), .reload (.test 1), .reload (.list 1 none),
    .reload (.apply 2 ⟨[], [loadAt 1 "0 * * * *"]⟩), .finish .sighup,
    .reload (.apply 1 ⟨[1], [loadAt 1 "0 * * * *"]⟩), .hooked .sighup]

/-- The coordinator with these metadata. -/
abbrev editionStep : CoordAct Edition → CoordSys Edition → Option (CoordSys Edition) :=
  guarded (consistent acceptsNotBad edited) (step acceptsNotBad edited)

theorem hupDuringPoll_converges :
    ∃ w w₁ w₂ w₃, runs editionStep editDuringPoll (init .nightly true true) = some w ∧
      runs editionStep pollAgain w = some w₁ ∧
      step acceptsNotBad edited (.fire .sighup) w₁ = some w₂ ∧
      runs editionStep hupDuringPoll w₂ = some w₃ ∧
      ∀ id ld, w₃.sys.scheduler.held id = some ld ↔
        ld ∈ (edited w.sys.metadata).accepted acceptsNotBad ∧ ld.id = id := by
  have heval : ((runs editionStep editDuringPoll (init .nightly true true)).bind fun w =>
      (runs editionStep pollAgain w).bind fun w₁ =>
        (step acceptsNotBad edited (.fire .sighup) w₁).bind fun w₂ =>
          (runs editionStep hupDuringPoll w₂).map fun w₃ =>
            ([w.sys.calls, w₁.sys.calls, w₂.sys.calls, w₃.sys.calls], w₃.phase .sighup,
              w₃.pending .sighup)) =
      some ([[.called], [.failed "timeout", .called], [.failed "timeout", .called],
        [.failed "timeout", .done, .done]], .waiting, false) := by
    decide +kernel
  obtain ⟨w, hr, heval⟩ := Option.bind_eq_some_iff.1 heval
  obtain ⟨w₁, hr₁, heval⟩ := Option.bind_eq_some_iff.1 heval
  obtain ⟨w₂, hfire, heval⟩ := Option.bind_eq_some_iff.1 heval
  obtain ⟨w₃, hr₂, heval⟩ := Option.map_eq_some_iff.1 heval
  simp only [Prod.mk.injEq, List.cons.injEq, and_true] at heval
  obtain ⟨⟨hcalls, hcalls₁, hcalls₂, hcalls₃⟩, hwaiting, hempty⟩ := heval
  refine ⟨w, w₁, w₂, w₃, hr, hr₁, hfire, hr₂, fun id ld => trigger_converges _ edited edited_inj
    edited_ne hr hr₁ (by simp [pollAgain, CoordAct.isEdit]) ?_ hfire hr₂
    (by simp [hupDuringPoll, CoordAct.isEdit]) hwaiting hempty ?_ id ld⟩
  · intro i c hi hc
    rw [hcalls] at hi
    obtain rfl : i = 0 := by simpa using hi
    rw [hcalls₁] at hc
    rw [← Option.some.inj hc]
    rfl
  · intro i e hi hc
    rw [hcalls₂] at hi
    rw [hcalls₃] at hc
    obtain rfl | hlt : i = 2 ∨ 3 ≤ i := by
      simp only [List.length_cons, List.length_nil] at hi
      omega
    · cases hc
    · rw [List.getElem?_eq_none (by simpa using hlt)] at hc
      cases hc

/-- `Stop` while the poll loop reloads. -/
def stopDuringPoll : List (CoordAct Edition) :=
  [.fire .periodic, .receive .periodic, .close, .exit .sighup, .reload (.read 0 (some "timeout")),
    .finish .periodic, .hooked .periodic, .exit .periodic, .stopped]

theorem stopDuringPoll_ends :
    ∃ w w₁, runs (step acceptsNotBad edited) stopDuringPoll (init .nightly true true) = some w ∧
      runs (step acceptsNotBad edited) [.edit .hourly] w = some w₁ ∧
      (∀ c ∈ w.sys.calls, c.over = true) ∧ w₁.sys.calls = w.sys.calls ∧
      w₁.sys.scheduler = w.sys.scheduler := by
  have heval : ((runs (step acceptsNotBad edited) stopDuringPoll (init .nightly true true)).map
      fun w => w.returned) = some true := by decide +kernel
  obtain ⟨w, hr, hret⟩ := Option.map_eq_some_iff.1 heval
  have hr₁ : runs (step acceptsNotBad edited) [.edit .hourly] w =
      some { w with sys := { w.sys with metadata := .hourly } } := rfl
  exact ⟨w, _, hr, hr₁, stop_ends_reloads _ edited hr hret hr₁⟩

end

end CoordSys

end DataLoader
