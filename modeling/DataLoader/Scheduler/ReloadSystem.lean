import DataLoader.Effects.Slots
import DataLoader.Effects.Transition
import DataLoader.Scheduler.Reload

/-!
# Reloads while the metadata is edited

Any number of calls of `Scheduler.Reload` at the same time (the poll loop and
`SIGHUP` of `internal/reload/coordinator.go`) while the metadata is edited. A call
reads the fingerprint, compares it under the lock, lists the enabled loads and
applies them under the lock; edits and other calls can come in between. `M` is the
type of metadata states and `snap` what the repository reads in one of them.

* `Stepped`, `step_cases`: everything that one action can do.
* `Tracked`: the scheduler is in line with the metadata of its fingerprint, if a
  call lists the metadata that it has fingerprinted (`ReloadAct.consistent`).
* `Settled`: what follows once the edits have stopped.
-/

namespace DataLoader

open Effects

/-- A call of `Reload`. -/
inductive ReloadCall
  | called
  /-- The fingerprint has been read. -/
  | read (fp : String)
  /-- It differs from that of the scheduler. -/
  | passed (fp : String)
  | listed (fp : String) (loads : List Load)
  /-- The call has returned without an error. -/
  | done
  | failed (err : Err)
  deriving DecidableEq, Repr

/-- The call has returned. -/
def ReloadCall.over : ReloadCall → Bool
  | .done | .failed _ => true
  | _ => false

/-- The metadata, the scheduler and the calls of `Reload` by number. -/
structure ReloadSys (M : Type) where
  metadata : M
  scheduler : Scheduler := {}
  calls : List ReloadCall := []

/-- The actions; `i` is the number of a call. -/
inductive ReloadAct (M : Type)
  | edit (m : M)
  | call
  /-- `MetadataFingerprint` returns. -/
  | read (i : ℕ) (err : Option Err)
  | test (i : ℕ)
  /-- `ListEnabledLoads` returns. -/
  | list (i : ℕ) (err : Option Err)
  /-- The locked section, with the orders in which it visits its maps. -/
  | apply (i : ℕ) (o : Orders)

namespace ReloadSys

variable {M : Type} (parses : String → Bool) (snap : M → Snapshot)

/-- The transition system. -/
def step : ReloadAct M → ReloadSys M → Option (ReloadSys M)
  | .edit m, w => some { w with metadata := m }
  | .call, w => some { w with calls := w.calls ++ [.called] }
  | .read i err, w =>
    match w.calls[i]? with
    | some .called =>
      some { w with
        calls := w.calls.set i (match err with
          | some e => .failed e
          | none => .read (snap w.metadata).fingerprint) }
    | _ => none
  | .test i, w =>
    match w.calls[i]? with
    | some (.read fp) =>
      some { w with calls := w.calls.set i (if fp = w.scheduler.fingerprint then .done else .passed fp) }
    | _ => none
  | .list i err, w =>
    match w.calls[i]? with
    | some (.passed fp) =>
      some { w with
        calls := w.calls.set i (match err with
          | some e => .failed e
          | none => .listed fp (snap w.metadata).listEnabledLoads) }
    | _ => none
  | .apply i o, w =>
    match w.calls[i]? with
    | some (.listed fp loads) =>
      (w.scheduler.applyReload parses fp loads o).map fun s =>
        { w with scheduler := s, calls := w.calls.set i .done }
    | _ => none

end ReloadSys

/-- A call lists metadata with the fingerprint that it has read, and no load that
    is in the map is applied with an expression that does not parse. -/
def ReloadAct.consistent {M : Type} (parses : String → Bool) (snap : M → Snapshot) :
    ReloadAct M → ReloadSys M → Bool
  | .list i _, w =>
    match w.calls[i]? with
    | some (.passed fp) => (snap w.metadata).fingerprint == fp
    | _ => true
  | .apply i _, w =>
    match w.calls[i]? with
    | some (.listed _ loads) =>
      loads.all fun ld => (w.scheduler.scheduled.lookup ld.id).isNone || parses ld.cronExpression
    | _ => true
  | _, _ => true

def ReloadAct.isEdit {M : Type} : ReloadAct M → Bool
  | .edit _ => true
  | _ => false

namespace ReloadSys

variable {M : Type} {parses : String → Bool} {snap : M → Snapshot} {w w' : ReloadSys M}
  {a : ReloadAct M}

/-- Everything that an action can do. -/
inductive Stepped (parses : String → Bool) (snap : M → Snapshot) (w w' : ReloadSys M) :
    ReloadAct M → Prop
  | edit (m : M) (eq : w' = { w with metadata := m }) : Stepped parses snap w w' (.edit m)
  | call (eq : w' = { w with calls := w.calls ++ [.called] }) : Stepped parses snap w w' .call
  | fail (i : ℕ) (c : ReloadCall) (e : Err) (a : ReloadAct M) (call : w.calls[i]? = some c)
      (running : c.over = false) (eq : w' = { w with calls := w.calls.set i (.failed e) }) :
      Stepped parses snap w w' a
  | read (i : ℕ) (call : w.calls[i]? = some .called)
      (eq : w' = { w with calls := w.calls.set i (.read (snap w.metadata).fingerprint) }) :
      Stepped parses snap w w' (.read i none)
  | skip (i : ℕ) (call : w.calls[i]? = some (.read w.scheduler.fingerprint))
      (eq : w' = { w with calls := w.calls.set i .done }) : Stepped parses snap w w' (.test i)
  | pass (i : ℕ) (fp : String) (call : w.calls[i]? = some (.read fp))
      (eq : w' = { w with calls := w.calls.set i (.passed fp) }) : Stepped parses snap w w' (.test i)
  | list (i : ℕ) (fp : String) (call : w.calls[i]? = some (.passed fp))
      (eq : w' = { w with
        calls := w.calls.set i (.listed fp (snap w.metadata).listEnabledLoads) }) :
      Stepped parses snap w w' (.list i none)
  | apply (i : ℕ) (o : Orders) (fp : String) (loads : List Load) (s : Scheduler)
      (call : w.calls[i]? = some (.listed fp loads))
      (applied : w.scheduler.applyReload parses fp loads o = some s)
      (eq : w' = { w with scheduler := s, calls := w.calls.set i .done }) :
      Stepped parses snap w w' (.apply i o)

theorem step_cases (h : step parses snap a w = some w') : Stepped parses snap w w' a := by
  cases a with
  | edit m =>
    obtain rfl := Option.some.inj h
    exact .edit m rfl
  | call =>
    obtain rfl := Option.some.inj h
    exact .call rfl
  | read i err =>
    simp only [step] at h
    split at h
    next hcall =>
      obtain rfl := Option.some.inj h
      cases err with
      | some e => exact .fail i _ e _ hcall rfl rfl
      | none => exact .read i hcall rfl
    next => cases h
  | test i =>
    simp only [step] at h
    split at h
    next fp hcall =>
      obtain rfl := Option.some.inj h
      by_cases hfp : fp = w.scheduler.fingerprint
      · subst hfp
        exact .skip i hcall (by simp)
      · exact .pass i fp hcall (by simp [hfp])
    next => cases h
  | list i err =>
    simp only [step] at h
    split at h
    next fp hcall =>
      obtain rfl := Option.some.inj h
      cases err with
      | some e => exact .fail i _ e _ hcall rfl rfl
      | none => exact .list i fp hcall rfl
    next => cases h
  | apply i o =>
    simp only [step] at h
    split at h
    next fp loads hcall =>
      obtain ⟨s, hs, rfl⟩ := Option.map_eq_some_iff.1 h
      exact .apply i o fp loads s hcall hs rfl
    next => cases h

/-! ## The fingerprint of the scheduler -/

/-- The scheduler is in line with the metadata whose fingerprint it has, or is as it
    was at first. -/
def InLine (parses : String → Bool) (snap : M → Snapshot) (s : Scheduler) : Prop :=
  s = {} ∨ ∃ m, s.Synced parses (snap m)

theorem InLine.inStep {s : Scheduler} (h : InLine parses snap s) : s.InStep := by
  rcases h with rfl | ⟨m, hm⟩
  · have hinit : Scheduler.Synced parses .empty {} := Scheduler.synced_init
    exact hinit.inStep
  · exact hm.inStep

/-- The loads that a call has listed are those of the metadata that it has
    fingerprinted. -/
def Lists (snap : M → Snapshot) : ReloadCall → Prop
  | .listed fp loads => ∃ m, fp = (snap m).fingerprint ∧ loads = (snap m).listEnabledLoads
  | _ => True

structure Tracked (parses : String → Bool) (snap : M → Snapshot) (w : ReloadSys M) : Prop where
  inLine : InLine parses snap w.scheduler
  lists : ∀ c ∈ w.calls, Lists snap c

theorem forall_mem_set {P : ReloadCall → Prop} {calls : List ReloadCall} {i : ℕ} {y : ReloadCall}
    (h : ∀ c ∈ calls, P c) (hy : P y) : ∀ c ∈ calls.set i y, P c := by
  intro c hc
  rcases List.mem_or_eq_of_mem_set hc with hc | rfl
  · exact h c hc
  · exact hy

/-- What the locked section does with consistent loads. -/
theorem synced_of_apply {i : ℕ} {o : Orders} {m : M} {s : Scheduler}
    (hline : InLine parses snap w.scheduler)
    (hcall : w.calls[i]? = some (.listed (snap m).fingerprint (snap m).listEnabledLoads))
    (hok : ReloadAct.consistent parses snap (.apply i o) w = true)
    (hs : w.scheduler.applyReload parses (snap m).fingerprint (snap m).listEnabledLoads o = some s) :
    s.Synced parses (snap m) := by
  refine hline.inStep.applyReload (fun ld hld hne => ?_) hs
  simp only [ReloadAct.consistent, hcall, List.all_eq_true, Bool.or_eq_true, Option.isNone_iff_eq_none]
    at hok
  rcases hok ld hld with hnone | hparses
  · exact absurd (by simp [Scheduler.held, Scheduler.look, hnone]) hne
  · exact hparses

theorem tracked_step (h : Tracked parses snap w) (hok : a.consistent parses snap w = true)
    (hs : step parses snap a w = some w') : Tracked parses snap w' := by
  cases step_cases hs with
  | edit m eq => subst eq; exact ⟨h.inLine, h.lists⟩
  | call eq =>
    subst eq
    refine ⟨h.inLine, fun c hc => ?_⟩
    rcases List.mem_append.1 hc with hc | hc
    · exact h.lists c hc
    · rw [List.mem_singleton.1 hc]
      trivial
  | fail i c e a call running eq => subst eq; exact ⟨h.inLine, forall_mem_set h.lists trivial⟩
  | read i call eq => subst eq; exact ⟨h.inLine, forall_mem_set h.lists trivial⟩
  | skip i call eq => subst eq; exact ⟨h.inLine, forall_mem_set h.lists trivial⟩
  | pass i fp call eq => subst eq; exact ⟨h.inLine, forall_mem_set h.lists trivial⟩
  | list i fp call eq =>
    subst eq
    refine ⟨h.inLine, forall_mem_set h.lists ⟨w.metadata, ?_, rfl⟩⟩
    simp only [ReloadAct.consistent, call, beq_iff_eq] at hok
    exact hok.symm
  | apply i o fp loads s call applied eq =>
    subst eq
    obtain ⟨m, rfl, rfl⟩ := h.lists _ (List.mem_of_getElem? call)
    exact ⟨.inr ⟨m, synced_of_apply h.inLine call hok applied⟩, forall_mem_set h.lists trivial⟩

/-! ## After the last edit -/

/-- What a call that has begun after the last edit has read. -/
def Reads (snap : M → Snapshot) (m : M) : ReloadCall → Prop
  | .read fp | .passed fp => fp = (snap m).fingerprint
  | .listed fp loads => fp = (snap m).fingerprint ∧ loads = (snap m).listEnabledLoads
  | _ => True

/-- The metadata is `m`, and the calls up to the number `n` are over. -/
structure Settled (parses : String → Bool) (snap : M → Snapshot) (m : M) (n : ℕ)
    (w : ReloadSys M) : Prop where
  metadata : w.metadata = m
  tracked : Tracked parses snap w
  known : n ≤ w.calls.length
  before : ∀ i c, i < n → w.calls[i]? = some c → c.over = true
  reads : ∀ i c, n ≤ i → w.calls[i]? = some c → Reads snap m c
  done : ∀ i, n ≤ i → w.calls[i]? = some .done → w.scheduler.Synced parses (snap m)

theorem getElem?_set_cases {calls : List ReloadCall} {i j : ℕ} {x y c : ReloadCall}
    (hx : calls[i]? = some x) (h : (calls.set i y)[j]? = some c) :
    (j = i ∧ c = y) ∨ (j ≠ i ∧ calls[j]? = some c) := by
  by_cases hji : j = i
  · subst hji
    obtain ⟨hj, -⟩ := List.getElem?_eq_some_iff.1 hx
    rw [List.getElem?_set_self hj] at h
    exact .inl ⟨rfl, (Option.some.inj h).symm⟩
  · rw [List.getElem?_set_ne (Ne.symm hji)] at h
    exact .inr ⟨hji, h⟩

theorem getElem?_append_cases {calls : List ReloadCall} {x c : ReloadCall} {j : ℕ}
    (h : (calls ++ [x])[j]? = some c) : calls[j]? = some c ∨ j = calls.length ∧ c = x := by
  rcases Nat.lt_trichotomy j calls.length with hj | rfl | hj
  · rw [List.getElem?_append_left hj] at h
    exact .inl h
  · rw [List.getElem?_append_right (Nat.le_refl _), Nat.sub_self] at h
    exact .inr ⟨rfl, (Option.some.inj h).symm⟩
  · rw [List.getElem?_eq_none (by simp; omega)] at h
    cases h

variable {m : M} {n : ℕ}

/-- A call that is not over began after the last edit. -/
theorem Settled.le_of_not_over (h : Settled parses snap m n w) {i : ℕ} {c : ReloadCall}
    (hc : w.calls[i]? = some c) (hover : c.over = false) : n ≤ i := by
  by_contra hlt
  rw [h.before i c (by omega) hc] at hover
  cases hover

/-- A call moves on; the scheduler stays or gets in line. -/
theorem Settled.set (h : Settled parses snap m n w) {i : ℕ} {x y : ReloadCall} {s : Scheduler}
    (hx : w.calls[i]? = some x) (hover : x.over = false) (hy : Reads snap m y)
    (hkeep : w.scheduler.Synced parses (snap m) → s.Synced parses (snap m))
    (hdone : y = .done → s.Synced parses (snap m))
    (htracked : Tracked parses snap { w with scheduler := s, calls := w.calls.set i y }) :
    Settled parses snap m n { w with scheduler := s, calls := w.calls.set i y } := by
  have hi := h.le_of_not_over hx hover
  refine ⟨h.metadata, htracked, by simpa using h.known, ?_, ?_, ?_⟩
  · intro j c hj hc
    rcases getElem?_set_cases hx hc with ⟨rfl, -⟩ | ⟨-, hold⟩
    · omega
    · exact h.before j c hj hold
  · intro j c hj hc
    rcases getElem?_set_cases hx hc with ⟨rfl, rfl⟩ | ⟨-, hold⟩
    · exact hy
    · exact h.reads j c hj hold
  · intro j hj hc
    rcases getElem?_set_cases hx hc with ⟨rfl, heq⟩ | ⟨-, hold⟩
    · exact hdone heq.symm
    · exact hkeep (h.done j hj hold)

/-- A new call. -/
theorem Settled.append (h : Settled parses snap m n w)
    (htracked : Tracked parses snap { w with calls := w.calls ++ [.called] }) :
    Settled parses snap m n { w with calls := w.calls ++ [.called] } := by
  have hn := h.known
  refine ⟨h.metadata, htracked, by simp; omega, ?_, ?_, ?_⟩
  · intro j c hj hc
    rcases getElem?_append_cases hc with hc | ⟨rfl, -⟩
    · exact h.before j c hj hc
    · omega
  · intro j c hj hc
    rcases getElem?_append_cases hc with hc | ⟨-, rfl⟩
    · exact h.reads j c hj hc
    · trivial
  · intro j hj hc
    rcases getElem?_append_cases hc with hc | ⟨-, hcalled⟩
    · exact h.done j hj hc
    · cases hcalled

/-- What a step other than an edit does: there is a new call, or a call that is not over moves
    on. If it has only read `m` before, then so it has after, and the scheduler stays or gets in
    line. -/
inductive QuietStep (parses : String → Bool) (snap : M → Snapshot) (m : M) (w : ReloadSys M) :
    ReloadSys M → Prop
  | append : QuietStep parses snap m w { w with calls := w.calls ++ [.called] }
  | set {i : ℕ} {x y : ReloadCall} {s : Scheduler} (hx : w.calls[i]? = some x)
      (hover : x.over = false) (hreads : Reads snap m x → Reads snap m y)
      (hkeep : Reads snap m x → w.scheduler.Synced parses (snap m) → s.Synced parses (snap m))
      (hdone : (∀ m m', (snap m).fingerprint = (snap m').fingerprint → m = m') →
        (∀ m, (snap m).fingerprint ≠ "") → Reads snap m x → y = .done →
          s.Synced parses (snap m)) :
      QuietStep parses snap m w { w with scheduler := s, calls := w.calls.set i y }

theorem quiet_step (hm : w.metadata = m) (htracked : Tracked parses snap w)
    (hok : a.consistent parses snap w = true) (hquiet : a.isEdit = false)
    (hs : step parses snap a w = some w') : QuietStep parses snap m w w' := by
  cases step_cases hs with
  | edit m eq => cases hquiet
  | call eq =>
    subst eq
    exact .append
  | fail i c e a call running eq =>
    subst eq
    exact .set call running (fun _ => trivial) (fun _ hs => hs) (by simp)
  | read i call eq =>
    subst eq
    exact .set call rfl (fun _ => by rw [Reads, hm]) (fun _ hs => hs) (by simp)
  | skip i call eq =>
    subst eq
    refine .set call rfl (fun _ => trivial) (fun _ hs => hs) fun hinj hne hfp _ => ?_
    -- the scheduler has the fingerprint of the metadata
    change w.scheduler.fingerprint = (snap m).fingerprint at hfp
    rcases htracked.inLine with hinit | ⟨m', hm'⟩
    · rw [hinit] at hfp
      exact absurd hfp.symm (hne m)
    · rw [hinj m m' (hfp.symm.trans hm'.fingerprint)]
      exact hm'
  | pass i fp call eq =>
    subst eq
    exact .set call rfl id (fun _ hs => hs) (by simp)
  | list i fp call eq =>
    subst eq
    exact .set call rfl (fun hfp => ⟨hfp, by rw [hm]⟩) (fun _ hs => hs) (by simp)
  | apply i o fp loads s call applied eq =>
    subst eq
    have hsynced : Reads snap m (.listed fp loads) → s.Synced parses (snap m) := by
      rintro ⟨rfl, rfl⟩
      exact synced_of_apply htracked.inLine call hok applied
    exact .set call rfl (fun _ => trivial) (fun hr _ => hsynced hr) fun _ _ hr _ => hsynced hr

theorem settled_step
    (hinj : ∀ m m', (snap m).fingerprint = (snap m').fingerprint → m = m')
    (hne : ∀ m, (snap m).fingerprint ≠ "") (h : Settled parses snap m n w)
    (hok : a.consistent parses snap w = true) (hquiet : a.isEdit = false)
    (hs : step parses snap a w = some w') : Settled parses snap m n w' := by
  have htracked := tracked_step h.tracked hok hs
  cases quiet_step h.metadata h.tracked hok hquiet hs with
  | append => exact h.append htracked
  | set hx hover hreads hkeep hdone =>
    have hr := h.reads _ _ (h.le_of_not_over hx hover) hx
    exact h.set hx hover (hreads hr) (hkeep hr) (hdone hinj hne hr) htracked

/-- Once the edits have stopped and the calls in progress have ended, one further
    call of `Reload` that returns without an error leaves the map with exactly the
    enabled loads of the metadata whose expressions parse, in every run whose steps
    are consistent. -/
theorem reload_settles (parses : String → Bool) (snap : M → Snapshot)
    (hinj : ∀ m m', (snap m).fingerprint = (snap m').fingerprint → m = m')
    (hne : ∀ m, (snap m).fingerprint ≠ "") {m₀ : M} {as bs : List (ReloadAct M)}
    (hr : runs (guarded (ReloadAct.consistent parses snap) (step parses snap)) as
      { metadata := m₀ } = some w)
    (hover : ∀ c ∈ w.calls, c.over = true)
    (hr' : runs (guarded (ReloadAct.consistent parses snap) (step parses snap)) bs w = some w')
    (hquiet : ∀ a ∈ bs, a.isEdit = false) {i : ℕ} (hi : w.calls.length ≤ i)
    (hdone : w'.calls[i]? = some .done) (id : Int) (ld : Load) :
    w'.scheduler.held id = some ld ↔ ld ∈ (snap w.metadata).accepted parses ∧ ld.id = id := by
  have htracked : Tracked parses snap w := by
    refine runs_inv (I := Tracked parses snap) ?_ ⟨.inl rfl, by simp⟩ hr
    intro a w w' h hs
    obtain ⟨hok, hs⟩ := guarded_eq_some.1 hs
    exact tracked_step h hok hs
  have hstart : Settled parses snap w.metadata w.calls.length w := by
    refine ⟨rfl, htracked, Nat.le_refl _, fun j c _ hc => hover c (List.mem_of_getElem? hc), ?_, ?_⟩
    · intro j c hj hc
      rw [List.getElem?_eq_none hj] at hc
      cases hc
    · intro j hj hc
      rw [List.getElem?_eq_none hj] at hc
      cases hc
  have hend : Settled parses snap w.metadata w.calls.length w' := by
    refine runs_inv_of (I := Settled parses snap w.metadata w.calls.length) ?_ hquiet hstart hr'
    intro a w₁ w₂ hq h hs
    obtain ⟨hok, hs⟩ := guarded_eq_some.1 hs
    exact settled_step hinj hne h hok hq hs
  exact (hend.done i hi hdone).held

/-! ## Two histories -/

/-- Two states of the metadata: one load that runs nightly or hourly. -/
inductive Edition
  | nightly
  | hourly
  deriving DecidableEq, Repr

def edited : Edition → Snapshot
  | .nightly => ⟨"nightly", [Scheduler.loadAt 1 "0 2 * * *"], List.nodup_singleton _⟩
  | .hourly => ⟨"hourly", [Scheduler.loadAt 1 "0 * * * *"], List.nodup_singleton _⟩

theorem edited_inj : ∀ m m', (edited m).fingerprint = (edited m').fingerprint → m = m'
  | .nightly, .nightly, _ => rfl
  | .hourly, .hourly, _ => rfl

theorem edited_ne : ∀ m, (edited m).fingerprint ≠ ""
  | .nightly | .hourly => by decide

/-- Two calls overlap while the load is edited, the earlier one applies last, and a
    third call follows. -/
def overlapping : List (ReloadAct Edition) :=
  [.call, .read 0 none, .test 0, .list 0 none, .edit .hourly, .call, .read 1 none, .test 1, .list 1 none,
    .apply 1 ⟨[], [Scheduler.loadAt 1 "0 * * * *"]⟩, .apply 0 ⟨[1], [Scheduler.loadAt 1 "0 2 * * *"]⟩]

def furtherCall : List (ReloadAct Edition) :=
  [.call, .read 2 none, .test 2, .list 2 none, .apply 2 ⟨[1], [Scheduler.loadAt 1 "0 * * * *"]⟩]

theorem overlapping_settles :
    ∃ w w', runs (guarded (ReloadAct.consistent Scheduler.acceptsNotBad edited)
        (step Scheduler.acceptsNotBad edited)) overlapping { metadata := .nightly } = some w ∧
      runs (guarded (ReloadAct.consistent Scheduler.acceptsNotBad edited)
        (step Scheduler.acceptsNotBad edited)) furtherCall w = some w' ∧
      w.metadata = .hourly ∧ ∀ id ld, w'.scheduler.held id = some ld ↔
        ld ∈ (edited w.metadata).accepted Scheduler.acceptsNotBad ∧ ld.id = id := by
  have heval : ((runs (guarded (ReloadAct.consistent Scheduler.acceptsNotBad edited)
      (step Scheduler.acceptsNotBad edited)) overlapping { metadata := .nightly }).map fun w =>
      (w.metadata, w.calls, (runs (guarded (ReloadAct.consistent Scheduler.acceptsNotBad edited)
        (step Scheduler.acceptsNotBad edited)) furtherCall w).map fun w' => w'.calls)) =
      some (.hourly, [.done, .done], some [.done, .done, .done]) := by
    decide +kernel
  obtain ⟨w, hr, heq⟩ := Option.map_eq_some_iff.1 heval
  simp only [Prod.mk.injEq] at heq
  obtain ⟨hm, hcalls, hfurther⟩ := heq
  obtain ⟨w', hr', hcalls'⟩ := Option.map_eq_some_iff.1 hfurther
  refine ⟨w, w', hr, hr', hm, fun id ld => reload_settles _ edited edited_inj edited_ne hr ?_ hr'
    ?_ (i := 2) ?_ ?_ id ld⟩
  · rw [hcalls]
    decide
  · simp [furtherCall, ReloadAct.isEdit]
  · simp [hcalls]
  · simp [hcalls']

/-- The load is edited from nightly to hourly while a call is between its
    fingerprint and its list, and back afterwards. -/
def undoneEdit : List (ReloadAct Edition) :=
  [.call, .read 0 none, .test 0, .edit .hourly, .list 0 none,
    .apply 0 ⟨[], [Scheduler.loadAt 1 "0 * * * *"]⟩, .edit .nightly]

/-- The further call finds the fingerprint unchanged, and the load stays hourly. -/
theorem undoneEdit_stays :
    ∃ w w', runs (step Scheduler.acceptsNotBad edited) undoneEdit { metadata := .nightly } = some w ∧
      (∀ c ∈ w.calls, c.over = true) ∧
      runs (step Scheduler.acceptsNotBad edited) [.call, .read 1 none, .test 1] w = some w' ∧
      w.metadata = .nightly ∧ w'.calls[1]? = some .done ∧
      (edited .nightly).accepted Scheduler.acceptsNotBad = [Scheduler.loadAt 1 "0 2 * * *"] ∧
      w'.scheduler.held 1 = some (Scheduler.loadAt 1 "0 * * * *") := by
  have heval : ((runs (step Scheduler.acceptsNotBad edited) undoneEdit { metadata := .nightly }).map fun w =>
      (w.metadata, w.calls, (runs (step Scheduler.acceptsNotBad edited)
        [.call, .read 1 none, .test 1] w).map fun w' => (w'.calls, w'.scheduler.held 1))) =
      some (.nightly, [.done], some ([.done, .done], some (Scheduler.loadAt 1 "0 * * * *"))) := by
    decide +kernel
  obtain ⟨w, hr, heq⟩ := Option.map_eq_some_iff.1 heval
  simp only [Prod.mk.injEq] at heq
  obtain ⟨hm, hcalls, hfurther⟩ := heq
  obtain ⟨w', hr', heq'⟩ := Option.map_eq_some_iff.1 hfurther
  obtain ⟨hcalls', hheld⟩ := Prod.mk.inj heq'
  refine ⟨w, w', hr, ?_, hr', hm, ?_, by decide +kernel, hheld⟩
  · rw [hcalls]
    decide
  · rw [hcalls']
    rfl

end ReloadSys

end DataLoader
