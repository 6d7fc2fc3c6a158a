import DataLoader.Effects.Slots
import DataLoader.Logging.DbHandler
import Mathlib.Data.List.Count
import Mathlib.Data.List.Nodup

/-!
# Every log record is accounted for

Runs of the log handler in which no `Handle` overlaps a `Close`. Every record
whose base handler succeeded is written, waits in the channel, is counted as
dropped, or was handled after `Close` (`Conserved`), for every size of the buffer.

* `LogCall.fits`, `Inv`: the phases of the calls against the flag.
* `Kept`: what the channel holds and the writer got are the accepted records.
-/

namespace DataLoader

open Effects

namespace LogCall

variable {E : Type}

/-- A `Handle` that has not returned. -/
def handleInProgress : LogCall E → Bool
  | .handling .. | .checked .. => true
  | _ => false

/-- A `Close` that has not returned. -/
def closeInProgress : LogCall E → Bool
  | .closing | .swapped | .waiting => true
  | _ => false

/-- The record of a call, if it got into the channel. -/
def taken : LogCall E → Option E
  | .handled e _ .accepted => some e
  | _ => none

def isAccepted : LogCall E → Bool
  | .handled _ _ .accepted => true
  | _ => false

def isDropped : LogCall E → Bool
  | .handled _ _ .dropped => true
  | _ => false

/-- A `Handle` that was called before `Close` and has returned. -/
def isEarly : LogCall E → Bool
  | .handled _ late _ => !late
  | _ => false

/-- What holds of a call, given the flag and whether `Close` has been called. A
    `Handle` in progress was called before any `Close`, or after one that has set
    the flag; a record is skipped exactly if it was handled after `Close`. -/
def fits (closed called : Bool) : LogCall E → Bool
  | .handling _ late => late == closed && late == called
  | .checked _ late => !late && !called
  | .handled _ late fate => late == decide (fate = .skipped)
  | .panicked _ => false
  | .swapped | .waiting | .closeReturned => closed
  | .refused _ | .closing => true

/-- Only a `Handle` in progress depends on whether `Close` has been called. -/
theorem fits_of_not_inProgress {c : LogCall E} {closed called called' : Bool}
    (hc : c.handleInProgress = false) (h : c.fits closed called = true) :
    c.fits closed called' = true := by
  cases c with
  | handling e late => cases hc
  | checked e late => cases hc
  | _ => exact h

/-- The flag is set while a `Close` is in progress. -/
theorem fits_of_swap {c : LogCall E} (h : c.fits false true = true) : c.fits true true = true := by
  cases c with
  | handling e late => cases late <;> cases h
  | checked e late => cases late <;> cases h
  | handled e late fate => exact h
  | panicked e => cases h
  | _ => rfl

end LogCall

namespace DbLog

variable {E : Type} {s s' : DbLog E} {a : Act E}

/-- No `Handle` overlaps a `Close`. -/
def apart : Act E → DbLog E → Bool
  | .handle .., s => s.calls.all fun c => !c.closeInProgress
  | .close, s => s.calls.all fun c => !c.handleInProgress
  | _, _ => true

/-! ## The phases of the calls -/

/-- Whether `Close` has been called. -/
def closeCalled (s : DbLog E) : Bool := s.calls.any LogCall.isClose

/-- The calls fit the flag. -/
structure Inv (s : DbLog E) : Prop where
  once : ClosedOnce s
  closers : s.closed = true → s.closeCalled = true
  calls : ∀ c ∈ s.calls, c.fits s.closed s.closeCalled = true

theorem any_isClose_set {calls : List (LogCall E)} {i : ℕ} {x y : LogCall E}
    (hx : calls[i]? = some x) (hy : y.isClose = x.isClose) :
    (calls.set i y).any LogCall.isClose = calls.any LogCall.isClose := by
  have hcount := countP_set_call (p := LogCall.isClose) y hx
  rw [hy] at hcount
  have hany : ∀ l : List (LogCall E),
      l.any LogCall.isClose = true ↔ 0 < l.countP LogCall.isClose := by
    intro l
    rw [List.countP_pos_iff, List.any_eq_true]
  rw [Bool.eq_iff_iff, hany, hany]
  omega

/-- A call moves, and the flag stays. -/
theorem Inv.of_set (h : Inv s) (honce : ClosedOnce s') {i : ℕ} {x y : LogCall E}
    (hx : s.calls[i]? = some x) (hcalls : s'.calls = s.calls.set i y)
    (hclosed : s'.closed = s.closed) (hclose : y.isClose = x.isClose)
    (hy : y.fits s.closed s.closeCalled = true) : Inv s' := by
  have hcalled : s'.closeCalled = s.closeCalled := by
    rw [closeCalled, hcalls, any_isClose_set hx hclose, closeCalled]
  refine ⟨honce, by rw [hclosed, hcalled]; exact h.closers, fun c hc => ?_⟩
  rw [hclosed, hcalled]
  rw [hcalls] at hc
  rcases List.mem_or_eq_of_mem_set hc with hc | rfl
  · exact h.calls c hc
  · exact hy

/-- A `Handle` is called, or refused by the base handler. -/
theorem Inv.of_append (h : Inv s) (honce : ClosedOnce s') {y : LogCall E}
    (hcalls : s'.calls = s.calls ++ [y]) (hclosed : s'.closed = s.closed)
    (hclose : y.isClose = false) (hy : y.fits s.closed s.closeCalled = true) : Inv s' := by
  have hcalled : s'.closeCalled = s.closeCalled := by simp [closeCalled, hcalls, hclose]
  refine ⟨honce, by rw [hclosed, hcalled]; exact h.closers, fun c hc => ?_⟩
  rw [hclosed, hcalled]
  rw [hcalls] at hc
  rcases List.mem_append.1 hc with hc | hc
  · exact h.calls c hc
  · rw [List.mem_singleton.1 hc]
    exact hy

/-- While no `Close` is in progress, the flag tells whether one was called. -/
theorem Inv.closed_eq_closeCalled (h : Inv s)
    (hdone : ∀ c ∈ s.calls, c.closeInProgress = false) : s.closed = s.closeCalled := by
  rw [Bool.eq_iff_iff]
  refine ⟨h.closers, fun hcalled => ?_⟩
  obtain ⟨c, hc, hclose⟩ := List.any_eq_true.1 hcalled
  have hfits := h.calls c hc
  have hprogress := hdone c hc
  cases c with
  | closeReturned => exact hfits
  | closing => cases hprogress
  | swapped => cases hprogress
  | waiting => cases hprogress
  | _ => cases hclose

/-- A `Handle` that is past its test of the flag was called before any `Close`. -/
theorem Inv.of_checked (h : Inv s) {i : ℕ} {e : E} {late : Bool}
    (hc : s.calls[i]? = some (.checked e late)) : late = false ∧ s.chClosed = false := by
  have hfits := h.calls _ (List.mem_of_getElem? hc)
  simp only [LogCall.fits, Bool.and_eq_true, Bool.not_eq_true'] at hfits
  refine ⟨hfits.1, Bool.eq_false_iff.2 fun hclosed => ?_⟩
  have hcalled := h.closers (h.once.flag_of_chClosed hclosed)
  rw [hfits.2] at hcalled
  cases hcalled

theorem inv_new (buffer : Int) : Inv (new buffer : DbLog E) :=
  ⟨closedOnce_new buffer, fun h => (by cases h), fun c hc => (by cases hc)⟩

theorem inv_step (h : Inv s) (hok : apart a s = true) (hs : step a s = some s') : Inv s' := by
  have honce := closedOnce_step h.once hs
  cases step_cases hs with
  | refuse e err eq =>
    subst eq
    exact h.of_append honce rfl rfl rfl rfl
  | handle e eq =>
    subst eq
    have hdone : ∀ c ∈ s.calls, c.closeInProgress = false := fun c hc => by
      simpa using List.all_eq_true.1 hok c hc
    refine h.of_append honce rfl rfl rfl ?_
    simp [LogCall.fits, h.closed_eq_closeCalled hdone, closeCalled]
  | skip i e late call flag eq =>
    subst eq
    have hlate := h.calls _ (List.mem_of_getElem? call)
    simp only [LogCall.fits, flag, Bool.and_eq_true, beq_iff_eq] at hlate
    refine h.of_set honce call rfl rfl rfl ?_
    simp [LogCall.fits, hlate.1]
  | check i e late call flag eq =>
    subst eq
    have hlate := h.calls _ (List.mem_of_getElem? call)
    simp only [LogCall.fits, flag, Bool.and_eq_true, beq_iff_eq] at hlate
    refine h.of_set honce call rfl rfl rfl ?_
    simp [LogCall.fits, ← hlate.2, hlate.1]
  | panic i e late call closed eq =>
    rw [(h.of_checked call).2] at closed
    cases closed
  | accept i e late call eq =>
    subst eq
    refine h.of_set honce call rfl rfl rfl ?_
    simp [LogCall.fits, (h.of_checked call).1]
  | drop i e late call eq =>
    subst eq
    refine h.of_set honce call rfl rfl rfl ?_
    simp [LogCall.fits, (h.of_checked call).1]
  | close eq =>
    subst eq
    have hany : (s.calls ++ [LogCall.closing]).any LogCall.isClose = true := by
      simp [LogCall.isClose]
    refine ⟨honce, fun _ => hany, fun c hc => ?_⟩
    rcases List.mem_append.1 hc with hc | hc
    · have hidle : c.handleInProgress = false := by
        simpa using List.all_eq_true.1 hok c hc
      exact LogCall.fits_of_not_inProgress hidle (h.calls c hc)
    · rw [List.mem_singleton.1 hc]
      rfl
  | swapFirst i call flag eq =>
    subst eq
    have hcalled : s.closeCalled = true :=
      List.any_eq_true.2 ⟨_, List.mem_of_getElem? call, rfl⟩
    have hany := any_isClose_set (y := LogCall.swapped) call rfl
    refine ⟨honce, fun _ => hany.trans hcalled, fun c hc => ?_⟩
    rw [closeCalled, hany.trans hcalled]
    rcases List.mem_or_eq_of_mem_set hc with hc | rfl
    · have hfits := h.calls c hc
      rw [flag, hcalled] at hfits
      exact LogCall.fits_of_swap hfits
    · rfl
  | swapAgain i call flag eq =>
    subst eq
    exact h.of_set honce call rfl rfl rfl flag
  | closeCh i call eq =>
    subst eq
    exact h.of_set honce call rfl rfl rfl (h.calls .swapped (List.mem_of_getElem? call))
  | await i timeout call eq =>
    subst eq
    exact h.of_set honce call rfl rfl rfl (h.calls .waiting (List.mem_of_getElem? call))
  | work x rest ch eq => subst eq; exact ⟨honce, h.closers, h.calls⟩
  | finish closed ch eq => subst eq; exact ⟨honce, h.closers, h.calls⟩

/-! ## The records -/

/-- The channel and the writer hold the accepted records, in the order of their
    acceptance; the counter counts the dropped ones. -/
structure Kept (s : DbLog E) : Prop where
  order : s.accepted = s.written ++ s.ch
  taken : ∀ i e, (i, e) ∈ s.accepted ↔ slot LogCall.taken s.calls i = some e
  nodup : (s.accepted.map Prod.fst).Nodup
  count : s.accepted.length = s.calls.countP LogCall.isAccepted
  dropped : s.dropped = s.calls.countP LogCall.isDropped
  ended : s.ended = true → s.ch = [] ∧ s.chClosed = true

theorem kept_new (buffer : Int) : Kept (new buffer : DbLog E) where
  order := rfl
  taken := by simp [new, slot]
  nodup := by simp [new]
  count := rfl
  dropped := rfl
  ended := by simp [new]

/-- A call moves that neither had nor gets its record into the channel or dropped; the
    flags may change, but a closed channel stays closed. -/
theorem Kept.of_set (h : Kept s) {i : ℕ} {x y : LogCall E} (hx : s.calls[i]? = some x)
    (hold : x.isAccepted = false ∧ x.isDropped = false ∧ x.taken = none)
    (hnew : y.isAccepted = false ∧ y.isDropped = false ∧ y.taken = none) {closed chClosed : Bool}
    {closes : ℕ} (hclosed : s.chClosed = true → chClosed = true) :
    Kept { s with
      calls := s.calls.set i y, closed := closed, chClosed := chClosed, closes := closes } := by
  have haccepted := countP_set_call (p := LogCall.isAccepted) y hx
  have hdropped := countP_set_call (p := LogCall.isDropped) y hx
  rw [hold.1, hnew.1] at haccepted
  rw [hold.2.1, hnew.2.1] at hdropped
  refine ⟨h.order, ?_, h.nodup, ?_, ?_, ?_⟩
  · rw [slot_set_of_eq hx (hnew.2.2.trans hold.2.2.symm)]
    exact h.taken
  · exact h.count.trans (Nat.add_right_cancel haccepted).symm
  · exact h.dropped.trans (Nat.add_right_cancel hdropped).symm
  · exact fun hended => ⟨(h.ended hended).1, hclosed (h.ended hended).2⟩

/-- A call begins. -/
theorem Kept.of_append (h : Kept s) {y : LogCall E}
    (hnew : y.isAccepted = false ∧ y.isDropped = false ∧ y.taken = none) :
    Kept { s with calls := s.calls ++ [y] } := by
  refine ⟨h.order, ?_, h.nodup, ?_, ?_, h.ended⟩
  · rw [slot_append hnew.2.2]
    exact h.taken
  · simpa [hnew.1] using h.count
  · simpa [hnew.2.1] using h.dropped

/-- A record gets into the channel. -/
theorem Kept.accept (h : Kept s) (hinv : Inv s) {i : ℕ} {e : E} {late : Bool}
    (hc : s.calls[i]? = some (.checked e late)) :
    Kept { s with
      ch := s.ch ++ [(i, e)]
      accepted := s.accepted ++ [(i, e)]
      calls := s.calls.set i (.handled e late .accepted) } := by
  have hnone : slot LogCall.taken s.calls i = none := slot_of_getElem? hc
  have hfresh : ∀ e', (i, e') ∉ s.accepted := by
    intro e' hmem
    rw [h.taken, hnone] at hmem
    cases hmem
  have haccepted := countP_set_call (p := LogCall.isAccepted) (.handled e late .accepted) hc
  have hdropped := countP_set_call (p := LogCall.isDropped) (.handled e late .accepted) hc
  refine ⟨?_, ?_, ?_, ?_, ?_, ?_⟩
  · simp [h.order]
  · intro j e'
    rw [slot_set hc]
    by_cases hj : j = i
    · subst hj
      simp [hfresh e', LogCall.taken, eq_comm]
    · rw [Function.update_of_ne hj, ← h.taken]
      simp [hj]
  · simp only [List.map_append, List.map_cons, List.map_nil]
    refine List.nodup_append.2 ⟨h.nodup, List.nodup_singleton i, ?_⟩
    intro j hj k hk heq
    obtain ⟨⟨j', e'⟩, hmem, rfl⟩ := List.mem_map.1 hj
    rw [List.mem_singleton.1 hk] at heq
    subst heq
    exact hfresh e' hmem
  · have hcount := h.count
    simp only [LogCall.isAccepted, Bool.toNat_false, Bool.toNat_true] at haccepted
    simp only [List.length_append, List.length_singleton]
    omega
  · have hcount := h.dropped
    simp only [LogCall.isDropped, Bool.toNat_false] at hdropped
    simp only
    omega
  · intro hended
    -- the worker ends only when the channel is closed
    have hclosed := (h.ended hended).2
    rw [(hinv.of_checked hc).2] at hclosed
    cases hclosed

/-- A record is dropped. -/
theorem Kept.drop (h : Kept s) {i : ℕ} {e : E} {late : Bool}
    (hc : s.calls[i]? = some (.checked e late)) :
    Kept { s with
      dropped := s.dropped + 1, calls := s.calls.set i (.handled e late .dropped) } := by
  have haccepted := countP_set_call (p := LogCall.isAccepted) (.handled e late .dropped) hc
  have hdropped := countP_set_call (p := LogCall.isDropped) (.handled e late .dropped) hc
  have hcount := h.count
  have hold := h.dropped
  simp only [LogCall.isAccepted, LogCall.isDropped, Bool.toNat_false, Bool.toNat_true]
    at haccepted hdropped
  refine ⟨h.order, ?_, h.nodup, ?_, ?_, h.ended⟩
  · have hslot : slot LogCall.taken (s.calls.set i (.handled e late .dropped)) =
        slot LogCall.taken s.calls := slot_set_of_eq hc rfl
    simp only [hslot]
    exact h.taken
  · simp only
    omega
  · simp only
    omega

theorem kept_step (h : Kept s) (hinv : Inv s) (hs : step a s = some s') : Kept s' := by
  cases step_cases hs with
  | refuse e err eq =>
    subst eq
    exact h.of_append ⟨rfl, rfl, rfl⟩
  | handle e eq =>
    subst eq
    exact h.of_append ⟨rfl, rfl, rfl⟩
  | skip i e late call flag eq =>
    subst eq
    exact h.of_set call ⟨rfl, rfl, rfl⟩ ⟨rfl, rfl, rfl⟩ id
  | check i e late call flag eq =>
    subst eq
    exact h.of_set call ⟨rfl, rfl, rfl⟩ ⟨rfl, rfl, rfl⟩ id
  | panic i e late call closed eq =>
    rw [(hinv.of_checked call).2] at closed
    cases closed
  | accept i e late call eq =>
    subst eq
    exact h.accept hinv call
  | drop i e late call eq =>
    subst eq
    exact h.drop call
  | close eq =>
    subst eq
    exact h.of_append ⟨rfl, rfl, rfl⟩
  | swapFirst i call flag eq =>
    subst eq
    exact h.of_set call ⟨rfl, rfl, rfl⟩ ⟨rfl, rfl, rfl⟩ id
  | swapAgain i call flag eq =>
    subst eq
    exact h.of_set call ⟨rfl, rfl, rfl⟩ ⟨rfl, rfl, rfl⟩ id
  | closeCh i call eq =>
    subst eq
    exact h.of_set call ⟨rfl, rfl, rfl⟩ ⟨rfl, rfl, rfl⟩ fun _ => rfl
  | await i timeout call eq =>
    subst eq
    exact h.of_set call ⟨rfl, rfl, rfl⟩ ⟨rfl, rfl, rfl⟩ id
  | work x rest ch eq =>
    subst eq
    refine ⟨?_, h.taken, h.nodup, h.count, h.dropped, fun hended => ?_⟩
    · simp [h.order, ch]
    · have hempty := (h.ended hended).1
      rw [ch] at hempty
      cases hempty
  | finish closed ch eq =>
    subst eq
    exact ⟨h.order, h.taken, h.nodup, h.count, h.dropped, fun _ => ⟨ch, closed⟩⟩

/-! ## Conservation -/

/-- Where the records are. -/
structure Conserved (s : DbLog E) : Prop where
  /-- A record is written, in the channel, dropped or handled after `Close`: one of
      these, and once. -/
  once : ∀ i e late fate, s.calls[i]? = some (.handled e late fate) →
    (s.written.map Prod.fst).count i + (s.ch.map Prod.fst).count i +
      (decide (fate = .dropped)).toNat + late.toNat = 1
  /-- What is written or in the channel is the record of that call. -/
  record : ∀ i e late fate, s.calls[i]? = some (.handled e late fate) →
    ∀ e', (i, e') ∈ s.written ++ s.ch → e' = e
  counted : s.dropped = s.calls.countP LogCall.isDropped
  /-- The writer gets the records in the order in which the channel accepted them. -/
  order : s.accepted = s.written ++ s.ch
  /-- After the worker's end, nothing is left. -/
  total : s.ended = true → s.calls.countP LogCall.isEarly = s.written.length + s.dropped

/-- Handled before `Close` means accepted or dropped. -/
theorem countP_isEarly {closed called : Bool} {calls : List (LogCall E)}
    (h : ∀ c ∈ calls, c.fits closed called = true) :
    calls.countP LogCall.isEarly =
      calls.countP LogCall.isAccepted + calls.countP LogCall.isDropped := by
  induction calls with
  | nil => rfl
  | cons c calls ih =>
    have hrest := ih fun d hd => h d (List.mem_cons_of_mem c hd)
    have hc := h c List.mem_cons_self
    have hone : (c.isEarly).toNat = (c.isAccepted).toNat + (c.isDropped).toNat := by
      cases c with
      | handled e late fate =>
        cases fate <;> cases late <;> first | rfl | cases hc
      | _ => rfl
    have hcount : ∀ p : LogCall E → Bool,
        (c :: calls).countP p = calls.countP p + (p c).toNat := by
      intro p
      rw [List.countP_cons]
      cases p c <;> rfl
    rw [hcount, hcount, hcount]
    omega

theorem Kept.conserved (h : Kept s) (hinv : Inv s) : Conserved s where
  once := by
    intro i e late fate hc
    have hcount : (s.written.map Prod.fst).count i + (s.ch.map Prod.fst).count i =
        (decide (fate = .accepted)).toNat := by
      rw [← List.count_append, ← List.map_append, ← h.order]
      have htaken := slot_of_getElem? (f := LogCall.taken) hc
      by_cases hfate : fate = .accepted
      · subst hfate
        have hmem : i ∈ s.accepted.map Prod.fst :=
          List.mem_map.2 ⟨(i, e), (h.taken i e).2 htaken, rfl⟩
        simpa using List.count_eq_one_of_mem h.nodup hmem
      · have hnot : i ∉ s.accepted.map Prod.fst := by
          intro hin
          obtain ⟨⟨j, e'⟩, hmem, rfl⟩ := List.mem_map.1 hin
          rw [h.taken, htaken] at hmem
          cases fate with
          | accepted => exact hfate rfl
          | dropped => cases hmem
          | skipped => cases hmem
        simpa [hfate] using List.count_eq_zero_of_not_mem hnot
    have hfits := hinv.calls _ (List.mem_of_getElem? hc)
    rw [hcount]
    cases fate <;> cases late <;> first | rfl | cases hfits
  record := by
    intro i e late fate hc e' hmem
    rw [← h.order, h.taken, slot_of_getElem? hc] at hmem
    cases fate with
    | accepted => exact (Option.some.inj hmem).symm
    | dropped => cases hmem
    | skipped => cases hmem
  counted := h.dropped
  order := h.order
  total := by
    intro hended
    have hlength := congrArg List.length h.order
    rw [(h.ended hended).1, List.append_nil] at hlength
    rw [countP_isEarly hinv.calls, ← h.count, ← h.dropped, hlength]

/-- In every run in which no `Handle` overlaps a `Close`, for every size of the
    buffer, no record is lost without being counted. -/
theorem log_conserved (buffer : Int) (acts : List (Act E)) (s : DbLog E)
    (hr : runs (guarded apart step) acts (new buffer) = some s) : Conserved s := by
  have hinv : Inv s ∧ Kept s := by
    refine runs_inv (I := fun s => Inv s ∧ Kept s) ?_ ⟨inv_new buffer, kept_new buffer⟩ hr
    intro a s s' h hs
    obtain ⟨hok, hs⟩ := guarded_eq_some.1 hs
    exact ⟨inv_step h.1 hok hs, kept_step h.2 h.1 hs⟩
  exact hinv.2.conserved hinv.1

/-- Two records for a buffer of one, then `Close`, the drain, and a record that
    comes later. -/
def fullThenClosed : List (Act ℕ) :=
  [.handle 1 none, .handle 2 none, .load 0, .load 1, .send 1, .send 0, .close, .swap 2,
    .closeCh 2, .work, .finish, .await 2 false, .handle 3 none, .load 3]

theorem fullThenClosed_conserved :
    ∃ s, runs (guarded apart step) fullThenClosed (new 1) = some s ∧
      (s.ended = true ∧ s.written = [(1, 2)] ∧ s.dropped = 1) ∧ Conserved s := by
  have heval : ((runs (guarded apart step) fullThenClosed (new 1)).map fun s =>
      (s.ended, s.written, s.dropped)) = some (true, [(1, 2)], 1) := by
    decide +kernel
  obtain ⟨s, hr, heq⟩ := Option.map_eq_some_iff.1 heval
  simp only [Prod.mk.injEq] at heq
  exact ⟨s, hr, heq, log_conserved 1 fullThenClosed s hr⟩

end DbLog

end DataLoader
