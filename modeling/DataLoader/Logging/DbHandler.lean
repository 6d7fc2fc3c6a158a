import DataLoader.Contracts
import DataLoader.Effects.Transition

/-!
# The database log handler

Model of the queue of `internal/logging/dbhandler.go`: `Handle` after the base
handler and the construction of the entry, `Close` and the worker. Clones made by
`WithAttrs` and `WithGroup` share the queue, so a call on any of them is a call
here. `E` is the type of the entries.

`Handle` reads the closed flag and then sends without blocking; `Close` swaps the
flag and then closes the channel. One action is one of these steps, so every
interleaving is a run of `DbLog.step`.

* `Stepped`, `step_cases`: everything that one action can do.
* `ClosedOnce`: the channel is closed at most once.
* `NoPanic`: no send hits the closed channel if `Close` closes the channel while no
  `Handle` is between its two steps.
-/

namespace DataLoader

open Effects

/-- What became of a record whose `Handle` has returned: in the channel or beyond,
    counted as dropped, or not enqueued because the flag was set. -/
inductive Fate
  | accepted
  | dropped
  | skipped
  deriving DecidableEq, Repr

/-- A call of `Handle` or of `Close`. `late` tells whether `Close` had been called
    when `Handle` was. -/
inductive LogCall (E : Type)
  /-- The base handler failed, and `Handle` returned its error. -/
  | refused (err : Err)
  /-- The base handler has succeeded. -/
  | handling (e : E) (late : Bool)
  /-- The flag was found unset. -/
  | checked (e : E) (late : Bool)
  | handled (e : E) (late : Bool) (fate : Fate)
  /-- The send hit a closed channel. -/
  | panicked (e : E)
  | closing
  /-- The flag has been set by this call. -/
  | swapped
  | waiting
  | closeReturned
  deriving DecidableEq, Repr

namespace LogCall

variable {E : Type}

def isClose : LogCall E → Bool
  | .closing | .swapped | .waiting | .closeReturned => true
  | _ => false

def isSwapped : LogCall E → Bool
  | .swapped => true
  | _ => false

def isChecked : LogCall E → Bool
  | .checked .. => true
  | _ => false

def isPanicked : LogCall E → Bool
  | .panicked _ => true
  | _ => false

end LogCall

/-- The shared state of the handler (lines 20–26), the calls by number, and what
    the writer has been given. An entry in the channel carries the number of its
    `Handle`. -/
structure DbLog (E : Type) where
  cap : ℕ
  ch : List (ℕ × E) := []
  chClosed : Bool := false
  closed : Bool := false
  /-- An `atomic.Uint64`, which would wrap around after 2^64 entries. -/
  dropped : ℕ := 0
  /-- The worker has returned and `done` is closed. -/
  ended : Bool := false
  calls : List (LogCall E) := []
  /-- The calls of `writer.Log`. -/
  written : List (ℕ × E) := []
  /-- The entries that got into the channel, in that order. -/
  accepted : List (ℕ × E) := []
  /-- How often `close(ch)` was performed. -/
  closes : ℕ := 0

namespace DbLog

variable {E : Type}

/-- Model of `NewDBHandler` (lines 36–48): a buffer of 256 unless one is given. -/
def new (buffer : Int) : DbLog E := { cap := if buffer ≤ 0 then 256 else buffer.toNat }

/-- The actions; `i` is the number of a call. -/
inductive Act (E : Type)
  /-- `Handle` is called; `base` is what the base handler returns. -/
  | handle (e : E) (base : Option Err)
  | load (i : ℕ)
  | send (i : ℕ)
  | close
  | swap (i : ℕ)
  | closeCh (i : ℕ)
  /-- The `select` of `Close` takes the branch of `done`, or of the timer. -/
  | await (i : ℕ) (timeout : Bool)
  /-- The worker receives an entry and passes it to the writer. -/
  | work
  /-- The worker's loop ends. -/
  | finish

/-- The `select` of `Handle` (lines 112–116). A send on a closed channel panics. -/
def enqueue (s : DbLog E) (i : ℕ) (e : E) (late : Bool) : DbLog E :=
  if s.chClosed then { s with calls := s.calls.set i (.panicked e) }
  else if s.ch.length < s.cap then
    { s with
      ch := s.ch ++ [(i, e)]
      accepted := s.accepted ++ [(i, e)]
      calls := s.calls.set i (.handled e late .accepted) }
  else
    { s with dropped := s.dropped + 1, calls := s.calls.set i (.handled e late .dropped) }

/-- The transition system. -/
def step : Act E → DbLog E → Option (DbLog E)
  | .handle e base, s =>
    some { s with
      calls := s.calls ++ [match base with
        | some err => .refused err
        | none => .handling e (s.calls.any LogCall.isClose)] }
  | .load i, s =>
    match s.calls[i]? with
    | some (.handling e late) =>
      some { s with
        calls := s.calls.set i (if s.closed then .handled e late .skipped else .checked e late) }
    | _ => none
  | .send i, s =>
    match s.calls[i]? with
    | some (.checked e late) => some (s.enqueue i e late)
    | _ => none
  | .close, s => some { s with calls := s.calls ++ [.closing] }
  | .swap i, s =>
    match s.calls[i]? with
    | some .closing =>
      some { s with
        closed := true, calls := s.calls.set i (if s.closed then .waiting else .swapped) }
    | _ => none
  | .closeCh i, s =>
    match s.calls[i]? with
    | some .swapped =>
      some { s with chClosed := true, closes := s.closes + 1, calls := s.calls.set i .waiting }
    | _ => none
  | .await i timeout, s =>
    match s.calls[i]? with
    | some .waiting =>
      if timeout || s.ended then some { s with calls := s.calls.set i .closeReturned } else none
    | _ => none
  | .work, s =>
    match s.ch with
    | x :: rest =>
      if s.ended then none else some { s with ch := rest, written := s.written ++ [x] }
    | [] => none
  | .finish, s =>
    if s.chClosed ∧ s.ch = [] ∧ s.ended = false then some { s with ended := true } else none

/-! ## What one action can do -/

/-- Everything that an action can do. -/
inductive Stepped (s s' : DbLog E) : Act E → Prop
  | refuse (e : E) (err : Err) (eq : s' = { s with calls := s.calls ++ [.refused err] }) :
      Stepped s s' (.handle e (some err))
  | handle (e : E)
      (eq : s' = { s with calls := s.calls ++ [.handling e (s.calls.any LogCall.isClose)] }) :
      Stepped s s' (.handle e none)
  | skip (i : ℕ) (e : E) (late : Bool) (call : s.calls[i]? = some (.handling e late))
      (flag : s.closed = true)
      (eq : s' = { s with calls := s.calls.set i (.handled e late .skipped) }) :
      Stepped s s' (.load i)
  | check (i : ℕ) (e : E) (late : Bool) (call : s.calls[i]? = some (.handling e late))
      (flag : s.closed = false) (eq : s' = { s with calls := s.calls.set i (.checked e late) }) :
      Stepped s s' (.load i)
  | panic (i : ℕ) (e : E) (late : Bool) (call : s.calls[i]? = some (.checked e late))
      (closed : s.chClosed = true)
      (eq : s' = { s with calls := s.calls.set i (.panicked e) }) : Stepped s s' (.send i)
  | accept (i : ℕ) (e : E) (late : Bool) (call : s.calls[i]? = some (.checked e late))
      (eq : s' = { s with
        ch := s.ch ++ [(i, e)]
        accepted := s.accepted ++ [(i, e)]
        calls := s.calls.set i (.handled e late .accepted) }) : Stepped s s' (.send i)
  | drop (i : ℕ) (e : E) (late : Bool) (call : s.calls[i]? = some (.checked e late))
      (eq : s' = { s with
        dropped := s.dropped + 1, calls := s.calls.set i (.handled e late .dropped) }) :
      Stepped s s' (.send i)
  | close (eq : s' = { s with calls := s.calls ++ [.closing] }) : Stepped s s' .close
  | swapFirst (i : ℕ) (call : s.calls[i]? = some .closing) (flag : s.closed = false)
      (eq : s' = { s with closed := true, calls := s.calls.set i .swapped }) : Stepped s s' (.swap i)
  | swapAgain (i : ℕ) (call : s.calls[i]? = some .closing) (flag : s.closed = true)
      (eq : s' = { s with calls := s.calls.set i .waiting }) : Stepped s s' (.swap i)
  | closeCh (i : ℕ) (call : s.calls[i]? = some .swapped)
      (eq : s' = { s with
        chClosed := true, closes := s.closes + 1, calls := s.calls.set i .waiting }) :
      Stepped s s' (.closeCh i)
  | await (i : ℕ) (timeout : Bool) (call : s.calls[i]? = some .waiting)
      (eq : s' = { s with calls := s.calls.set i .closeReturned }) : Stepped s s' (.await i timeout)
  | work (x : ℕ × E) (rest : List (ℕ × E)) (ch : s.ch = x :: rest)
      (eq : s' = { s with ch := rest, written := s.written ++ [x] }) : Stepped s s' .work
  | finish (closed : s.chClosed = true) (ch : s.ch = []) (eq : s' = { s with ended := true }) :
      Stepped s s' .finish

variable {s s' : DbLog E} {a : Act E}

theorem stepped_enqueue {i : ℕ} {e : E} {late : Bool} (h : s.calls[i]? = some (.checked e late)) :
    Stepped s (s.enqueue i e late) (.send i) := by
  unfold enqueue
  split_ifs with hclosed
  · exact .panic i e late h hclosed rfl
  · exact .accept i e late h rfl
  · exact .drop i e late h rfl

theorem step_cases (h : step a s = some s') : Stepped s s' a := by
  cases a with
  | handle e base =>
    obtain rfl := Option.some.inj h
    cases base with
    | some err => exact .refuse e err rfl
    | none => exact .handle e rfl
  | load i =>
    simp only [step] at h
    split at h
    next e late hcall =>
      obtain rfl := Option.some.inj h
      rcases Bool.eq_false_or_eq_true s.closed with hflag | hflag
      · exact .skip i e late hcall hflag (by simp [hflag])
      · exact .check i e late hcall hflag (by simp [hflag])
    next => cases h
  | send i =>
    simp only [step] at h
    split at h
    next e late hcall =>
      obtain rfl := Option.some.inj h
      exact stepped_enqueue hcall
    next => cases h
  | close =>
    obtain rfl := Option.some.inj h
    exact .close rfl
  | swap i =>
    simp only [step] at h
    split at h
    next hcall =>
      obtain rfl := Option.some.inj h
      rcases Bool.eq_false_or_eq_true s.closed with hflag | hflag
      · exact .swapAgain i hcall hflag (by simp [hflag])
      · exact .swapFirst i hcall hflag (by simp [hflag])
    next => cases h
  | closeCh i =>
    simp only [step] at h
    split at h
    next hcall =>
      obtain rfl := Option.some.inj h
      exact .closeCh i hcall rfl
    next => cases h
  | await i timeout =>
    simp only [step] at h
    split at h
    next hcall =>
      simp only [Option.ite_none_right_eq_some, Option.some.injEq] at h
      obtain ⟨-, rfl⟩ := h
      exact .await i timeout hcall rfl
    next => cases h
  | work =>
    simp only [step] at h
    split at h
    next x rest hch =>
      simp only [Option.ite_none_left_eq_some, Option.some.injEq] at h
      obtain ⟨-, rfl⟩ := h
      exact .work x rest hch rfl
    next => cases h
  | finish =>
    simp only [step, Option.ite_none_right_eq_some, Option.some.injEq] at h
    obtain ⟨⟨hclosed, hch, -⟩, rfl⟩ := h
    exact .finish hclosed hch rfl

/-! ## Closing the channel -/

/-- The flag is set by one call of `Close`, and only that call closes the channel. -/
structure ClosedOnce (s : DbLog E) : Prop where
  flag : s.closes + s.calls.countP LogCall.isSwapped = s.closed.toNat
  channel : s.chClosed = true ↔ 0 < s.closes

theorem ClosedOnce.flag_of_chClosed (h : ClosedOnce s) (hc : s.chClosed = true) :
    s.closed = true := by
  have hpos := h.channel.1 hc
  have hflag := h.flag
  rcases Bool.eq_false_or_eq_true s.closed with ht | hf
  · exact ht
  · rw [hf] at hflag
    simp at hflag
    omega

theorem ClosedOnce.closes_le_one (h : ClosedOnce s) : s.closes ≤ 1 := by
  have hflag := h.flag
  have hle := s.closed.toNat_le
  omega

/-- A change of one call counts as the change in what it shows. -/
theorem countP_set_call {p : LogCall E → Bool} {calls : List (LogCall E)} {i : ℕ} {x : LogCall E}
    (y : LogCall E) (hx : calls[i]? = some x) :
    (calls.set i y).countP p + (p x).toNat = calls.countP p + (p y).toNat := by
  obtain ⟨hi, rfl⟩ := List.getElem?_eq_some_iff.1 hx
  rw [List.countP_set hi]
  cases hold : p calls[i] with
  | false => cases hnew : p y <;> simp
  | true =>
    have hpos : 0 < calls.countP p := List.countP_pos_iff.2 ⟨_, List.getElem_mem hi, hold⟩
    cases hnew : p y <;> simp <;> omega

theorem closedOnce_step (h : ClosedOnce s) (hs : step a s = some s') : ClosedOnce s' := by
  have hflag := h.flag
  -- a step that sets neither flag and moves a call that is not about to close the channel
  have hset : ∀ {i x y}, s.calls[i]? = some x → LogCall.isSwapped x = false →
      LogCall.isSwapped y = false →
      s.closes + (s.calls.set i y).countP LogCall.isSwapped = s.closed.toNat := by
    intro i x y hx hx' hy'
    have hcount := countP_set_call (p := LogCall.isSwapped) y hx
    rw [hx', hy'] at hcount
    omega
  cases step_cases hs with
  | refuse e err eq => subst eq; exact ⟨by simpa [LogCall.isSwapped] using hflag, h.channel⟩
  | handle e eq => subst eq; exact ⟨by simpa [LogCall.isSwapped] using hflag, h.channel⟩
  | skip i e late call flag eq => subst eq; exact ⟨hset call rfl rfl, h.channel⟩
  | check i e late call flag eq => subst eq; exact ⟨hset call rfl rfl, h.channel⟩
  | panic i e late call closed eq => subst eq; exact ⟨hset call rfl rfl, h.channel⟩
  | accept i e late call eq => subst eq; exact ⟨hset call rfl rfl, h.channel⟩
  | drop i e late call eq => subst eq; exact ⟨hset call rfl rfl, h.channel⟩
  | close eq => subst eq; exact ⟨by simpa [LogCall.isSwapped] using hflag, h.channel⟩
  | swapFirst i call flag eq =>
    subst eq
    refine ⟨?_, h.channel⟩
    have hcount := countP_set_call (p := LogCall.isSwapped) .swapped call
    rw [flag] at hflag
    simp only [LogCall.isSwapped, Bool.toNat_false, Bool.toNat_true] at hcount hflag ⊢
    omega
  | swapAgain i call flag eq => subst eq; exact ⟨hset call rfl rfl, h.channel⟩
  | closeCh i call eq =>
    subst eq
    have hcount := countP_set_call (p := LogCall.isSwapped) .waiting call
    refine ⟨?_, ?_⟩
    · simp [LogCall.isSwapped] at hcount ⊢
      omega
    · simp
  | await i timeout call eq => subst eq; exact ⟨hset call rfl rfl, h.channel⟩
  | work x rest ch eq => subst eq; exact ⟨hflag, h.channel⟩
  | finish closed ch eq => subst eq; exact ⟨hflag, h.channel⟩

theorem closedOnce_new (buffer : Int) : ClosedOnce (new buffer : DbLog E) :=
  ⟨rfl, by simp [new]⟩

/-- `Close` closes the channel while no `Handle` is between its test of the flag
    and its send. -/
def sendsDone : Act E → DbLog E → Bool
  | .closeCh _, s => s.calls.all fun c => !c.isChecked
  | _, _ => true

/-- No send has hit the closed channel, and none is about to. -/
structure NoPanic (s : DbLog E) : Prop where
  none : ∀ c ∈ s.calls, c.isPanicked = false
  sends : s.chClosed = true → ∀ c ∈ s.calls, c.isChecked = false

theorem NoPanic.set {i : ℕ} {y : LogCall E} (h : NoPanic s) (hy : y.isPanicked = false)
    (hy' : s.chClosed = true → y.isChecked = false) :
    NoPanic { s with calls := s.calls.set i y } := by
  constructor
  · intro c hc
    rcases List.mem_or_eq_of_mem_set hc with hc | rfl
    · exact h.none c hc
    · exact hy
  · intro hclosed c hc
    rcases List.mem_or_eq_of_mem_set hc with hc | rfl
    · exact h.sends hclosed c hc
    · exact hy' hclosed

theorem NoPanic.append {y : LogCall E} (h : NoPanic s) (hy : y.isPanicked = false)
    (hy' : y.isChecked = false) : NoPanic { s with calls := s.calls ++ [y] } := by
  constructor
  · intro c hc
    rcases List.mem_append.1 hc with hc | hc
    · exact h.none c hc
    · rw [List.mem_singleton.1 hc]
      exact hy
  · intro hclosed c hc
    rcases List.mem_append.1 hc with hc | hc
    · exact h.sends hclosed c hc
    · rw [List.mem_singleton.1 hc]
      exact hy'

theorem noPanic_step (h : NoPanic s) (ho : ClosedOnce s) (hok : sendsDone a s = true)
    (hs : step a s = some s') : NoPanic s' := by
  cases step_cases hs with
  | refuse e err eq => subst eq; exact h.append rfl rfl
  | handle e eq => subst eq; exact h.append rfl rfl
  | skip i e late call flag eq => subst eq; exact h.set rfl fun _ => rfl
  | check i e late call flag eq =>
    subst eq
    refine h.set rfl fun hclosed => ?_
    rw [ho.flag_of_chClosed hclosed] at flag
    cases flag
  | panic i e late call closed eq =>
    have hchecked := h.sends closed _ (List.mem_of_getElem? call)
    cases hchecked
  | accept i e late call eq =>
    subst eq
    exact ⟨(h.set rfl fun _ => rfl).none, (h.set rfl fun _ => rfl).sends⟩
  | drop i e late call eq =>
    subst eq
    exact ⟨(h.set rfl fun _ => rfl).none, (h.set rfl fun _ => rfl).sends⟩
  | close eq => subst eq; exact h.append rfl rfl
  | swapFirst i call flag eq =>
    subst eq
    exact ⟨(h.set rfl fun _ => rfl).none, (h.set rfl fun _ => rfl).sends⟩
  | swapAgain i call flag eq => subst eq; exact h.set rfl fun _ => rfl
  | closeCh i call eq =>
    subst eq
    refine ⟨(h.set (y := .waiting) rfl fun _ => rfl).none, fun _ c hc => ?_⟩
    rcases List.mem_or_eq_of_mem_set hc with hc | rfl
    · simpa using List.all_eq_true.1 hok c hc
    · rfl
  | await i timeout call eq => subst eq; exact h.set rfl fun _ => rfl
  | work x rest ch eq => subst eq; exact ⟨h.none, h.sends⟩
  | finish closed ch eq => subst eq; exact ⟨h.none, h.sends⟩

/-- Whatever the interleaving, the channel is closed at most once; and no send is
    performed on the closed channel if it is closed while no `Handle` is between its
    test of the flag and its send. -/
theorem logging_never_panics (buffer : Int) (acts : List (Act E)) (s : DbLog E) :
    (runs step acts (new buffer) = some s → s.closes ≤ 1) ∧
    (runs (guarded sendsDone step) acts (new buffer) = some s →
      ∀ c ∈ s.calls, c.isPanicked = false) := by
  refine ⟨fun hr => (runs_inv closedOnce_step (closedOnce_new buffer) hr).closes_le_one,
    fun hr => ?_⟩
  have hinv : ClosedOnce s ∧ NoPanic s := by
    refine runs_inv (I := fun s => ClosedOnce s ∧ NoPanic s) ?_
      ⟨closedOnce_new buffer, by simp [new], by simp [new]⟩ hr
    intro a s s' h hs
    obtain ⟨hok, hs⟩ := guarded_eq_some.1 hs
    exact ⟨closedOnce_step h.1 hs, noPanic_step h.2 h.1 hok hs⟩
  exact hinv.2.none

/-- A record is sent before the channel is closed, and a second `Close` follows. -/
def closedTwice : List (Act ℕ) :=
  [.handle 7 none, .load 0, .close, .swap 1, .send 0, .closeCh 1, .close, .swap 2]

theorem closedTwice_never_panics :
    ∃ s, runs (guarded sendsDone step) closedTwice (new 16) = some s ∧
      runs step closedTwice (new 16) = some s ∧
      s.closes ≤ 1 ∧ ∀ c ∈ s.calls, c.isPanicked = false := by
  have heval : (runs (guarded sendsDone step) closedTwice (new 16)).isSome = true := by
    decide +kernel
  obtain ⟨s, hr⟩ := Option.isSome_iff_exists.1 heval
  have hplain := runs_of_guarded hr
  have hsafe := logging_never_panics 16 closedTwice s
  exact ⟨s, hr, hplain, hsafe.1 hplain, hsafe.2 hr⟩

/-- A record is logged while `Close` runs: `Handle` finds the flag unset, `Close`
    sets it and closes the channel, then `Handle` sends. -/
theorem handle_sends_on_closed_channel :
    ∃ s : DbLog ℕ, runs step [.handle 7 none, .load 0, .close, .swap 1, .closeCh 1, .send 0]
        (new 16) = some s ∧ s.calls = [.panicked 7, .waiting] := by
  have heval : ((runs step [.handle 7 none, .load 0, .close, .swap 1, .closeCh 1, .send 0]
      (new 16 : DbLog ℕ)).map fun s => s.calls) = some [.panicked 7, .waiting] := by
    decide +kernel
  exact Option.map_eq_some_iff.1 heval

end DbLog

end DataLoader
