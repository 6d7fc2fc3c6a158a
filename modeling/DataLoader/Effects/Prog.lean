import Mathlib.Tactic.Common

/-!
# Programs that call their environment

A program over a signature of calls is a tree: it returns, or it makes a call
and goes on with the answer. The same program runs against any `Machine`: a
state type, a way to answer each call, and the steps other parties take between
two calls. Which answer a call gets and where the other parties step in is the
schedule, a list of events, so that a run is a function of the schedule and can
be evaluated.

* `exec`: one run of a program under a schedule.
* `Can`: some run of a program ends in a given way.
* `runHistory`: runs one after another with other parties stepping in between.
* `Machine.guard`: the machine restricted to the calls that meet a condition.

`Effects.Spec` has the program logic.
-/

namespace DataLoader.Effects

/-- A signature: the calls a program can make and the type of each answer. -/
structure Sig where
  Call : Type
  Ans : Call → Type

/-- Programs over `S` that return an `α`. -/
inductive Prog (S : Sig) (α : Type) : Type
  | ret (a : α)
  | call (c : S.Call) (k : S.Ans c → Prog S α)

namespace Prog

variable {S : Sig} {α β γ : Type}

/-- Sequencing. -/
def bind : Prog S α → (α → Prog S β) → Prog S β
  | ret a, f => f a
  | call c k, f => call c fun r => (k r).bind f

instance : Monad (Prog S) where
  pure := ret
  bind := bind

/-- Make one call and return its answer. -/
def perform (c : S.Call) : Prog S (S.Ans c) := call c ret

@[simp] theorem pure_eq (a : α) : (pure a : Prog S α) = ret a := rfl

@[simp] theorem ret_bind (a : α) (f : α → Prog S β) : ret a >>= f = f a := rfl

@[simp] theorem call_bind (c : S.Call) (k : S.Ans c → Prog S α) (f : α → Prog S β) :
    call c k >>= f = call c fun r => k r >>= f := rfl

@[simp] theorem perform_bind (c : S.Call) (f : S.Ans c → Prog S β) :
    perform c >>= f = call c f := rfl

theorem bind_assoc (p : Prog S α) (f : α → Prog S β) (g : β → Prog S γ) :
    p >>= f >>= g = p >>= fun a => f a >>= g := by
  induction p with
  | ret a => rfl
  | call c k ih => exact congrArg (call c) (funext ih)

/-- Every call the program can make satisfies `P`. -/
def Calls (P : S.Call → Prop) : Prog S α → Prop
  | ret _ => True
  | call c k => P c ∧ ∀ r, (k r).Calls P

theorem Calls.mono {P P' : S.Call → Prop} {p : Prog S α} (hp : p.Calls P)
    (h : ∀ c, P c → P' c) : p.Calls P' := by
  induction p with
  | ret a => trivial
  | call c k ih => exact ⟨h c hp.1, fun r => ih r (hp.2 r)⟩

theorem Calls.bind {P : S.Call → Prop} {p : Prog S α} {f : α → Prog S β} (hp : p.Calls P)
    (hf : ∀ a, (f a).Calls P) : (p >>= f).Calls P := by
  induction p with
  | ret a => exact hf a
  | call c k ih => exact ⟨hp.1, fun r => ih r (hp.2 r)⟩

/-- Run a program alone, with `f` to answer its calls; `none` when a call is not
    answered. -/
def eval {W : Type} (f : (c : S.Call) → W → Option (S.Ans c × W)) : Prog S α → W → Option (α × W)
  | ret a, w => some (a, w)
  | call c k, w => (f c w).bind fun rw => eval f (k rw.1) rw.2

section

variable {W : Type} {f : (c : S.Call) → W → Option (S.Ans c × W)} {w w' : W}

theorem eval_call {c : S.Call} {k : S.Ans c → Prog S α} {r : S.Ans c} {res : Option (α × W)}
    (hc : f c w = some (r, w')) (hk : (k r).eval f w' = res) : (call c k).eval f w = res := by
  rw [eval, hc]
  exact hk

theorem eval_bind {p : Prog S α} {g : α → Prog S β} {a : α} {res : Option (β × W)}
    (hp : p.eval f w = some (a, w')) (hg : (g a).eval f w' = res) : (p >>= g).eval f w = res := by
  induction p generalizing w with
  | ret b =>
    obtain ⟨rfl, rfl⟩ := Prod.mk.inj (Option.some.inj hp)
    exact hg
  | call c k ih =>
    obtain ⟨rw, hc, hp⟩ := Option.bind_eq_some_iff.1 hp
    exact eval_call hc (ih rw.1 hp)

/-- Run alone with the answers of `f`, the program ends with a result and a
    state that satisfy `Q`. -/
def Ends (f : (c : S.Call) → W → Option (S.Ans c × W)) (p : Prog S α) (Q : α → W → Prop) (w : W) :
    Prop :=
  ∃ a w', p.eval f w = some (a, w') ∧ Q a w'

namespace Ends

variable {Q Q' : α → W → Prop}

theorem ret {a : α} (h : Q a w) : Ends f (.ret a) Q w := ⟨a, w, rfl, h⟩

theorem call {c : S.Call} {k : S.Ans c → Prog S α} {r : S.Ans c} (hc : f c w = some (r, w'))
    (hk : Ends f (k r) Q w') : Ends f (.call c k) Q w := by
  obtain ⟨a, w₂, hx, hQ⟩ := hk
  exact ⟨a, w₂, eval_call hc hx, hQ⟩

theorem mono {p : Prog S α} (h : Ends f p Q w) (hQ : ∀ a w', Q a w' → Q' a w') : Ends f p Q' w := by
  obtain ⟨a, w', hx, h⟩ := h
  exact ⟨a, w', hx, hQ a w' h⟩

/-- The rule of sequencing. -/
theorem seq {p : Prog S α} {g : α → Prog S β} {R : β → W → Prop} (hp : Ends f p Q w)
    (hg : ∀ a w', Q a w' → Ends f (g a) R w') : Ends f (p >>= g) R w := by
  obtain ⟨a, w₁, h₁, hQ⟩ := hp
  obtain ⟨b, w₂, h₂, hR⟩ := hg a w₁ hQ
  exact ⟨b, w₂, eval_bind h₁ h₂, hR⟩

/-- What every call leaves true is still true at the end. -/
theorem keeps {I : W → Prop} {N : S.Call → Prop} {p : Prog S α} (h : Ends f p Q w)
    (hp : p.Calls N) (hI : ∀ {c w r w'}, N c → f c w = some (r, w') → I w → I w') (hw : I w) :
    Ends f p (fun a w' => Q a w' ∧ I w') w := by
  induction p generalizing w with
  | ret a =>
    obtain ⟨b, w', hx, hQ⟩ := h
    obtain ⟨rfl, rfl⟩ := Prod.mk.inj (Option.some.inj hx)
    exact .ret ⟨hQ, hw⟩
  | call c k ih =>
    obtain ⟨b, w', hx, hQ⟩ := h
    obtain ⟨rw, hc, hx⟩ := Option.bind_eq_some_iff.1 hx
    exact .call hc (ih rw.1 ⟨b, w', hx, hQ⟩ (hp.2 rw.1) (hI hp.1 hc hw))

end Ends

end

end Prog

/-- The record of one run: the state before it, its result, the state after. -/
structure Run (W α : Type) where
  before : W
  result : α
  after : W

/-- The record as seen through an observation of the states. -/
def Run.map {W V α : Type} (obs : W → V) (x : Run W α) : Run V α :=
  ⟨obs x.before, x.result, obs x.after⟩

/-- A machine on which programs over `S` run: `answer c o w` answers call `c`
    in state `w` with outcome `o` of the schedule (`none` when that outcome is
    impossible there), and `env e w` is a step of another party. -/
structure Machine (S : Sig) (W : Type) where
  Out : Type
  Env : Type
  answer : (c : S.Call) → Out → W → Option (S.Ans c × W)
  env : Env → W → Option W

namespace Machine

variable {S : Sig} {W α ι : Type}

/-- One event of a schedule. -/
inductive Event (M : Machine S W)
  | answer (o : M.Out)
  | env (e : M.Env)

/-- One run of a program. The schedule must fit it exactly: one `answer` for
    every call the program makes, and nothing after it has returned. -/
def exec (M : Machine S W) : List M.Event → Prog S α → W → Option (α × W)
  | [], .ret a, w => some (a, w)
  | .env e :: es, .call c k, w => (M.env e w).bind fun w' => exec M es (.call c k) w'
  | .answer o :: es, .call c k, w => (M.answer c o w).bind fun rw => exec M es (k rw.1) rw.2
  | [], .call _ _, _ => none
  | _ :: _, .ret _, _ => none

/-- A schedule for a program and one for what follows it make one for both. -/
theorem exec_bind {β : Type} {M : Machine S W} {p : Prog S α} {f : α → Prog S β} {w w₁ : W} {a : α}
    {es₁ es₂ : List M.Event} {r : β × W} (h₁ : M.exec es₁ p w = some (a, w₁))
    (h₂ : M.exec es₂ (f a) w₁ = some r) : M.exec (es₁ ++ es₂) (p >>= f) w = some r := by
  induction es₁ generalizing p w with
  | nil =>
    cases p with
    | ret b =>
      simp only [exec, Option.some.injEq, Prod.mk.injEq] at h₁
      obtain ⟨rfl, rfl⟩ := h₁
      exact h₂
    | call c k => simp [exec] at h₁
  | cons e es₁ ih =>
    cases p with
    | ret b => cases e <;> simp [exec] at h₁
    | call c k =>
      cases e with
      | env e =>
        simp only [exec, Option.bind_eq_some_iff, List.cons_append, Prog.call_bind] at h₁ ⊢
        obtain ⟨w₂, he, h₁⟩ := h₁
        exact ⟨w₂, he, ih h₁⟩
      | answer o =>
        simp only [exec, Option.bind_eq_some_iff, List.cons_append, Prog.call_bind] at h₁ ⊢
        obtain ⟨rw, ha, h₁⟩ := h₁
        exact ⟨rw, ha, ih h₁⟩

/-! ## Runs that are possible -/

/-- Some schedule ends the program with a result and a state that satisfy `Q`. -/
def Can (M : Machine S W) (p : Prog S α) (Q : α → W → Prop) (w : W) : Prop :=
  ∃ es a w', M.exec es p w = some (a, w') ∧ Q a w'

namespace Can

variable {β : Type} {M : Machine S W}

theorem ret {Q : α → W → Prop} {a : α} {w : W} (h : Q a w) : M.Can (.ret a) Q w :=
  ⟨[], a, w, rfl, h⟩

theorem call {Q : α → W → Prop} {c : S.Call} {k : S.Ans c → Prog S α} {w w₁ : W} {r : S.Ans c}
    (o : M.Out) (ha : M.answer c o w = some (r, w₁)) (h : M.Can (k r) Q w₁) :
    M.Can (.call c k) Q w := by
  obtain ⟨es, a, w', hx, hQ⟩ := h
  exact ⟨.answer o :: es, a, w', by simp [exec, ha, hx], hQ⟩

theorem mono {p : Prog S α} {Q Q' : α → W → Prop} {w : W} (h : M.Can p Q w)
    (hQ : ∀ a w', Q a w' → Q' a w') : M.Can p Q' w := by
  obtain ⟨es, a, w', hx, h⟩ := h
  exact ⟨es, a, w', hx, hQ a w' h⟩

/-- The rule of sequencing. -/
theorem seq {p : Prog S α} {f : α → Prog S β} {R : α → W → Prop} {Q : β → W → Prop} {w : W}
    (hp : M.Can p R w) (hf : ∀ a w', R a w' → M.Can (f a) Q w') : M.Can (p >>= f) Q w := by
  obtain ⟨es₁, a, w₁, h₁, hR⟩ := hp
  obtain ⟨es₂, b, w₂, h₂, hQ⟩ := hf a w₁ hR
  exact ⟨es₁ ++ es₂, b, w₂, exec_bind h₁ h₂, hQ⟩

end Can

/-! ## Histories of runs -/

/-- One event of a history: a step of another party between two runs, or a
    whole run of the program that `i` names, under its own schedule. -/
inductive HEvent (M : Machine S W) (ι : Type)
  | env (e : M.Env)
  | run (i : ι) (es : List M.Event)

/-- A history of runs, one after another. Returns the record of every run in
    order and the state after the last event. -/
def runHistory (M : Machine S W) (prog : ι → Prog S α) :
    List (M.HEvent ι) → W → Option (List (Run W α) × W)
  | [], w => some ([], w)
  | .env e :: hs, w => (M.env e w).bind (runHistory M prog hs)
  | .run i es :: hs, w =>
    (M.exec es (prog i) w).bind fun aw =>
      (runHistory M prog hs aw.2).map fun rs => (⟨w, aw.1, aw.2⟩ :: rs.1, rs.2)

/-! ## Restricting a machine -/

variable {M : Machine S W}

/-- The machine that only answers calls made in a state that meets `ok`. A run
    of it is a run of `M` in which every step meets the condition. -/
def guard (M : Machine S W) (ok : (c : S.Call) → W → Bool) : Machine S W where
  Out := M.Out
  Env := M.Env
  answer c o w := if ok c w then M.answer c o w else none
  env := M.env

theorem guard_answer {ok : (c : S.Call) → W → Bool} {c : S.Call} {o : M.Out} {w w' : W}
    {r : S.Ans c} (h : (M.guard ok).answer c o w = some (r, w')) :
    ok c w = true ∧ M.answer c o w = some (r, w') := by
  by_cases hc : ok c w = true
  · simpa [guard, hc] using h
  · simp [guard, hc] at h

/-- The machine in which a call has only the outcomes that `ok` accepts. -/
def limit (M : Machine S W) (ok : (c : S.Call) → M.Out → W → Bool) : Machine S W where
  Out := M.Out
  Env := M.Env
  answer c o w := if ok c o w then M.answer c o w else none
  env := M.env

theorem limit_answer {ok : (c : S.Call) → M.Out → W → Bool} {c : S.Call} {o : M.Out} {w w' : W}
    {r : S.Ans c} (h : (M.limit ok).answer c o w = some (r, w')) :
    ok c o w = true ∧ M.answer c o w = some (r, w') := by
  by_cases hc : ok c o w = true
  · simpa [limit, hc] using h
  · simp [limit, hc] at h

end Machine

end DataLoader.Effects
