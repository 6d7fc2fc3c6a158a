import DataLoader.Effects.Runs

/-!
# Paths of a program

`p.Path tr a`: when its calls are answered as in `tr`, the program `p` makes exactly
the calls of `tr` and returns `a`. Nothing is said about who answers, so a statement
about all paths is one about every environment.

* `Path.of_ret`, `Path.of_call`, `Path.bind`, `Path.of_bind`: rules for each form of program.
* `Path.unique`: the answers decide the path, and `Begins.unique` what the program at the start of
  a trace returns.
* `traced`: a program that also returns its path.
* `path_against`: every environment takes a program along one of its paths.
* `Runs.path`: the log of a run is a path.
* `Runs.folds`: a part of the state that the calls of the log decide.
-/

namespace DataLoader.Effects

variable {S : Sig} {W α β : Type}

/-- A call and its answer. -/
abbrev Step (S : Sig) := Sigma S.Ans

namespace Prog

inductive Path : Prog S α → List (Step S) → α → Prop
  | ret (a : α) : Path (.ret a) [] a
  | call {c : S.Call} {k : S.Ans c → Prog S α} {r : S.Ans c} {tr : List (Step S)} {a : α}
      (h : Path (k r) tr a) : Path (.call c k) (⟨c, r⟩ :: tr) a

namespace Path

variable {tr tr' : List (Step S)}

theorem of_ret {a b : α} (h : (Prog.ret a).Path tr b) : b = a ∧ tr = [] := by
  cases h
  exact ⟨rfl, rfl⟩

theorem of_ret_pair {a a' : α} {b b' : β} (h : (Prog.ret (a, b)).Path tr (a', b')) :
    a' = a ∧ b' = b ∧ tr = [] := by
  cases h
  exact ⟨rfl, rfl, rfl⟩

theorem of_call {c : S.Call} {k : S.Ans c → Prog S α} {a : α} (h : (Prog.call c k).Path tr a) :
    ∃ r tr', tr = ⟨c, r⟩ :: tr' ∧ (k r).Path tr' a := by
  cases h with
  | call h => exact ⟨_, _, rfl, h⟩

/-- One call and what follows it. -/
theorem of_perform {c : S.Call} {k : S.Ans c → Prog S α} {a : α}
    (h : (Prog.perform c >>= k).Path tr a) : ∃ r tr', tr = ⟨c, r⟩ :: tr' ∧ (k r).Path tr' a :=
  of_call h

/-- A path of two programs in sequence is one of each. -/
theorem of_bind {p : Prog S α} {f : α → Prog S β} {b : β} (h : (p >>= f).Path tr b) :
    ∃ a tr₁ tr₂, p.Path tr₁ a ∧ (f a).Path tr₂ b ∧ tr = tr₁ ++ tr₂ := by
  induction p generalizing tr with
  | ret a => exact ⟨a, [], tr, .ret a, h, rfl⟩
  | call c k ih =>
    obtain ⟨r, tr', rfl, h'⟩ := of_call h
    obtain ⟨a, tr₁, tr₂, h₁, h₂, rfl⟩ := ih r h'
    exact ⟨a, _, tr₂, .call h₁, h₂, rfl⟩

theorem bind {p : Prog S α} {f : α → Prog S β} {a : α} {b : β} (h : p.Path tr a)
    (h' : (f a).Path tr' b) : (p >>= f).Path (tr ++ tr') b := by
  induction h with
  | ret a => exact h'
  | call _ ih => exact .call (ih h')

theorem calls {N : S.Call → Prop} {p : Prog S α} {a : α} (hp : p.Calls N) (h : p.Path tr a) :
    ∀ s ∈ tr, N s.1 := by
  induction h with
  | ret => simp
  | call _ ih => exact List.forall_mem_cons.2 ⟨hp.1, ih (hp.2 _)⟩

theorem of_follows {Q : Type} {P : Protocol S Q} {R : α → Q → Prop} {q : Q} {p : Prog S α} {a : α}
    (hp : P.Follows p R q) (h : p.Path tr a) : ∃ q', R a q' := by
  induction h generalizing q with
  | ret => exact ⟨q, hp⟩
  | call _ ih => exact ih (hp.2 _)

/-- Two paths of a program at the start of one trace are the same. -/
theorem unique {p : Prog S α} {a a' : α} {rest rest' : List (Step S)} (h : p.Path tr a)
    (h' : p.Path tr' a') (heq : tr ++ rest = tr' ++ rest') : a = a' ∧ tr = tr' := by
  induction h generalizing tr' with
  | ret a =>
    obtain ⟨rfl, rfl⟩ := of_ret h'
    exact ⟨rfl, rfl⟩
  | @call c k r tr a _ ih =>
    obtain ⟨r', tr'', rfl, h''⟩ := of_call h'
    obtain ⟨hstep, heq'⟩ := List.cons.inj heq
    obtain rfl : r = r' := by simpa using hstep
    obtain ⟨rfl, rfl⟩ := ih h'' heq'
    exact ⟨rfl, rfl⟩

end Path

/-- The program that also returns its calls, after those of `past`. -/
def traced : Prog S α → List (Step S) → Prog S (List (Step S) × α)
  | ret a, past => ret (past, a)
  | call c k, past => call c fun r => traced (k r) (past ++ [⟨c, r⟩])

theorem path_traced {p : Prog S α} {past tr tr' : List (Step S)} {a : α}
    (h : (p.traced past).Path tr (tr', a)) : tr' = past ++ tr ∧ p.Path tr a := by
  induction p generalizing past tr with
  | ret b =>
    obtain ⟨hres, rfl⟩ := Path.of_ret h
    obtain ⟨rfl, rfl⟩ := Prod.mk.inj hres
    exact ⟨(List.append_nil _).symm, .ret _⟩
  | call c k ih =>
    obtain ⟨r, tr₁, rfl, h₁⟩ := Path.of_call h
    obtain ⟨rfl, hpath⟩ := ih r h₁
    exact ⟨List.append_assoc .., .call hpath⟩

/-- The trace starts with a path of the program, on which it returns `a`. -/
def Begins (p : Prog S α) (tr : List (Step S)) (a : α) : Prop :=
  ∃ tr₁ tr₂, tr = tr₁ ++ tr₂ ∧ p.Path tr₁ a

namespace Begins

variable {tr tr' : List (Step S)}

theorem ret (a : α) (tr : List (Step S)) : (Prog.ret a).Begins tr a := ⟨[], tr, rfl, .ret a⟩

theorem perform {c : S.Call} {k : S.Ans c → Prog S α} {r : S.Ans c} {a : α} (h : (k r).Begins tr a) :
    (Prog.perform c >>= k).Begins (⟨c, r⟩ :: tr) a := by
  obtain ⟨tr₁, tr₂, rfl, h⟩ := h
  exact ⟨_, tr₂, rfl, .call h⟩

theorem bind {p : Prog S α} {f : α → Prog S β} {a : α} {b : β} (h : p.Path tr a)
    (h' : (f a).Begins tr' b) : (p >>= f).Begins (tr ++ tr') b := by
  obtain ⟨tr₁, tr₂, rfl, h'⟩ := h'
  exact ⟨_, tr₂, (List.append_assoc ..).symm, h.bind h'⟩

theorem append {p : Prog S α} {a : α} (h : p.Begins tr a) (tr' : List (Step S)) :
    p.Begins (tr ++ tr') a := by
  obtain ⟨tr₁, tr₂, rfl, h⟩ := h
  exact ⟨tr₁, tr₂ ++ tr', List.append_assoc .., h⟩

theorem unique {p : Prog S α} {a a' : α} (h : p.Begins tr a) (h' : p.Begins tr a') : a = a' := by
  obtain ⟨tr₁, tr₂, rfl, h⟩ := h
  obtain ⟨tr₃, tr₄, heq, h'⟩ := h'
  exact (h.unique h' heq).1

end Begins

/-- Run a program against an environment that answers each call from the calls before it.
    Returns the result and the path. -/
def against (g : List (Step S) → (c : S.Call) → S.Ans c) :
    Prog S α → List (Step S) → α × List (Step S)
  | ret a, _ => (a, [])
  | call c k, past =>
    let (a, tr) := against g (k (g past c)) (past ++ [⟨c, g past c⟩])
    (a, ⟨c, g past c⟩ :: tr)

/-- Every environment takes the program along one of its paths. -/
theorem path_against (g : List (Step S) → (c : S.Call) → S.Ans c) (p : Prog S α)
    (past : List (Step S)) : p.Path (p.against g past).2 (p.against g past).1 := by
  induction p generalizing past with
  | ret a => exact .ret a
  | call c k ih => exact .call (ih _ _)

end Prog

/-- The call and the answer of an entry of a log. -/
def Entry.step {O : Type} (x : Entry S O) : Step S := ⟨x.call, x.ans⟩

theorem Machine.Runs.path {M : Machine S W} {p : Prog S α} {w w' : W} {l : List (Entry S M.Out)}
    {a : α} (h : M.Runs p w l a w') : p.Path (l.map Entry.step) a := by
  induction h with
  | ret a w => exact .ret a
  | env _ _ ih => exact ih
  | call _ _ ih => exact .call ih

/-- A part `f` of the state that other parties leave alone and that each call changes by
    its step. -/
theorem Machine.Runs.folds {M : Machine S W} {γ : Type} {f : W → γ} {g : γ → Step S → γ}
    (henv : ∀ {e w w'}, M.env e w = some w' → f w' = f w)
    (hans : ∀ {c o w r w'}, M.answer c o w = some (r, w') → f w' = g (f w) ⟨c, r⟩)
    {p : Prog S α} {w w' : W} {l : List (Entry S M.Out)} {a : α} (h : M.Runs p w l a w') :
    f w' = (l.map Entry.step).foldl g (f w) := by
  induction h with
  | ret a w => rfl
  | env he _ ih => rw [ih, henv he]
  | call ha _ ih =>
    rw [ih, hans ha]
    rfl

end DataLoader.Effects
