import DataLoader.Effects.Lockstep

/-!
# Runs and their logs

`M.Runs p w l a w'`: under some schedule the program `p` takes the state `w` to `w'`
and returns `a`, and `l` is the log of its calls with their outcomes and answers. A
run of a program is taken apart along its text:

* `runs_iff`: these are the runs of `exec`.
* `Runs.of_ret`, `Runs.of_call`, `Runs.of_bind`: one rule for each form of program.
* `Runs.keeps`, `Runs.always`: what calls of one kind, or all calls, and other parties keep.
* `Runs.log_calls`: a property of all calls of a program, read off its log.
* `Runs.of_follows`: the result of a program that follows a protocol, whose state
  after the run is read off the log (`Protocol.after`).
* `Runs.of_kept`: the same with an invariant that depends on this state.
-/

namespace DataLoader.Effects

variable {S : Sig} {W α β : Type}

/-- A call that was made, its outcome and its answer. -/
structure Entry (S : Sig) (O : Type) where
  call : S.Call
  out : O
  ans : S.Ans call

/-- The state of a protocol after the calls of a log. -/
def Protocol.after {Q O : Type} (P : Protocol S Q) (q : Q) (l : List (Entry S O)) : Q :=
  l.foldl (fun q x => P.next q x.call x.ans) q

namespace Machine

/-- The calls of one run. -/
def log (M : Machine S W) : List M.Event → Prog S α → W → List (Entry S M.Out)
  | .env e :: es, .call c k, w => ((M.env e w).map fun w' => log M es (.call c k) w').getD []
  | .answer o :: es, .call c k, w =>
    ((M.answer c o w).map fun rw => ⟨c, o, rw.1⟩ :: log M es (k rw.1) rw.2).getD []
  | _, _, _ => []

/-- Some run of `p` from `w` returns `a` in the state `w'`, with the log `l`. -/
inductive Runs (M : Machine S W) : Prog S α → W → List (Entry S M.Out) → α → W → Prop
  | ret (a : α) (w : W) : Runs M (.ret a) w [] a w
  | env {c : S.Call} {k : S.Ans c → Prog S α} {w w₁ w' : W} {l : List (Entry S M.Out)} {a : α}
      {e : M.Env} (he : M.env e w = some w₁) (h : Runs M (.call c k) w₁ l a w') :
      Runs M (.call c k) w l a w'
  | call {c : S.Call} {k : S.Ans c → Prog S α} {w w₁ w' : W} {l : List (Entry S M.Out)} {a : α}
      {o : M.Out} {r : S.Ans c} (ha : M.answer c o w = some (r, w₁)) (h : Runs M (k r) w₁ l a w') :
      Runs M (.call c k) w (⟨c, o, r⟩ :: l) a w'

/-- Other parties take the state from `w` to `w'`. -/
inductive Drifts (M : Machine S W) : W → W → Prop
  | refl (w : W) : Drifts M w w
  | step {w w₁ w' : W} {e : M.Env} (he : M.env e w = some w₁) (h : Drifts M w₁ w') : Drifts M w w'

variable {M : Machine S W} {w w' : W} {l : List (Entry S M.Out)}

theorem Drifts.keeps {I : W → Prop} (henv : ∀ {e w w'}, I w → M.env e w = some w' → I w')
    (h : M.Drifts w w') (hI : I w) : I w' := by
  induction h with
  | refl => exact hI
  | step he _ ih => exact ih (henv hI he)

namespace Runs

theorem of_exec {es : List M.Event} {p : Prog S α} {a : α} (h : M.exec es p w = some (a, w')) :
    M.Runs p w (M.log es p w) a w' := by
  induction es generalizing p w with
  | nil =>
    cases p with
    | ret b =>
      simp only [exec, Option.some.injEq, Prod.mk.injEq] at h
      obtain ⟨rfl, rfl⟩ := h
      exact .ret b w
    | call c k => simp [exec] at h
  | cons e es ih =>
    cases p with
    | ret b => cases e <;> simp [exec] at h
    | call c k =>
      cases e with
      | env e =>
        simp only [exec, Option.bind_eq_some_iff] at h
        obtain ⟨w₁, he, h⟩ := h
        simpa [log, he] using Runs.env he (ih h)
      | answer o =>
        simp only [exec, Option.bind_eq_some_iff] at h
        obtain ⟨⟨r, w₁⟩, ha, h⟩ := h
        simpa [log, ha] using Runs.call ha (ih h)

theorem to_exec {p : Prog S α} {a : α} (h : M.Runs p w l a w') :
    ∃ es, M.exec es p w = some (a, w') ∧ M.log es p w = l := by
  induction h with
  | ret a w => exact ⟨[], rfl, rfl⟩
  | @env c k w w₁ w' l a e he _ ih =>
    obtain ⟨es, hx, hl⟩ := ih
    exact ⟨.env e :: es, by simp [exec, he, hx], by simp [log, he, hl]⟩
  | @call c k w w₁ w' l a o r ha _ ih =>
    obtain ⟨es, hx, hl⟩ := ih
    exact ⟨.answer o :: es, by simp [exec, ha, hx], by simp [log, ha, hl]⟩

end Runs

theorem runs_iff {p : Prog S α} {a : α} :
    M.Runs p w l a w' ↔ ∃ es, M.exec es p w = some (a, w') ∧ M.log es p w = l := by
  refine ⟨Runs.to_exec, ?_⟩
  rintro ⟨es, hx, rfl⟩
  exact Runs.of_exec hx

namespace Runs

theorem of_ret {a b : α} (h : M.Runs (.ret a) w l b w') : b = a ∧ w' = w ∧ l = [] := by
  cases h
  exact ⟨rfl, rfl, rfl⟩

/-- Other parties step in, the call is answered, and the rest runs. -/
theorem of_call {c : S.Call} {k : S.Ans c → Prog S α} {a : α} (h : M.Runs (.call c k) w l a w') :
    ∃ w₁ o r w₂ l', M.Drifts w w₁ ∧ M.answer c o w₁ = some (r, w₂) ∧ l = ⟨c, o, r⟩ :: l' ∧
      M.Runs (k r) w₂ l' a w' := by
  generalize hp : Prog.call c k = p at h
  induction h with
  | ret a w => cases hp
  | env he _ ih =>
    obtain ⟨w₁, o, r, w₂, l', hdrift, hrest⟩ := ih hp
    exact ⟨w₁, o, r, w₂, l', .step he hdrift, hrest⟩
  | @call _ _ w w₁ _ l _ o r ha hrest _ =>
    cases hp
    exact ⟨w, o, r, w₁, l, .refl w, ha, rfl, hrest⟩

theorem of_drifts {c : S.Call} {k : S.Ans c → Prog S α} {a : α} {w₁ : W} (hd : M.Drifts w w₁)
    (h : M.Runs (.call c k) w₁ l a w') : M.Runs (.call c k) w l a w' := by
  induction hd with
  | refl => exact h
  | step he _ ih => exact .env he (ih h)

/-- A run of a program put together from two is a run of each. -/
theorem of_bind {p : Prog S α} {f : α → Prog S β} {b : β} (h : M.Runs (p >>= f) w l b w') :
    ∃ a w₁ l₁ l₂, M.Runs p w l₁ a w₁ ∧ M.Runs (f a) w₁ l₂ b w' ∧ l = l₁ ++ l₂ := by
  induction p generalizing w l with
  | ret a => exact ⟨a, w, [], l, .ret a w, h, rfl⟩
  | call c k ih =>
    obtain ⟨w₁, o, r, w₂, l', hdrift, ha, rfl, hrest⟩ := of_call h
    obtain ⟨a, w₃, l₁, l₂, h₁, h₂, rfl⟩ := ih r hrest
    exact ⟨a, w₃, _, l₂, of_drifts hdrift (.call ha h₁), h₂, rfl⟩

/-- A program that returns something made of the result of another. -/
theorem of_bind_ret {p : Prog S α} {f : α → β} {b : β}
    (h : M.Runs (p >>= fun a => .ret (f a)) w l b w') : ∃ a, M.Runs p w l a w' ∧ b = f a := by
  obtain ⟨a, w₁, l₁, l₂, h₁, h₂, rfl⟩ := of_bind h
  obtain ⟨rfl, rfl, rfl⟩ := of_ret h₂
  exact ⟨a, by simpa using h₁, rfl⟩

/-- A program whose calls satisfy `N` keeps what these and other parties keep. -/
theorem keeps {I : W → Prop} {N : S.Call → Prop}
    (henv : ∀ {e w w'}, I w → M.env e w = some w' → I w')
    (hans : ∀ {c o w r w'}, N c → I w → M.answer c o w = some (r, w') → I w')
    {p : Prog S α} (hp : p.Calls N) {a : α} (h : M.Runs p w l a w') (hI : I w) : I w' := by
  induction h with
  | ret => exact hI
  | env he _ ih => exact ih hp (henv hI he)
  | call ha _ ih => exact ih (hp.2 _) (hans hp.1 hI ha)

/-- What every call and other parties keep. -/
theorem always {I : W → Prop} (henv : ∀ {e w w'}, I w → M.env e w = some w' → I w')
    (hans : ∀ {c o w r w'}, I w → M.answer c o w = some (r, w') → I w')
    {p : Prog S α} {a : α} (h : M.Runs p w l a w') (hI : I w) : I w' := by
  induction h with
  | ret => exact hI
  | env he _ ih => exact ih (henv hI he)
  | call ha _ ih => exact ih (hans hI ha)

theorem log_calls {N : S.Call → Prop} {p : Prog S α} (hp : p.Calls N) {a : α}
    (h : M.Runs p w l a w') : ∀ x ∈ l, N x.call := by
  induction h with
  | ret => simp
  | env _ _ ih => exact ih hp
  | call _ _ ih => exact List.forall_mem_cons.2 ⟨hp.1, ih (hp.2 _)⟩

section

variable {Q : Type} {P : Protocol S Q} {R : α → Q → Prop} {q : Q} {p : Prog S α} {a : α}

theorem of_kept {I : Q → W → Prop} (hI : Kept M P I) (hp : P.Follows p R q)
    (h : M.Runs p w l a w') (hq : I q w) : I (P.after q l) w' ∧ R a (P.after q l) := by
  induction h generalizing q with
  | ret => exact ⟨hq, hp⟩
  | env he _ ih => exact ih hp (hI.env hq he)
  | call ha _ ih => exact ih (hp.2 _) (hI.answer hq hp.1 ha)

theorem of_follows (hp : P.Follows p R q) (h : M.Runs p w l a w') : R a (P.after q l) :=
  (h.of_kept (I := fun _ _ => True) ⟨fun _ _ _ => trivial, fun _ _ => trivial⟩ hp trivial).2

end

end Runs

end Machine

end DataLoader.Effects
