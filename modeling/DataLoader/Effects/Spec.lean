import DataLoader.Effects.Prog

/-!
# A program logic over specifications

A `Spec` says what each call may answer and do to an abstract state, and what
other parties may do to it between calls. `Spec.wp` is the weakest precondition
of a program over a specification. A machine `Meets` a specification through an
observation of its state; what `wp` proves then holds of every run of the
machine (`Meets.exec`) and of every history of runs (`Meets.runHistory`).
-/

namespace DataLoader.Effects

variable {S : Sig} {V W α β ι : Type}

/-- What calls and other parties may do to an abstract state. -/
structure Spec (S : Sig) (V : Type) where
  step : (c : S.Call) → V → S.Ans c → V → Prop
  drift : V → V → Prop
  drift_refl : ∀ v, drift v v
  drift_trans : ∀ {v₁ v₂ v₃}, drift v₁ v₂ → drift v₂ v₃ → drift v₁ v₃

namespace Spec

/-- A specification under which other parties do nothing to the state. -/
def quiet (step : (c : S.Call) → V → S.Ans c → V → Prop) : Spec S V where
  step := step
  drift := Eq
  drift_refl _ := rfl
  drift_trans := Eq.trans

/-- Whatever the calls answer and the other parties do, the program ends with a
    result and a state that satisfy `Q`. -/
def wp (A : Spec S V) : Prog S α → (α → V → Prop) → V → Prop
  | .ret a, Q, v => Q a v
  | .call c k, Q, v => ∀ v₁, A.drift v v₁ → ∀ r v₂, A.step c v₁ r v₂ → wp A (k r) Q v₂

variable {A : Spec S V}

@[simp] theorem wp_ret (a : α) (Q : α → V → Prop) (v : V) : A.wp (.ret a) Q v ↔ Q a v := Iff.rfl

@[simp] theorem wp_pure (a : α) (Q : α → V → Prop) (v : V) : A.wp (pure a) Q v ↔ Q a v := Iff.rfl

theorem wp_call (c : S.Call) (k : S.Ans c → Prog S α) (Q : α → V → Prop) (v : V) :
    A.wp (.call c k) Q v ↔
      ∀ v₁, A.drift v v₁ → ∀ r v₂, A.step c v₁ r v₂ → A.wp (k r) Q v₂ := Iff.rfl

theorem wp_bind (p : Prog S α) (f : α → Prog S β) (Q : β → V → Prop) (v : V) :
    A.wp (p >>= f) Q v ↔ A.wp p (fun a => A.wp (f a) Q) v := by
  induction p generalizing v with
  | ret a => rfl
  | call c k ih =>
    simp only [Prog.call_bind, wp_call]
    exact forall₂_congr fun v₁ _ => forall₂_congr fun r v₂ => forall_congr' fun _ => ih r v₂

theorem wp_mono {p : Prog S α} {Q Q' : α → V → Prop} {v : V} (h : A.wp p Q v)
    (hQ : ∀ a v', Q a v' → Q' a v') : A.wp p Q' v := by
  induction p generalizing v with
  | ret a => exact hQ a v h
  | call c k ih => exact fun v₁ hd r v₂ hs => ih r (h v₁ hd r v₂ hs)

theorem wp_and {p : Prog S α} {Q R : α → V → Prop} {v : V} (hQ : A.wp p Q v) (hR : A.wp p R v) :
    A.wp p (fun a v' => Q a v' ∧ R a v') v := by
  induction p generalizing v with
  | ret a => exact ⟨hQ, hR⟩
  | call c k ih => exact fun v₁ hd r v₂ hs => ih r (hQ v₁ hd r v₂ hs) (hR v₁ hd r v₂ hs)

/-- The rule of sequencing: the specification of `p`, then that of the rest. -/
theorem wp_seq {p : Prog S α} {f : α → Prog S β} {R : α → V → Prop} {Q : β → V → Prop} {v : V}
    (hp : A.wp p R v) (hf : ∀ a v', R a v' → A.wp (f a) Q v') : A.wp (p >>= f) Q v :=
  (wp_bind p f Q v).2 (wp_mono hp hf)

/-- An assertion that other parties and all calls of the program keep holds at
    the end. -/
theorem wp_inv {I : V → Prop} {P : S.Call → Prop} (hd : ∀ v v', I v → A.drift v v' → I v')
    (hs : ∀ c v r v', P c → I v → A.step c v r v' → I v') {p : Prog S α} (hp : p.Calls P) {v : V}
    (h : I v) : A.wp p (fun _ => I) v := by
  induction p generalizing v with
  | ret a => exact h
  | call c k ih =>
    exact fun v₁ hdr r v₂ hst => ih r (hp.2 r) (hs c v₁ r v₂ hp.1 (hd v v₁ h hdr) hst)

/-- Two specifications side by side, each on its own state. -/
def prod (A : Spec S V) (B : Spec S W) : Spec S (V × W) where
  step c v r v' := A.step c v.1 r v'.1 ∧ B.step c v.2 r v'.2
  drift v v' := A.drift v.1 v'.1 ∧ B.drift v.2 v'.2
  drift_refl _ := ⟨A.drift_refl _, B.drift_refl _⟩
  drift_trans h h' := ⟨A.drift_trans h.1 h'.1, B.drift_trans h.2 h'.2⟩

/-- What holds on either side holds side by side. -/
theorem wp_prod {B : Spec S W} {p : Prog S α} {Q : α → V → Prop} {R : α → W → Prop} {v : V × W}
    (hA : A.wp p Q v.1) (hB : B.wp p R v.2) :
    (A.prod B).wp p (fun a v' => Q a v'.1 ∧ R a v'.2) v := by
  induction p generalizing v with
  | ret a => exact ⟨hA, hB⟩
  | call c k ih =>
    exact fun v₁ hd r v₂ hs => ih r (hA v₁.1 hd.1 r v₂.1 hs.1) (hB v₁.2 hd.2 r v₂.2 hs.2)

end Spec

/-- The machine `M` behaves as `A` says, seen through `obs`. -/
structure Meets (M : Machine S W) (A : Spec S V) (obs : W → V) : Prop where
  step : ∀ {c o w r w'}, M.answer c o w = some (r, w') → A.step c (obs w) r (obs w')
  env : ∀ {e w w'}, M.env e w = some w' → A.drift (obs w) (obs w')

namespace Meets

variable {M : Machine S W} {A : Spec S V} {obs : W → V}

/-- `wp` is sound for every schedule. -/
theorem exec (hM : Meets M A obs) {p : Prog S α} {Q : α → V → Prop} {w w' : W}
    {es : List M.Event} {a : α} (h : A.wp p Q (obs w)) (hx : M.exec es p w = some (a, w')) :
    Q a (obs w') := by
  induction es generalizing p w with
  | nil =>
    cases p with
    | ret b =>
      simp only [Machine.exec, Option.some.injEq, Prod.mk.injEq] at hx
      obtain ⟨rfl, rfl⟩ := hx
      exact h
    | call c k => simp [Machine.exec] at hx
  | cons e es ih =>
    cases p with
    | ret b => cases e <;> simp [Machine.exec] at hx
    | call c k =>
      cases e with
      | env e =>
        simp only [Machine.exec, Option.bind_eq_some_iff] at hx
        obtain ⟨w₁, he, hx⟩ := hx
        have h₁ : A.wp (.call c k) Q (obs w₁) :=
          fun v₂ hd => h v₂ (A.drift_trans (hM.env he) hd)
        exact ih h₁ hx
      | answer o =>
        simp only [Machine.exec, Option.bind_eq_some_iff, Prod.exists] at hx
        obtain ⟨r, w₁, ha, hx⟩ := hx
        exact ih (h (obs w) (A.drift_refl _) r (obs w₁) (hM.step ha)) hx

/-- The rule of histories. `I l v` is an invariant of the state `v` and of the
    records `l` of the runs so far; every run extends both. -/
theorem runHistory (hM : Meets M A obs) {prog : ι → Prog S α} {I : List (Run V α) → V → Prop}
    (hd : ∀ l v v', I l v → A.drift v v' → I l v')
    (hrun : ∀ l i v, I l v → A.wp (prog i) (fun a v' => I (l ++ [⟨v, a, v'⟩]) v') v)
    {hs : List (M.HEvent ι)} {w w' : W} {rs : List (Run W α)} {l : List (Run V α)}
    (h : I l (obs w)) (hx : M.runHistory prog hs w = some (rs, w')) :
    I (l ++ rs.map (Run.map obs)) (obs w') := by
  induction hs generalizing w rs l with
  | nil =>
    simp only [Machine.runHistory, Option.some.injEq, Prod.mk.injEq] at hx
    obtain ⟨rfl, rfl⟩ := hx
    simpa using h
  | cons e hs ih =>
    cases e with
    | env e =>
      simp only [Machine.runHistory, Option.bind_eq_some_iff] at hx
      obtain ⟨w₁, he, hx⟩ := hx
      exact ih (hd l _ _ h (hM.env he)) hx
    | run i es =>
      simp only [Machine.runHistory, Option.bind_eq_some_iff, Option.map_eq_some_iff, Prod.exists,
        Prod.mk.injEq] at hx
      obtain ⟨a, w₁, hx₁, rs', w₂, hx, rfl, rfl⟩ := hx
      have h₁ := hM.exec (hrun l i _ h) hx₁
      simpa [Run.map] using ih h₁ hx

/-- A machine that meets two specifications meets them side by side. -/
theorem prod {V' : Type} {B : Spec S V'} {obs' : W → V'} (hA : Meets M A obs)
    (hB : Meets M B obs') : Meets M (A.prod B) (fun w => (obs w, obs' w)) where
  step h := ⟨hA.step h, hB.step h⟩
  env h := ⟨hA.env h, hB.env h⟩

/-- A guarded machine still meets the specification. -/
theorem of_guard (hM : Meets M A obs) (ok : S.Call → W → Bool) : Meets (M.guard ok) A obs where
  step h := hM.step (Machine.guard_answer h).2
  env h := hM.env h

end Meets

end DataLoader.Effects
