import DataLoader.Effects.Protocol

/-!
# Runs in lockstep

Two states of one machine are related when every call that a program may make
next gets the same answer in both and leads to related states again. What the
program may do next is the state of a protocol that it follows, so the relation
may depend on it. Related runs give the same result under one schedule
(`Lockstep.exec`).

An invariant that depends on the state of the protocol is the case of a state
that is related to itself (`Kept`).
-/

namespace DataLoader.Effects

variable {S : Sig} {W Q α ι : Type} {M : Machine S W} {P : Protocol S Q}

/-- Calls that `P` allows, and steps of other parties, keep `R`. -/
structure Lockstep (M : Machine S W) (P : Protocol S Q) (R : Q → W → W → Prop) : Prop where
  answer : ∀ {q c o w v r w'}, R q w v → P.allows q c → M.answer c o w = some (r, w') →
    ∃ v', M.answer c o v = some (r, v') ∧ R (P.next q c r) w' v'
  env : ∀ {q e w v w'}, R q w v → M.env e w = some w' → ∃ v', M.env e v = some v' ∧ R q w' v'

/-- A run from one of two related states is also a run from the other. -/
theorem Lockstep.exec {R : Q → W → W → Prop} (h : Lockstep M P R) {p : Prog S α}
    {post : α → Q → Prop} {q : Q} {w v w' : W} {a : α} {es : List M.Event}
    (hp : P.Follows p post q) (hR : R q w v) (hx : M.exec es p w = some (a, w')) :
    ∃ v' q', M.exec es p v = some (a, v') ∧ R q' w' v' ∧ post a q' := by
  induction es generalizing p q w v with
  | nil =>
    cases p with
    | ret b =>
      simp only [Machine.exec, Option.some.injEq, Prod.mk.injEq] at hx
      obtain ⟨rfl, rfl⟩ := hx
      exact ⟨v, q, rfl, hR, hp⟩
    | call c k => simp [Machine.exec] at hx
  | cons e es ih =>
    cases p with
    | ret b => cases e <;> simp [Machine.exec] at hx
    | call c k =>
      cases e with
      | env e =>
        simp only [Machine.exec, Option.bind_eq_some_iff] at hx ⊢
        obtain ⟨w₁, he, hx⟩ := hx
        obtain ⟨v₁, hv, hR₁⟩ := h.env hR he
        obtain ⟨v', q', hx', hend⟩ := ih hp hR₁ hx
        exact ⟨v', q', ⟨v₁, hv, hx'⟩, hend⟩
      | answer o =>
        simp only [Machine.exec, Option.bind_eq_some_iff] at hx ⊢
        obtain ⟨⟨r, w₁⟩, ha, hx⟩ := hx
        obtain ⟨v₁, hv, hR₁⟩ := h.answer hR hp.1 ha
        obtain ⟨v', q', hx', hend⟩ := ih (hp.2 r) hR₁ hx
        exact ⟨v', q', ⟨(r, v₁), hv, hx'⟩, hend⟩

/-- Calls that `P` allows, and steps of other parties, keep `I`. -/
structure Kept (M : Machine S W) (P : Protocol S Q) (I : Q → W → Prop) : Prop where
  answer : ∀ {q c o w r w'}, I q w → P.allows q c → M.answer c o w = some (r, w') →
    I (P.next q c r) w'
  env : ∀ {q e w w'}, I q w → M.env e w = some w' → I q w'

namespace Kept

variable {I : Q → W → Prop}

theorem lockstep (h : Kept M P I) : Lockstep M P fun q w v => v = w ∧ I q w where
  answer := by
    rintro q c o w v r w' ⟨rfl, hI⟩ hc ha
    exact ⟨w', ha, rfl, h.answer hI hc ha⟩
  env := by
    rintro q e w v w' ⟨rfl, hI⟩ he
    exact ⟨w', he, rfl, h.env hI he⟩

theorem exec (h : Kept M P I) {p : Prog S α} {post : α → Q → Prop} {q : Q} {w w' : W} {a : α}
    {es : List M.Event} (hp : P.Follows p post q) (hI : I q w)
    (hx : M.exec es p w = some (a, w')) : ∃ q', I q' w' ∧ post a q' := by
  obtain ⟨v', q', -, ⟨-, hI'⟩, hpost⟩ := h.lockstep.exec hp ⟨rfl, hI⟩ hx
  exact ⟨q', hI', hpost⟩

/-- Runs that start in `q₀` and end where the invariant of `q₀` holds again keep
    it through every history. -/
theorem runHistory (h : Kept M P I) {prog : ι → Prog S α} {q₀ : Q}
    (hprog : ∀ i, P.Follows (prog i) (fun _ q' => ∀ w, I q' w → I q₀ w) q₀)
    {hs : List (M.HEvent ι)} {w w' : W} {rs : List (Run W α)} (hI : I q₀ w)
    (hx : M.runHistory prog hs w = some (rs, w')) : I q₀ w' := by
  induction hs generalizing w rs with
  | nil =>
    simp only [Machine.runHistory, Option.some.injEq, Prod.mk.injEq] at hx
    obtain ⟨-, rfl⟩ := hx
    exact hI
  | cons e hs ih =>
    cases e with
    | env e =>
      simp only [Machine.runHistory, Option.bind_eq_some_iff] at hx
      obtain ⟨w₁, he, hx⟩ := hx
      exact ih (h.env hI he) hx
    | run i es =>
      simp only [Machine.runHistory, Option.bind_eq_some_iff, Option.map_eq_some_iff] at hx
      obtain ⟨⟨a, w₁⟩, hrun, ⟨rs', w₂⟩, hrest, heq⟩ := hx
      obtain ⟨-, rfl⟩ := Prod.mk.inj heq
      obtain ⟨q', hI', hback⟩ := h.exec (hprog i) hI hrun
      exact ih (hback w₁ hI') hrest

end Kept

end DataLoader.Effects
