import DataLoader.Effects.Prog

/-!
# Protocols of calls

A `Protocol` is an automaton over the calls of a signature: in each of its
states it allows some calls, and a call with its answer leads to the next state.
A program follows the protocol when every call that it can make is allowed where
it makes it. Following is kept call by call, so it also holds of the rest of a
program that other parties have interrupted.

* `Follows.seq`: the rule of sequencing.
* `Ignores`, `Follows.of_calls`: calls that the protocol does not speak about.
* `allowing`: calls that meet a condition, for results that the later calls depend on.
* `lastCall`: the protocol that remembers the last call, for statements about how
  a program ends.
-/

namespace DataLoader.Effects

variable {S : Sig} {Q α β : Type}

/-- An automaton over the calls of `S`. -/
structure Protocol (S : Sig) (Q : Type) where
  allows : Q → S.Call → Prop
  next : Q → (c : S.Call) → S.Ans c → Q

/-- The calls that satisfy `N` are allowed everywhere and lead nowhere. -/
def Protocol.Ignores (P : Protocol S Q) (N : S.Call → Prop) : Prop :=
  ∀ c, N c → ∀ q, P.allows q c ∧ ∀ r, P.next q c r = q

/-- From state `q` on the program makes allowed calls only, whatever they answer,
    and ends with a result and a state of the protocol that satisfy `R`. -/
def Protocol.Follows (P : Protocol S Q) : Prog S α → (α → Q → Prop) → Q → Prop
  | .ret a, R, q => R a q
  | .call c k, R, q => P.allows q c ∧ ∀ r, P.Follows (k r) R (P.next q c r)

namespace Protocol.Follows

variable {P : Protocol S Q} {q : Q}

theorem mono {p : Prog S α} {R R' : α → Q → Prop} (h : P.Follows p R q)
    (hR : ∀ a q', R a q' → R' a q') : P.Follows p R' q := by
  induction p generalizing q with
  | ret a => exact hR a q h
  | call c k ih => exact ⟨h.1, fun r => ih r (h.2 r)⟩

/-- The rule of sequencing. -/
theorem seq {p : Prog S α} {f : α → Prog S β} {R : α → Q → Prop} {R' : β → Q → Prop}
    (hp : P.Follows p R q) (hf : ∀ a q', R a q' → P.Follows (f a) R' q') :
    P.Follows (p >>= f) R' q := by
  induction p generalizing q with
  | ret a => exact hf a q hp
  | call c k ih => exact ⟨hp.1, fun r => ih r (hp.2 r)⟩

/-- A program of calls that the state allows and that lead nowhere from it. -/
theorem stay {p : Prog S α} (hp : p.Calls fun c => P.allows q c ∧ ∀ r, P.next q c r = q) :
    P.Follows p (fun _ q' => q' = q) q := by
  induction p with
  | ret a => rfl
  | call c k ih =>
    refine ⟨hp.1.1, fun r => ?_⟩
    rw [hp.1.2 r]
    exact ih r (hp.2 r)

section

variable {N : S.Call → Prop} (hN : P.Ignores N)

include hN

/-- A call that the protocol does not speak about, and what follows it. -/
theorem call_ignored {c : S.Call} (hc : N c) {k : S.Ans c → Prog S α} {R : α → Q → Prop}
    (hk : ∀ r, P.Follows (k r) R q) : P.Follows (.call c k) R q := by
  refine ⟨(hN c hc q).1, fun r => ?_⟩
  rw [(hN c hc q).2 r]
  exact hk r

/-- A program of such calls leaves the state as it is. -/
theorem of_calls {p : Prog S α} (hp : p.Calls N) : P.Follows p (fun _ q' => q' = q) q := by
  induction p with
  | ret a => rfl
  | call c k ih => exact call_ignored hN hp.1 fun r => ih r (hp.2 r)

end

end Protocol.Follows

/-- The calls that satisfy `A` are allowed, and nothing is remembered. -/
def allowing (A : S.Call → Prop) : Protocol S Unit := ⟨fun _ c => A c, fun _ _ _ => ()⟩

theorem allowing_ignores {A N : S.Call → Prop} (h : ∀ c, N c → A c) : (allowing A).Ignores N :=
  fun c hc _ => ⟨h c hc, fun _ => rfl⟩

theorem Protocol.Follows.calls {A : S.Call → Prop} {p : Prog S α} {R : α → Unit → Prop}
    (h : (allowing A).Follows p R ()) : p.Calls A := by
  induction p with
  | ret a => trivial
  | call c k ih => exact ⟨h.1, fun r => ih r (h.2 r)⟩

theorem allowing_follows {A : S.Call → Prop} {p : Prog S α} (h : p.Calls A) :
    (allowing A).Follows p (fun _ _ => True) () :=
  (Protocol.Follows.of_calls (allowing_ignores fun _ hc => hc) h).mono fun _ _ _ => trivial

/-- Everything is allowed, and the state is the last call that was made. -/
def lastCall (S : Sig) : Protocol S (Option S.Call) := ⟨fun _ _ => True, fun _ c _ => some c⟩

theorem lastCall_follows (p : Prog S α) (q : Option S.Call) :
    (lastCall S).Follows p (fun _ _ => True) q := by
  induction p generalizing q with
  | ret a => trivial
  | call c k ih => exact ⟨trivial, fun r => ih r _⟩

end DataLoader.Effects
