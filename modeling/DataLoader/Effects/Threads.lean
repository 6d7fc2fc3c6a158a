import DataLoader.Effects.Protocol
import DataLoader.Effects.Slots
import DataLoader.Effects.Transition

/-!
# Threads over one state

Any number of threads that run programs against one machine. An action starts a program, makes
the next call of a program, ends a program that has returned, or is a step of other parties, so
every interleaving of the calls is a run.

* `Threads.inv`: an invariant that relates the state to where each thread is in a protocol. Each
  allowed call has to keep it, whatever the other threads are at.
-/

namespace DataLoader.Effects

variable {S : Sig} {W α J Q : Type}

/-- The state and the programs in progress; `none` is a thread without one. -/
structure Threads (S : Sig) (W α : Type) where
  state : W
  calls : List (Option (Prog S α))

/-- The actions; `i` is the number of a thread. -/
inductive ThreadAct (J : Type) (M : Machine S W)
  | call (i : ℕ) (job : J)
  | step (i : ℕ) (o : M.Out)
  | ret (i : ℕ)
  | env (e : M.Env)

namespace Threads

/-- The program of a thread. -/
def busy (w : Threads S W α) (i : ℕ) : Option (Prog S α) := w.calls[i]?.join

/-- `n` threads without a program. -/
def start (n : ℕ) (state : W) : Threads S W α := ⟨state, List.replicate n none⟩

/-- The transition system. -/
def step (M : Machine S W) (prog : J → Prog S α) :
    ThreadAct J M → Threads S W α → Option (Threads S W α)
  | .call i job, w =>
    match w.calls[i]? with
    | some none => some { w with calls := w.calls.set i (some (prog job)) }
    | _ => none
  | .step i o, w =>
    match w.busy i with
    | some (.call c k) =>
      (M.answer c o w.state).map fun rs => ⟨rs.2, w.calls.set i (some (k rs.1))⟩
    | _ => none
  | .ret i, w =>
    match w.busy i with
    | some (.ret _) => some { w with calls := w.calls.set i none }
    | _ => none
  | .env e, w => (M.env e w.state).map fun s => { w with state := s }

variable {M : Machine S W} {prog : J → Prog S α} {w w' : Threads S W α} {a : ThreadAct J M}

@[simp] theorem busy_start (n : ℕ) (s : W) (i : ℕ) : (start n s : Threads S W α).busy i = none := by
  unfold busy start
  rcases Nat.lt_or_ge i n with hlt | hge
  · simp [hlt]
  · simp [hge]

theorem calls_of_busy {i : ℕ} {p : Prog S α} (h : w.busy i = some p) : w.calls[i]? = some (some p) :=
  Option.join_eq_some_iff.1 h

/-- The programs after one thread's has changed. -/
theorem busy_set {i : ℕ} {x : Option (Prog S α)} (hi : w.calls[i]? = some x)
    (y : Option (Prog S α)) (s : W) :
    (⟨s, w.calls.set i y⟩ : Threads S W α).busy = Function.update w.busy i y :=
  slot_set (f := fun x => x) hi y

/-- Everything that an action can do. -/
inductive Stepped (M : Machine S W) (prog : J → Prog S α) (w w' : Threads S W α) : Prop
  | call (i : ℕ) (job : J) (hidle : w.busy i = none) (hstate : w'.state = w.state)
      (hbusy : w'.busy = Function.update w.busy i (some (prog job))) : Stepped M prog w w'
  | step (i : ℕ) (o : M.Out) (c : S.Call) (k : S.Ans c → Prog S α) (r : S.Ans c)
      (hrun : w.busy i = some (.call c k)) (hans : M.answer c o w.state = some (r, w'.state))
      (hbusy : w'.busy = Function.update w.busy i (some (k r))) : Stepped M prog w w'
  | ret (i : ℕ) (res : α) (hrun : w.busy i = some (.ret res)) (hstate : w'.state = w.state)
      (hbusy : w'.busy = Function.update w.busy i none) : Stepped M prog w w'
  | env (e : M.Env) (henv : M.env e w.state = some w'.state) (hbusy : w'.busy = w.busy) :
      Stepped M prog w w'

theorem step_cases (h : step M prog a w = some w') : Stepped M prog w w' := by
  cases a with
  | call i job =>
    simp only [step] at h
    split at h
    next hi =>
      obtain rfl := Option.some.inj h
      have hidle : w.busy i = none := by rw [busy, hi]; rfl
      exact .call i job hidle rfl (busy_set hi _ _)
    next => cases h
  | step i o =>
    simp only [step] at h
    split at h
    next c k hrun =>
      obtain ⟨⟨r, s⟩, hans, rfl⟩ := Option.map_eq_some_iff.1 h
      exact .step i o c k r hrun hans (busy_set (calls_of_busy hrun) _ _)
    next => cases h
  | ret i =>
    simp only [step] at h
    split at h
    next res hrun =>
      obtain rfl := Option.some.inj h
      exact .ret i res hrun rfl (busy_set (calls_of_busy hrun) _ _)
    next => cases h
  | env e =>
    obtain ⟨s, henv, rfl⟩ := Option.map_eq_some_iff.1 h
    exact .env e henv rfl

/-- Each thread is in a state of the protocol: it follows it from there to `ended`, where the
    threads without a program are. -/
structure Phased (P : Protocol S Q) (ended : Q) (φ : ℕ → Q) (w : Threads S W α) : Prop where
  idle : ∀ i, w.busy i = none → φ i = ended
  follows : ∀ i p, w.busy i = some p → P.Follows p (fun _ q => q = ended) (φ i)

variable {P : Protocol S Q} {first ended : Q} {φ : ℕ → Q}

/-- The thread `i` gets to another program and another state. -/
theorem Phased.update (h : Phased P ended φ w) {i : ℕ} {x : Option (Prog S α)} {q : Q}
    (hbusy : w'.busy = Function.update w.busy i x) (hidle : x = none → q = ended)
    (hfollows : ∀ p, x = some p → P.Follows p (fun _ q => q = ended) q) :
    Phased P ended (Function.update φ i q) w' := by
  constructor
  · intro j hj
    rw [hbusy] at hj
    by_cases hji : j = i
    · subst hji
      rw [Function.update_self] at hj ⊢
      exact hidle hj
    · rw [Function.update_of_ne hji] at hj ⊢
      exact h.idle j hj
  · intro j p hj
    rw [hbusy] at hj
    by_cases hji : j = i
    · subst hji
      rw [Function.update_self] at hj ⊢
      exact hfollows p hj
    · rw [Function.update_of_ne hji] at hj ⊢
      exact h.follows j p hj

/-- The invariant rule: `I` relates the states of the threads in the protocol to the state of
    the machine. -/
theorem inv {I : (ℕ → Q) → W → Prop}
    (hprog : ∀ job, P.Follows (prog job) (fun _ q => q = ended) first)
    (hcall : ∀ {φ s i}, I φ s → φ i = ended → I (Function.update φ i first) s)
    (hstep : ∀ {φ s s' i c o r}, I φ s → P.allows (φ i) c → M.answer c o s = some (r, s') →
      I (Function.update φ i (P.next (φ i) c r)) s')
    (henv : ∀ {φ s s' e}, I φ s → M.env e s = some s' → I φ s') {n : ℕ} {s : W}
    (hstart : I (fun _ => ended) s) {as : List (ThreadAct J M)}
    (hr : runs (step M prog) as (start n s) = some w) :
    ∃ φ, Phased P ended φ w ∧ I φ w.state := by
  refine runs_inv (I := fun w => ∃ φ, Phased P ended φ w ∧ I φ w.state) ?_
    ⟨fun _ => ended, ⟨fun _ _ => rfl, fun i p hp => by simp at hp⟩, hstart⟩ hr
  rintro a w w' ⟨φ, hphased, hI⟩ hs
  cases step_cases hs with
  | call i job hidle hstate hbusy =>
    refine ⟨_, hphased.update (q := first) hbusy (by simp) fun p hp => ?_, ?_⟩
    · obtain rfl := Option.some.inj hp
      exact hprog job
    · rw [hstate]
      exact hcall hI (hphased.idle i hidle)
  | step i o c k r hrun hans hbusy =>
    obtain ⟨hallows, hrest⟩ := hphased.follows i _ hrun
    refine ⟨_, hphased.update hbusy (by simp) fun p hp => ?_, hstep hI hallows hans⟩
    obtain rfl := Option.some.inj hp
    exact hrest r
  | ret i res hrun hstate hbusy =>
    -- a program that has returned has got to `ended`
    have hover : φ i = ended := hphased.follows i _ hrun
    refine ⟨_, hphased.update (q := ended) hbusy (fun _ => rfl) (by simp), ?_⟩
    rw [hstate, Function.update_eq_self_iff.2 hover.symm]
    exact hI
  | env e henv' hbusy =>
    refine ⟨φ, ⟨fun i hi => hphased.idle i (hbusy ▸ hi), fun i p hp => ?_⟩, henv hI henv'⟩
    exact hphased.follows i p (hbusy ▸ hp)

end Threads

end DataLoader.Effects
