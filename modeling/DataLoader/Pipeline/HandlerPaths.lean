import DataLoader.Effects.Paths
import DataLoader.Pipeline.Runner

/-!
# Paths of the batch handler

What the handler of a run does to its state, for all answers of the sink.

* `handler_path`: it adds the number of rows that `WriteBatch` reports, and a run without a
  replace session gets none.
* `interpret_keeps`: an invariant of the handler holds after a `Read`.
-/

namespace DataLoader

open Effects

variable {S : Sig}

/-- The batch `b` was refused, or `WriteBatch` accepted it and reported `n` rows. -/
inductive Sink.Adds (k : Sink S) (b : Batch) (loadTS : Time) : Option Err → Int → Prop
  | refused {e : Err} : Adds k b loadTS (some e) 0
  | accepted {t : TargetTable} {part : List (Step (sysSig S))} {n : Int}
      (hwrite : (k.writeBatch t b loadTS).Path part (.ok n)) : Adds k b loadTS none n

/-- From the state `st` of the handler to `st'`, with the batch `b` and the result `e`. -/
structure Handles (r : Runner S) (loadTS : Time) (b : Batch) (st st' : HandlerState S)
    (e : Option Err) : Prop where
  rows : ∃ n, r.sink.Adds b loadTS e n ∧ st'.rowsWritten = st.rowsWritten + n
  session : st.repl = none → st'.repl = none

variable {r : Runner S} {load : Load} {loadTS : Time} {st st' : HandlerState S} {b : Batch}
  {part : List (Step (sysSig S))} {e : Option Err}

/-- The handler returns an error and leaves its state. -/
theorem Handles.refused (r : Runner S) (loadTS : Time) (b : Batch) (st : HandlerState S) (e : Err) :
    Handles r loadTS b st st (some e) :=
  ⟨⟨0, .refused, (Int.add_zero _).symm⟩, id⟩

theorem writeBatch_path (h : (r.writeBatch loadTS st b).Path part (st', e)) :
    Handles r loadTS b st st' e := by
  unfold Runner.writeBatch at h
  obtain ⟨res, tr₁, tr₂, hwrite, hret, rfl⟩ := Prog.Path.of_bind h
  cases res with
  | error e =>
    obtain ⟨rfl, rfl, rfl⟩ := Prog.Path.of_ret_pair hret
    exact .refused ..
  | ok n =>
    obtain ⟨rfl, rfl, rfl⟩ := Prog.Path.of_ret_pair hret
    exact ⟨⟨n, .accepted hwrite, rfl⟩, id⟩

/-- The work on the first batch writes no rows. -/
theorem onFirstBatch_path {res : Except Err (HandlerState S)}
    (h : (r.onFirstBatch load st b).Path part res) :
    ∀ st', res = .ok st' → st'.rowsWritten = st.rowsWritten ∧ (st.repl = none → st'.repl = none) := by
  unfold Runner.onFirstBatch at h
  cases hr : st.repl with
  | some s =>
    rw [hr] at h
    obtain ⟨res', tr₁, tr₂, -, hret, rfl⟩ := Prog.Path.of_bind h
    cases res' with
    | error e =>
      obtain ⟨rfl, -⟩ := Prog.Path.of_ret hret
      exact nofun
    | ok s' =>
      obtain ⟨rfl, -⟩ := Prog.Path.of_ret hret
      rintro st' ⟨⟩
      exact ⟨rfl, nofun⟩
  | none =>
    rw [hr] at h
    dsimp only at h
    split_ifs at h
    · obtain ⟨e, tr₁, tr₂, -, hret, rfl⟩ := Prog.Path.of_bind h
      cases e with
      | some e =>
        obtain ⟨rfl, -⟩ := Prog.Path.of_ret hret
        exact nofun
      | none =>
        obtain ⟨rfl, -⟩ := Prog.Path.of_ret hret
        rintro st' ⟨⟩
        exact ⟨rfl, fun _ => rfl⟩
    · obtain ⟨rfl, -⟩ := Prog.Path.of_ret h
      rintro st' ⟨⟩
      exact ⟨rfl, fun _ => rfl⟩

theorem handler_path (h : (r.handler load loadTS st b).Path part (st', e)) :
    Handles r loadTS b st st' e := by
  unfold Runner.handler at h
  split_ifs at h
  · obtain ⟨res, tr₁, tr₂, hfirst, hrest, rfl⟩ := Prog.Path.of_bind h
    cases res with
    | error e =>
      obtain ⟨rfl, rfl, rfl⟩ := Prog.Path.of_ret_pair hrest
      exact .refused ..
    | ok st₁ =>
      obtain ⟨hrows, hsession⟩ := onFirstBatch_path hfirst st₁ rfl
      have hwrite := writeBatch_path hrest
      exact ⟨hrows ▸ hwrite.rows, fun hst => hwrite.session (hsession hst)⟩
  · exact writeBatch_path h

/-- An invariant of the handler holds after a `Read`. -/
theorem interpret_keeps {σ α : Type} {I : σ → Prop} {src : ℕ}
    {h : σ → Batch → Prog (sysSig S) (σ × Option Err)}
    (hh : ∀ {st b part st' e}, I st → (h st b).Path part (st', e) → I st')
    {p : Prog (readSig S) α} {st st' : σ} {a : α} (hst : I st)
    (hpath : (Runner.interpret src h p st).Path part (st', a)) : I st' := by
  induction p generalizing st part with
  | ret b =>
    obtain ⟨hres, -⟩ := Prog.Path.of_ret hpath
    obtain ⟨rfl, -⟩ := Prod.mk.inj hres
    exact hst
  | call c k ih =>
    cases c with
    | driver c =>
      obtain ⟨ans, tr, -, hrest⟩ := Prog.Path.of_call hpath
      exact ih ans hst hrest
    | emit b =>
      obtain ⟨_, tr, -, hrest⟩ := Prog.Path.of_call hpath
      obtain ⟨⟨st₁, e⟩, tr₁, tr₂, hpart, hnext, -⟩ := Prog.Path.of_bind hrest
      exact ih e (hh hst hpart) hnext

end DataLoader
