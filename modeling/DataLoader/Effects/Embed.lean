import DataLoader.Effects.Prog

/-!
# Programs over a part of a signature

A program whose calls are some of the calls of a larger signature.
-/

namespace DataLoader.Effects

variable {S T : Sig} {α : Type} {f : S.Call → T.Call} {g : ∀ c, T.Ans (f c) → S.Ans c}

/-- The program with its calls as calls of `T`. -/
def Prog.via (f : S.Call → T.Call) (g : ∀ c, T.Ans (f c) → S.Ans c) : Prog S α → Prog T α
  | .ret a => .ret a
  | .call c k => .call (f c) fun r => (k (g c r)).via f g

theorem Prog.Calls.via {N : T.Call → Prop} {p : Prog S α} (h : p.Calls fun c => N (f c)) :
    (p.via f g).Calls N := by
  induction p with
  | ret a => trivial
  | call c k ih => exact ⟨h.1, fun r => ih (g c r) (h.2 (g c r))⟩

end DataLoader.Effects
