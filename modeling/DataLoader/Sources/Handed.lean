import DataLoader.Effects.Paths
import DataLoader.Pipeline.Runner

/-!
# What a source hands over

The batches on a path of `Read`, with the answers of the handler.
-/

namespace DataLoader

open Effects

/-- The rows that `Read` has handed to its handler, batch by batch, each with the
    handler's error. -/
def handedRows {S : Sig} (tr : List (Step (readSig S))) : List (List Row × Option Err) :=
  tr.filterMap fun
    | ⟨.emit b, e⟩ => some (b.rows, e)
    | ⟨.driver _, _⟩ => none

section

variable {S : Sig}

@[simp] theorem handedRows_nil : handedRows ([] : List (Step (readSig S))) = [] := rfl

@[simp] theorem handedRows_driver (c : S.Call) (r : S.Ans c) (tr : List (Step (readSig S))) :
    handedRows (⟨.driver c, r⟩ :: tr) = handedRows tr := rfl

@[simp] theorem handedRows_emit (b : Batch) (e : Option Err) (tr : List (Step (readSig S))) :
    handedRows (⟨.emit b, e⟩ :: tr) = (b.rows, e) :: handedRows tr := rfl

@[simp] theorem handedRows_append (tr tr' : List (Step (readSig S))) :
    handedRows (tr ++ tr') = handedRows tr ++ handedRows tr' := List.filterMap_append

/-- Driver calls hand nothing over. -/
theorem handedRows_eq_nil {tr : List (Step (readSig S))}
    (h : ∀ s ∈ tr, ∃ c, s.1 = ReadCall.driver c) : handedRows tr = [] := by
  refine List.filterMap_eq_nil_iff.2 fun s hs => ?_
  obtain ⟨c, hc⟩ := h s hs
  obtain ⟨c', r⟩ := s
  obtain rfl : c' = .driver c := hc
  rfl

end

end DataLoader
