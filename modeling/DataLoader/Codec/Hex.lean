import Mathlib.Data.List.Basic

/-!
# Hexadecimal text

Bytes are written as two hexadecimal digits each, in groups that a separator byte keeps
apart. Reading takes digits of either case.

* `decodeHex_flatMap`: what an encoder writes is read back.
* `decodeGroups_intercalate`: the same for groups with separators.
-/

namespace DataLoader.Codec

/-- The value of a hexadecimal digit. -/
def hexVal (c : UInt8) : Option UInt8 :=
  if 48 ≤ c ∧ c ≤ 57 then some (c - 48)
  else if 65 ≤ c ∧ c ≤ 70 then some (c - 55)
  else if 97 ≤ c ∧ c ≤ 102 then some (c - 87)
  else none

/-- The bytes of a text of hexadecimal digits. -/
def decodeHex : List UInt8 → Option (List UInt8)
  | [] => some []
  | [_] => none
  | hi :: lo :: rest => do
    let x ← hexVal hi
    let y ← hexVal lo
    return (16 * x + y) :: (← decodeHex rest)

/-- The bytes of a text in groups of the given numbers of bytes. -/
def decodeGroups (sep : UInt8) : List ℕ → List UInt8 → Option (List UInt8)
  | [], s => if s = [] then some [] else none
  | [n], s => if s.length = 2 * n then decodeHex s else none
  | n :: ns, s =>
    if s[2 * n]? = some sep then do
      return (← decodeHex (s.take (2 * n))) ++ (← decodeGroups sep ns (s.drop (2 * n + 1)))
    else none

/-- The encoder writes the high digit and the low digit of every byte. -/
def WritesHex (enc : UInt8 → List UInt8) : Prop :=
  ∀ b, ∃ hi lo, enc b = [hi, lo] ∧ hexVal hi = some (b / 16) ∧ hexVal lo = some (b % 16)

variable {enc : UInt8 → List UInt8}

theorem byte_eq_digits (b : UInt8) : 16 * (b / 16) + b % 16 = b := by
  refine UInt8.toNat.inj ?_
  have hlt := b.toNat_lt
  simp only [UInt8.toNat_add, UInt8.toNat_mul, UInt8.toNat_div, UInt8.toNat_mod,
    UInt8.reduceToNat]
  omega

theorem highDigit_lt (b : UInt8) : b / 16 < 16 := by
  have hlt := b.toNat_lt
  rw [UInt8.lt_iff_toNat_lt, UInt8.toNat_div]
  simp only [UInt8.reduceToNat]
  omega

theorem lowDigit_lt (b : UInt8) : b % 16 < 16 := by
  rw [UInt8.lt_iff_toNat_lt, UInt8.toNat_mod]
  exact Nat.mod_lt _ (by decide)

theorem decodeHex_flatMap (h : WritesHex enc) (bs : List UInt8) :
    decodeHex (bs.flatMap enc) = some bs := by
  induction bs with
  | nil => rfl
  | cons b bs ih =>
    obtain ⟨hi, lo, henc, hhi, hlo⟩ := h b
    rw [List.flatMap_cons, henc]
    simp [decodeHex, hhi, hlo, ih, byte_eq_digits]

theorem length_flatMap_enc (h : WritesHex enc) (bs : List UInt8) :
    (bs.flatMap enc).length = 2 * bs.length := by
  induction bs with
  | nil => rfl
  | cons b bs ih =>
    obtain ⟨hi, lo, henc, -⟩ := h b
    rw [List.flatMap_cons, henc, List.length_append, ih]
    simp
    omega

/-- Reading the first of several groups. -/
theorem decodeGroups_cons {sep : UInt8} {n m : ℕ} {ns : List ℕ} {s t : List UInt8}
    (hs : s.length = 2 * n) :
    decodeGroups sep (n :: m :: ns) (s ++ sep :: t) =
      (decodeHex s).bind fun bs => (decodeGroups sep (m :: ns) t).map (bs ++ ·) := by
  have hsep : (s ++ sep :: t)[2 * n]? = some sep := by simp [← hs]
  have htake : (s ++ sep :: t).take (2 * n) = s := by simp [← hs]
  have hdrop : (s ++ sep :: t).drop (2 * n + 1) = t := by simp [← hs, List.drop_append]
  rw [decodeGroups, if_pos hsep, htake, hdrop]
  · cases decodeHex s <;> cases decodeGroups sep (m :: ns) t <;> rfl
  · simp

theorem decodeGroups_intercalate (h : WritesHex enc) (sep : UInt8) (g : List UInt8)
    (gs : List (List UInt8)) :
    decodeGroups sep ((g :: gs).map List.length)
      (List.intercalate [sep] ((g :: gs).map (List.flatMap enc))) = some (g :: gs).flatten := by
  induction gs generalizing g with
  | nil => simp [decodeGroups, List.intercalate, length_flatMap_enc h, decodeHex_flatMap h]
  | cons g' gs ih =>
    have hrest := ih g'
    simp only [List.map_cons] at hrest ⊢
    rw [List.intercalate_cons_cons, List.append_assoc, List.singleton_append,
      decodeGroups_cons (length_flatMap_enc h g), decodeHex_flatMap h, hrest]
    simp

end DataLoader.Codec
