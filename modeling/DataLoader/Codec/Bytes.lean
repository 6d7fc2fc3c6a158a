import Mathlib.Data.Nat.Digits.Defs
import Mathlib.Data.Nat.Digits.Lemmas

/-!
# Numbers and words as bytes

Byte strings as numbers, the most significant byte first, and as strings of
two-byte words.

* `ofBytes_lt`, `ofBytes_inj`: a byte string of a given length is a number below
  the power of 256, and no two are the same number.
* `words`, `unwords`: the two-byte groups of a byte string.
-/

namespace DataLoader.Codec

/-- The number with these bytes, the most significant first. -/
def ofBytes (bs : List UInt8) : ℕ := bs.foldl (fun n b => n * 256 + b.toNat) 0

theorem ofBytes_eq_ofDigits (bs : List UInt8) :
    ofBytes bs = Nat.ofDigits 256 (bs.reverse.map UInt8.toNat) := by
  induction bs using List.reverseRecOn with
  | nil => rfl
  | append_singleton bs b ih =>
    rw [ofBytes, List.foldl_append, List.foldl_cons, List.foldl_nil, ← ofBytes, ih,
      List.reverse_append, List.reverse_singleton, List.singleton_append, List.map_cons,
      Nat.ofDigits_cons]
    omega

theorem toNat_lt_of_mem {bs : List UInt8} {n : ℕ} (hn : n ∈ bs.map UInt8.toNat) : n < 256 := by
  obtain ⟨b, -, rfl⟩ := List.mem_map.1 hn
  exact b.toNat_lt

theorem ofBytes_lt (bs : List UInt8) : ofBytes bs < 256 ^ bs.length := by
  rw [ofBytes_eq_ofDigits]
  have hlt := Nat.ofDigits_lt_base_pow_length (b := 256) (l := bs.reverse.map UInt8.toNat)
    (by omega) fun n hn => toNat_lt_of_mem hn
  simpa using hlt

theorem ofBytes_inj {as bs : List UInt8} (hlen : as.length = bs.length)
    (h : ofBytes as = ofBytes bs) : as = bs := by
  rw [ofBytes_eq_ofDigits, ofBytes_eq_ofDigits] at h
  have hdigits := Nat.ofDigits_inj_of_len_eq (by omega) (by simpa using hlen)
    (fun n hn => toNat_lt_of_mem hn) (fun n hn => toNat_lt_of_mem hn) h
  have hinj : Function.Injective UInt8.toNat := fun _ _ => UInt8.toNat_inj.1
  exact List.reverse_injective (hinj.list_map hdigits)

/-! ## Two-byte words -/

/-- The two-byte groups of a byte string; an odd last byte is left out. -/
def words : List UInt8 → List (UInt8 × UInt8)
  | b₀ :: b₁ :: bs => (b₀, b₁) :: words bs
  | _ => []

/-- The byte string with these two-byte groups. -/
def unwords (ws : List (UInt8 × UInt8)) : List UInt8 := ws.flatMap fun w => [w.1, w.2]

@[simp] theorem unwords_nil : unwords [] = [] := rfl

@[simp] theorem unwords_cons (w : UInt8 × UInt8) (ws : List (UInt8 × UInt8)) :
    unwords (w :: ws) = w.1 :: w.2 :: unwords ws := rfl

@[simp] theorem length_unwords (ws : List (UInt8 × UInt8)) :
    (unwords ws).length = 2 * ws.length := by
  induction ws with
  | nil => rfl
  | cons w ws ih => simp only [unwords_cons, List.length_cons, ih]; omega

theorem length_words : ∀ bs : List UInt8, (words bs).length = bs.length / 2
  | [] => rfl
  | [_] => by simp [words]
  | b₀ :: b₁ :: bs => by
    simp only [words, List.length_cons, length_words bs]
    omega

theorem getD_unwords (ws : List (UInt8 × UInt8)) {i : ℕ} (hi : i < ws.length) :
    (unwords ws).getD (i * 2) 0 = (ws.get ⟨i, hi⟩).1 ∧
      (unwords ws).getD (i * 2 + 1) 0 = (ws.get ⟨i, hi⟩).2 := by
  induction ws generalizing i with
  | nil => cases hi
  | cons w ws ih =>
    cases i with
    | zero => exact ⟨rfl, rfl⟩
    | succ i =>
      have hlt : i < ws.length := by simpa using hi
      have hdouble : (i + 1) * 2 = i * 2 + 2 := by omega
      rw [hdouble]
      exact ih hlt

end DataLoader.Codec
