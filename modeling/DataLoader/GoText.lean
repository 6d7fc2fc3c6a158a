import DataLoader.Contracts
import Mathlib.Algebra.Order.Ring.Int

/-!
# Text and number functions of the Go standard library

`strings.ToLower` and `strings.EqualFold` follow Unicode, and `float64`
arithmetic follows IEEE 754. The model takes them as given and relies on the
ASCII case, and on lower case making no NUL character.
-/

namespace DataLoader

/-- A text of ASCII characters. -/
def isAscii (s : String) : Bool := s.toList.all fun c => decide (c.toNat < 128)

/-- Lower case on ASCII letters. -/
def asciiLower (s : String) : String := String.ofList (s.toList.map Char.toLower)

/-- The functions of package `strings` that depend on letter case. -/
class GoText where
  /-- `strings.ToLower`. -/
  toLower : String → String
  /-- `strings.EqualFold`. -/
  equalFold : String → String → Bool
  toLower_ascii : ∀ s, isAscii s = true → toLower s = asciiLower s
  equalFold_ascii : ∀ s t, isAscii s = true → isAscii t = true →
    equalFold s t = (asciiLower s == asciiLower t)
  toLower_nul : ∀ s, '\x00' ∈ (toLower s).toList → '\x00' ∈ s.toList

/-- `float64` arithmetic on bit patterns. -/
class GoFloat where
  /-- `float64(i)`. -/
  ofInt : Int → UInt64
  /-- `float64(math.Float32frombits(b))`. -/
  ofFloat32 : UInt32 → UInt64
  /-- `x*y + z`. -/
  mulAdd : UInt64 → UInt64 → UInt64 → UInt64

theorem nul_mem_of_mem_asciiLower {s : String} (h : '\x00' ∈ (asciiLower s).toList) :
    '\x00' ∈ s.toList := by
  rw [asciiLower, String.toList_ofList, List.mem_map] at h
  obtain ⟨c, hc, hlower⟩ := h
  unfold Char.toLower at hlower
  split_ifs at hlower with hupper
  · -- an upper case letter moves up by 32
    have hval := congrArg (fun d => d.val.toNat) hlower
    have hlo : 65 ≤ c.val.toNat := hupper.1
    have hhi : c.val.toNat ≤ 90 := hupper.2
    have hstep : ('a'.val - 'A'.val).toNat = 32 := by decide
    have hnul : '\x00'.val.toNat = 0 := by decide
    simp only [UInt32.toNat_add, hstep, hnul] at hval
    omega
  · rwa [← hlower]

/-- Enough of the library to evaluate the model on ASCII texts. -/
@[reducible] def GoText.ascii : GoText where
  toLower := asciiLower
  equalFold s t := asciiLower s == asciiLower t
  toLower_ascii _ _ := rfl
  equalFold_ascii _ _ _ _ := rfl
  toLower_nul _ h := nul_mem_of_mem_asciiLower h

/-! ## Finite numbers -/

/-- The number `m * 2 ^ e`. -/
structure Dyadic where
  m : Int
  e : Int

namespace Dyadic

/-- The finite number with these bits, of which `frac` are for the fraction and `bias` is that of
    its exponent. -/
def ofBits (frac bias width : ℕ) (bits : ℕ) : Dyadic :=
  let f := bits % 2 ^ frac
  let ex := bits / 2 ^ frac % 2 ^ (width - 1 - frac)
  let m : ℕ := if ex = 0 then f else f + 2 ^ frac
  ⟨if bits / 2 ^ (width - 1) = 1 then -m else m, (max ex 1 : ℕ) - (bias + frac : ℕ)⟩

def ofFloat64 (bits : UInt64) : Dyadic := ofBits 52 1023 64 bits.toNat

/-- `m / 2 ^ s`, to the nearest and to the even one of two. -/
def shiftRound (m s : ℕ) : ℕ :=
  let q := m / 2 ^ s
  let r := m % 2 ^ s
  if 2 * r < 2 ^ s then q else if 2 ^ s < 2 * r then q + 1 else q + q % 2

/-- The nearest `float64`. The carry of the rounding goes into the exponent. -/
def round (x : Dyadic) : UInt64 :=
  if x.m = 0 then 0
  else
    let m := x.m.natAbs
    let q : Int := max (x.e + m.log2 - 52) (-1074)
    let mant := if x.e < q then shiftRound m (q - x.e).toNat else m * 2 ^ (x.e - q).toNat
    let bits := min ((q + 1074).toNat * 2 ^ 52 + mant) (0x7ff * 2 ^ 52)
    UInt64.ofNat (if x.m < 0 then 2 ^ 63 + bits else bits)

def mul (x y : Dyadic) : Dyadic := ⟨x.m * y.m, x.e + y.e⟩

def add (x y : Dyadic) : Dyadic :=
  let e := min x.e y.e
  ⟨x.m * 2 ^ (x.e - e).toNat + y.m * 2 ^ (y.e - e).toNat, e⟩

end Dyadic

/-- The arithmetic of finite numbers, with a rounding after each operation. -/
@[reducible] def GoFloat.finite : GoFloat where
  ofInt i := Dyadic.round ⟨i, 0⟩
  ofFloat32 b := (Dyadic.ofBits 23 127 32 b.toNat).round
  mulAdd x y z := (Dyadic.add (.ofFloat64 ((Dyadic.ofFloat64 x).mul (.ofFloat64 y)).round)
    (.ofFloat64 z)).round

/-- `3*2 + 1` and `0.1*3 + 0`. -/
example : GoFloat.finite.mulAdd 0x4008000000000000 0x4000000000000000 0x3ff0000000000000 =
      0x401c000000000000 ∧
    GoFloat.finite.mulAdd 0x3fb999999999999a 0x4008000000000000 0 = 0x3fd3333333333334 := by
  decide +kernel

/-- `math.IsNaN(x) || math.IsInf(x, 0)`: the exponent bits are all set. -/
def isNaNOrInf (bits : UInt64) : Bool := (bits >>> 52) &&& 0x7ff == 0x7ff

end DataLoader
