import DataLoader.Codec.Calendar
import Mathlib.Data.List.DropRight
import Mathlib.Data.Nat.Digits.Defs

/-!
# Timestamps as text

The layout `time.RFC3339Nano` of Go for times in UTC, and the reader that `time.Parse` uses
for it. A time is a number of nanoseconds since the epoch. The fraction of a second is
written without trailing zeros and is left out when it is zero, so texts have different
lengths, and their order as texts is not the order of the times.

* `format`, `parse`.
* `parse_format`: a time in the years 0 to 9999 is read back exactly.
-/

namespace DataLoader.Rfc3339

open Calendar

/-! ## Decimal numbers of a fixed width -/

/-- The value of decimal digits. -/
def value (ds : List Char) : ℕ := ds.foldl (fun x c => 10 * x + (c.toNat - 48)) 0

/-- The last `k` decimal digits of a number. -/
def pad : ℕ → ℕ → List Char
  | 0, _ => []
  | k + 1, n => pad k (n / 10) ++ [Nat.digitChar (n % 10)]

@[simp] theorem value_concat (ds : List Char) (c : Char) :
    value (ds ++ [c]) = 10 * value ds + (c.toNat - 48) := by
  simp [value]

@[simp] theorem length_pad (k n : ℕ) : (pad k n).length = k := by
  induction k generalizing n with
  | zero => rfl
  | succ k ih => simp [pad, ih]

theorem digitChar_digit (n : ℕ) (hn : n < 10) :
    (Nat.digitChar n).isDigit = true ∧ (Nat.digitChar n).toNat - 48 = n := by
  have hall : ∀ m : Fin 10, (Nat.digitChar m).isDigit = true ∧ (Nat.digitChar m).toNat - 48 = m := by
    decide
  exact hall ⟨n, hn⟩

theorem all_isDigit_pad (k n : ℕ) : (pad k n).all Char.isDigit = true := by
  induction k generalizing n with
  | zero => rfl
  | succ k ih => simp [pad, ih, (digitChar_digit (n % 10) (Nat.mod_lt _ (by decide))).1]

theorem value_pad (k n : ℕ) : value (pad k n) = n % 10 ^ k := by
  induction k generalizing n with
  | zero => simp [pad, value, Nat.mod_one]
  | succ k ih =>
    rw [pad, value_concat, ih, (digitChar_digit (n % 10) (Nat.mod_lt _ (by decide))).2,
      Nat.pow_succ', Nat.mod_mul]
    omega

/-- `parseUint` of the reader: `k` digits with a value in a range. -/
def readUint (k lo hi : ℕ) (s : List Char) : Option (ℕ × List Char) :=
  if k ≤ s.length ∧ (s.take k).all Char.isDigit ∧ lo ≤ value (s.take k) ∧ value (s.take k) ≤ hi
  then some (value (s.take k), s.drop k)
  else none

theorem readUint_pad {k lo hi n : ℕ} (hn : n < 10 ^ k) (hlo : lo ≤ n) (hhi : n ≤ hi)
    (rest : List Char) : readUint k lo hi (pad k n ++ rest) = some (n, rest) := by
  have htake : (pad k n ++ rest).take k = pad k n := List.take_left' (length_pad k n)
  have hdrop : (pad k n ++ rest).drop k = rest := List.drop_left' (length_pad k n)
  have hvalue : value (pad k n) = n := by rw [value_pad, Nat.mod_eq_of_lt hn]
  unfold readUint
  rw [htake, hdrop, hvalue, if_pos]
  exact ⟨by simp, all_isDigit_pad k n, hlo, hhi⟩

/-- The text goes on with the character. -/
def expect (c : Char) : List Char → Option (List Char)
  | [] => none
  | x :: s => if x = c then some s else none

@[simp] theorem expect_cons (c : Char) (s : List Char) : expect c (c :: s) = some s := by
  simp [expect]

/-! ## The fraction of a second -/

/-- The verb `.999999999`. -/
def fraction (ns : ℕ) : List Char :=
  if ns = 0 then [] else '.' :: (pad 9 ns).rdropWhile (· = '0')

/-- `parseNanoseconds`: at most nine digits count. -/
def nanoseconds (ds : List Char) : ℕ := value (ds.take 9) * 10 ^ (9 - ds.length)

/-- The fraction, if there is one. -/
def readFraction : List Char → ℕ × List Char
  | '.' :: d :: s =>
    if d.isDigit then (nanoseconds ((d :: s).takeWhile Char.isDigit), (d :: s).dropWhile Char.isDigit)
    else (0, '.' :: d :: s)
  | s => (0, s)

/-- Digits less the zeros at their end. -/
theorem value_rdropWhile (ds : List Char) :
    value ds = value (ds.rdropWhile (· = '0')) * 10 ^ (ds.length - (ds.rdropWhile (· = '0')).length) := by
  induction ds using List.reverseRecOn with
  | nil => rfl
  | append_singleton ds c ih =>
    by_cases hc : c = '0'
    · subst hc
      have hle : (ds.rdropWhile (· = '0')).length ≤ ds.length :=
        (List.rdropWhile_prefix _ ds).length_le
      rw [List.rdropWhile_concat_pos _ _ _ (by simp), value_concat, ih, List.length_append,
        List.length_singleton, Nat.sub_add_comm hle, Nat.pow_succ]
      show 10 * (_ * _) + 0 = _
      ring
    · rw [List.rdropWhile_concat_neg _ _ _ (by simpa using hc)]
      simp

/-- The digits of a fraction: their value, and that there are some. -/
theorem nanoseconds_rdropWhile {ns : ℕ} (hns : ns < 10 ^ 9) :
    nanoseconds ((pad 9 ns).rdropWhile (· = '0')) = ns := by
  have hvalue := value_rdropWhile (pad 9 ns)
  have hle : ((pad 9 ns).rdropWhile (· = '0')).length ≤ 9 := by
    simpa using (List.rdropWhile_prefix (· = '0') (pad 9 ns)).length_le
  rw [value_pad, Nat.mod_eq_of_lt hns, length_pad] at hvalue
  rw [nanoseconds, List.take_of_length_le hle, ← hvalue]

theorem rdropWhile_pad_ne_nil {ns : ℕ} (hns : ns < 10 ^ 9) (hne : ns ≠ 0) :
    (pad 9 ns).rdropWhile (· = '0') ≠ [] := by
  intro hnil
  have hzero := nanoseconds_rdropWhile hns
  rw [hnil] at hzero
  exact hne hzero.symm

/-- The fraction is read back, up to what follows it. -/
theorem readFraction_fraction {ns : ℕ} (hns : ns < 10 ^ 9) {c : Char} {rest : List Char}
    (hdot : c ≠ '.') (hdigit : c.isDigit = false) :
    readFraction (fraction ns ++ c :: rest) = (ns, c :: rest) := by
  by_cases hne : ns = 0
  · subst hne
    unfold readFraction fraction
    rw [if_pos rfl, List.nil_append]
    split
    next d s heq => exact absurd (List.cons.inj heq).1 hdot
    next => rfl
  · obtain ⟨d, ds, hds⟩ := List.exists_cons_of_ne_nil (rdropWhile_pad_ne_nil hns hne)
    have hall : ∀ x ∈ d :: ds, x.isDigit = true := by
      intro x hx
      rw [← hds] at hx
      exact List.all_eq_true.1 (all_isDigit_pad 9 ns) x
        ((List.rdropWhile_prefix _ _).subset hx)
    have htake : (d :: (ds ++ c :: rest)).takeWhile Char.isDigit = d :: ds := by
      rw [← List.cons_append, List.takeWhile_append_of_pos hall, List.takeWhile_cons_of_neg (by simp [hdigit]),
        List.append_nil]
    have hdrop : (d :: (ds ++ c :: rest)).dropWhile Char.isDigit = c :: rest := by
      rw [← List.cons_append, List.dropWhile_append_of_pos hall, List.dropWhile_cons_of_neg (by simp [hdigit])]
    rw [fraction, if_neg hne, hds, List.cons_append, List.cons_append, readFraction,
      if_pos (hall d List.mem_cons_self), htake, hdrop, ← hds, nanoseconds_rdropWhile hns]

/-! ## The layout -/

/-- `appendInt`: a sign if it is negative, and at least `width` digits. -/
def appendInt (x : Int) (width : ℕ) : List Char :=
  (if x < 0 then ['-'] else []) ++
    if x.natAbs < 10 ^ width then pad width x.natAbs else Nat.toDigits 10 x.natAbs

/-- `2006-01-02`. -/
def formatDate (d : Date) : List Char :=
  appendInt d.year 4 ++ '-' :: (appendInt d.month 2 ++ '-' :: appendInt d.day 2)

/-- `15:04:05`, of a second of the day. -/
def formatClock (sec : ℕ) : List Char :=
  pad 2 (sec / 3600) ++ ':' :: (pad 2 (sec / 60 % 60) ++ ':' :: pad 2 (sec % 60))

/-- The day, the second of the day and the nanosecond of a time. -/
def split (t : Int) : Int × ℕ × ℕ :=
  (t / 10 ^ 9 / 86400, (t / 10 ^ 9 % 86400).toNat, (t % 10 ^ 9).toNat)

/-- `t.UTC().Format(time.RFC3339Nano)`. -/
def format (t : Int) : List Char :=
  let (day, sec, ns) := split t
  formatDate (ofDayNumber day) ++ 'T' :: (formatClock sec ++ (fraction ns ++ ['Z']))

/-! ## The reader -/

/-- The number of the day. -/
def readDate (s : List Char) : Option (Int × List Char) := do
  let (year, s) ← readUint 4 0 9999 s
  let s ← expect '-' s
  let (month, s) ← readUint 2 1 12 s
  let s ← expect '-' s
  let (day, s) ← readUint 2 1 (daysIn month year).toNat s
  return (dayNumber ⟨year, month, day⟩, s)

/-- The second of the day. -/
def readClock (s : List Char) : Option (ℕ × List Char) := do
  let (hour, s) ← readUint 2 0 23 s
  let s ← expect ':' s
  let (min, s) ← readUint 2 0 59 s
  let s ← expect ':' s
  let (sec, s) ← readUint 2 0 59 s
  return ((hour * 60 + min) * 60 + sec, s)

/-- The offset in seconds at the end of the text, `Z` or `±hh:mm`. -/
def readZone : List Char → Option Int
  | ['Z'] => some 0
  | sign :: s => do
    let (hr, s) ← readUint 2 0 23 s
    let s ← expect ':' s
    let (mm, s) ← readUint 2 0 59 s
    if s ≠ [] then none
    else if sign = '+' then some ((hr * 60 + mm) * 60)
    else if sign = '-' then some (-((hr * 60 + mm) * 60))
    else none
  | [] => none

/-- `parseRFC3339`, which `time.Parse(time.RFC3339Nano, s)` tries first. -/
def parse (s : List Char) : Option Int := do
  let (day, s) ← readDate s
  let s ← expect 'T' s
  let (sec, s) ← readClock s
  let (ns, s) := readFraction s
  let offset ← readZone s
  return (day * 86400 + sec - offset) * 10 ^ 9 + ns

/-! ## Reading back -/

theorem appendInt_eq_pad {x : Int} {width : ℕ} (hx : 0 ≤ x) (hlt : x.toNat < 10 ^ width) :
    appendInt x width = pad width x.toNat := by
  have habs : x.natAbs = x.toNat := by omega
  rw [appendInt, if_neg (by omega), habs, if_pos hlt, List.nil_append]

theorem readDate_formatDate {d : Date} (hd : d.Valid) (hyear : 0 ≤ d.year ∧ d.year ≤ 9999)
    (rest : List Char) : readDate (formatDate d ++ rest) = some (dayNumber d, rest) := by
  obtain ⟨y, m, n⟩ := d
  obtain ⟨hm, hm', hn, hn'⟩ := hd
  simp only at hm hm' hn hn' hyear
  have hdays : daysIn m y ≤ 31 := by
    unfold daysIn
    split_ifs <;> omega
  have hy₀ : ((y.toNat : ℕ) : Int) = y := Int.toNat_of_nonneg hyear.1
  have hm₀ : ((m.toNat : ℕ) : Int) = m := Int.toNat_of_nonneg (by omega)
  have hn₀ : ((n.toNat : ℕ) : Int) = n := Int.toNat_of_nonneg (by omega)
  simp only [formatDate, readDate, List.append_assoc, List.cons_append]
  rw [appendInt_eq_pad hyear.1 (by omega), appendInt_eq_pad (x := m) (by omega) (by omega),
    appendInt_eq_pad (x := n) (by omega) (by omega), readUint_pad (by omega) (by omega) (by omega)]
  simp only [Option.bind_eq_bind, Option.bind_some, expect_cons]
  rw [readUint_pad (by omega) (by omega) (by omega)]
  simp only [Option.bind_some, expect_cons, hm₀, hy₀]
  rw [readUint_pad (by omega) (by omega) (by omega)]
  simp [hn₀]

theorem readClock_formatClock {sec : ℕ} (hsec : sec < 86400) (rest : List Char) :
    readClock (formatClock sec ++ rest) = some (sec, rest) := by
  simp only [formatClock, readClock, List.append_assoc, List.cons_append]
  rw [readUint_pad (by omega) (by omega) (by omega)]
  simp only [Option.bind_eq_bind, Option.bind_some, expect_cons]
  rw [readUint_pad (by omega) (by omega) (by omega)]
  simp only [Option.bind_some, expect_cons]
  rw [readUint_pad (by omega) (by omega) (by omega)]
  simp only [Option.bind_some, Option.pure_def, Option.some.injEq, Prod.mk.injEq, and_true]
  omega

/-- The day of the time is in the years that are written with four digits. -/
def InYears (t : Int) : Prop :=
  0 ≤ (ofDayNumber (split t).1).year ∧ (ofDayNumber (split t).1).year ≤ 9999

/-- A time is read back as it was. -/
theorem parse_format {t : Int} (ht : InYears t) : parse (format t) = some t := by
  have hsec : (split t).2.1 < 86400 := by simp only [split]; omega
  have hns : (split t).2.2 < 10 ^ 9 := by simp only [split]; omega
  simp only [parse, format]
  rw [readDate_formatDate (valid_ofDayNumber _) ht]
  simp only [Option.bind_eq_bind, Option.bind_some, expect_cons]
  rw [readClock_formatClock hsec]
  simp only [Option.bind_some]
  rw [readFraction_fraction hns (by decide) (by decide)]
  simp only [readZone, Option.bind_some, dayNumber_ofDayNumber, Option.pure_def, Option.some.injEq]
  simp only [split]
  omega

example : format 951786061500000000 = "2000-02-29T01:01:01.5Z".toList := by decide +kernel

example : parse "2000-02-29T02:01:01.5+01:00".toList = some 951786061500000000 := by decide +kernel

end DataLoader.Rfc3339
