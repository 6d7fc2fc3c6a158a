import Mathlib.Data.List.Basic
import Mathlib.Data.List.TakeWhile

/-!
# JSON text

JSON values as Go's `encoding/json` writes and reads them. A Go string is a list of runes,
in which a byte that belongs to no rune stands for itself; the writer puts the replacement
character in its place. Control characters, the quote, the backslash, `<`, `>`, `&` and the
line separators are escaped. The reader also takes white space between the tokens, and the
escapes that are not written: of a slash, and of half a character.

* `readChars_quote`: a string is read back with its stray bytes replaced.
* `read_write`: so is a value, whatever follows it, if that does not go on with a number.
* `decode_write`: the text of a value is read as that value.
-/

namespace DataLoader.Codec

/-! ## Strings -/

/-- A rune of a Go string, or a byte that belongs to none. -/
inductive Rune
  | char (c : Char)
  | stray (b : UInt8)
  deriving DecidableEq, Repr

/-- A Go string, as `range` reads it. -/
abbrev GoString := List Rune

/-- The character that `range` gives. -/
def Rune.toChar : Rune → Char
  | .char c => c
  | .stray _ => '\uFFFD'

namespace GoString

/-- A string that is valid UTF-8. -/
def ofString (s : String) : GoString := s.toList.map .char

/-- The string with the replacement character in place of the stray bytes. -/
def replaced (s : GoString) : GoString := s.map fun r => .char r.toChar

/-- The bytes of a string, by which strings are compared. -/
def bytes (s : GoString) : List UInt8 :=
  s.flatMap fun
    | .char c => String.utf8EncodeChar c
    | .stray b => [b]

theorem replaced_replaced (s : GoString) : replaced (replaced s) = replaced s := by
  simp [replaced, Rune.toChar]

end GoString

/-- The characters with a short escape, and its letter. -/
def shortEscapes : List (Char × Char) :=
  [('"', '"'), ('\\', '\\'), ('\x08', 'b'), ('\x0c', 'f'), ('\n', 'n'), ('\r', 'r'), ('\t', 't')]

/-- The other characters that are escaped. -/
def needsEscape (c : Char) : Bool :=
  decide (c.toNat < 0x20) || ['<', '>', '&', '\u2028', '\u2029'].contains c

/-- The escape of a character by its number. -/
def unicodeEscape (n : ℕ) : List Char :=
  ['\\', 'u', (n / 4096 % 16).digitChar, (n / 256 % 16).digitChar, (n / 16 % 16).digitChar,
    (n % 16).digitChar]

/-- A character between quotes. -/
def escapeChar (c : Char) : List Char :=
  match shortEscapes.find? fun p => p.1 = c with
  | some p => ['\\', p.2]
  | none => if needsEscape c then unicodeEscape c.toNat else [c]

def escapeRune : Rune → List Char
  | .char c => escapeChar c
  | .stray _ => unicodeEscape 0xFFFD

/-- A string in quotes. -/
def quote (s : GoString) : List Char := '"' :: (s.flatMap escapeRune ++ ['"'])

/-- The value of a hexadecimal digit of either case. -/
def hexDigit (c : Char) : Option ℕ := (List.range 16).find? fun n => n.digitChar = c.toLower

/-- The character with a short escape. -/
def unescape (e : Char) : Option Char :=
  ((('/', '/') :: shortEscapes).find? fun p => p.2 = e).map (·.1)

/-- Where the reader of a string stands: between characters, after a backslash, or before
    `more + 1` further digits of a number that so far is `value`. -/
inductive Reading
  | plain
  | escape
  | digits (more value : ℕ)

/-- One more unit before those that were read. -/
def before (u : ℕ) (p : List ℕ × List Char) : List ℕ × List Char := (u :: p.1, p.2)

/-- The UTF-16 units or characters up to the closing quote, and what follows it. -/
def readChars : Reading → List Char → Option (List ℕ × List Char)
  | _, [] => none
  | .plain, c :: t =>
    if c = '"' then some ([], t)
    else if c = '\\' then readChars .escape t
    else if c.toNat < 0x20 then none
    else (readChars .plain t).map (before c.toNat)
  | .escape, e :: t =>
    if e = 'u' then readChars (.digits 3 0) t
    else (unescape e).bind fun c => (readChars .plain t).map (before c.toNat)
  | .digits (more + 1) value, h :: t =>
    (hexDigit h).bind fun d => readChars (.digits more (16 * value + d)) t
  | .digits 0 value, h :: t =>
    (hexDigit h).bind fun d => (readChars .plain t).map (before (16 * value + d))

/-- The characters of the units: two surrogates make one, any other is replaced. -/
def joined : List ℕ → List Char
  | [] => []
  | [u] => [if u.isValidChar then Char.ofNat u else '\uFFFD']
  | u :: v :: us =>
    if (0xD800 ≤ u ∧ u < 0xDC00) ∧ 0xDC00 ≤ v ∧ v < 0xE000 then
      Char.ofNat (0x10000 + (u - 0xD800) * 0x400 + (v - 0xDC00)) :: joined us
    else (if u.isValidChar then Char.ofNat u else '\uFFFD') :: joined (v :: us)

/-- A character is no surrogate. -/
theorem joined_map_toNat (cs : List Char) : joined (cs.map Char.toNat) = cs := by
  have hself : ∀ c : Char, (if c.toNat.isValidChar then Char.ofNat c.toNat else '\uFFFD') = c :=
    fun c => (if_pos c.valid).trans (Char.ofNat_toNat c)
  have hpair : ∀ (c : Char) (v : ℕ),
      ¬((0xD800 ≤ c.toNat ∧ c.toNat < 0xDC00) ∧ 0xDC00 ≤ v ∧ v < 0xE000) := by
    rintro c v ⟨⟨hlow, hhigh⟩, -⟩
    have hvalid : c.toNat < 0xD800 ∨ 0xDFFF < c.toNat ∧ c.toNat < 0x110000 := c.valid
    omega
  induction cs with
  | nil => rfl
  | cons c cs ih =>
    cases cs with
    | nil => exact congrArg (· :: []) (hself c)
    | cons c' cs =>
      rw [List.map_cons, List.map_cons, joined, if_neg (hpair c _), hself]
      exact congrArg (c :: ·) ih

theorem hexDigit_digitChar : ∀ n < 16, hexDigit n.digitChar = some n := by decide

theorem readChars_unicodeEscape {c : Char} (h : c.toNat < 65536) (t : List Char) :
    readChars .plain (unicodeEscape c.toNat ++ t) = (readChars .plain t).map (before c.toNat) := by
  have hdigits : 16 * (16 * (16 * (c.toNat / 4096 % 16) + c.toNat / 256 % 16) +
      c.toNat / 16 % 16) + c.toNat % 16 = c.toNat := by omega
  simp [unicodeEscape, readChars, hexDigit_digitChar _ (Nat.mod_lt _ (by decide : 0 < 16)), hdigits]

theorem unescape_shortEscapes :
    (shortEscapes.all fun p => p.2 ≠ 'u' ∧ unescape p.2 = some p.1) = true := by
  decide

theorem readChars_shortEscape {p : Char × Char} (h : p ∈ shortEscapes) (t : List Char) :
    readChars .plain ('\\' :: p.2 :: t) = (readChars .plain t).map (before p.1.toNat) := by
  obtain ⟨hu, hun⟩ := of_decide_eq_true (List.all_eq_true.1 unescape_shortEscapes p h)
  simp [readChars, hu, hun]

theorem needsEscape_lt {c : Char} (h : needsEscape c = true) : c.toNat < 65536 := by
  simp only [needsEscape, Bool.or_eq_true, decide_eq_true_eq, List.contains_iff_mem] at h
  rcases h with h | h
  · omega
  · simp only [List.mem_cons, List.not_mem_nil, or_false] at h
    rcases h with rfl | rfl | rfl | rfl | rfl <;> decide

theorem readChars_escapeRune (r : Rune) (t : List Char) :
    readChars .plain (escapeRune r ++ t) = (readChars .plain t).map (before r.toChar.toNat) := by
  cases r with
  | stray b => exact readChars_unicodeEscape (c := '\uFFFD') (by decide) t
  | char c =>
    rw [escapeRune, escapeChar]
    cases hfind : shortEscapes.find? fun p => p.1 = c with
    | some p =>
      have hc : p.1 = c := by simpa using List.find?_some hfind
      subst hc
      exact readChars_shortEscape (List.mem_of_find?_eq_some hfind) t
    | none =>
      have hshort := List.find?_eq_none.1 hfind
      dsimp only
      split_ifs with hesc
      · exact readChars_unicodeEscape (needsEscape_lt hesc) t
      · -- the character stands for itself
        have hquote : c ≠ '"' := by
          rintro rfl
          exact hshort ('"', '"') (by decide) (by decide)
        have hback : c ≠ '\\' := by
          rintro rfl
          exact hshort ('\\', '\\') (by decide) (by decide)
        have hctl : ¬ c.toNat < 0x20 := fun h => hesc (by simp [needsEscape, h])
        rw [List.singleton_append, readChars, if_neg hquote, if_neg hback, if_neg hctl]
        rfl

/-- A string is read back, with its stray bytes replaced. -/
theorem readChars_quote (s : GoString) (t : List Char) :
    readChars .plain (s.flatMap escapeRune ++ '"' :: t) =
      some ((s.map Rune.toChar).map Char.toNat, t) := by
  induction s with
  | nil => simp [readChars]
  | cons r s ih =>
    rw [List.flatMap_cons, List.append_assoc, readChars_escapeRune, ih]
    rfl

/-! ## Values -/

/-- The characters of number literals. -/
def isNumeric (c : Char) : Bool := c.isDigit || ['-', '+', '.', 'e', 'E'].contains c

/-- A number literal. -/
structure Number where
  lit : List Char
  nonempty : lit ≠ []
  numeric : ∀ c ∈ lit, isNumeric c = true
  deriving DecidableEq

namespace Number

/-- The natural number with these digits. -/
def natural (ds : List Char) : Option ℕ :=
  if ds ≠ [] ∧ ds.all Char.isDigit = true then some (Nat.ofDigitChars 10 ds 0) else none

theorem natural_toDigits (m : ℕ) : natural (Nat.toDigits 10 m) = some m := by
  have hdigits : (Nat.toDigits 10 m).all Char.isDigit = true :=
    List.all_eq_true.2 fun c hc => Nat.isDigit_of_mem_toDigits (by decide) le_rfl hc
  rw [natural, if_pos ⟨Nat.toDigits_ne_nil, hdigits⟩,
    Nat.ofDigitChars_toDigits (by decide) le_rfl]

/-- The decimal literal of an integer. -/
def decimal : Int → List Char
  | .ofNat m => Nat.toDigits 10 m
  | .negSucc m => '-' :: Nat.toDigits 10 (m + 1)

/-- The integer that a literal denotes. -/
def toInt? (n : Number) : Option Int :=
  match n.lit with
  | '-' :: ds => (natural ds).map fun m => -Int.ofNat m
  | ds => (natural ds).map Int.ofNat

theorem numeric_toDigits (m : ℕ) : ∀ c ∈ Nat.toDigits 10 m, isNumeric c = true := by
  intro c hc
  rw [isNumeric, Nat.isDigit_of_mem_toDigits (by decide) le_rfl hc, Bool.true_or]

/-- An integer in decimal. -/
def ofInt (n : Int) : Number where
  lit := decimal n
  nonempty := by cases n <;> simp [decimal]
  numeric := by
    cases n with
    | ofNat m => exact numeric_toDigits m
    | negSucc m => exact List.forall_mem_cons.2 ⟨by decide, numeric_toDigits (m + 1)⟩

theorem toInt?_ofInt (n : Int) : (ofInt n).toInt? = some n := by
  cases n with
  | ofNat m =>
    rw [toInt?]
    split
    · next ds hlit =>
      -- a digit is no sign
      have hminus : '-' ∈ Nat.toDigits 10 m := by
        rw [show Nat.toDigits 10 m = '-' :: ds from hlit]
        exact List.mem_cons_self
      exact absurd (Nat.isDigit_of_mem_toDigits (by decide) le_rfl hminus) (by decide)
    · exact congrArg (Option.map _) (natural_toDigits m)
  | negSucc m => exact congrArg (Option.map _) (natural_toDigits (m + 1))

end Number

inductive Json
  | null
  | bool (b : Bool)
  | num (n : Number)
  | str (s : GoString)
  | arr (elems : List Json)
  | obj (members : List (GoString × Json))

namespace Json

mutual

/-- The text of a value. -/
def write : Json → List Char
  | .null => ['n', 'u', 'l', 'l']
  | .bool true => ['t', 'r', 'u', 'e']
  | .bool false => ['f', 'a', 'l', 's', 'e']
  | .num n => n.lit
  | .str s => quote s
  | .arr [] => ['[', ']']
  | .arr (x :: xs) => '[' :: (write x ++ writeElems xs)
  | .obj [] => ['\x7b', '\x7d']
  | .obj ((k, v) :: ms) => '\x7b' :: (quote k ++ ':' :: (write v ++ writeMembers ms))

/-- The elements of an array after the first. -/
def writeElems : List Json → List Char
  | [] => [']']
  | x :: xs => ',' :: (write x ++ writeElems xs)

/-- The members of an object after the first. -/
def writeMembers : List (GoString × Json) → List Char
  | [] => ['\x7d']
  | (k, v) :: ms => ',' :: (quote k ++ ':' :: (write v ++ writeMembers ms))

end

def isSpace (c : Char) : Bool := [' ', '\t', '\r', '\n'].contains c

/-- The text after the white space at its start. -/
def skip (t : List Char) : List Char := t.dropWhile isSpace

/-- The literal at the start of a text. -/
def readNumber (t : List Char) : Option (Json × List Char) :=
  if h : t.takeWhile isNumeric = [] then none
  else some (.num ⟨t.takeWhile isNumeric, h, fun _ hc => List.mem_takeWhile_imp hc⟩,
    skip (t.dropWhile isNumeric))

mutual

/-- The value at the start of a text, and what follows it and the white space after it. -/
def read : ℕ → List Char → Option (Json × List Char)
  | 0, _ => none
  | fuel + 1, t =>
    match t with
    | 'n' :: 'u' :: 'l' :: 'l' :: t => some (.null, skip t)
    | 't' :: 'r' :: 'u' :: 'e' :: t => some (.bool true, skip t)
    | 'f' :: 'a' :: 'l' :: 's' :: 'e' :: t => some (.bool false, skip t)
    | '"' :: t => (readChars .plain t).map fun p => (.str ((joined p.1).map .char), skip p.2)
    | '[' :: t =>
      match skip t with
      | ']' :: t => some (.arr [], skip t)
      | t => (read fuel t).bind fun x =>
          (readElems fuel x.2).map fun xs => (.arr (x.1 :: xs.1), xs.2)
    | '\x7b' :: t =>
      match skip t with
      | '\x7d' :: t => some (.obj [], skip t)
      | t => (readMember fuel t).bind fun m =>
          (readMembers fuel m.2).map fun ms => (.obj (m.1 :: ms.1), ms.2)
    | t => readNumber t

def readElems : ℕ → List Char → Option (List Json × List Char)
  | fuel + 1, ',' :: t =>
    (read fuel (skip t)).bind fun x => (readElems fuel x.2).map fun xs => (x.1 :: xs.1, xs.2)
  | _ + 1, ']' :: t => some ([], skip t)
  | _, _ => none

def readMember : ℕ → List Char → Option ((GoString × Json) × List Char)
  | fuel + 1, '"' :: t =>
    (readChars .plain t).bind fun k =>
      match skip k.2 with
      | ':' :: t => (read fuel (skip t)).map fun v => (((joined k.1).map .char, v.1), v.2)
      | _ => none
  | _, _ => none

def readMembers : ℕ → List Char → Option (List (GoString × Json) × List Char)
  | fuel + 1, ',' :: t =>
    (readMember fuel (skip t)).bind fun m =>
      (readMembers fuel m.2).map fun ms => (m.1 :: ms.1, ms.2)
  | _ + 1, '\x7d' :: t => some ([], skip t)
  | _, _ => none

end

/-- The value that a text spells, if it spells one. -/
def decode (t : List Char) : Option Json :=
  match read t.length (skip t) with
  | some (j, []) => some j
  | _ => none

/-! ## Reading what was written -/

mutual

/-- The value with the replacement character in place of the stray bytes. -/
def replaced : Json → Json
  | .null => .null
  | .bool b => .bool b
  | .num n => .num n
  | .str s => .str s.replaced
  | .arr xs => .arr (replacedElems xs)
  | .obj ms => .obj (replacedMembers ms)

def replacedElems : List Json → List Json
  | [] => []
  | x :: xs => replaced x :: replacedElems xs

def replacedMembers : List (GoString × Json) → List (GoString × Json)
  | [] => []
  | (k, v) :: ms => (k.replaced, replaced v) :: replacedMembers ms

end

theorem replacedMembers_eq (ms : List (GoString × Json)) :
    replacedMembers ms = ms.map fun m => (m.1.replaced, m.2.replaced) := by
  induction ms with
  | nil => rfl
  | cons m ms ih => rw [replacedMembers, ih, List.map_cons]

/-- No number goes on in `t`. -/
def Ends (t : List Char) : Prop := ∀ c ∈ t.head?, isNumeric c = false

theorem ends_nil : Ends [] := by simp [Ends]

theorem ends_cons {c : Char} (h : isNumeric c = false) (t : List Char) : Ends (c :: t) := by
  simpa [Ends] using h

theorem ends_writeElems (xs : List Json) (t : List Char) : Ends (writeElems xs ++ t) := by
  cases xs with
  | nil => exact ends_cons (by decide) _
  | cons x xs => exact ends_cons (by decide) _

theorem ends_writeMembers (ms : List (GoString × Json)) (t : List Char) :
    Ends (writeMembers ms ++ t) := by
  cases ms with
  | nil => exact ends_cons (by decide) _
  | cons m ms => exact ends_cons (by decide) _

theorem readNumber_lit (n : Number) {t : List Char} (h : Ends t) :
    readNumber (n.lit ++ t) = some (.num n, skip t) := by
  have hnone : t.takeWhile isNumeric = [] := by
    cases t with
    | nil => rfl
    | cons c t => exact List.takeWhile_cons_of_neg (by simp [h c rfl])
  have htake : (n.lit ++ t).takeWhile isNumeric = n.lit := by
    rw [List.takeWhile_append_of_pos n.numeric, hnone, List.append_nil]
  have hdrop : (n.lit ++ t).dropWhile isNumeric = t := by
    have hsplit := List.takeWhile_append_dropWhile (p := isNumeric) (l := n.lit ++ t)
    rw [htake] at hsplit
    exact List.append_cancel_left hsplit
  simp [readNumber, htake, hdrop, n.nonempty]

theorem skip_cons {c : Char} (h : isSpace c = false) (t : List Char) : skip (c :: t) = c :: t :=
  List.dropWhile_cons_of_neg (by simp [h])

/-- A value does not start like the end of an array, or with white space. -/
theorem write_eq_cons : ∀ j : Json, ∃ c t, write j = c :: t ∧ c ≠ ']' ∧ isSpace c = false
  | .null => ⟨_, _, rfl, by decide⟩
  | .bool true => ⟨_, _, rfl, by decide⟩
  | .bool false => ⟨_, _, rfl, by decide⟩
  | .num n => by
    obtain ⟨c, t, hlit⟩ := List.exists_cons_of_ne_nil n.nonempty
    have hc : isNumeric c = true := n.numeric c (by simp [hlit])
    refine ⟨c, t, hlit, ?_, ?_⟩
    · rintro rfl
      exact absurd hc (by decide)
    · rw [Bool.eq_false_iff, ne_eq, isSpace, List.contains_iff_mem]
      intro hmem
      simp only [List.mem_cons, List.not_mem_nil, or_false] at hmem
      rcases hmem with rfl | rfl | rfl | rfl <;> exact absurd hc (by decide)
  | .str s => ⟨_, _, rfl, by decide⟩
  | .arr [] => ⟨_, _, rfl, by decide⟩
  | .arr (x :: xs) => ⟨_, _, rfl, by decide⟩
  | .obj [] => ⟨_, _, rfl, by decide⟩
  | .obj ((k, v) :: ms) => ⟨_, _, rfl, by decide⟩

theorem skip_write (j : Json) (t : List Char) : skip (write j ++ t) = write j ++ t := by
  obtain ⟨c, s, hw, -, hc⟩ := write_eq_cons j
  rw [hw]
  exact skip_cons hc _

theorem skip_quote (s : GoString) (t : List Char) : skip (quote s ++ t) = quote s ++ t :=
  skip_write (.str s) t

theorem skip_writeElems (xs : List Json) (t : List Char) :
    skip (writeElems xs ++ t) = writeElems xs ++ t := by
  cases xs with
  | nil => exact skip_cons (by decide) _
  | cons x xs => exact skip_cons (by decide) _

theorem skip_writeMembers (ms : List (GoString × Json)) (t : List Char) :
    skip (writeMembers ms ++ t) = writeMembers ms ++ t := by
  cases ms with
  | nil => exact skip_cons (by decide) _
  | cons m ms => exact skip_cons (by decide) _

theorem read_num (n : Number) (fuel : ℕ) {t : List Char} (h : Ends t) :
    read (fuel + 1) (n.lit ++ t) = some (.num n, skip t) := by
  obtain ⟨c, cs, hlit⟩ := List.exists_cons_of_ne_nil n.nonempty
  have hc : isNumeric c = true := n.numeric c (by simp [hlit])
  have hnum := readNumber_lit n h
  rw [hlit, List.cons_append] at hnum ⊢
  rw [read]
  · exact hnum
  all_goals
    -- no other value starts with a character of a number
    intro t' heq
    obtain rfl := (List.cons.inj heq).1
    exact absurd hc (by decide)

theorem joined_toChar (s : GoString) :
    (joined ((s.map Rune.toChar).map Char.toNat)).map Rune.char = s.replaced := by
  rw [joined_map_toNat, List.map_map]
  rfl

mutual

/-- A value is read back, with its stray bytes replaced, in as many steps as its text has
    characters. -/
theorem read_write : ∀ (j : Json) (fuel : ℕ) (t : List Char), (write j).length ≤ fuel → Ends t →
    read fuel (write j ++ t) = some (replaced j, skip t)
  | j, 0, t, hfuel, _ => by
    obtain ⟨c, s, hw, -⟩ := write_eq_cons j
    simp [hw] at hfuel
  | .null, fuel + 1, t, _, _ => by simp [write, read, replaced]
  | .bool true, fuel + 1, t, _, _ => by simp [write, read, replaced]
  | .bool false, fuel + 1, t, _, _ => by simp [write, read, replaced]
  | .num n, fuel + 1, t, _, ht => by rw [write, read_num n fuel ht, replaced]
  | .str s, fuel + 1, t, _, _ => by
    rw [write, quote, List.cons_append, List.append_assoc, List.singleton_append, read,
      readChars_quote, Option.map_some, joined_toChar, replaced]
  | .arr [], fuel + 1, t, _, _ => by
    rw [write, List.cons_append, List.cons_append, read, skip_cons (by decide)]
    rfl
  | .arr (x :: xs), fuel + 1, t, hfuel, ht => by
    simp only [write, List.length_cons, List.length_append] at hfuel
    have hx := read_write x fuel (writeElems xs ++ t) (by omega) (ends_writeElems xs t)
    have hxs := readElems_write xs fuel t (by omega)
    rw [write, List.cons_append, List.append_assoc, read, skip_write]
    split
    · next t' heq =>
      obtain ⟨c, s, hw, hc, -⟩ := write_eq_cons x
      rw [hw, List.cons_append] at heq
      exact absurd (List.cons.inj heq).1 hc
    · rw [hx, Option.bind_some, skip_writeElems, hxs]
      rfl
  | .obj [], fuel + 1, t, _, _ => by
    rw [write, List.cons_append, List.cons_append, read, skip_cons (by decide)]
    rfl
  | .obj ((k, v) :: ms), fuel + 1, t, hfuel, ht => by
    simp only [write, List.length_cons, List.length_append] at hfuel
    have hm := readMember_write k v fuel (writeMembers ms ++ t) (by simp; omega)
      (ends_writeMembers ms t)
    have hms := readMembers_write ms fuel t (by omega)
    rw [write, List.cons_append, List.append_assoc, List.cons_append, List.append_assoc, read,
      skip_quote]
    split
    · next t' heq => exact absurd (List.cons.inj heq).1 (by decide)
    · rw [hm, Option.bind_some, skip_writeMembers, hms]
      rfl

theorem readElems_write : ∀ (xs : List Json) (fuel : ℕ) (t : List Char),
    (writeElems xs).length ≤ fuel →
    readElems fuel (writeElems xs ++ t) = some (replacedElems xs, skip t)
  | [], 0, t, hfuel => absurd hfuel (by simp [writeElems])
  | [], fuel + 1, t, _ => by simp [writeElems, readElems, replacedElems]
  | _ :: _, 0, t, hfuel => absurd hfuel (by simp [writeElems])
  | x :: xs, fuel + 1, t, hfuel => by
    simp only [writeElems, List.length_cons, List.length_append] at hfuel
    have hx := read_write x fuel (writeElems xs ++ t) (by omega) (ends_writeElems xs t)
    have hxs := readElems_write xs fuel t (by omega)
    simp only [writeElems, List.cons_append, List.append_assoc, readElems, skip_write, hx,
      Option.bind_some, skip_writeElems, hxs, replacedElems]
    rfl

theorem readMember_write : ∀ (k : GoString) (v : Json) (fuel : ℕ) (t : List Char),
    (quote k ++ ':' :: write v).length ≤ fuel → Ends t →
    readMember fuel (quote k ++ ':' :: (write v ++ t)) = some ((k.replaced, replaced v), skip t)
  | k, v, 0, t, hfuel, _ => absurd hfuel (by simp [quote])
  | k, v, fuel + 1, t, hfuel, ht => by
    simp only [quote, List.length_cons, List.length_append] at hfuel
    have hv := read_write v fuel t (by omega) ht
    rw [quote, List.cons_append, List.append_assoc, List.singleton_append, readMember,
      readChars_quote, Option.bind_some, skip_cons (by decide)]
    simp only [skip_write, hv, Option.map_some, joined_toChar]

theorem readMembers_write : ∀ (ms : List (GoString × Json)) (fuel : ℕ) (t : List Char),
    (writeMembers ms).length ≤ fuel →
    readMembers fuel (writeMembers ms ++ t) = some (replacedMembers ms, skip t)
  | [], 0, t, hfuel => absurd hfuel (by simp [writeMembers])
  | [], fuel + 1, t, _ => by simp [writeMembers, readMembers, replacedMembers]
  | _ :: _, 0, t, hfuel => absurd hfuel (by simp [writeMembers])
  | (k, v) :: ms, fuel + 1, t, hfuel => by
    simp only [writeMembers, List.length_cons, List.length_append] at hfuel
    have hm := readMember_write k v fuel (writeMembers ms ++ t) (by simp; omega)
      (ends_writeMembers ms t)
    have hms := readMembers_write ms fuel t (by omega)
    simp only [writeMembers, List.cons_append, List.append_assoc, readMembers, skip_quote, hm,
      Option.bind_some, skip_writeMembers, hms, replacedMembers]
    rfl

end

/-- The text of a value spells that value, with its stray bytes replaced. -/
theorem decode_write (j : Json) : decode (write j) = some (replaced j) := by
  have hskip := skip_write j []
  have hread := read_write j (write j).length [] le_rfl ends_nil
  rw [List.append_nil] at hskip hread
  rw [decode, hskip, hread]
  rfl

end Json

end DataLoader.Codec
