import DataLoader.Contracts
import Mathlib.Data.List.DropRight

/-!
# SQL identifiers

Model of `internal/sqlident/ident.go`: validation of one identifier segment and
of a qualified name, and quoting for SQL Server and PostgreSQL.

The functions split and trim, so they work on the characters of the name. Every
`String` is valid UTF-8, so the test `!utf8.ValidString(name)` of `Validate`
never fires here.
-/

namespace DataLoader.Sqlident

variable [GoLib]

/-- `MaxIdentLen`. -/
def maxIdentLen : ℕ := 128

/-- The class `[\p{L}_]` that an identifier starts with. -/
def isIdentStart (c : Char) : Bool := GoLib.isLetter c || c == '_'

/-- The class `[\p{L}\p{N}_@$# .\-]` of the other characters. -/
def isIdentPart (c : Char) : Bool :=
  GoLib.isLetter c || GoLib.isNumber c || c ∈ ['_', '@', '$', '#', ' ', '.', '-']

/-- `identRE` (line 15): a start character and at most 127 others. -/
def identRE : List Char → Bool
  | [] => false
  | c :: cs => isIdentStart c && cs.all isIdentPart && decide (cs.length ≤ 127)

/-- Model of `Validate` (lines 18–32); `none` is a nil error. -/
def validate (name : String) : Option Err :=
  if name = "" then some "identifier is empty"
  else if maxIdentLen < name.utf8ByteSize then
    some ("identifier " ++ GoLib.quote name ++ " exceeds " ++ toString maxIdentLen ++ " characters")
  else if !identRE name.toList then
    some ("identifier " ++ GoLib.quote name ++ " contains illegal characters")
  else none

/-- `strings.Trim(s, cutset)`. -/
def trim (cutset : List Char) (s : List Char) : List Char :=
  (s.dropWhile (· ∈ cutset)).rdropWhile (· ∈ cutset)

/-- The first error of `validate` over the segments, as the loop of
    `ValidateQualified` returns it. -/
def validateParts : List (List Char) → Option Err
  | [] => none
  | p :: ps =>
    match validate (String.ofList (trim ['[', ']', '"'] p)) with
    | some e => some e
    | none => validateParts ps

/-- Model of `ValidateQualified` (lines 35–50). -/
def validateQualified (name : String) : Option Err :=
  if name = "" then some "identifier is empty"
  else
    let parts := name.toList.splitOn '.'
    if 2 < parts.length then some ("identifier " ++ GoLib.quote name ++ " has too many segments")
    else validateParts parts

/-- `strings.ReplaceAll(s, c, cc)` for a single character. -/
def doubled (c : Char) (s : List Char) : List Char :=
  s.flatMap fun x => if x = c then [c, c] else [x]

/-- Model of `QuoteMSSQL` (lines 53–56). -/
def quoteMSSQL (name : List Char) : List Char :=
  '[' :: doubled ']' (trim ['[', ']'] name) ++ [']']

/-- Model of `QuotePostgres` (lines 71–74). -/
def quotePostgres (name : List Char) : List Char :=
  '"' :: doubled '"' (trim ['"'] name) ++ ['"']

/-- Model of `QuoteMSSQLQualified` (lines 59–68). -/
def quoteMSSQLQualified (name : String) : Except Err String :=
  match validateQualified name with
  | some e => .error e
  | none =>
    let parts := (name.toList.splitOn '.').map fun p => quoteMSSQL (trim ['[', ']'] p)
    .ok (String.ofList (['.'].intercalate parts))

/-- Model of `QuotePostgresQualified` (lines 78–87). -/
def quotePostgresQualified (name : String) : Except Err String :=
  match validateQualified name with
  | some e => .error e
  | none =>
    let parts := (name.toList.splitOn '.').map fun p => quotePostgres (trim ['"'] p)
    .ok (String.ofList (['.'].intercalate parts))

omit [GoLib] in
theorem trim_eq_self {cutset s : List Char} (h : ∀ c ∈ s, c ∉ cutset) : trim cutset s = s := by
  have hdrop : s.dropWhile (· ∈ cutset) = s :=
    List.dropWhile_eq_self_iff.2 fun hlen => by simpa using h _ (List.getElem_mem hlen)
  rw [trim, hdrop]
  exact List.rdropWhile_eq_self_iff.2 fun hne => by simpa using h _ (List.getLast_mem hne)

/-! ## Valid identifiers -/

theorem validate_eq_none {name : String} :
    validate name = none ↔
      name ≠ "" ∧ name.utf8ByteSize ≤ maxIdentLen ∧ identRE name.toList = true := by
  unfold validate
  split_ifs with hempty hlong hre
  · simp [hempty]
  · simp [Nat.not_le.2 hlong]
  · simpa using fun _ _ => hre
  · simpa [hempty] using ⟨Nat.not_lt.1 hlong, by simpa using hre⟩

/-- Whether a suffix is allowed depends on its length only, as long as it has no
    illegal characters. -/
theorem validate_append_congr {name suf suf' : String} (hname : name ≠ "")
    (h : validate (name ++ suf) = none) (hchars : suf'.toList.all isIdentPart = true)
    (hlen : suf'.toList.length = suf.toList.length)
    (hsize : suf'.utf8ByteSize = suf.utf8ByteSize) :
    validate (name ++ suf') = none := by
  obtain ⟨-, hbytes, hre⟩ := validate_eq_none.1 h
  obtain ⟨c, cs, hcs⟩ := List.exists_cons_of_ne_nil (l := name.toList) (by simpa using hname)
  simp only [String.toList_append, hcs, List.cons_append, identRE, List.all_append,
    List.length_append, Bool.and_eq_true, decide_eq_true_eq] at hre
  refine validate_eq_none.2 ⟨by simp [hname], ?_, ?_⟩
  · rw [String.utf8ByteSize_append] at hbytes ⊢
    omega
  · simp only [String.toList_append, hcs, List.cons_append, identRE, List.all_append,
      List.length_append, Bool.and_eq_true, decide_eq_true_eq]
    exact ⟨⟨hre.1.1, hre.1.2.1, hchars⟩, by omega⟩

/-- An ASCII character is legal after the first one when it is a letter, a digit
    or one of the seven others. -/
theorem isIdentPart_ascii {c : Char} (hc : c.toNat < 128) :
    isIdentPart c = (c.isAlpha || c.isDigit || decide (c ∈ ['_', '@', '$', '#', ' ', '.', '-'])) := by
  rw [isIdentPart, GoLib.isLetter_ascii c hc, GoLib.isNumber_ascii c hc]

end DataLoader.Sqlident
