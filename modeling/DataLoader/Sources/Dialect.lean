import DataLoader.Sources.Database
import DataLoader.Sources.Postgres
import DataLoader.Sources.Sqlserver

/-!
# The two SQL sources side by side

What a delta load over SQL Server and one over PostgreSQL have in common: the
text that a MAX is reported as (`mark`), the value that a stored text is compared
as (`Dialect.bound`), and that this is lossless. ADR-006 demands the last: stored
watermarks are strings, and "string formatting must be lossless".
-/

namespace DataLoader

open Effects

/-- The SQL source modules. -/
inductive Dialect
  | sqlserver
  | postgres
  deriving DecidableEq, Repr

variable [GoLib] {V : Type}

/-- The value of the watermark that `currentMaxWatermark` returns for a MAX. -/
def mark (col : WatermarkColumn V) (type : String) : Option V → String
  | none => ""
  | some v =>
    if type = watermarkDatetime then GoLib.formatTime (col.time v)
    else if type = watermarkNumeric then Sql.trimSpace (col.text v)
    else col.text v

namespace Dialect

/-- The value of `Source.Type` that selects the module. -/
def kind : Dialect → String
  | .sqlserver => Sqlserver.kind
  | .postgres => Postgres.kind

def read : Dialect → Reader sqlSig
  | .sqlserver => Sqlserver.read
  | .postgres => Postgres.read

def flavour : Dialect → Sql.Flavour
  | .sqlserver => Sqlserver.flavour
  | .postgres => Postgres.flavour

/-- How `buildQuery` passes a watermark value of a type. -/
def arg (type s : String) : Dialect → Except Err SqlArg
  | .sqlserver => .ok (.text s)
  | .postgres => Postgres.parseWatermark ⟨type, s⟩

/-- What a stored watermark is compared as. -/
def bound (d : Dialect) (col : WatermarkColumn V) (type s : String) : Option V :=
  match d.arg type s with
  | .error _ => none
  | .ok a => a.value col

/-- A MAX that was stored as text is read back as itself, or rejected. -/
def Lossless (d : Dialect) (col : WatermarkColumn V) (type : String) : Prop :=
  ∀ u v, d.bound col type (mark col type (some u)) = some v → v = u

/-- A MAX that was stored as text is read back as itself. -/
def Faithful (d : Dialect) (col : WatermarkColumn V) (type : String) : Prop :=
  ∀ u, d.bound col type (mark col type (some u)) = some u

/-- The columns of the batches. -/
def columns (d : Dialect) (types : List ColumnType) : List Column := types.map d.flavour.column

/-- The cells that the sink stores for a source row, if it accepts the row. -/
def image (d : Dialect) (types : List ColumnType) (r : SourceRow V) :
    Option (List (String × Value)) :=
  (Mssql.prepareCells (d.flavour.row (d.columns types) r.values) (d.columns types)).toOption

theorem bound_eq_some {d : Dialect} {col : WatermarkColumn V} {type s : String} {a : SqlArg} {v : V}
    (ha : d.arg type s = .ok a) (hv : a.value col = some v) : d.bound col type s = some v := by
  unfold bound
  rw [ha]
  exact hv

theorem arg_of_bound {d : Dialect} {col : WatermarkColumn V} {type s : String} {v : V}
    (h : d.bound col type s = some v) : ∃ a, d.arg type s = .ok a ∧ a.value col = some v := by
  unfold bound at h
  cases ha : d.arg type s with
  | error e => rw [ha] at h; cases h
  | ok a => exact ⟨a, rfl, by rw [ha] at h; exact h⟩

/-- An empty text is only ever passed on as a text. -/
theorem arg_empty {d : Dialect} {type : String} {a : SqlArg} (h : d.arg type "" = .ok a) :
    a = .text "" := by
  cases d with
  | sqlserver => exact (Except.ok.inj h).symm
  | postgres =>
    unfold arg Postgres.parseWatermark at h
    split_ifs at h with htype
    · cases hp : GoLib.parseTime "" with
      | error e => rw [hp] at h; cases h
      | ok t => exact absurd hp (GoLib.parseTime_empty t)
    · exact (Except.ok.inj h).symm

/-- The PostgreSQL module cannot pass an empty text as a datetime. -/
theorem postgres_bound_datetime_empty {col : WatermarkColumn V} :
    Dialect.postgres.bound col watermarkDatetime "" = none := by
  unfold bound arg Postgres.parseWatermark
  rw [if_pos rfl]
  cases hp : GoLib.parseTime "" with
  | error e => rfl
  | ok t => exact absurd hp (GoLib.parseTime_empty t)

end Dialect

/-! ## Integer columns of SQL Server -/

/-- What SQL Server compares a text with an integer column as; an empty text is
    zero. -/
def readInt (s : String) : Option Int :=
  match s.toList with
  | '-' :: cs =>
    if cs ≠ [] ∧ cs.all Char.isDigit then some (-(Nat.ofDigitChars 10 cs 0 : Int)) else none
  | cs => if cs.all Char.isDigit then some (Nat.ofDigitChars 10 cs 0 : Int) else none

/-- An integer watermark column. -/
def intColumn : WatermarkColumn Int where
  time := id
  text := toString
  ofTime := some
  ofText := readInt

omit [GoLib] in
theorem toList_toString_int (n : Int) :
    (toString n).toList =
      if 0 ≤ n then Nat.toDigits 10 n.toNat else '-' :: Nat.toDigits 10 (-n).toNat := by
  cases n with
  | ofNat n =>
    have hpos : 0 ≤ Int.ofNat n := Int.natCast_nonneg n
    rw [if_pos hpos]
    exact Nat.toList_repr
  | negSucc n =>
    have hneg : ¬0 ≤ Int.negSucc n := by omega
    rw [if_neg hneg]
    change ("-" ++ (n + 1).repr).toList = _
    rw [String.toList_append, Nat.toList_repr]
    rfl

omit [GoLib] in
theorem readInt_toString (n : Int) : readInt (toString n) = some n := by
  have hdigits : ∀ k, (Nat.toDigits 10 k).all Char.isDigit = true := fun k =>
    List.all_eq_true.2 fun c hc => Nat.isDigit_of_mem_toDigits (by decide) (by decide) hc
  unfold readInt
  rw [toList_toString_int]
  split_ifs with hn
  · split
    · rename_i cs hcs
      have hminus : '-'.isDigit = true := List.all_eq_true.1 (hdigits n.toNat) _ (by simp [hcs])
      exact absurd hminus (by decide)
    · rw [if_pos (hdigits _), Nat.ofDigitChars_ten_toDigits, Int.toNat_of_nonneg hn]
  · simp only
    rw [if_pos ⟨Nat.toDigits_ne_nil, hdigits _⟩, Nat.ofDigitChars_ten_toDigits]
    congr 1
    omega

omit [GoLib] in
theorem trimSpace_toString (n : Int) : Sql.trimSpace (toString n) = toString n := by
  have hchars : ∀ c ∈ (toString n).toList, c = '-' ∨ c.isDigit = true := by
    intro c hc
    rw [toList_toString_int] at hc
    split_ifs at hc
    · exact .inr (Nat.isDigit_of_mem_toDigits (by decide) (by decide) hc)
    · rcases List.mem_cons.1 hc with rfl | hc
      · exact .inl rfl
      · exact .inr (Nat.isDigit_of_mem_toDigits (by decide) (by decide) hc)
  have hspace : ∀ c ∈ (toString n).toList, c ∉ [' ', '\t', '\n', '\r', '\x0b', '\x0c'] := by
    intro c hc hmem
    have : c.isDigit = false ∧ c ≠ '-' := by
      simp only [List.mem_cons, List.not_mem_nil, or_false] at hmem
      rcases hmem with rfl | rfl | rfl | rfl | rfl | rfl <;> decide
    rcases hchars c hc with rfl | hd
    · exact this.2 rfl
    · rw [this.1] at hd; cases hd
  rw [Sql.trimSpace, Sqlident.trim_eq_self hspace, String.ofList_toList]

/-- Integers that were stored as text are read back as they were. -/
theorem faithful_intColumn (d : Dialect) : d.Faithful intColumn watermarkNumeric := by
  intro u
  have hmark : mark intColumn watermarkNumeric (some u) = toString u := by
    rw [mark, if_neg (by decide), if_pos rfl]
    exact trimSpace_toString u
  have harg : d.arg watermarkNumeric (toString u) = .ok (.text (toString u)) := by
    cases d with
    | sqlserver => rfl
    | postgres =>
      have htype : ¬watermarkNumeric = watermarkDatetime := by decide
      simp only [Dialect.arg, Postgres.parseWatermark, if_neg htype]
  rw [hmark]
  exact d.bound_eq_some harg (readInt_toString u)

/-- SQL Server stores integers without loss. -/
theorem lossless_intColumn : Dialect.sqlserver.Lossless intColumn watermarkNumeric := by
  intro u v h
  exact Option.some.inj (h.symm.trans (faithful_intColumn .sqlserver u))

end DataLoader
