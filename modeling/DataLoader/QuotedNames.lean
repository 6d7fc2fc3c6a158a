import DataLoader.SqlNames

/-!
# Reading quoted names back

`ValidateQualified` trims brackets and double quotes off the segments that it validates.
`QuoteMSSQLQualified` trims brackets only and `QuotePostgresQualified` double quotes only,
so a segment may be quoted with characters that validation did not look at.

* `readBack`: the identifiers of a quoted name, as the database reads them.
* `quoted_name_denotes_iff`: they are the validated segments if and only if both trims
  leave the same of every segment.
-/

namespace DataLoader

open SqlLex

/-- Delimited identifiers with dots between them. -/
def SqlLex.identifiers : List Token → Option (List String)
  | [.delimited s] => some [s]
  | .delimited s :: .symbol '.' :: ts => (identifiers ts).map (s :: ·)
  | _ => none

/-- The identifiers in the text of a name. -/
def SqlLex.readBack (d : Delimiters) (s : String) : Option (List String) :=
  (tokens d s.toList).bind identifiers

theorem SqlLex.identifiers_intercalate {α : Type} (f : α → String) (x : α) (xs : List α) :
    identifiers ([Token.symbol '.'].intercalate ((x :: xs).map fun y => [.delimited (f y)])) =
      some ((x :: xs).map f) := by
  induction xs generalizing x with
  | nil => rfl
  | cons y xs ih =>
    have hrest := ih y
    simp only [List.map_cons, List.intercalate_cons_cons] at hrest ⊢
    rw [List.append_assoc, List.singleton_append, List.singleton_append, identifiers, hrest]
    · rfl

namespace Sqlident

/-- `strings.Trim` trims nothing more the second time. -/
theorem trim_trim (cutset s : List Char) : trim cutset (trim cutset s) = trim cutset s := by
  have hdrop : (trim cutset s).dropWhile (· ∈ cutset) = trim cutset s := by
    refine List.dropWhile_eq_self_iff.2 fun hpos => ?_
    have hpre : trim cutset s <+: s.dropWhile (· ∈ cutset) := List.rdropWhile_prefix _ _
    rw [hpre.getElem hpos]
    exact List.dropWhile_get_zero_not (fun x => decide (x ∈ cutset)) s _
  rw [trim, hdrop, trim, List.rdropWhile_idempotent]

variable [GoLib]

/-- The segments that `ValidateQualified` validates. -/
def validatedSegments (name : String) : List String :=
  (name.toList.splitOn '.').map fun p => String.ofList (trim ['[', ']', '"'] p)

theorem validate_of_validateParts {ps : List (List Char)} (h : validateParts ps = none) :
    ∀ p ∈ ps, validate (String.ofList (trim ['[', ']', '"'] p)) = none := by
  induction ps with
  | nil => simp
  | cons p ps ih =>
    rw [validateParts] at h
    split at h
    · cases h
    · rename_i hp
      exact List.forall_mem_cons.2 ⟨hp, ih h⟩

theorem validate_of_validateQualified {name : String} (h : validateQualified name = none) :
    ∀ s ∈ validatedSegments name, validate s = none := by
  unfold validateQualified at h
  dsimp only at h
  split_ifs at h
  rw [validatedSegments, List.forall_mem_map]
  exact validate_of_validateParts h

theorem validateQualified_of_quoteMSSQLQualified {name obj : String}
    (h : quoteMSSQLQualified name = .ok obj) : validateQualified name = none := by
  unfold quoteMSSQLQualified at h
  split at h
  · cases h
  · assumption

theorem validateQualified_of_quotePostgresQualified {name obj : String}
    (h : quotePostgresQualified name = .ok obj) : validateQualified name = none := by
  unfold quotePostgresQualified at h
  split at h
  · cases h
  · assumption

end Sqlident

namespace Quoting

variable (q : Quoting)

/-- The text `obj` reads back as the segments of `name` that were validated, which are
    valid identifiers. -/
structure Denotes [GoLib] (obj name : String) : Prop where
  segments : readBack q.dialect obj = some (Sqlident.validatedSegments name)
  valid : ∀ s ∈ Sqlident.validatedSegments name, Sqlident.validate s = none

/-- Quoting and validation leave the same of every segment. -/
def TrimsAll (name : String) : Prop :=
  ∀ p ∈ name.toList.splitOn '.', Sqlident.trim q.cutset p = Sqlident.trim ['[', ']', '"'] p

theorem readBack_of_names {obj name : String} (h : q.Names obj (q.objectTokens name)) :
    readBack q.dialect obj =
      some ((name.toList.splitOn '.').map fun p => String.ofList (Sqlident.trim q.cutset p)) := by
  have htoken : ∀ p, [q.token (Sqlident.trim q.cutset p)] =
      [Token.delimited (String.ofList (Sqlident.trim q.cutset p))] := by
    intro p
    rw [token, Sqlident.trim_trim]
  obtain ⟨p, ps, hparts⟩ := List.exists_cons_of_ne_nil (List.splitOn_ne_nil '.' name.toList)
  rw [readBack, Adds.tokens h, Option.bind_some, objectTokens, hparts]
  simp only [htoken]
  exact identifiers_intercalate _ p ps

theorem denotes_iff [GoLib] {obj name : String} (h : q.Names obj (q.objectTokens name))
    (hvalid : Sqlident.validateQualified name = none) : q.Denotes obj name ↔ q.TrimsAll name := by
  have hback := q.readBack_of_names h
  constructor
  · rintro ⟨hsegments, -⟩ p hp
    rw [hback, Option.some.injEq, Sqlident.validatedSegments, List.map_inj_left] at hsegments
    exact String.ofList_injective (hsegments p hp)
  · intro htrims
    refine ⟨?_, Sqlident.validate_of_validateQualified hvalid⟩
    rw [hback, Sqlident.validatedSegments, Option.some.injEq, List.map_inj_left]
    exact fun p hp => by rw [htrims p hp]

end Quoting

section

variable [GoLib]

/-- A quoted name denotes the validated segments if and only if quoting trims all that
    validation trims, in both dialects. -/
theorem quoted_name_denotes_iff {name obj : String} :
    (Sqlident.quoteMSSQLQualified name = .ok obj →
      (Quoting.mssql.Denotes obj name ↔ Quoting.mssql.TrimsAll name)) ∧
    (Sqlident.quotePostgresQualified name = .ok obj →
      (Quoting.postgres.Denotes obj name ↔ Quoting.postgres.TrimsAll name)) := by
  constructor
  · intro h
    exact Quoting.mssql.denotes_iff (Sqlident.names_quoteMSSQLQualified h)
      (Sqlident.validateQualified_of_quoteMSSQLQualified h)
  · intro h
    exact Quoting.postgres.denotes_iff (Sqlident.names_quotePostgresQualified h)
      (Sqlident.validateQualified_of_quotePostgresQualified h)

end

section

attribute [local instance] GoLib.ascii

/-- A name in brackets and a plain name. -/
theorem plain_names_denote :
    Quoting.mssql.Denotes "[dbo].[Orders]" "dbo.[Orders]" ∧
      Quoting.postgres.Denotes "\"public\".\"orders\"" "public.\"orders\"" := by
  have hms : Quoting.mssql.TrimsAll "dbo.[Orders]" := by unfold Quoting.TrimsAll; decide +kernel
  have hpg : Quoting.postgres.TrimsAll "public.\"orders\"" := by
    unfold Quoting.TrimsAll
    decide +kernel
  exact ⟨(quoted_name_denotes_iff.1 (by decide +kernel)).2 hms,
    (quoted_name_denotes_iff.2 (by decide +kernel)).2 hpg⟩

/-- A name with the delimiters of the other dialect: they are validated away and quoted. -/
theorem foreign_delimiters_quoted :
    Sqlident.quoteMSSQLQualified "\"a\"" = .ok "[\"a\"]" ∧
      readBack tsql "[\"a\"]" = some ["\"a\""] ∧
      Sqlident.quotePostgresQualified "[a]" = .ok "\"[a]\"" ∧
      readBack SqlLex.postgres "\"[a]\"" = some ["[a]"] ∧
      Sqlident.validatedSegments "\"a\"" = ["a"] ∧ Sqlident.validatedSegments "[a]" = ["a"] ∧
      Sqlident.validate "\"a\"" ≠ none ∧ Sqlident.validate "[a]" ≠ none := by
  decide +kernel

end

end DataLoader
