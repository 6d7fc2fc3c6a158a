import DataLoader.Effects.Paths
import DataLoader.Pipeline.AllOrNothing
import DataLoader.QuotedNames
import DataLoader.Sink.Statements

/-!
# The names in `sp_rename`

The statements of the sink name a table with two delimited identifiers, and `renameInTx`
passes the plain text `schema.table` to `sp_rename`. A dot is a legal character of both
names, so the two need not be the same table.

* `nameParts`: a multi-part name split at the dots outside delimiters.
* `rename_names_table_iff`: every name that `CommitReplace` passes to `sp_rename` has the
  schema and the table that are meant as its parts if and only if neither has a dot in it.
-/

namespace DataLoader

open Effects SqlLex Mssql

/-- The parts of a name between the dots that stand outside of delimiters. `inside` is the
    delimiter that closes the current identifier. -/
def nameParts : Option Char → List Char → List (List Char)
  | _, [] => [[]]
  | some close, c :: cs =>
    (nameParts (if c = close then none else some close) cs).modifyHead (c :: ·)
  | none, c :: cs =>
    if c = '.' then [] :: nameParts none cs
    else (nameParts (tsql.closing c) cs).modifyHead (c :: ·)

theorem nameParts_eq_splitOn {s : List Char} (h : ∀ c ∈ s, c ∉ ['[', '"']) :
    nameParts none s = s.splitOn '.' := by
  induction s with
  | nil => rfl
  | cons c s ih =>
    obtain ⟨hc, hs⟩ := List.forall_mem_cons.1 h
    have hclosing : tsql.closing c = none := by
      simp only [List.mem_cons, List.not_mem_nil, or_false, not_or] at hc
      simp [tsql, hc.1, hc.2]
    rw [nameParts, hclosing, ih hs, List.splitOn_cons_eq_if_modifyHead]
    simp

/-- The parts that `sp_rename` reads in the text of an object name. -/
def renameParts (obj : String) : List String := (nameParts none obj.toList).map String.ofList

namespace Sqlident

variable [GoLib]

theorem isIdentPart_of_identRE {s : List Char} (h : identRE s = true) :
    ∀ c ∈ s, isIdentPart c = true := by
  cases s with
  | nil => cases h
  | cons c cs =>
    simp only [identRE, Bool.and_eq_true] at h
    refine List.forall_mem_cons.2 ⟨?_, List.all_eq_true.1 h.1.2⟩
    have hstart := h.1.1
    simp only [isIdentStart, Bool.or_eq_true, beq_iff_eq] at hstart
    rcases hstart with hletter | rfl
    · simp [isIdentPart, hletter]
    · simp [isIdentPart]

/-- A valid identifier has no delimiter in it. -/
theorem notMem_delimiters {name : String} (h : validate name = none) :
    ∀ c ∈ name.toList, c ∉ ['[', ']', '"'] := by
  intro c hc hmem
  have hpart := isIdentPart_of_identRE (validate_eq_none.1 h).2.2 c hc
  simp only [List.mem_cons, List.not_mem_nil, or_false] at hmem
  rcases hmem with rfl | rfl | rfl
  all_goals
    rw [isIdentPart_ascii (by decide)] at hpart
    exact absurd hpart (by decide)

end Sqlident

namespace Mssql

variable [GoLib] {t stg : TargetTable}

/-- The delimited identifiers of a valid table are its schema and its name. -/
theorem readBack_qualified (h : validateTarget t = none) :
    readBack tsql (qualified t) = some [t.schema, t.name] := by
  obtain ⟨hschema, hname⟩ := validateTarget_eq_none.1 h
  have htoken : ∀ {name : String}, Sqlident.validate name = none → nameToken name = .delimited name := by
    intro name hvalid
    have htrim : Sqlident.trim Quoting.mssql.cutset name.toList = name.toList :=
      Sqlident.trim_eq_self fun c hc hmem => Sqlident.notMem_delimiters hvalid c hc (by
        simp only [Quoting.mssql, List.mem_cons, List.not_mem_nil, or_false] at hmem ⊢
        tauto)
    rw [nameToken, Quoting.token, htrim, String.ofList_toList]
  have htokens : tokens tsql (qualified t).toList = some (tableTokens t) :=
    Adds.tokens (names_qualified t)
  rw [readBack, htokens, tableTokens, htoken hschema, htoken hname]
  rfl

/-- The parts of a dotted name are the schema and the table unless one of them has a dot. -/
theorem renameParts_dotted (h : validateTarget t = none) :
    renameParts (dotted t) = [t.schema, t.name] ↔ '.' ∉ t.schema.toList ∧ '.' ∉ t.name.toList := by
  obtain ⟨hschema, hname⟩ := validateTarget_eq_none.1 h
  have hplain : ∀ c ∈ (dotted t).toList, c ∉ ['[', '"'] := by
    intro c hc hmem
    have hdelim : c ∈ ['[', ']', '"'] := by
      rcases (by simpa using hmem) with rfl | rfl <;> decide
    rw [toList_dotted, List.mem_append, List.mem_cons] at hc
    rcases hc with hc | rfl | hc
    · exact Sqlident.notMem_delimiters hschema c hc hdelim
    · exact absurd hdelim (by decide)
    · exact Sqlident.notMem_delimiters hname c hc hdelim
  rw [renameParts, nameParts_eq_splitOn hplain]
  constructor
  · intro hparts
    have hnodot : ∀ s ∈ [t.schema, t.name], '.' ∉ s.toList := by
      rw [← hparts, List.forall_mem_map]
      intro p hp
      rw [String.toList_ofList]
      exact notMem_of_mem_splitOn hp
    exact ⟨hnodot t.schema (by simp), hnodot t.name (by simp)⟩
  · rintro ⟨hs, hn⟩
    rw [splitOn_dotted hs hn]
    simp

theorem staging_of_stagingTarget (h : stagingTarget t = .ok stg) :
    stg = staging t ∧ Sqlident.validate stg.name = none := by
  unfold stagingTarget at h
  split at h
  · cases h
  · rename_i hvalid
    cases h
    exact ⟨rfl, hvalid⟩

/-- The names that a call passes to `sp_rename`. -/
def renamed {S : Sig} : SysCall S → Option (String × String)
  | .db (.spRename obj newName) => some (obj, newName)
  | _ => none

theorem calls_commitReplace_renamed {S : Sig} (t stg : TargetTable) :
    (commitReplace t stg : Prog (sysSig S) (Option Err)).Calls fun c =>
      ∀ obj newName, renamed c = some (obj, newName) →
        ∃ u, (u = t ∧ newName = (old t).name ∨ u = stg ∧ newName = t.name) ∧ obj = dotted u := by
  refine calls_commitReplace_of ?_ ?_ ?_
  · rintro c - hc obj newName heq
    cases c <;> first | (cases heq; done) | cases hc
  · rintro _ _ ⟨⟩
    exact ⟨t, .inl ⟨rfl, rfl⟩, rfl⟩
  · rintro _ _ ⟨⟩
    exact ⟨stg, .inr ⟨rfl, rfl⟩, rfl⟩

/-- For a target that `BeginReplace` accepts, every object name that `CommitReplace` passes
    to `sp_rename` is the dotted name of the live or of the staging table. Its parts are
    those of the quoted name of this table if and only if the target has no dot in its schema
    and in its name. -/
theorem rename_names_table_iff {S : Sig} (ht : validateTarget t = none)
    (hs : stagingTarget t = .ok stg) {tr : List (Step (sysSig S))} {res : Option Err}
    (h : (commitReplace t stg : Prog (sysSig S) (Option Err)).Path tr res) {s : Step (sysSig S)}
    (hmem : s ∈ tr) {obj newName : String} (hcall : renamed s.1 = some (obj, newName)) :
    ∃ u, (u = t ∧ newName = (old t).name ∨ u = stg ∧ newName = t.name) ∧
      readBack tsql (qualified u) = some [u.schema, u.name] ∧
      (renameParts obj = [u.schema, u.name] ↔ '.' ∉ t.schema.toList ∧ '.' ∉ t.name.toList) := by
  obtain ⟨u, hu, rfl⟩ := h.calls (calls_commitReplace_renamed t stg) s hmem obj newName hcall
  obtain ⟨rfl, hname⟩ := staging_of_stagingTarget hs
  have hstg : validateTarget (staging t) = none :=
    validateTarget_eq_none.2 ⟨(validateTarget_eq_none.1 ht).1, hname⟩
  rcases hu with ⟨rfl, hnew⟩ | ⟨rfl, hnew⟩
  · exact ⟨_, .inl ⟨rfl, hnew⟩, readBack_qualified ht, renameParts_dotted ht⟩
  · refine ⟨_, .inr ⟨rfl, hnew⟩, readBack_qualified hstg, (renameParts_dotted hstg).trans ?_⟩
    have hdot : '.' ∉ (staging t).name.toList ↔ '.' ∉ t.name.toList := by
      simp [staging, suffixed, stagingSuffix, String.toList_append]
    rw [hdot]
    rfl

end Mssql

section

attribute [local instance] GoLib.ascii

/-- The result of a commit on `t` with both tables present, which makes `n` calls that do
    not fail on the way, and the names that it passes to `sp_rename`. -/
def commitNames (t : TargetTable) (n : ℕ) : Option (Option Err × List (String × String)) :=
  let w := sinkWorld fun u => if u ∈ [t, staging t] then some [] else none
  let p : Prog (sysSig noDriver) (Option Err) := commitReplace t (staging t)
  let M := World.machine ⟨"wh", "dbo"⟩ plainSide
  (M.exec (succeed _ n) p w).map fun r =>
    (r.1, (M.log (succeed _ n) p w).filterMap fun x => renamed x.call)

/-- What a commit has passed to `sp_rename` stands on a path. -/
theorem commitNames_path {t : TargetTable} {n : ℕ} {res : Option Err} {names : List (String × String)}
    (h : commitNames t n = some (res, names)) :
    ∃ tr, (commitReplace t (staging t) : Prog (sysSig noDriver) (Option Err)).Path tr res ∧
      ∀ x ∈ names, ∃ s ∈ tr, renamed s.1 = some x := by
  obtain ⟨⟨a, w'⟩, hx, hends⟩ := Option.map_eq_some_iff.1 h
  obtain ⟨rfl, rfl⟩ := Prod.mk.inj hends
  refine ⟨_, (Machine.Runs.of_exec hx).path, fun x hmem => ?_⟩
  obtain ⟨e, he, hrenamed⟩ := List.mem_filterMap.1 hmem
  exact ⟨e.step, List.mem_map_of_mem he, hrenamed⟩

theorem orders_renamed_as_meant :
    ∃ tr res, (commitReplace orders (staging orders) : Prog (sysSig noDriver) (Option Err)).Path tr
        res ∧
      (∃ s ∈ tr, renamed s.1 = some ("dbo.orders", "orders_old")) ∧
      renameParts "dbo.orders" = ["dbo", "orders"] := by
  have heval : commitNames orders 9 =
      some (none, [("dbo.orders", "orders_old"), ("dbo.orders_stg", "orders")]) := by decide +kernel
  obtain ⟨tr, hpath, hnames⟩ := commitNames_path heval
  obtain ⟨s, hs, hrenamed⟩ := hnames _ (List.mem_cons_self ..)
  have hvalid : validateTarget orders = none := by decide +kernel
  have hstg : stagingTarget orders = .ok (staging orders) := by decide +kernel
  obtain ⟨u, hu, -, hiff⟩ := rename_names_table_iff hvalid hstg hpath hs hrenamed
  obtain ⟨rfl, -⟩ : u = orders ∧ "orders_old" = (old orders).name := by
    rcases hu with hu | ⟨-, hnew⟩
    · exact hu
    · exact absurd hnew (by decide)
  exact ⟨tr, none, hpath, ⟨s, hs, hrenamed⟩, hiff.2 ⟨by decide, by decide⟩⟩

/-- A target with a dot in its name is accepted, and `sp_rename` reads three parts. -/
theorem dotted_target_renames_other :
    validateTarget ⟨"dbo", "sales.2024"⟩ = none ∧
      stagingTarget ⟨"dbo", "sales.2024"⟩ = .ok ⟨"dbo", "sales.2024_stg"⟩ ∧
      ∃ tr res, (commitReplace ⟨"dbo", "sales.2024"⟩ ⟨"dbo", "sales.2024_stg"⟩ :
          Prog (sysSig noDriver) (Option Err)).Path tr res ∧
        (∃ s ∈ tr, renamed s.1 = some ("dbo.sales.2024", "sales.2024_old")) ∧
        renameParts "dbo.sales.2024" = ["dbo", "sales", "2024"] ∧
        readBack tsql (qualified ⟨"dbo", "sales.2024"⟩) = some ["dbo", "sales.2024"] := by
  have heval : (commitNames ⟨"dbo", "sales.2024"⟩ 6).map (·.2) =
      some [("dbo.sales.2024", "sales.2024_old")] := by decide +kernel
  obtain ⟨⟨res, names⟩, hcommit, rfl⟩ := Option.map_eq_some_iff.1 heval
  obtain ⟨tr, hpath, hnames⟩ := commitNames_path hcommit
  exact ⟨by decide +kernel, by decide +kernel, tr, res, hpath, hnames _ (List.mem_singleton_self _),
    by decide +kernel, by decide +kernel⟩

end

end DataLoader
