import DataLoader.Codec.Delimited
import DataLoader.Metadata.Tables
import Mathlib.Data.List.Perm.Basic
import Mathlib.Data.List.Dedup
import Mathlib.Data.List.Sort

/-!
# The metadata fingerprint

Model of `MetadataFingerprint` (`internal/metadata/repository.go`, lines 216–318).
The text that is hashed is a list of characters. `fingerprint_covers_unbarred` says
when it determines the covered fields of two states: if no text field of either holds
the separator `|`. A line break in a text field does no harm then, since the fields
that end a line never hold one.
-/

namespace DataLoader

open Codec

/-- `sourceFP` (lines 219–224). -/
structure SourceFP where
  id : Int
  kind : String
  paramsJSON : String
  isEnabled : Bool
  deriving DecidableEq, Repr

/-- `loadFP` (lines 225–238). -/
structure LoadFP where
  id : Int
  sourceID : Int
  cronExpression : String
  mode : String
  watermarkColumn : String
  watermarkType : String
  objectName : String
  targetSchema : String
  targetTable : String
  batchSize : Int
  autoCreateTable : Bool
  isEnabled : Bool
  deriving DecidableEq, Repr

/-- `tagFP` (lines 261–265). -/
structure TagFP where
  loadID : Int
  enabled : ℕ
  total : ℕ
  deriving DecidableEq, Repr

def SourceRecord.fp (s : SourceRecord) : SourceFP := ⟨s.id, s.kind, s.paramsJSON, s.isEnabled⟩

def LoadRecord.fp (l : LoadRecord) : LoadFP where
  id := l.id
  sourceID := l.sourceID
  cronExpression := l.cronExpression
  mode := l.mode
  watermarkColumn := l.watermarkColumn
  watermarkType := l.watermarkType
  objectName := l.objectName
  targetSchema := l.targetSchema
  targetTable := l.targetTable
  batchSize := l.batchSize
  autoCreateTable := l.autoCreateTable
  isEnabled := l.isEnabled

/-- How many of the rows `(load_id, is_enabled)` of a tag table are of a load. -/
def tagTotal (rows : List (Int × Bool)) (loadID : Int) : ℕ := rows.countP fun r => r.1 == loadID

/-- How many of them are enabled. -/
def tagEnabled (rows : List (Int × Bool)) (loadID : Int) : ℕ :=
  rows.countP fun r => r.1 == loadID && r.2

/-- `SELECT load_id, SUM(..), COUNT(*) .. GROUP BY load_id` (lines 268–273). -/
def tagCounts (rows : List (Int × Bool)) : List TagFP :=
  (rows.map (·.1)).dedup.map fun id => ⟨id, tagEnabled rows id, tagTotal rows id⟩

namespace MetaTables

def modbusRows (t : MetaTables) : List (Int × Bool) := t.modbusTags.map fun r => (r.loadID, r.isEnabled)

def opcuaRows (t : MetaTables) : List (Int × Bool) := t.opcuaNodes.map fun r => (r.loadID, r.isEnabled)

end MetaTables

/-! ## The text -/

/-- The verb `%d`. -/
def decimal (n : Int) : List Char := (toString n).toList

/-- The verb `%v` of a `bool`. -/
def verbBool (b : Bool) : List Char := (if b then "true" else "false").toList

/-- A format of verbs between `|` and with a line break at the end. -/
def line (init : List (List Char)) (last : List Char) : List Char :=
  fields '|' init ++ (last ++ ['\n'])

/-- The fields of a source that may hold any text. -/
def SourceFP.texts (s : SourceFP) : List (List Char) := [s.kind.toList, s.paramsJSON.toList]

def LoadFP.texts (l : LoadFP) : List (List Char) :=
  [l.cronExpression.toList, l.mode.toList, l.watermarkColumn.toList, l.watermarkType.toList,
    l.objectName.toList, l.targetSchema.toList, l.targetTable.toList]

/-- `"%d|%s|%s|%v\n"` (line 298). -/
def SourceFP.line (s : SourceFP) : List Char :=
  DataLoader.line ([decimal s.id] ++ s.texts) (verbBool s.isEnabled)

/-- `"%d|%d|%s|%s|%s|%s|%s|%s|%s|%d|%v|%v\n"` (lines 302–306). -/
def LoadFP.line (l : LoadFP) : List Char :=
  DataLoader.line
    ([decimal l.id, decimal l.sourceID] ++ l.texts ++
      [decimal l.batchSize, verbBool l.autoCreateTable])
    (verbBool l.isEnabled)

/-- `"%d|%d|%d\n"` (lines 310 and 314). -/
def TagFP.line (t : TagFP) : List Char :=
  DataLoader.line [decimal t.loadID, decimal t.enabled] (decimal t.total)

/-- `sort.Slice` by an id. -/
def sortByID {R : Type} (id : R → Int) (rows : List R) : List R :=
  rows.insertionSort fun a b => id a ≤ id b

/-- A header and the lines of its rows, before the rest of the text. -/
def headed (header : String) (rows rest : List Char) : List Char := header.toList ++ (rows ++ rest)

namespace MetaTables

/-- What `MetadataFingerprint` hashes (lines 295–315). -/
def fingerprintText (t : MetaTables) : List Char :=
  headed "SOURCES:\n" ((sortByID SourceFP.id (t.liveSources.map SourceRecord.fp)).flatMap SourceFP.line)
    (headed "LOADS:\n" ((sortByID LoadFP.id (t.liveLoads.map LoadRecord.fp)).flatMap LoadFP.line)
      (headed "MODBUS:\n" ((sortByID TagFP.loadID (tagCounts t.modbusRows)).flatMap TagFP.line)
        (headed "OPCUA:\n" ((sortByID TagFP.loadID (tagCounts t.opcuaRows)).flatMap TagFP.line) [])))

/-- Model of `MetadataFingerprint`; `digest` is SHA-256 in hexadecimal. -/
def metadataFingerprint (digest : List Char → String) (t : MetaTables) : String :=
  digest t.fingerprintText

/-- The states agree on every covered field, in whatever order the rows are. -/
structure Agree (t t' : MetaTables) : Prop where
  sources : (t.liveSources.map SourceRecord.fp).Perm (t'.liveSources.map SourceRecord.fp)
  loads : (t.liveLoads.map LoadRecord.fp).Perm (t'.liveLoads.map LoadRecord.fp)
  modbus : ∀ loadID, tagEnabled t.modbusRows loadID = tagEnabled t'.modbusRows loadID ∧
    tagTotal t.modbusRows loadID = tagTotal t'.modbusRows loadID
  opcua : ∀ loadID, tagEnabled t.opcuaRows loadID = tagEnabled t'.opcuaRows loadID ∧
    tagTotal t.opcuaRows loadID = tagTotal t'.opcuaRows loadID

/-- How often `|` occurs in the text fields. -/
def bars (t : MetaTables) : ℕ :=
  ((t.liveSources.map SourceRecord.fp).flatMap SourceFP.texts ++
    (t.liveLoads.map LoadRecord.fp).flatMap LoadFP.texts).flatten.count '|'

end MetaTables

/-! ## Reading the text back -/

theorem decimal_ofNat (m : ℕ) : decimal (.ofNat m) = Nat.toDigits 10 m := by
  simp [decimal, toString, Int.repr, Nat.repr_eq_ofList_toDigits]

theorem decimal_negSucc (m : ℕ) : decimal (.negSucc m) = '-' :: Nat.toDigits 10 (m + 1) := by
  simp [decimal, toString, Int.repr, Nat.repr_eq_ofList_toDigits]

theorem isDigit_of_mem_toDigits {m : ℕ} {c : Char} (h : c ∈ Nat.toDigits 10 m) :
    c.isDigit = true :=
  Nat.isDigit_of_mem_toDigits (by omega) (by omega) h

theorem mem_decimal {n : Int} {c : Char} (h : c ∈ decimal n) : c.isDigit = true ∨ c = '-' := by
  cases n with
  | ofNat m =>
    rw [decimal_ofNat] at h
    exact .inl (isDigit_of_mem_toDigits h)
  | negSucc m =>
    rw [decimal_negSucc] at h
    rcases List.mem_cons.1 h with rfl | h
    · exact .inr rfl
    · exact .inl (isDigit_of_mem_toDigits h)

theorem decimal_ne_nil (n : Int) : decimal n ≠ [] := by
  cases n with
  | ofNat m =>
    rw [decimal_ofNat]
    exact Nat.toDigits_ne_nil
  | negSucc m =>
    rw [decimal_negSucc]
    exact List.cons_ne_nil _ _

theorem decimal_injective : Function.Injective decimal := by
  have hdigits : ∀ {m k : ℕ}, Nat.toDigits 10 m = Nat.toDigits 10 k → m = k := by
    intro m k h
    have hread := congrArg (Nat.ofDigitChars 10 · 0) h
    simpa only [Nat.ofDigitChars_ten_toDigits] using hread
  have hsign : ∀ {m k : ℕ}, Nat.toDigits 10 m ≠ '-' :: Nat.toDigits 10 k := by
    intro m k h
    have hminus : '-' ∈ Nat.toDigits 10 m := by
      rw [h]
      exact List.mem_cons_self
    cases isDigit_of_mem_toDigits hminus
  intro n n' h
  cases n with
  | ofNat m =>
    cases n' with
    | ofNat k =>
      rw [decimal_ofNat, decimal_ofNat] at h
      rw [hdigits h]
    | negSucc k =>
      rw [decimal_ofNat, decimal_negSucc] at h
      exact absurd h hsign
  | negSucc m =>
    cases n' with
    | ofNat k =>
      rw [decimal_ofNat, decimal_negSucc] at h
      exact absurd h.symm hsign
    | negSucc k =>
      rw [decimal_negSucc, decimal_negSucc] at h
      have hmk := hdigits (List.cons.inj h).2
      rw [Nat.succ.inj hmk]

theorem verbBool_injective : Function.Injective verbBool := by
  intro a b h
  cases a <;> cases b <;> first | rfl | cases h

theorem not_mem_decimal {c : Char} (hd : c.isDigit = false) (hm : c ≠ '-') (n : Int) :
    c ∉ decimal n := by
  intro h
  rcases mem_decimal h with h | h
  · rw [hd] at h
    cases h
  · exact hm h

theorem bar_not_mem_decimal (n : Int) : '|' ∉ decimal n :=
  not_mem_decimal (by decide) (by decide) n

theorem newline_not_mem_decimal (n : Int) : '\n' ∉ decimal n :=
  not_mem_decimal (by decide) (by decide) n

theorem bar_not_mem_verbBool (b : Bool) : '|' ∉ verbBool b := by
  cases b <;> decide

theorem newline_not_mem_verbBool (b : Bool) : '\n' ∉ verbBool b := by
  cases b <;> decide

/-- Rows whose fields avoid `|` can be read off their lines. -/
theorem selfDelimiting_line {R : Type} {P : R → Prop} {init : R → List (List Char)}
    {last : R → List Char} (n : ℕ) (hlen : ∀ r, (init r).length = n)
    (hinit : ∀ r, P r → ∀ x ∈ init r, '|' ∉ x) (hlast : ∀ r, '\n' ∉ last r)
    (hinj : ∀ a b, init a = init b → last a = last b → a = b) :
    SelfDelimiting P fun r => line (init r) (last r) := by
  intro a b ha hb s t heq
  obtain ⟨hfields, rfl⟩ := (selfDelimiting_fields '|' n).append (selfDelimiting_field '\n')
    (a := (init a, last a)) (b := (init b, last b)) ⟨⟨hlen a, hinit a ha⟩, hlast a⟩
    ⟨⟨hlen b, hinit b hb⟩, hlast b⟩ heq
  exact ⟨hinj a b (congrArg Prod.fst hfields) (congrArg Prod.snd hfields), rfl⟩

theorem headed_inj {header : String} {rows rows' rest rest' : List Char}
    (h : headed header rows rest = headed header rows' rest') : rows ++ rest = rows' ++ rest' :=
  List.append_cancel_left h

/-- A header is no line of a row. -/
theorem headed_ne_line {header : String} {c : Char} (hc : header.toList.head? = some c)
    (hd : c.isDigit = false ∧ c ≠ '-') (rows rest : List Char) (n : Int) (init : List (List Char))
    (last u : List Char) : headed header rows rest ≠ line (decimal n :: init) last ++ u := by
  obtain ⟨s, hs⟩ := List.head?_eq_some_iff.1 hc
  obtain ⟨d, ds, hdecimal⟩ := List.exists_cons_of_ne_nil (decimal_ne_nil n)
  intro heq
  have hhead : c = d := by
    simp only [headed, hs, line, fields, List.flatMap_cons, hdecimal, List.cons_append] at heq
    exact (List.cons.inj heq).1
  have hmem : d ∈ decimal n := by
    rw [hdecimal]
    exact List.mem_cons_self
  exact not_mem_decimal hd.1 hd.2 n (hhead ▸ hmem)

theorem selfDelimiting_sourceLine :
    SelfDelimiting (fun s : SourceFP => ∀ x ∈ s.texts, '|' ∉ x) SourceFP.line := by
  refine selfDelimiting_line 3 (fun s => rfl) ?_ (fun s => newline_not_mem_verbBool _) ?_
  · intro s hs x hx
    rcases List.mem_append.1 hx with hx | hx
    · rw [List.mem_singleton.1 hx]
      exact bar_not_mem_decimal _
    · exact hs x hx
  · rintro ⟨id, kind, params, enabled⟩ ⟨id', kind', params', enabled'⟩ hinit hlast
    simp only [SourceFP.texts, List.singleton_append, List.cons.injEq, and_true,
      decimal_injective.eq_iff, String.toList_inj] at hinit
    obtain ⟨rfl, rfl, rfl⟩ := hinit
    obtain rfl : enabled = enabled' := verbBool_injective hlast
    rfl

theorem selfDelimiting_loadLine :
    SelfDelimiting (fun l : LoadFP => ∀ x ∈ l.texts, '|' ∉ x) LoadFP.line := by
  refine selfDelimiting_line 11 (fun l => rfl) ?_ (fun l => newline_not_mem_verbBool _) ?_
  · intro l hl x hx
    simp only [List.mem_append, List.mem_cons, List.not_mem_nil, or_false] at hx
    rcases hx with ((rfl | rfl) | hx) | rfl | rfl
    · exact bar_not_mem_decimal _
    · exact bar_not_mem_decimal _
    · exact hl x hx
    · exact bar_not_mem_decimal _
    · exact bar_not_mem_verbBool _
  · intro l l' hinit hlast
    simp only [LoadFP.texts, List.cons_append, List.nil_append, List.cons.injEq, and_true,
      decimal_injective.eq_iff, verbBool_injective.eq_iff, String.toList_inj] at hinit
    obtain ⟨h1, h2, h3, h4, h5, h6, h7, h8, h9, h10, h11⟩ := hinit
    have h12 := verbBool_injective hlast
    cases l
    cases l'
    simp only at h1 h2 h3 h4 h5 h6 h7 h8 h9 h10 h11 h12
    subst h1 h2 h3 h4 h5 h6 h7 h8 h9 h10 h11 h12
    rfl

theorem selfDelimiting_tagLine : SelfDelimiting (fun _ : TagFP => True) TagFP.line := by
  refine selfDelimiting_line 2 (fun t => rfl) ?_ (fun t => newline_not_mem_decimal _) ?_
  · intro t _ x hx
    simp only [List.mem_cons, List.not_mem_nil, or_false] at hx
    rcases hx with rfl | rfl
    · exact bar_not_mem_decimal _
    · exact bar_not_mem_decimal _
  · rintro ⟨id, enabled, total⟩ ⟨id', enabled', total'⟩ hinit hlast
    simp only [List.cons.injEq, and_true, decimal_injective.eq_iff, Int.natCast_inj] at hinit
    obtain ⟨rfl, rfl⟩ := hinit
    have htotal := decimal_injective hlast
    simp only [Int.natCast_inj] at htotal
    rw [htotal]

theorem perm_of_sortByID_eq {R : Type} {id : R → Int} {rows rows' : List R}
    (h : sortByID id rows = sortByID id rows') : rows.Perm rows' := by
  have hperm : ∀ l : List R, (sortByID id l).Perm l := fun l => List.perm_insertionSort _ l
  exact (hperm rows).symm.trans (h ▸ hperm rows')

theorem mem_sortByID {R : Type} {id : R → Int} {rows : List R} {r : R} :
    r ∈ sortByID id rows ↔ r ∈ rows :=
  List.mem_insertionSort _

/-- The count rows of a table give back the counts of every load. -/
theorem counts_eq_of_perm {rows rows' : List (Int × Bool)}
    (h : (tagCounts rows).Perm (tagCounts rows')) (loadID : Int) :
    tagEnabled rows loadID = tagEnabled rows' loadID ∧
      tagTotal rows loadID = tagTotal rows' loadID := by
  have hmem : ∀ {rows : List (Int × Bool)} {c : TagFP}, c ∈ tagCounts rows ↔
      c.loadID ∈ rows.map (·.1) ∧ c.enabled = tagEnabled rows c.loadID ∧
        c.total = tagTotal rows c.loadID := by
    rintro rows ⟨id, enabled, total⟩
    simp only [tagCounts, List.mem_map, List.mem_dedup, TagFP.mk.injEq]
    constructor
    · rintro ⟨id', hid, rfl, rfl, rfl⟩
      exact ⟨hid, rfl, rfl⟩
    · rintro ⟨hid, rfl, rfl⟩
      exact ⟨id, hid, rfl, rfl, rfl⟩
  have hnone : ∀ {rows : List (Int × Bool)}, loadID ∉ rows.map (·.1) →
      tagEnabled rows loadID = 0 ∧ tagTotal rows loadID = 0 := by
    intro rows hnot
    have hne : ∀ r ∈ rows, r.1 ≠ loadID := fun r hr heq => hnot (List.mem_map.2 ⟨r, hr, heq⟩)
    constructor
    · refine List.countP_eq_zero.2 fun r hr => ?_
      simp [hne r hr]
    · refine List.countP_eq_zero.2 fun r hr => ?_
      simp [hne r hr]
  by_cases hid : loadID ∈ rows.map (·.1)
  · have hrow := h.mem_iff.1
      (hmem.2 ⟨hid, rfl, rfl⟩ : (⟨loadID, tagEnabled rows loadID, tagTotal rows loadID⟩ : TagFP) ∈ _)
    exact (hmem.1 hrow).2
  · by_cases hid' : loadID ∈ rows'.map (·.1)
    · have hrow := h.mem_iff.2 (hmem.2 ⟨hid', rfl, rfl⟩ :
        (⟨loadID, tagEnabled rows' loadID, tagTotal rows' loadID⟩ : TagFP) ∈ _)
      exact absurd (hmem.1 hrow).1 hid
    · rw [(hnone hid).1, (hnone hid).2, (hnone hid').1, (hnone hid').2]
      exact ⟨rfl, rfl⟩

namespace MetaTables

/-- No text field of the state holds the separator. -/
theorem bars_eq_zero {t : MetaTables} : t.bars = 0 ↔
    (∀ s ∈ t.liveSources.map SourceRecord.fp, ∀ x ∈ s.texts, '|' ∉ x) ∧
      ∀ l ∈ t.liveLoads.map LoadRecord.fp, ∀ x ∈ l.texts, '|' ∉ x := by
  rw [bars, List.count_eq_zero, List.mem_flatten]
  simp only [List.mem_append, List.mem_flatMap]
  constructor
  · intro h
    exact ⟨fun s hs x hx hbar => h ⟨x, .inl ⟨s, hs, hx⟩, hbar⟩,
      fun l hl x hx hbar => h ⟨x, .inr ⟨l, hl, hx⟩, hbar⟩⟩
  · rintro ⟨hsources, hloads⟩ ⟨x, ⟨s, hs, hx⟩ | ⟨l, hl, hx⟩, hbar⟩
    · exact hsources s hs x hx hbar
    · exact hloads l hl x hx hbar

/-- States without `|` in their text fields are told apart by their texts. -/
theorem agree_of_fingerprintText_eq {t t' : MetaTables} (ht : t.bars = 0) (ht' : t'.bars = 0)
    (h : t.fingerprintText = t'.fingerprintText) : t.Agree t' := by
  obtain ⟨hsources, hloads⟩ := bars_eq_zero.1 ht
  obtain ⟨hsources', hloads'⟩ := bars_eq_zero.1 ht'
  have hL : "LOADS:\n".toList.head? = some 'L' := by decide
  have hM : "MODBUS:\n".toList.head? = some 'M' := by decide
  have hO : "OPCUA:\n".toList.head? = some 'O' := by decide
  -- section after section, each ends where the header of the next begins
  obtain ⟨hs, h⟩ := selfDelimiting_sourceLine.list (headed_inj h)
    (fun s hs => hsources s (mem_sortByID.1 hs)) (fun s hs => hsources' s (mem_sortByID.1 hs))
    (fun s u _ => headed_ne_line hL (by decide) _ _ s.id _ _ u)
    (fun s u _ => headed_ne_line hL (by decide) _ _ s.id _ _ u)
  obtain ⟨hl, h⟩ := selfDelimiting_loadLine.list (headed_inj h)
    (fun l hl => hloads l (mem_sortByID.1 hl)) (fun l hl => hloads' l (mem_sortByID.1 hl))
    (fun l u _ => headed_ne_line hM (by decide) _ _ l.id _ _ u)
    (fun l u _ => headed_ne_line hM (by decide) _ _ l.id _ _ u)
  obtain ⟨hm, h⟩ := selfDelimiting_tagLine.list (headed_inj h) (fun _ _ => trivial)
    (fun _ _ => trivial) (fun c u _ => headed_ne_line hO (by decide) _ _ c.loadID _ _ u)
    (fun c u _ => headed_ne_line hO (by decide) _ _ c.loadID _ _ u)
  have hend : ∀ (c : TagFP) (u : List Char), True → [] ≠ c.line ++ u := by
    intro c u _ hnil
    simp [TagFP.line, line] at hnil
  obtain ⟨ho, -⟩ := selfDelimiting_tagLine.list (headed_inj h) (fun _ _ => trivial)
    (fun _ _ => trivial) hend hend
  exact ⟨perm_of_sortByID_eq hs, perm_of_sortByID_eq hl,
    counts_eq_of_perm (perm_of_sortByID_eq hm), counts_eq_of_perm (perm_of_sortByID_eq ho)⟩

end MetaTables

/-! ## States that share a text -/

/-- `c'` can stand for `c` without a change in the text. -/
structure Rewords {R : Type} (id : R → Int) (line : R → List Char) (texts : R → List (List Char))
    (c c' : R) : Prop where
  ne : c' ≠ c
  id : id c' = id c
  line : line c' = line c
  bars : (texts c').flatten.count '|' = (texts c).flatten.count '|'

theorem count_flatten_eq_of_fields_eq {xs ys : List (List Char)} (hlen : ys.length = xs.length)
    (h : fields '|' ys = fields '|' xs) : ys.flatten.count '|' = xs.flatten.count '|' := by
  have hcount := congrArg (List.count '|') h
  rw [count_fields, count_fields, hlen] at hcount
  omega

theorem SourceFP.exists_rewords {c : SourceFP} (h : ∃ x ∈ c.texts, '|' ∈ x) :
    ∃ c', Rewords SourceFP.id SourceFP.line SourceFP.texts c c' := by
  obtain ⟨ys, hlen, hne, hfields⟩ := exists_shift (by simp [SourceFP.texts]) h
  obtain ⟨kind, params, rfl⟩ := List.length_eq_two.1 (hlen.trans rfl)
  refine ⟨{ c with kind := .ofList kind, paramsJSON := .ofList params }, ?_, rfl, ?_, ?_⟩
  · intro heq
    refine hne (Eq.trans ?_ (congrArg SourceFP.texts heq))
    simp [SourceFP.texts]
  · simp only [SourceFP.line, DataLoader.line, SourceFP.texts, fields, List.flatMap_append,
      String.toList_ofList] at hfields ⊢
    rw [hfields]
  · simpa [SourceFP.texts] using count_flatten_eq_of_fields_eq hlen hfields

theorem LoadFP.exists_rewords {c : LoadFP} (h : ∃ x ∈ c.texts, '|' ∈ x) :
    ∃ c', Rewords LoadFP.id LoadFP.line LoadFP.texts c c' := by
  obtain ⟨ys, hlen, hne, hfields⟩ := exists_shift (by simp [LoadFP.texts]) h
  obtain ⟨cron, mode, column, type, object, schema, table, rfl⟩ : ∃ cron mode column type object
      schema table, ys = [cron, mode, column, type, object, schema, table] := by
    match ys, hlen with
    | [cron, mode, column, type, object, schema, table], _ => exact ⟨_, _, _, _, _, _, _, rfl⟩
  refine ⟨{ c with
    cronExpression := .ofList cron, mode := .ofList mode, watermarkColumn := .ofList column
    watermarkType := .ofList type, objectName := .ofList object, targetSchema := .ofList schema
    targetTable := .ofList table }, ?_, rfl, ?_, ?_⟩
  · intro heq
    refine hne (Eq.trans ?_ (congrArg LoadFP.texts heq))
    simp [LoadFP.texts]
  · simp only [LoadFP.line, DataLoader.line, LoadFP.texts, fields, List.flatMap_append,
      String.toList_ofList] at hfields ⊢
    rw [hfields]
  · simpa [LoadFP.texts] using count_flatten_eq_of_fields_eq hlen hfields

section Rewords

variable {R : Type} [DecidableEq R] {id : R → Int} {line : R → List Char}
  {texts : R → List (List Char)} {c c' : R} (h : Rewords id line texts c c') (rows : List R)

include h

theorem Rewords.sort : sortByID id (rows.map (Function.update (fun r => r) c c')) =
    (sortByID id rows).map (Function.update (fun r => r) c c') := by
  have hid : ∀ r, id (Function.update (fun r => r) c c' r) = id r := by
    intro r
    by_cases hr : r = c
    · subst hr
      rw [Function.update_self, h.id]
    · rw [Function.update_of_ne hr]
  refine (List.map_insertionSort _ _ _ _ fun a _ b _ => ?_).symm
  rw [hid, hid]

theorem Rewords.text : (rows.map (Function.update (fun r => r) c c')).flatMap line =
    rows.flatMap line := by
  rw [List.flatMap_map]
  congr 1
  funext r
  by_cases hr : r = c
  · subst hr
    rw [Function.update_self, h.line]
  · rw [Function.update_of_ne hr]

theorem Rewords.count : ((rows.map (Function.update (fun r => r) c c')).flatMap texts).flatten.count
    '|' = (rows.flatMap texts).flatten.count '|' := by
  induction rows with
  | nil => rfl
  | cons r rows ih =>
    simp only [List.map_cons, List.flatMap_cons, List.flatten_append, List.count_append, ih]
    by_cases hr : r = c
    · subst hr
      rw [Function.update_self, h.bars]
    · rw [Function.update_of_ne hr]

theorem Rewords.not_perm (hc : c ∈ rows) :
    ¬ (rows.map (Function.update (fun r => r) c c')).Perm rows := by
  intro hperm
  obtain ⟨r, -, hr⟩ := List.mem_map.1 (hperm.mem_iff.2 hc)
  by_cases heq : r = c
  · subst heq
    rw [Function.update_self] at hr
    exact h.ne hr
  · rw [Function.update_of_ne heq] at hr
    exact heq hr

end Rewords

/-- The row with other covered fields. -/
def SourceRecord.setFP (s : SourceRecord) (p : SourceFP) : SourceRecord :=
  { s with id := p.id, kind := p.kind, paramsJSON := p.paramsJSON, isEnabled := p.isEnabled }

def LoadRecord.setFP (l : LoadRecord) (p : LoadFP) : LoadRecord :=
  { l with
    id := p.id, sourceID := p.sourceID, cronExpression := p.cronExpression, mode := p.mode
    watermarkColumn := p.watermarkColumn, watermarkType := p.watermarkType
    objectName := p.objectName, targetSchema := p.targetSchema, targetTable := p.targetTable
    batchSize := p.batchSize, autoCreateTable := p.autoCreateTable, isEnabled := p.isEnabled }

namespace MetaTables

/-- The state in which every source row that shows `c` shows `c'`. -/
def rewordSource (t : MetaTables) (c c' : SourceFP) : MetaTables :=
  { t with sources := t.sources.map fun s => s.setFP (Function.update (fun p => p) c c' s.fp) }

def rewordLoad (t : MetaTables) (c c' : LoadFP) : MetaTables :=
  { t with loads := t.loads.map fun l => l.setFP (Function.update (fun p => p) c c' l.fp) }

theorem fp_liveSources_rewordSource (t : MetaTables) (c c' : SourceFP) :
    (t.rewordSource c c').liveSources.map SourceRecord.fp =
      (t.liveSources.map SourceRecord.fp).map (Function.update (fun p => p) c c') := by
  simp only [rewordSource, liveSources, List.filter_map, List.map_map]
  rfl

theorem fp_liveLoads_rewordLoad (t : MetaTables) (c c' : LoadFP) :
    (t.rewordLoad c c').liveLoads.map LoadRecord.fp =
      (t.liveLoads.map LoadRecord.fp).map (Function.update (fun p => p) c c') := by
  simp only [rewordLoad, liveLoads, List.filter_map, List.map_map]
  rfl

/-- A state with `|` in a text field shares its text with one that differs from it,
    and that has as many of them. -/
theorem exists_collision {t : MetaTables} (h : t.bars ≠ 0) : ∃ t' : MetaTables,
    t'.bars = t.bars ∧ t'.fingerprintText = t.fingerprintText ∧ ¬ t'.Agree t := by
  have hsome : (∃ s ∈ t.liveSources.map SourceRecord.fp, ∃ x ∈ s.texts, '|' ∈ x) ∨
      ∃ l ∈ t.liveLoads.map LoadRecord.fp, ∃ x ∈ l.texts, '|' ∈ x := by
    by_contra hnone
    simp only [not_or, not_exists, not_and] at hnone
    exact h (bars_eq_zero.2 hnone)
  rcases hsome with ⟨c, hc, hbar⟩ | ⟨c, hc, hbar⟩
  · obtain ⟨c', hrewords⟩ := SourceFP.exists_rewords hbar
    refine ⟨t.rewordSource c c', ?_, ?_, fun hagree => ?_⟩
    · rw [bars, bars, fp_liveSources_rewordSource, List.flatten_append, List.count_append,
        hrewords.count, List.flatten_append, List.count_append]
      rfl
    · rw [fingerprintText, fp_liveSources_rewordSource, hrewords.sort, hrewords.text]
      rfl
    · have hperm := hagree.sources
      rw [fp_liveSources_rewordSource] at hperm
      exact hrewords.not_perm _ hc hperm
  · obtain ⟨c', hrewords⟩ := LoadFP.exists_rewords hbar
    refine ⟨t.rewordLoad c c', ?_, ?_, fun hagree => ?_⟩
    · rw [bars, bars, fp_liveLoads_rewordLoad, List.flatten_append, List.count_append,
        hrewords.count, List.flatten_append, List.count_append]
      rfl
    · rw [fingerprintText, fp_liveLoads_rewordLoad, hrewords.sort, hrewords.text]
      rfl
    · have hperm := hagree.loads
      rw [fp_liveLoads_rewordLoad] at hperm
      exact hrewords.not_perm _ hc hperm

/-- A state without `|` in its text fields agrees on the covered fields with every other such
    state of the same text. A state with `|` in one shares its text with another that has as
    many of them and differs from it in a covered field. -/
theorem fingerprint_covers_unbarred (t : MetaTables) :
    (t.bars = 0 → ∀ t' : MetaTables, t'.bars = 0 → t.fingerprintText = t'.fingerprintText →
      t.Agree t') ∧
    (t.bars ≠ 0 → ∃ t' : MetaTables,
      t'.bars = t.bars ∧ t'.fingerprintText = t.fingerprintText ∧ ¬ t'.Agree t) :=
  ⟨fun ht _ ht' htext => agree_of_fingerprintText_eq ht ht' htext, exists_collision⟩

/-- One load, and a watermark column with `|`. -/
def barredColumn : MetaTables where
  loads := [⟨1, 1, "l", "v", "dbo", "t", "delta", "a|b", "numeric", 100, true, "@daily", true,
    false⟩]

/-- The same load, with another column and another type. -/
def barredType : MetaTables where
  loads := [⟨1, 1, "l", "v", "dbo", "t", "delta", "a", "b|numeric", 100, true, "@daily", true,
    false⟩]

theorem barred_fingerprints_collide :
    barredColumn.fingerprintText = barredType.fingerprintText ∧ ¬ barredColumn.Agree barredType := by
  refine ⟨by decide +kernel, fun h => ?_⟩
  have hmem : LoadRecord.fp ⟨1, 1, "l", "v", "dbo", "t", "delta", "a|b", "numeric", 100, true, "@daily",
      true, false⟩ ∈ barredType.liveLoads.map LoadRecord.fp :=
    h.loads.mem_iff.1 (by decide +kernel)
  revert hmem
  decide +kernel

end MetaTables

end DataLoader
