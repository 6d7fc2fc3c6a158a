import Mathlib.Data.List.OfFn
import DataLoader.Codec.Hex
import DataLoader.Sink.Mssql
import DataLoader.Sources.Sqlserver

/-!
# GUIDs from source to sink

The SQL Server source turns the sixteen stored bytes of a UNIQUEIDENTIFIER into text, and
the sink turns the text into a `mssql.UniqueIdentifier`, which the driver writes out as
sixteen bytes.

* `UniqueIdentifier.Scans`, `UniqueIdentifier.Values`: what is assumed of the driver's `Scan`
  and `Value`.
* `guid_round_trip`: the bytes that are written are the bytes that were read.
-/

namespace DataLoader

namespace UniqueIdentifier

/-- A hyphenated text of 36 characters, read in textual order. -/
def parse (s : List UInt8) : Option (List UInt8) := Codec.decodeGroups 45 [4, 2, 2, 2, 6] s

/-- `Scan` of a hyphenated text fills the array in textual order. -/
def Scans [GoLib] : Prop := ∀ s g, parse s = some g → GoLib.scanGUID s = .ok g

/-- The storage order of a GUID in textual order: the first three groups are reversed. -/
def stored (g : List UInt8) : List UInt8 :=
  (g.take 4).reverse ++ ((g.drop 4).take 2).reverse ++ ((g.drop 6).take 2).reverse ++ g.drop 8

/-- `Value`, the bytes on the wire, swaps the groups back to storage order. -/
def Values (value : List UInt8 → List UInt8) : Prop := ∀ g, g.length = 16 → value g = stored g

/-- A hyphen or an upper-case hexadecimal digit. -/
def IsCanonicalChar (c : UInt8) : Prop := c = 45 ∨ 48 ≤ c ∧ c ≤ 57 ∨ 65 ≤ c ∧ c ≤ 70

/-- The canonical text of the GUID `g`. -/
structure Canonical (g s : List UInt8) : Prop where
  parses : parse s = some g
  length : s.length = 36
  chars : ∀ c ∈ s, IsCanonicalChar c

end UniqueIdentifier

namespace Sqlserver

open UniqueIdentifier

/-- A digit of `%X`. -/
theorem hexVal_digit {n : UInt8} (hn : n < 16) :
    Codec.hexVal (if n < 10 then 48 + n else 55 + n) = some n := by
  have hall : ∀ k : Fin 16, Codec.hexVal (if UInt8.ofNat k < 10 then 48 + UInt8.ofNat k
      else 55 + UInt8.ofNat k) = some (UInt8.ofNat k) := by decide
  have hnat : n.toNat < 16 := hn
  have hdigit := hall ⟨n.toNat, hnat⟩
  simpa using hdigit

theorem hexByte_writesHex : Codec.WritesHex hexByte := fun b =>
  ⟨_, _, rfl, hexVal_digit (Codec.highDigit_lt b), hexVal_digit (Codec.lowDigit_lt b)⟩

theorem digit_canonical {n : UInt8} (hn : n < 16) :
    IsCanonicalChar (if n < 10 then 48 + n else 55 + n) := by
  have hnat : n.toNat < 16 := hn
  unfold IsCanonicalChar
  split_ifs with h <;> simp only [UInt8.lt_iff_toNat_lt, UInt8.le_iff_toNat_le, UInt8.toNat_add,
    UInt8.reduceToNat] at h ⊢ <;> omega

theorem hexByte_canonical (bs : List UInt8) : ∀ c ∈ bs.flatMap hexByte, IsCanonicalChar c := by
  intro c hc
  obtain ⟨b, -, hc⟩ := List.mem_flatMap.1 hc
  rcases List.mem_cons.1 hc with rfl | hc
  · exact digit_canonical (Codec.highDigit_lt b)
  · obtain rfl := List.mem_singleton.1 hc
    exact digit_canonical (Codec.lowDigit_lt b)

/-- Sixteen bytes one by one. -/
theorem exists_bytes {b : List UInt8} (hb : b.length = 16) :
    ∃ f : Fin 16 → UInt8, b = [f 0, f 1, f 2, f 3, f 4, f 5, f 6, f 7, f 8, f 9, f 10, f 11,
      f 12, f 13, f 14, f 15] := by
  refine ⟨fun i => b.get (i.cast hb.symm), ?_⟩
  calc b = List.ofFn b.get := (List.ofFn_get b).symm
    _ = List.ofFn fun i : Fin 16 => b.get (i.cast hb.symm) := List.ofFn_congr hb _
    _ = _ := rfl

/-- What `formatMSSQLGUID` writes for sixteen stored bytes. -/
theorem formatMSSQLGUID_canonical {b : List UInt8} (hb : b.length = 16) :
    ∃ s g, formatMSSQLGUID b = .ok s ∧ Canonical g s ∧ g.length = 16 ∧ stored g = b := by
  obtain ⟨f, rfl⟩ := exists_bytes hb
  refine ⟨_, [f 3, f 2, f 1, f 0, f 5, f 4, f 7, f 6, f 8, f 9, f 10, f 11, f 12, f 13, f 14, f 15],
    rfl, ⟨?_, rfl, ?_⟩, rfl, rfl⟩
  · exact Codec.decodeGroups_intercalate hexByte_writesHex 45 [f 3, f 2, f 1, f 0]
      [[f 5, f 4], [f 7, f 6], [f 8, f 9], [f 10, f 11, f 12, f 13, f 14, f 15]]
  · have hhyphen : ∀ c ∈ ([45] : List UInt8), IsCanonicalChar c := by simp [IsCanonicalChar]
    simp only [List.forall_mem_append]
    exact ⟨⟨⟨⟨⟨⟨⟨⟨hexByte_canonical _, hhyphen⟩, hexByte_canonical _⟩, hhyphen⟩,
      hexByte_canonical _⟩, hhyphen⟩, hexByte_canonical _⟩, hhyphen⟩, hexByte_canonical _⟩

end Sqlserver

section

variable [GoLib]

open UniqueIdentifier

/-- Every stored GUID becomes a canonical text, and the sink turns the text into a GUID
    that is written with the same bytes. No two GUIDs have the same text. -/
theorem guid_round_trip (hscan : Scans) {value : List UInt8 → List UInt8} (hvalue : Values value)
    {b : List UInt8} (hb : b.length = 16) {c : Column} (hc : c.dataType = "guid") :
    ∃ s g, Sqlserver.formatMSSQLGUID b = .ok s ∧
      Sqlserver.normalizeValue (.bytes b) "guid" = .text s ∧ Canonical g s ∧
      Mssql.prepareValue c (.text s) = .ok (.guid g) ∧ value g = b ∧
      ∀ b', b'.length = 16 → Sqlserver.normalizeValue (.bytes b') "guid" = .text s → b' = b := by
  have hnormal : ∀ {b s}, Sqlserver.formatMSSQLGUID b = .ok s →
      Sqlserver.normalizeValue (.bytes b) "guid" = .text s := by
    intro b s hs
    simp [Sqlserver.normalizeValue, hs]
  obtain ⟨s, g, hs, hcanonical, hlen, hstored⟩ := Sqlserver.formatMSSQLGUID_canonical hb
  refine ⟨s, g, hs, hnormal hs, hcanonical, ?_, (hvalue g hlen).trans hstored, fun b' hb' hs' => ?_⟩
  · rw [Mssql.prepareValue, if_pos hc, Mssql.toGUID, hscan s g hcanonical.parses]
    rfl
  · obtain ⟨s₂, g₂, hs₂, hcanonical₂, -, hstored₂⟩ := Sqlserver.formatMSSQLGUID_canonical hb'
    obtain rfl : s₂ = s := Value.text.inj ((hnormal hs₂).symm.trans hs')
    have hsame : g₂ = g := Option.some.inj (hcanonical₂.parses.symm.trans hcanonical.parses)
    rw [← hstored₂, hsame, hstored]

end

/-- A library whose `Scan` reads hyphenated texts. -/
@[reducible] def GoLib.guids : GoLib :=
  { GoLib.ascii with
    scanGUID := fun s => (UniqueIdentifier.parse s).elim
      (.error "mssql: invalid UniqueIdentifier string") .ok }

section

attribute [local instance] GoLib.guids

/-- The bytes from zero to fifteen. -/
theorem guid_round_trip_ascending :
    ∃ s g, Sqlserver.normalizeValue (.bytes (List.range 16 |>.map UInt8.ofNat)) "guid" = .text s ∧
      Mssql.prepareValue ⟨"id", "guid", false⟩ (.text s) = .ok (.guid g) ∧
      UniqueIdentifier.stored g = (List.range 16).map UInt8.ofNat := by
  have hscan : UniqueIdentifier.Scans := by
    intro s g hg
    change (UniqueIdentifier.parse s).elim _ _ = _
    rw [hg]
    rfl
  obtain ⟨s, g, -, hs, -, hprepare, hvalue, -⟩ := guid_round_trip hscan (fun _ _ => rfl)
    (b := (List.range 16).map UInt8.ofNat) (c := ⟨"id", "guid", false⟩) rfl rfl
  exact ⟨s, g, hs, hprepare, hvalue⟩

/-- The text in the comment of `formatMSSQLGUID`. -/
example : Sqlserver.normalizeValue (.bytes [0x07, 0x7b, 0x02, 0xa7, 0xbc, 0x49, 0x66, 0x47, 0xa2, 0x83,
    0x4b, 0x77, 0x6d, 0xfa, 0x74, 0xda]) "guid" =
    .ofString "A7027B07-49BC-4766-A283-4B776DFA74DA" := by decide +kernel

end

end DataLoader
