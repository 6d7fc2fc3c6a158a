import DataLoader.Codec.Delimited
import DataLoader.GoText
import DataLoader.Pipeline.Pool
import Mathlib.Data.List.Dedup
import Mathlib.Data.List.Sort

/-!
# The identity of a pooled source

Model of `ParamsFingerprint` (`internal/pipeline/session.go`, lines 57–74). A
`map[string]string` is an association list in which the first pair of a key
counts. `paramsText_inj`: without NUL characters, the text that is hashed gives
back the kind up to letter case and the map.
-/

namespace DataLoader

open Codec

/-- The keys of the map, sorted (lines 59–63). The order of the bytes of UTF-8 is
    that of the characters. -/
def sortedKeys (params : Params) : List String :=
  (params.map (·.1)).dedup.insertionSort (· ≤ ·)

variable [GoText]

/-- What `ParamsFingerprint` hashes. -/
def paramsText (kind : String) (params : Params) : List Char :=
  fields '\x00' ((GoText.toLower kind).toList ::
    (sortedKeys params).flatMap fun k => [k.toList, ((params.lookup k).getD "").toList])

/-- Model of `ParamsFingerprint`; `digest` is SHA-256 in hexadecimal. -/
def paramsFingerprint (digest : List Char → String) (kind : String) (params : Params) : String :=
  digest (paramsText kind params)

/-- No NUL character in the kind, in a key or in a value. -/
def SourceConfig.plain (cfg : SourceConfig) : Bool :=
  !cfg.sourceType.toList.contains '\x00' &&
    cfg.params.all fun kv => !kv.1.toList.contains '\x00' && !kv.2.toList.contains '\x00'

/-- The same kind up to letter case, and the same map. -/
structure SourceConfig.Same (cfg cfg' : SourceConfig) : Prop where
  kind : GoText.toLower cfg.sourceType = GoText.toLower cfg'.sourceType
  params : ∀ k, cfg.params.lookup k = cfg'.params.lookup k

/-! ## Reading the text back -/

omit [GoText] in
theorem mem_sortedKeys {params : Params} {k : String} :
    k ∈ sortedKeys params ↔ k ∈ params.map (·.1) := by
  rw [sortedKeys, List.mem_insertionSort, List.mem_dedup]

omit [GoText] in
theorem lookup_eq_none_iff {params : Params} {k : String} :
    params.lookup k = none ↔ k ∉ params.map (·.1) := by
  rw [List.lookup_eq_none_iff]
  constructor
  · intro h hk
    obtain ⟨kv, hkv, rfl⟩ := List.mem_map.1 hk
    simpa using h kv hkv
  · intro h kv hkv
    simpa using fun heq : k = kv.1 => h (List.mem_map.2 ⟨kv, hkv, heq.symm⟩)

omit [GoText] in
/-- Keys and values in turn. -/
theorem flatMap_pair_inj {α β : Type} {a : α → β} (ha : Function.Injective a) {f g : α → β}
    {ks ls : List α}
    (h : (ks.flatMap fun k => [a k, f k]) = ls.flatMap fun k => [a k, g k]) :
    ks = ls ∧ ∀ k ∈ ks, f k = g k := by
  induction ks generalizing ls with
  | nil =>
    cases ls with
    | nil => exact ⟨rfl, by simp⟩
    | cons l ls => cases h
  | cons k ks ih =>
    cases ls with
    | nil => cases h
    | cons l ls =>
      simp only [List.flatMap_cons, List.cons_append, List.nil_append, List.cons.injEq] at h
      obtain ⟨hkl, hval, hrest⟩ := h
      obtain rfl := ha hkl
      obtain ⟨rfl, hvals⟩ := ih hrest
      refine ⟨rfl, fun x hx => ?_⟩
      rcases List.mem_cons.1 hx with rfl | hx
      · exact hval
      · exact hvals x hx

/-- The fields of a configuration without NUL characters have none. -/
theorem nul_not_mem_of_plain {cfg : SourceConfig} (h : cfg.plain = true) :
    ∀ x ∈ (GoText.toLower cfg.sourceType).toList :: (sortedKeys cfg.params).flatMap
      (fun k => [k.toList, ((cfg.params.lookup k).getD "").toList]), '\x00' ∉ x := by
  simp only [SourceConfig.plain, Bool.and_eq_true, Bool.not_eq_true', List.contains_eq_mem,
    decide_eq_false_iff_not, List.all_eq_true] at h
  obtain ⟨hkind, hparams⟩ := h
  intro x hx
  rcases List.mem_cons.1 hx with rfl | hx
  · exact fun hnul => hkind (GoText.toLower_nul _ hnul)
  · obtain ⟨k, hk, hx⟩ := List.mem_flatMap.1 hx
    obtain ⟨kv, hkv, rfl⟩ := List.mem_map.1 (mem_sortedKeys.1 hk)
    simp only [List.mem_cons, List.not_mem_nil, or_false] at hx
    rcases hx with rfl | rfl
    · exact (hparams kv hkv).1
    · cases hlook : cfg.params.lookup kv.1 with
      | none => simp
      | some v =>
        obtain ⟨l₁, l₂, heq, -⟩ := List.lookup_eq_some_iff.1 hlook
        have hmem : (kv.1, v) ∈ cfg.params := by
          rw [heq]
          simp
        exact (hparams (kv.1, v) hmem).2

theorem paramsText_inj {cfg cfg' : SourceConfig} (h : cfg.plain = true) (h' : cfg'.plain = true)
    (htext : paramsText cfg.sourceType cfg.params = paramsText cfg'.sourceType cfg'.params) :
    cfg.Same cfg' := by
  have hfields := fields_injective (nul_not_mem_of_plain h) (nul_not_mem_of_plain h') htext
  obtain ⟨hkind, hpairs⟩ := List.cons.inj hfields
  obtain ⟨hkeys, hvals⟩ := flatMap_pair_inj (fun _ _ => String.toList_injective) hpairs
  refine ⟨String.toList_injective hkind, fun k => ?_⟩
  have hmem : k ∈ cfg.params.map (·.1) ↔ k ∈ cfg'.params.map (·.1) := by
    rw [← mem_sortedKeys, hkeys, mem_sortedKeys]
  by_cases hk : k ∈ cfg.params.map (·.1)
  · have hval := String.toList_injective (hvals k (mem_sortedKeys.2 hk))
    cases hl : cfg.params.lookup k with
    | none => exact absurd hk (lookup_eq_none_iff.1 hl)
    | some v =>
      cases hl' : cfg'.params.lookup k with
      | none => exact absurd (hmem.1 hk) (lookup_eq_none_iff.1 hl')
      | some v' =>
        rw [hl, hl'] at hval
        exact congrArg some hval
  · rw [lookup_eq_none_iff.2 hk, lookup_eq_none_iff.2 fun hk' => hk (hmem.2 hk')]

end DataLoader
