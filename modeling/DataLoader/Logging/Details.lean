import DataLoader.Logging.Derived
import Mathlib.Data.List.Induction

/-!
# What the details keep of a record

The attributes without a column of their own are stored as one JSON object, so that a
reader of the table finds each under its key. `recovered` reads a stored text that way.
An attribute is lost if

* another attribute of the record has no JSON: then the whole object is left out;
* it is an error whose JSON is not its message, as for the errors of package `errors`;
* its key or its text is not valid UTF-8, or another key becomes the same one when its
  stray bytes are replaced.

Otherwise it is found (`details_recovered_iff`).
-/

namespace DataLoader.Logging

open Codec

/-! ## Reading the details -/

/-- A value as a reader of the details knows it. -/
inductive Scalar
  | text (s : GoString)
  | int (n : Int)
  | bool (b : Bool)
  deriving DecidableEq, Repr

/-- What a string, an integer, a boolean or an error says. -/
def LogValue.scalar : LogValue → Option Scalar
  | .string s => some (.text s)
  | .int64 n => some (.int n.toInt)
  | .uint64 n => some (.int n.toNat)
  | .bool b => some (.bool b)
  | .error message _ => some (.text message)
  | .float64 .. => none
  | .other _ => none

def readScalar : Json → Option Scalar
  | .str s => some (.text s)
  | .num n => n.toInt?.map .int
  | .bool b => some (.bool b)
  | _ => none

/-- The members under a key. -/
def membersAt (k : GoString) : Json → List Json
  | .obj ms => (ms.filter fun m => m.1 = k).map (·.2)
  | _ => []

def readOnly : List Json → Option Scalar
  | [j] => readScalar j
  | _ => none

/-- What a reader finds under a key: the text is decoded, and the key is there once. -/
def recovered (details : String) (k : GoString) : Option Scalar :=
  (Json.decode details.toList).bind fun j => readOnly (membersAt k j)

theorem readOnly_eq_some {js : List Json} {x : Scalar} :
    readOnly js = some x ↔ ∃ j, js = [j] ∧ readScalar j = some x := by
  constructor
  · intro h
    unfold readOnly at h
    split at h
    · next j => exact ⟨j, rfl, h⟩
    · cases h
  · rintro ⟨j, rfl, h⟩
    exact h

/-! ## The map -/

/-- The value that is stored under a key: that of the last attribute, unless the key has
    a column of its own. -/
def stored (attrs : List Attr) (k : GoString) : Option LogValue :=
  if k ∈ promotedKeys then none
  else (attrs.filter fun a => a.key = k).getLast?.map fun a => a.value.resolve

theorem apply_details (f : Filling) (a : Attr) :
    (apply f a).details =
      if a.key ∈ promotedKeys then f.details else f.details.insert a.key a.value.resolve := by
  unfold apply promotedKeys
  simp only [List.mem_cons, List.not_mem_nil, or_false]
  split_ifs <;> simp_all

theorem apply_entry_details (f : Filling) (a : Attr) :
    (apply f a).entry.details = f.entry.details := by
  unfold apply
  dsimp only
  split_ifs <;> rfl

theorem foldl_apply_entry_details (attrs : List Attr) (f : Filling) :
    (attrs.foldl apply f).entry.details = f.entry.details := by
  induction attrs generalizing f with
  | nil => rfl
  | cons a attrs ih => rw [List.foldl_cons, ih, apply_entry_details]

theorem stored_append (attrs : List Attr) (a : Attr) (k : GoString) :
    stored (attrs ++ [a]) k =
      if a.key = k ∧ k ∉ promotedKeys then some a.value.resolve else stored attrs k := by
  unfold stored
  by_cases hkey : a.key = k <;> by_cases hpromoted : k ∈ promotedKeys <;> simp [hkey, hpromoted]

/-- The map after the pass. -/
theorem lookup_foldl_apply (attrs : List Attr) (r : Record) (k : GoString) :
    (attrs.foldl apply r.filling).details.lookup k = stored attrs k := by
  induction attrs using List.reverseRecOn with
  | nil => simp [stored, Record.filling]
  | append_singleton attrs a ih =>
    rw [List.foldl_append, List.foldl_cons, List.foldl_nil, apply_details, stored_append]
    by_cases hkey : a.key = k
    · subst hkey
      by_cases hpromoted : a.key ∈ promotedKeys
      · rw [if_pos hpromoted, if_neg fun h => h.2 hpromoted, ih]
      · rw [if_neg hpromoted, if_pos ⟨rfl, hpromoted⟩, AList.lookup_insert]
    · have hother : ¬ (a.key = k ∧ k ∉ promotedKeys) := fun h => hkey h.1
      rw [if_neg hother, ← ih]
      split_ifs
      · rfl
      · exact AList.lookup_insert_ne (Ne.symm hkey)

/-! ## The text -/

theorem mem_sortedEntries {d : Details} {e : Σ _ : GoString, LogValue} :
    e ∈ sortedEntries d ↔ d.lookup e.1 = some e.2 := by
  rw [sortedEntries, List.mem_insertionSort]
  exact AList.mem_lookup_iff.symm

theorem nodup_sortedEntries (d : Details) : (sortedEntries d).Nodup :=
  (List.perm_insertionSort _ _).nodup_iff.2 d.nodupKeys.nodup

/-- A map whose values can all be encoded. -/
def Marshals (d : Details) : Prop := ∀ k v, d.lookup k = some v → v.json ≠ none

/-- A member of the object. -/
def member (e : Σ _ : GoString, LogValue) : GoString × Json := (e.1, e.2.json.getD .null)

theorem mapM_eq_map {α β : Type} {f : α → Option β} {g : α → β} {l : List α}
    (h : ∀ x ∈ l, f x = some (g x)) : l.mapM f = some (l.map g) := by
  induction l with
  | nil => rfl
  | cons x l ih =>
    obtain ⟨hx, hl⟩ := List.forall_mem_cons.1 h
    rw [List.mapM_cons, hx, ih hl]
    rfl

theorem mapM_eq_none {α β : Type} {f : α → Option β} {l : List α} {x : α} (hx : x ∈ l)
    (h : f x = none) : l.mapM f = none := by
  induction l with
  | nil => exact absurd hx List.not_mem_nil
  | cons y l ih =>
    rw [List.mapM_cons]
    rcases List.mem_cons.1 hx with rfl | hx
    · rw [h]
      rfl
    · rw [ih hx]
      cases f y <;> rfl

theorem Marshals.members_eq {d : Details} (h : Marshals d) :
    members d = some ((sortedEntries d).map member) := by
  refine mapM_eq_map fun e he => ?_
  obtain ⟨j, hj⟩ := Option.ne_none_iff_exists'.1 (h e.1 e.2 (mem_sortedEntries.1 he))
  rw [member, hj, Option.map_some, Option.getD_some]

theorem members_eq_none {d : Details} (h : ¬ Marshals d) : members d = none := by
  simp only [Marshals, not_forall, not_not] at h
  obtain ⟨k, v, hl, hv⟩ := h
  have hmem : (⟨k, v⟩ : Σ _ : GoString, LogValue) ∈ sortedEntries d := mem_sortedEntries.2 hl
  refine mapM_eq_none hmem ?_
  rw [hv, Option.map_none]

/-- The entries whose keys are read as `k`. -/
def entriesAt (d : Details) (k : GoString) : List (Σ _ : GoString, LogValue) :=
  (sortedEntries d).filter fun e => e.1.replaced = k

theorem mem_entriesAt {d : Details} {k : GoString} {e : Σ _ : GoString, LogValue} :
    e ∈ entriesAt d k ↔ d.lookup e.1 = some e.2 ∧ e.1.replaced = k := by
  rw [entriesAt, List.mem_filter, mem_sortedEntries, decide_eq_true_eq]

/-- What a reader finds in the object, if there is one. -/
theorem recovered_marshal (d : Details) (k : GoString) (x : Scalar) :
    recovered ((marshal d).getD "") k = some x ↔
      Marshals d ∧ ∃ e, entriesAt d k = [e] ∧ readScalar (member e).2.replaced = some x := by
  by_cases hm : Marshals d
  · have htext : marshal d =
        some (String.ofList (Json.obj ((sortedEntries d).map member)).write) := by
      rw [marshal, hm.members_eq, Option.map_some]
    have hmembers : membersAt k (Json.obj ((sortedEntries d).map member)).replaced =
        (entriesAt d k).map fun e => (member e).2.replaced := by
      rw [Json.replaced, Json.replacedMembers_eq, membersAt, List.map_map, List.filter_map,
        List.map_map]
      rfl
    rw [htext, Option.getD_some, recovered, String.toList_ofList, Json.decode_write,
      Option.bind_some, hmembers, readOnly_eq_some]
    simp only [List.map_eq_singleton_iff, hm, true_and]
    constructor
    · rintro ⟨j, ⟨e, he, rfl⟩, hj⟩
      exact ⟨e, he, hj⟩
    · rintro ⟨e, he, hj⟩
      exact ⟨_, ⟨e, he, rfl⟩, hj⟩
  · have hnone : recovered ((marshal d).getD "") k = none := by
      rw [marshal, members_eq_none hm]
      rfl
    simp [hnone, hm]

/-- Exactly one entry of a map is read as `k`, the one with this key. -/
theorem entriesAt_eq_singleton_iff {d : Details} {k : GoString} {v : LogValue}
    (hl : d.lookup k = some v) {e : Σ _ : GoString, LogValue} :
    entriesAt d k = [e] ↔
      e = ⟨k, v⟩ ∧ k.replaced = k ∧ ∀ k', d.lookup k' ≠ none → k'.replaced = k → k' = k := by
  constructor
  · intro he
    have honly : ∀ k' v', d.lookup k' = some v' → k'.replaced = k → e = ⟨k', v'⟩ := by
      intro k' v' hl' hk'
      have hmem : ⟨k', v'⟩ ∈ entriesAt d k := mem_entriesAt.2 ⟨hl', hk'⟩
      rw [he] at hmem
      exact (List.mem_singleton.1 hmem).symm
    have hself : e.1.replaced = k := (mem_entriesAt.1 (he ▸ List.mem_singleton_self e)).2
    have hvalid : k.replaced = k := by rw [← hself, GoString.replaced_replaced]
    refine ⟨honly k v hl hvalid, hvalid, fun k' hne hk' => ?_⟩
    obtain ⟨v', hl'⟩ := Option.ne_none_iff_exists'.1 hne
    exact congrArg Sigma.fst ((honly k' v' hl' hk').symm.trans (honly k v hl hvalid))
  · rintro ⟨rfl, hvalid, honly⟩
    refine List.perm_singleton.1 ((List.perm_ext_iff_of_nodup ((nodup_sortedEntries d).filter _)
      (List.nodup_singleton _)).2 fun e => ?_)
    rw [← entriesAt, mem_entriesAt, List.mem_singleton]
    constructor
    · rintro ⟨hle, hke⟩
      obtain ⟨k', v'⟩ := e
      obtain rfl := honly k' (by rw [hle]; exact Option.some_ne_none _) hke
      rw [hl] at hle
      rw [Option.some.inj hle]
    · rintro rfl
      exact ⟨hl, hvalid⟩

/-- A map that is not empty is stored as its text, or else not at all. -/
theorem finish_details {f : Filling} (hempty : f.entry.details = "") {k : GoString} {v : LogValue}
    (hl : f.details.lookup k = some v) : f.finish.details = (marshal f.details).getD "" := by
  have hpos : f.details.entries.length > 0 := List.length_pos_of_mem (AList.mem_lookup_iff.1 hl)
  rw [Filling.finish, if_pos hpos]
  cases marshal f.details with
  | none => exact hempty
  | some b => rfl

/-! ## What is found -/

/-- The JSON of a value says what the value says: a string is valid UTF-8, and an error
    is encoded as its message. -/
def LogValue.Readable : LogValue → Prop
  | .string s => s.replaced = s
  | .error message p => ∃ s, p.json = some (.str s) ∧ s.replaced = message
  | _ => True

theorem readScalar_replaced_eq_text {j : Json} {m : GoString} :
    readScalar j.replaced = some (.text m) ↔ ∃ s, j = .str s ∧ s.replaced = m := by
  cases j <;> simp [Json.replaced, readScalar]

theorem LogValue.readable_iff {v : LogValue} {x : Scalar} (hx : v.scalar = some x) :
    (∃ j, v.json = some j ∧ readScalar j.replaced = some x) ↔ v.Readable := by
  cases v with
  | string s =>
    cases hx
    simp [json, Readable, Json.replaced, readScalar]
  | int64 n =>
    cases hx
    simp [json, Readable, Json.replaced, readScalar, Number.toInt?_ofInt]
  | uint64 n =>
    cases hx
    simp [json, Readable, Json.replaced, readScalar, Number.toInt?_ofInt]
  | float64 trunc p => cases hx
  | bool b =>
    cases hx
    simp [json, Readable, Json.replaced, readScalar]
  | error message p =>
    cases hx
    simp only [json, Readable, readScalar_replaced_eq_text]
    constructor
    · rintro ⟨j, hj, s, rfl, hs⟩
      exact ⟨s, hj, hs⟩
    · rintro ⟨s, hj, hs⟩
      exact ⟨_, hj, s, rfl, hs⟩
  | other p => cases hx

/-- The entry `e` was made of a record with the attributes `attrs`, those of its logger
    included, by a handler that any derivations led to. -/
def Logged (attrs : List Attr) (e : LogEntry) : Prop :=
  ∃ (w : Loggers) (n : ℕ) (l : Logger) (r : Record), Loggers.Derives {} w ∧
    w.loggers[n]? = some l ∧ w.persists n r = some e ∧ attrs = flatAttrs l.calls r

/-- The attribute has no column of its own, and none with its key follows. -/
structure Unrepeated (attrs : List Attr) (a : Attr) : Prop where
  notPromoted : a.key ∉ promotedKeys
  last : ∃ before after, attrs = before ++ a :: after ∧ ∀ b ∈ after, b.key ≠ a.key

/-- All that is stored can be encoded, no other key is read as that of `a`, and the JSON
    of its value says what the value says. -/
structure Faithful (attrs : List Attr) (a : Attr) : Prop where
  marshals : ∀ k v, stored attrs k = some v → v.json ≠ none
  valid : a.key.replaced = a.key
  distinct : ∀ k, stored attrs k ≠ none → k.replaced = a.key → k = a.key
  readable : a.value.resolve.Readable

theorem Unrepeated.stored_eq {attrs : List Attr} {a : Attr} (h : Unrepeated attrs a) :
    stored attrs a.key = some a.value.resolve := by
  obtain ⟨before, after, rfl, hafter⟩ := h.last
  have hnone : (after.filter fun b => b.key = a.key) = [] := by
    simpa [List.filter_eq_nil_iff] using hafter
  rw [stored, if_neg h.notPromoted, List.filter_append, List.filter_cons_of_pos (by simp), hnone,
    List.getLast?_concat, Option.map_some]

/-- The entry of a record shows an attribute exactly if it is kept faithfully. -/
theorem Logged.recovered_iff {attrs : List Attr} {e : LogEntry} (h : Logged attrs e) {a : Attr}
    (ha : Unrepeated attrs a) {x : Scalar} (hx : a.value.resolve.scalar = some x) :
    recovered e.details a.key = some x ↔ Faithful attrs a := by
  obtain ⟨w, n, l, r, hd, hl, he, rfl⟩ := h
  have hpass := ((Loggers.sound_start.derives hd).1.persists_eq hl r).symm.trans he
  obtain rfl := Option.some.inj hpass
  have hlookup := fun k => lookup_foldl_apply (flatAttrs l.calls r) r k
  have hstored := (hlookup a.key).trans ha.stored_eq
  have hempty := foldl_apply_entry_details (flatAttrs l.calls r) r.filling
  rw [onePass, finish_details hempty hstored, recovered_marshal]
  simp only [entriesAt_eq_singleton_iff hstored, hlookup, Marshals]
  constructor
  · rintro ⟨hm, e, ⟨rfl, hvalid, hdistinct⟩, hread⟩
    obtain ⟨j, hj⟩ := Option.ne_none_iff_exists'.1 (hm _ _ ha.stored_eq)
    rw [member, hj] at hread
    exact ⟨hm, hvalid, hdistinct, (LogValue.readable_iff hx).1 ⟨j, hj, hread⟩⟩
  · rintro ⟨hm, hvalid, hdistinct, hreadable⟩
    obtain ⟨j, hj, hread⟩ := (LogValue.readable_iff hx).2 hreadable
    refine ⟨hm, _, ⟨rfl, hvalid, hdistinct⟩, ?_⟩
    rw [member, hj]
    exact hread

/-- Under its key, the details of an entry give what an unrepeated attribute says exactly
    if everything that is stored can be encoded, no other key is read as that one, the
    key and the text are valid UTF-8, and an error is encoded as its message. Two
    entries with such attributes that differ then have different details. -/
theorem details_recovered_iff {attrs : List Attr} {e : LogEntry} (h : Logged attrs e) {a : Attr}
    (ha : Unrepeated attrs a) {x : Scalar} (hx : a.value.resolve.scalar = some x) :
    (recovered e.details a.key = some x ↔ Faithful attrs a) ∧
      ∀ attrs' e' a' x', Logged attrs' e' → Unrepeated attrs' a' →
        a'.value.resolve.scalar = some x' → a'.key = a.key → x' ≠ x →
        Faithful attrs a → Faithful attrs' a' → e'.details ≠ e.details := by
  refine ⟨h.recovered_iff ha hx, ?_⟩
  intro attrs' e' a' x' h' ha' hx' hkey hne hf hf' heq
  have hfound := (h.recovered_iff ha hx).2 hf
  have hfound' := (h'.recovered_iff ha' hx').2 hf'
  rw [heq, hkey, hfound] at hfound'
  exact hne (Option.some.inj hfound').symm

/-- The entry of a record of the handler that `NewDBHandler` makes. -/
theorem logged_handle (r : Record) : Logged (flatAttrs [] r) (handle [] [] r) :=
  ⟨{}, 0, {}, r, ⟨[], rfl⟩, rfl, rfl, rfl⟩

/-- An attribute of a record is the last with its key if it stands at the end. -/
theorem unrepeated_concat (before : List Attr) {a : Attr} (h : a.key ∉ promotedKeys) :
    Unrepeated (before ++ [a]) a := ⟨h, before, [], rfl, fun _ hb => absurd hb List.not_mem_nil⟩

def rowsRead (n : Int64) : Attr := .ofString "rows_read" (.int64 n)

/-- The record of a load that has read this many rows. -/
def loadFinished (n : Int64) : Record := ⟨0, 0, .ofString "load finished", [rowsRead n]⟩

/-- Numbers of rows are found, and different numbers make different details. -/
theorem rows_recovered :
    recovered (handle [] [] (loadFinished 3)).details (rowsRead 3).key = some (.int 3) ∧
      (handle [] [] (loadFinished 4)).details ≠ (handle [] [] (loadFinished 3)).details := by
  have hlast : ∀ n, Unrepeated (flatAttrs [] (loadFinished n)) (rowsRead n) := fun n =>
    unrepeated_concat [] (by decide : GoString.ofString "rows_read" ∉ promotedKeys)
  have hx₃ : (rowsRead 3).value.resolve.scalar = some (.int 3) := by decide
  have hx₄ : (rowsRead 4).value.resolve.scalar = some (.int 4) := by decide
  have h₃ := details_recovered_iff (logged_handle (loadFinished 3)) (hlast 3) hx₃
  have h₄ := details_recovered_iff (logged_handle (loadFinished 4)) (hlast 4) hx₄
  have hf₃ := h₃.1.1 (by decide +kernel)
  have hf₄ := h₄.1.1 (by decide +kernel)
  exact ⟨h₃.1.2 hf₃, h₃.2 _ _ _ _ (logged_handle _) (hlast 4) hx₄ rfl (by decide) hf₃ hf₄⟩

/-- The attribute `err` with an `errors.New(message)`, which has no exported fields. -/
def errAttr (message : String) : Attr :=
  .ofString "err" (.error (.ofString message) ⟨.ofString message, some (.obj [])⟩)

/-- The record that the runner logs when it gets no source (line 83 of
    `internal/pipeline/runner.go`). -/
def obtainSourceFailed (message : String) : Record :=
  ⟨0, 8, .ofString "obtain source",
    [.ofString "category" (.string (.ofString "connect")), errAttr message]⟩

/-- The messages of the runner's errors are lost: records with different errors have the
    same details, with nothing to be found under `err`. -/
theorem error_messages_lost :
    (∀ message, Unrepeated (flatAttrs [] (obtainSourceFailed message)) (errAttr message) ∧
      Logged (flatAttrs [] (obtainSourceFailed message))
        (handle [] [] (obtainSourceFailed message))) ∧
    (handle [] [] (obtainSourceFailed "timeout")).details = "\x7b\"err\":\x7b\x7d\x7d" ∧
    (handle [] [] (obtainSourceFailed "refused")).details = "\x7b\"err\":\x7b\x7d\x7d" ∧
    recovered (handle [] [] (obtainSourceFailed "timeout")).details (.ofString "err") = none := by
  have hkey : GoString.ofString "err" ∉ promotedKeys := by decide
  refine ⟨fun message => ⟨?_, logged_handle _⟩, ?_, ?_, ?_⟩
  · exact unrepeated_concat [_] (a := errAttr message) hkey
  · decide +kernel
  · decide +kernel
  · decide +kernel

-- one value without JSON, here NaN, takes all the others with it
example : (handle [] [] ⟨0, 0, .ofString "load finished",
    [.ofString "rate" (.float64 0 ⟨.ofString "NaN", none⟩), rowsRead 3]⟩).details = "" := by
  decide +kernel

end DataLoader.Logging
