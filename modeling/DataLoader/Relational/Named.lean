import Mathlib.Data.List.Nodup
import Mathlib.Tactic.Common

/-!
# Tables of named rows

A table whose rows have a primary key, a unique name and a mark for soft deletion,
with the three operations of an upsert: look a name up, add a row, overwrite the
row of a primary key.

* `upsert`: write the row of a name, over the one that there is or as a new one.
* `Placed`: after a write the name has one given row, and every other name what it
  had before.
* `Upserts`: a loop of such writes. With distinct names each write is still there
  at the end (`Upserts.first_of_mem`).
-/

namespace DataLoader.Relational

/-- How the rows of a table are told apart. -/
structure Model (R K : Type) where
  id : R → Int
  key : R → K
  deleted : R → Bool

namespace Model

variable {R K S : Type} (m : Model R K)

/-- Overwrite the row with the primary key of `r`. -/
def save (rows : List R) (r : R) : List R := rows.map fun x => if m.id x == m.id r then r else x

/-- Primary keys and names are unique, and the primary keys lie below the next one. -/
structure Valid (rows : List R) (next : Int) : Prop where
  ids : (rows.map m.id).Nodup
  keys : (rows.map m.key).Nodup
  fresh : ∀ r ∈ rows, m.id r < next

variable {m} {rows rows' : List R} {next : Int} {k : K} {r r₀ : R}

/-! ## Adding a row -/

theorem Valid.append (hv : m.Valid rows next) (hid : m.id r = next)
    (hnew : ∀ x ∈ rows, m.key x ≠ m.key r) : m.Valid (rows ++ [r]) (next + 1) where
  ids := by
    rw [List.map_append, List.map_singleton, List.nodup_append]
    refine ⟨hv.ids, List.nodup_singleton _, ?_⟩
    intro i hi j hj
    obtain ⟨x, hx, rfl⟩ := List.mem_map.1 hi
    rw [List.mem_singleton.1 hj, hid]
    exact Int.ne_of_lt (hv.fresh x hx)
  keys := by
    rw [List.map_append, List.map_singleton, List.nodup_append]
    refine ⟨hv.keys, List.nodup_singleton _, ?_⟩
    intro i hi j hj
    obtain ⟨x, hx, rfl⟩ := List.mem_map.1 hi
    rw [List.mem_singleton.1 hj]
    exact hnew x hx
  fresh := by
    intro x hx
    rcases List.mem_append.1 hx with hx | hx
    · have := hv.fresh x hx
      omega
    · rw [List.mem_singleton.1 hx, hid]
      omega

/-! ## Overwriting a row -/

/-- What a row has in common with the one it overwrites stays in the column. -/
theorem Valid.map_save {β : Type} (f : R → β) (hv : m.Valid rows next) (hr₀ : r₀ ∈ rows)
    (hid : m.id r = m.id r₀) (hf : f r = f r₀) : (m.save rows r).map f = rows.map f := by
  rw [save, List.map_map]
  apply List.map_congr_left
  intro x hx
  show f (if m.id x == m.id r then r else x) = f x
  split_ifs with h
  · have hxr : x = r₀ :=
      List.inj_on_of_nodup_map hv.ids hx hr₀ ((beq_iff_eq.1 h).trans hid)
    rw [hf, hxr]
  · rfl

/-- Saving a row as it is changes nothing. -/
theorem Valid.save_self (hv : m.Valid rows next) (hr : r ∈ rows) : m.save rows r = rows := by
  have hmap := hv.map_save (fun x => x) hr rfl rfl
  rwa [List.map_id', List.map_id'] at hmap

theorem mem_save {x : R} (hr₀ : r₀ ∈ rows) (hid : m.id r = m.id r₀) :
    x ∈ m.save rows r ↔ x = r ∨ x ∈ rows ∧ m.id x ≠ m.id r := by
  rw [save, List.mem_map]
  constructor
  · rintro ⟨y, hy, rfl⟩
    split_ifs with h
    · exact .inl rfl
    · exact .inr ⟨hy, fun heq => h (beq_iff_eq.2 heq)⟩
  · rintro (rfl | ⟨hx, hne⟩)
    · exact ⟨r₀, hr₀, if_pos (beq_iff_eq.2 hid.symm)⟩
    · exact ⟨x, hx, if_neg fun h => hne (beq_iff_eq.1 h)⟩

theorem Valid.save (hv : m.Valid rows next) (hr₀ : r₀ ∈ rows) (hid : m.id r = m.id r₀)
    (hkey : m.key r = m.key r₀) : m.Valid (m.save rows r) next where
  ids := by rw [hv.map_save m.id hr₀ hid hid]; exact hv.ids
  keys := by rw [hv.map_save m.key hr₀ hid hkey]; exact hv.keys
  fresh := by
    intro x hx
    rcases (mem_save hr₀ hid).1 hx with rfl | ⟨hx, -⟩
    · rw [hid]
      exact hv.fresh r₀ hr₀
    · exact hv.fresh x hx

/-! ## Looking a name up -/

variable [DecidableEq K]

variable (m) in
/-- The row of a name, unless it is deleted. -/
def first (rows : List R) (k : K) : Option R :=
  rows.find? fun r => !m.deleted r && m.key r == k

variable (m) in
/-- After a write the name `k` has the row `r`, and other names what they had. -/
structure Placed (rows rows' : List R) (k : K) (r : R) : Prop where
  row : m.first rows' k = some r
  rest : ∀ k', k' ≠ k → m.first rows' k' = m.first rows k'

theorem first_eq_some (h : m.first rows k = some r) :
    r ∈ rows ∧ m.deleted r = false ∧ m.key r = k := by
  have hp := List.find?_some h
  simp only [Bool.and_eq_true, Bool.not_eq_true', beq_iff_eq] at hp
  exact ⟨List.mem_of_find?_eq_some h, hp.1, hp.2⟩

theorem key_of_first (h : m.first rows k = some r) : m.key r = k := (first_eq_some h).2.2

/-- In a valid table a name is looked up by its row. -/
theorem Valid.first_iff (hv : m.Valid rows next) :
    m.first rows k = some r ↔ r ∈ rows ∧ m.deleted r = false ∧ m.key r = k := by
  constructor
  · exact first_eq_some
  · rintro ⟨hr, hlive, rfl⟩
    cases hfirst : m.first rows (m.key r) with
    | none =>
      have hp := List.find?_eq_none.1 hfirst r hr
      simp [hlive] at hp
    | some r' =>
      rw [List.inj_on_of_nodup_map hv.keys (first_eq_some hfirst).1 hr (key_of_first hfirst)]

/-- Rows of different names have different primary keys. -/
theorem Valid.id_ne (hv : m.Valid rows next) {k' : K} {r' : R} (h : m.first rows k = some r)
    (h' : m.first rows k' = some r') (hne : k' ≠ k) : m.id r' ≠ m.id r := by
  intro heq
  have hrow := List.inj_on_of_nodup_map hv.ids (first_eq_some h').1 (first_eq_some h).1 heq
  exact hne (by rw [← key_of_first h', hrow, key_of_first h])

theorem placed_append (hnew : ∀ x ∈ rows, m.key x ≠ m.key r) (hlive : m.deleted r = false) :
    m.Placed rows (rows ++ [r]) (m.key r) r where
  row := by
    have hnone : m.first rows (m.key r) = none := by
      apply List.find?_eq_none.2
      intro x hx
      simp [hnew x hx]
    show (rows ++ [r]).find? _ = some r
    rw [List.find?_append, show rows.find? _ = none from hnone]
    simp [hlive]
  rest k' hk' := by
    show (rows ++ [r]).find? _ = rows.find? _
    have hr : (m.key r == k') = false := by simpa using hk'.symm
    rw [List.find?_append, List.find?_singleton, hr]
    simp

theorem Valid.placed_save (hv : m.Valid rows next) (h : m.first rows k = some r₀)
    (hid : m.id r = m.id r₀) (hkey : m.key r = m.key r₀) (hlive : m.deleted r = false) :
    m.Placed rows (m.save rows r) k r := by
  obtain ⟨hr₀, -, hk⟩ := first_eq_some h
  have hv' := hv.save hr₀ hid hkey
  refine ⟨hv'.first_iff.2 ⟨(mem_save hr₀ hid).2 (.inl rfl), hlive, hkey.trans hk⟩, ?_⟩
  intro k' hk'
  ext x
  rw [hv'.first_iff, hv.first_iff, mem_save hr₀ hid]
  constructor
  · rintro ⟨rfl | ⟨hx, -⟩, hlive', hkey'⟩
    · exact absurd (hkey'.symm.trans (hkey.trans hk)) hk'
    · exact ⟨hx, hlive', hkey'⟩
  · rintro ⟨hx, hlive', hkey'⟩
    refine ⟨.inr ⟨hx, fun heq => ?_⟩, hlive', hkey'⟩
    have hxr := List.inj_on_of_nodup_map hv.ids hx hr₀ (heq.trans hid)
    exact hk' (by rw [← hkey', hxr, hk])

/-! ## An upsert -/

/-- What an upsert has done: the row it has written, whether the row is new, and the
    table with its next primary key. -/
structure Upserted (R : Type) where
  row : R
  created : Bool
  rows : List R
  next : Int

variable {E : Type} {refuse : R → Option E} {duplicate : K → E} {fresh : Int → R} {onto : R → R}

variable (m) in
/-- Write the row of a name: over the one that there is, or a new one. The table may
    refuse a row, and it refuses a name that it holds already, be it deleted. -/
def upsert (refuse : R → Option E) (duplicate : K → E) (rows : List R) (next : Int) (k : K)
    (fresh : Int → R) (onto : R → R) : Except E (Upserted R) :=
  match m.first rows k with
  | none =>
    match refuse (fresh next) with
    | some e => .error e
    | none =>
      if rows.any fun x => m.key x == k then .error (duplicate k)
      else .ok ⟨fresh next, true, rows ++ [fresh next], next + 1⟩
  | some r =>
    match refuse (onto r) with
    | some e => .error e
    | none => .ok ⟨onto r, false, m.save rows (onto r), next⟩

/-- Rows that an upsert of the name `k` may write: the new one under any id, and the
    old one with its id. -/
structure Writes (m : Model R K) (k : K) (fresh : Int → R) (onto : R → R) : Prop where
  fresh_id : ∀ i, m.id (fresh i) = i
  fresh_key : ∀ i, m.key (fresh i) = k
  fresh_live : ∀ i, m.deleted (fresh i) = false
  onto_id : ∀ r, m.id (onto r) = m.id r
  onto_key : ∀ r, m.key (onto r) = m.key r
  onto_live : ∀ r, m.deleted (onto r) = m.deleted r

theorem upsert_ok {u : Upserted R} (hw : m.Writes k fresh onto) (hv : m.Valid rows next)
    (h : m.upsert refuse duplicate rows next k fresh onto = .ok u) :
    m.Valid u.rows u.next ∧ m.Placed rows u.rows k u.row ∧ refuse u.row = none ∧
      match m.first rows k with
      | none => u.row = fresh next
      | some r => u.row = onto r := by
  unfold upsert at h
  cases hfirst : m.first rows k with
  | none =>
    simp only [hfirst] at h
    cases hrefuse : refuse (fresh next) with
    | some e => simp [hrefuse] at h
    | none =>
      simp only [hrefuse] at h
      split_ifs at h with htaken
      cases h
      have hnew : ∀ x ∈ rows, m.key x ≠ m.key (fresh next) := by
        intro x hx heq
        rw [hw.fresh_key] at heq
        exact htaken (List.any_eq_true.2 ⟨x, hx, beq_iff_eq.2 heq⟩)
      have hplaced := placed_append hnew (hw.fresh_live next)
      rw [hw.fresh_key] at hplaced
      exact ⟨hv.append (hw.fresh_id next) hnew, hplaced, hrefuse, rfl⟩
  | some r =>
    simp only [hfirst] at h
    cases hrefuse : refuse (onto r) with
    | some e => simp [hrefuse] at h
    | none =>
      simp only [hrefuse, Except.ok.injEq] at h
      subst h
      obtain ⟨hmem, hlive, -⟩ := first_eq_some hfirst
      exact ⟨hv.save hmem (hw.onto_id r) (hw.onto_key r),
        hv.placed_save hfirst (hw.onto_id r) (hw.onto_key r) ((hw.onto_live r).trans hlive),
        hrefuse, rfl⟩

/-- An upsert that would write a row over itself changes nothing. -/
theorem upsert_self (hv : m.Valid rows next) (hfirst : m.first rows k = some r) (hr : onto r = r)
    (haccepted : refuse r = none) :
    m.upsert refuse duplicate rows next k fresh onto = .ok ⟨r, false, rows, next⟩ := by
  have hsave : m.save rows r = rows := hv.save_self (first_eq_some hfirst).1
  simp only [upsert, hfirst, hr, haccepted, hsave]

/-! ## A loop of writes -/

variable (m) in
/-- A loop that writes one row for each item. `W item old new` says what may be
    written for an item whose name had the row `old`. -/
inductive Upserts (name : S → K) (W : S → Option R → R → Prop) : List S → List R → List R → Prop
  | nil (rows : List R) : Upserts name W [] rows rows
  | cons {s : S} {ss : List S} {rows rows₁ rows' : List R} {r : R}
    (hw : W s (m.first rows (name s)) r) (hp : m.Placed rows rows₁ (name s) r)
    (hrest : Upserts name W ss rows₁ rows') : Upserts name W (s :: ss) rows rows'

variable {name : S → K} {W : S → Option R → R → Prop} {ss : List S}

theorem Upserts.first_of_not_mem (h : m.Upserts name W ss rows rows') (hk : k ∉ ss.map name) :
    m.first rows' k = m.first rows k := by
  induction h with
  | nil => rfl
  | cons hw hp hrest ih =>
    rw [List.map_cons, List.mem_cons, not_or] at hk
    rw [ih hk.2, hp.rest _ hk.1]

/-- With distinct names what was written for an item is there at the end. -/
theorem Upserts.first_of_mem (h : m.Upserts name W ss rows rows') (hnodup : (ss.map name).Nodup)
    {s : S} (hs : s ∈ ss) :
    ∃ r, W s (m.first rows (name s)) r ∧ m.first rows' (name s) = some r := by
  induction h with
  | nil => exact absurd hs List.not_mem_nil
  | @cons s' ss rows rows₁ rows' r hw hp hrest ih =>
    rw [List.map_cons, List.nodup_cons] at hnodup
    rcases List.mem_cons.1 hs with rfl | hs
    · exact ⟨r, hw, by rw [hrest.first_of_not_mem hnodup.1, hp.row]⟩
    · have hne : name s ≠ name s' := by
        intro heq
        exact hnodup.1 (heq ▸ List.mem_map_of_mem hs)
      rw [← hp.rest _ hne]
      exact ih hnodup.2 hs

end Model

end DataLoader.Relational
