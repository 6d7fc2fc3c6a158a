import DataLoader.Relational.Named
import Mathlib.Data.List.Basic

/-!
# Rows that belong to a named row

Rows that have an owner are replaced together (`Owned.replace`), under new numbers.
`Rounds` is a loop over named items that writes the row of each name and then, where
there is a list for the name, replaces the rows that the row owns. A name may come
more than once.

* `Rounds.listed`: at the end each name owns the rows of its list.
* `Rounds.frame`: whoever has no list keeps the rows that they had.
* `Loops`: one such loop for each of a sequence of inputs. The last input with a list
  for a name decides (`Loops.listed`).
-/

namespace DataLoader.Relational

/-- How the rows of a table are numbered, and whom they belong to. -/
structure Owned (C : Type) where
  owner : C → Int
  setID : ℕ → C → C
  owner_setID : ∀ n c, owner (setID n c) = owner c
  setID_setID : ∀ n n' c, setID n (setID n' c) = setID n c

namespace Owned

variable {C : Type} (w : Owned C)

/-- The rows of an owner in the order of the table, without their numbers. -/
def of (rows : List C) (o : Int) : List C := (rows.filter fun c => w.owner c == o).map (w.setID 0)

/-- Delete the rows of an owner and add new ones under the next numbers. -/
def replace (rows : List C) (o : Int) (next : ℕ) (new : List C) : List C :=
  (rows.filter fun c => w.owner c != o) ++ new.mapIdx fun i c => w.setID (next + i) c

/-- The rows of an owner in the order of the table. -/
def rowsOf (rows : List C) (o : Int) : List C := rows.filter fun c => w.owner c == o

/-- Rows under the numbers from `next` on. -/
def numbered (next : ℕ) (new : List C) : List C := new.mapIdx fun i c => w.setID (next + i) c

variable {w} {rows rows' new : List C} {o o' : Int} {next : ℕ}

theorem owner_of_mem_numbered (hnew : ∀ c ∈ new, w.owner c = o) {c : C}
    (hc : c ∈ w.numbered next new) : w.owner c = o := by
  obtain ⟨i, hi, rfl⟩ := List.mem_mapIdx.1 hc
  rw [w.owner_setID]
  exact hnew _ (List.getElem_mem hi)

theorem map_setID_numbered : (w.numbered next new).map (w.setID 0) = new.map (w.setID 0) := by
  apply List.ext_getElem
  · simp [numbered]
  · intro i h₁ h₂
    simp [numbered, w.setID_setID]

theorem numbered_cons (c : C) (new : List C) (next : ℕ) :
    w.numbered next (c :: new) = w.setID next c :: w.numbered (next + 1) new := by
  have hshift : (fun i (c : C) => w.setID (next + (i + 1)) c) = fun i c => w.setID (next + 1 + i) c := by
    funext i c
    congr 1
    omega
  rw [numbered, List.mapIdx_cons, hshift]
  rfl

/-- A relation with rows without numbers, as one with the numbered rows. -/
theorem forall₂_numbered {T : Type} {Q : T → C → Prop} {ts : List T} (h : List.Forall₂ Q ts new) :
    List.Forall₂ (fun t c => ∃ n c₀, Q t c₀ ∧ c = w.setID n c₀) ts (w.numbered next new) := by
  induction h generalizing next with
  | nil => exact .nil
  | cons hq _ ih =>
    rw [numbered_cons]
    exact .cons ⟨_, _, hq, rfl⟩ ih

/-- The owner has the new rows. -/
theorem rowsOf_replace (hnew : ∀ c ∈ new, w.owner c = o) :
    w.rowsOf (w.replace rows o next new) o = w.numbered next new := by
  have hold : (rows.filter fun c => w.owner c != o).filter (fun c => w.owner c == o) = [] := by
    simp [List.filter_filter]
  have hall : (w.numbered next new).filter (fun c => w.owner c == o) = w.numbered next new := by
    apply List.filter_eq_self.2
    intro c hc
    rw [owner_of_mem_numbered hnew hc, beq_self_eq_true]
  rw [rowsOf, replace, List.filter_append, hold, List.nil_append]
  exact hall

/-- Every other owner has what it had. -/
theorem rowsOf_replace_of_ne (hnew : ∀ c ∈ new, w.owner c = o) (ho : o' ≠ o) :
    w.rowsOf (w.replace rows o next new) o' = w.rowsOf rows o' := by
  have hnone : (w.numbered next new).filter (fun c => w.owner c == o') = [] := by
    apply List.filter_eq_nil_iff.2
    intro c hc
    rw [owner_of_mem_numbered hnew hc, beq_iff_eq]
    exact ho.symm
  have hkept : (rows.filter fun c => w.owner c != o).filter (fun c => w.owner c == o') =
      rows.filter fun c => w.owner c == o' := by
    rw [List.filter_filter]
    apply List.filter_congr
    intro c _
    by_cases hc : w.owner c = o'
    · simp [hc, ho]
    · simp [hc]
  rw [rowsOf, replace, List.filter_append, hkept]
  exact (congrArg _ hnone).trans (List.append_nil _)

/-! ## A loop of replacements -/

section

variable {T E : Type} {create : Int → List T → Except E (List C)} {items : List T}

variable (w create) in
/-- One round for the list of an owner: it stays when there are no items, and is
    replaced by the rows that are made of them otherwise. -/
def Round (items : List T) (o : Int) (rows rows' : List C) : Prop :=
  (items = [] ∧ rows' = rows) ∨
    (items ≠ [] ∧ ∃ new next, create o items = .ok new ∧ rows' = w.replace rows o next new)

theorem Round.frame (hcreate : ∀ o ts new, create o ts = .ok new → ∀ c ∈ new, w.owner c = o)
    (h : w.Round create items o rows rows') (ho : o' = o → items = []) :
    w.rowsOf rows' o' = w.rowsOf rows o' := by
  obtain ⟨-, rfl⟩ | ⟨hne, new, next, hnew, rfl⟩ := h
  · rfl
  · exact rowsOf_replace_of_ne (hcreate _ _ _ hnew) fun heq => hne (ho heq)

theorem Round.listed (hcreate : ∀ o ts new, create o ts = .ok new → ∀ c ∈ new, w.owner c = o)
    (h : w.Round create items o rows rows') (hne : items ≠ []) :
    ∃ new next, create o items = .ok new ∧ w.rowsOf rows' o = w.numbered next new := by
  obtain ⟨hnil, -⟩ | ⟨-, new, next, hnew, rfl⟩ := h
  · exact absurd hnil hne
  · exact ⟨new, next, hnew, rowsOf_replace (hcreate _ _ _ hnew)⟩

end

end Owned

section

variable {R K S C T E : Type} [DecidableEq K] (m : Model R K) (w : Owned C)
  (create : Int → List T → Except E (List C)) (items : K → List T) (name : S → K)

/-- A loop that writes the row of each name, under the primary key that it has, and
    then the list of this row. -/
inductive Rounds : List S → List R → List C → List R → List C → Prop
  | nil (named : List R) (rows : List C) : Rounds [] named rows named rows
  | cons {s : S} {ss : List S} {named named₁ named' : List R} {rows rows₁ rows' : List C} {r : R}
    (hplaced : m.Placed named named₁ (name s) r)
    (hid : ∀ r₀, m.first named (name s) = some r₀ → m.id r = m.id r₀)
    (hround : w.Round create (items (name s)) (m.id r) rows rows₁)
    (hrest : Rounds ss named₁ rows₁ named' rows') : Rounds (s :: ss) named rows named' rows'

namespace Rounds

variable {m w create items name} {ss : List S} {named named' : List R} {rows rows' : List C}

theorem first_of_not_mem (h : Rounds m w create items name ss named rows named' rows') {k : K}
    (hk : k ∉ ss.map name) : m.first named' k = m.first named k := by
  induction h with
  | nil => rfl
  | cons hplaced _ _ _ ih =>
    rw [List.map_cons, List.mem_cons, not_or] at hk
    rw [ih hk.2, hplaced.rest _ hk.1]

/-- A name keeps its primary key. -/
theorem first_of_some (h : Rounds m w create items name ss named rows named' rows') {k : K} {r : R}
    (hr : m.first named k = some r) : ∃ r', m.first named' k = some r' ∧ m.id r' = m.id r := by
  induction h generalizing r with
  | nil => exact ⟨r, hr, rfl⟩
  | @cons s _ _ _ _ _ _ _ r₁ hplaced hid _ _ ih =>
    by_cases hk : k = name s
    · subst hk
      obtain ⟨r', hr', hid'⟩ := ih hplaced.row
      exact ⟨r', hr', hid'.trans (hid r hr)⟩
    · exact ih ((hplaced.rest k hk).trans hr)

theorem frame (hcreate : ∀ o ts new, create o ts = .ok new → ∀ c ∈ new, w.owner c = o)
    (h : Rounds m w create items name ss named rows named' rows') {o : Int}
    (ho : ∀ s ∈ ss, ∀ r, m.first named' (name s) = some r → m.id r = o → items (name s) = []) :
    w.rowsOf rows' o = w.rowsOf rows o := by
  induction h with
  | nil => rfl
  | @cons s _ _ _ _ _ _ _ r hplaced _ hround hrest ih =>
    rw [ih fun s' hs' => ho s' (List.mem_cons_of_mem _ hs')]
    apply hround.frame hcreate
    intro heq
    obtain ⟨r', hr', hid'⟩ := hrest.first_of_some hplaced.row
    exact ho s List.mem_cons_self r' hr' (hid'.trans heq.symm)

theorem listed (hcreate : ∀ o ts new, create o ts = .ok new → ∀ c ∈ new, w.owner c = o)
    (h : Rounds m w create items name ss named rows named' rows') {next : Int}
    (hv : m.Valid named' next) {s : S} (hs : s ∈ ss) :
    ∃ r, m.first named' (name s) = some r ∧ (items (name s) ≠ [] → ∃ new n,
      create (m.id r) (items (name s)) = .ok new ∧ w.rowsOf rows' (m.id r) = w.numbered n new) := by
  induction h generalizing s with
  | nil => exact absurd hs List.not_mem_nil
  | @cons s' ss _ _ _ _ _ _ r hplaced _ hround hrest ih =>
    by_cases hagain : name s ∈ ss.map name
    · -- a later round writes the same name
      obtain ⟨s'', hs'', hname⟩ := List.mem_map.1 hagain
      have hlater := ih hv hs''
      rwa [hname] at hlater
    · obtain rfl : s = s' := by
        rcases List.mem_cons.1 hs with rfl | hs
        · rfl
        · exact absurd (List.mem_map_of_mem hs) hagain
      have hrow : m.first _ (name s) = some r :=
        (hrest.first_of_not_mem hagain).trans hplaced.row
      refine ⟨r, hrow, fun hne => ?_⟩
      obtain ⟨new, n, hnew, hrows⟩ := hround.listed hcreate hne
      refine ⟨new, n, hnew, ?_⟩
      rw [← hrows]
      apply hrest.frame hcreate
      intro s'' hs'' r'' hr'' hid
      have hname : name s ≠ name s'' := fun heq => hagain (heq ▸ List.mem_map_of_mem hs'')
      exact absurd hid.symm (hv.id_ne hr'' hrow hname)

end Rounds

end

section

variable {R K S C T E F : Type} [DecidableEq K] (m : Model R K) (w : Owned C)
  (create : Int → List T → Except E (List C)) (items : F → K → List T) (name : S → K)
  (entries : F → List S)

/-- One loop for each input, with a valid table after it. A name with a list has an
    entry. -/
inductive Loops : List F → List R → List C → List R → List C → Prop
  | nil (named : List R) (rows : List C) : Loops [] named rows named rows
  | cons {f : F} {fs : List F} {named named₁ named' : List R} {rows rows₁ rows' : List C} {next : Int}
    (hloop : Rounds m w create (items f) name (entries f) named rows named₁ rows₁)
    (hvalid : m.Valid named₁ next)
    (hentry : ∀ k, items f k ≠ [] → k ∈ (entries f).map name)
    (hrest : Loops fs named₁ rows₁ named' rows') : Loops (f :: fs) named rows named' rows'

namespace Loops

variable {m w create items name entries} {fs : List F} {named named' : List R} {rows rows' : List C}

theorem first_of_some (h : Loops m w create items name entries fs named rows named' rows') {k : K}
    {r : R} (hr : m.first named k = some r) : ∃ r', m.first named' k = some r' ∧ m.id r' = m.id r := by
  induction h generalizing r with
  | nil => exact ⟨r, hr, rfl⟩
  | cons hloop _ _ _ ih =>
    obtain ⟨r₁, hr₁, hid₁⟩ := hloop.first_of_some hr
    obtain ⟨r', hr', hid'⟩ := ih hr₁
    exact ⟨r', hr', hid'.trans hid₁⟩

theorem frame (hcreate : ∀ o ts new, create o ts = .ok new → ∀ c ∈ new, w.owner c = o)
    (h : Loops m w create items name entries fs named rows named' rows') {o : Int}
    (ho : ∀ f ∈ fs, ∀ k r, m.first named' k = some r → m.id r = o → items f k = []) :
    w.rowsOf rows' o = w.rowsOf rows o := by
  induction h with
  | nil => rfl
  | @cons f _ _ _ _ _ _ _ _ hloop _ _ hrest ih =>
    rw [ih fun f' hf' => ho f' (List.mem_cons_of_mem _ hf')]
    apply hloop.frame hcreate
    intro s _ r hr hid
    obtain ⟨r', hr', hid'⟩ := hrest.first_of_some hr
    exact ho f List.mem_cons_self _ r' hr' (hid'.trans hid)

/-- The name has the list of an input `f`, if no later one has a list for it. -/
theorem listed (hcreate : ∀ o ts new, create o ts = .ok new → ∀ c ∈ new, w.owner c = o)
    {f : F} {before after : List F} {next : Int} (hv : m.Valid named' next)
    (h : Loops m w create items name entries (before ++ f :: after) named rows named' rows') {k : K}
    (hne : items f k ≠ []) (hafter : ∀ g ∈ after, items g k = []) :
    ∃ r new n, m.first named' k = some r ∧ create (m.id r) (items f k) = .ok new ∧
      w.rowsOf rows' (m.id r) = w.numbered n new := by
  induction before generalizing named rows with
  | cons g before ih =>
    cases h with
    | cons _ _ _ hrest => exact ih hrest
  | nil =>
    cases h with
    | cons hloop hvalid hentry hrest =>
      obtain ⟨s, hs, rfl⟩ := List.mem_map.1 (hentry k hne)
      obtain ⟨r, hr, hlist⟩ := hloop.listed hcreate hvalid hs
      obtain ⟨new, n, hnew, hrows⟩ := hlist hne
      obtain ⟨r', hr', hid'⟩ := hrest.first_of_some hr
      refine ⟨r', new, n, hr', by rw [hid']; exact hnew, ?_⟩
      rw [hid', ← hrows]
      apply hrest.frame hcreate
      -- the primary key belongs to this name alone
      intro g hg k' r'' hr'' hid
      by_cases hk : k' = name s
      · rw [hk]
        exact hafter g hg
      · exact absurd (hid.trans hid'.symm) (hv.id_ne hr' hr'' hk)

end Loops

end

end DataLoader.Relational
