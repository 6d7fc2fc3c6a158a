import Mathlib.Data.List.Basic
import Mathlib.Data.List.Count

/-!
# Delimited text

Codes in which a reader can tell where a value ends, and texts made of fields
that each end in a separator.

* `SelfDelimiting`: the code of a value is told apart from what follows it.
* `selfDelimiting_field`, `SelfDelimiting.append`, `SelfDelimiting.list`:
  values that avoid their terminator, values one after another, and lists of them.
* `exists_shift`: if a field may hold the separator, another list of as many
  fields has the same text.
-/

namespace DataLoader.Codec

variable {α β χ : Type}

/-- Among the values that satisfy `P`, the code of one value followed by anything
    determines both. -/
def SelfDelimiting (P : α → Prop) (enc : α → List χ) : Prop :=
  ∀ ⦃a b : α⦄, P a → P b → ∀ ⦃s t : List χ⦄, enc a ++ s = enc b ++ t → a = b ∧ s = t

theorem append_cons_inj {c : χ} {x y s t : List χ} (hx : c ∉ x) (hy : c ∉ y)
    (h : x ++ c :: s = y ++ c :: t) : x = y ∧ s = t := by
  induction x generalizing y with
  | nil =>
    cases y with
    | nil => exact ⟨rfl, (List.cons.inj h).2⟩
    | cons d y =>
      obtain rfl := (List.cons.inj h).1
      exact absurd List.mem_cons_self hy
  | cons d x ih =>
    cases y with
    | nil =>
      obtain rfl := (List.cons.inj h).1
      exact absurd List.mem_cons_self hx
    | cons e y =>
      obtain ⟨rfl, hrest⟩ := List.cons.inj h
      obtain ⟨rfl, rfl⟩ := ih (List.not_mem_of_not_mem_cons hx) (List.not_mem_of_not_mem_cons hy)
        hrest
      exact ⟨rfl, rfl⟩

/-- A field that avoids its terminator. -/
theorem selfDelimiting_field (c : χ) : SelfDelimiting (fun x => c ∉ x) fun x : List χ => x ++ [c] := by
  intro x y hx hy s t h
  simp only [List.append_assoc, List.singleton_append] at h
  exact append_cons_inj hx hy h

/-- One value after another. -/
theorem SelfDelimiting.append {P : α → Prop} {Q : β → Prop} {enc : α → List χ} {enc' : β → List χ}
    (h : SelfDelimiting P enc) (h' : SelfDelimiting Q enc') :
    SelfDelimiting (fun p : α × β => P p.1 ∧ Q p.2) fun p => enc p.1 ++ enc' p.2 := by
  rintro ⟨a, b⟩ ⟨a', b'⟩ hp hp' s t heq
  simp only [List.append_assoc] at heq
  obtain ⟨rfl, hrest⟩ := h hp.1 hp'.1 heq
  obtain ⟨rfl, hst⟩ := h' hp.2 hp'.2 hrest
  exact ⟨rfl, hst⟩

/-- The code of a list ends where no further value can begin. -/
theorem SelfDelimiting.list {P : α → Prop} {enc : α → List χ} (h : SelfDelimiting P enc)
    {as bs : List α} {s t : List χ} (heq : as.flatMap enc ++ s = bs.flatMap enc ++ t)
    (has : ∀ a ∈ as, P a) (hbs : ∀ b ∈ bs, P b) (hs : ∀ a u, P a → s ≠ enc a ++ u)
    (ht : ∀ a u, P a → t ≠ enc a ++ u) : as = bs ∧ s = t := by
  induction as generalizing bs with
  | nil =>
    cases bs with
    | nil => exact ⟨rfl, heq⟩
    | cons b bs =>
      rw [List.flatMap_cons, List.append_assoc] at heq
      exact absurd heq (hs b _ (hbs b List.mem_cons_self))
  | cons a as ih =>
    cases bs with
    | nil =>
      rw [List.flatMap_cons, List.append_assoc] at heq
      exact absurd heq.symm (ht a _ (has a List.mem_cons_self))
    | cons b bs =>
      simp only [List.flatMap_cons, List.append_assoc] at heq
      obtain ⟨rfl, hrest⟩ := h (has a List.mem_cons_self) (hbs b List.mem_cons_self) heq
      obtain ⟨rfl, hst⟩ := ih hrest (fun x hx => has x (List.mem_cons_of_mem _ hx))
        (fun x hx => hbs x (List.mem_cons_of_mem _ hx))
      exact ⟨rfl, hst⟩

/-- Lists of one length need no end. -/
theorem SelfDelimiting.listOfLength {P : α → Prop} {enc : α → List χ} (h : SelfDelimiting P enc)
    (n : ℕ) :
    SelfDelimiting (fun as : List α => as.length = n ∧ ∀ a ∈ as, P a) fun as => as.flatMap enc := by
  induction n with
  | zero =>
    rintro as bs ⟨ha, -⟩ ⟨hb, -⟩ s t heq
    rw [List.length_eq_zero_iff] at ha hb
    subst ha hb
    exact ⟨rfl, heq⟩
  | succ n ih =>
    rintro as bs ⟨ha, has⟩ ⟨hb, hbs⟩ s t heq
    obtain ⟨a, as, rfl⟩ := List.exists_cons_of_length_eq_add_one ha
    obtain ⟨b, bs, rfl⟩ := List.exists_cons_of_length_eq_add_one hb
    simp only [List.flatMap_cons, List.append_assoc] at heq
    obtain ⟨rfl, hrest⟩ := h (has a List.mem_cons_self) (hbs b List.mem_cons_self) heq
    obtain ⟨rfl, hst⟩ := ih
      ⟨by simpa using ha, fun x hx => has x (List.mem_cons_of_mem _ hx)⟩
      ⟨by simpa using hb, fun x hx => hbs x (List.mem_cons_of_mem _ hx)⟩ hrest
    exact ⟨rfl, hst⟩

/-! ## Fields -/

/-- The fields, each followed by the separator. -/
def fields (sep : χ) (xs : List (List χ)) : List χ := xs.flatMap fun x => x ++ [sep]

/-- Lists of `n` fields that avoid the separator. -/
theorem selfDelimiting_fields (sep : χ) (n : ℕ) :
    SelfDelimiting (fun xs : List (List χ) => xs.length = n ∧ ∀ x ∈ xs, sep ∉ x) (fields sep) := by
  exact (selfDelimiting_field sep).listOfLength n

/-- Any number of fields, up to the end of the text. -/
theorem fields_injective {sep : χ} {xs ys : List (List χ)} (hx : ∀ x ∈ xs, sep ∉ x)
    (hy : ∀ y ∈ ys, sep ∉ y) (h : fields sep xs = fields sep ys) : xs = ys := by
  have hend : ∀ (x u : List χ), sep ∉ x → [] ≠ (x ++ [sep]) ++ u := by
    intro x u _ hnil
    simp at hnil
  exact ((selfDelimiting_field sep).list (congrArg (· ++ []) h) hx hy hend hend).1

theorem count_fields [DecidableEq χ] (sep : χ) (xs : List (List χ)) :
    (fields sep xs).count sep = xs.flatten.count sep + xs.length := by
  induction xs with
  | nil => rfl
  | cons x xs ih =>
    rw [fields, List.flatMap_cons, List.count_append, ← fields, ih]
    simp only [List.count_append, List.count_singleton_self, List.flatten_cons, List.length_cons]
    omega

/-- A separator inside a field could as well stand between two fields. -/
theorem exists_shift {sep : χ} {xs : List (List χ)} (hlen : 2 ≤ xs.length)
    (h : ∃ x ∈ xs, sep ∈ x) :
    ∃ ys : List (List χ), ys.length = xs.length ∧ ys ≠ xs ∧ fields sep ys = fields sep xs := by
  induction xs with
  | nil => cases hlen
  | cons x xs ih =>
    cases xs with
    | nil => simp at hlen
    | cons y rest =>
      by_cases hx : sep ∈ x
      · -- the part after the separator moves to the next field
        obtain ⟨a, b, rfl⟩ := List.append_of_mem hx
        refine ⟨a :: (b ++ sep :: y) :: rest, rfl, ?_, by simp [fields]⟩
        intro heq
        have hlength := congrArg List.length (List.cons.inj heq).1
        simp at hlength
      · by_cases hy : sep ∈ y
        · -- the part before the separator moves to the field before
          obtain ⟨a, b, rfl⟩ := List.append_of_mem hy
          refine ⟨(x ++ sep :: a) :: b :: rest, rfl, ?_, by simp [fields]⟩
          intro heq
          have hlength := congrArg List.length (List.cons.inj heq).1
          simp at hlength
        · obtain ⟨z, hz, hsep⟩ := h
          have hmem : z ∈ rest := by
            rcases List.mem_cons.1 hz with rfl | hz
            · exact absurd hsep hx
            · rcases List.mem_cons.1 hz with rfl | hz
              · exact absurd hsep hy
              · exact hz
          have hpos : 0 < rest.length := List.length_pos_of_mem hmem
          obtain ⟨ys, hlen', hne, heq⟩ := ih (by simp only [List.length_cons]; omega)
            ⟨z, List.mem_cons_of_mem y hmem, hsep⟩
          refine ⟨x :: ys, by simp [hlen'], fun hcons => hne (List.cons.inj hcons).2, ?_⟩
          simp only [fields, List.flatMap_cons] at heq ⊢
          rw [heq]

end DataLoader.Codec
