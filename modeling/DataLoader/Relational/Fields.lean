import DataLoader.Relational.Named

/-!
# One field of a row that is written more than once

The entries of an input that name the same row are written one after the other: the
first creates the row, if there is none yet, and the others update it (`Chain`). A
`Field` is what they do to one field of the row. An entry may leave the field open.

* `Field.keeps_plain_iff`: a field that each entry overwrites, with a zero value when the
  entry leaves it open, has every stated value if and only if the last entry gives it.
* `Field.keeps_optional_iff`: a field that an entry overwrites only when it states it has
  every stated value if and only if these agree.

In both cases a new row may store another value than the one that its entry states.
-/

namespace DataLoader.Relational

variable {D V : Type}

/-- What an entry states for a field, and what it makes of it. -/
structure Field (D V : Type) where
  stated : D → Option V
  created : D → V
  updated : D → V → V

namespace Field

/-- The field after an entry; `none` is a row that does not exist. -/
def write (f : Field D V) (d : D) : Option V → V
  | none => f.created d
  | some v => f.updated d v

/-- The field after the entries of its row. -/
def stored (f : Field D V) : Option V → List D → Option V
  | old, [] => old
  | old, d :: ds => f.stored (some (f.write d old)) ds

/-- Every value that an entry states is the one that is stored. -/
def Keeps (f : Field D V) (old : Option V) (ds : List D) : Prop :=
  ∀ d ∈ ds, ∀ v, f.stated d = some v → f.stored old ds = some v

theorem stored_concat (f : Field D V) (old : Option V) (ds : List D) (d : D) :
    f.stored old (ds ++ [d]) = some (f.write d (f.stored old ds)) := by
  induction ds generalizing old with
  | nil => rfl
  | cons d' ds ih => exact ih _

theorem stored_eq_none {f : Field D V} {old : Option V} {ds : List D} :
    f.stored old ds = none ↔ old = none ∧ ds = [] := by
  induction ds generalizing old with
  | nil => simp [stored]
  | cons d ds ih => simp [stored, ih]

theorem keeps_iff {f : Field D V} {old : Option V} {ds : List D} {x : V}
    (hx : f.stored old ds = some x) :
    f.Keeps old ds ↔ ∀ d ∈ ds, ∀ v, f.stated d = some v → x = v := by
  simp only [Keeps, hx, Option.some.injEq]

/-! ## Fields that every entry overwrites -/

/-- A field whose zero value stands for one that is left open. A new row stores
    `store v` for `v`. -/
def plain (stated : D → Option V) (zero : V) (store : V → V) : Field D V where
  stated
  created d := store ((stated d).getD zero)
  updated d _ := (stated d).getD zero

/-- The last entry gives what any entry states. -/
def LastGives (stated : D → Option V) (zero : V) (ds : List D) : Prop :=
  ∀ e ∈ ds.getLast?, ∀ d ∈ ds, ∀ v, stated d = some v → (stated e).getD zero = v

/-- The only entry of a row states no value that a new row stores otherwise. -/
def SingleGives (stated : D → Option V) (store : V → V) (ds : List D) : Prop :=
  ∀ d, ds = [d] → ∀ v, stated d = some v → store v = v

variable {stated : D → Option V} {zero : V} {store : V → V} {old : Option V} {ds : List D}

theorem keeps_plain_iff :
    (plain stated zero store).Keeps old ds ↔
      LastGives stated zero ds ∧ (old = none → SingleGives stated store ds) := by
  rcases List.eq_nil_or_concat ds with rfl | ⟨init, e, rfl⟩
  · simp [Keeps, LastGives, SingleGives]
  rw [List.concat_eq_append]
  by_cases hnew : old = none ∧ init = []
  · -- the row is new, and this is its only entry
    obtain ⟨rfl, rfl⟩ := hnew
    have hstored : (plain stated zero store).stored none [e] = some (store ((stated e).getD zero)) :=
      rfl
    rw [List.nil_append, keeps_iff hstored]
    constructor
    · intro h
      refine ⟨?_, ?_⟩
      · intro e' he' d hd v hv
        rw [List.getLast?_singleton, Option.mem_some_iff] at he'
        obtain rfl := List.mem_singleton.1 hd
        rw [← he', hv, Option.getD_some]
      · intro _ d hd v hv
        obtain rfl := List.singleton_inj.1 hd
        have hkept := h e List.mem_cons_self v hv
        rwa [hv, Option.getD_some] at hkept
    · rintro ⟨-, h⟩ d hd v hv
      obtain rfl := List.mem_singleton.1 hd
      have hv : stated d = some v := hv
      rw [hv, Option.getD_some]
      exact h rfl d rfl v hv
  · have hstored : (plain stated zero store).stored old (init ++ [e]) =
        some ((stated e).getD zero) := by
      rw [stored_concat]
      cases hinit : (plain stated zero store).stored old init with
      | none => exact absurd (stored_eq_none.1 hinit) hnew
      | some v => rfl
    have hsingle : old = none → SingleGives stated store (init ++ [e]) := by
      intro hold d hd
      have hlength := congrArg List.length hd
      rw [List.length_append, List.length_singleton, List.length_singleton] at hlength
      exact absurd ⟨hold, List.length_eq_zero_iff.1 (by omega)⟩ hnew
    rw [keeps_iff hstored]
    constructor
    · intro h
      refine ⟨?_, hsingle⟩
      intro e' he' d hd v hv
      rw [List.getLast?_concat] at he'
      obtain rfl := Option.mem_some_iff.1 he'
      exact h d hd v hv
    · rintro ⟨h, -⟩ d hd v hv
      exact h e (by rw [List.getLast?_concat]; rfl) d hd v hv

/-! ## Fields that an entry may leave alone -/

/-- A field that stays as it is when the entry leaves it open. -/
def optional (stated : D → Option V) (default : V) (store : V → V) : Field D V where
  stated
  created d := store ((stated d).getD default)
  updated d v := (stated d).getD v

/-- The entries that state a value state the same one. -/
def Agree (stated : D → Option V) (ds : List D) : Prop :=
  ∀ d ∈ ds, ∀ e ∈ ds, ∀ v v', stated d = some v → stated e = some v' → v = v'

/-- Where the first entry states a value that a new row stores otherwise, a later one
    states a value again. -/
def Restates (stated : D → Option V) (store : V → V) (ds : List D) : Prop :=
  ∀ d rest, ds = d :: rest → ∀ v, stated d = some v → store v ≠ v → ∃ e ∈ rest, (stated e).isSome

theorem stored_optional (default v : V) (ds : List D) :
    (optional stated default store).stored (some v) ds =
      some ((ds.filterMap stated).getLast?.getD v) := by
  induction ds generalizing v with
  | nil => rfl
  | cons d ds ih =>
    have hstep := ih ((stated d).getD v)
    rw [stored, List.filterMap_cons]
    cases hd : stated d with
    | none =>
      rw [hd] at hstep
      simpa [write, optional, hd] using hstep
    | some x =>
      rw [hd] at hstep
      simp only [write, optional, hd, List.getLast?_cons]
      exact hstep

theorem agree_of_forall {x : V} (h : ∀ d ∈ ds, ∀ v, stated d = some v → x = v) : Agree stated ds :=
  fun d hd e he v v' hv hv' => (h d hd v hv).symm.trans (h e he v' hv')

theorem keeps_optional_iff {default : V} :
    (optional stated default store).Keeps old ds ↔
      Agree stated ds ∧ (old = none → Restates stated store ds) := by
  -- what is stored is stated by some entry, or comes from the row as it was
  have hstated : ∀ {es : List D} {x : V}, (es.filterMap stated).getLast? = some x →
      ∃ e ∈ es, stated e = some x := by
    intro es x hx
    exact List.mem_filterMap.1 (List.mem_of_getLast? hx)
  have hopen : ∀ {es : List D}, (es.filterMap stated).getLast? = none → ∀ e ∈ es, stated e = none := by
    intro es hx e he
    rw [List.getLast?_eq_none_iff, List.filterMap_eq_nil_iff] at hx
    exact hx e he
  cases old with
  | some v₀ =>
    rw [keeps_iff (stored_optional default v₀ ds)]
    constructor
    · exact fun h => ⟨agree_of_forall h, fun hold => by cases hold⟩
    · rintro ⟨hagree, -⟩ d hd v hv
      have hv : stated d = some v := hv
      cases hx : (ds.filterMap stated).getLast? with
      | none => exact absurd (hopen hx d hd) (by rw [hv]; simp)
      | some x =>
        obtain ⟨e, he, hex⟩ := hstated hx
        exact hagree e he d hd x v hex hv
  | none =>
    cases ds with
    | nil => simp [Keeps, Agree, Restates]
    | cons d ds =>
      have hstored : (optional stated default store).stored none (d :: ds) =
          some ((ds.filterMap stated).getLast?.getD (store ((stated d).getD default))) :=
        stored_optional default _ ds
      rw [keeps_iff hstored]
      constructor
      · intro h
        refine ⟨agree_of_forall h, ?_⟩
        rintro - d' rest heq v hv hstore
        obtain ⟨rfl, rfl⟩ := List.cons.inj heq
        by_contra hnone
        have hx : (ds.filterMap stated).getLast? = none := by
          rw [List.getLast?_eq_none_iff, List.filterMap_eq_nil_iff]
          intro e he
          by_contra hsome
          exact hnone ⟨e, he, Option.isSome_iff_ne_none.2 hsome⟩
        have hkept := h d List.mem_cons_self v hv
        rw [hx, hv] at hkept
        exact hstore hkept
      · rintro ⟨hagree, hrestates⟩ d' hd' v hv
        have hv : stated d' = some v := hv
        cases hx : (ds.filterMap stated).getLast? with
        | some x =>
          obtain ⟨e, he, hex⟩ := hstated hx
          exact hagree e (List.mem_cons_of_mem _ he) d' hd' x v hex hv
        | none =>
          obtain rfl : d' = d := by
            rcases List.mem_cons.1 hd' with rfl | hd'
            · rfl
            · exact absurd (hopen hx d' hd') (by rw [hv]; simp)
          rw [hv, Option.getD_some, Option.getD_none]
          by_contra hstore
          obtain ⟨e, he, hsome⟩ := hrestates rfl d' ds rfl v hv hstore
          rw [hopen hx e he] at hsome
          exact absurd hsome (by simp)

/-! ## A single entry -/

section

variable {e : D} (hds : ∀ d ∈ ds, d = e)
include hds

theorem lastGives_of_single : LastGives stated zero ds := by
  intro e' he' d hd v hv
  rw [hds e' (List.mem_of_getLast? he'), ← hds d hd, hv, Option.getD_some]

theorem agree_of_single : Agree stated ds := by
  intro d hd d' hd' v v' hv hv'
  rw [hds d hd] at hv
  rw [hds d' hd'] at hv'
  exact Option.some.inj (hv.symm.trans hv')

theorem singleGives_of_single (h : ∀ v, stated e = some v → store v = v) :
    SingleGives stated store ds := by
  intro d hd v hv
  rw [hds d (by rw [hd]; exact List.mem_cons_self)] at hv
  exact h v hv

theorem restates_of_single (h : ∀ v, stated e = some v → store v = v) :
    Restates stated store ds := by
  intro d rest hd v hv hstore
  rw [hds d (by rw [hd]; exact List.mem_cons_self)] at hv
  exact absurd (h v hv) hstore

end

end Field

/-! ## The rows behind the fields -/

section

variable {R K S : Type}

/-- The entries of one row, written one after the other. -/
inductive Chain (W : D → Option R → R → Prop) : List D → Option R → Option R → Prop
  | nil (o : Option R) : Chain W [] o o
  | cons {d : D} {ds : List D} {o o' : Option R} {r : R} (hw : W d o r)
    (hrest : Chain W ds (some r) o') : Chain W (d :: ds) o o'

variable {W : D → Option R → R → Prop} {ds : List D} {o o' : Option R}

theorem Chain.stored {f : Field D V} {get : R → V}
    (hget : ∀ d o r, W d o r → get r = f.write d (o.map get)) (h : Chain W ds o o') :
    o'.map get = f.stored (o.map get) ds := by
  induction h with
  | nil => rfl
  | cons hw _ ih =>
    rw [ih, Field.stored, ← hget _ _ _ hw]
    rfl

theorem Chain.exists_write (h : Chain W ds o o') {d : D} (hd : d ∈ ds) : ∃ o r, W d o r := by
  induction h with
  | nil => exact absurd hd List.not_mem_nil
  | cons hw _ ih =>
    rcases List.mem_cons.1 hd with rfl | hd
    · exact ⟨_, _, hw⟩
    · exact ih hd

theorem Chain.exists_row (h : Chain W ds o o') (hds : ds ≠ []) : ∃ r, o' = some r := by
  induction h with
  | nil => exact absurd rfl hds
  | @cons _ ds _ _ r _ hrest ih =>
    cases ds with
    | nil =>
      cases hrest
      exact ⟨r, rfl⟩
    | cons => exact ih (List.cons_ne_nil _ _)

/-- A field of the row has every stated value. -/
theorem Chain.keeps_iff {f : Field D V} {get : R → V}
    (hget : ∀ d o r, W d o r → get r = f.write d (o.map get)) (h : Chain W ds o o') :
    f.Keeps (o.map get) ds ↔
      ∀ d ∈ ds, ∀ r, o' = some r → ∀ v, f.stated d = some v → get r = v := by
  rw [Field.Keeps, ← h.stored hget]
  constructor
  · intro hkeeps d hd r hr v hv
    have hstored := hkeeps d hd v hv
    rw [hr] at hstored
    exact Option.some.inj hstored
  · intro hrows d hd v hv
    obtain ⟨r, rfl⟩ := h.exists_row (List.ne_nil_of_mem hd)
    exact congrArg some (hrows d hd r rfl v hv)

theorem Chain.plain_iff (h : Chain W ds o o') (get : R → V) (stated : D → Option V) (zero : V)
    (store : V → V)
    (hget : ∀ d o r, W d o r → get r = (Field.plain stated zero store).write d (o.map get)) :
    (∀ d ∈ ds, ∀ r, o' = some r → ∀ v, stated d = some v → get r = v) ↔
      Field.LastGives stated zero ds ∧ (o = none → Field.SingleGives stated store ds) := by
  have hnone : o.map get = none ↔ o = none := Option.map_eq_none_iff
  rw [← hnone, ← Field.keeps_plain_iff]
  exact (h.keeps_iff hget).symm

theorem Chain.optional_iff (h : Chain W ds o o') (get : R → V) (stated : D → Option V)
    (default : V) (store : V → V)
    (hget : ∀ d o r, W d o r → get r = (Field.optional stated default store).write d (o.map get)) :
    (∀ d ∈ ds, ∀ r, o' = some r → ∀ v, stated d = some v → get r = v) ↔
      Field.Agree stated ds ∧ (o = none → Field.Restates stated store ds) := by
  have hnone : o.map get = none ↔ o = none := Option.map_eq_none_iff
  rw [← hnone, ← Field.keeps_optional_iff]
  exact (h.keeps_iff hget).symm

/-- The entries of a name in a loop over a whole input. -/
theorem Model.Upserts.chain [DecidableEq K] {m : Model R K} {name : S → K}
    {W : S → Option R → R → Prop} {entry : D → S} {ds : List D} {rows rows' : List R}
    (h : m.Upserts name W (ds.map entry) rows rows') (k : K) :
    Chain (fun d => W (entry d)) (ds.filter fun d => name (entry d) = k) (m.first rows k)
      (m.first rows' k) := by
  induction ds generalizing rows with
  | nil =>
    cases h
    exact .nil _
  | cons d ds ih =>
    cases h with
    | cons hw hp hrest =>
      rw [List.filter_cons]
      split_ifs with hk
      · have hk : name (entry d) = k := of_decide_eq_true hk
        have hchain := ih hrest
        rw [← hk, hp.row, hk] at hchain
        rw [hk] at hw
        exact .cons hw hchain
      · have hchain := ih hrest
        rwa [hp.rest k fun heq => hk (decide_eq_true heq.symm)] at hchain

end

end DataLoader.Relational
