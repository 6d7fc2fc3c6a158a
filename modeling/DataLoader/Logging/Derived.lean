import DataLoader.Effects.Slices
import DataLoader.Effects.Transition
import DataLoader.Logging.Entry

/-!
# Derived loggers

Model of `WithAttrs` and `WithGroup` (lines 120–151 of `internal/logging/dbhandler.go`).
A handler holds two slices, and handlers that are derived from one another share them:
`WithAttrs` keeps the groups and `WithGroup` the attributes. `Loggers` is a set of
handlers made by any derivations, each from any handler that is there.

* `withAttrs_eq`, `withGroup_eq`: the new slice is an array of its own.
* `Loggers.Sound`: every handler shows the attributes and the groups of the calls that
  made it. A derivation keeps this and leaves what is there (`Sound.step`), and so do any
  derivations (`Sound.derives`).
* `handle_eq_onePass`: `Handle` is one pass over the flat list of attributes.
-/

namespace DataLoader.Logging

open Codec Effects

/-! ## Model -/

/-- A call that derives a handler. -/
inductive Derive
  | withAttrs (attrs : List Attr)
  | withGroup (name : GoString)

/-- The arrays behind the slices of the handlers. -/
structure LogMem where
  attrs : Arrays Attr := .start
  groups : Arrays GoString := .start

/-- `DBHandler`, the two slices (lines 32–33). -/
structure Handler where
  attrs : Slice := .nil
  groups : Slice := .nil
  deriving DecidableEq, Repr

/-- The zero `slog.Attr`, whose value is nil. -/
instance : Inhabited Attr := ⟨⟨[], .plain (.other ⟨.ofString "<nil>", some .null⟩)⟩⟩

/-- Model of `WithAttrs` (lines 120–136). -/
def withAttrs (m : LogMem) (h : Handler) (attrs : List Attr) : LogMem × Handler :=
  let path := join (m.groups.view h.groups)
  let new := m.attrs.make 0 (h.attrs.len + attrs.length)
  let new := new.1.append new.2 (new.1.view h.attrs)
  let new := attrs.foldl (fun p a => p.1.append p.2 [qualify path a]) new
  ({ m with attrs := new.1 }, { h with attrs := new.2 })

/-- Model of `WithGroup` (lines 138–151). -/
def withGroup (m : LogMem) (h : Handler) (name : GoString) : LogMem × Handler :=
  if name = [] then (m, h)
  else
    let new := m.groups.make (h.groups.len + 1) (h.groups.len + 1)
    let copied := new.1.copy new.2 h.groups
    ({ m with groups := copied.store new.2 h.groups.len [name] }, { h with groups := new.2 })

def derive (m : LogMem) (h : Handler) : Derive → LogMem × Handler
  | .withAttrs attrs => withAttrs m h attrs
  | .withGroup name => withGroup m h name

/-- A handler, and the calls that made it. -/
structure Logger where
  handler : Handler := {}
  calls : List Derive := []

/-- The handlers by number; the first is that of `NewDBHandler`. -/
structure Loggers where
  mem : LogMem := {}
  loggers : List Logger := [{}]

namespace Loggers

/-- One derivation, from the handler number `i`. -/
def step : ℕ × Derive → Loggers → Option Loggers
  | (i, d), w =>
    w.loggers[i]?.map fun l =>
      { mem := (derive w.mem l.handler d).1
        loggers := w.loggers ++ [⟨(derive w.mem l.handler d).2, l.calls ++ [d]⟩] }

/-- What the handler number `n` makes of a record. -/
def persists (w : Loggers) (n : ℕ) (r : Record) : Option LogEntry :=
  w.loggers[n]?.map fun l =>
    handle (w.mem.attrs.view l.handler.attrs) (w.mem.groups.view l.handler.groups) r

end Loggers

/-! ## The flat list -/

/-- An attribute under the names of the groups around it. -/
def nest (groups : List GoString) (a : Attr) : Attr :=
  { a with key := groups.foldr (fun g k => g ++ .char '.' :: k) a.key }

/-- The groups that the calls open. -/
def openGroups (calls : List Derive) : List GoString :=
  calls.filterMap fun
    | .withAttrs _ => none
    | .withGroup name => if name = [] then none else some name

/-- The attributes that the calls add, within the groups that are open by then. -/
def addedAttrs (groups : List GoString) : List Derive → List Attr
  | [] => []
  | .withAttrs attrs :: calls => attrs.map (nest groups) ++ addedAttrs groups calls
  | .withGroup name :: calls => addedAttrs (groups ++ openGroups [.withGroup name]) calls

/-- All attributes of a record of a logger, in the order of the calls. -/
def flatAttrs (calls : List Derive) (r : Record) : List Attr :=
  addedAttrs [] calls ++ r.attrs.map (nest (openGroups calls))

/-- The entry that one pass over the attributes makes. -/
def onePass (r : Record) (attrs : List Attr) : LogEntry := (attrs.foldl apply r.filling).finish

theorem openGroups_append (c d : List Derive) :
    openGroups (c ++ d) = openGroups c ++ openGroups d := List.filterMap_append

theorem openGroups_ne_nil (calls : List Derive) : ∀ g ∈ openGroups calls, g ≠ [] := by
  intro g hg
  obtain ⟨d, -, hd⟩ := List.mem_filterMap.1 hg
  cases d with
  | withAttrs attrs => cases hd
  | withGroup name =>
    dsimp only at hd
    split_ifs at hd with hname
    cases hd
    exact hname

theorem addedAttrs_append (groups : List GoString) (c d : List Derive) :
    addedAttrs groups (c ++ d) = addedAttrs groups c ++ addedAttrs (groups ++ openGroups c) d := by
  induction c generalizing groups with
  | nil => simp [addedAttrs, openGroups]
  | cons a c ih =>
    have hopen := openGroups_append [a] c
    cases a with
    | withAttrs attrs =>
      rw [List.cons_append, addedAttrs, addedAttrs, ih, List.append_assoc]
      rfl
    | withGroup name =>
      rw [List.singleton_append] at hopen
      rw [List.cons_append, addedAttrs, addedAttrs, ih, hopen, List.append_assoc]

/-- The separated names of the groups before a key. -/
theorem join_append_cons (g : GoString) (gs : List GoString) (k : GoString) :
    join (g :: gs) ++ .char '.' :: k = (g :: gs).foldr (fun g k => g ++ .char '.' :: k) k := by
  induction gs generalizing g with
  | nil => simp [join]
  | cons g' gs ih =>
    have hrest := ih g'
    rw [List.foldr_cons, ← hrest, join, List.intercalate_cons_cons]
    simp [join]

theorem qualify_join {gs : List GoString} (h : ∀ g ∈ gs, g ≠ []) : qualify (join gs) = nest gs := by
  funext a
  cases gs with
  | nil => rfl
  | cons g gs =>
    have hjoin : join (g :: gs) ≠ [] := by
      cases gs with
      | nil => simpa [join] using h g List.mem_cons_self
      | cons g' gs =>
        rw [join, List.intercalate_cons_cons]
        simp
    rw [qualify, if_pos hjoin, join_append_cons, nest]

/-- `Handle` goes over the attributes of the handler and then over those of the record. -/
theorem handle_eq_onePass {calls : List Derive} (r : Record) :
    handle (addedAttrs [] calls) (openGroups calls) r = onePass r (flatAttrs calls r) := by
  rw [handle, onePass, flatAttrs, List.foldl_append, List.foldl_map,
    qualify_join (openGroups_ne_nil calls)]

/-! ## Derivations -/

/-- `WithAttrs` fills an array of its own. -/
theorem withAttrs_eq {m : LogMem} {h : Handler} {added : List Attr}
    (hs : m.attrs.Shows h.attrs added) (attrs : List Attr) :
    withAttrs m h attrs =
      ({ m with attrs := (m.attrs.fresh
            (added ++ attrs.map (qualify (join (m.groups.view h.groups)))) []).1 },
        { h with attrs := (m.attrs.fresh
            (added ++ attrs.map (qualify (join (m.groups.view h.groups)))) []).2 }) := by
  unfold withAttrs
  simp only [Arrays.foldl_append_make hs]

/-- `WithGroup` fills an array of its own. -/
theorem withGroup_eq {m : LogMem} {h : Handler} {groups : List GoString}
    (hs : m.groups.Shows h.groups groups) {name : GoString} (hname : name ≠ []) :
    withGroup m h name =
      ({ m with groups := (m.groups.fresh (groups ++ [name]) []).1 },
        { h with groups := (m.groups.fresh (groups ++ [name]) []).2 }) := by
  rw [withGroup, if_neg hname]
  simp only [Arrays.store_copy_make hs]
  simp [Arrays.make, Arrays.fresh, hs.len_eq]

/-- All arrays of `m` are as they were, and there may be more. -/
def LogMem.Extends (m m' : LogMem) : Prop :=
  (∃ as, m'.attrs = m.attrs ++ as) ∧ ∃ gs, m'.groups = m.groups ++ gs

/-- The handler shows the attributes and the groups of the calls that made it. -/
structure Logger.Sound (m : LogMem) (l : Logger) : Prop where
  attrs : m.attrs.Shows l.handler.attrs (addedAttrs [] l.calls)
  groups : m.groups.Shows l.handler.groups (openGroups l.calls)

theorem Logger.Sound.extend {m m' : LogMem} {l : Logger} (h : l.Sound m) (he : m.Extends m') :
    l.Sound m' := by
  obtain ⟨⟨as, has⟩, gs, hgs⟩ := he
  exact ⟨has ▸ h.attrs.extend as, hgs ▸ h.groups.extend gs⟩

theorem Logger.Sound.derive {m : LogMem} {l : Logger} (h : l.Sound m) (d : Derive) :
    m.Extends (derive m l.handler d).1 ∧
      Logger.Sound (derive m l.handler d).1 ⟨(derive m l.handler d).2, l.calls ++ [d]⟩ := by
  have hopen := openGroups_append l.calls [d]
  have hadded := addedAttrs_append [] l.calls [d]
  cases d with
  | withAttrs attrs =>
    rw [Logging.derive, withAttrs_eq h.attrs, h.groups.view_eq,
      qualify_join (openGroups_ne_nil l.calls)]
    refine ⟨⟨⟨_, rfl⟩, [], (List.append_nil _).symm⟩, ?_, ?_⟩
    · rw [hadded]
      simpa [addedAttrs] using Arrays.shows_fresh m.attrs _ []
    · rw [hopen]
      simpa [openGroups] using h.groups
  | withGroup name =>
    have hsame : addedAttrs [] (l.calls ++ [.withGroup name]) = addedAttrs [] l.calls := by
      rw [hadded]
      simp [addedAttrs]
    by_cases hname : name = []
    · -- the handler itself is returned
      rw [Logging.derive, withGroup, if_pos hname]
      refine ⟨⟨⟨[], (List.append_nil _).symm⟩, [], (List.append_nil _).symm⟩, ?_, ?_⟩
      · rw [hsame]
        exact h.attrs
      · rw [hopen]
        simpa [openGroups, hname] using h.groups
    · rw [Logging.derive, withGroup_eq h.groups hname]
      refine ⟨⟨⟨[], (List.append_nil _).symm⟩, _, rfl⟩, ?_, ?_⟩
      · rw [hsame]
        exact h.attrs
      · rw [hopen]
        simpa [openGroups, hname] using Arrays.shows_fresh m.groups _ []

namespace Loggers

variable {w w' : Loggers}

/-- Every handler shows the attributes and the groups of the calls that made it. -/
def Sound (w : Loggers) : Prop := ∀ l ∈ w.loggers, l.Sound w.mem

theorem sound_start : Sound {} := by
  intro l hl
  obtain rfl := List.mem_singleton.1 hl
  exact ⟨Arrays.shows_nil, Arrays.shows_nil⟩

/-- The handlers of `w` are there, and so are the arrays behind them, as they were. -/
structure Extends (w w' : Loggers) : Prop where
  mem : w.mem.Extends w'.mem
  loggers : ∃ ls, w'.loggers = w.loggers ++ ls

theorem Extends.refl (w : Loggers) : w.Extends w :=
  ⟨⟨⟨[], (List.append_nil _).symm⟩, [], (List.append_nil _).symm⟩, [], (List.append_nil _).symm⟩

theorem Extends.trans {w₁ w₂ w₃ : Loggers} (h : w₁.Extends w₂) (h' : w₂.Extends w₃) :
    w₁.Extends w₃ := by
  obtain ⟨⟨⟨as, has⟩, gs, hgs⟩, ls, hls⟩ := h
  obtain ⟨⟨⟨as', has'⟩, gs', hgs'⟩, ls', hls'⟩ := h'
  refine ⟨⟨⟨as ++ as', ?_⟩, gs ++ gs', ?_⟩, ls ++ ls', ?_⟩
  · rw [has', has, List.append_assoc]
  · rw [hgs', hgs, List.append_assoc]
  · rw [hls', hls, List.append_assoc]

/-- One derivation. -/
theorem Sound.step (h : w.Sound) {a : ℕ × Derive} (hs : Loggers.step a w = some w') :
    w'.Sound ∧ w.Extends w' := by
  obtain ⟨l, hl, rfl⟩ := Option.map_eq_some_iff.1 hs
  obtain ⟨hext, hnew⟩ := (h l (List.mem_of_getElem? hl)).derive a.2
  refine ⟨?_, hext, _, rfl⟩
  intro l' hl'
  rcases List.mem_append.1 hl' with hl' | hl'
  · exact (h l' hl').extend hext
  · obtain rfl := List.mem_singleton.1 hl'
    exact hnew

/-- Any derivations, one after another. -/
def Derives (w w' : Loggers) : Prop := ∃ ds, runs step ds w = some w'

theorem Sound.derives (h : w.Sound) (hd : w.Derives w') : w'.Sound ∧ w.Extends w' := by
  obtain ⟨ds, hr⟩ := hd
  constructor
  · exact runs_inv (fun h hs => (Sound.step h hs).1) h hr
  · exact runs_rel (P := fun _ => True) (fun h hs => (Sound.step h hs).1) Extends.refl
      Extends.trans (fun _ h hs => (Sound.step h hs).2) (fun _ _ => trivial) h hr

theorem Sound.persists_eq (h : w.Sound) {n : ℕ} {l : Logger} (hl : w.loggers[n]? = some l)
    (r : Record) : w.persists n r = some (onePass r (flatAttrs l.calls r)) := by
  have hsound := h l (List.mem_of_getElem? hl)
  rw [persists, hl, Option.map_some, hsound.attrs.view_eq, hsound.groups.view_eq,
    handle_eq_onePass]

/-- Every chain of calls can be made on a handler that is there. -/
theorem exists_derives (calls : List Derive) {w : Loggers} {n : ℕ} {l : Logger}
    (hl : w.loggers[n]? = some l) :
    ∃ w' : Loggers, w.Derives w' ∧ ∃ l' ∈ w'.loggers, l'.calls = l.calls ++ calls := by
  induction calls generalizing w n l with
  | nil => exact ⟨w, ⟨[], rfl⟩, l, List.mem_of_getElem? hl, (List.append_nil _).symm⟩
  | cons d calls ih =>
    let l₁ : Logger := ⟨(derive w.mem l.handler d).2, l.calls ++ [d]⟩
    let w₁ : Loggers := ⟨(derive w.mem l.handler d).1, w.loggers ++ [l₁]⟩
    have hstep : step (n, d) w = some w₁ := by rw [step, hl, Option.map_some]
    have hl₁ : w₁.loggers[w.loggers.length]? = some l₁ := List.getElem?_concat_length
    obtain ⟨w', ⟨ds, hr⟩, l', hl', hcalls⟩ := ih hl₁
    refine ⟨w', ⟨(n, d) :: ds, runs_cons_eq_some.2 ⟨w₁, hstep, hr⟩⟩, l', hl', ?_⟩
    rw [hcalls, List.append_assoc, List.singleton_append]

theorem flatAttrs_withAttrs_withAttrs (before after : List Derive) (as bs : List Attr)
    (r : Record) :
    flatAttrs (before ++ .withAttrs as :: .withAttrs bs :: after) r =
      flatAttrs (before ++ .withAttrs (as ++ bs) :: after) r := by
  rw [flatAttrs, flatAttrs, addedAttrs_append, addedAttrs_append, openGroups_append,
    openGroups_append]
  simp [addedAttrs, openGroups]

/-- After any derivations, what a handler makes of a record is what one pass makes of the
    attributes of the calls that led to it and of the record, each under the groups that
    were open when it was added. Two `WithAttrs` in a row are one. Derivations change
    nothing for the handlers that are there, and every chain of calls can be made. -/
theorem derived_loggers_flatten {w : Loggers} (h : Derives {} w) :
    (∀ n l, w.loggers[n]? = some l →
      ∀ r, w.persists n r = some (onePass r (flatAttrs l.calls r))) ∧
    (∀ n l n' l' before as bs after, w.loggers[n]? = some l → w.loggers[n']? = some l' →
      l.calls = before ++ .withAttrs as :: .withAttrs bs :: after →
      l'.calls = before ++ .withAttrs (as ++ bs) :: after →
      ∀ r, w.persists n r = w.persists n' r) ∧
    (∀ w' : Loggers, w.Derives w' →
      ∀ n < w.loggers.length, ∀ r, w'.persists n r = w.persists n r) ∧
    ∀ (n : ℕ) (l : Logger) (calls : List Derive), w.loggers[n]? = some l →
      ∃ w' : Loggers, w.Derives w' ∧ ∃ l' ∈ w'.loggers, l'.calls = l.calls ++ calls := by
  have hsound := (sound_start.derives h).1
  refine ⟨fun n l hl r => hsound.persists_eq hl r, ?_, ?_, ?_⟩
  · intro n l n' l' before as bs after hl hl' hcalls hcalls' r
    rw [hsound.persists_eq hl, hsound.persists_eq hl', hcalls, hcalls',
      flatAttrs_withAttrs_withAttrs]
  · intro w' hd n hn r
    obtain ⟨hsound', -, ls, hls⟩ := hsound.derives hd
    have hl : w.loggers[n]? = some w.loggers[n] := List.getElem?_eq_getElem hn
    have hl' : w'.loggers[n]? = some w.loggers[n] := by
      rw [hls, List.getElem?_append_left hn, hl]
    rw [hsound.persists_eq hl, hsound'.persists_eq hl']
  · exact fun n l calls hl => exists_derives calls hl

/-- The calls that lead to a handler for a load, with one attribute in a group. -/
def groupedCalls (a : Attr) : List Derive :=
  [.withAttrs [.ofString "load_id" (.int64 42)], .withGroup (.ofString "g"), .withAttrs [a]]

/-- Two handlers are derived from one with an open group, and each has its own
    attribute. -/
theorem siblings_flatten : ∃ w, Derives {} w ∧
    w.persists 3 ⟨0, 0, .ofString "m", [.ofString "n" (.int64 5)]⟩ = some
      { createdAt := 0, level := "info", message := .ofString "m", loadID := some 42
        details := "\x7b\"g.a\":true,\"g.n\":5\x7d" } ∧
    w.persists 4 ⟨0, 0, .ofString "m", [.ofString "n" (.int64 5)]⟩ = some
      { createdAt := 0, level := "info", message := .ofString "m", loadID := some 42
        details := "\x7b\"g.b\":false,\"g.n\":5\x7d" } := by
  have hrun : ∃ w, runs step
      [(0, .withAttrs [.ofString "load_id" (.int64 42)]), (1, .withGroup (.ofString "g")),
        (2, .withAttrs [.ofString "a" (.bool true)]),
        (2, .withAttrs [.ofString "b" (.bool false)])] {} = some w ∧
      w.loggers[3]?.map Logger.calls = some (groupedCalls (.ofString "a" (.bool true))) ∧
      w.loggers[4]?.map Logger.calls = some (groupedCalls (.ofString "b" (.bool false))) :=
    ⟨_, rfl, rfl, rfl⟩
  obtain ⟨w, hr, h₃, h₄⟩ := hrun
  obtain ⟨l₃, hl₃, hcalls₃⟩ := Option.map_eq_some_iff.1 h₃
  obtain ⟨l₄, hl₄, hcalls₄⟩ := Option.map_eq_some_iff.1 h₄
  obtain ⟨hflat, -⟩ := derived_loggers_flatten ⟨_, hr⟩
  refine ⟨w, ⟨_, hr⟩, ?_, ?_⟩
  · rw [hflat 3 l₃ hl₃, hcalls₃]
    decide +kernel
  · rw [hflat 4 l₄ hl₄, hcalls₄]
    decide +kernel

end Loggers

end DataLoader.Logging
