import DataLoader.Runstate
import Mathlib.Data.List.Chain
import Mathlib.Data.List.Perm.Basic

/-!
# `Reload` against the metadata

Model of `Scheduler.Reload` (`internal/scheduler/scheduler.go`, lines 87–183):
the map `scheduled` and the cron table are brought in line with the enabled
loads of the metadata, one remove, add, reschedule or update at a time.

Go visits a map in an order of its own choice, so `reload` is given the two
orders (`Orders`) and every order is allowed. Of `robfig/cron` only this is
used: `AddFunc` adds an entry under a new id exactly when the expression parses,
and `Remove` deletes the entry of an id.

Results:
* `removeStale_inStep`, `upsertAll_inStep`: the two loops keep the map and the
  cron table in step, and say what the map holds afterwards.
* `reloads_synced`: after any history of reloads in which no scheduled load is
  edited to an expression that does not parse, the map holds the accepted loads
  of the last snapshot.
-/

namespace DataLoader

open scoped List

/-! ## The cron table -/

/-- `cron.Entry`: its id, its expression, and the load that its job triggers. -/
structure CronEntry where
  id : ℕ
  spec : String
  loadID : Int
  deriving DecidableEq, Repr

/-- `*cron.Cron`: the entries and the last id given out. -/
structure Cron where
  entries : List CronEntry := []
  nextID : ℕ := 0
  deriving DecidableEq, Repr

/-- `cron.Remove`. -/
def Cron.remove (c : Cron) (id : ℕ) : Cron :=
  { c with entries := c.entries.filter fun e => e.id ≠ id }

/-- The table after an entry has been added under the next id. -/
def Cron.add (c : Cron) (spec : String) (loadID : Int) : Cron :=
  ⟨c.entries ++ [⟨c.nextID + 1, spec, loadID⟩], c.nextID + 1⟩

/-- `cron.AddFunc`: the id of the new entry and the table, or `none` when the
    expression does not parse. -/
def Cron.addFunc (parses : String → Bool) (c : Cron) (spec : String) (loadID : Int) :
    Option (ℕ × Cron) :=
  if parses spec then some (c.nextID + 1, c.add spec loadID) else none

/-! ## The scheduler -/

/-- `scheduledLoad` (lines 17–20). -/
structure ScheduledLoad where
  load : Load
  entryID : ℕ
  deriving DecidableEq, Repr

/-- The fields of `Scheduler` (lines 31–46) that `Reload` and `trigger` use under
    its lock. -/
structure Scheduler where
  cron : Cron := {}
  scheduled : AList fun _ : Int => ScheduledLoad := ∅
  running : Int → Bool := fun _ => false
  fingerprint : String := ""

/-- The metadata at one moment: its fingerprint and its loads, whose ids are the
    keys of a table. -/
structure Snapshot where
  fingerprint : String
  loads : List Load
  nodup : (loads.map (·.id)).Nodup

/-- The metadata before anything has been read. -/
def Snapshot.empty : Snapshot := ⟨"", [], List.nodup_nil⟩

/-- Model of `ListEnabledLoads` (`repository.go`, lines 28–37). -/
def Snapshot.listEnabledLoads (m : Snapshot) : List Load :=
  m.loads.filter fun ld => ld.isEnabled && ld.source.isEnabled

/-- `desiredByID` (lines 106–109): a later load replaces an earlier one. -/
def desiredByID (desired : List Load) : AList fun _ : Int => Load :=
  desired.foldl (fun m ld => m.insert ld.id ld) ∅

/-- The orders in which one reload visits the maps `scheduled` and
    `desiredByID`. -/
structure Orders where
  scheduled : List Int
  desired : List Load

namespace Scheduler

variable (parses : String → Bool)

/-- The first loop (lines 116–122): drop what is no longer desired. -/
def removeStale (desired : AList fun _ : Int => Load) : List Int → Scheduler → Scheduler
  | [], s => s
  | id :: ids, s =>
    match s.scheduled.lookup id, desired.lookup id with
    | some existing, none =>
      removeStale desired ids
        { s with cron := s.cron.remove existing.entryID, scheduled := s.scheduled.erase id }
    | _, _ => removeStale desired ids s

/-- The body of the second loop (lines 125–161). When an edited expression does
    not parse, the old cron entry is gone and the map keeps its old value. -/
def upsert (s : Scheduler) (ld : Load) : Scheduler :=
  match s.scheduled.lookup ld.id with
  | some existing =>
    if existing.load.cronExpression ≠ ld.cronExpression then
      let cron := s.cron.remove existing.entryID
      match cron.addFunc parses ld.cronExpression ld.id with
      | none => { s with cron }
      | some (entryID, cron) =>
        { s with cron, scheduled := s.scheduled.insert ld.id ⟨ld, entryID⟩ }
    else { s with scheduled := s.scheduled.insert ld.id ⟨ld, existing.entryID⟩ }
  | none =>
    match s.cron.addFunc parses ld.cronExpression ld.id with
    | none => s
    | some (entryID, cron) => { s with cron, scheduled := s.scheduled.insert ld.id ⟨ld, entryID⟩ }

/-- The locked section of `Reload` (lines 111–173), `none` when `o` are not
    orders of the two maps. -/
def applyReload (fp : String) (desired : List Load) (o : Orders) (s : Scheduler) :
    Option Scheduler :=
  let byID := desiredByID desired
  if o.scheduled.isPerm s.scheduled.keys && o.desired.isPerm (byID.entries.map (·.2)) then
    some { o.desired.foldl (upsert parses) (removeStale byID o.scheduled s) with fingerprint := fp }
  else none

/-- Model of `Reload` (lines 87–183) when the repository answers: nothing is done
    for a fingerprint that has not changed. -/
def reload (m : Snapshot) (o : Orders) (s : Scheduler) : Option Scheduler :=
  if m.fingerprint = s.fingerprint then some s
  else s.applyReload parses m.fingerprint m.listEnabledLoads o

/-- Reloads on one snapshot after another. -/
def reloads : List (Snapshot × Orders) → Scheduler → Option Scheduler
  | [], s => some s
  | (m, o) :: ms, s => (s.reload parses m o).bind (reloads ms)

/-- The live cron entries, as load ids and expressions. -/
def live (s : Scheduler) : List (Int × String) := s.cron.entries.map fun e => (e.loadID, e.spec)

end Scheduler

/-- The registrations at the end of `Reload` (lines 163–171). -/
def registerLoads (desired : List Load) (r : Registry) : Registry :=
  desired.foldl (fun r ld => r.register
    { loadID := ld.id, loadName := ld.name, sourceName := ld.source.name
      sourceKind := ld.source.kind, cronExpression := ld.cronExpression }) r

/-! ## The map and the cron table in step -/

/-- The cron table `c` and the map `look` refer to each other: every entry has
    its load in the map, under the entry's id and expression, and the other way
    round. -/
structure Linked (c : Cron) (look : Int → Option ScheduledLoad) : Prop where
  ids : (c.entries.map (·.id)).Nodup
  fresh : ∀ e ∈ c.entries, e.id ≤ c.nextID
  owner : ∀ e ∈ c.entries, ∃ ld, look e.loadID = some ⟨ld, e.id⟩ ∧ ld.cronExpression = e.spec
  entry : ∀ {id x}, look id = some x → ⟨x.entryID, x.load.cronExpression, id⟩ ∈ c.entries

namespace Linked

variable {c : Cron} {look : Int → Option ScheduledLoad} {id : Int}

/-- Two loads of the map never share a cron entry. -/
theorem eq_of_entryID (h : Linked c look) {id' : Int} {x y : ScheduledLoad}
    (hx : look id = some x) (hy : look id' = some y) (he : x.entryID = y.entryID) : id = id' := by
  have heq := List.inj_on_of_nodup_map h.ids (h.entry hx) (h.entry hy) he
  exact congrArg CronEntry.loadID heq

theorem remove (h : Linked c look) {x : ScheduledLoad} (hx : look id = some x) :
    Linked (c.remove x.entryID) (Function.update look id none) where
  ids := h.ids.sublist (List.filter_sublist.map _)
  fresh e he := h.fresh e (List.mem_filter.1 he).1
  owner e he := by
    obtain ⟨he, hne⟩ := List.mem_filter.1 he
    obtain ⟨ld, hl, hs⟩ := h.owner e he
    have hid : e.loadID ≠ id := by
      intro heq
      rw [heq, hx] at hl
      apply of_decide_eq_true hne
      exact (congrArg ScheduledLoad.entryID (Option.some.inj hl)).symm
    exact ⟨ld, by rw [Function.update_of_ne hid, hl], hs⟩
  entry := by
    intro id' y hy
    have hid : id' ≠ id := by rintro rfl; simp at hy
    rw [Function.update_of_ne hid] at hy
    refine List.mem_filter.2 ⟨h.entry hy, decide_eq_true ?_⟩
    intro he
    exact hid (h.eq_of_entryID hy hx he)

theorem add (h : Linked c look) (hx : look id = none) (ld : Load) :
    Linked (c.add ld.cronExpression id) (Function.update look id (some ⟨ld, c.nextID + 1⟩)) where
  ids := by
    simp only [Cron.add, List.map_append, List.map_cons, List.map_nil]
    refine List.nodup_append.2 ⟨h.ids, List.nodup_singleton _, ?_⟩
    intro i hi j hj
    obtain ⟨e, he, rfl⟩ := List.mem_map.1 hi
    have := h.fresh e he
    rw [List.mem_singleton.1 hj]
    omega
  fresh e he := by
    rcases List.mem_append.1 he with he | he
    · have := h.fresh e he
      simp only [Cron.add]
      omega
    · rw [List.mem_singleton.1 he]
      rfl
  owner e he := by
    rcases List.mem_append.1 he with he | he
    · obtain ⟨l, hl, hs⟩ := h.owner e he
      have hid : e.loadID ≠ id := by rintro rfl; simp [hx] at hl
      exact ⟨l, by rw [Function.update_of_ne hid, hl], hs⟩
    · rw [List.mem_singleton.1 he]
      exact ⟨ld, Function.update_self .., rfl⟩
  entry := by
    intro id' y hy
    by_cases hid : id' = id
    · subst hid
      rw [Function.update_self] at hy
      obtain rfl := Option.some.inj hy
      exact List.mem_append_right _ (List.mem_singleton_self _)
    · rw [Function.update_of_ne hid] at hy
      exact List.mem_append_left _ (h.entry hy)

/-- The load of an entry is replaced by one with the same expression. -/
theorem replace (h : Linked c look) {x : ScheduledLoad} (hx : look id = some x) {ld : Load}
    (hc : x.load.cronExpression = ld.cronExpression) :
    Linked c (Function.update look id (some ⟨ld, x.entryID⟩)) where
  ids := h.ids
  fresh := h.fresh
  owner e he := by
    obtain ⟨l, hl, hs⟩ := h.owner e he
    by_cases hid : e.loadID = id
    · rw [hid, hx] at hl
      obtain rfl := Option.some.inj hl
      exact ⟨ld, by rw [hid, Function.update_self], hc.symm.trans hs⟩
    · exact ⟨l, by rw [Function.update_of_ne hid, hl], hs⟩
  entry := by
    intro id' y hy
    by_cases hid : id' = id
    · subst hid
      rw [Function.update_self] at hy
      obtain rfl := Option.some.inj hy
      simpa [hc] using h.entry hx
    · rw [Function.update_of_ne hid] at hy
      exact h.entry hy

end Linked

namespace Scheduler

/-- The map `scheduled` as a function. -/
def look (s : Scheduler) : Int → Option ScheduledLoad := fun id => s.scheduled.lookup id

/-- The load that the map holds for an id. -/
def held (s : Scheduler) (id : Int) : Option Load := (s.look id).map (·.load)

/-- The map and the cron table of `s` refer to each other. -/
def InStep (s : Scheduler) : Prop := Linked s.cron s.look

theorem lookup_insert_eq {β : Type} (m : AList fun _ : Int => β) (k : Int) (v : β) :
    (fun id => (m.insert k v).lookup id) = Function.update (fun id => m.lookup id) k (some v) := by
  funext id
  by_cases h : id = k
  · subst h
    rw [AList.lookup_insert, Function.update_self]
  · rw [AList.lookup_insert_ne h, Function.update_of_ne h]

theorem lookup_erase_eq {β : Type} (m : AList fun _ : Int => β) (k : Int) :
    (fun id => (m.erase k).lookup id) = Function.update (fun id => m.lookup id) k none := by
  funext id
  by_cases h : id = k
  · subst h
    rw [AList.lookup_erase, Function.update_self]
  · rw [AList.lookup_erase_ne h, Function.update_of_ne h]

variable {parses : String → Bool} {s : Scheduler}

/-- What the map holds after an update of its function view. -/
theorem held_of_look_update {s' : Scheduler} {id : Int} {x : Option ScheduledLoad}
    (h : s'.look = Function.update s.look id x) :
    s'.held = Function.update s.held id (x.map (·.load)) := by
  funext id'
  simp only [held, h]
  by_cases hid : id' = id
  · subst hid
    simp
  · simp [Function.update_of_ne hid, held]

/-- The first loop drops exactly the visited ids that are not desired. -/
theorem removeStale_inStep (desired : AList fun _ : Int => Load) (ids : List Int)
    (hs : s.InStep) :
    (removeStale desired ids s).InStep ∧ ∀ id, (removeStale desired ids s).held id =
      if id ∈ ids ∧ desired.lookup id = none then none else s.held id := by
  induction ids generalizing s with
  | nil => exact ⟨hs, fun id => by simp [removeStale]⟩
  | cons i ids ih =>
    rw [removeStale]
    split
    next x hx hd =>
      set t : Scheduler :=
        { s with cron := s.cron.remove x.entryID, scheduled := s.scheduled.erase i }
      have hlook : t.look = Function.update s.look i none := lookup_erase_eq s.scheduled i
      have ht : t.InStep := by
        unfold InStep
        rw [hlook]
        exact Linked.remove hs hx
      refine ⟨(ih ht).1, fun id => ?_⟩
      rw [(ih ht).2 id, held_of_look_update hlook]
      by_cases hid : id = i
      · subst hid
        simp [hd]
      · simp [hid]
    next hne =>
      refine ⟨(ih hs).1, fun id => ?_⟩
      rw [(ih hs).2 id]
      by_cases hid : id = i
      · subst hid
        -- the entry stayed: it is desired, or the map had none
        cases hd : desired.lookup id with
        | some ld => simp
        | none =>
          have hl : s.scheduled.lookup id = none := by
            cases hx : s.scheduled.lookup id with
            | none => rfl
            | some x => exact absurd hd (hne x hx)
          simp [held, look, hl]
      · simp [hid]

theorem insert_inStep {c : Cron} {id : Int} {x : ScheduledLoad}
    (h : Linked c (Function.update s.look id (some x))) :
    InStep { s with cron := c, scheduled := s.scheduled.insert id x } ∧
      held { s with cron := c, scheduled := s.scheduled.insert id x } =
        Function.update s.held id (some x.load) := by
  have hlook : look { s with cron := c, scheduled := s.scheduled.insert id x } =
      Function.update s.look id (some x) := lookup_insert_eq s.scheduled id x
  refine ⟨?_, held_of_look_update hlook⟩
  unfold InStep
  rw [hlook]
  exact h

/-- One pass of the second loop, for a load that is new or whose expression
    parses: the map then holds it exactly when its expression parses. -/
theorem upsert_inStep {ld : Load} (hs : s.InStep)
    (hp : s.held ld.id ≠ none → parses ld.cronExpression = true) :
    (s.upsert parses ld).InStep ∧ (s.upsert parses ld).held =
      Function.update s.held ld.id (if parses ld.cronExpression then some ld else none) := by
  unfold upsert
  cases hx : s.scheduled.lookup ld.id with
  | some x =>
    have hx' : s.look ld.id = some x := hx
    have hpl : parses ld.cronExpression = true := hp (by simp [held, hx'])
    rw [if_pos hpl]
    by_cases hc : x.load.cronExpression = ld.cronExpression
    · simp only [hc, ne_eq, not_true_eq_false, if_false]
      exact insert_inStep (Linked.replace hs hx' hc)
    · simp only [ne_eq, hc, not_false_eq_true, if_true, Cron.addFunc, hpl]
      have h := (Linked.remove hs hx').add (Function.update_self ..) ld
      rw [Function.update_idem] at h
      exact insert_inStep h
  | none =>
    have hx' : s.look ld.id = none := hx
    by_cases hpl : parses ld.cronExpression = true
    · simp only [Cron.addFunc, hpl, if_true]
      exact insert_inStep (Linked.add hs hx' ld)
    · simp only [Cron.addFunc, hpl, Bool.false_eq_true, if_false]
      refine ⟨hs, (Function.update_eq_self_iff.2 ?_).symm⟩
      simp [held, hx']

/-- The second loop, over loads with distinct ids. -/
theorem upsertAll_inStep {order : List Load} (hn : (order.map (·.id)).Nodup) (hs : s.InStep)
    (hp : ∀ ld ∈ order, s.held ld.id ≠ none → parses ld.cronExpression = true) :
    (order.foldl (upsert parses) s).InStep ∧
      (∀ ld ∈ order, (order.foldl (upsert parses) s).held ld.id =
        if parses ld.cronExpression then some ld else none) ∧
      ∀ id ∉ order.map (·.id), (order.foldl (upsert parses) s).held id = s.held id := by
  induction order generalizing s with
  | nil => exact ⟨hs, by simp, by simp⟩
  | cons a order ih =>
    obtain ⟨ha, hn⟩ := List.nodup_cons.1 hn
    obtain ⟨h₁, hheld⟩ := upsert_inStep hs (hp a List.mem_cons_self)
    have hother : ∀ id, id ≠ a.id → (s.upsert parses a).held id = s.held id := by
      intro id hid
      rw [hheld, Function.update_of_ne hid]
    have hne : ∀ ld ∈ order, ld.id ≠ a.id := by
      intro ld hld heq
      exact ha (List.mem_map.2 ⟨ld, hld, heq⟩)
    obtain ⟨h₂, hin, hout⟩ := ih hn h₁ fun ld hld hh => by
      rw [hother ld.id (hne ld hld)] at hh
      exact hp ld (List.mem_cons_of_mem _ hld) hh
    refine ⟨h₂, ?_, ?_⟩
    · intro ld hld
      rcases List.mem_cons.1 hld with rfl | hld
      · rw [List.foldl_cons, hout _ ha, hheld, Function.update_self]
      · exact hin ld hld
    · intro id hid
      rw [List.map_cons, List.mem_cons, not_or] at hid
      rw [List.foldl_cons, hout id hid.2, hother id hid.1]

end Scheduler

/-! ## One reload -/

/-- The enabled loads whose expression the parser accepts. -/
def Snapshot.accepted (parses : String → Bool) (m : Snapshot) : List Load :=
  m.listEnabledLoads.filter fun ld => parses ld.cronExpression

theorem Snapshot.nodup_enabled (m : Snapshot) : (m.listEnabledLoads.map (·.id)).Nodup :=
  m.nodup.sublist (List.filter_sublist.map _)

/-- A fingerprint tells its snapshot from the one before. -/
def Identified (m m' : Snapshot) : Prop := m'.fingerprint = m.fingerprint → m'.loads = m.loads

/-- No load that stays enabled goes from an expression that parses to one that
    does not. -/
def KeepsParsing (parses : String → Bool) (m m' : Snapshot) : Prop :=
  ∀ ld ∈ m.listEnabledLoads, ∀ ld' ∈ m'.listEnabledLoads, ld'.id = ld.id →
    parses ld.cronExpression = true → parses ld'.cronExpression = true

theorem lookup_foldl_insert (desired : List Load) (hn : (desired.map (·.id)).Nodup)
    (m : AList fun _ : Int => Load) (id : Int) (ld : Load) :
    (desired.foldl (fun m ld => m.insert ld.id ld) m).lookup id = some ld ↔
      (ld ∈ desired ∧ ld.id = id) ∨ id ∉ desired.map (·.id) ∧ m.lookup id = some ld := by
  induction desired generalizing m with
  | nil => simp
  | cons a desired ih =>
    obtain ⟨ha, hn⟩ := List.nodup_cons.1 hn
    rw [List.foldl_cons, ih hn]
    by_cases hid : id = a.id
    · subst hid
      simp only [AList.lookup_insert, Option.some.injEq, List.mem_cons, List.map_cons]
      constructor
      · rintro (⟨hld, heq⟩ | ⟨-, rfl⟩)
        · exact absurd (List.mem_map.2 ⟨ld, hld, heq⟩) ha
        · exact .inl ⟨.inl rfl, rfl⟩
      · rintro (⟨rfl | hld, heq⟩ | ⟨hnot, -⟩)
        · exact .inr ⟨ha, rfl⟩
        · exact absurd (List.mem_map.2 ⟨ld, hld, heq⟩) ha
        · exact absurd (Or.inl trivial) hnot
    · rw [AList.lookup_insert_ne hid]
      simp only [List.mem_cons, List.map_cons, hid, false_or]
      constructor
      · rintro (⟨hld, heq⟩ | h)
        · exact .inl ⟨.inr hld, heq⟩
        · exact .inr h
      · rintro (⟨rfl | hld, heq⟩ | h)
        · exact absurd heq.symm hid
        · exact .inl ⟨hld, heq⟩
        · exact .inr h

theorem lookup_desiredByID {desired : List Load} (hn : (desired.map (·.id)).Nodup) {id : Int}
    {ld : Load} : (desiredByID desired).lookup id = some ld ↔ ld ∈ desired ∧ ld.id = id := by
  rw [desiredByID, lookup_foldl_insert desired hn]
  simp

/-- An order of `desiredByID` is an order of the desired loads. -/
theorem perm_of_desiredByID {desired order : List Load} (hn : (desired.map (·.id)).Nodup)
    (ho : order ~ (desiredByID desired).entries.map (·.2)) : order ~ desired := by
  set es := (desiredByID desired).entries
  have hmem : ∀ e ∈ es, e.2 ∈ desired ∧ e.2.id = e.1 := fun e he =>
    (lookup_desiredByID hn).1 (AList.mem_lookup_iff.2 he)
  have hids : (es.map (·.2)).map (·.id) = (desiredByID desired).keys := by
    rw [List.map_map]
    exact List.map_congr_left fun e he => (hmem e he).2
  have hnd : (es.map (·.2)).Nodup :=
    List.Nodup.of_map (·.id) (hids ▸ (desiredByID desired).keys_nodup)
  refine ho.trans ((List.perm_ext_iff_of_nodup hnd hn.of_map).2 fun ld => ?_)
  constructor
  · intro h
    obtain ⟨e, he, rfl⟩ := List.mem_map.1 h
    exact (hmem e he).1
  · intro h
    have hl := (lookup_desiredByID hn).2 ⟨h, rfl⟩
    exact List.mem_map.2 ⟨⟨ld.id, ld⟩, AList.mem_lookup_iff.1 hl, rfl⟩

namespace Scheduler

variable {parses : String → Bool}

/-- The scheduler is in line with a snapshot. -/
structure Synced (parses : String → Bool) (m : Snapshot) (s : Scheduler) : Prop where
  inStep : s.InStep
  fingerprint : s.fingerprint = m.fingerprint
  held : ∀ {id ld}, s.held id = some ld ↔ ld ∈ m.accepted parses ∧ ld.id = id

theorem synced_init : Synced parses .empty {} where
  inStep := ⟨List.nodup_nil, by simp, by simp, by simp [look]⟩
  fingerprint := rfl
  held := by simp [Scheduler.held, look, Snapshot.accepted, Snapshot.empty, Snapshot.listEnabledLoads]

/-- The locked section brings the scheduler in line with the snapshot, if every
    scheduled load that it lists has an expression that parses. -/
theorem InStep.applyReload {m : Snapshot} {o : Orders} {s s' : Scheduler} (h : s.InStep)
    (hk : ∀ ld ∈ m.listEnabledLoads, s.held ld.id ≠ none → parses ld.cronExpression = true)
    (hr : s.applyReload parses m.fingerprint m.listEnabledLoads o = some s') :
    Synced parses m s' := by
  unfold Scheduler.applyReload at hr
  simp only [Bool.and_eq_true, List.isPerm_iff, Option.ite_none_right_eq_some, Option.some.injEq]
    at hr
  obtain ⟨⟨hp₁, hp₂⟩, rfl⟩ := hr
  have hen := m.nodup_enabled
  have hord : o.desired ~ m.listEnabledLoads := perm_of_desiredByID hen hp₂
  obtain ⟨hs₁, hheld₁⟩ := removeStale_inStep (desiredByID m.listEnabledLoads) o.scheduled h
  set s₁ := removeStale (desiredByID m.listEnabledLoads) o.scheduled s
  have hkeep : ∀ ld ∈ o.desired, s₁.held ld.id ≠ none → parses ld.cronExpression = true := by
    intro ld hld hne
    refine hk ld (hord.mem_iff.1 hld) fun hnone => hne ?_
    rw [hheld₁ ld.id, hnone]
    split_ifs <;> rfl
  obtain ⟨hs₂, hin, hout⟩ :=
    upsertAll_inStep ((hord.map (·.id)).nodup_iff.2 hen) hs₁ hkeep
  refine ⟨hs₂, rfl, fun {id ld} => ?_⟩
  change (o.desired.foldl (upsert parses) s₁).held id = some ld ↔ _
  rw [Snapshot.accepted, List.mem_filter, ← hord.mem_iff]
  constructor
  · intro hl
    by_cases hid : id ∈ o.desired.map (·.id)
    · obtain ⟨l, hlo, rfl⟩ := List.mem_map.1 hid
      rw [hin l hlo] at hl
      split_ifs at hl with hpl
      obtain rfl := Option.some.inj hl
      exact ⟨⟨hlo, hpl⟩, rfl⟩
    · -- an id outside the snapshot has been dropped by the first loop
      rw [hout id hid, hheld₁ id] at hl
      split_ifs at hl with hgone
      have hmem : id ∈ o.scheduled := by
        rw [hp₁.mem_iff, ← AList.mem_keys, ← AList.lookup_isSome]
        obtain ⟨x, hx, -⟩ := Option.map_eq_some_iff.1 hl
        exact Option.isSome_iff_exists.2 ⟨x, hx⟩
      obtain ⟨l, hl'⟩ := Option.ne_none_iff_exists'.1 fun hn => hgone ⟨hmem, hn⟩
      obtain ⟨hmem', rfl⟩ := (lookup_desiredByID hen).1 hl'
      exact absurd (List.mem_map_of_mem (hord.mem_iff.2 hmem')) hid
  · rintro ⟨⟨hld, hpl⟩, rfl⟩
    rw [hin ld hld, if_pos hpl]

/-- One reload brings the scheduler in line with the new snapshot. -/
theorem Synced.reload {m m' : Snapshot} {o : Orders} {s s' : Scheduler} (h : Synced parses m s)
    (hf : Identified m m') (hk : KeepsParsing parses m m') (hr : s.reload parses m' o = some s') :
    Synced parses m' s' := by
  unfold Scheduler.reload at hr
  split_ifs at hr with hfp
  · -- skipped: the snapshot is the one before
    obtain rfl := Option.some.inj hr
    have hl : m'.loads = m.loads := hf (hfp.trans h.fingerprint)
    have hacc : m'.accepted parses = m.accepted parses := by
      simp only [Snapshot.accepted, Snapshot.listEnabledLoads, hl]
    exact ⟨h.inStep, hfp.symm, hacc ▸ h.held⟩
  · refine h.inStep.applyReload (fun ld hld hne => ?_) hr
    obtain ⟨l, hl⟩ := Option.ne_none_iff_exists'.1 hne
    obtain ⟨hl, hid⟩ := h.held.1 hl
    obtain ⟨hl, hpl⟩ := List.mem_filter.1 hl
    exact hk l hl ld hld hid.symm hpl

/-! ## Histories of reloads -/

theorem reloads_synced {m : Snapshot} {s s' : Scheduler} {ms : List (Snapshot × Orders)}
    (h : Synced parses m s) (hf : (m :: ms.map Prod.fst).IsChain Identified)
    (hk : (m :: ms.map Prod.fst).IsChain (KeepsParsing parses))
    (hr : reloads parses ms s = some s') :
    Synced parses ((m :: ms.map Prod.fst).getLast (List.cons_ne_nil _ _)) s' := by
  induction ms generalizing m s with
  | nil =>
    obtain rfl := Option.some.inj hr
    exact h
  | cons mo ms ih =>
    rw [List.map_cons, List.isChain_cons_cons] at hf hk
    obtain ⟨s₁, hs₁, hr⟩ := Option.bind_eq_some_iff.1 hr
    exact ih (h.reload hf.1 hk.1 hs₁) hf.2 hk.2 hr

/-- No two cron entries trigger the same load. -/
theorem InStep.nodup_loadID {s : Scheduler} (h : s.InStep) :
    (s.cron.entries.map (·.loadID)).Nodup := by
  refine List.Nodup.map_on ?_ h.ids.of_map
  intro e he e' he' heq
  obtain ⟨l, hl, -⟩ := h.owner e he
  obtain ⟨l', hl', -⟩ := h.owner e' he'
  rw [heq, hl'] at hl
  have hid : e'.id = e.id := congrArg ScheduledLoad.entryID (Option.some.inj hl)
  exact List.inj_on_of_nodup_map h.ids he he' hid.symm

theorem Synced.live_perm {m : Snapshot} {s : Scheduler} (h : Synced parses m s) :
    s.live ~ (m.accepted parses).map fun ld => (ld.id, ld.cronExpression) := by
  have hn₁ : s.live.Nodup := by
    refine List.Nodup.of_map Prod.fst ?_
    rw [live, List.map_map]
    exact h.inStep.nodup_loadID
  have hn₂ : ((m.accepted parses).map fun ld => (ld.id, ld.cronExpression)).Nodup := by
    refine List.Nodup.of_map Prod.fst ?_
    rw [List.map_map]
    exact m.nodup_enabled.sublist (List.filter_sublist.map _)
  refine (List.perm_ext_iff_of_nodup hn₁ hn₂).2 fun p => ?_
  constructor
  · intro hp
    obtain ⟨e, he, rfl⟩ := List.mem_map.1 hp
    obtain ⟨ld, hl, hc⟩ := h.inStep.owner e he
    obtain ⟨hacc, hid⟩ := h.held.1 (show s.held e.loadID = some ld by simp [Scheduler.held, hl])
    exact List.mem_map.2 ⟨ld, hacc, by rw [hid, hc]⟩
  · intro hp
    obtain ⟨ld, hld, rfl⟩ := List.mem_map.1 hp
    obtain ⟨x, hx, rfl⟩ := Option.map_eq_some_iff.1 (h.held.2 ⟨hld, rfl⟩)
    exact List.mem_map.2 ⟨_, h.inStep.entry hx, rfl⟩

/-- The scheduler has converged to a snapshot: its live entries are the accepted
    loads with their expressions, one entry for each, as a fresh scheduler gets
    them, and every scheduled id refers to a live entry with its expression. -/
structure Converged (parses : String → Bool) (m : Snapshot) (s : Scheduler) : Prop where
  live : s.live ~ (m.accepted parses).map fun ld => (ld.id, ld.cronExpression)
  single : (s.cron.entries.map (·.loadID)).Nodup
  fresh : ∀ o s₀, Scheduler.reload parses m o {} = some s₀ → s.live ~ s₀.live
  refers : ∀ id x, s.scheduled.lookup id = some x →
    ∃ e ∈ s.cron.entries, e.id = x.entryID ∧ e.loadID = id ∧ e.spec = x.load.cronExpression

/-- A fresh scheduler keeps every condition on its first snapshot. -/
theorem keepsParsing_empty (m : Snapshot) : KeepsParsing parses .empty m := by
  intro ld hld
  simp [Snapshot.empty, Snapshot.listEnabledLoads] at hld

/-- `Reload` converges: after any history of reloads on snapshots that their
    fingerprints tell apart, in which no load that stays enabled goes from an
    expression that parses to one that does not, the scheduler has converged to
    the last snapshot. -/
theorem reload_converges (parses : String → Bool) (ms : List (Snapshot × Orders)) (m : Snapshot)
    (o : Orders) (s : Scheduler)
    (hf : (Snapshot.empty :: (ms ++ [(m, o)]).map Prod.fst).Pairwise Identified)
    (hk : ((ms ++ [(m, o)]).map Prod.fst).IsChain (KeepsParsing parses))
    (hr : reloads parses (ms ++ [(m, o)]) {} = some s) : Converged parses m s := by
  have hk₀ : (Snapshot.empty :: (ms ++ [(m, o)]).map Prod.fst).IsChain (KeepsParsing parses) :=
    List.isChain_cons.2 ⟨fun m' _ => keepsParsing_empty m', hk⟩
  have hs := reloads_synced synced_init hf.isChain hk₀ hr
  simp only [List.map_append, List.map_cons, List.map_nil, ← List.cons_append,
    List.getLast_append_singleton] at hs
  refine ⟨hs.live_perm, hs.inStep.nodup_loadID, ?_, ?_⟩
  · intro o₀ s₀ h₀
    have hm : Identified .empty m := List.rel_of_pairwise_cons hf (by simp)
    exact hs.live_perm.trans (synced_init.reload hm (keepsParsing_empty m) h₀).live_perm.symm
  · intro id x hx
    exact ⟨_, hs.inStep.entry hx, rfl, rfl, rfl⟩

/-! ## A reverted edit -/

/-- An enabled load on the cron expression `cron`. -/
def loadAt (id : Int) (cron : String) : Load :=
  { id, sourceID := 1, source := ⟨1, "plant", "sqlserver", "", true⟩, name := "meters"
    objectName := "meters", targetSchema := "dbo", targetTable := "meters", mode := "append"
    watermarkColumn := "", watermarkType := "none", batchSize := 0, autoCreateTable := false
    cronExpression := cron, isEnabled := true }

/-- A parser that accepts everything but the text `"bad"`. -/
def acceptsNotBad (e : String) : Bool := e != "bad"

/-- A load is edited to an expression that does not parse and back. -/
def revertedEdit : List (Snapshot × Orders) :=
  let nightly := loadAt 1 "0 2 * * *"
  let bad := loadAt 1 "bad"
  [(⟨"a", [nightly], by simp⟩, ⟨[], [nightly]⟩),
    (⟨"b", [bad], by simp⟩, ⟨[1], [bad]⟩),
    (⟨"c", [nightly], by simp⟩, ⟨[1], [nightly]⟩)]

/-- After the edit is reverted no entry is live, although the last snapshot has
    an enabled load with an accepted expression and a fresh scheduler runs it. -/
theorem reload_loses_reverted_load :
    (Snapshot.empty :: revertedEdit.map Prod.fst).Pairwise Identified ∧
    ∃ m o s s₀, revertedEdit.getLast? = some (m, o) ∧
      reloads acceptsNotBad revertedEdit {} = some s ∧ s.live = [] ∧
      Scheduler.reload acceptsNotBad m ⟨[], m.loads⟩ {} = some s₀ ∧
      s₀.live = [(1, "0 2 * * *")] ∧ ¬ Converged acceptsNotBad m s := by
  have h₁ : (reloads acceptsNotBad revertedEdit {}).map live = some [] := by decide +kernel
  obtain ⟨s, hs, hl⟩ := Option.map_eq_some_iff.1 h₁
  obtain ⟨m, o, hm⟩ : ∃ m o, revertedEdit.getLast? = some (m, o) := ⟨_, _, rfl⟩
  have h₂ : revertedEdit.getLast?.bind (fun mo =>
      (Scheduler.reload acceptsNotBad mo.1 ⟨[], mo.1.loads⟩ {}).map live) =
        some [(1, "0 2 * * *")] := by decide +kernel
  rw [hm, Option.bind_some] at h₂
  obtain ⟨s₀, hs₀, hl₀⟩ := Option.map_eq_some_iff.1 h₂
  refine ⟨by simp [revertedEdit, Identified, Snapshot.empty], m, o, s, s₀, hm, hs, hl, hs₀, hl₀, ?_⟩
  intro hc
  have hp := hc.fresh _ s₀ hs₀
  rw [hl, hl₀] at hp
  simp at hp

/-- Loads are added, edited and removed, and one whose first expression does not
    parse is repaired. -/
def repairedEdit : List (Snapshot × Orders) :=
  let nightly := loadAt 1 "0 2 * * *"
  let bad := loadAt 2 "bad"
  let hourly := loadAt 1 "0 * * * *"
  let repaired := loadAt 2 "0 4 * * *"
  [(⟨"a", [nightly, bad], by decide⟩, ⟨[], [bad, nightly]⟩),
    (⟨"b", [hourly, repaired], by decide⟩, ⟨[1], [hourly, repaired]⟩)]

theorem repairedEdit_converges :
    ∃ s, reloads acceptsNotBad
        (repairedEdit ++ [(⟨"c", [loadAt 2 "0 4 * * *"], by simp⟩, ⟨[2, 1], [loadAt 2 "0 4 * * *"]⟩)])
        {} = some s ∧
      s.live = [(2, "0 4 * * *")] ∧
      Converged acceptsNotBad ⟨"c", [loadAt 2 "0 4 * * *"], by simp⟩ s := by
  have h₁ : (reloads acceptsNotBad
      (repairedEdit ++ [(⟨"c", [loadAt 2 "0 4 * * *"], by simp⟩, ⟨[2, 1], [loadAt 2 "0 4 * * *"]⟩)])
        {}).map live = some [(2, "0 4 * * *")] := by decide +kernel
  obtain ⟨s, hs, hl⟩ := Option.map_eq_some_iff.1 h₁
  refine ⟨s, hs, hl, reload_converges _ _ _ _ s ?_ ?_ hs⟩
  · simp [repairedEdit, Identified, Snapshot.empty]
  · simp [repairedEdit, KeepsParsing, Snapshot.listEnabledLoads, loadAt, acceptsNotBad]

end Scheduler

end DataLoader
