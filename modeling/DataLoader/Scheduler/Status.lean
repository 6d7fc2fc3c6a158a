import DataLoader.Effects.Transition
import DataLoader.Metadata.Fingerprint
import DataLoader.Scheduler.Reload

/-!
# The status view against the schedule

`Reload` registers the loads that it lists in the run-state registry, whose
`Snapshot` is what `/status` shows. `StatusSys` is the scheduler with the registry;
its actions are reloads of arbitrary metadata and what runs report. The status view
shows the metadata of the last reload exactly if that metadata still has every load
that was registered before and, should the reload be skipped, the same names
(`status_shows_iff`).
-/

namespace DataLoader

open Effects

def Load.described (ld : Load) : StatusRow :=
  ⟨ld.id, ld.name, ld.source.name, ld.source.kind, ld.cronExpression⟩

/-- What the repository reads from the tables. -/
def MetaTables.snapshot (digest : List Char → String) (t : MetaTables) (h : t.Keyed) : Snapshot :=
  ⟨t.metadataFingerprint digest, t.joinedLoads, h.nodup_joinedLoads⟩

/-! ## The registry -/

namespace Registry

variable {r : Registry}

/-- The registrations of a reload. -/
theorem status_registerLoads {desired : List Load} (hn : (desired.map (·.id)).Nodup)
    (r : Registry) (id : Int) (d : StatusRow) : (registerLoads desired r).status id = some d ↔
      (∃ ld ∈ desired, ld.id = id ∧ ld.described = d) ∨
        id ∉ desired.map (·.id) ∧ r.status id = some d := by
  induction desired generalizing r with
  | nil => simp [registerLoads]
  | cons a desired ih =>
    obtain ⟨ha, hn⟩ := List.nodup_cons.1 hn
    have hrest := ih hn (r.register
      { loadID := a.id, loadName := a.name, sourceName := a.source.name
        sourceKind := a.source.kind, cronExpression := a.cronExpression })
    rw [registerLoads, List.foldl_cons, ← registerLoads, hrest, status_register]
    by_cases hid : id = a.id
    · subst hid
      simp only [Function.update_self, Option.some.injEq, List.mem_cons, List.map_cons]
      constructor
      · rintro (⟨ld, hld, heq, hd⟩ | ⟨-, hd⟩)
        · exact .inl ⟨ld, .inr hld, heq, hd⟩
        · exact .inl ⟨a, .inl rfl, rfl, hd⟩
      · rintro (⟨ld, rfl | hld, heq, hd⟩ | ⟨hnot, -⟩)
        · exact .inr ⟨ha, hd⟩
        · exact .inl ⟨ld, hld, heq, hd⟩
        · exact absurd (Or.inl trivial) hnot
    · simp only [Function.update_of_ne hid, List.mem_cons, List.map_cons, hid, false_or]
      constructor
      · rintro (⟨ld, hld, heq, hd⟩ | h)
        · exact .inl ⟨ld, .inr hld, heq, hd⟩
        · exact .inr h
      · rintro (⟨ld, rfl | hld, heq, hd⟩ | h)
        · exact absurd heq.symm hid
        · exact .inl ⟨ld, hld, heq, hd⟩
        · exact .inr h

theorem Filed.registerLoads (h : r.Filed) (desired : List Load) :
    (DataLoader.registerLoads desired r).Filed := by
  induction desired generalizing r with
  | nil => exact h
  | cons a desired ih => exact ih (h.register _)

/-! ## The view -/

/-- The view shows exactly the enabled loads of the metadata, each once and in
    increasing order of their ids, as the metadata describes them. -/
structure Shows (r : Registry) (m : Snapshot) : Prop where
  increasing : (r.snapshot.map (·.loadID)).Pairwise (· < ·)
  rows : ∀ d, d ∈ r.snapshot.map LoadState.described ↔ d ∈ m.listEnabledLoads.map Load.described

/-- Every load that the view shows is enabled. -/
def Keeps (r : Registry) (m : Snapshot) : Prop :=
  ∀ id, r.status id ≠ none → id ∈ m.listEnabledLoads.map (·.id)

/-- Every enabled load is shown as it is. -/
def Current (r : Registry) (m : Snapshot) : Prop :=
  ∀ ld ∈ m.listEnabledLoads, r.status ld.id = some ld.described

theorem Filed.loadID_of_status (h : r.Filed) {id : Int} {d : StatusRow}
    (hd : r.status id = some d) : d.loadID = id := by
  obtain ⟨s, hl, rfl⟩ := Option.map_eq_some_iff.1 hd
  exact h id s hl

theorem Filed.shows_iff (h : r.Filed) (m : Snapshot) : r.Shows m ↔ r.Keeps m ∧ r.Current m := by
  constructor
  · rintro ⟨-, hrows⟩
    constructor
    · intro id hne
      obtain ⟨d, hd⟩ := Option.ne_none_iff_exists'.1 hne
      obtain ⟨ld, hld, rfl⟩ := List.mem_map.1 ((hrows d).1 (mem_described_snapshot.2 ⟨id, hd⟩))
      exact List.mem_map.2 ⟨ld, hld, h.loadID_of_status hd⟩
    · intro ld hld
      obtain ⟨id, hd⟩ := mem_described_snapshot.1 ((hrows ld.described).2 (List.mem_map_of_mem hld))
      obtain rfl : ld.id = id := h.loadID_of_status hd
      exact hd
  · rintro ⟨hkeeps, hcurrent⟩
    refine ⟨h.increasing, fun d => ?_⟩
    rw [mem_described_snapshot]
    constructor
    · rintro ⟨id, hd⟩
      obtain ⟨ld, hld, rfl⟩ := List.mem_map.1 (hkeeps id (by rw [hd]; simp))
      rw [hcurrent ld hld] at hd
      exact List.mem_map.2 ⟨ld, hld, Option.some.inj hd⟩
    · intro hd
      obtain ⟨ld, hld, rfl⟩ := List.mem_map.1 hd
      exact ⟨ld.id, hcurrent ld hld⟩

/-- After the registrations of a reload every enabled load is shown as it is, and
    nothing that was shown before has gone. -/
theorem shows_registerLoads_iff (h : r.Filed) (m : Snapshot) :
    Shows (registerLoads m.listEnabledLoads r) m ↔ r.Keeps m := by
  have hstatus := status_registerLoads m.nodup_enabled r
  rw [(h.registerLoads _).shows_iff]
  constructor
  · rintro ⟨hkeeps, -⟩ id hne
    by_contra hid
    obtain ⟨d, hd⟩ := Option.ne_none_iff_exists'.1 hne
    have hafter := (hstatus id d).2 (.inr ⟨hid, hd⟩)
    exact hid (hkeeps id (by rw [hafter]; simp))
  · intro hkeeps
    constructor
    · intro id hne
      obtain ⟨d, hd⟩ := Option.ne_none_iff_exists'.1 hne
      rcases (hstatus id d).1 hd with ⟨ld, hld, rfl, -⟩ | ⟨hid, hold⟩
      · exact List.mem_map_of_mem hld
      · exact absurd (hkeeps id (by rw [hold]; simp)) hid
    · intro ld hld
      exact (hstatus ld.id ld.described).2 (.inl ⟨ld, hld, rfl, rfl⟩)

end Registry

/-! ## Reloads and runs -/

/-- The scheduler and the registry. -/
structure StatusSys where
  scheduler : Scheduler := {}
  registry : Registry := ∅

/-- A reload on the tables `t`, or a report of a run. -/
inductive StatusAct
  | reload (t : MetaTables) (keyed : t.Keyed) (o : Orders)
  | markRunning (loadID : Int) (runUUID : String) (startedAt : Time)
  | markFinished (loadID : Int) (status : String) (finishedAt : Time)
      (rowsRead rowsWritten : Int) (errMsg : String)

def StatusAct.isReload : StatusAct → Bool
  | .reload .. => true
  | _ => false

namespace StatusSys

variable (parses : String → Bool) (digest : List Char → String)

/-- The transition system. `Reload` registers what it has listed, and nothing when
    it is skipped. -/
def step : StatusAct → StatusSys → Option StatusSys
  | .reload t keyed o, w =>
    let m := t.snapshot digest keyed
    (w.scheduler.reload parses m o).map fun s =>
      { scheduler := s
        registry := if m.fingerprint = w.scheduler.fingerprint then w.registry
          else registerLoads m.listEnabledLoads w.registry }
  | .markRunning loadID runUUID startedAt, w =>
    some { w with registry := w.registry.markRunning loadID runUUID startedAt }
  | .markFinished loadID status finishedAt rowsRead rowsWritten errMsg, w =>
    some { w with
      registry := w.registry.markFinished loadID status finishedAt rowsRead rowsWritten errMsg }

variable {parses digest} {w w' : StatusSys} {a : StatusAct}

theorem filed_step (h : w.registry.Filed) (hs : step parses digest a w = some w') :
    w'.registry.Filed := by
  cases a with
  | reload t keyed o =>
    obtain ⟨s, -, rfl⟩ := Option.map_eq_some_iff.1 hs
    dsimp only
    split_ifs
    · exact h
    · exact h.registerLoads _
  | markRunning loadID runUUID startedAt =>
    cases hs
    exact h.markRunning loadID runUUID startedAt
  | markFinished loadID status finishedAt rowsRead rowsWritten errMsg =>
    cases hs
    exact h.markFinished loadID status finishedAt rowsRead rowsWritten errMsg

/-- Runs leave the descriptions alone. -/
theorem status_step (ha : a.isReload = false) (hs : step parses digest a w = some w') :
    w'.registry.status = w.registry.status := by
  cases a with
  | reload t keyed o => cases ha
  | markRunning loadID runUUID startedAt =>
    cases hs
    exact Registry.status_markRunning ..
  | markFinished loadID status finishedAt rowsRead rowsWritten errMsg =>
    cases hs
    exact Registry.status_markFinished ..

/-- After any reloads and runs, a reload on `t` and any further runs, the status
    view shows `t` exactly if every load that it showed before is enabled in `t`
    and, should the fingerprint be unchanged, every enabled load of `t` was already
    shown as it is. -/
theorem status_shows_iff {as bs : List StatusAct} {t : MetaTables} {keyed : t.Keyed} {o : Orders}
    {w₁ w₂ : StatusSys} (hr : runs (step parses digest) as {} = some w)
    (hs : step parses digest (.reload t keyed o) w = some w₁)
    (hr' : runs (step parses digest) bs w₁ = some w₂) (hbs : ∀ a ∈ bs, a.isReload = false) :
    w₂.registry.Shows (t.snapshot digest keyed) ↔
      w.registry.Keeps (t.snapshot digest keyed) ∧
        (t.metadataFingerprint digest = w.scheduler.fingerprint →
          w.registry.Current (t.snapshot digest keyed)) := by
  have hfiled : w.registry.Filed := by
    refine runs_inv (I := fun w => w.registry.Filed) filed_step ?_ hr
    intro id s hl
    simp at hl
  have hfiled₁ := filed_step hfiled hs
  obtain ⟨hfiled₂, hsame⟩ : w₂.registry.Filed ∧ w₂.registry.status = w₁.registry.status := by
    refine runs_inv_of (I := fun w => w.registry.Filed ∧ w.registry.status = w₁.registry.status)
      ?_ hbs ⟨hfiled₁, rfl⟩ hr'
    intro a w w' ha h hs
    exact ⟨filed_step h.1 hs, (status_step ha hs).trans h.2⟩
  -- the view after the runs is the view after the reload
  have hshows : w₂.registry.Shows (t.snapshot digest keyed) ↔
      w₁.registry.Shows (t.snapshot digest keyed) := by
    rw [hfiled₂.shows_iff, hfiled₁.shows_iff]
    unfold Registry.Keeps Registry.Current
    rw [hsame]
  rw [hshows]
  obtain ⟨s, -, rfl⟩ := Option.map_eq_some_iff.1 hs
  by_cases hfp : t.metadataFingerprint digest = w.scheduler.fingerprint
  · have hreg : (t.snapshot digest keyed).fingerprint = w.scheduler.fingerprint := hfp
    simp only [hreg, if_true, hfp, forall_const]
    exact hfiled.shows_iff _
  · have hreg : (t.snapshot digest keyed).fingerprint ≠ w.scheduler.fingerprint := hfp
    simp only [hreg, if_false, hfp, false_imp_iff, and_true]
    exact Registry.shows_registerLoads_iff hfiled _

/-! ## Edits that the view does not follow -/

/-- A source named `source` and its load. -/
def plantTables (source : String) (enabled : Bool) : MetaTables where
  sources := [⟨⟨1, source, "sqlserver", "", true⟩, "", false⟩]
  loads := [{ id := 1, sourceID := 1, name := "meters", cronExpression := "@daily"
              isEnabled := enabled }]

theorem plantKeyed (source : String) (enabled : Bool) : (plantTables source enabled).Keyed :=
  ⟨by simp [plantTables], by simp [plantTables], by simp [plantTables], by simp [plantTables]⟩

/-- The load as `ListEnabledLoads` returns it. -/
def plantLoad (source : String) : Load :=
  LoadRecord.withSource { id := 1, sourceID := 1, name := "meters", cronExpression := "@daily" }
    ⟨1, source, "sqlserver", "", true⟩

/-- A reload on the source under the name `source`. -/
def reloadPlant (source : String) (enabled : Bool) (o : Orders) : StatusAct :=
  .reload (plantTables source enabled) (plantKeyed source enabled) o

/-- What the view shows after a history. -/
def shown (as : List StatusAct) : Option (List StatusRow) :=
  (runs (step Scheduler.acceptsNotBad String.ofList) as {}).map fun w =>
    w.registry.snapshot.map LoadState.described

/-- A load is registered and runs; a second reload is skipped, and the run ends. -/
theorem skippedReload_shows :
    ∃ w w₁ w₂, runs (step Scheduler.acceptsNotBad String.ofList)
        [reloadPlant "plant" true ⟨[], [plantLoad "plant"]⟩, .markRunning 1 "u" 5] {} = some w ∧
      step Scheduler.acceptsNotBad String.ofList (reloadPlant "plant" true ⟨[], []⟩) w = some w₁ ∧
      runs (step Scheduler.acceptsNotBad String.ofList) [.markFinished 1 "success" 9 3 3 ""] w₁ =
        some w₂ ∧
      w₂.registry.Shows ((plantTables "plant" true).snapshot String.ofList (plantKeyed ..)) ∧
      w.registry.Keeps ((plantTables "plant" true).snapshot String.ofList (plantKeyed ..)) := by
  have heval : ((runs (step Scheduler.acceptsNotBad String.ofList)
      [reloadPlant "plant" true ⟨[], [plantLoad "plant"]⟩, .markRunning 1 "u" 5] {}).bind fun w =>
      (step Scheduler.acceptsNotBad String.ofList (reloadPlant "plant" true ⟨[], []⟩) w).bind fun w₁ =>
      (runs (step Scheduler.acceptsNotBad String.ofList) [.markFinished 1 "success" 9 3 3 ""] w₁).map
        fun w₂ => w₂.registry.snapshot.map LoadState.described) =
      some (((plantTables "plant" true).snapshot String.ofList
        (plantKeyed ..)).listEnabledLoads.map Load.described) := by
    decide +kernel
  obtain ⟨w, hr, heval⟩ := Option.bind_eq_some_iff.1 heval
  obtain ⟨w₁, hs, heval⟩ := Option.bind_eq_some_iff.1 heval
  obtain ⟨w₂, hr', hrows⟩ := Option.map_eq_some_iff.1 heval
  have hiff := status_shows_iff hr hs hr' (by simp [StatusAct.isReload])
  have hshows : w₂.registry.Shows
      ((plantTables "plant" true).snapshot String.ofList (plantKeyed ..)) := by
    refine ⟨?_, fun d => by rw [hrows]⟩
    have hids := congrArg (List.map StatusRow.loadID) hrows
    rw [List.map_map] at hids
    have hids' : w₂.registry.snapshot.map (·.loadID) = [1] := hids.trans (by decide +kernel)
    rw [hids']
    simp
  exact ⟨w, w₁, w₂, hr, hs, hr', hshows, (hiff.1 hshows).1⟩

/-- A load that has been disabled is still shown, and a source that has been
    renamed is shown under its old name, because the fingerprint does not cover
    names and the reload is skipped. -/
theorem view_keeps_old_rows :
    shown [reloadPlant "plant" true ⟨[], [plantLoad "plant"]⟩, reloadPlant "plant" false ⟨[1], []⟩] =
        some [⟨1, "meters", "plant", "sqlserver", "@daily"⟩] ∧
      ((plantTables "plant" false).snapshot String.ofList (plantKeyed ..)).listEnabledLoads = [] ∧
      shown [reloadPlant "plant" true ⟨[], [plantLoad "plant"]⟩, reloadPlant "site" true ⟨[], []⟩] =
        some [⟨1, "meters", "plant", "sqlserver", "@daily"⟩] ∧
      ((plantTables "site" true).snapshot String.ofList (plantKeyed ..)).listEnabledLoads.map
        Load.described = [⟨1, "meters", "site", "sqlserver", "@daily"⟩] := by
  refine ⟨by decide +kernel, by decide +kernel, by decide +kernel, by decide +kernel⟩

end StatusSys

end DataLoader
