import DataLoader.Seed.Idempotent

/-!
# The tags and the nodes after a sequence of seed files

* `lists_follow_last_file`: after any sequence of files that were applied without an
  error, the tags of a load are those that the last file with tags for this load lists,
  in the order of the file, and a load that no file has tags for keeps the ones it had.
  The same holds for OPC UA nodes. An `Apply` that fails changes nothing.
-/

namespace DataLoader.Seed

open Relational

section

variable {env : SeedEnv} {f : File}

/-! ## Stored lists -/

/-- The tags of a load in the order of their ids, as `listModbusTagRows` (telemetry.go,
    lines 55–62) puts them. -/
def SeedDB.modbusTagRows (db : SeedDB) (loadID : Int) : List ModbusTag :=
  (modbusOwned.rowsOf db.tables.modbusTags loadID).mergeSort fun a b => a.id ≤ b.id

/-- The nodes of a load in the order of their ids, as `listOPCUANodeRows` (lines 64–71)
    puts them. -/
def SeedDB.opcuaNodeRows (db : SeedDB) (loadID : Int) : List OPCUANode :=
  (opcuaOwned.rowsOf db.tables.opcuaNodes loadID).mergeSort fun a b => a.id ≤ b.id

/-- Consecutive numbers are in order. -/
theorem mergeSort_numbered {C : Type} (w : Owned C) (id : C → ℕ) (hid : ∀ n c, id (w.setID n c) = n)
    (next : ℕ) (new : List C) :
    (w.numbered next new).mergeSort (fun a b => id a ≤ id b) = w.numbered next new := by
  apply List.mergeSort_of_pairwise
  rw [List.pairwise_iff_getElem]
  intro i j hi hj hij
  simp only [Owned.numbered, List.getElem_mapIdx, hid, decide_eq_true_eq]
  omega

theorem map_numbered {C β : Type} (w : Owned C) (g : C → β) (hg : ∀ n c, g (w.setID n c) = g c)
    (next : ℕ) (new : List C) : (w.numbered next new).map g = new.map g := by
  apply List.ext_getElem
  · simp [Owned.numbered]
  · intro i h₁ h₂
    simp [Owned.numbered, hg]

variable [GoLib] [GoText]

theorem tagNames_created {loadID : Int} {specs : List ModbusTagSpec} {rows : List ModbusTag}
    (h : tagsCreated env loadID specs = .ok rows) :
    rows.map (·.tagName) = specs.map (·.tagName) := by
  rw [← List.forall₂_eq_eq_eq, List.forall₂_map_left_iff, List.forall₂_map_right_iff]
  refine (forall₂_of_rowsToCreate h).flip.imp ?_
  rintro _ t ⟨c, hc, rfl⟩
  unfold modbusTagRow at hc
  split_ifs at hc
  cases hc
  rfl

omit [GoLib] [GoText] in
theorem nodeNames_created {loadID : Int} {specs : List OPCUANodeSpec} {rows : List OPCUANode}
    (h : nodesCreated env loadID specs = .ok rows) :
    rows.map (·.tagName) = specs.map (·.tagName) := by
  rw [← List.forall₂_eq_eq_eq, List.forall₂_map_left_iff, List.forall₂_map_right_iff]
  refine (forall₂_of_rowsToCreate h).flip.imp ?_
  rintro _ n ⟨c, hc, rfl⟩
  unfold opcuaNodeRow at hc
  split_ifs at hc
  cases hc
  rfl

/-! ## A sequence of files -/

/-- The state after a file that is applied without an error. -/
def applyOk (env : SeedEnv) (db : SeedDB) (f : File) : Option SeedDB :=
  if (apply env f db).2.1 = none then some (apply env f db).2.2 else none

/-- The state after a sequence of files, each of which is applied without an error. -/
def applyAll (env : SeedEnv) (fs : List File) (db : SeedDB) : Option SeedDB :=
  fs.foldlM (applyOk env) db

theorem applyOk_eq_some {db db₁ : SeedDB} (h : applyOk env db f = some db₁) :
    apply env f db = ((apply env f db).1, none, db₁) := by
  unfold applyOk at h
  split_ifs at h with hnone
  rw [← hnone, ← Option.some.inj h]

/-- The loops of a sequence of files. -/
theorem applyAll_loops {fs : List File} {db db' : SeedDB} (hv : db.Valid)
    (h : applyAll env fs db = some db') :
    db'.Valid ∧
      Loops loadModel modbusOwned (tagsCreated env) File.modbusByLoad LoadSpec.name File.loads fs
        db.tables.loads db.tables.modbusTags db'.tables.loads db'.tables.modbusTags ∧
      Loops loadModel opcuaOwned (nodesCreated env) File.opcuaByLoad LoadSpec.name File.loads fs
        db.tables.loads db.tables.opcuaNodes db'.tables.loads db'.tables.opcuaNodes := by
  induction fs generalizing db with
  | nil =>
    cases h
    exact ⟨hv, .nil _ _, .nil _ _⟩
  | cons f fs ih =>
    rw [applyAll, List.foldlM_cons] at h
    obtain ⟨db₁, hone, hrest⟩ := Option.bind_eq_some_iff.1 h
    have hap := apply_applies hv (applyOk_eq_some hone)
    obtain ⟨hv', htags, hnodes⟩ := ih hap.valid hrest
    have hdeclared := declared_of_references hap.references
    exact ⟨hv', .cons hap.tags hap.valid.loads (fun name => (hdeclared name).1) htags,
      .cons hap.nodes hap.valid.loads (fun name => (hdeclared name).2) hnodes⟩

/-- The last of the lists that is not empty. -/
def lastListed (lists : List (List String)) : Option (List String) :=
  (lists.filter (· ≠ [])).getLast?

omit [GoLib] [GoText] in
theorem lastListed_eq_none {g : File → List String} {fs : List File} :
    lastListed (fs.map g) = none ↔ ∀ f ∈ fs, g f = [] := by
  simp [lastListed]

omit [GoLib] [GoText] in
theorem lastListed_eq_some {g : File → List String} {fs : List File} {names : List String}
    (h : lastListed (fs.map g) = some names) :
    ∃ before f after, fs = before ++ f :: after ∧ g f = names ∧ names ≠ [] ∧
      ∀ f' ∈ after, g f' = [] := by
  induction fs with
  | nil => cases h
  | cons f fs ih =>
    cases hrest : lastListed (fs.map g) with
    | some rest =>
      have hsame : lastListed ((f :: fs).map g) = lastListed (fs.map g) := by
        unfold lastListed at hrest ⊢
        rw [List.map_cons, List.filter_cons]
        split_ifs
        · rw [List.getLast?_cons, hrest]
          rfl
        · rfl
      obtain ⟨before, f', after, rfl, hf', hne, hafter⟩ := ih (hsame ▸ h)
      exact ⟨f :: before, f', after, rfl, hf', hne, hafter⟩
    | none =>
      have hnil := List.getLast?_eq_none_iff.1 hrest
      rw [lastListed, List.map_cons, List.filter_cons, hnil] at h
      split_ifs at h with hf
      · cases h
        exact ⟨[], f, fs, rfl, rfl, by simpa using hf, lastListed_eq_none.1 hrest⟩
      · cases h

/-- The names that the files list for a load: of its tags and of its nodes. -/
def tagNames (fs : List File) (load : String) : List (List String) :=
  fs.map fun f => (f.modbusByLoad load).map (·.tagName)

def nodeNames (fs : List File) (load : String) : List (List String) :=
  fs.map fun f => (f.opcuaByLoad load).map (·.tagName)

/-- What the loads have after a sequence of files: a load with a list has the last one,
    and whoever has none keeps their rows. -/
def FollowsFiles {C : Type} (rows rows' : Int → List C) (tagName : C → String)
    (listed : String → List (List String)) (loads : List LoadRecord) : Prop :=
  (∀ name names, lastListed (listed name) = some names →
    ∃ l, loadModel.first loads name = some l ∧ (rows' l.id).map tagName = names) ∧
  ∀ loadID, (∀ name l, loadModel.first loads name = some l → l.id = loadID →
    lastListed (listed name) = none) → rows' loadID = rows loadID

omit [GoLib] [GoText] in
/-- The loops of tags and of nodes alike. -/
theorem FollowsFiles.of_loops {T C : Type} {w : Owned C} {create : Int → List T → Except Err (List C)}
    {items : File → String → List T} {specName : T → String} {id : C → ℕ} {tagName : C → String}
    (hid : ∀ n c, id (w.setID n c) = n) (hname : ∀ n c, tagName (w.setID n c) = tagName c)
    (howner : ∀ o ts new, create o ts = .ok new → ∀ c ∈ new, w.owner c = o)
    (hnames : ∀ o ts new, create o ts = .ok new → new.map tagName = ts.map specName)
    {fs : List File} {loads loads' : List LoadRecord} {rows rows' : List C} {next : Int}
    (hv : loadModel.Valid loads' next)
    (h : Loops loadModel w create items LoadSpec.name File.loads fs loads rows loads' rows') :
    FollowsFiles (fun loadID => (w.rowsOf rows loadID).mergeSort fun a b => id a ≤ id b)
      (fun loadID => (w.rowsOf rows' loadID).mergeSort fun a b => id a ≤ id b) tagName
      (fun load => fs.map fun f => (items f load).map specName) loads' := by
  constructor
  · intro name names hlast
    obtain ⟨before, f, after, rfl, rfl, hne, hafter⟩ := lastListed_eq_some hlast
    obtain ⟨l, new, n, hl, hnew, hrows⟩ := h.listed howner hv (by simpa using hne)
      (by simpa using hafter)
    refine ⟨l, hl, ?_⟩
    show ((w.rowsOf rows' l.id).mergeSort _).map tagName = _
    rw [show w.rowsOf rows' l.id = _ from hrows, mergeSort_numbered w id hid,
      map_numbered w tagName hname, hnames _ _ _ hnew]
  · intro loadID hnone
    have hframe : w.rowsOf rows' loadID = w.rowsOf rows loadID := by
      apply h.frame howner
      intro f hf name l hl heq
      simpa using lastListed_eq_none.1 (hnone name l hl heq) f hf
    show (w.rowsOf rows' loadID).mergeSort _ = _
    rw [hframe]

/-- A failed `Apply` leaves the database as it was. -/
theorem apply_error {db db₁ : SeedDB} {rep : Report} {e : Err}
    (h : apply env f db = (rep, some e, db₁)) : db₁ = db := by
  unfold apply at h
  split at h
  · cases h
    rfl
  · split at h
    · cases h
      rfl
    · cases h

/-- After files that were applied without an error the tags of each load are the ones of
    the last file that lists some for it, and so are its nodes; a failed `Apply` changes
    no row. -/
theorem lists_follow_last_file {fs : List File} {db db' : SeedDB} (hv : db.Valid)
    (h : applyAll env fs db = some db') :
    FollowsFiles db.modbusTagRows db'.modbusTagRows (·.tagName) (tagNames fs) db'.tables.loads ∧
      FollowsFiles db.opcuaNodeRows db'.opcuaNodeRows (·.tagName) (nodeNames fs) db'.tables.loads ∧
      ∀ f rep e db₂, apply env f db' = (rep, some e, db₂) → db₂ = db' := by
  obtain ⟨hv', htags, hnodes⟩ := applyAll_loops hv h
  refine ⟨?_, ?_, fun f rep e db₂ herr => apply_error herr⟩
  · exact .of_loops (fun _ _ => rfl) (fun _ _ => rfl)
      (fun _ _ _ hnew c hc => (tagsCreated_ok hnew c hc).2)
      (fun _ _ _ hnew => tagNames_created hnew) hv'.loads htags
  · exact .of_loops (fun _ _ => rfl) (fun _ _ => rfl)
      (fun _ _ _ hnew c hc => (nodesCreated_ok hnew c hc).2)
      (fun _ _ _ hnew => nodeNames_created hnew) hv'.loads hnodes

end

section

attribute [local instance] GoLib.ascii GoText.ascii

/-- Two loads, one of them named twice, with the given tags. -/
def pumpsFile (tags : List (String × String)) : File where
  sources := [{ name := "plant", kind := "modbus" }]
  loads := ["temps", "flows", "temps"].map fun name =>
    { name, source := "plant", cronExpression := "* * * * *", mode := "append"
      watermarkType := "none", targetSchema := "dbo", targetTable := name, batchSize := 500 }
  modbusTags := tags.map fun (load, tagName) =>
    { load, tagName, registerType := "holding", dataType := "int16" }

theorem pumpsFiles_follow : ∃ db', applyAll plainEnv
      [pumpsFile [("temps", "t1"), ("flows", "f1"), ("temps", "t2")], pumpsFile [("temps", "t3")]]
      {} = some db' ∧
    (∃ l, loadModel.first db'.tables.loads "temps" = some l ∧
      (db'.modbusTagRows l.id).map (·.tagName) = ["t3"]) ∧
    ∃ l, loadModel.first db'.tables.loads "flows" = some l ∧
      (db'.modbusTagRows l.id).map (·.tagName) = ["f1"] := by
  have hsome : (applyAll plainEnv [pumpsFile [("temps", "t1"), ("flows", "f1"), ("temps", "t2")],
      pumpsFile [("temps", "t3")]] {}).isSome = true := by decide +kernel
  obtain ⟨db', h⟩ := Option.isSome_iff_exists.1 hsome
  have hempty : SeedDB.Valid {} :=
    ⟨⟨List.nodup_nil, List.nodup_nil, by simp⟩, ⟨List.nodup_nil, List.nodup_nil, by simp⟩⟩
  obtain ⟨⟨hlisted, -⟩, -⟩ := lists_follow_last_file hempty h
  exact ⟨db', h, hlisted "temps" ["t3"] (by decide +kernel), hlisted "flows" ["f1"] (by decide +kernel)⟩

end

end DataLoader.Seed
