import DataLoader.Seed.Rounds

/-!
# Applying a seed file twice

With distinct names what a round of `Apply` has stored is still there when the file is
applied again. The second `Apply` then writes each row over itself, and leaves it as
it is unless the first one created it from a spec with a zero value for which gorm
stores a default (`StoredAsGiven`).
-/

namespace DataLoader.Seed

open Relational

section

variable {env : SeedEnv} {f : File}

/-- The tags and the nodes of a load. -/
structure Lists where
  tags : List ModbusTag
  nodes : List OPCUANode

/-- The tags and the nodes of a load in the order of their tables, without their
    ids. -/
def SeedDB.listsOf (db : SeedDB) (loadID : Int) : Lists :=
  ⟨modbusOwned.of db.tables.modbusTags loadID, opcuaOwned.of db.tables.opcuaNodes loadID⟩

/-- The two databases have the same sources and loads, and the same tags and nodes
    for every load. -/
structure SeedDB.SameAs (db db' : SeedDB) : Prop where
  sources : db.tables.sources = db'.tables.sources
  loads : db.tables.loads = db'.tables.loads
  lists : ∀ loadID, db.listsOf loadID = db'.listsOf loadID

theorem SeedDB.SameAs.trans {db₁ db₂ db₃ : SeedDB} (h : db₁.SameAs db₂) (h' : db₂.SameAs db₃) :
    db₁.SameAs db₃ :=
  ⟨h.sources.trans h'.sources, h.loads.trans h'.loads, fun o => (h.lists o).trans (h'.lists o)⟩

/-! ## Sources -/

/-- A value other than the ones for which `Create` stores a default. -/
def SourceSpec.StoredAsGiven (spec : SourceSpec) : Prop := spec.isEnabled ≠ some false

theorem orDefault_eq_iff {α : Type} [DecidableEq α] {zero default v : α} (h : zero ≠ default) :
    orDefault zero default v = v ↔ v ≠ zero := by
  unfold orDefault
  split_ifs with hv
  · simp [hv, h.symm]
  · simp [hv]

theorem valueOr_again {α : Type} (p : Option α) (v : α) : valueOr p (valueOr p v) = valueOr p v := by
  cases p <;> rfl

/-- What `Create` stores for an optional flag that is true by default. -/
def flagCreated (p : Option Bool) : Bool := orDefault false true (valueOr p true)

/-- The flag is written over by itself, unless it is given as false. -/
theorem flagCreated_again_iff (p : Option Bool) :
    flagCreated p = valueOr p (flagCreated p) ↔ p ≠ some false := by
  cases p with
  | none => simp [flagCreated, valueOr]
  | some b => cases b <;> simp [flagCreated, valueOr, orDefault]

/-- What has been stored is stored again as it is, unless `Create` has put a default
    in its place. -/
theorem SourceSpec.Stores.again_iff {spec : SourceSpec} {old : Option SourceRecord}
    {s : SourceRecord} (h : spec.Stores env old s) :
    spec.Stores env (some s) s ↔ (old = none → spec.StoredAsGiven) := by
  obtain ⟨json, hjson, hvalue⟩ := h.value
  have hagain : spec.Stores env (some s) s ↔ s = spec.onto json s := by
    constructor
    · rintro ⟨-, -, json', hjson', hs⟩
      rw [hjson] at hjson'
      cases hjson'
      exact hs
    · exact fun hs => ⟨h.named, h.accepted, json, hjson, hs⟩
  rw [hagain]
  cases old with
  | some r =>
    have hs : s = spec.onto json r := hvalue
    subst hs
    simp [SourceSpec.onto, valueOr_again]
  | none =>
    obtain ⟨id, rfl⟩ := hvalue
    have hflag : sourceCreated id (spec.fresh json) =
        spec.onto json (sourceCreated id (spec.fresh json)) ↔
        flagCreated spec.isEnabled = valueOr spec.isEnabled (flagCreated spec.isEnabled) := by
      simp [SourceSpec.onto, SourceSpec.fresh, sourceCreated, flagCreated]
    rw [hflag, flagCreated_again_iff]
    exact ⟨fun h _ => h, fun h => h rfl⟩

/-- A spec that stores its row as it is leaves the database alone. -/
theorem upsertSource_again {spec : SourceSpec} {db : SeedDB} {s : SourceRecord} (hv : db.Valid)
    (hfirst : sourceModel.first db.tables.sources spec.name = some s)
    (h : spec.Stores env (some s) s) : upsertSource env spec db = .ok (s, .updated, db) := by
  obtain ⟨json, hjson, hs⟩ := h.value
  simp only [upsertSource, if_neg h.named, hjson,
    Model.upsert_self hv.sources hfirst hs.symm h.accepted]
  rfl

variable [GoLib]

/-- The loop over sources that are stored as they are. -/
theorem applySources_again {specs : List SourceSpec} {tx : SeedTx} (hv : tx.db.Valid)
    (h : ∀ spec ∈ specs, ∃ s, sourceModel.first tx.db.tables.sources spec.name = some s ∧
      spec.Stores env (some s) s) :
    ∃ tx', specs.foldlM (applySource env) tx = .ok tx' ∧ tx'.db = tx.db := by
  induction specs generalizing tx with
  | nil => exact ⟨tx, rfl, rfl⟩
  | cons spec specs ih =>
    obtain ⟨s, hfirst, hstores⟩ := h spec List.mem_cons_self
    have hround := upsertSource_again hv hfirst hstores
    rw [List.foldlM_cons, applySource, hround]
    exact ih hv fun spec' hspec' => h spec' (List.mem_cons_of_mem _ hspec')

/-! ## Loads -/

/-- No value of the spec is one for which `Create` stores a default. -/
structure LoadSpec.StoredAsGiven (spec : LoadSpec) : Prop where
  targetSchema : spec.targetSchema ≠ ""
  watermarkType : spec.watermarkType ≠ ""
  batchSize : spec.batchSize ≠ 0
  autoCreateTable : spec.autoCreateTable ≠ some false
  isEnabled : spec.isEnabled ≠ some false

omit [GoLib] in
theorem LoadSpec.Stores.again_iff {sources : List SourceRecord} {spec : LoadSpec}
    {old : Option LoadRecord} {l : LoadRecord} (h : spec.Stores env sources old l) :
    spec.Stores env sources (some l) l ↔ (old = none → spec.StoredAsGiven) := by
  obtain ⟨src, hsrc, hvalue⟩ := h.value
  have hagain : spec.Stores env sources (some l) l ↔ l = spec.onto src.id l := by
    constructor
    · rintro ⟨-, -, src', hsrc', hl⟩
      rw [hsrc] at hsrc'
      cases hsrc'
      exact hl
    · exact fun hl => ⟨h.named, h.accepted, src, hsrc, hl⟩
  rw [hagain]
  cases old with
  | some r =>
    have hl : l = spec.onto src.id r := hvalue
    subst hl
    simp [LoadSpec.onto, valueOr_again]
  | none =>
    obtain ⟨id, rfl⟩ := hvalue
    have hfields : loadCreated id (spec.fresh src.id) =
        spec.onto src.id (loadCreated id (spec.fresh src.id)) ↔
        orDefault "" "dbo" spec.targetSchema = spec.targetSchema ∧
        orDefault "" "none" spec.watermarkType = spec.watermarkType ∧
        orDefault 0 1000 spec.batchSize = spec.batchSize ∧
        flagCreated spec.autoCreateTable = valueOr spec.autoCreateTable
          (flagCreated spec.autoCreateTable) ∧
        flagCreated spec.isEnabled = valueOr spec.isEnabled (flagCreated spec.isEnabled) := by
      simp [LoadSpec.onto, LoadSpec.fresh, loadCreated, flagCreated]
    rw [hfields, orDefault_eq_iff (by decide), orDefault_eq_iff (by decide),
      orDefault_eq_iff (by decide), flagCreated_again_iff, flagCreated_again_iff]
    constructor
    · rintro ⟨h1, h2, h3, h4, h5⟩ -
      exact ⟨h1, h2, h3, h4, h5⟩
    · intro hgiven
      obtain ⟨h1, h2, h3, h4, h5⟩ := hgiven rfl
      exact ⟨h1, h2, h3, h4, h5⟩

omit [GoLib] in
theorem upsertLoad_again {spec : LoadSpec} {db : SeedDB} {l : LoadRecord} (hv : db.Valid)
    (hfirst : loadModel.first db.tables.loads spec.name = some l)
    (h : spec.Stores env db.tables.sources (some l) l) :
    ∃ src, sourceModel.first db.tables.sources spec.source = some src ∧
      upsertLoad env spec src.id db = .ok (l, .updated, db) := by
  obtain ⟨src, hsrc, hl⟩ := h.value
  refine ⟨src, hsrc, ?_⟩
  simp only [upsertLoad, if_neg h.named, Model.upsert_self hv.loads hfirst hl.symm h.accepted]
  rfl

/-! ## Tags and nodes -/

/-- A list of a load after its round: as it was if the file has nothing for it. -/
def listAfter {T C : Type} (specs : List T) (rows : Except Err (List C)) (old : List C) :
    Except Err (List C) :=
  if specs = [] then .ok old else rows

variable [GoText]

/-- The tags of a load after its round. -/
def tagsAfter (env : SeedEnv) (f : File) (load : String) (loadID : Int) (old : List ModbusTag) :
    Except Err (List ModbusTag) :=
  listAfter (f.modbusByLoad load)
    (rowsToCreate (modbusTagRow loadID) modbusTagCreated env.refuseTag (f.modbusByLoad load)) old

/-- The nodes of a load after its round. -/
def nodesAfter (env : SeedEnv) (f : File) (load : String) (loadID : Int) (old : List OPCUANode) :
    Except Err (List OPCUANode) :=
  listAfter (f.opcuaByLoad load)
    (rowsToCreate (opcuaNodeRow loadID) opcuaNodeCreated env.refuseNode (f.opcuaByLoad load)) old

omit [GoLib] [GoText] in
/-- Rows without a number, as the list of their owner. -/
theorem of_eq_of_numbered {C : Type} {w : Owned C} {rows new : List C} {o : Int} {next : ℕ}
    (hnew : ∀ c ∈ new, w.setID 0 c = c) (h : w.rowsOf rows o = w.numbered next new) :
    w.of rows o = new := by
  calc w.of rows o = (w.numbered next new).map (w.setID 0) := by rw [← h]; rfl
    _ = new.map (w.setID 0) := Owned.map_setID_numbered
    _ = new.map id := List.map_congr_left hnew
    _ = new := List.map_id new

omit [GoLib] [GoText] in
/-- A round that finds the list that it would write leaves all lists as they are. -/
theorem of_eq_of_round {T C : Type} {w : Owned C} {create : Int → List T → Except Err (List C)}
    {items : List T} {o : Int} {rows rows' : List C}
    (hcreate : ∀ o ts new, create o ts = .ok new → ∀ c ∈ new, w.setID 0 c = c ∧ w.owner c = o)
    (h : w.Round create items o rows rows')
    (hsame : listAfter items (create o items) (w.of rows o) = .ok (w.of rows o)) (o' : Int) :
    w.of rows' o' = w.of rows o' := by
  have howner : ∀ o ts new, create o ts = .ok new → ∀ c ∈ new, w.owner c = o :=
    fun o ts new hnew c hc => (hcreate o ts new hnew c hc).2
  by_cases ho : o' = o ∧ items ≠ []
  · obtain ⟨rfl, hne⟩ := ho
    obtain ⟨new, next, hnew, hrows⟩ := h.listed howner hne
    rw [listAfter, if_neg hne, hnew] at hsame
    rw [of_eq_of_numbered (fun c hc => (hcreate _ _ _ hnew c hc).1) hrows]
    exact Except.ok.inj hsame
  · have hrows := h.frame howner (fun heq => by_contra fun hne => ho ⟨heq, hne⟩)
    exact congrArg (List.map (w.setID 0)) hrows

omit [GoLib] [GoText] in
/-- At the end of a loop a further round would write the list that there is. -/
theorem listAfter_of_listed {T C : Type} {w : Owned C} {create : Int → List T → Except Err (List C)}
    {items : List T} {o : Int} {rows : List C}
    (hcreate : ∀ o ts new, create o ts = .ok new → ∀ c ∈ new, w.setID 0 c = c ∧ w.owner c = o)
    (h : items ≠ [] → ∃ new next, create o items = .ok new ∧ w.rowsOf rows o = w.numbered next new) :
    listAfter items (create o items) (w.of rows o) = .ok (w.of rows o) := by
  unfold listAfter
  split_ifs with hnil
  · rfl
  · obtain ⟨new, next, hnew, hrows⟩ := h hnil
    rw [hnew, of_eq_of_numbered (fun c hc => (hcreate _ _ _ hnew c hc).1) hrows]

theorem exists_applyModbusTags {spec : LoadSpec} {loadID : Int} {old tags : List ModbusTag}
    (h : tagsAfter env f spec.name loadID old = .ok tags) (tx : SeedTx) :
    ∃ tx', applyModbusTags env f spec loadID tx = .ok tx' := by
  unfold applyModbusTags
  split_ifs with hnil
  · exact ⟨tx, rfl⟩
  · rw [tagsAfter, listAfter, if_neg hnil] at h
    rw [replaceModbusTags, h]
    exact ⟨_, rfl⟩

omit [GoText] in
theorem exists_applyOPCUANodes {spec : LoadSpec} {loadID : Int} {old nodes : List OPCUANode}
    (h : nodesAfter env f spec.name loadID old = .ok nodes) (tx : SeedTx) :
    ∃ tx', applyOPCUANodes env f spec loadID tx = .ok tx' := by
  unfold applyOPCUANodes
  split_ifs with hnil
  · exact ⟨tx, rfl⟩
  · rw [nodesAfter, listAfter, if_neg hnil] at h
    rw [replaceOPCUANodes, h]
    exact ⟨_, rfl⟩

/-- The lists of a load after its round, from those before. -/
structure ListsAfter (env : SeedEnv) (f : File) (load : String) (loadID : Int) (old new : Lists) :
    Prop where
  tags : tagsAfter env f load loadID old.tags = .ok new.tags
  nodes : nodesAfter env f load loadID old.nodes = .ok new.nodes

/-! ## The loop over the loads -/

/-- A round that stores the load as it is and leaves its lists as they are. -/
theorem applyLoad_again {tx : SeedTx} {spec : LoadSpec} {l : LoadRecord} (hv : tx.db.Valid)
    (ha : tx.Agrees) (hfirst : loadModel.first tx.db.tables.loads spec.name = some l)
    (hstores : spec.Stores env tx.db.tables.sources (some l) l)
    (hlists : ListsAfter env f spec.name l.id (tx.db.listsOf l.id) (tx.db.listsOf l.id)) :
    ∃ tx', applyLoad env f tx spec = .ok tx' ∧ tx'.db.Valid ∧ tx'.Agrees ∧
      tx'.db.SameAs tx.db := by
  obtain ⟨src, hsrc, hup⟩ := upsertLoad_again hv hfirst hstores
  obtain ⟨tx₁, htags⟩ := exists_applyModbusTags hlists.tags
    { tx with rep := tx.rep.recordLoad .updated spec.name }
  obtain ⟨tx₂, hnodes⟩ := exists_applyOPCUANodes hlists.nodes tx₁
  have hround : applyLoad env f tx spec = .ok tx₂ := by
    simp only [applyLoad, sourceOf_eq ha, hsrc, hup, htags, hnodes]
  obtain ⟨tags, nextTag, rep₁, rfl, htagsRound⟩ := applyModbusTags_ok htags
  obtain ⟨nodes, nextNode, rep₂, rfl, hnodesRound⟩ := applyOPCUANodes_ok hnodes
  refine ⟨_, hround, ⟨hv.sources, hv.loads⟩, ha, rfl, rfl, ?_⟩
  intro o
  rw [SeedDB.listsOf, SeedDB.listsOf]
  exact congrArg₂ Lists.mk (of_eq_of_round (fun _ _ _ => tagsCreated_ok) htagsRound hlists.tags o)
    (of_eq_of_round (fun _ _ _ => nodesCreated_ok) hnodesRound hlists.nodes o)

/-- The loop over loads that are stored as they are. -/
theorem applyLoads_again {specs : List LoadSpec} {tx : SeedTx} (hv : tx.db.Valid) (ha : tx.Agrees)
    (h : ∀ spec ∈ specs, ∃ l, loadModel.first tx.db.tables.loads spec.name = some l ∧
      spec.Stores env tx.db.tables.sources (some l) l ∧
      ListsAfter env f spec.name l.id (tx.db.listsOf l.id) (tx.db.listsOf l.id)) :
    ∃ tx', specs.foldlM (applyLoad env f) tx = .ok tx' ∧ tx'.db.SameAs tx.db := by
  induction specs generalizing tx with
  | nil => exact ⟨tx, rfl, rfl, rfl, fun _ => rfl⟩
  | cons spec specs ih =>
    obtain ⟨l, hfirst, hstores, hlists⟩ := h spec List.mem_cons_self
    obtain ⟨tx₁, hround, hv₁, ha₁, hsame⟩ := applyLoad_again hv ha hfirst hstores hlists
    have hrest : ∀ spec' ∈ specs, ∃ l', loadModel.first tx₁.db.tables.loads spec'.name = some l' ∧
        spec'.Stores env tx₁.db.tables.sources (some l') l' ∧
        ListsAfter env f spec'.name l'.id (tx₁.db.listsOf l'.id) (tx₁.db.listsOf l'.id) := by
      intro spec' hspec'
      obtain ⟨l', hfirst', hstores', hlists'⟩ := h spec' (List.mem_cons_of_mem _ hspec')
      refine ⟨l', ?_, ?_, ?_⟩
      · rw [hsame.loads, hfirst']
      · rw [hsame.sources]
        exact hstores'
      · rw [hsame.lists]
        exact hlists'
    obtain ⟨tx', hloop, hsame'⟩ := ih hv₁ ha₁ hrest
    refine ⟨tx', ?_, hsame'.trans hsame⟩
    rw [List.foldlM_cons, hround]
    exact hloop

/-! ## The whole file -/

/-- Every row that the file would create is stored as the file gives it. -/
structure File.StoredAsGiven (f : File) (db : SeedDB) : Prop where
  sources : ∀ spec ∈ f.sources, sourceModel.first db.tables.sources spec.name = none →
    spec.StoredAsGiven
  loads : ∀ spec ∈ f.loads, loadModel.first db.tables.loads spec.name = none → spec.StoredAsGiven

/-- What an `Apply` without an error leaves behind for each spec of the file. -/
structure Applied (env : SeedEnv) (f : File) (db db₁ : SeedDB) : Prop where
  references : f.checkReferences = none
  valid : db₁.Valid
  sources : ∀ spec ∈ f.sources, ∃ s,
    spec.Stores env (sourceModel.first db.tables.sources spec.name) s ∧
      sourceModel.first db₁.tables.sources spec.name = some s
  loads : ∀ spec ∈ f.loads, ∃ l,
    spec.Stores env db₁.tables.sources (loadModel.first db.tables.loads spec.name) l ∧
      loadModel.first db₁.tables.loads spec.name = some l ∧
      ListsAfter env f spec.name l.id (db₁.listsOf l.id) (db₁.listsOf l.id)

theorem apply_applied {db db₁ : SeedDB} {rep : Report} (hsources : (f.sources.map (·.name)).Nodup)
    (hloads : (f.loads.map (·.name)).Nodup) (hv : db.Valid)
    (h : apply env f db = (rep, none, db₁)) : Applied env f db db₁ := by
  have hap := apply_applies hv h
  refine ⟨hap.references, hap.valid, fun spec hspec => hap.sources.first_of_mem hsources hspec, ?_⟩
  intro spec hspec
  obtain ⟨l, hstores, hl⟩ := hap.loads.first_of_mem hloads hspec
  obtain ⟨l₁, hl₁, htags⟩ := hap.tags.listed
    (fun _ _ _ h c hc => (tagsCreated_ok h c hc).2) hap.valid.loads hspec
  obtain ⟨l₂, hl₂, hnodes⟩ := hap.nodes.listed
    (fun _ _ _ h c hc => (nodesCreated_ok h c hc).2) hap.valid.loads hspec
  obtain rfl : l₁ = l := Option.some.inj (hl₁.symm.trans hl)
  obtain rfl : l₂ = l₁ := Option.some.inj (hl₂.symm.trans hl₁)
  exact ⟨l₂, hstores, hl, listAfter_of_listed (fun _ _ _ => tagsCreated_ok) htags,
    listAfter_of_listed (fun _ _ _ => nodesCreated_ok) hnodes⟩

/-- A file whose rows are all stored as they are can be applied, and changes
    nothing. -/
theorem apply_again {db db₁ : SeedDB} (hap : Applied env f db db₁)
    (hsources : ∀ spec ∈ f.sources, ∀ s, sourceModel.first db₁.tables.sources spec.name = some s →
      spec.Stores env (some s) s)
    (hloads : ∀ spec ∈ f.loads, ∀ l, loadModel.first db₁.tables.loads spec.name = some l →
      spec.Stores env db₁.tables.sources (some l) l) :
    ∃ rep db₂, apply env f db₁ = (rep, none, db₂) ∧ db₂.SameAs db₁ := by
  have hagrees : SeedTx.Agrees { db := db₁ } := by
    intro name s hlookup
    simp at hlookup
  obtain ⟨tx, hfirst, hdb⟩ : ∃ tx, f.sources.foldlM (applySource env) { db := db₁ } = .ok tx ∧
      tx.db = db₁ := by
    apply applySources_again hap.valid
    intro spec hspec
    obtain ⟨s, -, hs⟩ := hap.sources spec hspec
    exact ⟨s, hs, hsources spec hspec s hs⟩
  obtain ⟨-, ha, -⟩ := applySources_ok hap.valid hagrees hfirst
  obtain ⟨tx', hsecond, hsame⟩ : ∃ tx', f.loads.foldlM (applyLoad env f) tx = .ok tx' ∧
      tx'.db.SameAs tx.db := by
    apply applyLoads_again (hdb ▸ hap.valid) ha
    intro spec hspec
    rw [hdb]
    obtain ⟨l, -, hl, hlists⟩ := hap.loads spec hspec
    exact ⟨l, hl, hloads spec hspec l hl, hlists⟩
  have htx : transaction env f db₁ = .ok tx' := by
    rw [transaction, hfirst]
    exact hsecond
  refine ⟨tx'.rep, tx'.db, ?_, hdb ▸ hsame⟩
  rw [apply, hap.references, htx]

/-- Let a file with distinct names be applied without an error. Applying it again
    succeeds and leaves all rows as they are, if and only if every row that the first
    `Apply` has created is stored as the file gives it. -/
theorem apply_idempotent_iff {db db₁ : SeedDB} {rep : Report}
    (hsources : (f.sources.map (·.name)).Nodup) (hloads : (f.loads.map (·.name)).Nodup)
    (hv : db.Valid) (h : apply env f db = (rep, none, db₁)) :
    (∃ rep' db₂, apply env f db₁ = (rep', none, db₂) ∧ db₂.SameAs db₁) ↔ f.StoredAsGiven db := by
  have hap := apply_applied hsources hloads hv h
  constructor
  · rintro ⟨rep', db₂, h₂, hsame⟩
    have hap₂ := apply_applied hsources hloads hap.valid h₂
    constructor
    · intro spec hspec hnone
      obtain ⟨s, hstores, hs⟩ := hap.sources spec hspec
      obtain ⟨s', hstores', hs'⟩ := hap₂.sources spec hspec
      rw [hsame.sources, hs] at hs'
      cases hs'
      rw [hs] at hstores'
      exact hstores.again_iff.1 hstores' hnone
    · intro spec hspec hnone
      obtain ⟨l, hstores, hl, -⟩ := hap.loads spec hspec
      obtain ⟨l', hstores', hl', -⟩ := hap₂.loads spec hspec
      rw [hsame.loads, hl] at hl'
      cases hl'
      rw [hl, hsame.sources] at hstores'
      exact hstores.again_iff.1 hstores' hnone
  · intro hgiven
    apply apply_again hap
    · intro spec hspec s hs
      obtain ⟨s', hstores, hs'⟩ := hap.sources spec hspec
      rw [hs] at hs'
      cases hs'
      exact hstores.again_iff.2 (hgiven.sources spec hspec)
    · intro spec hspec l hl
      obtain ⟨l', hstores, hl', -⟩ := hap.loads spec hspec
      rw [hl] at hl'
      cases hl'
      exact hstores.again_iff.2 (hgiven.loads spec hspec)

end

/-! ## Two files -/

section Examples

attribute [local instance] GoLib.ascii GoText.ascii

/-- Libraries that take every row; a nil map is the only one that is marshalled. -/
def plainEnv : SeedEnv where
  marshal _ := .ok "null"
  refuseSource _ := none
  refuseLoad _ := none
  refuseTag _ := none
  refuseNode _ := none
  duplicate name := "duplicate key " ++ name

/-- A Modbus source, a load with the given watermark type, and a tag with scale zero. -/
def plantFile (isEnabled : Option Bool) (watermarkType : String) : File where
  sources := [{ name := "plant", kind := "modbus", isEnabled }]
  loads := [{ name := "temps", source := "plant", cronExpression := "* * * * *", mode := "append",
              watermarkType, targetSchema := "dbo", targetTable := "temps", batchSize := 500 }]
  modbusTags := [{ load := "temps", tagName := "t1", registerType := "holding", dataType := "int16",
                   scale := some 0 }]

theorem plantFile_idempotent : ∃ rep db₁, apply plainEnv (plantFile none "none") {} = (rep, none, db₁) ∧
    ∃ rep' db₂, apply plainEnv (plantFile none "none") db₁ = (rep', none, db₂) ∧ db₂.SameAs db₁ := by
  have hnone : (apply plainEnv (plantFile none "none") {}).2.1 = none := by decide +kernel
  have h : apply plainEnv (plantFile none "none") {} =
      ((apply plainEnv (plantFile none "none") {}).1, none,
        (apply plainEnv (plantFile none "none") {}).2.2) := by rw [← hnone]
  have hempty : SeedDB.Valid {} :=
    ⟨⟨List.nodup_nil, List.nodup_nil, by simp⟩, ⟨List.nodup_nil, List.nodup_nil, by simp⟩⟩
  refine ⟨_, _, h, (apply_idempotent_iff (by decide) (by decide) hempty h).2 ⟨?_, ?_⟩⟩
  · intro spec hspec _
    obtain rfl := List.mem_singleton.1 hspec
    simp [SourceSpec.StoredAsGiven]
  · intro spec hspec _
    obtain rfl := List.mem_singleton.1 hspec
    exact ⟨by decide, by decide, by decide, by decide, by decide⟩

/-- A source that is given as disabled is created enabled and disabled by the second
    `Apply`, and a load without a watermark type has type `none` after the first one
    and none at all after the second. -/
theorem second_apply_changes_rows :
    let first := apply plainEnv (plantFile (some false) "") {}
    let second := apply plainEnv (plantFile (some false) "") first.2.2
    first.2.1 = none ∧ first.2.2.tables.sources.map (·.isEnabled) = [true] ∧
      first.2.2.tables.loads.map (·.watermarkType) = ["none"] ∧
      second.2.1 = none ∧ second.2.2.tables.sources.map (·.isEnabled) = [false] ∧
      second.2.2.tables.loads.map (·.watermarkType) = [""] := by
  decide +kernel

end Examples

end DataLoader.Seed
