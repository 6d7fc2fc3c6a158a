import DataLoader.Seed.Apply

/-!
# What a successful `Apply` has done

Each round of the two loops of `Apply` writes one named row (`Stores`), and the round
of a load puts the tags and the nodes that the file lists for it in place of those it
has. `apply_applies` says this of the whole file: names may come more than once.
-/

namespace DataLoader.Seed

open Relational

variable {env : SeedEnv} {f : File}

theorem bind_ok {ε α β : Type} {x : Except ε α} {k : α → Except ε β} {b : β}
    (h : x >>= k = .ok b) : ∃ a, x = .ok a ∧ k a = .ok b := by
  cases x with
  | error e => cases h
  | ok a => exact ⟨a, rfl, h⟩

/-- Unique ids and names, and identity columns ahead of their tables. -/
structure SeedDB.Valid (db : SeedDB) : Prop where
  sources : sourceModel.Valid db.tables.sources db.nextSource
  loads : loadModel.Valid db.tables.loads db.nextLoad

/-! ## Sources -/

/-- What `upsertSource` may store for a spec whose name has the row `old`. -/
structure SourceSpec.Stores (env : SeedEnv) (spec : SourceSpec) (old : Option SourceRecord)
    (s : SourceRecord) : Prop where
  named : ¬ (spec.name = "" ∨ spec.kind = "")
  accepted : env.refuseSource s = none
  value : ∃ json, env.marshal spec.params = .ok json ∧
    match old with
    | none => ∃ id, s = sourceCreated id (spec.fresh json)
    | some r => s = spec.onto json r

theorem sourceWrites (spec : SourceSpec) (json : String) :
    sourceModel.Writes spec.name (fun id => sourceCreated id (spec.fresh json)) (spec.onto json) where
  fresh_id _ := rfl
  fresh_key _ := rfl
  fresh_live _ := rfl
  onto_id _ := rfl
  onto_key _ := rfl
  onto_live _ := rfl

theorem upsertSource_ok {spec : SourceSpec} {db db' : SeedDB} {s : SourceRecord} {a : Action}
    (hv : db.Valid) (h : upsertSource env spec db = .ok (s, a, db')) :
    db'.Valid ∧ spec.Stores env (sourceModel.first db.tables.sources spec.name) s ∧
      sourceModel.Placed db.tables.sources db'.tables.sources spec.name s ∧
      db'.tables = { db.tables with sources := db'.tables.sources } := by
  unfold upsertSource at h
  split_ifs at h with hnamed
  split at h
  · cases h
  · rename_i json hjson
    split at h
    · cases h
    · rename_i u hu
      cases h
      obtain ⟨hvalid, hplaced, haccepted, hvalue⟩ :=
        Model.upsert_ok (sourceWrites spec json) hv.sources hu
      refine ⟨⟨hvalid, hv.loads⟩, ⟨hnamed, haccepted, json, hjson, ?_⟩, hplaced, rfl⟩
      cases hfirst : sourceModel.first db.tables.sources spec.name with
      | none =>
        rw [hfirst] at hvalue
        exact ⟨_, hvalue⟩
      | some r =>
        rw [hfirst] at hvalue
        exact hvalue

variable [GoLib]

/-- The sources that the loop has met are the ones that the database has under their
    names. -/
def SeedTx.Agrees (tx : SeedTx) : Prop :=
  ∀ name s, tx.srcByName.lookup name = some s → sourceModel.first tx.db.tables.sources name = some s

theorem applySource_ok {tx tx' : SeedTx} {spec : SourceSpec} (hv : tx.db.Valid) (ha : tx.Agrees)
    (h : applySource env tx spec = .ok tx') :
    tx'.db.Valid ∧ tx'.Agrees ∧
      tx'.db.tables = { tx.db.tables with sources := tx'.db.tables.sources } ∧
      ∃ s, spec.Stores env (sourceModel.first tx.db.tables.sources spec.name) s ∧
        sourceModel.Placed tx.db.tables.sources tx'.db.tables.sources spec.name s := by
  unfold applySource at h
  cases hup : upsertSource env spec tx.db with
  | error e => simp [hup] at h
  | ok r =>
    obtain ⟨s, a, db⟩ := r
    simp only [hup, Except.ok.injEq] at h
    subst h
    obtain ⟨hv', hstores, hplaced, htables⟩ := upsertSource_ok hv hup
    refine ⟨hv', ?_, htables, s, hstores, hplaced⟩
    intro name s' hlookup
    rw [List.lookup_cons] at hlookup
    by_cases hname : name = spec.name
    · rw [hname, beq_self_eq_true] at hlookup
      cases hlookup
      rw [hname]
      exact hplaced.row
    · rw [beq_eq_false_iff_ne.2 hname] at hlookup
      exact (hplaced.rest name hname).trans (ha name s' hlookup)

/-- The loop over the sources. -/
theorem applySources_ok {specs : List SourceSpec} {tx tx' : SeedTx} (hv : tx.db.Valid)
    (ha : tx.Agrees) (h : specs.foldlM (applySource env) tx = .ok tx') :
    tx'.db.Valid ∧ tx'.Agrees ∧
      tx'.db.tables = { tx.db.tables with sources := tx'.db.tables.sources } ∧
      sourceModel.Upserts (·.name) (SourceSpec.Stores env) specs tx.db.tables.sources
        tx'.db.tables.sources := by
  induction specs generalizing tx with
  | nil =>
    cases h
    exact ⟨hv, ha, rfl, .nil _⟩
  | cons spec specs ih =>
    rw [List.foldlM_cons] at h
    obtain ⟨tx₁, hround, hrest⟩ := bind_ok h
    obtain ⟨hv₁, ha₁, htables, s, hstores, hplaced⟩ := applySource_ok hv ha hround
    obtain ⟨hv', ha', htables', hups⟩ := ih hv₁ ha₁ hrest
    refine ⟨hv', ha', ?_, .cons hstores hplaced hups⟩
    rw [htables', htables]

/-! ## Loads -/

omit [GoLib] in
theorem sourceOf_eq {tx : SeedTx} (ha : tx.Agrees) (spec : LoadSpec) :
    sourceOf tx spec = sourceModel.first tx.db.tables.sources spec.source := by
  unfold sourceOf
  cases hlookup : tx.srcByName.lookup spec.source with
  | none => rfl
  | some s => exact (ha _ _ hlookup).symm

/-- What `upsertLoad` may store for a spec whose name has the row `old`. -/
structure LoadSpec.Stores (env : SeedEnv) (sources : List SourceRecord) (spec : LoadSpec)
    (old : Option LoadRecord) (l : LoadRecord) : Prop where
  named : spec.name ≠ ""
  accepted : env.refuseLoad l = none
  value : ∃ src, sourceModel.first sources spec.source = some src ∧
    match old with
    | none => ∃ id, l = loadCreated id (spec.fresh src.id)
    | some r => l = spec.onto src.id r

omit [GoLib] in
theorem loadWrites (spec : LoadSpec) (sourceID : Int) :
    loadModel.Writes spec.name (fun id => loadCreated id (spec.fresh sourceID))
      (spec.onto sourceID) where
  fresh_id _ := rfl
  fresh_key _ := rfl
  fresh_live _ := rfl
  onto_id _ := rfl
  onto_key _ := rfl
  onto_live _ := rfl

omit [GoLib] in
theorem upsertLoad_ok {spec : LoadSpec} {src : SourceRecord} {db db' : SeedDB} {l : LoadRecord}
    {a : Action} (hv : db.Valid)
    (hsrc : sourceModel.first db.tables.sources spec.source = some src)
    (h : upsertLoad env spec src.id db = .ok (l, a, db')) :
    spec.Stores env db.tables.sources (loadModel.first db.tables.loads spec.name) l ∧
      ∃ rows next, db' = { db with tables := { db.tables with loads := rows }, nextLoad := next } ∧
        loadModel.Valid rows next ∧ loadModel.Placed db.tables.loads rows spec.name l := by
  unfold upsertLoad at h
  split_ifs at h with hnamed
  split at h
  · cases h
  · rename_i u hu
    cases h
    obtain ⟨hvalid, hplaced, haccepted, hvalue⟩ :=
      Model.upsert_ok (loadWrites spec src.id) hv.loads hu
    refine ⟨⟨hnamed, haccepted, src, hsrc, ?_⟩, u.rows, u.next, rfl, hvalid, hplaced⟩
    cases hfirst : loadModel.first db.tables.loads spec.name with
    | none =>
      rw [hfirst] at hvalue
      exact ⟨_, hvalue⟩
    | some r =>
      rw [hfirst] at hvalue
      exact hvalue

/-! ## Tags and nodes -/

omit [GoLib] in
theorem forall₂_of_mapM {T C : Type} {row : T → Except Err C} {specs : List T} {rows : List C}
    (h : specs.mapM row = .ok rows) : List.Forall₂ (fun t c => row t = .ok c) specs rows := by
  induction specs generalizing rows with
  | nil =>
    cases h
    exact .nil
  | cons t specs ih =>
    rw [List.mapM_cons] at h
    obtain ⟨c, hc, h⟩ := bind_ok h
    obtain ⟨cs, hcs, h⟩ := bind_ok h
    cases h
    exact .cons hc (ih hcs)

omit [GoLib] in
/-- There is one row for each spec, in their order. -/
theorem forall₂_of_rowsToCreate {T C : Type} {row : T → Except Err C} {created : C → C}
    {refuse : C → Option Err} {specs : List T} {rows : List C}
    (h : rowsToCreate row created refuse specs = .ok rows) :
    List.Forall₂ (fun t c => ∃ c₀, row t = .ok c₀ ∧ c = created c₀) specs rows := by
  unfold rowsToCreate at h
  split at h
  · cases h
  · rename_i rows₀ hrows₀
    split at h
    · cases h
    · cases h
      rw [List.forall₂_map_right_iff]
      exact (forall₂_of_mapM hrows₀).imp fun t c₀ hc₀ => ⟨c₀, hc₀, rfl⟩

omit [GoLib] in
theorem forall_of_forall₂ {T C : Type} {Q : T → C → Prop} {P : C → Prop} {specs : List T}
    {rows : List C} (h : List.Forall₂ Q specs rows) (hP : ∀ t c, Q t c → P c) :
    ∀ c ∈ rows, P c := by
  induction h with
  | nil => simp
  | cons hq _ ih => exact List.forall_mem_cons.2 ⟨hP _ _ hq, ih⟩

variable [GoText]

/-- The tags that `Create` stores for a load. -/
def tagsCreated (env : SeedEnv) (loadID : Int) (specs : List ModbusTagSpec) :
    Except Err (List ModbusTag) :=
  rowsToCreate (modbusTagRow loadID) modbusTagCreated env.refuseTag specs

omit [GoLib] [GoText] in
/-- The nodes that `Create` stores for a load. -/
def nodesCreated (env : SeedEnv) (loadID : Int) (specs : List OPCUANodeSpec) :
    Except Err (List OPCUANode) :=
  rowsToCreate (opcuaNodeRow loadID) opcuaNodeCreated env.refuseNode specs

theorem modbusTagRow_ok {loadID : Int} {t : ModbusTagSpec} {r : ModbusTag}
    (h : modbusTagRow loadID t = .ok r) : r.id = 0 ∧ r.loadID = loadID := by
  unfold modbusTagRow at h
  split_ifs at h
  cases h
  exact ⟨rfl, rfl⟩

omit [GoLib] [GoText] in
theorem opcuaNodeRow_ok {loadID : Int} {n : OPCUANodeSpec} {r : OPCUANode}
    (h : opcuaNodeRow loadID n = .ok r) : r.id = 0 ∧ r.loadID = loadID := by
  unfold opcuaNodeRow at h
  split_ifs at h
  cases h
  exact ⟨rfl, rfl⟩

/-- The tags belong to the load and have no number yet. -/
theorem tagsCreated_ok {loadID : Int} {specs : List ModbusTagSpec} {rows : List ModbusTag}
    (h : tagsCreated env loadID specs = .ok rows) :
    ∀ c ∈ rows, modbusOwned.setID 0 c = c ∧ modbusOwned.owner c = loadID := by
  refine forall_of_forall₂ (forall₂_of_rowsToCreate h) ?_
  rintro t _ ⟨c, hc, rfl⟩
  obtain ⟨hid, howner⟩ := modbusTagRow_ok hc
  exact ⟨by simp [modbusOwned, modbusTagCreated, hid], howner⟩

omit [GoLib] [GoText] in
theorem nodesCreated_ok {loadID : Int} {specs : List OPCUANodeSpec} {rows : List OPCUANode}
    (h : nodesCreated env loadID specs = .ok rows) :
    ∀ c ∈ rows, opcuaOwned.setID 0 c = c ∧ opcuaOwned.owner c = loadID := by
  refine forall_of_forall₂ (forall₂_of_rowsToCreate h) ?_
  rintro n _ ⟨c, hc, rfl⟩
  obtain ⟨hid, howner⟩ := opcuaNodeRow_ok hc
  exact ⟨by simp [opcuaOwned, opcuaNodeCreated, hid], howner⟩

theorem applyModbusTags_ok {spec : LoadSpec} {loadID : Int} {tx tx' : SeedTx}
    (h : applyModbusTags env f spec loadID tx = .ok tx') :
    ∃ rows next rep, tx' = { tx with
        db := { tx.db with tables := { tx.db.tables with modbusTags := rows }, nextTag := next }
        rep } ∧
      modbusOwned.Round (tagsCreated env) (f.modbusByLoad spec.name) loadID
        tx.db.tables.modbusTags rows := by
  unfold applyModbusTags at h
  split_ifs at h with hnil
  · cases h
    exact ⟨_, _, _, rfl, .inl ⟨hnil, rfl⟩⟩
  · unfold replaceModbusTags at h
    cases hrows : rowsToCreate (modbusTagRow loadID) modbusTagCreated env.refuseTag
        (f.modbusByLoad spec.name) with
    | error e => simp [hrows] at h
    | ok rows =>
      simp only [hrows, Except.ok.injEq] at h
      exact ⟨_, _, _, h.symm, .inr ⟨hnil, rows, tx.db.nextTag, hrows, rfl⟩⟩

omit [GoText] in
theorem applyOPCUANodes_ok {spec : LoadSpec} {loadID : Int} {tx tx' : SeedTx}
    (h : applyOPCUANodes env f spec loadID tx = .ok tx') :
    ∃ rows next rep, tx' = { tx with
        db := { tx.db with tables := { tx.db.tables with opcuaNodes := rows }, nextNode := next }
        rep } ∧
      opcuaOwned.Round (nodesCreated env) (f.opcuaByLoad spec.name) loadID
        tx.db.tables.opcuaNodes rows := by
  unfold applyOPCUANodes at h
  split_ifs at h with hnil
  · cases h
    exact ⟨_, _, _, rfl, .inl ⟨hnil, rfl⟩⟩
  · unfold replaceOPCUANodes at h
    cases hrows : rowsToCreate (opcuaNodeRow loadID) opcuaNodeCreated env.refuseNode
        (f.opcuaByLoad spec.name) with
    | error e => simp [hrows] at h
    | ok rows =>
      simp only [hrows, Except.ok.injEq] at h
      exact ⟨_, _, _, h.symm, .inr ⟨hnil, rows, tx.db.nextNode, hrows, rfl⟩⟩

/-! ## The loop over the loads -/

/-- One round of the loop. -/
theorem applyLoad_ok {tx tx' : SeedTx} {spec : LoadSpec} (hv : tx.db.Valid) (ha : tx.Agrees)
    (h : applyLoad env f tx spec = .ok tx') :
    tx'.db.Valid ∧ tx'.Agrees ∧ tx'.db.tables.sources = tx.db.tables.sources ∧
      ∃ l, spec.Stores env tx.db.tables.sources (loadModel.first tx.db.tables.loads spec.name) l ∧
        loadModel.Placed tx.db.tables.loads tx'.db.tables.loads spec.name l ∧
        modbusOwned.Round (tagsCreated env) (f.modbusByLoad spec.name) l.id
          tx.db.tables.modbusTags tx'.db.tables.modbusTags ∧
        opcuaOwned.Round (nodesCreated env) (f.opcuaByLoad spec.name) l.id
          tx.db.tables.opcuaNodes tx'.db.tables.opcuaNodes := by
  unfold applyLoad at h
  rw [sourceOf_eq ha] at h
  cases hsrc : sourceModel.first tx.db.tables.sources spec.source with
  | none => simp [hsrc] at h
  | some src =>
    simp only [hsrc] at h
    cases hup : upsertLoad env spec src.id tx.db with
    | error e => simp [hup] at h
    | ok r =>
      obtain ⟨l, a, db⟩ := r
      simp only [hup] at h
      obtain ⟨hstores, loads, next, rfl, hvalid, hplaced⟩ := upsertLoad_ok hv hsrc hup
      split at h
      · cases h
      · rename_i tx₁ htags
        obtain ⟨tags, nextTag, rep₁, rfl, htagsRound⟩ := applyModbusTags_ok htags
        obtain ⟨nodes, nextNode, rep₂, rfl, hnodesRound⟩ := applyOPCUANodes_ok h
        exact ⟨⟨hv.sources, hvalid⟩, ha, rfl, l, hstores, hplaced, htagsRound, hnodesRound⟩

omit [GoLib] [GoText] in
/-- The row of a load keeps its id. -/
theorem LoadSpec.Stores.id_eq {sources : List SourceRecord} {spec : LoadSpec}
    {old : Option LoadRecord} {l r : LoadRecord} (h : spec.Stores env sources old l)
    (hold : old = some r) : l.id = r.id := by
  subst hold
  obtain ⟨src, -, hl⟩ := h.value
  rw [show l = spec.onto src.id r from hl]
  rfl

/-- The whole loop. -/
theorem applyLoads_ok {specs : List LoadSpec} {tx tx' : SeedTx} (hv : tx.db.Valid) (ha : tx.Agrees)
    (h : specs.foldlM (applyLoad env f) tx = .ok tx') :
    tx'.db.Valid ∧ tx'.db.tables.sources = tx.db.tables.sources ∧
      loadModel.Upserts (·.name) (LoadSpec.Stores env tx.db.tables.sources) specs
        tx.db.tables.loads tx'.db.tables.loads ∧
      Rounds loadModel modbusOwned (tagsCreated env) f.modbusByLoad LoadSpec.name specs
        tx.db.tables.loads tx.db.tables.modbusTags tx'.db.tables.loads tx'.db.tables.modbusTags ∧
      Rounds loadModel opcuaOwned (nodesCreated env) f.opcuaByLoad LoadSpec.name specs
        tx.db.tables.loads tx.db.tables.opcuaNodes tx'.db.tables.loads
        tx'.db.tables.opcuaNodes := by
  induction specs generalizing tx with
  | nil =>
    cases h
    exact ⟨hv, rfl, .nil _, .nil _ _, .nil _ _⟩
  | cons spec specs ih =>
    rw [List.foldlM_cons] at h
    obtain ⟨tx₁, hround, hrest⟩ := bind_ok h
    obtain ⟨hv₁, ha₁, hsources, l, hstores, hplaced, htags, hnodes⟩ := applyLoad_ok hv ha hround
    obtain ⟨hv', hsources', hups, htags', hnodes'⟩ := ih hv₁ ha₁ hrest
    have hid : ∀ r, loadModel.first tx.db.tables.loads spec.name = some r →
        loadModel.id l = loadModel.id r := fun r hr => hstores.id_eq hr
    exact ⟨hv', hsources'.trans hsources, .cons hstores hplaced (hsources ▸ hups),
      .cons hplaced hid htags htags', .cons hplaced hid hnodes hnodes'⟩

/-! ## The whole file -/

omit [GoText] in
/-- A load with tags or nodes is declared. -/
theorem declared_of_references (h : f.checkReferences = none) (name : String) :
    (f.modbusByLoad name ≠ [] → name ∈ f.loads.map (·.name)) ∧
      (f.opcuaByLoad name ≠ [] → name ∈ f.loads.map (·.name)) := by
  unfold File.checkReferences at h
  split at h
  · cases h
  split at h
  · cases h
  split at h
  · cases h
  rename_i htags
  split at h
  · cases h
  rename_i hnodes
  have hdeclared : ∀ {load : String}, (!f.loads.any fun l => l.name == load) ≠ true →
      load ∈ f.loads.map (·.name) := by
    intro load hload
    obtain ⟨l, hl, heq⟩ : ∃ l ∈ f.loads, l.name = load := by simpa using hload
    exact heq ▸ List.mem_map_of_mem hl
  constructor
  · intro hne
    obtain ⟨t, ht⟩ := List.exists_mem_of_ne_nil _ hne
    obtain ⟨ht, hload⟩ := List.mem_filter.1 ht
    rw [← beq_iff_eq.1 hload]
    exact hdeclared (List.find?_eq_none.1 (Option.eq_none_iff_forall_ne_some.2 htags) t ht)
  · intro hne
    obtain ⟨n, hn⟩ := List.exists_mem_of_ne_nil _ hne
    obtain ⟨hn, hload⟩ := List.mem_filter.1 hn
    rw [← beq_iff_eq.1 hload]
    exact hdeclared (List.find?_eq_none.1 (Option.eq_none_iff_forall_ne_some.2 hnodes) n hn)

/-- What an `Apply` without an error does. -/
structure Applies (env : SeedEnv) (f : File) (db db₁ : SeedDB) : Prop where
  references : f.checkReferences = none
  valid : db₁.Valid
  sources : sourceModel.Upserts (·.name) (SourceSpec.Stores env) f.sources db.tables.sources
    db₁.tables.sources
  loads : loadModel.Upserts (·.name) (LoadSpec.Stores env db₁.tables.sources) f.loads
    db.tables.loads db₁.tables.loads
  tags : Rounds loadModel modbusOwned (tagsCreated env) f.modbusByLoad LoadSpec.name f.loads
    db.tables.loads db.tables.modbusTags db₁.tables.loads db₁.tables.modbusTags
  nodes : Rounds loadModel opcuaOwned (nodesCreated env) f.opcuaByLoad LoadSpec.name f.loads
    db.tables.loads db.tables.opcuaNodes db₁.tables.loads db₁.tables.opcuaNodes

theorem apply_applies {db db₁ : SeedDB} {rep : Report} (hv : db.Valid)
    (h : apply env f db = (rep, none, db₁)) : Applies env f db db₁ := by
  unfold apply at h
  cases href : f.checkReferences with
  | some e => simp [href] at h
  | none =>
    simp only [href] at h
    cases htx : transaction env f db with
    | error e => simp [htx] at h
    | ok tx =>
      simp only [htx, Prod.mk.injEq] at h
      obtain ⟨-, -, rfl⟩ := h
      obtain ⟨tx₁, hfirst, hsecond⟩ := bind_ok htx
      have hagrees : SeedTx.Agrees { db } := by
        intro name s hlookup
        simp at hlookup
      obtain ⟨hv₁, ha₁, htables, hups⟩ := applySources_ok hv hagrees hfirst
      obtain ⟨hv₂, hsame, hups', htags, hnodes⟩ := applyLoads_ok hv₁ ha₁ hsecond
      rw [htables] at hups' htags hnodes
      rw [← hsame] at hups hups'
      exact ⟨href, hv₂, hups, hups', htags, hnodes⟩

end DataLoader.Seed
