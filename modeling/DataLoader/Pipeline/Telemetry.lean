import DataLoader.Pipeline.AppendSpec
import DataLoader.Pipeline.Delivered
import DataLoader.Pipeline.ModbusAgree

/-!
# The tables of Modbus and OPC UA loads

Both modules poll the points of a load: a `Read` hands over one batch at most, with one row for
each point of the list that it was given. The runner appends whatever the mode of the load is.

* `PointModule`: what the two modules have in common; `Modbus.points` and `Opcua.points`. The
  rows of a poll are made of the answers that `Read` got on its path.
* `PollOf`: what one run adds to the target.
* `modbus_table_is_polls`, `opcua_table_is_polls`: over every history the target grows by one
  poll for each run.
-/

namespace DataLoader

open Effects Mssql

open scoped List

/-! ## Polls -/

section

variable {S : Sig}

/-- A `Read` that asks for the points with the call `ask`. -/
inductive ReadsPoints {Point : Type} (ask : S.Call) (given : S.Ans ask → Option (List Point))
    (columns : List Column) (Rows : List (Step (readSig S)) → List Point → List Row → Prop)
    (tr : List (Step (readSig S))) (err : Option Err) : Prop
  | idle (hnone : emittedBatches tr = [])
      (hempty : err = none → ∃ a, ⟨.driver ask, a⟩ ∈ tr ∧ given a = some [])
  | polled {a : S.Ans ask} {points : List Point} {rows : List Row}
      (hasked : ⟨.driver ask, a⟩ ∈ tr) (hgiven : given a = some points)
      (hbatch : emittedBatches tr = [⟨columns, rows⟩]) (hrows : Rows tr points rows)

/-- A source module that polls points. `Rows` are the rows of the points, for the answers on a
    path of its `Read`. -/
structure PointModule (S : Sig) where
  Point : Type
  kind : String
  read : Reader S
  ask : Int → S.Call
  given : {id : Int} → S.Ans (ask id) → Option (List Point)
  columns : List Column
  Rows : List (Step (readSig S)) → List Point → List Row → Prop
  pointBased : kind = "modbus" ∨ kind = "opcua"
  reports : ∀ cfg, Reports false (read cfg)
  polls : ∀ {cfg tr result err}, (read cfg).Path tr (result, err) →
    ReadsPoints (ask cfg.loadID) given columns Rows tr err

theorem rows_emittedBatches (tr : List (Step (readSig S))) :
    (emittedBatches tr).map (·.rows) = (handedRows tr).map (·.1) := by
  induction tr with
  | nil => rfl
  | cons s tr ih =>
    obtain ⟨c, a⟩ := s
    cases c with
    | driver c => exact ih
    | emit b => exact congrArg (b.rows :: ·) ih

theorem emittedBatches_columns {tr : List (Step (readSig S))} {columns : List Column}
    (h : ∀ s ∈ tr, ∀ b, s.1 = ReadCall.emit b → b.columns = columns) :
    ∀ b ∈ emittedBatches tr, b.columns = columns := by
  induction tr with
  | nil => simp
  | cons s tr ih =>
    obtain ⟨hs, htr⟩ := List.forall_mem_cons.1 h
    obtain ⟨c, a⟩ := s
    cases c with
    | driver c => exact ih htr
    | emit b => exact List.forall_mem_cons.2 ⟨hs b rfl, ih htr⟩

end

/-! ## The two modules -/

section

variable [GoLib] [GoText] [GoFloat]

namespace Modbus

theorem TagRow.eq {pollTS : Time} {tag : ModbusPoint} {part : List (Step (readSig modbusSig))}
    {row : Row} (h : TagRow pollTS tag part row) :
    ∃ reading, (outcome tag).Path part reading ∧ row = tagRow tag pollTS reading := by
  obtain ⟨counted, hpath⟩ := h.own
  rw [fillTag_eq] at hpath
  obtain ⟨rc, tr₁, tr₂, hread, hret, rfl⟩ := Prog.Path.of_bind hpath
  obtain ⟨heq, rfl⟩ := Prog.Path.of_ret hret
  obtain rfl := Option.some.inj heq
  obtain ⟨reading, hout, hrow, -⟩ := readTag_path hread
  rw [List.append_nil]
  exact ⟨reading, hout, hrow⟩

/-- The rows of one poll: of each tag what the calls for it came to, all with the poll time. -/
def PolledRows (tr : List (Step (readSig modbusSig))) (tags : List ModbusPoint) (rows : List Row) :
    Prop :=
  ∃ pollTS, ∃ parts : List (List (Step (readSig modbusSig)) × Row),
    ⟨.driver .now, pollTS⟩ ∈ tr ∧ rows = parts.map (·.2) ∧
    (∃ before after, tr = before ++ parts.flatMap (·.1) ++ after) ∧
    List.Forall₂ (fun tag p => ∃ reading, (outcome tag).Path p.1 reading ∧
      p.2 = tagRow tag pollTS reading) tags parts

/-- The Modbus module. -/
def points (catalogue : Bool) : PointModule modbusSig where
  Point := ModbusPoint
  kind := "modbus"
  read := Modbus.read catalogue
  ask := .listModbusTags
  given a := Except.toOption (ε := Err) a
  columns := columns
  Rows := PolledRows
  pointBased := .inl rfl
  reports := read_reports catalogue
  polls := by
    intro cfg tr result err h
    cases read_path h with
    | unlisted _ hhanded =>
      have hrows := rows_emittedBatches tr
      rw [hhanded] at hrows
      exact .idle (List.map_eq_nil_iff.1 hrows) nofun
    | empty => exact .idle rfl fun _ => ⟨.ok [], List.mem_singleton_self _, rfl⟩
    | @polled tags pollTS parts _ _ hparts =>
      have hnone := emittedBatches_eq_nil fun s hs =>
        (parts_poll hparts s hs).imp fun _ hm => hm.1
      refine .polled List.mem_cons_self rfl ((emittedBatches_append _ _).trans ?_)
        ⟨pollTS, parts, by simp, rfl, ⟨[_, _], _, rfl⟩, hparts.imp fun _ _ hrow => hrow.eq⟩
      rw [hnone]
      rfl

end Modbus

namespace Opcua

variable [GoOpcua]

omit [GoText] in
/-- All batches have the columns of the module. -/
theorem poll_columns (load : LoadConfig) (nodes : List OPCUAPoint) :
    (poll load nodes).Calls fun c => ∀ b, c = ReadCall.emit b → b.columns = columns := by
  have hemit : ∀ rows n, (emitBatch rows n).Calls fun c =>
      ∀ b, c = ReadCall.emit b → b.columns = columns := by
    refine fun rows n => ⟨?_, fun _ => trivial⟩
    rintro b ⟨⟩
    rfl
  have hreport : ∀ pollTS resp, (report load nodes pollTS resp).Calls fun c =>
      ∀ b, c = ReadCall.emit b → b.columns = columns :=
    fun _ _ => ⟨nofun, fun _ => hemit _ _⟩
  refine ⟨nofun, fun pollTS => ?_⟩
  dsimp only [Prog.ret_bind]
  split_ifs
  · exact hreport _ _
  · refine ⟨nofun, fun res => ?_⟩
    cases res with
    | error e => exact ⟨nofun, fun _ => hemit _ _⟩
    | ok results => exact hreport _ _

/-- The rows of one poll: each node with its own result, or bad if it has none. -/
def PolledRows (tr : List (Step (readSig opcuaSig))) (nodes : List OPCUAPoint) (rows : List Row) :
    Prop :=
  ∃ pollTS, ⟨.driver .now, pollTS⟩ ∈ tr ∧
    List.Forall₂ (Reported pollTS) (answered nodes (resultsOf tr)) rows

/-- The OPC UA module. -/
def points (catalogue : Bool) : PointModule opcuaSig where
  Point := OPCUAPoint
  kind := "opcua"
  read := Opcua.read catalogue
  ask := .listOPCUANodes
  given a := Except.toOption (ε := Err) a
  columns := columns
  Rows := PolledRows
  pointBased := .inr rfl
  reports := SourceKind.reports (.opcua catalogue)
  polls := by
    intro cfg tr result err h
    cases read_path h with
    | unlisted _ hhanded =>
      have hrows := rows_emittedBatches tr
      rw [hhanded] at hrows
      exact .idle (List.map_eq_nil_iff.1 hrows) nofun
    | empty => exact .idle rfl fun _ => ⟨.ok [], List.mem_singleton_self _, rfl⟩
    | @polled nodes tr _ _ _ hpoll =>
      obtain ⟨-, pollTS, rows, hnow, hhanded, hrows⟩ := poll_path hpoll
      refine .polled List.mem_cons_self rfl ((?_ : emittedBatches tr = _))
        ⟨pollTS, List.mem_cons_of_mem _ hnow, hrows⟩
      have hbatches := rows_emittedBatches tr
      rw [hhanded] at hbatches
      obtain ⟨b, hb, hrows'⟩ := List.map_eq_singleton_iff.1 hbatches
      have hcolumns := emittedBatches_columns (hpoll.calls (poll_columns cfg nodes)) b
        (hb ▸ List.mem_singleton_self b)
      rw [hb, ← hcolumns]
      exact congrArg (fun rows => [(⟨b.columns, rows⟩ : Batch)]) hrows'

end Opcua

end

/-! ## The target -/

section

variable [GoLib] {S : Sig} {srv : SqlServer} {side : SourceSide S}

/-- What the run `x` of a load adds to its target: rows of one poll of the points that the load
    has at a moment of the run, in their order, and all of them if it succeeds. -/
def PollOf (m : PointModule S) (points : side.State → Int → List m.Point) (r : Runner S)
    (load : Load) (x : (World.machine srv side).TimedRun (Option Err)) (D : List SinkRow) : Prop :=
  (D = [] ∧ (x.result = none → ∃ v ∈ x.moments, points v.src load.id = [])) ∨
    ∃ y rows loadTS all, ReadOf r load x.log (some y) ∧
      (∃ v ∈ x.moments, m.Rows y.trace (points v.src load.id) rows) ∧
      prepareRows m.columns loadTS rows = .ok all ∧ D <+ all ∧ (x.result = none → D = all)

theorem storedRows_singleton {loadTS : Time} {b : Batch} {D : List SinkRow}
    (h : storedRows loadTS [b] = .ok D) : prepareRows b.columns loadTS b.rows = .ok D := by
  rw [storedRows] at h
  cases hrows : prepareRows b.columns loadTS b.rows with
  | error e =>
    rw [hrows] at h
    cases h
  | ok rows =>
    rw [hrows] at h
    obtain rfl := Except.ok.inj h
    exact congrArg Except.ok (List.append_nil rows).symm

variable {m : PointModule S} {points : side.State → Int → List m.Point} {r : Runner S} {load : Load}

/-- One run, from the points to the rows of the sink. -/
theorem pollOf_run (hpoints : ∀ {src id o now s ps},
      m.given (side.answer src (m.ask id) o now s).1 = some ps → ps = points s id)
    (hsink : r.sink = Mssql.sink) (hread : r.read = m.read)
    {x : (World.machine srv side).TimedRun (Option Err)} {bs : List Batch} {loadTS : Time}
    {D : List SinkRow} (h : Machine.Ran (r.execute load) x)
    (hdel : (sinkView x.after).delivered = (sinkView x.before).delivered ++ bs)
    (hsub : D <+ bs.flatMap (preparedRows loadTS))
    (hall : x.result = none → storedRows loadTS bs = .ok D) :
    PollOf m points r load x D := by
  have hk : r.sink.OnDb := hsink ▸ Mssql.sink_onDb
  have hc : r.sink.Counts := hsink ▸ Mssql.sink_counts
  obtain ⟨current, read, hreadOf, hshows, hdel', hfailed⟩ := execute_reads hk hc h.runs
  obtain rfl : bs = read.elim [] ReadRun.batches :=
    List.append_cancel_left (hdel.symm.trans hdel')
  cases read with
  | none =>
    obtain ⟨herr, -⟩ := hfailed nofun
    exact .inl ⟨List.sublist_nil.1 hsub, fun hnone => absurd hnone herr⟩
  | some y =>
    have hmoment : ∀ {a ps}, ⟨.driver (m.ask load.id), a⟩ ∈ y.trace → m.given a = some ps →
        ∃ v ∈ x.moments, ps = points v.src load.id := by
      intro a ps hmem hgiven
      obtain ⟨v, hv, src, o, hanswer⟩ := hshows.moment h hmem
      rw [← hanswer] at hgiven
      exact ⟨v, hv, hpoints hgiven⟩
    have hid : (Runner.loadConfig (Runner.pointBased load) current).loadID = load.id :=
      Runner.id_pointBased load
    cases hshows with
    | read hpath =>
      rw [hread] at hpath
      have hpolls := m.polls hpath
      rw [hid] at hpolls
      rw [Option.elim_some, ReadRun.batches] at hsub hall
      cases hpolls with
      | idle hnone hempty =>
        rw [hnone] at hsub
        refine .inl ⟨List.sublist_nil.1 hsub, fun hok => ?_⟩
        have herr : y.err = none := by
          by_contra hne
          exact (hfailed fun _ heq => Option.some.inj heq ▸ hne).1 hok
        obtain ⟨a, hmem, hgiven⟩ := hempty herr
        obtain ⟨v, hv, hps⟩ := hmoment hmem hgiven
        exact ⟨v, hv, hps.symm⟩
      | @polled a ps rows hmem hgiven hbatch hrows =>
        obtain ⟨v, hv, rfl⟩ := hmoment hmem hgiven
        rw [hbatch, List.flatMap_singleton] at hsub
        rw [hbatch] at hall
        cases hprep : prepareRows m.columns loadTS rows with
        | error e =>
          -- the sink refuses the batch
          rw [preparedRows, hprep] at hsub
          refine .inl ⟨List.sublist_nil.1 hsub, fun hnone => ?_⟩
          have hok := storedRows_singleton (hall hnone)
          rw [hprep] at hok
          cases hok
        | ok all =>
          rw [preparedRows_of_ok hprep] at hsub
          refine .inr ⟨y, rows, loadTS, all, hreadOf, ⟨v, hv, hrows⟩, hprep, hsub, fun hnone => ?_⟩
          exact Except.ok.inj ((storedRows_singleton (hall hnone)).symm.trans hprep)

/-- The target of a load of points is its old content and one poll for each run. -/
theorem table_is_polls (hpoints : ∀ {src id o now s ps},
      m.given (side.answer src (m.ask id) o now s).1 = some ps → ps = points s id)
    (hsink : r.sink = Mssql.sink) (hread : r.read = m.read) (hkind : load.source.kind = m.kind)
    {w w' : World side} {hs : List ((World.machine srv side).HEvent Unit)}
    {rs : List ((World.machine srv side).TimedRun (Option Err))}
    (h : (World.machine srv side).timeline (fun _ => r.execute load) hs w = some (rs, w')) :
    ∃ polls, List.Forall₂ (PollOf m points r load) rs polls ∧
      (sinkView w').content load.target = (sinkView w).content load.target ++ polls.flatten ∧
      ∀ u ≠ load.target, w'.db.tables u = w.db.tables u := by
  have hmode : (Runner.pointBased load).mode = loadModeAppend := by
    rw [Runner.pointBased, if_pos (hkind ▸ m.pointBased)]
  let l : AppendLoad S load.target :=
    { runner := r, load, sink := hsink, mode := by rw [hmode]; decide, target := rfl
      reports := fun cfg => hread ▸ m.reports cfg }
  exact append_history (l := l) (pollOf_run hpoints hsink hread) h

end

/-! ## Modbus -/

section

variable [GoLib] [GoText] [GoFloat] {srv : SqlServer} {catalogue : Bool}

omit [GoLib] [GoText] [GoFloat] in
/-- The list of tags is that of the line. -/
theorem ModbusPlant.eq_tags {src : ℕ} {id : Int} {o : Outcome} {now : Time} {s : ModbusPlant}
    {tags : List ModbusPoint} (h : Except.toOption (ε := Err) (α := List ModbusPoint)
      (ModbusPlant.answer src (.listModbusTags id) o now s).1 = some tags) : tags = s.line.tags id := by
  unfold ModbusPlant.answer at h
  split at h
  · cases o with
    | ok => exact (Option.some.inj h).symm
    | fail msg n => cases h
  · cases o with
    | ok => exact (Option.some.inj h).symm
    | fail msg n => cases h

/-- Whatever its mode is, a Modbus load only ever adds to its target: for every run the rows of
    one poll of the tags that it has at that time, all of them if the run succeeds. -/
theorem modbus_table_is_polls {r : Runner modbusSig} {load : Load} (hsink : r.sink = Mssql.sink)
    (hread : r.read = Modbus.read catalogue) (hkind : load.source.kind = "modbus")
    {w w' : World modbusSide} {hs : List ((World.machine srv modbusSide).HEvent Unit)}
    {rs : List ((World.machine srv modbusSide).TimedRun (Option Err))}
    (h : (World.machine srv modbusSide).timeline (fun _ => r.execute load) hs w = some (rs, w')) :
    ∃ polls, List.Forall₂ (PollOf (Modbus.points catalogue)
        (fun s : ModbusPlant => s.line.tags) r load) rs polls ∧
      (sinkView w').content load.target = (sinkView w).content load.target ++ polls.flatten ∧
      ∀ u ≠ load.target, w'.db.tables u = w.db.tables u := by
  refine table_is_polls ?_ hsink hread hkind h
  exact fun hgiven => ModbusPlant.eq_tags hgiven

end

section

attribute [local instance] GoLib.ascii GoText.ascii GoFloat.finite

/-- The load of the coil in replace mode. -/
def pumpReplace : Load := { pumpLoad with mode := loadModeReplace }

/-- The list of tags cannot be read in the first run. -/
def pumpPolls : Option (List (pumpMachine.TimedRun (Option Err)) × World modbusSide) :=
  pumpMachine.timeline (fun _ => pumpRunner.execute pumpReplace)
    [.run () (List.replicate 5 (.answer .ok) ++ .answer (.fail "lost" 0) ::
        List.replicate 5 (.answer .ok)),
      .run () (List.replicate 20 (.answer .ok))]
    pumpWorld

theorem pumpPolls_in_table :
    ∃ rs w' polls, pumpPolls = some (rs, w') ∧
      rs.map (·.result) = [some "load tags: lost", none] ∧
      List.Forall₂ (PollOf (Modbus.points true)
        (fun s : ModbusPlant => s.line.tags) pumpRunner pumpReplace) rs polls ∧
      polls.flatten.length = 1 := by
  have heval : pumpPolls.map (fun p => (p.1.map (·.result),
      ((sinkView p.2).content ⟨"dbo", "pumps"⟩).length)) =
      some ([some "load tags: lost", none], 1) := by decide +kernel
  obtain ⟨⟨rs, w'⟩, hrun, hrs⟩ := Option.map_eq_some_iff.1 heval
  obtain ⟨hrs, hlength⟩ := Prod.mk.inj hrs
  have hread : pumpRunner.read = Modbus.read true := rfl
  obtain ⟨polls, hpolls, hcontent, -⟩ := modbus_table_is_polls rfl hread rfl hrun
  refine ⟨rs, w', polls, hrun, hrs, hpolls, ?_⟩
  rw [← hlength]
  exact congrArg List.length hcontent.symm

end

/-! ## OPC UA -/

section

variable [GoLib] [GoText] [GoFloat] [GoOpcua] {srv : SqlServer} {catalogue : Bool}
  {side : SourceSide opcuaSig} {nodes : side.State → Int → List OPCUAPoint}

/-- The same for an OPC UA load, where `nodes` are the nodes of a load in the catalogue. -/
theorem opcua_table_is_polls
    (hnodes : ∀ {src id o now s ns}, (side.answer src (.listOPCUANodes id) o now s).1 =
      (.ok ns : Except Err (List OPCUAPoint)) → ns = nodes s id)
    {r : Runner opcuaSig} {load : Load} (hsink : r.sink = Mssql.sink)
    (hread : r.read = Opcua.read catalogue) (hkind : load.source.kind = "opcua")
    {w w' : World side} {hs : List ((World.machine srv side).HEvent Unit)}
    {rs : List ((World.machine srv side).TimedRun (Option Err))}
    (h : (World.machine srv side).timeline (fun _ => r.execute load) hs w = some (rs, w')) :
    ∃ polls, List.Forall₂ (PollOf (Opcua.points catalogue) nodes r load) rs polls ∧
      (sinkView w').content load.target = (sinkView w).content load.target ++ polls.flatten ∧
      ∀ u ≠ load.target, w'.db.tables u = w.db.tables u := by
  refine table_is_polls (m := Opcua.points catalogue) ?_ hsink hread hkind h
  intro src id o now s ns hgiven
  change Except.toOption (ε := Err) (α := List OPCUAPoint)
    (side.answer src (.listOPCUANodes id) o now s).1 = some ns at hgiven
  cases hanswer : (side.answer src (.listOPCUANodes id) o now s).1 with
  | error e =>
    rw [hanswer] at hgiven
    cases hgiven
  | ok ns' =>
    rw [hanswer] at hgiven
    obtain rfl := Option.some.inj hgiven
    exact hnodes hanswer

end

section

attribute [local instance] GoLib.ascii GoText.ascii GoFloat.finite GoOpcua.plain

/-- A catalogue that nodes are added to, and a server that has one value for all of them. -/
def sensorSide : SourceSide opcuaSig where
  State := List OPCUAPoint
  Change := OPCUAPoint
  change n nodes := some (nodes ++ [n])
  obtain _ o _ s := (match o with | .ok => .ok 0 | .fail msg _ => .error msg, s)
  release _ _ _ s := s
  answer _ c o now s :=
    (match c with
      | .listOPCUANodes _ => match o with | .ok => .ok s | .fail msg _ => .error msg
      | .now => now
      | .read ids => match o with
        | .ok => .ok (ids.map fun _ => ⟨Opcua.statusOK, some (.int 3), none, none⟩)
        | .fail msg _ => .error msg
      | .observeBadQuality .. => (), s)

/-- A load of one node. -/
def sensorRunner : Runner opcuaSig :=
  { resolveParams := fun _ => .ok [], sink := Mssql.sink, read := Opcua.read true }

def sensorTable : Load :=
  { pumpReplace with source := ⟨1, "plc", "opcua", "", true⟩ }

def sensorWorld : World sensorSide :=
  { src := [⟨"level", "ns=2;s=level", Opcua.two, Opcua.one⟩], db := ⟨fun _ => none, none⟩
    store := ⟨fun _ => none, [], 1⟩, registry := ∅, metrics := [], clock := 0, cancelled := false }

abbrev sensorMachine : Machine (sysSig opcuaSig) (World sensorSide) :=
  World.machine ⟨"wh", "dbo"⟩ sensorSide

/-- A node whose id does not parse is added between two runs. -/
def sensorPolls : Option (List (sensorMachine.TimedRun (Option Err)) × World sensorSide) :=
  sensorMachine.timeline (fun _ => sensorRunner.execute sensorTable)
    [.run () (List.replicate 18 (.answer .ok)),
      .env (.change ⟨"flow", "ns=x;bogus", Opcua.one, 0⟩),
      .run () (List.replicate 17 (.answer .ok))]
    sensorWorld

theorem sensorPolls_in_table :
    ∃ rs w' polls, sensorPolls = some (rs, w') ∧ rs.map (·.result) = [none, none] ∧
      List.Forall₂ (PollOf (Opcua.points true)
        (fun (s : List OPCUAPoint) _ => s) sensorRunner sensorTable) rs polls ∧
      polls.flatten.length = 3 := by
  have heval : sensorPolls.map (fun p => (p.1.map (·.result),
      ((sinkView p.2).content ⟨"dbo", "pumps"⟩).length)) = some ([none, none], 3) := by
    decide +kernel
  obtain ⟨⟨rs, w'⟩, hrun, hrs⟩ := Option.map_eq_some_iff.1 heval
  obtain ⟨hrs, hlength⟩ := Prod.mk.inj hrs
  have hread : sensorRunner.read = Opcua.read true := rfl
  have hnodes : ∀ {src id o now} {s : sensorSide.State} {ns : List OPCUAPoint},
      (sensorSide.answer src (.listOPCUANodes id) o now s).1 = Except.ok (ε := Err) ns → ns = s := by
    intro src id o now s ns hanswer
    cases o with
    | ok => exact (Except.ok.inj hanswer).symm
    | fail msg n => cases hanswer
  obtain ⟨polls, hpolls, hcontent, -⟩ := opcua_table_is_polls hnodes rfl hread rfl hrun
  refine ⟨rs, w', polls, hrun, hrs, hpolls, ?_⟩
  rw [← hlength]
  exact congrArg List.length hcontent.symm

end

end DataLoader
