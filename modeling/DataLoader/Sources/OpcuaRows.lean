import DataLoader.Sources.Handed
import DataLoader.Sources.OpcuaQuality

/-!
# Nodes and rows of an OPC UA poll

The loop of `Read` walks all nodes and the results of the request together, and the
request leaves out the nodes whose id does not parse. `requestIndex` is the place of a
node in the request.

* `getElem?_answered`: each node is answered by the result at its place in the request.
* `rows_aligned`: on every path, one row for each node, in order and with its own result.
-/

namespace DataLoader.Opcua

open Effects

/-- The results of the request on a path; none if it was not made or has failed. -/
def resultsOf (tr : List (Step (readSig opcuaSig))) : List DataValue :=
  tr.flatMap fun
    | ⟨.driver (.read _), (.ok results : Except Err (List DataValue))⟩ => results
    | _ => []

section

variable [GoLib] [GoFloat] [GoOpcua]

/-- The number of nodes before the `i`-th whose id parses. -/
def requestIndex (nodes : List OPCUAPoint) (i : ℕ) : ℕ :=
  (nodes.take i).countP fun n => GoOpcua.parsesNodeID n.nodeID

/-- What the row of the `i`-th node carries. -/
structure Aligned (nodes : List OPCUAPoint) (results : List DataValue) (i : ℕ) (n : OPCUAPoint)
    (row : Row) : Prop where
  tag : row.get "tag_name" = .ofString n.tagName
  node : row.get "node_id" = .ofString n.nodeID
  taken : ∀ dv, GoOpcua.parsesNodeID n.nodeID = true →
    results[requestIndex nodes i]? = some dv → ∃ ts, row = nodeRow n ts (dataCells n dv)
  shown : ∀ dv v, GoOpcua.parsesNodeID n.nodeID = true →
    results[requestIndex nodes i]? = some dv → dv.status = statusOK → dv.value = some v →
    Shows row n v
  bad : GoOpcua.parsesNodeID n.nodeID = false ∨ results[requestIndex nodes i]? = none →
    row.get "quality" = .ofString "bad" ∧ row.get "value_num" = .null ∧
      row.get "value_bool" = .null

omit [GoLib] [GoFloat] in
/-- A node is answered by the result at its place in the request. -/
theorem getElem?_answered (nodes : List OPCUAPoint) (results : List DataValue) (i : ℕ) :
    (answered nodes results)[i]? = nodes[i]?.map fun n =>
      (n, if GoOpcua.parsesNodeID n.nodeID = true then results[requestIndex nodes i]? else none) := by
  induction nodes generalizing results i with
  | nil => simp [answered]
  | cons n nodes ih =>
    unfold answered
    split_ifs with hid
    · cases i with
      | zero => simp [hid]
      | succ i => simp [ih, requestIndex, hid]
    · have hid : GoOpcua.parsesNodeID n.nodeID = true := by simpa using hid
      cases i with
      | zero => simp [requestIndex, hid, List.head?_eq_getElem?]
      | succ i => simp [ih, requestIndex, hid]

omit [GoLib] [GoFloat] in
theorem answered_nil (nodes : List OPCUAPoint) :
    answered nodes [] = nodes.map fun n => (n, none) := by
  induction nodes with
  | nil => rfl
  | cons n nodes ih => simp [answered, ih]

omit [GoLib] [GoFloat] in
theorem length_answered (nodes : List OPCUAPoint) (results : List DataValue) :
    (answered nodes results).length = nodes.length := by
  induction nodes generalizing results with
  | nil => rfl
  | cons n nodes ih =>
    unfold answered
    split_ifs <;> simp [ih]

theorem Reported.aligned {pollTS : Time} {nodes : List OPCUAPoint} {results : List DataValue}
    {i : ℕ} {n : OPCUAPoint} {row : Row}
    (h : Reported pollTS (n, if GoOpcua.parsesNodeID n.nodeID = true then
      results[requestIndex nodes i]? else none) row) : Aligned nodes results i n row := by
  rcases h with ⟨hnone, msg, rfl⟩ | ⟨dv, hsome, rfl⟩
  · -- the node has no result
    have habsent : ∀ dv, GoOpcua.parsesNodeID n.nodeID = true →
        results[requestIndex nodes i]? ≠ some dv := by
      intro dv hid hdv
      simp [hid, hdv] at hnone
    refine ⟨rfl, rfl, ?_, ?_, fun _ => ⟨rfl, rfl, rfl⟩⟩
    · exact fun dv hid hdv => absurd hdv (habsent dv hid)
    · exact fun dv v hid hdv => absurd hdv (habsent dv hid)
  · obtain ⟨hid, hdv⟩ : GoOpcua.parsesNodeID n.nodeID = true ∧
        results[requestIndex nodes i]? = some dv := by
      simpa using hsome
    refine ⟨rfl, rfl, ?_, ?_, ?_⟩
    · intro dv' _ hdv'
      obtain rfl := Option.some.inj (hdv.symm.trans hdv')
      exact ⟨_, rfl⟩
    · intro dv' v _ hdv' hstatus hv
      obtain rfl := Option.some.inj (hdv.symm.trans hdv')
      have hcells : dataCells n dv = assignValue { quality := "good" } v n.scale n.offset := by
        rw [dataCells, if_neg (not_not.2 hstatus), hv, hstatus]
        rfl
      unfold Shows
      rw [← hcells]
      exact ⟨rfl, rfl, rfl⟩
    · rintro (hbad | hbad)
      · simp [hbad] at hid
      · simp [hbad] at hdv

variable {load : LoadConfig} {nodes : List OPCUAPoint} {tr : List (Step (readSig opcuaSig))}
  {result : ReadResult} {err : Option Err}

/-- One batch with the rows of the nodes, for the results of the request. -/
structure Polled (nodes : List OPCUAPoint) (results : List DataValue)
    (tr : List (Step (readSig opcuaSig))) (result : ReadResult) (err : Option Err) : Prop where
  count : result.rowsRead = nodes.length
  rows : ∃ pollTS rows, ⟨.driver .now, pollTS⟩ ∈ tr ∧ handedRows tr = [(rows, err)] ∧
    List.Forall₂ (Reported pollTS) (answered nodes results) rows

omit [GoLib] [GoFloat] [GoOpcua] in
theorem emitBatch_path {rows : List Row} {n : Int} (h : (emitBatch rows n).Path tr (result, err)) :
    tr = [⟨.emit ⟨columns, rows⟩, err⟩] ∧ result.rowsRead = n := by
  obtain ⟨e, tr', rfl, hret⟩ := Prog.Path.of_perform h
  obtain ⟨rfl, rfl, rfl⟩ := Prog.Path.of_ret_pair hret
  exact ⟨rfl, rfl⟩

theorem report_path {pollTS : Time} {resp : Option (List DataValue)}
    (h : (report load nodes pollTS resp).Path tr (result, err)) :
    resultsOf tr = [] ∧ result.rowsRead = nodes.length ∧ ∃ rows, handedRows tr = [(rows, err)] ∧
      List.Forall₂ (Reported pollTS) (answered nodes (resp.getD [])) rows := by
  obtain ⟨rows, hwalk, hrows⟩ := walk_reports pollTS resp nodes 0 [] 0
  unfold report at h
  rw [hwalk] at h
  obtain ⟨u, tr', rfl, hemit⟩ := Prog.Path.of_perform h
  obtain ⟨rfl, hcount⟩ := emitBatch_path hemit
  rw [List.drop_zero] at hrows
  exact ⟨rfl, by simpa using hcount, rows, rfl, hrows⟩

theorem poll_path (h : (poll load nodes).Path tr (result, err)) :
    Polled nodes (resultsOf tr) tr result err := by
  unfold poll at h
  obtain ⟨pollTS, tr₁, rfl, h₁⟩ := Prog.Path.of_perform h
  split_ifs at h₁
  · obtain ⟨hnone, hcount, rows, hhanded, hrows⟩ := report_path h₁
    have hresults : resultsOf (⟨.driver .now, pollTS⟩ :: tr₁) = resultsOf tr₁ := rfl
    rw [hresults, hnone]
    exact ⟨hcount, pollTS, rows, List.mem_cons_self, hhanded, hrows⟩
  · obtain ⟨res, tr₂, rfl, h₂⟩ := Prog.Path.of_perform h₁
    cases res with
    | error e =>
      obtain ⟨u, tr₃, rfl, h₃⟩ := Prog.Path.of_perform h₂
      obtain ⟨rfl, hcount⟩ := emitBatch_path h₃
      have hrows := forall_badRow pollTS e nodes
      rw [← answered_nil nodes] at hrows
      exact ⟨by simpa using hcount, pollTS, _, List.mem_cons_self, rfl, hrows⟩
    | ok results =>
      obtain ⟨hnone, hcount, rows, hhanded, hrows⟩ := report_path h₂
      have hresults : resultsOf (⟨.driver .now, pollTS⟩ ::
          ⟨.driver (.read ((nodes.map (·.nodeID)).filter GoOpcua.parsesNodeID)), .ok results⟩ :: tr₂) =
          results ++ resultsOf tr₂ := rfl
      rw [hresults, hnone, List.append_nil]
      exact ⟨hcount, pollTS, rows, List.mem_cons_self, hhanded, hrows⟩

/-- The calls of a poll, which does not ask for the list of nodes again. -/
def Polls (c : ReadCall opcuaSig) : Prop := ∀ id, c ≠ .driver (.listOPCUANodes id)

theorem poll_polls (load : LoadConfig) (nodes : List OPCUAPoint) :
    (poll load nodes).Calls Polls := by
  have hemit : ∀ rows n, (emitBatch rows n).Calls Polls := fun rows n => ⟨nofun, fun _ => trivial⟩
  have hreport : ∀ pollTS resp, (report load nodes pollTS resp).Calls Polls :=
    fun _ _ => ⟨nofun, fun _ => hemit _ _⟩
  refine ⟨nofun, fun pollTS => ?_⟩
  dsimp only [Prog.ret_bind]
  split_ifs
  · exact hreport _ _
  · refine ⟨nofun, fun res => ?_⟩
    cases res with
    | error e => exact ⟨nofun, fun _ => hemit _ _⟩
    | ok results => exact hreport _ _

/-- `Read` fails before it has a list of nodes, has nothing to do, or polls. -/
inductive Reads (load : LoadConfig) :
    List (Step (readSig opcuaSig)) → ReadResult → Option Err → Prop
  | unlisted {tr : List (Step (readSig opcuaSig))} {e : Err}
      (hnodes : ∀ nodes, ⟨.driver (.listOPCUANodes load.loadID), .ok nodes⟩ ∉ tr)
      (hhanded : handedRows tr = []) : Reads load tr {} (some e)
  | empty : Reads load [⟨.driver (.listOPCUANodes load.loadID), .ok []⟩] {} none
  | polled {nodes : List OPCUAPoint} {tr : List (Step (readSig opcuaSig))} {result : ReadResult}
      {err : Option Err} (hne : nodes ≠ []) (hpoll : (poll load nodes).Path tr (result, err)) :
      Reads load (⟨.driver (.listOPCUANodes load.loadID), .ok nodes⟩ :: tr) result err

theorem read_path {catalogue : Bool} (h : (read catalogue load).Path tr (result, err)) :
    Reads load tr result err := by
  unfold read at h
  split_ifs at h
  · obtain ⟨rfl, rfl, rfl⟩ := Prog.Path.of_ret_pair h
    exact .unlisted (by simp) rfl
  · obtain ⟨res, tr', rfl, hrest⟩ := Prog.Path.of_perform h
    cases res with
    | error e =>
      obtain ⟨rfl, rfl, rfl⟩ := Prog.Path.of_ret_pair hrest
      refine .unlisted (fun nodes hmem => ?_) rfl
      cases List.mem_singleton.1 hmem
    | ok nodes =>
      cases nodes with
      | nil =>
        obtain ⟨rfl, rfl, rfl⟩ := Prog.Path.of_ret_pair hrest
        exact .empty
      | cons n nodes => exact .polled (by simp) hrest

/-- Every poll hands over one batch with one row for each node in order. The row has the
    node's names and the result at its place in the request, or is bad if there is none.
    Without nodes nothing is handed over. -/
theorem rows_aligned {catalogue : Bool} (h : (read catalogue load).Path tr (result, err))
    (hnodes : ⟨.driver (.listOPCUANodes load.loadID), .ok nodes⟩ ∈ tr) :
    result.rowsRead = nodes.length ∧ (nodes = [] → handedRows tr = []) ∧
      (nodes ≠ [] → ∃ rows, handedRows tr = [(rows, err)] ∧ rows.length = nodes.length ∧
        ∀ i n row, nodes[i]? = some n → rows[i]? = some row →
          Aligned nodes (resultsOf tr) i n row) := by
  cases read_path h with
  | unlisted hnone => exact absurd hnodes (hnone nodes)
  | empty =>
    cases List.mem_singleton.1 hnodes
    exact ⟨rfl, fun _ => rfl, fun hne => absurd rfl hne⟩
  | @polled nodes' tr' _ _ hne hpoll =>
    obtain rfl : nodes = nodes' := by
      rcases List.mem_cons.1 hnodes with heq | hmem
      · cases heq
        rfl
      · exact absurd rfl (hpoll.calls (poll_polls load nodes') _ hmem load.loadID)
    obtain ⟨hcount, pollTS, rows, -, hhanded, hrows⟩ := poll_path hpoll
    have hlength := length_answered nodes (resultsOf tr')
    refine ⟨hcount, fun hnil => absurd hnil hne, fun _ => ⟨rows, hhanded, ?_, ?_⟩⟩
    · rw [← hrows.length_eq, hlength]
    · intro i n row hn hrow
      have hanswered := getElem?_answered nodes (resultsOf tr') i
      rw [hn, Option.map_some] at hanswered
      obtain ⟨hi, hx⟩ := List.getElem?_eq_some_iff.1 hanswered
      obtain ⟨hi', rfl⟩ := List.getElem?_eq_some_iff.1 hrow
      have hreported := hrows.get hi hi'
      simp only [List.get_eq_getElem, hx] at hreported
      exact hreported.aligned

end

section

attribute [local instance] GoLib.ascii GoFloat.finite GoOpcua.plain

/-- A load of an OPC UA source. -/
def sensorLoad : LoadConfig :=
  { loadID := 1, name := "sensors", objectName := "", mode := loadModeAppend, watermarkColumn := ""
    watermarkType := watermarkNone, lastWatermark := ⟨watermarkNone, ""⟩, batchSize := 0 }

/-- A server that answers with the given results, and a handler that accepts the batch. -/
def sensors (nodes : List OPCUAPoint) (results : List DataValue)
    (_ : List (Step (readSig opcuaSig))) : (c : ReadCall opcuaSig) → c.Ans
  | .driver (.listOPCUANodes _) => .ok nodes
  | .driver .now => (0 : Int)
  | .driver (.read _) => .ok results
  | .driver (.observeBadQuality ..) => ()
  | .emit _ => none

/-- The numbers 1, 2 and 7 as `float64`. -/
def one : UInt64 := 0x3ff0000000000000
def two : UInt64 := 0x4000000000000000
def seven : UInt64 := 0x401c000000000000

/-- A node whose id does not parse, and one whose values are doubled and increased by 1. -/
def flowAndLevel : List OPCUAPoint :=
  [⟨"flow", "ns=x;bogus", one, 0⟩, ⟨"level", "ns=2;s=level", two, one⟩]

/-- The only result is that of the second node. -/
theorem second_sensor_aligned :
    ∃ tr result rows, (read true sensorLoad).Path tr (result, none) ∧
      handedRows tr = [(rows, none)] ∧ rows.length = 2 ∧
      ∀ row, rows[1]? = some row →
        Shows row ⟨"level", "ns=2;s=level", two, one⟩ (.int 3) ∧
          row.get "value_num" = .float64 seven := by
  have hpath := (read true sensorLoad).path_against (sensors flowAndLevel
    [⟨statusOK, some (.int 3), none, none⟩]) []
  obtain ⟨-, -, hrows⟩ := rows_aligned hpath (List.mem_cons_self ..)
  obtain ⟨rows, hhanded, hlength, haligned⟩ := hrows (show flowAndLevel ≠ [] by decide)
  refine ⟨_, _, rows, hpath, hhanded, hlength, fun row hrow => ?_⟩
  have hshown := (haligned 1 ⟨"level", "ns=2;s=level", two, one⟩ row rfl hrow).shown
    ⟨statusOK, some (.int 3), none, none⟩ (.int 3) (by decide +kernel) (by decide +kernel) rfl rfl
  have hseven : GoFloat.mulAdd (GoFloat.ofInt 3) two one = seven := by decide +kernel
  refine ⟨hshown, hshown.1.trans ?_⟩
  exact congrArg Value.float64 hseven

/-- A load without nodes hands over no batch. -/
theorem no_nodes_no_batch :
    ∃ tr result, (read true sensorLoad).Path tr (result, none) ∧
      ⟨.driver (.listOPCUANodes 1), .ok []⟩ ∈ tr ∧ handedRows tr = [] :=
  ⟨_, _, (read true sensorLoad).path_against (sensors [] []) [], List.mem_cons_self .., rfl⟩

end

end DataLoader.Opcua
