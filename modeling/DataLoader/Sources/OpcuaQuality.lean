import DataLoader.Sources.Opcua

/-!
# The quality of OPC UA rows

The severity of a status code is in its two highest bits. `Answers.emitted` is what
`Read` hands over when its calls are answered as given, `Answers.answered` pairs
each node with the data value that answers it, and `RowSound` is what the quality
of a row should say.

* `emitted_reports`: the rows of a batch, one for each node in order.
* `quality_sound_iff`: the rows are sound exactly when the status codes are the
  three base codes, up to a text value that is the text of its own status code.
-/

namespace DataLoader.Opcua

open Effects

/-- The severity of a status code. -/
inductive Severity
  | good
  | uncertain
  | bad
  | reserved
  deriving DecidableEq, Repr

def severity (s : UInt32) : Severity :=
  if s >>> 30 = 0 then .good
  else if s >>> 30 = 1 then .uncertain
  else if s >>> 30 = 2 then .bad
  else .reserved

/-- The codes that `qualityFromStatus` knows. -/
def baseCodes : List UInt32 := [statusOK, statusUncertain, statusBad]

/-- How the calls of one `Read` are answered; each is made at most once. -/
structure Answers where
  nodes : Except Err (List OPCUAPoint)
  pollTS : Time
  results : Except Err (List DataValue)
  handler : Option Err

section

variable [GoLib] [GoFloat] [GoOpcua]

/-- Each node with the data value that answers it. Nodes whose id does not parse
    are not requested. -/
def answered : List OPCUAPoint → List DataValue → List (OPCUAPoint × Option DataValue)
  | [], _ => []
  | n :: nodes, results =>
    if GoOpcua.parsesNodeID n.nodeID = false then (n, none) :: answered nodes results
    else (n, results.head?) :: answered nodes results.tail

namespace Answers

/-- The batches handed over so far are the state. -/
def answer (a : Answers) : (c : ReadCall opcuaSig) → List Batch → Option (c.Ans × List Batch)
  | .driver (.listOPCUANodes _), bs => some (a.nodes, bs)
  | .driver .now, bs => some (a.pollTS, bs)
  | .driver (.read _), bs => some (a.results, bs)
  | .driver (.observeBadQuality ..), bs => some ((), bs)
  | .emit b, bs => some (a.handler, bs ++ [b])

/-- The batches that `Read` hands over. -/
def emitted (a : Answers) (load : LoadConfig) : List Batch :=
  (((read true load).eval a.answer []).map (·.2)).getD []

/-- Each node of the load with the data value that answers it. -/
def answered (a : Answers) : List (OPCUAPoint × Option DataValue) :=
  match a.nodes, a.results with
  | .ok nodes, .ok results => Opcua.answered nodes results
  | .ok nodes, .error _ => nodes.map fun n => (n, none)
  | .error _, _ => []

end Answers

/-- The row shows the value `v` of node `n`. -/
def Shows (row : Row) (n : OPCUAPoint) (v : OpcuaValue) : Prop :=
  let c := assignValue { quality := "good" } v n.scale n.offset
  row.get "value_num" = c.num ∧ row.get "value_bool" = c.bool ∧ row.get "value_text" = c.text

/-- What the quality of a row should say of the node and its data value. -/
structure RowSound (x : OPCUAPoint × Option DataValue) (row : Row) : Prop where
  bad : ∀ dv, x.2 = some dv → severity dv.status = .bad → row.get "quality" = .ofString "bad"
  uncertain : ∀ dv, x.2 = some dv → severity dv.status = .uncertain →
    row.get "quality" = .ofString "uncertain"
  good : row.get "quality" = .ofString "good" → ∃ dv v, x.2 = some dv ∧
    severity dv.status = .good ∧ dv.value = some v ∧ v ≠ .null ∧ Shows row x.1 v

/-- A base code, or a good code whose text is also the value that was read. -/
def Classified (n : OPCUAPoint) (dv : DataValue) : Prop :=
  dv.status ∈ baseCodes ∨ severity dv.status = .good ∧ ∃ v, dv.value = some v ∧
    assignValue { quality := "good" } v n.scale n.offset =
      { text := .ofString (GoOpcua.statusText dv.status), quality := "good" }

/-! ## One row -/

omit [GoLib] [GoFloat] [GoOpcua] in
@[simp] theorem get_nodeRow (n : OPCUAPoint) (ts : Time) (c : Cells) :
    (nodeRow n ts c).get "quality" = .ofString c.quality ∧
      (nodeRow n ts c).get "value_num" = c.num ∧ (nodeRow n ts c).get "value_bool" = c.bool ∧
      (nodeRow n ts c).get "value_text" = c.text := by
  refine ⟨?_, ?_, ?_, ?_⟩ <;> rfl

omit [GoOpcua] in
/-- Only the null value changes the quality. -/
theorem quality_assignValue (c : Cells) {v : OpcuaValue} (hv : v ≠ .null) (scale offset : UInt64) :
    (assignValue c v scale offset).quality = c.quality := by
  cases v with
  | null => exact absurd rfl hv
  | _ => rfl

omit [GoOpcua] in
theorem ne_null_of_quality {v : OpcuaValue} {scale offset : UInt64}
    (h : (assignValue { quality := "good" } v scale offset).quality = "good") : v ≠ .null := by
  rintro rfl
  have hbad : "bad" = "good" := h
  exact absurd hbad (by decide)

omit [GoLib] [GoFloat] [GoOpcua] in
theorem bad_ne_good : Value.ofString "bad" ≠ Value.ofString "good" := by decide

omit [GoLib] [GoFloat] [GoOpcua] in
theorem uncertain_ne_good : Value.ofString "uncertain" ≠ Value.ofString "good" := by decide

omit [GoOpcua] in
/-- A node without a data value has a bad row. -/
theorem rowSound_badRow (n : OPCUAPoint) (ts : Time) (msg : String) :
    RowSound (n, none) (badRow n ts msg) where
  bad := nofun
  uncertain := nofun
  good h := absurd ((get_nodeRow ..).1.symm.trans h) bad_ne_good

omit [GoOpcua] in
/-- `RowSound` for a node with a data value. -/
theorem rowSound_some {n : OPCUAPoint} {dv : DataValue} {row : Row} :
    RowSound (n, some dv) row ↔
      (severity dv.status = .bad → row.get "quality" = .ofString "bad") ∧
      (severity dv.status = .uncertain → row.get "quality" = .ofString "uncertain") ∧
      (row.get "quality" = .ofString "good" → severity dv.status = .good ∧
        ∃ v, dv.value = some v ∧ v ≠ .null ∧ Shows row n v) := by
  constructor
  · intro h
    refine ⟨h.bad dv rfl, h.uncertain dv rfl, fun hq => ?_⟩
    obtain ⟨dv', v, hdv, hsev, hv⟩ := h.good hq
    obtain rfl := Option.some.inj hdv
    exact ⟨hsev, v, hv⟩
  · rintro ⟨hbad, hunc, hgood⟩
    refine ⟨?_, ?_, fun hq => ?_⟩
    · intro dv' hdv
      exact Option.some.inj hdv ▸ hbad
    · intro dv' hdv
      exact Option.some.inj hdv ▸ hunc
    · obtain ⟨hsev, v, hv⟩ := hgood hq
      exact ⟨dv, v, rfl, hsev, hv⟩

theorem rowSound_of_ok (n : OPCUAPoint) (ts : Time) {dv : DataValue} (hs : dv.status = statusOK) :
    RowSound (n, some dv) (nodeRow n ts (dataCells n dv)) := by
  have hsev : severity dv.status = .good := by rw [hs]; decide
  obtain ⟨hquality, hnum, hbool, htext⟩ := get_nodeRow n ts (dataCells n dv)
  rw [rowSound_some, hsev]
  refine ⟨nofun, nofun, fun h => ⟨rfl, ?_⟩⟩
  cases hv : dv.value with
  | none =>
    have hcells : dataCells n dv = { text := .ofString "null value", quality := "bad" } := by
      rw [dataCells, if_neg (not_not.2 hs), hv]
    rw [hquality, hcells] at h
    exact absurd h bad_ne_good
  | some v =>
    have hcells : dataCells n dv = assignValue { quality := "good" } v n.scale n.offset := by
      rw [dataCells, if_neg (not_not.2 hs), hv, hs]
      rfl
    have hnull : v ≠ .null := by
      rintro rfl
      rw [hquality, hcells] at h
      exact absurd h bad_ne_good
    refine ⟨v, rfl, hnull, ?_⟩
    unfold Shows
    rw [← hcells]
    exact ⟨hnum, hbool, htext⟩

theorem rowSound_of_base (n : OPCUAPoint) (ts : Time) {dv : DataValue}
    (hbase : dv.status ∈ baseCodes) : RowSound (n, some dv) (nodeRow n ts (dataCells n dv)) := by
  simp only [baseCodes, List.mem_cons, List.not_mem_nil, or_false] at hbase
  rcases hbase with hs | hs | hs
  · exact rowSound_of_ok n ts hs
  · have hsev : severity dv.status = .uncertain := by rw [hs]; decide
    have hcell : (dataCells n dv).quality = "uncertain" := by
      rw [dataCells, if_pos (by rw [hs]; decide), hs]
      rfl
    have hquality := (get_nodeRow n ts (dataCells n dv)).1
    rw [hcell] at hquality
    rw [rowSound_some, hsev, hquality]
    exact ⟨nofun, fun _ => rfl, fun h => absurd h uncertain_ne_good⟩
  · have hsev : severity dv.status = .bad := by rw [hs]; decide
    have hcell : (dataCells n dv).quality = "bad" := by
      rw [dataCells, if_pos (by rw [hs]; decide), hs]
      rfl
    have hquality := (get_nodeRow n ts (dataCells n dv)).1
    rw [hcell] at hquality
    rw [rowSound_some, hsev, hquality]
    exact ⟨fun _ => rfl, nofun, fun h => absurd h bad_ne_good⟩

/-- Any other code is reported as good, with its text for a value. -/
theorem dataCells_of_not_base (n : OPCUAPoint) {dv : DataValue} (hbase : dv.status ∉ baseCodes) :
    dataCells n dv = { text := .ofString (GoOpcua.statusText dv.status), quality := "good" } := by
  simp only [baseCodes, List.mem_cons, List.not_mem_nil, or_false, not_or] at hbase
  obtain ⟨hok, hunc, hbad⟩ := hbase
  rw [dataCells, if_pos hok]
  simp only [qualityFromStatus, if_neg hok, if_neg hunc, if_neg hbad]

/-- The row of a data value is sound exactly when its code is classified. -/
theorem rowSound_iff (n : OPCUAPoint) (ts : Time) (dv : DataValue) :
    RowSound (n, some dv) (nodeRow n ts (dataCells n dv)) ↔ Classified n dv := by
  by_cases hbase : dv.status ∈ baseCodes
  · exact ⟨fun _ => .inl hbase, fun _ => rowSound_of_base n ts hbase⟩
  · obtain ⟨hquality, hnum, hbool, htext⟩ := get_nodeRow n ts (dataCells n dv)
    rw [dataCells_of_not_base n hbase] at hquality hnum hbool htext ⊢
    rw [rowSound_some]
    constructor
    · rintro ⟨-, -, hgood⟩
      obtain ⟨hsev, v, hv, hnull, hn, hb, ht⟩ := hgood hquality
      refine .inr ⟨hsev, v, hv, ?_⟩
      have hq := quality_assignValue { quality := "good" } hnull n.scale n.offset
      generalize assignValue { quality := "good" } v n.scale n.offset = c at hn hb ht hq
      obtain ⟨num, bool, text, quality⟩ := c
      dsimp only at hn hb ht hq
      rw [← hn, ← hb, ← ht, hq, hnum, hbool, htext]
    · rintro (h | ⟨hsev, v, hv, hassign⟩)
      · exact absurd h hbase
      · rw [hsev]
        refine ⟨nofun, nofun, fun _ => ⟨rfl, v, hv, ne_null_of_quality (by rw [hassign]), ?_⟩⟩
        unfold Shows
        rw [hassign]
        exact ⟨hnum, hbool, htext⟩

/-! ## All rows -/

/-- The row that `Read` reports for a node. -/
def Reported (pollTS : Time) (x : OPCUAPoint × Option DataValue) (row : Row) : Prop :=
  (x.2 = none ∧ ∃ msg, row = badRow x.1 pollTS msg) ∨
    ∃ dv, x.2 = some dv ∧ row = nodeRow x.1 (pickTimestamp dv pollTS) (dataCells x.1 dv)

omit [GoLib] [GoFloat] [GoOpcua] in
/-- One more row and count in front of the others. -/
theorem reports_cons {res : List Row × Int} {rows new : List Row} {row : Row} {k : Int} {m : ℕ}
    (h : res = (rows ++ [row] ++ new, k + 1 + m)) :
    res = (rows ++ row :: new, k + (m + 1 : ℕ)) := by
  rw [h, List.append_assoc, List.singleton_append]
  refine Prod.ext rfl ?_
  dsimp only
  omega

/-- The loop adds one row for each node, and counts it. -/
theorem walk_reports (pollTS : Time) (resp : Option (List DataValue)) (nodes : List OPCUAPoint)
    (respIdx : ℕ) (rows : List Row) (rowsRead : Int) :
    ∃ new, walk pollTS resp nodes respIdx rows rowsRead = (rows ++ new, rowsRead + nodes.length) ∧
      List.Forall₂ (Reported pollTS) (answered nodes ((resp.getD []).drop respIdx)) new := by
  have hresp : ∀ i : ℕ, resp.bind (·[i]?) = (resp.getD [])[i]? := by
    intro i
    cases resp <;> simp
  induction nodes generalizing respIdx rows rowsRead with
  | nil => exact ⟨[], by simp [walk], .nil⟩
  | cons n nodes ih =>
    unfold walk answered
    split_ifs with hid
    · obtain ⟨new, hwalk, hnew⟩ := ih respIdx (rows ++ [badRow n pollTS "invalid node id"])
        (rowsRead + 1)
      exact ⟨_, reports_cons hwalk, .cons (.inl ⟨rfl, _, rfl⟩) hnew⟩
    · rw [hresp, List.head?_drop, List.tail_drop]
      cases hdv : (resp.getD [])[respIdx]? with
      | none =>
        obtain ⟨new, hwalk, hnew⟩ := ih (respIdx + 1)
          (rows ++ [badRow n pollTS "no response for node"]) (rowsRead + 1)
        exact ⟨_, reports_cons hwalk, .cons (.inl ⟨rfl, _, rfl⟩) hnew⟩
      | some dv =>
        obtain ⟨new, hwalk, hnew⟩ := ih (respIdx + 1)
          (rows ++ [nodeRow n (pickTimestamp dv pollTS) (dataCells n dv)]) (rowsRead + 1)
        exact ⟨_, reports_cons hwalk, .cons (.inr ⟨dv, rfl, rfl⟩) hnew⟩

omit [GoLib] [GoFloat] in
/-- Nodes that are not requested are not answered. -/
theorem answered_of_unparsed {nodes : List OPCUAPoint}
    (h : ∀ n ∈ nodes, GoOpcua.parsesNodeID n.nodeID = false) (results : List DataValue) :
    answered nodes results = nodes.map fun n => (n, none) := by
  induction nodes with
  | nil => rfl
  | cons n nodes ih =>
    obtain ⟨hn, hnodes⟩ := List.forall_mem_cons.1 h
    rw [answered, if_pos hn, ih hnodes]
    rfl

/-- The rows of a failed request. -/
theorem forall_badRow (pollTS : Time) (msg : String) (nodes : List OPCUAPoint) :
    List.Forall₂ (Reported pollTS) (nodes.map fun n => (n, none))
      (nodes.map fun n => badRow n pollTS msg) := by
  induction nodes with
  | nil => exact .nil
  | cons n nodes ih => exact .cons (.inl ⟨rfl, msg, rfl⟩) ih

namespace Answers

variable (a : Answers)

open Prog

omit [GoLib] [GoFloat] [GoOpcua] in
theorem perform_eval {α : Type} {c : OpcuaCall} {k : c.Ans → Prog (readSig opcuaSig) α}
    {r : c.Ans} {bs : List Batch} {res : Option (α × List Batch)}
    (hc : a.answer (.driver c) bs = some (r, bs)) (hk : (k r).eval a.answer bs = res) :
    (perform c >>= k).eval a.answer bs = res :=
  eval_call hc hk

theorem report_eval (load : LoadConfig) (nodes : List OPCUAPoint) (resp : Option (List DataValue)) :
    ∃ rows res, (report load nodes a.pollTS resp).eval a.answer [] =
        some (res, [⟨columns, rows⟩]) ∧
      List.Forall₂ (Reported a.pollTS) (Opcua.answered nodes (resp.getD [])) rows := by
  obtain ⟨rows, hwalk, hrows⟩ := walk_reports a.pollTS resp nodes 0 [] 0
  rw [List.drop_zero] at hrows
  refine ⟨rows, ({ rowsRead := 0 + nodes.length }, a.handler), ?_, hrows⟩
  unfold report
  rw [hwalk]
  exact a.perform_eval (c := .observeBadQuality load.name (countBad rows)) rfl (eval_call rfl rfl)

variable {a}

theorem emitted_of_eval {load : LoadConfig} {bs : List Batch} {res : ReadResult × Option Err}
    (h : (read true load).eval a.answer [] = some (res, bs)) : a.emitted load = bs := by
  rw [emitted, h]
  rfl

theorem emitted_of_error {e : Err} (hnodes : a.nodes = .error e) (load : LoadConfig) :
    a.emitted load = [] := by
  have heval : (read true load).eval a.answer [] =
      some (({}, some ("load nodes: " ++ e)), []) := by
    unfold read
    refine a.perform_eval (c := .listOPCUANodes load.loadID) (r := .error e) ?_ rfl
    rw [← hnodes]
    rfl
  exact emitted_of_eval heval

theorem emitted_of_nil (hnodes : a.nodes = .ok []) (load : LoadConfig) : a.emitted load = [] := by
  have heval : (read true load).eval a.answer [] = some (({}, none), []) := by
    unfold read
    refine a.perform_eval (c := .listOPCUANodes load.loadID) (r := .ok []) ?_ rfl
    rw [← hnodes]
    rfl
  exact emitted_of_eval heval

theorem emitted_of_poll {n : OPCUAPoint} {nodes : List OPCUAPoint}
    (hnodes : a.nodes = .ok (n :: nodes)) {load : LoadConfig} {bs : List Batch}
    {res : ReadResult × Option Err}
    (h : (poll load (n :: nodes)).eval a.answer [] = some (res, bs)) : a.emitted load = bs := by
  have heval : (read true load).eval a.answer [] = some (res, bs) := by
    unfold read
    refine a.perform_eval (c := .listOPCUANodes load.loadID) (r := .ok (n :: nodes)) ?_ h
    rw [← hnodes]
    rfl
  exact emitted_of_eval heval

/-- A polling cycle in which no id parses requests nothing. -/
theorem poll_eval_of_unparsed (load : LoadConfig) {nodes : List OPCUAPoint}
    (hnone : (nodes.map (·.nodeID)).filter GoOpcua.parsesNodeID = []) :
    ∃ rows res, (poll load nodes).eval a.answer [] = some (res, [⟨columns, rows⟩]) ∧
      List.Forall₂ (Reported a.pollTS) (Opcua.answered nodes []) rows := by
  obtain ⟨rows, res, hreport, hrows⟩ := a.report_eval load nodes none
  refine ⟨rows, res, ?_, hrows⟩
  unfold poll
  refine a.perform_eval (c := .now) (r := a.pollTS) rfl ?_
  rw [if_pos hnone]
  exact hreport

theorem poll_eval_of_error (load : LoadConfig) {nodes : List OPCUAPoint} {e : Err}
    (hsome : (nodes.map (·.nodeID)).filter GoOpcua.parsesNodeID ≠ [])
    (hresults : a.results = .error e) :
    ∃ res, (poll load nodes).eval a.answer [] =
      some (res, [⟨columns, nodes.map fun n => badRow n a.pollTS e⟩]) := by
  refine ⟨({ rowsRead := (nodes.map fun n => badRow n a.pollTS e).length }, a.handler), ?_⟩
  unfold poll
  refine a.perform_eval (c := .now) (r := a.pollTS) rfl ?_
  rw [if_neg hsome]
  have hread : a.answer (.driver (.read ((nodes.map (·.nodeID)).filter GoOpcua.parsesNodeID))) [] =
      some (.error e, []) := by
    rw [← hresults]
    rfl
  exact a.perform_eval hread (a.perform_eval rfl (eval_call rfl rfl))

theorem poll_eval_of_ok (load : LoadConfig) {nodes : List OPCUAPoint} {results : List DataValue}
    (hsome : (nodes.map (·.nodeID)).filter GoOpcua.parsesNodeID ≠ [])
    (hresults : a.results = .ok results) :
    ∃ rows res, (poll load nodes).eval a.answer [] = some (res, [⟨columns, rows⟩]) ∧
      List.Forall₂ (Reported a.pollTS) (Opcua.answered nodes results) rows := by
  obtain ⟨rows, res, hreport, hrows⟩ := a.report_eval load nodes (some results)
  refine ⟨rows, res, ?_, hrows⟩
  unfold poll
  refine a.perform_eval (c := .now) (r := a.pollTS) rfl ?_
  rw [if_neg hsome]
  have hread : a.answer (.driver (.read ((nodes.map (·.nodeID)).filter GoOpcua.parsesNodeID))) [] =
      some (.ok results, []) := by
    rw [← hresults]
    rfl
  exact a.perform_eval hread hreport

/-- A load with nodes: one batch with one row for each node in order. -/
theorem emitted_of_nodes {n : OPCUAPoint} {nodes : List OPCUAPoint}
    (hnodes : a.nodes = .ok (n :: nodes)) (load : LoadConfig) :
    ∃ rows, a.emitted load = [⟨columns, rows⟩] ∧
      List.Forall₂ (Reported a.pollTS) a.answered rows := by
  by_cases hread : ((n :: nodes).map (·.nodeID)).filter GoOpcua.parsesNodeID = []
  · have hunparsed : ∀ m ∈ n :: nodes, GoOpcua.parsesNodeID m.nodeID = false := by
      intro m hm
      have := List.filter_eq_nil_iff.1 hread m.nodeID (List.mem_map_of_mem hm)
      simpa using this
    obtain ⟨rows, res, heval, hrows⟩ := poll_eval_of_unparsed (a := a) load hread
    refine ⟨rows, emitted_of_poll hnodes heval, ?_⟩
    rw [answered_of_unparsed hunparsed] at hrows
    rw [answered, hnodes]
    cases a.results with
    | error e => exact hrows
    | ok results =>
      dsimp only
      rw [answered_of_unparsed hunparsed]
      exact hrows
  · cases hresults : a.results with
    | error e =>
      obtain ⟨res, heval⟩ := poll_eval_of_error load hread hresults
      refine ⟨_, emitted_of_poll hnodes heval, ?_⟩
      rw [answered, hnodes, hresults]
      exact forall_badRow a.pollTS e (n :: nodes)
    | ok results =>
      obtain ⟨rows, res, heval, hrows⟩ := poll_eval_of_ok load hread hresults
      refine ⟨rows, emitted_of_poll hnodes heval, ?_⟩
      rw [answered, hnodes, hresults]
      exact hrows

end Answers

/-- Rows as `Read` reports them are sound exactly when the codes are classified. -/
theorem forall_rowSound_iff {pollTS : Time} {xs : List (OPCUAPoint × Option DataValue)}
    {rows : List Row} (h : List.Forall₂ (Reported pollTS) xs rows) :
    List.Forall₂ RowSound xs rows ↔ ∀ x ∈ xs, ∀ dv, x.2 = some dv → Classified x.1 dv := by
  induction h with
  | nil => simp
  | @cons x row xs rows hrow _ ih =>
    rw [List.forall₂_cons, ih, List.forall_mem_cons]
    refine and_congr_left fun _ => ?_
    obtain ⟨n, dv?⟩ := x
    rcases hrow with ⟨hnone, msg, rfl⟩ | ⟨dv, hsome, rfl⟩
    · obtain rfl : dv? = none := hnone
      exact ⟨fun _ => nofun, fun _ => rowSound_badRow n pollTS msg⟩
    · obtain rfl : dv? = some dv := hsome
      rw [rowSound_iff]
      exact ⟨fun hc dv' hdv => Option.some.inj hdv ▸ hc, fun hc => hc dv rfl⟩

/-- Every row that `Read` hands over has the quality of the severity of its status
    code, and good rows show a value, if and only if every status code is one of
    the three base codes or has a text that is also the value. -/
theorem quality_sound_iff (a : Answers) (load : LoadConfig) :
    (∀ b ∈ a.emitted load, List.Forall₂ RowSound a.answered b.rows) ↔
      ∀ x ∈ a.answered, ∀ dv, x.2 = some dv → Classified x.1 dv := by
  have hnil : a.emitted load = [] → a.answered = [] →
      ((∀ b ∈ a.emitted load, List.Forall₂ RowSound a.answered b.rows) ↔
        ∀ x ∈ a.answered, ∀ dv, x.2 = some dv → Classified x.1 dv) := by
    intro hemitted hanswered
    simp [hemitted, hanswered]
  cases hnodes : a.nodes with
  | error e => exact hnil (Answers.emitted_of_error hnodes load) (by rw [Answers.answered, hnodes])
  | ok nodes =>
    cases nodes with
    | nil =>
      refine hnil (Answers.emitted_of_nil hnodes load) ?_
      rw [Answers.answered, hnodes]
      cases a.results <;> rfl
    | cons n nodes =>
      obtain ⟨rows, hemitted, hrows⟩ := Answers.emitted_of_nodes hnodes load
      rw [hemitted, List.forall_mem_singleton]
      exact forall_rowSound_iff hrows

end

/-! ## A bad sub-code -/

section

attribute [local instance] GoLib.ascii GoFloat.finite GoOpcua.plain

/-- A node that the server does not know: `StatusBadNodeIDUnknown`. -/
def unknownNode : Answers where
  nodes := .ok [⟨"level", "ns=2;s=level", 0, 0⟩]
  pollTS := 0
  results := .ok [⟨0x80340000, none, none, none⟩]
  handler := none

/-- The row says good and has the text of the code for a value. -/
theorem bad_subcode_reported_good :
    severity 0x80340000 = .bad ∧ ∀ load : LoadConfig, unknownNode.emitted load =
      [⟨columns, [nodeRow ⟨"level", "ns=2;s=level", 0, 0⟩ 0
        { text := .ofString "status 2150891520", quality := "good" }]⟩] := by
  refine ⟨by decide, fun load => ?_⟩
  rfl

end

end DataLoader.Opcua
