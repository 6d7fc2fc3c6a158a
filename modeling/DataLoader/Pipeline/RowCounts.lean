import DataLoader.Pipeline.AuditedRange
import DataLoader.Sources.Batches
import DataLoader.Sources.ModbusRows
import DataLoader.Sources.OpcuaRows

/-!
# Rows read and rows written

The runner adds up the rows of the batches that the sink has accepted, and the source
reports the rows that it has read. Both numbers are recorded in the row of the run.

* `interpret_path`: a `Read` that runs in the runner is one of the paths of `Read`, and
  the runner has counted the rows of the accepted batches.
* `row_accounting_iff`: when the two numbers fit. The SQL sources report no rows when they
  fail, and the Modbus source leaves out tags that it could not set the client up for.
-/

namespace DataLoader

open Effects SinkProtocol

/-! ## The handed rows of a `Read` in the runner -/

/-- The number of rows in batches that were handed over. -/
def totalRows (ds : List (List Row × Option Err)) : ℕ := (ds.map (·.1.length)).sum

/-- The batches that the handler accepted. -/
def acceptedRows (ds : List (List Row × Option Err)) : ℕ := totalRows (ds.filter (·.2.isNone))

@[simp] theorem totalRows_nil : totalRows [] = 0 := rfl

@[simp] theorem totalRows_cons (d : List Row × Option Err) (ds : List (List Row × Option Err)) :
    totalRows (d :: ds) = d.1.length + totalRows ds := by
  simp [totalRows]

@[simp] theorem acceptedRows_nil : acceptedRows [] = 0 := rfl

@[simp] theorem acceptedRows_cons (d : List Row × Option Err) (ds : List (List Row × Option Err)) :
    acceptedRows (d :: ds) = (if d.2.isNone then d.1.length else 0) + acceptedRows ds := by
  unfold acceptedRows
  by_cases hd : d.2.isNone = true <;> simp [hd]

/-- What a source does that the log of a run shows: a driver call with its answer, or a
    batch that it hands over. -/
inductive ReadEvent (S : Sig)
  | driver (c : S.Call) (r : S.Ans c)
  | batch (b : Batch)

section

variable {S : Sig}

/-- The events on a path of `Read`. -/
def pathEvents (tr : List (Step (readSig S))) : List (ReadEvent S) :=
  tr.map fun
    | ⟨.driver c, r⟩ => .driver c r
    | ⟨.emit b, _⟩ => .batch b

/-- The events in a log of the pipeline. -/
def readEvents (tr : List (Step (sysSig S))) : List (ReadEvent S) :=
  tr.filterMap fun
    | ⟨.source _ c, r⟩ => some (.driver c r)
    | ⟨.deliver b, _⟩ => some (.batch b)
    | _ => none

theorem readEvents_append (tr tr' : List (Step (sysSig S))) :
    readEvents (tr ++ tr') = readEvents tr ++ readEvents tr' := List.filterMap_append

theorem readEvents_eq_nil {tr : List (Step (sysSig S))}
    (h : ∀ s ∈ tr, SysCall.reads s.1 = false) : readEvents tr = [] := by
  refine List.filterMap_eq_nil_iff.2 fun s hs => ?_
  obtain ⟨c, r⟩ := s
  have hc : SysCall.reads c = false := h _ hs
  cases c <;> first | rfl | cases hc

/-- A `Read` in the runner. `count` is what the handler `h` has counted, and `I` an
    invariant of its state. -/
theorem interpret_path {σ α : Type} {I : σ → Prop} (count : σ → Int) {src : ℕ}
    {h : σ → Batch → Prog (sysSig S) (σ × Option Err)}
    (hh : ∀ {st b part st' e}, I st → (h st b).Path part (st', e) → I st' ∧
      (∀ s ∈ part, SysCall.reads s.1 = false) ∧
      count st' = count st + if e.isNone then b.rows.length else 0)
    {p : Prog (readSig S) α} {st st' : σ} {a : α} {str : List (Step (sysSig S))} (hst : I st)
    (hpath : (Runner.interpret src h p st).Path str (st', a)) :
    ∃ tr, p.Path tr a ∧ readEvents str = pathEvents tr ∧
      count st' = count st + acceptedRows (handedRows tr) := by
  induction p generalizing st str with
  | ret b =>
    obtain ⟨rfl, rfl, rfl⟩ := Prog.Path.of_ret_pair hpath
    exact ⟨[], .ret _, rfl, by simp⟩
  | call c k ih =>
    cases c with
    | driver c =>
      obtain ⟨r, str', rfl, hrest⟩ := Prog.Path.of_call hpath
      obtain ⟨tr, htr, hevents, hcount⟩ := ih r hst hrest
      exact ⟨⟨.driver c, r⟩ :: tr, .call htr, congrArg (ReadEvent.driver c r :: ·) hevents, hcount⟩
    | emit b =>
      obtain ⟨u, str', rfl, hrest⟩ := Prog.Path.of_call hpath
      obtain ⟨⟨st₁, e⟩, part, str'', hpart, hnext, rfl⟩ := Prog.Path.of_bind hrest
      obtain ⟨hst₁, hreads, hcount₁⟩ := hh hst hpart
      obtain ⟨tr, htr, hevents, hcount⟩ := ih e hst₁ hnext
      have htail : readEvents (part ++ str'') = pathEvents tr := by
        rw [readEvents_append, readEvents_eq_nil hreads, hevents, List.nil_append]
      refine ⟨⟨.emit b, e⟩ :: tr, .call htr, congrArg (ReadEvent.batch b :: ·) htail, ?_⟩
      rw [hcount, hcount₁, handedRows_emit, acceptedRows_cons]
      push_cast
      ring

/-- `WriteBatch` returns the number of rows of the batch, or an error. -/
def Sink.Counts (k : Sink S) : Prop :=
  ∀ t b loadTS part n, (k.writeBatch t b loadTS).Path part (.ok n) → n = b.rows.length

variable {r : Runner S} {load : Load} {loadTS : Time}

/-- The handler counts the rows of the batches that it accepts. -/
theorem handler_counts (hc : r.sink.Counts) {st st' : HandlerState S} {b : Batch}
    {part : List (Step (sysSig S))} {e : Option Err}
    (h : (r.handler load loadTS st b).Path part (st', e)) :
    st'.rowsWritten = st.rowsWritten + if e.isNone then b.rows.length else 0 := by
  obtain ⟨n, hadds, hn⟩ := (handler_path h).rows
  rw [hn]
  cases hadds with
  | refused => rfl
  | accepted hwrite => rw [hc _ _ _ _ _ hwrite]; rfl

/-- `Read` with the runner's handler. -/
theorem read_counts (hk : r.sink.OnDb) (hc : r.sink.Counts) {α : Type} {src : ℕ}
    {p : Prog (readSig S) α} {target : TargetTable} {repl : Option (ReplaceSession S)}
    (hrepl : ∀ s, repl = some s → OnDb s) {st : HandlerState S} {a : α}
    {str : List (Step (sysSig S))}
    (h : (Runner.interpret src (r.handler load loadTS) p ⟨0, true, target, repl⟩).Path str (st, a)) :
    ∃ tr, p.Path tr a ∧ readEvents str = pathEvents tr ∧
      st.rowsWritten = acceptedRows (handedRows tr) := by
  have hhandler : ∀ {st b part st' e}, HandlerOnDb (S := S) st →
      (r.handler load loadTS st b).Path part (st', e) → HandlerOnDb st' ∧
      (∀ s ∈ part, SysCall.reads s.1 = false) ∧
      st'.rowsWritten = st.rowsWritten + if e.isNone then b.rows.length else 0 := by
    intro st b part st' e hst hpart
    have hignore := allowing_ignores_onDb (S := S) (N := SysCall.aside) fun _ hc => hc
    have hfollows : (allowing (S := sysSig S) SysCall.aside).Follows (r.handler load loadTS st b)
        (fun se q' => q' = () ∧ HandlerOnDb se.1) () := handler_follows hignore hk hst b
    obtain ⟨-, -, hst'⟩ := hpart.of_follows hfollows
    exact ⟨hst', fun s hs => (hpart.calls hfollows.calls s hs).2, handler_counts hc hpart⟩
  have hst : HandlerOnDb (⟨0, true, target, repl⟩ : HandlerState S) := hrepl
  obtain ⟨tr, htr, hevents, hcount⟩ := interpret_path HandlerState.rowsWritten hhandler hst h
  exact ⟨tr, htr, hevents, by simpa using hcount⟩

end

/-! ## The sources -/

/-- What a source reports as read, against what it handed over: the accepted rows are not
    more if and only if `Fits` holds, and then a `Read` without an error has reported and
    handed over all of them. -/
structure RowsFit (Fits : Prop) (ds : List (List Row × Option Err)) (rowsRead : Int)
    (err : Option Err) : Prop where
  written : (acceptedRows ds : Int) ≤ rowsRead ↔ Fits
  complete : Fits → err = none → rowsRead = totalRows ds ∧ acceptedRows ds = totalRows ds

theorem RowsFit.congr {Fits Fits' : Prop} {ds : List (List Row × Option Err)} {rowsRead : Int}
    {err : Option Err} (h : RowsFit Fits ds rowsRead err) (hiff : Fits ↔ Fits') :
    RowsFit Fits' ds rowsRead err :=
  ⟨h.written.trans hiff, fun hfits => h.complete (hiff.2 hfits)⟩

theorem RowsFit.of_nil {Fits : Prop} (hfits : Fits) {err : Option Err} : RowsFit Fits [] 0 err :=
  ⟨iff_of_true le_rfl hfits, fun _ _ => ⟨rfl, rfl⟩⟩

/-- One batch, of which the source reports `n` rows at most. -/
theorem RowsFit.single (rows : List Row) {n : ℕ} (hn : n ≤ rows.length) (err : Option Err) :
    RowsFit (err = none → n = rows.length) [(rows, err)] n err := by
  cases err with
  | some e => exact ⟨iff_of_true (by simp) nofun, fun _ => nofun⟩
  | none =>
    have haccepted : acceptedRows [(rows, none)] = rows.length := by simp
    have htotal : totalRows [(rows, none)] = rows.length := by simp
    refine ⟨⟨fun hle _ => by omega, fun heq => ?_⟩, fun heq _ => ?_⟩
    · rw [haccepted, heq rfl]
    · rw [haccepted, htotal, heq rfl]
      exact ⟨rfl, rfl⟩

theorem acceptedRows_eq_totalRows {ds : List (List Row × Option Err)} (h : ∀ d ∈ ds, d.2 = none) :
    acceptedRows ds = totalRows ds := by
  unfold acceptedRows
  rw [List.filter_eq_self.2 fun d hd => by rw [h d hd]; rfl]

section

variable [GoLib] [GoText] [GoFloat] [GoOpcua]

/-- The source modules, each with the condition under which the numbers of a `Read` with
    the path `tr` and the error `err` fit. -/
inductive SourceKind : (S : Sig) → Reader S →
    (List (Step (readSig S)) → Option Err → Prop) → Prop
  /-- No row was written before `Read` failed. -/
  | sql (d : Dialect) : SourceKind sqlSig d.read fun tr err =>
      err = none ∨ acceptedRows (handedRows tr) = 0
  /-- The client could be set up for every tag whose row was written. -/
  | modbus (catalogue : Bool) : SourceKind modbusSig (Modbus.read catalogue) fun tr err =>
      err = none → tr.any Modbus.setFailed = false
  | opcua (catalogue : Bool) : SourceKind opcuaSig (Opcua.read catalogue) fun _ _ => True

omit [GoText] [GoFloat] [GoOpcua] in
theorem sql_fits (d : Dialect) {load : LoadConfig} {tr : List (Step (readSig sqlSig))}
    {result : ReadResult} {err : Option Err} (h : (d.read load).Path tr (result, err)) :
    RowsFit (err = none ∨ acceptedRows (handedRows tr) = 0) (handedRows tr) result.rowsRead err := by
  cases d.read_path h with
  | unasked hmax hcount =>
    rw [handedRows_of_asksMax hmax, hcount]
    exact .of_nil (.inr rfl)
  | @asked tr₁ tr₂ q _ _ hmax hread =>
    have hhanded : handedRows (tr₁ ++ tr₂) = handedRows tr₂ := by
      rw [handedRows_append, handedRows_of_asksMax hmax, List.nil_append]
    rw [hhanded]
    cases hread with
    | unread => exact .of_nil (.inr rfl)
    | @read cur types tr _ _ htypes _ hchunked hcount hfailed =>
      change RowsFit (err = none ∨ acceptedRows (handedRows tr) = 0) (handedRows tr) _ err
      by_cases herr : err = none
      · obtain ⟨hread, hscanned⟩ := hcount herr
        subst herr
        -- without an error every row of the result set was handed over and accepted
        have hall := acceptedRows_eq_totalRows hchunked.all_accepted
        have htotal : totalRows (handedRows tr) = cur.rows.length := by
          rw [totalRows, ← List.length_flatMap, hchunked.whole rfl, Sql.Flavour.rowsOf,
            List.length_map, hscanned]
        rw [← htotal] at hread
        exact ⟨iff_of_true (by rw [hread, hall]) (.inl rfl), fun _ _ => ⟨hread, hall⟩⟩
      · rw [hfailed herr]
        refine ⟨?_, fun _ hnone => absurd hnone herr⟩
        rw [or_iff_right herr]
        omega

omit [GoOpcua] in
theorem modbus_fits {catalogue : Bool} {load : LoadConfig}
    {tr : List (Step (readSig modbusSig))} {result : ReadResult} {err : Option Err}
    (h : (Modbus.read catalogue load).Path tr (result, err)) :
    RowsFit (err = none → tr.any Modbus.setFailed = false) (handedRows tr) result.rowsRead err := by
  cases Modbus.read_path h with
  | unlisted _ hhanded =>
    rw [hhanded]
    exact .of_nil nofun
  | empty => exact .of_nil fun _ => rfl
  | @polled tags pollTS parts _ _ hparts =>
    have hset : ∀ tail : List (Step (readSig modbusSig)), tail.any Modbus.setFailed = false →
        (parts.flatMap (·.1) ++ tail).any Modbus.setFailed =
          parts.any fun p => p.1.any Modbus.setFailed := by
      intro tail htail
      rw [List.any_append, htail, Bool.or_false, List.any_flatMap]
    have hle : parts.countP (fun p => !p.1.any Modbus.setFailed) ≤ (parts.map (·.2)).length := by
      rw [List.length_map]
      exact List.countP_le_length
    have hall : parts.countP (fun p => !p.1.any Modbus.setFailed) = (parts.map (·.2)).length ↔
        (parts.any fun p => p.1.any Modbus.setFailed) = false := by
      rw [List.length_map, List.countP_eq_length, List.any_eq_false]
      exact forall₂_congr fun p _ => by rw [Bool.not_eq_true', Bool.not_eq_true]
    have hfits := (RowsFit.single (parts.map (·.2)) hle err).congr (imp_congr_right fun _ => hall)
    let tail : List (Step (readSig modbusSig)) :=
      [⟨.driver (.observeBadQuality load.name (Modbus.countBad (parts.map (·.2)))), ()⟩,
        ⟨.emit ⟨Modbus.columns, parts.map (·.2)⟩, err⟩]
    have hhanded : handedRows (parts.flatMap (·.1) ++ tail) = [(parts.map (·.2), err)] :=
      Modbus.handedRows_parts hparts tail
    rw [← hset tail rfl, ← hhanded] at hfits
    exact hfits

omit [GoText] in
theorem opcua_fits {catalogue : Bool} {load : LoadConfig}
    {tr : List (Step (readSig opcuaSig))} {result : ReadResult} {err : Option Err}
    (h : (Opcua.read catalogue load).Path tr (result, err)) :
    RowsFit True (handedRows tr) result.rowsRead err := by
  cases Opcua.read_path h with
  | unlisted _ hhanded =>
    rw [hhanded]
    exact .of_nil trivial
  | empty => exact .of_nil trivial
  | @polled nodes tr' _ _ hne hpoll =>
    obtain ⟨hcount, pollTS, rows, -, hhanded, hrows⟩ := Opcua.poll_path hpoll
    have hlength : rows.length = nodes.length := by
      rw [← hrows.length_eq, Opcua.length_answered]
    change RowsFit True (handedRows tr') result.rowsRead err
    rw [hhanded, hcount, ← hlength]
    exact (RowsFit.single rows le_rfl err).congr (iff_of_true (fun _ => rfl) trivial)

theorem SourceKind.fits {S : Sig} {read : Reader S}
    {Fits : List (Step (readSig S)) → Option Err → Prop} (h : SourceKind S read Fits)
    {load : LoadConfig} {tr : List (Step (readSig S))} {result : ReadResult} {err : Option Err}
    (hpath : (read load).Path tr (result, err)) :
    RowsFit (Fits tr err) (handedRows tr) result.rowsRead err := by
  cases h with
  | sql d => exact sql_fits d hpath
  | modbus => exact modbus_fits hpath
  | opcua => exact opcua_fits hpath

end

/-! ## The recorded numbers -/

section

variable {S : Sig} {side : SourceSide S} {srv : SqlServer} {r : Runner S} {load : Load}
  {w w' : World side} {l : SysLog S} {err : Option Err} {run : LoadRun}

/-- The rows of the batches that were handed over. -/
def deliveredRows (events : List (ReadEvent S)) : ℕ :=
  (events.map fun
    | .driver _ _ => 0
    | .batch b => b.rows.length).sum

theorem deliveredRows_pathEvents (tr : List (Step (readSig S))) :
    deliveredRows (pathEvents tr) = totalRows (handedRows tr) := by
  induction tr with
  | nil => rfl
  | cons s tr ih =>
    obtain ⟨c, r⟩ := s
    cases c with
    | driver c => exact (Nat.zero_add _).trans ih
    | emit b => exact congrArg (b.rows.length + ·) ih

/-- The rows that a run with the log `l` handed over. -/
def SysLog.deliveredRows (l : SysLog S) : ℕ :=
  DataLoader.deliveredRows (readEvents (l.map Entry.step))

/-- The `Read` of a run is a path of the source, and the log `l` has the events of this path
    and no others. -/
inductive Shows (r : Runner S) (load : Load) (current : Watermark) (l : SysLog S) :
    Option (ReadRun S) → Prop
  | unread (hevents : readEvents (l.map Entry.step) = []) : Shows r load current l none
  | read {x : ReadRun S}
      (hpath : (r.read (Runner.loadConfig load current)).Path x.trace (x.result, x.err))
      (hevents : readEvents (l.map Entry.step) = pathEvents x.trace) : Shows r load current l (some x)

theorem readEvents_log {l : SysLog S} (h : ∀ x ∈ l, SysCall.reads x.call = false) :
    readEvents (l.map Entry.step) = [] := by
  refine readEvents_eq_nil fun s hs => ?_
  obtain ⟨x, hx, rfl⟩ := List.mem_map.1 hs
  exact h x hx

/-- The log around the `Read` does not matter. -/
theorem Shows.extend {current : Watermark} {l₀ l₁ : SysLog S} {read : Option (ReadRun S)}
    (h : Shows r load current l read) (hothers : ∀ x ∈ l₀ ++ l₁, SysCall.reads x.call = false) :
    Shows r load current (l₀ ++ l ++ l₁) read := by
  rw [List.forall_mem_append] at hothers
  have hevents : readEvents ((l₀ ++ l ++ l₁).map Entry.step) = readEvents (l.map Entry.step) := by
    simp only [List.map_append, readEvents_append, readEvents_log hothers.1,
      readEvents_log hothers.2, List.nil_append, List.append_nil]
  cases h with
  | unread h => exact .unread (hevents.trans h)
  | read hpath h => exact .read hpath (hevents.trans h)

/-- The numbers with which a run is closed. -/
inductive Counted : Option (ReadRun S) → Option Err → Int → Int → Prop
  | unread {e : Err} : Counted none (some e) 0 0
  | read {x : ReadRun S} {verdict : Option Err} (hverdict : ∀ e, x.err = some e → verdict = some e) :
      Counted (some x) verdict x.result.rowsRead (acceptedRows (handedRows x.trace))

theorem Started.counted (hk : r.sink.OnDb) (hc : r.sink.Counts) {src : ℕ} {current : Watermark}
    {read : Option (ReadRun S)} (h : Started srv r load src run current w l read err w') :
    Shows r load current l read ∧ ∃ w₁, ∃ l₁ l₂ : SysLog S, ∃ verdict rr rw wm,
      l = l₁ ++ l₂ ∧ Opens w l₁ w₁ ∧ Closes srv load run verdict rr rw wm w₁ l₂ err w' ∧
      Counted read verdict rr rw := by
  cases h with
  | @unprepared w₁ _ l₁ l₂ e _ _ hquiet hclose =>
    obtain ⟨fe, t, hacc⟩ := hclose.account
    refine ⟨.unread (readEvents_log ?_), w₁, l₁, l₂, some e, 0, 0, _, rfl, hquiet.opens_self,
      hclose, .unread⟩
    exact List.forall_mem_append.2 ⟨fun x hx => (hquiet.aside x hx).2, hacc.noReads⟩
  | @read w₁ w₂ _ l₁ l₂ l₃ _ _ _ _ _ _ _ _ _ hquiet hrepl hread hfinish =>
    obtain ⟨w₃, l₄, l₅, verdict, wm, rfl, hopens, hreads, hverdict, -, hclose⟩ := hfinish.closes
    obtain ⟨fe, t, hacc⟩ := hclose.account
    obtain ⟨hsame, hbooks⟩ := read_unrecorded hk hrepl hread
    obtain ⟨tr, htraced, hevents, hcount⟩ := read_counts hk hc hrepl hread.path
    obtain ⟨rfl, hpath⟩ := Prog.path_traced htraced
    have hothers : ∀ x ∈ l₁ ++ (l₄ ++ l₅), SysCall.reads x.call = false :=
      List.forall_mem_append.2 ⟨fun x hx => (hquiet.aside x hx).2,
        List.forall_mem_append.2 ⟨hreads, hacc.noReads⟩⟩
    refine ⟨(Shows.read hpath hevents).extend hothers, w₃, l₁ ++ (l₂ ++ l₄), l₅, verdict, _, _,
      wm, by simp, hquiet.opens (hsame.opens hbooks hopens), hclose, ?_⟩
    rw [hcount]
    exact .read hverdict

theorem Counted.fits_iff [GoLib] [GoText] [GoFloat] [GoOpcua]
    {Fits : List (Step (readSig S)) → Option Err → Prop} (hkind : SourceKind S r.read Fits)
    {current : Watermark} {read : Option (ReadRun S)} (hread : Shows r load current l read)
    {verdict : Option Err} {rr rw : Int} (h : Counted read verdict rr rw) :
    (rw ≤ rr ∧ (runStatus verdict = .success → rr = l.deliveredRows ∧ rw = l.deliveredRows)) ↔
      ∀ x, read = some x → Fits x.trace x.err := by
  cases h with
  | unread => exact iff_of_true ⟨le_rfl, by simp [runStatus]⟩ nofun
  | @read x _ hverdict =>
    cases hread with
    | read hpath hevents =>
      have hfit := hkind.fits hpath
      have htotal : l.deliveredRows = totalRows (handedRows x.trace) := by
        rw [SysLog.deliveredRows, hevents, deliveredRows_pathEvents]
      rw [htotal, hfit.written]
      constructor
      · rintro ⟨hfits, -⟩ _ ⟨⟩
        exact hfits
      · intro h
        have hfits := h x rfl
        refine ⟨hfits, fun hsuccess => ?_⟩
        have hnone : x.err = none := by
          refine Option.eq_none_iff_forall_ne_some.2 fun e he => ?_
          rw [hverdict e he] at hsuccess
          cases hsuccess
        obtain ⟨hrr, hrw⟩ := hfit.complete hfits hnone
        exact ⟨hrr, by rw [hrw]⟩

/-- The numbers of rows that a run is closed with, and that its row has if `FinishRun`
    succeeded: not more rows were written than read, and a success has read and written all
    rows that were handed over, if and only if the `Read` met the condition of its source. -/
theorem row_accounting_iff [GoLib] [GoText] [GoFloat] [GoOpcua] (hk : r.sink.OnDb)
    (hc : r.sink.Counts) {Fits : List (Step (readSig S)) → Option Err → Prop}
    (hkind : SourceKind S r.read Fits) (h : World.Runs srv (r.execute load) w l err w')
    {status : RunStatus} {rowsRead rowsWritten : Int} {watermarkEnd msg : String} {fe : Option Err}
    (hfinish : .finishRun run status rowsRead rowsWritten watermarkEnd msg fe ∈ books l) :
    ∃ read, ReadOf r load l read ∧
      ((rowsWritten ≤ rowsRead ∧
        (status = .success → rowsRead = l.deliveredRows ∧ rowsWritten = l.deliveredRows)) ↔
          ∀ x, read = some x → Fits x.trace x.err) ∧
      (fe = none → (∃ row ∈ w'.store.runs, row.id = run.id) ∧
        ∀ row ∈ w'.store.runs, row.id = run.id →
          row.status = status ∧ row.rowsRead = rowsRead ∧ row.rowsWritten = rowsWritten) := by
  obtain ⟨read, hread, hx⟩ := execute_run hk h
  refine ⟨read, hread, ?_⟩
  generalize Runner.pointBased load = load at hx
  obtain ⟨w₁, w₂, l₀, l', l₃, src, run', t, rfl, hreads, hothers, hrow, hstored, hstarted, hsame⟩ :=
    hx.of_finish hfinish rfl
  obtain ⟨hshows, w₃, l₁, l₂, verdict, rr, rw', wm, rfl, hopens, hclose, hcounted⟩ :=
    hstarted.counted hk hc
  obtain ⟨fe', t', hacc⟩ := hclose.account
  have hin := mem_books_closing hfinish rfl hothers hopens.books
  obtain ⟨rfl, rfl, rfl, rfl, -, -, rfl⟩ := hacc.of_finish hin
  refine ⟨hcounted.fits_iff hkind (hshows.extend hreads), fun hfe => ?_⟩
  obtain ⟨t'', hsaved⟩ := hacc.row hfe
  have hmem : run ∈ w₃.store.runs := by
    rw [hopens.runs, hstored, hrow]
    exact List.mem_append_right _ (List.mem_singleton_self _)
  rw [hsame.1, hsaved]
  refine ⟨Store.exists_saveRun hmem rfl, fun row hrow' hid => ?_⟩
  obtain rfl := Store.eq_of_mem_saveRun hrow' hid
  exact ⟨rfl, rfl, rfl⟩

end

theorem Mssql.sink_counts [GoLib] {S : Sig} : (Mssql.sink : Sink S).Counts := by
  intro t b loadTS part n h
  change (Mssql.writeBatch t b loadTS : Prog (sysSig S) _).Path part (.ok n) at h
  unfold Mssql.writeBatch at h
  split_ifs at h with hempty
  · cases (Prog.Path.of_ret h).1
    rw [List.isEmpty_iff.1 hempty]
    rfl
  · split at h
    · cases (Prog.Path.of_ret h).1
    · split at h
      · cases (Prog.Path.of_ret h).1
      · split at h
        · cases (Prog.Path.of_ret h).1
        · obtain ⟨res, tr₁, tr₂, -, hret, rfl⟩ := Prog.Path.of_bind h
          cases res with
          | some e => cases (Prog.Path.of_ret hret).1
          | none =>
            cases (Prog.Path.of_ret hret).1
            rfl

section

attribute [local instance] GoLib.ascii GoText.ascii GoFloat.finite GoOpcua.plain

/-- A run in which every call succeeds reads and writes the one new row. -/
theorem calm_run_accounts :
    ∃ l w', World.Runs ⟨"wh", "dbo"⟩ numberLoad.execute registeredWorld l none w' ∧
      (∃ read, ReadOf numberLoad.runner numberLoad.load l read ∧
        ∀ x, read = some x → x.err = none ∨ acceptedRows (handedRows x.trace) = 0) ∧
      ∃ row ∈ w'.store.runs, row.status = .success ∧ row.rowsRead = 1 ∧ row.rowsWritten = 1 := by
  have heval : (numberMachine.exec calmSchedule numberLoad.execute registeredWorld).map (·.1) =
      some none := by decide +kernel
  obtain ⟨⟨_, w'⟩, hx, rfl⟩ := Option.map_eq_some_iff.1 heval
  have hrun := Machine.Runs.of_exec hx
  have hfinish : .finishRun (registeredWorld.store.newRun 1 "1" 0) .success 1 1 "2" "" none ∈
      books (numberMachine.log calmSchedule numberLoad.execute registeredWorld) := by decide +kernel
  have hdelivered : SysLog.deliveredRows
      (numberMachine.log calmSchedule numberLoad.execute registeredWorld) = 1 := by decide +kernel
  obtain ⟨read, hread, hiff, hrow⟩ :=
    row_accounting_iff Mssql.sink_onDb Mssql.sink_counts (.sql .sqlserver) hrun hfinish
  obtain ⟨⟨row, hmem, hid⟩, hnumbers⟩ := hrow rfl
  refine ⟨_, w', hrun, ⟨read, hread, hiff.1 ⟨le_rfl, fun _ => ?_⟩⟩, row, hmem, hnumbers row hmem hid⟩
  rw [hdelivered]
  exact ⟨rfl, rfl⟩

/-- The number load in append mode, in batches of one row. -/
def smallBatches : Load := { numberLoad.load with mode := loadModeAppend, batchSize := 1 }

/-- The second of two batches is refused: one row is in the sink, and the row of the run
    says that one was written and none was read. -/
theorem refused_batch_misstates_read :
    ∃ l w', World.Runs ⟨"wh", "dbo"⟩ (numberLoad.runner.execute smallBatches) registeredWorld l
        (some "lost") w' ∧
      w'.store.runs.map (fun row => (row.status, row.rowsRead, row.rowsWritten)) =
        [(.failed, 0, 1)] ∧
      (w'.db.tables ⟨"dbo", "t"⟩).map List.length = some 1 := by
  have heval : (numberMachine.exec (List.replicate 10 (.answer .ok) ++
      .answer (.fail "lost" 0) :: List.replicate 5 (.answer .ok))
      (numberLoad.runner.execute smallBatches) registeredWorld).map (fun p =>
      (p.1, p.2.store.runs.map (fun row => (row.status, row.rowsRead, row.rowsWritten)),
        (p.2.db.tables ⟨"dbo", "t"⟩).map List.length)) =
      some (some "lost", [(.failed, 0, 1)], some 1) := by decide +kernel
  obtain ⟨⟨_, w'⟩, hx, hends⟩ := Option.map_eq_some_iff.1 heval
  obtain ⟨rfl, hends⟩ := Prod.mk.inj hends
  obtain ⟨hrows, hsink⟩ := Prod.mk.inj hends
  exact ⟨_, w', Machine.Runs.of_exec hx, hrows, hsink⟩

end

end DataLoader
