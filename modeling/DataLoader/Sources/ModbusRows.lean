import DataLoader.Codec.Buffer
import DataLoader.Sources.Handed
import DataLoader.Sources.Modbus

/-!
# The rows of a Modbus poll

The code fills one mutable row along the branches of `readTagInto` and indexes into byte
buffers. `fillTag` is the loop body as it is written, with `none` for a panic; it computes
the row that `readTag` builds from the reading (`fillTag_eq`).

* `decodeRegisters_inBounds`: no length of a register response makes an index of the
  decoding run out of range.
* `rows_well_formed`: one row for each tag, from the calls of that tag alone, with a value
  or the text of an error.
-/

namespace DataLoader

open Effects Codec

/-- `row[name] = v`. -/
def Row.set (row : Row) (name : String) (v : Value) : Row :=
  if row.any (·.1 == name) then row.map fun kv => if kv.1 == name then (name, v) else kv
  else row ++ [(name, v)]

namespace Modbus

section

variable [GoText] [GoLib]

/-! ## Decoding with bounds checks -/

/-- The bytes of the registers (lines 228–231). -/
def putRegistersAt (regs : List UInt16) : Option (List UInt8) :=
  fillPairs (fun i => regs[i]?.map fun r : UInt16 => ((r >>> 8).toUInt8, r.toUInt8)) regs.length
    (List.replicate (regs.length * 2) 0)

/-- `swapWords` (lines 361–370). -/
def swapWordsAt (buf : List UInt8) : Option (List UInt8) :=
  let words := buf.length / 2
  fillPairs (fun i => do
      let srcHi := (words - 1 - i) * 2
      return (← buf[srcHi]?, ← buf[srcHi + 1]?)) words
    (List.replicate buf.length 0)

/-- `binary.LittleEndian.UintN` or `binary.BigEndian.UintN`, which index the first `n`
    bytes. -/
def uintAt (le : Bool) (n : ℕ) (buf : List UInt8) : Option ℕ :=
  (readFirst n buf).map fun bs => if le then ofBytes bs.reverse else ofBytes bs

/-- One case of `decodeNumeric`. -/
def decodeCaseAt (name : String) (n : ℕ) (le : Bool) (buf : List UInt8) (conv : ℕ → RawNumber) :
    Option (Except Err RawNumber) :=
  if buf.length < n then some (.error (name ++ " needs " ++ toString n ++ " bytes"))
  else (uintAt le n buf).map fun v => .ok (conv v)

/-- `decodeNumeric` (lines 249–342) before the widening to `float64`. -/
def decodeRawAt (buf : List UInt8) (dataType byteOrder : String) : Option (Except Err RawNumber) :=
  let le := GoText.equalFold byteOrder "little"
  let t := GoText.toLower dataType
  if t = "int16" then decodeCaseAt "int16" 2 le buf (signed 16)
  else if t = "uint16" then decodeCaseAt "uint16" 2 le buf fun v => .int v
  else if t = "int32" then decodeCaseAt "int32" 4 le buf (signed 32)
  else if t = "uint32" then decodeCaseAt "uint32" 4 le buf fun v => .int v
  else if t = "int64" then decodeCaseAt "int64" 8 le buf (signed 64)
  else if t = "uint64" then decodeCaseAt "uint64" 8 le buf fun v => .int v
  else if t = "float32" then decodeCaseAt "float32" 4 le buf fun v => .float32 (UInt32.ofNat v)
  else if t = "float64" then decodeCaseAt "float64" 8 le buf fun v => .float64 (UInt64.ofNat v)
  else some (.error ("unsupported data type " ++ GoLib.quote dataType))

/-- The decoding of a register response (lines 228–236). -/
def decodeRegistersAt (tag : ModbusPoint) (regs : List UInt16) : Option (Except Err RawNumber) := do
  let buf ← putRegistersAt regs
  let buf ← if GoText.equalFold tag.wordOrder "low_first" && decide (2 ≤ regs.length) then
      swapWordsAt buf
    else some buf
  decodeRawAt buf tag.dataType tag.byteOrder

omit [GoText] [GoLib] in
theorem putRegistersAt_eq (regs : List UInt16) : putRegistersAt regs = some (putRegisters regs) := by
  have hregs : (List.range regs.length).map (fun i => regs.getD i 0) = regs := by
    refine List.ext_getElem (by simp) fun i _ hi => ?_
    simp [List.getElem?_eq_getElem hi]
  have hread : ∀ i < regs.length,
      (regs[i]?.map fun r : UInt16 => ((r >>> 8).toUInt8, r.toUInt8)) =
        some ((regs.getD i 0 >>> 8).toUInt8, (regs.getD i 0).toUInt8) := by
    intro i hi
    simp [List.getElem?_eq_getElem hi]
  rw [putRegistersAt, fillPairs_eq hread (by simp), putRegisters, List.drop_replicate, Nat.sub_self,
    List.replicate_zero, List.append_nil]
  conv_rhs => rw [← hregs, List.flatMap_map]

omit [GoText] [GoLib] in
theorem swapWordsAt_eq (buf : List UInt8) : swapWordsAt buf = some (swapWords buf) := by
  have hread : ∀ i < buf.length / 2, (do
      let srcHi := (buf.length / 2 - 1 - i) * 2
      return (← buf[srcHi]?, ← buf[srcHi + 1]?) : Option (UInt8 × UInt8)) =
        some (buf.getD ((buf.length / 2 - 1 - i) * 2) 0,
          buf.getD ((buf.length / 2 - 1 - i) * 2 + 1) 0) := by
    intro i hi
    have hhi : (buf.length / 2 - 1 - i) * 2 + 1 < buf.length := by omega
    simp [List.getElem?_eq_getElem hhi, List.getElem?_eq_getElem (Nat.lt_of_succ_lt hhi)]
  have hrest : buf.length - buf.length / 2 * 2 = buf.length % 2 := by omega
  unfold swapWordsAt
  dsimp only
  rw [fillPairs_eq hread (by simp; omega), swapWords, List.drop_replicate, hrest]

omit [GoText] [GoLib] in
theorem decodeCaseAt_eq (name : String) (n : ℕ) (le : Bool) (buf : List UInt8)
    (conv : ℕ → RawNumber) :
    decodeCaseAt name n le buf conv = some (decodeCase name n le buf conv) := by
  unfold decodeCaseAt decodeCase
  split_ifs with hlen
  · rfl
  · rw [uintAt, readFirst_eq (by omega)]
    rfl

theorem decodeRawAt_eq (buf : List UInt8) (dataType byteOrder : String) :
    decodeRawAt buf dataType byteOrder = some (decodeRaw buf dataType byteOrder) := by
  unfold decodeRawAt decodeRaw
  simp only [decodeCaseAt_eq, apply_ite some]

/-- Whatever the length of the response, the decoding stays within its buffers. -/
theorem decodeRegisters_inBounds (tag : ModbusPoint) (regs : List UInt16) :
    decodeRegistersAt tag regs = some (decodeRegisters tag regs) := by
  unfold decodeRegistersAt decodeRegisters
  rw [putRegistersAt_eq]
  dsimp only [Option.bind_eq_bind, Option.bind_some]
  split_ifs
  · rw [swapWordsAt_eq]
    exact decodeRawAt_eq ..
  · exact decodeRawAt_eq ..

/-! ## Filling the row -/

/-- The row of a tag before it is read (lines 124–132). -/
def blankRow (tag : ModbusPoint) (pollTS : Time) : Row :=
  [("correlation_id", nullIfEmpty tag.correlationID), ("tag_name", .ofString tag.tagName),
    ("ts", .time pollTS), ("value_num", .null), ("value_bool", .null), ("value_text", .null),
    ("quality", .ofString "good")]

/-- `row["quality"] = "bad"` and `row["value_text"] = msg`. -/
def markBad (row : Row) (msg : Err) : Row :=
  (row.set "quality" (.ofString "bad")).set "value_text" (.ofString msg)

variable [GoFloat]

/-- `readRegisters` (lines 213–247): the row and the error. -/
def fillRegisters (tag : ModbusPoint) (row : Row) :
    Prog (readSig modbusSig) (Option (Row × Option Err)) := do
  let type : RegType := if GoText.toLower tag.registerType = "input" then .input else .holding
  match ← perform (.readRegisters tag.address (quantityFor tag.dataType tag.quantity) type) with
  | (.error e : Except Err (List UInt16)) => return some (row, some e)
  | .ok regs =>
    match decodeRegistersAt tag regs with
    | none => return none
    | some (.error e) => return some (row, some e)
    | some (.ok raw) =>
      let scaled := GoFloat.mulAdd (widen raw) tag.scale tag.offset
      if isNaNOrInf scaled then return some (row, some "decoded value is NaN/Inf")
      else return some (row.set "value_num" (.float64 scaled), none)

/-- `readTagInto` (lines 187–211). -/
def fillTagInto (tag : ModbusPoint) (row : Row) :
    Prog (readSig modbusSig) (Option (Row × Option Err)) := do
  let t := GoText.toLower tag.registerType
  if t = "coil" then
    match ← perform (.readCoil tag.address) with
    | (.error e : Except Err Bool) => return some (row, some e)
    | .ok b => return some (row.set "value_bool" (.bool b), none)
  else if t = "discrete" then
    match ← perform (.readDiscreteInput tag.address) with
    | (.error e : Except Err Bool) => return some (row, some e)
    | .ok b => return some (row.set "value_bool" (.bool b), none)
  else if t = "holding" ∨ t = "input" then fillRegisters tag row
  else return some (row, some ("unknown register type " ++ GoLib.quote tag.registerType))

/-- The body of the loop (lines 124–165): the row that is appended and whether it counts as
    read, or `none` for a panic. -/
def fillTag (tag : ModbusPoint) (pollTS : Time) :
    Prog (readSig modbusSig) (Option (Row × Bool)) := do
  let row := blankRow tag pollTS
  match ← perform (.setUnitId tag.unitID) with
  | (some e : Option Err) => return some (markBad row ("set unit: " ++ e), false)
  | none =>
    match ← perform (.setEncoding (endianness tag.byteOrder) (wordOrder tag.wordOrder)) with
    | (some e : Option Err) => return some (markBad row ("set encoding: " ++ e), false)
    | none =>
      match ← fillTagInto tag row with
      | none => return none
      | some (row, some e) => return some (markBad row e, true)
      | some (row, none) => return some (row, true)

/-- What a reading leaves in the row, and the error. -/
def fill (row : Row) : Except Err TagReading → Row × Option Err
  | .ok (.num bits) => (row.set "value_num" (.float64 bits), none)
  | .ok (.bool b) => (row.set "value_bool" (.bool b), none)
  | .error e => (row, some e)

theorem fillRegisters_eq (tag : ModbusPoint) (row : Row) :
    fillRegisters tag row = readRegisters tag >>= fun reading => .ret (some (fill row reading)) := by
  refine congrArg (Prog.call _) (funext fun res => ?_)
  cases res with
  | error e => rfl
  | ok regs =>
    dsimp only [Prog.bind]
    rw [decodeRegisters_inBounds]
    cases decodeRegisters tag regs with
    | error e => rfl
    | ok raw =>
      dsimp only
      split_ifs <;> rfl

theorem fillTagInto_eq (tag : ModbusPoint) (row : Row) :
    fillTagInto tag row = readTagInto tag >>= fun reading => .ret (some (fill row reading)) := by
  unfold fillTagInto readTagInto
  dsimp only
  split_ifs
  · refine congrArg (Prog.call _) (funext fun res => ?_)
    cases res <;> rfl
  · refine congrArg (Prog.call _) (funext fun res => ?_)
    cases res <;> rfl
  · exact fillRegisters_eq tag row
  · rfl

/-- The loop body computes the row of the reading, and does not panic. -/
theorem fillTag_eq (tag : ModbusPoint) (pollTS : Time) :
    fillTag tag pollTS = readTag tag pollTS >>= fun rc => .ret (some rc) := by
  refine congrArg (Prog.call _) (funext fun e => ?_)
  cases e with
  | some e => rfl
  | none =>
    refine congrArg (Prog.call _) (funext fun e => ?_)
    cases e with
    | some e => rfl
    | none =>
      dsimp only [Prog.bind]
      rw [fillTagInto_eq, Prog.bind_assoc]
      refine Eq.trans (congrArg (readTagInto tag >>= ·) (funext fun reading => ?_))
        (Prog.bind_assoc ..).symm
      rcases reading with e | b | bits <;> rfl

/-! ## One tag -/

/-- What reading a tag comes to. -/
def outcome (tag : ModbusPoint) : Prog (readSig modbusSig) (Except Err TagReading) := do
  match ← perform (.setUnitId tag.unitID) with
  | (some e : Option Err) => return .error ("set unit: " ++ e)
  | none =>
    match ← perform (.setEncoding (endianness tag.byteOrder) (wordOrder tag.wordOrder)) with
    | (some e : Option Err) => return .error ("set encoding: " ++ e)
    | none => readTagInto tag

/-- The calls that read a point. -/
def readsPoint : ReadCall modbusSig → Bool
  | .driver (.readCoil _) | .driver (.readDiscreteInput _) | .driver (.readRegisters ..) => true
  | _ => false

/-- Whether the client refused to be set up for a tag. -/
def setFailed : Step (readSig modbusSig) → Bool
  | ⟨.driver (.setUnitId _), (some _ : Option Err)⟩ => true
  | ⟨.driver (.setEncoding _ _), (some _ : Option Err)⟩ => true
  | _ => false

variable {tag : ModbusPoint} {pollTS : Time} {tr : List (Step (readSig modbusSig))}

omit [GoText] [GoLib] [GoFloat] in
theorem any_setFailed_eq_false (h : ∀ s ∈ tr, readsPoint s.1 = true) : tr.any setFailed = false := by
  refine List.any_eq_false.2 fun s hs => ?_
  obtain ⟨c, r⟩ := s
  have hc : readsPoint c = true := h _ hs
  cases c with
  | emit b => cases hc
  | driver c => cases c <;> first | exact Bool.false_ne_true | cases hc

theorem readTagInto_reads (tag : ModbusPoint) :
    (readTagInto tag).Calls fun c => readsPoint c = true := by
  have hregisters : (readRegisters tag).Calls fun c => readsPoint c = true := by
    refine ⟨rfl, fun res => ?_⟩
    cases res with
    | error e => trivial
    | ok regs =>
      dsimp only [Prog.bind]
      cases decodeRegisters tag regs with
      | error e => trivial
      | ok raw =>
        dsimp only
        split_ifs <;> trivial
  unfold readTagInto
  dsimp only
  split_ifs
  · refine ⟨rfl, fun res => ?_⟩
    cases res <;> trivial
  · refine ⟨rfl, fun res => ?_⟩
    cases res <;> trivial
  · exact hregisters
  · trivial

/-- The calls of the loop body: it hands nothing over and does not ask for the list of tags
    again. -/
def Polls (c : ReadCall modbusSig) : Prop :=
  ∃ m, c = .driver m ∧ ∀ id, m ≠ ModbusCall.listModbusTags id

theorem fillTag_polls (tag : ModbusPoint) (pollTS : Time) : (fillTag tag pollTS).Calls Polls := by
  have hpolls : ∀ c : ReadCall modbusSig, readsPoint c = true → Polls c := by
    intro c hc
    cases c with
    | emit b => cases hc
    | driver m =>
      refine ⟨m, rfl, ?_⟩
      rintro id rfl
      cases hc
  rw [fillTag_eq]
  refine Prog.Calls.bind ⟨⟨_, rfl, nofun⟩, fun e => ?_⟩ fun _ => trivial
  cases e with
  | some e => trivial
  | none =>
    refine ⟨⟨_, rfl, nofun⟩, fun e => ?_⟩
    cases e with
    | some e => trivial
    | none => exact ((readTagInto_reads tag).mono hpolls).bind fun _ => trivial

theorem readTag_path {row : Row} {counted : Bool} (h : (readTag tag pollTS).Path tr (row, counted)) :
    ∃ reading, (outcome tag).Path tr reading ∧ row = tagRow tag pollTS reading ∧
      counted = !tr.any setFailed := by
  obtain ⟨e, tr₁, rfl, h₁⟩ := Prog.Path.of_perform h
  cases e with
  | some e =>
    obtain ⟨rfl, rfl, rfl⟩ := Prog.Path.of_ret_pair h₁
    exact ⟨_, .call (.ret _), rfl, rfl⟩
  | none =>
    obtain ⟨e, tr₂, rfl, h₂⟩ := Prog.Path.of_perform h₁
    cases e with
    | some e =>
      obtain ⟨rfl, rfl, rfl⟩ := Prog.Path.of_ret_pair h₂
      exact ⟨_, .call (.call (.ret _)), rfl, rfl⟩
    | none =>
      obtain ⟨reading, tr₃, tr₄, h₃, h₄, rfl⟩ := Prog.Path.of_bind h₂
      obtain ⟨rfl, rfl, rfl⟩ := Prog.Path.of_ret_pair h₄
      rw [List.append_nil]
      refine ⟨reading, .call (.call h₃), rfl, ?_⟩
      have hreads := any_setFailed_eq_false (h₃.calls (readTagInto_reads tag))
      simp [hreads, setFailed]

/-- What the row of a tag is, where `part` are the calls that the loop body made for it. -/
structure TagRow (pollTS : Time) (tag : ModbusPoint) (part : List (Step (readSig modbusSig)))
    (row : Row) : Prop where
  own : ∃ counted, (fillTag tag pollTS).Path part (some (row, counted))
  name : row.get "tag_name" = .ofString tag.tagName
  either : row.get "quality" = .ofString "good" ∨ row.get "quality" = .ofString "bad"
  good : row.get "quality" = .ofString "good" ↔
    (row.get "value_num" ≠ .null ∧ row.get "value_bool" = .null ∨
      row.get "value_num" = .null ∧ row.get "value_bool" ≠ .null) ∧ row.get "value_text" = .null
  bad : row.get "quality" = .ofString "bad" ↔
    row.get "value_num" = .null ∧ row.get "value_bool" = .null ∧
      ∃ e, (outcome tag).Path part (.error e) ∧ row.get "value_text" = .ofString e

theorem tagRow_wellFormed {row : Row} {counted : Bool}
    (h : (readTag tag pollTS).Path tr (row, counted)) : TagRow pollTS tag tr row := by
  have hown : (fillTag tag pollTS).Path tr (some (row, counted)) := by
    rw [fillTag_eq]
    simpa using h.bind (f := fun rc => .ret (some rc)) (.ret (some (row, counted)))
  obtain ⟨reading, hpath, rfl, -⟩ := readTag_path h
  have hne : Value.ofString "good" ≠ .ofString "bad" := by decide
  rcases reading with e | b | bits
  · refine ⟨⟨_, hown⟩, rfl, .inr rfl, ?_, ?_⟩
    · exact ⟨fun hgood => absurd hgood.symm hne, fun hset => by cases hset.2⟩
    · exact ⟨fun _ => ⟨rfl, rfl, e, hpath, rfl⟩, fun _ => rfl⟩
  · refine ⟨⟨_, hown⟩, rfl, .inl rfl, ?_, ?_⟩
    · exact ⟨fun _ => ⟨.inr ⟨rfl, nofun⟩, rfl⟩, fun _ => rfl⟩
    · exact ⟨fun hbad => absurd hbad hne, fun hnull => by cases hnull.2.1⟩
  · refine ⟨⟨_, hown⟩, rfl, .inl rfl, ?_, ?_⟩
    · exact ⟨fun _ => ⟨.inl ⟨nofun, rfl⟩, rfl⟩, fun _ => rfl⟩
    · exact ⟨fun hbad => absurd hbad hne, fun hnull => by cases hnull.1⟩

/-! ## All tags -/

/-- The loop makes the calls of one tag after those of another, and appends one row for
    each. The rows of tags that could not be set up are not counted. -/
theorem readTags_path {tags : List ModbusPoint} {rows rows' : List Row} {n n' : Int}
    (h : (readTags pollTS tags rows n).Path tr (rows', n')) :
    ∃ parts : List (List (Step (readSig modbusSig)) × Row),
      List.Forall₂ (fun tag p => TagRow pollTS tag p.1 p.2) tags parts ∧
      tr = parts.flatMap (·.1) ∧ rows' = rows ++ parts.map (·.2) ∧
      n' = n + parts.countP fun p => !p.1.any setFailed := by
  induction tags generalizing rows n tr with
  | nil =>
    obtain ⟨rfl, rfl, rfl⟩ := Prog.Path.of_ret_pair h
    exact ⟨[], .nil, by simp⟩
  | cons tag tags ih =>
    obtain ⟨⟨row, counted⟩, tr₁, tr₂, h₁, h₂, rfl⟩ := Prog.Path.of_bind h
    obtain ⟨parts, hparts, rfl, rfl, rfl⟩ := ih h₂
    obtain ⟨-, -, -, hcounted⟩ := readTag_path h₁
    refine ⟨(tr₁, row) :: parts, .cons (tagRow_wellFormed h₁) hparts, by simp, by simp, ?_⟩
    rw [List.countP_cons, ← hcounted]
    cases counted <;> simp
    omega

variable {load : LoadConfig} {result : ReadResult} {err : Option Err}

/-- `Read` fails before it has a list of tags, has nothing to do, or polls. -/
inductive Reads (load : LoadConfig) :
    List (Step (readSig modbusSig)) → ReadResult → Option Err → Prop
  | unlisted {tr : List (Step (readSig modbusSig))} {e : Err}
      (htags : ∀ tags, ⟨.driver (.listModbusTags load.loadID), .ok tags⟩ ∉ tr)
      (hhanded : handedRows tr = []) : Reads load tr {} (some e)
  | empty : Reads load [⟨.driver (.listModbusTags load.loadID), .ok []⟩] {} none
  | polled {tags : List ModbusPoint} {pollTS : Time}
      {parts : List (List (Step (readSig modbusSig)) × Row)} {err : Option Err} (hne : tags ≠ [])
      (hparts : List.Forall₂ (fun tag p => TagRow pollTS tag p.1 p.2) tags parts) :
      Reads load (⟨.driver (.listModbusTags load.loadID), .ok tags⟩ :: ⟨.driver .now, pollTS⟩ ::
        (parts.flatMap (·.1) ++
          [⟨.driver (.observeBadQuality load.name (countBad (parts.map (·.2)))), ()⟩,
            ⟨.emit ⟨columns, parts.map (·.2)⟩, err⟩]))
        { rowsRead := parts.countP fun p => !p.1.any setFailed } err

theorem read_path {catalogue : Bool} (h : (read catalogue load).Path tr (result, err)) :
    Reads load tr result err := by
  unfold read at h
  split_ifs at h
  · obtain ⟨rfl, rfl, rfl⟩ := Prog.Path.of_ret_pair h
    exact .unlisted (by simp) rfl
  · obtain ⟨res, tr', rfl, hrest⟩ := Prog.Path.of_perform h
    cases res with
    | error e =>
      obtain ⟨rfl, rfl, rfl⟩ := Prog.Path.of_ret_pair hrest
      refine .unlisted (fun tags hmem => ?_) rfl
      cases List.mem_singleton.1 hmem
    | ok tags =>
      cases tags with
      | nil =>
        obtain ⟨rfl, rfl, rfl⟩ := Prog.Path.of_ret_pair hrest
        exact .empty
      | cons tag tags =>
        obtain ⟨pollTS, tr₁, rfl, h₁⟩ := Prog.Path.of_perform hrest
        obtain ⟨⟨rows, n⟩, tr₂, tr₃, h₂, h₃, rfl⟩ := Prog.Path.of_bind h₁
        obtain ⟨⟨⟩, tr₄, rfl, h₄⟩ := Prog.Path.of_perform h₃
        obtain ⟨e, tr₅, rfl, h₅⟩ := Prog.Path.of_perform h₄
        obtain ⟨rfl, rfl, rfl⟩ := Prog.Path.of_ret_pair h₅
        obtain ⟨parts, hparts, rfl, rfl, rfl⟩ := readTags_path h₂
        simp only [List.nil_append, Int.zero_add]
        exact .polled (by simp) hparts

theorem parts_poll {tags : List ModbusPoint} {parts : List (List (Step (readSig modbusSig)) × Row)}
    (h : List.Forall₂ (fun tag p => TagRow pollTS tag p.1 p.2) tags parts) :
    ∀ s ∈ parts.flatMap (·.1), Polls s.1 := by
  induction h with
  | nil => simp
  | @cons tag p tags parts hrow _ ih =>
    obtain ⟨counted, hpath⟩ := hrow.own
    rw [List.flatMap_cons, List.forall_mem_append]
    exact ⟨hpath.calls (fillTag_polls tag pollTS), ih⟩

theorem handedRows_parts {tags : List ModbusPoint}
    {parts : List (List (Step (readSig modbusSig)) × Row)}
    (h : List.Forall₂ (fun tag p => TagRow pollTS tag p.1 p.2) tags parts)
    (tr : List (Step (readSig modbusSig))) :
    handedRows (parts.flatMap (·.1) ++ tr) = handedRows tr := by
  have hnil : handedRows (parts.flatMap (·.1)) = [] :=
    handedRows_eq_nil fun s hs => (parts_poll h s hs).imp fun _ hm => hm.1
  rw [handedRows_append, hnil, List.nil_append]

/-- Every poll of a load with tags hands over one batch with one row for each tag in order.
    Each row is what the loop body computes from the answers to the calls of its own tag, it
    has a value or the text of the tag's error, and no response makes the decoding index out
    of range. -/
theorem rows_well_formed {catalogue : Bool} (h : (read catalogue load).Path tr (result, err))
    {tags : List ModbusPoint} (htags : ⟨.driver (.listModbusTags load.loadID), .ok tags⟩ ∈ tr)
    (hne : tags ≠ []) :
    ∃ pollTS, ∃ parts : List (List (Step (readSig modbusSig)) × Row),
      handedRows tr = [(parts.map (·.2), err)] ∧
      List.Forall₂ (fun tag p => TagRow pollTS tag p.1 p.2) tags parts ∧
      (∃ before after, tr = before ++ parts.flatMap (·.1) ++ after) ∧
      ∀ tag ∈ tags, ∀ regs, (decodeRegistersAt tag regs).isSome := by
  cases read_path h with
  | unlisted hnone => exact absurd htags (hnone tags)
  | empty =>
    cases List.mem_singleton.1 htags
    exact absurd rfl hne
  | @polled tags' pollTS parts _ _ hparts =>
    obtain rfl : tags = tags' := by
      rcases List.mem_cons.1 htags with heq | hmem
      · cases heq
        rfl
      · have hpolls := parts_poll hparts
        rcases List.mem_cons.1 hmem with heq | hmem
        · cases heq
        rcases List.mem_append.1 hmem with hmem | hmem
        · obtain ⟨m, hm, hlist⟩ := hpolls _ hmem
          cases hm
          exact absurd rfl (hlist load.loadID)
        · rcases List.mem_cons.1 hmem with heq | hmem
          · cases heq
          · cases List.mem_singleton.1 hmem
    refine ⟨pollTS, parts, ?_, hparts, ⟨[_, _], _, rfl⟩, fun tag _ regs => ?_⟩
    · exact handedRows_parts hparts _
    · rw [decodeRegisters_inBounds]
      rfl

end

section

attribute [local instance] GoLib.ascii GoText.ascii GoFloat.finite

/-- A coil and a register of a number. -/
def motorTags : List ModbusPoint :=
  [⟨"", "running", 1, "coil", 0, 0, "", "", "", 1, 0⟩,
    ⟨"", "speed", 1, "holding", 4, 0, "int16", "big", "high_first", 1, 0⟩]

/-- A load of a Modbus source. -/
def motorLoad : LoadConfig :=
  { loadID := 1, name := "motor", objectName := "", mode := loadModeAppend, watermarkColumn := ""
    watermarkType := watermarkNone, lastWatermark := ⟨watermarkNone, ""⟩, batchSize := 0 }

/-- The device answers the register read with no register. -/
def emptyResponse (_ : List (Step (readSig modbusSig))) : (c : ReadCall modbusSig) → c.Ans
  | .driver (.listModbusTags _) => .ok motorTags
  | .driver .now => (0 : Int)
  | .driver (.setUnitId _) => none
  | .driver (.setEncoding ..) => none
  | .driver (.readCoil _) => .ok true
  | .driver (.readDiscreteInput _) => .ok true
  | .driver (.readRegisters ..) => .ok []
  | .driver (.observeBadQuality ..) => ()
  | .emit _ => none

theorem emptyResponse_well_formed :
    ∃ tr result pollTS, ∃ parts : List (List (Step (readSig modbusSig)) × Row),
      (read true motorLoad).Path tr (result, none) ∧ handedRows tr = [(parts.map (·.2), none)] ∧
      List.Forall₂ (fun tag p => TagRow pollTS tag p.1 p.2) motorTags parts := by
  have hpath := (read true motorLoad).path_against emptyResponse []
  obtain ⟨pollTS, parts, hhanded, hrows, -⟩ :=
    rows_well_formed hpath (List.mem_cons_self ..) (by decide)
  exact ⟨_, _, pollTS, parts, hpath, hhanded, hrows⟩

/-- The coil's row is good, and the register's has the text of the error. -/
example : (handedRows ((read true motorLoad).against emptyResponse []).2).map
    (fun d => d.1.map fun row => (row.get "quality", row.get "value_bool", row.get "value_text")) =
    [[(.ofString "good", .bool true, .null),
      (.ofString "bad", .null, .ofString "int16 needs 2 bytes")]] := by
  decide +kernel

end

end Modbus

end DataLoader
