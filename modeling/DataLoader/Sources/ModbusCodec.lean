import DataLoader.Sources.Modbus

/-!
# Byte and word order of Modbus registers

What `readRegisters` makes of the bytes on the wire, against the value that
stands there. The client turns each two-byte group into a register in the byte
order that `SetEncoding` was given; `readRegisters` writes the registers most
significant byte first, reverses the words for `low_first`, and `decodeNumeric`
then applies the byte order once more.

* `decodeRegisters_eq`: with `byte_order` little the value is read backwards.
* `decodeRegisters_iff`: the value is right exactly if `byte_order` is big or its
  bytes read the same backwards.
-/

namespace DataLoader

open Codec

/-- The values of `ModbusTag.ByteOrder`. -/
def Endianness.name : Endianness → String
  | .big => "big"
  | .little => "little"

/-- The values of `ModbusTag.WordOrder`. -/
def WordOrder.name : WordOrder → String
  | .highFirst => "high_first"
  | .lowFirst => "low_first"

/-- The numeric values of `ModbusTag.DataType`. -/
inductive NumType
  | int16
  | uint16
  | int32
  | uint32
  | int64
  | uint64
  | float32
  | float64
  deriving DecidableEq, Repr

namespace NumType

def name : NumType → String
  | .int16 => "int16"
  | .uint16 => "uint16"
  | .int32 => "int32"
  | .uint32 => "uint32"
  | .int64 => "int64"
  | .uint64 => "uint64"
  | .float32 => "float32"
  | .float64 => "float64"

/-- The number of registers that a value of the type takes. -/
def registers : NumType → ℕ
  | .int16 | .uint16 => 1
  | .int32 | .uint32 | .float32 => 2
  | .int64 | .uint64 | .float64 => 4

/-- The number or bit pattern with the given bits. -/
def raw : NumType → ℕ → RawNumber
  | .int16 => Modbus.signed 16
  | .int32 => Modbus.signed 32
  | .int64 => Modbus.signed 64
  | .uint16 | .uint32 | .uint64 => fun v => .int v
  | .float32 => fun v => .float32 (UInt32.ofNat v)
  | .float64 => fun v => .float64 (UInt64.ofNat v)

end NumType

/-- The state of `mb.ModbusClient` that its reads depend on, and whether its
    connection is broken. -/
structure ModbusClient where
  unit : UInt8 := 1
  endianness : Endianness := .big
  wordOrder : WordOrder := .highFirst
  broken : Bool := false
  deriving DecidableEq, Repr

namespace ModbusClient

/-- `SetEncoding`. -/
def setEncoding (c : ModbusClient) (e : Endianness) (w : WordOrder) : ModbusClient :=
  { c with endianness := e, wordOrder := w }

/-- `ReadRegisters` of a payload: each two-byte group in the byte order that was
    set. The word order is not used. -/
def registers (c : ModbusClient) (payload : List UInt8) : List UInt16 :=
  (words payload).map fun w =>
    match c.endianness with
    | .big => UInt16.ofNat (w.1.toNat * 256 + w.2.toNat)
    | .little => UInt16.ofNat (w.2.toNat * 256 + w.1.toNat)

/-- What is assumed of a `ReadRegisters` of the library. -/
def Reads (readRegisters : ModbusClient → List UInt8 → List UInt16) : Prop :=
  ∀ c payload, readRegisters c payload = c.registers payload

end ModbusClient

namespace Modbus

/-! ## The value on the wire -/

/-- The bytes of a word, the most significant first. -/
def orderBytes : Endianness → UInt8 × UInt8 → UInt8 × UInt8
  | .big, w => w
  | .little, w => (w.2, w.1)

/-- The words of a value, the most significant first. -/
def orderWords : WordOrder → List (UInt8 × UInt8) → List (UInt8 × UInt8)
  | .highFirst, ws => ws
  | .lowFirst, ws => ws.reverse

/-- The bytes of the value on the wire, the most significant first. -/
def wireBytes (bo : Endianness) (wo : WordOrder) (payload : List UInt8) : List UInt8 :=
  unwords (orderWords wo ((words payload).map (orderBytes bo)))

/-- The value whose words stand on the wire in word order `wo`, the bytes of each in
    byte order `bo`. -/
def wireValue (bo : Endianness) (wo : WordOrder) (payload : List UInt8) : ℕ :=
  ofBytes (wireBytes bo wo payload)

theorem length_wireBytes (bo : Endianness) (wo : WordOrder) (payload : List UInt8) :
    (wireBytes bo wo payload).length = 2 * (payload.length / 2) := by
  cases wo <;> simp [wireBytes, orderWords, length_words]

/-! ## What the code reads -/

/-- The bytes of a register, as `PutUint16` writes them. -/
theorem register_bytes (hi lo : UInt8) :
    (UInt16.ofNat (hi.toNat * 256 + lo.toNat) >>> 8).toUInt8 = hi ∧
      (UInt16.ofNat (hi.toNat * 256 + lo.toNat)).toUInt8 = lo := by
  have hhi := hi.toNat_lt
  have hlo := lo.toNat_lt
  have hval : (UInt16.ofNat (hi.toNat * 256 + lo.toNat)).toNat = hi.toNat * 256 + lo.toNat := by
    rw [UInt16.toNat_ofNat']
    omega
  constructor
  · rw [← UInt8.toNat_inj, UInt16.toNat_toUInt8, UInt16.toNat_shiftRight, hval]
    have hshift : (8 : UInt16).toNat % 16 = 8 := rfl
    rw [hshift, Nat.shiftRight_eq_div_pow]
    omega
  · rw [← UInt8.toNat_inj, UInt16.toNat_toUInt8, hval]
    omega

theorem putRegisters_registers (c : ModbusClient) (payload : List UInt8) :
    putRegisters (c.registers payload) =
      unwords ((words payload).map (orderBytes c.endianness)) := by
  unfold putRegisters ModbusClient.registers unwords
  rw [List.flatMap_map, List.flatMap_map]
  refine List.flatMap_congr fun w _ => ?_
  cases c.endianness with
  | big =>
    obtain ⟨hhi, hlo⟩ := register_bytes w.1 w.2
    simp only [orderBytes, hhi, hlo]
  | little =>
    obtain ⟨hhi, hlo⟩ := register_bytes w.2 w.1
    simp only [orderBytes, hhi, hlo]

/-- The loop of `swapWords` takes the words in reverse. -/
theorem swapWords_unwords (ws : List (UInt8 × UInt8)) :
    swapWords (unwords ws) = unwords ws.reverse := by
  have hhalf : 2 * ws.length / 2 = ws.length := by omega
  have heven : 2 * ws.length % 2 = 0 := by omega
  have hrange : ws.reverse =
      (List.range ws.length).map fun i => ws.getD (ws.length - 1 - i) (0, 0) := by
    apply List.ext_getElem
    · simp
    · intro i hi _
      have hlt : ws.length - 1 - i < ws.length := by
        have hpos : i < ws.length := by simpa using hi
        omega
      rw [List.getElem_reverse, List.getElem_map, List.getElem_range]
      simp [hlt]
  unfold swapWords
  simp only [length_unwords, hhalf, heven, List.replicate_zero, List.append_nil]
  rw [hrange]
  unfold unwords
  rw [List.flatMap_map]
  refine List.flatMap_congr fun i hi => ?_
  have hlt : ws.length - 1 - i < ws.length := by
    have hpos := List.mem_range.1 hi
    omega
  obtain ⟨h₁, h₂⟩ := getD_unwords ws hlt
  have hget : ws.getD (ws.length - 1 - i) (0, 0) = ws.get ⟨_, hlt⟩ := by simp [hlt]
  rw [hget]
  exact congrArg₂ (fun x y => [x, y]) h₁ h₂

/-- The bytes that `readRegisters` decodes are those of the value on the wire. -/
theorem buffer_eq (bo : Endianness) (wo : WordOrder) (payload : List UInt8) (c : ModbusClient)
    (hc : c.endianness = bo) :
    (if (wo == .lowFirst) && decide (2 ≤ (c.registers payload).length) then
        swapWords (putRegisters (c.registers payload))
      else putRegisters (c.registers payload)) = wireBytes bo wo payload := by
  rw [putRegisters_registers, hc]
  have hlen : (c.registers payload).length = ((words payload).map (orderBytes bo)).length := by
    simp [ModbusClient.registers]
  rw [hlen]
  generalize hws : (words payload).map (orderBytes bo) = ws
  unfold wireBytes
  rw [hws]
  cases wo with
  | highFirst => rfl
  | lowFirst =>
    split_ifs with hcond
    · exact swapWords_unwords ws
    · -- a single word is its own reverse
      have hshort : ws.length ≤ 1 := by
        simp at hcond
        omega
      match ws, hshort with
      | [], _ => rfl
      | [w], _ => rfl

theorem decodeCase_eq {name : String} {n : ℕ} {le : Bool} {buf : List UInt8}
    {conv : ℕ → RawNumber} (hlen : buf.length = n) :
    decodeCase name n le buf conv = .ok (conv (ofBytes (if le then buf.reverse else buf))) := by
  subst hlen
  unfold decodeCase uintN
  rw [List.take_length, if_neg (Nat.lt_irrefl _)]
  cases le <;> rfl

/-- The number of a type determines its bits. -/
theorem raw_inj {ty : NumType} {a b : ℕ} (ha : a < 256 ^ (2 * ty.registers))
    (hb : b < 256 ^ (2 * ty.registers)) (h : ty.raw a = ty.raw b) : a = b := by
  cases ty with
  | int16 | int32 | int64 =>
    have hbits := BitVec.toInt_inj.1 (RawNumber.int.inj h)
    have hnat := congrArg BitVec.toNat hbits
    simp only [BitVec.toNat_ofNat, NumType.registers] at hnat ha hb
    omega
  | uint16 | uint32 | uint64 => exact Int.ofNat.inj (RawNumber.int.inj h)
  | float32 =>
    have hnat := congrArg UInt32.toNat (RawNumber.float32.inj h)
    simp only [UInt32.toNat_ofNat', NumType.registers] at hnat ha hb
    omega
  | float64 =>
    have hnat := congrArg UInt64.toNat (RawNumber.float64.inj h)
    simp only [UInt64.toNat_ofNat', NumType.registers] at hnat ha hb
    omega

section

variable [GoText]

theorem equalFold_little (bo : Endianness) :
    GoText.equalFold bo.name "little" = decide (bo = .little) := by
  cases bo <;> rw [GoText.equalFold_ascii _ _ rfl rfl] <;> rfl

theorem equalFold_lowFirst (wo : WordOrder) :
    GoText.equalFold wo.name "low_first" = (wo == .lowFirst) := by
  cases wo <;> rw [GoText.equalFold_ascii _ _ rfl rfl] <;> rfl

theorem endianness_name (bo : Endianness) : endianness bo.name = bo := by
  unfold endianness
  rw [equalFold_little]
  cases bo <;> rfl

/-- A request without a quantity, or with that of the type, is for the registers of
    the type. -/
theorem quantityFor_eq {ty : NumType} {dataType : String} {quantity : UInt16}
    (hty : GoText.toLower dataType = ty.name)
    (hq : quantity = 0 ∨ quantity.toNat = ty.registers) :
    (quantityFor dataType quantity).toNat = ty.registers := by
  unfold quantityFor
  rw [hty]
  rcases hq with rfl | hq
  · cases ty <;> rfl
  · have hpos : quantity > 0 := by
      rw [gt_iff_lt, UInt16.lt_iff_toNat_lt, hq]
      cases ty <;> decide
    rw [if_pos hpos, hq]

variable [GoLib]

theorem decodeRaw_eq {ty : NumType} {dataType : String} (bo : Endianness) {buf : List UInt8}
    (hty : GoText.toLower dataType = ty.name) (hlen : buf.length = 2 * ty.registers) :
    decodeRaw buf dataType bo.name =
      .ok (ty.raw (ofBytes (if bo = .little then buf.reverse else buf))) := by
  unfold decodeRaw
  rw [equalFold_little, hty]
  cases ty <;> simp only [NumType.name, String.reduceEq, if_false, if_true] <;>
    refine (decodeCase_eq hlen).trans ?_ <;> cases bo <;> rfl

/-- What `readRegisters` reads: the value on the wire, with its bytes backwards if
    the byte order is little. -/
theorem decodeRegisters_eq {tag : ModbusPoint} {ty : NumType} {bo : Endianness} {wo : WordOrder}
    {payload : List UInt8} (c : ModbusClient) (hty : GoText.toLower tag.dataType = ty.name)
    (hbo : tag.byteOrder = bo.name) (hwo : tag.wordOrder = wo.name)
    (hlen : payload.length = 2 * ty.registers) :
    decodeRegisters tag
        ((c.setEncoding (endianness tag.byteOrder) (wordOrder tag.wordOrder)).registers payload) =
      .ok (ty.raw (ofBytes (if bo = .little then (wireBytes bo wo payload).reverse
        else wireBytes bo wo payload))) := by
  have hc : (c.setEncoding (endianness tag.byteOrder) (wordOrder tag.wordOrder)).endianness = bo := by
    rw [hbo]
    exact endianness_name bo
  unfold decodeRegisters
  simp only [hwo, hbo, equalFold_lowFirst]
  rw [hbo, hwo] at hc
  rw [buffer_eq bo wo payload _ hc]
  refine decodeRaw_eq bo hty ?_
  rw [length_wireBytes, hlen]
  omega

/-- The number that `readRegisters` decodes is the one on the wire exactly if the
    byte order is big or the bytes of the number read the same backwards. -/
theorem decodeRegisters_iff {readRegisters : ModbusClient → List UInt8 → List UInt16}
    (hread : ModbusClient.Reads readRegisters) (tag : ModbusPoint) (ty : NumType) (bo : Endianness)
    (wo : WordOrder) (payload : List UInt8) (c : ModbusClient) (hty : GoText.toLower tag.dataType = ty.name)
    (hbo : tag.byteOrder = bo.name) (hwo : tag.wordOrder = wo.name)
    (hq : tag.quantity = 0 ∨ tag.quantity.toNat = ty.registers)
    (hlen : payload.length = 2 * (quantityFor tag.dataType tag.quantity).toNat) :
    decodeRegisters tag
        (readRegisters (c.setEncoding (endianness tag.byteOrder) (wordOrder tag.wordOrder)) payload) =
      .ok (ty.raw (wireValue bo wo payload)) ↔
    bo = .big ∨ (wireBytes bo wo payload).reverse = wireBytes bo wo payload := by
  rw [quantityFor_eq hty hq] at hlen
  rw [hread, decodeRegisters_eq c hty hbo hwo hlen]
  have hbytes : (wireBytes bo wo payload).length = 2 * ty.registers := by
    rw [length_wireBytes, hlen]
    omega
  cases bo with
  | big => simp [wireValue]
  | little =>
    rw [if_pos rfl]
    constructor
    · intro heq
      refine .inr (ofBytes_inj (by simp) (raw_inj ?_ ?_ (Except.ok.inj heq)))
      · have hlt := ofBytes_lt (wireBytes .little wo payload).reverse
        rwa [List.length_reverse, hbytes] at hlt
      · have hlt := ofBytes_lt (wireBytes .little wo payload)
        rwa [hbytes] at hlt
    · rintro (hbig | hpal)
      · cases hbig
      · rw [hpal, wireValue]

end

section

attribute [local instance] GoText.ascii GoLib.ascii

/-- A tag of one number without scaling. -/
def numberTag (dataType byteOrder wordOrder : String) : ModbusPoint :=
  ⟨"", "level", 1, "holding", 100, 0, dataType, byteOrder, wordOrder, 0, 0⟩

/-- The number 0x12345678 with its low word first. -/
theorem lowFirst_number_decodes :
    wireValue .big .lowFirst [0x56, 0x78, 0x12, 0x34] = 0x12345678 ∧
    decodeRegisters (numberTag "int32" "big" "low_first")
        ((({} : ModbusClient).setEncoding (endianness "big") (wordOrder "low_first")).registers
          [0x56, 0x78, 0x12, 0x34]) =
      .ok (NumType.int32.raw (wireValue .big .lowFirst [0x56, 0x78, 0x12, 0x34])) :=
  ⟨by decide, (decodeRegisters_iff (fun _ _ => rfl) (numberTag "int32" "big" "low_first") .int32 .big
    .lowFirst [0x56, 0x78, 0x12, 0x34] {} (by decide +kernel) rfl rfl (.inl rfl)
    (by decide +kernel)).2 (.inl rfl)⟩

/-- The number 1 in little byte order is read as 256. -/
theorem little_number_reads_backwards :
    wireValue .little .highFirst [0x01, 0x00] = 1 ∧
    decodeRegisters (numberTag "int16" "little" "high_first")
        ((({} : ModbusClient).setEncoding (endianness "little") (wordOrder "high_first")).registers
          [0x01, 0x00]) = .ok (.int 256) := by
  decide +kernel

end

end Modbus

end DataLoader
