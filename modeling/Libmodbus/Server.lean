/-
Libmodbus/Server.lean

The server without its envelope.  `servePdu` maps a request PDU and a mapping
to a response PDU and a new mapping; header, checksum and request length are
gone.

    buildReply ver be (wrapped be a trailer) = envelope be a ∘ servePdu ver a.pdu

`buildReply_wrapped` proves this for both backends, for every PDU (complete,
truncated or too long) and for every two bytes in the place of the checksum.
On RTU a truncated request can pass for one whose meta fields are present,
because the checksum is counted; it is refused all the same, since the length
it then needs counts the checksum too (`neededLength_wrapped`).

Main results: `modbusReply_wrapped`, the whole of `modbus_reply` in these terms,
and `modbusReply_agrees`, that the two backends give one meaning to a PDU.
-/
import Libmodbus.Frames
import Libmodbus.Reply

namespace Libmodbus

open CSem Wire Posix

variable {σ : Type} {be : Backend}

/-! ### The meaning of a request -/

/-- What the server makes of a request PDU. -/
structure PduReply where
  pdu : List UInt8
  /-- The request frame is sent back, with the protocol id it came with. -/
  echo : Bool
  /-- The link is flushed before the response is sent. -/
  flush : Bool
  mapping : Mapping
  deriving DecidableEq

def exceptionPdu (function exceptionCode : Nat) (toFlush : Bool) (m : Mapping) : PduReply :=
  ⟨[lo (function + 0x80 : Nat), lo exceptionCode], false, toFlush, m⟩

section Serve

/-- The table with `v` in cell `i`. -/
def Table.store {α : Type} (t : Table α) (i : Int) (v : α) : Run (Table α) :=
  t.modify (fun tab => setCell tab i v) length_of_setCell

variable (function : Nat) (pdu : List UInt8) (m : Mapping)

def serveReadBits (isInput : Bool) : Run PduReply := do
  let t := if isInput then m.inputBits else m.bits
  let address ← rdWord pdu 1
  let nb ← rdWord pdu 3
  let mappingAddress ← cint (address - t.start.toInt)
  if nb < 1 ∨ maxReadBits < nb then
    .ok (exceptionPdu function exceptionIllegalDataValue true m)
  else if ← rangeOutside mappingAddress nb t.nb then
    .ok (exceptionPdu function exceptionIllegalDataAddress false m)
  else
    let status ← responseIoStatus t.tab mappingAddress nb
    .ok ⟨lo function :: lo (nb / 8 + (if nb % 8 ≠ 0 then 1 else 0) : Nat) :: status,
      false, false, m⟩

def serveReadRegisters (isInput : Bool) : Run PduReply := do
  let t := if isInput then m.inputRegisters else m.registers
  let address ← rdWord pdu 1
  let nb ← rdWord pdu 3
  let mappingAddress ← cint (address - t.start.toInt)
  if nb < 1 ∨ maxReadRegisters < nb then
    .ok (exceptionPdu function exceptionIllegalDataValue true m)
  else if ← rangeOutside mappingAddress nb t.nb then
    .ok (exceptionPdu function exceptionIllegalDataAddress false m)
  else
    let values ← readRegisters t.tab mappingAddress nb
    .ok ⟨lo function :: lo (2 * nb : Nat) :: values, false, false, m⟩

def serveWriteSingleCoil : Run PduReply := do
  let address ← rdWord pdu 1
  let mappingAddress ← cint (address - m.bits.start.toInt)
  if mappingAddress < 0 ∨ (m.bits.nb : Int) ≤ mappingAddress then
    .ok (exceptionPdu function exceptionIllegalDataAddress false m)
  else if pdu.length ≠ 5 then
    .ok (exceptionPdu function exceptionIllegalDataValue false m)
  else
    let data ← rdWord pdu 3
    if data = 0xFF00 ∨ data = 0 then
      let bits ← m.bits.store mappingAddress (if data ≠ 0 then 1 else 0)
      .ok ⟨pdu, true, false, { m with bits := bits }⟩
    else .ok (exceptionPdu function exceptionIllegalDataValue false m)

def serveWriteSingleRegister : Run PduReply := do
  let address ← rdWord pdu 1
  let mappingAddress ← cint (address - m.registers.start.toInt)
  if mappingAddress < 0 ∨ (m.registers.nb : Int) ≤ mappingAddress then
    .ok (exceptionPdu function exceptionIllegalDataAddress false m)
  else if pdu.length ≠ 5 then
    .ok (exceptionPdu function exceptionIllegalDataValue false m)
  else
    let data ← rdWord pdu 3
    let registers ← m.registers.store mappingAddress (UInt16.ofNat data)
    .ok ⟨pdu, true, false, { m with registers := registers }⟩

def serveWriteMultipleCoils : Run PduReply := do
  let address ← rdWord pdu 1
  let nb ← rdWord pdu 3
  let nbBits ← rd pdu 5
  let mappingAddress ← cint (address - m.bits.start.toInt)
  if nb < 1 ∨ maxWriteBits < nb ∨ nbBits.toNat * 8 < nb then
    .ok (exceptionPdu function exceptionIllegalDataValue true m)
  else if ← rangeOutside mappingAddress nb m.bits.nb then
    .ok (exceptionPdu function exceptionIllegalDataAddress false m)
  else
    let bits ← m.bits.modify (fun tab => modbusSetBitsFromBytes tab mappingAddress nb pdu 6)
      length_modbusSetBitsFromBytes
    let echo ← rdSlice pdu 1 4
    .ok ⟨lo function :: echo, false, false, { m with bits := bits }⟩

def serveWriteMultipleRegisters : Run PduReply := do
  let address ← rdWord pdu 1
  let nb ← rdWord pdu 3
  let nbBytes ← rd pdu 5
  let mappingAddress ← cint (address - m.registers.start.toInt)
  if nb < 1 ∨ maxWriteRegisters < nb ∨ nbBytes.toNat ≠ nb * 2 then
    .ok (exceptionPdu function exceptionIllegalDataValue true m)
  else if ← rangeOutside mappingAddress nb m.registers.nb then
    .ok (exceptionPdu function exceptionIllegalDataAddress false m)
  else
    let registers ← m.registers.modify (fun tab => writeRegisters pdu tab mappingAddress 6 nb)
      length_writeRegisters
    let echo ← rdSlice pdu 1 4
    .ok ⟨lo function :: echo, false, false, { m with registers := registers }⟩

def serveReportSlaveId (ver : VersionString) : Run PduReply :=
  .ok ⟨lo function :: lo (slaveIdData ver).length :: slaveIdData ver, false, false, m⟩

def serveMaskWriteRegister : Run PduReply := do
  let address ← rdWord pdu 1
  let mappingAddress ← cint (address - m.registers.start.toInt)
  if mappingAddress < 0 ∨ (m.registers.nb : Int) ≤ mappingAddress then
    .ok (exceptionPdu function exceptionIllegalDataAddress false m)
  else
    let and ← rdWord pdu 3
    let or ← rdWord pdu 5
    if pdu.length ≠ 7 then
      .ok (exceptionPdu function exceptionIllegalDataValue false m)
    else
      let andMask := UInt16.ofNat and
      let orMask := UInt16.ofNat or
      let data ← cell m.registers.tab mappingAddress
      let registers ← m.registers.store mappingAddress
        ((data &&& andMask) ||| (orMask &&& ~~~andMask))
      .ok ⟨pdu, true, false, { m with registers := registers }⟩

def serveWriteAndReadRegisters : Run PduReply := do
  let address ← rdWord pdu 1
  let nb ← rdWord pdu 3
  let addressWrite ← rdWord pdu 5
  let nbWrite ← rdWord pdu 7
  let nbWriteBytes ← rd pdu 9
  let mappingAddress ← cint (address - m.registers.start.toInt)
  let mappingAddressWrite ← cint (addressWrite - m.registers.start.toInt)
  if nbWrite < 1 ∨ maxWrWriteRegisters < nbWrite ∨ nb < 1 ∨ maxWrReadRegisters < nb ∨
      nbWriteBytes.toNat ≠ nbWrite * 2 then
    .ok (exceptionPdu function exceptionIllegalDataValue true m)
  else if ← rangeOutside mappingAddress nb m.registers.nb then
    .ok (exceptionPdu function exceptionIllegalDataAddress false m)
  else if ← rangeOutside mappingAddressWrite nbWrite m.registers.nb then
    .ok (exceptionPdu function exceptionIllegalDataAddress false m)
  else
    let registers ← m.registers.modify
      (fun tab => writeRegisters pdu tab mappingAddressWrite 10 nbWrite) length_writeRegisters
    let values ← readRegisters registers.tab mappingAddress nb
    .ok ⟨lo function :: lo (2 * nb : Nat) :: values, false, false,
      { m with registers := registers }⟩

/-- A complete request, by its function code. -/
def serveSwitch (ver : VersionString) : Run PduReply :=
  if function = fcReadCoils then serveReadBits function pdu m false
  else if function = fcReadDiscreteInputs then serveReadBits function pdu m true
  else if function = fcReadHoldingRegisters then serveReadRegisters function pdu m false
  else if function = fcReadInputRegisters then serveReadRegisters function pdu m true
  else if function = fcWriteSingleCoil then serveWriteSingleCoil function pdu m
  else if function = fcWriteSingleRegister then serveWriteSingleRegister function pdu m
  else if function = fcWriteMultipleCoils then serveWriteMultipleCoils function pdu m
  else if function = fcWriteMultipleRegisters then serveWriteMultipleRegisters function pdu m
  else if function = fcReportSlaveId then serveReportSlaveId function m ver
  else if function = fcMaskWriteRegister then serveMaskWriteRegister function pdu m
  else if function = fcWriteAndReadRegisters then serveWriteAndReadRegisters function pdu m
  else .ok (exceptionPdu function exceptionIllegalFunction true m)

end Serve

/-- The PDU holds its meta fields and as much data as it declares; there may be more. -/
def Complete (pdu : List UInt8) : Prop := ∃ n ∈ pduLength .indication pdu, n ≤ pdu.length

instance (pdu : List UInt8) : Decidable (Complete pdu) :=
  inferInstanceAs (Decidable (∃ n ∈ pduLength .indication pdu, n ≤ pdu.length))

/-- The server on PDUs. -/
def servePdu (ver : VersionString) (pdu : List UInt8) (m : Mapping) : Run PduReply := do
  let function ← rd pdu 0
  if Complete pdu then serveSwitch function.toNat pdu m ver
  else .ok (exceptionPdu function.toNat exceptionIllegalDataValue true m)

/-! ### The envelope of a response -/

/-- The header that `build_response_basis` makes, before `send_msg_pre`. -/
def Adu.blank (a : Adu) : Adu := { a with protocol := 0, length := 0 }

/-- `sft` for a request. -/
def Adu.sft (be : Backend) (a : Adu) (function : Nat) : Sft where
  slave := a.unit.toNat
  function := function
  tId := match be with
    | .rtu => 0
    | .tcp => a.tId.toNat

/-- A response PDU behind the header of its request. -/
def PduReply.wrap (be : Backend) (a : Adu) (p : PduReply) : Reply :=
  ⟨(if p.echo then a else a.blank).header be ++ p.pdu, p.flush, p.mapping⟩

theorem buildResponseBasis_sft (a : Adu) (function : Nat) :
    buildResponseBasis be (a.sft be function) = a.blank.header be ++ [lo function] := by
  have hunit : lo a.unit.toNat = a.unit := lo_toNat a.unit
  cases be with
  | rtu => simp only [buildResponseBasis, Adu.sft, hunit, Adu.header, Adu.blank, List.cons_append,
      List.nil_append]
  | tcp =>
    simp only [buildResponseBasis, Adu.sft, hunit, Adu.header, Adu.blank]
    rfl

theorem responseException_sft (a : Adu) (function code : Nat) (toFlush : Bool) (m : Mapping) :
    responseException be (a.sft be function) code toFlush m =
      (exceptionPdu function code toFlush m).wrap be a := by
  have hsft : { a.sft be function with function := (a.sft be function).function + 0x80 } =
      a.sft be (function + 0x80) := rfl
  simp only [responseException, hsft, buildResponseBasis_sft, exceptionPdu, PduReply.wrap,
    List.append_assoc, Bool.false_eq_true, if_false]
  rfl

theorem getResponseTid_wrapped (a : Adu) (trailer : List UInt8) :
    getResponseTid be (a.wrapped be trailer) = .ok (a.sft be 0).tId := by
  cases be with
  | rtu => rfl
  | tcp =>
    show Except.ok ((word (hi a.tId.toNat) (lo a.tId.toNat) : Nat) : Int) = _
    rw [word_hi_lo_nat a.tId.toNat_lt]
    rfl

/-! ### Reading the request through its envelope -/

theorem rdWord_wrapped (a : Adu) (trailer : List UInt8) {i : Nat} (hi : i + 1 < a.pdu.length) :
    rdWord (a.wrapped be trailer) (be.headerLength + i) = rdWord a.pdu i := by
  simp only [rdWord, a.rd_wrapped trailer (Nat.lt_of_succ_lt hi), Nat.add_assoc,
    a.rd_wrapped trailer hi]

theorem rdSlice_wrapped (a : Adu) (trailer : List UInt8) {i n : Nat}
    (hi : i + n ≤ a.pdu.length) :
    rdSlice (a.wrapped be trailer) (be.headerLength + i) n = rdSlice a.pdu i n := by
  have hlen : be.headerLength + i + n ≤ (a.wrapped be trailer).length := by
    rw [Adu.length_wrapped]
    omega
  have hdrop : (a.wrapped be trailer).drop (be.headerLength + i) = (a.pdu ++ trailer).drop i := by
    rw [Adu.wrapped, ← List.drop_drop, ← a.length_header, List.drop_left]
  rw [rdSlice_of_le hlen, rdSlice_of_le hi, hdrop, List.drop_append_of_le_length (by omega),
    List.take_append_of_le_length (by rw [List.length_drop]; omega)]

/-- The whole frame without its trailer, as the write handlers copy it. -/
theorem rdSlice_frame (a : Adu) {trailer : List UInt8}
    (ht : trailer.length = be.checksumLength) :
    rdSlice (a.wrapped be trailer) 0
        ((((a.wrapped be trailer).length : Nat) : Int) - be.checksumLength).toNat =
      .ok (a.header be ++ a.pdu) := by
  have hn : ((((a.wrapped be trailer).length : Nat) : Int) - be.checksumLength).toNat =
      (a.header be ++ a.pdu).length := by
    rw [Adu.length_wrapped, List.length_append, Adu.length_header, ht]
    omega
  rw [hn, rdSlice_of_le (by rw [Adu.length_wrapped, List.length_append, Adu.length_header]; omega),
    List.drop_zero, Adu.wrapped, ← List.append_assoc, List.take_left]

theorem setBitsLoop_wrapped (a : Adu) (trailer : List UInt8) {pos k n : Nat} {dest : List UInt8}
    {idx : Int} (h : 8 * pos + k + n ≤ 8 * a.pdu.length) :
    setBitsLoop (a.wrapped be trailer) (be.headerLength + pos) dest idx k n =
      setBitsLoop a.pdu pos dest idx k n := by
  induction n generalizing dest k with
  | zero => rfl
  | succ n ih =>
    simp only [setBitsLoop, Nat.add_assoc, a.rd_wrapped trailer (show pos + k / 8 < _ by omega)]
    congr 1
    funext b
    congr 1
    funext dest'
    exact ih (by omega)

theorem writeRegisters_wrapped (a : Adu) (trailer : List UInt8) {tab : List UInt16} {i : Int}
    {j n : Nat} (h : j + 2 * n ≤ a.pdu.length) :
    writeRegisters (a.wrapped be trailer) tab i (be.headerLength + j) n =
      writeRegisters a.pdu tab i j n := by
  induction n generalizing tab i j with
  | zero => rfl
  | succ n ih =>
    simp only [writeRegisters, Nat.add_assoc, a.rd_wrapped trailer (show j < _ by omega),
      a.rd_wrapped trailer (show j + 1 < _ by omega)]
    congr 1
    funext hb
    congr 1
    funext lb
    congr 1
    funext tab'
    exact ih (by omega)

/-! ### The handlers through the envelope -/

section Handlers

variable (a : Adu) {trailer : List UInt8} (m : Mapping) {function address : Nat}

theorem replyReadBits_wrapped (isInput : Bool) (hlen : 5 ≤ a.pdu.length)
    (haddr : rdWord a.pdu 1 = .ok address) :
    replyReadBits be (a.sft be function) (a.wrapped be trailer) address m isInput =
      (serveReadBits function a.pdu m isInput).map (PduReply.wrap be a) := by
  simp only [replyReadBits, serveReadBits, haddr, ok_bind, rdWord_wrapped a trailer
    (show 3 + 1 < a.pdu.length by omega), responseException_sft, buildResponseBasis_sft]
  refine bind_map_congr fun nb _ => bind_map_congr fun mappingAddress _ => ?_
  refine ite_map_congr (fun _ => rfl) fun _ => bind_map_congr fun outside _ => ?_
  refine ite_map_congr (fun _ => rfl) fun _ => bind_map_congr fun status _ => ?_
  simp only [Except.map, PduReply.wrap, Bool.false_eq_true, if_false, List.append_assoc,
    List.cons_append, List.nil_append]

theorem replyReadRegisters_wrapped (isInput : Bool) (hlen : 5 ≤ a.pdu.length)
    (haddr : rdWord a.pdu 1 = .ok address) :
    replyReadRegisters be (a.sft be function) (a.wrapped be trailer) address m isInput =
      (serveReadRegisters function a.pdu m isInput).map (PduReply.wrap be a) := by
  simp only [replyReadRegisters, serveReadRegisters, haddr, ok_bind, rdWord_wrapped a trailer
    (show 3 + 1 < a.pdu.length by omega), responseException_sft, buildResponseBasis_sft]
  refine bind_map_congr fun nb _ => bind_map_congr fun mappingAddress _ => ?_
  refine ite_map_congr (fun _ => rfl) fun _ => bind_map_congr fun outside _ => ?_
  refine ite_map_congr (fun _ => rfl) fun _ => bind_map_congr fun values _ => ?_
  simp only [Except.map, PduReply.wrap, Bool.false_eq_true, if_false, List.append_assoc,
    List.cons_append, List.nil_append]

/-- For the functions that are answered with an echo, the length check compares the PDU with the
length of its own response. -/
theorem computeResponseLength_wrapped {fc : UInt8} {n : Nat} (hfc : rd a.pdu 0 = .ok fc)
    (h : (n = 5 ∧ (fc.toNat = fcWriteSingleCoil ∨ fc.toNat = fcWriteSingleRegister)) ∨
      (n = 7 ∧ fc.toNat = fcMaskWriteRegister)) :
    computeResponseLengthFromRequest be (a.wrapped be trailer) =
      .ok ((be.headerLength + n + be.checksumLength : Nat) : Int) := by
  have hpos : 0 < a.pdu.length := by
    obtain ⟨hi, -⟩ := List.getElem?_eq_some_iff.mp (rd_eq_ok.mp hfc)
    exact hi
  have hf : rd (a.wrapped be trailer) be.headerLength = .ok fc := by
    rw [← hfc, ← a.rd_wrapped trailer hpos]
    rfl
  simp only [computeResponseLengthFromRequest, hf, ok_bind]
  rcases h with ⟨rfl, h | h⟩ | ⟨rfl, h⟩ <;> rw [h] <;> rfl

theorem length_check_wrapped (ht : trailer.length = be.checksumLength) (n : Nat) :
    ((be.headerLength + n + be.checksumLength : Nat) : Int) ≠
        ((a.wrapped be trailer).length : Nat) ↔ a.pdu.length ≠ n := by
  rw [Adu.length_wrapped, ht]
  omega

theorem replyWriteSingleCoil_wrapped (ht : trailer.length = be.checksumLength)
    (hlen : 5 ≤ a.pdu.length) (haddr : rdWord a.pdu 1 = .ok address) {fc : UInt8}
    (hfc : rd a.pdu 0 = .ok fc) (hf : fc.toNat = fcWriteSingleCoil) :
    replyWriteSingleCoil be (a.sft be function) (a.wrapped be trailer)
        ((a.wrapped be trailer).length : Nat) address m =
      (serveWriteSingleCoil function a.pdu m).map (PduReply.wrap be a) := by
  have hrsp : computeResponseLengthFromRequest be (a.wrapped be trailer) =
      .ok ((be.headerLength + 5 + be.checksumLength : Nat) : Int) :=
    computeResponseLength_wrapped a hfc (Or.inl ⟨rfl, Or.inl hf⟩)
  simp only [replyWriteSingleCoil, serveWriteSingleCoil, haddr, ok_bind, hrsp,
    rdWord_wrapped a trailer (show 3 + 1 < a.pdu.length by omega), responseException_sft,
    length_check_wrapped a ht]
  refine bind_map_congr fun mappingAddress _ => ite_map_congr (fun _ => rfl) fun _ => ?_
  refine ite_map_congr (fun _ => rfl) fun hn => bind_map_congr fun data _ => ?_
  refine ite_map_congr (fun _ => bind_map_congr fun bits _ => ?_) (fun _ => rfl)
  have hecho := rdSlice_frame a ht
  rw [Adu.length_wrapped, ht, not_not.mp hn] at hecho
  rw [hecho]
  rfl

theorem replyWriteSingleRegister_wrapped (ht : trailer.length = be.checksumLength)
    (hlen : 5 ≤ a.pdu.length) (haddr : rdWord a.pdu 1 = .ok address) {fc : UInt8}
    (hfc : rd a.pdu 0 = .ok fc) (hf : fc.toNat = fcWriteSingleRegister) :
    replyWriteSingleRegister be (a.sft be function) (a.wrapped be trailer)
        ((a.wrapped be trailer).length : Nat) address m =
      (serveWriteSingleRegister function a.pdu m).map (PduReply.wrap be a) := by
  have hrsp : computeResponseLengthFromRequest be (a.wrapped be trailer) =
      .ok ((be.headerLength + 5 + be.checksumLength : Nat) : Int) :=
    computeResponseLength_wrapped a hfc (Or.inl ⟨rfl, Or.inr hf⟩)
  simp only [replyWriteSingleRegister, serveWriteSingleRegister, haddr, ok_bind, hrsp,
    rdWord_wrapped a trailer (show 3 + 1 < a.pdu.length by omega), responseException_sft,
    length_check_wrapped a ht]
  refine bind_map_congr fun mappingAddress _ => ite_map_congr (fun _ => rfl) fun _ => ?_
  refine ite_map_congr (fun _ => rfl) fun hn => bind_map_congr fun data _ => ?_
  refine bind_map_congr fun registers _ => ?_
  have hecho := rdSlice_frame a ht
  rw [Adu.length_wrapped, ht, not_not.mp hn] at hecho
  rw [hecho]
  rfl

theorem replyMaskWriteRegister_wrapped (ht : trailer.length = be.checksumLength)
    (hlen : 7 ≤ a.pdu.length) (haddr : rdWord a.pdu 1 = .ok address) {fc : UInt8}
    (hfc : rd a.pdu 0 = .ok fc) (hf : fc.toNat = fcMaskWriteRegister) :
    replyMaskWriteRegister be (a.sft be function) (a.wrapped be trailer)
        ((a.wrapped be trailer).length : Nat) address m =
      (serveMaskWriteRegister function a.pdu m).map (PduReply.wrap be a) := by
  have hrsp : computeResponseLengthFromRequest be (a.wrapped be trailer) =
      .ok ((be.headerLength + 7 + be.checksumLength : Nat) : Int) :=
    computeResponseLength_wrapped a hfc (Or.inr ⟨rfl, hf⟩)
  simp only [replyMaskWriteRegister, serveMaskWriteRegister, haddr, ok_bind, hrsp,
    rdWord_wrapped a trailer (show 3 + 1 < a.pdu.length by omega),
    rdWord_wrapped a trailer (show 5 + 1 < a.pdu.length by omega), responseException_sft,
    length_check_wrapped a ht]
  refine bind_map_congr fun mappingAddress _ => ite_map_congr (fun _ => rfl) fun _ => ?_
  refine bind_map_congr fun and _ => bind_map_congr fun or _ => ?_
  refine ite_map_congr (fun _ => rfl) fun hn => bind_map_congr fun data _ => ?_
  refine bind_map_congr fun registers _ => ?_
  have hecho := rdSlice_frame a ht
  rw [Adu.length_wrapped, ht, not_not.mp hn] at hecho
  rw [hecho]
  rfl

/-- What the two write handlers send back besides their function code. -/
theorem echo_wrapped (hlen : 5 ≤ a.pdu.length) :
    rdSlice (a.wrapped be trailer) (a.blank.header be ++ [lo function]).length 4 =
      rdSlice a.pdu 1 4 := by
  rw [List.length_append, Adu.length_header]
  exact rdSlice_wrapped a trailer hlen

theorem replyWriteMultipleCoils_wrapped (haddr : rdWord a.pdu 1 = .ok address)
    (hlen : 6 ≤ a.pdu.length) (hdata : ∀ c, rd a.pdu 5 = .ok c → 6 + c.toNat ≤ a.pdu.length) :
    replyWriteMultipleCoils be (a.sft be function) (a.wrapped be trailer) address m =
      (serveWriteMultipleCoils function a.pdu m).map (PduReply.wrap be a) := by
  simp only [replyWriteMultipleCoils, serveWriteMultipleCoils, haddr, ok_bind,
    rdWord_wrapped a trailer (show 3 + 1 < a.pdu.length by omega),
    a.rd_wrapped trailer (show 5 < a.pdu.length by omega), responseException_sft,
    buildResponseBasis_sft, echo_wrapped a (show 5 ≤ a.pdu.length by omega)]
  refine bind_map_congr fun nb _ => bind_map_congr fun nbBits hbits => ?_
  refine bind_map_congr fun mappingAddress _ => ite_map_congr (fun _ => rfl) fun hnb => ?_
  refine bind_map_congr fun outside _ => ite_map_congr (fun _ => rfl) fun _ => ?_
  have hbytes := hdata nbBits hbits
  have hset : (fun tab => modbusSetBitsFromBytes tab mappingAddress nb (a.wrapped be trailer)
      (be.headerLength + 6)) = fun tab => modbusSetBitsFromBytes tab mappingAddress nb a.pdu 6 := by
    funext tab
    exact setBitsLoop_wrapped a trailer (by omega)
  simp only [hset]
  refine bind_map_congr fun bits _ => bind_map_congr fun echo _ => ?_
  simp only [Except.map, PduReply.wrap, Bool.false_eq_true, if_false, List.append_assoc,
    List.cons_append, List.nil_append]

theorem replyWriteMultipleRegisters_wrapped (haddr : rdWord a.pdu 1 = .ok address)
    (hlen : 6 ≤ a.pdu.length) (hdata : ∀ c, rd a.pdu 5 = .ok c → 6 + c.toNat ≤ a.pdu.length) :
    replyWriteMultipleRegisters be (a.sft be function) (a.wrapped be trailer) address m =
      (serveWriteMultipleRegisters function a.pdu m).map (PduReply.wrap be a) := by
  simp only [replyWriteMultipleRegisters, serveWriteMultipleRegisters, haddr, ok_bind,
    rdWord_wrapped a trailer (show 3 + 1 < a.pdu.length by omega),
    a.rd_wrapped trailer (show 5 < a.pdu.length by omega), responseException_sft,
    buildResponseBasis_sft, echo_wrapped a (show 5 ≤ a.pdu.length by omega)]
  refine bind_map_congr fun nb _ => bind_map_congr fun nbBytes hbytes => ?_
  refine bind_map_congr fun mappingAddress _ => ite_map_congr (fun _ => rfl) fun hnb => ?_
  refine bind_map_congr fun outside _ => ite_map_congr (fun _ => rfl) fun _ => ?_
  have hcount := hdata nbBytes hbytes
  have hset : (fun tab => writeRegisters (a.wrapped be trailer) tab mappingAddress
      (be.headerLength + 6) nb) = fun tab => writeRegisters a.pdu tab mappingAddress 6 nb := by
    funext tab
    exact writeRegisters_wrapped a trailer (by omega)
  simp only [hset]
  refine bind_map_congr fun registers _ => bind_map_congr fun echo _ => ?_
  simp only [Except.map, PduReply.wrap, Bool.false_eq_true, if_false, List.append_assoc,
    List.cons_append, List.nil_append]

theorem replyWriteAndReadRegisters_wrapped (haddr : rdWord a.pdu 1 = .ok address)
    (hlen : 10 ≤ a.pdu.length) (hdata : ∀ c, rd a.pdu 9 = .ok c → 10 + c.toNat ≤ a.pdu.length) :
    replyWriteAndReadRegisters be (a.sft be function) (a.wrapped be trailer) address m =
      (serveWriteAndReadRegisters function a.pdu m).map (PduReply.wrap be a) := by
  simp only [replyWriteAndReadRegisters, serveWriteAndReadRegisters, haddr, ok_bind,
    rdWord_wrapped a trailer (show 3 + 1 < a.pdu.length by omega),
    rdWord_wrapped a trailer (show 5 + 1 < a.pdu.length by omega),
    rdWord_wrapped a trailer (show 7 + 1 < a.pdu.length by omega),
    a.rd_wrapped trailer (show 9 < a.pdu.length by omega), responseException_sft,
    buildResponseBasis_sft]
  refine bind_map_congr fun nb _ => bind_map_congr fun addressWrite _ => ?_
  refine bind_map_congr fun nbWrite _ => bind_map_congr fun nbWriteBytes hbytes => ?_
  refine bind_map_congr fun mappingAddress _ => bind_map_congr fun mappingAddressWrite _ => ?_
  refine ite_map_congr (fun _ => rfl) fun hnb => bind_map_congr fun outside _ => ?_
  refine ite_map_congr (fun _ => rfl) fun _ => bind_map_congr fun outsideWrite _ => ?_
  refine ite_map_congr (fun _ => rfl) fun _ => ?_
  have hcount := hdata nbWriteBytes hbytes
  have hset : (fun tab => writeRegisters (a.wrapped be trailer) tab mappingAddressWrite
      (be.headerLength + 10) nbWrite) =
        fun tab => writeRegisters a.pdu tab mappingAddressWrite 10 nbWrite := by
    funext tab
    exact writeRegisters_wrapped a trailer (by omega)
  simp only [hset]
  refine bind_map_congr fun registers _ => bind_map_congr fun values _ => ?_
  simp only [Except.map, PduReply.wrap, Bool.false_eq_true, if_false, List.append_assoc,
    List.cons_append, List.nil_append]

theorem replyReportSlaveId_wrapped (ver : VersionString) :
    replyReportSlaveId be (a.sft be function) m ver =
      (serveReportSlaveId function m ver).map (PduReply.wrap be a) := by
  simp only [replyReportSlaveId, serveReportSlaveId, buildResponseBasis_sft, Except.map,
    PduReply.wrap, Bool.false_eq_true, if_false, List.append_assoc, List.cons_append,
    List.nil_append]

end Handlers

/-! ### The switch and the length check through the envelope -/

/-- A complete PDU holds its meta fields, and behind its byte count as many bytes. -/
theorem Complete.spec {pdu : List UInt8} {function : UInt8} (h : Complete pdu)
    (hf : rd pdu 0 = .ok function) :
    1 + computeMetaLengthAfterFunction function.toNat .indication ≤ pdu.length ∧
      ∀ pos, byteCountPos function.toNat .indication = some pos →
        ∀ c, rd pdu pos = .ok c → pos + 1 + c.toNat ≤ pdu.length := by
  obtain ⟨n, hn, hle⟩ := h
  obtain ⟨data, rfl⟩ : ∃ data, pdu = function :: data := by
    cases pdu with
    | nil => cases hf
    | cons b data =>
      cases hf
      exact ⟨data, rfl⟩
  simp only [pduLength] at hn
  cases hpos : byteCountPos function.toNat .indication with
  | none =>
    simp only [hpos, Option.mem_def, Option.some.injEq] at hn
    exact ⟨hn ▸ hle, fun pos h => by cases h⟩
  | some pos =>
    simp only [hpos, Option.mem_def] at hn
    obtain ⟨byteCount, hbc, hn⟩ := Option.map_eq_some_iff.mp hn
    have hmeta := byteCountPos_eq_meta hpos
    refine ⟨by omega, ?_⟩
    intro pos' h c hc
    cases h
    cases (rd_of_getElem? hbc).symm.trans hc
    omega

theorem replySwitch_wrapped (ver : VersionString) (a : Adu) {trailer : List UInt8} (m : Mapping)
    {function : UInt8} {address : Nat} (ht : trailer.length = be.checksumLength)
    (hf : rd a.pdu 0 = .ok function) (hc : Complete a.pdu)
    (haddr : 3 ≤ a.pdu.length → rdWord a.pdu 1 = .ok address) :
    replySwitch be (a.sft be function.toNat) (a.wrapped be trailer)
        ((a.wrapped be trailer).length : Nat) address m ver =
      (serveSwitch function.toNat a.pdu m ver).map (PduReply.wrap be a) := by
  obtain ⟨hmeta, hdata⟩ := hc.spec hf
  have hsft : (a.sft be function.toNat).function = function.toNat := rfl
  simp only [replySwitch, serveSwitch, hsft]
  -- every function that is served has its meta fields, at least the address and a quantity
  refine ite_map_congr (fun h => ?_) fun _ => ?_
  · rw [h] at hmeta
    exact replyReadBits_wrapped a m false hmeta (haddr (Nat.le_trans (by decide) hmeta))
  refine ite_map_congr (fun h => ?_) fun _ => ?_
  · rw [h] at hmeta
    exact replyReadBits_wrapped a m true hmeta (haddr (Nat.le_trans (by decide) hmeta))
  refine ite_map_congr (fun h => ?_) fun _ => ?_
  · rw [h] at hmeta
    exact replyReadRegisters_wrapped a m false hmeta (haddr (Nat.le_trans (by decide) hmeta))
  refine ite_map_congr (fun h => ?_) fun _ => ?_
  · rw [h] at hmeta
    exact replyReadRegisters_wrapped a m true hmeta (haddr (Nat.le_trans (by decide) hmeta))
  refine ite_map_congr (fun h => ?_) fun _ => ?_
  · rw [h] at hmeta
    exact replyWriteSingleCoil_wrapped a m ht hmeta (haddr (Nat.le_trans (by decide) hmeta)) hf h
  refine ite_map_congr (fun h => ?_) fun _ => ?_
  · rw [h] at hmeta
    exact replyWriteSingleRegister_wrapped a m ht hmeta
      (haddr (Nat.le_trans (by decide) hmeta)) hf h
  refine ite_map_congr (fun h => ?_) fun _ => ?_
  · rw [h] at hmeta hdata
    exact replyWriteMultipleCoils_wrapped a m (haddr (Nat.le_trans (by decide) hmeta)) hmeta
      (hdata 5 rfl)
  refine ite_map_congr (fun h => ?_) fun _ => ?_
  · rw [h] at hmeta hdata
    exact replyWriteMultipleRegisters_wrapped a m (haddr (Nat.le_trans (by decide) hmeta)) hmeta
      (hdata 5 rfl)
  refine ite_map_congr (fun h => ?_) fun _ => ?_
  · exact replyReportSlaveId_wrapped a m ver
  refine ite_map_congr (fun h => ?_) fun _ => ?_
  · rw [h] at hmeta
    exact replyMaskWriteRegister_wrapped a m ht hmeta (haddr (Nat.le_trans (by decide) hmeta)) hf h
  refine ite_map_congr (fun h => ?_) fun _ => ?_
  · rw [h] at hmeta hdata
    exact replyWriteAndReadRegisters_wrapped a m (haddr (Nat.le_trans (by decide) hmeta)) hmeta
      (hdata 9 rfl)
  rw [responseException_sft]
  rfl

theorem rd_eq_ok_lt {buf : List UInt8} {i : Nat} {b : UInt8} (h : rd buf i = .ok b) :
    i < buf.length := by
  obtain ⟨hi, -⟩ := List.getElem?_eq_some_iff.mp (rd_eq_ok.mp h)
  exact hi

/-- The request is shorter than what it needs iff its PDU is not complete, whatever stands in the
place of the checksum. -/
theorem neededLength_wrapped (a : Adu) {trailer : List UInt8} {function : UInt8}
    (ht : trailer.length = be.checksumLength) (hf : rd a.pdu 0 = .ok function) :
    ∃ needed, neededLength be (a.wrapped be trailer) ((a.wrapped be trailer).length : Nat)
        function.toNat = .ok needed ∧
      (((a.wrapped be trailer).length : Int) < needed ↔ ¬ Complete a.pdu) := by
  obtain ⟨data, hpdu⟩ : ∃ data, a.pdu = function :: data := by
    cases hp : a.pdu with
    | nil => rw [hp] at hf; cases hf
    | cons b data => rw [hp] at hf; cases hf; exact ⟨data, rfl⟩
  have hfun : rd (a.wrapped be trailer) be.headerLength = .ok function := by
    rw [← hf, ← a.rd_wrapped trailer (rd_eq_ok_lt hf)]
    rfl
  have hL : (a.wrapped be trailer).length =
      be.headerLength + a.pdu.length + be.checksumLength := by
    rw [Adu.length_wrapped, ht]
  simp only [neededLength, computeDataLengthAfterMeta, hfun, ok_bind]
  by_cases hmeta : be.headerLength + 1 +
      computeMetaLengthAfterFunction function.toNat .indication ≤ (a.wrapped be trailer).length
  · rw [if_pos (by omega)]
    cases hpos : byteCountPos function.toNat .indication with
    | none =>
      -- no byte count: the PDU declares its meta length
      refine ⟨_, rfl, ?_⟩
      have hcomplete : Complete a.pdu ↔
          1 + computeMetaLengthAfterFunction function.toNat .indication ≤ a.pdu.length := by
        simp only [Complete, pduLength, hpdu, hpos, Option.mem_def, Option.some.injEq,
          exists_eq_left']
      rw [hcomplete]
      omega
    | some pos =>
      have hpm := byteCountPos_eq_meta hpos
      have hlt : be.headerLength + pos < (a.wrapped be trailer).length := by omega
      simp only [rd_lt hlt, ok_bind]
      refine ⟨_, rfl, ?_⟩
      by_cases hin : pos < a.pdu.length
      · -- the byte count is in the PDU
        have hbc : (a.wrapped be trailer)[be.headerLength + pos] = a.pdu[pos] := by
          have h : rd (a.wrapped be trailer) (be.headerLength + pos) = rd a.pdu pos :=
            a.rd_wrapped trailer hin
          rw [rd_lt hlt, rd_lt hin] at h
          exact Except.ok.inj h
        have hcomplete : Complete a.pdu ↔ 1 + computeMetaLengthAfterFunction function.toNat
            .indication + (a.pdu[pos]).toNat ≤ a.pdu.length := by
          have hget : (function :: data)[pos]? = some a.pdu[pos] := by
            rw [← hpdu, List.getElem?_eq_getElem hin]
          simp only [Complete, pduLength, hpdu, hpos, hget, Option.map_some, Option.mem_def,
            Option.some.injEq, exists_eq_left']
        rw [hcomplete, hbc]
        omega
      · -- the byte count is read from the checksum, and even without data the request is short
        have hcomplete : ¬ Complete a.pdu := by
          rintro ⟨n, hn, -⟩
          have hget : (function :: data)[pos]? = none := by
            rw [← hpdu]
            exact List.getElem?_eq_none (Nat.le_of_not_lt hin)
          simp [pduLength, hpdu, hpos, hget] at hn
        simp only [hcomplete, not_false_eq_true, iff_true]
        omega
  · rw [if_neg (by omega)]
    refine ⟨_, rfl, ?_⟩
    have hcomplete : ¬ Complete a.pdu := by
      intro h
      have := (h.spec hf).1
      omega
    simp only [hcomplete, not_false_eq_true, iff_true]
    omega

/-- **The server behind its envelope.**  In the frame of either backend, with any bytes in the
place of the checksum, the response is that of the PDU behind the header of the request. -/
theorem buildReply_wrapped (ver : VersionString) (a : Adu) {trailer : List UInt8} (m : Mapping)
    (ht : trailer.length = be.checksumLength) (hne : a.pdu ≠ []) :
    buildReply ver be (a.wrapped be trailer) ((a.wrapped be trailer).length : Nat) m =
      (servePdu ver a.pdu m).map (PduReply.wrap be a) := by
  obtain ⟨function, hf⟩ : ∃ function, rd a.pdu 0 = .ok function :=
    ⟨_, rd_lt (List.length_pos_of_ne_nil hne)⟩
  have hfun : rd (a.wrapped be trailer) be.headerLength = .ok function := by
    rw [← hf, ← a.rd_wrapped trailer (rd_eq_ok_lt hf)]
    rfl
  obtain ⟨needed, hneeded, hshort⟩ := neededLength_wrapped a ht hf
  have htid : getResponseTid be (a.wrapped be trailer) = .ok (a.sft be 0).tId :=
    getResponseTid_wrapped a trailer
  have hsft : ({ slave := a.unit.toNat, function := function.toNat, tId := (a.sft be 0).tId } :
      Sft) = a.sft be function.toNat := rfl
  have htail : ∀ address, (3 ≤ a.pdu.length → rdWord a.pdu 1 = .ok address) →
      (if (((a.wrapped be trailer).length : Nat) : Int) < needed then
        .ok (responseException be (a.sft be function.toNat) exceptionIllegalDataValue true m)
      else replySwitch be (a.sft be function.toNat) (a.wrapped be trailer)
        ((a.wrapped be trailer).length : Nat) address m ver) =
      (servePdu ver a.pdu m).map (PduReply.wrap be a) := by
    intro address haddr
    simp only [servePdu, hf, ok_bind]
    by_cases hcomplete : Complete a.pdu
    · rw [if_neg (fun h => hshort.mp h hcomplete), if_pos hcomplete]
      exact replySwitch_wrapped ver a m ht hf hcomplete haddr
    · rw [if_pos (hshort.mpr hcomplete), if_neg hcomplete, responseException_sft]
      rfl
  simp only [buildReply, a.rd_wrapped_unit trailer, hfun, htid, hneeded, ok_bind, hsft]
  by_cases h3 : be.headerLength + 3 ≤ (a.wrapped be trailer).length
  · -- an address is read, from the checksum when the PDU is too short to have one
    rw [if_pos (by omega)]
    obtain ⟨address, haddr⟩ : ∃ address,
        rdWord (a.wrapped be trailer) (be.headerLength + 1) = .ok address :=
      ⟨_, rdWord_lt h3⟩
    rw [haddr]
    refine htail address fun h => ?_
    rw [← haddr]
    exact (rdWord_wrapped a trailer h).symm
  · rw [if_neg (by omega)]
    refine htail 0 fun h => absurd ?_ h3
    rw [Adu.length_wrapped]
    omega

/-! ### modbus_reply -/

/-- The response ADU: unit and transaction id of the request, protocol id 0 unless the request
is echoed. -/
def PduReply.adu (a : Adu) (p : PduReply) : Adu where
  tId := a.tId
  protocol := if p.echo then a.protocol else 0
  length := UInt16.ofNat (p.pdu.length + 1)
  unit := a.unit
  pdu := p.pdu

/-- What `modbus_reply` does with a response: flush when asked, then send it. -/
def PduReply.send (os : Os σ) (st : St σ) (a : Adu) (p : PduReply) :
    Run (Int × Mapping × St σ) := do
  let st ← if p.flush then sleepAndFlush os st else .ok st
  let (rc, st) ← sendAdu os st (p.adu a)
  .ok (rc, p.mapping, st)

theorem sendMsgPre_wrap (a : Adu) (p : PduReply) :
    sendMsgPre be (p.wrap be a).rsp = (p.adu a).bytes be := by
  have hpdu : (p.wrap be a).rsp =
      ({ (if p.echo then a else a.blank) with pdu := p.pdu } : Adu).header be ++ p.pdu := by
    simp only [PduReply.wrap]
    cases be <;> rfl
  have hadu : ({ (if p.echo then a else a.blank) with pdu := p.pdu } : Adu).sealed = p.adu a := by
    simp only [Adu.sealed, PduReply.adu]
    cases p.echo <;> rfl
  rw [hpdu, sendMsgPre_header, hadu]

theorem sendMsg_wrap (os : Os σ) (st : St σ) (a : Adu) (p : PduReply) :
    sendMsg os st (p.wrap st.ctx.backend a).rsp = sendAdu os st (p.adu a) := by
  rw [sendMsg, sendMsgPre_wrap, sendAdu]

/-- **`modbus_reply` on PDUs**, when the response is not suppressed. -/
theorem modbusReply_wrapped (os : Os σ) (ver : VersionString) (st : St σ) (a : Adu)
    {trailer : List UInt8} (m : Mapping) (ht : trailer.length = st.ctx.backend.checksumLength)
    (hne : a.pdu ≠ []) (hsup : suppressed st.ctx a.unit = false) :
    modbusReply os ver st (a.wrapped st.ctx.backend trailer)
        ((a.wrapped st.ctx.backend trailer).length : Nat) m =
      servePdu ver a.pdu m >>= fun p => p.send os st a := by
  have hlen : ¬ (((a.wrapped st.ctx.backend trailer).length : Nat) : Int) <
      (st.ctx.backend.headerLength + 1 : Nat) := by
    have := List.length_pos_of_ne_nil hne
    rw [Adu.length_wrapped]
    omega
  rw [modbusReply, if_neg hlen, a.rd_wrapped_unit trailer, ok_bind,
    buildReply_wrapped ver a m ht hne]
  cases servePdu ver a.pdu m with
  | error e => rfl
  | ok p =>
    show _ = p.send os st a
    have hflush : (p.wrap st.ctx.backend a).flush = p.flush := rfl
    have hmap : (p.wrap st.ctx.backend a).mapping = p.mapping := rfl
    simp only [Except.map, ok_bind, PduReply.send, hflush, hmap]
    cases p.flush with
    | false =>
      simp only [Bool.false_eq_true, if_false, hsup, sendMsg_wrap]
    | true =>
      simp only [if_true]
      cases hst : sleepAndFlush os st with
      | error e => rfl
      | ok st' =>
        -- the flush does not touch the context
        have hctx := sleepAndFlush_ctx hst
        rw [← hctx] at hsup ⊢
        simp only [ok_bind, hsup, Bool.false_eq_true, if_false, sendMsg_wrap]

theorem suppressed_tcp {ctx : Modbus} (unit : UInt8) (h : ctx.backend = .tcp) :
    suppressed ctx unit = false := by
  simp [suppressed, h]

theorem suppressed_unit {ctx : Modbus} {unit : UInt8} (h : unit.toNat ≠ 0) :
    suppressed ctx unit = false := by
  simp [suppressed, h]

/-- **The two backends agree on what a PDU means.**  For every PDU, mapping and unit there is one
result, a response PDU and a new mapping (or a stop), that `modbus_reply` gives on a TCP context
with any header and on an RTU context with any two bytes as checksum; the response goes out under
the same unit. -/
theorem modbusReply_agrees (ver : VersionString) {pdu : List UInt8} (hne : pdu ≠ [])
    (m : Mapping) {unit : UInt8} (hunit : 1 ≤ unit.toNat ∧ unit.toNat ≤ 247) :
    ∃ r : Run PduReply,
      (∀ {σ : Type} (os : Os σ) (st : St σ) (tId protocol length : UInt16),
        st.ctx.backend = .tcp →
        let a : Adu := ⟨tId, protocol, length, unit, pdu⟩
        modbusReply os ver st (a.wrapped .tcp []) (a.wrapped .tcp []).length m =
          r >>= fun p => p.send os st a) ∧
      ∀ {σ : Type} (os : Os σ) (st : St σ) (c₁ c₂ : UInt8), st.ctx.backend = .rtu →
        let a : Adu := rtuAdu unit pdu
        modbusReply os ver st (a.wrapped .rtu [c₁, c₂]) (a.wrapped .rtu [c₁, c₂]).length m =
          r >>= fun p => p.send os st a := by
  refine ⟨servePdu ver pdu m, ?_, ?_⟩
  · intro σ os st tId protocol length hbe a
    rw [← hbe]
    exact modbusReply_wrapped os ver st a m (by rw [hbe]; rfl) hne (suppressed_tcp _ hbe)
  · intro σ os st c₁ c₂ hbe a
    rw [← hbe]
    refine modbusReply_wrapped os ver st a m (by rw [hbe]; rfl) hne (suppressed_unit ?_)
    show unit.toNat ≠ 0
    omega

/-- Four coils from 0, ten registers from 100, no inputs. -/
def sampleMapping : Mapping where
  bits := .new 0 4 (by decide)
  inputBits := .new 0 0 (by decide)
  inputRegisters := .new 0 0 (by decide)
  registers := .new 100 10 (by decide)

theorem modbusReply_agrees_sample :
    ∃ r : Run PduReply,
      modbusReply (linkOs 1) ⟨[], by decide⟩ (sampleSt .tcp 255 [])
          [0, 7, 0, 0, 0, 6, 17, 0x06, 0, 101, 1, 2] 12 sampleMapping =
        r >>= (fun p => p.send (linkOs 1) (sampleSt .tcp 255 [])
          ⟨7, 0, 6, 17, [0x06, 0, 101, 1, 2]⟩) ∧
      modbusReply (linkOs 1) ⟨[], by decide⟩ (sampleSt .rtu 17 [])
          [17, 0x06, 0, 101, 1, 2, 0, 0] 8 sampleMapping =
        r >>= fun p => p.send (linkOs 1) (sampleSt .rtu 17 []) (rtuAdu 17 [0x06, 0, 101, 1, 2]) := by
  obtain ⟨r, htcp, hrtu⟩ := modbusReply_agrees ⟨[], by decide⟩
    (show [0x06, 0, 101, 1, 2] ≠ [] by decide) sampleMapping (show 1 ≤ (17 : UInt8).toNat ∧ _ by decide)
  exact ⟨r, htcp (linkOs 1) (sampleSt .tcp 255 []) 7 0 6 rfl,
    hrtu (linkOs 1) (sampleSt .rtu 17 []) 0 0 rfl⟩

end Libmodbus
