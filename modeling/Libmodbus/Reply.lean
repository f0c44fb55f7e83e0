/-
Libmodbus/Reply.lean

`modbus_reply`.  The switch over the function code is one definition for each
of its cases, a function from the request and the mapping to a `Reply`: the
response as far as `send_msg`, the new mapping, and whether the link was flushed
on the way.  `modbusReply` performs the flush and the send.

`req` is the caller's array and `reqLength` the length the caller claims for
it; reading past the array stops the run.
-/
import Libmodbus.Receive
import Libmodbus.Mapping

namespace Libmodbus

open CSem Wire Posix

variable {σ : Type}

/-- `LIBMODBUS_VERSION_STRING`, a text that the build generates. -/
structure VersionString where
  chars : List UInt8
  length_le : chars.length ≤ 100

/-- What the switch of `modbus_reply` leaves behind. -/
structure Reply where
  /-- `rsp[0 .. rsp_length)` -/
  rsp : List UInt8
  flush : Bool
  mapping : Mapping
  deriving DecidableEq

/-- `response_exception` -/
def responseException (be : Backend) (sft : Sft) (exceptionCode : Nat) (toFlush : Bool)
    (m : Mapping) : Reply where
  rsp := buildResponseBasis be { sft with function := sft.function + 0x80 } ++ [lo exceptionCode]
  flush := toFlush
  mapping := m

/-- `mapping_address < 0 || (mapping_address + nb) > nb_table` -/
def rangeOutside (mappingAddress : Int) (nb size : Nat) : Run Bool :=
  if mappingAddress < 0 then .ok true
  else do
    let last ← cint (mappingAddress + nb)
    .ok (decide ((size : Int) < last))

/-! ### The cases of the switch -/

section Handlers

variable (be : Backend) (sft : Sft) (req : List UInt8) (reqLength : Int) (address : Nat)
  (m : Mapping)

def replyReadBits (isInput : Bool) : Run Reply := do
  let t := if isInput then m.inputBits else m.bits
  let nb ← rdWord req (be.headerLength + 3)
  let mappingAddress ← cint (address - t.start.toInt)
  if nb < 1 ∨ maxReadBits < nb then
    .ok (responseException be sft exceptionIllegalDataValue true m)
  else if ← rangeOutside mappingAddress nb t.nb then
    .ok (responseException be sft exceptionIllegalDataAddress false m)
  else
    let status ← responseIoStatus t.tab mappingAddress nb
    .ok ⟨buildResponseBasis be sft ++ lo (nb / 8 + (if nb % 8 ≠ 0 then 1 else 0) : Nat) :: status,
      false, m⟩

def replyReadRegisters (isInput : Bool) : Run Reply := do
  let t := if isInput then m.inputRegisters else m.registers
  let nb ← rdWord req (be.headerLength + 3)
  let mappingAddress ← cint (address - t.start.toInt)
  if nb < 1 ∨ maxReadRegisters < nb then
    .ok (responseException be sft exceptionIllegalDataValue true m)
  else if ← rangeOutside mappingAddress nb t.nb then
    .ok (responseException be sft exceptionIllegalDataAddress false m)
  else
    let values ← readRegisters t.tab mappingAddress nb
    .ok ⟨buildResponseBasis be sft ++ lo (2 * nb : Nat) :: values, false, m⟩

def replyWriteSingleCoil : Run Reply := do
  let mappingAddress ← cint (address - m.bits.start.toInt)
  if mappingAddress < 0 ∨ (m.bits.nb : Int) ≤ mappingAddress then
    .ok (responseException be sft exceptionIllegalDataAddress false m)
  else
    -- this check is only done here to ensure using memcpy is safe
    let rspLength ← computeResponseLengthFromRequest be req
    if rspLength ≠ reqLength then
      .ok (responseException be sft exceptionIllegalDataValue false m)
    else
      let data ← rdWord req (be.headerLength + 3)
      if data = 0xFF00 ∨ data = 0 then
        let bits ← m.bits.modify (fun tab => setCell tab mappingAddress (if data ≠ 0 then 1 else 0))
          length_of_setCell
        let rsp ← rdSlice req 0 (rspLength - be.checksumLength).toNat
        .ok ⟨rsp, false, { m with bits := bits }⟩
      else .ok (responseException be sft exceptionIllegalDataValue false m)

def replyWriteSingleRegister : Run Reply := do
  let mappingAddress ← cint (address - m.registers.start.toInt)
  if mappingAddress < 0 ∨ (m.registers.nb : Int) ≤ mappingAddress then
    .ok (responseException be sft exceptionIllegalDataAddress false m)
  else
    let rspLength ← computeResponseLengthFromRequest be req
    if rspLength ≠ reqLength then
      .ok (responseException be sft exceptionIllegalDataValue false m)
    else
      let data ← rdWord req (be.headerLength + 3)
      let registers ← m.registers.modify (fun tab => setCell tab mappingAddress (UInt16.ofNat data))
        length_of_setCell
      let rsp ← rdSlice req 0 (rspLength - be.checksumLength).toNat
      .ok ⟨rsp, false, { m with registers := registers }⟩

def replyWriteMultipleCoils : Run Reply := do
  let nb ← rdWord req (be.headerLength + 3)
  let nbBits ← rd req (be.headerLength + 5)
  let mappingAddress ← cint (address - m.bits.start.toInt)
  if nb < 1 ∨ maxWriteBits < nb ∨ nbBits.toNat * 8 < nb then
    .ok (responseException be sft exceptionIllegalDataValue true m)
  else if ← rangeOutside mappingAddress nb m.bits.nb then
    .ok (responseException be sft exceptionIllegalDataAddress false m)
  else
    -- 6 = byte count
    let bits ← m.bits.modify
      (fun tab => modbusSetBitsFromBytes tab mappingAddress nb req (be.headerLength + 6))
      length_modbusSetBitsFromBytes
    let basis := buildResponseBasis be sft
    -- 4 to copy the bit address (2) and the quantity of bits
    let echo ← rdSlice req basis.length 4
    .ok ⟨basis ++ echo, false, { m with bits := bits }⟩

def replyWriteMultipleRegisters : Run Reply := do
  let nb ← rdWord req (be.headerLength + 3)
  let nbBytes ← rd req (be.headerLength + 5)
  let mappingAddress ← cint (address - m.registers.start.toInt)
  if nb < 1 ∨ maxWriteRegisters < nb ∨ nbBytes.toNat ≠ nb * 2 then
    .ok (responseException be sft exceptionIllegalDataValue true m)
  else if ← rangeOutside mappingAddress nb m.registers.nb then
    .ok (responseException be sft exceptionIllegalDataAddress false m)
  else
    -- 6 and 7 = first value
    let registers ← m.registers.modify
      (fun tab => writeRegisters req tab mappingAddress (be.headerLength + 6) nb)
      length_writeRegisters
    let basis := buildResponseBasis be sft
    -- 4 to copy the address (2) and the no. of registers
    let echo ← rdSlice req basis.length 4
    .ok ⟨basis ++ echo, false, { m with registers := registers }⟩

/-- `"LMB" LIBMODBUS_VERSION_STRING` behind the id and the run indicator. -/
def slaveIdData (ver : VersionString) : List UInt8 :=
  180 :: 0xFF :: 0x4C :: 0x4D :: 0x42 :: ver.chars

def replyReportSlaveId (ver : VersionString) : Run Reply :=
  .ok ⟨buildResponseBasis be sft ++ lo (slaveIdData ver).length :: slaveIdData ver, false, m⟩

def replyMaskWriteRegister : Run Reply := do
  let mappingAddress ← cint (address - m.registers.start.toInt)
  if mappingAddress < 0 ∨ (m.registers.nb : Int) ≤ mappingAddress then
    .ok (responseException be sft exceptionIllegalDataAddress false m)
  else
    let and ← rdWord req (be.headerLength + 3)
    let or ← rdWord req (be.headerLength + 5)
    let rspLength ← computeResponseLengthFromRequest be req
    if rspLength ≠ reqLength then
      .ok (responseException be sft exceptionIllegalDataValue false m)
    else
      let andMask := UInt16.ofNat and
      let orMask := UInt16.ofNat or
      let data ← cell m.registers.tab mappingAddress
      let registers ← m.registers.modify
        (fun tab => setCell tab mappingAddress ((data &&& andMask) ||| (orMask &&& ~~~andMask)))
        length_of_setCell
      let rsp ← rdSlice req 0 (rspLength - be.checksumLength).toNat
      .ok ⟨rsp, false, { m with registers := registers }⟩

def replyWriteAndReadRegisters : Run Reply := do
  let nb ← rdWord req (be.headerLength + 3)
  let addressWrite ← rdWord req (be.headerLength + 5)
  let nbWrite ← rdWord req (be.headerLength + 7)
  let nbWriteBytes ← rd req (be.headerLength + 9)
  let mappingAddress ← cint (address - m.registers.start.toInt)
  let mappingAddressWrite ← cint (addressWrite - m.registers.start.toInt)
  if nbWrite < 1 ∨ maxWrWriteRegisters < nbWrite ∨ nb < 1 ∨ maxWrReadRegisters < nb ∨
      nbWriteBytes.toNat ≠ nbWrite * 2 then
    .ok (responseException be sft exceptionIllegalDataValue true m)
  else if ← rangeOutside mappingAddress nb m.registers.nb then
    .ok (responseException be sft exceptionIllegalDataAddress false m)
  else if ← rangeOutside mappingAddressWrite nbWrite m.registers.nb then
    .ok (responseException be sft exceptionIllegalDataAddress false m)
  else
    -- write first; 10 and 11 are the offset of the first values to write
    let registers ← m.registers.modify
      (fun tab => writeRegisters req tab mappingAddressWrite (be.headerLength + 10) nbWrite)
      length_writeRegisters
    -- and read the data for the response
    let values ← readRegisters registers.tab mappingAddress nb
    .ok ⟨buildResponseBasis be sft ++ lo (2 * nb : Nat) :: values, false,
      { m with registers := registers }⟩

/-- `switch (function)` -/
def replySwitch (ver : VersionString) : Run Reply :=
  if sft.function = fcReadCoils then replyReadBits be sft req address m false
  else if sft.function = fcReadDiscreteInputs then replyReadBits be sft req address m true
  else if sft.function = fcReadHoldingRegisters then replyReadRegisters be sft req address m false
  else if sft.function = fcReadInputRegisters then replyReadRegisters be sft req address m true
  else if sft.function = fcWriteSingleCoil then
    replyWriteSingleCoil be sft req reqLength address m
  else if sft.function = fcWriteSingleRegister then
    replyWriteSingleRegister be sft req reqLength address m
  else if sft.function = fcWriteMultipleCoils then
    replyWriteMultipleCoils be sft req address m
  else if sft.function = fcWriteMultipleRegisters then
    replyWriteMultipleRegisters be sft req address m
  else if sft.function = fcReportSlaveId then replyReportSlaveId be sft m ver
  else if sft.function = fcMaskWriteRegister then
    replyMaskWriteRegister be sft req reqLength address m
  else if sft.function = fcWriteAndReadRegisters then
    replyWriteAndReadRegisters be sft req address m
  else
    -- READ EXCEPTION STATUS and all unknown functions
    .ok (responseException be sft exceptionIllegalFunction true m)

end Handlers

/-! ### modbus_reply -/

/-- The length a request must have to hold its meta fields and its declared data. -/
def neededLength (be : Backend) (req : List UInt8) (reqLength : Int) (function : Nat) :
    Run Nat := do
  let metaLength := computeMetaLengthAfterFunction function .indication
  if (be.headerLength + 1 + metaLength : Nat) ≤ reqLength then
    -- the meta fields are present, so the declared data length can be read
    let dataLength ← computeDataLengthAfterMeta be req .indication
    .ok (be.headerLength + 1 + metaLength + dataLength)
  else .ok (be.headerLength + 1 + metaLength)

/-- The response to a request that holds a slave and a function code, up to `send_msg`. -/
def buildReply (ver : VersionString) (be : Backend) (req : List UInt8) (reqLength : Int)
    (m : Mapping) : Run Reply := do
  let offset := be.headerLength
  let slave ← rd req (offset - 1)
  let function ← rd req offset
  let address ← if (offset + 3 : Nat) ≤ reqLength then rdWord req (offset + 1) else .ok 0
  let tId ← getResponseTid be req
  let sft : Sft := { slave := slave.toNat, function := function.toNat, tId := tId }
  let needed ← neededLength be req reqLength function.toNat
  if reqLength < needed then .ok (responseException be sft exceptionIllegalDataValue true m)
  else replySwitch be sft req reqLength address m ver

/-- Responses to broadcasts are suppressed in RTU, excepted when the quirk is enabled. -/
def suppressed (ctx : Modbus) (slave : UInt8) : Bool :=
  ctx.backend = .rtu && slave.toNat = broadcastAddress && !ctx.quirks.replyToBroadcast

/-- `modbus_reply` -/
def modbusReply (os : Os σ) (ver : VersionString) (st : St σ) (req : List UInt8) (reqLength : Int)
    (m : Mapping) : Run (Int × Mapping × St σ) :=
  if reqLength < (st.ctx.backend.headerLength + 1 : Nat) then
    .ok (-1, m, { st with errno := .EMBBADDATA })
  else do
    let slave ← rd req (st.ctx.backend.headerLength - 1)
    let reply ← buildReply ver st.ctx.backend req reqLength m
    let st ← if reply.flush then sleepAndFlush os st else .ok st
    if suppressed st.ctx slave then .ok (0, reply.mapping, st)
    else
      let (rc, st) ← sendMsg os st reply.rsp
      .ok (rc, reply.mapping, st)

/-- The last step of `modbus_reply`: the response is sent unless it is suppressed. -/
def sendReply (os : Os σ) (slave : UInt8) (reply : Reply) (st : St σ) :
    Run (Int × Mapping × St σ) :=
  if suppressed st.ctx slave then .ok (0, reply.mapping, st)
  else sendMsg os st reply.rsp >>= fun r => .ok (r.1, reply.mapping, r.2)

theorem modbusReply_eq (os : Os σ) (ver : VersionString) (st : St σ) (req : List UInt8)
    (reqLength : Int) (m : Mapping) :
    modbusReply os ver st req reqLength m =
      if reqLength < (st.ctx.backend.headerLength + 1 : Nat) then
        .ok (-1, m, { st with errno := .EMBBADDATA })
      else rd req (st.ctx.backend.headerLength - 1) >>= fun slave =>
        buildReply ver st.ctx.backend req reqLength m >>= fun reply =>
          if reply.flush then sleepAndFlush os st >>= sendReply os slave reply
          else sendReply os slave reply st :=
  rfl

/-- `modbus_reply_exception`: the response up to `send_msg`, none for an invalid code. -/
def buildReplyException (be : Backend) (req : List UInt8) (exceptionCode : Nat) :
    Run (Option (List UInt8)) := do
  let slave ← rd req (be.headerLength - 1)
  let function ← rd req be.headerLength
  let tId ← getResponseTid be req
  let sft : Sft := { slave := slave.toNat, function := function.toNat + 0x80, tId := tId }
  if exceptionCode < exceptionMax then
    .ok (some (buildResponseBasis be sft ++ [lo exceptionCode]))
  else .ok none

/-- `modbus_reply_exception` -/
def modbusReplyException (os : Os σ) (st : St σ) (req : List UInt8) (exceptionCode : Nat) :
    Run (Int × St σ) := do
  match ← buildReplyException st.ctx.backend req exceptionCode with
  | some rsp => sendMsg os st rsp
  | none => .ok (-1, { st with errno := .EINVAL })

end Libmodbus
