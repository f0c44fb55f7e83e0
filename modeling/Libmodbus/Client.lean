/-
Libmodbus/Client.lean

The client calls.  Every call builds a request, sends it, receives a
confirmation and checks it (`exchange`); the calls differ in the request they
build and in what they take out of the confirmation.

The arrays of the caller are lists: `src` is read and `dest` written inside its
bounds only, and the result is the new content of `dest`.  A list is never a
NULL pointer, so the NULL checks have no counterpart.
-/
import Libmodbus.Receive

namespace Libmodbus

open CSem Wire Posix

variable {σ : Type}

/-! ### check_confirmation -/

/-- A confirmation that is refused as bad data: protocol recovery, then `errno`. -/
def refuseConfirmation (os : Os σ) (st : St σ) : Run (Int × St σ) := do
  let st ← if st.ctx.errorRecovery.protocol then sleepAndFlush os st else .ok st
  .ok (-1, { st with errno := .EMBBADDATA })

/-- The two bytes at `i` are the same in request and response. -/
def sameWord (req rsp : List UInt8) (i : Nat) : Run Bool := do
  let reqH ← rd req i
  let rspH ← rd rsp i
  let reqL ← rd req (i + 1)
  let rspL ← rd rsp (i + 1)
  .ok (decide (reqH = rspH ∧ reqL = rspL))

/-- The switch of `check_confirmation`: `req_nb_value`, `rsp_nb_value`, and whether the echoed
address and data are right. -/
def confirmationValues (offset function : Nat) (req rsp : List UInt8) : Run (Nat × Nat × Bool) :=
  if function = fcReadCoils ∨ function = fcReadDiscreteInputs then do
    -- 8 values in a byte
    let h ← rd req (offset + 3)
    let l ← rd req (offset + 4)
    let reqNbValue := word h l
    let rspNbValue ← rd rsp (offset + 1)
    .ok (reqNbValue / 8 + (if reqNbValue % 8 ≠ 0 then 1 else 0), rspNbValue.toNat, true)
  else if function = fcWriteAndReadRegisters ∨ function = fcReadHoldingRegisters ∨
      function = fcReadInputRegisters then do
    -- 1 value = 2 bytes
    let h ← rd req (offset + 3)
    let l ← rd req (offset + 4)
    let rspNbValue ← rd rsp (offset + 1)
    .ok (word h l, rspNbValue.toNat / 2, true)
  else if function = fcWriteMultipleCoils ∨ function = fcWriteMultipleRegisters then do
    let addrOk ← sameWord req rsp (offset + 1)
    let reqH ← rd req (offset + 3)
    let reqL ← rd req (offset + 4)
    let rspH ← rd rsp (offset + 3)
    let rspL ← rd rsp (offset + 4)
    .ok (word reqH reqL, word rspH rspL, addrOk)
  else if function = fcReportSlaveId then do
    -- bytes received
    let nbValue ← rd rsp (offset + 1)
    .ok (nbValue.toNat, nbValue.toNat, true)
  else if function = fcWriteSingleCoil ∨ function = fcWriteSingleRegister then do
    let addrOk ← sameWord req rsp (offset + 1)
    let dataOk ← sameWord req rsp (offset + 3)
    .ok (1, 1, addrOk && dataOk)
  else .ok (1, 1, true)

/-- `check_confirmation` -/
def checkConfirmation (os : Os σ) (st : St σ) (req rsp : List UInt8) (rspLength : Int) :
    Run (Int × St σ) := do
  let be := st.ctx.backend
  let offset := be.headerLength
  let function ← rd rsp offset
  match ← preCheckConfirmation be req rsp with
  | some e =>
    let st := { st with errno := e }
    let st ← if st.ctx.errorRecovery.protocol then sleepAndFlush os st else .ok st
    .ok (-1, st)
  | none =>
    let rspLengthComputed ← computeResponseLengthFromRequest be req
    let reqFunction ← rd req offset
    if 0x80 ≤ function.toNat then
      if rspLength = (offset + 2 + be.checksumLength : Nat) ∧
          reqFunction.toNat = function.toNat - 0x80 then
        let exceptionCode ← rd rsp (offset + 1)
        if exceptionCode.toNat < exceptionMax then
          .ok (-1, { st with errno := .mb exceptionCode.toNat })
        else .ok (-1, { st with errno := .EMBBADEXC })
      else .ok (-1, { st with errno := .EMBBADEXC })
    else if rspLength = rspLengthComputed ∨ rspLengthComputed = -1 then
      if function ≠ reqFunction then refuseConfirmation os st
      else
        let (reqNbValue, rspNbValue, echoOk) ← confirmationValues offset function.toNat req rsp
        if reqNbValue = rspNbValue ∧ echoOk then .ok (rspNbValue, st)
        else refuseConfirmation os st
    else refuseConfirmation os st

/-- Sends the request and, when it has left, receives and checks the confirmation.  The request
is checked as it was sent, with what `send_msg_pre` has written into it. -/
def exchange (os : Os σ) (st : St σ) (req : List UInt8) : Run (Int × List UInt8 × St σ) := do
  let (rc, st) ← sendMsg os st req
  if 0 < rc then
    let (rc, rsp, st) ← modbusReceiveMsg os st .confirmation
    if rc = -1 then .ok (-1, rsp, st)
    else
      let (rc, st) ← checkConfirmation os st (sendMsgPre st.ctx.backend req) rsp rc
      .ok (rc, rsp, st)
  else .ok (rc, [], st)

/-! ### Reading bits -/

/-- The bits of one byte of the response, as long as `pos < nb`; `n` is the number of values
of `bit` that are left. -/
def readByteLoop (temp nb : Nat) : Nat → Nat → Nat → List UInt8 → Run (Nat × List UInt8)
  | 0, _, pos, dest => .ok (pos, dest)
  | n + 1, bit, pos, dest =>
    if pos < nb then do
      let dest ← wr dest pos (if temp &&& bit ≠ 0 then 1 else 0)
      readByteLoop temp nb n (bit <<< 1) (pos + 1) dest
    else .ok (pos, dest)

def readBitsLoop (rsp : List UInt8) (nb : Nat) :
    Nat → Nat → Nat → List UInt8 → Run (List UInt8)
  | _, 0, _, dest => .ok dest
  | i, n + 1, pos, dest => do
    let temp ← rd rsp i
    let (pos, dest) ← readByteLoop temp.toNat nb 8 0x01 pos dest
    readBitsLoop rsp nb (i + 1) n pos dest

/-- `read_io_status` -/
def readIoStatus (os : Os σ) (st : St σ) (function : Nat) (addr nb : Int) (dest : List UInt8) :
    Run (Int × List UInt8 × St σ) := do
  let (req, ctx) ← buildRequestBasis st.ctx function addr nb
  let (rc, rsp, st) ← exchange os { st with ctx := ctx } req
  if rc = -1 then .ok (-1, dest, st)
  else
    let dest ← readBitsLoop rsp nb.toNat (st.ctx.backend.headerLength + 2) rc.toNat 0 dest
    .ok (rc, dest, st)

/-- `modbus_read_bits` and `modbus_read_input_bits`, which differ in the function code. -/
def readBits (os : Os σ) (st : St σ) (function : Nat) (addr nb : Int) (dest : List UInt8) :
    Run (Int × List UInt8 × St σ) :=
  if nb < 1 ∨ (maxReadBits : Int) < nb then .ok (-1, dest, { st with errno := .EMBXILVAL })
  else do
    let (rc, dest, st) ← readIoStatus os st function addr nb dest
    if rc = -1 then .ok (-1, dest, st) else .ok (nb, dest, st)

def modbusReadBits (os : Os σ) (st : St σ) (addr nb : Int) (dest : List UInt8) :
    Run (Int × List UInt8 × St σ) := readBits os st fcReadCoils addr nb dest

def modbusReadInputBits (os : Os σ) (st : St σ) (addr nb : Int) (dest : List UInt8) :
    Run (Int × List UInt8 × St σ) := readBits os st fcReadDiscreteInputs addr nb dest

/-! ### Reading registers -/

/-- The registers of the response from index `i` on go to `dest`. -/
def storeRegisters (rsp : List UInt8) (offset : Nat) :
    Nat → Nat → List UInt16 → Run (List UInt16)
  | _, 0, dest => .ok dest
  | i, n + 1, dest => do
    let h ← rd rsp (offset + 2 + 2 * i)
    let l ← rd rsp (offset + 3 + 2 * i)
    let dest ← wr dest i (UInt16.ofNat (word h l))
    storeRegisters rsp offset (i + 1) n dest

/-- `read_registers` -/
def readRegistersCall (os : Os σ) (st : St σ) (function : Nat) (addr nb : Int)
    (dest : List UInt16) : Run (Int × List UInt16 × St σ) :=
  if (maxReadRegisters : Int) < nb then .ok (-1, dest, { st with errno := .EMBXILVAL })
  else do
    let (req, ctx) ← buildRequestBasis st.ctx function addr nb
    let (rc, rsp, st) ← exchange os { st with ctx := ctx } req
    if rc = -1 then .ok (-1, dest, st)
    else
      let dest ← storeRegisters rsp st.ctx.backend.headerLength 0 rc.toNat dest
      .ok (rc, dest, st)

/-- `modbus_read_registers` and `modbus_read_input_registers`, which differ in the function
code. -/
def readAnyRegisters (os : Os σ) (st : St σ) (function : Nat) (addr nb : Int)
    (dest : List UInt16) : Run (Int × List UInt16 × St σ) :=
  if nb < 1 ∨ (maxReadRegisters : Int) < nb then .ok (-1, dest, { st with errno := .EMBXILVAL })
  else readRegistersCall os st function addr nb dest

def modbusReadRegisters (os : Os σ) (st : St σ) (addr nb : Int) (dest : List UInt16) :
    Run (Int × List UInt16 × St σ) := readAnyRegisters os st fcReadHoldingRegisters addr nb dest

def modbusReadInputRegisters (os : Os σ) (st : St σ) (addr nb : Int) (dest : List UInt16) :
    Run (Int × List UInt16 × St σ) := readAnyRegisters os st fcReadInputRegisters addr nb dest

/-! ### Writing -/

/-- `write_single` -/
def writeSingle (os : Os σ) (st : St σ) (function : Nat) (addr : Int) (value : UInt16) :
    Run (Int × St σ) := do
  let (req, ctx) ← buildRequestBasis st.ctx function addr value.toNat
  let (rc, _, st) ← exchange os { st with ctx := ctx } req
  .ok (rc, st)

def modbusWriteBit (os : Os σ) (st : St σ) (addr status : Int) : Run (Int × St σ) :=
  writeSingle os st fcWriteSingleCoil addr (if status ≠ 0 then 0xFF00 else 0)

def modbusWriteRegister (os : Os σ) (st : St σ) (addr : Int) (value : UInt16) :
    Run (Int × St σ) :=
  writeSingle os st fcWriteSingleRegister addr value

/-- The inner loop of `modbus_write_bits`: `pos` and `bit_check` count together up to `nb`, and
`bit` runs out of the byte after eight turns. -/
def packByteLoop (src : List UInt8) (nb : Nat) :
    Nat → UInt8 → Nat → UInt8 → Run (Nat × UInt8)
  | 0, _, pos, byte => .ok (pos, byte)
  | n + 1, bit, pos, byte =>
    if pos < nb then do
      let v ← rd src pos
      packByteLoop src nb n (bit <<< 1) (pos + 1)
        (if v ≠ 0 then byte ||| bit else byte &&& ~~~bit)
    else .ok (pos, byte)

def packBytesLoop (src : List UInt8) (nb : Nat) : Nat → Nat → Run (List UInt8)
  | 0, _ => .ok []
  | n + 1, pos => do
    let (pos, byte) ← packByteLoop src nb 8 0x01 pos 0
    let rest ← packBytesLoop src nb n pos
    .ok (byte :: rest)

def modbusWriteBits (os : Os σ) (st : St σ) (addr nb : Int) (src : List UInt8) :
    Run (Int × St σ) :=
  if nb < 1 ∨ (maxWriteBits : Int) < nb then .ok (-1, { st with errno := .EMBXILVAL })
  else do
    let (req, ctx) ← buildRequestBasis st.ctx fcWriteMultipleCoils addr nb
    let byteCount := nb.toNat / 8 + (if nb.toNat % 8 ≠ 0 then 1 else 0)
    let bytes ← packBytesLoop src nb.toNat byteCount 0
    let (rc, _, st) ← exchange os { st with ctx := ctx } (req ++ lo byteCount :: bytes)
    .ok (rc, st)

/-- `src[i] .. src[i + n)` into the request, high byte first. -/
def putRegisters (src : List UInt16) : Nat → Nat → Run (List UInt8)
  | _, 0 => .ok []
  | i, n + 1 => do
    let v ← rd src i
    let rest ← putRegisters src (i + 1) n
    .ok (hi v.toNat :: lo v.toNat :: rest)

def modbusWriteRegisters (os : Os σ) (st : St σ) (addr nb : Int) (src : List UInt16) :
    Run (Int × St σ) :=
  if nb < 1 ∨ (maxWriteRegisters : Int) < nb then .ok (-1, { st with errno := .EMBXILVAL })
  else do
    let (req, ctx) ← buildRequestBasis st.ctx fcWriteMultipleRegisters addr nb
    let bytes ← putRegisters src 0 nb.toNat
    let (rc, _, st) ← exchange os { st with ctx := ctx } (req ++ lo (nb * 2) :: bytes)
    .ok (rc, st)

def modbusMaskWriteRegister (os : Os σ) (st : St σ) (addr : Int) (andMask orMask : UInt16) :
    Run (Int × St σ) := do
  let (req, ctx) ← buildRequestBasis st.ctx fcMaskWriteRegister addr 0
  -- count is not used
  let req := req.take (req.length - 2)
  let (rc, _, st) ← exchange os { st with ctx := ctx }
    (req ++ [hi andMask.toNat, lo andMask.toNat, hi orMask.toNat, lo orMask.toNat])
  .ok (rc, st)

def modbusWriteAndReadRegisters (os : Os σ) (st : St σ) (writeAddr writeNb : Int)
    (src : List UInt16) (readAddr readNb : Int) (dest : List UInt16) :
    Run (Int × List UInt16 × St σ) :=
  if writeNb < 1 ∨ readNb < 1 then .ok (-1, dest, { st with errno := .EINVAL })
  else if (maxWrWriteRegisters : Int) < writeNb then
    .ok (-1, dest, { st with errno := .EMBXILVAL })
  else if (maxWrReadRegisters : Int) < readNb then
    .ok (-1, dest, { st with errno := .EMBXILVAL })
  else do
    let (req, ctx) ← buildRequestBasis st.ctx fcWriteAndReadRegisters readAddr readNb
    let bytes ← putRegisters src 0 writeNb.toNat
    let (rc, rsp, st) ← exchange os { st with ctx := ctx }
      (req ++ [hi writeAddr, lo writeAddr, hi writeNb, lo writeNb, lo (writeNb * 2)] ++ bytes)
    if rc = -1 then .ok (-1, dest, st)
    else
      let dest ← storeRegisters rsp st.ctx.backend.headerLength 0 rc.toNat dest
      .ok (rc, dest, st)

/-! ### Report slave id -/

/-- `dest[i] = rsp[offset + i]` for the next `n` values of `i`. -/
def copyBytes (rsp : List UInt8) (offset : Nat) : Nat → Nat → List UInt8 → Run (List UInt8)
  | _, 0, dest => .ok dest
  | i, n + 1, dest => do
    let b ← rd rsp (offset + i)
    let dest ← wr dest i b
    copyBytes rsp offset (i + 1) n dest

def modbusReportSlaveId (os : Os σ) (st : St σ) (maxDest : Int) (dest : List UInt8) :
    Run (Int × List UInt8 × St σ) :=
  if maxDest ≤ 0 then .ok (-1, dest, { st with errno := .EINVAL })
  else do
    let (req, ctx) ← buildRequestBasis st.ctx fcReportSlaveId 0 0
    -- addr and count are not used
    let req := req.take (req.length - 4)
    let (rc, rsp, st) ← exchange os { st with ctx := ctx } req
    if rc = -1 then .ok (-1, dest, st)
    else
      let dest ← copyBytes rsp (st.ctx.backend.headerLength + 2) 0 (min rc maxDest).toNat dest
      .ok (rc, dest, st)

end Libmodbus
