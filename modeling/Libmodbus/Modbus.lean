/-
Libmodbus/Modbus.lean

The context and its two backends.  A backend is the framing around a PDU:

    RTU   slave | pdu | crc (low byte first)
    TCP   transaction id (2) | protocol id (2) | length (2) | unit | pdu

The source calls the backends through a table of function pointers; here the
backend is a value of `Backend` and each entry of the table is one function of
it.  The TCP-PI backend differs from TCP only in how it connects, so it is not
a third value.  The `debug` switch only prints and is left out.
-/
import Libmodbus.Lib.Bytes
import Libmodbus.Lib.Posix

namespace Libmodbus

open CSem Wire Posix

/-! ### errno -/

/-- `errno`: a code of the system, or `MODBUS_ENOBASE + code`. -/
inductive Errno
  | sys (e : SysErrno)
  | mb (code : Nat)
  deriving DecidableEq, Repr

namespace Errno

abbrev EINVAL : Errno := .sys .EINVAL
abbrev EBADF : Errno := .sys .EBADF
abbrev EPIPE : Errno := .sys .EPIPE
abbrev ECONNRESET : Errno := .sys .ECONNRESET
abbrev ECONNREFUSED : Errno := .sys .ECONNREFUSED
abbrev ETIMEDOUT : Errno := .sys .ETIMEDOUT
abbrev EOVERFLOW : Errno := .sys .EOVERFLOW

abbrev EMBXILFUN : Errno := .mb 1
abbrev EMBXILADD : Errno := .mb 2
abbrev EMBXILVAL : Errno := .mb 3
abbrev EMBXGPATH : Errno := .mb 10
abbrev EMBXGTAR : Errno := .mb 11
abbrev EMBBADCRC : Errno := .mb 12
abbrev EMBBADDATA : Errno := .mb 13
abbrev EMBBADEXC : Errno := .mb 14
abbrev EMBBADSLAVE : Errno := .mb 17

end Errno

/-! ### Codes of the protocol -/

@[simp] abbrev fcReadCoils : Nat := 0x01
@[simp] abbrev fcReadDiscreteInputs : Nat := 0x02
@[simp] abbrev fcReadHoldingRegisters : Nat := 0x03
@[simp] abbrev fcReadInputRegisters : Nat := 0x04
@[simp] abbrev fcWriteSingleCoil : Nat := 0x05
@[simp] abbrev fcWriteSingleRegister : Nat := 0x06
@[simp] abbrev fcReadExceptionStatus : Nat := 0x07
@[simp] abbrev fcWriteMultipleCoils : Nat := 0x0F
@[simp] abbrev fcWriteMultipleRegisters : Nat := 0x10
@[simp] abbrev fcReportSlaveId : Nat := 0x11
@[simp] abbrev fcMaskWriteRegister : Nat := 0x16
@[simp] abbrev fcWriteAndReadRegisters : Nat := 0x17

@[simp] abbrev exceptionIllegalFunction : Nat := 0x01
@[simp] abbrev exceptionIllegalDataAddress : Nat := 0x02
@[simp] abbrev exceptionIllegalDataValue : Nat := 0x03
@[simp] abbrev exceptionGatewayPath : Nat := 0x0A
@[simp] abbrev exceptionGatewayTarget : Nat := 0x0B
@[simp] abbrev exceptionMax : Nat := 0x0C

@[simp] abbrev broadcastAddress : Nat := 0
@[simp] abbrev tcpSlave : Int := 0xFF

@[simp] abbrev maxReadBits : Nat := 2000
@[simp] abbrev maxWriteBits : Nat := 1968
@[simp] abbrev maxReadRegisters : Nat := 125
@[simp] abbrev maxWriteRegisters : Nat := 123
@[simp] abbrev maxWrWriteRegisters : Nat := 121
@[simp] abbrev maxWrReadRegisters : Nat := 125
@[simp] abbrev maxPduLength : Nat := 253

@[simp] abbrev fdSetSize : Int := 1024

/-! ### Contexts -/

inductive Backend
  | rtu
  | tcp
  deriving DecidableEq, Repr

def Backend.headerLength : Backend → Nat
  | .rtu => 1
  | .tcp => 7

def Backend.checksumLength : Backend → Nat
  | .rtu => 2
  | .tcp => 0

def Backend.maxAduLength : Backend → Nat
  | .rtu => 256
  | .tcp => 260

/-- `MODBUS_ERROR_RECOVERY_LINK` and `MODBUS_ERROR_RECOVERY_PROTOCOL`. -/
structure ErrorRecovery where
  link : Bool
  protocol : Bool
  deriving DecidableEq, Repr

/-- `MODBUS_QUIRK_MAX_SLAVE` and `MODBUS_QUIRK_REPLY_TO_BROADCAST`. -/
structure Quirks where
  maxSlave : Bool
  replyToBroadcast : Bool
  deriving DecidableEq, Repr

/-- `modbus_t` with the backend data its messages depend on. -/
structure Modbus where
  backend : Backend
  slave : Int
  /-- The socket or file descriptor, `-1` when there is none. -/
  s : Int
  errorRecovery : ErrorRecovery
  quirks : Quirks
  responseTimeout : Timeval
  byteTimeout : Timeval
  indicationTimeout : Timeval
  /-- `modbus_tcp_t.t_id`, unused in RTU. -/
  tId : UInt16
  /-- `modbus_rtu_t.confirmation_to_ignore`, unused in TCP. -/
  confirmationToIgnore : Bool
  deriving DecidableEq, Repr

/-- A context together with `errno` and the state of the system behind its descriptor. -/
structure St (σ : Type) where
  ctx : Modbus
  errno : Errno
  os : σ

variable {σ : Type}

/-- What a system call leaves in `errno` when it touches it. -/
def St.touch (st : St σ) (e : Option SysErrno) (os : σ) : St σ :=
  match e with
  | some e => { st with errno := .sys e, os := os }
  | none => { st with os := os }

/-- A descriptor that `FD_SET` accepts, as `modbus_connect` and `modbus_tcp_accept` leave it. -/
def Connected (ctx : Modbus) : Prop := 0 ≤ ctx.s ∧ ctx.s < fdSetSize

instance (ctx : Modbus) : Decidable (Connected ctx) := inferInstanceAs (Decidable (_ ∧ _))

/-- The context that `modbus_new_rtu` and `modbus_new_tcp` return. -/
def modbusNew (be : Backend) : Modbus where
  backend := be
  slave := match be with
    | .rtu => -1
    | .tcp => tcpSlave
  s := -1
  errorRecovery := ⟨false, false⟩
  quirks := ⟨false, false⟩
  responseTimeout := ⟨0, 500000⟩
  byteTimeout := ⟨0, 500000⟩
  indicationTimeout := ⟨0, 0⟩
  tId := 0
  confirmationToIgnore := false

/-- `_modbus_set_slave` of the two backends, with `EINVAL` for a refused number. -/
def modbusSetSlave (ctx : Modbus) (slave : Int) : Except Errno Modbus :=
  let maxSlave : Int := if ctx.quirks.maxSlave then 255 else 247
  if 0 ≤ slave ∧ slave ≤ maxSlave then .ok { ctx with slave := slave }
  else match ctx.backend with
    | .tcp => if slave = tcpSlave then .ok { ctx with slave := slave } else .error .EINVAL
    | .rtu => .error .EINVAL

/-! ### CRC -/

/-- Table of CRC values for high-order byte. -/
def tableCrcHi : List UInt8 := [
    0x00, 0xC1, 0x81, 0x40, 0x01, 0xC0, 0x80, 0x41, 0x01, 0xC0, 0x80, 0x41, 0x00, 0xC1,
    0x81, 0x40, 0x01, 0xC0, 0x80, 0x41, 0x00, 0xC1, 0x81, 0x40, 0x00, 0xC1, 0x81, 0x40,
    0x01, 0xC0, 0x80, 0x41, 0x01, 0xC0, 0x80, 0x41, 0x00, 0xC1, 0x81, 0x40, 0x00, 0xC1,
    0x81, 0x40, 0x01, 0xC0, 0x80, 0x41, 0x00, 0xC1, 0x81, 0x40, 0x01, 0xC0, 0x80, 0x41,
    0x01, 0xC0, 0x80, 0x41, 0x00, 0xC1, 0x81, 0x40, 0x01, 0xC0, 0x80, 0x41, 0x00, 0xC1,
    0x81, 0x40, 0x00, 0xC1, 0x81, 0x40, 0x01, 0xC0, 0x80, 0x41, 0x00, 0xC1, 0x81, 0x40,
    0x01, 0xC0, 0x80, 0x41, 0x01, 0xC0, 0x80, 0x41, 0x00, 0xC1, 0x81, 0x40, 0x00, 0xC1,
    0x81, 0x40, 0x01, 0xC0, 0x80, 0x41, 0x01, 0xC0, 0x80, 0x41, 0x00, 0xC1, 0x81, 0x40,
    0x01, 0xC0, 0x80, 0x41, 0x00, 0xC1, 0x81, 0x40, 0x00, 0xC1, 0x81, 0x40, 0x01, 0xC0,
    0x80, 0x41, 0x01, 0xC0, 0x80, 0x41, 0x00, 0xC1, 0x81, 0x40, 0x00, 0xC1, 0x81, 0x40,
    0x01, 0xC0, 0x80, 0x41, 0x00, 0xC1, 0x81, 0x40, 0x01, 0xC0, 0x80, 0x41, 0x01, 0xC0,
    0x80, 0x41, 0x00, 0xC1, 0x81, 0x40, 0x00, 0xC1, 0x81, 0x40, 0x01, 0xC0, 0x80, 0x41,
    0x01, 0xC0, 0x80, 0x41, 0x00, 0xC1, 0x81, 0x40, 0x01, 0xC0, 0x80, 0x41, 0x00, 0xC1,
    0x81, 0x40, 0x00, 0xC1, 0x81, 0x40, 0x01, 0xC0, 0x80, 0x41, 0x00, 0xC1, 0x81, 0x40,
    0x01, 0xC0, 0x80, 0x41, 0x01, 0xC0, 0x80, 0x41, 0x00, 0xC1, 0x81, 0x40, 0x01, 0xC0,
    0x80, 0x41, 0x00, 0xC1, 0x81, 0x40, 0x00, 0xC1, 0x81, 0x40, 0x01, 0xC0, 0x80, 0x41,
    0x01, 0xC0, 0x80, 0x41, 0x00, 0xC1, 0x81, 0x40, 0x00, 0xC1, 0x81, 0x40, 0x01, 0xC0,
    0x80, 0x41, 0x00, 0xC1, 0x81, 0x40, 0x01, 0xC0, 0x80, 0x41, 0x01, 0xC0, 0x80, 0x41,
    0x00, 0xC1, 0x81, 0x40]

/-- Table of CRC values for low-order byte. -/
def tableCrcLo : List UInt8 := [
    0x00, 0xC0, 0xC1, 0x01, 0xC3, 0x03, 0x02, 0xC2, 0xC6, 0x06, 0x07, 0xC7, 0x05, 0xC5,
    0xC4, 0x04, 0xCC, 0x0C, 0x0D, 0xCD, 0x0F, 0xCF, 0xCE, 0x0E, 0x0A, 0xCA, 0xCB, 0x0B,
    0xC9, 0x09, 0x08, 0xC8, 0xD8, 0x18, 0x19, 0xD9, 0x1B, 0xDB, 0xDA, 0x1A, 0x1E, 0xDE,
    0xDF, 0x1F, 0xDD, 0x1D, 0x1C, 0xDC, 0x14, 0xD4, 0xD5, 0x15, 0xD7, 0x17, 0x16, 0xD6,
    0xD2, 0x12, 0x13, 0xD3, 0x11, 0xD1, 0xD0, 0x10, 0xF0, 0x30, 0x31, 0xF1, 0x33, 0xF3,
    0xF2, 0x32, 0x36, 0xF6, 0xF7, 0x37, 0xF5, 0x35, 0x34, 0xF4, 0x3C, 0xFC, 0xFD, 0x3D,
    0xFF, 0x3F, 0x3E, 0xFE, 0xFA, 0x3A, 0x3B, 0xFB, 0x39, 0xF9, 0xF8, 0x38, 0x28, 0xE8,
    0xE9, 0x29, 0xEB, 0x2B, 0x2A, 0xEA, 0xEE, 0x2E, 0x2F, 0xEF, 0x2D, 0xED, 0xEC, 0x2C,
    0xE4, 0x24, 0x25, 0xE5, 0x27, 0xE7, 0xE6, 0x26, 0x22, 0xE2, 0xE3, 0x23, 0xE1, 0x21,
    0x20, 0xE0, 0xA0, 0x60, 0x61, 0xA1, 0x63, 0xA3, 0xA2, 0x62, 0x66, 0xA6, 0xA7, 0x67,
    0xA5, 0x65, 0x64, 0xA4, 0x6C, 0xAC, 0xAD, 0x6D, 0xAF, 0x6F, 0x6E, 0xAE, 0xAA, 0x6A,
    0x6B, 0xAB, 0x69, 0xA9, 0xA8, 0x68, 0x78, 0xB8, 0xB9, 0x79, 0xBB, 0x7B, 0x7A, 0xBA,
    0xBE, 0x7E, 0x7F, 0xBF, 0x7D, 0xBD, 0xBC, 0x7C, 0xB4, 0x74, 0x75, 0xB5, 0x77, 0xB7,
    0xB6, 0x76, 0x72, 0xB2, 0xB3, 0x73, 0xB1, 0x71, 0x70, 0xB0, 0x50, 0x90, 0x91, 0x51,
    0x93, 0x53, 0x52, 0x92, 0x96, 0x56, 0x57, 0x97, 0x55, 0x95, 0x94, 0x54, 0x9C, 0x5C,
    0x5D, 0x9D, 0x5F, 0x9F, 0x9E, 0x5E, 0x5A, 0x9A, 0x9B, 0x5B, 0x99, 0x59, 0x58, 0x98,
    0x88, 0x48, 0x49, 0x89, 0x4B, 0x8B, 0x8A, 0x4A, 0x4E, 0x8E, 0x8F, 0x4F, 0x8D, 0x4D,
    0x4C, 0x8C, 0x44, 0x84, 0x85, 0x45, 0x87, 0x47, 0x46, 0x86, 0x82, 0x42, 0x43, 0x83,
    0x41, 0x81, 0x80, 0x40]

def crc16Loop : List UInt8 → UInt8 → UInt8 → UInt8 × UInt8
  | [], crcHi, crcLo => (crcHi, crcLo)
  | b :: buffer, crcHi, crcLo =>
    let i := (crcLo ^^^ b).toNat
    crc16Loop buffer (tableCrcLo.getD i 0) (crcHi ^^^ tableCrcHi.getD i 0)

def crc16 (buffer : List UInt8) : Nat :=
  let (crcHi, crcLo) := crc16Loop buffer 0xFF 0xFF
  word crcHi crcLo

/-! ### Headers -/

/-- `(msg[i] << 8) + msg[i + 1]` -/
def rdWord (msg : List UInt8) (i : Nat) : Run Nat := do
  let h ← rd msg i
  let l ← rd msg (i + 1)
  .ok (word h l)

theorem rdWord_lt {msg : List UInt8} {i : Nat} (h : i + 1 < msg.length) :
    rdWord msg i = .ok (word (msg.get ⟨i, Nat.lt_of_succ_lt h⟩) msg[i + 1]) := by
  simp only [rdWord, rd_lt h, rd_lt (Nat.lt_of_succ_lt h), ok_bind, List.get_eq_getElem]

/-- `sft_t` -/
structure Sft where
  slave : Nat
  function : Nat
  tId : Int
  deriving DecidableEq, Repr

/-- The transaction id of the next request. -/
def nextTId (tId : UInt16) : UInt16 := if tId.toNat < 65535 then tId + 1 else 0

/-- `build_request_basis`.  Bytes 4 and 5 of the TCP header are left to `sendMsgPre`. -/
def buildRequestBasis (ctx : Modbus) (function : Nat) (addr nb : Int) :
    Run (List UInt8 × Modbus) :=
  match ctx.backend with
  | .rtu =>
    if ctx.slave = -1 then .error .assertFailed
    else .ok ([lo ctx.slave, lo function, hi addr, lo addr, hi nb, lo nb], ctx)
  | .tcp =>
    let tId := nextTId ctx.tId
    .ok ([hi tId.toNat, lo tId.toNat, 0, 0, 0, 0, lo ctx.slave, lo function,
      hi addr, lo addr, hi nb, lo nb], { ctx with tId := tId })

/-- `build_response_basis`.  Bytes 4 and 5 of the TCP header are left to `sendMsgPre`. -/
def buildResponseBasis (be : Backend) (sft : Sft) : List UInt8 :=
  match be with
  | .rtu => [lo sft.slave, lo sft.function]
  | .tcp => [hi sft.tId, lo sft.tId, 0, 0, 0, 0, lo sft.slave, lo sft.function]

/-- `get_response_tid` -/
def getResponseTid (be : Backend) (req : List UInt8) : Run Int :=
  match be with
  | .rtu => .ok 0
  | .tcp => do
    let h ← rd req 0
    let l ← rd req 1
    .ok (word h l)

/-- `send_msg_pre`: the length of a TCP message, the CRC of an RTU one. -/
def sendMsgPre (be : Backend) (req : List UInt8) : List UInt8 :=
  match be with
  | .rtu => req ++ [lo (crc16 req), hi (crc16 req)]
  | .tcp =>
    let mbapLength : Int := req.length - 6
    (req.set 4 (hi mbapLength)).set 5 (lo mbapLength)

/-- `pre_check_confirmation`, with the `errno` of a refused confirmation. -/
def preCheckConfirmation (be : Backend) (req rsp : List UInt8) : Run (Option Errno) :=
  match be with
  | .tcp => do
    let reqT ← rd req 0
    let rspT ← rd rsp 0
    let reqT' ← rd req 1
    let rspT' ← rd rsp 1
    if reqT ≠ rspT ∨ reqT' ≠ rspT' then .ok (some .EMBBADDATA)
    else
      let protocolHi ← rd rsp 2
      let protocolLo ← rd rsp 3
      if word protocolHi protocolLo ≠ 0 then .ok (some .EMBBADDATA) else .ok none
  | .rtu => do
    let reqSlave ← rd req 0
    let rspSlave ← rd rsp 0
    if reqSlave ≠ rspSlave ∧ reqSlave.toNat ≠ broadcastAddress then .ok (some .EMBBADSLAVE)
    else .ok none

end Libmodbus
