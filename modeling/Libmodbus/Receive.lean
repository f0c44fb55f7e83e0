/-
Libmodbus/Receive.lean

Receiving: the length tables, the three-step loop of `_modbus_receive_msg`,
the integrity check of the two backends and `modbus_receive`.

The loop is split at its system calls.  `nextStep` is the switch at the end of
its body, a pure function of the bytes stored so far; `receiveLoop` is the rest.
A received message is the list of bytes stored in the caller's buffer, also
when the call fails half way.
-/
import Libmodbus.Send

namespace Libmodbus

open CSem Wire Posix

variable {σ : Type}

/-- Request message on the server side, or response on the client side. -/
inductive MsgType
  | indication
  | confirmation
  deriving DecidableEq, Repr

/-! ### Lengths -/

/-- The length to read after the function received. -/
def computeMetaLengthAfterFunction (function : Nat) : MsgType → Nat
  | .indication =>
    if function ≤ fcWriteSingleRegister then 4
    else if function = fcWriteMultipleCoils ∨ function = fcWriteMultipleRegisters then 5
    else if function = fcMaskWriteRegister then 6
    else if function = fcWriteAndReadRegisters then 9
    else 0
  | .confirmation =>
    if function = fcWriteSingleCoil ∨ function = fcWriteSingleRegister ∨
        function = fcWriteMultipleCoils ∨ function = fcWriteMultipleRegisters then 4
    else if function = fcMaskWriteRegister then 6
    else 1

/-- Where the byte count stands after the function code, for the functions that have one. -/
def byteCountPos (function : Nat) : MsgType → Option Nat
  | .indication =>
    if function = fcWriteMultipleCoils ∨ function = fcWriteMultipleRegisters then some 5
    else if function = fcWriteAndReadRegisters then some 9
    else none
  | .confirmation =>
    if function ≤ fcReadInputRegisters ∨ function = fcReportSlaveId ∨
        function = fcWriteAndReadRegisters then some 1
    else none

/-- The length to read after the meta information (address, count, etc). -/
def computeDataLengthAfterMeta (be : Backend) (msg : List UInt8) (mt : MsgType) : Run Nat := do
  let function ← rd msg be.headerLength
  match byteCountPos function.toNat mt with
  | some pos =>
    let length ← rd msg (be.headerLength + pos)
    .ok (length.toNat + be.checksumLength)
  | none => .ok be.checksumLength

/-- The length of the expected response including checksum, `-1` when it is not defined. -/
def computeResponseLengthFromRequest (be : Backend) (req : List UInt8) : Run Int := do
  let offset := be.headerLength
  let function ← rd req offset
  if function.toNat = fcReadCoils ∨ function.toNat = fcReadDiscreteInputs then
    let h ← rd req (offset + 3)
    let l ← rd req (offset + 4)
    let nb := word h l
    .ok ((offset + (2 + nb / 8 + (if nb % 8 ≠ 0 then 1 else 0)) + be.checksumLength : Nat) : Int)
  else if function.toNat = fcWriteAndReadRegisters ∨ function.toNat = fcReadHoldingRegisters ∨
      function.toNat = fcReadInputRegisters then
    let h ← rd req (offset + 3)
    let l ← rd req (offset + 4)
    .ok ((offset + (2 + 2 * word h l) + be.checksumLength : Nat) : Int)
  else if function.toNat = fcReadExceptionStatus then
    .ok ((offset + 3 + be.checksumLength : Nat) : Int)
  else if function.toNat = fcReportSlaveId then .ok (-1)
  else if function.toNat = fcMaskWriteRegister then
    .ok ((offset + 7 + be.checksumLength : Nat) : Int)
  else .ok ((offset + 5 + be.checksumLength : Nat) : Int)

/-- A request that reads bits: its quantity stands behind the address. -/
theorem computeResponseLength_bits {be : Backend} {req : List UInt8} {function h l : UInt8}
    (hf : rd req be.headerLength = .ok function)
    (hfc : function.toNat = fcReadCoils ∨ function.toNat = fcReadDiscreteInputs)
    (hh : rd req (be.headerLength + 3) = .ok h) (hl : rd req (be.headerLength + 4) = .ok l) :
    computeResponseLengthFromRequest be req =
      .ok ((be.headerLength + (2 + word h l / 8 + (if word h l % 8 ≠ 0 then 1 else 0)) +
        be.checksumLength : Nat) : Int) := by
  rw [computeResponseLengthFromRequest, hf, ok_bind, if_pos hfc, hh, ok_bind, hl, ok_bind]

/-- A request that reads registers. -/
theorem computeResponseLength_registers {be : Backend} {req : List UInt8} {function h l : UInt8}
    (hf : rd req be.headerLength = .ok function)
    (hfc : function.toNat = fcWriteAndReadRegisters ∨ function.toNat = fcReadHoldingRegisters ∨
      function.toNat = fcReadInputRegisters)
    (hh : rd req (be.headerLength + 3) = .ok h) (hl : rd req (be.headerLength + 4) = .ok l) :
    computeResponseLengthFromRequest be req =
      .ok ((be.headerLength + (2 + 2 * word h l) + be.checksumLength : Nat) : Int) := by
  have hbits : ¬ (function.toNat = fcReadCoils ∨ function.toNat = fcReadDiscreteInputs) := by
    simp only [fcReadCoils, fcReadDiscreteInputs, fcWriteAndReadRegisters, fcReadHoldingRegisters,
      fcReadInputRegisters] at hfc ⊢
    omega
  rw [computeResponseLengthFromRequest, hf, ok_bind, if_neg hbits, if_pos hfc, hh, ok_bind, hl,
    ok_bind]

/-! ### The steps of the parser -/

/-- `_step_t` -/
inductive Step
  | function
  | metaInfo
  | data
  deriving DecidableEq, Repr

/-- The variables of the loop: the bytes stored, `length_to_read`, `step` and `p_tv`. -/
structure RecvState where
  msg : List UInt8
  lengthToRead : Nat
  step : Step
  tv : Option Timeval
  deriving DecidableEq, Repr

/-- `case _STEP_META` -/
def stepMeta (be : Backend) (mt : MsgType) (r : RecvState) : Run (Except Errno RecvState) := do
  let length ← computeDataLengthAfterMeta be r.msg mt
  if be.maxAduLength < r.msg.length + length then .ok (.error .EMBBADDATA)
  else .ok (.ok { r with lengthToRead := length, step := .data })

/-- `case _STEP_FUNCTION`, which switches straight to the next step when there is no meta. -/
def stepFunction (be : Backend) (mt : MsgType) (r : RecvState) :
    Run (Except Errno RecvState) := do
  let function ← rd r.msg be.headerLength
  let length := computeMetaLengthAfterFunction function.toNat mt
  if length ≠ 0 then .ok (.ok { r with lengthToRead := length, step := .metaInfo })
  else stepMeta be mt r

/-- The switch at the end of the loop, taken when `length_to_read` has come down to zero. -/
def nextStep (be : Backend) (mt : MsgType) (r : RecvState) : Run (Except Errno RecvState) :=
  match r.step with
  | .function => stepFunction be mt r
  | .metaInfo => stepMeta be mt r
  | .data => .ok (.ok r)

/-- The byte timeout replaces the first one while bytes are missing, unless it is disabled. -/
def RecvState.rearm (byteTimeout : Timeval) (r : RecvState) : RecvState :=
  if 0 < r.lengthToRead ∧ (0 < byteTimeout.sec ∨ 0 < byteTimeout.usec) then
    { r with tv := some byteTimeout }
  else r

/-- The loop body after `recv` has returned `bytes`. -/
def afterRecv (ctx : Modbus) (mt : MsgType) (r : RecvState) (bytes : List UInt8) :
    Run (Except Errno RecvState) := do
  let r := { r with msg := r.msg ++ bytes, lengthToRead := r.lengthToRead - bytes.length }
  let res ← if r.lengthToRead = 0 then nextStep ctx.backend mt r else .ok (.ok r)
  .ok (res.map (RecvState.rearm ctx.byteTimeout))

/-! ### System calls of the loop -/

/-- `_modbus_tcp_select` and `_modbus_rtu_select`: `false` stands for `-1`. -/
def backendSelect (os : Os σ) : Nat → St σ → Option Timeval → Run (Bool × St σ)
  | 0, _, _ => .error .outOfFuel
  | fuel + 1, st, tv =>
    match os.select tv st.os with
    | (.ready, s) => .ok (true, { st with os := s })
    | (.timeout, s) => .ok (false, { st with errno := .ETIMEDOUT, os := s })
    | (.failed e, s) =>
      let st := { st with errno := .sys e, os := s }
      if e = .EINTR then
        if st.ctx.s < 0 ∨ fdSetSize ≤ st.ctx.s then .ok (false, { st with errno := .EINVAL })
        else backendSelect os fuel st tv
      else .ok (false, st)

/-- Link recovery after a failed `select`. -/
def recoverSelect (os : Os σ) (st : St σ) : Run (St σ) := do
  let savedErrno := st.errno
  if ¬ st.ctx.errorRecovery.link then .ok st
  else if st.errno = .ETIMEDOUT then
    let st ← sleepAndFlush os st
    .ok { st with errno := savedErrno }
  else if st.errno = .EBADF then
    let (_, st) := modbusConnect os (modbusClose os st)
    .ok { st with errno := savedErrno }
  else .ok st

/-- Without link recovery a failed `select` is only reported. -/
theorem recoverSelect_off (os : Os σ) {st : St σ} (hlink : st.ctx.errorRecovery.link = false) :
    recoverSelect os st = .ok st := by
  unfold recoverSelect
  simp only [hlink, Bool.false_eq_true, not_false_eq_true, if_true]

/-- Link recovery after a failed `recv`. -/
def recoverRecv (os : Os σ) (st : St σ) : St σ :=
  let savedErrno := st.errno
  if st.ctx.errorRecovery.link ∧
      (st.errno = .ECONNRESET ∨ st.errno = .ECONNREFUSED ∨ st.errno = .EBADF) then
    let (_, st) := modbusConnect os (modbusClose os st)
    { st with errno := savedErrno }
  else st

/-- `check_integrity` of the two backends. -/
def checkIntegrity (os : Os σ) (st : St σ) (msg : List UInt8) : Run (Int × St σ) :=
  match st.ctx.backend with
  | .tcp => .ok (msg.length, st)
  | .rtu => do
    let slave ← rd msg 0
    let crcCalculated := crc16 (msg.take (msg.length - 2))
    let h ← rd msg (msg.length - 1)
    let l ← rd msg (msg.length - 2)
    if crcCalculated ≠ word h l then
      if st.ctx.errorRecovery.protocol then
        let (_, st) ← modbusFlush os st
        .ok (-1, { st with errno := .EMBBADCRC })
      else .ok (-1, { st with errno := .EMBBADCRC })
    else if (slave.toNat : Int) ≠ st.ctx.slave ∧ slave.toNat ≠ broadcastAddress then .ok (0, st)
    else .ok (msg.length, st)

/-! ### _modbus_receive_msg -/

/-- `while (length_to_read != 0)`, and the integrity check after it. -/
def receiveLoop (os : Os σ) (mt : MsgType) :
    Nat → St σ → RecvState → Run (Int × List UInt8 × St σ)
  | 0, _, _ => .error .outOfFuel
  | fuel + 1, st, r =>
    if r.lengthToRead = 0 then do
      let (rc, st) ← checkIntegrity os st r.msg
      .ok (rc, r.msg, st)
    else do
      let (ready, st) ← backendSelect os os.fuel st r.tv
      if ¬ ready then
        let st ← recoverSelect os st
        .ok (-1, r.msg, st)
      else
        match os.recv r.lengthToRead st.os with
        | (.error e, s) => .ok (-1, r.msg, recoverRecv os { st with errno := .sys e, os := s })
        | (.ok bytes, s) =>
          if bytes = [] then
            .ok (-1, r.msg, recoverRecv os { st with errno := .ECONNRESET, os := s })
          else
            let st := { st with os := s }
            match ← afterRecv st.ctx mt r bytes with
            | .error e => .ok (-1, r.msg ++ bytes, { st with errno := e })
            | .ok r => receiveLoop os mt fuel st r

/-- The timeout before the first byte: a server may wait for ever. -/
def firstTimeout (ctx : Modbus) : MsgType → Option Timeval
  | .indication =>
    if ctx.indicationTimeout.sec = 0 ∧ ctx.indicationTimeout.usec = 0 then none
    else some ctx.indicationTimeout
  | .confirmation => some ctx.responseTimeout

/-- The loop variables at the start: all messages contain the function code. -/
def RecvState.start (ctx : Modbus) (mt : MsgType) : RecvState where
  msg := []
  lengthToRead := ctx.backend.headerLength + 1
  step := .function
  tv := firstTimeout ctx mt

/-- `_modbus_receive_msg`.  Every turn reads a byte and no message is longer than
`max_adu_length`, so the loop ends in one turn more than that. -/
def modbusReceiveMsg (os : Os σ) (st : St σ) (mt : MsgType) : Run (Int × List UInt8 × St σ) :=
  if st.ctx.s < 0 then .ok (-1, [], st)
  else if fdSetSize ≤ st.ctx.s then .ok (-1, [], { st with errno := .EINVAL })
  else receiveLoop os mt (st.ctx.backend.maxAduLength + 1) st (.start st.ctx mt)

/-- `_modbus_rtu_receive` and `_modbus_tcp_receive` -/
def modbusReceive (os : Os σ) (st : St σ) : Run (Int × List UInt8 × St σ) :=
  match st.ctx.backend with
  | .tcp => modbusReceiveMsg os st .indication
  | .rtu =>
    if st.ctx.confirmationToIgnore then do
      -- errors are ignored and the flag is reset
      let (_, req, st) ← modbusReceiveMsg os st .confirmation
      .ok (0, req, { st with ctx := { st.ctx with confirmationToIgnore := false } })
    else do
      let (rc, req, st) ← modbusReceiveMsg os st .indication
      -- the next expected message is a confirmation to ignore
      if rc = 0 then .ok (rc, req, { st with ctx := { st.ctx with confirmationToIgnore := true } })
      else .ok (rc, req, st)

/-- `modbus_receive_confirmation` -/
def modbusReceiveConfirmation (os : Os σ) (st : St σ) : Run (Int × List UInt8 × St σ) :=
  modbusReceiveMsg os st .confirmation

end Libmodbus
