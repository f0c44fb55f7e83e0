/-
Libmodbus/Settings.lean

The settings of a context, and what becomes of them.

    modbus_set_response_timeout    select, _sleep_response_timeout
    modbus_set_byte_timeout        select between two bytes
    modbus_set_indication_timeout  select of a server

The setters refuse what is out of range, and nothing else checks: the receiving
and the recovering code hand the fields to `select` and `nanosleep` as they
are.  `timeouts_in_range` says that this is enough.  Whatever functions of the
library a program calls, in any order, with any arguments and on any system, no
timeout out of range leaves it: the program cannot tell the system from one
that goes mad at such a timeout (`Os.elsewhere`).

A program here has two contexts, so that it may be a client, a server or a
gateway between two lines, and changes its settings while it runs.
-/
import Libmodbus.Proxy
import Libmodbus.Waits

namespace Libmodbus

open CSem Wire Posix

variable {σ τ : Type}

/-! ### Setters -/

/-- `modbus_set_error_recovery`, of the bits `LINK` and `PROTOCOL`. -/
def modbusSetErrorRecovery (ctx : Modbus) (errorRecovery : UInt32) : Modbus :=
  { ctx with errorRecovery := ⟨errorRecovery &&& 2 ≠ 0, errorRecovery &&& 4 ≠ 0⟩ }

/-- `modbus_set_socket` -/
def modbusSetSocket (ctx : Modbus) (s : Int) : Modbus := { ctx with s := s }

/-- `modbus_set_response_timeout`, which cannot be disabled. -/
def modbusSetResponseTimeout (ctx : Modbus) (toSec toUsec : UInt32) : Except Errno Modbus :=
  if (toSec = 0 ∧ toUsec = 0) ∨ 999999 < toUsec then .error .EINVAL
  else .ok { ctx with responseTimeout := ⟨toSec.toNat, toUsec.toNat⟩ }

/-- `modbus_set_byte_timeout` -/
def modbusSetByteTimeout (ctx : Modbus) (toSec toUsec : UInt32) : Except Errno Modbus :=
  if 999999 < toUsec then .error .EINVAL
  else .ok { ctx with byteTimeout := ⟨toSec.toNat, toUsec.toNat⟩ }

/-- `modbus_set_indication_timeout` -/
def modbusSetIndicationTimeout (ctx : Modbus) (toSec toUsec : UInt32) : Except Errno Modbus :=
  if 999999 < toUsec then .error .EINVAL
  else .ok { ctx with indicationTimeout := ⟨toSec.toNat, toUsec.toNat⟩ }

/-- `modbus_enable_quirks`, of the bits `MAX_SLAVE` and `REPLY_TO_BROADCAST`. -/
def modbusEnableQuirks (ctx : Modbus) (quirksMask : UInt32) : Modbus :=
  { ctx with quirks := ⟨ctx.quirks.maxSlave || quirksMask &&& 2 ≠ 0,
      ctx.quirks.replyToBroadcast || quirksMask &&& 4 ≠ 0⟩ }

/-- `modbus_disable_quirks` -/
def modbusDisableQuirks (ctx : Modbus) (quirksMask : UInt32) : Modbus :=
  { ctx with quirks := ⟨ctx.quirks.maxSlave && quirksMask &&& 2 = 0,
      ctx.quirks.replyToBroadcast && quirksMask &&& 4 = 0⟩ }

/-- The setters with their arguments. -/
inductive Setting
  | slave (number : Int)
  | errorRecovery (mode : UInt32)
  | socket (s : Int)
  | responseTimeout (toSec toUsec : UInt32)
  | byteTimeout (toSec toUsec : UInt32)
  | indicationTimeout (toSec toUsec : UInt32)
  | enableQuirks (quirksMask : UInt32)
  | disableQuirks (quirksMask : UInt32)

def Setting.set (ctx : Modbus) : Setting → Except Errno Modbus
  | slave number => modbusSetSlave ctx number
  | errorRecovery mode => .ok (modbusSetErrorRecovery ctx mode)
  | socket s => .ok (modbusSetSocket ctx s)
  | responseTimeout toSec toUsec => modbusSetResponseTimeout ctx toSec toUsec
  | byteTimeout toSec toUsec => modbusSetByteTimeout ctx toSec toUsec
  | indicationTimeout toSec toUsec => modbusSetIndicationTimeout ctx toSec toUsec
  | enableQuirks quirksMask => .ok (modbusEnableQuirks ctx quirksMask)
  | disableQuirks quirksMask => .ok (modbusDisableQuirks ctx quirksMask)

/-- A call of a setter. -/
def Setting.call (setting : Setting) (st : St σ) : Int × St σ :=
  match setting.set st.ctx with
  | .ok ctx => (0, { st with ctx := ctx })
  | .error e => (-1, { st with errno := e })

/-! ### Programs -/

/-- The functions of the library that work on one context.  The arrays are those of the caller. -/
inductive Operation
  | set (setting : Setting)
  | connect
  | close
  | flush
  | readBits (addr nb : Int) (dest : List UInt8)
  | readInputBits (addr nb : Int) (dest : List UInt8)
  | readRegisters (addr nb : Int) (dest : List UInt16)
  | readInputRegisters (addr nb : Int) (dest : List UInt16)
  | writeBit (addr status : Int)
  | writeRegister (addr : Int) (value : UInt16)
  | writeBits (addr nb : Int) (src : List UInt8)
  | writeRegisters (addr nb : Int) (src : List UInt16)
  | maskWriteRegister (addr : Int) (andMask orMask : UInt16)
  | writeAndReadRegisters (writeAddr writeNb : Int) (src : List UInt16) (readAddr readNb : Int)
      (dest : List UInt16)
  | reportSlaveId (maxDest : Int) (dest : List UInt8)
  | sendRawRequestTid (rawReq : List UInt8) (tid : Int)
  | receive
  | receiveConfirmation
  | reply (req : List UInt8) (reqLength : Int)
  | replyException (req : List UInt8) (exceptionCode : Nat)

/-- What an operation returns, with the message received or the array filled. -/
structure Output where
  rc : Int
  bytes : List UInt8
  registers : List UInt16
  deriving DecidableEq

/-- The functions that fill no array. -/
def plain (r : Run (Int × St σ)) (m : Mapping) : Run (Output × St σ × Mapping) := do
  let (rc, st) ← r
  .ok (⟨rc, [], []⟩, st, m)

/-- The functions that fill an array of bytes. -/
def filled (r : Run (Int × List UInt8 × St σ)) (m : Mapping) : Run (Output × St σ × Mapping) := do
  let (rc, dest, st) ← r
  .ok (⟨rc, dest, []⟩, st, m)

/-- The functions that fill an array of registers. -/
def filledRegisters (r : Run (Int × List UInt16 × St σ)) (m : Mapping) :
    Run (Output × St σ × Mapping) := do
  let (rc, dest, st) ← r
  .ok (⟨rc, [], dest⟩, st, m)

def Operation.run (os : Os σ) (ver : VersionString) (op : Operation) (st : St σ) (m : Mapping) :
    Run (Output × St σ × Mapping) :=
  match op with
  | set setting => plain (.ok (setting.call st)) m
  | connect => plain (.ok (modbusConnect os st)) m
  | close => plain (.ok (0, modbusClose os st)) m
  | flush => plain (modbusFlush os st) m
  | readBits addr nb dest => filled (modbusReadBits os st addr nb dest) m
  | readInputBits addr nb dest => filled (modbusReadInputBits os st addr nb dest) m
  | readRegisters addr nb dest => filledRegisters (modbusReadRegisters os st addr nb dest) m
  | readInputRegisters addr nb dest =>
    filledRegisters (modbusReadInputRegisters os st addr nb dest) m
  | writeBit addr status => plain (modbusWriteBit os st addr status) m
  | writeRegister addr value => plain (modbusWriteRegister os st addr value) m
  | writeBits addr nb src => plain (modbusWriteBits os st addr nb src) m
  | writeRegisters addr nb src => plain (modbusWriteRegisters os st addr nb src) m
  | maskWriteRegister addr andMask orMask =>
    plain (modbusMaskWriteRegister os st addr andMask orMask) m
  | writeAndReadRegisters writeAddr writeNb src readAddr readNb dest =>
    filledRegisters
      (modbusWriteAndReadRegisters os st writeAddr writeNb src readAddr readNb dest) m
  | reportSlaveId maxDest dest => filled (modbusReportSlaveId os st maxDest dest) m
  | sendRawRequestTid rawReq tid => plain (modbusSendRawRequestTid os st rawReq tid) m
  | receive => filled (modbusReceive os st) m
  | receiveConfirmation => filled (modbusReceiveConfirmation os st) m
  | reply req reqLength => do
    let (rc, m, st) ← modbusReply os ver st req reqLength m
    .ok (⟨rc, [], []⟩, st, m)
  | replyException req exceptionCode => plain (modbusReplyException os st req exceptionCode) m

/-- A step of a program: an operation on one of its two contexts, or `modbus_proxy`. -/
inductive Action
  | front (op : Operation)
  | back (op : Operation)
  | proxy (req : List UInt8) (reqLength : Int)

def Action.run (fos : Os σ) (bos : Os τ) (ver : VersionString) (action : Action)
    (s : Gateway σ τ × Mapping) : Run (Output × Gateway σ τ × Mapping) :=
  match action with
  | front op => do
    let (o, st, m) ← op.run fos ver s.1.frontSt s.2
    .ok (o, s.1.setFront st, m)
  | back op => do
    let (o, st, m) ← op.run bos ver s.1.backSt s.2
    .ok (o, s.1.setBack st, m)
  | proxy req reqLength => do
    let (rc, g) ← modbusProxy fos bos s.1 req reqLength
    .ok (⟨rc, [], []⟩, g, s.2)

/-! ### What is not a setting -/

/-- The contexts differ in the descriptor, the transaction id and the flag of `modbus_receive`. -/
def SameSettings (ctx ctx' : Modbus) : Prop :=
  ∃ s tId flag, ctx' = { ctx with s := s, tId := tId, confirmationToIgnore := flag }

namespace SameSettings

variable {ctx ctx' ctx'' : Modbus}

theorem refl (ctx : Modbus) : SameSettings ctx ctx := ⟨ctx.s, ctx.tId, ctx.confirmationToIgnore, rfl⟩

theorem trans (h : SameSettings ctx ctx') (h' : SameSettings ctx' ctx'') :
    SameSettings ctx ctx'' := by
  obtain ⟨s, tId, flag, rfl⟩ := h
  obtain ⟨s', tId', flag', rfl⟩ := h'
  exact ⟨s', tId', flag', rfl⟩

/-- A new transaction is no new setting. -/
theorem next (ctx : Modbus) : SameSettings ctx ctx.next := ⟨ctx.s, _, ctx.confirmationToIgnore, rfl⟩

end SameSettings

/-- What the system answers changes no setting; a recovery may close the descriptor. -/
theorem St.Moved.settings {R : σ → σ → Prop} {st st' : St σ} (h : st.Moved R st') :
    SameSettings st.ctx st'.ctx := by
  obtain ⟨s, hs⟩ := h.ctx
  exact ⟨s, st.ctx.tId, st.ctx.confirmationToIgnore, hs⟩

/-- What a step may do to a context: a setter with `P` is accepted, or none, and no other setting
changes. -/
def Sets (P : Setting → Prop) (ctx ctx' : Modbus) : Prop :=
  ∃ ctx₁, (ctx₁ = ctx ∨ ∃ setting, P setting ∧ setting.set ctx = .ok ctx₁) ∧ SameSettings ctx₁ ctx'

/-- Where the settings stay, no setter was needed. -/
theorem SameSettings.sets {P : Setting → Prop} {ctx ctx' : Modbus} (h : SameSettings ctx ctx') :
    Sets P ctx ctx' := ⟨ctx, Or.inl rfl, h⟩

/-! ### Contexts whose timeouts are in range -/

structure Modbus.InRange (ctx : Modbus) : Prop where
  response : ctx.responseTimeout.InRange
  byte : ctx.byteTimeout.InRange
  indication : ctx.indicationTimeout.InRange

/-- The timeouts of a new context are in range. -/
theorem modbusNew_inRange (be : Backend) : (modbusNew be).InRange := by
  constructor <;> cases be <;> decide

theorem SameSettings.inRange {ctx ctx' : Modbus} (h : SameSettings ctx ctx') (hin : ctx.InRange) :
    ctx'.InRange := by
  obtain ⟨s, tId, flag, rfl⟩ := h
  exact ⟨hin.response, hin.byte, hin.indication⟩

theorem St.Moved.inRange {R : σ → σ → Prop} {st st' : St σ} (h : st.Moved R st')
    (hin : st.ctx.InRange) : st'.ctx.InRange := h.settings.inRange hin

/-- The check of a setter, microseconds below a second, is what the range asks for. -/
theorem Timeval.inRange_of_checked {toSec toUsec : UInt32} (h : ¬ 999999 < toUsec) :
    (⟨toSec.toNat, toUsec.toNat⟩ : Timeval).InRange := by
  rw [UInt32.not_lt, UInt32.le_iff_toNat_le] at h
  have hsec := toSec.toNat_lt
  have husec : toUsec.toNat ≤ 999999 := h
  exact ⟨hsec, Nat.lt_succ_of_le husec⟩

/-- **A setter** leaves the timeouts in range, whatever it is given. -/
theorem Setting.set_inRange {ctx ctx' : Modbus} (hin : ctx.InRange) {setting : Setting}
    (h : setting.set ctx = .ok ctx') : ctx'.InRange := by
  cases setting with
  | slave number =>
    have hslave : modbusSetSlave ctx number = .ok ctx' := h
    rw [modbusSetSlave_eq] at hslave
    split_ifs at hslave
    · cases hslave
      exact ⟨hin.response, hin.byte, hin.indication⟩
  | errorRecovery | socket | enableQuirks | disableQuirks =>
    cases h
    exact ⟨hin.response, hin.byte, hin.indication⟩
  | responseTimeout toSec toUsec =>
    unfold Setting.set modbusSetResponseTimeout at h
    simp only at h
    split_ifs at h with hbad
    cases h
    exact ⟨Timeval.inRange_of_checked fun hlt => hbad (Or.inr hlt), hin.byte, hin.indication⟩
  | byteTimeout toSec toUsec =>
    unfold Setting.set modbusSetByteTimeout at h
    simp only at h
    split_ifs at h with hbad
    cases h
    exact ⟨hin.response, Timeval.inRange_of_checked hbad, hin.indication⟩
  | indicationTimeout toSec toUsec =>
    unfold Setting.set modbusSetIndicationTimeout at h
    simp only at h
    split_ifs at h with hbad
    cases h
    exact ⟨hin.response, hin.byte, Timeval.inRange_of_checked hbad⟩

/-- A step that calls a setter, or none, keeps the timeouts in range. -/
theorem Sets.inRange {P : Setting → Prop} {ctx ctx' : Modbus} (h : Sets P ctx ctx')
    (hin : ctx.InRange) : ctx'.InRange := by
  obtain ⟨ctx₁, rfl | ⟨setting, -, hset⟩, hsame⟩ := h
  · exact hsame.inRange hin
  · exact hsame.inRange (Setting.set_inRange hin hset)

/-! ### Code that cannot tell the systems apart -/

section

variable {os : Os σ} {sel : Timeval → σ → Readiness × σ} {slp : Timeval → σ → Option SysErrno × σ}

/-- The sleep of a recovery is told the response timeout. -/
theorem sleepResponseTimeout_elsewhere {st : St σ} (h : st.ctx.InRange) :
    sleepResponseTimeout (os.elsewhere sel slp) st = sleepResponseTimeout os st := by
  unfold sleepResponseTimeout
  rw [os.elsewhere_sleep sel slp h.response]

theorem tcpFlushLoop_elsewhere (fuel rcSum : Nat) (st : St σ) :
    tcpFlushLoop (os.elsewhere sel slp) fuel rcSum st = tcpFlushLoop os fuel rcSum st := by
  induction fuel generalizing rcSum st with
  | zero => rfl
  | succ fuel ih =>
    rw [tcpFlushLoop, tcpFlushLoop]
    simp only [ih]
    rfl

/-- A flush hands over no timeout. -/
theorem modbusFlush_elsewhere (st : St σ) :
    modbusFlush (os.elsewhere sel slp) st = modbusFlush os st := by
  unfold modbusFlush
  rw [tcpFlushLoop_elsewhere]
  rfl

/-- So a recovery hands over the response timeout only. -/
theorem sleepAndFlush_elsewhere {st : St σ} (h : st.ctx.InRange) :
    sleepAndFlush (os.elsewhere sel slp) st = sleepAndFlush os st := by
  unfold sleepAndFlush
  rw [sleepResponseTimeout_elsewhere h, modbusFlush_elsewhere]

theorem modbusClose_elsewhere (st : St σ) :
    modbusClose (os.elsewhere sel slp) st = modbusClose os st := rfl

theorem modbusConnect_elsewhere (st : St σ) :
    modbusConnect (os.elsewhere sel slp) st = modbusConnect os st := rfl

theorem recoverSend_elsewhere {st : St σ} (h : st.ctx.InRange) :
    recoverSend (os.elsewhere sel slp) st = recoverSend os st := by
  have hclose : (modbusClose os st).ctx.InRange := (modbusClose_moved (obeys_any os) st).inRange h
  unfold recoverSend
  simp only [modbusClose_elsewhere, modbusConnect_elsewhere, sleepAndFlush_elsewhere h,
    sleepResponseTimeout_elsewhere hclose]

/-- The loop keeps its timeouts over a recovery, and so hands over the same ones again. -/
theorem sendLoop_elsewhere (fuel : Nat) {st : St σ} (msg : List UInt8) (h : st.ctx.InRange) :
    sendLoop (os.elsewhere sel slp) fuel st msg = sendLoop os fuel st msg := by
  induction fuel generalizing st with
  | zero => rfl
  | succ fuel ih =>
    rw [sendLoop, sendLoop]
    have hsend : (os.elsewhere sel slp).send = os.send := rfl
    rw [hsend]
    rcases os.send msg st.os with ⟨e | n, s⟩
    · have hst : ({ st with errno := .sys e, os := s } : St σ).ctx.InRange := h
      simp only [recoverSend_elsewhere hst]
      refine ite_congr rfl (fun _ => bind_ok_congr fun st' hst' => ih ?_) fun _ => rfl
      exact ((recoverSend_moved (obeys_any os) _).result hst').inRange hst
    · rfl

/-- **Sending.** -/
theorem sendMsg_elsewhere {st : St σ} (msg : List UInt8) (h : st.ctx.InRange) :
    sendMsg (os.elsewhere sel slp) st msg = sendMsg os st msg := sendLoop_elsewhere _ _ h

theorem modbusSendRawRequestTid_elsewhere {st : St σ} (rawReq : List UInt8) (tid : Int)
    (h : st.ctx.InRange) :
    modbusSendRawRequestTid (os.elsewhere sel slp) st rawReq tid =
      modbusSendRawRequestTid os st rawReq tid := by
  unfold modbusSendRawRequestTid
  simp only [sendMsg_elsewhere _ h]

/-- A `select` that is repeated after a signal repeats its timeout. -/
theorem backendSelect_elsewhere (fuel : Nat) (st : St σ) {tv : Option Timeval}
    (h : ∀ t, tv = some t → t.InRange) :
    backendSelect (os.elsewhere sel slp) fuel st tv = backendSelect os fuel st tv := by
  induction fuel generalizing st with
  | zero => rfl
  | succ fuel ih =>
    rw [backendSelect, backendSelect]
    simp only [ih, os.elsewhere_select sel slp h]

theorem recoverSelect_elsewhere {st : St σ} (h : st.ctx.InRange) :
    recoverSelect (os.elsewhere sel slp) st = recoverSelect os st := by
  unfold recoverSelect
  simp only [modbusClose_elsewhere, modbusConnect_elsewhere, sleepAndFlush_elsewhere h]

theorem checkIntegrity_elsewhere (st : St σ) (msg : List UInt8) :
    checkIntegrity (os.elsewhere sel slp) st msg = checkIntegrity os st msg := by
  unfold checkIntegrity
  simp only [modbusFlush_elsewhere]

/-- What is waited for next is the byte timeout or what was waited for before. -/
theorem afterRecv_inRange {ctx : Modbus} {mt : MsgType} {r r' : RecvState} {bytes : List UInt8}
    (hin : ctx.InRange) (htv : ∀ t, r.tv = some t → t.InRange)
    (h : afterRecv ctx mt r bytes = .ok (.ok r')) : ∀ t, r'.tv = some t → t.InRange := by
  have hrearm : ∀ {r : RecvState}, (∀ t, r.tv = some t → t.InRange) →
      ∀ t, (r.rearm ctx.byteTimeout).tv = some t → t.InRange := by
    intro r htv t ht
    unfold RecvState.rearm at ht
    split_ifs at ht
    · cases ht
      exact hin.byte
    · exact htv t ht
  unfold afterRecv at h
  simp only at h
  split_ifs at h with h0
  · obtain ⟨res, hres, h⟩ := bind_eq_ok.mp h
    cases res with
    | error e => cases h
    | ok r₁ =>
      cases h
      refine hrearm fun t ht => htv t ?_
      rw [nextStep_tv hres] at ht
      exact ht
  · cases h
    exact hrearm htv

/-- The loop waits with the timeout it began with, then with the byte timeout where the context has
one. -/
theorem receiveLoop_elsewhere (mt : MsgType) (fuel : Nat) {st : St σ} {r : RecvState}
    (h : st.ctx.InRange) (htv : ∀ t, r.tv = some t → t.InRange) :
    receiveLoop (os.elsewhere sel slp) mt fuel st r = receiveLoop os mt fuel st r := by
  induction fuel generalizing st r with
  | zero => rfl
  | succ fuel ih =>
    rw [receiveLoop, receiveLoop]
    refine ite_congr rfl (fun _ => by rw [checkIntegrity_elsewhere]) fun _ => ?_
    rw [backendSelect_elsewhere _ _ htv]
    refine bind_ok_congr fun selected hselected => ?_
    obtain ⟨ready, st₁⟩ := selected
    have h₁ : st₁.ctx.InRange :=
      ((backendSelect_moved (obeys_any os) _ st r.tv).result hselected).inRange h
    refine ite_congr rfl (fun _ => by rw [recoverSelect_elsewhere h₁]) fun _ => ?_
    have hrecv : (os.elsewhere sel slp).recv = os.recv := rfl
    rw [hrecv]
    rcases os.recv r.lengthToRead st₁.os with ⟨e | bytes, s⟩
    · rfl
    · refine ite_congr rfl (fun _ => rfl) fun _ => bind_ok_congr fun next hnext => ?_
      cases next with
      | error e => rfl
      | ok r' => exact ih h₁ (afterRecv_inRange h₁ htv hnext)

/-- **Receiving.** -/
theorem modbusReceiveMsg_elsewhere {st : St σ} (mt : MsgType) (h : st.ctx.InRange) :
    modbusReceiveMsg (os.elsewhere sel slp) st mt = modbusReceiveMsg os st mt := by
  have htv : ∀ t, (RecvState.start st.ctx mt).tv = some t → t.InRange := by
    intro t ht
    cases mt with
    | indication =>
      have hfirst : firstTimeout st.ctx .indication = some t := ht
      unfold firstTimeout at hfirst
      split_ifs at hfirst
      cases hfirst
      exact h.indication
    | confirmation =>
      cases ht
      exact h.response
  unfold modbusReceiveMsg
  rw [receiveLoop_elsewhere mt _ h htv]

/-- A server waits with its indication timeout, or the response timeout while it ignores a
confirmation. -/
theorem modbusReceive_elsewhere {st : St σ} (h : st.ctx.InRange) :
    modbusReceive (os.elsewhere sel slp) st = modbusReceive os st := by
  unfold modbusReceive
  simp only [modbusReceiveMsg_elsewhere _ h]

/-- The check of a confirmation flushes, and may wait before that. -/
theorem checkConfirmation_elsewhere {st : St σ} (req rsp : List UInt8) (rspLength : Int)
    (h : st.ctx.InRange) :
    checkConfirmation (os.elsewhere sel slp) st req rsp rspLength =
      checkConfirmation os st req rsp rspLength := by
  have herrno : ∀ e, sleepAndFlush (os.elsewhere sel slp) { st with errno := e } =
      sleepAndFlush os { st with errno := e } := fun e => sleepAndFlush_elsewhere h
  have hrefuse : refuseConfirmation (os.elsewhere sel slp) st = refuseConfirmation os st := by
    unfold refuseConfirmation
    rw [sleepAndFlush_elsewhere h]
  unfold checkConfirmation
  simp only [herrno, hrefuse]

/-- **An exchange.** -/
theorem exchange_elsewhere {st : St σ} (req : List UInt8) (h : st.ctx.InRange) :
    exchange (os.elsewhere sel slp) st req = exchange os st req := by
  unfold exchange
  rw [sendMsg_elsewhere _ h]
  refine bind_ok_congr fun sent hsent => ?_
  have h₁ : sent.2.ctx.InRange := ((sendMsg_moved (obeys_any os) st trivial).result hsent).inRange h
  refine ite_congr rfl (fun _ => ?_) fun _ => rfl
  rw [modbusReceiveMsg_elsewhere _ h₁]
  refine bind_ok_congr fun received hreceived => ite_congr rfl (fun _ => rfl) fun _ => ?_
  rw [checkConfirmation_elsewhere]
  exact ((modbusReceiveMsg_moved (obeys_any os) _ .confirmation).result hreceived).inRange h₁

/-- A client call: the request is built, then exchanged. -/
theorem request_elsewhere {β : Type} {st : St σ} (h : st.ctx.InRange) (function : Nat)
    (addr nb : Int) {f g : List UInt8 × Modbus → Run β}
    (hfg : ∀ req ctx, ctx.InRange → f (req, ctx) = g (req, ctx)) :
    (buildRequestBasis st.ctx function addr nb >>= f) =
      (buildRequestBasis st.ctx function addr nb >>= g) :=
  bind_ok_congr fun r hr => hfg r.1 r.2 <| by
    rw [buildRequestBasis_next hr]
    exact (SameSettings.next _).inRange h

/-- The calls wait for their confirmation and hand over nothing else. -/
theorem readBits_elsewhere {st : St σ} (function : Nat) (addr nb : Int) (dest : List UInt8)
    (h : st.ctx.InRange) :
    readBits (os.elsewhere sel slp) st function addr nb dest =
      readBits os st function addr nb dest := by
  have hstatus : readIoStatus (os.elsewhere sel slp) st function addr nb dest =
      readIoStatus os st function addr nb dest :=
    request_elsewhere h function addr nb fun req ctx hctx => by
      have hst : ({ st with ctx := ctx } : St σ).ctx.InRange := hctx
      simp only [exchange_elsewhere _ hst]
  unfold readBits
  rw [hstatus]

theorem readAnyRegisters_elsewhere {st : St σ} (function : Nat) (addr nb : Int)
    (dest : List UInt16) (h : st.ctx.InRange) :
    readAnyRegisters (os.elsewhere sel slp) st function addr nb dest =
      readAnyRegisters os st function addr nb dest := by
  unfold readAnyRegisters readRegistersCall
  refine ite_congr rfl (fun _ => rfl) fun _ => ite_congr rfl (fun _ => rfl) fun _ => ?_
  refine request_elsewhere h function addr nb fun req ctx hctx => ?_
  have hst : ({ st with ctx := ctx } : St σ).ctx.InRange := hctx
  simp only [exchange_elsewhere _ hst]

theorem writeSingle_elsewhere {st : St σ} (function : Nat) (addr : Int) (value : UInt16)
    (h : st.ctx.InRange) :
    writeSingle (os.elsewhere sel slp) st function addr value =
      writeSingle os st function addr value :=
  request_elsewhere h function addr _ fun req ctx hctx => by
    have hst : ({ st with ctx := ctx } : St σ).ctx.InRange := hctx
    simp only [exchange_elsewhere _ hst]

/-- An exception may be sent after a flush, which waits the response timeout. -/
theorem modbusReply_elsewhere (ver : VersionString) {st : St σ} (req : List UInt8)
    (reqLength : Int) (m : Mapping) (h : st.ctx.InRange) :
    modbusReply (os.elsewhere sel slp) ver st req reqLength m =
      modbusReply os ver st req reqLength m := by
  have hsend : ∀ slave reply {st : St σ}, st.ctx.InRange →
      sendReply (os.elsewhere sel slp) slave reply st = sendReply os slave reply st := by
    intro slave reply st h
    unfold sendReply
    rw [sendMsg_elsewhere _ h]
  rw [modbusReply_eq, modbusReply_eq]
  refine ite_congr rfl (fun _ => rfl) fun _ => ?_
  refine bind_ok_congr fun slave _ => bind_ok_congr fun reply _ => ?_
  refine ite_congr rfl (fun _ => ?_) fun _ => hsend slave reply h
  rw [sleepAndFlush_elsewhere h]
  refine bind_ok_congr fun st' hst' => hsend slave reply ?_
  exact ((sleepAndFlush_moved (obeys_any os) st).result hst').inRange h

theorem modbusReplyException_elsewhere {st : St σ} (req : List UInt8) (exceptionCode : Nat)
    (h : st.ctx.InRange) :
    modbusReplyException (os.elsewhere sel slp) st req exceptionCode =
      modbusReplyException os st req exceptionCode := by
  unfold modbusReplyException
  simp only [sendMsg_elsewhere _ h]

/-- **No operation can tell the systems apart**, on a context whose timeouts are in range. -/
theorem Operation.run_elsewhere (ver : VersionString) (op : Operation) {st : St σ} (m : Mapping)
    (h : st.ctx.InRange) : op.run (os.elsewhere sel slp) ver st m = op.run os ver st m := by
  have hst : ∀ {ctx : Modbus}, ctx.InRange → ({ st with ctx := ctx } : St σ).ctx.InRange :=
    fun hctx => hctx
  cases op with
  | set | connect | close => rfl
  | flush => rw [run, run, modbusFlush_elsewhere]
  | readBits addr nb dest | readInputBits addr nb dest =>
    exact congrArg (filled · m) (readBits_elsewhere _ addr nb dest h)
  | readRegisters addr nb dest | readInputRegisters addr nb dest =>
    exact congrArg (filledRegisters · m) (readAnyRegisters_elsewhere _ addr nb dest h)
  | writeBit addr _ | writeRegister addr _ =>
    exact congrArg (plain · m) (writeSingle_elsewhere _ addr _ h)
  | writeBits addr nb src =>
    refine congrArg (plain · m) (ite_congr rfl (fun _ => rfl) fun _ => ?_)
    exact request_elsewhere h _ addr nb fun req ctx hctx => by
      simp only [exchange_elsewhere _ (hst hctx)]
  | writeRegisters addr nb src =>
    refine congrArg (plain · m) (ite_congr rfl (fun _ => rfl) fun _ => ?_)
    exact request_elsewhere h _ addr nb fun req ctx hctx => by
      simp only [exchange_elsewhere _ (hst hctx)]
  | maskWriteRegister addr andMask orMask =>
    refine congrArg (plain · m) ?_
    exact request_elsewhere h _ addr 0 fun req ctx hctx => by
      simp only [exchange_elsewhere _ (hst hctx)]
  | writeAndReadRegisters writeAddr writeNb src readAddr readNb dest =>
    refine congrArg (filledRegisters · m) (ite_congr rfl (fun _ => rfl) fun _ =>
      ite_congr rfl (fun _ => rfl) fun _ => ite_congr rfl (fun _ => rfl) fun _ => ?_)
    exact request_elsewhere h _ readAddr readNb fun req ctx hctx => by
      simp only [exchange_elsewhere _ (hst hctx)]
  | reportSlaveId maxDest dest =>
    refine congrArg (filled · m) (ite_congr rfl (fun _ => rfl) fun _ => ?_)
    exact request_elsewhere h _ 0 0 fun req ctx hctx => by
      simp only [exchange_elsewhere _ (hst hctx)]
  | sendRawRequestTid rawReq tid => rw [run, run, modbusSendRawRequestTid_elsewhere rawReq tid h]
  | receive => rw [run, run, modbusReceive_elsewhere h]
  | receiveConfirmation =>
    exact congrArg (filled · m) (modbusReceiveMsg_elsewhere .confirmation h)
  | reply req reqLength => rw [run, run, modbusReply_elsewhere ver req reqLength m h]
  | replyException req code => rw [run, run, modbusReplyException_elsewhere req code h]

end

/-! ### What an operation does to the settings -/

section

variable (os : Os σ) (st : St σ)

/-- A client call takes the next transaction id, and may replace the descriptor. -/
theorem exchange_settings {β : Type} {function : Nat} {addr nb : Int} {req msg : List UInt8}
    {ctx' : Modbus} {last : β → St σ} {f : Int × List UInt8 × St σ → Run β}
    (hreq : buildRequestBasis st.ctx function addr nb = .ok (req, ctx'))
    (hf : ∀ r, Ends (f r) (fun r' => (last r').ctx = r.2.2.ctx) fun _ => True) :
    Ends (exchange os { st with ctx := ctx' } msg >>= f)
      (fun r => SameSettings st.ctx (last r).ctx) fun _ => True := by
  refine (exchange_moved (obeys_any os) { st with ctx := ctx' } trivial).bind fun x _ hx => ?_
  refine (hf x).imp (fun r' hr' => ?_) fun _ h => h
  rw [hr']
  refine SameSettings.trans ?_ hx.settings
  rw [buildRequestBasis_next hreq]
  exact SameSettings.next _

/-- A call changes the transaction id, and the descriptor where the link is recovered. -/
theorem readBits_settings (function : Nat) (addr nb : Int) (dest : List UInt8) :
    Ends (readBits os st function addr nb dest) (fun r => SameSettings st.ctx r.2.2.ctx)
      fun _ => True := by
  refine Ends.ite (fun _ => .refl _) fun _ => ?_
  have hcall : Ends (readIoStatus os st function addr nb dest)
      (fun r => SameSettings st.ctx r.2.2.ctx) fun _ => True := by
    refine Ends.seq fun ⟨req, ctx'⟩ hreq => exchange_settings os st hreq fun r => ?_
    exact Ends.ite (fun _ => rfl) fun _ => Ends.seq fun dest' _ => rfl
  exact hcall.bind fun r _ h => Ends.ite (fun _ => h) fun _ => h

theorem readAnyRegisters_settings (function : Nat) (addr nb : Int) (dest : List UInt16) :
    Ends (readAnyRegisters os st function addr nb dest) (fun r => SameSettings st.ctx r.2.2.ctx)
      fun _ => True := by
  refine Ends.ite (fun _ => .refl _) fun _ => Ends.ite (fun _ => .refl _) fun _ => ?_
  refine Ends.seq fun ⟨req, ctx'⟩ hreq => exchange_settings os st hreq fun r => ?_
  exact Ends.ite (fun _ => rfl) fun _ => Ends.seq fun dest' _ => rfl

theorem writeSingle_settings (function : Nat) (addr : Int) (value : UInt16) :
    Ends (writeSingle os st function addr value) (fun r => SameSettings st.ctx r.2.ctx)
      fun _ => True :=
  Ends.seq fun ⟨_, _⟩ hreq => exchange_settings os st hreq fun _ => rfl

theorem modbusReceiveMsg_settings (mt : MsgType) :
    Ends (modbusReceiveMsg os st mt) (fun r => SameSettings st.ctx r.2.2.ctx) fun _ => True :=
  (modbusReceiveMsg_moved (obeys_any os) st mt).imp (fun _ hr => hr.settings) fun _ h => h

/-- `modbus_receive` sets and resets the flag of a confirmation to ignore, which is no setting. -/
theorem modbusReceive_settings :
    Ends (modbusReceive os st) (fun r => SameSettings st.ctx r.2.2.ctx) fun _ => True := by
  have hflag : ∀ {ctx : Modbus}, SameSettings st.ctx ctx → ∀ b,
      SameSettings st.ctx { ctx with confirmationToIgnore := b } :=
    fun {ctx} h b => h.trans ⟨ctx.s, ctx.tId, b, rfl⟩
  unfold modbusReceive
  cases st.ctx.backend with
  | tcp => exact modbusReceiveMsg_settings os st _
  | rtu =>
    refine Ends.ite (fun _ => ?_) fun _ => ?_
    · exact (modbusReceiveMsg_settings os st _).bind fun _ _ hr => hflag hr _
    · exact (modbusReceiveMsg_settings os st _).bind fun _ _ hr =>
        Ends.ite (fun _ => hflag hr _) fun _ => hr

/-- **Only a setter changes a setting.** -/
theorem Operation.run_settings (ver : VersionString) (op : Operation) (m : Mapping) :
    Ends (op.run os ver st m) (fun r => Sets (fun x => op = .set x) st.ctx r.2.1.ctx)
      fun _ => True := by
  have hplain : ∀ {r : Run (Int × St σ)},
      Ends r (fun r => SameSettings st.ctx r.2.ctx) (fun _ => True) →
      Ends (plain r m) (fun r => Sets (fun x => op = .set x) st.ctx r.2.1.ctx) fun _ => True :=
    fun hr => hr.bind fun _ _ hr => hr.sets
  have hfilled : ∀ {r : Run (Int × List UInt8 × St σ)},
      Ends r (fun r => SameSettings st.ctx r.2.2.ctx) (fun _ => True) →
      Ends (filled r m) (fun r => Sets (fun x => op = .set x) st.ctx r.2.1.ctx) fun _ => True :=
    fun hr => hr.bind fun _ _ hr => hr.sets
  have hregisters : ∀ {r : Run (Int × List UInt16 × St σ)},
      Ends r (fun r => SameSettings st.ctx r.2.2.ctx) (fun _ => True) →
      Ends (filledRegisters r m) (fun r => Sets (fun x => op = .set x) st.ctx r.2.1.ctx) fun _ => True :=
    fun hr => hr.bind fun _ _ hr => hr.sets
  cases op with
  | set setting =>
    show Sets _ st.ctx (setting.call st).2.ctx
    unfold Setting.call
    cases hset : setting.set st.ctx with
    | error e => exact (SameSettings.refl _).sets
    | ok ctx => exact ⟨ctx, Or.inr ⟨setting, rfl, hset⟩, .refl ctx⟩
  | connect => exact (modbusConnect_moved (obeys_any os) st).settings.sets
  | close => exact (modbusClose_moved (obeys_any os) st).settings.sets
  | flush =>
    exact hplain ((modbusFlush_moved (obeys_any os) st).imp (fun _ hr => hr.settings) fun _ h => h)
  | readBits addr nb dest | readInputBits addr nb dest =>
    exact hfilled (readBits_settings os st _ addr nb dest)
  | readRegisters addr nb dest | readInputRegisters addr nb dest =>
    exact hregisters (readAnyRegisters_settings os st _ addr nb dest)
  | writeBit addr _ | writeRegister addr _ => exact hplain (writeSingle_settings os st _ addr _)
  | writeBits addr nb src | writeRegisters addr nb src =>
    refine hplain (Ends.ite (fun _ => .refl _) fun _ => Ends.seq fun ⟨req, ctx'⟩ hreq => ?_)
    exact Ends.seq fun bytes _ => exchange_settings os st hreq fun _ => rfl
  | maskWriteRegister addr andMask orMask =>
    exact hplain (Ends.seq fun ⟨req, ctx'⟩ hreq => exchange_settings os st hreq fun _ => rfl)
  | writeAndReadRegisters writeAddr writeNb src readAddr readNb dest =>
    refine hregisters (Ends.ite (fun _ => .refl _) fun _ => Ends.ite (fun _ => .refl _) fun _ =>
      Ends.ite (fun _ => .refl _) fun _ => Ends.seq fun ⟨req, ctx'⟩ hreq => ?_)
    exact Ends.seq fun bytes _ => exchange_settings os st hreq fun r =>
      Ends.ite (fun _ => rfl) fun _ => Ends.seq fun dest' _ => rfl
  | reportSlaveId maxDest dest =>
    refine hfilled (Ends.ite (fun _ => .refl _) fun _ => Ends.seq fun ⟨req, ctx'⟩ hreq => ?_)
    exact exchange_settings os st hreq fun r =>
      Ends.ite (fun _ => rfl) fun _ => Ends.seq fun dest' _ => rfl
  | sendRawRequestTid rawReq tid =>
    exact hplain ((modbusSendRawRequestTid_moved (obeys_any os) st fun _ => trivial).imp
      (fun _ hr => hr.settings) fun _ h => h)
  | receive => exact hfilled (modbusReceive_settings os st)
  | receiveConfirmation => exact hfilled (modbusReceiveMsg_settings os st _)
  | reply req reqLength =>
    exact (modbusReply_moved (obeys_any os) fun _ _ => trivial).bind fun _ _ hr => hr.settings.sets
  | replyException req exceptionCode =>
    exact hplain ((modbusReplyException_moved (obeys_any os) fun _ _ => trivial).imp
      (fun _ hr => hr.settings) fun _ h => h)

end

/-! ### Gateways -/

structure Gateway.InRange (g : Gateway σ τ) : Prop where
  front : g.front.InRange
  back : g.back.InRange

namespace Gateway.InRange

variable {g : Gateway σ τ}

theorem frontSt (h : g.InRange) : g.frontSt.ctx.InRange := h.front

theorem backSt (h : g.InRange) : g.backSt.ctx.InRange := h.back

/-- A backend call that has moved its context. -/
theorem setBack (h : g.InRange) {R : τ → τ → Prop} {st : St τ} (hmoved : g.backSt.Moved R st) :
    (g.setBack st).InRange := ⟨h.front, hmoved.inRange h.back⟩

end Gateway.InRange

section

variable {fos : Os σ} {sel : Timeval → σ → Readiness × σ} {slp : Timeval → σ → Option SysErrno × σ}
  {bos : Os τ} {sel' : Timeval → τ → Readiness × τ} {slp' : Timeval → τ → Option SysErrno × τ}

/-- The exception of a proxy is sent with the timeouts of the frontend. -/
theorem proxyFailure_elsewhere {g : Gateway σ τ} (req : List UInt8) (code : Nat) (h : g.InRange) :
    proxyFailure (fos.elsewhere sel slp) g req code = proxyFailure fos g req code := by
  unfold proxyFailure
  rw [modbusReplyException_elsewhere req code h.frontSt]

theorem proxyRelay_elsewhere {g : Gateway σ τ} (backendRsp : List UInt8) (rc tId : Int)
    (req : List UInt8) (h : g.InRange) :
    proxyRelay (fos.elsewhere sel slp) g backendRsp rc tId req =
      proxyRelay fos g backendRsp rc tId req := by
  unfold proxyRelay
  simp only [proxyFailure_elsewhere req _ h, sendMsg_elsewhere _ h.frontSt]

/-- **The proxy**, on its two systems. -/
theorem modbusProxy_elsewhere {g : Gateway σ τ} (req : List UInt8) (reqLength : Int)
    (h : g.InRange) :
    modbusProxy (fos.elsewhere sel slp) (bos.elsewhere sel' slp') g req reqLength =
      modbusProxy fos bos g req reqLength := by
  unfold modbusProxy
  refine ite_congr rfl (fun _ => rfl) fun _ => ite_congr rfl (fun _ => rfl) fun _ => ?_
  refine bind_ok_congr fun slave _ => ?_
  cases hset : modbusSetSlave g.back slave.toNat with
  | error e => exact proxyFailure_elsewhere req _ ⟨h.front, h.back⟩
  | ok back =>
  have hback : back.InRange :=
    Setting.set_inRange h.back (show (Setting.slave slave.toNat).set g.back = .ok back from hset)
  have h₁ : ({ g with back := back } : Gateway σ τ).InRange := ⟨h.front, hback⟩
  refine bind_ok_congr fun backendReq _ => bind_ok_congr fun tId _ => ?_
  rw [modbusSendRawRequestTid_elsewhere backendReq 0 h₁.backSt]
  refine bind_ok_congr fun sent hsent => ?_
  have h₂ := h₁.setBack
    ((modbusSendRawRequestTid_moved (obeys_any bos) _ fun _ => trivial).result hsent)
  refine ite_congr rfl (fun _ => proxyFailure_elsewhere req _ h₂) fun _ => ?_
  rw [modbusReceiveMsg_elsewhere .confirmation h₂.backSt]
  refine bind_ok_congr fun received hreceived => ?_
  have h₃ := h₂.setBack
    ((modbusReceiveMsg_moved (obeys_any bos) _ .confirmation).result hreceived)
  refine ite_congr rfl (fun _ => ite_congr rfl (fun _ => ?_) fun _ => ?_) fun _ => ?_
  · exact proxyFailure_elsewhere req _ h₃
  · exact proxyFailure_elsewhere req _ h₃
  refine bind_ok_congr fun checkReq _ => bind_ok_congr fun refused _ => ?_
  cases refused with
  | some e => exact proxyFailure_elsewhere req _ ⟨h₃.front, h₃.back⟩
  | none => exact proxyRelay_elsewhere _ _ _ req h₃

/-- **A step of a program.** -/
theorem Action.run_elsewhere (ver : VersionString) (action : Action) {s : Gateway σ τ × Mapping}
    (h : s.1.InRange) :
    action.run (fos.elsewhere sel slp) (bos.elsewhere sel' slp') ver s =
      action.run fos bos ver s := by
  cases action with
  | front op => rw [run, run, Operation.run_elsewhere ver op s.2 h.frontSt]
  | back op => rw [run, run, Operation.run_elsewhere ver op s.2 h.backSt]
  | proxy req reqLength => rw [run, run, modbusProxy_elsewhere req reqLength h]

end

section

variable (fos : Os σ) (bos : Os τ) (g : Gateway σ τ)

/-- An exception leaves the backend as it is. -/
theorem proxyFailure_settings (req : List UInt8) (code : Nat) :
    Ends (proxyFailure fos g req code)
      (fun r => SameSettings g.front r.2.front ∧ r.2.back = g.back) fun _ => True := by
  refine (modbusReplyException_moved (obeys_any fos) fun _ _ => trivial).bind fun r _ hr => ?_
  exact ⟨hr.settings, rfl⟩

theorem proxyRelay_settings (backendRsp : List UInt8) (rc tId : Int) (req : List UInt8) :
    Ends (proxyRelay fos g backendRsp rc tId req)
      (fun r => SameSettings g.front r.2.front ∧ r.2.back = g.back) fun _ => True := by
  refine Ends.ite (fun _ => proxyFailure_settings fos g req _) fun _ => ?_
  refine Ends.seq fun slave _ => Ends.seq fun function _ => Ends.seq fun data _ => ?_
  refine (sendMsg_moved (obeys_any fos) g.frontSt trivial).bind fun r _ hr => ?_
  exact ⟨hr.settings, rfl⟩

/-- **The proxy** sets the slave number of its backend, and nothing else. -/
theorem modbusProxy_settings (req : List UInt8) (reqLength : Int) :
    Ends (modbusProxy fos bos g req reqLength) (fun r => SameSettings g.front r.2.front ∧
      Sets (fun x => ∃ number, x = .slave number) g.back r.2.back) fun _ => True := by
  have hself := SameSettings.refl g.front
  -- what comes last acts on the frontend
  have hlast : ∀ {g' : Gateway σ τ} {x : Run (Int × Gateway σ τ)},
      Ends x (fun r => SameSettings g'.front r.2.front ∧ r.2.back = g'.back) (fun _ => True) →
      g'.front = g.front → Sets (fun x => ∃ number, x = .slave number) g.back g'.back →
      Ends x (fun r => SameSettings g.front r.2.front ∧
        Sets (fun x => ∃ number, x = .slave number) g.back r.2.back) fun _ => True := by
    intro g' x hx hfront hback
    refine hx.imp (fun r hr => ?_) fun _ h => h
    rw [hr.2, ← hfront]
    exact ⟨hr.1, hback⟩
  refine Ends.ite (fun _ => ⟨hself, (SameSettings.refl _).sets⟩) fun _ =>
    Ends.ite (fun _ => ⟨hself, (SameSettings.refl _).sets⟩) fun _ => Ends.seq fun slave _ => ?_
  cases hset : modbusSetSlave g.back slave.toNat with
  | error e => exact hlast (proxyFailure_settings fos _ req _) rfl (SameSettings.refl _).sets
  | ok back =>
  have hsets : ∀ {ctx : Modbus}, SameSettings back ctx →
      Sets (fun x => ∃ number, x = .slave number) g.back ctx :=
    fun h => ⟨back, Or.inr ⟨.slave slave.toNat, ⟨_, rfl⟩, hset⟩, h⟩
  refine Ends.seq fun backendReq _ => Ends.seq fun tId _ => ?_
  refine (modbusSendRawRequestTid_moved (obeys_any bos) _ fun _ => trivial).bind
    fun sent _ hsent => ?_
  have h₁ := hsets hsent.settings
  refine Ends.ite (fun _ => hlast (proxyFailure_settings fos _ req _) rfl h₁) fun _ => ?_
  refine (modbusReceiveMsg_moved (obeys_any bos) _ .confirmation).bind fun received _ hreceived => ?_
  have h₂ := hsets (hsent.settings.trans hreceived.settings)
  refine Ends.ite (fun _ => Ends.ite (fun _ => ?_) fun _ => ?_) fun _ => ?_
  · exact hlast (proxyFailure_settings fos _ req _) rfl h₂
  · exact hlast (proxyFailure_settings fos _ req _) rfl h₂
  refine Ends.seq fun checkReq _ => Ends.seq fun refused _ => ?_
  cases refused with
  | some e => exact hlast (proxyFailure_settings fos _ req _) rfl h₂
  | none => exact hlast (proxyRelay_settings fos _ _ _ _ req) rfl h₂

/-- The setters that a step of a program may call on its two contexts. -/
def Action.SetsFront (action : Action) (setting : Setting) : Prop := action = .front (.set setting)

def Action.SetsBack (action : Action) (setting : Setting) : Prop :=
  action = .back (.set setting) ∨
    ∃ req reqLength number, action = .proxy req reqLength ∧ setting = .slave number

/-- **A step changes the settings that it sets**: those of a setter, and the slave number of the
backend that `modbus_proxy` sets. -/
theorem Action.run_settings (ver : VersionString) (action : Action) (m : Mapping) :
    Ends (action.run fos bos ver (g, m)) (fun r => Sets action.SetsFront g.front r.2.1.front ∧
      Sets action.SetsBack g.back r.2.1.back) fun _ => True := by
  have himp : ∀ {P Q : Setting → Prop} {ctx ctx' : Modbus}, (∀ x, P x → Q x) → Sets P ctx ctx' →
      Sets Q ctx ctx' := by
    rintro P Q ctx ctx' hPQ ⟨ctx₁, rfl | ⟨setting, hP, hset⟩, hsame⟩
    · exact hsame.sets
    · exact ⟨ctx₁, Or.inr ⟨setting, hPQ setting hP, hset⟩, hsame⟩
  cases action with
  | front op =>
    refine (Operation.run_settings fos g.frontSt ver op m).bind fun r _ hr => ?_
    exact ⟨himp (fun x hx => congrArg Action.front hx) hr, (SameSettings.refl _).sets⟩
  | back op =>
    refine (Operation.run_settings bos g.backSt ver op m).bind fun r _ hr => ?_
    exact ⟨(SameSettings.refl _).sets, himp (fun x hx => Or.inl (congrArg Action.back hx)) hr⟩
  | proxy req reqLength =>
    refine (modbusProxy_settings fos bos g req reqLength).bind fun r _ hr => ?_
    refine ⟨hr.1.sets, himp (fun x hx => Or.inr ?_) hr.2⟩
    obtain ⟨number, rfl⟩ := hx
    exact ⟨req, reqLength, number, rfl, rfl⟩

end

/-- The contexts of a program that begins, as `modbus_new` returns them. -/
def newGateway (fbe bbe : Backend) (e : Errno) (s : σ) (t : τ) : Gateway σ τ :=
  ⟨modbusNew fbe, s, modbusNew bbe, t, e⟩

/-- **No timeout out of range leaves the library.**  Every program, on its way from two new
contexts through any functions of the library with any arguments, does the same on two systems and
on any that differ from these at timeouts out of range.  Connecting is one call of the system here,
so nothing is said of the `select` in it. -/
theorem timeouts_in_range (fos : Os σ) (sel : Timeval → σ → Readiness × σ)
    (slp : Timeval → σ → Option SysErrno × σ) (bos : Os τ) (sel' : Timeval → τ → Readiness × τ)
    (slp' : Timeval → τ → Option SysErrno × τ) (ver : VersionString) (program : List Action)
    (fbe bbe : Backend) (e : Errno) (s : σ) (t : τ) (m : Mapping) :
    runs (Action.run (fos.elsewhere sel slp) (bos.elsewhere sel' slp') ver) program
        (newGateway fbe bbe e s t, m) =
      runs (Action.run fos bos ver) program (newGateway fbe bbe e s t, m) := by
  have hstep : ∀ {action : Action} {s : Gateway σ τ × Mapping}, s.1.InRange →
      action.run (fos.elsewhere sel slp) (bos.elsewhere sel' slp') ver s =
        action.run fos bos ver s := fun h => Action.run_elsewhere ver _ h
  have hinv : ∀ {action : Action} {s : Gateway σ τ × Mapping} {o : Output}
      {s' : Gateway σ τ × Mapping}, s.1.InRange → action.run fos bos ver s = .ok (o, s') →
      s'.1.InRange := by
    intro action s o s' h hrun
    obtain ⟨hfront, hback⟩ := (Action.run_settings fos bos s.1 ver action s.2).result hrun
    exact ⟨hfront.inRange h.front, hback.inRange h.back⟩
  exact runs_congr hstep hinv program ⟨modbusNew_inRange fbe, modbusNew_inRange bbe⟩

end Libmodbus
