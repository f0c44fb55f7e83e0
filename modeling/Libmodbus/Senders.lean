/-
Libmodbus/Senders.lean

Where the frames are built.  Every function that sends has a local array for
its frame: 12 bytes for requests that consist of the preset fields, 14 for the
mask write, 260 for all others.  `Sender.fill` is the function up to the send,
on this array; a write outside it stops the run.

No write leaves the array (`Sender.fills_fill`), whose content in the end is the
frame of a message of at most 253 bytes behind the header; and the call hands
nothing else to the backend's send (`Sender.run_obeys`).
-/
import Libmodbus.Lib.Buffers
import Libmodbus.Gateway
import Libmodbus.Plans
import Libmodbus.Traces

namespace Libmodbus

open CSem Wire Posix

variable {σ τ : Type}

/-- `MAX_MESSAGE_LENGTH` -/
@[simp] abbrev maxMessageLength : Nat := 260

/-! ### The parts of a frame -/

/-- `build_request_basis`, on the array. -/
def buildRequestBasisInto (ctx : Modbus) (function : Nat) (addr nb : Int)
    (req : List UInt8) : Run (Buffer UInt8) :=
  match ctx.backend with
  | .rtu =>
    if ctx.slave = -1 then .error .assertFailed
    else
      Buffer.pushAll ⟨req, 0⟩ [lo ctx.slave, lo function, hi addr, lo addr, hi nb, lo nb]
  | .tcp => do
    let tId := nextTId ctx.tId
    let b ← Buffer.pushAll ⟨req, 0⟩ [hi tId.toNat, lo tId.toNat, 0, 0]
    -- the length is set later, at 4 and 5
    Buffer.pushAll { b with length := b.length + 2 }
      [lo ctx.slave, lo function, hi addr, lo addr, hi nb, lo nb]

/-- `build_response_basis`, on the array. -/
def buildResponseBasisInto (be : Backend) (sft : Sft) (rsp : List UInt8) : Run (Buffer UInt8) :=
  match be with
  | .rtu => Buffer.pushAll ⟨rsp, 0⟩ [lo sft.slave, lo sft.function]
  | .tcp => do
    let b ← Buffer.pushAll ⟨rsp, 0⟩ [hi sft.tId, lo sft.tId, 0, 0]
    -- the length is set later, at 4 and 5
    Buffer.pushAll { b with length := b.length + 2 } [lo sft.slave, lo sft.function]

/-- `send_msg_pre`, on the array. -/
def sendMsgPreInto (be : Backend) (b : Buffer UInt8) : Run (Buffer UInt8) :=
  match be with
  | .rtu => b.pushAll [lo (crc16 b.bytes), hi (crc16 b.bytes)]
  | .tcp => do
    let mbapLength : Int := b.length - 6
    let array ← wr b.array 4 (hi mbapLength)
    let array ← wr array 5 (lo mbapLength)
    .ok { b with array := array }

/-- The two bytes of a TCP header that are written last. -/
def LengthField : Backend → Nat → Prop
  | .rtu, _ => False
  | .tcp, i => i = 4 ∨ i = 5

/-- A TCP header, but for its length, and what follows it. -/
theorem fills_tcp {array : List UInt8} (a b c d : UInt8) {rest : List UInt8}
    (hroom : 6 + rest.length ≤ array.length) :
    Buffer.Fills array.length (LengthField .tcp) (do
      let b ← Buffer.pushAll ⟨array, 0⟩ [a, b, c, d]
      Buffer.pushAll { b with length := b.length + 2 } rest) (.ok (a :: b :: c :: d :: 0 :: 0 :: rest)) := by
  have hempty : Buffer.Holds (LengthField .tcp) ⟨array, 0⟩ [] := (Buffer.Fills.empty array).2
  obtain ⟨b₁, hb₁, hsize₁, h₁⟩ := hempty.pushAll [a, b, c, d]
    (show 0 + 4 ≤ array.length by omega)
  have hsize : b₁.array.length = array.length := hsize₁
  have hlen : b₁.length = 4 := h₁.length
  have h₂ := h₁.skip [0, 0] (by rw [hsize, hlen]; show 4 + 2 ≤ _; omega)
    (fun i hi hi' => by
      have : 4 ≤ i ∧ i < 6 := ⟨hi, hi'⟩
      show i = 4 ∨ i = 5
      omega)
  have hfill : Buffer.Fills array.length (LengthField .tcp)
      (Buffer.pushAll { b₁ with length := b₁.length + 2 } rest)
      (.ok ([] ++ [a, b, c, d] ++ [0, 0] ++ rest)) := Buffer.Fills.pushAll hsize h₂ hroom
  rw [hb₁]
  exact hfill

theorem fills_buildRequestBasis {ctx : Modbus} (function : Nat) (addr nb : Int)
    {req : List UInt8} (hroom : 12 ≤ req.length) :
    Buffer.Fills req.length (LengthField ctx.backend) (buildRequestBasisInto ctx function addr nb req)
      ((buildRequestBasis ctx function addr nb).map Prod.fst) := by
  unfold buildRequestBasisInto buildRequestBasis
  cases ctx.backend with
  | rtu =>
    by_cases hslave : ctx.slave = -1
    · rw [if_pos hslave, if_pos hslave]
      exact rfl
    · rw [if_neg hslave, if_neg hslave]
      have hempty : Buffer.Holds (LengthField .rtu) ⟨req, 0⟩ [] := (Buffer.Fills.empty req).2
      exact Buffer.Fills.pushAll rfl hempty (show 0 + 6 ≤ req.length by omega)
  | tcp => exact fills_tcp _ _ _ _ (show 6 + 6 ≤ req.length from hroom)

theorem fills_buildResponseBasis {be : Backend} (sft : Sft) {rsp : List UInt8}
    (hroom : 8 ≤ rsp.length) :
    Buffer.Fills rsp.length (LengthField be) (buildResponseBasisInto be sft rsp)
      (.ok (buildResponseBasis be sft)) := by
  cases be with
  | rtu =>
    have hempty : Buffer.Holds (LengthField .rtu) ⟨rsp, 0⟩ [] := (Buffer.Fills.empty rsp).2
    exact Buffer.Fills.pushAll rfl hempty (show 0 + 2 ≤ rsp.length by omega)
  | tcp => exact fills_tcp _ _ _ _ (show 6 + 2 ≤ rsp.length from hroom)

/-- Where `send_msg_pre` has room, its array holds the frame. -/
theorem fills_sendMsgPre {be : Backend} {size : Nat} {b : Buffer UInt8} {msg : List UInt8}
    (hsize : b.array.length = size) (h : b.Holds (LengthField be) msg)
    (hheader : be.headerLength ≤ msg.length) (hroom : msg.length + be.checksumLength ≤ size) :
    Buffer.Fills size (fun _ => False) (sendMsgPreInto be b) (.ok (sendMsgPre be msg)) := by
  cases be with
  | rtu =>
    have hbytes : b.bytes = msg := h.bytes_eq fun _ _ h => h
    show Buffer.Fills size _ (b.pushAll [lo (crc16 b.bytes), hi (crc16 b.bytes)]) _
    rw [hbytes]
    have h' : Buffer.Holds (fun _ => False) b msg := ⟨h.length, h.fits, h.same⟩
    exact Buffer.Fills.pushAll hsize h' hroom
  | tcp =>
    have hlen : 7 ≤ msg.length := hheader
    have hfits : b.length ≤ b.array.length := h.fits
    have hb : b.length = msg.length := h.length
    simp only [sendMsgPreInto, hb]
    rw [wr_lt (by omega), ok_bind, wr_lt (by rw [List.length_set]; omega), ok_bind]
    refine Buffer.Fills.ok (by rw [List.length_set, List.length_set, hsize]) ⟨?_, ?_, ?_⟩
    · simp only [sendMsgPre, List.length_set]
    · simp only [List.length_set]
      omega
    · intro i hi _
      simp only [sendMsgPre, List.length_set] at hi ⊢
      by_cases h5 : 5 = i
      · subst h5
        rw [List.getElem?_set_self (by rw [List.length_set]; omega),
          List.getElem?_set_self (by rw [List.length_set]; omega)]
      by_cases h4 : 4 = i
      · subst h4
        rw [List.getElem?_set_ne h5, List.getElem?_set_ne h5, List.getElem?_set_self (by omega),
          List.getElem?_set_self (by omega)]
      · rw [List.getElem?_set_ne h5, List.getElem?_set_ne h5, List.getElem?_set_ne h4,
          List.getElem?_set_ne h4]
        exact h.same i hi fun hgap => hgap.elim (fun h => h4 h.symm) fun h => h5 h.symm

/-! ### The builders -/

/-- The bytes of `modbus_write_bits`; `n` are left. -/
def packBytesInto (src : List UInt8) (nb : Nat) : Nat → Nat → Buffer UInt8 → Run (Buffer UInt8)
  | 0, _, b => .ok b
  | n + 1, pos, b => do
    let (pos, byte) ← packByteLoop src nb 8 0x01 pos 0
    let b ← b.push byte
    packBytesInto src nb n pos b

def writeBitsInto (ctx : Modbus) (addr nb : Int) (src req : List UInt8) :
    Run (Buffer UInt8) := do
  let b ← buildRequestBasisInto ctx fcWriteMultipleCoils addr nb req
  let byteCount := nb.toNat / 8 + (if nb.toNat % 8 ≠ 0 then 1 else 0)
  let b ← b.push (lo byteCount)
  packBytesInto src nb.toNat byteCount 0 b

/-- The registers `src[i]` and those behind it, high byte first; `n` are left. -/
def putRegistersInto (src : List UInt16) : Nat → Nat → Buffer UInt8 → Run (Buffer UInt8)
  | _, 0, b => .ok b
  | i, n + 1, b => do
    let v ← rd src i
    let b ← b.push (hi v.toNat)
    let b ← b.push (lo v.toNat)
    putRegistersInto src (i + 1) n b

def writeRegistersInto (ctx : Modbus) (addr nb : Int) (src : List UInt16) (req : List UInt8) :
    Run (Buffer UInt8) := do
  let b ← buildRequestBasisInto ctx fcWriteMultipleRegisters addr nb req
  let b ← b.push (lo (nb * 2))
  putRegistersInto src 0 nb.toNat b

def maskWriteRegisterInto (ctx : Modbus) (addr : Int) (andMask orMask : UInt16)
    (req : List UInt8) : Run (Buffer UInt8) := do
  let b ← buildRequestBasisInto ctx fcMaskWriteRegister addr 0 req
  -- count is not used
  let b := { b with length := b.length - 2 }
  b.pushAll [hi andMask.toNat, lo andMask.toNat, hi orMask.toNat, lo orMask.toNat]

def writeAndReadRegistersInto (ctx : Modbus) (writeAddr writeNb : Int) (src : List UInt16)
    (readAddr readNb : Int) (req : List UInt8) : Run (Buffer UInt8) := do
  let b ← buildRequestBasisInto ctx fcWriteAndReadRegisters readAddr readNb req
  let b ← b.pushAll [hi writeAddr, lo writeAddr, hi writeNb, lo writeNb, lo (writeNb * 2)]
  putRegistersInto src 0 writeNb.toNat b

def reportSlaveIdInto (ctx : Modbus) (req : List UInt8) : Run (Buffer UInt8) := do
  let b ← buildRequestBasisInto ctx fcReportSlaveId 0 0 req
  -- addr and count are not used
  .ok { b with length := b.length - 4 }

/-- `modbus_send_raw_request_tid`, `modbus_reply_exception` and the relay of `modbus_proxy`: a
response header, and `data` copied behind it. -/
def headedInto (be : Backend) (sft : Sft) (data rsp : List UInt8) : Run (Buffer UInt8) := do
  let b ← buildResponseBasisInto be sft rsp
  b.pushAll data

/-- `modbus_reply`.  Its handlers fill the array from the front, byte by byte behind the header or
with the front of the request. -/
def replyInto (ver : VersionString) (be : Backend) (req : List UInt8) (reqLength : Int)
    (m : Mapping) (rsp : List UInt8) : Run (Buffer UInt8) := do
  let reply ← buildReply ver be req reqLength m
  Buffer.pushAll ⟨rsp, 0⟩ reply.rsp

/-! ### The functions that send -/

inductive Sender
  | readBits (addr nb : Int) (dest : List UInt8)
  | readInputBits (addr nb : Int) (dest : List UInt8)
  | readRegisters (addr nb : Int) (dest : List UInt16)
  | readInputRegisters (addr nb : Int) (dest : List UInt16)
  | writeBit (addr status : Int)
  | writeRegister (addr : Int) (value : UInt16)
  | writeBits (addr nb : Int) (src : List UInt8)
  | writeRegisters (addr nb : Int) (src : List UInt16)
  | maskWriteRegister (addr : Int) (andMask orMask : UInt16)
  | writeAndReadRegisters (writeAddr writeNb : Int) (src : List UInt16) (readAddr readNb : Int)
      (dest : List UInt16)
  | reportSlaveId (maxDest : Int) (dest : List UInt8)
  | sendRawRequestTid (rawReq : List UInt8) (tid : Int)
  | reply (ver : VersionString) (req : List UInt8) (reqLength : Int) (m : Mapping)
  | replyException (req : List UInt8) (exceptionCode : Nat)

namespace Sender

/-- The call, of which the state is kept. -/
def run (os : Os σ) (st : St σ) : Sender → Run (St σ)
  | readBits addr nb dest => (modbusReadBits os st addr nb dest).map fun r => r.2.2
  | readInputBits addr nb dest => (modbusReadInputBits os st addr nb dest).map fun r => r.2.2
  | readRegisters addr nb dest => (modbusReadRegisters os st addr nb dest).map fun r => r.2.2
  | readInputRegisters addr nb dest =>
    (modbusReadInputRegisters os st addr nb dest).map fun r => r.2.2
  | writeBit addr status => (modbusWriteBit os st addr status).map Prod.snd
  | writeRegister addr value => (modbusWriteRegister os st addr value).map Prod.snd
  | writeBits addr nb src => (modbusWriteBits os st addr nb src).map Prod.snd
  | writeRegisters addr nb src => (modbusWriteRegisters os st addr nb src).map Prod.snd
  | maskWriteRegister addr andMask orMask =>
    (modbusMaskWriteRegister os st addr andMask orMask).map Prod.snd
  | writeAndReadRegisters writeAddr writeNb src readAddr readNb dest =>
    (modbusWriteAndReadRegisters os st writeAddr writeNb src readAddr readNb dest).map
      fun r => r.2.2
  | reportSlaveId maxDest dest => (modbusReportSlaveId os st maxDest dest).map fun r => r.2.2
  | sendRawRequestTid rawReq tid => (modbusSendRawRequestTid os st rawReq tid).map Prod.snd
  | reply ver req reqLength m => (modbusReply os ver st req reqLength m).map fun r => r.2.2
  | replyException req exceptionCode => (modbusReplyException os st req exceptionCode).map Prod.snd

/-- What the function checks before it builds anything. -/
def Accepted (be : Backend) : Sender → Prop
  | readBits _ nb _ => ¬ (nb < 1 ∨ (maxReadBits : Int) < nb)
  | readInputBits _ nb _ => ¬ (nb < 1 ∨ (maxReadBits : Int) < nb)
  | readRegisters _ nb _ => ¬ (nb < 1 ∨ (maxReadRegisters : Int) < nb)
  | readInputRegisters _ nb _ => ¬ (nb < 1 ∨ (maxReadRegisters : Int) < nb)
  | writeBit _ _ => True
  | writeRegister _ _ => True
  | writeBits _ nb _ => ¬ (nb < 1 ∨ (maxWriteBits : Int) < nb)
  | writeRegisters _ nb _ => ¬ (nb < 1 ∨ (maxWriteRegisters : Int) < nb)
  | maskWriteRegister _ _ _ => True
  | writeAndReadRegisters _ writeNb _ _ readNb _ => ¬ (writeNb < 1 ∨ readNb < 1) ∧
    ¬ (maxWrWriteRegisters : Int) < writeNb ∧ ¬ (maxWrReadRegisters : Int) < readNb
  | reportSlaveId maxDest _ => ¬ maxDest ≤ 0
  | sendRawRequestTid rawReq _ => ¬ (rawReq.length < 2 ∨ maxPduLength + 1 < rawReq.length)
  | reply _ _ reqLength _ => ¬ reqLength < (be.headerLength + 1 : Nat)
  | replyException _ exceptionCode => exceptionCode < exceptionMax

/-- The size of the local array. -/
def size : Sender → Nat
  | writeBits .. => maxMessageLength
  | writeRegisters .. => maxMessageLength
  | writeAndReadRegisters .. => maxMessageLength
  | sendRawRequestTid .. => maxMessageLength
  | reply .. => maxMessageLength
  | replyException .. => maxMessageLength
  | maskWriteRegister .. => 14
  | _ => 12

/-- The function up to `send_msg`, on its local array. -/
def build (ctx : Modbus) (array : List UInt8) : Sender → Run (Buffer UInt8)
  | readBits addr nb _ => buildRequestBasisInto ctx fcReadCoils addr nb array
  | readInputBits addr nb _ => buildRequestBasisInto ctx fcReadDiscreteInputs addr nb array
  | readRegisters addr nb _ => buildRequestBasisInto ctx fcReadHoldingRegisters addr nb array
  | readInputRegisters addr nb _ => buildRequestBasisInto ctx fcReadInputRegisters addr nb array
  | writeBit addr status =>
    buildRequestBasisInto ctx fcWriteSingleCoil addr
      ((if status ≠ 0 then 0xFF00 else 0 : UInt16).toNat : Nat) array
  | writeRegister addr value => buildRequestBasisInto ctx fcWriteSingleRegister addr value.toNat array
  | writeBits addr nb src => writeBitsInto ctx addr nb src array
  | writeRegisters addr nb src => writeRegistersInto ctx addr nb src array
  | maskWriteRegister addr andMask orMask => maskWriteRegisterInto ctx addr andMask orMask array
  | writeAndReadRegisters writeAddr writeNb src readAddr readNb _ =>
    writeAndReadRegistersInto ctx writeAddr writeNb src readAddr readNb array
  | reportSlaveId _ _ => reportSlaveIdInto ctx array
  | sendRawRequestTid rawReq tid => do
    let slave ← rd rawReq 0
    let function ← rd rawReq 1
    headedInto ctx.backend ⟨slave.toNat, function.toNat, tid⟩ (rawReq.drop 2) array
  | reply ver req reqLength m => replyInto ver ctx.backend req reqLength m array
  | replyException req exceptionCode => do
    let slave ← rd req (ctx.backend.headerLength - 1)
    let function ← rd req ctx.backend.headerLength
    let tId ← getResponseTid ctx.backend req
    headedInto ctx.backend ⟨slave.toNat, function.toNat + 0x80, tId⟩ [lo exceptionCode] array

/-- The frame, as it is handed to the backend's send, in the local array of the function. -/
def fill (ctx : Modbus) (array : List UInt8) (s : Sender) : Run (Buffer UInt8) := do
  let b ← s.build ctx array
  sendMsgPreInto ctx.backend b

/-- The message as a list, as it is given to `send_msg`. -/
def message (ctx : Modbus) : Sender → Run (List UInt8)
  | readBits addr nb _ => (buildRequestBasis ctx fcReadCoils addr nb).map Prod.fst
  | readInputBits addr nb _ => (buildRequestBasis ctx fcReadDiscreteInputs addr nb).map Prod.fst
  | readRegisters addr nb _ => (buildRequestBasis ctx fcReadHoldingRegisters addr nb).map Prod.fst
  | readInputRegisters addr nb _ =>
    (buildRequestBasis ctx fcReadInputRegisters addr nb).map Prod.fst
  | writeBit addr status => (buildRequestBasis ctx fcWriteSingleCoil addr
      ((if status ≠ 0 then 0xFF00 else 0 : UInt16).toNat : Nat)).map Prod.fst
  | writeRegister addr value =>
    (buildRequestBasis ctx fcWriteSingleRegister addr value.toNat).map Prod.fst
  | writeBits addr nb src => do
    let req ← (buildRequestBasis ctx fcWriteMultipleCoils addr nb).map Prod.fst
    let byteCount := nb.toNat / 8 + (if nb.toNat % 8 ≠ 0 then 1 else 0)
    let bytes ← packBytesLoop src nb.toNat byteCount 0
    .ok (req ++ lo byteCount :: bytes)
  | writeRegisters addr nb src => do
    let req ← (buildRequestBasis ctx fcWriteMultipleRegisters addr nb).map Prod.fst
    let bytes ← putRegisters src 0 nb.toNat
    .ok (req ++ lo (nb * 2) :: bytes)
  | maskWriteRegister addr andMask orMask => do
    let req ← (buildRequestBasis ctx fcMaskWriteRegister addr 0).map Prod.fst
    .ok (req.take (req.length - 2) ++
      [hi andMask.toNat, lo andMask.toNat, hi orMask.toNat, lo orMask.toNat])
  | writeAndReadRegisters writeAddr writeNb src readAddr readNb _ => do
    let req ← (buildRequestBasis ctx fcWriteAndReadRegisters readAddr readNb).map Prod.fst
    let bytes ← putRegisters src 0 writeNb.toNat
    .ok (req ++ [hi writeAddr, lo writeAddr, hi writeNb, lo writeNb, lo (writeNb * 2)] ++ bytes)
  | reportSlaveId _ _ => do
    let req ← (buildRequestBasis ctx fcReportSlaveId 0 0).map Prod.fst
    .ok (req.take (req.length - 4))
  | sendRawRequestTid rawReq tid => do
    let slave ← rd rawReq 0
    let function ← rd rawReq 1
    .ok (buildResponseBasis ctx.backend ⟨slave.toNat, function.toNat, tid⟩ ++ rawReq.drop 2)
  | reply ver req reqLength m => (buildReply ver ctx.backend req reqLength m).map Reply.rsp
  | replyException req exceptionCode => do
    let slave ← rd req (ctx.backend.headerLength - 1)
    let function ← rd req ctx.backend.headerLength
    let tId ← getResponseTid ctx.backend req
    .ok (buildResponseBasis ctx.backend ⟨slave.toNat, function.toNat + 0x80, tId⟩ ++
      [lo exceptionCode])

end Sender

/-! ### The messages are as long as they should be -/

theorem length_buildRequestBasis {ctx : Modbus} {function : Nat} {addr nb : Int}
    {req : List UInt8} (h : (buildRequestBasis ctx function addr nb).map Prod.fst = .ok req) :
    req.length = ctx.backend.headerLength + 5 := by
  unfold buildRequestBasis at h
  cases hbe : ctx.backend with
  | rtu =>
    rw [hbe] at h
    by_cases hslave : ctx.slave = -1
    · simp only [hslave, if_true] at h
      cases h
    · simp only [hslave, if_false] at h
      cases h
      rfl
  | tcp =>
    rw [hbe] at h
    cases h
    rfl

theorem length_buildResponseBasis (be : Backend) (sft : Sft) :
    (buildResponseBasis be sft).length = be.headerLength + 1 := by
  cases be with
  | rtu => rfl
  | tcp => rfl

theorem length_packBytesLoop {src bytes : List UInt8} {nb n pos : Nat}
    (h : packBytesLoop src nb n pos = .ok bytes) : bytes.length = n := by
  induction n generalizing pos bytes with
  | zero =>
    cases h
    rfl
  | succ n ih =>
    obtain ⟨⟨pos', byte⟩, -, h⟩ := bind_eq_ok.mp h
    obtain ⟨rest, hrest, h⟩ := bind_eq_ok.mp h
    cases h
    exact congrArg (· + 1) (ih hrest)

theorem length_putRegisters {src : List UInt16} {bytes : List UInt8} {i n : Nat}
    (h : putRegisters src i n = .ok bytes) : bytes.length = 2 * n := by
  induction n generalizing i bytes with
  | zero =>
    cases h
    rfl
  | succ n ih =>
    obtain ⟨v, -, h⟩ := bind_eq_ok.mp h
    obtain ⟨rest, hrest, h⟩ := bind_eq_ok.mp h
    cases h
    have hlen := ih hrest
    simp only [List.length_cons]
    omega

theorem length_sendMsgPre (be : Backend) (msg : List UInt8) :
    (sendMsgPre be msg).length = msg.length + be.checksumLength := by
  cases be with
  | rtu => exact List.length_append
  | tcp => simp only [sendMsgPre, List.length_set, Backend.checksumLength, Nat.add_zero]

/-- A PDU of at most 253 bytes makes an ADU. -/
theorem length_frame_le {be : Backend} {msg : List UInt8}
    (h : msg.length ≤ be.headerLength + maxPduLength) :
    (sendMsgPre be msg).length ≤ be.maxAduLength := by
  rw [length_sendMsgPre]
  cases be with
  | rtu =>
    have h' : msg.length ≤ 1 + 253 := h
    show msg.length + 2 ≤ 256
    omega
  | tcp =>
    have h' : msg.length ≤ 7 + 253 := h
    show msg.length + 0 ≤ 260
    omega

/-! ### The buffers hold the messages -/

section

variable {size : Nat} {gap : Nat → Prop} {b : Buffer UInt8} {msg : List UInt8}

theorem fills_packBytesInto (src : List UInt8) (nb n pos : Nat) (hsize : b.array.length = size)
    (h : b.Holds gap msg) (hroom : msg.length + n ≤ size) :
    Buffer.Fills size gap (packBytesInto src nb n pos b)
      ((packBytesLoop src nb n pos).map (msg ++ ·)) := by
  induction n generalizing pos b msg with
  | zero =>
    show Buffer.Fills size gap (.ok b) (.ok (msg ++ []))
    rw [List.append_nil]
    exact .ok hsize h
  | succ n ih =>
    have hlist : (packBytesLoop src nb (n + 1) pos).map (msg ++ ·) =
        packByteLoop src nb 8 0x01 pos 0 >>= fun r =>
          (packBytesLoop src nb n r.1).map (msg ++ [r.2] ++ ·) := by
      show (packByteLoop src nb 8 0x01 pos 0 >>= fun r =>
        packBytesLoop src nb n r.1 >>= fun rest => .ok (r.2 :: rest)).map (msg ++ ·) = _
      cases packByteLoop src nb 8 0x01 pos 0 with
      | error e => rfl
      | ok r =>
        simp only [ok_bind]
        cases packBytesLoop src nb n r.1 with
        | error e => rfl
        | ok rest => exact congrArg Except.ok (List.append_cons ..)
    rw [hlist]
    refine Buffer.Fills.read fun r _ => ?_
    obtain ⟨b', hpush, hsize', h'⟩ := h.push (by rw [h.length, hsize]; omega) r.2
    show Buffer.Fills size gap (b.push r.2 >>= fun b => packBytesInto src nb n r.1 b) _
    rw [hpush, ok_bind]
    refine ih r.1 (hsize'.trans hsize) h' ?_
    rw [List.length_append, List.length_singleton]
    omega

theorem fills_putRegistersInto (src : List UInt16) (i n : Nat) (hsize : b.array.length = size)
    (h : b.Holds gap msg) (hroom : msg.length + 2 * n ≤ size) :
    Buffer.Fills size gap (putRegistersInto src i n b) ((putRegisters src i n).map (msg ++ ·)) := by
  induction n generalizing i b msg with
  | zero =>
    show Buffer.Fills size gap (.ok b) (.ok (msg ++ []))
    rw [List.append_nil]
    exact .ok hsize h
  | succ n ih =>
    have hlist : (putRegisters src i (n + 1)).map (msg ++ ·) =
        rd src i >>= fun v =>
          (putRegisters src (i + 1) n).map (msg ++ [hi v.toNat] ++ [lo v.toNat] ++ ·) := by
      show (rd src i >>= fun v => putRegisters src (i + 1) n >>= fun rest =>
        .ok (hi v.toNat :: lo v.toNat :: rest)).map (msg ++ ·) = _
      cases rd src i with
      | error e => rfl
      | ok v =>
        simp only [ok_bind]
        cases putRegisters src (i + 1) n with
        | error e => rfl
        | ok rest =>
          simp only [Except.map, ok_bind, List.append_assoc, List.cons_append, List.nil_append]
    rw [hlist]
    refine Buffer.Fills.read fun v _ => ?_
    obtain ⟨b₁, hpush₁, hsize₁, h₁⟩ := h.push (by rw [h.length, hsize]; omega) (hi v.toNat)
    obtain ⟨b₂, hpush₂, hsize₂, h₂⟩ := h₁.push
      (by rw [h₁.length, hsize₁, hsize, List.length_append, List.length_singleton]; omega)
      (lo v.toNat)
    rw [hpush₁, ok_bind, hpush₂, ok_bind]
    refine ih (i + 1) (hsize₂.trans (hsize₁.trans hsize)) h₂ ?_
    simp only [List.length_append, List.length_singleton]
    omega

end

/-! ### Replies are not too long -/

/-- How many bytes are read for the response. -/
def Reading.size : Reading → Nat
  | .nothing => 0
  | .bits _ _ nb => (nb + 7) / 8
  | .registers _ _ nb => 2 * nb

theorem Reading.length_values {r : Reading} {m : Mapping} {values : List UInt8}
    (h : r.values m = .ok values) : values.length = r.size := by
  cases r with
  | nothing =>
    cases h
    rfl
  | bits isInput index nb =>
    rw [length_ioStatusLoop (by decide) h]
    exact congrArg (· / 8) (by omega)
  | registers isInput index nb => exact length_readRegisters h

/-- The response has a function code and is no longer than a PDU may be. -/
structure Plan.Fits (be : Backend) (p : Plan) : Prop where
  header : be.headerLength < p.rsp.length
  room : p.rsp.length + p.reading.size ≤ be.headerLength + maxPduLength

section Replies

variable {be : Backend} {sft : Sft} {req : List UInt8} {reqLength : Int} {address : Nat}
  {m : Mapping} {function : UInt8}

/-- A header, some bytes behind it, and the values that are read. -/
theorem Plan.Fits.headed {tail : List UInt8} {flush : Bool} {bits : Update UInt8}
    {registers : Update UInt16} {reading : Reading}
    (h : 1 + tail.length + reading.size ≤ maxPduLength) :
    Plan.Fits be ⟨buildResponseBasis be sft ++ tail, flush, bits, registers, reading⟩ := by
  constructor
  · show be.headerLength < (buildResponseBasis be sft ++ tail).length
    rw [List.length_append, length_buildResponseBasis]
    omega
  · show (buildResponseBasis be sft ++ tail).length + reading.size ≤ _
    rw [List.length_append, length_buildResponseBasis]
    omega

theorem fits_exception (code : Nat) (toFlush : Bool) :
    Ends (.ok (planException be sft code toFlush) : Run Plan) (Plan.Fits be) fun _ => True :=
  Plan.Fits.headed (show 1 + 1 + 0 ≤ 253 by decide)

theorem fits_readBits (isInput : Bool) :
    Ends (planReadBits be sft req address m isInput) (Plan.Fits be) fun _ => True := by
  refine Ends.seq fun nb _ => Ends.seq fun mappingAddress _ => ?_
  refine Ends.ite (fun _ => fits_exception _ _) fun hnb => Ends.seq fun outside _ => ?_
  refine Ends.ite (fun _ => fits_exception _ _) fun _ => Plan.Fits.headed ?_
  show 1 + 1 + (nb + 7) / 8 ≤ 253
  simp only [maxReadBits] at hnb
  omega

theorem fits_readRegisters (isInput : Bool) :
    Ends (planReadRegisters be sft req address m isInput) (Plan.Fits be) fun _ => True := by
  refine Ends.seq fun nb _ => Ends.seq fun mappingAddress _ => ?_
  refine Ends.ite (fun _ => fits_exception _ _) fun hnb => Ends.seq fun outside _ => ?_
  refine Ends.ite (fun _ => fits_exception _ _) fun _ => Plan.Fits.headed ?_
  show 1 + 1 + 2 * nb ≤ 253
  simp only [maxReadRegisters] at hnb
  omega

/-- The echo of a request. -/
theorem Plan.Fits.echo {rsp : List UInt8} {rspLength : Int} {bits : Update UInt8}
    {registers : Update UInt16} (hf : rd req be.headerLength = .ok function)
    (he : IsEcho function.toNat) (hlen : computeResponseLengthFromRequest be req = .ok rspLength)
    (hrsp : rdSlice req 0 (rspLength - be.checksumLength).toNat = .ok rsp) :
    Plan.Fits be ⟨rsp, false, bits, registers, .nothing⟩ := by
  obtain ⟨hlt, hle⟩ := computeResponseLength_echo hf he hlen
  have hrsp' := length_rdSlice hrsp
  constructor
  · show be.headerLength < rsp.length
    omega
  · show rsp.length + 0 ≤ be.headerLength + 253
    omega

theorem fits_writeSingleCoil (hf : rd req be.headerLength = .ok function)
    (he : IsEcho function.toNat) :
    Ends (planWriteSingleCoil be sft req reqLength address m) (Plan.Fits be) fun _ => True := by
  refine Ends.seq fun mappingAddress _ => Ends.ite (fun _ => fits_exception _ _) fun _ => ?_
  refine Ends.seq fun rspLength hlen => Ends.ite (fun _ => fits_exception _ _) fun _ => ?_
  refine Ends.seq fun data _ => Ends.ite (fun _ => ?_) fun _ => fits_exception _ _
  exact Ends.seq fun rsp hrsp => Plan.Fits.echo hf he hlen hrsp

theorem fits_writeSingleRegister (hf : rd req be.headerLength = .ok function)
    (he : IsEcho function.toNat) :
    Ends (planWriteSingleRegister be sft req reqLength address m) (Plan.Fits be)
      fun _ => True := by
  refine Ends.seq fun mappingAddress _ => Ends.ite (fun _ => fits_exception _ _) fun _ => ?_
  refine Ends.seq fun rspLength hlen => Ends.ite (fun _ => fits_exception _ _) fun _ => ?_
  exact Ends.seq fun data _ => Ends.seq fun rsp hrsp => Plan.Fits.echo hf he hlen hrsp

theorem fits_writeMultipleCoils :
    Ends (planWriteMultipleCoils be sft req address m) (Plan.Fits be) fun _ => True := by
  refine Ends.seq fun nb _ => Ends.seq fun nbBits _ => Ends.seq fun mappingAddress _ => ?_
  refine Ends.ite (fun _ => fits_exception _ _) fun _ => Ends.seq fun outside _ => ?_
  refine Ends.ite (fun _ => fits_exception _ _) fun _ => ?_
  refine Ends.seq fun values _ => Ends.seq fun echo hecho => Plan.Fits.headed ?_
  rw [length_rdSlice hecho]
  exact (by decide : 1 + 4 + 0 ≤ 253)

theorem fits_writeMultipleRegisters :
    Ends (planWriteMultipleRegisters be sft req address m) (Plan.Fits be) fun _ => True := by
  refine Ends.seq fun nb _ => Ends.seq fun nbBytes _ => Ends.seq fun mappingAddress _ => ?_
  refine Ends.ite (fun _ => fits_exception _ _) fun _ => Ends.seq fun outside _ => ?_
  refine Ends.ite (fun _ => fits_exception _ _) fun _ => ?_
  refine Ends.seq fun values _ => Ends.seq fun echo hecho => Plan.Fits.headed ?_
  rw [length_rdSlice hecho]
  exact (by decide : 1 + 4 + 0 ≤ 253)

theorem fits_reportSlaveId (ver : VersionString) :
    Ends (planReportSlaveId be sft ver) (Plan.Fits be) fun _ => True := by
  refine Plan.Fits.headed ?_
  have hver := ver.length_le
  simp only [slaveIdData, List.length_cons, Reading.size, maxPduLength]
  omega

theorem fits_maskWriteRegister (hf : rd req be.headerLength = .ok function)
    (he : IsEcho function.toNat) :
    Ends (planMaskWriteRegister be sft req reqLength address m) (Plan.Fits be)
      fun _ => True := by
  refine Ends.seq fun mappingAddress _ => Ends.ite (fun _ => fits_exception _ _) fun _ => ?_
  refine Ends.seq fun and _ => Ends.seq fun or _ => ?_
  refine Ends.seq fun rspLength hlen => Ends.ite (fun _ => fits_exception _ _) fun _ => ?_
  exact Ends.seq fun rsp hrsp => Plan.Fits.echo hf he hlen hrsp

theorem fits_writeAndReadRegisters :
    Ends (planWriteAndReadRegisters be sft req address m) (Plan.Fits be) fun _ => True := by
  refine Ends.seq fun nb _ => Ends.seq fun addressWrite _ => Ends.seq fun nbWrite _ => ?_
  refine Ends.seq fun nbWriteBytes _ => Ends.seq fun mappingAddress _ => ?_
  refine Ends.seq fun mappingAddressWrite _ => Ends.ite (fun _ => fits_exception _ _) fun hnb => ?_
  refine Ends.seq fun outside _ => Ends.ite (fun _ => fits_exception _ _) fun _ => ?_
  refine Ends.seq fun outsideWrite _ => Ends.ite (fun _ => fits_exception _ _) fun _ => ?_
  refine Ends.seq fun values _ => Plan.Fits.headed ?_
  show 1 + 1 + 2 * nb ≤ 253
  simp only [maxWrReadRegisters] at hnb
  omega

theorem fits_switch (ver : VersionString) (hf : rd req be.headerLength = .ok function)
    (hsft : sft.function = function.toNat) :
    Ends (planSwitch be sft req reqLength address m ver) (Plan.Fits be) fun _ => True := by
  unfold planSwitch
  refine Ends.ite (fun _ => fits_readBits false) fun _ => ?_
  refine Ends.ite (fun _ => fits_readBits true) fun _ => ?_
  refine Ends.ite (fun _ => fits_readRegisters false) fun _ => ?_
  refine Ends.ite (fun _ => fits_readRegisters true) fun _ => ?_
  refine Ends.ite (fun h => fits_writeSingleCoil hf (Or.inl (hsft.symm.trans h))) fun _ => ?_
  refine Ends.ite (fun h => fits_writeSingleRegister hf (Or.inr (Or.inl (hsft.symm.trans h))))
    fun _ => ?_
  refine Ends.ite (fun _ => fits_writeMultipleCoils) fun _ => ?_
  refine Ends.ite (fun _ => fits_writeMultipleRegisters) fun _ => ?_
  refine Ends.ite (fun _ => fits_reportSlaveId ver) fun _ => ?_
  refine Ends.ite (fun h => fits_maskWriteRegister hf (Or.inr (Or.inr (hsft.symm.trans h))))
    fun _ => ?_
  exact Ends.ite (fun _ => fits_writeAndReadRegisters) fun _ => fits_exception _ _

/-- **Every reply fits.** -/
theorem length_buildReply {ver : VersionString} {reply : Reply}
    (h : buildReply ver be req reqLength m = .ok reply) :
    be.headerLength < reply.rsp.length ∧
      reply.rsp.length ≤ be.headerLength + maxPduLength := by
  rw [buildReply_plan] at h
  obtain ⟨p, hp, hrun⟩ := bind_eq_ok.mp h
  obtain ⟨-, -, hfits⟩ := planReply_inv (P := fun _ p => p.Fits be)
    (fun _ sft code toFlush => fits_exception code toFlush) (fun hf hsft => fits_switch ver hf hsft)
    hp
  obtain ⟨values, hvalues, hrun⟩ := bind_eq_ok.mp hrun
  cases hrun
  have hheader := hfits.header
  have hroom := hfits.room
  rw [List.length_append, Reading.length_values hvalues]
  exact ⟨by omega, hroom⟩

end Replies

/-! ### No write leaves the local array -/

theorem headerLength_le (be : Backend) : 1 ≤ be.headerLength ∧ be.headerLength ≤ 7 := by
  cases be with
  | rtu => exact ⟨Nat.le_refl 1, by decide⟩
  | tcp => exact ⟨by decide, Nat.le_refl 7⟩

section

variable {ctx : Modbus} {array : List UInt8}

theorem fills_writeBits {addr nb : Int} {src : List UInt8} (harray : array.length = 260)
    (hnb : ¬ (nb < 1 ∨ (maxWriteBits : Int) < nb)) :
    Buffer.Fills array.length (LengthField ctx.backend) (writeBitsInto ctx addr nb src array)
      ((Sender.writeBits addr nb src).message ctx) := by
  refine Buffer.Fills.bind (fills_buildRequestBasis _ addr nb (by omega)) fun b req hreq hsize h => ?_
  have hlen := length_buildRequestBasis hreq
  obtain ⟨-, hheader⟩ := headerLength_le ctx.backend
  set byteCount := nb.toNat / 8 + (if nb.toNat % 8 ≠ 0 then 1 else 0) with hcount
  have hbytes : byteCount ≤ 246 := by
    rw [hcount]
    simp only [maxWriteBits] at hnb
    split_ifs <;> omega
  obtain ⟨b', hpush, hsize', h'⟩ := h.push (by rw [h.length, hsize]; omega) (lo byteCount)
  have hfill := fills_packBytesInto src nb.toNat byteCount 0
    (hsize'.trans hsize) h' (by rw [List.length_append, List.length_singleton]; omega)
  rw [map_eq_bind] at hfill
  simp only [List.append_assoc, List.cons_append, List.nil_append] at hfill
  show Buffer.Fills _ _ (b.push (lo byteCount) >>= _) _
  rw [hpush]
  exact hfill

theorem fills_writeRegisters {addr nb : Int} {src : List UInt16} (harray : array.length = 260)
    (hnb : ¬ (nb < 1 ∨ (maxWriteRegisters : Int) < nb)) :
    Buffer.Fills array.length (LengthField ctx.backend) (writeRegistersInto ctx addr nb src array)
      ((Sender.writeRegisters addr nb src).message ctx) := by
  refine Buffer.Fills.bind (fills_buildRequestBasis _ addr nb (by omega)) fun b req hreq hsize h => ?_
  have hlen := length_buildRequestBasis hreq
  obtain ⟨-, hheader⟩ := headerLength_le ctx.backend
  simp only [maxWriteRegisters] at hnb
  obtain ⟨b', hpush, hsize', h'⟩ := h.push (by rw [h.length, hsize]; omega) (lo (nb * 2))
  have hfill := fills_putRegistersInto src 0 nb.toNat
    (hsize'.trans hsize) h' (by rw [List.length_append, List.length_singleton]; omega)
  rw [map_eq_bind] at hfill
  simp only [List.append_assoc, List.cons_append, List.nil_append] at hfill
  show Buffer.Fills _ _ (b.push (lo (nb * 2)) >>= _) _
  rw [hpush]
  exact hfill

theorem fills_maskWriteRegister {addr : Int} {andMask orMask : UInt16}
    (harray : array.length = 14) :
    Buffer.Fills array.length (LengthField ctx.backend)
      (maskWriteRegisterInto ctx addr andMask orMask array)
      ((Sender.maskWriteRegister addr andMask orMask).message ctx) := by
  refine Buffer.Fills.bind (fills_buildRequestBasis _ addr 0 (by omega)) fun b req hreq hsize h => ?_
  have hlen := length_buildRequestBasis hreq
  obtain ⟨-, hheader⟩ := headerLength_le ctx.backend
  refine Buffer.Fills.pushAll hsize (h.shrink 2) ?_
  simp only [List.length_take, List.length_cons, List.length_nil]
  omega

theorem fills_writeAndReadRegisters {writeAddr writeNb readAddr readNb : Int} {src dest : List UInt16}
    (harray : array.length = 260) (hnb : ¬ (maxWrWriteRegisters : Int) < writeNb) :
    Buffer.Fills array.length (LengthField ctx.backend)
      (writeAndReadRegistersInto ctx writeAddr writeNb src readAddr readNb array)
      ((Sender.writeAndReadRegisters writeAddr writeNb src readAddr readNb dest).message ctx) := by
  refine Buffer.Fills.bind (fills_buildRequestBasis _ readAddr readNb (by omega))
    fun b req hreq hsize h => ?_
  have hlen := length_buildRequestBasis hreq
  obtain ⟨-, hheader⟩ := headerLength_le ctx.backend
  simp only [maxWrWriteRegisters] at hnb
  obtain ⟨b', hpush, hsize', h'⟩ := h.pushAll
    [hi writeAddr, lo writeAddr, hi writeNb, lo writeNb, lo (writeNb * 2)]
    (by rw [h.length, hsize]; simp only [List.length_cons, List.length_nil]; omega)
  have hfill := fills_putRegistersInto src 0 writeNb.toNat
    (hsize'.trans hsize) h'
    (by rw [List.length_append]; simp only [List.length_cons, List.length_nil]; omega)
  rw [map_eq_bind] at hfill
  show Buffer.Fills _ _ (b.pushAll _ >>= _) _
  rw [hpush]
  exact hfill

theorem fills_reportSlaveId {maxDest : Int} {dest : List UInt8} (harray : array.length = 12) :
    Buffer.Fills array.length (LengthField ctx.backend) (reportSlaveIdInto ctx array)
      ((Sender.reportSlaveId maxDest dest).message ctx) :=
  Buffer.Fills.bind (fills_buildRequestBasis _ 0 0 (by omega)) fun _ _ _ hsize h =>
    Buffer.Fills.ok hsize (h.shrink 4)

theorem fills_headed {be : Backend} (sft : Sft) {data : List UInt8}
    (hroom : be.headerLength + 1 + data.length ≤ array.length) (harray : 8 ≤ array.length) :
    Buffer.Fills array.length (LengthField be) (headedInto be sft data array)
      (.ok (buildResponseBasis be sft ++ data)) :=
  Buffer.Fills.bind (g := fun msg => .ok (msg ++ data)) (fills_buildResponseBasis sft harray)
    fun b msg hmsg hsize h => by
      cases hmsg
      exact Buffer.Fills.pushAll hsize h (by rw [length_buildResponseBasis]; exact hroom)

theorem fills_reply {ver : VersionString} {be : Backend} {req : List UInt8} {reqLength : Int}
    {m : Mapping} (harray : array.length = 260) :
    Buffer.Fills array.length (LengthField be) (replyInto ver be req reqLength m array)
      ((buildReply ver be req reqLength m).map Reply.rsp) := by
  rw [map_eq_bind]
  refine Buffer.Fills.read fun reply hreply => ?_
  obtain ⟨-, hlen⟩ := length_buildReply hreply
  obtain ⟨-, hheader⟩ := headerLength_le be
  have hempty : Buffer.Holds (LengthField be) ⟨array, 0⟩ [] := (Buffer.Fills.empty array).2
  refine Buffer.Fills.pushAll rfl hempty ?_
  simp only [maxPduLength, List.length_nil] at hlen ⊢
  omega

end

namespace Sender

variable {ctx : Modbus} {array : List UInt8}

/-- Every builder fills its local array with its message. -/
theorem fills_build (s : Sender) (hs : s.Accepted ctx.backend) (harray : array.length = s.size) :
    Buffer.Fills array.length (LengthField ctx.backend) (s.build ctx array) (s.message ctx) := by
  have hpreset : ∀ function addr nb, array.length = 12 →
      Buffer.Fills array.length (LengthField ctx.backend)
        (buildRequestBasisInto ctx function addr nb array)
        ((buildRequestBasis ctx function addr nb).map Prod.fst) :=
    fun function addr nb h => fills_buildRequestBasis function addr nb (by omega)
  obtain ⟨-, hheader⟩ := headerLength_le ctx.backend
  cases s with
  | readBits addr nb dest => exact hpreset _ _ _ harray
  | readInputBits addr nb dest => exact hpreset _ _ _ harray
  | readRegisters addr nb dest => exact hpreset _ _ _ harray
  | readInputRegisters addr nb dest => exact hpreset _ _ _ harray
  | writeBit addr status => exact hpreset _ _ _ harray
  | writeRegister addr value => exact hpreset _ _ _ harray
  | writeBits addr nb src => exact fills_writeBits harray hs
  | writeRegisters addr nb src => exact fills_writeRegisters harray hs
  | maskWriteRegister addr andMask orMask => exact fills_maskWriteRegister harray
  | writeAndReadRegisters writeAddr writeNb src readAddr readNb dest =>
    exact fills_writeAndReadRegisters harray hs.2.1
  | reportSlaveId maxDest dest => exact fills_reportSlaveId harray
  | sendRawRequestTid rawReq tid =>
    have harray' : array.length = 260 := harray
    have hlen : ¬ (rawReq.length < 2 ∨ 253 + 1 < rawReq.length) := hs
    refine Buffer.Fills.read fun slave _ => Buffer.Fills.read fun function _ => ?_
    exact fills_headed _ (by rw [List.length_drop]; omega) (by omega)
  | reply ver req reqLength m => exact fills_reply harray
  | replyException req exceptionCode =>
    have harray' : array.length = 260 := harray
    refine Buffer.Fills.read fun slave _ => Buffer.Fills.read fun function _ => ?_
    refine Buffer.Fills.read fun tId _ => ?_
    exact fills_headed _ (show _ + 1 + 1 ≤ _ by omega) (by omega)

/-- The header is there, there is room for a checksum, and the PDU is not too long. -/
theorem length_message {s : Sender} {msg : List UInt8} (hs : s.Accepted ctx.backend)
    (h : s.message ctx = .ok msg) :
    ctx.backend.headerLength ≤ msg.length ∧ msg.length + ctx.backend.checksumLength ≤ s.size ∧
      msg.length ≤ ctx.backend.headerLength + maxPduLength := by
  have hroom : ctx.backend.headerLength + ctx.backend.checksumLength ≤ 7 := by
    cases ctx.backend with
    | rtu => decide
    | tcp => decide
  -- six calls send what `build_request_basis` leaves
  have hpreset : ∀ {function : Nat} {addr nb : Int},
      (buildRequestBasis ctx function addr nb).map Prod.fst = .ok msg →
        ctx.backend.headerLength ≤ msg.length ∧ msg.length + ctx.backend.checksumLength ≤ 12 ∧
          msg.length ≤ ctx.backend.headerLength + 253 := by
    intro function addr nb h
    have hlen := length_buildRequestBasis h
    omega
  cases s with
  | readBits addr nb dest => exact hpreset h
  | readInputBits addr nb dest => exact hpreset h
  | readRegisters addr nb dest => exact hpreset h
  | readInputRegisters addr nb dest => exact hpreset h
  | writeBit addr status => exact hpreset h
  | writeRegister addr value => exact hpreset h
  -- from here on the quantity bounds the bytes that follow
  | writeBits addr nb src =>
    obtain ⟨req, hreq, h⟩ := bind_eq_ok.mp h
    obtain ⟨bytes, hbytes, h⟩ := bind_eq_ok.mp h
    cases h
    have hlen := length_buildRequestBasis hreq
    have hlen' := length_packBytesLoop hbytes
    have hnb : ¬ (nb < 1 ∨ 1968 < nb) := hs
    simp only [List.length_append, List.length_cons, size, maxMessageLength, maxPduLength]
    split_ifs at hlen' <;> omega
  | writeRegisters addr nb src =>
    obtain ⟨req, hreq, h⟩ := bind_eq_ok.mp h
    obtain ⟨bytes, hbytes, h⟩ := bind_eq_ok.mp h
    cases h
    have hlen := length_buildRequestBasis hreq
    have hlen' := length_putRegisters hbytes
    have hnb : ¬ (nb < 1 ∨ 123 < nb) := hs
    simp only [List.length_append, List.length_cons, size, maxMessageLength, maxPduLength]
    omega
  | maskWriteRegister addr andMask orMask =>
    obtain ⟨req, hreq, h⟩ := bind_eq_ok.mp h
    cases h
    have hlen := length_buildRequestBasis hreq
    simp only [List.length_append, List.length_take, List.length_cons, List.length_nil, size,
      maxPduLength]
    omega
  | writeAndReadRegisters writeAddr writeNb src readAddr readNb dest =>
    obtain ⟨req, hreq, h⟩ := bind_eq_ok.mp h
    obtain ⟨bytes, hbytes, h⟩ := bind_eq_ok.mp h
    cases h
    have hlen := length_buildRequestBasis hreq
    have hlen' := length_putRegisters hbytes
    have hnb : ¬ (121 : Int) < writeNb := hs.2.1
    simp only [List.length_append, List.length_cons, List.length_nil, size, maxMessageLength,
      maxPduLength]
    omega
  | reportSlaveId maxDest dest =>
    obtain ⟨req, hreq, h⟩ := bind_eq_ok.mp h
    cases h
    have hlen := length_buildRequestBasis hreq
    simp only [List.length_take, size, maxPduLength]
    omega
  | sendRawRequestTid rawReq tid =>
    obtain ⟨slave, -, h⟩ := bind_eq_ok.mp h
    obtain ⟨function, -, h⟩ := bind_eq_ok.mp h
    cases h
    have hlen : ¬ (rawReq.length < 2 ∨ 253 + 1 < rawReq.length) := hs
    rw [List.length_append, List.length_drop, length_buildResponseBasis]
    simp only [size, maxMessageLength, maxPduLength]
    omega
  | reply ver req reqLength m =>
    -- the length of a reply is bounded case by case in `length_buildReply`
    have h' : (buildReply ver ctx.backend req reqLength m).map Reply.rsp = .ok msg := h
    rw [map_eq_bind] at h'
    obtain ⟨reply, hreply, h'⟩ := bind_eq_ok.mp h'
    cases h'
    obtain ⟨hlt, hle⟩ := length_buildReply hreply
    simp only [size, maxMessageLength, maxPduLength] at hle ⊢
    omega
  | replyException req exceptionCode =>
    obtain ⟨slave, -, h⟩ := bind_eq_ok.mp h
    obtain ⟨function, -, h⟩ := bind_eq_ok.mp h
    obtain ⟨tId, -, h⟩ := bind_eq_ok.mp h
    cases h
    rw [List.length_append, List.length_singleton, length_buildResponseBasis]
    simp only [size, maxMessageLength, maxPduLength]
    omega

/-- The frame in the local array is the frame of the message. -/
theorem fills_fill (s : Sender) (hs : s.Accepted ctx.backend) (harray : array.length = s.size) :
    Buffer.Fills array.length (fun _ => False) (s.fill ctx array)
      ((s.message ctx).map (sendMsgPre ctx.backend)) := by
  rw [map_eq_bind]
  refine Buffer.Fills.bind (s.fills_build hs harray) fun b msg hmsg hsize h => ?_
  obtain ⟨hheader, hroom, -⟩ := length_message hs hmsg
  exact fills_sendMsgPre hsize h hheader (harray ▸ hroom)

/-- The frames the function may hand over. -/
def Frame (s : Sender) (ctx : Modbus) (frame : List UInt8) : Prop :=
  s.Accepted ctx.backend ∧ ∃ msg, s.message ctx = .ok msg ∧ frame = sendMsgPre ctx.backend msg

end Sender

/-! ### Only frames are handed over -/

theorem backend_buildRequestBasis {ctx ctx' : Modbus} {function : Nat} {addr nb : Int}
    {req : List UInt8} (h : buildRequestBasis ctx function addr nb = .ok (req, ctx')) :
    ctx'.backend = ctx.backend := by
  unfold buildRequestBasis at h
  cases hbe : ctx.backend with
  | rtu =>
    rw [hbe] at h
    by_cases hslave : ctx.slave = -1
    · simp only [hslave, if_true] at h
      cases h
    · simp only [hslave, if_false] at h
      cases h
      exact hbe
  | tcp =>
    rw [hbe] at h
    cases h
    rfl

section

variable {os : Os σ} {M : List UInt8 → Prop} {R : σ → σ → Prop} (ho : Obeys os M R)
  {st : St σ}

include ho

/-- A request is exchanged for a confirmation, and no call is made after that. -/
theorem exchange_obeys {function : Nat} {addr nb : Int} {req msg : List UInt8} {ctx' : Modbus}
    {β : Type} {last : β → St σ} {f : Int × List UInt8 × St σ → Run β}
    (hreq : buildRequestBasis st.ctx function addr nb = .ok (req, ctx'))
    (hm : M (sendMsgPre st.ctx.backend msg))
    (hf : ∀ r, Ends (f r) (fun r' => (last r').os = r.2.2.os) fun _ => True) :
    Ends (exchange os { st with ctx := ctx' } msg >>= f) (fun r => R st.os (last r).os)
      fun _ => True := by
  have hframe : M (sendMsgPre ctx'.backend msg) := by
    rw [backend_buildRequestBasis hreq]
    exact hm
  refine (exchange_moved ho { st with ctx := ctx' } hframe).bind fun r _ h => ?_
  refine (hf r).imp (fun r' hr' => ?_) fun _ h => h
  rw [hr']
  exact h.os

theorem readBits_obeys {function : Nat} {addr nb : Int} {dest : List UInt8}
    (hm : ¬ (nb < 1 ∨ (maxReadBits : Int) < nb) → ∀ msg,
      (buildRequestBasis st.ctx function addr nb).map Prod.fst = .ok msg →
        M (sendMsgPre st.ctx.backend msg)) :
    Ends (readBits os st function addr nb dest) (fun r => R st.os r.2.2.os) fun _ => True := by
  refine Ends.ite (fun _ => ho.refl _) fun hs => ?_
  have hcall : Ends (readIoStatus os st function addr nb dest) (fun r => R st.os r.2.2.os)
      fun _ => True := by
    refine Ends.seq fun ⟨req, ctx'⟩ hreq => ?_
    refine exchange_obeys ho hreq (hm hs req (by rw [hreq]; rfl)) fun r => ?_
    exact Ends.ite (fun _ => rfl) fun _ => Ends.seq fun dest' _ => rfl
  exact hcall.bind fun r _ h => Ends.ite (fun _ => h) fun _ => h

theorem readRegisters_obeys {function : Nat} {addr nb : Int} {dest : List UInt16}
    (hm : ¬ (nb < 1 ∨ (maxReadRegisters : Int) < nb) → ∀ msg,
      (buildRequestBasis st.ctx function addr nb).map Prod.fst = .ok msg →
        M (sendMsgPre st.ctx.backend msg)) :
    Ends (readAnyRegisters os st function addr nb dest) (fun r => R st.os r.2.2.os)
      fun _ => True := by
  refine Ends.ite (fun _ => ho.refl _) fun hs => Ends.ite (fun _ => ho.refl _) fun _ => ?_
  refine Ends.seq fun ⟨req, ctx'⟩ hreq => ?_
  refine exchange_obeys ho hreq (hm hs req (by rw [hreq]; rfl)) fun r => ?_
  exact Ends.ite (fun _ => rfl) fun _ => Ends.seq fun dest' _ => rfl

theorem writeSingle_obeys {function : Nat} {addr : Int} {value : UInt16}
    (hm : ∀ msg, (buildRequestBasis st.ctx function addr value.toNat).map Prod.fst = .ok msg →
      M (sendMsgPre st.ctx.backend msg)) :
    Ends (writeSingle os st function addr value) (fun r => R st.os r.2.os) fun _ => True := by
  refine Ends.seq fun ⟨req, ctx'⟩ hreq => ?_
  exact exchange_obeys ho hreq (hm req (by rw [hreq]; rfl)) fun r => rfl

end

namespace Sender

variable {ctx : Modbus} {array : List UInt8}

/-- The call moves the system by calls that send nothing but its frames. -/
theorem run_obeys {os : Os σ} {st : St σ} {R : σ → σ → Prop} (s : Sender)
    (ho : Obeys os (s.Frame st.ctx) R) :
    Ends (s.run os st) (fun st' => R st.os st'.os) fun _ => True := by
  cases s with
  | readBits addr nb dest =>
    exact Ends.map (readBits_obeys ho fun hs msg hmsg => ⟨hs, msg, hmsg, rfl⟩)
  | readInputBits addr nb dest =>
    exact Ends.map (readBits_obeys ho fun hs msg hmsg => ⟨hs, msg, hmsg, rfl⟩)
  | readRegisters addr nb dest =>
    exact Ends.map (readRegisters_obeys ho fun hs msg hmsg => ⟨hs, msg, hmsg, rfl⟩)
  | readInputRegisters addr nb dest =>
    exact Ends.map (readRegisters_obeys ho fun hs msg hmsg => ⟨hs, msg, hmsg, rfl⟩)
  | writeBit addr status =>
    exact Ends.map (writeSingle_obeys ho fun msg hmsg => ⟨trivial, msg, hmsg, rfl⟩)
  | writeRegister addr value =>
    exact Ends.map (writeSingle_obeys ho fun msg hmsg => ⟨trivial, msg, hmsg, rfl⟩)
  -- past its checks a call sends the message that `message` computes
  | writeBits addr nb src =>
    refine Ends.map (Ends.ite (fun _ => ho.refl _) fun hs => ?_)
    refine Ends.seq fun ⟨req, ctx'⟩ hreq => Ends.seq fun bytes hbytes => ?_
    refine exchange_obeys ho hreq ⟨hs, _, ?_, rfl⟩ fun r => rfl
    simp only [message, hreq, Except.map, ok_bind, hbytes]
  | writeRegisters addr nb src =>
    refine Ends.map (Ends.ite (fun _ => ho.refl _) fun hs => ?_)
    refine Ends.seq fun ⟨req, ctx'⟩ hreq => Ends.seq fun bytes hbytes => ?_
    refine exchange_obeys ho hreq ⟨hs, _, ?_, rfl⟩ fun r => rfl
    simp only [message, hreq, Except.map, ok_bind, hbytes]
  | maskWriteRegister addr andMask orMask =>
    refine Ends.map (Ends.seq fun ⟨req, ctx'⟩ hreq => ?_)
    refine exchange_obeys ho hreq ⟨trivial, _, ?_, rfl⟩ fun r => rfl
    simp only [message, hreq, Except.map, ok_bind]
  | writeAndReadRegisters writeAddr writeNb src readAddr readNb dest =>
    refine Ends.map (Ends.ite (fun _ => ho.refl _) fun hs => Ends.ite (fun _ => ho.refl _) fun hs' =>
      Ends.ite (fun _ => ho.refl _) fun hs'' => ?_)
    refine Ends.seq fun ⟨req, ctx'⟩ hreq => Ends.seq fun bytes hbytes => ?_
    refine exchange_obeys ho hreq ⟨⟨hs, hs', hs''⟩, _, ?_, rfl⟩ fun r => ?_
    · simp only [message, hreq, Except.map, ok_bind, hbytes]
    · exact Ends.ite (fun _ => rfl) fun _ => Ends.seq fun dest' _ => rfl
  | reportSlaveId maxDest dest =>
    refine Ends.map (Ends.ite (fun _ => ho.refl _) fun hs => Ends.seq fun ⟨req, ctx'⟩ hreq => ?_)
    refine exchange_obeys ho hreq ⟨hs, _, ?_, rfl⟩ fun r => ?_
    · simp only [message, hreq, Except.map, ok_bind]
    · exact Ends.ite (fun _ => rfl) fun _ => Ends.seq fun dest' _ => rfl
  | sendRawRequestTid rawReq tid =>
    refine Ends.map (Ends.ite (fun _ => ho.refl _) fun hs => ?_)
    refine Ends.seq fun slave hslave => Ends.seq fun function hf => ?_
    refine (sendMsg_moved ho st ⟨hs, _, ?_, rfl⟩).imp (fun r h => h.os) fun _ h => h
    simp only [message, hslave, hf, ok_bind]
  | reply ver req reqLength m =>
    refine Ends.map ?_
    by_cases hs : reqLength < (st.ctx.backend.headerLength + 1 : Nat)
    · rw [modbusReply, if_pos hs]
      exact ho.refl _
    · refine (modbusReply_moved ho fun reply hreply => ⟨hs, _, ?_, rfl⟩).imp (fun r h => h.os)
        fun _ h => h
      simp only [message, hreply, Except.map]
  | replyException req exceptionCode =>
    refine Ends.map ((modbusReplyException_moved ho fun rsp hrsp => ?_).imp (fun r h => h.os)
      fun _ h => h)
    obtain ⟨slave, hslave, hrsp⟩ := bind_eq_ok.mp hrsp
    obtain ⟨function, hf, hrsp⟩ := bind_eq_ok.mp hrsp
    obtain ⟨tId, htid, hrsp⟩ := bind_eq_ok.mp hrsp
    by_cases hs : exceptionCode < exceptionMax
    · rw [if_pos hs] at hrsp
      cases hrsp
      refine ⟨hs, _, ?_, rfl⟩
      simp only [message, hslave, hf, htid, ok_bind]
    · rw [if_neg hs] at hrsp
      cases hrsp

end Sender

end Libmodbus
