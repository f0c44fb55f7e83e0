/-
Libmodbus/Proxy.lean

`modbus_proxy`: a request from the frontend is forwarded to the backend and the
response relayed.  The two contexts have descriptors of their own, but `errno`
is one variable: it is carried from a call on one context to the next call on
the other.
-/
import Libmodbus.Reply

namespace Libmodbus

open CSem Wire Posix

variable {σ τ : Type}

/-- The two contexts of a gateway and the `errno` they share. -/
structure Gateway (σ τ : Type) where
  front : Modbus
  frontOs : σ
  back : Modbus
  backOs : τ
  errno : Errno

/-- A call on the frontend context. -/
def Gateway.frontSt (g : Gateway σ τ) : St σ := ⟨g.front, g.errno, g.frontOs⟩

/-- A call on the backend context. -/
def Gateway.backSt (g : Gateway σ τ) : St τ := ⟨g.back, g.errno, g.backOs⟩

def Gateway.setFront (g : Gateway σ τ) (st : St σ) : Gateway σ τ :=
  { g with front := st.ctx, frontOs := st.os, errno := st.errno }

def Gateway.setBack (g : Gateway σ τ) (st : St τ) : Gateway σ τ :=
  { g with back := st.ctx, backOs := st.os, errno := st.errno }

/-- `modbus_reply_exception (frontend_ctx, req, code)` and then `return -1`. -/
def proxyFailure (fos : Os σ) (g : Gateway σ τ) (req : List UInt8) (code : Nat) :
    Run (Int × Gateway σ τ) := do
  let (_, st) ← modbusReplyException fos g.frontSt req code
  .ok (-1, g.setFront st)

/-- The backend response `backendRsp` of `modbus_proxy`, unwrapped and sent to the frontend
with the transaction id of the request. -/
def proxyRelay (fos : Os σ) (g : Gateway σ τ) (backendRsp : List UInt8) (backendRspLength : Int)
    (tId : Int) (req : List UInt8) : Run (Int × Gateway σ τ) := do
  let header := g.back.backend.headerLength
  let pduLength := backendRspLength - header - g.back.backend.checksumLength
  if pduLength < 1 then proxyFailure fos g req exceptionGatewayTarget
  else
    let slave ← rd backendRsp (header - 1)
    let function ← rd backendRsp header
    let sft : Sft := { slave := slave.toNat, function := function.toNat, tId := tId }
    -- copy the remaining PDU data (everything after function code)
    let data ← rdSlice backendRsp (header + 1) (pduLength - 1).toNat
    let (rc, st) ← sendMsg fos g.frontSt (buildResponseBasis g.front.backend sft ++ data)
    .ok (rc, g.setFront st)

/-- The minimal request for the pre-check of the confirmation: transaction id 0 and the PDU
that was forwarded. -/
def proxyCheckReq (be : Backend) (backendReq : List UInt8) : Run (List UInt8) := do
  let slave ← rd backendReq 0
  let function ← rd backendReq 1
  .ok (buildResponseBasis be { slave := slave.toNat, function := function.toNat, tId := 0 } ++
    backendReq.drop 2)

/-- `modbus_proxy` -/
def modbusProxy (fos : Os σ) (bos : Os τ) (g : Gateway σ τ) (req : List UInt8)
    (reqLength : Int) : Run (Int × Gateway σ τ) :=
  if reqLength < 1 then .ok (-1, { g with errno := .EINVAL })
  else
    let header := g.front.backend.headerLength
    -- the PDU sits between the header and the checksum
    let pduLength := reqLength - header - g.front.backend.checksumLength
    if pduLength < 1 ∨ (maxPduLength : Int) + 1 < pduLength then
      .ok (-1, { g with errno := .EMBBADDATA })
    else do
      let slave ← rd req (header - 1)
      match modbusSetSlave g.back slave.toNat with
      | .error e => proxyFailure fos { g with errno := e } req exceptionGatewayPath
      | .ok back =>
        let g := { g with back := back }
        let backendReq ← rdSlice req (header - 1) (pduLength + 1).toNat
        let tId ← getResponseTid g.front.backend req
        let (rc, st) ← modbusSendRawRequestTid bos g.backSt backendReq 0
        let g := g.setBack st
        if rc = -1 then proxyFailure fos g req exceptionGatewayPath
        else
          let (rc, backendRsp, st) ← modbusReceiveMsg bos g.backSt .confirmation
          let g := g.setBack st
          if rc = -1 then
            if g.errno = .ETIMEDOUT then proxyFailure fos g req exceptionGatewayTarget
            else proxyFailure fos g req exceptionGatewayPath
          else
            let checkReq ← proxyCheckReq g.back.backend backendReq
            match ← preCheckConfirmation g.back.backend checkReq backendRsp with
            | some e => proxyFailure fos { g with errno := e } req exceptionGatewayTarget
            | none => proxyRelay fos g backendRsp rc tId req

end Libmodbus
