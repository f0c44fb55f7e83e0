/-
Libmodbus/Arrays.lean

`modbus_proxy` on its local arrays, and the bound on everything that is sent.

    backend_req[260]    the request as far as the function copies it
    check_req[260]      the request that the confirmation is compared with
    frontend_rsp[260]   the response that is relayed

`modbusProxyInto` fills these arrays whatever stands in them, and is equal to
`modbusProxy`, which has no arrays: no write leaves them.  `senders_fit` says so
of every function that sends, with a bound on the frames.
-/
import Libmodbus.Senders
import Libmodbus.Stops

namespace Libmodbus

open CSem Wire Posix

variable {σ τ : Type}

/-! ### The proxy on its arrays -/

/-- `send_msg`, on the array. -/
def sendMsgInto (os : Os σ) (st : St σ) (b : Buffer UInt8) : Run (Int × St σ) := do
  let b ← sendMsgPreInto st.ctx.backend b
  sendLoop os os.fuel st b.bytes

/-- The relay of `modbus_proxy`, on `frontend_rsp`. -/
def proxyRelayInto (fos : Os σ) (g : Gateway σ τ) (backendRsp : List UInt8)
    (backendRspLength : Int) (tId : Int) (req frontendRsp : List UInt8) :
    Run (Int × Gateway σ τ) := do
  let header := g.back.backend.headerLength
  let pduLength := backendRspLength - header - g.back.backend.checksumLength
  if pduLength < 1 then proxyFailure fos g req exceptionGatewayTarget
  else
    let slave ← rd backendRsp (header - 1)
    let function ← rd backendRsp header
    let sft : Sft := { slave := slave.toNat, function := function.toNat, tId := tId }
    let data ← rdSlice backendRsp (header + 1) (pduLength - 1).toNat
    let frontendRsp ← headedInto g.front.backend sft data frontendRsp
    let (rc, st) ← sendMsgInto fos g.frontSt frontendRsp
    .ok (rc, g.setFront st)

/-- The request for the pre-check, in `check_req`. -/
def proxyCheckReqInto (be : Backend) (backendReq checkReq : List UInt8) : Run (Buffer UInt8) := do
  let slave ← rd backendReq 0
  let function ← rd backendReq 1
  headedInto be { slave := slave.toNat, function := function.toNat, tId := 0 }
    (backendReq.drop 2) checkReq

/-- `modbus_proxy`, on its three local arrays. -/
def modbusProxyInto (fos : Os σ) (bos : Os τ) (g : Gateway σ τ) (req : List UInt8)
    (reqLength : Int) (backendReq checkReq frontendRsp : List UInt8) :
    Run (Int × Gateway σ τ) :=
  if reqLength < 1 then .ok (-1, { g with errno := .EINVAL })
  else
    let header := g.front.backend.headerLength
    let pduLength := reqLength - header - g.front.backend.checksumLength
    if pduLength < 1 ∨ (maxPduLength : Int) + 1 < pduLength then
      .ok (-1, { g with errno := .EMBBADDATA })
    else do
      let slave ← rd req (header - 1)
      match modbusSetSlave g.back slave.toNat with
      | .error e => proxyFailure fos { g with errno := e } req exceptionGatewayPath
      | .ok back =>
        let g := { g with back := back }
        let copied ← rdSlice req (header - 1) (pduLength + 1).toNat
        let backendReq ← Buffer.pushAll ⟨backendReq, 0⟩ copied
        let tId ← getResponseTid g.front.backend req
        let (rc, st) ← modbusSendRawRequestTid bos g.backSt backendReq.bytes 0
        let g := g.setBack st
        if rc = -1 then proxyFailure fos g req exceptionGatewayPath
        else
          let (rc, backendRsp, st) ← modbusReceiveMsg bos g.backSt .confirmation
          let g := g.setBack st
          if rc = -1 then
            if g.errno = .ETIMEDOUT then proxyFailure fos g req exceptionGatewayTarget
            else proxyFailure fos g req exceptionGatewayPath
          else
            let checkReq ← proxyCheckReqInto g.back.backend backendReq.bytes checkReq
            match ← preCheckConfirmation g.back.backend checkReq.bytes backendRsp with
            | some e => proxyFailure fos { g with errno := e } req exceptionGatewayTarget
            | none => proxyRelayInto fos g backendRsp rc tId req frontendRsp

/-! ### The arrays are large enough -/

/-- With room for it, the frame of a message is sent. -/
theorem sendMsgInto_eq (os : Os σ) (st : St σ) {b : Buffer UInt8} {msg : List UInt8}
    (h : b.Holds (LengthField st.ctx.backend) msg)
    (hheader : st.ctx.backend.headerLength ≤ msg.length)
    (hroom : msg.length + st.ctx.backend.checksumLength ≤ b.array.length) :
    sendMsgInto os st b = sendMsg os st msg := by
  obtain ⟨b', hb', -, h'⟩ := (fills_sendMsgPre rfl h hheader hroom).result rfl
  rw [sendMsgInto, hb', ok_bind, h'.bytes_eq fun _ _ h => h]
  rfl

/-- What a message of an ADU leaves for the data is what a response has room for. -/
theorem le_maxPduLength {be : Backend} {rc : Int} (h : rc ≤ be.maxAduLength) :
    rc - be.headerLength - be.checksumLength ≤ maxPduLength := by
  cases be with
  | rtu =>
    have h' : rc ≤ (256 : Nat) := h
    show rc - (1 : Nat) - (2 : Nat) ≤ (253 : Nat)
    omega
  | tcp =>
    have h' : rc ≤ (260 : Nat) := h
    show rc - (7 : Nat) - (0 : Nat) ≤ (253 : Nat)
    omega

theorem proxyRelayInto_eq (fos : Os σ) (g : Gateway σ τ) {backendRsp : List UInt8} {rc : Int}
    (tId : Int) (req : List UInt8) {frontendRsp : List UInt8}
    (hrc : rc ≤ g.back.backend.maxAduLength) (harray : frontendRsp.length = maxMessageLength) :
    proxyRelayInto fos g backendRsp rc tId req frontendRsp =
      proxyRelay fos g backendRsp rc tId req := by
  have hle := le_maxPduLength hrc
  unfold proxyRelayInto proxyRelay
  simp only
  split_ifs with hshort
  · rfl
  cases rd backendRsp (g.back.backend.headerLength - 1) with
  | error e => rfl
  | ok slave =>
  cases rd backendRsp g.back.backend.headerLength with
  | error e => rfl
  | ok function =>
  cases hdata : rdSlice backendRsp (g.back.backend.headerLength + 1)
      (rc - g.back.backend.headerLength - g.back.backend.checksumLength - 1).toNat with
  | error e => rfl
  | ok data =>
    simp only [ok_bind]
    have hlen := length_rdSlice hdata
    obtain ⟨-, hheader⟩ := headerLength_le g.front.backend
    have hcheck : g.front.backend.headerLength + g.front.backend.checksumLength ≤ 7 := by
      cases g.front.backend with
      | rtu => decide
      | tcp => decide
    simp only [maxPduLength, maxMessageLength] at hle harray
    have hfill : Buffer.Fills frontendRsp.length (LengthField g.front.backend)
        (headedInto g.front.backend ⟨slave.toNat, function.toNat, tId⟩ data frontendRsp)
        (.ok (buildResponseBasis g.front.backend ⟨slave.toNat, function.toNat, tId⟩ ++ data)) :=
      fills_headed _ (by omega) (by omega)
    obtain ⟨b, hb, hsize, h⟩ := hfill.result rfl
    have hmsg : (buildResponseBasis g.front.backend ⟨slave.toNat, function.toNat, tId⟩ ++
        data).length = g.front.backend.headerLength + 1 + data.length := by
      rw [List.length_append, length_buildResponseBasis]
    have hsend : sendMsgInto fos g.frontSt b = sendMsg fos g.frontSt
        (buildResponseBasis g.front.backend ⟨slave.toNat, function.toNat, tId⟩ ++ data) := by
      refine sendMsgInto_eq fos g.frontSt h ?_ ?_
      · show g.front.backend.headerLength ≤ _
        omega
      · show _ + g.front.backend.checksumLength ≤ _
        omega
    rw [hb, ok_bind, hsend]

/-- A raw request that is sent is no longer than a PDU and a slave. -/
theorem modbusSendRawRequestTid_accepted {os : Os σ} {st st' : St σ} {rawReq : List UInt8}
    {tid rc : Int} (hrc : rc ≠ -1)
    (h : modbusSendRawRequestTid os st rawReq tid = .ok (rc, st')) :
    rawReq.length ≤ maxPduLength + 1 := by
  unfold modbusSendRawRequestTid at h
  split_ifs at h with hlen
  · cases h
    exact absurd rfl hrc
  · exact Nat.le_of_not_lt fun hlt => hlen (Or.inr hlt)

/-- The pre-check reads no byte that is written last. -/
theorem preCheckConfirmation_into (be : Backend) {backendReq checkReq : List UInt8}
    (rsp : List UInt8) (hreq : backendReq.length ≤ maxPduLength + 1)
    (harray : checkReq.length = maxMessageLength) :
    (proxyCheckReqInto be backendReq checkReq >>= fun b => preCheckConfirmation be b.bytes rsp) =
      proxyCheckReq be backendReq >>= fun req => preCheckConfirmation be req rsp := by
  unfold proxyCheckReqInto proxyCheckReq
  cases rd backendReq 0 with
  | error e => rfl
  | ok slave =>
  cases rd backendReq 1 with
  | error e => rfl
  | ok function =>
    simp only [ok_bind]
    set msg := buildResponseBasis be ⟨slave.toNat, function.toNat, 0⟩ ++ backendReq.drop 2 with hmsg
    obtain ⟨hpos, hheader⟩ := headerLength_le be
    have hlen : msg.length = be.headerLength + 1 + (backendReq.length - 2) := by
      rw [hmsg, List.length_append, length_buildResponseBasis, List.length_drop]
    simp only [maxPduLength, maxMessageLength] at hreq harray
    have hfill : Buffer.Fills checkReq.length (LengthField be)
        (headedInto be ⟨slave.toNat, function.toNat, 0⟩ (backendReq.drop 2) checkReq)
        (.ok msg) :=
      fills_headed _ (by rw [List.length_drop]; omega) (by omega)
    obtain ⟨b, hb, hsize, h⟩ := hfill.result rfl
    rw [hb, ok_bind]
    have hrd : ∀ i, i < 2 → i < msg.length → rd b.bytes i = rd msg i := by
      intro i hi hlt
      have hsame := h.same i hlt fun hgap => by
        cases be with
        | rtu => exact hgap
        | tcp => exact hgap.elim (fun h => by omega) fun h => by omega
      unfold rd Buffer.bytes
      rw [List.getElem?_take_of_lt (by rw [h.length]; exact hlt), hsame]
    cases be with
    | rtu => simp only [preCheckConfirmation, hrd 0 (by decide) (by omega)]
    | tcp =>
      have hlong : 8 ≤ msg.length := by
        rw [hlen]
        exact Nat.le_add_right 8 _
      simp only [preCheckConfirmation, hrd 0 (by decide) (by omega), hrd 1 (by decide) (by omega)]

/-- **The proxy on its arrays is the proxy.** -/
theorem modbusProxyInto_eq (fos : Os σ) (bos : Os τ) (g : Gateway σ τ) (req : List UInt8)
    (reqLength : Int) {backendReq checkReq frontendRsp : List UInt8}
    (hbackendReq : backendReq.length = maxMessageLength)
    (hcheckReq : checkReq.length = maxMessageLength)
    (hfrontendRsp : frontendRsp.length = maxMessageLength) :
    modbusProxyInto fos bos g req reqLength backendReq checkReq frontendRsp =
      modbusProxy fos bos g req reqLength := by
  unfold modbusProxyInto modbusProxy
  split_ifs with hshort
  · rfl
  simp only
  split_ifs with hbounds
  · rfl
  cases rd req (g.front.backend.headerLength - 1) with
  | error e => rfl
  | ok slave =>
  simp only [ok_bind]
  cases modbusSetSlave g.back slave.toNat with
  | error e => rfl
  | ok back =>
  simp only
  cases hcopied : rdSlice req (g.front.backend.headerLength - 1)
      (reqLength - g.front.backend.headerLength - g.front.backend.checksumLength + 1).toNat with
  | error e => rfl
  | ok copied =>
    have hlen : copied.length ≤ maxPduLength + 2 := by
      rw [length_rdSlice hcopied]
      simp only [maxPduLength] at hbounds ⊢
      omega
    -- the request is copied whole
    have hempty : Buffer.Holds (fun _ => False) ⟨backendReq, 0⟩ [] := (Buffer.Fills.empty backendReq).2
    obtain ⟨b, hb, -, h⟩ := hempty.pushAll copied (by
      simp only [maxPduLength, maxMessageLength] at hlen hbackendReq
      show 0 + copied.length ≤ backendReq.length
      omega)
    have hbytes : b.bytes = copied := h.bytes_eq fun _ _ h => h
    simp only [ok_bind, hb, hbytes]
    cases getResponseTid g.front.backend req with
    | error e => rfl
    | ok tId =>
    simp only [ok_bind]
    cases hsent : modbusSendRawRequestTid bos (Gateway.backSt { g with back := back }) copied 0 with
    | error e => rfl
    | ok r =>
    obtain ⟨rc, st⟩ := r
    simp only [ok_bind]
    split_ifs with hrc
    · rfl
    cases hrcv : modbusReceiveMsg bos (Gateway.backSt (Gateway.setBack { g with back := back } st))
        .confirmation with
    | error e => rfl
    | ok r =>
    obtain ⟨rc', backendRsp, st'⟩ := r
    simp only [ok_bind]
    split_ifs with hrc' htimeout
    · rfl
    · rfl
    -- what is compared and what is relayed is the same
    obtain ⟨hle, -, hctx⟩ := modbusReceiveMsg_le hrc' hrcv
    have hpre := preCheckConfirmation_into st'.ctx.backend backendRsp
      (modbusSendRawRequestTid_accepted hrc hsent) hcheckReq
    show (proxyCheckReqInto st'.ctx.backend copied checkReq >>= fun b =>
      preCheckConfirmation st'.ctx.backend b.bytes backendRsp >>= _) =
      (proxyCheckReq st'.ctx.backend copied >>= fun c =>
        preCheckConfirmation st'.ctx.backend c backendRsp >>= _)
    rw [← bind_assoc, ← bind_assoc, hpre]
    refine congrArg _ (funext fun pre => ?_)
    cases pre with
    | some e => rfl
    | none =>
      refine proxyRelayInto_eq fos _ tId req ?_ hfrontendRsp
      show rc' ≤ st'.ctx.backend.maxAduLength
      rw [hctx]
      exact hle

/-! ### What stops a sender -/

/-- A read behind the end of what the caller passed, or a retry loop that is given up. -/
def CallerStop (e : Stop) : Prop := e = .outOfFuel ∨ ∃ i, e = .readOutside i

theorem Ends.caller {α : Type} {x : Run α} {P : α → Prop} (h : Ends x P fun _ => True)
    (hx : Settles x) : Ends x P CallerStop := (h.and hx).imp (fun _ h => h.1) fun _ h => Or.inl h.2

section

variable {E : Stop → Prop} (hE : ∀ i, E (.readOutside i))

include hE

theorem ends_rd_any {α : Type} (buf : List α) (i : Nat) : Ends (rd buf i) (fun _ => True) E := by
  unfold rd
  split
  · exact trivial
  · exact hE i

theorem ends_packByteLoop (src : List UInt8) (nb n : Nat) (bit : UInt8) (pos : Nat)
    (byte : UInt8) : Ends (packByteLoop src nb n bit pos byte) (fun _ => True) E := by
  induction n generalizing bit pos byte with
  | zero => exact trivial
  | succ n ih =>
    refine Ends.ite (fun _ => ?_) fun _ => trivial
    exact (ends_rd_any hE src pos).bind fun v _ _ => ih _ _ _

theorem ends_packBytesLoop (src : List UInt8) (nb n pos : Nat) :
    Ends (packBytesLoop src nb n pos) (fun _ => True) E := by
  induction n generalizing pos with
  | zero => exact trivial
  | succ n ih =>
    refine (ends_packByteLoop hE src nb 8 1 pos 0).bind fun r _ _ => ?_
    exact (ih r.1).bind fun rest _ _ => trivial

theorem ends_putRegisters (src : List UInt16) (i n : Nat) :
    Ends (putRegisters src i n) (fun _ => True) E := by
  induction n generalizing i with
  | zero => exact trivial
  | succ n ih =>
    exact (ends_rd_any hE src i).bind fun v _ _ => (ih (i + 1)).bind fun rest _ _ => trivial

theorem ends_getResponseTid (be : Backend) (req : List UInt8) :
    Ends (getResponseTid be req) (fun _ => True) E := by
  cases be with
  | rtu => exact trivial
  | tcp =>
    exact (ends_rd_any hE req 0).bind fun h _ _ => (ends_rd_any hE req 1).bind fun l _ _ => trivial

theorem ends_preCheckConfirmation (be : Backend) (req rsp : List UInt8) :
    Ends (preCheckConfirmation be req rsp) (fun _ => True) E := by
  cases be with
  | rtu =>
    refine (ends_rd_any hE req 0).bind fun _ _ _ => (ends_rd_any hE rsp 0).bind fun _ _ _ => ?_
    exact Ends.ite (fun _ => trivial) fun _ => trivial
  | tcp =>
    refine (ends_rd_any hE req 0).bind fun _ _ _ => (ends_rd_any hE rsp 0).bind fun _ _ _ => ?_
    refine (ends_rd_any hE req 1).bind fun _ _ _ => (ends_rd_any hE rsp 1).bind fun _ _ _ => ?_
    refine Ends.ite (fun _ => trivial) fun _ => (ends_rd_any hE rsp 2).bind fun _ _ _ => ?_
    exact (ends_rd_any hE rsp 3).bind fun _ _ _ => Ends.ite (fun _ => trivial) fun _ => trivial

theorem ends_rdSlice_any (buf : List UInt8) (off n : Nat) :
    Ends (rdSlice buf off n) (fun _ => True) E :=
  Ends.ite (fun _ => trivial) fun _ => hE _

end

theorem ends_buildRequestBasis {E : Stop → Prop} {ctx : Modbus}
    (hslave : ctx.backend = .rtu → ctx.slave ≠ -1)
    (function : Nat) (addr nb : Int) :
    Ends ((buildRequestBasis ctx function addr nb).map Prod.fst) (fun _ => True) E := by
  unfold buildRequestBasis
  cases hbe : ctx.backend with
  | rtu =>
    simp only [if_neg (hslave hbe)]
    exact trivial
  | tcp => exact trivial

namespace Sender

/-- The arguments are accepted, an RTU context has a slave, and a mapping has addresses that
requests can name. -/
structure Allowed (ctx : Modbus) (s : Sender) : Prop where
  accepted : s.Accepted ctx.backend
  slave : ctx.backend = .rtu → ctx.slave ≠ -1
  mapping : ∀ ver req reqLength m, s = .reply ver req reqLength m → m.Addressable

/-- Building the message stops at nothing but a read behind the end of the caller's array. -/
theorem ends_message {ctx : Modbus} {s : Sender} (hs : s.Allowed ctx) :
    Ends (s.message ctx) (fun _ => True) fun e => ∃ i, e = .readOutside i := by
  have hE : ∀ i, ∃ j, Stop.readOutside i = .readOutside j := fun i => ⟨i, rfl⟩
  have hbasis : ∀ function addr nb, Ends ((buildRequestBasis ctx function addr nb).map Prod.fst)
      (fun _ => True) fun e => ∃ i, e = .readOutside i :=
    ends_buildRequestBasis hs.slave
  cases s with
  | readBits addr nb dest => exact hbasis _ _ _
  | readInputBits addr nb dest => exact hbasis _ _ _
  | readRegisters addr nb dest => exact hbasis _ _ _
  | readInputRegisters addr nb dest => exact hbasis _ _ _
  | writeBit addr status => exact hbasis _ _ _
  | writeRegister addr value => exact hbasis _ _ _
  | writeBits addr nb src =>
    refine (hbasis _ _ _).bind fun req _ _ => ?_
    exact (ends_packBytesLoop hE src _ _ _).bind fun bytes _ _ => trivial
  | writeRegisters addr nb src =>
    refine (hbasis _ _ _).bind fun req _ _ => ?_
    exact (ends_putRegisters hE src _ _).bind fun bytes _ _ => trivial
  | maskWriteRegister addr andMask orMask => exact (hbasis _ _ _).bind fun req _ _ => trivial
  | writeAndReadRegisters writeAddr writeNb src readAddr readNb dest =>
    refine (hbasis _ _ _).bind fun req _ _ => ?_
    exact (ends_putRegisters hE src _ _).bind fun bytes _ _ => trivial
  | reportSlaveId maxDest dest => exact (hbasis _ _ _).bind fun req _ _ => trivial
  | sendRawRequestTid rawReq tid =>
    refine (ends_rd_any hE rawReq 0).bind fun slave _ _ => ?_
    exact (ends_rd_any hE rawReq 1).bind fun function _ _ => trivial
  | reply ver req reqLength m =>
    refine Ends.map ((ends_buildReply (hs.mapping _ _ _ _ rfl).startsSafe ?_ ?_).imp
      (fun _ _ => trivial) fun _ h => h)
    · exact Or.inr hE
    · exact Or.inr hE
  | replyException req exceptionCode =>
    refine (ends_rd_any hE req _).bind fun slave _ _ => (ends_rd_any hE req _).bind
      fun function _ _ => ?_
    exact (ends_getResponseTid hE _ req).bind fun tId _ _ => trivial

/-- The local array of the function is large enough for its frame. -/
theorem ends_fill {ctx : Modbus} {s : Sender} (hs : s.Allowed ctx) {array : List UInt8}
    (harray : array.length = s.size) :
    Ends (s.fill ctx array) (fun b => b.bytes.length ≤ ctx.backend.maxAduLength)
      fun e => ∃ i, e = .readOutside i := by
  have hfill := s.fills_fill hs.accepted harray
  have hmessage := ends_message hs
  cases hx : s.fill ctx array with
  | error e =>
    have hstop := hfill.stop hx
    cases hmsg : s.message ctx with
    | error e' =>
      rw [hmsg] at hstop
      cases hstop
      exact hmessage.stop hmsg
    | ok msg =>
      rw [hmsg] at hstop
      cases hstop
  | ok b =>
    cases hmsg : s.message ctx with
    | error e' =>
      rw [hx, hmsg] at hfill
      exact hfill.elim
    | ok msg =>
      rw [hx, hmsg] at hfill
      have hbytes : b.bytes = sendMsgPre ctx.backend msg := hfill.2.bytes_eq fun _ _ h => h
      show b.bytes.length ≤ _
      rw [hbytes]
      exact length_frame_le (length_message hs.accepted hmsg).2.2

/-- What the function may hand over is what its local array holds. -/
theorem Frame.filled {ctx : Modbus} {s : Sender} {frame : List UInt8} (h : s.Frame ctx frame)
    {array : List UInt8} (harray : array.length = s.size) :
    ∃ b, s.fill ctx array = .ok b ∧ frame = b.bytes := by
  obtain ⟨hs, msg, hmsg, rfl⟩ := h
  have hfill := s.fills_fill hs harray
  rw [hmsg] at hfill
  obtain ⟨b, hb, -, h⟩ := hfill.result rfl
  exact ⟨b, hb, (h.bytes_eq fun _ _ h => h).symm⟩

end Sender

/-! ### What the proxy sends -/

/-- The frames that fit the ADU of a context. -/
def FitsAdu (ctx : Modbus) (frame : List UInt8) : Prop := frame.length ≤ ctx.backend.maxAduLength

theorem buildReplyException_stops (be : Backend) (req : List UInt8) (code : Nat) :
    Ends (buildReplyException be req code)
      (fun rsp => ∀ msg, rsp = some msg → msg.length ≤ be.headerLength + maxPduLength)
      CallerStop := by
  have hE : ∀ i, CallerStop (.readOutside i) := fun i => Or.inr ⟨i, rfl⟩
  refine (ends_rd_any hE req _).bind fun slave _ _ => (ends_rd_any hE req _).bind
    fun function _ _ => ?_
  refine (ends_getResponseTid hE be req).bind fun tId _ _ => Ends.ite (fun _ => ?_) fun _ => ?_
  · intro msg hmsg
    cases hmsg
    rw [List.length_append, length_buildResponseBasis]
    exact Nat.add_le_add_left (by decide : 1 + 1 ≤ 253) _
  · intro msg hmsg
    cases hmsg

section

variable {fos : Os σ} {bos : Os τ} {ctx : Modbus} {R : σ → σ → Prop} {R' : τ → τ → Prop}

theorem sendMsg_fits {st : St σ} (ho : Obeys fos (FitsAdu st.ctx) R) {msg : List UInt8}
    (h : msg.length ≤ st.ctx.backend.headerLength + maxPduLength) :
    Ends (sendMsg fos st msg) (fun r => st.Moved R r.2) CallerStop := by
  have hfits : FitsAdu st.ctx (sendMsgPre st.ctx.backend msg) := length_frame_le h
  exact Ends.caller (sendMsg_moved ho st hfits) (sendMsg_settles fos st msg)

theorem modbusReplyException_fits {st : St σ} (ho : Obeys fos (FitsAdu st.ctx) R)
    (req : List UInt8) (code : Nat) :
    Ends (modbusReplyException fos st req code) (fun r => R st.os r.2.os) CallerStop := by
  refine (buildReplyException_stops st.ctx.backend req code).bind fun rsp _ hlen => ?_
  cases rsp with
  | none => exact ho.refl _
  | some msg => exact (sendMsg_fits ho (hlen msg rfl)).imp (fun r h => h.os) fun e h => h

/-- A raw request that is accepted fits. -/
theorem modbusSendRawRequestTid_fits {st : St τ} (ho : Obeys bos (FitsAdu st.ctx) R')
    (rawReq : List UInt8) (tid : Int) :
    Ends (modbusSendRawRequestTid bos st rawReq tid) (fun r => st.Moved R' r.2) CallerStop := by
  refine Ends.caller ?_ (modbusSendRawRequestTid_settles bos st rawReq tid)
  by_cases hlen : rawReq.length ≤ maxPduLength + 1
  · refine modbusSendRawRequestTid_moved ho st fun sft => length_frame_le ?_
    rw [List.length_append, length_buildResponseBasis, List.length_drop]
    simp only [maxPduLength] at hlen ⊢
    omega
  · rw [modbusSendRawRequestTid, if_pos (Or.inr (Nat.lt_of_not_le hlen))]
    exact (St.Moved.refl ho st).errno _

theorem proxyFailure_fits {g : Gateway σ τ} (ho : Obeys fos (FitsAdu g.front) R)
    (req : List UInt8) (code : Nat) :
    Ends (proxyFailure fos g req code)
      (fun r => R g.frontOs r.2.frontOs ∧ r.2.backOs = g.backOs) CallerStop := by
  have ho' : Obeys fos (FitsAdu g.frontSt.ctx) R := ho
  exact (modbusReplyException_fits ho' req code).bind fun r _ h => ⟨h, rfl⟩

theorem proxyRelay_fits {g : Gateway σ τ} (ho : Obeys fos (FitsAdu g.front) R)
    {backendRsp : List UInt8} {rc : Int} (tId : Int) (req : List UInt8)
    (hrc : rc ≤ g.back.backend.maxAduLength) :
    Ends (proxyRelay fos g backendRsp rc tId req)
      (fun r => R g.frontOs r.2.frontOs ∧ r.2.backOs = g.backOs) CallerStop := by
  have hE : ∀ i, CallerStop (.readOutside i) := fun i => Or.inr ⟨i, rfl⟩
  have hle := le_maxPduLength hrc
  refine Ends.ite (fun _ => proxyFailure_fits ho req _) fun _ => ?_
  refine (ends_rd_any hE _ _).bind fun slave _ _ => (ends_rd_any hE _ _).bind fun function _ _ => ?_
  refine (ends_rdSlice_any hE _ _ _).bind fun data hdata _ => ?_
  have hlen := length_rdSlice hdata
  have ho' : Obeys fos (FitsAdu g.frontSt.ctx) R := ho
  refine (sendMsg_fits ho' ?_).bind fun r _ h => ⟨h.os, rfl⟩
  show (buildResponseBasis g.front.backend _ ++ data).length ≤ g.front.backend.headerLength + 253
  rw [List.length_append, length_buildResponseBasis]
  simp only [maxPduLength] at hle
  omega

/-- **The proxy sends nothing too long**, on neither context. -/
theorem modbusProxy_fits {g : Gateway σ τ} (hof : Obeys fos (FitsAdu g.front) R)
    (hob : Obeys bos (FitsAdu g.back) R') (req : List UInt8) (reqLength : Int) :
    Ends (modbusProxy fos bos g req reqLength)
      (fun r => R g.frontOs r.2.frontOs ∧ R' g.backOs r.2.backOs) CallerStop := by
  have hE : ∀ i, CallerStop (.readOutside i) := fun i => Or.inr ⟨i, rfl⟩
  have hself : R g.frontOs g.frontOs ∧ R' g.backOs g.backOs := ⟨hof.refl _, hob.refl _⟩
  -- a gateway whose backend calls have moved the system by `R'`
  have hfailure : ∀ (g' : Gateway σ τ) (code : Nat), g'.front = g.front → g'.frontOs = g.frontOs →
      R' g.backOs g'.backOs → Ends (proxyFailure fos g' req code)
        (fun r => R g.frontOs r.2.frontOs ∧ R' g.backOs r.2.backOs) CallerStop := by
    intro g' code hfront hfos hback
    rw [← hfront] at hof
    refine (proxyFailure_fits hof req code).imp (fun r h => ?_) fun _ h => h
    rw [hfos] at h
    exact ⟨h.1, h.2 ▸ hback⟩
  have hrelay : ∀ (g' : Gateway σ τ) (rsp : List UInt8) (rc tId : Int), g'.front = g.front →
      g'.frontOs = g.frontOs → R' g.backOs g'.backOs → rc ≤ g'.back.backend.maxAduLength →
      Ends (proxyRelay fos g' rsp rc tId req)
        (fun r => R g.frontOs r.2.frontOs ∧ R' g.backOs r.2.backOs) CallerStop := by
    intro g' rsp rc tId hfront hfos hback hrc
    rw [← hfront] at hof
    refine (proxyRelay_fits hof tId req hrc).imp (fun r h => ?_) fun _ h => h
    rw [hfos] at h
    exact ⟨h.1, h.2 ▸ hback⟩
  refine Ends.ite (fun _ => hself) fun _ => Ends.ite (fun _ => hself) fun _ => ?_
  refine (ends_rd_any hE req _).bind fun slave _ _ => ?_
  cases hset : modbusSetSlave g.back slave.toNat with
  | error e => exact hfailure _ _ rfl rfl (hob.refl _)
  | ok back =>
  have hbackend : back.backend = g.back.backend := by rw [modbusSetSlave_ok hset]
  have hob' : Obeys bos (FitsAdu back) R' := by
    unfold FitsAdu
    rw [hbackend]
    exact hob
  have hobSt : Obeys bos (FitsAdu (⟨back, g.errno, g.backOs⟩ : St τ).ctx) R' := hob'
  refine (ends_rdSlice_any hE _ _ _).bind fun backendReq _ _ => ?_
  refine (ends_getResponseTid hE _ _).bind fun tId _ _ => ?_
  refine (modbusSendRawRequestTid_fits hobSt backendReq 0).bind fun ⟨rc, st⟩ _ hsent => ?_
  refine Ends.ite (fun _ => hfailure _ _ rfl rfl hsent.os) fun _ => ?_
  refine (Ends.caller (modbusReceiveMsg_moved hob' st .confirmation)
    (modbusReceiveMsg_settles bos st .confirmation)).bind fun ⟨rc', rsp, st'⟩ hrcv hmoved => ?_
  have hback : R' g.backOs st'.os := hob.trans hsent.os hmoved.os
  refine Ends.ite (fun _ => Ends.ite (fun _ => ?_) fun _ => ?_) fun hrc => ?_
  · exact hfailure _ _ rfl rfl hback
  · exact hfailure _ _ rfl rfl hback
  refine Ends.bind (P := fun _ => True) ?_ fun checkReq _ _ => ?_
  · refine (ends_rd_any hE _ _).bind fun slave _ _ => ?_
    exact (ends_rd_any hE _ _).bind fun function _ _ => trivial
  refine (ends_preCheckConfirmation hE _ _ _).bind fun pre _ _ => ?_
  cases pre with
  | some e => exact hfailure _ _ rfl rfl hback
  | none =>
    obtain ⟨hle, -, hctx⟩ := modbusReceiveMsg_le hrc hrcv
    refine hrelay _ rsp rc' tId rfl rfl hback ?_
    show rc' ≤ st'.ctx.backend.maxAduLength
    rw [hctx]
    exact hle

end

/-- **No sender leaves its array or exceeds an ADU.**  Of a call with arguments that its checks
accept: the local array is filled without a write outside it, whatever the array held, and its
content fits an ADU; and what the call hands to `send`, on any system, is that content.  Of
`modbus_proxy`, on any request: with arrays it does what it does without, and the frames of both
contexts fit. -/
theorem senders_fit :
    (∀ {σ : Type} (os : Os σ) (st : St (Recorded σ)) (s : Sender), s.Allowed st.ctx →
      (∀ array, array.length = s.size →
        Ends (s.fill st.ctx array) (fun b => b.bytes.length ≤ st.ctx.backend.maxAduLength)
          fun e => ∃ i, e = .readOutside i) ∧
      Ends (s.run (recordOs os) st) (fun st' => st.os.Adds (fun frame => ∀ array,
        array.length = s.size → ∃ b, s.fill st.ctx array = .ok b ∧ frame = b.bytes) st'.os)
        fun _ => True) ∧
    ∀ {σ τ : Type} (fos : Os σ) (bos : Os τ) (g : Gateway (Recorded σ) (Recorded τ))
      (req : List UInt8) (reqLength : Int) (backendReq checkReq frontendRsp : List UInt8),
      backendReq.length = maxMessageLength → checkReq.length = maxMessageLength →
      frontendRsp.length = maxMessageLength →
      modbusProxyInto (recordOs fos) (recordOs bos) g req reqLength backendReq checkReq
          frontendRsp = modbusProxy (recordOs fos) (recordOs bos) g req reqLength ∧
        Ends (modbusProxy (recordOs fos) (recordOs bos) g req reqLength)
          (fun r => g.frontOs.Adds (FitsAdu g.front) r.2.frontOs ∧
            g.backOs.Adds (FitsAdu g.back) r.2.backOs) CallerStop := by
  constructor
  · intro σ os st s hs
    refine ⟨fun array harray => Sender.ends_fill hs harray, ?_⟩
    refine (s.run_obeys (recordOs_adds os (s.Frame st.ctx))).imp (fun st' h => ?_) fun _ h => h
    obtain ⟨ms, hsent, hframes⟩ := h
    exact ⟨ms, hsent, fun frame hm array harray => (hframes frame hm).filled harray⟩
  · intro σ τ fos bos g req reqLength backendReq checkReq frontendRsp h1 h2 h3
    refine ⟨modbusProxyInto_eq _ _ g req reqLength h1 h2 h3, ?_⟩
    exact modbusProxy_fits (recordOs_adds fos _) (recordOs_adds bos _) req reqLength

/-- 125 registers are read over TCP. -/
theorem senders_fit_sample :
    Ends (Sender.fill (recordedSt .tcp 255).ctx (List.replicate 12 0xA5)
        (.readRegisters 0 125 [])) (fun b => b.bytes.length ≤ 260)
      fun e => ∃ i, e = .readOutside i := by
  have hs : Sender.Allowed (recordedSt .tcp 255).ctx (.readRegisters 0 125 []) :=
    ⟨show ¬ ((125 : Int) < 1 ∨ (125 : Int) < 125) by decide,
      fun h => absurd (show Backend.tcp = .rtu from h) (by decide), fun _ _ _ _ h => by cases h⟩
  exact (senders_fit.1 (linkOs 1) (recordedSt .tcp 255) (.readRegisters 0 125 []) hs).1
    (List.replicate 12 0xA5) rfl

end Libmodbus
