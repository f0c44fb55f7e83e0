/-
Libmodbus/Gateway.lean

The gateway is transparent.

    frontend request ──▶ modbus_proxy ──▶ backend server
    frontend response ◀──             ◀── its response

A request is unwrapped on one side and wrapped on the other, and so is the
response.  With a server at the backend link the frame that goes out on the
frontend is the one `modbus_reply` would send there, and the mapping of the
server is the one it would leave (`modbusProxy_transparent`).

The backend request has transaction id 0, whatever the frontend's was; the
server echoes it, and the id of the frontend is put back at the end.
-/
import Libmodbus.Peer
import Libmodbus.Proxy

namespace Libmodbus

open CSem Wire Posix

variable {σ τ : Type} {be : Backend}

/-! ### Wrapping a PDU -/

/-- The only thing that changes is the slave number. -/
theorem modbusSetSlave_ok {ctx ctx' : Modbus} {slave : Int}
    (h : modbusSetSlave ctx slave = .ok ctx') : ctx' = { ctx with slave := slave } := by
  unfold modbusSetSlave at h
  generalize (if ctx.quirks.maxSlave then (255 : Int) else 247) = maxSlave at h
  dsimp only at h
  split at h
  · cases h
    rfl
  · split at h
    · split at h
      · cases h
        rfl
      · cases h
    · cases h

/-- `build_response_basis` and the rest of a PDU are a header and the PDU. -/
theorem buildResponseBasis_pdu (be : Backend) (a : Adu) {function : UInt8} {data : List UInt8}
    (hpdu : a.pdu = function :: data) :
    buildResponseBasis be (a.sft be function.toNat) ++ data = a.blank.header be ++ a.blank.pdu := by
  rw [buildResponseBasis_sft, lo_toNat, List.append_assoc]
  show _ = a.blank.header be ++ a.pdu
  rw [hpdu]
  rfl

/-- The unit and the PDU of a frame, as `modbus_proxy` copies them. -/
theorem rdSlice_unit (a : Adu) (trailer : List UInt8) :
    rdSlice (a.wrapped be trailer) (be.headerLength - 1) (a.pdu.length + 1) =
      .ok (a.unit :: a.pdu) := by
  have hlen : be.headerLength - 1 + (a.pdu.length + 1) ≤ (a.wrapped be trailer).length := by
    rw [Adu.length_wrapped]
    cases be <;> simp only [Backend.headerLength] <;> omega
  rw [rdSlice_of_le hlen]
  cases be with
  | rtu =>
    show Except.ok (((a.unit :: a.pdu) ++ trailer).take (a.unit :: a.pdu).length) = _
    rw [List.take_left]
  | tcp =>
    show Except.ok (((a.unit :: a.pdu) ++ trailer).take (a.unit :: a.pdu).length) = _
    rw [List.take_left]

/-- The length of a PDU, from the length of its frame. -/
theorem length_pdu_of_bytes (a : Adu) :
    (((a.bytes be).length : Nat) : Int) - be.headerLength - be.checksumLength = a.pdu.length := by
  rw [Adu.length_bytes]
  omega

/-! ### The three stages of modbus_proxy -/

theorem rtuAdu_sft (unit : UInt8) (pdu : List UInt8) (function : Nat) :
    (rtuAdu unit pdu).sft be function = ⟨unit.toNat, function, 0⟩ := by
  cases be <;> rfl

/-- Forwarding: the request goes to the backend under transaction id 0. -/
theorem modbusSendRawRequestTid_pdu {os : Os τ} {st : St τ} {unit : UInt8} {pdu : List UInt8}
    (hne : pdu ≠ []) (hlen : pdu.length ≤ maxPduLength) :
    modbusSendRawRequestTid os st (unit :: pdu) 0 =
      sendMsg os st ((rtuAdu unit pdu).header st.ctx.backend ++ pdu) := by
  obtain ⟨function, data, rfl⟩ := List.exists_cons_of_ne_nil hne
  have hbounds : ¬ ((unit :: function :: data).length < 2 ∨
      maxPduLength + 1 < (unit :: function :: data).length) := by
    simp only [List.length_cons, maxPduLength] at hlen ⊢
    omega
  have hbasis := buildResponseBasis_pdu st.ctx.backend (rtuAdu unit (function :: data)) rfl
  rw [modbusSendRawRequestTid, if_neg hbounds]
  show sendMsg os st (buildResponseBasis st.ctx.backend ⟨unit.toNat, function.toNat, 0⟩ ++ data) = _
  rw [← rtuAdu_sft unit (function :: data), hbasis]
  rfl

/-- The pre-check request is the frame that was sent, but for the length field and the CRC. -/
theorem proxyCheckReq_pdu {unit : UInt8} {pdu : List UInt8} (hne : pdu ≠ []) :
    proxyCheckReq be (unit :: pdu) = .ok ((rtuAdu unit pdu).wrapped be []) := by
  obtain ⟨function, data, rfl⟩ := List.exists_cons_of_ne_nil hne
  have hbasis := buildResponseBasis_pdu be (rtuAdu unit (function :: data)) rfl
  show Except.ok (buildResponseBasis be ⟨unit.toNat, function.toNat, 0⟩ ++ data) = _
  rw [← rtuAdu_sft unit (function :: data), hbasis, Adu.wrapped, List.append_nil]
  rfl

/-- What goes out on the frontend for the PDU of a backend response. -/
def Adu.relay (a r : Adu) : Adu := { a.blank with unit := r.unit, pdu := r.pdu }

/-- Relaying: the PDU of the backend response under the transaction id of the request. -/
theorem proxyRelay_bytes (fos : Os σ) (g : Gateway σ τ) {r : Adu} (hne : r.pdu ≠ []) (a : Adu)
    (req : List UInt8) :
    proxyRelay fos g (r.bytes g.back.backend) ((r.bytes g.back.backend).length : Nat)
        (a.sft g.front.backend 0).tId req = (do
      let (rc, st) ← sendAdu fos g.frontSt (a.relay r).sealed
      .ok (rc, g.setFront st)) := by
  obtain ⟨function, data, hpdu⟩ := List.exists_cons_of_ne_nil hne
  have hlen : r.pdu.length = data.length + 1 := by
    rw [hpdu]
    rfl
  have hunit : rd (r.bytes g.back.backend) (g.back.backend.headerLength - 1) = .ok r.unit :=
    r.rd_wrapped_unit _
  have hfun : rd (r.bytes g.back.backend) g.back.backend.headerLength = .ok function := by
    show rd (r.bytes g.back.backend) (g.back.backend.headerLength + 0) = _
    rw [Adu.bytes, r.rd_wrapped _ (List.length_pos_of_ne_nil hne), hpdu]
    rfl
  have hdata : rdSlice (r.bytes g.back.backend) (g.back.backend.headerLength + 1)
      ((r.pdu.length : Int) - 1).toNat = .ok data := by
    have hn : ((r.pdu.length : Int) - 1).toNat = data.length := by omega
    rw [hn, Adu.bytes, rdSlice_wrapped r _ (by omega), rdSlice_of_le (by omega), hpdu]
    show Except.ok (data.take data.length) = _
    rw [List.take_length]
  have hbasis := buildResponseBasis_pdu g.front.backend (a.relay r) hpdu
  have hsft : (a.relay r).sft g.front.backend function.toNat =
      ⟨r.unit.toNat, function.toNat, (a.sft g.front.backend 0).tId⟩ := rfl
  rw [hsft] at hbasis
  have hsend : sendMsg fos g.frontSt ((a.relay r).blank.header g.front.backend ++
      (a.relay r).blank.pdu) = sendAdu fos g.frontSt (a.relay r).sealed :=
    sendMsg_header fos g.frontSt (a.relay r).blank
  simp only [proxyRelay, length_pdu_of_bytes, if_neg (show ¬ (r.pdu.length : Int) < 1 by omega),
    hunit, hfun, hdata, ok_bind, hbasis, hsend]

/-- The frame that is relayed is the one that would be sent directly: the protocol id, which an
echo keeps, is 0. -/
theorem bytes_relay {a b : Adu} {p : PduReply} (hprotocol : be = .tcp → a.protocol = 0)
    (hunit : b.unit = a.unit) : (a.relay (p.adu b)).sealed.bytes be = (p.adu a).bytes be := by
  cases be with
  | rtu =>
    simp only [Adu.bytes, Adu.wrapped, Adu.header, Adu.checksum, Adu.sealed, Adu.relay,
      PduReply.adu, hunit]
  | tcp =>
    have h0 := hprotocol rfl
    have hadu : (a.relay (p.adu b)).sealed = p.adu a := by
      simp only [Adu.sealed, Adu.relay, Adu.blank, PduReply.adu, hunit, h0, ite_self]
    rw [hadu]

/-- `modbus_proxy` on the frame of a PDU.  The buffers are gone: the PDU is sent under transaction
id 0, the response received, checked and relayed. -/
theorem modbusProxy_wrapped (fos : Os σ) (bos : Os τ) (g : Gateway σ τ) {a : Adu}
    (trailer : List UInt8) {reqLength : Int} (hne : a.pdu ≠ [])
    (hmax : a.pdu.length ≤ maxPduLength + 1)
    (hn : reqLength - g.front.backend.headerLength - g.front.backend.checksumLength =
      a.pdu.length) :
    modbusProxy fos bos g (a.wrapped g.front.backend trailer) reqLength =
      match modbusSetSlave g.back a.unit.toNat with
      | .error e => proxyFailure fos { g with errno := e } (a.wrapped g.front.backend trailer)
          exceptionGatewayPath
      | .ok back => (do
        let (rc, st) ← modbusSendRawRequestTid bos ⟨back, g.errno, g.backOs⟩ (a.unit :: a.pdu) 0
        let g := { g with back := back }.setBack st
        if rc = -1 then proxyFailure fos g (a.wrapped g.front.backend trailer) exceptionGatewayPath
        else
          let (rc, backendRsp, st) ← modbusReceiveMsg bos g.backSt .confirmation
          let g := g.setBack st
          if rc = -1 then
            if g.errno = .ETIMEDOUT then
              proxyFailure fos g (a.wrapped g.front.backend trailer) exceptionGatewayTarget
            else proxyFailure fos g (a.wrapped g.front.backend trailer) exceptionGatewayPath
          else
            match ← preCheckConfirmation g.back.backend
              ((rtuAdu a.unit a.pdu).wrapped g.back.backend []) backendRsp with
            | some e =>
              proxyFailure fos { g with errno := e } (a.wrapped g.front.backend trailer)
                exceptionGatewayTarget
            | none =>
              proxyRelay fos g backendRsp rc (a.sft g.front.backend 0).tId
                (a.wrapped g.front.backend trailer)) := by
  have hpos := List.length_pos_of_ne_nil hne
  have hlen : ¬ reqLength < 1 := by omega
  have hbounds : ¬ ((a.pdu.length : Int) < 1 ∨ (maxPduLength : Int) + 1 < a.pdu.length) := by
    simp only [maxPduLength] at hmax ⊢
    omega
  have hreq : rdSlice (a.wrapped g.front.backend trailer) (g.front.backend.headerLength - 1)
      ((a.pdu.length : Int) + 1).toNat = .ok (a.unit :: a.pdu) := by
    rw [show ((a.pdu.length : Int) + 1).toNat = a.pdu.length + 1 by omega]
    exact rdSlice_unit a _
  rw [modbusProxy, if_neg hlen]
  simp only [hn, if_neg hbounds, a.rd_wrapped_unit trailer, ok_bind]
  cases modbusSetSlave g.back a.unit.toNat with
  | error e => rfl
  | ok back =>
    simp only [hreq, getResponseTid_wrapped, ok_bind, proxyCheckReq_pdu hne]
    rfl

/-- The same for a request of `modbus_receive`, whose unit is accepted. -/
theorem modbusProxy_bytes (fos : Os σ) (bos : Os τ) (g : Gateway σ τ) {a : Adu} {back : Modbus}
    (ha : Framed .indication a.pdu) (hset : modbusSetSlave g.back a.unit.toNat = .ok back) :
    modbusProxy fos bos g (a.bytes g.front.backend) ((a.bytes g.front.backend).length : Nat) = (do
      let (rc, st) ← sendAdu bos ⟨back, g.errno, g.backOs⟩ (rtuAdu a.unit a.pdu).sealed
      let g := { g with back := back }.setBack st
      if rc = -1 then proxyFailure fos g (a.bytes g.front.backend) exceptionGatewayPath
      else
        let (rc, backendRsp, st) ← modbusReceiveMsg bos g.backSt .confirmation
        let g := g.setBack st
        if rc = -1 then
          if g.errno = .ETIMEDOUT then
            proxyFailure fos g (a.bytes g.front.backend) exceptionGatewayTarget
          else proxyFailure fos g (a.bytes g.front.backend) exceptionGatewayPath
        else
          match ← preCheckConfirmation g.back.backend
            ((rtuAdu a.unit a.pdu).wrapped g.back.backend []) backendRsp with
          | some e =>
            proxyFailure fos { g with errno := e } (a.bytes g.front.backend) exceptionGatewayTarget
          | none =>
            proxyRelay fos g backendRsp rc (a.sft g.front.backend 0).tId
              (a.bytes g.front.backend)) := by
  have hsend : modbusSendRawRequestTid bos ⟨back, g.errno, g.backOs⟩ (a.unit :: a.pdu) 0 =
      sendAdu bos ⟨back, g.errno, g.backOs⟩ (rtuAdu a.unit a.pdu).sealed :=
    (modbusSendRawRequestTid_pdu ha.ne_nil ha.2).trans
      (sendMsg_header bos ⟨back, g.errno, g.backOs⟩ (rtuAdu a.unit a.pdu))
  have hproxy := modbusProxy_wrapped fos bos g (a.checksum g.front.backend) ha.ne_nil
    (Nat.le_succ_of_le ha.2) (length_pdu_of_bytes a)
  rw [hset] at hproxy
  simp only [hsend] at hproxy
  exact hproxy

/-! ### The whole of modbus_proxy -/

section Transparent

variable {fuel : Nat} {ver : VersionString} {ctx back : Modbus} {a : Adu} {m : Mapping}
  {p : PduReply}

/-- With a server that answers at the backend link, `modbus_proxy` sends the response PDU in the
envelope of the frontend, and leaves the server with the mapping of the response. -/
theorem modbusProxy_answered (hf : 0 < fuel) (fos : Os σ) {g : Gateway σ (Peered (Run Server))}
    (ha : Framed .indication a.pdu) (hset : modbusSetSlave g.back a.unit.toNat = .ok back)
    (hc : Connected g.back) (hin : g.backOs.line.input = []) (hs : Idle ctx m g.backOs.peer)
    (hbe : ctx.backend = back.backend) (hslave : ctx.backend = .rtu → ctx.slave = back.slave)
    (hunit : a.unit.toNat ≠ 0) (hprotocol : g.front.backend = .tcp → a.protocol = 0)
    (hp : servePdu ver a.pdu m = .ok p) (hr : Framed .confirmation p.pdu) :
    ∃ os', modbusProxy fos (peerOs fuel (serverReact fuel ver)) g (a.bytes g.front.backend)
          ((a.bytes g.front.backend).length : Nat) = (do
        let (rc, st) ← sendAdu fos g.frontSt (p.adu a)
        .ok (rc, { g with back := back, backOs := os' }.setFront st)) ∧
      os'.line.input = [] ∧ Idle ctx p.mapping os'.peer := by
  have hback := modbusSetSlave_ok hset
  have hbackend : back.backend = g.back.backend := by rw [hback]
  have hbslave : back.slave = a.unit.toNat := by rw [hback]
  have hcb : Connected back := by
    rw [hback]
    exact hc
  set b := rtuAdu a.unit a.pdu with hb
  -- the request reaches the backend
  have hsend : sendAdu (peerOs fuel (serverReact fuel ver)) ⟨back, g.errno, g.backOs⟩ b.sealed =
      .ok (((b.sealed.bytes back.backend).length : Nat), ⟨back, g.errno,
        g.backOs.send (serverReact fuel ver) (b.sealed.bytes back.backend)⟩) :=
    sendAdu_peer hf ⟨back, g.errno, g.backOs⟩ b.sealed
  have hsent : ¬ (((b.sealed.bytes back.backend).length : Nat) : Int) = -1 := by omega
  -- the response comes back
  have haddr : Addressed ctx b.sealed := by
    intro h
    left
    rw [hslave h, hbslave]
    rfl
  have hrsp : Addressed back (p.adu b.sealed) := by
    intro h
    left
    rw [hbslave]
    rfl
  obtain ⟨os', hrcv, hline, hidle⟩ : ∃ os', modbusReceiveMsg (peerOs fuel (serverReact fuel ver))
      ⟨back, g.errno, g.backOs.send (serverReact fuel ver) (b.sealed.bytes back.backend)⟩
      .confirmation = .ok ((((p.adu b.sealed).bytes back.backend).length : Nat),
        (p.adu b.sealed).bytes back.backend, ⟨back, g.errno, os'⟩) ∧
      os'.line.input = [] ∧ Idle ctx p.mapping os'.peer :=
    request_answered hf (show Connected (⟨back, g.errno, g.backOs⟩ : St _).ctx from hcb) hin hs hbe
      ha haddr (suppressed_unit hunit) hp hr hrsp
  have hreceived : ¬ ((((p.adu b.sealed).bytes back.backend).length : Nat) : Int) = -1 := by omega
  have hpre : preCheckConfirmation back.backend (b.wrapped back.backend [])
      ((p.adu b.sealed).bytes back.backend) = .ok none := by
    refine preCheckConfirmation_same [] _ rfl ?_ rfl
    show (if p.echo then (0 : UInt16) else 0) = 0
    exact ite_self 0
  -- and is relayed
  have hframe : sendAdu fos g.frontSt (a.relay (p.adu b.sealed)).sealed =
      sendAdu fos g.frontSt (p.adu a) :=
    congrArg (sendLoop fos fos.fuel g.frontSt) (bytes_relay hprotocol rfl)
  have hrelay : proxyRelay fos { g with back := back, backOs := os' }
      ((p.adu b.sealed).bytes back.backend) (((p.adu b.sealed).bytes back.backend).length : Nat)
      (a.sft g.front.backend 0).tId (a.bytes g.front.backend) = (do
        let (rc, st) ← sendAdu fos g.frontSt (p.adu a)
        .ok (rc, { g with back := back, backOs := os' }.setFront st)) := by
    rw [← hframe]
    exact proxyRelay_bytes fos { g with back := back, backOs := os' } hr.ne_nil a _
  refine ⟨os', ?_, hline, hidle⟩
  rw [modbusProxy_bytes fos _ g ha hset]
  simp only [← hb, hsend, ok_bind, Gateway.backSt, Gateway.setBack, if_neg hsent, hrcv,
    if_neg hreceived, hpre, hrelay]

/-- **The gateway is transparent.**  For every request that `modbus_receive` has returned on the
frontend, with a function code below 0x80, a non-zero unit that the backend context accepts and,
from TCP, protocol id 0: `modbus_proxy` sends the very frame that `modbus_reply` would send on
the frontend, and the mapping of the server becomes the one that `modbus_reply` would leave. -/
theorem modbusProxy_transparent (hf : 0 < fuel) {g : Gateway Link (Peered (Run Server))}
    {st : St Link} {rc : Int} {req : List UInt8} {function unit : UInt8}
    (hreq : modbusReceive (linkOs fuel) st = .ok (rc, req, g.frontSt)) (hrc : 0 < rc)
    (hfun : rd req g.front.backend.headerLength = .ok function) (hlt : function.toNat < 0x80)
    (hunit : rd req (g.front.backend.headerLength - 1) = .ok unit) (hne : unit ≠ 0)
    (hset : modbusSetSlave g.back unit.toNat = .ok back)
    (hprotocol : g.front.backend = .tcp → rdWord req 2 = .ok 0) (hm : m.Addressable)
    (hc : Connected g.back) (hin : g.backOs.line.input = []) (hs : Idle ctx m g.backOs.peer)
    (hbe : ctx.backend = back.backend) (hslave : ctx.backend = .rtu → ctx.slave = back.slave) :
    ∃ frame g' m' st',
      modbusProxy (linkOs fuel) (peerOs fuel (serverReact fuel ver)) g req rc =
        .ok ((frame.length : Nat), g') ∧ g'.frontOs.output = g.frontOs.output ++ [frame] ∧
      modbusReply (linkOs fuel) ver g.frontSt req rc m = .ok ((frame.length : Nat), m', st') ∧
        st'.os.output = g.frontOs.output ++ [frame] ∧
      Idle ctx m' g'.backOs.peer := by
  -- what was received is the frame of an ADU
  obtain ⟨a, e, s', ha, hframed, hverdict, -, hst⟩ :=
    modbusReceiveMsg_is_adu (linkOs_tracked fuel) (by omega) (modbusReceive_positive hrc hreq)
  have hfront : g.front = st.ctx := congrArg St.ctx hst
  rw [← hfront] at ha hverdict
  have haddr : Addressed g.front a := by
    by_contra h
    rw [Adu.verdict_of_foreign h] at hverdict
    omega
  rw [Adu.verdict_of_addressed haddr] at hverdict
  subst ha hverdict
  have hu : unit = a.unit := by
    have h := hunit.symm.trans (a.rd_wrapped_unit _)
    exact Except.ok.inj h
  subst hu
  have hunit0 : a.unit.toNat ≠ 0 := fun h => hne (UInt8.toNat_inj.mp h)
  obtain ⟨data, hpdu⟩ : ∃ data, a.pdu = function :: data := by
    obtain ⟨b, data, hpdu⟩ := List.exists_cons_of_ne_nil hframed.ne_nil
    have h0 : rd (a.bytes g.front.backend) (g.front.backend.headerLength + 0) = rd a.pdu 0 :=
      a.rd_wrapped _ (List.length_pos_of_ne_nil hframed.ne_nil)
    rw [Nat.add_zero, hfun, hpdu] at h0
    cases h0
    exact ⟨data, hpdu⟩
  have hprotocol0 : g.front.backend = .tcp → a.protocol = 0 := by
    intro h
    have h0 := hprotocol h
    rw [h] at h0
    have hword : word (hi a.protocol.toNat) (lo a.protocol.toNat) = 0 := Except.ok.inj h0
    rw [word_hi_lo_nat a.protocol.toNat_lt] at hword
    exact UInt16.toNat_inj.mp hword
  -- the server has one answer for both ways
  obtain ⟨p, hp, hout⟩ : ∃ p, servePdu ver (function :: data) m = .ok p ∧ Outcome function m p :=
    servePdu_answers ver hm.startsSafe
  rw [← hpdu] at hp
  obtain ⟨os', hproxy, -, hidle⟩ := modbusProxy_answered hf (linkOs fuel) hframed hset hc hin hs
    hbe hslave hunit0 hprotocol0 hp (hout.framed hlt)
  obtain ⟨e, l, hl, hsend⟩ := send_link hf (linkOs_drains_output fuel g.frontOs.output)
    (show g.frontSt.os.output = g.frontOs.output from rfl) a p
  have hreply := modbusReply_wrapped (linkOs fuel) ver g.frontSt a m a.length_checksum
    hframed.ne_nil (suppressed_unit hunit0)
  rw [hp, ok_bind, hsend] at hreply
  rw [sendAdu_link hf, ok_bind] at hproxy
  refine ⟨(p.adu a).bytes g.front.backend, _, _, _, hproxy, rfl, hreply, ?_, hidle⟩
  show l.output ++ _ = _
  rw [hl]
  rfl

end Transparent

/-- From TCP to RTU: one register is read through the gateway. -/
theorem modbusProxy_transparent_sample :
    ∃ frame g' m' st',
      modbusProxy (linkOs 1) (peerOs 1 (serverReact 1 ⟨[], by decide⟩))
          ⟨(sampleSt .tcp 255 []).ctx, (sampleSt .tcp 255 []).os, (sampleSt .rtu 1 []).ctx,
            ⟨(sampleSt .rtu 1 []).os, .ok (sampleSt .rtu 17 [], sampleMapping)⟩, .sys (.other 0)⟩
          [0, 7, 0, 0, 0, 6, 17, 0x03, 0, 101, 0, 1] 12 = .ok ((frame.length : Nat), g') ∧
        g'.frontOs.output = [] ++ [frame] ∧
      modbusReply (linkOs 1) ⟨[], by decide⟩ (sampleSt .tcp 255 [])
          [0, 7, 0, 0, 0, 6, 17, 0x03, 0, 101, 0, 1] 12 sampleMapping =
          .ok ((frame.length : Nat), m', st') ∧ st'.os.output = [] ++ [frame] ∧
      Idle (sampleSt .rtu 17 []).ctx m' g'.backOs.peer := by
  have hreq : modbusReceive (linkOs 1)
      (sampleSt .tcp 255 [0, 7, 0, 0, 0, 6, 17, 0x03, 0, 101, 0, 1]) =
      .ok (12, [0, 7, 0, 0, 0, 6, 17, 0x03, 0, 101, 0, 1], sampleSt .tcp 255 []) := rfl
  exact modbusProxy_transparent
    (g := ⟨(sampleSt .tcp 255 []).ctx, (sampleSt .tcp 255 []).os, (sampleSt .rtu 1 []).ctx,
      ⟨(sampleSt .rtu 1 []).os, .ok (sampleSt .rtu 17 [], sampleMapping)⟩, .sys (.other 0)⟩)
    (by decide) hreq (by decide) rfl (show (0x03 : UInt8).toNat < 0x80 by decide) rfl
    (show (17 : UInt8) ≠ 0 by decide) rfl (fun _ => rfl)
    ⟨by decide, by decide, by decide, by decide⟩ (connected_sampleSt .rtu 1 []) rfl
    ⟨⟨_, rfl, rfl, rfl, rfl⟩, connected_sampleSt .rtu 17 [], fun _ _ => rfl⟩ rfl fun _ => rfl

end Libmodbus
