/-
Libmodbus/Gateways.lean

A gateway in front of a service is a service.

    frontend line ──▶ modbus_receive ; modbus_proxy ──▶ backend line ──▶ svc

The reaction is that of the service behind the gateway, with two differences
that a client can see (`gatewayService`): a unit that the backend context does
not take is refused with GATEWAY_PATH, and silence becomes GATEWAY_TARGET.  So
behind a gateway a broadcast is carried out and then reported as a failure.

`gateway_provides` is the combinator: it asks of the far side only that it serves
something, and so it can be used again on its own result.
-/
import Libmodbus.Sessions
import Libmodbus.Gateway

namespace Libmodbus

open CSem Wire Posix

variable {σ τ δ : Type} {be : Backend}

/-! ### The gateway as a program -/

/-- `modbus_receive` on the frontend until it gives a request, and `modbus_proxy`; an error ends
the frontend connection.  As long as bytes are waiting: otherwise the gateway sits in
`modbus_receive`. -/
def gatewayLoop (fuel : Nat) (bos : Os σ) : Nat → Gateway Link σ → Run (Gateway Link σ)
  | 0, _ => .error .outOfFuel
  | n + 1, g =>
    if g.frontOs.input = [] then .ok g
    else do
      let (rc, query, st) ← modbusReceive (linkOs fuel) g.frontSt
      let g := g.setFront st
      if rc < 0 then .ok (g.setFront (modbusClose (linkOs fuel) g.frontSt))
      else if rc = 0 then gatewayLoop fuel bos n g
      else
        let (_, g) ← modbusProxy (linkOs fuel) bos g query rc
        gatewayLoop fuel bos n g

/-- The gateway gets some bytes on the frontend, and hands over what it has written there. -/
def gatewayStep (fuel : Nat) (bos : Os σ) (bytes : List UInt8) (g : Gateway Link σ) :
    Run (List UInt8 × Gateway Link σ) := do
  let input := g.frontOs.input ++ bytes
  let g ← gatewayLoop fuel bos (input.length + 1)
    { g with frontOs := { g.frontOs with input := input } }
  .ok (g.frontOs.output.flatten, { g with frontOs := { g.frontOs with output := [] } })

/-- The answer of a gateway that may have stopped, with a peer on its backend line. -/
def gatewayReact (fuel : Nat) (react : List UInt8 → δ → List UInt8 × δ) (bytes : List UInt8)
    (s : Run (Gateway Link (Peered δ))) : List UInt8 × Run (Gateway Link (Peered δ)) :=
  match s >>= gatewayStep fuel (peerOs fuel react) bytes with
  | .ok (answer, g) => (answer, .ok g)
  | .error e => ([], .error e)

/-! ### What it makes of a service -/

/-- The reaction that comes back through a gateway. -/
def Reaction.relayed {r : Request} : Reaction r → Reaction r
  | silence => .exception ⟨exceptionGatewayTarget, by decide⟩
  | x => x

theorem Reaction.relayed_some {r : Request} {x : Reaction r} {pdu : List UInt8}
    (h : x.pdu = some pdu) : x.relayed = x := by
  cases x with
  | silence => cases h
  | _ => rfl

theorem Reaction.relayed_none {r : Request} {x : Reaction r} (h : x.pdu = none) :
    x.relayed = .exception ⟨exceptionGatewayTarget, by decide⟩ := by
  cases x with
  | silence => rfl
  | _ => cases h

/-- The service in front of a gateway with the backend context `back`. -/
def gatewayService (back : Modbus) (svc : Service τ) : Service τ := fun unit r t =>
  if back.Takes unit.toNat then ((svc unit r t).1.relayed, (svc unit r t).2)
  else (.exception ⟨exceptionGatewayPath, by decide⟩, t)

/-- What is in a gateway between two requests: nothing on the lines, and the slave number of the
last request in the backend context. -/
structure Relaying (front back : Modbus) (R : τ → δ → Prop) (t : τ) (g : Gateway Link (Peered δ)) :
    Prop where
  front : g.front = front
  back : ∃ slave, g.back = { back with slave := slave }
  input : g.frontOs.input = []
  output : g.frontOs.output = []
  line : g.backOs.line.input = []
  peer : R t g.backOs.peer

/-- A gateway that stands for what stands behind it. -/
def RelaysFor (front back : Modbus) (R : τ → δ → Prop) (t : τ)
    (s : Run (Gateway Link (Peered δ))) : Prop :=
  ∃ g, s = .ok g ∧ Relaying front back R t g

/-! ### One request -/

section Passed

variable {fuel : Nat} {react : List UInt8 → δ → List UInt8 × δ} {svc : Service τ}
  {units : UInt8 → Prop} {R : τ → δ → Prop} {t : τ} {r : Request} {tId : UInt16} {unit : UInt8}

/-- One frame is written on the frontend, and the backend is in a state with `P`. -/
structure Passed (g : Gateway Link (Peered δ)) (frame : List UInt8) (P : Peered δ → Prop)
    (g' : Gateway Link (Peered δ)) : Prop where
  front : g'.front = g.front
  frontOs : g'.frontOs = { g.frontOs with output := g.frontOs.output ++ [frame] }
  back : ∃ slave, g'.back = { g.back with slave := slave }
  backOs : P g'.backOs

theorem rd_function_freshAdu (be : Backend) (tId : UInt16) (unit : UInt8) (r : Request) :
    rd ((freshAdu tId unit r.pdu).bytes be) be.headerLength = .ok r.function :=
  Adu.rd_bytes (i := 0) rfl

/-- The exception of a proxy failure is that of the request's envelope. -/
theorem proxyFailure_freshAdu (hf : 0 < fuel) (g : Gateway Link σ) {code : Nat}
    (hcode : code < exceptionMax) :
    proxyFailure (linkOs fuel) g ((freshAdu tId unit r.pdu).bytes g.front.backend) code =
      .ok (-1, { g with frontOs := { g.frontOs with
        output := g.frontOs.output ++ [(freshAdu tId unit
          [lo (r.function.toNat + 0x80 : Nat), lo code]).bytes g.front.backend] } }) := by
  set a := freshAdu tId unit r.pdu with ha
  have hbuild : buildReplyException g.front.backend (a.bytes g.front.backend) code = _ :=
    buildReplyException_wrapped a (a.checksum g.front.backend) sampleMapping
      (rd_function_freshAdu g.front.backend tId unit r) hcode
  have hreply : modbusReplyException (linkOs fuel) g.frontSt (a.bytes g.front.backend) code =
      sendAdu (linkOs fuel) g.frontSt
        (freshAdu tId unit [lo (r.function.toNat + 0x80 : Nat), lo code]) := by
    show (buildReplyException g.front.backend (a.bytes g.front.backend) code >>= _) = _
    rw [hbuild, ok_bind]
    exact (sendMsg_wrap (linkOs fuel) g.frontSt a _).trans
      (congrArg (sendAdu (linkOs fuel) g.frontSt) (adu_freshAdu tId unit r.pdu _))
  rw [proxyFailure, hreply, sendAdu_link hf]
  rfl

/-- The PDU of a frame under the id of the request. -/
theorem relay_freshAdu (tId : UInt16) (unit : UInt8) (q pdu : List UInt8) :
    ((freshAdu tId unit q).relay (freshAdu 0 unit pdu)).sealed = freshAdu tId unit pdu := rfl

/-- **One request through the gateway.**  The frame that is written on the frontend is the reaction
of the service in front of it, which is never silent. -/
theorem modbusProxy_provides (hf : 0 < fuel) {g : Gateway Link (Peered δ)} (tId : UInt16)
    (hs : Provides g.back.backend react svc units R) (hc : Connected g.back)
    (hline : g.backOs.line.input = []) (hR : R t g.backOs.peer) (hr : r.Valid)
    (hunit : g.back.Takes unit.toNat → units unit) :
    ∃ rc g', modbusProxy (linkOs fuel) (peerOs fuel react) g
        ((freshAdu tId unit r.pdu).bytes g.front.backend)
        (((freshAdu tId unit r.pdu).bytes g.front.backend).length : Nat) = .ok (rc, g') ∧
      Passed g ((gatewayService g.back svc unit r t).1.bytes g.front.backend tId unit)
        (fun os => os.line.input = [] ∧ R (gatewayService g.back svc unit r t).2 os.peer) g' := by
  set a := freshAdu tId unit r.pdu with ha
  have hframed : Framed .indication a.pdu := Request.framed hr
  by_cases htakes : g.back.Takes unit.toNat
  · -- the request goes out on the backend
    set back : Modbus := { g.back with slave := unit.toNat } with hback
    have hset : modbusSetSlave g.back a.unit.toNat = .ok back := by
      rw [modbusSetSlave_eq]
      exact if_pos htakes
    have hsvc : gatewayService g.back svc unit r t =
        ((svc unit r t).1.relayed, (svc unit r t).2) := if_pos htakes
    obtain ⟨s', hreact, hR'⟩ := hs 0 hR (hunit htakes) hr
    set frame := (freshAdu 0 unit r.pdu).bytes back.backend with hframe
    have hsend : sendAdu (peerOs fuel react) ⟨back, g.errno, g.backOs⟩ (rtuAdu a.unit a.pdu).sealed =
        .ok ((frame.length : Nat), ⟨back, g.errno, g.backOs.send react frame⟩) :=
      sendAdu_peer hf ⟨back, g.errno, g.backOs⟩ (freshAdu 0 unit r.pdu)
    have hsent : ¬ ((frame.length : Nat) : Int) = -1 := by omega
    have hcb : Connected (⟨back, g.errno, g.backOs⟩ : St (Peered δ)).ctx := hc
    rw [modbusProxy_bytes (linkOs fuel) _ g hframed hset, hsvc]
    simp only [hsend, ok_bind, Gateway.backSt, Gateway.setBack, if_neg hsent]
    cases hpdu : (svc unit r t).1.pdu with
    | none =>
      have hbytes : react frame g.backOs.peer = ([], s') := by
        rw [hreact, Reaction.bytes_none hpdu]
      obtain ⟨os', hrcv, hline', rfl⟩ : ∃ os', modbusReceiveMsg (peerOs fuel react)
          ⟨back, g.errno, g.backOs.send react frame⟩ .confirmation =
            .ok (-1, [], ⟨back, .ETIMEDOUT, os'⟩) ∧ os'.line.input = [] ∧ os'.peer = s' :=
        receive_silence hf hcb hline hbytes
      have hfailure : proxyFailure (linkOs fuel) ⟨g.front, g.frontOs, back, os', .ETIMEDOUT⟩
          (a.bytes g.front.backend) exceptionGatewayTarget = .ok _ :=
        proxyFailure_freshAdu hf ⟨g.front, g.frontOs, back, os', .ETIMEDOUT⟩ (by decide)
      simp only [hrcv, ok_bind, if_true, hfailure]
      refine ⟨_, _, rfl, rfl, ?_, ⟨_, rfl⟩, hline', hR'⟩
      rw [Reaction.relayed_none hpdu]
      rfl
    | some pdu =>
      set answer := freshAdu 0 unit pdu with hanswer
      have hbytes : react frame g.backOs.peer = (answer.bytes back.backend, s') := by
        rw [hreact, Reaction.bytes_some hpdu]
      have hpduFramed : Framed .confirmation answer.pdu := Reaction.framed hr hpdu
      have hrsp : Addressed back answer := fun _ => Or.inl rfl
      obtain ⟨os', hrcv, hline', rfl⟩ : ∃ os', modbusReceiveMsg (peerOs fuel react)
          ⟨back, g.errno, g.backOs.send react frame⟩ .confirmation =
            .ok (((answer.bytes back.backend).length : Nat), answer.bytes back.backend,
              ⟨back, g.errno, os'⟩) ∧ os'.line.input = [] ∧ os'.peer = s' :=
        receive_reply hf hcb hline hbytes hpduFramed hrsp
      have hreceived : ¬ (((answer.bytes back.backend).length : Nat) : Int) = -1 := by omega
      have hpre : preCheckConfirmation back.backend
          ((rtuAdu a.unit a.pdu).wrapped back.backend []) (answer.bytes back.backend) = .ok none :=
        preCheckConfirmation_same [] _ rfl rfl rfl
      -- the same PDU goes out on the frontend
      have hrelay := proxyRelay_bytes (linkOs fuel) ⟨g.front, g.frontOs, back, os', g.errno⟩
        hpduFramed.ne_nil a (a.bytes g.front.backend)
      rw [relay_freshAdu, sendAdu_link hf, ok_bind] at hrelay
      simp only [hrcv, ok_bind, if_neg hreceived, hpre]
      refine ⟨_, _, hrelay, rfl, ?_, ⟨_, rfl⟩, hline', hR'⟩
      rw [Reaction.relayed_some hpdu, Reaction.bytes_some hpdu]
      rfl
  · -- a refused unit does not get that far
    have hset : modbusSetSlave g.back a.unit.toNat = .error .EINVAL := by
      rw [modbusSetSlave_eq]
      exact if_neg htakes
    have hsvc : gatewayService g.back svc unit r t =
        (.exception ⟨exceptionGatewayPath, by decide⟩, t) := if_neg htakes
    have hproxy := modbusProxy_wrapped (linkOs fuel) (peerOs fuel react) g
      (a.checksum g.front.backend) hframed.ne_nil (Nat.le_succ_of_le hframed.2)
      (length_pdu_of_bytes a)
    rw [hset] at hproxy
    have hfailure : proxyFailure (linkOs fuel) { g with errno := .EINVAL } (a.bytes g.front.backend)
        exceptionGatewayPath = .ok _ :=
      proxyFailure_freshAdu hf { g with errno := .EINVAL } (by decide)
    rw [hsvc]
    exact ⟨_, _, hproxy.trans hfailure, rfl, rfl, ⟨_, rfl⟩, hline, hR⟩

/-- Two turns of the gateway: the frame is taken and answered, and nothing is left. -/
theorem gatewayLoop_provides (hf : 0 < fuel) {g : Gateway Link (Peered δ)} (tId : UInt16)
    (hs : Provides g.back.backend react svc units R) (hfc : Connected g.front)
    (hfl : Listening g.front .indication) (hc : Connected g.back)
    (hline : g.backOs.line.input = []) (hR : R t g.backOs.peer) (hr : r.Valid)
    (haddr : Addressed g.front (freshAdu tId unit r.pdu))
    (hunit : g.back.Takes unit.toNat → units unit)
    (hin : g.frontOs.input = (freshAdu tId unit r.pdu).bytes g.front.backend) (n : Nat) :
    ∃ l g', gatewayLoop fuel (peerOs fuel react) (n + 2) g = .ok g' ∧ l.input = [] ∧
      l.output = g.frontOs.output ∧
      Passed { g with frontOs := l }
        ((gatewayService g.back svc unit r t).1.bytes g.front.backend tId unit)
        (fun os => os.line.input = [] ∧ R (gatewayService g.back svc unit r t).2 os.peer) g' := by
  set a := freshAdu tId unit r.pdu with ha
  have hframed : Framed .indication a.pdu := Request.framed hr
  have hpos : 0 < (a.bytes g.front.backend).length := by
    have := List.length_pos_of_ne_nil hframed.ne_nil
    rw [Adu.length_bytes]
    omega
  have hne : g.frontOs.input ≠ [] := by
    rw [hin]
    exact List.ne_nil_of_length_pos hpos
  obtain ⟨l, hrcv, ht, hto⟩ := receiveStep_adu (linkOs_source fuel) hf
    (show Connected g.frontSt.ctx from hfc) hfl hframed haddr (hin.trans (List.append_nil _).symm)
  obtain ⟨⟨rc, query, st⟩, hrcv, he⟩ := bind_eq_ok.mp hrcv
  cases he
  have hlin : l.input = [] := by
    rw [show g.frontSt.os.input = g.frontOs.input from rfl, hin] at ht
    exact List.append_cancel_left (ht.symm.trans (List.append_nil _).symm)
  obtain ⟨rc, g', hproxy, hpassed⟩ := modbusProxy_provides (g := { g with frontOs := l }) hf tId hs hc
    hline hR hr hunit
  have hrcv' : modbusReceive (linkOs fuel) g.frontSt = .ok (((a.bytes g.front.backend).length : Nat),
      a.bytes g.front.backend, { g.frontSt with os := l }) := hrcv
  have hlen : ¬ (((a.bytes g.front.backend).length : Nat) : Int) < 0 := by omega
  have hlen0 : ¬ (((a.bytes g.front.backend).length : Nat) : Int) = 0 := by omega
  have hproxy' : modbusProxy (linkOs fuel) (peerOs fuel react)
      (g.setFront { g.frontSt with os := l }) (a.bytes g.front.backend)
      ((a.bytes g.front.backend).length : Nat) = .ok (rc, g') := hproxy
  have hg' : g'.frontOs.input = [] := by
    rw [hpassed.frontOs]
    exact hlin
  refine ⟨l, g', ?_, hlin, hto, hpassed⟩
  simp only [gatewayLoop, if_neg hne, hrcv', ok_bind, if_neg hlen, if_neg hlen0, hproxy', hg',
    if_true]

end Passed

/-- The units that a gateway forwards: on an RTU frontend its own and broadcasts, and those that
stand behind it. -/
def ForwardedUnits (front back : Modbus) (units : UInt8 → Prop) (unit : UInt8) : Prop :=
  (front.backend = .rtu → (unit.toNat : Int) = front.slave ∨ unit.toNat = broadcastAddress) ∧
    (back.Takes unit.toNat → units unit)

/-- **A gateway in front of a service is a service.** -/
theorem gateway_provides {fuel : Nat} (hf : 0 < fuel) {react : List UInt8 → δ → List UInt8 × δ}
    {svc : Service τ} {units : UInt8 → Prop} {R : τ → δ → Prop} {front back : Modbus}
    (hs : Provides back.backend react svc units R) (hfc : Connected front)
    (hfl : Listening front .indication) (hbc : Connected back) :
    Provides front.backend (gatewayReact fuel react) (gatewayService back svc)
      (ForwardedUnits front back units) (RelaysFor front back R) := by
  rintro t s unit r tId ⟨g, rfl, hfront, ⟨slave, hback⟩, hin, hout, hline, hR⟩ ⟨haddr, hunit⟩ hr
  subst hfront
  set frame := (freshAdu tId unit r.pdu).bytes g.front.backend with hframe
  -- the slave number that the backend context still has does not matter
  have htakes : ∀ n, g.back.Takes n ↔ back.Takes n := by
    intro n
    rw [hback]
    rfl
  have hsvc : gatewayService g.back svc unit r t = gatewayService back svc unit r t := by
    simp only [gatewayService, htakes]
  set g₁ : Gateway Link (Peered δ) :=
    { g with frontOs := { g.frontOs with input := g.frontOs.input ++ frame } } with hg₁
  have hin₁ : g₁.frontOs.input = frame := by
    show g.frontOs.input ++ frame = frame
    rw [hin, List.nil_append]
  have hpos : 0 < r.pdu.length := List.length_pos_of_ne_nil (Request.framed hr).ne_nil
  obtain ⟨n, hn⟩ : ∃ n, (g.frontOs.input ++ frame).length + 1 = n + 2 := by
    refine ⟨(g.frontOs.input ++ frame).length - 1, ?_⟩
    have hlen : frame.length = g.front.backend.headerLength + r.pdu.length +
        g.front.backend.checksumLength := (freshAdu tId unit r.pdu).length_bytes
    rw [hin, List.nil_append]
    omega
  have hs₁ : Provides g₁.back.backend react svc units R := by
    rw [show g₁.back.backend = back.backend by rw [hg₁, hback]]
    exact hs
  have hbc₁ : Connected g₁.back := by
    rw [hg₁, hback]
    exact hbc
  obtain ⟨l, g', hloop, hl, hlo, hpassed⟩ := gatewayLoop_provides hf tId hs₁
    (show Connected g₁.front from hfc) hfl hbc₁ hline hR hr haddr
    (fun h => hunit ((htakes _).mp h)) hin₁ n
  rw [show g₁.back = g.back from rfl, hsvc] at hpassed
  obtain ⟨slave', hback'⟩ := hpassed.back
  refine ⟨.ok { g' with frontOs := { g'.frontOs with output := [] } }, ?_, _, rfl, ?_⟩
  · have hstep : gatewayStep fuel (peerOs fuel react) frame g = .ok (g'.frontOs.output.flatten,
        { g' with frontOs := { g'.frontOs with output := [] } }) := by
      show (gatewayLoop fuel (peerOs fuel react) _ g₁ >>= _) = _
      rw [hn, hloop]
      rfl
    have houtput : g'.frontOs.output.flatten =
        (gatewayService back svc unit r t).1.bytes g.front.backend tId unit := by
      rw [hpassed.frontOs]
      show (l.output ++ _).flatten = _
      rw [hlo, show g₁.frontOs.output = [] from hout, List.nil_append, List.flatten_cons,
        List.flatten_nil, List.append_nil]
    simp only [gatewayReact, ok_bind, hstep, houtput]
  · refine ⟨hpassed.front, ⟨slave', ?_⟩, ?_, rfl, hpassed.backOs.1, hpassed.backOs.2⟩
    · show g'.back = _
      rw [hback']
      show { g.back with slave := slave' } = _
      rw [hback]
    · show g'.frontOs.input = []
      rw [hpassed.frontOs]
      exact hl

end Libmodbus
