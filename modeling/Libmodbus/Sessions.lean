/-
Libmodbus/Sessions.lean

A client that works with several units.

    session  =  (modbus_set_slave ; call)*

Every call is one exchange and what is done with its outcome (`Call.run_eq`),
whatever the system.  With a service at the other end the outcome of an exchange
is the reaction to its request (`exchange_provides`), so a session returns what
it returns on the service (`service_refinement`), and the line is empty again
after every call.
-/
import Libmodbus.Services

namespace Libmodbus

open CSem Wire Posix

variable {σ τ δ : Type} {be : Backend}

/-! ### A call is an exchange -/

namespace Call

/-- What a call does with the outcome of its exchange. -/
def finish (c : Call) (x : Int × List UInt8 × St σ) : Run (Returned × St σ) :=
  if x.1 = -1 then .ok (⟨-1, some x.2.2.errno, c.bits, c.registers⟩, x.2.2)
  else match c with
  | readBits _ nb dest => do
    let dest ← Libmodbus.readBitsLoop x.2.1 nb (x.2.2.ctx.backend.headerLength + 2) x.1.toNat 0 dest
    .ok (⟨nb, none, dest, []⟩, x.2.2)
  | readInputBits _ nb dest => do
    let dest ← Libmodbus.readBitsLoop x.2.1 nb (x.2.2.ctx.backend.headerLength + 2) x.1.toNat 0 dest
    .ok (⟨nb, none, dest, []⟩, x.2.2)
  | readRegisters _ _ dest => do
    let dest ← storeRegisters x.2.1 x.2.2.ctx.backend.headerLength 0 x.1.toNat dest
    .ok (⟨x.1, none, [], dest⟩, x.2.2)
  | readInputRegisters _ _ dest => do
    let dest ← storeRegisters x.2.1 x.2.2.ctx.backend.headerLength 0 x.1.toNat dest
    .ok (⟨x.1, none, [], dest⟩, x.2.2)
  | writeAndReadRegisters _ _ _ _ _ dest => do
    let dest ← storeRegisters x.2.1 x.2.2.ctx.backend.headerLength 0 x.1.toNat dest
    .ok (⟨x.1, none, [], dest⟩, x.2.2)
  | _ => .ok (⟨x.1, none, [], []⟩, x.2.2)

end Call

section Factored

variable {os : Os σ} {st : St σ}

/-- Reading bits, up to the return value that the caller sees. -/
theorem readBits_eq {function : UInt8} {addr nb : Nat} {pdu dest : List UInt8}
    (hnb : 1 ≤ nb ∧ nb ≤ maxReadBits) (hslave : st.ctx.backend = .rtu → st.ctx.slave ≠ -1)
    (hpdu : pdu = [function, hi addr, lo addr, hi nb, lo nb]) :
    readBits os st function.toNat addr nb dest =
      exchange os { st with ctx := st.ctx.next }
          ((requestAdu st.ctx pdu).header st.ctx.backend ++ pdu) >>= fun x =>
        if x.1 = -1 then .ok (-1, dest, x.2.2)
        else readBitsLoop x.2.1 nb (x.2.2.ctx.backend.headerLength + 2) x.1.toNat 0 dest >>=
          fun dest => .ok ((nb : Int), dest, x.2.2) := by
  have hlimit : ¬ ((nb : Int) < 1 ∨ (maxReadBits : Int) < nb) := by
    have := hnb.2
    simp only [maxReadBits] at this ⊢
    omega
  have hbuild := buildRequestBasis_adu hslave function.toNat addr nb pdu
  rw [lo_toNat, ← hpdu] at hbuild
  simp only [readBits, if_neg hlimit, readIoStatus, hbuild, ok_bind, bind_assoc,
    Int.toNat_natCast]
  refine congrArg _ (funext fun x => ?_)
  by_cases hfail : x.1 = -1
  · rw [if_pos hfail, if_pos hfail]
    rfl
  · rw [if_neg hfail, if_neg hfail]
    simp only [bind_assoc, ok_bind, if_neg hfail]

/-- Reading registers. -/
theorem readAnyRegisters_eq {function : UInt8} {addr nb : Nat} {pdu : List UInt8}
    {dest : List UInt16} (hnb : 1 ≤ nb ∧ nb ≤ maxReadRegisters)
    (hslave : st.ctx.backend = .rtu → st.ctx.slave ≠ -1)
    (hpdu : pdu = [function, hi addr, lo addr, hi nb, lo nb]) :
    readAnyRegisters os st function.toNat addr nb dest =
      exchange os { st with ctx := st.ctx.next }
          ((requestAdu st.ctx pdu).header st.ctx.backend ++ pdu) >>= fun x =>
        if x.1 = -1 then .ok (-1, dest, x.2.2)
        else storeRegisters x.2.1 x.2.2.ctx.backend.headerLength 0 x.1.toNat dest >>=
          fun dest => .ok (x.1, dest, x.2.2) := by
  have hmax : ¬ (maxReadRegisters : Int) < nb := by
    have := hnb.2
    omega
  have hlimit : ¬ ((nb : Int) < 1 ∨ (maxReadRegisters : Int) < nb) := by omega
  have hbuild := buildRequestBasis_adu hslave function.toNat addr nb pdu
  rw [lo_toNat, ← hpdu] at hbuild
  simp only [readAnyRegisters, if_neg hlimit, readRegistersCall, if_neg hmax, hbuild, ok_bind]

/-- Writing one coil or register. -/
theorem writeSingle_eq {function : UInt8} {addr : Nat} {value : UInt16} {pdu : List UInt8}
    (hslave : st.ctx.backend = .rtu → st.ctx.slave ≠ -1)
    (hpdu : pdu = [function, hi addr, lo addr, hi value.toNat, lo value.toNat]) :
    writeSingle os st function.toNat addr value =
      exchange os { st with ctx := st.ctx.next }
          ((requestAdu st.ctx pdu).header st.ctx.backend ++ pdu) >>= fun x =>
        .ok (x.1, x.2.2) := by
  have hbuild := buildRequestBasis_adu hslave function.toNat addr value.toNat pdu
  rw [lo_toNat, ← hpdu] at hbuild
  simp only [writeSingle, hbuild, ok_bind]

namespace Call

/-- The end of a call that fills bits. -/
theorem finish_bits {nb : Nat} {dest : List UInt8} (x : Int × List UInt8 × St σ) :
    ((if x.1 = -1 then .ok (-1, dest, x.2.2)
        else Libmodbus.readBitsLoop x.2.1 nb (x.2.2.ctx.backend.headerLength + 2) x.1.toNat 0 dest >>=
          fun dest => .ok ((nb : Int), dest, x.2.2) : Run (Int × List UInt8 × St σ)) >>= fun y =>
      (.ok (⟨y.1, errnoOf y.1 y.2.2.errno, y.2.1, []⟩, y.2.2) : Run (Returned × St σ))) =
    if x.1 = -1 then .ok (⟨-1, some x.2.2.errno, dest, []⟩, x.2.2)
    else Libmodbus.readBitsLoop x.2.1 nb (x.2.2.ctx.backend.headerLength + 2) x.1.toNat 0 dest >>=
      fun dest => .ok (⟨nb, none, dest, []⟩, x.2.2) := by
  by_cases hfail : x.1 = -1
  · rw [if_pos hfail, if_pos hfail]
    rfl
  · rw [if_neg hfail, if_neg hfail]
    simp only [bind_assoc, ok_bind, errnoOf_count]

/-- The end of a call that fills registers. -/
theorem finish_registers {dest : List UInt16} (x : Int × List UInt8 × St σ) :
    ((if x.1 = -1 then .ok (-1, dest, x.2.2)
        else storeRegisters x.2.1 x.2.2.ctx.backend.headerLength 0 x.1.toNat dest >>=
          fun dest => .ok (x.1, dest, x.2.2) : Run (Int × List UInt16 × St σ)) >>= fun y =>
      (.ok (⟨y.1, errnoOf y.1 y.2.2.errno, [], y.2.1⟩, y.2.2) : Run (Returned × St σ))) =
    if x.1 = -1 then .ok (⟨-1, some x.2.2.errno, [], dest⟩, x.2.2)
    else storeRegisters x.2.1 x.2.2.ctx.backend.headerLength 0 x.1.toNat dest >>=
      fun dest => .ok (⟨x.1, none, [], dest⟩, x.2.2) := by
  by_cases hfail : x.1 = -1
  · rw [if_pos hfail, if_pos hfail]
    rfl
  · rw [if_neg hfail, if_neg hfail]
    simp only [bind_assoc, ok_bind, errnoOf, if_neg hfail]

/-- The end of a call that fills nothing. -/
theorem finish_plain (x : Int × List UInt8 × St σ) :
    (.ok (⟨x.1, errnoOf x.1 x.2.2.errno, [], []⟩, x.2.2) : Run (Returned × St σ)) =
      if x.1 = -1 then .ok (⟨-1, some x.2.2.errno, [], []⟩, x.2.2)
      else .ok (⟨x.1, none, [], []⟩, x.2.2) := by
  by_cases hfail : x.1 = -1
  · rw [if_pos hfail, hfail]
    rfl
  · rw [if_neg hfail, errnoOf, if_neg hfail]

/-- **Every call is one exchange**, of the frame of its request. -/
theorem run_eq {c : Call} (hc : c.Valid) (hslave : st.ctx.backend = .rtu → st.ctx.slave ≠ -1) :
    c.run os st = exchange os { st with ctx := st.ctx.next }
      ((requestAdu st.ctx c.request.pdu).header st.ctx.backend ++ c.request.pdu) >>= c.finish := by
  cases c with
  | readBits addr nb dest =>
    show (Libmodbus.readBits os st (0x01 : UInt8).toNat addr nb dest >>= fun y => _) = _
    rw [readBits_eq hc.2.1 hslave rfl, bind_assoc]
    exact congrArg _ (funext fun x => finish_bits x)
  | readInputBits addr nb dest =>
    show (Libmodbus.readBits os st (0x02 : UInt8).toNat addr nb dest >>= fun y => _) = _
    rw [readBits_eq hc.2.1 hslave rfl, bind_assoc]
    exact congrArg _ (funext fun x => finish_bits x)
  | readRegisters addr nb dest =>
    show (readAnyRegisters os st (0x03 : UInt8).toNat addr nb dest >>= fun y => _) = _
    rw [readAnyRegisters_eq hc.2.1 hslave rfl, bind_assoc]
    exact congrArg _ (funext fun x => finish_registers x)
  | readInputRegisters addr nb dest =>
    show (readAnyRegisters os st (0x04 : UInt8).toNat addr nb dest >>= fun y => _) = _
    rw [readAnyRegisters_eq hc.2.1 hslave rfl, bind_assoc]
    exact congrArg _ (funext fun x => finish_registers x)
  | writeBit addr status =>
    -- any value but 0 is sent as 0xFF00
    have hpdu : (Request.writeBit addr (decide (status ≠ 0))).pdu =
        [0x05, hi addr, lo addr, hi (if status ≠ 0 then (0xFF00 : UInt16) else 0).toNat,
          lo (if status ≠ 0 then (0xFF00 : UInt16) else 0).toNat] := by
      by_cases h : status ≠ 0
      · rw [decide_eq_true h, if_pos h]
        rfl
      · rw [decide_eq_false h, if_neg h]
        rfl
    show (writeSingle os st (0x05 : UInt8).toNat addr _ >>= fun y => _) = _
    rw [writeSingle_eq hslave hpdu, bind_assoc]
    exact congrArg _ (funext fun x => finish_plain x)
  | writeRegister addr value =>
    show (writeSingle os st (0x06 : UInt8).toNat addr value >>= fun y => _) = _
    rw [writeSingle_eq hslave rfl, bind_assoc]
    exact congrArg _ (funext fun x => finish_plain x)
  -- of the source only the first `nb` values are read
  | writeBits addr nb src =>
    obtain ⟨-, ⟨hmin, hmax⟩, hsrc⟩ := hc
    have hlimit : ¬ ((nb : Int) < 1 ∨ (maxWriteBits : Int) < nb) := by omega
    have hlen : (src.take nb).length = nb := by
      rw [List.length_take, Nat.min_eq_left hsrc]
    have hbuild := buildRequestBasis_adu hslave fcWriteMultipleCoils addr nb
      (Request.writeBits addr ((src.take nb).map bitOf)).pdu
    have hcount : nb / 8 + (if nb % 8 ≠ 0 then 1 else 0) = (nb + 7) / 8 := by
      split_ifs <;> omega
    have hbytes : packBytesLoop src nb ((nb + 7) / 8) 0 = .ok (packBits ((src.take nb).map bitOf)) :=
      packBytesLoop_packBits (by rw [hlen]) (by rw [hlen, Nat.zero_add])
        (List.take_append_drop nb src).symm
    have hpdu : (Request.writeBits addr ((src.take nb).map bitOf)).pdu =
        [lo fcWriteMultipleCoils, hi addr, lo addr, hi nb, lo nb] ++
          lo ((nb + 7) / 8 : Nat) :: packBits ((src.take nb).map bitOf) := by
      simp only [Request.pdu, Request.data, List.length_map, length_packBits, hlen]
      rfl
    simp only [run, modbusWriteBits, if_neg hlimit, hbuild, ok_bind, bind_assoc,
      Int.toNat_natCast, hcount, hbytes, List.append_assoc, ← hpdu]
    exact congrArg _ (funext fun x => finish_plain x)
  | writeRegisters addr nb src =>
    obtain ⟨-, ⟨hmin, hmax⟩, hsrc⟩ := hc
    have hlimit : ¬ ((nb : Int) < 1 ∨ (maxWriteRegisters : Int) < nb) := by omega
    have hlen : (src.take nb).length = nb := by
      rw [List.length_take, Nat.min_eq_left hsrc]
    have hbuild := buildRequestBasis_adu hslave fcWriteMultipleRegisters addr nb
      (Request.writeRegisters addr (src.take nb)).pdu
    have hpdu : (Request.writeRegisters addr (src.take nb)).pdu =
        [lo fcWriteMultipleRegisters, hi addr, lo addr, hi nb, lo nb] ++
          lo ((nb : Int) * 2) :: bigEndian (src.take nb) := by
      have htwice : (nb : Int) * 2 = ((2 * nb : Nat) : Int) := by omega
      simp only [Request.pdu, Request.data, length_bigEndian, hlen, htwice]
      rfl
    simp only [run, modbusWriteRegisters, if_neg hlimit, hbuild, ok_bind, bind_assoc,
      Int.toNat_natCast, putRegisters_taken hsrc, List.append_assoc, ← hpdu]
    exact congrArg _ (funext fun x => finish_plain x)
  | maskWriteRegister addr andMask orMask =>
    have hbuild := buildRequestBasis_adu hslave fcMaskWriteRegister addr 0
      (Request.maskWrite addr andMask orMask).pdu
    simp only [run, modbusMaskWriteRegister, hbuild, ok_bind, bind_assoc, take_basis,
      List.append_assoc]
    exact congrArg _ (funext fun x => finish_plain x)
  | writeAndReadRegisters writeAddr writeNb src readAddr readNb dest =>
    obtain ⟨⟨-, ⟨hwmin, hwmax⟩, hsrc⟩, -, ⟨hrmin, hrmax⟩, hdest⟩ := hc
    have hpositive : ¬ ((writeNb : Int) < 1 ∨ (readNb : Int) < 1) := by omega
    have hwlimit : ¬ (maxWrWriteRegisters : Int) < writeNb := by omega
    have hrlimit : ¬ (maxWrReadRegisters : Int) < readNb := by omega
    have hlen : (src.take writeNb).length = writeNb := by
      rw [List.length_take, Nat.min_eq_left hsrc]
    have hbuild := buildRequestBasis_adu hslave fcWriteAndReadRegisters readAddr readNb
      (Request.writeAndRead readAddr readNb writeAddr (src.take writeNb)).pdu
    have hpdu : (Request.writeAndRead readAddr readNb writeAddr (src.take writeNb)).pdu =
        [lo fcWriteAndReadRegisters, hi readAddr, lo readAddr, hi readNb, lo readNb] ++
          ([hi writeAddr, lo writeAddr, hi writeNb, lo writeNb, lo ((writeNb : Int) * 2)] ++
            bigEndian (src.take writeNb)) := by
      have htwice : (writeNb : Int) * 2 = ((2 * writeNb : Nat) : Int) := by omega
      simp only [Request.pdu, Request.data, length_bigEndian, hlen, htwice]
      rfl
    simp only [run, modbusWriteAndReadRegisters, if_neg hpositive, if_neg hwlimit,
      if_neg hrlimit, hbuild, ok_bind, Int.toNat_natCast, putRegisters_taken hsrc,
      List.append_assoc, ← hpdu]
    rw [bind_assoc]
    exact congrArg _ (funext fun x => finish_registers x)

end Call

end Factored

/-! ### An exchange with a service -/

/-- How an exchange ends, by the reaction to its request: with the values of the answer at hand, or
with what `errno` says.  `P` is what holds of the system then. -/
inductive Settled (ctx : Modbus) (P : Peered δ → Prop) {r : Request} :
    Reaction r → Run (Int × List UInt8 × St (Peered δ)) → Prop
  | answer {response : Response} {h : r.Gives response} {a : Adu} {e : Errno} {os : Peered δ}
      (ha : a.pdu = r.function :: r.answerData response) (hos : P os) :
      Settled ctx P (.answer response h) (.ok (r.count, a.bytes ctx.backend, ⟨ctx, e, os⟩))
  | exception {code : Fin exceptionMax} {rsp : List UInt8} {os : Peered δ} (hos : P os) :
      Settled ctx P (.exception code) (.ok (-1, rsp, ⟨ctx, .mb code.val, os⟩))
  | silence {rsp : List UInt8} {os : Peered δ} (hos : P os) :
      Settled ctx P .silence (.ok (-1, rsp, ⟨ctx, .ETIMEDOUT, os⟩))

section Served

variable {fuel : Nat} {react : List UInt8 → δ → List UInt8 × δ} {svc : Service τ}
  {units : UInt8 → Prop} {R : τ → δ → Prop} {t : τ} {st : St (Peered δ)} {r : Request}

theorem addressed_freshAdu {ctx : Modbus} (h : ctx.backend = .rtu → 0 ≤ ctx.slave ∧ ctx.slave ≤ 255)
    (tId : UInt16) (pdu : List UInt8) : Addressed ctx (freshAdu tId (lo ctx.slave) pdu) := by
  intro hbe
  left
  obtain ⟨h0, h255⟩ := h hbe
  have hbyte := toNat_lo ctx.slave
  show ((lo ctx.slave).toNat : Int) = ctx.slave
  omega

/-- **An exchange** ends as the service has it. -/
theorem exchange_provides (hf : 0 < fuel) (hs : Provides st.ctx.backend react svc units R)
    (hc : Connected st.ctx) (hline : st.os.line.input = []) (hR : R t st.os.peer) (hr : r.Valid)
    (hunit : units (lo st.ctx.slave))
    (hslave : st.ctx.backend = .rtu → 0 ≤ st.ctx.slave ∧ st.ctx.slave ≤ 255) :
    Settled st.ctx.next
      (fun os => os.line.input = [] ∧ R (svc (lo st.ctx.slave) r t).2 os.peer)
      (svc (lo st.ctx.slave) r t).1
      (exchange (peerOs fuel react) { st with ctx := st.ctx.next }
        ((requestAdu st.ctx r.pdu).header st.ctx.backend ++ r.pdu)) := by
  set q := freshAdu st.ctx.next.tId (lo st.ctx.slave) r.pdu with hq
  obtain ⟨s', hreact, hR'⟩ := hs st.ctx.next.tId hR hunit hr
  have hsend : sendMsg (peerOs fuel react) { st with ctx := st.ctx.next }
      ((requestAdu st.ctx r.pdu).header st.ctx.backend ++ r.pdu) =
      .ok (((q.bytes st.ctx.backend).length : Nat), { st with
        ctx := st.ctx.next
        os := st.os.send react (q.bytes st.ctx.backend) }) :=
    (sendMsg_header _ { st with ctx := st.ctx.next } (requestAdu st.ctx r.pdu)).trans
      (sendAdu_peer hf { st with ctx := st.ctx.next } q)
  have hsent : (0 : Int) < ((q.bytes st.ctx.backend).length : Nat) := by
    have : (q.bytes st.ctx.backend).length = _ := q.length_bytes
    have : 0 < q.pdu.length := List.length_pos_of_ne_nil (Request.framed hr).ne_nil
    omega
  have hpre : sendMsgPre st.ctx.backend
      ((requestAdu st.ctx r.pdu).header st.ctx.backend ++ r.pdu) = q.bytes st.ctx.backend :=
    sendMsgPre_header (requestAdu st.ctx r.pdu)
  have hcn : Connected (⟨st.ctx.next, st.errno, st.os⟩ : St (Peered δ)).ctx := hc
  -- what comes back is received and checked, whatever its PDU
  have hreply : ∀ {pdu : List UInt8}, (svc (lo st.ctx.slave) r t).1.pdu = some pdu →
      ∃ os', (os'.line.input = [] ∧ os'.peer = s') ∧ ∀ {rc : Int} {e : Errno},
        checkConfirmation (peerOs fuel react) ⟨st.ctx.next, st.errno, os'⟩ (q.bytes st.ctx.backend)
          ((freshAdu st.ctx.next.tId (lo st.ctx.slave) pdu).bytes st.ctx.backend)
          (((freshAdu st.ctx.next.tId (lo st.ctx.slave) pdu).bytes st.ctx.backend).length : Nat) =
            .ok (rc, ⟨st.ctx.next, e, os'⟩) →
        exchange (peerOs fuel react) { st with ctx := st.ctx.next }
          ((requestAdu st.ctx r.pdu).header st.ctx.backend ++ r.pdu) =
          .ok (rc, (freshAdu st.ctx.next.tId (lo st.ctx.slave) pdu).bytes st.ctx.backend,
            ⟨st.ctx.next, e, os'⟩) := by
    intro pdu hpdu
    set a := freshAdu st.ctx.next.tId (lo st.ctx.slave) pdu with ha
    have hbytes : react (q.bytes st.ctx.backend) st.os.peer = (a.bytes st.ctx.backend, s') := by
      rw [hreact, Reaction.bytes_some hpdu]
    obtain ⟨os', hrcv, hos⟩ : ∃ os', modbusReceiveMsg (peerOs fuel react)
        ⟨st.ctx.next, st.errno, st.os.send react (q.bytes st.ctx.backend)⟩ .confirmation =
          .ok (((a.bytes st.ctx.backend).length : Nat), a.bytes st.ctx.backend,
            ⟨st.ctx.next, st.errno, os'⟩) ∧ os'.line.input = [] ∧ os'.peer = s' :=
      receive_reply hf hcn hline hbytes (Reaction.framed hr hpdu)
        (show Addressed st.ctx.next a from addressed_freshAdu hslave _ pdu)
    refine ⟨os', hos, fun {rc e} hcheck => ?_⟩
    have hreceived : ¬ (((a.bytes st.ctx.backend).length : Nat) : Int) = -1 := by omega
    simp only [exchange, hsend, ok_bind, if_pos hsent, hrcv, if_neg hreceived,
      show st.ctx.next.backend = st.ctx.backend from rfl, hpre, hcheck]
  cases hx : (svc (lo st.ctx.slave) r t).1 with
  | answer response h =>
    obtain ⟨mem, mem', happly⟩ := h
    obtain ⟨os', ⟨hline', rfl⟩, hexchange⟩ := hreply (by rw [hx]; rfl)
    rw [hexchange (checkConfirmation_done hr happly rfl rfl rfl rfl rfl)]
    exact .answer rfl ⟨hline', hR'⟩
  | exception code =>
    obtain ⟨os', ⟨hline', rfl⟩, hexchange⟩ := hreply (by rw [hx]; rfl)
    rw [hexchange (checkConfirmation_exception hr code.isLt rfl rfl rfl rfl rfl)]
    exact .exception ⟨hline', hR'⟩
  | silence =>
    have hbytes : react (q.bytes st.ctx.backend) st.os.peer = ([], s') := by
      rw [hreact, hx]
      rfl
    obtain ⟨os', hrcv, hline', rfl⟩ : ∃ os', modbusReceiveMsg (peerOs fuel react)
        ⟨st.ctx.next, st.errno, st.os.send react (q.bytes st.ctx.backend)⟩ .confirmation =
          .ok (-1, [], ⟨st.ctx.next, .ETIMEDOUT, os'⟩) ∧ os'.line.input = [] ∧ os'.peer = s' :=
      receive_silence hf hcn hline hbytes
    have hexchange : exchange (peerOs fuel react) { st with ctx := st.ctx.next }
        ((requestAdu st.ctx r.pdu).header st.ctx.backend ++ r.pdu) =
        .ok (-1, [], ⟨st.ctx.next, .ETIMEDOUT, os'⟩) := by
      simp only [exchange, hsend, ok_bind, if_pos hsent, hrcv, if_true]
    rw [hexchange]
    exact .silence ⟨hline', hR'⟩

end Served

/-! ### What the caller gets -/

namespace Call

/-- What the caller gets for a reaction. -/
def took (c : Call) : Reaction c.request → Returned
  | .answer response _ => c.returned response
  | .exception code => ⟨-1, some (.mb code.val), c.bits, c.registers⟩
  | .silence => ⟨-1, some .ETIMEDOUT, c.bits, c.registers⟩

/-- The values of an answer go to the front of the array. -/
theorem finish_answer {c : Call} (hc : c.Valid) {response : Response}
    (h : c.request.Gives response) {a : Adu} {st : St σ}
    (ha : a.pdu = c.request.function :: c.request.answerData response) :
    c.finish (c.request.count, a.bytes st.ctx.backend, st) = .ok (c.returned response, st) := by
  obtain ⟨mem, mem', happly⟩ := h
  have hrc : ∀ n : Nat, ¬ (n : Int) = -1 := fun n => by omega
  -- bits are unpacked, and registers are read high byte first
  have hreadBits : ∀ {vs : List Bool} {dest : List UInt8},
      a.pdu = c.request.function :: lo (packBits vs).length :: packBits vs → vs.length ≤ dest.length →
      Libmodbus.readBitsLoop (a.bytes st.ctx.backend) vs.length (st.ctx.backend.headerLength + 2)
        ((vs.length + 7) / 8) 0 dest = .ok (vs.map bitByte ++ dest.drop vs.length) := by
    intro vs dest ha hroom
    have hdrop : (a.bytes st.ctx.backend).drop (st.ctx.backend.headerLength + 2) =
        packBits vs ++ a.checksum st.ctx.backend := by
      rw [Adu.drop_bytes a (by rw [ha]; exact Nat.le_add_left 2 _), ha]
      rfl
    exact readBitsLoop_all (bitsAt_packBits hdrop) hroom
  cases c with
  | readBits addr nb dest =>
    obtain ⟨vs, hvs, he⟩ := Option.map_eq_some_iff.mp happly
    cases he
    have hlen : vs.length = nb := Cells.length_of_slice hvs
    subst hlen
    simp only [finish, request, Request.count, if_neg (hrc _), Int.toNat_natCast,
      hreadBits ha hc.2.2, ok_bind]
    rfl
  | readInputBits addr nb dest =>
    obtain ⟨vs, hvs, he⟩ := Option.map_eq_some_iff.mp happly
    cases he
    have hlen : vs.length = nb := Cells.length_of_slice hvs
    subst hlen
    simp only [finish, request, Request.count, if_neg (hrc _), Int.toNat_natCast,
      hreadBits ha hc.2.2, ok_bind]
    rfl
  | readRegisters addr nb dest =>
    obtain ⟨vs, hvs, he⟩ := Option.map_eq_some_iff.mp happly
    cases he
    have hlen : vs.length = nb := Cells.length_of_slice hvs
    subst hlen
    simp only [finish, request, Request.count, if_neg (hrc _), Int.toNat_natCast,
      storeRegisters_answer st.ctx.backend ha hc.2.2, ok_bind]
    rfl
  | readInputRegisters addr nb dest =>
    obtain ⟨vs, hvs, he⟩ := Option.map_eq_some_iff.mp happly
    cases he
    have hlen : vs.length = nb := Cells.length_of_slice hvs
    subst hlen
    simp only [finish, request, Request.count, if_neg (hrc _), Int.toNat_natCast,
      storeRegisters_answer st.ctx.backend ha hc.2.2, ok_bind]
    rfl
  | writeAndReadRegisters writeAddr writeNb src readAddr readNb dest =>
    obtain ⟨old, -, h⟩ := Option.bind_eq_some_iff.mp happly
    obtain ⟨old', -, h⟩ := Option.bind_eq_some_iff.mp h
    obtain ⟨vs, hvs, he⟩ := Option.map_eq_some_iff.mp h
    cases he
    have hlen : vs.length = readNb := Cells.length_of_slice hvs
    subst hlen
    simp only [finish, request, Request.count, if_neg (hrc _), Int.toNat_natCast,
      storeRegisters_answer st.ctx.backend ha hc.2.2.2, ok_bind]
    rfl
  -- the writes return their count
  | writeBit addr status =>
    cases written_of_map happly
    rfl
  | writeRegister addr value =>
    cases written_of_map happly
    rfl
  | writeBits addr nb src =>
    cases written_of_map happly
    have hlen : ((src.take nb).map bitOf).length = nb := by
      rw [List.length_map, List.length_take, Nat.min_eq_left hc.2.2]
    simp only [finish, request, Request.count, if_neg (hrc _), hlen]
    rfl
  | writeRegisters addr nb src =>
    cases written_of_map happly
    have hlen : (src.take nb).length = nb := by
      rw [List.length_take, Nat.min_eq_left hc.2.2]
    simp only [finish, request, Request.count, if_neg (hrc _), hlen]
    rfl
  | maskWriteRegister addr andMask orMask =>
    cases written_of_map happly
    rfl

/-- The end of a call, by the reaction to its request. -/
theorem finish_settled {c : Call} (hc : c.Valid) {ctx : Modbus} {P : Peered δ → Prop}
    {x : Reaction c.request} {outcome : Run (Int × List UInt8 × St (Peered δ))}
    (h : Settled ctx P x outcome) :
    ∃ e os, (outcome >>= c.finish) = .ok (c.took x, ⟨ctx, e, os⟩) ∧ P os := by
  cases h with
  | @answer response h a e os ha hos =>
    have hfinish : c.finish (c.request.count, a.bytes ctx.backend, ⟨ctx, e, os⟩) =
        .ok (c.returned response, ⟨ctx, e, os⟩) := finish_answer hc h ha
    exact ⟨e, os, hfinish, hos⟩
  | @exception code rsp os hos => exact ⟨.mb code.val, os, rfl, hos⟩
  | @silence rsp os hos => exact ⟨.ETIMEDOUT, os, rfl, hos⟩

end Call

/-! ### Sessions -/

/-- The numbers that `modbus_set_slave` takes. -/
def Modbus.Takes (ctx : Modbus) (slave : Int) : Prop :=
  (0 ≤ slave ∧ slave ≤ if ctx.quirks.maxSlave then 255 else 247) ∨
    (ctx.backend = .tcp ∧ slave = tcpSlave)

instance (ctx : Modbus) (slave : Int) : Decidable (ctx.Takes slave) :=
  inferInstanceAs (Decidable (_ ∨ _))

theorem modbusSetSlave_eq (ctx : Modbus) (slave : Int) :
    modbusSetSlave ctx slave =
      if ctx.Takes slave then .ok { ctx with slave := slave } else .error .EINVAL := by
  rcases ctx with ⟨backend, slave', s, errorRecovery, quirks, rt, bt, it, tId, flag⟩
  unfold modbusSetSlave Modbus.Takes
  by_cases hrange : 0 ≤ slave ∧ slave ≤ if quirks.maxSlave then 255 else 247
  · simp only [hrange, and_self, if_true, true_or]
  · cases backend with
    | rtu => simp only [hrange, if_false, reduceCtorEq, false_and, or_self]
    | tcp => simp only [hrange, if_false, true_and, false_or]

theorem Modbus.Takes.byte {ctx : Modbus} {slave : Int} (h : ctx.Takes slave) :
    0 ≤ slave ∧ slave ≤ 255 := by
  rcases h with ⟨h0, hmax⟩ | ⟨-, rfl⟩
  · split_ifs at hmax <;> omega
  · simp only [tcpSlave]
    omega

/-- `modbus_set_slave`, and the call unless the number was refused. -/
def Call.runUnder (os : Os σ) (input : Int × Call) (st : St σ) : Run (Returned × St σ) :=
  match modbusSetSlave st.ctx input.1 with
  | .error e => .ok (⟨-1, some e, input.2.bits, input.2.registers⟩, { st with errno := e })
  | .ok ctx => input.2.run os { st with ctx := ctx }

/-- **The call on a service**, for a client of the kind of `ctx`. -/
def Call.under (ctx : Modbus) (svc : Service τ) (input : Int × Call) (t : τ) : Returned × τ :=
  if ctx.Takes input.1 then
    (input.2.took (svc (lo input.1) input.2.request t).1, (svc (lo input.1) input.2.request t).2)
  else (⟨-1, some .EINVAL, input.2.bits, input.2.registers⟩, t)

/-- A client of the kind of `ctx` on an empty line, with a peer that stands for `t`.  Its backend
and quirks, which say what slave numbers it takes, are those of `ctx`: the front of a gateway, the
server, or the master of a bus.  Time is left out: a peer has answered, or will not, before the
client times out, so that the client of a gateway waits longer than the gateway does. -/
structure Attached (ctx : Modbus) (R : τ → δ → Prop) (t : τ) (st : St (Peered δ)) : Prop where
  connected : Connected st.ctx
  backend : st.ctx.backend = ctx.backend
  quirks : st.ctx.quirks = ctx.quirks
  line : st.os.line.input = []
  peer : R t st.os.peer

theorem Attached.takes {ctx : Modbus} {R : τ → δ → Prop} {t : τ} {st : St (Peered δ)}
    (h : Attached ctx R t st) (slave : Int) : st.ctx.Takes slave ↔ ctx.Takes slave := by
  unfold Modbus.Takes
  rw [h.backend, h.quirks]

section Sessions

variable {fuel : Nat} {react : List UInt8 → δ → List UInt8 × δ} {svc : Service τ}
  {units : UInt8 → Prop} {R : τ → δ → Prop} {ctx : Modbus}

/-- One call of a session. -/
theorem runUnder_provides (hf : 0 < fuel) (hs : Provides ctx.backend react svc units R) {t : τ}
    {st : St (Peered δ)} (hat : Attached ctx R t st) {input : Int × Call} (hc : input.2.Valid)
    (hunit : ctx.Takes input.1 → units (lo input.1)) :
    ∃ st', Call.runUnder (peerOs fuel react) input st = .ok ((Call.under ctx svc input t).1, st') ∧
      Attached ctx R (Call.under ctx svc input t).2 st' := by
  unfold Call.runUnder Call.under
  rw [modbusSetSlave_eq]
  by_cases htakes : ctx.Takes input.1
  · have hbyte := htakes.byte
    rw [if_pos ((hat.takes input.1).mpr htakes), if_pos htakes]
    -- the state after `modbus_set_slave`
    set st₁ : St (Peered δ) := ⟨{ st.ctx with slave := input.1 }, st.errno, st.os⟩ with hst₁
    have hs₁ : Provides st₁.ctx.backend react svc units R := by
      rw [show st₁.ctx.backend = ctx.backend from hat.backend]
      exact hs
    have hc₁ : Connected st₁.ctx := hat.connected
    obtain ⟨e, os, hrun, hline, hR⟩ := Call.finish_settled hc
      (exchange_provides hf hs₁ hc₁ hat.line hat.peer hc.request (hunit htakes) fun _ => hbyte)
    have hfactored : input.2.run (peerOs fuel react) st₁ = _ :=
      Call.run_eq hc fun _ => show input.1 ≠ -1 by omega
    exact ⟨⟨st₁.ctx.next, e, os⟩, hfactored.trans hrun, hat.connected, hat.backend, hat.quirks,
      hline, hR⟩
  · rw [if_neg (fun h => htakes ((hat.takes input.1).mp h)), if_neg htakes]
    exact ⟨_, rfl, hat.connected, hat.backend, hat.quirks, hat.line, hat.peer⟩

/-- **A session returns what it returns on the service.** -/
theorem service_refinement (hf : 0 < fuel) (hs : Provides ctx.backend react svc units R) {t : τ}
    {st : St (Peered δ)} (hat : Attached ctx R t st) {inputs : List (Int × Call)}
    (hin : ∀ i ∈ inputs, i.2.Valid ∧ (ctx.Takes i.1 → units (lo i.1))) :
    ∃ st', runs (Call.runUnder (peerOs fuel react)) inputs st =
        .ok ((specRuns (Call.under ctx svc) inputs t).1, st') ∧
      Attached ctx R (specRuns (Call.under ctx svc) inputs t).2 st' := by
  have hstep : ∀ {i : Int × Call} {st : St (Peered δ)} {t : τ},
      i.2.Valid ∧ (ctx.Takes i.1 → units (lo i.1)) → Attached ctx R t st →
      ∃ st', Call.runUnder (peerOs fuel react) i st = .ok ((Call.under ctx svc i t).1, st') ∧
        Attached ctx R (Call.under ctx svc i t).2 st' :=
    fun hok hat => runUnder_provides hf hs hat hok.1 hok.2
  exact runs_of_simulation (R := fun st t => Attached ctx R t st) hstep hin hat

end Sessions

/-! ### One server -/

/-- An idle server with a regular mapping stands for the memory of the mapping. -/
def Stands (ctx : Modbus) (mem : Memory) (s : Run Server) : Prop :=
  ∃ m, Idle ctx m s ∧ m.Regular ∧ m.memory = mem

/-- The PDU of `servePdu` is that of the reaction of the memory. -/
theorem servePdu_react (ver : VersionString) {m : Mapping} (hm : m.Regular) {r : Request}
    (hr : r.Valid) :
    ∃ p, servePdu ver r.pdu m = .ok p ∧ (m.memory.react r).1.pdu = some p.pdu ∧
      p.mapping.Regular ∧ p.mapping.memory = (m.memory.react r).2 := by
  obtain ⟨p, hp, hanswered⟩ := servePdu_request ver hm hr
  refine ⟨p, hp, ?_⟩
  cases hanswered with
  | refused happly hexc =>
    rw [Memory.react_none happly, hexc]
    exact ⟨rfl, hm, rfl⟩
  | done answer mem happly hpdu hregular hmem =>
    rw [Memory.react_some happly]
    exact ⟨congrArg some hpdu.symm, hregular, hmem⟩

theorem adu_freshAdu (tId : UInt16) (unit : UInt8) (pdu : List UInt8) (p : PduReply) :
    p.adu (freshAdu tId unit pdu) = freshAdu tId unit p.pdu := by
  simp only [PduReply.adu, freshAdu, Adu.sealed, ite_self]

/-- **A server is the service of its memory**, for the units it answers. -/
theorem server_provides {fuel : Nat} (hf : 0 < fuel) (ver : VersionString) (ctx : Modbus) :
    Provides ctx.backend (serverReact fuel ver) memoryService
      (fun unit => ctx.backend = .rtu → (unit.toNat : Int) = ctx.slave ∧ unit ≠ 0)
      (Stands ctx) := by
  rintro mem s unit r tId ⟨m, hidle, hm, rfl⟩ hunit hr
  obtain ⟨p, hp, hpdu, hregular, hmem⟩ := servePdu_react ver hm hr
  have hsup : suppressed ctx unit = false := by
    cases hbe : ctx.backend with
    | tcp => exact suppressed_tcp _ hbe
    | rtu => exact suppressed_unit fun h => (hunit hbe).2 (UInt8.toNat_inj.mp h)
  obtain ⟨s', hreact, hidle'⟩ := serverReact_answer (a := freshAdu tId unit r.pdu) hf hidle
    (Request.framed hr) (fun h => Or.inl (hunit h).1) hsup hp
  refine ⟨s', ?_, p.mapping, hidle', hregular, hmem⟩
  rw [hreact, adu_freshAdu]
  exact congrArg (·, s') (Reaction.bytes_some hpdu tId unit).symm

end Libmodbus
