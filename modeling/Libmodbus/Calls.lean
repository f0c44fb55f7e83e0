/-
Libmodbus/Calls.lean

The client calls, at the other end of the line from a server.

    call ── request ──▶ memory of the server ── answer ──▶ value, errno, array

`Call.spec` is what a call means on the memory: its request is applied, and the
answer returned.  `memory_refinement` is the main result: on every run of calls
client and server together give what the memory gives.

On the way `check_confirmation` is shown to accept exactly what the server
answers: it computes the length and the number of values of a response from the
request, a third time after the receive loop and the server
(`Request.computeResponseLength`, `Request.confirmationValues`).
-/
import Libmodbus.Memory
import Libmodbus.Peer

namespace Libmodbus

open CSem Wire Posix

variable {σ : Type} {be : Backend}

/-! ### The frame of a request -/

/-- The context after a request has been built. -/
def Modbus.next (ctx : Modbus) : Modbus :=
  { ctx with
    tId := match ctx.backend with
      | .rtu => ctx.tId
      | .tcp => nextTId ctx.tId }

/-- The ADU of the next request. -/
def requestAdu (ctx : Modbus) (pdu : List UInt8) : Adu := ⟨ctx.next.tId, 0, 0, lo ctx.slave, pdu⟩

/-- `build_request_basis` builds its header and five bytes of a PDU. -/
theorem buildRequestBasis_adu {ctx : Modbus} (h : ctx.backend = .rtu → ctx.slave ≠ -1)
    (function : Nat) (addr nb : Int) (pdu : List UInt8) :
    buildRequestBasis ctx function addr nb =
      .ok ((requestAdu ctx pdu).header ctx.backend ++ [lo function, hi addr, lo addr, hi nb, lo nb],
        ctx.next) := by
  rcases ctx with ⟨backend, slave, s, errorRecovery, quirks, rt, bt, it, tId, flag⟩
  cases backend with
  | rtu => exact if_neg (h rfl)
  | tcp =>
    simp only [buildRequestBasis, requestAdu, Modbus.next, Adu.header]
    rfl

/-! ### What a confirmation must look like -/

/-- A byte of the PDU, behind the header. -/
theorem Adu.rd_bytes {a : Adu} {i : Nat} {b : UInt8} (h : rd a.pdu i = .ok b) :
    rd (a.bytes be) (be.headerLength + i) = .ok b := by
  rw [Adu.bytes, a.rd_wrapped _ (rd_eq_ok_lt h), h]

theorem Adu.drop_bytes (a : Adu) {i : Nat} (h : i ≤ a.pdu.length) :
    (a.bytes be).drop (be.headerLength + i) = a.pdu.drop i ++ a.checksum be := by
  rw [Adu.bytes, Adu.wrapped, ← List.drop_drop, ← a.length_header, List.drop_left,
    List.drop_append_of_le_length h]

namespace Request

/-- The length of the PDU that answers a request. -/
def answerLength : Request → Nat
  | readBits _ _ nb => 2 + (nb + 7) / 8
  | readRegisters _ _ nb => 2 + 2 * nb
  | maskWrite _ _ _ => 7
  | writeAndRead _ nb _ _ => 2 + 2 * nb
  | _ => 5

/-- What `check_confirmation` returns for the answer: bytes for bits, values otherwise. -/
def count : Request → Nat
  | readBits _ _ nb => (nb + 7) / 8
  | readRegisters _ _ nb => nb
  | writeBits _ values => values.length
  | writeRegisters _ values => values.length
  | writeAndRead _ nb _ _ => nb
  | _ => 1

variable {r : Request} {answer : Response} {mem mem' : Memory}

/-- The number of values in an answer is the one that was asked for. -/
theorem length_answer (h : r.apply mem = some (answer, mem')) :
    (r.answerData answer).length + 1 = r.answerLength := by
  cases r with
  | readBits isInput addr nb =>
    -- the reads answer a byte count and the values
    obtain ⟨vs, hvs, he⟩ := Option.map_eq_some_iff.mp h
    cases he
    show (packBits vs).length + 1 + 1 = 2 + (nb + 7) / 8
    rw [length_packBits, Cells.length_of_slice hvs]
    omega
  | readRegisters isInput addr nb =>
    obtain ⟨vs, hvs, he⟩ := Option.map_eq_some_iff.mp h
    cases he
    show (bigEndian vs).length + 1 + 1 = 2 + 2 * nb
    rw [length_bigEndian, Cells.length_of_slice hvs]
    omega
  -- the writes are echoed, with as many bytes whatever is written
  | writeBit addr status =>
    obtain ⟨vs, -, he⟩ := Option.map_eq_some_iff.mp h
    cases he
    rfl
  | writeRegister addr value =>
    obtain ⟨vs, -, he⟩ := Option.map_eq_some_iff.mp h
    cases he
    rfl
  | writeBits addr values =>
    obtain ⟨vs, -, he⟩ := Option.map_eq_some_iff.mp h
    cases he
    rfl
  | writeRegisters addr values =>
    obtain ⟨vs, -, he⟩ := Option.map_eq_some_iff.mp h
    cases he
    rfl
  | maskWrite addr andMask orMask =>
    obtain ⟨vs, -, he⟩ := Option.map_eq_some_iff.mp h
    cases he
    rfl
  | writeAndRead readAddr nb writeAddr values =>
    obtain ⟨old, -, h⟩ := Option.bind_eq_some_iff.mp h
    obtain ⟨old', -, h⟩ := Option.bind_eq_some_iff.mp h
    obtain ⟨vs, hvs, he⟩ := Option.map_eq_some_iff.mp h
    cases he
    show (bigEndian vs).length + 1 + 1 = 2 + 2 * nb
    rw [length_bigEndian, Cells.length_of_slice hvs]
    omega

/-- `compute_response_length_from_request` knows the length of the answer. -/
theorem computeResponseLength (hr : r.Valid) {q : Adu} (hq : q.pdu = r.pdu) :
    computeResponseLengthFromRequest be (q.bytes be) =
      .ok ((be.headerLength + r.answerLength + be.checksumLength : Nat) : Int) := by
  have hfun : rd (q.bytes be) be.headerLength = .ok r.function :=
    Adu.rd_bytes (i := 0) (by rw [hq]; rfl)
  have hfield : ∀ {i : Nat} {b : UInt8}, rd r.pdu i = .ok b →
      rd (q.bytes be) (be.headerLength + i) = .ok b := fun h => Adu.rd_bytes (by rw [hq, h])
  have hregisters : ∀ {nb : Nat}, nb ≤ 125 →
      (r.function.toNat = fcWriteAndReadRegisters ∨ r.function.toNat = fcReadHoldingRegisters ∨
        r.function.toNat = fcReadInputRegisters) →
      rd r.pdu 3 = .ok (hi nb) → rd r.pdu 4 = .ok (lo nb) →
      computeResponseLengthFromRequest be (q.bytes be) =
        .ok ((be.headerLength + (2 + 2 * nb) + be.checksumLength : Nat) : Int) := by
    intro nb hmax hcode h3 h4
    rw [computeResponseLength_registers hfun hcode (hfield h3) (hfield h4),
      word_hi_lo_nat (by omega)]
  -- the writes have a fixed length, which no field is read for
  cases r with
  | readBits isInput addr nb =>
    obtain ⟨-, -, hmax⟩ := hr
    simp only [maxReadBits] at hmax
    have hcode : (readBits isInput addr nb).function.toNat = fcReadCoils ∨
        (readBits isInput addr nb).function.toNat = fcReadDiscreteInputs := by
      cases isInput with
      | false => exact Or.inl rfl
      | true => exact Or.inr rfl
    have h3 : rd (readBits isInput addr nb).pdu 3 = .ok (hi nb) := rfl
    have h4 : rd (readBits isInput addr nb).pdu 4 = .ok (lo nb) := rfl
    rw [computeResponseLength_bits hfun hcode (hfield h3) (hfield h4), word_hi_lo_nat (by omega)]
    congr 2
    simp only [answerLength]
    split_ifs <;> omega
  | readRegisters isInput addr nb =>
    cases isInput with
    | false => exact hregisters hr.2.2 (Or.inr (Or.inl rfl)) rfl rfl
    | true => exact hregisters hr.2.2 (Or.inr (Or.inr rfl)) rfl rfl
  | writeAndRead readAddr nb writeAddr values =>
    exact hregisters hr.2.1.2 (Or.inl rfl) rfl rfl
  | writeBit addr status =>
    rw [computeResponseLengthFromRequest, hfun]
    rfl
  | writeRegister addr value =>
    rw [computeResponseLengthFromRequest, hfun]
    rfl
  | writeBits addr values =>
    rw [computeResponseLengthFromRequest, hfun]
    rfl
  | writeRegisters addr values =>
    rw [computeResponseLengthFromRequest, hfun]
    rfl
  | maskWrite addr andMask orMask =>
    rw [computeResponseLengthFromRequest, hfun]
    rfl

/-- The switch of `check_confirmation` finds in the answer what the request asked for. -/
theorem confirmationValues_answer (hr : r.Valid) (h : r.apply mem = some (answer, mem'))
    {q a : Adu} (hq : q.pdu = r.pdu) (ha : a.pdu = r.function :: r.answerData answer) :
    confirmationValues be.headerLength r.function.toNat (q.bytes be) (a.bytes be) =
      .ok (r.count, r.count, true) := by
  have hreq : ∀ {i : Nat} {b : UInt8}, rd r.pdu i = .ok b →
      rd (q.bytes be) (be.headerLength + i) = .ok b := fun h => Adu.rd_bytes (by rw [hq, h])
  have hrsp : ∀ {i : Nat} {b : UInt8}, rd (r.function :: r.answerData answer) i = .ok b →
      rd (a.bytes be) (be.headerLength + i) = .ok b := fun h => Adu.rd_bytes (by rw [ha, h])
  -- registers read: half the byte count is compared with the quantity
  have hregisters : ∀ {nb : Nat} {vs : List UInt16}, nb ≤ 125 → vs.length = nb →
      rd r.pdu 3 = .ok (hi nb) → rd r.pdu 4 = .ok (lo nb) →
      rd (r.function :: r.answerData answer) 1 = .ok (lo (bigEndian vs).length) →
      (do
        let h ← rd (q.bytes be) (be.headerLength + 3)
        let l ← rd (q.bytes be) (be.headerLength + 4)
        let rspNbValue ← rd (a.bytes be) (be.headerLength + 1)
        .ok (word h l, rspNbValue.toNat / 2, true) : Run (Nat × Nat × Bool)) =
      .ok (nb, nb, true) := by
    intro nb vs hmax hvs h3 h4 h1
    have hlen := length_bigEndian vs
    rw [hreq h3, ok_bind, hreq h4, ok_bind, hrsp h1, ok_bind, word_hi_lo_nat (by omega),
      toNat_lo_nat (by omega), hlen, hvs, Nat.mul_div_cancel_left nb Nat.two_pos]
  -- an echoed field
  have hword : ∀ {i : Nat} {x y : UInt8}, rd r.pdu i = .ok x → rd r.pdu (i + 1) = .ok y →
      rd (r.function :: r.answerData answer) i = .ok x →
      rd (r.function :: r.answerData answer) (i + 1) = .ok y →
      sameWord (q.bytes be) (a.bytes be) (be.headerLength + i) = .ok true := by
    intro i x y h1 h2 h3 h4
    simp only [sameWord, Nat.add_assoc, hreq h1, hreq h2, hrsp h3, hrsp h4, ok_bind, and_self,
      decide_true]
  have hsingle : sameWord (q.bytes be) (a.bytes be) (be.headerLength + 1) = .ok true →
      sameWord (q.bytes be) (a.bytes be) (be.headerLength + 3) = .ok true →
      (do
        let addrOk ← sameWord (q.bytes be) (a.bytes be) (be.headerLength + 1)
        let dataOk ← sameWord (q.bytes be) (a.bytes be) (be.headerLength + 3)
        .ok (1, 1, addrOk && dataOk) : Run (Nat × Nat × Bool)) = .ok (1, 1, true) := by
    intro haddr hdata
    rw [haddr, ok_bind, hdata]
    rfl
  -- multiple writes: the address is compared here, and both quantities are handed back
  have hmultiple : ∀ {nb : Nat}, nb ≤ 1968 → rd r.pdu 3 = .ok (hi nb) → rd r.pdu 4 = .ok (lo nb) →
      rd (r.function :: r.answerData answer) 3 = .ok (hi nb) →
      rd (r.function :: r.answerData answer) 4 = .ok (lo nb) →
      sameWord (q.bytes be) (a.bytes be) (be.headerLength + 1) = .ok true →
      (do
        let addrOk ← sameWord (q.bytes be) (a.bytes be) (be.headerLength + 1)
        let reqH ← rd (q.bytes be) (be.headerLength + 3)
        let reqL ← rd (q.bytes be) (be.headerLength + 4)
        let rspH ← rd (a.bytes be) (be.headerLength + 3)
        let rspL ← rd (a.bytes be) (be.headerLength + 4)
        .ok (word reqH reqL, word rspH rspL, addrOk) : Run (Nat × Nat × Bool)) =
      .ok (nb, nb, true) := by
    intro nb hmax h3 h4 h3' h4' haddr
    rw [haddr, ok_bind, hreq h3, ok_bind, hreq h4, ok_bind, hrsp h3', ok_bind, hrsp h4', ok_bind,
      word_hi_lo_nat (by omega)]
  cases r with
  | readBits isInput addr nb =>
    obtain ⟨vs, hvs, he⟩ := Option.map_eq_some_iff.mp h
    cases he
    obtain ⟨-, -, hmax⟩ := hr
    simp only [maxReadBits] at hmax
    have hlen := length_packBits vs
    rw [Cells.length_of_slice hvs] at hlen
    have hcode : (readBits isInput addr nb).function.toNat = fcReadCoils ∨
        (readBits isInput addr nb).function.toNat = fcReadDiscreteInputs := by
      cases isInput with
      | false => exact Or.inl rfl
      | true => exact Or.inr rfl
    have h3 : rd (readBits isInput addr nb).pdu 3 = .ok (hi nb) := rfl
    have h4 : rd (readBits isInput addr nb).pdu 4 = .ok (lo nb) := rfl
    have h1 : rd ((readBits isInput addr nb).function ::
        (readBits isInput addr nb).answerData (.bits vs)) 1 = .ok (lo (packBits vs).length) := rfl
    have hcount : nb / 8 + (if nb % 8 ≠ 0 then 1 else 0) = (nb + 7) / 8 := by
      split_ifs <;> omega
    rw [confirmationValues, if_pos hcode, hreq h3, ok_bind, hreq h4, ok_bind, hrsp h1, ok_bind,
      word_hi_lo_nat (by omega), toNat_lo_nat (by omega), hlen]
    simp only [hcount]
    rfl
  | readRegisters isInput addr nb =>
    obtain ⟨vs, hvs, he⟩ := Option.map_eq_some_iff.mp h
    cases he
    cases isInput with
    | false => exact hregisters hr.2.2 (Cells.length_of_slice hvs) rfl rfl rfl
    | true => exact hregisters hr.2.2 (Cells.length_of_slice hvs) rfl rfl rfl
  | writeBit addr status =>
    obtain ⟨vs, -, he⟩ := Option.map_eq_some_iff.mp h
    cases he
    exact hsingle (hword (i := 1) rfl rfl rfl rfl) (hword (i := 3) rfl rfl rfl rfl)
  | writeRegister addr value =>
    obtain ⟨vs, -, he⟩ := Option.map_eq_some_iff.mp h
    cases he
    exact hsingle (hword (i := 1) rfl rfl rfl rfl) (hword (i := 3) rfl rfl rfl rfl)
  | writeBits addr values =>
    obtain ⟨vs, -, he⟩ := Option.map_eq_some_iff.mp h
    cases he
    have hmax : values.length ≤ 1968 := hr.2.2
    exact hmultiple hmax rfl rfl rfl rfl (hword (i := 1) rfl rfl rfl rfl)
  | writeRegisters addr values =>
    obtain ⟨vs, -, he⟩ := Option.map_eq_some_iff.mp h
    cases he
    have hmax : values.length ≤ 123 := hr.2.2
    exact hmultiple (show values.length ≤ 1968 by omega) rfl rfl rfl rfl
      (hword (i := 1) rfl rfl rfl rfl)
  | maskWrite addr andMask orMask => rfl
  | writeAndRead readAddr nb writeAddr values =>
    obtain ⟨old, -, h⟩ := Option.bind_eq_some_iff.mp h
    obtain ⟨old', -, h⟩ := Option.bind_eq_some_iff.mp h
    obtain ⟨vs, hvs, he⟩ := Option.map_eq_some_iff.mp h
    cases he
    exact hregisters hr.2.1.2 (Cells.length_of_slice hvs) rfl rfl rfl

end Request

/-! ### check_confirmation on the answers of the server -/

section Confirmations

variable {os : Os σ} {st : St σ} {r : Request} {q a : Adu}

/-- The answer is accepted. -/
theorem checkConfirmation_done (hr : r.Valid) {answer : Response} {mem mem' : Memory}
    (h : r.apply mem = some (answer, mem')) (hq : q.pdu = r.pdu)
    (ha : a.pdu = r.function :: r.answerData answer) (htid : q.tId = a.tId)
    (hprotocol : a.protocol = 0) (hunit : q.unit = a.unit) :
    checkConfirmation os st (q.bytes st.ctx.backend) (a.bytes st.ctx.backend)
        ((a.bytes st.ctx.backend).length : Nat) = .ok (r.count, st) := by
  have hfun : rd (a.bytes st.ctx.backend) st.ctx.backend.headerLength = .ok r.function :=
    Adu.rd_bytes (i := 0) (by rw [ha]; rfl)
  have hreq : rd (q.bytes st.ctx.backend) st.ctx.backend.headerLength = .ok r.function :=
    Adu.rd_bytes (i := 0) (by rw [hq]; rfl)
  have hpre : preCheckConfirmation st.ctx.backend (q.bytes st.ctx.backend)
      (a.bytes st.ctx.backend) = .ok none := preCheckConfirmation_same _ _ htid hprotocol hunit
  have hlow : ¬ 0x80 ≤ r.function.toNat := Nat.not_le.mpr r.function_lt
  have hlen : (((a.bytes st.ctx.backend).length : Nat) : Int) =
      (st.ctx.backend.headerLength + r.answerLength + st.ctx.backend.checksumLength : Nat) := by
    rw [Adu.length_bytes, ha, List.length_cons, Request.length_answer h]
  simp only [checkConfirmation, hfun, hreq, hpre, ok_bind, Request.computeResponseLength hr hq,
    if_neg hlow, if_pos (Or.inl hlen), ne_eq, not_true_eq_false, if_false,
    Request.confirmationValues_answer hr h hq ha, and_self, if_true]

/-- An exception of the server comes out as its code. -/
theorem checkConfirmation_exception (hr : r.Valid) {code : Nat} (hcode : code < exceptionMax)
    (hq : q.pdu = r.pdu) (ha : a.pdu = [lo (r.function.toNat + 0x80 : Nat), lo code])
    (htid : q.tId = a.tId) (hprotocol : a.protocol = 0) (hunit : q.unit = a.unit) :
    checkConfirmation os st (q.bytes st.ctx.backend) (a.bytes st.ctx.backend)
        ((a.bytes st.ctx.backend).length : Nat) = .ok (-1, { st with errno := .mb code }) := by
  have hlt := r.function_lt
  have hbyte : (lo (r.function.toNat + 0x80 : Nat)).toNat = r.function.toNat + 0x80 :=
    toNat_lo_nat (by omega)
  have hfun : rd (a.bytes st.ctx.backend) st.ctx.backend.headerLength =
      .ok (lo (r.function.toNat + 0x80 : Nat)) := Adu.rd_bytes (i := 0) (by rw [ha]; rfl)
  have hexc : rd (a.bytes st.ctx.backend) (st.ctx.backend.headerLength + 1) = .ok (lo code) :=
    Adu.rd_bytes (by rw [ha]; rfl)
  have hreq : rd (q.bytes st.ctx.backend) st.ctx.backend.headerLength = .ok r.function :=
    Adu.rd_bytes (i := 0) (by rw [hq]; rfl)
  have hpre : preCheckConfirmation st.ctx.backend (q.bytes st.ctx.backend)
      (a.bytes st.ctx.backend) = .ok none := preCheckConfirmation_same _ _ htid hprotocol hunit
  have hlen : (((a.bytes st.ctx.backend).length : Nat) : Int) =
      (st.ctx.backend.headerLength + 2 + st.ctx.backend.checksumLength : Nat) := by
    rw [Adu.length_bytes, ha]
    rfl
  have hcodeByte : (lo code).toNat = code := by
    simp only [exceptionMax] at hcode
    exact toNat_lo_nat (by omega)
  simp only [checkConfirmation, hfun, hreq, hpre, ok_bind, Request.computeResponseLength hr hq,
    hbyte, if_pos (show 0x80 ≤ r.function.toNat + 0x80 by omega), Nat.add_sub_cancel,
    if_pos (And.intro hlen trivial), hexc, hcodeByte, if_pos hcode]

end Confirmations

/-! ### Client and server joined by a line -/

/-- A client on `st` and a server on `ctx` with the mapping `m`, of one backend and, in RTU, with
one slave number; nothing is on the line. -/
structure Joined (ctx : Modbus) (m : Mapping) (st : St (Peered (Run Server))) : Prop where
  connected : Connected st.ctx
  backend : ctx.backend = st.ctx.backend
  slave : st.ctx.backend = .rtu → 1 ≤ st.ctx.slave ∧ st.ctx.slave ≤ 247 ∧ ctx.slave = st.ctx.slave
  line : st.os.line.input = []
  server : Idle ctx m st.os.peer
  regular : m.Regular

/-- How a request ends: its answer is at hand, or `errno` says that a cell is missing. -/
inductive Exchanged (ctx : Modbus) (m : Mapping) (be : Backend) (r : Request) :
    Run (Int × List UInt8 × St (Peered (Run Server))) → Prop
  | done {answer : Response} {mem : Memory} {m' : Mapping} {a : Adu}
      {st : St (Peered (Run Server))} (happly : r.apply m.memory = some (answer, mem))
      (hmem : m'.memory = mem) (hbe : st.ctx.backend = be) (hjoined : Joined ctx m' st)
      (ha : a.pdu = r.function :: r.answerData answer) :
      Exchanged ctx m be r (.ok (r.count, a.bytes be, st))
  | refused {rsp : List UInt8} {st : St (Peered (Run Server))} (happly : r.apply m.memory = none)
      (herrno : st.errno = .EMBXILADD) (hjoined : Joined ctx m st) :
      Exchanged ctx m be r (.ok (-1, rsp, st))

theorem toNat_lo_slave {slave : Int} (h : 1 ≤ slave ∧ slave ≤ 247) :
    ((lo slave).toNat : Int) = slave := by
  have := toNat_lo slave
  omega

/-- **One request.** -/
theorem exchange_request {fuel : Nat} (hf : 0 < fuel) (ver : VersionString) {ctx : Modbus}
    {m : Mapping} {st : St (Peered (Run Server))} (hj : Joined ctx m st) {r : Request}
    (hr : r.Valid) :
    Exchanged ctx m st.ctx.backend r (exchange (peerOs fuel (serverReact fuel ver))
      { st with ctx := st.ctx.next }
      ((requestAdu st.ctx r.pdu).header st.ctx.backend ++ r.pdu)) := by
  obtain ⟨p, hp, hanswered⟩ := servePdu_request ver hj.regular hr
  set q := (requestAdu st.ctx r.pdu).sealed with hq
  -- the request is for the server, and the response for the client
  have hunit : st.ctx.backend = .rtu → (q.unit.toNat : Int) = st.ctx.slave :=
    fun h => toNat_lo_slave ⟨(hj.slave h).1, (hj.slave h).2.1⟩
  have haddr : Addressed ctx q := by
    intro h
    rw [hj.backend] at h
    left
    rw [(hj.slave h).2.2]
    exact hunit h
  have hsup : suppressed ctx q.unit = false := by
    cases hbe : ctx.backend with
    | tcp => exact suppressed_tcp _ hbe
    | rtu =>
      rw [hj.backend] at hbe
      have h1 := hunit hbe
      have h2 := (hj.slave hbe).1
      exact suppressed_unit (by omega)
  have hrsp : Addressed st.ctx.next (p.adu q) := fun h => Or.inl (hunit h)
  have hframed : Framed .confirmation p.pdu := by
    cases hanswered with
    | refused happly hexc =>
      have hout : Outcome r.function m p := .exception _ _ (by decide) hexc
      exact hout.framed r.function_lt
    | done answer mem happly hpdu hregular hmem =>
      have hout : Outcome r.function m p :=
        (servePdu_outcome ver r.function r.data m).result hp
      exact hout.framed r.function_lt
  have hprotocol : (p.adu q).protocol = 0 := ite_self 0
  have hsend : sendMsg (peerOs fuel (serverReact fuel ver)) { st with ctx := st.ctx.next }
      ((requestAdu st.ctx r.pdu).header st.ctx.backend ++ r.pdu) =
      .ok (((q.bytes st.ctx.backend).length : Nat), { st with
        ctx := st.ctx.next
        os := st.os.send (serverReact fuel ver) (q.bytes st.ctx.backend) }) :=
    (sendMsg_header _ { st with ctx := st.ctx.next } (requestAdu st.ctx r.pdu)).trans
      (sendAdu_peer hf { st with ctx := st.ctx.next } q)
  obtain ⟨os', hrcv, hline, hidle⟩ : ∃ os', modbusReceiveMsg (peerOs fuel (serverReact fuel ver))
      ⟨st.ctx.next, st.errno, st.os.send (serverReact fuel ver) (q.bytes st.ctx.backend)⟩
      .confirmation = .ok ((((p.adu q).bytes st.ctx.backend).length : Nat),
        (p.adu q).bytes st.ctx.backend, ⟨st.ctx.next, st.errno, os'⟩) ∧
      os'.line.input = [] ∧ Idle ctx p.mapping os'.peer :=
    request_answered hf (show Connected (⟨st.ctx.next, st.errno, st.os⟩ : St _).ctx from
      hj.connected) hj.line hj.server hj.backend (Request.framed hr) haddr hsup hp hframed hrsp
  have hsent : (0 : Int) < ((q.bytes st.ctx.backend).length : Nat) := by
    have : (q.bytes st.ctx.backend).length = _ := q.length_bytes
    have : 0 < q.pdu.length := List.length_pos_of_ne_nil (Request.framed hr).ne_nil
    omega
  have hpre : sendMsgPre st.ctx.backend
      ((requestAdu st.ctx r.pdu).header st.ctx.backend ++ r.pdu) = q.bytes st.ctx.backend :=
    sendMsgPre_header (requestAdu st.ctx r.pdu)
  have hreceived : ¬ ((((p.adu q).bytes st.ctx.backend).length : Nat) : Int) = -1 := by omega
  have hexchange : ∀ (rc : Int) (e : Errno),
      checkConfirmation (peerOs fuel (serverReact fuel ver)) ⟨st.ctx.next, st.errno, os'⟩
        (q.bytes st.ctx.backend) ((p.adu q).bytes st.ctx.backend)
        (((p.adu q).bytes st.ctx.backend).length : Nat) = .ok (rc, ⟨st.ctx.next, e, os'⟩) →
      exchange (peerOs fuel (serverReact fuel ver)) { st with ctx := st.ctx.next }
        ((requestAdu st.ctx r.pdu).header st.ctx.backend ++ r.pdu) =
        .ok (rc, (p.adu q).bytes st.ctx.backend, ⟨st.ctx.next, e, os'⟩) := by
    intro rc e hcheck
    simp only [exchange, hsend, ok_bind, if_pos hsent, hrcv, if_neg hreceived,
      show st.ctx.next.backend = st.ctx.backend from rfl, hpre, hcheck]
  have hjoined : ∀ e, p.mapping.Regular → Joined ctx p.mapping ⟨st.ctx.next, e, os'⟩ :=
    fun e hreg => ⟨hj.connected, hj.backend, hj.slave, hline, hidle, hreg⟩
  cases hanswered with
  | refused happly hexc =>
    have hmapping : p.mapping = m := congrArg PduReply.mapping hexc
    have hcheck := hexchange _ _ (checkConfirmation_exception hr (show 2 < exceptionMax by decide)
      rfl (congrArg PduReply.pdu hexc) rfl hprotocol rfl)
    rw [hcheck]
    have hj' := hjoined (.mb 2) (by rw [hmapping]; exact hj.regular)
    rw [hmapping] at hj'
    exact .refused happly rfl hj'
  | done answer mem happly hpdu hregular hmem =>
    have hcheck := hexchange _ _ (checkConfirmation_done hr happly rfl hpdu rfl hprotocol rfl)
    rw [hcheck]
    exact .done happly hmem rfl (hjoined st.errno hregular) hpdu

/-! ### The calls -/

/-- The client calls that read and write the memory, with the arrays of the caller. -/
inductive Call
  | readBits (addr nb : Nat) (dest : List UInt8)
  | readInputBits (addr nb : Nat) (dest : List UInt8)
  | readRegisters (addr nb : Nat) (dest : List UInt16)
  | readInputRegisters (addr nb : Nat) (dest : List UInt16)
  | writeBit (addr : Nat) (status : Int)
  | writeRegister (addr : Nat) (value : UInt16)
  | writeBits (addr nb : Nat) (src : List UInt8)
  | writeRegisters (addr nb : Nat) (src : List UInt16)
  | maskWriteRegister (addr : Nat) (andMask orMask : UInt16)
  | writeAndReadRegisters (writeAddr writeNb : Nat) (src : List UInt16) (readAddr readNb : Nat)
      (dest : List UInt16)

/-- What the caller gets: the value, `errno` when that is -1, and the contents of the array that
the call fills, if it fills one. -/
structure Returned where
  rc : Int
  errno : Option Errno
  bits : List UInt8
  registers : List UInt16
  deriving DecidableEq

namespace Call

/-- `errno` after a call that has returned `rc`. -/
def errnoOf (rc : Int) (e : Errno) : Option Errno := if rc = -1 then some e else none

/-- The call itself. -/
def run (os : Os σ) (c : Call) (st : St σ) : Run (Returned × St σ) :=
  match c with
  | readBits addr nb dest => do
    let (rc, dest, st) ← modbusReadBits os st addr nb dest
    .ok (⟨rc, errnoOf rc st.errno, dest, []⟩, st)
  | readInputBits addr nb dest => do
    let (rc, dest, st) ← modbusReadInputBits os st addr nb dest
    .ok (⟨rc, errnoOf rc st.errno, dest, []⟩, st)
  | readRegisters addr nb dest => do
    let (rc, dest, st) ← modbusReadRegisters os st addr nb dest
    .ok (⟨rc, errnoOf rc st.errno, [], dest⟩, st)
  | readInputRegisters addr nb dest => do
    let (rc, dest, st) ← modbusReadInputRegisters os st addr nb dest
    .ok (⟨rc, errnoOf rc st.errno, [], dest⟩, st)
  | writeBit addr status => do
    let (rc, st) ← modbusWriteBit os st addr status
    .ok (⟨rc, errnoOf rc st.errno, [], []⟩, st)
  | writeRegister addr value => do
    let (rc, st) ← modbusWriteRegister os st addr value
    .ok (⟨rc, errnoOf rc st.errno, [], []⟩, st)
  | writeBits addr nb src => do
    let (rc, st) ← modbusWriteBits os st addr nb src
    .ok (⟨rc, errnoOf rc st.errno, [], []⟩, st)
  | writeRegisters addr nb src => do
    let (rc, st) ← modbusWriteRegisters os st addr nb src
    .ok (⟨rc, errnoOf rc st.errno, [], []⟩, st)
  | maskWriteRegister addr andMask orMask => do
    let (rc, st) ← modbusMaskWriteRegister os st addr andMask orMask
    .ok (⟨rc, errnoOf rc st.errno, [], []⟩, st)
  | writeAndReadRegisters writeAddr writeNb src readAddr readNb dest => do
    let (rc, dest, st) ← modbusWriteAndReadRegisters os st writeAddr writeNb src readAddr readNb dest
    .ok (⟨rc, errnoOf rc st.errno, [], dest⟩, st)

/-! ### What a call means -/

/-- The request of a call. -/
def request : Call → Request
  | readBits addr nb _ => .readBits false addr nb
  | readInputBits addr nb _ => .readBits true addr nb
  | readRegisters addr nb _ => .readRegisters false addr nb
  | readInputRegisters addr nb _ => .readRegisters true addr nb
  | writeBit addr status => .writeBit addr (decide (status ≠ 0))
  | writeRegister addr value => .writeRegister addr value
  | writeBits addr nb src => .writeBits addr ((src.take nb).map bitOf)
  | writeRegisters addr nb src => .writeRegisters addr (src.take nb)
  | maskWriteRegister addr andMask orMask => .maskWrite addr andMask orMask
  | writeAndReadRegisters writeAddr writeNb src readAddr readNb _ =>
    .writeAndRead readAddr readNb writeAddr (src.take writeNb)

/-- The number of values the call is about, 1 for single and mask writes. -/
def count : Call → Nat
  | readBits _ nb _ => nb
  | readInputBits _ nb _ => nb
  | readRegisters _ nb _ => nb
  | readInputRegisters _ nb _ => nb
  | writeBits _ nb _ => nb
  | writeRegisters _ nb _ => nb
  | writeAndReadRegisters _ _ _ _ readNb _ => readNb
  | _ => 1

/-- The array of bits the call fills. -/
def bits : Call → List UInt8
  | readBits _ _ dest => dest
  | readInputBits _ _ dest => dest
  | _ => []

/-- The array of registers the call fills. -/
def registers : Call → List UInt16
  | readRegisters _ _ dest => dest
  | readInputRegisters _ _ dest => dest
  | writeAndReadRegisters _ _ _ _ _ dest => dest
  | _ => []

/-- What the caller gets for an answer: the values at the front of the array, the rest of it as
it was. -/
def returned (c : Call) : Response → Returned
  | .bits values =>
    ⟨c.count, none, values.map bitByte ++ c.bits.drop values.length, c.registers⟩
  | .registers values => ⟨c.count, none, c.bits, values ++ c.registers.drop values.length⟩
  | .written => ⟨c.count, none, c.bits, c.registers⟩

/-- What the caller gets when a cell is missing; the arrays are as they were. -/
def refused (c : Call) : Returned := ⟨-1, some .EMBXILADD, c.bits, c.registers⟩

/-- **The call on the memory.** -/
def spec (c : Call) (mem : Memory) : Returned × Memory :=
  match c.request.apply mem with
  | some (answer, mem) => (c.returned answer, mem)
  | none => (c.refused, mem)

/-- Addresses of 16 bits, counts that the call accepts, and arrays that are long enough. -/
def Valid : Call → Prop
  | readBits addr nb dest => addr ≤ 65535 ∧ (1 ≤ nb ∧ nb ≤ maxReadBits) ∧ nb ≤ dest.length
  | readInputBits addr nb dest => addr ≤ 65535 ∧ (1 ≤ nb ∧ nb ≤ maxReadBits) ∧ nb ≤ dest.length
  | readRegisters addr nb dest =>
    addr ≤ 65535 ∧ (1 ≤ nb ∧ nb ≤ maxReadRegisters) ∧ nb ≤ dest.length
  | readInputRegisters addr nb dest =>
    addr ≤ 65535 ∧ (1 ≤ nb ∧ nb ≤ maxReadRegisters) ∧ nb ≤ dest.length
  | writeBit addr _ => addr ≤ 65535
  | writeRegister addr _ => addr ≤ 65535
  | writeBits addr nb src => addr ≤ 65535 ∧ (1 ≤ nb ∧ nb ≤ maxWriteBits) ∧ nb ≤ src.length
  | writeRegisters addr nb src =>
    addr ≤ 65535 ∧ (1 ≤ nb ∧ nb ≤ maxWriteRegisters) ∧ nb ≤ src.length
  | maskWriteRegister addr _ _ => addr ≤ 65535
  | writeAndReadRegisters writeAddr writeNb src readAddr readNb dest =>
    (writeAddr ≤ 65535 ∧ (1 ≤ writeNb ∧ writeNb ≤ maxWrWriteRegisters) ∧ writeNb ≤ src.length) ∧
      readAddr ≤ 65535 ∧ (1 ≤ readNb ∧ readNb ≤ maxWrReadRegisters) ∧ readNb ≤ dest.length

theorem Valid.request {c : Call} (h : c.Valid) : c.request.Valid := by
  cases c with
  | readBits addr nb dest => exact ⟨h.1, h.2.1⟩
  | readInputBits addr nb dest => exact ⟨h.1, h.2.1⟩
  | readRegisters addr nb dest => exact ⟨h.1, h.2.1⟩
  | readInputRegisters addr nb dest => exact ⟨h.1, h.2.1⟩
  | writeBit addr status => exact h
  | writeRegister addr value => exact h
  | writeBits addr nb src =>
    have hlen : ((src.take nb).map bitOf).length = nb := by
      rw [List.length_map, List.length_take, Nat.min_eq_left h.2.2]
    refine ⟨h.1, ?_⟩
    rw [hlen]
    exact h.2.1
  | writeRegisters addr nb src =>
    have hlen : (src.take nb).length = nb := by
      rw [List.length_take, Nat.min_eq_left h.2.2]
    refine ⟨h.1, ?_⟩
    rw [hlen]
    exact h.2.1
  | maskWriteRegister addr andMask orMask => exact h
  | writeAndReadRegisters writeAddr writeNb src readAddr readNb dest =>
    have hlen : (src.take writeNb).length = writeNb := by
      rw [List.length_take, Nat.min_eq_left h.1.2.2]
    refine ⟨h.2.1, h.2.2.1, h.1.1, ?_⟩
    rw [hlen]
    exact h.1.2.1

end Call

/-! ### Client and server give what the memory gives -/

/-- A call is its exchange and what it does with the outcome. -/
theorem Exchanged.finish {ctx : Modbus} {m : Mapping} {be : Backend} {c : Call} {r : Request}
    {x : Run (Int × List UInt8 × St (Peered (Run Server)))} (hx : Exchanged ctx m be r x)
    (hreq : c.request = r)
    (k : Int × List UInt8 × St (Peered (Run Server)) → Run (Returned × St (Peered (Run Server))))
    (hdone : ∀ {answer mem a st}, r.apply m.memory = some (answer, mem) →
      st.ctx.backend = be → a.pdu = r.function :: r.answerData answer →
      k (r.count, Adu.bytes be a, st) = .ok (c.returned answer, st))
    (hrefused : ∀ {rsp st}, st.errno = .EMBXILADD → k (-1, rsp, st) = .ok (c.refused, st)) :
    ∃ st' m', (x >>= k) = .ok ((c.spec m.memory).1, st') ∧ m'.memory = (c.spec m.memory).2 ∧
      Joined ctx m' st' := by
  subst hreq
  cases hx with
  | @done answer mem m' a st happly hmem hbe hjoined ha =>
    have hspec : c.spec m.memory = (c.returned answer, mem) := by
      simp only [Call.spec, happly]
    refine ⟨st, m', ?_, ?_, hjoined⟩
    · rw [ok_bind, hdone happly hbe ha, hspec]
    · rw [hspec, hmem]
  | @refused rsp st happly herrno hjoined =>
    have hspec : c.spec m.memory = (c.refused, m.memory) := by
      simp only [Call.spec, happly]
    refine ⟨st, m, ?_, ?_, hjoined⟩
    · rw [ok_bind, hrefused herrno, hspec]
    · rw [hspec]

section Steps

variable {fuel : Nat} {ver : VersionString} {ctx : Modbus} {m : Mapping}
  {st : St (Peered (Run Server))}

/-- The frame that a call builds, when its request begins with these five bytes. -/
theorem Joined.build (hj : Joined ctx m st) (function : Nat) (addr nb : Int) (pdu : List UInt8) :
    buildRequestBasis st.ctx function addr nb =
      .ok ((requestAdu st.ctx pdu).header st.ctx.backend ++ [lo function, hi addr, lo addr, hi nb, lo nb],
        st.ctx.next) := by
  refine buildRequestBasis_adu (fun h => ?_) function addr nb pdu
  have := (hj.slave h).1
  omega

theorem errnoOf_count (n : Nat) (e : Errno) : Call.errnoOf (n : Int) e = none :=
  if_neg (by omega)

/-- Reading bits, of either kind. -/
theorem readBits_spec (hf : 0 < fuel) (hj : Joined ctx m st) (isInput : Bool) {addr nb : Nat}
    {dest : List UInt8} (ha : addr ≤ 65535) (hnb : 1 ≤ nb ∧ nb ≤ maxReadBits)
    (hdest : nb ≤ dest.length) {c : Call} (hreq : c.request = .readBits isInput addr nb)
    (hcount : c.count = nb) (hbits : c.bits = dest) (hregisters : c.registers = []) :
    ∃ st' m', (do
        let (rc, dest, st) ← readBits (peerOs fuel (serverReact fuel ver)) st
          (Request.readBits isInput addr nb).function.toNat addr nb dest
        .ok ((⟨rc, Call.errnoOf rc st.errno, dest, []⟩ : Returned), st)) =
      .ok ((c.spec m.memory).1, st') ∧ m'.memory = (c.spec m.memory).2 ∧ Joined ctx m' st' := by
  have hvalid : (Request.readBits isInput addr nb).Valid := ⟨ha, hnb⟩
  have hlimit : ¬ ((nb : Int) < 1 ∨ (maxReadBits : Int) < nb) := by
    have := hnb.2
    simp only [maxReadBits] at this ⊢
    omega
  have hbuild := hj.build (Request.readBits isInput addr nb).function.toNat addr nb
    (Request.readBits isInput addr nb).pdu
  rw [lo_toNat] at hbuild
  simp only [readBits, if_neg hlimit, readIoStatus, hbuild, ok_bind, bind_assoc]
  refine (exchange_request hf ver hj hvalid).finish hreq _ ?_ ?_
  · intro answer mem a st' happly hbe ha
    obtain ⟨vs, hvs, he⟩ := Option.map_eq_some_iff.mp happly
    cases he
    have hlen : vs.length = nb := Cells.length_of_slice hvs
    subst hlen
    have hdrop : (a.bytes st.ctx.backend).drop (st.ctx.backend.headerLength + 2) =
        packBits vs ++ a.checksum st.ctx.backend := by
      rw [Adu.drop_bytes a (by rw [ha]; exact Nat.le_add_left 2 _), ha]
      rfl
    have hloop := readBitsLoop_all (bitsAt_packBits hdrop) hdest
    have hrc : ¬ ((((vs.length + 7) / 8 : Nat) : Int)) = -1 := by omega
    simp only [Request.count, if_neg hrc, Int.toNat_natCast, hbe, hloop, ok_bind, errnoOf_count,
      Call.returned, hcount, hbits, hregisters]
  · intro rsp st' herrno
    simp only [if_true, ok_bind, Call.errnoOf, herrno, Call.refused, hbits, hregisters]

/-- The registers of an answer go to the caller. -/
theorem storeRegisters_answer (be : Backend) {a : Adu} {function : UInt8} {dest vs : List UInt16}
    (ha : a.pdu = function :: lo (bigEndian vs).length :: bigEndian vs)
    (hfit : vs.length ≤ dest.length) :
    storeRegisters (a.bytes be) be.headerLength 0 vs.length dest =
      .ok (vs ++ dest.drop vs.length) := by
  have hdrop : (a.bytes be).drop (be.headerLength + 2 + 2 * 0) =
      bigEndian vs ++ a.checksum be := by
    show (a.bytes be).drop (be.headerLength + 2) = _
    rw [Adu.drop_bytes a (by rw [ha]; exact Nat.le_add_left 2 _), ha]
    rfl
  have hloop : storeRegisters (a.bytes be) be.headerLength 0 vs.length (splice dest 0 []) =
      .ok (splice dest 0 ([] ++ vs)) :=
    storeRegisters_splice rfl (by omega) hdrop
  rw [splice_nil, List.nil_append, splice_zero] at hloop
  exact hloop

/-- Reading registers, of either kind. -/
theorem readRegisters_spec (hf : 0 < fuel) (hj : Joined ctx m st) (isInput : Bool) {addr nb : Nat}
    {dest : List UInt16} (ha : addr ≤ 65535) (hnb : 1 ≤ nb ∧ nb ≤ maxReadRegisters)
    (hdest : nb ≤ dest.length) {c : Call} (hreq : c.request = .readRegisters isInput addr nb)
    (hcount : c.count = nb) (hbits : c.bits = []) (hregisters : c.registers = dest) :
    ∃ st' m', (do
        let (rc, dest, st) ← readAnyRegisters (peerOs fuel (serverReact fuel ver)) st
          (Request.readRegisters isInput addr nb).function.toNat addr nb dest
        .ok ((⟨rc, Call.errnoOf rc st.errno, [], dest⟩ : Returned), st)) =
      .ok ((c.spec m.memory).1, st') ∧ m'.memory = (c.spec m.memory).2 ∧ Joined ctx m' st' := by
  have hvalid : (Request.readRegisters isInput addr nb).Valid := ⟨ha, hnb⟩
  have hmax : ¬ (maxReadRegisters : Int) < nb := by
    have := hnb.2
    omega
  have hlimit : ¬ ((nb : Int) < 1 ∨ (maxReadRegisters : Int) < nb) := by omega
  have hbuild := hj.build (Request.readRegisters isInput addr nb).function.toNat addr nb
    (Request.readRegisters isInput addr nb).pdu
  rw [lo_toNat] at hbuild
  simp only [readAnyRegisters, if_neg hlimit, readRegistersCall, if_neg hmax, hbuild, ok_bind,
    bind_assoc]
  refine (exchange_request hf ver hj hvalid).finish hreq _ ?_ ?_
  · intro answer mem a st' happly hbe ha
    obtain ⟨vs, hvs, he⟩ := Option.map_eq_some_iff.mp happly
    cases he
    have hlen : vs.length = nb := Cells.length_of_slice hvs
    subst hlen
    have hloop := storeRegisters_answer st.ctx.backend ha hdest
    have hrc : ¬ ((vs.length : Nat) : Int) = -1 := by omega
    simp only [Request.count, if_neg hrc, Int.toNat_natCast, hbe, hloop, ok_bind, errnoOf_count,
      Call.returned, hcount, hbits, hregisters]
  · intro rsp st' herrno
    simp only [if_true, ok_bind, Call.errnoOf, herrno, Call.refused, hbits, hregisters]

/-- The registers of the caller go into the request. -/
theorem putRegisters_taken {src : List UInt16} {nb : Nat} (h : nb ≤ src.length) :
    putRegisters src 0 nb = .ok (bigEndian (src.take nb)) := by
  have hlen : (src.take nb).length = nb := by
    rw [List.length_take, Nat.min_eq_left h]
  have hloop := putRegisters_bigEndian (k := 0) (List.take_append_drop nb src).symm
  rw [hlen] at hloop
  exact hloop

/-- A request without a count ends behind the address. -/
theorem take_basis (header : List UInt8) (a b c d e : UInt8) :
    (header ++ [a, b, c, d, e]).take ((header ++ [a, b, c, d, e]).length - 2) =
      header ++ [a, b, c] := by
  have hsplit : header ++ [a, b, c, d, e] = (header ++ [a, b, c]) ++ [d, e] := by
    rw [List.append_assoc]
    rfl
  rw [hsplit]
  exact List.take_left' (by simp only [List.length_append, List.length_cons, List.length_nil]; omega)

theorem written_of_map {α : Type} {o : Option α} {f : α → Memory} {answer : Response}
    {mem : Memory} (h : o.map (fun v => (Response.written, f v)) = some (answer, mem)) :
    answer = .written := by
  obtain ⟨v, -, he⟩ := Option.map_eq_some_iff.mp h
  cases he
  rfl

/-- Writing, once the frame is there: there is nothing left but the value. -/
theorem write_spec (hf : 0 < fuel) (hj : Joined ctx m st) {c : Call} {r : Request}
    (hreq : c.request = r) (hvalid : r.Valid) (hcount : c.count = r.count)
    (hwritten : ∀ {answer mem}, r.apply m.memory = some (answer, mem) → answer = .written)
    (hbits : c.bits = []) (hregisters : c.registers = []) :
    ∃ st' m', (do
        let (rc, _, st) ← exchange (peerOs fuel (serverReact fuel ver))
          { st with ctx := st.ctx.next } ((requestAdu st.ctx r.pdu).header st.ctx.backend ++ r.pdu)
        .ok ((⟨rc, Call.errnoOf rc st.errno, [], []⟩ : Returned), st)) =
      .ok ((c.spec m.memory).1, st') ∧ m'.memory = (c.spec m.memory).2 ∧ Joined ctx m' st' := by
  refine (exchange_request hf ver hj hvalid).finish hreq _ ?_ ?_
  · intro answer mem a st' happly hbe ha
    rw [hwritten happly]
    simp only [errnoOf_count, Call.returned, hcount, hbits, hregisters]
  · intro rsp st' herrno
    simp only [if_true, Call.errnoOf, herrno, Call.refused, hbits, hregisters]

/-- **One call.** -/
theorem Call.run_spec (hf : 0 < fuel) (hj : Joined ctx m st) (c : Call) (hc : c.Valid) :
    ∃ st' m', c.run (peerOs fuel (serverReact fuel ver)) st = .ok ((c.spec m.memory).1, st') ∧
      m'.memory = (c.spec m.memory).2 ∧ Joined ctx m' st' := by
  have hvalid := hc.request
  cases c with
  | readBits addr nb dest => exact readBits_spec hf hj false hc.1 hc.2.1 hc.2.2 rfl rfl rfl rfl
  | readInputBits addr nb dest => exact readBits_spec hf hj true hc.1 hc.2.1 hc.2.2 rfl rfl rfl rfl
  | readRegisters addr nb dest =>
    exact readRegisters_spec hf hj false hc.1 hc.2.1 hc.2.2 rfl rfl rfl rfl
  | readInputRegisters addr nb dest =>
    exact readRegisters_spec hf hj true hc.1 hc.2.1 hc.2.2 rfl rfl rfl rfl
  | writeBit addr status =>
    -- any value but 0 is sent as 0xFF00
    have hbuild := hj.build fcWriteSingleCoil addr
      (if status ≠ 0 then (0xFF00 : UInt16) else 0).toNat
      (Request.writeBit addr (decide (status ≠ 0))).pdu
    have hpdu : (Request.writeBit addr (decide (status ≠ 0))).pdu =
        [lo fcWriteSingleCoil, hi addr, lo addr,
          hi (if status ≠ 0 then (0xFF00 : UInt16) else 0).toNat,
          lo (if status ≠ 0 then (0xFF00 : UInt16) else 0).toNat] := by
      by_cases h : status ≠ 0
      · rw [decide_eq_true h, if_pos h]
        rfl
      · rw [decide_eq_false h, if_neg h]
        rfl
    rw [← hpdu] at hbuild
    simp only [Call.run, modbusWriteBit, writeSingle, hbuild, ok_bind, bind_assoc]
    exact write_spec hf hj rfl hvalid rfl written_of_map rfl rfl
  | writeRegister addr value =>
    have hbuild := hj.build fcWriteSingleRegister addr value.toNat
      (Request.writeRegister addr value).pdu
    simp only [Call.run, modbusWriteRegister, writeSingle, hbuild, ok_bind, bind_assoc]
    exact write_spec hf hj rfl hvalid rfl written_of_map rfl rfl
  -- of the source only the first `nb` values are read
  | writeBits addr nb src =>
    obtain ⟨-, ⟨hmin, hmax⟩, hsrc⟩ := hc
    have hlimit : ¬ ((nb : Int) < 1 ∨ (maxWriteBits : Int) < nb) := by omega
    have hlen : (src.take nb).length = nb := by
      rw [List.length_take, Nat.min_eq_left hsrc]
    have hbuild := hj.build fcWriteMultipleCoils addr nb
      (Request.writeBits addr ((src.take nb).map bitOf)).pdu
    have hcount : nb / 8 + (if nb % 8 ≠ 0 then 1 else 0) = (nb + 7) / 8 := by
      split_ifs <;> omega
    have hbytes : packBytesLoop src nb ((nb + 7) / 8) 0 = .ok (packBits ((src.take nb).map bitOf)) :=
      packBytesLoop_packBits (by rw [hlen]) (by rw [hlen, Nat.zero_add])
        (List.take_append_drop nb src).symm
    have hpdu : (Request.writeBits addr ((src.take nb).map bitOf)).pdu =
        [lo fcWriteMultipleCoils, hi addr, lo addr, hi nb, lo nb] ++
          lo ((nb + 7) / 8 : Nat) :: packBits ((src.take nb).map bitOf) := by
      simp only [Request.pdu, Request.data, List.length_map, length_packBits, hlen]
      rfl
    simp only [Call.run, modbusWriteBits, if_neg hlimit, hbuild, ok_bind, bind_assoc,
      Int.toNat_natCast, hcount, hbytes, List.append_assoc, ← hpdu]
    refine write_spec hf hj rfl hvalid ?_ written_of_map rfl rfl
    show nb = ((src.take nb).map bitOf).length
    rw [List.length_map, hlen]
  | writeRegisters addr nb src =>
    obtain ⟨-, ⟨hmin, hmax⟩, hsrc⟩ := hc
    have hlimit : ¬ ((nb : Int) < 1 ∨ (maxWriteRegisters : Int) < nb) := by omega
    have hlen : (src.take nb).length = nb := by
      rw [List.length_take, Nat.min_eq_left hsrc]
    have hbuild := hj.build fcWriteMultipleRegisters addr nb
      (Request.writeRegisters addr (src.take nb)).pdu
    have hpdu : (Request.writeRegisters addr (src.take nb)).pdu =
        [lo fcWriteMultipleRegisters, hi addr, lo addr, hi nb, lo nb] ++
          lo ((nb : Int) * 2) :: bigEndian (src.take nb) := by
      have htwice : (nb : Int) * 2 = ((2 * nb : Nat) : Int) := by omega
      simp only [Request.pdu, Request.data, length_bigEndian, hlen, htwice]
      rfl
    simp only [Call.run, modbusWriteRegisters, if_neg hlimit, hbuild, ok_bind, bind_assoc,
      Int.toNat_natCast, putRegisters_taken hsrc, List.append_assoc, ← hpdu]
    exact write_spec hf hj rfl hvalid hlen.symm written_of_map rfl rfl
  | maskWriteRegister addr andMask orMask =>
    have hbuild := hj.build fcMaskWriteRegister addr 0
      (Request.maskWrite addr andMask orMask).pdu
    simp only [Call.run, modbusMaskWriteRegister, hbuild, ok_bind, bind_assoc, take_basis,
      List.append_assoc]
    exact write_spec hf hj rfl hvalid rfl written_of_map rfl rfl
  | writeAndReadRegisters writeAddr writeNb src readAddr readNb dest =>
    obtain ⟨⟨-, ⟨hwmin, hwmax⟩, hsrc⟩, -, ⟨hrmin, hrmax⟩, hdest⟩ := hc
    have hpositive : ¬ ((writeNb : Int) < 1 ∨ (readNb : Int) < 1) := by omega
    have hwlimit : ¬ (maxWrWriteRegisters : Int) < writeNb := by omega
    have hrlimit : ¬ (maxWrReadRegisters : Int) < readNb := by omega
    have hlen : (src.take writeNb).length = writeNb := by
      rw [List.length_take, Nat.min_eq_left hsrc]
    have hbuild := hj.build fcWriteAndReadRegisters readAddr readNb
      (Request.writeAndRead readAddr readNb writeAddr (src.take writeNb)).pdu
    have hpdu : (Request.writeAndRead readAddr readNb writeAddr (src.take writeNb)).pdu =
        [lo fcWriteAndReadRegisters, hi readAddr, lo readAddr, hi readNb, lo readNb] ++
          ([hi writeAddr, lo writeAddr, hi writeNb, lo writeNb, lo ((writeNb : Int) * 2)] ++
            bigEndian (src.take writeNb)) := by
      have htwice : (writeNb : Int) * 2 = ((2 * writeNb : Nat) : Int) := by omega
      simp only [Request.pdu, Request.data, length_bigEndian, hlen, htwice]
      rfl
    simp only [Call.run, modbusWriteAndReadRegisters, if_neg hpositive, if_neg hwlimit,
      if_neg hrlimit, hbuild, ok_bind, bind_assoc, Int.toNat_natCast,
      putRegisters_taken hsrc, List.append_assoc, ← hpdu]
    -- the only call that both writes and stores what it reads
    refine (exchange_request hf ver hj hvalid).finish rfl _ ?_ ?_
    · intro answer mem a st' happly hbe ha
      obtain ⟨old, -, h⟩ := Option.bind_eq_some_iff.mp happly
      obtain ⟨old', -, h⟩ := Option.bind_eq_some_iff.mp h
      obtain ⟨vs, hvs, he⟩ := Option.map_eq_some_iff.mp h
      cases he
      have hvslen : vs.length = readNb := Cells.length_of_slice hvs
      subst hvslen
      have hloop := storeRegisters_answer st.ctx.backend ha hdest
      have hrc : ¬ ((vs.length : Nat) : Int) = -1 := by omega
      simp only [Call.request, Request.count, if_neg hrc, Int.toNat_natCast, hbe, hloop, ok_bind,
        errnoOf_count, Call.returned, Call.count, Call.bits, Call.registers]
    · intro rsp st' herrno
      simp only [if_true, ok_bind, Call.errnoOf, herrno, Call.refused, Call.bits, Call.registers]

/-- **Client and server refine the memory.**  On every run of calls they return what the calls
return on the memory of the server, and leave the memory that these leave. -/
theorem memory_refinement (hf : 0 < fuel) (hj : Joined ctx m st) {calls : List Call}
    (hcalls : ∀ c ∈ calls, c.Valid) :
    ∃ st' m', runs (Call.run (peerOs fuel (serverReact fuel ver))) calls st =
        .ok ((specRuns Call.spec calls m.memory).1, st') ∧
      m'.memory = (specRuns Call.spec calls m.memory).2 ∧ Joined ctx m' st' := by
  have hstep : ∀ {c : Call} {s : St (Peered (Run Server))} {mem : Memory}, c.Valid →
      (∃ m, Joined ctx m s ∧ m.memory = mem) →
      ∃ s', c.run (peerOs fuel (serverReact fuel ver)) s = .ok ((c.spec mem).1, s') ∧
        ∃ m, Joined ctx m s' ∧ m.memory = (c.spec mem).2 := by
    rintro c s mem hc ⟨m, hj, rfl⟩
    obtain ⟨s', m', hrun, hmem, hj'⟩ := c.run_spec hf hj hc
    exact ⟨s', hrun, m', hj', hmem⟩
  have hrun : ∃ st', runs (Call.run (peerOs fuel (serverReact fuel ver))) calls st =
      .ok ((specRuns Call.spec calls m.memory).1, st') ∧
      ∃ m', Joined ctx m' st' ∧ m'.memory = (specRuns Call.spec calls m.memory).2 :=
    runs_of_simulation (R := fun s mem => ∃ m, Joined ctx m s ∧ m.memory = mem) hstep hcalls
      ⟨m, hj, rfl⟩
  obtain ⟨st', hrun, m', hj', hmem⟩ := hrun
  exact ⟨st', m', hrun, hmem, hj'⟩

end Steps

/-- A client and a server with four coils and ten registers on one line. -/
theorem joined_sample : Joined (sampleSt .rtu 17 []).ctx sampleMapping
    ⟨(sampleSt .rtu 17 []).ctx, .sys (.other 0),
      ⟨(sampleSt .rtu 17 []).os, .ok (sampleSt .rtu 17 [], sampleMapping)⟩⟩ :=
  ⟨connected_sampleSt .rtu 17 [], rfl, fun _ => ⟨by decide, by decide, rfl⟩, rfl,
    ⟨⟨_, rfl, rfl, rfl, rfl⟩, connected_sampleSt .rtu 17 [], fun _ _ => rfl⟩,
    regular_sampleMapping⟩

/-- Two writes are read back, and the last call asks for a register behind the table. -/
theorem memory_refinement_sample :
    ∃ st', runs (Call.run (peerOs 1 (serverReact 1 ⟨[], by decide⟩)))
        [.writeRegister 101 0x0102, .writeBits 1 2 [1, 0], .readRegisters 101 2 [5, 5, 5],
          .readBits 0 4 [7, 7, 7, 7, 7], .readRegisters 109 2 [5, 5]]
        ⟨(sampleSt .rtu 17 []).ctx, .sys (.other 0),
          ⟨(sampleSt .rtu 17 []).os, .ok (sampleSt .rtu 17 [], sampleMapping)⟩⟩ =
      .ok ([⟨1, none, [], []⟩, ⟨2, none, [], []⟩, ⟨2, none, [], [0x0102, 0, 5]⟩,
        ⟨4, none, [0, 1, 0, 0, 7], []⟩, ⟨-1, some .EMBXILADD, [], [5, 5]⟩], st') := by
  have hcalls : ∀ c ∈ [Call.writeRegister 101 0x0102, .writeBits 1 2 [1, 0],
      .readRegisters 101 2 [5, 5, 5], .readBits 0 4 [7, 7, 7, 7, 7], .readRegisters 109 2 [5, 5]],
      c.Valid := by
    simp [Call.Valid, maxReadBits, maxWriteBits, maxReadRegisters]
  obtain ⟨st', -, hrun, -⟩ := memory_refinement Nat.one_pos joined_sample hcalls
  exact ⟨st', hrun⟩

end Libmodbus
