/-
Libmodbus/Exceptions.lean

What a response looks like from outside.  Every response of the server is an
exception, two bytes with 0x80 added to the function code of the request, or a
normal response that begins with that function code and has the shape the
protocol gives it (`servePdu_outcome`).

0x80 is added to an `int` and the sum is cut to a byte.  For a function code
below 0x80 that sets bit 7, and the client reads the response as an exception;
from 0x80 on it clears bit 7, and the response looks like the normal response
to another function.  `exception_recognisable_iff` states this as an
equivalence for every request, once for what `modbus_reply` hands over and once
for what `modbus_reply_exception` does.
-/
import Libmodbus.Server
import Libmodbus.Streams
import Libmodbus.Traces

namespace Libmodbus

open CSem Wire Posix

variable {σ : Type} {be : Backend}

/-! ### Lengths of the data in a response -/

theorem length_ioStatusLoop {tab : List UInt8} {n : Nat} {i : Int} {shift oneByte : Nat}
    {bytes : List UInt8} (hshift : shift ≤ 7)
    (h : ioStatusLoop tab i n shift oneByte = .ok bytes) :
    bytes.length = (shift + n + 7) / 8 := by
  induction n generalizing i shift oneByte bytes with
  | zero =>
    cases h
    split_ifs with h0
    · show 1 = _
      omega
    · show 0 = _
      omega
  | succ n ih =>
    rw [ioStatusLoop] at h
    obtain ⟨v, -, h⟩ := bind_eq_ok.mp h
    by_cases h7 : shift = 7
    · rw [if_pos h7] at h
      obtain ⟨rest, hrest, h⟩ := bind_eq_ok.mp h
      cases h
      rw [List.length_cons, ih (by omega) hrest]
      omega
    · rw [if_neg h7] at h
      rw [ih (by omega) h]
      omega

theorem length_readRegisters {tab : List UInt16} {i : Int} {n : Nat} {bytes : List UInt8}
    (h : readRegisters tab i n = .ok bytes) : bytes.length = 2 * n := by
  induction n generalizing i bytes with
  | zero =>
    cases h
    rfl
  | succ n ih =>
    rw [readRegisters] at h
    obtain ⟨v, -, h⟩ := bind_eq_ok.mp h
    obtain ⟨rest, hrest, h⟩ := bind_eq_ok.mp h
    cases h
    rw [List.length_cons, List.length_cons, ih hrest]
    omega

theorem toNat_lo_nat {n : Nat} (h : n < 256) : (lo n).toNat = n := by
  have := toNat_lo n
  omega

theorem length_rdSlice {buf bytes : List UInt8} {off n : Nat} (h : rdSlice buf off n = .ok bytes) :
    bytes.length = n := by
  unfold rdSlice at h
  split_ifs at h with hle
  cases h
  rw [List.length_take, List.length_drop]
  omega

/-! ### Every response is an exception or has the shape of one -/

/-- What the server may answer to a request with this function code. -/
inductive Outcome (function : UInt8) (m : Mapping) (p : PduReply) : Prop
  | exception (code : Nat) (toFlush : Bool) (hcode : code < exceptionMax)
      (hp : p = exceptionPdu function.toNat code toFlush m)
  | normal (data : List UInt8) (hpdu : p.pdu = function :: data) (hshape : ResponsePdu p.pdu)
      (hlen : p.pdu.length ≤ maxPduLength) (hfun : function.toNat < 0x80)

/-- The computation answers with an outcome, if it answers. -/
def Answers (function : UInt8) (m : Mapping) (x : Run PduReply) : Prop :=
  Ends x (Outcome function m) fun _ => True

theorem answers_exception {function : UInt8} {m : Mapping} {code : Nat} {toFlush : Bool}
    (h : code < exceptionMax) :
    Answers function m (.ok (exceptionPdu function.toNat code toFlush m)) :=
  Ends.ok (.exception code toFlush h rfl)

section Outcomes

variable {function : UInt8} {pdu : List UInt8} {m : Mapping}

theorem serveReadBits_outcome {isInput : Bool} (hf : function = 0x01 ∨ function = 0x02) :
    Answers function m (serveReadBits function.toNat pdu m isInput) := by
  refine .seq fun address _ => .seq fun nb _ => .seq fun mappingAddress _ => ?_
  refine .ite (fun _ => answers_exception (by decide)) fun hnb => .seq fun outside _ => ?_
  refine .ite (fun _ => answers_exception (by decide)) fun _ => .seq fun status hstatus => .ok ?_
  have hlen := length_ioStatusLoop (by decide) hstatus
  have hcount : nb / 8 + (if nb % 8 ≠ 0 then 1 else 0) = status.length := by
    split_ifs <;> omega
  have hnb' : nb ≤ 2000 := Nat.le_of_not_lt fun h => hnb (Or.inr h)
  rw [hcount, lo_toNat]
  refine .normal _ rfl ?_ ?_ ?_
  · refine .values (by tauto) _ _ ?_
    rw [toNat_lo_nat (by omega)]
  · show status.length + 1 + 1 ≤ 253
    omega
  · rcases hf with rfl | rfl <;> decide

theorem serveReadRegisters_outcome {isInput : Bool} (hf : function = 0x03 ∨ function = 0x04) :
    Answers function m (serveReadRegisters function.toNat pdu m isInput) := by
  refine .seq fun address _ => .seq fun nb _ => .seq fun mappingAddress _ => ?_
  refine .ite (fun _ => answers_exception (by decide)) fun hnb => .seq fun outside _ => ?_
  refine .ite (fun _ => answers_exception (by decide)) fun _ => .seq fun values hvalues => .ok ?_
  have hlen := length_readRegisters hvalues
  have hnb' : nb ≤ 125 := Nat.le_of_not_lt fun h => hnb (Or.inr h)
  rw [lo_toNat]
  refine .normal _ rfl ?_ ?_ ?_
  · refine .values (by tauto) _ _ ?_
    rw [toNat_lo_nat (by omega), hlen]
  · show values.length + 1 + 1 ≤ 253
    omega
  · rcases hf with rfl | rfl <;> decide

/-- A PDU of five bytes that begins with one of these function codes is its own response. -/
theorem written_of_length (hf : function = 0x05 ∨ function = 0x06 ∨ function = 0x0F ∨
    function = 0x10) {data : List UInt8} (hlen : data.length = 4) :
    ResponsePdu (function :: data) := by
  match data, hlen with
  | [ah, al, vh, vl], _ => exact .written hf ah al vh vl

/-- What is answered to a write is four bytes behind the function code. -/
theorem written_outcome (hf : function = 0x05 ∨ function = 0x06 ∨ function = 0x0F ∨
    function = 0x10) {data : List UInt8} (hlen : data.length = 4) {p : PduReply}
    (hp : p.pdu = function :: data) : Outcome function m p := by
  refine .normal data hp ?_ ?_ ?_
  · rw [hp]
    exact written_of_length hf hlen
  · rw [hp, List.length_cons, hlen]
    decide
  · rcases hf with rfl | rfl | rfl | rfl <;> decide

theorem serveWriteSingleCoil_outcome {data : List UInt8} (hf : function = 0x05) :
    Answers function m (serveWriteSingleCoil function.toNat (function :: data) m) := by
  refine .seq fun address _ => .seq fun mappingAddress _ => ?_
  refine .ite (fun _ => answers_exception (by decide)) fun _ => ?_
  refine .ite (fun _ => answers_exception (by decide)) fun hlen => .seq fun value _ => ?_
  refine .ite (fun _ => .seq fun bits _ => .ok ?_) fun _ => answers_exception (by decide)
  exact written_outcome (by tauto) (Nat.succ.inj (not_not.mp hlen)) rfl

theorem serveWriteSingleRegister_outcome {data : List UInt8} (hf : function = 0x06) :
    Answers function m (serveWriteSingleRegister function.toNat (function :: data) m) := by
  refine .seq fun address _ => .seq fun mappingAddress _ => ?_
  refine .ite (fun _ => answers_exception (by decide)) fun _ => ?_
  refine .ite (fun _ => answers_exception (by decide)) fun hlen => .seq fun value _ => ?_
  refine .seq fun registers _ => .ok ?_
  exact written_outcome (by tauto) (Nat.succ.inj (not_not.mp hlen)) rfl

theorem serveWriteMultipleCoils_outcome (hf : function = 0x0F) :
    Answers function m (serveWriteMultipleCoils function.toNat pdu m) := by
  refine .seq fun address _ => .seq fun nb _ => .seq fun nbBits _ => ?_
  refine .seq fun mappingAddress _ => .ite (fun _ => answers_exception (by decide)) fun _ => ?_
  refine .seq fun outside _ => .ite (fun _ => answers_exception (by decide)) fun _ => ?_
  refine .seq fun bits _ => .seq fun echo hecho => .ok ?_
  exact written_outcome (by tauto) (length_rdSlice hecho) (congrArg (· :: echo) (lo_toNat _))

theorem serveWriteMultipleRegisters_outcome (hf : function = 0x10) :
    Answers function m (serveWriteMultipleRegisters function.toNat pdu m) := by
  refine .seq fun address _ => .seq fun nb _ => .seq fun nbBytes _ => ?_
  refine .seq fun mappingAddress _ => .ite (fun _ => answers_exception (by decide)) fun _ => ?_
  refine .seq fun outside _ => .ite (fun _ => answers_exception (by decide)) fun _ => ?_
  refine .seq fun registers _ => .seq fun echo hecho => .ok ?_
  exact written_outcome (by tauto) (length_rdSlice hecho) (congrArg (· :: echo) (lo_toNat _))

theorem serveReportSlaveId_outcome {ver : VersionString} (hf : function = 0x11) :
    Answers function m (serveReportSlaveId function.toNat m ver) := by
  have hver := ver.length_le
  have hlen : (slaveIdData ver).length = ver.chars.length + 5 := rfl
  refine .ok ?_
  rw [lo_toNat]
  refine .normal _ rfl ?_ ?_ ?_
  · refine .values (by tauto) _ _ ?_
    rw [toNat_lo_nat (by omega)]
  · show (slaveIdData ver).length + 1 + 1 ≤ 253
    omega
  · rw [hf]
    decide

theorem serveMaskWriteRegister_outcome {data : List UInt8} (hf : function = 0x16) :
    Answers function m (serveMaskWriteRegister function.toNat (function :: data) m) := by
  refine .seq fun address _ => .seq fun mappingAddress _ => ?_
  refine .ite (fun _ => answers_exception (by decide)) fun _ => .seq fun and _ => .seq fun or _ => ?_
  refine .ite (fun _ => answers_exception (by decide)) fun hlen => .seq fun value _ => ?_
  refine .seq fun registers _ => .ok ?_
  have hlen' : data.length = 6 := Nat.succ.inj (not_not.mp hlen)
  refine .normal data rfl ?_ ?_ ?_
  · subst hf
    match data, hlen' with
    | [ah, al, mh, ml, oh, ol], _ => exact .maskWritten ah al mh ml oh ol
  · show data.length + 1 ≤ 253
    omega
  · rw [hf]
    decide

theorem serveWriteAndReadRegisters_outcome (hf : function = 0x17) :
    Answers function m (serveWriteAndReadRegisters function.toNat pdu m) := by
  refine .seq fun address _ => .seq fun nb _ => .seq fun addressWrite _ => ?_
  refine .seq fun nbWrite _ => .seq fun nbWriteBytes _ => .seq fun mappingAddress _ => ?_
  refine .seq fun mappingAddressWrite _ => .ite (fun _ => answers_exception (by decide)) fun hnb => ?_
  refine .seq fun outside _ => .ite (fun _ => answers_exception (by decide)) fun _ => ?_
  refine .seq fun outsideWrite _ => .ite (fun _ => answers_exception (by decide)) fun _ => ?_
  refine .seq fun registers _ => .seq fun values hvalues => .ok ?_
  have hlen := length_readRegisters hvalues
  have hnb' : nb ≤ 125 := Nat.le_of_not_lt fun h => hnb (by tauto)
  rw [lo_toNat]
  refine .normal _ rfl ?_ ?_ ?_
  · refine .values (by tauto) _ _ ?_
    rw [toNat_lo_nat (by omega), hlen]
  · show values.length + 1 + 1 ≤ 253
    omega
  · rw [hf]
    decide

end Outcomes

/-- **Every response is an exception or a normal response to its request.** -/
theorem servePdu_outcome (ver : VersionString) (function : UInt8) (data : List UInt8)
    (m : Mapping) : Answers function m (servePdu ver (function :: data) m) := by
  have hfc : ∀ c : UInt8, function.toNat = c.toNat → function = c := fun c => UInt8.toNat_inj.mp
  show Answers function m (if Complete (function :: data) then _ else _)
  refine .ite (fun _ => ?_) fun _ => answers_exception (by decide)
  unfold serveSwitch
  refine .ite (fun h => serveReadBits_outcome (Or.inl (hfc 0x01 h))) fun _ => ?_
  refine .ite (fun h => serveReadBits_outcome (Or.inr (hfc 0x02 h))) fun _ => ?_
  refine .ite (fun h => serveReadRegisters_outcome (Or.inl (hfc 0x03 h))) fun _ => ?_
  refine .ite (fun h => serveReadRegisters_outcome (Or.inr (hfc 0x04 h))) fun _ => ?_
  refine .ite (fun h => serveWriteSingleCoil_outcome (hfc 0x05 h)) fun _ => ?_
  refine .ite (fun h => serveWriteSingleRegister_outcome (hfc 0x06 h)) fun _ => ?_
  refine .ite (fun h => serveWriteMultipleCoils_outcome (hfc 0x0F h)) fun _ => ?_
  refine .ite (fun h => serveWriteMultipleRegisters_outcome (hfc 0x10 h)) fun _ => ?_
  refine .ite (fun h => serveReportSlaveId_outcome (hfc 0x11 h)) fun _ => ?_
  refine .ite (fun h => serveMaskWriteRegister_outcome (hfc 0x16 h)) fun _ => ?_
  refine .ite (fun h => serveWriteAndReadRegisters_outcome (hfc 0x17 h)) fun _ => ?_
  exact answers_exception (by decide)

/-! ### Bit 7 -/

/-- Below 0x80, adding 0x80 sets bit 7. -/
theorem lo_add_0x80 {function : UInt8} (h : function.toNat < 0x80) :
    lo (function.toNat + 0x80 : Nat) = function ||| 0x80 := by
  apply UInt8.toNat_inj.mp
  have h1 : (lo (function.toNat + 0x80 : Nat)).toNat = function.toNat + 0x80 :=
    toNat_lo_nat (by omega)
  have h2 : 2 ^ 7 * 1 + function.toNat = 2 ^ 7 * 1 ||| function.toNat :=
    Nat.two_pow_add_eq_or_of_lt h 1
  rw [h1, UInt8.toNat_or, Nat.or_comm]
  exact (Nat.add_comm _ _).trans h2

/-- From 0x80 on, adding 0x80 and cutting to a byte clears bit 7. -/
theorem toNat_lo_add_0x80 {function : UInt8} (h : 0x80 ≤ function.toNat) :
    (lo (function.toNat + 0x80 : Nat)).toNat < 0x80 := by
  have h1 := toNat_lo (function.toNat + 0x80 : Nat)
  have h2 := function.toNat_lt
  omega

theorem le_toNat_or_exception (function : UInt8) : 0x80 ≤ (function ||| 0x80).toNat := by
  rw [UInt8.toNat_or]
  exact Nat.right_le_or

/-- The client's tables know what the server answers to a request below 0x80. -/
theorem Outcome.framed {function : UInt8} {m : Mapping} {p : PduReply}
    (h : Outcome function m p) (hfun : function.toNat < 0x80) : Framed .confirmation p.pdu := by
  cases h with
  | exception code toFlush _ hp =>
    subst hp
    show Framed .confirmation [lo (function.toNat + 0x80 : Nat), lo code]
    rw [lo_add_0x80 hfun]
    exact framed_exception (le_toNat_or_exception function) _
  | normal data _ hshape hlen _ => exact hshape.framed hlen

/-! ### Responses as the client reads them -/

/-- A request frame that `modbus_receive` returns, on some context and system. -/
def Receivable (be : Backend) (req : List UInt8) : Prop :=
  ∃ (σ : Type) (os : Os σ) (st st' : St σ) (rc : Int), st.ctx.backend = be ∧ 0 < rc ∧
    modbusReceive os st = .ok (rc, req, st')

/-- A request that is returned went through `_modbus_receive_msg` as a request. -/
theorem modbusReceive_positive {os : Os σ} {st st' : St σ} {rc : Int} {req : List UInt8}
    (hrc : 0 < rc) (h : modbusReceive os st = .ok (rc, req, st')) :
    modbusReceiveMsg os st .indication = .ok (rc, req, st') := by
  unfold modbusReceive at h
  cases hbe : st.ctx.backend with
  | tcp =>
    rw [hbe] at h
    exact h
  | rtu =>
    rw [hbe] at h
    simp only at h
    split_ifs at h
    · obtain ⟨⟨rc', req', st₁⟩, -, h⟩ := bind_eq_ok.mp h
      cases h
      exact absurd hrc (by decide)
    · obtain ⟨⟨rc', req', st₁⟩, hrcv, h⟩ := bind_eq_ok.mp h
      simp only at h
      split_ifs at h with h0
      · cases h
        omega
      · cases h
        exact hrcv

theorem Receivable.is_adu {req : List UInt8} (h : Receivable be req) :
    ∃ a : Adu, req = a.bytes be ∧ Framed .indication a.pdu := by
  obtain ⟨σ, os, st, st', rc, hbe, hrc, h⟩ := h
  obtain ⟨a, e, s', ha, hframed, -⟩ :=
    modbusReceiveMsg_is_adu (tracked_any os) (by omega) (modbusReceive_positive hrc h)
  rw [hbe] at ha
  exact ⟨a, ha, hframed⟩

/-- Every framed PDU can be received. -/
theorem receivable_of_framed {unit : UInt8} {pdu : List UInt8} (h : Framed .indication pdu) :
    Receivable be ((rtuAdu unit pdu).bytes be) := by
  set st : St Link := sampleSt be unit.toNat ((rtuAdu unit pdu).bytes be ++ []) with hst
  have hbe : st.ctx.backend = be := rfl
  have haddr : Addressed st.ctx (rtuAdu unit pdu) := fun _ => Or.inl rfl
  obtain ⟨l, hrcv, -⟩ := receiveStep_adu (linkOs_source 1) (show 0 < 1 by decide)
    (connected_sampleSt be unit.toNat _) (fun _ _ => rfl) h haddr
    (show st.os.input = (rtuAdu unit pdu).bytes st.ctx.backend ++ [] from rfl)
  obtain ⟨⟨rc, msg, st'⟩, hrcv, he⟩ := bind_eq_ok.mp hrcv
  cases he
  refine ⟨Link, linkOs 1, st, _, _, hbe, ?_, hrcv⟩
  rw [Adu.length_bytes]
  have := List.length_pos_of_ne_nil h.ne_nil
  simp only [rtuAdu]
  omega

/-- The client's framing takes the frame off the line, and nothing behind it. -/
def ClientConsumes (be : Backend) (frame : List UInt8) : Prop :=
  ∀ {fuel : Nat} {st : St Link} {rest : List UInt8}, 0 < fuel → Connected st.ctx →
    st.ctx.backend = be → st.os.input = frame ++ rest →
    ∃ rc l, modbusReceiveMsg (linkOs fuel) st .confirmation = .ok (rc, frame, { st with os := l }) ∧
      rc ≠ -1 ∧ l.input = rest

/-- An exception response has the function code with bit 7 set and then the exception code, a
normal one begins with the function code itself, and either is framed as what it is.  `exc` are
the codes the response is an exception with. -/
structure Recognisable (be : Backend) (function : UInt8) (exc : Nat → Prop)
    (frame : List UInt8) : Prop where
  shape : ∃ r : Adu, frame = r.bytes be ∧
    (∀ code, exc code → r.pdu = [function ||| 0x80, lo code]) ∧
    ((∀ code, ¬ exc code) → ∃ data, r.pdu = function :: data)
  consumed : ClientConsumes be frame

/-- The byte behind the header tells which of the two a response is. -/
theorem Recognisable.function_byte {function : UInt8} {exc : Nat → Prop} {frame : List UInt8}
    (h : Recognisable be function exc frame) :
    ∃ b, rd frame be.headerLength = .ok b ∧ (b = function ∨ b = function ||| 0x80) := by
  obtain ⟨r, rfl, hexc, hnorm⟩ := h.shape
  have hbyte : ∀ {b data}, r.pdu = b :: data → rd (r.bytes be) be.headerLength = .ok b := by
    intro b data hpdu
    show rd (r.bytes be) (be.headerLength + 0) = _
    rw [Adu.bytes, r.rd_wrapped _ (by rw [hpdu]; exact Nat.succ_pos _), hpdu]
    rfl
  by_cases he : ∃ code, exc code
  · obtain ⟨code, hcode⟩ := he
    exact ⟨_, hbyte (hexc code hcode), Or.inr rfl⟩
  · obtain ⟨data, hpdu⟩ := hnorm fun code hcode => he ⟨code, hcode⟩
    exact ⟨_, hbyte hpdu, Or.inl rfl⟩

theorem clientConsumes_framed {r : Adu} (h : Framed .confirmation r.pdu) :
    ClientConsumes be (r.bytes be) := by
  intro fuel st rest hf hc hbe hin
  subst hbe
  obtain ⟨l, hrcv, ht, -⟩ := modbusReceiveMsg_adu (linkOs_source fuel) hf hc h hin
  refine ⟨r.verdict st.ctx, l, hrcv, ?_, List.append_cancel_left (ht.symm.trans hin)⟩
  unfold Adu.verdict
  split_ifs
  · omega
  · decide

/-- The reply is one that `response_exception` makes with this code. -/
def IsException (be : Backend) (function : UInt8) (reply : Reply) (code : Nat) : Prop :=
  ∃ (sft : Sft) (toFlush : Bool), sft.function = function.toNat ∧ code < exceptionMax ∧
    reply = responseException be sft code toFlush reply.mapping

/-- `exceptionPdu` is what `response_exception` makes. -/
theorem isException_wrap {function : UInt8} {code : Nat} {toFlush : Bool} {m : Mapping} (a : Adu)
    (hcode : code < exceptionMax) :
    IsException be function ((exceptionPdu function.toNat code toFlush m).wrap be a) code := by
  refine ⟨a.sft be function.toNat, toFlush, rfl, hcode, ?_⟩
  rw [responseException_sft]
  rfl

/-- The code is the last byte of an exception. -/
theorem IsException.lo_eq {function : UInt8} {code code' : Nat} {toFlush : Bool} {m : Mapping}
    {a : Adu}
    (h : IsException be function ((exceptionPdu function.toNat code toFlush m).wrap be a) code') :
    lo code' = lo code := by
  obtain ⟨sft, toFlush', -, -, h⟩ := h
  rw [← responseException_sft] at h
  have hlast := (List.append_inj' (congrArg Reply.rsp h) rfl).2
  exact (List.cons.inj hlast).1.symm

/-- A normal response is none of them: its function byte is that of the request. -/
theorem not_isException_wrap {function : UInt8} {p : PduReply} {data : List UInt8} (a : Adu)
    (hp : p.pdu = function :: data) (code : Nat) : ¬ IsException be function (p.wrap be a) code := by
  rintro ⟨sft, toFlush, hfun, -, h⟩
  have hrsp := congrArg Reply.rsp h
  have hbyte : rd (p.wrap be a).rsp be.headerLength = .ok function := by
    show rd ((if p.echo then a else a.blank).header be ++ p.pdu) (be.headerLength + 0) = _
    rw [rd_append_add _ _ (Adu.length_header _) (by rw [hp]; exact Nat.succ_pos _), hp]
    rfl
  have hexc : rd (responseException be sft code toFlush (p.wrap be a).mapping).rsp
      be.headerLength = .ok (lo (function.toNat + 0x80 : Nat)) := by
    rw [← hfun]
    cases be <;> rfl
  rw [hrsp, hexc] at hbyte
  have hb := congrArg UInt8.toNat (Except.ok.inj hbyte)
  have h1 := toNat_lo (function.toNat + 0x80 : Nat)
  have h2 := function.toNat_lt
  omega

/-- The frame of an exception. -/
theorem recognisable_exception {function : UInt8} {code : Nat} {toFlush : Bool} {m : Mapping}
    (a : Adu) (hfun : function.toNat < 0x80) (hcode : code < exceptionMax) {exc : Nat → Prop}
    (hexc : exc code) (hlo : ∀ code', exc code' → lo code' = lo code) :
    Recognisable be function exc
      (sendMsgPre be ((exceptionPdu function.toNat code toFlush m).wrap be a).rsp) := by
  rw [sendMsgPre_wrap]
  have hframed : Framed .confirmation (exceptionPdu function.toNat code toFlush m).pdu :=
    (Outcome.exception code toFlush hcode rfl).framed hfun
  refine ⟨⟨_, rfl, fun code' hcode' => ?_, fun hn => absurd hexc (hn code)⟩,
    clientConsumes_framed hframed⟩
  show [lo (function.toNat + 0x80 : Nat), lo code] = _
  rw [lo_add_0x80 hfun, hlo code' hcode']

/-- The reply to a request below 0x80 can be told from all others. -/
theorem recognisable_of_outcome {function : UInt8} {m : Mapping} {p : PduReply} (a : Adu)
    (hfun : function.toNat < 0x80) (h : Outcome function m p) :
    Recognisable be function (IsException be function (p.wrap be a))
      (sendMsgPre be (p.wrap be a).rsp) := by
  have hframed := h.framed hfun
  cases h with
  | exception code toFlush hcode hp =>
    subst hp
    exact recognisable_exception a hfun hcode (isException_wrap a hcode) fun _ h => h.lo_eq
  | normal data hpdu hshape hlen _ =>
    rw [sendMsgPre_wrap]
    exact ⟨⟨_, rfl, fun code he => absurd he (not_isException_wrap a hpdu code),
      fun _ => ⟨data, hpdu⟩⟩, clientConsumes_framed hframed⟩

/-- From 0x80 on an exception looks like the response to another function. -/
theorem not_recognisable_exception {function : UInt8} {code : Nat} {toFlush : Bool} {m : Mapping}
    (a : Adu) (hfun : 0x80 ≤ function.toNat) (exc : Nat → Prop) :
    ¬ Recognisable be function exc
      (sendMsgPre be ((exceptionPdu function.toNat code toFlush m).wrap be a).rsp) := by
  intro h
  rw [sendMsgPre_wrap] at h
  obtain ⟨b, hb, hor⟩ := h.function_byte
  have hsent : rd (((exceptionPdu function.toNat code toFlush m).adu a).bytes be)
      (be.headerLength + 0) = .ok (lo (function.toNat + 0x80 : Nat)) :=
    Adu.rd_wrapped _ _ (show 0 < 2 by decide)
  have hb' : lo (function.toNat + 0x80 : Nat) = b := Except.ok.inj (hsent.symm.trans hb)
  -- the byte that is sent has bit 7 clear, what is promised has it set
  have hlow := toNat_lo_add_0x80 hfun
  have hhigh := le_toNat_or_exception function
  rw [hb'] at hlow
  rcases hor with rfl | rfl
  · omega
  · omega

/-- No function code from 0x80 on is known to the server. -/
theorem servePdu_high (ver : VersionString) {function : UInt8} (hfun : 0x80 ≤ function.toNat)
    (data : List UInt8) (m : Mapping) : ∃ code toFlush,
    servePdu ver (function :: data) m = .ok (exceptionPdu function.toNat code toFlush m) := by
  obtain ⟨p, hp⟩ : ∃ p, servePdu ver (function :: data) m = .ok p := by
    rw [servePdu, rd_cons_zero, ok_bind]
    split_ifs
    · have hfunction : ∀ n, n < 0x80 → function.toNat ≠ n := fun n hn => by omega
      unfold serveSwitch
      iterate 11 rw [if_neg (hfunction _ (by decide))]
      exact ⟨_, rfl⟩
    · exact ⟨_, rfl⟩
  have h := (servePdu_outcome ver function data m).result hp
  cases h with
  | exception code toFlush _ h =>
    subst h
    exact ⟨code, toFlush, hp⟩
  | normal _ _ _ _ hlow => omega

/-- `modbus_reply_exception` on a frame. -/
theorem buildReplyException_wrapped (a : Adu) (trailer : List UInt8) {function : UInt8} {code : Nat}
    (m : Mapping) (hf : rd (a.wrapped be trailer) be.headerLength = .ok function)
    (hcode : code < exceptionMax) :
    buildReplyException be (a.wrapped be trailer) code =
      .ok (some ((exceptionPdu function.toNat code false m).wrap be a).rsp) := by
  have hsft : (⟨a.unit.toNat, function.toNat + 0x80, (a.sft be 0).tId⟩ : Sft) =
      a.sft be (function.toNat + 0x80) := rfl
  simp only [buildReplyException, a.rd_wrapped_unit trailer, hf, getResponseTid_wrapped a trailer,
    ok_bind, if_pos hcode, hsft, buildResponseBasis_sft, List.append_assoc]
  rfl

/-! ### What is handed over -/

/-- The reply of `modbus_reply` is recognisable, and its frame is handed over unless it is
suppressed. -/
def RepliesRecognisably (os : Os σ) (ver : VersionString) (st : St (Recorded σ))
    (req : List UInt8) (m : Mapping) (function : UInt8) : Prop :=
  Ends (modbusReply (recordOs os) ver st req req.length m)
    (fun r => ∃ slave reply, rd req (st.ctx.backend.headerLength - 1) = .ok slave ∧
      buildReply ver st.ctx.backend req req.length m = .ok reply ∧
      Recognisable st.ctx.backend function (IsException st.ctx.backend function reply)
        (sendMsgPre st.ctx.backend reply.rsp) ∧
      Sends st.ctx (if suppressed st.ctx slave then none
        else some (sendMsgPre st.ctx.backend reply.rsp)) st.os r.2.2.os)
    fun e => Retries os st.ctx e ∨ buildReply ver st.ctx.backend req req.length m = .error e

/-- `modbus_reply_exception` hands over a frame that is recognisable as the exception asked for. -/
def ExceptsRecognisably (os : Os σ) (st : St (Recorded σ)) (req : List UInt8) (code : Nat)
    (function : UInt8) : Prop :=
  Ends (modbusReplyException (recordOs os) st req code)
    (fun r => ∃ frame, Recognisable st.ctx.backend function (· = code) frame ∧
      Handed st.ctx frame st.os r.2.os)
    (Retries os st.ctx)

section Requests

variable {a : Adu} {function : UInt8} {data : List UInt8} (hpdu : a.pdu = function :: data)

include hpdu

theorem buildReply_cons (ver : VersionString) (m : Mapping) :
    buildReply ver be (a.bytes be) (a.bytes be).length m =
      (servePdu ver (function :: data) m).map (PduReply.wrap be a) := by
  rw [← hpdu]
  exact buildReply_wrapped ver a m a.length_checksum (by rw [hpdu]; exact List.cons_ne_nil _ _)

theorem room_cons : ((be.headerLength + 1 : Nat) : Int) ≤ (a.bytes be).length := by
  rw [a.length_bytes, hpdu, List.length_cons]
  omega

/-- Below 0x80 the reply of `modbus_reply` can be told from all others. -/
theorem repliesRecognisably (os : Os σ) (ver : VersionString) (st : St (Recorded σ)) (m : Mapping)
    (hfun : function.toNat < 0x80) :
    RepliesRecognisably os ver st (a.bytes st.ctx.backend) m function := by
  refine (modbusReply_replies os ver (a.rd_wrapped_unit _) (room_cons hpdu)).imp (fun r h => ?_)
    fun _ he => he
  obtain ⟨reply, hreply, -, hsends⟩ := h
  refine ⟨a.unit, reply, a.rd_wrapped_unit _, hreply, ?_, hsends⟩
  have hbuild := (buildReply_cons hpdu ver m).symm.trans hreply
  cases hp : servePdu ver (function :: data) m with
  | error e =>
    rw [hp] at hbuild
    cases hbuild
  | ok p =>
    rw [hp] at hbuild
    cases hbuild
    exact recognisable_of_outcome a hfun ((servePdu_outcome ver function data m).result hp)

/-- From 0x80 on no reply can, as a server on an idle line shows. -/
theorem not_repliesRecognisably (be : Backend) (slave : Int) (ver : VersionString) (m : Mapping)
    (hfun : 0x80 ≤ function.toNat) :
    ¬ RepliesRecognisably (linkOs 1) ver (recordedSt be slave) (a.bytes be) m function := by
  obtain ⟨code, toFlush, hserve⟩ := servePdu_high ver hfun data m
  have hbuild : buildReply ver be _ _ m = _ := buildReply_cons hpdu ver m
  rw [hserve] at hbuild
  intro h
  cases hrun : modbusReply (recordOs (linkOs 1)) ver (recordedSt be slave) (a.bytes be)
      (a.bytes be).length m with
  | error e =>
    rcases h.stop hrun with hretry | herr
    · exact absurd (hretry.2 (linkOs_prompt Nat.one_pos)) Bool.false_ne_true
    · cases hbuild.symm.trans herr
  | ok r =>
    obtain ⟨slave, reply, -, hreply, hrec, -⟩ := h.result hrun
    cases hbuild.symm.trans hreply
    exact not_recognisable_exception a hfun _ hrec

theorem rd_function_cons : rd (a.bytes be) be.headerLength = .ok function := by
  show rd (a.bytes be) (be.headerLength + 0) = _
  rw [Adu.bytes, a.rd_wrapped _ (by rw [hpdu]; exact Nat.succ_pos _), hpdu]
  rfl

/-- Every code the library knows is handed over in the frame that is built for it. -/
theorem modbusReplyException_hands (os : Os σ) (st : St (Recorded σ)) {code : Nat}
    (hcode : code < exceptionMax) (m : Mapping) :
    Ends (modbusReplyException (recordOs os) st (a.bytes st.ctx.backend) code)
      (fun r => Handed st.ctx (sendMsgPre st.ctx.backend
        ((exceptionPdu function.toNat code false m).wrap st.ctx.backend a).rsp) st.os r.2.os)
      (Retries os st.ctx) := by
  have hbuild : buildReplyException st.ctx.backend _ code = _ :=
    buildReplyException_wrapped a _ m (rd_function_cons hpdu) hcode
  rw [modbusReplyException, Adu.bytes, hbuild, ok_bind]
  exact sendMsg_hands os st _

/-- Below 0x80 the reply of `modbus_reply_exception` is recognisable as what was asked for. -/
theorem exceptsRecognisably (os : Os σ) (st : St (Recorded σ)) (hfun : function.toNat < 0x80)
    {code : Nat} (hcode : code < exceptionMax) :
    ExceptsRecognisably os st (a.bytes st.ctx.backend) code function := by
  refine (modbusReplyException_hands hpdu os st hcode sampleMapping).imp (fun r h => ⟨_, ?_, h⟩)
    fun _ he => he
  exact recognisable_exception a hfun hcode rfl fun code' h => by rw [h]

theorem not_exceptsRecognisably (be : Backend) (slave : Int) (hfun : 0x80 ≤ function.toNat)
    {code : Nat} (hcode : code < exceptionMax) :
    ¬ ExceptsRecognisably (linkOs 1) (recordedSt be slave) (a.bytes be) code function := by
  intro h
  have hhands := modbusReplyException_hands hpdu (linkOs 1) (recordedSt be slave) hcode
    sampleMapping
  cases hrun : modbusReplyException (recordOs (linkOs 1)) (recordedSt be slave) (a.bytes be)
      code with
  | error e =>
    exact absurd ((h.stop hrun).2 (linkOs_prompt Nat.one_pos)) Bool.false_ne_true
  | ok r =>
    obtain ⟨frame, hrec, hframe⟩ := h.result hrun
    rw [hframe.unique (hhands.result hrun)] at hrec
    exact not_recognisable_exception a hfun _ hrec

end Requests

/-- A request that can be received is an ADU, and its PDU begins with its function code. -/
theorem Receivable.exists_cons {req : List UInt8} {function : UInt8} (h : Receivable be req)
    (hf : rd req be.headerLength = .ok function) :
    ∃ (a : Adu) (data : List UInt8), req = a.bytes be ∧ a.pdu = function :: data := by
  obtain ⟨a, rfl, hframed⟩ := h.is_adu
  obtain ⟨b, data, hpdu⟩ := List.exists_cons_of_ne_nil hframed.ne_nil
  cases (rd_function_cons hpdu).symm.trans hf
  exact ⟨a, data, rfl, hpdu⟩

/-- **Exceptions can be recognised exactly below 0x80.**  For every request that `modbus_receive`
can return: what `modbus_reply` answers, on any context of that backend, with any mapping and
on any system, is recognisable if and only if the function code is below 0x80; and so is, for
every code it accepts, what `modbus_reply_exception` answers. -/
theorem exception_recognisable_iff {req : List UInt8} {function : UInt8}
    (hreq : Receivable be req) (hf : rd req be.headerLength = .ok function) :
    ((∀ (σ : Type) (os : Os σ) (ver : VersionString) (st : St (Recorded σ)) (m : Mapping),
        st.ctx.backend = be → RepliesRecognisably os ver st req m function) ↔
      function.toNat < 0x80) ∧
    ((∀ (σ : Type) (os : Os σ) (st : St (Recorded σ)), st.ctx.backend = be →
        ∀ code < exceptionMax, ExceptsRecognisably os st req code function) ↔
      function.toNat < 0x80) := by
  obtain ⟨a, data, rfl, hpdu⟩ := hreq.exists_cons hf
  refine ⟨⟨fun h => ?_, fun hlt σ os ver st m hbe => ?_⟩, ⟨fun h => ?_, fun hlt σ os st hbe => ?_⟩⟩
  · by_contra hge
    exact not_repliesRecognisably hpdu be 1 ⟨[], by decide⟩ sampleMapping (Nat.le_of_not_lt hge)
      (h Link (linkOs 1) _ (recordedSt be 1) sampleMapping rfl)
  · subst hbe
    exact repliesRecognisably hpdu os ver st m hlt
  · by_contra hge
    exact not_exceptsRecognisably hpdu be 1 (Nat.le_of_not_lt hge) (show 1 < exceptionMax by decide)
      (h Link (linkOs 1) (recordedSt be 1) rfl 1 (by decide))
  · subst hbe
    exact fun code hcode => exceptsRecognisably hpdu os st hlt hcode

/-- A read of a register is refused, and so is function code 0x83. -/
theorem exception_recognisable_iff_sample :
    ExceptsRecognisably (linkOs 1) (recordedSt .tcp 1) [0, 0, 0, 0, 0, 0, 1, 3, 0, 0, 0, 1] 2 3 ∧
    ¬ ∀ (σ : Type) (os : Os σ) (st : St (Recorded σ)), st.ctx.backend = .tcp →
      ∀ code < exceptionMax, ExceptsRecognisably os st [0, 0, 0, 0, 0, 0, 1, 0x83] code 0x83 := by
  have hread : Receivable .tcp ((rtuAdu 1 [3, 0, 0, 0, 1]).bytes .tcp) :=
    receivable_of_framed (by decide)
  have hhigh : Receivable .tcp ((rtuAdu 1 [0x83]).bytes .tcp) := receivable_of_framed (by decide)
  refine ⟨(exception_recognisable_iff hread rfl).2.mpr (by decide) Link (linkOs 1) _ rfl 2
    (by decide), fun h => ?_⟩
  exact absurd ((exception_recognisable_iff hhigh rfl).2.mp h) (by decide)

/-- The request with function code 0x83 is answered as a read of holding registers. -/
theorem unrecognisable_0x83 :
    Receivable .tcp [0, 0, 0, 0, 0, 0, 1, 0x83] ∧
    (∃ st, modbusReply (recordOs (linkOs 1)) ⟨[], by decide⟩ (recordedSt .tcp 1)
      [0, 0, 0, 0, 0, 0, 1, 0x83] 8 sampleMapping = .ok (9, sampleMapping, st) ∧
      st.os.sent = [[0, 0, 0, 0, 0, 3, 1, 0x03, 1]]) ∧
    (∃ st, modbusReplyException (recordOs (linkOs 1)) (recordedSt .tcp 1)
      [0, 0, 0, 0, 0, 0, 1, 0x83] 1 = .ok (9, st) ∧
      st.os.sent = [[0, 0, 0, 0, 0, 3, 1, 0x03, 1]]) ∧
    ∀ exc, ¬ Recognisable .tcp 0x83 exc [0, 0, 0, 0, 0, 3, 1, 0x03, 1] := by
  refine ⟨?_, ⟨_, rfl, rfl⟩, ⟨_, rfl, rfl⟩, fun exc h => ?_⟩
  · have h : Framed .indication [0x83] := by decide
    have hreq : Receivable .tcp ((rtuAdu 1 [0x83]).bytes .tcp) := receivable_of_framed h
    exact hreq
  · obtain ⟨b, hb, hor⟩ := h.function_byte
    cases hb
    exact absurd hor (by decide)

end Libmodbus
