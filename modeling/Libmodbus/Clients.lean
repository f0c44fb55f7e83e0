/-
Libmodbus/Clients.lean

What a client call does to the caller's array, whatever the peer sends.

The peer chooses every byte of the response, and with it the counts that the
copy loops run by.  What bounds them is spread over three functions: the length
table makes `_modbus_receive_msg` store as many bytes as the byte count says,
`check_confirmation` compares that count with the request, and the calls check
the request against their limits.

    bytes received  ≥  2 + byte count      (Framed)
    byte count      =  what was asked for  (Accepted)
    asked for       ≤  room in dest        (the caller)

`exchange_answered` puts the first two together: no byte outside the response is
read.  `Confined` adds the third: no cell outside `dest[0 .. n)` is written.
-/
import Libmodbus.Confirmations
import Libmodbus.Requests
import Libmodbus.Stops

namespace Libmodbus

open CSem Wire Posix

variable {σ α : Type} {be : Backend} {mt : MsgType}

section

variable {E : Stop → Prop} {q a : Adu}

/-- A byte inside the PDU is read. -/
theorem Adu.ends_rd {i : Nat} (h : i < a.pdu.length) :
    Ends (rd (a.bytes be) (be.headerLength + i)) (fun _ => True) E := by
  rw [Adu.rd_bytes (rd_lt h)]
  exact trivial

theorem Adu.rd_function (a : Adu) (be : Backend) (h : a.pdu ≠ []) :
    ∃ function, rd a.pdu 0 = .ok function ∧ rd (a.bytes be) be.headerLength = .ok function := by
  have hf := rd_lt (List.length_pos_of_ne_nil h)
  exact ⟨_, hf, Adu.rd_bytes hf⟩

/-! ### check_confirmation reads what it has -/

theorem ends_sameWord {i : Nat} (hq : i + 1 < q.pdu.length) (ha : i + 1 < a.pdu.length) :
    Ends (sameWord (q.bytes be) (a.bytes be) (be.headerLength + i)) (fun _ => True) E := by
  refine (Adu.ends_rd (by omega)).bind fun _ _ _ => ?_
  refine (Adu.ends_rd (by omega)).bind fun _ _ _ => ?_
  refine (Adu.ends_rd hq).bind fun _ _ _ => (Adu.ends_rd ha).bind fun _ _ _ => trivial

/-- The length that is expected is computed from fields of the request. -/
theorem ends_expectedLength (hq : Framed .indication q.pdu) :
    Ends (computeResponseLengthFromRequest be (q.bytes be)) (fun _ => True) E := by
  obtain ⟨function, hf, hfun⟩ := q.rd_function be hq.ne_nil
  have hmeta := hq.meta_le hf
  have hword : 5 ≤ q.pdu.length → ∀ f : UInt8 → UInt8 → Run Int, (∀ h l, ∃ v, f h l = .ok v) →
      Ends (rd (q.bytes be) (be.headerLength + 3) >>= fun h =>
        rd (q.bytes be) (be.headerLength + 4) >>= fun l => f h l) (fun _ => True) E := by
    intro hlen f hok
    refine (Adu.ends_rd (by omega)).bind fun h _ _ => (Adu.ends_rd (by omega)).bind fun l _ _ => ?_
    obtain ⟨v, hv⟩ := hok h l
    rw [hv]
    exact trivial
  unfold computeResponseLengthFromRequest
  simp only [hfun, ok_bind]
  refine Ends.ite (fun h => ?_) fun _ => Ends.ite (fun h => ?_) fun _ => ?_
  · have hlen : 5 ≤ q.pdu.length := by
      rcases h with h | h
      · rw [h] at hmeta
        exact hmeta
      · rw [h] at hmeta
        exact hmeta
    exact hword hlen _ fun h l => ⟨_, rfl⟩
  · have hlen : 5 ≤ q.pdu.length := by
      rcases h with h | h | h
      · rw [h] at hmeta
        exact Nat.le_trans (by decide) hmeta
      · rw [h] at hmeta
        exact hmeta
      · rw [h] at hmeta
        exact hmeta
    exact hword hlen _ fun h l => ⟨_, rfl⟩
  · split_ifs <;> exact trivial

/-- What is compared with a response of the same function. -/
theorem ends_confirmationValues {function : UInt8} (hq : Framed .indication q.pdu)
    (ha : Framed .confirmation a.pdu) (hqf : rd q.pdu 0 = .ok function)
    (haf : rd a.pdu 0 = .ok function) :
    Ends (confirmationValues be.headerLength function.toNat (q.bytes be) (a.bytes be))
      (fun _ => True) E := by
  have hqmeta := hq.meta_le hqf
  have hameta := ha.meta_le haf
  -- the reads look at the quantity of the request and at the byte count
  have hcounts : 5 ≤ q.pdu.length → 2 ≤ a.pdu.length →
      ∀ f : UInt8 → UInt8 → UInt8 → Run (Nat × Nat × Bool), (∀ h l n, ∃ v, f h l n = .ok v) →
      Ends (rd (q.bytes be) (be.headerLength + 3) >>= fun h =>
        rd (q.bytes be) (be.headerLength + 4) >>= fun l =>
          rd (a.bytes be) (be.headerLength + 1) >>= fun n => f h l n) (fun _ => True) E := by
    intro hqlen halen f hok
    refine (Adu.ends_rd (by omega)).bind fun h _ _ => (Adu.ends_rd (by omega)).bind fun l _ _ => ?_
    refine (Adu.ends_rd (by omega)).bind fun n _ _ => ?_
    obtain ⟨v, hv⟩ := hok h l n
    rw [hv]
    exact trivial
  unfold confirmationValues
  refine Ends.ite (fun h => ?_) fun _ => Ends.ite (fun h => ?_) fun _ => ?_
  · refine hcounts ?_ ?_ _ fun h l n => ⟨_, rfl⟩
    · rcases h with h | h <;> (rw [h] at hqmeta; exact hqmeta)
    · rcases h with h | h <;> (rw [h] at hameta; exact hameta)
  · refine hcounts ?_ ?_ _ fun h l n => ⟨_, rfl⟩
    · rcases h with h | h | h <;> (rw [h] at hqmeta; exact Nat.le_trans (by decide) hqmeta)
    · rcases h with h | h | h <;> (rw [h] at hameta; exact hameta)
  refine Ends.ite (fun h => ?_) fun _ => Ends.ite (fun h => ?_) fun _ => Ends.ite (fun h => ?_)
    fun _ => trivial
  · have hqlen : 5 ≤ q.pdu.length := by
      rcases h with h | h <;> (rw [h] at hqmeta; exact Nat.le_trans (by decide) hqmeta)
    have halen : 5 ≤ a.pdu.length := by
      rcases h with h | h <;> (rw [h] at hameta; exact hameta)
    refine (ends_sameWord (by omega) (by omega)).bind fun addrOk _ _ => ?_
    refine (Adu.ends_rd (by omega)).bind fun _ _ _ => (Adu.ends_rd (by omega)).bind fun _ _ _ => ?_
    exact (Adu.ends_rd (by omega)).bind fun _ _ _ =>
      (Adu.ends_rd (by omega)).bind fun _ _ _ => trivial
  · rw [h] at hameta
    exact (Adu.ends_rd hameta).bind fun nbValue _ _ => trivial
  · have hqlen : 5 ≤ q.pdu.length := by
      rcases h with h | h <;> (rw [h] at hqmeta; exact hqmeta)
    have halen : 5 ≤ a.pdu.length := by
      rcases h with h | h <;> (rw [h] at hameta; exact hameta)
    refine (ends_sameWord (by omega) (by omega)).bind fun addrOk _ _ => ?_
    exact (ends_sameWord (by omega) (by omega)).bind fun dataOk _ _ => trivial

end

section

variable (os : Os σ) {q a : Adu} {E : Stop → Prop}

theorem refuseConfirmation_returns (st : St σ) :
    Ends (refuseConfirmation os st) (fun _ => True) E := by
  unfold refuseConfirmation
  split_ifs
  · exact (sleepAndFlush_returns os st).bind fun _ _ _ => trivial
  · exact trivial

/-- **`check_confirmation` reads no byte that was not received**, from any frame. -/
theorem checkConfirmation_returns (st : St σ) (hq : Framed .indication q.pdu)
    (ha : Framed .confirmation a.pdu) (rspLength : Int) :
    Ends (checkConfirmation os st (q.bytes st.ctx.backend) (a.bytes st.ctx.backend) rspLength)
      (fun _ => True) E := by
  obtain ⟨function, haf, hfun⟩ := a.rd_function st.ctx.backend ha.ne_nil
  obtain ⟨reqFunction, hqf, hreq⟩ := q.rd_function st.ctx.backend hq.ne_nil
  obtain ⟨pre, hpre⟩ : ∃ pre, preCheckConfirmation st.ctx.backend (q.bytes st.ctx.backend)
      (a.bytes st.ctx.backend) = .ok pre := preCheckConfirmation_defined q a _ _
  unfold checkConfirmation
  simp only [hfun, hpre, ok_bind]
  cases pre with
  | some e =>
    simp only
    split_ifs
    · exact (sleepAndFlush_returns os _).bind fun _ _ _ => trivial
    · exact trivial
  | none =>
    simp only
    refine (ends_expectedLength hq).bind fun computed _ _ => ?_
    rw [hreq, ok_bind]
    refine Ends.ite (fun _ => Ends.ite (fun _ => ?_) fun _ => trivial) fun _ => ?_
    · -- every frame but an echo has a byte behind its function code
      have hmeta := ha.meta_le haf
      have hone : 1 ≤ computeMetaLengthAfterFunction function.toNat .confirmation := by
        simp only [computeMetaLengthAfterFunction]
        split_ifs <;> decide
      refine (Adu.ends_rd (by omega)).bind fun code _ _ => ?_
      exact Ends.ite (fun _ => trivial) fun _ => trivial
    refine Ends.ite (fun _ => Ends.ite (fun _ => ?_) fun hsame => ?_) fun _ => ?_
    · exact refuseConfirmation_returns os st
    · rw [← not_not.mp hsame] at hqf
      refine (ends_confirmationValues hq ha hqf haf).bind fun values _ _ => ?_
      exact Ends.ite (fun _ => trivial) fun _ => refuseConfirmation_returns os st
    · exact refuseConfirmation_returns os st

end

/-! ### What an exchange gives -/

/-- The outcomes of an exchange: an error, a request of which nothing was taken, or a response that
was received whole and accepted. -/
inductive Answered (be : Backend) (q : Adu) : Int → List UInt8 → Prop
  | failed (rsp : List UInt8) : Answered be q (-1) rsp
  | unsent : Answered be q 0 []
  | accepted {a : Adu} {count : Nat} {rspLength : Int} (framed : Framed .confirmation a.pdu)
      (accepted : Accepted be (q.bytes be) (a.bytes be) rspLength count) :
      Answered be q count (a.bytes be)

/-- **An exchange ends, and reads nothing that was not received**, whatever the system hands
out. -/
theorem exchange_answered (os : Os σ) (st : St σ) {q : Adu} {req : List UInt8}
    (hq : Framed .indication q.pdu)
    (hreq : sendMsgPre st.ctx.backend req = q.bytes st.ctx.backend) :
    Ends (exchange os st req)
      (fun x => x.2.2.ctx.backend = st.ctx.backend ∧ Answered st.ctx.backend q x.1 x.2.1)
      (Retries os st.ctx) := by
  refine (sendMsg_retries os st req).bind fun sent hsend _ => ?_
  obtain ⟨rc, st₁⟩ := sent
  have hbe : st₁.ctx.backend = st.ctx.backend :=
    ((sendMsg_moved (obeys_any os) st trivial).result hsend).backend
  refine Ends.ite (fun _ => ?_) fun hpos => ?_
  · have hreceive := (modbusReceiveMsg_retries os st₁ .confirmation).imp (fun _ h => h)
      fun _ he => Retries.of_not_prompt st.ctx he
    refine hreceive.bind fun received hrcv _ => ?_
    obtain ⟨rc₁, rsp, st₂⟩ := received
    refine Ends.ite (fun hfail => ?_) fun hrc => ?_
    · have hbe₂ := ((modbusReceiveMsg_moved (obeys_any os) st₁ .confirmation).result hrcv).backend
      exact ⟨hbe₂.trans hbe, Answered.failed rsp⟩
    · -- what was received is a framed message, which the check can read
      obtain ⟨a, e, s', rfl, ha, -, -, rfl⟩ := modbusReceiveMsg_is_adu (tracked_any os) hrc hrcv
      simp only
      rw [hbe, hreq]
      have hreturns : Ends (checkConfirmation os ⟨st₁.ctx, e, s'⟩ (q.bytes st₁.ctx.backend)
          (a.bytes st₁.ctx.backend) rc₁) (fun _ => True) (Retries os st.ctx) :=
        checkConfirmation_returns os ⟨st₁.ctx, e, s'⟩ hq ha rc₁
      have hmoved := checkConfirmation_moved (obeys_any os) ⟨st₁.ctx, e, s'⟩
        (q.bytes st.ctx.backend) (a.bytes st.ctx.backend) rc₁
      rw [hbe] at hreturns
      refine hreturns.bind fun checked hcheck _ => ?_
      obtain ⟨rc₂, st₃⟩ := checked
      refine ⟨(hmoved.result hcheck).backend.trans hbe, ?_⟩
      by_cases hfail : rc₂ = -1
      · rw [hfail]
        exact Answered.failed _
      · obtain ⟨count, rfl, -, haccepted⟩ := checkConfirmation_accepted hcheck hfail
        rw [show (⟨st₁.ctx, e, s'⟩ : St σ).ctx.backend = st.ctx.backend from hbe] at haccepted
        exact Answered.accepted ha haccepted
  · -- `send_msg` returns -1 or what was taken
    have hge := sendLoop_rc hsend
    refine ⟨hbe, ?_⟩
    simp only
    obtain rfl | rfl : rc = -1 ∨ rc = 0 := by omega
    · exact Answered.failed []
    · exact Answered.unsent

/-! ### The copy loops -/

/-- `dest'` is `dest` but for the cells before `n`. -/
def Below (n : Nat) (dest dest' : List α) : Prop :=
  dest'.length = dest.length ∧ dest'.drop n = dest.drop n

section

variable {n i : Nat} {dest dest' dest'' : List α}

theorem Below.refl (n : Nat) (dest : List α) : Below n dest dest := ⟨rfl, rfl⟩

theorem Below.trans (h : Below n dest dest') (h' : Below n dest' dest'') : Below n dest dest'' :=
  ⟨h'.1.trans h.1, h'.2.trans h.2⟩

theorem Below.set (h : i < n) (dest : List α) (v : α) : Below n dest (dest.set i v) :=
  ⟨List.length_set, List.drop_set_of_lt h⟩

end

section

variable {E : Stop → Prop} {rsp : List UInt8}

/-- The bits of one byte stay before `nb`. -/
theorem readByteLoop_below {temp nb n bit pos : Nat} {dest : List UInt8} (h : nb ≤ dest.length) :
    Ends (readByteLoop temp nb n bit pos dest) (fun x => Below nb dest x.2) E := by
  induction n generalizing bit pos dest with
  | zero => exact Below.refl nb dest
  | succ n ih =>
    rw [readByteLoop]
    refine Ends.ite (fun hpos => ?_) fun _ => Below.refl nb dest
    rw [wr_lt (by omega), ok_bind]
    have hset := Below.set hpos dest (if temp &&& bit ≠ 0 then (1 : UInt8) else 0)
    exact (ih (by rw [hset.1]; exact h)).imp (fun x hx => hset.trans hx) fun e he => he

/-- So do the bits of `n` bytes that were received. -/
theorem readBitsLoop_below {nb i n pos : Nat} {dest : List UInt8} (h : nb ≤ dest.length)
    (hrsp : i + n ≤ rsp.length) :
    Ends (readBitsLoop rsp nb i n pos dest) (Below nb dest) E := by
  induction n generalizing i pos dest with
  | zero => exact Below.refl nb dest
  | succ n ih =>
    rw [readBitsLoop, rd_lt (by omega), ok_bind]
    refine (readByteLoop_below h).bind fun x _ hx => ?_
    have hrest : Ends (readBitsLoop rsp nb (i + 1) n x.1 x.2) (Below nb x.2) E :=
      ih (by rw [hx.1]; exact h) (by omega)
    exact hrest.imp (fun _ hd => hx.trans hd) fun _ he => he

/-- Registers of the response to the cells from `i` on. -/
theorem storeRegisters_below {offset room i n : Nat} {dest : List UInt16}
    (h : room ≤ dest.length) (hroom : i + n ≤ room)
    (hrsp : offset + 2 + 2 * (i + n) ≤ rsp.length) :
    Ends (storeRegisters rsp offset i n dest) (Below room dest) E := by
  induction n generalizing i dest with
  | zero => exact Below.refl room dest
  | succ n ih =>
    rw [storeRegisters, rd_lt (by omega), ok_bind, rd_lt (by omega), ok_bind, wr_lt (by omega),
      ok_bind]
    generalize UInt16.ofNat (word _ _) = v
    have hset := Below.set (show i < room by omega) dest v
    refine (ih ?_ (by omega) (by omega)).imp (fun _ hd => hset.trans hd) fun _ he => he
    rw [hset.1]
    exact h

/-- Bytes of the response to the cells from `i` on. -/
theorem copyBytes_below {offset room i n : Nat} {dest : List UInt8} (h : room ≤ dest.length)
    (hroom : i + n ≤ room) (hrsp : offset + (i + n) ≤ rsp.length) :
    Ends (copyBytes rsp offset i n dest) (Below room dest) E := by
  induction n generalizing i dest with
  | zero => exact Below.refl room dest
  | succ n ih =>
    rw [copyBytes, rd_lt (by omega), ok_bind, wr_lt (by omega), ok_bind]
    generalize rsp[offset + i] = v
    have hset := Below.set (show i < room by omega) dest v
    refine (ih ?_ (by omega) (by omega)).imp (fun _ hd => hset.trans hd) fun _ he => he
    rw [hset.1]
    exact h

end

/-! ### The number of values -/

section

variable {rsp req : List UInt8} {count : Nat} {rspLength : Int} {function h l : UInt8}

/-- The functions whose confirmation is not compared as bits. -/
theorem not_bits_of_registers {function : Nat} (h : function = fcWriteAndReadRegisters ∨
    function = fcReadHoldingRegisters ∨ function = fcReadInputRegisters) :
    ¬ (function = fcReadCoils ∨ function = fcReadDiscreteInputs) := by
  rcases h with rfl | rfl | rfl <;> decide

/-- As many registers are accepted as were asked for. -/
theorem Accepted.registers_asked (ha : Accepted be req rsp rspLength count)
    (hf : rd req be.headerLength = .ok function)
    (hregisters : function.toNat = fcWriteAndReadRegisters ∨
      function.toNat = fcReadHoldingRegisters ∨ function.toNat = fcReadInputRegisters)
    (hh : rd req (be.headerLength + 3) = .ok h) (hl : rd req (be.headerLength + 4) = .ok l) :
    count = word h l := by
  obtain ⟨function', -, hf', hvalues⟩ := ha.function
  cases hf.symm.trans hf'
  rw [confirmationValues, if_neg (not_bits_of_registers hregisters), if_pos hregisters, hh, ok_bind,
    hl, ok_bind] at hvalues
  obtain ⟨byteCount, -, hvalues⟩ := bind_eq_ok.mp hvalues
  exact (Prod.mk.inj (Except.ok.inj hvalues)).1.symm

/-- As many bytes of a slave id are accepted as the response says. -/
theorem Accepted.slaveId (ha : Accepted be req rsp rspLength count)
    (hf : rd req be.headerLength = .ok function) (hid : function.toNat = fcReportSlaveId) :
    ∃ byteCount, rd rsp (be.headerLength + 1) = .ok byteCount ∧ byteCount.toNat = count := by
  obtain ⟨function', -, hf', hvalues⟩ := ha.function
  cases hf.symm.trans hf'
  rw [hid] at hvalues
  obtain ⟨byteCount, hbyte, hvalues⟩ := bind_eq_ok.mp hvalues
  exact ⟨byteCount, hbyte, (Prod.mk.inj (Except.ok.inj hvalues)).1⟩

/-- The bytes that a response counts were received with it. -/
theorem Framed.received {a : Adu} (h : Framed .confirmation a.pdu)
    (hf : rd (a.bytes be) be.headerLength = .ok function)
    (hcounted : byteCountPos function.toNat .confirmation = some 1) :
    ∃ byteCount, rd (a.bytes be) (be.headerLength + 1) = .ok byteCount ∧
      be.headerLength + 2 + byteCount.toNat ≤ (a.bytes be).length := by
  obtain ⟨f, hfpdu, hf'⟩ := a.rd_function be h.ne_nil
  cases hf.symm.trans hf'
  obtain ⟨byteCount, hbyte, hlen⟩ := h.byteCount hfpdu hcounted
  refine ⟨byteCount, Adu.rd_bytes hbyte, ?_⟩
  rw [Adu.length_bytes]
  omega

end

section

variable {q a : Adu} {count : Nat} {rspLength : Int} {function addrHi addrLo h l : UInt8}
  {more : List UInt8}

/-- The function of an accepted response is the one of the request. -/
theorem Accepted.same_function (hacc : Accepted be (q.bytes be) (a.bytes be) rspLength count)
    (hq : q.pdu = function :: more) :
    rd (q.bytes be) be.headerLength = .ok function ∧
      rd (a.bytes be) be.headerLength = .ok function := by
  have hf : rd (q.bytes be) be.headerLength = .ok function :=
    Adu.rd_bytes (i := 0) (by rw [hq]; rfl)
  obtain ⟨f, hrsp, hreq, -⟩ := hacc.function
  cases hreq.symm.trans hf
  exact ⟨hf, hrsp⟩

theorem Accepted.bits_received (hacc : Accepted be (q.bytes be) (a.bytes be) rspLength count)
    (ha : Framed .confirmation a.pdu) (hq : q.pdu = function :: addrHi :: addrLo :: h :: l :: more)
    (hbits : function.toNat = fcReadCoils ∨ function.toNat = fcReadDiscreteInputs) :
    be.headerLength + 2 + count ≤ (a.bytes be).length := by
  obtain ⟨hreq, hrsp⟩ := hacc.same_function hq
  have hh : rd (q.bytes be) (be.headerLength + 3) = .ok h := Adu.rd_bytes (by rw [hq]; rfl)
  have hl : rd (q.bytes be) (be.headerLength + 4) = .ok l := Adu.rd_bytes (by rw [hq]; rfl)
  obtain ⟨-, byteCount, hbyte, hcount⟩ := hacc.bits hreq hbits hh hl
  have hcounted : byteCountPos function.toNat .confirmation = some 1 := by
    rcases hbits with hbits | hbits <;> (rw [hbits]; rfl)
  obtain ⟨byteCount', hbyte', hlen⟩ := ha.received hrsp hcounted
  cases hbyte'.symm.trans hbyte
  omega

theorem Accepted.registers_received (hacc : Accepted be (q.bytes be) (a.bytes be) rspLength count)
    (ha : Framed .confirmation a.pdu) (hq : q.pdu = function :: addrHi :: addrLo :: h :: l :: more)
    (hregisters : function.toNat = fcWriteAndReadRegisters ∨
      function.toNat = fcReadHoldingRegisters ∨ function.toNat = fcReadInputRegisters) :
    count = word h l ∧ be.headerLength + 2 + 2 * count ≤ (a.bytes be).length := by
  obtain ⟨hreq, hrsp⟩ := hacc.same_function hq
  have hh : rd (q.bytes be) (be.headerLength + 3) = .ok h := Adu.rd_bytes (by rw [hq]; rfl)
  have hl : rd (q.bytes be) (be.headerLength + 4) = .ok l := Adu.rd_bytes (by rw [hq]; rfl)
  refine ⟨hacc.registers_asked hreq hregisters hh hl, ?_⟩
  obtain ⟨byteCount, hbyte, hcount⟩ := hacc.registers hreq hregisters
  have hcounted : byteCountPos function.toNat .confirmation = some 1 := by
    rcases hregisters with hregisters | hregisters | hregisters <;> (rw [hregisters]; rfl)
  obtain ⟨byteCount', hbyte', hlen⟩ := ha.received hrsp hcounted
  cases hbyte'.symm.trans hbyte
  omega

theorem Accepted.slaveId_received (hacc : Accepted be (q.bytes be) (a.bytes be) rspLength count)
    (ha : Framed .confirmation a.pdu) (hq : q.pdu = function :: more)
    (hid : function.toNat = fcReportSlaveId) :
    be.headerLength + 2 + count ≤ (a.bytes be).length := by
  obtain ⟨hreq, hrsp⟩ := hacc.same_function hq
  obtain ⟨byteCount, hbyte, hcount⟩ := hacc.slaveId hreq hid
  obtain ⟨byteCount', hbyte', hlen⟩ := ha.received hrsp (by rw [hid]; rfl)
  cases hbyte'.symm.trans hbyte
  omega

end

/-! ### The calls -/

/-- Why a call may stop: a retry loop is given up, or an RTU request has no slave. -/
def GivenUp (os : Os σ) (ctx : Modbus) (e : Stop) : Prop :=
  Retries os ctx e ∨ (e = .assertFailed ∧ ctx.backend = .rtu ∧ ctx.slave = -1)

/-- The call ends, or is given up; of the caller's array only the cells before `n` may be new. -/
def Confined (os : Os σ) (ctx : Modbus) (n : Nat) (dest : List α)
    (x : Run (Int × List α × St σ)) : Prop :=
  Ends x (fun r => Below n dest r.2.1) (GivenUp os ctx)

/-- `Confined`, and the call returns no more than `n`. -/
def ConfinedCount (os : Os σ) (ctx : Modbus) (n : Nat) (dest : List α)
    (x : Run (Int × List α × St σ)) : Prop :=
  Ends x (fun r => Below n dest r.2.1 ∧ r.1 ≤ n) (GivenUp os ctx)

/-- A call that builds its request and goes on with it. -/
theorem Ends.build {β : Type} {os : Os σ} {ctx : Modbus} {function : Nat} {addr nb : Int} (pdu : List UInt8)
    {k : List UInt8 × Modbus → Run β} {P : β → Prop}
    (hk : (ctx.backend = .rtu → ctx.slave ≠ -1) → Ends (k ((requestAdu ctx pdu).header ctx.backend ++
      [lo function, hi addr, lo addr, hi nb, lo nb], ctx.next)) P (GivenUp os ctx)) :
    Ends (buildRequestBasis ctx function addr nb >>= k) P (GivenUp os ctx) := by
  by_cases hslave : ctx.backend = .rtu ∧ ctx.slave = -1
  · rw [buildRequestBasis, hslave.1]
    simp only
    rw [if_pos hslave.2]
    exact Or.inr ⟨rfl, hslave⟩
  · have hslave' : ctx.backend = .rtu → ctx.slave ≠ -1 := fun hbe hs => hslave ⟨hbe, hs⟩
    rw [buildRequestBasis_adu hslave' function addr nb pdu, ok_bind]
    exact hk hslave'

section

variable (os : Os σ) (st : St σ)

/-- The exchange of a call, and what it does with the outcome. -/
theorem Ends.exchange {β : Type} {pdu : List UInt8}
    {k : Int × List UInt8 × St σ → Run β} {P : β → Prop} {E : Stop → Prop}
    (hpdu : Framed .indication pdu) (hE : ∀ e, Retries os st.ctx e → E e)
    (hk : ∀ rc rsp st', st'.ctx.backend = st.ctx.backend →
      Answered st.ctx.backend (requestAdu st.ctx pdu).sealed rc rsp → Ends (k (rc, rsp, st')) P E) :
    Ends (Libmodbus.exchange os { st with ctx := st.ctx.next }
      ((requestAdu st.ctx pdu).header st.ctx.backend ++ pdu) >>= k) P E := by
  have hanswered := exchange_answered os { st with ctx := st.ctx.next }
    (q := (requestAdu st.ctx pdu).sealed) hpdu (sendMsgPre_header (requestAdu st.ctx pdu))
  refine (hanswered.imp (fun _ h => h) fun e he => hE e he).bind fun x _ hx => ?_
  obtain ⟨rc, rsp, st'⟩ := x
  exact hk rc rsp st' hx.1 hx.2

/-- `read_io_status`, for a number of bits that fits its field. -/
theorem readIoStatus_confined {function : Nat} (hf : function = fcReadCoils ∨
    function = fcReadDiscreteInputs) (addr : Int) {nb : Int} {dest : List UInt8}
    (h : nb ≤ dest.length) :
    Confined os st.ctx nb.toNat dest (readIoStatus os st function addr nb dest) := by
  refine Ends.build [lo function, hi addr, lo addr, hi nb, lo nb] fun _ => ?_
  have hframed : Framed .indication [lo function, hi addr, lo addr, hi nb, lo nb] := by
    rcases hf with rfl | rfl <;> exact ⟨rfl, show 5 ≤ 253 by decide⟩
  refine Ends.exchange os st hframed (fun _ => Or.inl) fun rc rsp st' hbe hanswered => ?_
  refine Ends.ite (fun _ => Below.refl _ dest) fun hrc => ?_
  have hlen : st'.ctx.backend.headerLength + 2 + rc.toNat ≤ rsp.length ∨ rc = 0 := by
    rw [hbe]
    cases hanswered with
    | failed => exact absurd rfl hrc
    | unsent => exact Or.inr rfl
    | accepted ha hacc =>
      refine Or.inl (hacc.bits_received ha rfl ?_)
      rcases hf with rfl | rfl
      · exact Or.inl rfl
      · exact Or.inr rfl
  rcases hlen with hlen | rfl
  · exact (readBitsLoop_below (Int.toNat_le.mpr h) hlen).bind fun dest' _ hd => hd
  · exact Below.refl _ dest

theorem readBits_confined {function : Nat} (hf : function = fcReadCoils ∨
    function = fcReadDiscreteInputs) (addr : Int) {nb : Int} {dest : List UInt8}
    (h : nb ≤ dest.length) :
    ConfinedCount os st.ctx nb.toNat dest (readBits os st function addr nb dest) := by
  refine Ends.ite (fun _ => ⟨Below.refl _ dest, show (-1 : Int) ≤ nb.toNat by omega⟩) fun hnb => ?_
  refine (readIoStatus_confined os st hf addr h).bind fun x _ hx => ?_
  refine Ends.ite (fun _ => ⟨hx, show (-1 : Int) ≤ nb.toNat by omega⟩) fun _ => ⟨hx, ?_⟩
  exact Int.self_le_toNat nb

/-- What the two kinds of register calls do with the outcome of their exchange. -/
theorem storeAnswer_confined {function addrHi addrLo : UInt8} {nb : Int} {more : List UInt8}
    {dest : List UInt16} (hnb : 1 ≤ nb ∧ nb ≤ 65535) (h : nb ≤ dest.length)
    (hregisters : function.toNat = fcWriteAndReadRegisters ∨
      function.toNat = fcReadHoldingRegisters ∨ function.toNat = fcReadInputRegisters)
    (hframed : Framed .indication (function :: addrHi :: addrLo :: hi nb :: lo nb :: more)) :
    Ends (do
      let (rc, rsp, st) ← Libmodbus.exchange os { st with ctx := st.ctx.next }
        ((requestAdu st.ctx (function :: addrHi :: addrLo :: hi nb :: lo nb :: more)).header
          st.ctx.backend ++ function :: addrHi :: addrLo :: hi nb :: lo nb :: more)
      if rc = -1 then .ok (-1, dest, st)
      else
        let dest ← storeRegisters rsp st.ctx.backend.headerLength 0 rc.toNat dest
        .ok (rc, dest, st))
      (fun r => Below nb.toNat dest r.2.1 ∧ r.1 ≤ nb.toNat) (GivenUp os st.ctx) := by
  refine Ends.exchange os st hframed (fun _ => Or.inl) fun rc rsp st' hbe hanswered => ?_
  refine Ends.ite (fun _ => ⟨Below.refl _ dest, show (-1 : Int) ≤ nb.toNat by omega⟩) fun hrc => ?_
  rw [hbe]
  cases hanswered with
  | failed => exact absurd rfl hrc
  | unsent => exact ⟨Below.refl _ dest, show (0 : Int) ≤ nb.toNat by omega⟩
  | accepted ha hacc =>
    obtain ⟨hcount, hlen⟩ := hacc.registers_received ha rfl hregisters
    have hword := word_hi_lo (v := nb) (by omega) (by omega)
    rw [Int.toNat_natCast]
    refine (storeRegisters_below (Int.toNat_le.mpr h) (by omega) (by omega)).bind
      fun dest' _ hd => ⟨hd, ?_⟩
    simp only
    omega

theorem readAnyRegisters_confined {function : Nat} (hf : function = fcReadHoldingRegisters ∨
    function = fcReadInputRegisters) (addr : Int) {nb : Int} {dest : List UInt16}
    (h : nb ≤ dest.length) :
    ConfinedCount os st.ctx nb.toNat dest (readAnyRegisters os st function addr nb dest) := by
  refine Ends.ite (fun _ => ⟨Below.refl _ dest, show (-1 : Int) ≤ nb.toNat by omega⟩) fun hnb => ?_
  refine Ends.ite (fun _ => ⟨Below.refl _ dest, show (-1 : Int) ≤ nb.toNat by omega⟩) fun _ => ?_
  refine Ends.build [lo function, hi addr, lo addr, hi nb, lo nb] fun _ => ?_
  have hmax : (maxReadRegisters : Int) = 125 := rfl
  refine storeAnswer_confined os st ⟨by omega, by omega⟩ h ?_ ?_
  · rcases hf with rfl | rfl
    · exact Or.inr (Or.inl rfl)
    · exact Or.inr (Or.inr rfl)
  · rcases hf with rfl | rfl <;> exact ⟨rfl, show 5 ≤ 253 by decide⟩

theorem writeAndRead_confined (writeAddr readAddr : Int) {writeNb readNb : Int}
    {src dest : List UInt16} (hsrc : writeNb ≤ src.length) (h : readNb ≤ dest.length) :
    ConfinedCount os st.ctx readNb.toNat dest
      (modbusWriteAndReadRegisters os st writeAddr writeNb src readAddr readNb dest) := by
  have hrefused : (-1 : Int) ≤ readNb.toNat := by omega
  refine Ends.ite (fun _ => ⟨Below.refl _ dest, hrefused⟩) fun hpositive => ?_
  refine Ends.ite (fun _ => ⟨Below.refl _ dest, hrefused⟩) fun hwrite => ?_
  refine Ends.ite (fun _ => ⟨Below.refl _ dest, hrefused⟩) fun hread => ?_
  have hmaxWrite : (maxWrWriteRegisters : Int) = 121 := rfl
  have hmaxRead : (maxWrReadRegisters : Int) = 125 := rfl
  obtain ⟨n, rfl⟩ := Int.eq_ofNat_of_zero_le (show 0 ≤ writeNb by omega)
  have hlen : (src.take n).length = n := by
    rw [List.length_take]
    omega
  have hbytes : putRegisters src 0 (n : Int).toNat = .ok (bigEndian (src.take n)) :=
    putRegisters_taken (Int.ofNat_le.mp hsrc)
  refine Ends.build (lo fcWriteAndReadRegisters :: hi readAddr :: lo readAddr :: hi readNb ::
    lo readNb :: ([hi writeAddr, lo writeAddr, hi (n : Int), lo (n : Int),
      lo ((n : Int) * 2)] ++ bigEndian (src.take n))) fun _ => ?_
  simp only
  rw [hbytes, ok_bind, List.append_assoc, List.append_assoc]
  refine storeAnswer_confined os st ⟨by omega, by omega⟩ h (Or.inl rfl) ⟨?_, ?_⟩
  · -- the byte count of the request is the number of its bytes
    have hcount : (lo ((n : Int) * 2)).toNat = 2 * n := by
      have := toNat_lo ((n : Int) * 2)
      omega
    refine congrArg some (show 1 + 9 + (lo ((n : Int) * 2)).toNat = _ from ?_)
    simp only [List.length_cons, List.length_append, List.length_nil, length_bigEndian, hlen,
      hcount]
    omega
  · simp only [List.length_cons, List.length_append, List.length_nil, length_bigEndian, hlen,
      maxPduLength]
    omega

theorem reportSlaveId_confined {maxDest : Int} {dest : List UInt8} (h : maxDest ≤ dest.length) :
    Confined os st.ctx maxDest.toNat dest (modbusReportSlaveId os st maxDest dest) := by
  refine Ends.ite (fun _ => Below.refl _ dest) fun hmax => ?_
  refine Ends.build [lo fcReportSlaveId] fun _ => ?_
  have htake : ((requestAdu st.ctx [lo fcReportSlaveId]).header st.ctx.backend ++
      [lo fcReportSlaveId, hi 0, lo 0, hi 0, lo 0]).take
        (((requestAdu st.ctx [lo fcReportSlaveId]).header st.ctx.backend ++
          [lo fcReportSlaveId, hi 0, lo 0, hi 0, lo 0]).length - 4) =
      (requestAdu st.ctx [lo fcReportSlaveId]).header st.ctx.backend ++ [lo fcReportSlaveId] := by
    rw [List.length_append, List.take_append, List.take_of_length_le (by simp)]
    simp
  simp only
  rw [htake]
  refine Ends.exchange os st ⟨rfl, show 1 ≤ 253 by decide⟩ (fun _ => Or.inl)
    fun rc rsp st' hbe hanswered => ?_
  refine Ends.ite (fun _ => Below.refl _ dest) fun hrc => ?_
  rw [hbe]
  cases hanswered with
  | failed => exact absurd rfl hrc
  | unsent =>
    rw [show (min 0 maxDest).toNat = 0 by omega]
    exact Below.refl _ dest
  | @accepted a count rspLength ha hacc =>
    have hlen := hacc.slaveId_received ha rfl rfl
    simp only
    have hcopy : Ends (copyBytes (a.bytes st.ctx.backend) (st.ctx.backend.headerLength + 2) 0
        (min (count : Int) maxDest).toNat dest) (Below maxDest.toNat dest) (GivenUp os st.ctx) :=
      copyBytes_below (by omega) (by omega) (by omega)
    exact hcopy.bind fun dest' _ hd => hd

end

/-- **Clients are safe against any peer.**  Whatever the system hands out, in whatever pieces, a
call reads no byte of the response that it has not received and writes no cell of `dest` from the
requested number on; and bits and registers are not reported beyond that number. -/
theorem clients_confined (os : Os σ) (st : St σ) :
    (∀ (addr nb : Int) (dest : List UInt8), nb ≤ dest.length →
      ConfinedCount os st.ctx nb.toNat dest (modbusReadBits os st addr nb dest) ∧
        ConfinedCount os st.ctx nb.toNat dest (modbusReadInputBits os st addr nb dest)) ∧
    (∀ (addr nb : Int) (dest : List UInt16), nb ≤ dest.length →
      ConfinedCount os st.ctx nb.toNat dest (modbusReadRegisters os st addr nb dest) ∧
        ConfinedCount os st.ctx nb.toNat dest (modbusReadInputRegisters os st addr nb dest)) ∧
    (∀ (writeAddr writeNb : Int) (src : List UInt16) (readAddr readNb : Int) (dest : List UInt16),
      writeNb ≤ src.length → readNb ≤ dest.length →
      ConfinedCount os st.ctx readNb.toNat dest
        (modbusWriteAndReadRegisters os st writeAddr writeNb src readAddr readNb dest)) ∧
    (∀ (maxDest : Int) (dest : List UInt8), maxDest ≤ dest.length →
      Confined os st.ctx maxDest.toNat dest (modbusReportSlaveId os st maxDest dest)) := by
  refine ⟨fun addr nb dest h => ⟨?_, ?_⟩, fun addr nb dest h => ⟨?_, ?_⟩,
    fun writeAddr writeNb src readAddr readNb dest hsrc h => ?_, fun maxDest dest h => ?_⟩
  · exact readBits_confined os st (Or.inl rfl) addr h
  · exact readBits_confined os st (Or.inr rfl) addr h
  · exact readAnyRegisters_confined os st (Or.inl rfl) addr h
  · exact readAnyRegisters_confined os st (Or.inr rfl) addr h
  · exact writeAndRead_confined os st writeAddr readAddr hsrc h
  · exact reportSlaveId_confined os st h

/-- Two bits are asked for and the peer sets eight; one register, and it sends two; a slave id for
two bytes, and it sends four.  The rest of the arrays stays. -/
theorem clients_confined_sample :
    (∃ dest st', modbusReadBits (linkOs 1) (sampleSt .tcp 17 [0, 1, 0, 0, 0, 4, 17, 1, 1, 0xFF])
        0 2 [7, 7, 7] = .ok (2, dest, st') ∧ Below 2 [7, 7, 7] dest) ∧
    (∃ dest st', modbusReadRegisters (linkOs 1)
        (sampleSt .tcp 17 [0, 1, 0, 0, 0, 7, 17, 3, 4, 0, 1, 0, 2]) 0 1 [7, 7] =
          .ok (-1, dest, st') ∧ Below 1 [7, 7] dest) ∧
    (∃ dest st', modbusReportSlaveId (linkOs 1)
        (sampleSt .tcp 17 [0, 1, 0, 0, 0, 7, 17, 0x11, 4, 1, 0xFF, 65, 66]) 2 [7, 7, 7] =
          .ok (4, dest, st') ∧ Below 2 [7, 7, 7] dest) := by
  have hbits : ConfinedCount (linkOs 1) (sampleSt .tcp 17 []).ctx 2 [7, 7, 7]
      (modbusReadBits (linkOs 1) (sampleSt .tcp 17 [0, 1, 0, 0, 0, 4, 17, 1, 1, 0xFF])
        0 2 [7, 7, 7]) :=
    ((clients_confined _ _).1 0 2 [7, 7, 7] (by decide)).1
  have hregisters : ConfinedCount (linkOs 1) (sampleSt .tcp 17 []).ctx 1 [7, 7]
      (modbusReadRegisters (linkOs 1)
        (sampleSt .tcp 17 [0, 1, 0, 0, 0, 7, 17, 3, 4, 0, 1, 0, 2]) 0 1 [7, 7]) :=
    ((clients_confined _ _).2.1 0 1 [7, 7] (by decide)).1
  have hslaveId : Confined (linkOs 1) (sampleSt .tcp 17 []).ctx 2 [7, 7, 7]
      (modbusReportSlaveId (linkOs 1)
        (sampleSt .tcp 17 [0, 1, 0, 0, 0, 7, 17, 0x11, 4, 1, 0xFF, 65, 66]) 2 [7, 7, 7]) :=
    (clients_confined _ _).2.2.2 2 [7, 7, 7] (by decide)
  exact ⟨⟨_, _, rfl, hbits.1⟩, ⟨_, _, rfl, hregisters.1⟩, ⟨_, _, rfl, hslaveId⟩⟩

end Libmodbus
