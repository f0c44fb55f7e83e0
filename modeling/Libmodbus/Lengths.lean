/-
Libmodbus/Lengths.lean

Three formulas for the length of a request.  The receive loop adds up the
lengths of its steps while bytes arrive; `modbus_reply` computes the sum again
from the whole message; and for the functions that are answered with an echo it
compares `req_length` with `compute_response_length_from_request`, a formula for
responses.

`received_length` says that the three agree on every message that
`modbus_receive` returns, so the checks of `modbus_reply` never fail on one:

    n  =  header + 1 + meta + data  =  needed  =  length of the echo
-/
import Libmodbus.Exceptions

namespace Libmodbus

open CSem Wire Posix

variable {σ : Type} {be : Backend}

/-! ### The length that modbus_reply needs -/

/-- A message of the length it declares needs all of its bytes. -/
theorem neededLength_of_messageLength {req : List UInt8} {function : UInt8}
    (hf : rd req be.headerLength = .ok function)
    (hm : messageLength be .indication req = .ok req.length) :
    neededLength be req (req.length : Nat) function.toNat = .ok req.length := by
  obtain ⟨function', hf', hm⟩ := bind_eq_ok.mp hm
  cases hf.symm.trans hf'
  obtain ⟨length, hl, hm⟩ := bind_eq_ok.mp hm
  have hsum := Except.ok.inj hm
  unfold neededLength
  rw [if_pos (by omega), hl, ok_bind, hsum]

/-- The functions that are answered with an echo. -/
def IsEcho (function : Nat) : Prop :=
  function = fcWriteSingleCoil ∨ function = fcWriteSingleRegister ∨ function = fcMaskWriteRegister

/-- The response to these functions is as long as a request of the declared length. -/
theorem computeResponseLength_of_messageLength {req : List UInt8} {function : UInt8}
    (hf : rd req be.headerLength = .ok function) (he : IsEcho function.toNat)
    (hm : messageLength be .indication req = .ok req.length) :
    computeResponseLengthFromRequest be req = .ok (req.length : Nat) := by
  obtain ⟨function', hf', hm⟩ := bind_eq_ok.mp hm
  cases hf.symm.trans hf'
  obtain ⟨length, hl, hm⟩ := bind_eq_ok.mp hm
  have hsum := Except.ok.inj hm
  simp only [computeDataLengthAfterMeta, hf, ok_bind] at hl
  simp only [computeResponseLengthFromRequest, hf, ok_bind]
  rcases he with he | he | he
  · rw [he] at hl hsum ⊢
    cases hl
    rw [← hsum]
    rfl
  · rw [he] at hl hsum ⊢
    cases hl
    rw [← hsum]
    rfl
  · rw [he] at hl hsum ⊢
    cases hl
    rw [← hsum]
    rfl

/-! ### Messages that modbus_receive returns -/

/-- A message that is returned is a framed ADU, and its length is the one that is returned. -/
theorem received_adu {os : Os σ} {st st' : St σ} {rc : Int} {req : List UInt8} (hrc : 0 < rc)
    (h : modbusReceive os st = .ok (rc, req, st')) :
    ∃ a : Adu, req = a.bytes st.ctx.backend ∧ Framed .indication a.pdu ∧
      rc = (req.length : Nat) := by
  obtain ⟨a, e, s', ha, hframed, hverdict, -⟩ :=
    modbusReceiveMsg_is_adu (tracked_any os) (by omega) (modbusReceive_positive hrc h)
  have haddr : Addressed st.ctx a := by
    by_contra hforeign
    rw [Adu.verdict_of_foreign hforeign] at hverdict
    omega
  rw [Adu.verdict_of_addressed haddr, ← ha] at hverdict
  exact ⟨a, ha, hframed, hverdict⟩

/-- **The framing layer is complete for the server.**  A message that `modbus_receive` returns
with a positive length is as long as its own function code and byte count say; `modbus_reply`
needs exactly these bytes, and where it expects the length of an echo it finds it.  So it goes
straight to the switch over the function code, whatever the mapping. -/
theorem received_length {os : Os σ} {st st' : St σ} {rc : Int} {req : List UInt8} (hrc : 0 < rc)
    (h : modbusReceive os st = .ok (rc, req, st')) :
    ∃ (function : UInt8) (data : Nat), rd req st.ctx.backend.headerLength = .ok function ∧
      computeDataLengthAfterMeta st.ctx.backend req .indication = .ok data ∧
      rc = (st.ctx.backend.headerLength + 1 +
        computeMetaLengthAfterFunction function.toNat .indication + data : Nat) ∧
      neededLength st.ctx.backend req rc function.toNat = .ok rc.toNat ∧
      (IsEcho function.toNat → computeResponseLengthFromRequest st.ctx.backend req = .ok rc) ∧
      ∃ sft address, sft.function = function.toNat ∧ ∀ ver m,
        buildReply ver st.ctx.backend req rc m =
          replySwitch st.ctx.backend sft req rc address m ver := by
  obtain ⟨a, ha, hframed, rfl⟩ := received_adu hrc h
  have hm : messageLength st.ctx.backend .indication req = .ok req.length := by
    rw [ha]
    exact Adu.messageLength_bytes hframed
  obtain ⟨function, hf, hdecl⟩ := bind_eq_ok.mp hm
  obtain ⟨data, hd, hdecl⟩ := bind_eq_ok.mp hdecl
  have hsum := Except.ok.inj hdecl
  have hneeded := neededLength_of_messageLength hf hm
  refine ⟨function, data, hf, hd, congrArg Nat.cast hsum.symm, hneeded,
    fun he => computeResponseLength_of_messageLength hf he hm, ?_⟩
  -- slave, transaction id and address are read from inside the message
  have hslave : rd req (st.ctx.backend.headerLength - 1) = .ok a.unit := by
    rw [ha]
    exact a.rd_wrapped_unit _
  have htid : getResponseTid st.ctx.backend req = .ok (a.sft st.ctx.backend 0).tId := by
    rw [ha]
    exact getResponseTid_wrapped a _
  have hlt : ¬ ((req.length : Nat) : Int) < (req.length : Nat) := Int.lt_irrefl _
  by_cases h3 : st.ctx.backend.headerLength + 3 ≤ req.length
  · obtain ⟨address, haddr⟩ : ∃ address, rdWord req (st.ctx.backend.headerLength + 1) =
        .ok address := ⟨_, rdWord_lt h3⟩
    refine ⟨⟨a.unit.toNat, function.toNat, (a.sft st.ctx.backend 0).tId⟩, address, rfl,
      fun ver m => ?_⟩
    simp only [buildReply, hslave, hf, htid, hneeded, ok_bind, if_pos (Int.ofNat_le.mpr h3), haddr,
      if_neg hlt]
  · refine ⟨⟨a.unit.toNat, function.toNat, (a.sft st.ctx.backend 0).tId⟩, 0, rfl, fun ver m => ?_⟩
    simp only [buildReply, hslave, hf, htid, hneeded, ok_bind,
      if_neg (fun h => h3 (Int.ofNat_le.mp h)), if_neg hlt]

/-- A write of one register, received on TCP. -/
theorem received_length_sample :
    ∃ (function : UInt8) (data : Nat),
      rd [0, 7, 0, 0, 0, 6, 17, 0x06, 0, 101, 1, 2] 7 = .ok function ∧
      computeDataLengthAfterMeta .tcp [0, 7, 0, 0, 0, 6, 17, 0x06, 0, 101, 1, 2] .indication =
        .ok data ∧
      (12 : Int) = (7 + 1 + computeMetaLengthAfterFunction function.toNat .indication + data : Nat) ∧
      neededLength .tcp [0, 7, 0, 0, 0, 6, 17, 0x06, 0, 101, 1, 2] 12 function.toNat = .ok 12 ∧
      (IsEcho function.toNat → computeResponseLengthFromRequest .tcp
        [0, 7, 0, 0, 0, 6, 17, 0x06, 0, 101, 1, 2] = .ok 12) ∧
      ∃ sft address, sft.function = function.toNat ∧ ∀ ver m,
        buildReply ver .tcp [0, 7, 0, 0, 0, 6, 17, 0x06, 0, 101, 1, 2] 12 m =
          replySwitch .tcp sft [0, 7, 0, 0, 0, 6, 17, 0x06, 0, 101, 1, 2] 12 address m ver := by
  have hrcv : modbusReceive (linkOs 1)
      (sampleSt .tcp 255 [0, 7, 0, 0, 0, 6, 17, 0x06, 0, 101, 1, 2]) =
      .ok (12, [0, 7, 0, 0, 0, 6, 17, 0x06, 0, 101, 1, 2], sampleSt .tcp 255 []) := rfl
  exact received_length (by decide) hrcv

end Libmodbus
