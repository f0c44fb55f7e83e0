/-
Libmodbus/Broadcast.lean

What the unit id of a request decides.  The handlers read it into `sft` and copy
it with the request, and look at it nowhere else, so that two requests which
differ in their unit have one reply, up to the unit in the response:

    buildReply (request with unit u) = (buildReply request) with unit u

The send at the end is the only place where the unit counts.  On RTU, without
the quirk, a request for unit 0 changes the mapping as it does for any other
unit, and nothing is sent; otherwise the response has the same PDU
(`broadcasts_act_like_unicasts`).
-/
import Libmodbus.Ranges
import Libmodbus.Recovery
import Libmodbus.Senders

namespace Libmodbus

open CSem Wire Posix

variable {σ : Type} {be : Backend}

/-! ### Another unit -/

/-- A message with another unit id. -/
def withUnit (be : Backend) (u : UInt8) (msg : List UInt8) : List UInt8 :=
  msg.set (be.headerLength - 1) u

def Reply.withUnit (be : Backend) (u : UInt8) (r : Reply) : Reply :=
  { r with rsp := Libmodbus.withUnit be u r.rsp }

def Sft.withUnit (u : UInt8) (sft : Sft) : Sft := { sft with slave := u.toNat }

@[simp] theorem length_withUnit (u : UInt8) (msg : List UInt8) :
    (withUnit be u msg).length = msg.length := List.length_set

/-! ### Reading past the unit -/

theorem rd_withUnit (u : UInt8) (msg : List UInt8) {i : Nat} (h : i ≠ be.headerLength - 1) :
    rd (withUnit be u msg) i = rd msg i := by
  unfold rd withUnit
  rw [List.getElem?_set_ne h.symm]

theorem rd_withUnit_add (u : UInt8) (msg : List UInt8) (i : Nat) :
    rd (withUnit be u msg) (be.headerLength + i) = rd msg (be.headerLength + i) := by
  have := (headerLength_le be).1
  exact rd_withUnit u msg (by omega)

theorem rd_withUnit_unit {u slave : UInt8} {msg : List UInt8}
    (h : rd msg (be.headerLength - 1) = .ok slave) :
    rd (withUnit be u msg) (be.headerLength - 1) = .ok u := by
  obtain ⟨hi, -⟩ := List.getElem?_eq_some_iff.mp (rd_eq_ok.mp h)
  refine rd_of_getElem? ?_
  rw [withUnit, List.getElem?_set_self hi]

theorem rdWord_withUnit (u : UInt8) (msg : List UInt8) (i : Nat) :
    rdWord (withUnit be u msg) (be.headerLength + i) = rdWord msg (be.headerLength + i) := by
  rw [rdWord, rdWord, Nat.add_assoc, rd_withUnit_add, rd_withUnit_add]

theorem rdSlice_withUnit_of_lt (u : UInt8) (msg : List UInt8) {off : Nat} (n : Nat)
    (h : be.headerLength ≤ off) : rdSlice (withUnit be u msg) off n = rdSlice msg off n := by
  have hpos := (headerLength_le be).1
  have hdrop : (withUnit be u msg).drop off = msg.drop off :=
    List.drop_set_of_lt (by omega)
  rw [rdSlice, rdSlice, length_withUnit, hdrop]

/-- A copy from the start has the new unit, if it is long enough to have one. -/
theorem rdSlice_withUnit_zero (u : UInt8) (msg : List UInt8) (n : Nat) :
    rdSlice (withUnit be u msg) 0 n = (rdSlice msg 0 n).map (withUnit be u) := by
  unfold rdSlice
  rw [length_withUnit]
  refine ite_map_congr (fun _ => ?_) fun _ => rfl
  show Except.ok ((msg.set _ u).take n) = .ok ((msg.take n).set _ u)
  rw [List.take_set]

theorem setBitsLoop_withUnit (u : UInt8) (msg : List UInt8) (pos k n : Nat) (dest : List UInt8)
    (idx : Int) :
    setBitsLoop (withUnit be u msg) (be.headerLength + pos) dest idx k n =
      setBitsLoop msg (be.headerLength + pos) dest idx k n := by
  induction n generalizing dest k with
  | zero => rfl
  | succ n ih => simp only [setBitsLoop, Nat.add_assoc, rd_withUnit_add, ih]

theorem writeRegisters_withUnit (u : UInt8) (msg : List UInt8) (tab : List UInt16) (i : Int)
    (j n : Nat) :
    writeRegisters (withUnit be u msg) tab i (be.headerLength + j) n =
      writeRegisters msg tab i (be.headerLength + j) n := by
  induction n generalizing tab i j with
  | zero => rfl
  | succ n ih => simp only [writeRegisters, Nat.add_assoc, rd_withUnit_add, ih]

theorem rd_withUnit_function (u : UInt8) (msg : List UInt8) :
    rd (withUnit be u msg) be.headerLength = rd msg be.headerLength := rd_withUnit_add u msg 0

theorem computeResponseLength_withUnit (u : UInt8) (msg : List UInt8) :
    computeResponseLengthFromRequest be (withUnit be u msg) =
      computeResponseLengthFromRequest be msg := by
  simp only [computeResponseLengthFromRequest, rd_withUnit_function, rd_withUnit_add]

theorem neededLength_withUnit (u : UInt8) (msg : List UInt8) (reqLength : Int) (function : Nat) :
    neededLength be (withUnit be u msg) reqLength function =
      neededLength be msg reqLength function := by
  simp only [neededLength, computeDataLengthAfterMeta, rd_withUnit_function, rd_withUnit_add]

theorem getResponseTid_withUnit (u : UInt8) (msg : List UInt8) :
    getResponseTid be (withUnit be u msg) = getResponseTid be msg := by
  cases be with
  | rtu => rfl
  | tcp =>
    have h0 : rd (withUnit .tcp u msg) 0 = rd msg 0 := rd_withUnit u msg (by decide)
    have h1 : rd (withUnit .tcp u msg) 1 = rd msg 1 := rd_withUnit u msg (by decide)
    simp only [getResponseTid, h0, h1]

/-! ### Responses -/

theorem buildResponseBasis_withUnit (u : UInt8) (sft : Sft) :
    buildResponseBasis be (sft.withUnit u) = withUnit be u (buildResponseBasis be sft) := by
  cases be with
  | rtu => simp only [buildResponseBasis, Sft.withUnit, lo_toNat]; rfl
  | tcp => simp only [buildResponseBasis, Sft.withUnit, lo_toNat]; rfl

/-- What follows the header keeps its place. -/
theorem withUnit_append (u : UInt8) {basis : List UInt8} (more : List UInt8)
    (h : be.headerLength ≤ basis.length) :
    withUnit be u (basis ++ more) = withUnit be u basis ++ more := by
  have hpos := (headerLength_le be).1
  exact List.set_append_left _ _ (by omega)

theorem basis_append_withUnit (u : UInt8) (sft : Sft) (more : List UInt8) :
    buildResponseBasis be (sft.withUnit u) ++ more =
      withUnit be u (buildResponseBasis be sft ++ more) := by
  have hlen := length_buildResponseBasis be sft
  rw [buildResponseBasis_withUnit, withUnit_append u more (by omega)]

theorem responseException_withUnit (u : UInt8) (sft : Sft) (code : Nat) (toFlush : Bool)
    (m : Mapping) : responseException be (sft.withUnit u) code toFlush m =
      (responseException be sft code toFlush m).withUnit be u := by
  have h : buildResponseBasis be { sft.withUnit u with function := sft.function + 0x80 } ++
      [lo code] = withUnit be u
        (buildResponseBasis be { sft with function := sft.function + 0x80 } ++ [lo code]) :=
    basis_append_withUnit u { sft with function := sft.function + 0x80 } [lo code]
  exact congrArg (fun rsp => Reply.mk rsp toFlush m) h

/-! ### The handlers -/

section Handlers

variable (u : UInt8) (sft : Sft) (req : List UInt8) (reqLength : Int) (address : Nat) (m : Mapping)

theorem replyReadBits_withUnit (isInput : Bool) :
    replyReadBits be (sft.withUnit u) (withUnit be u req) address m isInput =
      (replyReadBits be sft req address m isInput).map (Reply.withUnit be u) := by
  simp only [replyReadBits, rdWord_withUnit, responseException_withUnit, basis_append_withUnit]
  refine bind_map_congr fun nb _ => bind_map_congr fun mappingAddress _ => ?_
  refine ite_map_congr (fun _ => rfl) fun _ => bind_map_congr fun outside _ => ?_
  exact ite_map_congr (fun _ => rfl) fun _ => bind_map_congr fun status _ => rfl

theorem replyReadRegisters_withUnit (isInput : Bool) :
    replyReadRegisters be (sft.withUnit u) (withUnit be u req) address m isInput =
      (replyReadRegisters be sft req address m isInput).map (Reply.withUnit be u) := by
  simp only [replyReadRegisters, rdWord_withUnit, responseException_withUnit,
    basis_append_withUnit]
  refine bind_map_congr fun nb _ => bind_map_congr fun mappingAddress _ => ?_
  refine ite_map_congr (fun _ => rfl) fun _ => bind_map_congr fun outside _ => ?_
  exact ite_map_congr (fun _ => rfl) fun _ => bind_map_congr fun values _ => rfl

/-- An echo is copied from the start of the request. -/
theorem echo_withUnit (n : Nat) (m' : Mapping) :
    (rdSlice (withUnit be u req) 0 n >>= fun rsp => (.ok ⟨rsp, false, m'⟩ : Run Reply)) =
      (rdSlice req 0 n >>= fun rsp => (.ok ⟨rsp, false, m'⟩ : Run Reply)).map
        (Reply.withUnit be u) := by
  rw [rdSlice_withUnit_zero]
  cases rdSlice req 0 n with
  | error e => rfl
  | ok rsp => rfl

theorem replyWriteSingleCoil_withUnit :
    replyWriteSingleCoil be (sft.withUnit u) (withUnit be u req) reqLength address m =
      (replyWriteSingleCoil be sft req reqLength address m).map (Reply.withUnit be u) := by
  simp only [replyWriteSingleCoil, rdWord_withUnit, responseException_withUnit,
    computeResponseLength_withUnit]
  refine bind_map_congr fun mappingAddress _ => ite_map_congr (fun _ => rfl) fun _ => ?_
  refine bind_map_congr fun rspLength _ => ite_map_congr (fun _ => rfl) fun _ => ?_
  refine bind_map_congr fun data _ => ite_map_congr (fun _ => ?_) fun _ => rfl
  exact bind_map_congr fun bits _ => echo_withUnit u req _ _

theorem replyWriteSingleRegister_withUnit :
    replyWriteSingleRegister be (sft.withUnit u) (withUnit be u req) reqLength address m =
      (replyWriteSingleRegister be sft req reqLength address m).map (Reply.withUnit be u) := by
  simp only [replyWriteSingleRegister, rdWord_withUnit, responseException_withUnit,
    computeResponseLength_withUnit]
  refine bind_map_congr fun mappingAddress _ => ite_map_congr (fun _ => rfl) fun _ => ?_
  refine bind_map_congr fun rspLength _ => ite_map_congr (fun _ => rfl) fun _ => ?_
  exact bind_map_congr fun data _ => bind_map_congr fun registers _ => echo_withUnit u req _ _

theorem replyMaskWriteRegister_withUnit :
    replyMaskWriteRegister be (sft.withUnit u) (withUnit be u req) reqLength address m =
      (replyMaskWriteRegister be sft req reqLength address m).map (Reply.withUnit be u) := by
  simp only [replyMaskWriteRegister, rdWord_withUnit, responseException_withUnit,
    computeResponseLength_withUnit]
  refine bind_map_congr fun mappingAddress _ => ite_map_congr (fun _ => rfl) fun _ => ?_
  refine bind_map_congr fun and _ => bind_map_congr fun or _ => bind_map_congr fun rspLength _ => ?_
  refine ite_map_congr (fun _ => rfl) fun _ => bind_map_congr fun data _ => ?_
  exact bind_map_congr fun registers _ => echo_withUnit u req _ _

/-- The other echo, of address and quantity, is copied behind the new header. -/
theorem quantity_withUnit (m' : Mapping) :
    (rdSlice (withUnit be u req) (buildResponseBasis be (sft.withUnit u)).length 4 >>= fun echo =>
        (.ok ⟨buildResponseBasis be (sft.withUnit u) ++ echo, false, m'⟩ : Run Reply)) =
      (rdSlice req (buildResponseBasis be sft).length 4 >>= fun echo =>
        (.ok ⟨buildResponseBasis be sft ++ echo, false, m'⟩ : Run Reply)).map
          (Reply.withUnit be u) := by
  rw [length_buildResponseBasis, length_buildResponseBasis,
    rdSlice_withUnit_of_lt u req 4 (Nat.le_succ _)]
  refine bind_map_congr fun echo _ => ?_
  rw [basis_append_withUnit]
  rfl

theorem replyWriteMultipleCoils_withUnit :
    replyWriteMultipleCoils be (sft.withUnit u) (withUnit be u req) address m =
      (replyWriteMultipleCoils be sft req address m).map (Reply.withUnit be u) := by
  simp only [replyWriteMultipleCoils, rdWord_withUnit, rd_withUnit_add,
    responseException_withUnit, modbusSetBitsFromBytes, setBitsLoop_withUnit]
  refine bind_map_congr fun nb _ => bind_map_congr fun nbBits _ => ?_
  refine bind_map_congr fun mappingAddress _ => ite_map_congr (fun _ => rfl) fun _ => ?_
  refine bind_map_congr fun outside _ => ite_map_congr (fun _ => rfl) fun _ => ?_
  exact bind_map_congr fun bits _ => quantity_withUnit u sft req _

theorem replyWriteMultipleRegisters_withUnit :
    replyWriteMultipleRegisters be (sft.withUnit u) (withUnit be u req) address m =
      (replyWriteMultipleRegisters be sft req address m).map (Reply.withUnit be u) := by
  simp only [replyWriteMultipleRegisters, rdWord_withUnit, rd_withUnit_add,
    responseException_withUnit, writeRegisters_withUnit]
  refine bind_map_congr fun nb _ => bind_map_congr fun nbBytes _ => ?_
  refine bind_map_congr fun mappingAddress _ => ite_map_congr (fun _ => rfl) fun _ => ?_
  refine bind_map_congr fun outside _ => ite_map_congr (fun _ => rfl) fun _ => ?_
  exact bind_map_congr fun registers _ => quantity_withUnit u sft req _

theorem replyWriteAndReadRegisters_withUnit :
    replyWriteAndReadRegisters be (sft.withUnit u) (withUnit be u req) address m =
      (replyWriteAndReadRegisters be sft req address m).map (Reply.withUnit be u) := by
  simp only [replyWriteAndReadRegisters, rdWord_withUnit, rd_withUnit_add,
    responseException_withUnit, writeRegisters_withUnit, basis_append_withUnit]
  refine bind_map_congr fun nb _ => bind_map_congr fun addressWrite _ => ?_
  refine bind_map_congr fun nbWrite _ => bind_map_congr fun nbWriteBytes _ => ?_
  refine bind_map_congr fun mappingAddress _ => bind_map_congr fun mappingAddressWrite _ => ?_
  refine ite_map_congr (fun _ => rfl) fun _ => bind_map_congr fun outside _ => ?_
  refine ite_map_congr (fun _ => rfl) fun _ => bind_map_congr fun outside' _ => ?_
  refine ite_map_congr (fun _ => rfl) fun _ => bind_map_congr fun registers _ => ?_
  exact bind_map_congr fun values _ => rfl

theorem replySwitch_withUnit (ver : VersionString) :
    replySwitch be (sft.withUnit u) (withUnit be u req) reqLength address m ver =
      (replySwitch be sft req reqLength address m ver).map (Reply.withUnit be u) := by
  refine ite_map_congr (fun _ => replyReadBits_withUnit u sft req address m false) fun _ => ?_
  refine ite_map_congr (fun _ => replyReadBits_withUnit u sft req address m true) fun _ => ?_
  refine ite_map_congr (fun _ => replyReadRegisters_withUnit u sft req address m false) fun _ => ?_
  refine ite_map_congr (fun _ => replyReadRegisters_withUnit u sft req address m true) fun _ => ?_
  refine ite_map_congr (fun _ => replyWriteSingleCoil_withUnit u sft req reqLength address m)
    fun _ => ?_
  refine ite_map_congr (fun _ => replyWriteSingleRegister_withUnit u sft req reqLength address m)
    fun _ => ?_
  refine ite_map_congr (fun _ => replyWriteMultipleCoils_withUnit u sft req address m) fun _ => ?_
  refine ite_map_congr (fun _ => replyWriteMultipleRegisters_withUnit u sft req address m)
    fun _ => ?_
  refine ite_map_congr (fun _ => ?_) fun _ => ?_
  · exact congrArg (fun rsp => Except.ok (Reply.mk rsp false m)) (basis_append_withUnit u sft _)
  refine ite_map_congr (fun _ => replyMaskWriteRegister_withUnit u sft req reqLength address m)
    fun _ => ?_
  refine ite_map_congr (fun _ => replyWriteAndReadRegisters_withUnit u sft req address m)
    fun _ => ?_
  exact congrArg Except.ok (responseException_withUnit u sft _ true m)

/-- **The unit of a request shows in its response only.** -/
theorem buildReply_withUnit (ver : VersionString) :
    buildReply ver be (withUnit be u req) reqLength m =
      (buildReply ver be req reqLength m).map (Reply.withUnit be u) := by
  unfold buildReply
  simp only [rd_withUnit_function, rdWord_withUnit, getResponseTid_withUnit, neededLength_withUnit]
  by_cases hunit : be.headerLength - 1 < req.length
  · rw [rd_withUnit_unit (rd_lt hunit), rd_lt hunit, ok_bind, ok_bind]
    refine bind_map_congr fun function _ => ?_
    -- behind the address, which a short request has not
    have hrest : ∀ address, (getResponseTid be req >>= fun tId =>
          neededLength be req reqLength function.toNat >>= fun needed =>
            if reqLength < needed then
              .ok (responseException be (Sft.withUnit u ⟨(req.get ⟨_, hunit⟩).toNat,
                function.toNat, tId⟩) exceptionIllegalDataValue true m)
            else replySwitch be (Sft.withUnit u ⟨(req.get ⟨_, hunit⟩).toNat, function.toNat, tId⟩)
              (withUnit be u req) reqLength address m ver) =
        (getResponseTid be req >>= fun tId =>
          neededLength be req reqLength function.toNat >>= fun needed =>
            if reqLength < needed then
              .ok (responseException be ⟨(req.get ⟨_, hunit⟩).toNat, function.toNat, tId⟩
                exceptionIllegalDataValue true m)
            else replySwitch be ⟨(req.get ⟨_, hunit⟩).toNat, function.toNat, tId⟩ req reqLength
              address m ver).map (Reply.withUnit be u) := by
      intro address
      refine bind_map_congr fun tId _ => bind_map_congr fun needed _ => ?_
      refine ite_map_congr (fun _ => ?_) fun _ => ?_
      · exact congrArg Except.ok (responseException_withUnit u _ _ true m)
      · exact replySwitch_withUnit u _ req reqLength address m ver
    exact ite_map_congr (fun _ => bind_map_congr fun address _ => hrest address) fun _ => hrest 0
  · have hshort : req.length ≤ be.headerLength - 1 := Nat.le_of_not_lt hunit
    rw [rd_ge hshort, rd_ge (by rw [length_withUnit]; exact hshort)]
    rfl

end Handlers

/-! ### What is left and what is sent -/

/-- Where responses are suppressed nothing is sent, and the run ends when there is a reply. -/
theorem modbusReply_suppressed (os : Os σ) (ver : VersionString) {st : St (Recorded σ)}
    {req : List UInt8} {reqLength : Int} {m : Mapping} {slave : UInt8}
    (hslave : rd req (st.ctx.backend.headerLength - 1) = .ok slave)
    (hlen : ((st.ctx.backend.headerLength + 1 : Nat) : Int) ≤ reqLength)
    (hsup : suppressed st.ctx slave = true) :
    (modbusReply (recordOs os) ver st req reqLength m).map
        (fun r => (r.1, r.2.1, r.2.2.os.sent)) =
      (buildReply ver st.ctx.backend req reqLength m).map
        fun reply => (0, reply.mapping, st.os.sent) := by
  rw [modbusReply_eq, if_neg (not_lt.mpr hlen), hslave, ok_bind]
  cases buildReply ver st.ctx.backend req reqLength m with
  | error e => rfl
  | ok reply =>
    rw [ok_bind]
    by_cases hflush : reply.flush = true
    · obtain ⟨e, s, hs⟩ := sleepAndFlush_ok (recordOs os) st
      have hsent : s.sent = st.os.sent := ((sleepAndFlush_moved (recordOs_quiet os) st).result hs).os
      have hsup' : suppressed (⟨st.ctx, e, s⟩ : St (Recorded σ)).ctx slave = true := hsup
      rw [if_pos hflush, hs, ok_bind, sendReply, if_pos hsup']
      show Except.ok (0, reply.mapping, s.sent) = _
      rw [hsent]
      rfl
    · rw [if_neg hflush, sendReply, if_pos hsup]
      rfl

/-- The PDU of a frame. -/
def pduOfFrame (be : Backend) (frame : List UInt8) : List UInt8 :=
  (frame.drop be.headerLength).take (frame.length - be.headerLength - be.checksumLength)

/-- `send_msg_pre` leaves the PDU alone. -/
theorem pduOfFrame_sendMsgPre {rsp : List UInt8} (h : be.headerLength ≤ rsp.length) :
    pduOfFrame be (sendMsgPre be rsp) = rsp.drop be.headerLength := by
  cases be with
  | rtu =>
    obtain ⟨unit, pdu, rfl⟩ := List.exists_cons_of_ne_nil (List.ne_nil_of_length_pos h)
    show (pdu ++ _).take ((pdu ++ _).length + 1 - 1 - 2) = pdu
    rw [List.length_append, Nat.add_sub_cancel]
    exact List.take_left
  | tcp =>
    have hdrop : (sendMsgPre .tcp rsp).drop 7 = rsp.drop 7 := by
      rw [sendMsgPre, List.drop_set_of_lt (by decide), List.drop_set_of_lt (by decide)]
    show ((sendMsgPre .tcp rsp).drop 7).take ((sendMsgPre .tcp rsp).length - 7 - 0) = rsp.drop 7
    rw [hdrop]
    refine List.take_of_length_le ?_
    rw [List.length_drop, sendMsgPre, List.length_set, List.length_set]
    omega

/-- Replies to requests that differ in their unit have one PDU. -/
theorem pduOfFrame_withUnit {ver : VersionString} {req : List UInt8} {reqLength : Int}
    {m : Mapping} {reply : Reply} (h : buildReply ver be req reqLength m = .ok reply) (u : UInt8) :
    pduOfFrame be (sendMsgPre be (reply.withUnit be u).rsp) =
      pduOfFrame be (sendMsgPre be reply.rsp) := by
  have hpos := (headerLength_le be).1
  have hlen : be.headerLength ≤ reply.rsp.length := (length_buildReply h).1.le
  have hlen' : be.headerLength ≤ (reply.withUnit be u).rsp.length := by
    show _ ≤ (withUnit be u reply.rsp).length
    rw [length_withUnit]
    exact hlen
  rw [pduOfFrame_sendMsgPre hlen, pduOfFrame_sendMsgPre hlen']
  exact List.drop_set_of_lt (by omega)

/-! ### Two runs -/

/-- The run `x` of a broadcast on RTU returns 0 and sends nothing, and leaves the mapping that the
request leaves under any unit, on any context and system.  It stops only where these runs do. -/
def ActsSilently (ver : VersionString) (st : St (Recorded σ)) (req : List UInt8) (reqLength : Int)
    (m : Mapping) (x : Run (Int × Mapping × St (Recorded σ))) : Prop :=
  Ends x
    (fun r => r.1 = 0 ∧ r.2.2.os.sent = st.os.sent ∧
      ∀ (u : UInt8) {τ : Type} (os : Os τ) (st' : St τ), st'.ctx.backend = .rtu →
        Ends (modbusReply os ver st' (withUnit .rtu u req) reqLength m)
          (fun r' => r'.2.1 = r.2.1) (Retries os st'.ctx))
    (fun e => ∀ (u : UInt8) {τ : Type} (os : Os τ) (st' : St τ), st'.ctx.backend = .rtu →
      modbusReply os ver st' (withUnit .rtu u req) reqLength m = .error e)

/-- The runs `x` and `y` leave one mapping and hand over frames with one PDU; a request that is
too short for a function code is answered by neither. -/
def AnswersAlike {τ : Type} (os : Os σ) (os' : Os τ) (st : St (Recorded σ))
    (st' : St (Recorded τ)) (reqLength : Int) (x : Run (Int × Mapping × St (Recorded σ)))
    (y : Run (Int × Mapping × St (Recorded τ))) : Prop :=
  Ends x
    (fun r => Ends y
      (fun r' => r'.2.1 = r.2.1 ∧ ∃ frame frame',
        Sends st.ctx frame st.os r.2.2.os ∧ Sends st'.ctx frame' st'.os r'.2.2.os ∧
        frame.map (pduOfFrame st.ctx.backend) = frame'.map (pduOfFrame st.ctx.backend) ∧
        (frame.isSome ↔ ((st.ctx.backend.headerLength + 1 : Nat) : Int) ≤ reqLength))
      (Retries os' st'.ctx))
    (fun e => Retries os st.ctx e ∨ y = .error e)

section Runs

variable (os : Os σ) (ver : VersionString) {st : St (Recorded σ)} {req : List UInt8}
  {reqLength : Int} (m : Mapping)

/-- **Suppressed.** -/
theorem broadcast_silent (hbe : st.ctx.backend = .rtu)
    (hquirk : st.ctx.quirks.replyToBroadcast = false) (h0 : rd req 0 = .ok 0)
    (hlen : 2 ≤ reqLength) :
    ActsSilently ver st req reqLength m (modbusReply (recordOs os) ver st req reqLength m) := by
  have hslave : rd req (st.ctx.backend.headerLength - 1) = .ok 0 := by
    rw [hbe]
    exact h0
  have hsup : suppressed st.ctx 0 = true := by
    rw [suppressed, hbe, hquirk]
    rfl
  have hroom : ∀ be : Backend, be = .rtu → ((be.headerLength + 1 : Nat) : Int) ≤ reqLength := by
    rintro be rfl
    exact hlen
  have hrun := modbusReply_suppressed os ver (m := m) hslave (hroom _ hbe) hsup
  rw [hbe] at hrun
  -- a unicast run has the reply of the broadcast, with its own unit
  have hunit : ∀ u, rd (withUnit .rtu u req) (Backend.rtu.headerLength - 1) = .ok u := fun u =>
    rd_withUnit_unit h0
  cases hb : buildReply ver .rtu req reqLength m with
  | error e =>
    rw [hb] at hrun
    cases hx : modbusReply (recordOs os) ver st req reqLength m with
    | ok r =>
      rw [hx] at hrun
      cases hrun
    | error e' =>
      rw [hx] at hrun
      cases hrun
      intro u τ os' st' hbe'
      refine modbusReply_error os' ver (by rw [hbe']; exact hunit u) (hroom _ hbe') ?_
      rw [hbe', buildReply_withUnit, hb]
      rfl
  | ok reply =>
    rw [hb] at hrun
    cases hx : modbusReply (recordOs os) ver st req reqLength m with
    | error e =>
      rw [hx] at hrun
      cases hrun
    | ok r =>
      rw [hx] at hrun
      obtain ⟨hrc, hrest⟩ := Prod.mk.inj (Except.ok.inj hrun)
      obtain ⟨hm, hsent⟩ := Prod.mk.inj hrest
      refine ⟨hrc, hsent, fun u τ os' st' hbe' => ?_⟩
      refine (modbusReply_leaves os' ver (by rw [hbe']; exact hunit u) (hroom _ hbe')).imp
        (fun r' h => ?_) fun e h => ?_
      · obtain ⟨reply', hreply', hm'⟩ := h
        rw [hbe', buildReply_withUnit, hb] at hreply'
        cases hreply'
        exact hm'.trans hm.symm
      · refine h.resolve_right fun herr => ?_
        rw [hbe', buildReply_withUnit, hb] at herr
        cases herr

/-- **Not suppressed.** -/
theorem broadcast_answered (hsup : st.ctx.backend = .tcp ∨ st.ctx.quirks.replyToBroadcast = true)
    (h0 : rd req (st.ctx.backend.headerLength - 1) = .ok 0) {u : UInt8} (hu : u ≠ 0) {τ : Type}
    (os' : Os τ) (st' : St (Recorded τ)) (hbe : st'.ctx.backend = st.ctx.backend) :
    AnswersAlike os os' st st' reqLength (modbusReply (recordOs os) ver st req reqLength m)
      (modbusReply (recordOs os') ver st' (withUnit st.ctx.backend u req) reqLength m) := by
  by_cases hlen : ((st.ctx.backend.headerLength + 1 : Nat) : Int) ≤ reqLength
  swap
  · rw [modbusReply_eq, modbusReply_eq, hbe, if_pos (not_le.mp hlen), if_pos (not_le.mp hlen)]
    refine ⟨rfl, none, none, rfl, rfl, rfl, ?_⟩
    exact ⟨fun h => absurd h Bool.false_ne_true, fun h => absurd h hlen⟩
  -- three ways not to be silenced
  have hloud : ∀ {ctx : Modbus} {slave : UInt8}, ctx.backend = .tcp ∨ slave ≠ 0 ∨
      ctx.quirks.replyToBroadcast = true → suppressed ctx slave = false := by
    intro ctx slave h
    unfold suppressed
    rcases h with h | h | h
    · rw [h]
      rfl
    · have hne : ¬ slave.toNat = broadcastAddress := fun h0 => h (UInt8.toNat_inj.mp h0)
      rw [decide_eq_false hne, Bool.and_false, Bool.false_and]
    · rw [h, Bool.not_true, Bool.and_false]
  have hslave' : rd (withUnit st.ctx.backend u req) (st'.ctx.backend.headerLength - 1) = .ok u := by
    rw [hbe]
    exact rd_withUnit_unit h0
  have hlen' : ((st'.ctx.backend.headerLength + 1 : Nat) : Int) ≤ reqLength := by
    rw [hbe]
    exact hlen
  have hbuild : buildReply ver st.ctx.backend (withUnit st.ctx.backend u req) reqLength m =
      (buildReply ver st.ctx.backend req reqLength m).map (Reply.withUnit st.ctx.backend u) :=
    buildReply_withUnit u req reqLength m ver
  -- the unit reaches nothing but the header of the response
  cases hb : buildReply ver st.ctx.backend req reqLength m with
  | error e =>
    rw [hb] at hbuild
    rw [modbusReply_error (recordOs os) ver h0 hlen hb]
    refine Or.inr (modbusReply_error (recordOs os') ver hslave' hlen' ?_)
    rw [hbe]
    exact hbuild
  | ok reply =>
    rw [hb] at hbuild
    refine (modbusReply_answers os ver h0 hlen (hloud (hsup.imp_right Or.inr)) hb).imp
      (fun r h => ?_) fun e h => Or.inl h
    obtain ⟨hm, hhanded⟩ := h
    have hb' : buildReply ver st'.ctx.backend (withUnit st.ctx.backend u req) reqLength m =
        .ok (reply.withUnit st.ctx.backend u) := by
      rw [hbe]
      exact hbuild
    refine (modbusReply_answers os' ver hslave' hlen' (hloud (Or.inr (Or.inl hu))) hb').imp
      (fun r' h' => ?_) fun e h' => h'
    obtain ⟨hm', hhanded'⟩ := h'
    refine ⟨hm'.trans hm.symm, some (sendMsgPre st.ctx.backend reply.rsp),
      some (sendMsgPre st'.ctx.backend (reply.withUnit st.ctx.backend u).rsp), hhanded, hhanded', ?_,
      fun _ => hlen, fun _ => rfl⟩
    rw [hbe, Option.map_some, Option.map_some, pduOfFrame_withUnit hb]

/-- **Broadcasts act like unicasts, but stay silent.**  On RTU without the quirk a request for
unit 0 is not answered and changes the mapping as under any other unit, whatever the request, and
the run ends where tables and request are as long as they are said to be; with the quirk, and on
TCP, its response has the PDU of the response under another unit. -/
theorem broadcasts_act_like_unicasts
    (h0 : rd req (st.ctx.backend.headerLength - 1) = .ok 0) (hlen : 2 ≤ reqLength) :
    (st.ctx.backend = .rtu → st.ctx.quirks.replyToBroadcast = false →
      ActsSilently ver st req reqLength m (modbusReply (recordOs os) ver st req reqLength m) ∧
      (StartsSafe m → reqLength ≤ (req.length : Int) →
        ∃ r, modbusReply (recordOs os) ver st req reqLength m = .ok r)) ∧
    (st.ctx.backend = .tcp ∨ st.ctx.quirks.replyToBroadcast = true →
      ∀ (u : UInt8) {τ : Type} (os' : Os τ) (st' : St (Recorded τ)), u ≠ 0 →
        st'.ctx.backend = st.ctx.backend →
        AnswersAlike os os' st st' reqLength (modbusReply (recordOs os) ver st req reqLength m)
          (modbusReply (recordOs os') ver st' (withUnit st.ctx.backend u req) reqLength m)) := by
  refine ⟨fun hbe hquirk => ⟨?_, fun hsafe hreq => ?_⟩, fun hsup u τ os' st' hu hbe => ?_⟩
  · rw [hbe] at h0
    exact broadcast_silent os ver m hbe hquirk h0 hlen
  · have hsup : suppressed st.ctx 0 = true := by
      rw [suppressed, hbe, hquirk]
      rfl
    have hroom : ((st.ctx.backend.headerLength + 1 : Nat) : Int) ≤ reqLength := by
      rw [hbe]
      exact hlen
    have hrun := modbusReply_suppressed os ver (m := m) h0 hroom hsup
    have hends : Ends (buildReply ver st.ctx.backend req reqLength m) (fun _ => True)
        fun _ => False := ends_buildReply hsafe (Or.inl (by omega)) (Or.inl (by omega))
    cases hx : modbusReply (recordOs os) ver st req reqLength m with
    | ok r => exact ⟨r, rfl⟩
    | error e =>
      rw [hx] at hrun
      cases hb : buildReply ver st.ctx.backend req reqLength m with
      | error e' => exact absurd (hends.stop hb) id
      | ok reply =>
        rw [hb] at hrun
        cases hrun
  · exact broadcast_answered os ver m hsup h0 hu os' st' hbe

/-- A register is written by a broadcast, whose CRC is not looked at; over TCP it is answered as
under unit 17. -/
theorem broadcasts_act_like_unicasts_sample :
    ActsSilently ⟨[], by decide⟩ (recordedSt .rtu 1) [0, 6, 0, 101, 1, 2, 0, 0] 8 sampleMapping
      (modbusReply (recordOs (linkOs 1)) ⟨[], by decide⟩ (recordedSt .rtu 1)
        [0, 6, 0, 101, 1, 2, 0, 0] 8 sampleMapping) ∧
    (∃ r, modbusReply (recordOs (linkOs 1)) ⟨[], by decide⟩ (recordedSt .rtu 1)
      [0, 6, 0, 101, 1, 2, 0, 0] 8 sampleMapping = .ok r) ∧
    AnswersAlike (linkOs 1) (linkOs 1) (recordedSt .tcp 255) (recordedSt .tcp 255) 12
      (modbusReply (recordOs (linkOs 1)) ⟨[], by decide⟩ (recordedSt .tcp 255)
        [0, 7, 0, 0, 0, 6, 0, 6, 0, 101, 1, 2] 12 sampleMapping)
      (modbusReply (recordOs (linkOs 1)) ⟨[], by decide⟩ (recordedSt .tcp 255)
        [0, 7, 0, 0, 0, 6, 17, 6, 0, 101, 1, 2] 12 sampleMapping) := by
  have hsafe : StartsSafe sampleMapping :=
    ⟨by unfold Table.StartSafe; decide, by unfold Table.StartSafe; decide,
      by unfold Table.StartSafe; decide, by unfold Table.StartSafe; decide⟩
  exact ⟨((broadcasts_act_like_unicasts (linkOs 1) ⟨[], by decide⟩ sampleMapping rfl
      (by decide)).1 rfl rfl).1,
    ((broadcasts_act_like_unicasts (linkOs 1) ⟨[], by decide⟩ sampleMapping rfl
      (by decide)).1 rfl rfl).2 hsafe (Int.le_refl 8),
    (broadcasts_act_like_unicasts (linkOs 1) ⟨[], by decide⟩ sampleMapping rfl (by decide)).2
      (Or.inl rfl) 17 (linkOs 1) (recordedSt .tcp 255) (by decide) rfl⟩

end Runs

end Libmodbus
