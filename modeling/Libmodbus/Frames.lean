/-
Libmodbus/Frames.lean

ADUs as values: a PDU in the envelope of a backend.  `Adu.bytes` lays one out
on the wire; the header fields that only TCP has are ignored in RTU.

`Framed mt pdu` says that a PDU has the length its own function code and byte
count declare, which is all the receive loop relies on.  The shapes that the
protocol gives to requests and responses (`RequestPdu`, `ResponsePdu`) are
framed, and a framed ADU at the front of a stream is received whole
(`modbusReceiveMsg_adu`).
-/
import Libmodbus.Framing

namespace Libmodbus

open CSem Wire Posix

variable {σ : Type} {be : Backend} {mt : MsgType}

/-! ### ADUs -/

structure Adu where
  tId : UInt16
  protocol : UInt16
  length : UInt16
  unit : UInt8
  pdu : List UInt8
  deriving DecidableEq, Repr, Inhabited

/-- An ADU for RTU; the fields of the TCP header are not on the wire. -/
def rtuAdu (slave : UInt8) (pdu : List UInt8) : Adu := ⟨0, 0, 0, slave, pdu⟩

namespace Adu

/-- What stands before the PDU. -/
def header : Backend → Adu → List UInt8
  | .rtu, a => [a.unit]
  | .tcp, a => bigEndian [a.tId, a.protocol, a.length] ++ [a.unit]

/-- What stands behind it: the CRC, low byte first. -/
def checksum : Backend → Adu → List UInt8
  | .rtu, a => [lo (crc16 (a.unit :: a.pdu)), hi (crc16 (a.unit :: a.pdu))]
  | .tcp, _ => []

/-- The PDU in the envelope of a backend, with any bytes behind it. -/
def wrapped (be : Backend) (a : Adu) (trailer : List UInt8) : List UInt8 :=
  a.header be ++ (a.pdu ++ trailer)

/-- The frame on the wire. -/
def bytes (be : Backend) (a : Adu) : List UInt8 := a.wrapped be (a.checksum be)

@[simp] theorem length_header (a : Adu) : (a.header be).length = be.headerLength := by
  cases be <;> rfl

@[simp] theorem length_checksum (a : Adu) : (a.checksum be).length = be.checksumLength := by
  cases be <;> rfl

@[simp] theorem length_wrapped (a : Adu) (trailer : List UInt8) :
    (a.wrapped be trailer).length = be.headerLength + a.pdu.length + trailer.length := by
  simp [wrapped, Nat.add_assoc]

@[simp] theorem length_bytes (a : Adu) :
    (a.bytes be).length = be.headerLength + a.pdu.length + be.checksumLength := by
  rw [bytes, length_wrapped, length_checksum]

/-- Behind the header the frame shows its PDU. -/
theorem rd_wrapped (a : Adu) (trailer : List UInt8) {i : Nat} (hi : i < a.pdu.length) :
    rd (a.wrapped be trailer) (be.headerLength + i) = rd a.pdu i := by
  have hlen : i < (a.pdu ++ trailer).length := by
    rw [List.length_append]
    omega
  rw [wrapped, rd_append_add _ _ (length_header a) hlen, rd_append_left _ hi]

/-- The last byte of the header is the unit, in RTU the slave. -/
theorem rd_wrapped_unit (a : Adu) (trailer : List UInt8) :
    rd (a.wrapped be trailer) (be.headerLength - 1) = .ok a.unit := by
  cases be <;> rfl

end Adu

/-! ### Sending one ADU -/

/-- The ADU with the length field that `send_msg_pre` writes. -/
def Adu.sealed (a : Adu) : Adu := { a with length := UInt16.ofNat (a.pdu.length + 1) }

/-- `send_msg_pre` completes a header and a PDU to a frame. -/
theorem sendMsgPre_header (a : Adu) :
    sendMsgPre be (a.header be ++ a.pdu) = a.sealed.bytes be := by
  cases be with
  | rtu =>
    show (a.unit :: a.pdu) ++ _ = [a.unit] ++ (a.pdu ++ _)
    rfl
  | tcp =>
    have hfield : ((a.sealed.length.toNat : Nat) : Int) =
        ((a.pdu.length + 1 : Nat) : Int) % 65536 := by
      show ((UInt16.ofNat (a.pdu.length + 1)).toNat : Int) = _
      rw [UInt16.toNat_ofNat']
      rfl
    have hlen : (((a.header .tcp ++ a.pdu).length : Nat) : Int) - 6 = (a.pdu.length + 1 : Nat) := by
      rw [List.length_append, Adu.length_header]
      simp only [Backend.headerLength]
      omega
    simp only [sendMsgPre, hlen]
    simp only [Adu.bytes, Adu.wrapped, Adu.header, Adu.checksum, bigEndian_cons, bigEndian_nil,
      hfield, hi_emod, lo_emod]
    rw [List.append_nil]
    rfl

/-- `send_msg` on a frame that is complete. -/
def sendAdu (os : Os σ) (st : St σ) (a : Adu) : Run (Int × St σ) :=
  sendLoop os os.fuel st (a.bytes st.ctx.backend)

theorem sendMsg_header (os : Os σ) (st : St σ) (a : Adu) :
    sendMsg os st (a.header st.ctx.backend ++ a.pdu) = sendAdu os st a.sealed := by
  rw [sendMsg, sendMsgPre_header, sendAdu]

/-! ### Framed PDUs -/

/-- The length a PDU declares, if it is long enough to declare one. -/
def pduLength (mt : MsgType) (pdu : List UInt8) : Option Nat :=
  match pdu with
  | [] => none
  | function :: _ =>
    match byteCountPos function.toNat mt with
    | none => some (1 + computeMetaLengthAfterFunction function.toNat mt)
    | some pos => pdu[pos]?.map fun byteCount =>
        1 + computeMetaLengthAfterFunction function.toNat mt + byteCount.toNat

/-- The PDU has the length it declares, and fits an ADU. -/
def Framed (mt : MsgType) (pdu : List UInt8) : Prop :=
  pduLength mt pdu = some pdu.length ∧ pdu.length ≤ maxPduLength

instance (mt : MsgType) (pdu : List UInt8) : Decidable (Framed mt pdu) :=
  inferInstanceAs (Decidable (_ ∧ _))

theorem Framed.ne_nil {pdu : List UInt8} (h : Framed mt pdu) : pdu ≠ [] := by
  rintro rfl
  exact absurd h.1 (by simp [pduLength])

/-- A framed PDU is as long as its meta fields at least. -/
theorem Framed.meta_le {pdu : List UInt8} {function : UInt8} (h : Framed mt pdu)
    (hf : rd pdu 0 = .ok function) :
    1 + computeMetaLengthAfterFunction function.toNat mt ≤ pdu.length := by
  have hlen := h.1
  obtain ⟨b, data, rfl⟩ := List.exists_cons_of_ne_nil h.ne_nil
  cases hf
  simp only [pduLength] at hlen
  cases hpos : byteCountPos function.toNat mt with
  | none =>
    rw [hpos] at hlen
    exact Nat.le_of_eq (Option.some.inj hlen)
  | some pos =>
    rw [hpos] at hlen
    obtain ⟨byteCount, -, hsum⟩ := Option.map_eq_some_iff.mp hlen
    omega

/-- Behind a byte count there are as many bytes. -/
theorem Framed.byteCount {pdu : List UInt8} {function : UInt8} {pos : Nat} (h : Framed mt pdu)
    (hf : rd pdu 0 = .ok function) (hpos : byteCountPos function.toNat mt = some pos) :
    ∃ byteCount, rd pdu pos = .ok byteCount ∧ pdu.length = pos + 1 + byteCount.toNat := by
  have hlen := h.1
  obtain ⟨b, data, rfl⟩ := List.exists_cons_of_ne_nil h.ne_nil
  cases hf
  simp only [pduLength, hpos] at hlen
  obtain ⟨byteCount, hbc, hsum⟩ := Option.map_eq_some_iff.mp hlen
  have hpm := byteCountPos_eq_meta hpos
  exact ⟨byteCount, rd_of_getElem? hbc, by omega⟩

/-- An ADU declares its own length iff its PDU does. -/
theorem Adu.messageLength_bytes {a : Adu} (h : Framed mt a.pdu) :
    messageLength be mt (a.bytes be) = .ok (a.bytes be).length := by
  obtain ⟨function, data, hpdu⟩ : ∃ function data, a.pdu = function :: data := by
    cases hp : a.pdu with
    | nil => exact absurd hp h.ne_nil
    | cons function data => exact ⟨_, _, rfl⟩
  have hf : rd (a.bytes be) be.headerLength = .ok function := by
    have h0 : 0 < a.pdu.length := List.length_pos_of_ne_nil h.ne_nil
    show rd (a.bytes be) (be.headerLength + 0) = _
    rw [Adu.bytes, a.rd_wrapped _ h0, hpdu]
    rfl
  have hlen := h.1
  simp only [messageLength, computeDataLengthAfterMeta, hf, ok_bind]
  rw [hpdu] at hlen
  simp only [pduLength] at hlen
  cases hpos : byteCountPos function.toNat mt with
  | none =>
    simp only [hpos, Option.some.injEq] at hlen
    simp only [ok_bind, length_bytes, hpdu, ← hlen, Nat.add_assoc]
  | some pos =>
    simp only [hpos] at hlen
    obtain ⟨byteCount, hbc, hlen⟩ := Option.map_eq_some_iff.mp hlen
    obtain ⟨hi, -⟩ := List.getElem?_eq_some_iff.mp hbc
    have hrd : rd (a.bytes be) (be.headerLength + pos) = .ok byteCount := by
      rw [Adu.bytes, a.rd_wrapped _ (by rw [hpdu]; exact hi), hpdu]
      exact rd_of_getElem? hbc
    simp only [hrd, ok_bind, length_bytes, hpdu, ← hlen, Nat.add_assoc]

theorem Adu.length_bytes_le {a : Adu} (h : Framed mt a.pdu) :
    (a.bytes be).length ≤ be.maxAduLength := by
  have := h.2
  rw [length_bytes]
  simp only [maxPduLength] at this
  cases be <;> simp only [Backend.headerLength, Backend.checksumLength, Backend.maxAduLength] <;>
    omega

/-! ### The integrity check -/

/-- The ADU is for the context: RTU drops what is neither its own nor a broadcast. -/
def Addressed (ctx : Modbus) (a : Adu) : Prop :=
  ctx.backend = .rtu → (a.unit.toNat : Int) = ctx.slave ∨ a.unit.toNat = broadcastAddress

instance (ctx : Modbus) (a : Adu) : Decidable (Addressed ctx a) :=
  inferInstanceAs (Decidable (_ → _))

/-- What `check_integrity` says of a whole frame. -/
def Adu.verdict (ctx : Modbus) (a : Adu) : Int :=
  if Addressed ctx a then (a.bytes ctx.backend).length else 0

theorem checkIntegrity_tcp {os : Os σ} {st : St σ} {msg : List UInt8}
    (h : st.ctx.backend = .tcp) : checkIntegrity os st msg = .ok (msg.length, st) := by
  simp only [checkIntegrity, h]

/-- The last two bytes of an RTU frame are the CRC of the others. -/
theorem checkIntegrity_bytes {os : Os σ} {st : St σ} (a : Adu) :
    checkIntegrity os st (a.bytes st.ctx.backend) = .ok (a.verdict st.ctx, st) := by
  cases hbe : st.ctx.backend with
  | tcp =>
    have haddr : Addressed st.ctx a := fun h => absurd (hbe.symm.trans h) (by decide)
    rw [checkIntegrity_tcp hbe, Adu.verdict, if_pos haddr, hbe]
  | rtu =>
    set body := a.unit :: a.pdu with hbody
    have hbytes : a.bytes .rtu = body ++ [lo (crc16 body), hi (crc16 body)] := rfl
    have hlen : (a.bytes .rtu).length = body.length + 2 := by
      rw [hbytes, List.length_append]
      rfl
    have hslave : rd (a.bytes .rtu) 0 = .ok a.unit := rfl
    have htake : (a.bytes .rtu).take body.length = body := by
      rw [hbytes, List.take_left]
    have hcrcHi : rd (a.bytes .rtu) (body.length + 1) = .ok (hi (crc16 body)) := by
      rw [hbytes]
      exact rd_append_add body [lo (crc16 body), hi (crc16 body)] rfl (by decide : 1 < 2)
    have hcrcLo : rd (a.bytes .rtu) body.length = .ok (lo (crc16 body)) := by
      rw [hbytes]
      exact rd_append_add body [lo (crc16 body), hi (crc16 body)] rfl (by decide : 0 < 2)
    have hcrc : word (hi (crc16 body)) (lo (crc16 body)) = crc16 body :=
      word_hi_lo_nat (word_lt _ _)
    simp only [checkIntegrity, hbe, hlen, Nat.add_sub_cancel, hslave, htake,
      show body.length + 2 - 1 = body.length + 1 by omega, hcrcHi, hcrcLo, hcrc, ok_bind,
      ne_eq, not_true_eq_false, if_false]
    by_cases haddr : Addressed st.ctx a
    · have h := haddr hbe
      rw [Adu.verdict, if_pos haddr, if_neg (by tauto), hbe, hlen]
    · have h : ¬ ((a.unit.toNat : Int) = st.ctx.slave ∨ a.unit.toNat = broadcastAddress) :=
        fun h => haddr fun _ => h
      rw [Adu.verdict, if_neg haddr, if_pos (by tauto)]

/-! ### The pre-check of a confirmation -/

/-- On TCP a confirmation must carry the transaction id of the request, and protocol id 0. -/
theorem preCheckConfirmation_tcp (q r : Adu) (t t' : List UInt8) :
    preCheckConfirmation .tcp (q.wrapped .tcp t) (r.wrapped .tcp t') =
      .ok (if q.tId = r.tId ∧ r.protocol = 0 then none else some .EMBBADDATA) := by
  have htid : q.tId = r.tId ↔ hi q.tId.toNat = hi r.tId.toNat ∧ lo q.tId.toNat = lo r.tId.toNat := by
    constructor
    · intro h
      rw [h]
      exact ⟨rfl, rfl⟩
    · rintro ⟨h1, h2⟩
      rw [← ofNat_word_hi_lo q.tId, h1, h2, ofNat_word_hi_lo]
  have hprotocol : word (hi r.protocol.toNat) (lo r.protocol.toNat) = 0 ↔ r.protocol = 0 := by
    rw [word_hi_lo_nat r.protocol.toNat_lt]
    exact UInt16.toNat_inj (b := 0)
  show (if hi q.tId.toNat ≠ hi r.tId.toNat ∨ lo q.tId.toNat ≠ lo r.tId.toNat then
      Except.ok (some Errno.EMBBADDATA)
    else if word (hi r.protocol.toNat) (lo r.protocol.toNat) ≠ 0 then .ok (some .EMBBADDATA)
    else .ok none) = _
  simp only [htid, ← hprotocol]
  split_ifs <;> first | rfl | tauto

/-- On RTU it must come from the slave that was asked, unless all were. -/
theorem preCheckConfirmation_rtu (q r : Adu) (t t' : List UInt8) :
    preCheckConfirmation .rtu (q.wrapped .rtu t) (r.wrapped .rtu t') =
      .ok (if q.unit = r.unit ∨ q.unit.toNat = broadcastAddress then none
        else some .EMBBADSLAVE) := by
  show (if q.unit ≠ r.unit ∧ q.unit.toNat ≠ broadcastAddress then
      Except.ok (some Errno.EMBBADSLAVE) else .ok none) = _
  split_ifs <;> first | rfl | tauto

/-- A response under the header of its request passes on both. -/
theorem preCheckConfirmation_same {q r : Adu} (t t' : List UInt8) (htid : q.tId = r.tId)
    (hprotocol : r.protocol = 0) (hunit : q.unit = r.unit) :
    preCheckConfirmation be (q.wrapped be t) (r.wrapped be t') = .ok none := by
  cases be with
  | tcp => rw [preCheckConfirmation_tcp, if_pos ⟨htid, hprotocol⟩]
  | rtu => rw [preCheckConfirmation_rtu, if_pos (Or.inl hunit)]

theorem preCheckConfirmation_defined (q r : Adu) (t t' : List UInt8) :
    ∃ pre, preCheckConfirmation be (q.wrapped be t) (r.wrapped be t') = .ok pre := by
  cases be with
  | tcp => exact ⟨_, preCheckConfirmation_tcp q r t t'⟩
  | rtu => exact ⟨_, preCheckConfirmation_rtu q r t t'⟩

/-! ### Receiving one ADU -/

/-- **A framed ADU at the front is received whole**, in whatever pieces it comes, and no byte
behind it is touched. -/
theorem modbusReceiveMsg_adu {os : Os σ} {view : σ → List UInt8}
    {took : σ → List UInt8 → σ → Prop} (hs : Source os view took) (hf : 0 < os.fuel) {st : St σ}
    (hc : Connected st.ctx) {a : Adu} {rest : List UInt8} (ha : Framed mt a.pdu)
    (hv : view st.os = a.bytes st.ctx.backend ++ rest) :
    ∃ s', modbusReceiveMsg os st mt =
        .ok (a.verdict st.ctx, a.bytes st.ctx.backend, { st with os := s' }) ∧
      took st.os (a.bytes st.ctx.backend) s' := by
  obtain ⟨s', hrcv, ht⟩ := modbusReceiveMsg_of_source hs hf hc hv (Adu.messageLength_bytes ha)
    (Adu.length_bytes_le ha)
  refine ⟨s', ?_, ht⟩
  have hci : checkIntegrity os { st with os := s' } (a.bytes st.ctx.backend) =
      .ok (a.verdict st.ctx, { st with os := s' }) := checkIntegrity_bytes a
  rw [hrcv, finish, hci]
  rfl

theorem Adu.verdict_of_addressed {ctx : Modbus} {a : Adu} (h : Addressed ctx a) :
    a.verdict ctx = (a.bytes ctx.backend).length := if_pos h

theorem Adu.verdict_of_foreign {ctx : Modbus} {a : Adu} (h : ¬ Addressed ctx a) :
    a.verdict ctx = 0 := if_neg h

/-! ### What is returned is an ADU -/

/-- A PDU in an envelope that declares its own length is framed. -/
theorem Framed.of_messageLength {a : Adu}
    (hm : messageLength be mt (a.bytes be) = .ok (a.bytes be).length)
    (hmax : (a.bytes be).length ≤ be.maxAduLength) : Framed mt a.pdu := by
  have hlen : (a.bytes be).length = _ := a.length_bytes
  obtain ⟨function, hf, hm⟩ := bind_eq_ok.mp hm
  obtain ⟨length, hl, hm⟩ := bind_eq_ok.mp hm
  have htotal := Except.ok.inj hm
  unfold computeDataLengthAfterMeta at hl
  rw [hf, ok_bind] at hl
  have hle : a.pdu.length ≤ maxPduLength := by
    rw [hlen] at hmax
    simp only [maxPduLength]
    cases be <;> simp only [Backend.headerLength, Backend.checksumLength,
      Backend.maxAduLength] at hmax <;> omega
  refine ⟨?_, hle⟩
  -- with a byte count the data has as many bytes, without one it is fixed
  cases hpos : byteCountPos function.toNat mt with
  | none =>
    rw [hpos] at hl
    have hlength := Except.ok.inj hl
    have hpdu : a.pdu.length = 1 + computeMetaLengthAfterFunction function.toNat mt := by omega
    have hf' : rd a.pdu 0 = .ok function := by
      rw [← hf, ← a.rd_wrapped (a.checksum be) (show 0 < a.pdu.length by omega)]
      rfl
    match hp : a.pdu, hf' with
    | b :: data, hf' =>
      cases hf'
      rw [hp] at hpdu
      simp only [pduLength, hpos, hpdu]
  | some pos =>
    rw [hpos] at hl
    obtain ⟨byteCount, hbc, hl⟩ := bind_eq_ok.mp hl
    have hlength := Except.ok.inj hl
    have hpm := byteCountPos_eq_meta hpos
    have hpdu : a.pdu.length =
        1 + computeMetaLengthAfterFunction function.toNat mt + byteCount.toNat := by omega
    have hf' : rd a.pdu 0 = .ok function := by
      rw [← hf, ← a.rd_wrapped (a.checksum be) (show 0 < a.pdu.length by omega)]
      rfl
    have hbc' : rd a.pdu pos = .ok byteCount := by
      rw [← hbc, Adu.bytes, a.rd_wrapped (a.checksum be) (show pos < a.pdu.length by omega)]
    match hp : a.pdu, hf' with
    | b :: data, hf' =>
      cases hf'
      rw [hp] at hpdu hbc'
      simp only [pduLength, hpos, rd_eq_ok.mp hbc', Option.map_some, hpdu]

/-- Any seven bytes are a TCP header. -/
theorem exists_adu_tcp {msg : List UInt8} (h : 7 ≤ msg.length) :
    ∃ a : Adu, msg = a.bytes .tcp := by
  match msg, h with
  | t₁ :: t₂ :: p₁ :: p₂ :: l₁ :: l₂ :: unit :: pdu, _ =>
    refine ⟨⟨UInt16.ofNat (word t₁ t₂), UInt16.ofNat (word p₁ p₂), UInt16.ofNat (word l₁ l₂),
      unit, pdu⟩, ?_⟩
    have hw : ∀ x y, (UInt16.ofNat (word x y)).toNat = word x y :=
      fun x y => UInt16.toNat_ofNat_of_lt' (word_lt x y)
    simp only [Adu.bytes, Adu.wrapped, Adu.header, Adu.checksum, bigEndian_cons, bigEndian_nil,
      hw, hi_word, lo_word, List.cons_append, List.nil_append, List.append_nil]

/-- A message that ends with the CRC of what stands before is an RTU frame. -/
theorem exists_adu_rtu {msg : List UInt8} {h l : UInt8} (hlen : 3 ≤ msg.length)
    (hh : rd msg (msg.length - 1) = .ok h) (hl : rd msg (msg.length - 2) = .ok l)
    (hcrc : crc16 (msg.take (msg.length - 2)) = word h l) : ∃ a : Adu, msg = a.bytes .rtu := by
  obtain ⟨unit, pdu, hbody⟩ : ∃ unit pdu, msg.take (msg.length - 2) = unit :: pdu := by
    cases hb : msg.take (msg.length - 2) with
    | nil =>
      have := congrArg List.length hb
      rw [List.length_take, List.length_nil] at this
      omega
    | cons unit pdu => exact ⟨unit, pdu, rfl⟩
  have htail : msg.drop (msg.length - 2) = [l, h] := by
    have h1 := (List.getElem?_eq_some_iff.mp (rd_eq_ok.mp hl))
    have h2 := (List.getElem?_eq_some_iff.mp (rd_eq_ok.mp hh))
    obtain ⟨hi1, e1⟩ := h1
    obtain ⟨hi2, e2⟩ := h2
    rw [List.drop_eq_getElem_cons hi1, e1, show msg.length - 2 + 1 = msg.length - 1 by omega,
      List.drop_eq_getElem_cons hi2, e2, show msg.length - 1 + 1 = msg.length by omega,
      List.drop_length]
  refine ⟨rtuAdu unit pdu, ?_⟩
  rw [hbody] at hcrc
  show msg = (unit :: pdu) ++ [lo (crc16 (unit :: pdu)), hi (crc16 (unit :: pdu))]
  rw [hcrc, hi_word, lo_word, ← hbody, ← htail, List.take_append_drop]

/-- **A message that is not refused is a framed ADU**, whatever the system does: the bytes that
were read, with `rc` the verdict of the context on it. -/
theorem modbusReceiveMsg_is_adu {os : Os σ} {took : σ → List UInt8 → σ → Prop}
    (ht : Tracked os took) {st st' : St σ} {rc : Int} {msg : List UInt8} (hrc : rc ≠ -1)
    (h : modbusReceiveMsg os st mt = .ok (rc, msg, st')) :
    ∃ (a : Adu) (e : Errno) (s' : σ), msg = a.bytes st.ctx.backend ∧ Framed mt a.pdu ∧
      rc = a.verdict st.ctx ∧ took st.os msg s' ∧ st' = ⟨st.ctx, e, s'⟩ := by
  obtain ⟨e, s', htk, hm, hmax, hci⟩ := modbusReceiveMsg_sound ht hrc h
  have hlen := le_length_of_messageLength hm
  obtain ⟨a, ha⟩ : ∃ a : Adu, msg = a.bytes st.ctx.backend := by
    cases hbe : st.ctx.backend with
    | tcp =>
      rw [hbe] at hlen
      exact exists_adu_tcp (by simp only [Backend.headerLength] at hlen; omega)
    | rtu =>
      rw [hbe] at hlen
      simp only [checkIntegrity, hbe] at hci
      obtain ⟨slave, -, hci⟩ := bind_eq_ok.mp hci
      obtain ⟨hb, hh, hci⟩ := bind_eq_ok.mp hci
      obtain ⟨lb, hl, hci⟩ := bind_eq_ok.mp hci
      by_cases hcrc : crc16 (msg.take (msg.length - 2)) ≠ word hb lb
      · -- a wrong CRC is reported with -1, with or without a flush
        rw [if_pos hcrc] at hci
        split_ifs at hci
        · obtain ⟨⟨rc', st₁⟩, -, hci⟩ := bind_eq_ok.mp hci
          cases hci
          exact absurd rfl hrc
        · cases hci
          exact absurd rfl hrc
      · exact exists_adu_rtu
          (by simp only [Backend.headerLength, Backend.checksumLength] at hlen; omega) hh hl
          (not_not.mp hcrc)
  rw [ha] at hci hm hmax
  have hverdict : checkIntegrity os ⟨st.ctx, e, s'⟩ (a.bytes st.ctx.backend) =
      .ok (a.verdict st.ctx, ⟨st.ctx, e, s'⟩) := checkIntegrity_bytes a
  cases hverdict.symm.trans hci
  exact ⟨a, e, s', ha, Framed.of_messageLength hm hmax, rfl, htk, rfl⟩

/-- A message that is not refused fits an ADU, and leaves the context alone. -/
theorem modbusReceiveMsg_le {os : Os σ} {st st' : St σ} {rc : Int}
    {msg : List UInt8} (hrc : rc ≠ -1) (h : modbusReceiveMsg os st mt = .ok (rc, msg, st')) :
    rc ≤ st.ctx.backend.maxAduLength ∧ msg.length ≤ st.ctx.backend.maxAduLength ∧
      st'.ctx = st.ctx := by
  obtain ⟨a, e, s', rfl, hframed, rfl, -, rfl⟩ := modbusReceiveMsg_is_adu (tracked_any os) hrc h
  have hle : (a.bytes st.ctx.backend).length ≤ st.ctx.backend.maxAduLength :=
    Adu.length_bytes_le hframed
  refine ⟨?_, hle, rfl⟩
  unfold Adu.verdict
  split_ifs <;> omega

/-- A new context with a slave number and a descriptor, on a line that returns at most three bytes
a call. -/
def sampleSt (be : Backend) (slave : Int) (input : List UInt8) : St Link :=
  ⟨{ modbusNew be with slave := slave, s := 3 }, .sys (.other 0), ⟨input, [], fun _ => 3⟩⟩

theorem connected_sampleSt (be : Backend) (slave : Int) (input : List UInt8) :
    Connected (sampleSt be slave input).ctx :=
  ⟨show (0 : Int) ≤ 3 by decide, show (3 : Int) < 1024 by decide⟩

/-! ### The shapes of the protocol -/

/-- Requests: function code, fields, and for the writes of several values a byte count with as
many bytes. -/
inductive RequestPdu : List UInt8 → Prop
  /-- Read coils, discrete inputs, holding or input registers: address and quantity. -/
  | read {fc : UInt8} (hfc : fc = 0x01 ∨ fc = 0x02 ∨ fc = 0x03 ∨ fc = 0x04) (ah al nh nl : UInt8) :
      RequestPdu [fc, ah, al, nh, nl]
  /-- Write single coil or register: address and value. -/
  | writeSingle {fc : UInt8} (hfc : fc = 0x05 ∨ fc = 0x06) (ah al vh vl : UInt8) :
      RequestPdu [fc, ah, al, vh, vl]
  | readExceptionStatus : RequestPdu [0x07]
  /-- Write multiple coils or registers. -/
  | writeMultiple {fc : UInt8} (hfc : fc = 0x0F ∨ fc = 0x10) (ah al nh nl count : UInt8)
      (values : List UInt8) (hcount : values.length = count.toNat) :
      RequestPdu (fc :: ah :: al :: nh :: nl :: count :: values)
  | reportSlaveId : RequestPdu [0x11]
  | maskWrite (ah al mh ml oh ol : UInt8) : RequestPdu [0x16, ah, al, mh, ml, oh, ol]
  | writeAndRead (rh rl nh nl wh wl mh ml count : UInt8) (values : List UInt8)
      (hcount : values.length = count.toNat) :
      RequestPdu (0x17 :: rh :: rl :: nh :: nl :: wh :: wl :: mh :: ml :: count :: values)

/-- Responses, normal ones and exceptions. -/
inductive ResponsePdu : List UInt8 → Prop
  /-- Values read, or the slave id: a byte count with as many bytes. -/
  | values {fc : UInt8} (hfc : fc = 0x01 ∨ fc = 0x02 ∨ fc = 0x03 ∨ fc = 0x04 ∨ fc = 0x11 ∨ fc = 0x17)
      (count : UInt8) (values : List UInt8) (hcount : values.length = count.toNat) :
      ResponsePdu (fc :: count :: values)
  /-- A write is echoed with its address and its value or quantity. -/
  | written {fc : UInt8} (hfc : fc = 0x05 ∨ fc = 0x06 ∨ fc = 0x0F ∨ fc = 0x10) (ah al vh vl : UInt8) :
      ResponsePdu [fc, ah, al, vh, vl]
  | exceptionStatus (status : UInt8) : ResponsePdu [0x07, status]
  | maskWritten (ah al mh ml oh ol : UInt8) : ResponsePdu [0x16, ah, al, mh, ml, oh, ol]
  | exception {fc : UInt8}
      (hfc : (0x01 ≤ fc.toNat ∧ fc.toNat ≤ 0x07) ∨ fc = 0x0F ∨ fc = 0x10 ∨ fc = 0x11 ∨ fc = 0x16 ∨
        fc = 0x17) (code : UInt8) :
      ResponsePdu [fc + 0x80, code]

/-- The tables know every request of the protocol. -/
theorem RequestPdu.framed {pdu : List UInt8} (h : RequestPdu pdu)
    (hlen : pdu.length ≤ maxPduLength) : Framed .indication pdu := by
  refine ⟨?_, hlen⟩
  cases h with
  | read hfc => rcases hfc with rfl | rfl | rfl | rfl <;> rfl
  | writeSingle hfc => rcases hfc with rfl | rfl <;> rfl
  | readExceptionStatus => rfl
  | writeMultiple hfc ah al nh nl count values hcount =>
    have hsum : 6 + count.toNat = values.length + 6 := by omega
    rcases hfc with rfl | rfl <;> exact congrArg some hsum
  | reportSlaveId => rfl
  | maskWrite => rfl
  | writeAndRead rh rl nh nl wh wl mh ml count values hcount =>
    have hsum : 10 + count.toNat = values.length + 10 := by omega
    exact congrArg some hsum

theorem exists_four {α : Type} {xs : List α} (h : 4 ≤ xs.length) :
    ∃ a b c d rest, xs = a :: b :: c :: d :: rest := by
  obtain ⟨a, xs, rfl⟩ := List.exists_cons_of_length_pos (show 0 < xs.length by omega)
  rw [List.length_cons] at h
  obtain ⟨b, xs, rfl⟩ := List.exists_cons_of_length_pos (show 0 < xs.length by omega)
  rw [List.length_cons] at h
  obtain ⟨c, xs, rfl⟩ := List.exists_cons_of_length_pos (show 0 < xs.length by omega)
  rw [List.length_cons] at h
  obtain ⟨d, xs, rfl⟩ := List.exists_cons_of_length_pos (show 0 < xs.length by omega)
  exact ⟨a, b, c, d, xs, rfl⟩

/-- The function is one that `modbus_reply` has a case for. -/
def ServedFunction (function : UInt8) : Prop :=
  (0x01 ≤ function.toNat ∧ function.toNat ≤ 0x06) ∨ function = 0x0F ∨ function = 0x10 ∨
    function = 0x11 ∨ function = 0x16 ∨ function = 0x17

instance (function : UInt8) : Decidable (ServedFunction function) :=
  inferInstanceAs (Decidable (_ ∨ _))

/-- A framed PDU of such a function has the shape the protocol gives it. -/
theorem Framed.requestPdu {function : UInt8} {data : List UInt8}
    (h : Framed .indication (function :: data)) (hs : ServedFunction function) :
    RequestPdu (function :: data) := by
  have hlen := h.1
  -- several coils or registers: four bytes of fields and a byte count
  have hmultiple : function = 0x0F ∨ function = 0x10 → RequestPdu (function :: data) := by
    intro hfc
    have hpos : byteCountPos function.toNat .indication = some 5 := by
      rcases hfc with rfl | rfl <;> rfl
    obtain ⟨n, hn, hlen⟩ := h.byteCount rfl hpos
    simp only [List.length_cons] at hlen
    obtain ⟨a, b, c, d, rest, rfl⟩ := exists_four (show 4 ≤ data.length by omega)
    obtain ⟨n', values, rfl⟩ := List.exists_cons_of_length_pos (show 0 < rest.length by
      simp only [List.length_cons] at hlen
      omega)
    cases hn
    simp only [List.length_cons] at hlen
    exact .writeMultiple hfc a b c d n values (by omega)
  rcases hs with hs | rfl | rfl | rfl | rfl | rfl
  · -- four bytes of fields, for the six functions that read or write one table
    have hfields : pduLength .indication (function :: data) = some 5 := by
      have hpos : byteCountPos function.toNat .indication = none := by
        simp only [byteCountPos, fcWriteMultipleCoils, fcWriteMultipleRegisters,
          fcWriteAndReadRegisters]
        rw [if_neg (by omega), if_neg (by omega)]
      have hmeta : computeMetaLengthAfterFunction function.toNat .indication = 4 :=
        if_pos hs.2
      simp only [pduLength, hpos, hmeta]
    rw [hfields] at hlen
    have hfour : 5 = data.length + 1 := Option.some.inj hlen
    obtain ⟨a, b, c, d, rest, rfl⟩ := exists_four (show 4 ≤ data.length by omega)
    simp only [List.length_cons] at hfour
    obtain rfl : rest = [] := List.eq_nil_of_length_eq_zero (by omega)
    by_cases hread : function.toNat ≤ 0x04
    · refine .read ?_ a b c d
      simp only [← UInt8.toNat_inj, UInt8.toNat_ofNat, Nat.reducePow, Nat.reduceMod]
      omega
    · refine .writeSingle ?_ a b c d
      simp only [← UInt8.toNat_inj, UInt8.toNat_ofNat, Nat.reducePow, Nat.reduceMod]
      omega
  · exact hmultiple (Or.inl rfl)
  · exact hmultiple (Or.inr rfl)
  · have hnone : 1 = data.length + 1 := Option.some.inj hlen
    obtain rfl : data = [] := List.eq_nil_of_length_eq_zero (by omega)
    exact .reportSlaveId
  · -- the mask write has six bytes of fields and no byte count
    have hsix : 7 = data.length + 1 := Option.some.inj hlen
    obtain ⟨a, b, c, d, rest, rfl⟩ := exists_four (show 4 ≤ data.length by omega)
    simp only [List.length_cons] at hsix
    obtain ⟨o, o', rfl⟩ := List.length_eq_two.mp (show rest.length = 2 by omega)
    exact .maskWrite a b c d o o'
  · obtain ⟨n, hn, hlen⟩ := h.byteCount rfl rfl
    simp only [List.length_cons] at hlen
    obtain ⟨a, b, c, d, rest, rfl⟩ := exists_four (show 4 ≤ data.length by omega)
    simp only [List.length_cons] at hlen
    obtain ⟨a', b', c', d', rest, rfl⟩ := exists_four (show 4 ≤ rest.length by omega)
    simp only [List.length_cons] at hlen
    obtain ⟨n', values, rfl⟩ := List.exists_cons_of_length_pos (show 0 < rest.length by omega)
    cases hn
    simp only [List.length_cons] at hlen
    exact .writeAndRead a b c d a' b' c' d' n values (by omega)

/-- With bit 7 set no function has a byte count, and one byte follows. -/
theorem framed_exception {function : UInt8} (h : 0x80 ≤ function.toNat) (code : UInt8) :
    Framed .confirmation [function, code] := by
  have hpos : byteCountPos function.toNat .confirmation = none :=
    if_neg (by simp only [fcReadInputRegisters, fcReportSlaveId, fcWriteAndReadRegisters]; omega)
  have hmeta : computeMetaLengthAfterFunction function.toNat .confirmation = 1 := by
    simp only [computeMetaLengthAfterFunction]
    rw [if_neg (by simp only [fcWriteSingleCoil, fcWriteSingleRegister, fcWriteMultipleCoils,
      fcWriteMultipleRegisters]; omega), if_neg (by simp only [fcMaskWriteRegister]; omega)]
  refine ⟨?_, show 2 ≤ 253 by decide⟩
  simp only [pduLength, hpos, hmeta]
  rfl

/-- The tables know every response of the protocol. -/
theorem ResponsePdu.framed {pdu : List UInt8} (h : ResponsePdu pdu)
    (hlen : pdu.length ≤ maxPduLength) : Framed .confirmation pdu := by
  refine ⟨?_, hlen⟩
  cases h with
  | values hfc count values hcount =>
    have hsum : 2 + count.toNat = values.length + 2 := by omega
    rcases hfc with rfl | rfl | rfl | rfl | rfl | rfl <;> exact congrArg some hsum
  | written hfc => rcases hfc with rfl | rfl | rfl | rfl <;> rfl
  | exceptionStatus => rfl
  | maskWritten => rfl
  | @exception fc hfc code =>
    have h80 : 0x80 ≤ (fc + 0x80).toNat := by
      rcases hfc with hfc | rfl | rfl | rfl | rfl | rfl
      · rw [UInt8.toNat_add, Nat.mod_eq_of_lt (by simp; omega)]
        simp
      all_goals decide
    exact (framed_exception h80 code).1

end Libmodbus
