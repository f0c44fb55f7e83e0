/-
Libmodbus/Checksums.lean

The CRC of RTU frames.  `crc16` keeps the two halves of a 16 bit register and
looks up what eight shifts do to the lower half; bit by bit, a message enters
the register of `Crc.feed` in the order in which it is sent, the least
significant bit of a byte first.

    register  hi  lo
    crc16     hi' = table_crc_lo[lo ^ byte], lo' = hi ^ table_crc_hi[lo ^ byte]

A frame is right when nothing is left in the register at its end
(`crc16_eq_word_iff`), so the errors that are seen are those of the general
theory with the polynomial 0xA001.
-/
import Libmodbus.Frames
import Libmodbus.Lib.Crc
import Libmodbus.Stops

namespace Libmodbus

open CSem Wire Posix

variable {σ : Type}

/-! ### Bits on the line -/

def byteBits (b : UInt8) : List Bool := (List.range 8).map b.toNat.testBit

/-- The bits of a message in the order in which they are sent. -/
def lineBits (msg : List UInt8) : List Bool := msg.flatMap byteBits

theorem length_byteBits (b : UInt8) : (byteBits b).length = 8 := by
  rw [byteBits, List.length_map, List.length_range]

theorem length_lineBits (msg : List UInt8) : (lineBits msg).length = 8 * msg.length := by
  rw [lineBits, List.length_flatMap, List.map_congr_left fun b _ => length_byteBits b,
    List.map_const', List.sum_replicate, smul_eq_mul, Nat.mul_comm]

theorem lineBits_append (xs ys : List UInt8) : lineBits (xs ++ ys) = lineBits xs ++ lineBits ys :=
  List.flatMap_append

/-! ### The register -/

/-- 0x8005, with the bits in the order of the line. -/
def crcPoly : BitVec 16 := 0xA001

/-- The two halves of the register. -/
def crcRegister (crcHi crcLo : UInt8) : BitVec 16 := crcHi.toBitVec ++ crcLo.toBitVec

theorem toNat_crcRegister (crcHi crcLo : UInt8) : (crcRegister crcHi crcLo).toNat = word crcHi crcLo := by
  rw [crcRegister, BitVec.toNat_append, ← Nat.shiftLeft_add_eq_or_of_lt crcLo.toBitVec.isLt,
    Nat.shiftLeft_eq]
  rfl

theorem getLsbD_crcRegister (crcHi crcLo : UInt8) (i : Nat) :
    (crcRegister crcHi crcLo).getLsbD i =
      if i < 8 then crcLo.toNat.testBit i else crcHi.toNat.testBit (i - 8) := by
  rw [crcRegister, BitVec.getLsbD_append]
  rfl

theorem crcRegister_xor (a b c d : UInt8) :
    crcRegister a b ^^^ crcRegister c d = crcRegister (a ^^^ c) (b ^^^ d) := by
  refine BitVec.eq_of_getLsbD_eq fun i _ => ?_
  rw [BitVec.getLsbD_xor, getLsbD_crcRegister, getLsbD_crcRegister, getLsbD_crcRegister]
  split_ifs
  · rw [UInt8.toNat_xor, Nat.testBit_xor]
  · rw [UInt8.toNat_xor, Nat.testBit_xor]

theorem getD_byteBits (b : UInt8) (i : Nat) : (byteBits b).getD i false = b.toNat.testBit i := by
  rw [byteBits, List.getD_eq_getElem?_getD, List.getElem?_map]
  rcases Nat.lt_or_ge i 8 with hi | hi
  · rw [List.getElem?_range hi]
    rfl
  · have hlt : b.toNat < 2 ^ i :=
      Nat.lt_of_lt_of_le b.toNat_lt (Nat.pow_le_pow_right (by decide) hi)
    rw [List.getElem?_eq_none (by rw [List.length_range]; exact hi), Nat.testBit_lt_two_pow hlt]
    rfl

theorem register_byteBits (b : UInt8) : Crc.register 16 (byteBits b) = crcRegister 0 b := by
  refine BitVec.eq_of_getLsbD_eq fun i hi => ?_
  rw [Crc.getLsbD_register, getLsbD_crcRegister, getD_byteBits, decide_eq_true hi, Bool.true_and]
  split_ifs with hlt
  · rfl
  · have hbound : b.toNat < 2 ^ i :=
      Nat.lt_of_lt_of_le b.toNat_lt (Nat.pow_le_pow_right (by decide) (Nat.not_lt.mp hlt))
    rw [Nat.testBit_lt_two_pow hbound]
    exact (Nat.zero_testBit _).symm

/-- The check, in the order in which it is sent: the lower half comes first. -/
theorem register_check (l h : UInt8) :
    Crc.register 16 (byteBits l ++ byteBits h) = crcRegister h l := by
  refine BitVec.eq_of_getLsbD_eq fun i hi => ?_
  rw [Crc.getLsbD_register, getLsbD_crcRegister, decide_eq_true hi, Bool.true_and]
  have hlen := length_byteBits l
  split_ifs with hlt
  · rw [← getD_byteBits, List.getD_append _ _ _ _ (by omega)]
  · rw [← getD_byteBits, List.getD_append_right _ _ _ _ (by omega), hlen]

/-- A byte in the lower half. -/
theorem ofNat_toNat_byte (b : UInt8) : BitVec.ofNat 16 b.toNat = crcRegister 0 b := by
  have hlt := b.toNat_lt
  refine BitVec.eq_of_toNat_eq ?_
  rw [toNat_crcRegister, BitVec.toNat_ofNat, word, Nat.mod_eq_of_lt (by omega)]
  exact (Nat.zero_add _).symm

theorem msb_crcPoly : crcPoly.msb = true := by decide

/-- **The tables**: eight shifts of every byte. -/
theorem shifts_table : ∀ i < 256, Crc.shifts crcPoly 8 (BitVec.ofNat 16 i) =
    crcRegister (tableCrcLo.getD i 0) (tableCrcHi.getD i 0) := by
  decide +kernel

/-- The upper half only comes down. -/
theorem shifts_upper : ∀ i < 256, Crc.shifts crcPoly 8 (crcRegister (UInt8.ofNat i) 0) =
    crcRegister 0 (UInt8.ofNat i) := by
  decide +kernel

/-- One byte. -/
theorem feed_byteBits (crcHi crcLo b : UInt8) :
    Crc.feed crcPoly (byteBits b) (crcRegister crcHi crcLo) =
      crcRegister (tableCrcLo.getD (crcLo ^^^ b).toNat 0)
        (crcHi ^^^ tableCrcHi.getD (crcLo ^^^ b).toNat 0) := by
  have hsplit : crcRegister crcHi crcLo ^^^ crcRegister 0 b =
      crcRegister crcHi 0 ^^^ crcRegister 0 (crcLo ^^^ b) := by
    rw [crcRegister_xor, crcRegister_xor, UInt8.xor_zero, UInt8.zero_xor]
  have hupper := shifts_upper crcHi.toNat crcHi.toNat_lt
  have htable := shifts_table (crcLo ^^^ b).toNat (crcLo ^^^ b).toNat_lt
  have hindex : BitVec.ofNat 16 (crcLo ^^^ b).toNat = crcRegister 0 (crcLo ^^^ b) :=
    ofNat_toNat_byte _
  rw [UInt8.ofNat_toNat] at hupper
  rw [Crc.feed_register crcPoly (by rw [length_byteBits]; decide), length_byteBits,
    register_byteBits, hsplit, Crc.shifts_xor, hupper, ← hindex, htable, crcRegister_xor,
    UInt8.zero_xor]

theorem crc16Loop_eq (buffer : List UInt8) (crcHi crcLo : UInt8) :
    crcRegister (crc16Loop buffer crcHi crcLo).1 (crc16Loop buffer crcHi crcLo).2 =
      Crc.feed crcPoly (lineBits buffer) (crcRegister crcHi crcLo) := by
  induction buffer generalizing crcHi crcLo with
  | nil => rfl
  | cons b buffer ih =>
    rw [lineBits, List.flatMap_cons, Crc.feed_append, feed_byteBits]
    exact ih _ _

theorem crc16_eq (buffer : List UInt8) :
    crc16 buffer = (Crc.feed crcPoly (lineBits buffer) 0xFFFF).toNat := by
  have hstart : crcRegister 0xFF 0xFF = 0xFFFF := by decide
  rw [← hstart, ← crc16Loop_eq, toNat_crcRegister]
  rfl

/-- **A frame is right when nothing is left at its end.** -/
theorem crc16_eq_word_iff (body : List UInt8) (h l : UInt8) :
    crc16 body = word h l ↔ Crc.feed crcPoly (lineBits (body ++ [l, h])) 0xFFFF = 0 := by
  have hcheck : lineBits [l, h] = byteBits l ++ byteBits h := by
    rw [lineBits, List.flatMap_cons, List.flatMap_singleton]
  rw [lineBits_append, hcheck, Crc.feed_eq_zero_iff msb_crcPoly _
    (by rw [List.length_append, length_byteBits, length_byteBits]), register_check, crc16_eq,
    ← toNat_crcRegister]
  exact BitVec.toNat_inj

theorem feed_sendMsgPre (body : List UInt8) :
    Crc.feed crcPoly (lineBits (sendMsgPre .rtu body)) 0xFFFF = 0 := by
  have hlt : crc16 body < 65536 := by
    rw [crc16_eq]
    exact BitVec.isLt _
  exact (crc16_eq_word_iff body _ _).mp (word_hi_lo_nat hlt).symm

/-! ### The check -/

/-- What `check_integrity` does with a frame, given its last two bytes. -/
theorem checkIntegrity_rtu (os : Os σ) {st : St σ} (hrtu : st.ctx.backend = .rtu)
    (body : List UInt8) (l h : UInt8) : ∃ slave : UInt8,
    checkIntegrity os st (body ++ [l, h]) =
      if crc16 body ≠ word h l then
        (if st.ctx.errorRecovery.protocol then modbusFlush os st >>= fun r =>
          .ok ((-1 : Int), { r.2 with errno := .EMBBADCRC })
        else .ok ((-1 : Int), { st with errno := .EMBBADCRC }))
      else if (slave.toNat : Int) ≠ st.ctx.slave ∧ slave.toNat ≠ broadcastAddress then
        .ok ((0 : Int), st)
      else .ok ((((body ++ [l, h]).length : Nat) : Int), st) := by
  have hlen : (body ++ [l, h]).length = body.length + 2 := List.length_append
  obtain ⟨slave, hslave⟩ : ∃ slave, rd (body ++ [l, h]) 0 = .ok slave := by
    cases body with
    | nil => exact ⟨l, rfl⟩
    | cons b body => exact ⟨b, rfl⟩
  have hhigh : rd (body ++ [l, h]) (body.length + 1) = .ok h :=
    rd_append_add body [l, h] rfl (by decide : 1 < 2)
  have hlow : rd (body ++ [l, h]) body.length = .ok l :=
    rd_append_add body [l, h] rfl (by decide : 0 < 2)
  refine ⟨slave, ?_⟩
  simp only [checkIntegrity, hrtu, hlen, Nat.add_sub_cancel, hslave, List.take_left,
    show body.length + 2 - 1 = body.length + 1 by omega, hhigh, hlow, ok_bind]

/-- **A frame with something left at its end is refused.** -/
theorem checkIntegrity_of_feed (os : Os σ) {st : St σ} (hrtu : st.ctx.backend = .rtu)
    {msg : List UInt8} (hlen : 2 ≤ msg.length)
    (hfeed : Crc.feed crcPoly (lineBits msg) 0xFFFF ≠ 0) :
    ∃ st', checkIntegrity os st msg = .ok (-1, st') ∧ st'.errno = .EMBBADCRC := by
  obtain ⟨body, l, h, rfl⟩ : ∃ body l h, msg = body ++ [l, h] := by
    obtain ⟨l, h, hlast⟩ := List.length_eq_two.mp
      (show (msg.drop (msg.length - 2)).length = 2 by rw [List.length_drop]; omega)
    exact ⟨msg.take (msg.length - 2), l, h, by rw [← hlast, List.take_append_drop]⟩
  obtain ⟨slave, hcheck⟩ := checkIntegrity_rtu os hrtu body l h
  have hne : crc16 body ≠ word h l := fun heq => hfeed ((crc16_eq_word_iff body h l).mp heq)
  rw [hcheck, if_pos hne]
  split_ifs
  · obtain ⟨rc, e, s, hflush⟩ := modbusFlush_ends os st
    rw [hflush]
    exact ⟨_, rfl, rfl⟩
  · exact ⟨_, rfl, rfl⟩

/-- One byte of the CRC of the protocol: it goes into the lower half, and then every bit that is
shifted out as a one brings in the polynomial. -/
def modbusCrcByte (crc : BitVec 16) (b : UInt8) : BitVec 16 :=
  Crc.shifts crcPoly 8 (crc ^^^ b.toBitVec.setWidth 16)

theorem feed_lineBits (buffer : List UInt8) (crc : BitVec 16) :
    Crc.feed crcPoly (lineBits buffer) crc = buffer.foldl modbusCrcByte crc := by
  induction buffer generalizing crc with
  | nil => rfl
  | cons b buffer ih =>
    have hbyte : crcRegister 0 b = b.toBitVec.setWidth 16 := by
      rw [← ofNat_toNat_byte]
      exact BitVec.eq_of_toNat_eq (by rw [BitVec.toNat_ofNat, BitVec.toNat_setWidth]; rfl)
    have hone : Crc.feed crcPoly (byteBits b) crc = modbusCrcByte crc b := by
      rw [Crc.feed_register crcPoly (by rw [length_byteBits]; decide), length_byteBits,
        register_byteBits, hbyte]
      rfl
    rw [lineBits, List.flatMap_cons, Crc.feed_append, hone]
    exact ih _

/-- **The table CRC is the CRC of the protocol**, frames that are sent have it, and they pass. -/
theorem crc16_is_modbus :
    (∀ buffer : List UInt8, crc16 buffer = (buffer.foldl modbusCrcByte 0xFFFF).toNat) ∧
    (∀ body : List UInt8, crc16 (sendMsgPre .rtu body) = 0) ∧
    ∀ (τ : Type) (os : Os τ) (st : St τ) (body : List UInt8), st.ctx.backend = .rtu →
      ∃ rc, checkIntegrity os st (sendMsgPre .rtu body) = .ok (rc, st) ∧ rc ≠ -1 := by
  refine ⟨fun buffer => ?_, fun body => ?_, fun τ os st body hrtu => ?_⟩
  · rw [crc16_eq, feed_lineBits]
  · rw [crc16_eq, feed_sendMsgPre]
    rfl
  · obtain ⟨slave, hcheck⟩ := checkIntegrity_rtu os hrtu body (lo (crc16 body))
      (hi (crc16 body))
    have heq := (crc16_eq_word_iff body _ _).mpr (feed_sendMsgPre body)
    rw [if_neg (not_not.mpr heq)] at hcheck
    have hframe : sendMsgPre .rtu body = body ++ [lo (crc16 body), hi (crc16 body)] := rfl
    rw [hframe, hcheck]
    split_ifs
    · exact ⟨0, rfl, by decide⟩
    · exact ⟨_, rfl, by omega⟩

theorem crc16_is_modbus_sample :
    crc16 [0x01, 0x03, 0x00, 0x00, 0x00, 0x01] =
      ([0x01, 0x03, 0x00, 0x00, 0x00, 0x01].foldl modbusCrcByte 0xFFFF).toNat ∧
    crc16 (sendMsgPre .rtu [0x01, 0x03, 0x00, 0x00, 0x00, 0x01]) = 0 ∧
    ∃ rc, checkIntegrity (linkOs 1) (sampleSt .rtu 1 [])
      (sendMsgPre .rtu [0x01, 0x03, 0x00, 0x00, 0x00, 0x01]) = .ok (rc, sampleSt .rtu 1 []) ∧
        rc ≠ -1 :=
  ⟨crc16_is_modbus.1 _, crc16_is_modbus.2.1 _, crc16_is_modbus.2.2 _ _ _ _ rfl⟩

/-! ### Errors on the line -/

/-- The bits in which two messages differ, in the order of the line. -/
def flippedBits (msg msg' : List UInt8) : List Bool :=
  List.zipWith xor (lineBits msg) (lineBits msg')

/-- One, two or three bits. -/
def FewBits (e : List Bool) : Prop := 1 ≤ e.count true ∧ e.count true ≤ 3

/-- Some bits, within 16 consecutive ones. -/
def Burst (e : List Bool) : Prop :=
  true ∈ e ∧ ∃ i, ∀ j, e[j]? = some true → i ≤ j ∧ j < i + 16

theorem noReturn : Crc.avoids crcPoly (Crc.low 16 true) 2047 (Crc.low 16 true) = true := by
  decide +kernel

theorem parity_crcPoly : Crc.parity crcPoly = 1 := by
  decide +kernel

/-- The register keeps all of these patterns. -/
theorem feed_of_error {e : List Bool} (hlen : e.length ≤ 2048) (h : FewBits e ∨ Burst e) :
    Crc.feed crcPoly e 0 ≠ 0 := by
  rcases h with ⟨hpos, hle⟩ | ⟨hne, i, hburst⟩
  · by_cases htwo : e.count true = 2
    · have hperiod : ∀ d, 0 < d → d < 2048 →
          Crc.shifts crcPoly d (Crc.low 16 true) ≠ Crc.low 16 true :=
        fun d hd hlt => Crc.shifts_of_avoids noReturn d hd (Nat.le_of_lt_succ hlt)
      exact Crc.feed_of_two msb_crcPoly hperiod hlen htwo
    · exact Crc.feed_of_odd (by decide) parity_crcPoly (by omega)
  · exact Crc.feed_of_burst msb_crcPoly hburst hne

/-- **Errors on the line are seen.** -/
theorem corruption_detected (os : Os σ) (st : St σ) (hrtu : st.ctx.backend = .rtu)
    (body msg : List UInt8) (hlen : (sendMsgPre .rtu body).length ≤ 256)
    (hsame : msg.length = (sendMsgPre .rtu body).length)
    (herror : FewBits (flippedBits (sendMsgPre .rtu body) msg) ∨
      Burst (flippedBits (sendMsgPre .rtu body) msg)) :
    ∃ st', checkIntegrity os st msg = .ok (-1, st') ∧ st'.errno = .EMBBADCRC := by
  set frame := sendMsgPre .rtu body with hframe
  have htwo : 2 ≤ frame.length := by
    show 2 ≤ (body ++ [lo (crc16 body), hi (crc16 body)]).length
    rw [List.length_append]
    exact Nat.le_add_left 2 body.length
  have hlines : (lineBits frame).length = (lineBits msg).length := by
    rw [length_lineBits, length_lineBits, hsame]
  have herror' : Crc.feed crcPoly (flippedBits frame msg) 0 ≠ 0 := by
    refine feed_of_error ?_ herror
    rw [flippedBits, List.length_zipWith, ← hlines, Nat.min_self, length_lineBits]
    omega
  -- what the message leaves is what the error leaves
  have hsum := Crc.feed_xor crcPoly hlines 0xFFFF 0xFFFF
  rw [feed_sendMsgPre body, BitVec.xor_self] at hsum
  refine checkIntegrity_of_feed os hrtu (by omega) fun hzero => herror' ?_
  rw [flippedBits]
  exact hsum.trans (by rw [hzero]; rfl)

theorem corruption_detected_sample :
    ∃ st', checkIntegrity (linkOs 1) (sampleSt .rtu 1 [])
      [0x01, 0x03, 0x00, 0x10, 0x00, 0x01, 0x84, 0x0A] = .ok (-1, st') ∧ st'.errno = .EMBBADCRC :=
  corruption_detected (linkOs 1) (sampleSt .rtu 1 []) rfl [0x01, 0x03, 0x00, 0x00, 0x00, 0x01] _
    (by decide) (by decide) (Or.inl ⟨by decide +kernel, by decide +kernel⟩)

end Libmodbus
