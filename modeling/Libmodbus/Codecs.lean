/-
Libmodbus/Codecs.lean

Six loops for one coding of bits.

    response_io_status, modbus_write_bits             bits ──▶ bytes
    read_io_status, modbus_set_bits_from_bytes        bytes ──▶ cells
    modbus_set_bits_from_byte                         byte  ──▶ cells
    modbus_get_byte_from_bits                         cells ──▶ byte

The packing loops make `packBits`, and the unpacking loops splice its bits into
the destination.  The last loop reads cells back, so of a byte with garbage in
front of its bits it gives the bits alone.
-/
import Libmodbus.Reference

namespace Libmodbus

open CSem Wire

/-! ### One byte from its cells -/

/-- Storing the or of two numbers stores the or of what is stored. -/
theorem lo_or (b : UInt8) (n : Nat) : lo (b.toNat ||| n : Nat) = b ||| UInt8.ofNat n := by
  have hor : UInt8.ofNat (b.toNat ||| n) = UInt8.ofNat b.toNat ||| UInt8.ofNat n :=
    UInt8.eq_of_toBitVec_eq BitVec.ofNat_or
  rw [lo_natCast, hor, UInt8.ofNat_toNat]

/-- `modbus_get_byte_from_bits`, with the bits `pre` already in `value`. -/
theorem getByteLoop_natOfBits {src rest : List UInt8} {pre bits : List Bool} {k : Nat}
    (h : src.drop (k + pre.length) = bits.map bitByte ++ rest) :
    getByteLoop src k (UInt8.ofNat (natOfBits pre)) pre.length bits.length =
      .ok (UInt8.ofNat (natOfBits (pre ++ bits))) := by
  induction bits generalizing pre with
  | nil =>
    rw [List.append_nil]
    rfl
  | cons b bits ih =>
    have hcell : cell src ((k : Int) + pre.length) = .ok (bitByte b) := cell_of_drop h
    have hvalue : lo ((UInt8.ofNat (natOfBits pre)).toNat ||| ((bitByte b).toNat <<< pre.length) :
        Nat) = UInt8.ofNat (natOfBits (pre ++ [b])) := by
      rw [lo_or, toNat_bitByte, ← natOfBits_concat]
      exact (UInt8.eq_of_toBitVec_eq BitVec.ofNat_or).symm
    have hlen : (pre ++ [b]).length = pre.length + 1 := List.length_append
    have hrest : src.drop (k + (pre ++ [b]).length) = bits.map bitByte ++ rest := by
      rw [hlen, ← Nat.add_assoc]
      exact drop_succ_of_drop h
    have hnext := ih hrest
    rw [List.length_cons, getByteLoop, hcell, ok_bind, hvalue, ← hlen, hnext, List.append_assoc]
    rfl

theorem modbusGetByteFromBits_natOfBits {src rest : List UInt8} {bits : List Bool} {k nbBits : Nat}
    (hlen : bits.length = min nbBits 8) (h : src.drop k = bits.map bitByte ++ rest) :
    modbusGetByteFromBits src k nbBits = .ok (UInt8.ofNat (natOfBits bits)) := by
  have hcount : (if 8 < nbBits then 8 else nbBits) = bits.length := by
    rw [hlen]
    split_ifs <;> omega
  have hloop : getByteLoop src k (UInt8.ofNat (natOfBits [])) ([] : List Bool).length bits.length =
      .ok (UInt8.ofNat (natOfBits ([] ++ bits))) := getByteLoop_natOfBits h
  rw [modbusGetByteFromBits, hcount]
  exact hloop

/-! ### The bits of a byte that is among others -/

/-- A number of eight consecutive bits, or fewer, is what their byte is modulo a power of two. -/
theorem natOfBits_unpackBits {bytes : List UInt8} {n k r : Nat} (hr : r ≤ 8)
    (hn : 8 * k + r ≤ n) :
    natOfBits (((unpackBits n bytes).drop (8 * k)).take r) =
      (bytes.getD k 0).toNat % 2 ^ r := by
  apply Nat.eq_of_testBit_eq
  intro i
  rw [testBit_natOfBits, Nat.testBit_mod_two_pow]
  by_cases hi : i < r
  · have hget : ((List.range n)[8 * k + i]?) = some (8 * k + i) :=
      List.getElem?_range (by omega)
    rw [List.getD, List.getElem?_take_of_lt hi, List.getElem?_drop, unpackBits, List.getElem?_map,
      hget, Option.map_some, Option.getD_some, show (8 * k + i) / 8 = k by omega,
      show (8 * k + i) % 8 = i by omega, decide_eq_true hi, Bool.true_and]
  · have hnone : (((unpackBits n bytes).drop (8 * k)).take r)[i]? = none :=
      List.getElem?_eq_none (by rw [List.length_take]; omega)
    rw [List.getD, hnone, decide_eq_false hi]
    rfl

/-! ### The destination -/

/-- The values stand in the array from index `k` on, and every other cell is as it was. -/
structure Stored (dest dest' : List UInt8) (k : Nat) (vs : List UInt8) : Prop where
  length : dest'.length = dest.length
  inside : ∀ i < vs.length, dest'[k + i]? = vs[i]?
  outside : ∀ i, i < k ∨ k + vs.length ≤ i → dest'[i]? = dest[i]?

theorem stored_splice {dest vs : List UInt8} {k : Nat} (h : k + vs.length ≤ dest.length) :
    Stored dest (splice dest k vs) k vs := by
  refine ⟨length_splice h, fun i hi => ?_, fun i hi => ?_⟩
  · rw [getElem?_splice h, if_pos ⟨Nat.le_add_right k i, by omega⟩, Nat.add_sub_cancel_left]
  · rw [getElem?_splice h, if_neg (by omega)]

/-! ### The codecs agree -/

/-- Bits that are set from a table of bytes are read back as its bytes, as far as they were set. -/
theorem modbusGetByteFromBits_setBits {tabByte dest : List UInt8} {pos idx n : Nat}
    (hbytes : n ≤ (tabByte.drop pos).length * 8) (hfit : idx + n ≤ dest.length) :
    ∃ dest', modbusSetBitsFromBytes dest idx n tabByte pos = .ok dest' ∧
      Stored dest dest' idx ((unpackBits n (tabByte.drop pos)).map bitByte) ∧
      ∀ k nbBits, 8 * k + min nbBits 8 ≤ n →
        modbusGetByteFromBits dest' (idx + 8 * k : Nat) nbBits =
          .ok (UInt8.ofNat (((tabByte.drop pos).getD k 0).toNat % 2 ^ min nbBits 8)) := by
  set bits := unpackBits n (tabByte.drop pos) with hbits
  have hlen : bits.length = n := length_unpackBits n _
  have hstored : (bits.map bitByte).length = n := by rw [List.length_map, hlen]
  have hset := modbusSetBitsFromBytes_splice (bitsAt_unpackBits rfl hbytes)
    (show idx + (unpackBits n (tabByte.drop pos)).length ≤ dest.length by
      rw [length_unpackBits]
      exact hfit)
  rw [← hbits, hlen] at hset
  refine ⟨_, hset, stored_splice (by rw [hstored]; exact hfit), fun k nbBits hk => ?_⟩
  set r := min nbBits 8 with hr
  have htake : ((bits.drop (8 * k)).take r).length = r := by
    rw [List.length_take, List.length_drop, hlen]
    omega
  have hcells : (splice dest idx (bits.map bitByte)).drop (idx + 8 * k) =
      ((bits.drop (8 * k)).take r).map bitByte ++
        (((bits.drop (8 * k)).drop r).map bitByte ++ dest.drop (idx + n)) := by
    rw [drop_splice (by rw [hstored]; exact hfit) (by rw [hstored]; omega), hstored,
      ← List.append_assoc, ← List.map_append, List.take_append_drop, List.map_drop]
  rw [modbusGetByteFromBits_natOfBits htake hcells, hbits,
    natOfBits_unpackBits (Nat.min_le_right nbBits 8) hk]

/-! ### A single byte -/

/-- The loop of `modbus_set_bits_from_byte`: bit `i` is next and `n` are left. -/
def setByteLoop (value : UInt8) : List UInt8 → Int → Nat → Nat → Run (List UInt8)
  | dest, _, _, 0 => .ok dest
  | dest, idx, i, n + 1 => do
    let dest ← setCell dest (idx + i) (if value.toNat &&& (1 <<< i) ≠ 0 then 1 else 0)
    setByteLoop value dest idx (i + 1) n

/-- `modbus_set_bits_from_byte` -/
def modbusSetBitsFromByte (dest : List UInt8) (idx : Int) (value : UInt8) : Run (List UInt8) :=
  setByteLoop value dest idx 0 8

/-- As long as the bits are those of the first byte, the loops are the same. -/
theorem setByteLoop_eq {value : UInt8} {dest : List UInt8} {idx : Int} {i n : Nat}
    (h : i + n ≤ 8) : setByteLoop value dest idx i n = setBitsLoop [value] 0 dest idx i n := by
  induction n generalizing dest i with
  | zero => rfl
  | succ n ih =>
    have hbyte : rd [value] (0 + i / 8) = .ok value := by
      rw [Nat.div_eq_of_lt (by omega)]
      rfl
    rw [setByteLoop, setBitsLoop, hbyte, ok_bind, Nat.mod_eq_of_lt (by omega)]
    exact bind_ok_congr fun dest' _ => ih (by omega)

/-- A byte that is set is read back, from its eight cells. -/
theorem modbusGetByteFromBits_setByte {dest : List UInt8} {idx : Nat} (value : UInt8)
    (hfit : idx + 8 ≤ dest.length) :
    ∃ dest', modbusSetBitsFromByte dest idx value = .ok dest' ∧
      Stored dest dest' idx ((unpackBits 8 [value]).map bitByte) ∧
      modbusGetByteFromBits dest' idx 8 = .ok value := by
  have hbytes : 8 ≤ (([value] : List UInt8).drop 0).length * 8 := Nat.le_refl 8
  obtain ⟨dest', hset, hstored, hget⟩ := modbusGetByteFromBits_setBits hbytes hfit
  have hloop : modbusSetBitsFromByte dest idx value = modbusSetBitsFromBytes dest idx 8 [value] 0 :=
    setByteLoop_eq (Nat.le_refl 8)
  have hvalue := hget 0 8 (Nat.le_refl 8)
  refine ⟨dest', hloop.trans hset, hstored, hvalue.trans ?_⟩
  have hlt : value.toNat % 2 ^ 8 = value.toNat := Nat.mod_eq_of_lt value.toNat_lt
  show Except.ok (UInt8.ofNat (value.toNat % 2 ^ 8)) = _
  rw [hlt, UInt8.ofNat_toNat]

/-! ### All loops -/

/-- The bytes are the bits, for the loops that take many of them. -/
structure Codes (bits : List Bool) (bytes : List UInt8) : Prop where
  length : bytes.length = (bits.length + 7) / 8
  /-- Least significant bit first, and zeros behind the last bit. -/
  bit : ∀ i, (bytes.getD (i / 8) 0).toNat.testBit (i % 8) = bits.getD i false
  responseIoStatus : ∀ {tab rest : List UInt8} {address : Nat},
    tab.drop address = bits.map bitByte ++ rest →
      responseIoStatus tab address bits.length = .ok bytes
  writeBits : ∀ {src rest : List UInt8} {start : Nat}, src.drop start = bits.map bitByte ++ rest →
    packBytesLoop (src.drop start) bits.length
      (bits.length / 8 + if bits.length % 8 ≠ 0 then 1 else 0) 0 = .ok bytes
  readIoStatus : ∀ {rsp rest dest : List UInt8} {offset : Nat}, rsp.drop offset = bytes ++ rest →
    bits.length ≤ dest.length →
      ∃ dest', readBitsLoop rsp bits.length offset bytes.length 0 dest = .ok dest' ∧
        Stored dest dest' 0 (bits.map bitByte)
  setBits : ∀ {tabByte rest dest : List UInt8} {pos idx : Nat},
    tabByte.drop pos = bytes ++ rest → idx + bits.length ≤ dest.length →
      ∃ dest', modbusSetBitsFromBytes dest idx bits.length tabByte pos = .ok dest' ∧
        Stored dest dest' idx (bits.map bitByte) ∧
        ∀ k < bytes.length, modbusGetByteFromBits dest' (idx + 8 * k : Nat)
          (bits.length - 8 * k) = .ok (bytes.getD k 0)

/-- The last byte of packed bits has no bits behind them. -/
theorem getD_packBits_mod {bits : List Bool} (k : Nat) :
    UInt8.ofNat (((packBits bits).getD k 0).toNat % 2 ^ min (bits.length - 8 * k) 8) =
      (packBits bits).getD k 0 := by
  have hmod : ((packBits bits).getD k 0).toNat % 2 ^ min (bits.length - 8 * k) 8 =
      ((packBits bits).getD k 0).toNat := by
    apply Nat.eq_of_testBit_eq
    intro i
    rw [Nat.testBit_mod_two_pow]
    by_cases hi : i < min (bits.length - 8 * k) 8
    · rw [decide_eq_true hi, Bool.true_and]
    · rw [decide_eq_false hi, Bool.false_and]
      symm
      by_cases h8 : i < 8
      · have hbit := testBit_packBits bits (8 * k + i)
        rw [show (8 * k + i) / 8 = k by omega, show (8 * k + i) % 8 = i by omega] at hbit
        rw [hbit, List.getD, List.getElem?_eq_none (by omega)]
        rfl
      · refine Nat.testBit_lt_two_pow (Nat.lt_of_lt_of_le (UInt8.toNat_lt _) ?_)
        exact Nat.pow_le_pow_right (by omega) (by omega)
  rw [hmod, UInt8.ofNat_toNat]

theorem codes_packBits (bits : List Bool) : Codes bits (packBits bits) where
  length := length_packBits bits
  bit := testBit_packBits bits
  responseIoStatus := responseIoStatus_packBits
  writeBits {src rest start} h := by
    have hcount : bits.length / 8 + (if bits.length % 8 ≠ 0 then 1 else 0) =
        ((bits.map bitByte).length + 7) / 8 := by
      rw [List.length_map]
      split_ifs <;> omega
    have hpack := packBytesLoop_packBits hcount
      (show 0 + (bits.map bitByte).length = bits.length by rw [List.length_map, Nat.zero_add])
      (show (src.drop start).drop 0 = bits.map bitByte ++ rest from h)
    rw [hpack, map_bitOf_bitByte]
  readIoStatus {rsp rest dest offset} h hfit := by
    have hread := readBitsLoop_all (bitsAt_packBits h) hfit
    rw [← length_packBits] at hread
    have hlen : (bits.map bitByte).length = bits.length := List.length_map bitByte
    have hplace : bits.map bitByte ++ dest.drop bits.length =
        splice dest 0 (bits.map bitByte) := by
      rw [splice_zero, hlen]
    rw [hplace] at hread
    exact ⟨_, hread, stored_splice (by omega)⟩
  setBits {tabByte rest dest pos idx} h hfit := by
    have hbytes : bits.length ≤ (tabByte.drop pos).length * 8 := by
      rw [h, List.length_append, length_packBits]
      omega
    obtain ⟨dest', hset, hstored, hget⟩ := modbusGetByteFromBits_setBits hbytes hfit
    have hfirst : ∀ k < (packBits bits).length,
        (tabByte.drop pos).getD k 0 = (packBits bits).getD k 0 := by
      intro k hk
      rw [List.getD, List.getD, h, List.getElem?_append_left hk]
    have hunpack : unpackBits bits.length (tabByte.drop pos) = bits := by
      rw [h, unpackBits_append rest (by rw [length_packBits]; omega), unpackBits_packBits]
    rw [hunpack] at hstored
    refine ⟨dest', hset, hstored, fun k hk => ?_⟩
    -- the bits behind the last one come from the table
    rw [length_packBits] at hk
    rw [hget k _ (by omega), hfirst k (by rw [length_packBits]; exact hk), getD_packBits_mod]

/-- **The bit codecs agree.**  A list of bits has one coding in bytes that both packers make and
both unpackers undo, in the destination and nowhere else; of any bytes, whatever follows the
bits in the last of them, the bits that were set are read back as their byte; and so is a byte
that is set alone. -/
theorem bitCodecs_agree :
    (∀ bits : List Bool, ∃ bytes, Codes bits bytes) ∧
    (∀ (tabByte dest : List UInt8) (pos idx n : Nat), n ≤ (tabByte.drop pos).length * 8 →
      idx + n ≤ dest.length →
      ∃ dest', modbusSetBitsFromBytes dest idx n tabByte pos = .ok dest' ∧
        Stored dest dest' idx ((unpackBits n (tabByte.drop pos)).map bitByte) ∧
        ∀ k nbBits, 8 * k + min nbBits 8 ≤ n →
          modbusGetByteFromBits dest' (idx + 8 * k : Nat) nbBits =
            .ok (UInt8.ofNat (((tabByte.drop pos).getD k 0).toNat % 2 ^ min nbBits 8))) ∧
    ∀ (value : UInt8) (dest : List UInt8) (idx : Nat), idx + 8 ≤ dest.length →
      ∃ dest', modbusSetBitsFromByte dest idx value = .ok dest' ∧
        Stored dest dest' idx ((unpackBits 8 [value]).map bitByte) ∧
        modbusGetByteFromBits dest' idx 8 = .ok value :=
  ⟨fun bits => ⟨packBits bits, codes_packBits bits⟩,
    fun _ _ _ _ _ hbytes hfit => modbusGetByteFromBits_setBits hbytes hfit,
    fun value _ _ hfit => modbusGetByteFromBits_setByte value hfit⟩

/-- Eleven bits are set from two bytes, of which the second has garbage behind its three; and eight
from one byte. -/
theorem bitCodecs_agree_sample :
    (∃ bytes, Codes [true, false, true, true] bytes) ∧
    (∃ dest', modbusSetBitsFromBytes (List.replicate 16 7) 2 11 [0xCD, 0xFB] 0 = .ok dest' ∧
      Stored (List.replicate 16 7) dest' 2 ((unpackBits 11 [0xCD, 0xFB]).map bitByte) ∧
      ∀ k nbBits, 8 * k + min nbBits 8 ≤ 11 →
        modbusGetByteFromBits dest' (2 + 8 * k : Nat) nbBits =
          .ok (UInt8.ofNat ((([0xCD, 0xFB] : List UInt8).getD k 0).toNat % 2 ^ min nbBits 8))) ∧
    ∃ dest', modbusSetBitsFromByte (List.replicate 16 7) 2 0xCD = .ok dest' ∧
      Stored (List.replicate 16 7) dest' 2 ((unpackBits 8 [0xCD]).map bitByte) ∧
      modbusGetByteFromBits dest' 2 8 = .ok 0xCD :=
  ⟨bitCodecs_agree.1 _,
    bitCodecs_agree.2.1 [0xCD, 0xFB] (List.replicate 16 7) 0 2 11 (by decide) (by decide),
    bitCodecs_agree.2.2 0xCD (List.replicate 16 7) 2 (by decide)⟩

end Libmodbus
