/-
Libmodbus/Tables.lean

The loops that move values between the tables, the wire and the caller's
arrays.

    server   tab ──pack──▶ response        request ──unpack──▶ tab
    client   src ──pack──▶ request         response ──unpack──▶ dest

On the wire bits are `packBits` and registers `bigEndian`, so each loop is
described by the list of values it moves: a packing loop makes the coding of
the values that stand in the array, and an unpacking loop splices the values
that are coded on the wire into the array.
-/
import Libmodbus.Lib.Cells
import Libmodbus.Client
import Libmodbus.Mapping

namespace Libmodbus

open CSem Wire Posix

/-! ### Registers -/

/-- Server: the registers of a table go into the response. -/
theorem readRegisters_bigEndian {tab vs rest : List UInt16} {k : Nat}
    (h : tab.drop k = vs ++ rest) : readRegisters tab k vs.length = .ok (bigEndian vs) := by
  induction vs generalizing k with
  | nil => rfl
  | cons v vs ih =>
    have hnext : readRegisters tab ((k : Int) + 1) vs.length = .ok (bigEndian vs) :=
      ih (drop_succ_of_drop h)
    show (cell tab k >>= fun v => readRegisters tab ((k : Int) + 1) vs.length >>= fun rest =>
      .ok (hi v.toNat :: lo v.toNat :: rest)) = _
    rw [cell_of_drop h, ok_bind, hnext]
    rfl

/-- Client: the registers of the caller go into the request. -/
theorem putRegisters_bigEndian {src vs rest : List UInt16} {k : Nat}
    (h : src.drop k = vs ++ rest) : putRegisters src k vs.length = .ok (bigEndian vs) := by
  induction vs generalizing k with
  | nil => rfl
  | cons v vs ih =>
    show (rd src k >>= fun v => putRegisters src (k + 1) vs.length >>= fun rest =>
      .ok (hi v.toNat :: lo v.toNat :: rest)) = _
    rw [rd_of_drop h, ok_bind, ih (drop_succ_of_drop h)]
    rfl

/-- The two bytes of the next register on the wire. -/
theorem rd_bigEndian {bytes rest : List UInt8} {v : UInt16} {vs : List UInt16} {j : Nat}
    (h : bytes.drop j = bigEndian (v :: vs) ++ rest) :
    rd bytes j = .ok (hi v.toNat) ∧ rd bytes (j + 1) = .ok (lo v.toNat) ∧
      bytes.drop (j + 2) = bigEndian vs ++ rest := by
  have h1 : bytes.drop j = hi v.toNat :: (lo v.toNat :: (bigEndian vs ++ rest)) := h
  have h2 := drop_succ_of_drop h1
  exact ⟨rd_of_drop h1, rd_of_drop h2, drop_succ_of_drop h2⟩

/-- Server: the registers of the request go into a table. -/
theorem writeRegisters_splice {req rest : List UInt8} {tab done vs : List UInt16} {k n j : Nat}
    (hn : n = k + done.length) (hfit : n + vs.length ≤ tab.length)
    (h : req.drop j = bigEndian vs ++ rest) :
    writeRegisters req (splice tab k done) n j vs.length = .ok (splice tab k (done ++ vs)) := by
  induction vs generalizing done n j with
  | nil =>
    rw [List.append_nil]
    rfl
  | cons v vs ih =>
    rw [List.length_cons] at hfit
    obtain ⟨hh, hl, hrest⟩ := rd_bigEndian h
    have hset : setCell (splice tab k done) n v = .ok (splice tab k (done ++ [v])) :=
      setCell_splice hn (by omega) v
    have hnext : writeRegisters req (splice tab k (done ++ [v])) ((n : Int) + 1) (j + 2)
        vs.length = .ok (splice tab k (done ++ [v] ++ vs)) := by
      refine ih (n := n + 1) ?_ (by omega) hrest
      rw [List.length_append, hn]
      rfl
    rw [List.length_cons, writeRegisters]
    simp only [hh, hl, ok_bind, ofNat_word_hi_lo, hset, hnext, List.append_assoc,
      List.singleton_append]

theorem writeRegisters_all {req rest : List UInt8} {tab vs : List UInt16} {k j : Nat}
    (hfit : k + vs.length ≤ tab.length) (h : req.drop j = bigEndian vs ++ rest) :
    writeRegisters req tab k j vs.length = .ok (splice tab k vs) := by
  have hloop : writeRegisters req (splice tab k []) k j vs.length = .ok (splice tab k ([] ++ vs)) :=
    writeRegisters_splice rfl hfit h
  rw [splice_nil] at hloop
  exact hloop

/-- Client: the registers of the response go to the caller. -/
theorem storeRegisters_splice {rsp rest : List UInt8} {dest done vs : List UInt16}
    {offset i : Nat} (hi' : i = done.length) (hfit : i + vs.length ≤ dest.length)
    (h : rsp.drop (offset + 2 + 2 * i) = bigEndian vs ++ rest) :
    storeRegisters rsp offset i vs.length (splice dest 0 done) =
      .ok (splice dest 0 (done ++ vs)) := by
  induction vs generalizing done i with
  | nil =>
    rw [List.append_nil]
    rfl
  | cons v vs ih =>
    rw [List.length_cons] at hfit
    obtain ⟨hh, hl, hrest⟩ := rd_bigEndian h
    have hset := wr_splice (show done.length < dest.length by omega) v
    rw [← hi'] at hset
    rw [show offset + 2 + 2 * i + 1 = offset + 3 + 2 * i by omega] at hl
    rw [List.length_cons, storeRegisters]
    simp only [hh, hl, ok_bind, ofNat_word_hi_lo, hset]
    rw [ih (by rw [List.length_append, hi']; rfl) (by omega)
      (by rw [show offset + 2 + 2 * (i + 1) = offset + 2 + 2 * i + 2 by omega]; exact hrest),
      List.append_assoc]
    rfl

/-! ### Bits that are packed -/

/-- Server: `response_io_status`, with the bits `pre` already in `one_byte`. -/
theorem ioStatusLoop_packBits {tab rest : List UInt8} {pre bits : List Bool} {k : Nat}
    (hpre : pre.length ≤ 7) (h : tab.drop k = bits.map bitByte ++ rest) :
    ioStatusLoop tab k bits.length pre.length (natOfBits pre) = .ok (packBits (pre ++ bits)) := by
  induction bits generalizing pre k with
  | nil =>
    rw [List.append_nil]
    cases pre with
    | nil => rfl
    | cons b pre => rw [packBits_short (List.cons_ne_nil b pre) (Nat.le_succ_of_le hpre), ← lo_natCast]; rfl
  | cons b bits ih =>
    have hbyte : natOfBits pre ||| ((bitByte b).toNat <<< pre.length) = natOfBits (pre ++ [b]) := by
      rw [toNat_bitByte, natOfBits_concat]
    have hassoc : pre ++ b :: bits = (pre ++ [b]) ++ bits := by
      rw [List.append_assoc]
      rfl
    have hnext := drop_succ_of_drop h
    rw [List.length_cons, ioStatusLoop, cell_of_drop h, ok_bind]
    simp only [hbyte, hassoc]
    by_cases h7 : pre.length = 7
    · have hfull : ioStatusLoop tab ((k : Int) + 1) bits.length ([] : List Bool).length
          (natOfBits []) = .ok (packBits ([] ++ bits)) := ih (Nat.zero_le 7) hnext
      rw [List.nil_append] at hfull
      show (if pre.length = 7 then ioStatusLoop tab ((k : Int) + 1) bits.length
        ([] : List Bool).length (natOfBits []) >>= fun rest =>
          .ok (lo (natOfBits (pre ++ [b]) : Nat) :: rest) else _) = _
      rw [if_pos h7, hfull, packBits_append bits (by rw [List.length_append, h7]; rfl), ← lo_natCast]
      rfl
    · rw [if_neg h7]
      have hlen : (pre ++ [b]).length = pre.length + 1 := List.length_append
      rw [← hlen]
      exact ih (by omega) hnext

theorem responseIoStatus_packBits {tab rest : List UInt8} {bits : List Bool} {k : Nat}
    (h : tab.drop k = bits.map bitByte ++ rest) :
    responseIoStatus tab k bits.length = .ok (packBits bits) := by
  have hempty : ([] : List Bool).length ≤ 7 := Nat.zero_le 7
  exact ioStatusLoop_packBits hempty h

/-- What a byte of the caller means as a bit. -/
def bitOf (v : UInt8) : Bool := decide (v ≠ 0)

/-- Client: one byte of `modbus_write_bits`, with the bits `pre` already in it. -/
theorem packByteLoop_natOfBits {src rest vs : List UInt8} (pre : List Bool) {nb n pos : Nat}
    (hpos : pos + vs.length = nb) (h : src.drop pos = vs ++ rest) :
    packByteLoop src nb n (UInt8.ofNat (2 ^ pre.length)) pos (UInt8.ofNat (natOfBits pre)) =
      .ok (pos + (vs.take n).length, UInt8.ofNat (natOfBits (pre ++ (vs.take n).map bitOf))) := by
  induction n generalizing vs pre pos with
  | zero =>
    rw [List.take_zero, List.map_nil, List.append_nil]
    rfl
  | succ n ih =>
    cases vs with
    | nil =>
      -- no value is left
      rw [packByteLoop, if_neg (by rw [← hpos]; exact Nat.lt_irrefl pos), List.take_nil,
        List.map_nil, List.append_nil]
      rfl
    | cons v vs =>
      rw [List.length_cons] at hpos
      have hbyte : (if v ≠ 0 then UInt8.ofNat (natOfBits pre) ||| UInt8.ofNat (2 ^ pre.length)
          else UInt8.ofNat (natOfBits pre) &&& ~~~UInt8.ofNat (2 ^ pre.length)) =
          UInt8.ofNat (natOfBits (pre ++ [bitOf v])) := by
        rw [← ofNat_natOfBits_concat, bitOf]
        simp only [decide_eq_true_eq]
      have hbit : UInt8.ofNat (2 ^ pre.length) <<< 1 =
          UInt8.ofNat (2 ^ (pre ++ [bitOf v]).length) := by
        rw [two_pow_shiftLeft, List.length_append]
        rfl
      have hnext := ih (pre ++ [bitOf v]) (show pos + 1 + vs.length = nb by omega)
        (drop_succ_of_drop h)
      rw [packByteLoop, if_pos (by omega), rd_of_drop h, ok_bind, hbyte, hbit, hnext,
        List.take_succ_cons, List.length_cons, List.map_cons, List.append_assoc,
        show pos + 1 + (vs.take n).length = pos + ((vs.take n).length + 1) by omega]
      rfl

/-- Client: the bits of the caller go into the request. -/
theorem packBytesLoop_packBits {src rest vs : List UInt8} {nb n pos : Nat}
    (hn : n = (vs.length + 7) / 8) (hpos : pos + vs.length = nb) (h : src.drop pos = vs ++ rest) :
    packBytesLoop src nb n pos = .ok (packBits (vs.map bitOf)) := by
  induction n generalizing vs pos with
  | zero =>
    have hvs : vs = [] := List.eq_nil_of_length_eq_zero (by omega)
    subst hvs
    rfl
  | succ n ih =>
    have hne : vs.map bitOf ≠ [] := by
      rintro hnil
      rw [List.map_eq_nil_iff] at hnil
      subst hnil
      simp at hn
    have hbyte : packByteLoop src nb 8 0x01 pos 0 = .ok (pos + (vs.take 8).length,
        UInt8.ofNat (natOfBits ([] ++ (vs.take 8).map bitOf))) :=
      packByteLoop_natOfBits [] hpos h
    have hlen : (vs.take 8).length + (vs.drop 8).length = vs.length := by
      rw [← List.length_append, List.take_append_drop]
    have hrest : src.drop (pos + (vs.take 8).length) = vs.drop 8 ++ rest := by
      have hsplit : src.drop pos = vs.take 8 ++ (vs.drop 8 ++ rest) := by
        rw [h, ← List.append_assoc, List.take_append_drop]
      rw [← List.drop_drop, hsplit, List.drop_left]
    have hnext : packBytesLoop src nb n (pos + (vs.take 8).length) =
        .ok (packBits ((vs.drop 8).map bitOf)) :=
      ih (by rw [List.length_drop]; omega) (by omega) hrest
    rw [packBytesLoop, hbyte, ok_bind, packBits_cons hne, ← List.map_take, ← List.map_drop]
    simp only [hnext, ok_bind, List.nil_append]

/-! ### Bits that are unpacked -/

/-- The first `i` bits, as they are stored. -/
def storedBits (bits : List Bool) (i : Nat) : List UInt8 :=
  (List.range i).map fun j => bitByte (bits.getD j false)

theorem length_storedBits (bits : List Bool) (i : Nat) : (storedBits bits i).length = i := by
  rw [storedBits, List.length_map, List.length_range]

theorem storedBits_succ (bits : List Bool) (i : Nat) :
    storedBits bits (i + 1) = storedBits bits i ++ [bitByte (bits.getD i false)] := by
  rw [storedBits, List.range_succ, List.map_append]
  rfl

theorem storedBits_all (bits : List Bool) : storedBits bits bits.length = bits.map bitByte := by
  apply List.ext_getElem
  · rw [length_storedBits, List.length_map]
  · intro j h1 h2
    rw [List.length_map] at h2
    simp [storedBits, h2]

/-- The bit at `j` is read from the bytes that begin at `pos`. -/
def BitsAt (bytes : List UInt8) (pos : Nat) (bits : List Bool) : Prop :=
  ∀ j < bits.length, ∃ b, rd bytes (pos + j / 8) = .ok b ∧
    b.toNat.testBit (j % 8) = bits.getD j false

/-- Packed bits can be read where they stand. -/
theorem bitsAt_packBits {bytes rest : List UInt8} {pos : Nat} {bits : List Bool}
    (h : bytes.drop pos = packBits bits ++ rest) : BitsAt bytes pos bits := by
  intro j hj
  have hlt : j / 8 < (packBits bits).length := by
    rw [length_packBits]
    omega
  refine ⟨(packBits bits)[j / 8], ?_, ?_⟩
  · apply rd_of_getElem?
    rw [← List.getElem?_drop, h, List.getElem?_append_left hlt, List.getElem?_eq_getElem hlt]
  · have hbit := testBit_packBits bits j
    rw [List.getD, List.getElem?_eq_getElem hlt] at hbit
    exact hbit

/-- Server: `modbus_set_bits_from_bytes`, when `i` bits are set and `n` are left. -/
theorem setBitsLoop_splice {bytes tab : List UInt8} {pos k i n : Nat} {bits : List Bool}
    (hbits : BitsAt bytes pos bits) (hn : i + n = bits.length)
    (hfit : k + bits.length ≤ tab.length) :
    setBitsLoop bytes pos (splice tab k (storedBits bits i)) k i n =
      .ok (splice tab k (bits.map bitByte)) := by
  induction n generalizing i with
  | zero =>
    rw [Nat.add_zero] at hn
    rw [hn, storedBits_all]
    rfl
  | succ n ih =>
    obtain ⟨b, hb, hbit⟩ := hbits i (by omega)
    have hvalue : (if b.toNat &&& (1 <<< (i % 8)) ≠ 0 then (1 : UInt8) else 0) =
        bitByte (bits.getD i false) := by
      rw [← hbit]
      simp only [and_shiftLeft_ne_zero]
      rfl
    have hset : setCell (splice tab k (storedBits bits i)) (k + i : Nat)
        (bitByte (bits.getD i false)) = .ok (splice tab k (storedBits bits (i + 1))) := by
      rw [setCell_splice (by rw [length_storedBits]) (by omega), storedBits_succ]
    rw [setBitsLoop, hb, ok_bind, hvalue]
    show (setCell _ ((k + i : Nat) : Int) _ >>= _) = _
    rw [hset]
    exact ih (by omega)

theorem modbusSetBitsFromBytes_splice {bytes tab : List UInt8} {pos k : Nat} {bits : List Bool}
    (hbits : BitsAt bytes pos bits) (hfit : k + bits.length ≤ tab.length) :
    modbusSetBitsFromBytes tab k bits.length bytes pos = .ok (splice tab k (bits.map bitByte)) := by
  have hloop := setBitsLoop_splice hbits (Nat.zero_add _) hfit
  rw [show storedBits bits 0 = [] from rfl, splice_nil] at hloop
  exact hloop

/-- Client: one byte of `read_io_status`, when `j` of its bits are done. -/
theorem readByteLoop_splice {dest : List UInt8} {bits : List Bool} {temp q j n : Nat}
    (hn : j + n = 8) (hpos : 8 * q + j ≤ bits.length) (hfit : bits.length ≤ dest.length)
    (htemp : ∀ i < 8, 8 * q + i < bits.length → temp.testBit i = bits.getD (8 * q + i) false) :
    readByteLoop temp bits.length n (2 ^ j) (8 * q + j)
        (splice dest 0 (storedBits bits (8 * q + j))) =
      .ok (min (8 * q + 8) bits.length,
        splice dest 0 (storedBits bits (min (8 * q + 8) bits.length))) := by
  induction n generalizing j with
  | zero =>
    have hmin : min (8 * q + 8) bits.length = 8 * q + j := by omega
    rw [hmin]
    rfl
  | succ n ih =>
    rw [readByteLoop]
    by_cases hlt : 8 * q + j < bits.length
    · have hvalue : (if temp &&& 2 ^ j ≠ 0 then (1 : UInt8) else 0) =
          bitByte (bits.getD (8 * q + j) false) := by
        rw [← htemp j (by omega) hlt, ← Nat.one_shiftLeft]
        simp only [and_shiftLeft_ne_zero]
        rfl
      have hset := wr_splice (show (storedBits bits (8 * q + j)).length < dest.length by
        rw [length_storedBits]
        omega) (bitByte (bits.getD (8 * q + j) false))
      rw [length_storedBits, ← storedBits_succ] at hset
      have hbit : 2 ^ j <<< 1 = 2 ^ (j + 1) := by
        rw [Nat.shiftLeft_eq, Nat.pow_one, Nat.pow_succ]
      rw [if_pos hlt, hvalue, hset, ok_bind, hbit]
      exact ih (by omega) hlt
    · have hmin : min (8 * q + 8) bits.length = 8 * q + j := by omega
      rw [if_neg hlt, hmin]

/-- Client: the bits of the response go to the caller, when `q` bytes are done. -/
theorem readBitsLoop_splice {rsp dest : List UInt8} {bits : List Bool} {start q n : Nat}
    (hbits : BitsAt rsp start bits) (hn : q + n = (bits.length + 7) / 8)
    (hfit : bits.length ≤ dest.length) :
    readBitsLoop rsp bits.length (start + q) n (min (8 * q) bits.length)
        (splice dest 0 (storedBits bits (min (8 * q) bits.length))) =
      .ok (splice dest 0 (bits.map bitByte)) := by
  induction n generalizing q with
  | zero =>
    have hmin : min (8 * q) bits.length = bits.length := by omega
    rw [hmin, storedBits_all]
    rfl
  | succ n ih =>
    have hlt : 8 * q < bits.length := by omega
    obtain ⟨b, hb, -⟩ := hbits (8 * q) hlt
    rw [Nat.mul_div_cancel_left q (by omega)] at hb
    have htemp : ∀ i < 8, 8 * q + i < bits.length →
        b.toNat.testBit i = bits.getD (8 * q + i) false := by
      intro i hi hlt
      obtain ⟨b', hb', hbit⟩ := hbits (8 * q + i) hlt
      rw [show (8 * q + i) / 8 = q by omega, hb] at hb'
      rw [show (8 * q + i) % 8 = i by omega] at hbit
      cases hb'
      exact hbit
    have hmin : min (8 * q) bits.length = 8 * q + 0 := by omega
    have hbyte := readByteLoop_splice (Nat.zero_add 8) (show 8 * q + 0 ≤ bits.length by omega)
      hfit htemp
    rw [readBitsLoop, hb, ok_bind, hmin]
    show (readByteLoop b.toNat bits.length 8 (2 ^ 0) (8 * q + 0) _ >>= _) = _
    rw [hbyte, ok_bind]
    exact ih (q := q + 1) (by omega)

theorem readBitsLoop_all {rsp dest : List UInt8} {bits : List Bool} {start : Nat}
    (hbits : BitsAt rsp start bits) (hfit : bits.length ≤ dest.length) :
    readBitsLoop rsp bits.length start ((bits.length + 7) / 8) 0 dest =
      .ok (bits.map bitByte ++ dest.drop bits.length) := by
  have hloop := readBitsLoop_splice (q := 0) hbits (Nat.zero_add _) hfit
  rw [Nat.mul_zero, Nat.zero_min, show storedBits bits 0 = [] from rfl, splice_nil, splice_zero,
    List.length_map] at hloop
  exact hloop

end Libmodbus
