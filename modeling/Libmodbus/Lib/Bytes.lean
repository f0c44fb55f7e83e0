/-
Libmodbus/Lib/Bytes.lean

Bytes on a wire: 16-bit words as two bytes, high byte first, and lists of bits
packed into bytes, least significant bit first.

Both codings are given with their inverse and the round trip (`word_hi_lo`,
`words_bigEndian`, `unpackBits_packBits`).  Bit packing is characterised by
`Nat.testBit`, and `packBits_append` says that it can be done eight bits at a
time, which is how packing loops work.
-/
import Mathlib.Tactic
import Mathlib.Data.Nat.Bitwise

namespace Wire

/-! ### Bytes of an integer -/

/-- The byte that storing `v` into a `uint8_t` leaves. -/
def lo (v : Int) : UInt8 := UInt8.ofInt v

/-- The byte that storing `v >> 8` into a `uint8_t` leaves. -/
def hi (v : Int) : UInt8 := UInt8.ofInt (v / 256)

/-- `(h << 8) + l` -/
def word (h l : UInt8) : Nat := h.toNat * 256 + l.toNat

theorem toNat_lo (v : Int) : ((lo v).toNat : Int) = v % 256 := by
  have h : (v % 2 ^ 8).toNat < 2 ^ 8 := by omega
  rw [lo, UInt8.ofInt, UInt8.toNat_ofNat_of_lt' h]
  omega

theorem lo_natCast (n : Nat) : lo n = UInt8.ofNat n := by
  apply UInt8.toNat_inj.mp
  have h := toNat_lo n
  rw [UInt8.toNat_ofNat']
  omega

theorem toNat_hi (v : Int) : ((hi v).toNat : Int) = v / 256 % 256 := toNat_lo (v / 256)

theorem lo_toNat (b : UInt8) : lo b.toNat = b := by
  apply UInt8.toNat_inj.mp
  have h := toNat_lo b.toNat
  have := b.toNat_lt
  omega

theorem cast_word (h l : UInt8) : (word h l : Int) = h.toNat * 256 + l.toNat := by
  simp [word]

theorem word_lt (h l : UInt8) : word h l < 65536 := by
  have := h.toNat_lt
  have := l.toNat_lt
  unfold word
  omega

theorem word_hi_lo_mod (v : Int) : (word (hi v) (lo v) : Int) = v % 65536 := by
  have h1 := toNat_hi v
  have h2 := toNat_lo v
  unfold word
  omega

/-- A value of 16 bits survives being cut into two bytes. -/
theorem word_hi_lo {v : Int} (h0 : 0 ≤ v) (h : v < 65536) : (word (hi v) (lo v) : Int) = v := by
  rw [word_hi_lo_mod, Int.emod_eq_of_lt h0 h]

theorem word_hi_lo_nat {n : Nat} (h : n < 65536) : word (hi n) (lo n) = n := by
  have := word_hi_lo (v := n) (by omega) (by omega)
  omega

theorem hi_word (h l : UInt8) : hi (word h l) = h := by
  apply UInt8.toNat_inj.mp
  have h1 := toNat_hi (word h l)
  have := cast_word h l
  have := h.toNat_lt
  have := l.toNat_lt
  omega

theorem lo_word (h l : UInt8) : lo (word h l) = l := by
  apply UInt8.toNat_inj.mp
  have h1 := toNat_lo (word h l)
  have := cast_word h l
  have := h.toNat_lt
  have := l.toNat_lt
  omega

/-- Only 16 bits of a value reach its two bytes. -/
theorem hi_emod (v : Int) : hi (v % 65536) = hi v := by
  apply UInt8.toNat_inj.mp
  have h1 := toNat_hi (v % 65536)
  have h2 := toNat_hi v
  omega

theorem lo_emod (v : Int) : lo (v % 65536) = lo v := by
  apply UInt8.toNat_inj.mp
  have h1 := toNat_lo (v % 65536)
  have h2 := toNat_lo v
  omega

/-- Two bytes are told apart by the word they form. -/
theorem word_inj {h l h' l' : UInt8} (e : word h l = word h' l') : h = h' ∧ l = l' := by
  have h1 : hi (word h l) = hi (word h' l') := by rw [e]
  have h2 : lo (word h l) = lo (word h' l') := by rw [e]
  rw [hi_word, hi_word] at h1
  rw [lo_word, lo_word] at h2
  exact ⟨h1, h2⟩

theorem ofNat_word_hi_lo (r : UInt16) : UInt16.ofNat (word (hi r.toNat) (lo r.toNat)) = r := by
  rw [word_hi_lo_nat r.toNat_lt]
  simp

/-! ### Lists of 16-bit words, high byte first -/

def bigEndian (rs : List UInt16) : List UInt8 := rs.flatMap fun r => [hi r.toNat, lo r.toNat]

/-- The words of a list of bytes; an odd byte at the end is dropped. -/
def words : List UInt8 → List UInt16
  | h :: l :: rest => UInt16.ofNat (word h l) :: words rest
  | _ => []

@[simp] theorem bigEndian_nil : bigEndian [] = [] := rfl

@[simp] theorem bigEndian_cons (r : UInt16) (rs : List UInt16) :
    bigEndian (r :: rs) = hi r.toNat :: lo r.toNat :: bigEndian rs := rfl

@[simp] theorem length_bigEndian (rs : List UInt16) : (bigEndian rs).length = 2 * rs.length := by
  induction rs with
  | nil => rfl
  | cons r rs ih => simp [ih]; omega

@[simp] theorem words_bigEndian (rs : List UInt16) : words (bigEndian rs) = rs := by
  induction rs with
  | nil => rfl
  | cons r rs ih => simp [words, ih, ofNat_word_hi_lo]

theorem length_words (bs : List UInt8) : (words bs).length = bs.length / 2 := by
  induction bs using words.induct with
  | case1 h l rest ih => simp [words, ih]; omega
  | case2 bs hne =>
    rcases bs with - | ⟨b, - | ⟨c, bs⟩⟩
    · rfl
    · simp [words]
    · exact absurd rfl (hne b c bs)

theorem bigEndian_words {bs : List UInt8} (h : bs.length % 2 = 0) : bigEndian (words bs) = bs := by
  induction bs using words.induct with
  | case1 hb l rest ih =>
    simp only [List.length_cons] at h
    have hw : (UInt16.ofNat (word hb l)).toNat = word hb l :=
      UInt16.toNat_ofNat_of_lt' (word_lt hb l)
    simp [words, hw, hi_word, lo_word, ih (by omega)]
  | case2 bs hne =>
    rcases bs with - | ⟨b, - | ⟨c, bs⟩⟩
    · rfl
    · simp at h
    · exact absurd rfl (hne b c bs)

/-! ### The number of a list of bits -/

/-- The number whose `k`-th bit is the `k`-th element. -/
def natOfBits : List Bool → Nat
  | [] => 0
  | b :: bs => b.toNat + 2 * natOfBits bs

theorem testBit_natOfBits (bs : List Bool) (k : Nat) :
    (natOfBits bs).testBit k = bs.getD k false := by
  induction bs generalizing k with
  | nil => simp [natOfBits]
  | cons b bs ih =>
    cases k with
    | zero => cases b <;> simp [natOfBits, Nat.testBit_zero]
    | succ k =>
      have hdiv : natOfBits (b :: bs) / 2 = natOfBits bs := by
        have := Bool.toNat_lt b
        simp only [natOfBits]
        omega
      rw [Nat.testBit_succ, hdiv, ih]
      simp

/-- Setting the next free bit appends an element. -/
theorem natOfBits_concat (bs : List Bool) (b : Bool) :
    natOfBits bs ||| (b.toNat <<< bs.length) = natOfBits (bs ++ [b]) := by
  apply Nat.eq_of_testBit_eq
  intro k
  rw [Nat.testBit_or, testBit_natOfBits, testBit_natOfBits, Nat.testBit_shiftLeft]
  rcases Nat.lt_trichotomy k bs.length with h | rfl | h
  · simp [List.getD, h, Nat.not_le.mpr h, List.getElem?_append_left h]
  · cases b <;> simp [List.getD]
  · have h1 : bs.length ≤ k := by omega
    have h2 : (b.toNat).testBit (k - bs.length) = false := by
      apply Nat.testBit_lt_two_pow
      have : 2 ^ 1 ≤ 2 ^ (k - bs.length) := Nat.pow_le_pow_right (by omega) (by omega)
      have := Bool.toNat_lt b
      omega
    simp [List.getD, h1, h2, List.getElem?_append_right h1,
      List.getElem?_eq_none (show [b].length ≤ k - bs.length by simp; omega)]

theorem natOfBits_lt (bs : List Bool) : natOfBits bs < 2 ^ bs.length := by
  induction bs with
  | nil => simp [natOfBits]
  | cons b bs ih =>
    have := Bool.toNat_lt b
    simp only [natOfBits, List.length_cons, Nat.pow_succ]
    omega

/-- A bit of a number, as C tests it. -/
theorem and_shiftLeft_ne_zero (n k : Nat) : n &&& 1 <<< k ≠ 0 ↔ n.testBit k = true := by
  rw [Nat.one_shiftLeft, Nat.and_two_pow]
  cases n.testBit k with
  | false => simp
  | true => simp

/-! ### One bit of a byte -/

/-- Clearing a bit that lies above the number. -/
theorem and_not_two_pow {n k : Nat} (h : n < 2 ^ k) :
    UInt8.ofNat n &&& ~~~UInt8.ofNat (2 ^ k) = UInt8.ofNat n := by
  apply UInt8.eq_of_toBitVec_eq
  ext i hi
  have hbit : ∀ m, (UInt8.ofNat m).toBitVec[i] = m.testBit i := by
    intro m
    show (BitVec.ofNat 8 m)[i] = m.testBit i
    rw [← BitVec.getLsbD_eq_getElem hi, BitVec.getLsbD_ofNat, decide_eq_true hi, Bool.true_and]
  rw [UInt8.toBitVec_and, UInt8.toBitVec_not, BitVec.getElem_and, BitVec.getElem_not, hbit, hbit,
    Nat.testBit_two_pow]
  by_cases hk : k = i
  · -- the number has no bit there
    subst hk
    rw [Nat.testBit_lt_two_pow h]
    rfl
  · rw [decide_eq_false hk]
    exact Bool.and_true _

/-- Appending a bit to the bits of a byte: it is set, or cleared. -/
theorem ofNat_natOfBits_concat (bs : List Bool) (b : Bool) :
    (if b then UInt8.ofNat (natOfBits bs) ||| UInt8.ofNat (2 ^ bs.length)
      else UInt8.ofNat (natOfBits bs) &&& ~~~UInt8.ofNat (2 ^ bs.length)) =
      UInt8.ofNat (natOfBits (bs ++ [b])) := by
  rw [← natOfBits_concat]
  cases b with
  | true =>
    have hor : UInt8.ofNat (natOfBits bs ||| 2 ^ bs.length) =
        UInt8.ofNat (natOfBits bs) ||| UInt8.ofNat (2 ^ bs.length) :=
      UInt8.eq_of_toBitVec_eq BitVec.ofNat_or
    rw [if_pos rfl, ← hor, ← Nat.one_shiftLeft]
    rfl
  | false =>
    rw [if_neg Bool.false_ne_true, and_not_two_pow (natOfBits_lt bs)]
    show _ = UInt8.ofNat (natOfBits bs ||| 0 <<< bs.length)
    rw [Nat.zero_shiftLeft, Nat.or_zero]

/-- The next bit; behind the last one there is none. -/
theorem two_pow_shiftLeft (k : Nat) : UInt8.ofNat (2 ^ k) <<< 1 = UInt8.ofNat (2 ^ (k + 1)) := by
  apply UInt8.toNat_inj.mp
  rw [UInt8.toNat_shiftLeft, UInt8.toNat_ofNat', UInt8.toNat_ofNat', Nat.pow_succ]
  show (2 ^ k % 256) <<< 1 % 256 = 2 ^ k * 2 % 256
  rw [Nat.shiftLeft_eq]
  omega

/-! ### Bits packed into bytes -/

/-- A bit that has a byte of its own. -/
def bitByte (b : Bool) : UInt8 := if b then 1 else 0

@[simp] theorem toNat_bitByte (b : Bool) : (bitByte b).toNat = b.toNat := by
  cases b <;> rfl

@[simp] theorem bitByte_ne_zero (b : Bool) : bitByte b ≠ 0 ↔ b = true := by
  cases b <;> decide

/-- Eight bits at a time, least significant bit first, zeros at the end. -/
def packBits (bs : List Bool) : List UInt8 :=
  (List.range ((bs.length + 7) / 8)).map fun j => UInt8.ofNat (natOfBits ((bs.drop (8 * j)).take 8))

/-- The first `n` bits of a list of bytes. -/
def unpackBits (n : Nat) (bytes : List UInt8) : List Bool :=
  (List.range n).map fun i => (bytes.getD (i / 8) 0).toNat.testBit (i % 8)

@[simp] theorem packBits_nil : packBits [] = [] := rfl

@[simp] theorem length_packBits (bs : List Bool) : (packBits bs).length = (bs.length + 7) / 8 := by
  simp [packBits]

@[simp] theorem length_unpackBits (n : Nat) (bytes : List UInt8) :
    (unpackBits n bytes).length = n := by
  simp [unpackBits]

/-- Only the bytes that hold the bits matter. -/
theorem unpackBits_append {n : Nat} {xs : List UInt8} (ys : List UInt8) (h : n ≤ xs.length * 8) :
    unpackBits n (xs ++ ys) = unpackBits n xs := by
  apply List.map_congr_left
  intro i hi
  have hlt : i / 8 < xs.length := by
    have := List.mem_range.mp hi
    omega
  rw [List.getD, List.getD, List.getElem?_append_left hlt]

/-- Up to eight bits fill one byte. -/
theorem packBits_short {bs : List Bool} (h0 : bs ≠ []) (h : bs.length ≤ 8) :
    packBits bs = [UInt8.ofNat (natOfBits bs)] := by
  have hpos := List.length_pos_of_ne_nil h0
  have h1 : (bs.length + 7) / 8 = 1 := by omega
  simp [packBits, h1, List.take_of_length_le h]

/-- The first eight bits fill the first byte, and the others are packed after it. -/
theorem packBits_append {xs : List Bool} (ys : List Bool) (h : xs.length = 8) :
    packBits (xs ++ ys) = UInt8.ofNat (natOfBits xs) :: packBits ys := by
  have h1 : ((xs ++ ys).length + 7) / 8 = (ys.length + 7) / 8 + 1 := by
    simp only [List.length_append]; omega
  simp only [packBits, h1, List.range_succ_eq_map, List.map_cons, List.map_map]
  congr 1
  · rw [Nat.mul_zero, List.drop_zero, List.take_append_of_le_length (by omega),
      List.take_of_length_le (by omega)]
  · apply List.map_congr_left
    intro j _
    simp only [Function.comp_apply]
    rw [List.drop_append, List.drop_eq_nil_of_le (by omega), List.nil_append, h,
      show 8 * (j + 1) - 8 = 8 * j by omega]

/-- The first byte, and the others. -/
theorem packBits_cons {bs : List Bool} (h : bs ≠ []) :
    packBits bs = UInt8.ofNat (natOfBits (bs.take 8)) :: packBits (bs.drop 8) := by
  by_cases h8 : bs.length ≤ 8
  · rw [packBits_short h h8, List.take_of_length_le h8, List.drop_eq_nil_of_le h8]
    rfl
  · have hlen : (bs.take 8).length = 8 := by
      rw [List.length_take]
      omega
    have hsplit := packBits_append (bs.drop 8) hlen
    rw [List.take_append_drop] at hsplit
    exact hsplit

theorem testBit_packBits (bs : List Bool) (i : Nat) :
    ((packBits bs).getD (i / 8) 0).toNat.testBit (i % 8) = bs.getD i false := by
  by_cases hj : i / 8 < (bs.length + 7) / 8
  · have hb : natOfBits ((bs.drop (8 * (i / 8))).take 8) < 2 ^ 8 :=
      lt_of_lt_of_le (natOfBits_lt _) (Nat.pow_le_pow_right (by omega) (by simp))
    have hi : 8 * (i / 8) + i % 8 = i := by omega
    simp only [packBits, List.getD, List.getElem?_map, List.getElem?_range hj, Option.map_some,
      Option.getD_some, UInt8.toNat_ofNat_of_lt' hb, testBit_natOfBits]
    rw [List.getElem?_take_of_lt (by omega), List.getElem?_drop, hi]
  · have hlen : (packBits bs).length ≤ i / 8 := by rw [length_packBits]; omega
    have hbs : bs.length ≤ i := by omega
    simp [List.getD, List.getElem?_eq_none hlen, List.getElem?_eq_none hbs]

/-- Unpacking gives back what was packed. -/
@[simp] theorem unpackBits_packBits (bs : List Bool) : unpackBits bs.length (packBits bs) = bs := by
  apply List.ext_getElem
  · simp
  · intro i h1 h2
    simp only [unpackBits, List.getElem_map, List.getElem_range, testBit_packBits]
    simp [List.getD, h2]

end Wire
