/-
Libmodbus/Lib/Crc.lean

Cyclic redundancy checks of any width, least significant bit first.  A register
takes one bit of a message at a time:

    feed   shift (register xor bit)      for each bit of the message
    shift  one place to the right, and the polynomial goes in when a one goes out

Everything rests on `feed_xor`: what two messages do to the register adds up.
So a message that was corrupted leaves the register as the message did, xor what
the pattern of the flipped bits leaves in a register of zeros, and an error goes
unseen if and only if that is zero.  Three kinds of patterns never leave zero:

    an odd number of bits        `feed_of_odd`, if the polynomial has odd weight
    two bits                     `feed_of_two`, closer than the register's period
    within the register's width  `feed_of_burst`
-/
import Mathlib

namespace Crc

open Finset

variable {w : Nat}

/-! ### The register -/

/-- One place to the right. -/
def shift (poly c : BitVec w) : BitVec w :=
  if c.getLsbD 0 then (c >>> 1) ^^^ poly else c >>> 1

def shifts (poly : BitVec w) : Nat → BitVec w → BitVec w
  | 0, c => c
  | n + 1, c => shifts poly n (shift poly c)

/-- A bit, where it enters the register. -/
def low (w : Nat) (b : Bool) : BitVec w := if b then 1 else 0

/-- A message enters the register. -/
def feed (poly : BitVec w) : List Bool → BitVec w → BitVec w
  | [], c => c
  | b :: bs, c => feed poly bs (shift poly (c ^^^ low w b))

section

variable (poly : BitVec w)

theorem shift_zero : shift poly 0 = 0 := by
  rw [shift, if_neg (by simp)]
  exact BitVec.zero_ushiftRight

theorem shift_xor (c d : BitVec w) : shift poly (c ^^^ d) = shift poly c ^^^ shift poly d := by
  unfold shift
  rw [BitVec.getLsbD_xor, BitVec.ushiftRight_xor_distrib]
  cases c.getLsbD 0 <;> cases d.getLsbD 0
  · rfl
  · exact BitVec.xor_assoc _ _ _
  · show c >>> 1 ^^^ d >>> 1 ^^^ poly = c >>> 1 ^^^ poly ^^^ d >>> 1
    rw [BitVec.xor_assoc, BitVec.xor_comm (d >>> 1), BitVec.xor_assoc]
  · show c >>> 1 ^^^ d >>> 1 = c >>> 1 ^^^ poly ^^^ (d >>> 1 ^^^ poly)
    rw [BitVec.xor_comm (d >>> 1) poly, BitVec.xor_assoc, ← BitVec.xor_assoc poly,
      BitVec.xor_self, BitVec.zero_xor]

theorem shifts_zero (n : Nat) : shifts poly n 0 = 0 := by
  induction n with
  | zero => rfl
  | succ n ih => rw [shifts, shift_zero, ih]

theorem shifts_xor (n : Nat) (c d : BitVec w) :
    shifts poly n (c ^^^ d) = shifts poly n c ^^^ shifts poly n d := by
  induction n generalizing c d with
  | zero => rfl
  | succ n ih => rw [shifts, shifts, shifts, shift_xor, ih]

theorem feed_append (xs ys : List Bool) (c : BitVec w) :
    feed poly (xs ++ ys) c = feed poly ys (feed poly xs c) := by
  induction xs generalizing c with
  | nil => rfl
  | cons x xs ih => exact ih _

theorem low_xor (a b : Bool) : low w (a ^^ b) = low w a ^^^ low w b := by
  cases a <;> cases b <;> simp [low]

/-- **Linearity.** -/
theorem feed_xor {xs ys : List Bool} (h : xs.length = ys.length) (c d : BitVec w) :
    feed poly (List.zipWith xor xs ys) (c ^^^ d) = feed poly xs c ^^^ feed poly ys d := by
  induction xs generalizing ys c d with
  | nil =>
    obtain rfl := List.length_eq_zero_iff.mp h.symm
    rfl
  | cons x xs ih =>
    cases ys with
    | nil => cases h
    | cons y ys =>
      have hstep : shift poly (c ^^^ d ^^^ low w (x ^^ y)) =
          shift poly (c ^^^ low w x) ^^^ shift poly (d ^^^ low w y) := by
        rw [← shift_xor, low_xor]
        congr 1
        rw [BitVec.xor_assoc, BitVec.xor_assoc, ← BitVec.xor_assoc d, ← BitVec.xor_assoc (low w x),
          BitVec.xor_comm d]
      rw [List.zipWith_cons_cons, feed, feed, feed, hstep]
      exact ih (Nat.succ.inj h) _ _

/-- Zeros only shift the register. -/
theorem feed_replicate_false (n : Nat) (c : BitVec w) :
    feed poly (List.replicate n false) c = shifts poly n c := by
  induction n generalizing c with
  | zero => rfl
  | succ n ih =>
    rw [List.replicate_succ, feed, shifts, ih]
    congr 2
    exact BitVec.xor_zero

end

/-! ### The bits that are in the register -/

/-- The register that holds these bits, the first one lowest. -/
def register (w : Nat) : List Bool → BitVec w
  | [] => 0
  | b :: bs => low w b ^^^ (register w bs <<< 1)

theorem getLsbD_low (b : Bool) (i : Nat) :
    (low w b).getLsbD i = (decide (i < w) && decide (i = 0) && b) := by
  cases b with
  | false => simp [low]
  | true =>
    rw [low, if_pos rfl]
    cases i <;> simp [BitVec.getLsbD_one]

theorem getLsbD_register (bs : List Bool) (i : Nat) :
    (register w bs).getLsbD i = (decide (i < w) && bs.getD i false) := by
  induction bs generalizing i with
  | nil => simp [register]
  | cons b bs ih =>
    rw [register, BitVec.getLsbD_xor, getLsbD_low, BitVec.getLsbD_shiftLeft, ih]
    cases i with
    | zero => simp
    | succ i =>
      by_cases hi : i + 1 < w
      · simp [hi, show i < w by omega]
      · simp [hi]

/-- As long as there is room, the bits can wait in the register. -/
theorem shift_register_cons (poly : BitVec w) (c : BitVec w) (b : Bool) {bs : List Bool}
    (h : bs.length < w) :
    shift poly (c ^^^ register w (b :: bs)) = shift poly (c ^^^ low w b) ^^^ register w bs := by
  have hshift : shift poly (register w bs <<< 1) = register w bs := by
    have hlow : (register w bs <<< 1).getLsbD 0 = false := by
      rw [BitVec.getLsbD_shiftLeft]
      simp
    rw [shift, hlow, if_neg Bool.false_ne_true]
    refine BitVec.eq_of_getLsbD_eq fun i hi => ?_
    rw [BitVec.getLsbD_ushiftRight, BitVec.getLsbD_shiftLeft, getLsbD_register, getLsbD_register]
    by_cases hlast : 1 + i < w
    · simp [hlast, hi]
    · have hnone : bs[i]? = none := List.getElem?_eq_none (by omega)
      simp [hlast, hnone]
  rw [register, ← BitVec.xor_assoc, shift_xor, hshift]

theorem feed_register (poly : BitVec w) {bs : List Bool} (h : bs.length ≤ w) (c : BitVec w) :
    feed poly bs c = shifts poly bs.length (c ^^^ register w bs) := by
  induction bs generalizing c with
  | nil => exact congrArg (shifts poly 0) BitVec.xor_zero.symm
  | cons b bs ih =>
    rw [List.length_cons] at h
    rw [feed, List.length_cons, shifts, shift_register_cons poly c b h]
    exact ih (by omega) _

theorem register_eq_zero {bs : List Bool} (h : bs.length ≤ w) (hr : register w bs = 0) :
    true ∉ bs := by
  intro hmem
  obtain ⟨i, hi, hbit⟩ := List.getElem_of_mem hmem
  have hget := getLsbD_register (w := w) bs i
  rw [hr, List.getD_eq_getElem?_getD, List.getElem?_eq_getElem hi, hbit] at hget
  simp [show i < w by omega] at hget

/-! ### Nothing is lost -/

section

variable {poly : BitVec w}

/-- What has gone out comes back through the highest bit of the polynomial. -/
theorem shift_eq_zero (hpoly : poly.msb = true) {c : BitVec w} (h : shift poly c = 0) : c = 0 := by
  have hw : 0 < w := by
    rcases Nat.eq_zero_or_pos w with rfl | hw
    · rw [BitVec.msb_zero_length] at hpoly
      cases hpoly
    · exact hw
  unfold shift at h
  by_cases hout : c.getLsbD 0 = true
  · rw [if_pos hout] at h
    have hmsb : (c >>> 1 ^^^ poly).getLsbD (w - 1) = true := by
      rw [BitVec.msb_eq_getLsbD_last] at hpoly
      rw [BitVec.getLsbD_xor, BitVec.getLsbD_ushiftRight, BitVec.getLsbD_of_ge c _ (by omega),
        hpoly]
      rfl
    rw [h] at hmsb
    simp at hmsb
  · rw [if_neg hout] at h
    refine BitVec.eq_of_getLsbD_eq fun i _ => ?_
    cases i with
    | zero => simpa using hout
    | succ i =>
      have hbit : (c >>> 1).getLsbD i = false := by rw [h]; simp
      rw [BitVec.getLsbD_ushiftRight, Nat.add_comm] at hbit
      simpa using hbit

theorem shifts_eq_zero (hpoly : poly.msb = true) {n : Nat} {c : BitVec w}
    (h : shifts poly n c = 0) : c = 0 := by
  induction n generalizing c with
  | zero => exact h
  | succ n ih => exact shift_eq_zero hpoly (ih h)

/-- A message whose last bits are its check. -/
theorem feed_eq_zero_iff (hpoly : poly.msb = true) (xs : List Bool) {check : List Bool}
    (hlen : check.length ≤ w) (c : BitVec w) :
    feed poly (xs ++ check) c = 0 ↔ feed poly xs c = register w check := by
  rw [feed_append, feed_register poly hlen]
  constructor
  · intro h
    exact BitVec.xor_eq_zero_iff.mp (shifts_eq_zero hpoly h)
  · intro h
    rw [BitVec.xor_eq_zero_iff.mpr h]
    exact shifts_zero poly _

/-! ### Odd weight -/

/-- The number of ones, modulo 2. -/
def parity (c : BitVec w) : ZMod 2 := ∑ i ∈ range w, if c.getLsbD i then 1 else 0

theorem parity_xor (c d : BitVec w) : parity (c ^^^ d) = parity c + parity d := by
  rw [parity, parity, parity, ← sum_add_distrib]
  refine sum_congr rfl fun i _ => ?_
  rw [BitVec.getLsbD_xor]
  cases c.getLsbD i <;> cases d.getLsbD i <;> rfl

theorem parity_zero : parity (0 : BitVec w) = 0 := by
  refine sum_eq_zero fun i _ => ?_
  simp

theorem parity_shiftRight (c : BitVec w) :
    parity (c >>> 1) + (if c.getLsbD 0 then 1 else 0) = parity c := by
  have hbit : ∀ i, (c >>> 1).getLsbD i = c.getLsbD (i + 1) := by
    intro i
    rw [BitVec.getLsbD_ushiftRight, Nat.add_comm]
  have hlast : c.getLsbD w = false := BitVec.getLsbD_of_ge c w (Nat.le_refl w)
  simp only [parity, hbit]
  rw [← sum_range_succ' (fun i => if c.getLsbD i then (1 : ZMod 2) else 0), sum_range_succ, hlast]
  exact add_zero _

/-- An odd polynomial makes up for the one that goes out. -/
theorem parity_shift (hodd : parity poly = 1) (c : BitVec w) : parity (shift poly c) = parity c := by
  rw [← parity_shiftRight c, shift]
  split_ifs
  · rw [parity_xor, hodd]
  · exact (add_zero _).symm

theorem parity_low (hw : 0 < w) (b : Bool) : parity (low w b) = if b then 1 else 0 := by
  have hbit : ∀ i ∈ range w, (if (low w b).getLsbD i then (1 : ZMod 2) else 0) =
      if i = 0 then (if b then 1 else 0) else 0 := by
    intro i hi
    rw [getLsbD_low]
    cases b <;> simp [mem_range.mp hi]
  rw [parity, sum_congr rfl hbit, sum_ite_eq' (range w) 0, if_pos (mem_range.mpr hw)]

/-- The register has the parity of what has entered it. -/
theorem parity_feed (hw : 0 < w) (hodd : parity poly = 1) (bs : List Bool) (c : BitVec w) :
    parity (feed poly bs c) = parity c + (bs.count true : Nat) := by
  induction bs generalizing c with
  | nil => exact (add_zero _).symm
  | cons b bs ih =>
    rw [feed, ih, parity_shift hodd, parity_xor, parity_low hw, List.count_cons]
    cases b
    · simp
    · simp [add_comm, add_left_comm]

/-- **An odd number of bits.** -/
theorem feed_of_odd (hw : 0 < w) (hodd : parity poly = 1) {e : List Bool}
    (he : e.count true % 2 = 1) : feed poly e 0 ≠ 0 := by
  intro h
  have hparity := parity_feed hw hodd e 0
  rw [h, parity_zero, zero_add] at hparity
  have hcast : ((e.count true : Nat) : ZMod 2) = 1 := by
    rw [← Nat.mod_add_div (e.count true) 2, he]
    push_cast
    have htwo : (2 : ZMod 2) = 0 := rfl
    rw [htwo, zero_mul, add_zero]
  rw [hcast] at hparity
  exact absurd hparity (by decide)

/-! ### Two bits -/

theorem eq_replicate_false {bs : List Bool} (h : true ∉ bs) :
    bs = List.replicate bs.length false := by
  refine List.eq_replicate_of_mem fun b hb => ?_
  cases b with
  | false => rfl
  | true => exact absurd hb h

/-- A pattern of one bit: what comes before it and after it. -/
theorem exists_of_count_one {e : List Bool} (h : e.count true = 1) :
    ∃ n m, e = List.replicate n false ++ true :: List.replicate m false := by
  induction e with
  | nil => cases h
  | cons b e ih =>
    cases b with
    | false =>
      obtain ⟨n, m, rfl⟩ := ih (by simpa using h)
      exact ⟨n + 1, m, rfl⟩
    | true =>
      have hzero : true ∉ e := List.count_eq_zero.mp (by simpa using h)
      refine ⟨0, e.length, ?_⟩
      rw [List.replicate_zero, List.nil_append, ← eq_replicate_false hzero]

theorem exists_of_count_two {e : List Bool} (h : e.count true = 2) :
    ∃ n d m, e = List.replicate n false ++ true :: (List.replicate d false ++
      true :: List.replicate m false) := by
  induction e with
  | nil => cases h
  | cons b e ih =>
    cases b with
    | false =>
      obtain ⟨n, d, m, rfl⟩ := ih (by simpa using h)
      exact ⟨n + 1, d, m, rfl⟩
    | true =>
      obtain ⟨d, m, rfl⟩ := exists_of_count_one (e := e) (by simpa using h)
      exact ⟨0, d, m, rfl⟩

/-- **Two bits**, if a one does not come back to where it was in between. -/
theorem feed_of_two (hpoly : poly.msb = true) {n : Nat}
    (hperiod : ∀ d, 0 < d → d < n → shifts poly d (low w true) ≠ low w true) {e : List Bool}
    (hlen : e.length ≤ n) (he : e.count true = 2) : feed poly e 0 ≠ 0 := by
  obtain ⟨a, d, m, rfl⟩ := exists_of_count_two he
  intro h
  have hfirst : feed poly (true :: List.replicate d false) 0 = shifts poly (d + 1) (low w true) := by
    rw [feed, feed_replicate_false, shifts]
    congr 2
    exact BitVec.zero_xor
  rw [feed_append, feed_replicate_false, shifts_zero, ← List.cons_append, feed_append, hfirst, feed,
    feed_replicate_false] at h
  have hsame := shift_eq_zero hpoly (shifts_eq_zero hpoly h)
  refine hperiod (d + 1) (Nat.succ_pos d) ?_ (BitVec.xor_eq_zero_iff.mp hsame)
  simp only [List.length_append, List.length_cons, List.length_replicate] at hlen
  omega

/-- The register never returns to `target` in `n` shifts. -/
def avoids (poly target : BitVec w) : Nat → BitVec w → Bool
  | 0, _ => true
  | n + 1, c => shift poly c != target && avoids poly target n (shift poly c)

theorem shifts_of_avoids {target : BitVec w} {n : Nat} {c : BitVec w}
    (h : avoids poly target n c = true) : ∀ d, 0 < d → d ≤ n → shifts poly d c ≠ target := by
  induction n generalizing c with
  | zero =>
    intro d hpos hle
    omega
  | succ n ih =>
    rw [avoids, Bool.and_eq_true, bne_iff_ne] at h
    intro d hpos hle
    obtain ⟨d, rfl⟩ : ∃ k, d = k + 1 := ⟨d - 1, by omega⟩
    rcases Nat.eq_zero_or_pos d with rfl | hd
    · exact h.1
    · exact ih h.2 d hd (by omega)

/-! ### Bursts -/

/-- **A burst**, whatever its pattern, if it fits into the register. -/
theorem feed_of_burst (hpoly : poly.msb = true) {e : List Bool} {i : Nat}
    (hburst : ∀ j, e[j]? = some true → i ≤ j ∧ j < i + w) (hne : true ∈ e) :
    feed poly e 0 ≠ 0 := by
  intro h
  have hsplit : e.take i ++ ((e.drop i).take w ++ (e.drop i).drop w) = e := by
    rw [List.take_append_drop, List.take_append_drop]
  have hfront : true ∉ e.take i := by
    intro hmem
    obtain ⟨j, hj⟩ := List.mem_iff_getElem?.mp hmem
    rw [List.getElem?_take] at hj
    split_ifs at hj with hlt
    exact absurd (hburst j hj).1 (Nat.not_le.mpr hlt)
  have hback : true ∉ (e.drop i).drop w := by
    intro hmem
    obtain ⟨j, hj⟩ := List.mem_iff_getElem?.mp hmem
    rw [List.getElem?_drop, List.getElem?_drop] at hj
    have hlt := (hburst _ hj).2
    omega
  have hmiddle : true ∈ (e.drop i).take w := by
    rw [← hsplit, List.mem_append, List.mem_append] at hne
    rcases hne with hmem | hmem | hmem
    · exact absurd hmem hfront
    · exact hmem
    · exact absurd hmem hback
  rw [← hsplit, eq_replicate_false hfront, eq_replicate_false hback, feed_append, feed_append,
    feed_replicate_false, feed_replicate_false, shifts_zero] at h
  have hlen : ((e.drop i).take w).length ≤ w := by
    rw [List.length_take]
    exact Nat.min_le_left _ _
  have hburst' := shifts_eq_zero hpoly h
  rw [feed_register poly hlen] at hburst'
  have hregister : register w ((e.drop i).take w) = 0 := by
    rw [← shifts_eq_zero hpoly hburst']
    exact BitVec.zero_xor.symm
  exact register_eq_zero hlen hregister hmiddle

end

end Crc
