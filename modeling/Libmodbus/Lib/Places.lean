/-
Libmodbus/Lib/Places.lean

Values in cells of `w` bits, the most significant cell first:

    x   =   c₀ c₁ … cₖ₋₁          (k * w bits, cell i shifted by w * (k - 1 - i))

`join` puts cells together by shifting each to its place, and a place is read
back by shifting and masking (`extract_join`).  `places` is the correspondence
that both make, and `layout σ` is `places` with the cells stored in the order
`σ`.  As `layout σ` is an equivalence, what is stored in one order and read in
the same order round-trips; as its cells are those of `places`, two orders
differ by the permutation that leads from one to the other, and by no other
(`layout_eq_iff`).

The last section is about two's complement: the places of an integer are the
low bits of the integer shifted (`ofInt_shiftRight`).
-/
import Mathlib

namespace Places

variable {k w N : Nat}

/-! ### Cells put together -/

/-- The cells, each shifted to its place. -/
def join (N : Nat) : List (BitVec w) → BitVec N
  | [] => 0#N
  | c :: cs => c.setWidth N <<< (w * cs.length) ||| join N cs

/-- The first cell is above the places of the others. -/
theorem getLsbD_first {c : BitVec w} {n s : Nat} (hn : n < w) (h : s + w ≤ N) :
    (c.setWidth N <<< s).getLsbD (s + n) = c.getLsbD n := by
  have hN : s + n < N := by omega
  simp [hN]

theorem getLsbD_first_of_lt {c : BitVec w} {n s : Nat} (h : n < s) :
    (c.setWidth N <<< s).getLsbD n = false := by
  simp [h]

/-- Nothing is set above the places of the cells. -/
theorem getLsbD_join_of_le {n : Nat} (cs : List (BitVec w)) (h : w * cs.length ≤ n) :
    (join N cs).getLsbD n = false := by
  induction cs with
  | nil => exact BitVec.getLsbD_zero
  | cons c cs ih =>
    rw [List.length_cons, Nat.mul_succ] at h
    have hc : c.getLsbD (n - w * cs.length) = false := BitVec.getLsbD_of_ge c _ (by omega)
    rw [join, BitVec.getLsbD_or, ih (by omega), Bool.or_false, BitVec.getLsbD_shiftLeft,
      BitVec.getLsbD_setWidth, hc, Bool.and_false, Bool.and_false]

/-- **Each cell is read back from its place.** -/
theorem extract_join {cs : List (BitVec w)} (h : w * cs.length ≤ N) {i : Nat}
    (hi : i < cs.length) :
    (join N cs).extractLsb' (w * (cs.length - 1 - i)) w = cs[i] := by
  induction cs generalizing i with
  | nil => exact absurd hi (Nat.not_lt_zero i)
  | cons c cs ih =>
    rw [List.length_cons, Nat.mul_succ] at h
    apply BitVec.eq_of_getLsbD_eq
    intro n hn
    rw [BitVec.getLsbD_extractLsb', decide_eq_true hn, Bool.true_and, join, BitVec.getLsbD_or]
    cases i with
    | zero =>
      rw [List.length_cons, Nat.add_sub_cancel, Nat.sub_zero, getLsbD_first hn h,
        getLsbD_join_of_le cs (Nat.le_add_right _ _), Bool.or_false]
      rfl
    | succ i =>
      have hi' : i < cs.length := Nat.lt_of_succ_lt_succ hi
      -- the place is one of those below the first cell
      have hlow : w * (cs.length - 1 - i) + n < w * cs.length := by
        calc w * (cs.length - 1 - i) + n < w * (cs.length - 1 - i) + w := by omega
          _ = w * (cs.length - 1 - i + 1) := (Nat.mul_succ _ _).symm
          _ ≤ w * cs.length := Nat.mul_le_mul_left w (by omega)
      have hcell := congrArg (fun x => x.getLsbD n) (ih (by omega) hi')
      simp only [BitVec.getLsbD_extractLsb', hn, decide_true, Bool.true_and] at hcell
      rw [List.length_cons, show cs.length + 1 - 1 - (i + 1) = cs.length - 1 - i by omega,
        getLsbD_first_of_lt hlow, Bool.false_or, hcell, List.getElem_cons_succ]

/-- Shifting and masking reads a place. -/
theorem mask_eq_extract (h : w ≤ N) (x : BitVec N) (n : Nat) :
    ((x >>> n) &&& BitVec.ofNat N (2 ^ w - 1)).setWidth w = x.extractLsb' n w := by
  have hmask : (BitVec.ofNat N (2 ^ w - 1)).setWidth w = BitVec.allOnes w := by
    rw [BitVec.setWidth_ofNat_of_le h]
    apply BitVec.eq_of_toNat_eq
    rw [BitVec.toNat_ofNat, BitVec.toNat_allOnes, Nat.mod_eq_of_lt]
    exact Nat.sub_lt (Nat.two_pow_pos w) Nat.one_pos
  rw [BitVec.setWidth_and, hmask, BitVec.and_allOnes, BitVec.setWidth_ushiftRight_eq_extractLsb]

/-! ### Places -/

/-- Cell `i` of a value, cell `0` being the most significant one. -/
def place (x : BitVec (k * w)) (i : Fin k) : BitVec w := x.extractLsb' (w * i.rev) w

/-- Two values with the same cells have the same bits. -/
theorem eq_of_place_eq {x y : BitVec (k * w)} (h : ∀ i, place x i = place y i) : x = y := by
  apply BitVec.eq_of_getLsbD_eq
  intro n hn
  have hw : 0 < w := Nat.pos_of_mul_pos_left (show 0 < k * w by omega)
  have hk : n / w < k := Nat.div_lt_of_lt_mul (by rwa [Nat.mul_comm] at hn)
  -- bit `n` is bit `n % w` of the cell `n / w` places above the last one
  have hcell := h (Fin.rev ⟨n / w, hk⟩)
  rw [place, place, Fin.rev_rev] at hcell
  have hbit := congrArg (fun c => c.getLsbD (n % w)) hcell
  simpa only [BitVec.getLsbD_extractLsb', Nat.mod_lt n hw, decide_true, Bool.true_and,
    Nat.div_add_mod] using hbit

theorem place_join (c : Fin k → BitVec w) (i : Fin k) :
    place (join (k * w) (List.ofFn c)) i = c i := by
  have hlen : (List.ofFn c).length = k := List.length_ofFn
  have hle : w * (List.ofFn c).length ≤ k * w := by rw [hlen, Nat.mul_comm]
  have hi : (i : Nat) < (List.ofFn c).length := by
    rw [hlen]
    exact i.isLt
  have h := extract_join hle hi
  rw [hlen, List.getElem_ofFn] at h
  rw [place, Fin.val_rev, Nat.add_comm, Nat.sub_add_eq]
  exact h

/-- The `k` cells of a value, the most significant one first. -/
def places : BitVec (k * w) ≃ (Fin k → BitVec w) where
  toFun := place
  invFun c := join (k * w) (List.ofFn c)
  left_inv x := eq_of_place_eq (place_join (place x))
  right_inv c := funext (place_join c)

/-! ### Orders -/

/-- The cells of a value where cell `σ i` stands at `i`. -/
def layout (σ : Equiv.Perm (Fin k)) : BitVec (k * w) ≃ (Fin k → BitVec w) :=
  places.trans (Equiv.arrowCongr σ.symm (Equiv.refl (BitVec w)))

theorem layout_apply (σ : Equiv.Perm (Fin k)) (x : BitVec (k * w)) (i : Fin k) :
    layout σ x i = place x (σ i) := rfl

/-- **An order is told by what it stores.** -/
theorem layout_eq_iff {σ ρ : Equiv.Perm (Fin k)} (hw : 0 < w) :
    (∀ x : BitVec (k * w), layout σ x = layout ρ x) ↔ σ = ρ := by
  constructor
  · intro h
    apply Equiv.ext
    intro i
    -- a value of which a single cell is not zero
    let c : Fin k → BitVec w := fun j => if j = σ i then 1#w else 0#w
    have hplace : place (places.symm c) = c := places.apply_symm_apply c
    have hi : c (σ i) = c (ρ i) := by
      have := congrFun (h (places.symm c)) i
      rwa [layout_apply, layout_apply, hplace] at this
    by_contra hne
    have hone : (1#w) = 0#w := by
      simpa only [c, if_true, if_neg (Ne.symm hne)] using hi
    have hbit := congrArg (fun x => x.getLsbD 0) hone
    simp [hw] at hbit
  · rintro rfl x
    rfl

/-! ### Two's complement -/

theorem toNat_ofInt (N : Nat) (v : Int) : ((BitVec.ofInt N v).toNat : Int) = v % 2 ^ N := by
  rw [BitVec.toNat_ofInt]
  push_cast
  exact Int.toNat_of_nonneg (Int.emod_nonneg _ (by positivity))

/-- The pattern that a conversion to an unsigned type leaves. -/
theorem ofNat_emod (w : Nat) (v : Int) : BitVec.ofNat w (v % 2 ^ w).toNat = BitVec.ofInt w v := by
  apply BitVec.eq_of_toNat_eq
  apply Int.ofNat.inj
  have hnonneg : 0 ≤ v % 2 ^ w := Int.emod_nonneg v (by positivity)
  show ((BitVec.ofNat w (v % 2 ^ w).toNat).toNat : Int) = ((BitVec.ofInt w v).toNat : Int)
  rw [toNat_ofInt, BitVec.toNat_ofNat]
  push_cast
  rw [Int.toNat_of_nonneg hnonneg, Int.emod_emod_of_dvd _ dvd_rfl]

theorem emod_mul_ediv {a b : Int} (hb : 0 < b) (c : Int) : a % (b * c) / b = a / b % c := by
  calc a % (b * c) / b = (a - b * (c * (a / (b * c)))) / b := by rw [Int.emod_def, mul_assoc]
    _ = a / b - c * (a / (b * c)) := Int.sub_mul_ediv_left _ _ (ne_of_gt hb)
    _ = a / b % c := by rw [Int.emod_def, Int.ediv_ediv_of_nonneg hb.le]

/-- What is cut off a shifted integer is a place of the integer. -/
theorem ofInt_shiftRight {n : Nat} (h : n + w ≤ N) (v : Int) :
    BitVec.ofInt w (v >>> n) = (BitVec.ofInt N v).extractLsb' n w := by
  obtain ⟨m, rfl⟩ := Nat.exists_eq_add_of_le h
  have hdvd : (2 : Int) ^ w ∣ 2 ^ (w + m) := pow_dvd_pow 2 (Nat.le_add_right w m)
  apply BitVec.eq_of_toNat_eq
  apply Int.ofNat.inj
  show ((BitVec.ofInt w (v >>> n)).toNat : Int)
    = (((BitVec.ofInt (n + w + m) v).extractLsb' n w).toNat : Int)
  rw [toNat_ofInt, BitVec.extractLsb'_toNat, Nat.shiftRight_eq_div_pow]
  push_cast
  rw [toNat_ofInt, Nat.add_assoc, pow_add, emod_mul_ediv (by positivity),
    Int.emod_emod_of_dvd _ hdvd, Int.shiftRight_eq_div_pow]
  push_cast
  rfl

/-- **An integer is joined from its shifts**, as far as the cells reach. -/
theorem join_ofInt (v : Int) :
    join (k * w) (List.ofFn fun i : Fin k => BitVec.ofInt w (v >>> (w * (i.rev : Nat)))) =
      BitVec.ofInt (k * w) v := by
  have hplace : (fun i : Fin k => BitVec.ofInt w (v >>> (w * (i.rev : Nat)))) =
      place (BitVec.ofInt (k * w) v) := by
    funext i
    apply ofInt_shiftRight
    calc w * (i.rev : Nat) + w = w * (i.rev + 1) := (Nat.mul_succ _ _).symm
      _ ≤ w * k := Nat.mul_le_mul_left w i.rev.isLt
      _ = k * w := Nat.mul_comm w k
  rw [hplace]
  exact places.symm_apply_apply (BitVec.ofInt (k * w) v)

end Places
