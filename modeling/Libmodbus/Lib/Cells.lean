/-
Libmodbus/Lib/Cells.lean

Numbered cells, of which some are missing: the abstract view of an array that
begins at an address of its own.

    ofList start xs :   start ↦ x₀,  start + 1 ↦ x₁, …      (nothing elsewhere)

`slice` reads cells that follow one another and `put` writes them; `put`
changes the addressed cells and no others.  On the array, writing is `splice`,
and loops that write one cell a turn are chains of `setCell_splice`.
`slice_ofList` and `put_ofList` join the two views.
-/
import Libmodbus.Lib.C

namespace CSem

variable {α β : Type}

/-! ### Arrays -/

/-- The array with `vs` in the place of what stood from index `k` on. -/
def splice (xs : List α) (k : Nat) (vs : List α) : List α :=
  xs.take k ++ (vs ++ xs.drop (k + vs.length))

@[simp] theorem splice_nil (xs : List α) (k : Nat) : splice xs k [] = xs := by
  show xs.take k ++ xs.drop (k + 0) = xs
  exact List.take_append_drop k xs

theorem splice_zero (xs vs : List α) : splice xs 0 vs = vs ++ xs.drop vs.length := by
  rw [splice, List.take_zero, List.nil_append, Nat.zero_add]

theorem length_splice {xs vs : List α} {k : Nat} (h : k + vs.length ≤ xs.length) :
    (splice xs k vs).length = xs.length := by
  simp only [splice, List.length_append, List.length_take, List.length_drop]
  omega

theorem getElem?_splice {xs vs : List α} {k : Nat} (h : k + vs.length ≤ xs.length) (i : Nat) :
    (splice xs k vs)[i]? = if k ≤ i ∧ i < k + vs.length then vs[i - k]? else xs[i]? := by
  have hk : (xs.take k).length = k := by
    rw [List.length_take]
    omega
  rw [splice]
  split_ifs with hi
  · rw [List.getElem?_append_right (by omega), hk, List.getElem?_append_left (by omega)]
  · by_cases hlt : i < k
    · rw [List.getElem?_append_left (by omega), List.getElem?_take_of_lt hlt]
    · rw [List.getElem?_append_right (by omega), hk, List.getElem?_append_right (by omega),
        List.getElem?_drop, show k + vs.length + (i - k - vs.length) = i by omega]

/-- Writing the next cell makes what is written one longer. -/
theorem set_splice {xs vs : List α} {k : Nat} (h : k + vs.length < xs.length) (v : α) :
    (splice xs k vs).set (k + vs.length) v = splice xs k (vs ++ [v]) := by
  have h' : k + (vs ++ [v]).length ≤ xs.length := by
    rw [List.length_append]
    exact h
  apply List.ext_getElem?
  intro i
  rw [List.getElem?_set, getElem?_splice h', getElem?_splice (Nat.le_of_lt h),
    length_splice (Nat.le_of_lt h), List.length_append, List.length_singleton]
  by_cases hi : k + vs.length = i
  · subst hi
    rw [if_pos rfl, if_pos h, if_pos ⟨Nat.le_add_right _ _, by omega⟩, Nat.add_sub_cancel_left,
      List.getElem?_append_right (Nat.le_refl _), Nat.sub_self]
    rfl
  · rw [if_neg hi]
    by_cases hin : k ≤ i ∧ i < k + vs.length
    · rw [if_pos hin, if_pos ⟨hin.1, by omega⟩, List.getElem?_append_left (by omega)]
    · rw [if_neg hin, if_neg (by omega)]

/-- The first value goes to the cell, the others behind it. -/
theorem splice_set {xs vs : List α} {k : Nat} (h : k + 1 + vs.length ≤ xs.length) (v : α) :
    splice (xs.set k v) (k + 1) vs = splice xs k (v :: vs) := by
  have h' : k + (v :: vs).length ≤ xs.length := by
    rw [List.length_cons]
    omega
  have hset : k + 1 + vs.length ≤ (xs.set k v).length := by
    rw [List.length_set]
    exact h
  apply List.ext_getElem?
  intro i
  rw [getElem?_splice hset, getElem?_splice h', List.getElem?_set, List.length_cons]
  by_cases hi : k = i
  · subst hi
    rw [if_neg (by omega), if_pos rfl, if_pos (by omega), if_pos (by omega), Nat.sub_self]
    rfl
  · rw [if_neg hi]
    by_cases hin : k + 1 ≤ i ∧ i < k + 1 + vs.length
    · rw [if_pos hin, if_pos (by omega), show i - k = (i - (k + 1)) + 1 by omega]
      rfl
    · rw [if_neg hin, if_neg (by omega)]

theorem map_splice (f : α → β) (xs vs : List α) (k : Nat) :
    (splice xs k vs).map f = splice (xs.map f) k (vs.map f) := by
  simp only [splice, List.map_append, List.map_take, List.map_drop, List.length_map]

theorem wr_splice {xs vs : List α} (h : vs.length < xs.length) (v : α) :
    wr (splice xs 0 vs) vs.length v = .ok (splice xs 0 (vs ++ [v])) := by
  have hlen : (splice xs 0 vs).length = xs.length := length_splice (by omega)
  have hset : (splice xs 0 vs).set (0 + vs.length) v = _ := set_splice (by omega) v
  rw [wr_lt (by omega), ← hset, Nat.zero_add]

theorem wr_splice_take {xs vs : List α} {i : Nat} (hi : i ≤ vs.length) (h : i < xs.length) (v : α) :
    wr (splice xs 0 (vs.take i)) i v = .ok (splice xs 0 (vs.take i ++ [v])) := by
  have hlen : (vs.take i).length = i := List.length_take_of_le hi
  have hw : wr (splice xs 0 (vs.take i)) (vs.take i).length v = _ := wr_splice (by omega) v
  rw [← hw, hlen]

theorem setCell_splice {xs vs : List α} {k n : Nat} (hn : n = k + vs.length)
    (h : n < xs.length) (v : α) :
    setCell (splice xs k vs) n v = .ok (splice xs k (vs ++ [v])) := by
  subst hn
  rw [setCell_of_lt (by rw [length_splice (Nat.le_of_lt h)]; exact h), set_splice h]

/-- One cell. -/
theorem setCell_one {xs : List α} {k : Nat} (h : k < xs.length) (v : α) :
    setCell xs k v = .ok (splice xs k [v]) := by
  have hset : setCell (splice xs k []) k v = .ok (splice xs k ([] ++ [v])) :=
    setCell_splice rfl h v
  rw [splice_nil] at hset
  exact hset

/-! ### Reading on from an index -/

theorem drop_succ_of_drop {xs rest : List α} {k : Nat} {v : α} (h : xs.drop k = v :: rest) :
    xs.drop (k + 1) = rest := by
  rw [← List.drop_drop, h]
  rfl

/-- The cells behind one that has been stored. -/
theorem drop_splice {xs vs : List α} {k i : Nat} (h : k + vs.length ≤ xs.length)
    (hi : i ≤ vs.length) :
    (splice xs k vs).drop (k + i) = vs.drop i ++ xs.drop (k + vs.length) := by
  have hk : (xs.take k).length = k := List.length_take_of_le (by omega)
  have hsplit : (splice xs k vs).drop (k + i) =
      (vs ++ xs.drop (k + vs.length)).drop i := by
    rw [splice, ← List.drop_drop]
    nth_rewrite 1 [← hk]
    rw [List.drop_left]
  rw [hsplit, List.drop_append_of_le_length hi]

theorem rd_of_drop {xs rest : List α} {k : Nat} {v : α} (h : xs.drop k = v :: rest) :
    rd xs k = .ok v := by
  apply rd_of_getElem?
  rw [← Nat.add_zero k, ← List.getElem?_drop, h]
  rfl

theorem cell_of_drop {xs rest : List α} {k : Nat} {v : α} (h : xs.drop k = v :: rest) :
    cell xs k = .ok v := by
  have hk : k < xs.length := by
    have := congrArg List.length h
    rw [List.length_drop, List.length_cons] at this
    omega
  have hv := rd_of_drop h
  rw [rd_lt hk] at hv
  rw [cell_of_lt hk, hv]

/-! ### Cells -/

/-- Cells under numbers; `none` is no cell. -/
abbrev Cells (α : Type) : Type := Nat → Option α

namespace Cells

/-- The cells of an array that begins at `start`. -/
def ofList (start : Nat) (xs : List α) : Cells α := fun i =>
  if start ≤ i then xs[i - start]? else none

/-- The values of `n` cells from `a` on, if all of them are there. -/
def slice (c : Cells α) : Nat → Nat → Option (List α)
  | _, 0 => some []
  | a, n + 1 => (c a).bind fun v => (slice c (a + 1) n).map (v :: ·)

/-- `vs` written from `a` on; what is no cell stays none. -/
def put (c : Cells α) (a : Nat) (vs : List α) : Cells α := fun i =>
  (c i).map fun v => if a ≤ i then vs[i - a]?.getD v else v

variable {c : Cells α} {xs vs : List α} {start a i n : Nat}

theorem length_of_slice (h : c.slice a n = some vs) : vs.length = n := by
  induction n generalizing a vs with
  | zero =>
    cases h
    rfl
  | succ n ih =>
    obtain ⟨v, -, h⟩ := Option.bind_eq_some_iff.mp h
    obtain ⟨ws, hws, rfl⟩ := Option.map_eq_some_iff.mp h
    rw [List.length_cons, ih hws]

/-- Values can be read where all cells are there. -/
theorem isSome_slice_iff : (c.slice a n).isSome ↔ ∀ j < n, (c (a + j)).isSome := by
  induction n generalizing a with
  | zero =>
    constructor
    · intro _ j hj
      exact absurd hj (Nat.not_lt_zero j)
    · intro _
      rfl
  | succ n ih =>
    rw [slice, Option.isSome_bind, Option.any_eq_true]
    constructor
    · rintro ⟨v, hv, h⟩ j hj
      rw [Option.isSome_map] at h
      cases j with
      | zero => exact Option.isSome_of_mem hv
      | succ j =>
        have hnext := ih.mp h j (by omega)
        rw [show a + (j + 1) = a + 1 + j by omega]
        exact hnext
    · intro h
      obtain ⟨v, hv⟩ := Option.isSome_iff_exists.mp (h 0 (Nat.succ_pos n))
      refine ⟨v, hv, ?_⟩
      rw [Option.isSome_map]
      apply ih.mpr
      intro j hj
      rw [show a + 1 + j = a + (j + 1) by omega]
      exact h (j + 1) (by omega)

/-- Writing adds no cell and removes none. -/
theorem isSome_slice_put (k : Nat) (vs : List α) :
    ((c.put k vs).slice a n).isSome ↔ (c.slice a n).isSome := by
  simp only [isSome_slice_iff, put, Option.isSome_map]

theorem slice_one (c : Cells α) (a : Nat) : c.slice a 1 = (c a).map fun v => [v] := by
  cases h : c a <;> simp [slice, h]

theorem put_one (c : Cells α) (a : Nat) (v : α) : c.put a [v] a = (c a).map fun _ => v := by
  simp [put]

/-- What is written last stays. -/
theorem put_put {vs ws : List α} (h : vs.length = ws.length) :
    (c.put a vs).put a ws = c.put a ws := by
  funext i
  unfold put
  rw [Option.map_map]
  congr 1
  funext v
  by_cases hi : a ≤ i
  · by_cases hin : i - a < ws.length
    · simp [hi, hin]
    · have hout : vs[i - a]? = none := List.getElem?_eq_none (by omega)
      simp [hi, hin, hout]
  · simp [hi]

/-! ### The cells of an array -/

theorem ofList_add (start k : Nat) (xs : List α) : ofList start xs (start + k) = xs[k]? := by
  rw [ofList, if_pos (Nat.le_add_right _ _), Nat.add_sub_cancel_left]

/-- Reading inside the array. -/
theorem slice_ofList {k : Nat} (h : k + n ≤ xs.length) :
    (ofList start xs).slice (start + k) n = some ((xs.drop k).take n) := by
  induction n generalizing k with
  | zero => rfl
  | succ n ih =>
    have hk : k < xs.length := by omega
    have ih' : (ofList start xs).slice (start + k + 1) n = _ := ih (k := k + 1) (by omega)
    rw [slice, ofList_add, List.getElem?_eq_getElem hk, Option.bind_some, ih',
      List.drop_eq_getElem_cons hk]
    rfl

/-- Reading something outside. -/
theorem slice_ofList_none (hn : 0 < n) (h : ¬ (start ≤ a ∧ a + n ≤ start + xs.length)) :
    (ofList start xs).slice a n = none := by
  induction n generalizing a with
  | zero => exact absurd hn (Nat.lt_irrefl 0)
  | succ n ih =>
    rw [slice]
    by_cases hfirst : start ≤ a ∧ a < start + xs.length
    · -- the first cell is there, so one of the others is not
      have hrest : (ofList start xs).slice (a + 1) n = none := ih (by omega) (by omega)
      rw [hrest]
      cases ofList start xs a <;> rfl
    · have hnone : ofList start xs a = none := by
        unfold ofList
        split_ifs with hle
        · exact List.getElem?_eq_none (by omega)
        · rfl
      rw [hnone]
      rfl

/-- Writing inside the array. -/
theorem put_ofList {k : Nat} (h : k + vs.length ≤ xs.length) :
    (ofList start xs).put (start + k) vs = ofList start (splice xs k vs) := by
  funext i
  unfold put
  by_cases hi : start ≤ i
  · obtain ⟨j, rfl⟩ := Nat.exists_eq_add_of_le hi
    rw [ofList_add, ofList_add, getElem?_splice h]
    by_cases hin : k ≤ j ∧ j < k + vs.length
    · have hv : j - k < vs.length := by omega
      rw [if_pos hin, List.getElem?_eq_getElem (show j < xs.length by omega), Option.map_some,
        if_pos (by omega), show start + j - (start + k) = j - k by omega,
        List.getElem?_eq_getElem hv]
      rfl
    · rw [if_neg hin]
      have hsame : ∀ v : α, (if start + k ≤ start + j then vs[start + j - (start + k)]?.getD v
          else v) = v := by
        intro v
        split_ifs with hle
        · rw [List.getElem?_eq_none (by omega)]
          rfl
        · rfl
      simp only [hsame, Option.map_id']
  · simp only [ofList, if_neg hi, Option.map_none]

end Cells

end CSem
