/-
Libmodbus/Lib/Prefix.lean

Programs that are given the first bytes of a buffer only.

    Cut x y  :=  x is y, or x stops at a read outside its buffer

A program that runs on `xs.take n` as well as on `xs` is cut off at its first
read behind the first `n` bytes, and does the same up to there: `Cut` has a rule
for every way to build a program.  So a program that never stops in that way on
the prefix does on the whole buffer exactly what it does on the prefix
(`Cut.eq`), whatever follows there.
-/
import Libmodbus.Lib.C

namespace CSem

variable {α β γ : Type}

/-- The run `x` is the run `y` as far as its buffer reaches. -/
def Cut (x y : Run α) : Prop := x = y ∨ ∃ i, x = .error (.readOutside i)

namespace Cut

variable {x y : Run α}

theorem refl (x : Run α) : Cut x x := Or.inl rfl

theorem bind {f g : α → Run β} (hx : Cut x y) (hf : ∀ a, Cut (f a) (g a)) :
    Cut (x >>= f) (y >>= g) := by
  rcases hx with rfl | ⟨i, rfl⟩
  · cases x with
    | error e => exact .refl _
    | ok a => exact hf a
  · exact Or.inr ⟨i, rfl⟩

theorem ite {c : Prop} [Decidable c] {x' y' : Run α} (hx : Cut x y) (hx' : Cut x' y') :
    Cut (if c then x else x') (if c then y else y') := by
  by_cases h : c
  · rw [if_pos h, if_pos h]
    exact hx
  · rw [if_neg h, if_neg h]
    exact hx'

/-- A run that is not cut off is the same on the whole buffer. -/
theorem eq {P : α → Prop} {E : Stop → Prop} (h : Cut x y) (hx : Ends x P E)
    (hE : ∀ i, ¬ E (.readOutside i)) : x = y := by
  rcases h with rfl | ⟨i, rfl⟩
  · rfl
  · exact absurd hx (hE i)

end Cut

/-! ### Reading -/

theorem cut_rd (xs : List α) (n i : Nat) : Cut (rd (xs.take n) i) (rd xs i) := by
  by_cases h : i < n
  · rw [rd_take h]
    exact .refl _
  · refine Or.inr ⟨i, rd_ge ?_⟩
    rw [List.length_take]
    omega

theorem cut_rdSlice (xs : List α) (n off k : Nat) :
    Cut (rdSlice (xs.take n) off k) (rdSlice xs off k) := by
  by_cases h : off + k ≤ (xs.take n).length
  · have hle := h
    rw [List.length_take] at hle
    refine Or.inl ?_
    rw [rdSlice_of_le h, rdSlice_of_le (show off + k ≤ xs.length by omega), List.drop_take,
      List.take_take, Nat.min_eq_left (by omega)]
  · exact Or.inr ⟨off + k - 1, if_neg h⟩

end CSem
