/-
Libmodbus/Lib/Updates.lean

Changing an array cell by cell.  An `Update` says for each index whether the
cell is touched, and what becomes of its value then; the number of cells stays.
Two laws carry over from cells to arrays:

* an update whose functions are idempotent can be repeated (`apply_apply`);
* two updates that touch no common cell commute (`apply_comm`).

`put` writes values from an index on, which is `splice` where they fit, and
`single` changes one cell.
-/
import Libmodbus.Lib.Cells

namespace CSem

variable {α : Type}

/-- What becomes of each cell; `none` leaves it alone. -/
def Update (α : Type) : Type := Nat → Option (α → α)

namespace Update

/-- The update that touches nothing. -/
def none : Update α := fun _ => .none

/-- `vs` is written from index `k` on. -/
def put (k : Nat) (vs : List α) : Update α := fun i =>
  if k ≤ i then (vs[i - k]?).map fun v _ => v else .none

/-- The cell at `k` is changed by `f`. -/
def single (k : Nat) (f : α → α) : Update α := fun i => if i = k then some f else .none

def apply (u : Update α) (xs : List α) : List α := xs.mapIdx fun i x => (u i).getD id x

/-- The update touches the cell. -/
def Touches (u : Update α) (i : Nat) : Prop := u i ≠ .none

variable {u v : Update α} {xs vs : List α}

@[simp] theorem length_apply (u : Update α) (xs : List α) : (u.apply xs).length = xs.length :=
  List.length_mapIdx

theorem getElem?_apply (u : Update α) (xs : List α) (i : Nat) :
    (u.apply xs)[i]? = xs[i]?.map ((u i).getD id) := List.getElem?_mapIdx

/-- Cells that are not touched keep their values. -/
theorem getElem?_apply_of_not_touches {i : Nat} (h : ¬ u.Touches i) :
    (u.apply xs)[i]? = xs[i]? := by
  rw [getElem?_apply, not_not.mp h]
  exact Option.map_id'

theorem not_none (i : Nat) {f : α → α} (h : (none : Update α) i = some f) : False := by
  cases h

@[simp] theorem apply_none (xs : List α) : (none : Update α).apply xs = xs := by
  apply List.ext_getElem?
  intro i
  exact getElem?_apply_of_not_touches fun h => h rfl

/-! ### The two laws -/

/-- The second time changes nothing. -/
theorem apply_apply (h : ∀ i f, u i = some f → ∀ x, f (f x) = f x) (xs : List α) :
    u.apply (u.apply xs) = u.apply xs := by
  apply List.ext_getElem?
  intro i
  rw [getElem?_apply, getElem?_apply, Option.map_map]
  cases hu : u i with
  | none => rfl
  | some f =>
    congr 1
    funext x
    exact h i f hu x

/-- The order does not matter. -/
theorem apply_comm (h : ∀ i, u.Touches i → ¬ v.Touches i) (xs : List α) :
    u.apply (v.apply xs) = v.apply (u.apply xs) := by
  apply List.ext_getElem?
  intro i
  rw [getElem?_apply, getElem?_apply, getElem?_apply, getElem?_apply, Option.map_map,
    Option.map_map]
  congr 1
  by_cases hu : u.Touches i
  · rw [not_not.mp (h i hu)]
    rfl
  · rw [not_not.mp hu]
    rfl

/-! ### Writing values -/

theorem touches_put {k i : Nat} : (put k vs).Touches i ↔ k ≤ i ∧ i < k + vs.length := by
  unfold Touches put
  split_ifs with h
  · rw [ne_eq, Option.map_eq_none_iff, List.getElem?_eq_none_iff]
    omega
  · exact ⟨fun h' => absurd rfl h', fun h' => absurd h'.1 h⟩

theorem touches_single {k i : Nat} {f : α → α} : (single k f).Touches i ↔ i = k := by
  unfold Touches single
  split_ifs with h
  · exact ⟨fun _ => h, fun _ => Option.some_ne_none f⟩
  · exact ⟨fun h' => absurd rfl h', fun h' => absurd h' h⟩

theorem apply_put {k : Nat} (h : k + vs.length ≤ xs.length) :
    (put k vs).apply xs = splice xs k vs := by
  apply List.ext_getElem?
  intro i
  rw [getElem?_splice h]
  split_ifs with hi
  · have hv : i - k < vs.length := by omega
    have hx : i < xs.length := by omega
    rw [getElem?_apply, put, if_pos hi.1, List.getElem?_eq_getElem hv, List.getElem?_eq_getElem hx]
    rfl
  · exact getElem?_apply_of_not_touches fun h => hi (touches_put.mp h)

theorem apply_single {k : Nat} {f : α → α} {x : α} (h : xs[k]? = some x) :
    (single k f).apply xs = xs.set k (f x) := by
  obtain ⟨hk, -⟩ := List.getElem?_eq_some_iff.mp h
  apply List.ext_getElem?
  intro i
  rw [List.getElem?_set]
  by_cases hi : k = i
  · subst hi
    rw [if_pos rfl, if_pos hk, getElem?_apply, h]
    simp only [single, if_true, Option.map_some, Option.getD_some]
  · rw [if_neg hi]
    exact getElem?_apply_of_not_touches fun h => hi (touches_single.mp h).symm

/-- Writing the same values again changes nothing. -/
theorem put_idempotent {k i : Nat} {f : α → α} (h : put k vs i = some f) (x : α) :
    f (f x) = f x := by
  unfold put at h
  split_ifs at h
  obtain ⟨v, -, rfl⟩ := Option.map_eq_some_iff.mp h
  rfl

theorem single_idempotent {k i : Nat} {f g : α → α} (hg : ∀ x, g (g x) = g x)
    (h : single k g i = some f) (x : α) : f (f x) = f x := by
  unfold single at h
  split_ifs at h
  cases h
  exact hg x

/-- What holds of the cells before and of every value that is written holds afterwards. -/
theorem forall_apply {P : α → Prop} (hu : ∀ i f, u i = some f → ∀ x, P x → P (f x))
    (h : ∀ x ∈ xs, P x) : ∀ x ∈ u.apply xs, P x := by
  intro x hx
  obtain ⟨i, hi⟩ := List.mem_iff_getElem?.mp hx
  rw [getElem?_apply] at hi
  obtain ⟨y, hy, rfl⟩ := Option.map_eq_some_iff.mp hi
  have hP := h y (List.mem_of_getElem? hy)
  cases hui : u i with
  | none => exact hP
  | some f => exact hu i f hui y hP

end Update

end CSem
