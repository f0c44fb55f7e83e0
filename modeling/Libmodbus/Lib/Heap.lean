/-
Libmodbus/Lib/Heap.lean

`malloc` and `free`, over a ledger of the blocks that are live:

    malloc   a new block is live, or `errno` is set
    free     a live block is live no more, any other is a stray; NULL is nothing

`Adds bs m m'` says that `m'` has the blocks `bs` besides those of `m`, whatever
these are, and `Frees bs g` that `g` gives back the blocks `bs`.  An object that
is built block by block is followed with the rules of `Adds`, and where it is
given up in the middle, `Adds.frees` takes away what there is of it.
-/
import Libmodbus.Lib.Descriptors

namespace Posix

variable {σ : Type}

/-! ### The heap -/

abbrev SysErrno.ENOMEM : SysErrno := .other 12

/-- `malloc` sees which blocks are live; `free` may leave something in `errno`. -/
structure Allocator (σ : Type) where
  malloc : Nat → List Nat → σ → Except SysErrno Nat × σ
  free : Nat → σ → Option SysErrno × σ
  malloc_fresh : ∀ {n live s p s'}, malloc n live s = (.ok p, s') → p ∉ live

/-- `errno`, and the heap with the blocks that are live. -/
structure Heap (σ : Type) where
  errno : SysErrno
  blocks : Ledger σ

namespace Heap

def malloc (a : Allocator σ) (size : Nat) (m : Heap σ) : Option Nat × Heap σ :=
  match m.blocks.make (a.malloc size) with
  | (.ok p, l) => (some p, { m with blocks := l })
  | (.error e, l) => (none, ⟨e, l⟩)

def free (a : Allocator σ) (p : Option Nat) (m : Heap σ) : Heap σ :=
  match p with
  | none => m
  | some p =>
    let (e, l) := m.blocks.close a.free p
    ⟨e.getD m.errno, l⟩

/-- `errno = e` -/
def fail (e : SysErrno) (m : Heap σ) : Heap σ := { m with errno := e }

/-! ### What a call makes and frees -/

/-- After `m` the heap has come to `m'`, with the blocks `bs` besides those there were. -/
def Adds (bs : List Nat) (m m' : Heap σ) : Prop :=
  ∀ owned, m.blocks.Accounts owned → m'.blocks.Accounts (bs ++ owned)

/-- `g` gives back the blocks `bs`. -/
def Frees (bs : List Nat) (g : Heap σ → Heap σ) : Prop :=
  ∀ m owned, m.blocks.Accounts (bs ++ owned) → (g m).blocks.Accounts owned

variable {bs cs : List Nat} {m m' m'' : Heap σ}

namespace Adds

theorem refl (m : Heap σ) : Adds [] m m := fun _ h => h

/-- A block that `malloc` gives out is added in front. -/
theorem malloc {a : Allocator σ} {size p : Nat} (h : Adds bs m m')
    (hp : m'.malloc a size = (some p, m'')) : Adds (p :: bs) m m'' := by
  intro owned hm
  unfold Heap.malloc at hp
  rcases hmake : m'.blocks.make (a.malloc size) with ⟨e | q, l⟩
  · rw [hmake] at hp
    cases hp
  · rw [hmake] at hp
    cases hp
    exact (h owned hm).holds (Ledger.make_ok a.malloc_fresh hmake)

/-- Where `malloc` fails, nothing is added. -/
theorem malloc_none {a : Allocator σ} {size : Nat} (h : Adds bs m m')
    (hp : m'.malloc a size = (none, m'')) : Adds bs m m'' := by
  intro owned hm
  unfold Heap.malloc at hp
  rcases hmake : m'.blocks.make (a.malloc size) with ⟨e | q, l⟩
  · rw [hmake] at hp
    cases hp
    exact (h owned hm).same (Ledger.make_error hmake)
  · rw [hmake] at hp
    cases hp

theorem fail (h : Adds bs m m') (e : SysErrno) : Adds bs m (m'.fail e) := h

theorem reorder (h : Adds bs m m') (hp : bs.Perm cs) : Adds cs m m' :=
  fun owned hm => (h owned hm).reorder (hp.append_right owned)

/-- What is built up so far is given up in one step, and the blocks behind it stay. -/
theorem frees {g : Heap σ → Heap σ} (h : Adds (bs ++ cs) m m') (hg : Frees bs g) :
    Adds cs m (g m') := by
  intro owned hm
  apply hg
  rw [← List.append_assoc]
  exact h owned hm

end Adds

namespace Frees

theorem nil : Frees [] (id : Heap σ → Heap σ) := fun _ _ h => h

/-- `free` of a pointer gives back its block; of NULL, nothing. -/
theorem free (a : Allocator σ) (p : Option Nat) : Frees p.toList fun m => m.free a p := by
  intro m owned h
  cases p with
  | none => exact h
  | some p => exact h.close a.free

/-- Two functions give back what each of them does. -/
theorem comp {f g : Heap σ → Heap σ} (hf : Frees bs f) (hg : Frees cs g) :
    Frees (bs ++ cs) fun m => g (f m) := by
  intro m owned h
  apply hg
  apply hf
  rw [← List.append_assoc]
  exact h

end Frees

/-! ### What is left in `errno` -/

/-- `malloc` fails with `ENOMEM` only, and `free` leaves `errno` alone. -/
structure Tidy (a : Allocator σ) : Prop where
  malloc : ∀ {n live s e s'}, a.malloc n live s = (.error e, s') → e = .ENOMEM
  free : ∀ p s, (a.free p s).1 = none

/-- The only error of a tidy `malloc` is `ENOMEM`. -/
theorem malloc_errno {a : Allocator σ} (ha : Tidy a) {size : Nat} {m' : Heap σ}
    (h : m.malloc a size = (none, m')) : m'.errno = .ENOMEM := by
  unfold malloc Ledger.make at h
  rcases hmake : a.malloc size m.blocks.held m.blocks.os with ⟨e | p, s⟩
  · rw [hmake] at h
    cases h
    exact ha.malloc hmake
  · rw [hmake] at h
    cases h

/-- An `errno` set before `free` is still there behind it. -/
theorem free_errno {a : Allocator σ} (ha : Tidy a) (p : Option Nat) (m : Heap σ) :
    (m.free a p).errno = m.errno := by
  cases p with
  | none => rfl
  | some p =>
    show ((a.free p m.blocks.os).1.getD m.errno) = m.errno
    rw [ha.free, Option.getD_none]

end Heap

end Posix
