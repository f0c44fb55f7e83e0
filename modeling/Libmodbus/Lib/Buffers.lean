/-
Libmodbus/Lib/Buffers.lean

A local array that is filled from the front, and the counter of what is in use:

    buf[len++] = v;

A write at the end of the array stops the run, whatever stood in the array
before.  `Fills` compares a computation that fills such a buffer with one that
builds a list: they stop alike, and the buffer holds the list, but for a gap of
indices that are left to be written later.  Programs that build their messages
as lists are so brought down to arrays of a fixed size.
-/
import Libmodbus.Lib.Cells

namespace CSem

variable {α β : Type}

structure Buffer (α : Type) where
  array : List α
  length : Nat

namespace Buffer

/-- `buf[len++] = v` -/
def push (b : Buffer α) (v : α) : Run (Buffer α) := do
  let array ← wr b.array b.length v
  .ok ⟨array, b.length + 1⟩

/-- `memcpy (buf + len, vs, n); len += n`, or a loop of `push`. -/
def pushAll (b : Buffer α) : List α → Run (Buffer α)
  | [] => .ok b
  | v :: vs => do
    let b ← b.push v
    b.pushAll vs

/-- What is in use. -/
def bytes (b : Buffer α) : List α := b.array.take b.length

/-- The buffer is in use as far as the list, and holds it outside the gap. -/
structure Holds (gap : Nat → Prop) (b : Buffer α) (msg : List α) : Prop where
  length : b.length = msg.length
  fits : b.length ≤ b.array.length
  same : ∀ i, i < msg.length → ¬ gap i → b.array[i]? = msg[i]?

variable {gap : Nat → Prop} {b : Buffer α} {msg : List α}

/-- Without a gap the list is what is in use. -/
theorem Holds.bytes_eq (h : Holds gap b msg) (hgap : ∀ i, i < msg.length → ¬ gap i) :
    b.bytes = msg := by
  apply List.ext_getElem?
  intro i
  unfold bytes
  rw [List.getElem?_take, h.length]
  split_ifs with hi
  · exact h.same i hi (hgap i hi)
  · exact (List.getElem?_eq_none (Nat.le_of_not_lt hi)).symm

/-- The last bytes are given up. -/
theorem Holds.shrink (h : Holds gap b msg) (n : Nat) :
    Holds gap { b with length := b.length - n } (msg.take (msg.length - n)) where
  length := by
    have := h.length
    simp only [List.length_take]
    omega
  fits := le_trans (Nat.sub_le _ _) h.fits
  same := by
    intro i hi hgap
    rw [List.length_take] at hi
    rw [List.getElem?_take_of_lt (by omega)]
    exact h.same i (by omega) hgap

/-- A part of the gap is left out. -/
theorem Holds.skip (h : Holds gap b msg) (vs : List α)
    (hroom : b.length + vs.length ≤ b.array.length)
    (hgap : ∀ i, msg.length ≤ i → i < msg.length + vs.length → gap i) :
    Holds gap { b with length := b.length + vs.length } (msg ++ vs) where
  length := by rw [List.length_append, h.length]
  fits := hroom
  same := by
    intro i hi hgap'
    rw [List.length_append] at hi
    have hlt : i < msg.length := by
      by_contra hge
      exact hgap' (hgap i (Nat.le_of_not_lt hge) hi)
    rw [List.getElem?_append_left hlt]
    exact h.same i hlt hgap'

theorem Holds.push (h : Holds gap b msg) (hroom : b.length < b.array.length) (v : α) :
    ∃ b', b.push v = .ok b' ∧ b'.array.length = b.array.length ∧ Holds gap b' (msg ++ [v]) := by
  refine ⟨⟨b.array.set b.length v, b.length + 1⟩, ?_, List.length_set, ?_, ?_, ?_⟩
  · rw [Buffer.push, wr_lt hroom, ok_bind]
  · rw [List.length_append, List.length_singleton, h.length]
  · show b.length + 1 ≤ (b.array.set b.length v).length
    rw [List.length_set]
    exact hroom
  · intro i hi hgap
    rw [List.length_append, List.length_singleton] at hi
    show (b.array.set b.length v)[i]? = _
    by_cases hlast : b.length = i
    · rw [← hlast, List.getElem?_set_self hroom, h.length, List.getElem?_concat_length]
    · have hlt : i < msg.length := by
        have := h.length
        omega
      rw [List.getElem?_set_ne hlast, List.getElem?_append_left hlt]
      exact h.same i hlt hgap

theorem Holds.pushAll (h : Holds gap b msg) (vs : List α)
    (hroom : b.length + vs.length ≤ b.array.length) :
    ∃ b', b.pushAll vs = .ok b' ∧ b'.array.length = b.array.length ∧
      Holds gap b' (msg ++ vs) := by
  induction vs generalizing b msg with
  | nil =>
    refine ⟨b, rfl, rfl, ?_⟩
    rw [List.append_nil]
    exact h
  | cons v vs ih =>
    rw [List.length_cons] at hroom
    obtain ⟨b₁, hpush, hsize, h₁⟩ := h.push (show b.length < b.array.length by omega) v
    have hlen : b₁.length = b.length + 1 := by
      rw [h₁.length, List.length_append, List.length_singleton, h.length]
    obtain ⟨b₂, hrest, hsize₂, h₂⟩ := ih h₁ (by omega)
    refine ⟨b₂, ?_, hsize₂.trans hsize, ?_⟩
    · rw [Buffer.pushAll, hpush, ok_bind, hrest]
    · rw [List.append_cons]
      exact h₂

/-- A computation that fills an array of the given size, and one that builds a list. -/
def Fills (size : Nat) (gap : Nat → Prop) (x : Run (Buffer α)) (y : Run (List α)) : Prop :=
  match x, y with
  | .ok b, .ok msg => b.array.length = size ∧ Holds gap b msg
  | .error e, .error e' => e = e'
  | _, _ => False

namespace Fills

variable {size : Nat} {x : Run (Buffer α)} {y : Run (List α)}

theorem ok {b : Buffer α} {msg : List α} (hsize : b.array.length = size) (h : Holds gap b msg) :
    Fills size gap (.ok b) (.ok msg) := ⟨hsize, h⟩

/-- An array nothing of which is in use. -/
theorem empty (array : List α) : Fills array.length gap (.ok ⟨array, 0⟩) (.ok []) :=
  ok rfl ⟨rfl, Nat.zero_le _, fun _ h => absurd h (Nat.not_lt_zero _)⟩

/-- Both read something first. -/
theorem read {z : Run β} {f : β → Run (Buffer α)} {g : β → Run (List α)}
    (h : ∀ v, z = .ok v → Fills size gap (f v) (g v)) : Fills size gap (z >>= f) (z >>= g) := by
  cases z with
  | error e => exact rfl
  | ok v => exact h v rfl

/-- The rule of sequence. -/
theorem bind {gap' : Nat → Prop} {f : Buffer α → Run (Buffer α)} {g : List α → Run (List α)}
    (h : Fills size gap x y) (hf : ∀ b msg, y = .ok msg → b.array.length = size →
      Holds gap b msg → Fills size gap' (f b) (g msg)) :
    Fills size gap' (x >>= f) (y >>= g) := by
  cases x with
  | error e =>
    cases y with
    | error e' => exact h
    | ok msg => exact h.elim
  | ok b =>
    cases y with
    | error e' => exact h.elim
    | ok msg => exact hf b msg rfl h.1 h.2

theorem pushAll {b : Buffer α} {msg vs : List α} (hsize : b.array.length = size)
    (h : Holds gap b msg) (hroom : msg.length + vs.length ≤ size) :
    Fills size gap (b.pushAll vs) (.ok (msg ++ vs)) := by
  obtain ⟨b', hb', hsize', h'⟩ := h.pushAll vs (by rw [h.length, hsize]; exact hroom)
  rw [hb']
  exact ok (hsize'.trans hsize) h'

/-- Where the list is built, the buffer is filled with it. -/
theorem result {msg : List α} (h : Fills size gap x y) (hy : y = .ok msg) :
    ∃ b, x = .ok b ∧ b.array.length = size ∧ Holds gap b msg := by
  subst hy
  cases x with
  | error e => exact h.elim
  | ok b => exact ⟨b, rfl, h.1, h.2⟩

/-- Where the buffer cannot be filled, the list cannot be built. -/
theorem stop {e : Stop} (h : Fills size gap x y) (hx : x = .error e) : y = .error e := by
  subst hx
  cases y with
  | error e' => exact congrArg Except.error (Eq.symm h)
  | ok msg => exact h.elim

end Fills

end Buffer

end CSem
