/-
Libmodbus/Lib/C.lean

The defined part of C.  A C function is a function into `Run`: either it ends
normally, or it stops because the next step has no defined meaning (a read or
a write outside a buffer, a signed overflow, a failed assertion), or because a
retry loop was followed for longer than the caller of the model allowed.

Nothing here knows about a particular program.  The program logic is the
`Except` monad, and the lemmas say how a bind is taken apart
(`bind_eq_ok`) and when the primitives are defined (`rd_lt`, `cint_of_fits`).
-/
import Mathlib.Tactic

namespace CSem

/-! ### Computations that may stop -/

/-- Why a computation has no result. -/
inductive Stop
  /-- A retry loop was unrolled as often as allowed and still wants to go on. -/
  | outOfFuel
  | assertFailed
  | readOutside (i : Nat)
  | writeOutside (i : Nat)
  /-- An array that belongs to a data structure is indexed out of its range. -/
  | cellOutside (i : Int)
  /-- Signed overflow of a 32-bit `int`. -/
  | overflow (v : Int)
  deriving DecidableEq, Repr

abbrev Run (α : Type) := Except Stop α

variable {ε α β γ δ : Type}

@[simp] theorem ok_bind (a : α) (f : α → Except ε β) : (Except.ok a >>= f) = f a := rfl

@[simp] theorem error_bind (e : ε) (f : α → Except ε β) :
    ((Except.error e : Except ε α) >>= f) = .error e := rfl

/-- A sequence ends normally iff both parts do. -/
theorem bind_eq_ok {x : Except ε α} {f : α → Except ε β} {b : β} :
    (x >>= f) = .ok b ↔ ∃ a, x = .ok a ∧ f a = .ok b := by
  cases x with
  | error e => simp
  | ok a => simp

/-- Two sequences with the same first part, whose second parts agree on its results. -/
theorem bind_ok_congr {x : Except ε α} {f g : α → Except ε β} (h : ∀ a, x = .ok a → f a = g a) :
    (x >>= f) = (x >>= g) := by
  cases x with
  | error e => rfl
  | ok a => exact h a rfl

/-- Two sequences with the same first part, where the second part of one is a function of the
second part of the other. -/
theorem bind_map_congr {x : Except ε α} {f : α → Except ε γ} {g : α → Except ε β} {w : β → γ}
    (h : ∀ a, x = .ok a → f a = (g a).map w) : (x >>= f) = (x >>= g).map w := by
  cases x with
  | error e => rfl
  | ok a => exact h a rfl

theorem ite_map_congr {c : Prop} [Decidable c] {x y : Except ε γ} {x' y' : Except ε β}
    {w : β → γ} (hx : c → x = x'.map w) (hy : ¬ c → y = y'.map w) :
    (if c then x else y) = (if c then x' else y').map w := by
  by_cases h : c
  · rw [if_pos h, if_pos h, hx h]
  · rw [if_neg h, if_neg h, hy h]

/-- Two sequences with the same first part, of which only a part of the result is looked at. -/
theorem map_bind_congr {x : Except ε α} {f g : α → Except ε β} {w : β → γ}
    (h : ∀ a, x = .ok a → (f a).map w = (g a).map w) : (x >>= f).map w = (x >>= g).map w := by
  cases x with
  | error e => rfl
  | ok a => exact h a rfl

theorem map_ite_congr {c : Prop} [Decidable c] {x y x' y' : Except ε β} {w : β → γ}
    (hx : c → x.map w = x'.map w) (hy : ¬ c → y.map w = y'.map w) :
    (if c then x else y).map w = (if c then x' else y').map w := by
  by_cases h : c
  · rw [if_pos h, if_pos h, hx h]
  · rw [if_neg h, if_neg h, hy h]

/-- Two sequences whose first parts agree on what is observed of them, and whose second parts do
wherever the first parts end so. -/
theorem map_bind_related {x y : Except ε α} {f g : α → Except ε β} {v : α → γ} {w : β → δ}
    (hx : x.map v = y.map v)
    (h : ∀ a b, x = .ok a → y = .ok b → v a = v b → (f a).map w = (g b).map w) :
    (x >>= f).map w = (y >>= g).map w := by
  cases x with
  | error e =>
    cases y with
    | error e' =>
      cases hx
      rfl
    | ok b => cases hx
  | ok a =>
    cases y with
    | error e' => cases hx
    | ok b => exact h a b rfl rfl (Except.ok.inj hx)

/-- Two sequences are equal up to a third part when their second parts are. -/
theorem bind_bind_congr {x : Except ε α} {f : α → Except ε γ} {g : α → Except ε β}
    {w : β → Except ε γ} (h : ∀ a, x = .ok a → f a = g a >>= w) : (x >>= f) = (x >>= g) >>= w := by
  cases x with
  | error e => rfl
  | ok a => exact h a rfl

theorem ite_bind_congr {c : Prop} [Decidable c] {x y : Except ε γ} {x' y' : Except ε β}
    {w : β → Except ε γ} (hx : c → x = x' >>= w) (hy : ¬ c → y = y' >>= w) :
    (if c then x else y) = (if c then x' else y') >>= w := by
  by_cases h : c
  · rw [if_pos h, if_pos h, hx h]
  · rw [if_neg h, if_neg h, hy h]

theorem map_eq_bind (x : Except ε α) (f : α → β) : x.map f = x >>= fun a => .ok (f a) := by
  cases x with
  | error e => rfl
  | ok a => rfl

theorem map_map (x : Except ε α) (f : α → β) (g : β → γ) :
    (x.map f).map g = x.map fun a => g (f a) := by
  cases x with
  | error e => rfl
  | ok a => rfl

/-! ### How a computation ends -/

/-- The computation ends normally with a result that has `P`, or stops for a reason that has
`E`. -/
def Ends (x : Except ε α) (P : α → Prop) (E : ε → Prop) : Prop :=
  match x with
  | .ok a => P a
  | .error e => E e

namespace Ends

variable {x y : Except ε α} {f : α → Except ε β} {P : α → Prop} {Q : β → Prop} {E : ε → Prop}

theorem ok {a : α} (h : P a) : Ends (.ok a) P E := h

theorem error {e : ε} (h : E e) : Ends (.error e) P E := h

theorem result {a : α} (h : Ends x P E) (hx : x = .ok a) : P a := by
  subst hx
  exact h

theorem stop {e : ε} (h : Ends x P E) (hx : x = .error e) : E e := by
  subst hx
  exact h

/-- The rule of consequence. -/
theorem imp {P' : α → Prop} {E' : ε → Prop} (h : Ends x P E) (hp : ∀ a, P a → P' a)
    (he : ∀ e, E e → E' e) : Ends x P' E' := by
  cases x with
  | error e => exact he e h
  | ok a => exact hp a h

theorem and {Q : α → Prop} {E' : ε → Prop} (h : Ends x P E) (h' : Ends x Q E') :
    Ends x (fun a => P a ∧ Q a) fun e => E e ∧ E' e := by
  cases x with
  | error e => exact ⟨h, h'⟩
  | ok a => exact ⟨h, h'⟩

/-- The rule of sequence: the second part starts from a result of the first. -/
theorem bind (hx : Ends x P E) (hf : ∀ a, x = .ok a → P a → Ends (f a) Q E) :
    Ends (x >>= f) Q E := by
  cases x with
  | error e => exact hx
  | ok a => exact hf a rfl hx

/-- The same when any stop will do. -/
theorem seq (hf : ∀ a, x = .ok a → Ends (f a) Q fun _ => True) :
    Ends (x >>= f) Q fun _ => True := by
  cases x with
  | error e => exact trivial
  | ok a => exact hf a rfl

theorem map {g : α → β} (h : Ends x (fun a => Q (g a)) E) : Ends (x.map g) Q E := by
  cases x with
  | error e => exact h
  | ok a => exact h

theorem ite {c : Prop} [Decidable c] (hx : c → Ends x P E) (hy : ¬ c → Ends y P E) :
    Ends (if c then x else y) P E := by
  by_cases h : c
  · rw [if_pos h]
    exact hx h
  · rw [if_neg h]
    exact hy h

end Ends

/-! ### Buffers -/

/-- `buf[i]`, defined inside the buffer only. -/
def rd (buf : List α) (i : Nat) : Run α :=
  match buf[i]? with
  | some b => .ok b
  | none => .error (.readOutside i)

/-- `buf[i] = v`, defined inside the buffer only. -/
def wr (buf : List α) (i : Nat) (v : α) : Run (List α) :=
  if i < buf.length then .ok (buf.set i v) else .error (.writeOutside i)

theorem rd_lt {buf : List α} {i : Nat} (h : i < buf.length) : rd buf i = .ok buf[i] := by
  simp [rd, h]

theorem rd_ge {buf : List α} {i : Nat} (h : buf.length ≤ i) :
    rd buf i = .error (.readOutside i) := by
  simp [rd, h]

theorem rd_eq_ok {buf : List α} {i : Nat} {b : α} : rd buf i = .ok b ↔ buf[i]? = some b := by
  unfold rd
  split <;> simp_all

theorem rd_of_getElem? {buf : List α} {i : Nat} {b : α} (h : buf[i]? = some b) :
    rd buf i = .ok b := rd_eq_ok.mpr h

@[simp] theorem rd_cons_zero (b : α) (buf : List α) : rd (b :: buf) 0 = .ok b := rfl

@[simp] theorem rd_cons_succ (b : α) (buf : List α) (i : Nat) (v : α) :
    rd (b :: buf) (i + 1) = .ok v ↔ rd buf i = .ok v := by
  simp [rd_eq_ok]

/-- What lies in the first part of a buffer is read from it. -/
theorem rd_append_left {xs : List α} (ys : List α) {i : Nat} (h : i < xs.length) :
    rd (xs ++ ys) i = rd xs i := by
  simp [rd, List.getElem?_append_left h]

/-- An index past the first part reads the second. -/
theorem rd_append_add (xs ys : List α) {n i : Nat} (hn : xs.length = n) (h : i < ys.length) :
    rd (xs ++ ys) (n + i) = rd ys i := by
  subst hn
  simp [rd, h]

/-- More bytes behind do not change what is read. -/
theorem rd_append_ok {buf : List α} {i : Nat} {b : α} (h : rd buf i = .ok b) (more : List α) :
    rd (buf ++ more) i = .ok b := by
  obtain ⟨hi, -⟩ := List.getElem?_eq_some_iff.mp (rd_eq_ok.mp h)
  rw [rd_append_left more hi, h]

theorem rd_take {buf : List α} {n i : Nat} (h : i < n) : rd (buf.take n) i = rd buf i := by
  simp [rd, h]

@[simp] theorem wr_lt {buf : List α} {i : Nat} (h : i < buf.length) (v : α) :
    wr buf i v = .ok (buf.set i v) := if_pos h

theorem wr_eq_ok {buf buf' : List α} {i : Nat} {v : α} (h : wr buf i v = .ok buf') :
    i < buf.length ∧ buf' = buf.set i v := by
  unfold wr at h
  split_ifs at h with hi
  cases h
  exact ⟨hi, rfl⟩

/-- `buf[off .. off + n)`, as `memcpy` reads it. -/
def rdSlice (buf : List α) (off n : Nat) : Run (List α) :=
  if off + n ≤ buf.length then .ok ((buf.drop off).take n)
  else .error (.readOutside (off + n - 1))

theorem rdSlice_of_le {buf : List α} {off n : Nat} (h : off + n ≤ buf.length) :
    rdSlice buf off n = .ok ((buf.drop off).take n) := if_pos h

theorem length_of_rdSlice {buf xs : List α} {off n : Nat} (h : rdSlice buf off n = .ok xs) :
    off + n ≤ buf.length ∧ xs.length = n := by
  unfold rdSlice at h
  split_ifs at h with hle
  cases h
  rw [List.length_take, List.length_drop]
  exact ⟨hle, by omega⟩

/-! ### Arrays indexed by an `int` -/

/-- `tab[i]` -/
def cell (tab : List α) (i : Int) : Run α :=
  if 0 ≤ i then
    match tab[i.toNat]? with
    | some v => .ok v
    | none => .error (.cellOutside i)
  else .error (.cellOutside i)

/-- `tab[i] = v` -/
def setCell (tab : List α) (i : Int) (v : α) : Run (List α) :=
  if 0 ≤ i ∧ i.toNat < tab.length then .ok (tab.set i.toNat v) else .error (.cellOutside i)

theorem cell_of_lt {tab : List α} {n : Nat} (h : n < tab.length) : cell tab n = .ok tab[n] := by
  simp [cell, h]

theorem setCell_of_lt {tab : List α} {n : Nat} (h : n < tab.length) (v : α) :
    setCell tab n v = .ok (tab.set n v) := by
  simp [setCell, h]

theorem length_of_setCell {tab tab' : List α} {i : Int} {v : α}
    (h : setCell tab i v = .ok tab') : tab'.length = tab.length := by
  unfold setCell at h
  split at h
  · cases h
    simp
  · cases h

/-! ### 32-bit `int` -/

/-- The value fits a 32-bit `int`. -/
def FitsInt (v : Int) : Prop := -2147483648 ≤ v ∧ v ≤ 2147483647

instance (v : Int) : Decidable (FitsInt v) := inferInstanceAs (Decidable (_ ∧ _))

/-- The value of a signed `int` expression, defined when it fits. -/
def cint (v : Int) : Run Int := if FitsInt v then .ok v else .error (.overflow v)

theorem cint_of_fits {v : Int} (h : FitsInt v) : cint v = .ok v := if_pos h

theorem cint_eq_ok {v w : Int} : cint v = .ok w ↔ FitsInt v ∧ v = w := by
  unfold cint
  split <;> simp_all

theorem cint_eq_error {v : Int} {e : Stop} :
    cint v = .error e ↔ ¬ FitsInt v ∧ e = .overflow v := by
  unfold cint
  split <;> simp_all [eq_comm]

end CSem
