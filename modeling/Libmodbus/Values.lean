/-
Libmodbus/Values.lean

Values that take more than one register (modbus-data.c), or more than one
element of an array (the macros of modbus.h).

A float is its 32-bit pattern, with the bytes A B C D from the most significant
one down.  The name of an order spells the bytes of the two registers:

               dest[0]     dest[1]
    abcd        A B         C D
    dcba        D C         B A        bytes and words swapped
    badc        B A         D C        bytes swapped
    cdab        C D         A B        words swapped

`FloatOrder.codec` is the correspondence of patterns and pairs of registers that
an order makes.  The set function applies it (`FloatOrder.set_eq`), the get
function its inverse (`FloatOrder.get_eq`), and with that both round trips are
those of an equivalence.
-/
import Libmodbus.Lib.Cells
import Libmodbus.Lib.Places

namespace Libmodbus

open CSem Places

/-! ### Floats (modbus-data.c) -/

/-- `((uint32_t) a << 24) | ((uint32_t) b << 16) | ((uint32_t) c << 8) | d` -/
def assemble (a b c d : UInt8) : UInt32 :=
  a.toUInt32 <<< 24 ||| b.toUInt32 <<< 16 ||| c.toUInt32 <<< 8 ||| d.toUInt32

/-- The get functions, which differ in the letters that the bytes of the registers go to. -/
def getFloat (i : UInt8 → UInt8 → UInt8 → UInt8 → UInt32) (src : List UInt16) : Run UInt32 := do
  let r0 ← rd src 0
  let r1 ← rd src 1
  .ok (i ((r0 >>> 8) &&& 0xFF).toUInt8 ((r0 >>> 0) &&& 0xFF).toUInt8
    ((r1 >>> 8) &&& 0xFF).toUInt8 ((r1 >>> 0) &&& 0xFF).toUInt8)

def modbusGetFloatAbcd : List UInt16 → Run UInt32 := getFloat fun a b c d => assemble a b c d

def modbusGetFloatDcba : List UInt16 → Run UInt32 := getFloat fun d c b a => assemble a b c d

def modbusGetFloatBadc : List UInt16 → Run UInt32 := getFloat fun b a d c => assemble a b c d

def modbusGetFloatCdab : List UInt16 → Run UInt32 := getFloat fun c d a b => assemble a b c d

/-- Deprecated. -/
def modbusGetFloat : List UInt16 → Run UInt32 := modbusGetFloatCdab

/-- `(h << 8) | l` -/
def register (h l : UInt8) : UInt16 := h.toUInt16 <<< 8 ||| l.toUInt16

/-- The set functions, which differ in the registers that they make of the letters. -/
def setFloat (regs : UInt8 → UInt8 → UInt8 → UInt8 → UInt16 × UInt16) (f : UInt32)
    (dest : List UInt16) : Run (List UInt16) := do
  let a := ((f >>> 24) &&& 0xFF).toUInt8
  let b := ((f >>> 16) &&& 0xFF).toUInt8
  let c := ((f >>> 8) &&& 0xFF).toUInt8
  let d := ((f >>> 0) &&& 0xFF).toUInt8
  let dest ← wr dest 0 (regs a b c d).1
  wr dest 1 (regs a b c d).2

def modbusSetFloatAbcd : UInt32 → List UInt16 → Run (List UInt16) :=
  setFloat fun a b c d => (register a b, register c d)

def modbusSetFloatDcba : UInt32 → List UInt16 → Run (List UInt16) :=
  setFloat fun a b c d => (register d c, register b a)

def modbusSetFloatBadc : UInt32 → List UInt16 → Run (List UInt16) :=
  setFloat fun a b c d => (register b a, register d c)

def modbusSetFloatCdab : UInt32 → List UInt16 → Run (List UInt16) :=
  setFloat fun a b c d => (register c d, register a b)

/-- Deprecated. -/
def modbusSetFloat : UInt32 → List UInt16 → Run (List UInt16) := modbusSetFloatCdab

inductive FloatOrder
  | abcd
  | dcba
  | badc
  | cdab
  deriving DecidableEq, Repr

namespace FloatOrder

def get : FloatOrder → List UInt16 → Run UInt32
  | abcd => modbusGetFloatAbcd
  | dcba => modbusGetFloatDcba
  | badc => modbusGetFloatBadc
  | cdab => modbusGetFloatCdab

def set : FloatOrder → UInt32 → List UInt16 → Run (List UInt16)
  | abcd => modbusSetFloatAbcd
  | dcba => modbusSetFloatDcba
  | badc => modbusSetFloatBadc
  | cdab => modbusSetFloatCdab

/-- The name: which of the bytes A, B, C, D stands at a place of the registers. -/
def letter : FloatOrder → Fin 4 → Fin 4
  | abcd => ![0, 1, 2, 3]
  | dcba => ![3, 2, 1, 0]
  | badc => ![1, 0, 3, 2]
  | cdab => ![2, 3, 0, 1]

/-- The name spelled by the name is ABCD again. -/
theorem letter_letter (o : FloatOrder) (i : Fin 4) : o.letter (o.letter i) = i := by
  revert i
  cases o <;> decide

/-- The name as a permutation of places. -/
def perm (o : FloatOrder) : Equiv.Perm (Fin 4) :=
  Function.Involutive.toPerm o.letter o.letter_letter

end FloatOrder

/-- The places of the bytes with those of each register swapped. -/
def byteSwap : Equiv.Perm (Fin 4) := Equiv.swap 0 1 * Equiv.swap 2 3

/-- The places of the bytes with the registers swapped. -/
def wordSwap : Equiv.Perm (Fin 4) := Equiv.swap 0 2 * Equiv.swap 1 3

theorem FloatOrder.perm_eq :
    FloatOrder.abcd.perm = 1 ∧ FloatOrder.dcba.perm = byteSwap * wordSwap ∧
      FloatOrder.badc.perm = byteSwap ∧ FloatOrder.cdab.perm = wordSwap := by
  decide

/-! ### Integers (modbus.h) -/

/-- The value of an integer expression whose type, after the promotions, has `n` bits or more. -/
structure WideInt (n : Nat) where
  width : Nat
  wide : n ≤ width
  toInt : Int
  fits : -2 ^ (width - 1) ≤ toInt ∧ toInt < 2 ^ width

/-- `value >> k`, which has a meaning when the type is wider than that. -/
def WideInt.shr {n : Nat} (value : WideInt n) (k : Nat) (_ : k < n) : Int := value.toInt >>> k

/-- `tab_int8` holds the patterns of its elements. -/
def modbusGetInt16FromInt8 (tab : List UInt8) (index : Int) : Run Int16 := do
  let b0 ← cell tab index
  let b1 ← cell tab (index + 1)
  .ok (b0.toUInt16 <<< 8 ||| b1.toUInt16).toInt16

def modbusGetInt32FromInt16 (tab : List UInt16) (index : Int) : Run Int32 := do
  let w0 ← cell tab index
  let w1 ← cell tab (index + 1)
  .ok (w0.toUInt32 <<< 16 ||| w1.toUInt32).toInt32

def modbusGetInt64FromInt16 (tab : List UInt16) (index : Int) : Run Int64 := do
  let w0 ← cell tab index
  let w1 ← cell tab (index + 1)
  let w2 ← cell tab (index + 2)
  let w3 ← cell tab (index + 3)
  .ok (w0.toUInt64 <<< 48 ||| w1.toUInt64 <<< 32 ||| w2.toUInt64 <<< 16 ||| w3.toUInt64).toInt64

def modbusSetInt16ToInt8 (tab : List UInt8) (index : Int) (value : WideInt 32) :
    Run (List UInt8) := do
  let tab ← setCell tab index (UInt8.ofInt (value.shr 8 (by decide)))
  setCell tab (index + 1) (UInt8.ofInt value.toInt)

def modbusSetInt32ToInt16 (tab : List UInt16) (index : Int) (value : WideInt 32) :
    Run (List UInt16) := do
  let tab ← setCell tab index (UInt16.ofInt (value.shr 16 (by decide)))
  setCell tab (index + 1) (UInt16.ofInt value.toInt)

/-- For a value of a type of 32 bits the first two shifts would have no meaning. -/
def modbusSetInt64ToInt16 (tab : List UInt16) (index : Int) (value : WideInt 64) :
    Run (List UInt16) := do
  let tab ← setCell tab index (UInt16.ofInt (value.shr 48 (by decide)))
  let tab ← setCell tab (index + 1) (UInt16.ofInt (value.shr 32 (by decide)))
  let tab ← setCell tab (index + 2) (UInt16.ofInt (value.shr 16 (by decide)))
  setCell tab (index + 3) (UInt16.ofInt value.toInt)

/-! ### Patterns and registers -/

def floatPattern : UInt32 ≃ BitVec (4 * 8) where
  toFun := UInt32.toBitVec
  invFun := UInt32.ofBitVec
  left_inv _ := rfl
  right_inv _ := rfl

/-- The bytes A, B, C, D of a pattern. -/
def floatBytes (f : UInt32) : Fin 4 → BitVec 8 := place (floatPattern f)

/-- The bytes of a register, the high one first. -/
def regBytes : UInt16 → Fin 2 → BitVec 8 := fun r => places (k := 2) (w := 8) r.toBitVec

/-- Two registers as the four bytes that they are sent as. -/
def pairBytes : UInt16 × UInt16 ≃ (Fin 4 → BitVec 8) where
  toFun r := ![regBytes r.1 0, regBytes r.1 1, regBytes r.2 0, regBytes r.2 1]
  invFun c := (UInt16.ofBitVec (join 16 [c 0, c 1]), UInt16.ofBitVec (join 16 [c 2, c 3]))
  left_inv r := by
    have h : ∀ r : UInt16, UInt16.ofBitVec (join 16 [regBytes r 0, regBytes r 1]) = r := by
      intro r
      exact congrArg UInt16.ofBitVec ((places (k := 2) (w := 8)).symm_apply_apply r.toBitVec)
    exact Prod.ext (h r.1) (h r.2)
  right_inv c := by
    have h : ∀ (d : Fin 2 → BitVec 8) (i : Fin 2),
        regBytes (UInt16.ofBitVec (join 16 [d 0, d 1])) i = d i := place_join
    funext i
    -- the first two bytes are in the first register, the others in the second
    fin_cases i
    · exact h ![c 0, c 1] 0
    · exact h ![c 0, c 1] 1
    · exact h ![c 2, c 3] 0
    · exact h ![c 2, c 3] 1

/-- **What an order means**: the bytes of the registers are those of the pattern as the name
spells them. -/
def FloatOrder.codec (o : FloatOrder) : UInt32 ≃ UInt16 × UInt16 :=
  floatPattern.trans ((layout o.perm).trans pairBytes.symm)

theorem pairBytes_codec (o : FloatOrder) (f : UInt32) :
    pairBytes (o.codec f) = layout o.perm (floatPattern f) :=
  pairBytes.apply_symm_apply _

/-! ### What the functions compute -/

theorem register_eq (h l : UInt8) :
    register h l = UInt16.ofBitVec (join 16 [h.toBitVec, l.toBitVec]) := by
  apply UInt16.eq_of_toBitVec_eq
  simp [register, join]

theorem assemble_eq (a b c d : UInt8) :
    assemble a b c d =
      UInt32.ofBitVec (join 32 [a.toBitVec, b.toBitVec, c.toBitVec, d.toBitVec]) := by
  apply UInt32.eq_of_toBitVec_eq
  simp [assemble, join, BitVec.or_assoc]

/-- A function of four bytes, at bytes that are numbered. -/
def ofBytes {α : Type} (g : UInt8 → UInt8 → UInt8 → UInt8 → α) (c : Fin 4 → BitVec 8) : α :=
  g (UInt8.ofBitVec (c 0)) (UInt8.ofBitVec (c 1)) (UInt8.ofBitVec (c 2)) (UInt8.ofBitVec (c 3))

theorem setFloat_eq (regs : UInt8 → UInt8 → UInt8 → UInt8 → UInt16 × UInt16) (f : UInt32)
    (x y : UInt16) (rest : List UInt16) :
    setFloat regs f (x :: y :: rest) =
      .ok ((ofBytes regs (floatBytes f)).1 :: (ofBytes regs (floatBytes f)).2 :: rest) := by
  have hbyte : ∀ n, ((f.toBitVec >>> n) &&& 255#32).setWidth 8 = f.toBitVec.extractLsb' n 8 :=
    mask_eq_extract (by decide) f.toBitVec
  have hregs : regs ((f >>> 24) &&& 0xFF).toUInt8 ((f >>> 16) &&& 0xFF).toUInt8
      ((f >>> 8) &&& 0xFF).toUInt8 ((f >>> 0) &&& 0xFF).toUInt8 = ofBytes regs (floatBytes f) := by
    congr 1
    · exact UInt8.eq_of_toBitVec_eq (hbyte 24)
    · exact UInt8.eq_of_toBitVec_eq (hbyte 16)
    · exact UInt8.eq_of_toBitVec_eq (hbyte 8)
    · exact UInt8.eq_of_toBitVec_eq (hbyte 0)
  rw [← hregs]
  rfl

theorem getFloat_eq (i : UInt8 → UInt8 → UInt8 → UInt8 → UInt32) (r0 r1 : UInt16)
    (rest : List UInt16) :
    getFloat i (r0 :: r1 :: rest) = .ok (ofBytes i (pairBytes (r0, r1))) := by
  have hbyte : ∀ (r : UInt16) n,
      ((r.toBitVec >>> n) &&& 255#16).setWidth 8 = r.toBitVec.extractLsb' n 8 := by
    intro r n
    exact mask_eq_extract (by decide) r.toBitVec n
  have hi : i ((r0 >>> 8) &&& 0xFF).toUInt8 ((r0 >>> 0) &&& 0xFF).toUInt8
      ((r1 >>> 8) &&& 0xFF).toUInt8 ((r1 >>> 0) &&& 0xFF).toUInt8 =
        ofBytes i (pairBytes (r0, r1)) := by
    congr 1
    · exact UInt8.eq_of_toBitVec_eq (hbyte r0 8)
    · exact UInt8.eq_of_toBitVec_eq (hbyte r0 0)
    · exact UInt8.eq_of_toBitVec_eq (hbyte r1 8)
    · exact UInt8.eq_of_toBitVec_eq (hbyte r1 0)
  rw [← hi]
  rfl

namespace FloatOrder

/-- The registers that an order makes of the letters, and the pattern that it makes of the bytes
of the registers. -/
def regs (o : FloatOrder) (a b c d : UInt8) : UInt16 × UInt16 :=
  (register (![a, b, c, d] (o.letter 0)) (![a, b, c, d] (o.letter 1)),
    register (![a, b, c, d] (o.letter 2)) (![a, b, c, d] (o.letter 3)))

def pattern (o : FloatOrder) (p q r s : UInt8) : UInt32 :=
  assemble (![p, q, r, s] (o.letter 0)) (![p, q, r, s] (o.letter 1))
    (![p, q, r, s] (o.letter 2)) (![p, q, r, s] (o.letter 3))

/-- The four set functions and the four get functions are those that the names spell. -/
theorem set_eq_setFloat (o : FloatOrder) : o.set = setFloat o.regs := by
  cases o <;> rfl

theorem get_eq_getFloat (o : FloatOrder) : o.get = getFloat o.pattern := by
  cases o <;> rfl

/-- **Setting a float applies the codec.** -/
theorem set_eq (o : FloatOrder) (f : UInt32) (x y : UInt16) (rest : List UInt16) :
    o.set f (x :: y :: rest) = .ok ((o.codec f).1 :: (o.codec f).2 :: rest) := by
  have hcodec : ofBytes o.regs (floatBytes f) = o.codec f := by
    apply Prod.ext
    · cases o <;> exact register_eq _ _
    · cases o <;> exact register_eq _ _
  rw [set_eq_setFloat, setFloat_eq, hcodec]

/-- **Getting it applies the inverse.** -/
theorem get_eq (o : FloatOrder) (r0 r1 : UInt16) (rest : List UInt16) :
    o.get (r0 :: r1 :: rest) = .ok (o.codec.symm (r0, r1)) := by
  have hcodec : ofBytes o.pattern (pairBytes (r0, r1)) = o.codec.symm (r0, r1) := by
    cases o <;> exact assemble_eq _ _ _ _
  rw [get_eq_getFloat, getFloat_eq, hcodec]

end FloatOrder

/-! ### Orders -/

theorem FloatOrder.eq_codec {o : FloatOrder} {f : UInt32} {x y : UInt16} {rest : List UInt16}
    {r : UInt16 × UInt16} (h : o.set f (x :: y :: rest) = .ok (r.1 :: r.2 :: rest)) :
    r = o.codec f := by
  rw [o.set_eq] at h
  obtain ⟨h1, htail⟩ := List.cons.inj (Except.ok.inj h)
  obtain ⟨h2, -⟩ := List.cons.inj htail
  exact Prod.ext h1.symm h2.symm

/-- The registers of two orders, byte for byte. -/
theorem FloatOrder.pairBytes_abcd (o : FloatOrder) (f : UInt32) (i : Fin 4) :
    pairBytes (o.codec f) i = pairBytes (abcd.codec f) (o.perm i) := by
  rw [pairBytes_codec, pairBytes_codec, layout_apply, layout_apply, FloatOrder.perm_eq.1,
    Equiv.Perm.one_apply]

/-- **The set functions differ by the permutations, and by no others.** -/
theorem FloatOrder.set_differ_iff (o : FloatOrder) (σ : Equiv.Perm (Fin 4)) :
    (∀ (f : UInt32) (x y : UInt16) (rest : List UInt16) (r a : UInt16 × UInt16),
      o.set f (x :: y :: rest) = .ok (r.1 :: r.2 :: rest) →
      abcd.set f (x :: y :: rest) = .ok (a.1 :: a.2 :: rest) →
      ∀ i, pairBytes r i = pairBytes a (σ i)) ↔ σ = o.perm := by
  constructor
  · intro h
    apply (layout_eq_iff (show 0 < 8 by decide)).mp
    intro x
    funext i
    -- any four bytes are the bytes of some float
    have hi := h (floatPattern.symm x) 0 0 [] _ _ (o.set_eq _ 0 0 []) (abcd.set_eq _ 0 0 []) i
    rw [pairBytes_codec, pairBytes_codec, FloatOrder.perm_eq.1, Equiv.apply_symm_apply] at hi
    exact hi.symm
  · rintro rfl f x y rest r a hr ha i
    rw [eq_codec hr, eq_codec ha, o.pairBytes_abcd]

/-! ### Signed values -/

/-- What `set` stores at an index, `get` returns as a signed number of `bits` bits, and the elements
but these `k` are as they were. -/
def StoresSigned {α : Type} {n : Nat} (bits k : Nat)
    (set : List α → Int → WideInt n → Run (List α)) (get : List α → Int → Run Int) : Prop :=
  ∀ (tab : List α) (index : Int) (value : WideInt n), 0 ≤ index → index + k ≤ tab.length →
    ∃ tab', set tab index value = .ok tab' ∧
      get tab' index = .ok (value.toInt.bmod (2 ^ bits)) ∧
      (-2 ^ (bits - 1) ≤ value.toInt → value.toInt < 2 ^ (bits - 1) →
        get tab' index = .ok value.toInt) ∧
      tab'.length = tab.length ∧
      ∀ j : Nat, (j : Int) < index ∨ index + k ≤ j → tab'[j]? = tab[j]?

/-- It does when `set` splices elements from which `get` has the value again. -/
theorem storesSigned_of_splice {α : Type} {n bits k : Nat} (hbits : 0 < bits)
    {set : List α → Int → WideInt n → Run (List α)} {get : List α → Int → Run Int}
    (elements : WideInt n → List α) (hlen : ∀ value, (elements value).length = k)
    (hset : ∀ tab (i : Nat) value, i + k ≤ tab.length →
      set tab i value = .ok (splice tab i (elements value)))
    (hget : ∀ tab (i : Nat) value rest, tab.drop i = elements value ++ rest →
      get tab i = .ok (BitVec.ofInt bits value.toInt).toInt) :
    StoresSigned bits k set get := by
  intro tab index value h0 h
  obtain ⟨i, rfl⟩ := Int.eq_ofNat_of_zero_le h0
  have hk : i + k ≤ tab.length := by omega
  have hfit : i + (elements value).length ≤ tab.length := by rwa [hlen]
  have hread := hget (splice tab i (elements value)) i value _ (drop_splice hfit (Nat.zero_le _))
  refine ⟨splice tab i (elements value), hset tab i value hk, ?_, ?_, length_splice hfit, ?_⟩
  · rw [hread, BitVec.toInt_ofInt]
  · intro hlo hhi
    rw [hread, BitVec.toInt_ofInt_eq_self hbits hlo hhi]
  · intro j hj
    have hout : ¬ (i ≤ j ∧ j < i + (elements value).length) := by
      rw [hlen]
      omega
    rw [getElem?_splice hfit, if_neg hout]

theorem toBitVec_ofInt8 (v : Int) : (UInt8.ofInt v).toBitVec = BitVec.ofInt 8 v :=
  ofNat_emod 8 v

theorem toBitVec_ofInt16 (v : Int) : (UInt16.ofInt v).toBitVec = BitVec.ofInt 16 v :=
  ofNat_emod 16 v

/-- The get macros join the patterns of the elements. -/
theorem modbusGetInt16FromInt8_of_drop {tab rest : List UInt8} {i : Nat} {b0 b1 : UInt8}
    (h : tab.drop i = b0 :: b1 :: rest) :
    (modbusGetInt16FromInt8 tab i).map Int16.toInt =
      .ok (join 16 [b0.toBitVec, b1.toBitVec]).toInt := by
  have h0 : cell tab (i : Int) = .ok b0 := cell_of_drop h
  have h1 : cell tab ((i : Int) + 1) = .ok b1 := cell_of_drop (drop_succ_of_drop h)
  have hjoin : (b0.toUInt16 <<< 8 ||| b1.toUInt16).toBitVec =
      join 16 [b0.toBitVec, b1.toBitVec] := by
    simp [join]
  rw [modbusGetInt16FromInt8, h0, ok_bind, h1, ok_bind, ← hjoin]
  rfl

theorem modbusGetInt32FromInt16_of_drop {tab rest : List UInt16} {i : Nat} {w0 w1 : UInt16}
    (h : tab.drop i = w0 :: w1 :: rest) :
    (modbusGetInt32FromInt16 tab i).map Int32.toInt =
      .ok (join 32 [w0.toBitVec, w1.toBitVec]).toInt := by
  have h0 : cell tab (i : Int) = .ok w0 := cell_of_drop h
  have h1 : cell tab ((i : Int) + 1) = .ok w1 := cell_of_drop (drop_succ_of_drop h)
  have hjoin : (w0.toUInt32 <<< 16 ||| w1.toUInt32).toBitVec =
      join 32 [w0.toBitVec, w1.toBitVec] := by
    simp [join]
  rw [modbusGetInt32FromInt16, h0, ok_bind, h1, ok_bind, ← hjoin]
  rfl

theorem modbusGetInt64FromInt16_of_drop {tab rest : List UInt16} {i : Nat} {w0 w1 w2 w3 : UInt16}
    (h : tab.drop i = w0 :: w1 :: w2 :: w3 :: rest) :
    (modbusGetInt64FromInt16 tab i).map Int64.toInt =
      .ok (join 64 [w0.toBitVec, w1.toBitVec, w2.toBitVec, w3.toBitVec]).toInt := by
  have hnext := drop_succ_of_drop h
  have hnext' := drop_succ_of_drop hnext
  have h0 : cell tab (i : Int) = .ok w0 := cell_of_drop h
  have h1 : cell tab ((i : Int) + 1) = .ok w1 := cell_of_drop hnext
  have h2 : cell tab ((i : Int) + 2) = .ok w2 := cell_of_drop hnext'
  have h3 : cell tab ((i : Int) + 3) = .ok w3 := cell_of_drop (drop_succ_of_drop hnext')
  have hjoin : (w0.toUInt64 <<< 48 ||| w1.toUInt64 <<< 32 ||| w2.toUInt64 <<< 16 |||
      w3.toUInt64).toBitVec = join 64 [w0.toBitVec, w1.toBitVec, w2.toBitVec, w3.toBitVec] := by
    simp [join, BitVec.or_assoc]
  rw [modbusGetInt64FromInt16, h0, ok_bind, h1, ok_bind, h2, ok_bind, h3, ok_bind, ← hjoin]
  rfl

/-- The next element is stored behind those that are. -/
theorem setCell_next {α : Type} {tab vs : List α} {i : Nat} (h : i + vs.length < tab.length)
    (v : α) :
    setCell (splice tab i vs) ((i : Int) + vs.length) v = .ok (splice tab i (vs ++ [v])) :=
  setCell_splice rfl h v

theorem storesSigned_int16 : StoresSigned 16 2 modbusSetInt16ToInt8 fun tab index =>
    (modbusGetInt16FromInt8 tab index).map Int16.toInt := by
  apply storesSigned_of_splice (by decide)
    fun value => [UInt8.ofInt (value.shr 8 (by decide)), UInt8.ofInt value.toInt]
  · intro value
    rfl
  · intro tab i value h
    rw [modbusSetInt16ToInt8, setCell_one (by omega), ok_bind]
    exact setCell_next (show i + 1 < tab.length by omega) _
  · intro tab i value rest h
    have hjoin : join 16 [BitVec.ofInt 8 (value.shr 8 (by decide)), BitVec.ofInt 8 value.toInt] =
        BitVec.ofInt 16 value.toInt := by
      simpa [List.ofFn_succ, WideInt.shr] using join_ofInt (k := 2) (w := 8) value.toInt
    rw [modbusGetInt16FromInt8_of_drop h, toBitVec_ofInt8, toBitVec_ofInt8, hjoin]

theorem storesSigned_int32 : StoresSigned 32 2 modbusSetInt32ToInt16 fun tab index =>
    (modbusGetInt32FromInt16 tab index).map Int32.toInt := by
  apply storesSigned_of_splice (by decide)
    fun value => [UInt16.ofInt (value.shr 16 (by decide)), UInt16.ofInt value.toInt]
  · intro value
    rfl
  · intro tab i value h
    rw [modbusSetInt32ToInt16, setCell_one (by omega), ok_bind]
    exact setCell_next (show i + 1 < tab.length by omega) _
  · intro tab i value rest h
    have hjoin : join 32 [BitVec.ofInt 16 (value.shr 16 (by decide)),
        BitVec.ofInt 16 value.toInt] = BitVec.ofInt 32 value.toInt := by
      simpa [List.ofFn_succ, WideInt.shr] using join_ofInt (k := 2) (w := 16) value.toInt
    rw [modbusGetInt32FromInt16_of_drop h, toBitVec_ofInt16, toBitVec_ofInt16, hjoin]

theorem storesSigned_int64 : StoresSigned 64 4 modbusSetInt64ToInt16 fun tab index =>
    (modbusGetInt64FromInt16 tab index).map Int64.toInt := by
  apply storesSigned_of_splice (by decide)
    fun value => [UInt16.ofInt (value.shr 48 (by decide)), UInt16.ofInt (value.shr 32 (by decide)),
      UInt16.ofInt (value.shr 16 (by decide)), UInt16.ofInt value.toInt]
  · intro value
    rfl
  · intro tab i value h
    rw [modbusSetInt64ToInt16, setCell_one (by omega), ok_bind]
    apply bind_eq_ok.mpr ⟨_, setCell_next (show i + 1 < tab.length by omega) _, ?_⟩
    apply bind_eq_ok.mpr ⟨_, setCell_next (show i + 2 < tab.length by omega) _, ?_⟩
    exact setCell_next (show i + 3 < tab.length by omega) _
  · intro tab i value rest h
    have hjoin : join 64 [BitVec.ofInt 16 (value.shr 48 (by decide)),
        BitVec.ofInt 16 (value.shr 32 (by decide)), BitVec.ofInt 16 (value.shr 16 (by decide)),
        BitVec.ofInt 16 value.toInt] = BitVec.ofInt 64 value.toInt := by
      simpa [List.ofFn_succ, WideInt.shr] using join_ofInt (k := 4) (w := 16) value.toInt
    rw [modbusGetInt64FromInt16_of_drop h, toBitVec_ofInt16, toBitVec_ofInt16, toBitVec_ofInt16,
      toBitVec_ofInt16, hjoin]

/-! ### Round trips -/

/-- **Values of several registers come back as they were stored.** -/
theorem values_round_trip :
    (∀ (o : FloatOrder) (f : UInt32) (x y : UInt16) (rest : List UInt16),
      ∃ r : UInt16 × UInt16, o.set f (x :: y :: rest) = .ok (r.1 :: r.2 :: rest) ∧
        o.get (r.1 :: r.2 :: rest) = .ok f ∧
        ∀ i, pairBytes r i = floatBytes f (o.letter i)) ∧
    (∀ (o : FloatOrder) (r : UInt16 × UInt16) (src : List UInt16),
      ∃ f, o.get (r.1 :: r.2 :: src) = .ok f ∧
        ∀ x y rest, o.set f (x :: y :: rest) = .ok (r.1 :: r.2 :: rest)) ∧
    (∀ (o : FloatOrder) (σ : Equiv.Perm (Fin 4)),
      (∀ (f : UInt32) (x y : UInt16) (rest : List UInt16) (r a : UInt16 × UInt16),
        o.set f (x :: y :: rest) = .ok (r.1 :: r.2 :: rest) →
        FloatOrder.abcd.set f (x :: y :: rest) = .ok (a.1 :: a.2 :: rest) →
        ∀ i, pairBytes r i = pairBytes a (σ i)) ↔ σ = o.perm) ∧
    (FloatOrder.abcd.perm = 1 ∧ FloatOrder.dcba.perm = byteSwap * wordSwap ∧
      FloatOrder.badc.perm = byteSwap ∧ FloatOrder.cdab.perm = wordSwap) ∧
    (StoresSigned 16 2 modbusSetInt16ToInt8 fun tab index =>
      (modbusGetInt16FromInt8 tab index).map Int16.toInt) ∧
    (StoresSigned 32 2 modbusSetInt32ToInt16 fun tab index =>
      (modbusGetInt32FromInt16 tab index).map Int32.toInt) ∧
    StoresSigned 64 4 modbusSetInt64ToInt16 fun tab index =>
      (modbusGetInt64FromInt16 tab index).map Int64.toInt := by
  refine ⟨?_, ?_, FloatOrder.set_differ_iff, FloatOrder.perm_eq, storesSigned_int16,
    storesSigned_int32, storesSigned_int64⟩
  · intro o f x y rest
    have hget : o.get ((o.codec f).1 :: (o.codec f).2 :: rest) = .ok f := by
      rw [o.get_eq, Equiv.symm_apply_apply]
    exact ⟨o.codec f, o.set_eq f x y rest, hget, congrFun (pairBytes_codec o f)⟩
  · intro o r src
    have hset : ∀ x y rest, o.set (o.codec.symm r) (x :: y :: rest) =
        .ok (r.1 :: r.2 :: rest) := by
      intro x y rest
      rw [o.set_eq, Equiv.apply_symm_apply]
    exact ⟨o.codec.symm r, o.get_eq r.1 r.2 src, hset⟩

/-- The value of the unit test, in the middle of an array. -/
theorem values_round_trip_sample :
    ∃ tab', modbusSetInt64ToInt16 [7, 7, 7, 7, 7, 7] 1
        ⟨64, le_rfl, 0xD200123456789ABC - 2 ^ 64, by decide⟩ = .ok tab' ∧
      (modbusGetInt64FromInt16 tab' 1).map Int64.toInt = .ok (0xD200123456789ABC - 2 ^ 64) ∧
      tab'[0]? = some 7 ∧ tab'[5]? = some 7 := by
  obtain ⟨tab', hset, -, hget, -, hout⟩ := values_round_trip.2.2.2.2.2.2 [7, 7, 7, 7, 7, 7] 1
    ⟨64, le_rfl, 0xD200123456789ABC - 2 ^ 64, by decide⟩ (by decide) (by decide)
  exact ⟨tab', hset, hget (by decide) (by decide), hout 0 (by decide), hout 5 (by decide)⟩

end Libmodbus
