/-
Libmodbus/Mapping.lean

The four tables of a server.  A `Table` carries its bound: no table has more
than 65536 cells, which is what `modbus_mapping_new_start_address` checks and
no later operation changes.  The start address is an `int`, and the constructor
stores an unchecked `unsigned int` in it.

`nb_bits` and its three companions are the numbers of cells allocated, so they
are read off the tables.
-/
import Libmodbus.Modbus

namespace Libmodbus

open CSem Wire Posix

/-- `MODBUS_MAX_TABLE_SIZE` -/
@[simp] abbrev maxTableSize : Nat := 65536

/-- One table of the mapping: `start_xxx` and the cells of `tab_xxx`. -/
structure Table (α : Type) where
  start : Int32
  tab : List α
  nb_le : tab.length ≤ maxTableSize
  deriving DecidableEq

variable {α : Type}

/-- `nb_xxx` -/
def Table.nb (t : Table α) : Nat := t.tab.length

@[ext] theorem Table.ext' {t t' : Table α} (h₁ : t.start = t'.start) (h₂ : t.tab = t'.tab) :
    t = t' := by
  cases t
  cases t'
  simp_all

/-- The table whose cells are those `f` makes of the old ones, as many as before. -/
def Table.modify (t : Table α) (f : List α → Run (List α))
    (hf : ∀ {xs ys}, f xs = .ok ys → ys.length = xs.length) : Run (Table α) :=
  match h : f t.tab with
  | .ok tab => .ok { t with tab := tab, nb_le := hf h ▸ t.nb_le }
  | .error e => .error e

/-- The start address is one a request can name. -/
def Table.Addressable (t : Table α) : Prop := 0 ≤ t.start.toInt ∧ t.start.toInt ≤ 65535

instance (t : Table α) : Decidable t.Addressable := inferInstanceAs (Decidable (_ ∧ _))

/-- `modbus_mapping_t` -/
structure Mapping where
  bits : Table UInt8
  inputBits : Table UInt8
  inputRegisters : Table UInt16
  registers : Table UInt16
  deriving DecidableEq

structure Mapping.Addressable (m : Mapping) : Prop where
  bits : m.bits.Addressable
  inputBits : m.inputBits.Addressable
  inputRegisters : m.inputRegisters.Addressable
  registers : m.registers.Addressable

/-- A table as it is allocated and cleared. -/
def Table.new [OfNat α 0] (start nb : UInt32) (h : nb.toNat ≤ maxTableSize) : Table α where
  start := start.toInt32
  tab := List.replicate nb.toNat 0
  nb_le := by simpa using h

/-- `modbus_mapping_new_start_address`, when memory is there. -/
def modbusMappingNewStartAddress (startBits nbBits startInputBits nbInputBits startRegisters
    nbRegisters startInputRegisters nbInputRegisters : UInt32) : Except Errno Mapping :=
  if h : nbBits.toNat ≤ maxTableSize ∧ nbInputBits.toNat ≤ maxTableSize ∧
      nbRegisters.toNat ≤ maxTableSize ∧ nbInputRegisters.toNat ≤ maxTableSize then
    .ok {
      bits := .new startBits nbBits h.1
      inputBits := .new startInputBits nbInputBits h.2.1
      registers := .new startRegisters nbRegisters h.2.2.1
      inputRegisters := .new startInputRegisters nbInputRegisters h.2.2.2 }
  else .error .EINVAL

/-! ### Access to the cells -/

/-- The loop of `modbus_set_bits_from_bytes`: `k` bits are done and `n` are left. -/
def setBitsLoop (tabByte : List UInt8) (pos : Nat) :
    List UInt8 → Int → Nat → Nat → Run (List UInt8)
  | dest, _, _, 0 => .ok dest
  | dest, idx, k, n + 1 => do
    let b ← rd tabByte (pos + k / 8)
    let dest ← setCell dest (idx + k) (if b.toNat &&& (1 <<< (k % 8)) ≠ 0 then 1 else 0)
    setBitsLoop tabByte pos dest idx (k + 1) n

/-- `modbus_set_bits_from_bytes (dest, idx, nb_bits, &tab_byte[pos])`.  The loop of the source counts
with an `unsigned int` from `idx` on; here `idx` is not wrapped.  They differ for a negative `idx`
only, where the loop of the source may make no turn and this one stops outside of `dest`. -/
def modbusSetBitsFromBytes (dest : List UInt8) (idx : Int) (nbBits : Nat) (tabByte : List UInt8)
    (pos : Nat) : Run (List UInt8) :=
  setBitsLoop tabByte pos dest idx 0 nbBits

/-- The loop of `modbus_get_byte_from_bits`: `i` bits are in `value` and `n` are left. -/
def getByteLoop (src : List UInt8) (idx : Int) : UInt8 → Nat → Nat → Run UInt8
  | value, _, 0 => .ok value
  | value, i, n + 1 => do
    let v ← cell src (idx + i)
    getByteLoop src idx (lo (value.toNat ||| (v.toNat <<< i) : Nat)) (i + 1) n

/-- `modbus_get_byte_from_bits` -/
def modbusGetByteFromBits (src : List UInt8) (idx : Int) (nbBits : Nat) : Run UInt8 :=
  -- a byte contains 8 bits at most
  getByteLoop src idx 0 0 (if 8 < nbBits then 8 else nbBits)

/-- The register loops of the write handlers: the values at `req[j]` go to `tab[i]`. -/
def writeRegisters (req : List UInt8) : List UInt16 → Int → Nat → Nat → Run (List UInt16)
  | tab, _, _, 0 => .ok tab
  | tab, i, j, n + 1 => do
    let h ← rd req j
    let l ← rd req (j + 1)
    let tab ← setCell tab i (UInt16.ofNat (word h l))
    writeRegisters req tab (i + 1) (j + 2) n

/-- The register loops of the read handlers. -/
def readRegisters (tab : List UInt16) : Int → Nat → Run (List UInt8)
  | _, 0 => .ok []
  | i, n + 1 => do
    let v ← cell tab i
    let rest ← readRegisters tab (i + 1) n
    .ok (hi v.toNat :: lo v.toNat :: rest)

/-- The loop of `response_io_status`, with `shift` and `one_byte`. -/
def ioStatusLoop (tabIoStatus : List UInt8) : Int → Nat → Nat → Nat → Run (List UInt8)
  | _, 0, shift, oneByte => .ok (if shift ≠ 0 then [lo oneByte] else [])
  | i, n + 1, shift, oneByte => do
    let v ← cell tabIoStatus i
    let oneByte := oneByte ||| (v.toNat <<< shift)
    if shift = 7 then
      -- byte is full
      let rest ← ioStatusLoop tabIoStatus (i + 1) n 0 0
      .ok (lo oneByte :: rest)
    else ioStatusLoop tabIoStatus (i + 1) n (shift + 1) oneByte

/-- `response_io_status`: the bytes it appends to the response. -/
def responseIoStatus (tabIoStatus : List UInt8) (address : Int) (nb : Nat) : Run (List UInt8) :=
  ioStatusLoop tabIoStatus address nb 0 0

/-! ### The loops keep the number of cells -/

theorem length_setBitsLoop {tabByte : List UInt8} {pos n : Nat} {dest dest' : List UInt8}
    {idx : Int} {k : Nat} (h : setBitsLoop tabByte pos dest idx k n = .ok dest') :
    dest'.length = dest.length := by
  induction n generalizing dest k with
  | zero =>
    cases h
    rfl
  | succ n ih =>
    obtain ⟨b, -, h⟩ := bind_eq_ok.mp h
    obtain ⟨d, hd, h⟩ := bind_eq_ok.mp h
    rw [ih h, length_of_setCell hd]

theorem length_modbusSetBitsFromBytes {dest dest' : List UInt8} {idx : Int} {nb : Nat}
    {tabByte : List UInt8} {pos : Nat}
    (h : modbusSetBitsFromBytes dest idx nb tabByte pos = .ok dest') :
    dest'.length = dest.length := length_setBitsLoop h

theorem length_writeRegisters {req : List UInt8} {tab tab' : List UInt16} {i : Int} {j n : Nat}
    (h : writeRegisters req tab i j n = .ok tab') : tab'.length = tab.length := by
  induction n generalizing tab i j with
  | zero =>
    cases h
    rfl
  | succ n ih =>
    obtain ⟨hb, -, h⟩ := bind_eq_ok.mp h
    obtain ⟨lb, -, h⟩ := bind_eq_ok.mp h
    obtain ⟨t, ht, h⟩ := bind_eq_ok.mp h
    rw [ih h, length_of_setCell ht]

theorem Table.modify_eq_ok {t t' : Table α} {f : List α → Run (List α)}
    {hf : ∀ {xs ys}, f xs = .ok ys → ys.length = xs.length} :
    t.modify f hf = .ok t' ↔ t'.start = t.start ∧ f t.tab = .ok t'.tab := by
  unfold Table.modify
  split
  next tab h =>
    constructor
    · intro e
      cases e
      exact ⟨rfl, h⟩
    · rintro ⟨h1, h2⟩
      have htab : tab = t'.tab := Except.ok.inj (h.symm.trans h2)
      exact congrArg Except.ok (Table.ext' h1.symm htab)
  next e h => simp [h]

theorem Table.modify_of_ok {t : Table α} {f : List α → Run (List α)}
    (hf : ∀ {xs ys}, f xs = .ok ys → ys.length = xs.length) {tab : List α}
    (h : f t.tab = .ok tab) :
    t.modify f hf = .ok { t with tab := tab, nb_le := hf h ▸ t.nb_le } :=
  Table.modify_eq_ok.mpr ⟨rfl, h⟩

end Libmodbus
