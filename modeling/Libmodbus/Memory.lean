/-
Libmodbus/Memory.lean

What a server is for: a memory of four tables that requests read and write.

`Memory` is that memory in the abstract, and `Request.apply` the meaning of a
request: the answer and the new memory, or nothing when an addressed cell is
missing.  A mapping is such a memory (`Mapping.memory`), and the server computes
the meaning of every request on it:

    servePdu (pdu r) m  =  pdu of the answer,  with apply r (memory m)
                           or exception 0x02,  with m as it was

`servePdu_request` says this for each kind of request, so nothing above it
looks into a handler.
-/
import Libmodbus.Tables
import Libmodbus.Ranges

namespace Libmodbus

open CSem Wire Posix

variable {α β : Type}

/-! ### The abstract memory -/

structure Memory where
  bits : Cells Bool
  inputBits : Cells Bool
  inputRegisters : Cells UInt16
  registers : Cells UInt16

/-- The requests that read and write the memory. -/
inductive Request
  | readBits (isInput : Bool) (addr nb : Nat)
  | readRegisters (isInput : Bool) (addr nb : Nat)
  | writeBit (addr : Nat) (status : Bool)
  | writeRegister (addr : Nat) (value : UInt16)
  | writeBits (addr : Nat) (values : List Bool)
  | writeRegisters (addr : Nat) (values : List UInt16)
  | maskWrite (addr : Nat) (andMask orMask : UInt16)
  | writeAndRead (readAddr readNb writeAddr : Nat) (values : List UInt16)

/-- What a request is answered. -/
inductive Response
  | bits (values : List Bool)
  | registers (values : List UInt16)
  | written

namespace Request

/-- The meaning of a request: the answer and the new memory, if all addressed cells are there.
A write and read writes first. -/
def apply (r : Request) (mem : Memory) : Option (Response × Memory) :=
  match r with
  | readBits isInput addr nb =>
    ((if isInput then mem.inputBits else mem.bits).slice addr nb).map fun vs => (.bits vs, mem)
  | readRegisters isInput addr nb =>
    ((if isInput then mem.inputRegisters else mem.registers).slice addr nb).map
      fun vs => (.registers vs, mem)
  | writeBit addr status =>
    (mem.bits.slice addr 1).map
      fun _ => (.written, { mem with bits := mem.bits.put addr [status] })
  | writeRegister addr value =>
    (mem.registers.slice addr 1).map
      fun _ => (.written, { mem with registers := mem.registers.put addr [value] })
  | writeBits addr values =>
    (mem.bits.slice addr values.length).map
      fun _ => (.written, { mem with bits := mem.bits.put addr values })
  | writeRegisters addr values =>
    (mem.registers.slice addr values.length).map
      fun _ => (.written, { mem with registers := mem.registers.put addr values })
  | maskWrite addr andMask orMask =>
    (mem.registers.slice addr 1).map fun vs => (.written, { mem with
      registers := mem.registers.put addr (vs.map fun v =>
        (v &&& andMask) ||| (orMask &&& ~~~andMask)) })
  | writeAndRead readAddr readNb writeAddr values =>
    (mem.registers.slice readAddr readNb).bind fun _ =>
      (mem.registers.slice writeAddr values.length).bind fun _ =>
        ((mem.registers.put writeAddr values).slice readAddr readNb).map fun vs =>
          (.registers vs, { mem with registers := mem.registers.put writeAddr values })

/-! ### On the wire -/

def function : Request → UInt8
  | readBits isInput _ _ => if isInput then 0x02 else 0x01
  | readRegisters isInput _ _ => if isInput then 0x04 else 0x03
  | writeBit _ _ => 0x05
  | writeRegister _ _ => 0x06
  | writeBits _ _ => 0x0F
  | writeRegisters _ _ => 0x10
  | maskWrite _ _ _ => 0x16
  | writeAndRead _ _ _ _ => 0x17

/-- What follows the function code. -/
def data : Request → List UInt8
  | readBits _ addr nb => [hi addr, lo addr, hi nb, lo nb]
  | readRegisters _ addr nb => [hi addr, lo addr, hi nb, lo nb]
  | writeBit addr status => [hi addr, lo addr, if status then 0xFF else 0, 0]
  | writeRegister addr value => [hi addr, lo addr, hi value.toNat, lo value.toNat]
  | writeBits addr values =>
    [hi addr, lo addr, hi values.length, lo values.length, lo (packBits values).length] ++
      packBits values
  | writeRegisters addr values =>
    [hi addr, lo addr, hi values.length, lo values.length, lo (bigEndian values).length] ++
      bigEndian values
  | maskWrite addr andMask orMask =>
    [hi addr, lo addr, hi andMask.toNat, lo andMask.toNat, hi orMask.toNat, lo orMask.toNat]
  | writeAndRead readAddr readNb writeAddr values =>
    [hi readAddr, lo readAddr, hi readNb, lo readNb, hi writeAddr, lo writeAddr,
      hi values.length, lo values.length, lo (bigEndian values).length] ++ bigEndian values

/-- No function code of a request sets bit 7. -/
theorem function_lt (r : Request) : r.function.toNat < 0x80 := by
  cases r with
  | readBits isInput addr nb => cases isInput <;> exact Nat.le_of_ble_eq_true rfl
  | readRegisters isInput addr nb => cases isInput <;> exact Nat.le_of_ble_eq_true rfl
  | _ => exact Nat.le_of_ble_eq_true rfl

def pdu (r : Request) : List UInt8 := r.function :: r.data

/-- What an answer puts behind the function code: a write is echoed as far as its values. -/
def answerData (r : Request) : Response → List UInt8
  | .bits values => lo (packBits values).length :: packBits values
  | .registers values => lo (bigEndian values).length :: bigEndian values
  | .written => match r with
    | maskWrite _ _ _ => r.data
    | _ => r.data.take 4

/-- Addresses of 16 bits, and counts within the limits of the protocol. -/
def Valid : Request → Prop
  | readBits _ addr nb => addr ≤ 65535 ∧ 1 ≤ nb ∧ nb ≤ maxReadBits
  | readRegisters _ addr nb => addr ≤ 65535 ∧ 1 ≤ nb ∧ nb ≤ maxReadRegisters
  | writeBit addr _ => addr ≤ 65535
  | writeRegister addr _ => addr ≤ 65535
  | writeBits addr values => addr ≤ 65535 ∧ 1 ≤ values.length ∧ values.length ≤ maxWriteBits
  | writeRegisters addr values =>
    addr ≤ 65535 ∧ 1 ≤ values.length ∧ values.length ≤ maxWriteRegisters
  | maskWrite addr _ _ => addr ≤ 65535
  | writeAndRead readAddr readNb writeAddr values =>
    readAddr ≤ 65535 ∧ (1 ≤ readNb ∧ readNb ≤ maxWrReadRegisters) ∧
      writeAddr ≤ 65535 ∧ 1 ≤ values.length ∧ values.length ≤ maxWrWriteRegisters

end Request

/-! ### A mapping is a memory -/

/-- The cells of a table, as values of the protocol. -/
def Table.cells (f : α → β) (t : Table α) : Cells β := .ofList t.start.toInt.toNat (t.tab.map f)

def Mapping.memory (m : Mapping) : Memory where
  bits := m.bits.cells bitOf
  inputBits := m.inputBits.cells bitOf
  inputRegisters := m.inputRegisters.cells id
  registers := m.registers.cells id

/-- Only 0 and 1 stand in the table. -/
def Table.BitsOnly (t : Table UInt8) : Prop := ∀ v ∈ t.tab, v = 0 ∨ v = 1

/-- The start addresses can be named by requests, and bit tables hold bits. -/
structure Mapping.Regular (m : Mapping) : Prop where
  addressable : m.Addressable
  bits : m.bits.BitsOnly
  inputBits : m.inputBits.BitsOnly

theorem bitByte_bitOf {v : UInt8} (h : v = 0 ∨ v = 1) : bitByte (bitOf v) = v := by
  rcases h with rfl | rfl <;> rfl

theorem bitOf_bitByte (b : Bool) : bitOf (bitByte b) = b := by
  cases b <;> rfl

theorem regular_sampleMapping : sampleMapping.Regular :=
  ⟨⟨by decide, by decide, by decide, by decide⟩,
    show ∀ v ∈ [0, 0, 0, 0], v = 0 ∨ v = 1 by simp, List.forall_mem_nil _⟩

/-- The values `vs` stand in the table from address `addr` on, at index `k`. -/
structure Table.At (t : Table α) (addr k : Nat) (vs : List α) : Prop where
  index : (addr : Int) - t.start.toInt = k
  found : ∃ rest, t.tab.drop k = vs ++ rest

theorem Table.At.fits {t : Table α} {addr k : Nat} {vs : List α} (h : t.At addr k vs)
    (hne : vs ≠ []) : k + vs.length ≤ t.tab.length := by
  obtain ⟨rest, hrest⟩ := h.found
  have hlen := congrArg List.length hrest
  rw [List.length_drop, List.length_append] at hlen
  have := List.length_pos_of_ne_nil hne
  omega

theorem mem_splice {xs vs : List α} {k : Nat} {v : α} (h : v ∈ splice xs k vs) :
    v ∈ xs ∨ v ∈ vs := by
  rcases List.mem_append.mp h with h | h
  · exact Or.inl (List.mem_of_mem_take h)
  · rcases List.mem_append.mp h with h | h
    · exact Or.inr h
    · exact Or.inl (List.mem_of_mem_drop h)

/-- Bits are written to a bit table. -/
theorem Table.BitsOnly.splice {t t' : Table UInt8} {bits : List Bool} {k : Nat} (h : t.BitsOnly)
    (htab : t'.tab = splice t.tab k (bits.map bitByte)) : t'.BitsOnly := by
  intro v hv
  rw [htab] at hv
  rcases mem_splice hv with hv | hv
  · exact h v hv
  · obtain ⟨b, -, rfl⟩ := List.mem_map.mp hv
    cases b with
    | false => exact Or.inl rfl
    | true => exact Or.inr rfl

/-- In a bit table the bytes are those of their bits. -/
theorem Table.At.bits {t : Table UInt8} {addr k : Nat} {vs : List UInt8} (h : t.At addr k vs)
    (ht : t.BitsOnly) : (vs.map bitOf).map bitByte = vs := by
  obtain ⟨rest, hrest⟩ := h.found
  have hmem : ∀ v ∈ vs, v ∈ t.tab := by
    intro v hv
    apply List.mem_of_mem_drop (i := k)
    rw [hrest]
    exact List.mem_append_left rest hv
  calc (vs.map bitOf).map bitByte
      = vs.map (bitByte ∘ bitOf) := List.map_map
    _ = vs.map id := List.map_congr_left fun v hv => bitByte_bitOf (ht v (hmem v hv))
    _ = vs := List.map_id vs

section Windows

variable {t : Table α} {f : α → β} {addr nb : Nat}

theorem Table.cint_address (ht : t.Addressable) (ha : addr ≤ 65535) :
    cint ((addr : Nat) - t.start.toInt) = .ok ((addr : Nat) - t.start.toInt) := by
  have := ht.1
  have := ht.2
  exact cint_of_fits ⟨by omega, by omega⟩

/-- An index inside a table can be computed. -/
theorem cint_index {k : Nat} (hindex : (addr : Int) - t.start.toInt = k)
    (hk : k ≤ t.tab.length) : cint ((addr : Nat) - t.start.toInt) = .ok (k : Int) := by
  have hle := t.nb_le
  simp only [maxTableSize] at hle
  rw [hindex]
  exact cint_of_fits ⟨by omega, by omega⟩

/-- A range inside a table passes the range check of the server. -/
theorem rangeOutside_fits {k : Nat} (hfit : k + nb ≤ t.tab.length) :
    rangeOutside k nb t.nb = .ok false := by
  have hle := t.nb_le
  simp only [maxTableSize] at hle
  have hcint : cint ((k : Int) + nb) = .ok ((k : Int) + nb) := cint_of_fits ⟨by omega, by omega⟩
  rw [rangeOutside, if_neg (by omega), hcint, ok_bind, decide_eq_false (by unfold Table.nb; omega)]

/-- Cells that are there lie inside the table. -/
theorem Table.at_of_slice {ws : List β} (ht : t.Addressable) (hnb : 0 < nb)
    (h : (t.cells f).slice addr nb = some ws) :
    ∃ k vs, t.At addr k vs ∧ ws = vs.map f ∧ vs.length = nb := by
  have hstart := ht.1
  have hinside : t.start.toInt.toNat ≤ addr ∧
      addr + nb ≤ t.start.toInt.toNat + (t.tab.map f).length := by
    by_contra hout
    rw [Table.cells, Cells.slice_ofList_none hnb hout] at h
    cases h
  rw [List.length_map] at hinside
  obtain ⟨k, rfl⟩ := Nat.exists_eq_add_of_le hinside.1
  rw [Table.cells, Cells.slice_ofList (by rw [List.length_map]; omega)] at h
  cases h
  refine ⟨k, (t.tab.drop k).take nb, ⟨by omega, _, (List.take_append_drop nb _).symm⟩, ?_, ?_⟩
  · rw [List.map_take, List.map_drop]
  · rw [List.length_take, List.length_drop]
    omega

theorem Table.At.rangeOutside {k : Nat} {vs : List α} (h : t.At addr k vs) (hne : vs ≠ []) :
    rangeOutside k vs.length t.nb = .ok false := rangeOutside_fits (h.fits hne)

/-- What fits the table is there. -/
theorem Table.slice_of_fits {k : Nat} (ht : t.Addressable) (h : (addr : Int) - t.start.toInt = k)
    (hfit : k + nb ≤ t.tab.length) :
    t.At addr k ((t.tab.drop k).take nb) ∧
      (t.cells f).slice addr nb = some (((t.tab.drop k).take nb).map f) := by
  have hstart := ht.1
  have haddr : addr = t.start.toInt.toNat + k := by omega
  refine ⟨⟨h, _, (List.take_append_drop nb _).symm⟩, ?_⟩
  rw [Table.cells, haddr, Cells.slice_ofList (by rw [List.length_map]; exact hfit), List.map_take,
    List.map_drop]

/-- Cells of which one is missing leave the table. -/
theorem Table.outside_of_slice (ht : t.Addressable) (h : (t.cells f).slice addr nb = none) :
    (addr : Int) - t.start.toInt < 0 ∨ (t.nb : Int) < (addr : Int) - t.start.toInt + nb := by
  have hstart := ht.1
  by_contra hin
  unfold Table.nb at hin
  obtain ⟨k, hk⟩ : ∃ k : Nat, (addr : Int) - t.start.toInt = k :=
    ⟨(addr - t.start.toInt).toNat, by omega⟩
  obtain ⟨-, hs⟩ := Table.slice_of_fits (f := f) ht hk (show k + nb ≤ t.tab.length by omega)
  rw [hs] at h
  cases h

/-- The range check stops them. -/
theorem Table.rangeOutside_of_slice (ht : t.Addressable) (ha : addr ≤ 65535) (hnb : nb ≤ 2000)
    (h : (t.cells f).slice addr nb = none) :
    rangeOutside ((addr : Nat) - t.start.toInt) nb t.nb = .ok true := by
  have hstart := ht.1
  have hout := Table.outside_of_slice ht h
  unfold rangeOutside
  split_ifs with hneg
  · rfl
  · have hcint : cint ((addr : Int) - t.start.toInt + nb) = .ok ((addr : Int) - t.start.toInt + nb) :=
      cint_of_fits ⟨by omega, by omega⟩
    rw [hcint, ok_bind, decide_eq_true (by omega)]

/-- The check of the handlers that address one cell. -/
theorem Table.At.inside {k : Nat} {vs : List α} (h : t.At addr k vs) (hne : vs ≠ []) :
    ¬ ((k : Int) < 0 ∨ (t.nb : Int) ≤ k) := by
  have hfit := h.fits hne
  have hpos := List.length_pos_of_ne_nil hne
  unfold Table.nb
  omega

/-- The cells after values have been spliced into the table. -/
theorem Table.At.cells_put {t' : Table α} {k : Nat} {vs ws : List α} (ht : t.Addressable)
    (h : t.At addr k vs) (hne : vs ≠ []) (hlen : ws.length = vs.length)
    (hstart : t'.start = t.start) (htab : t'.tab = splice t.tab k ws) :
    t'.cells f = (t.cells f).put addr (ws.map f) := by
  have hfit := h.fits hne
  have hindex := h.index
  have h0 := ht.1
  have haddr : addr = t.start.toInt.toNat + k := by omega
  rw [Table.cells, Table.cells, haddr, Cells.put_ofList (by rw [List.length_map, List.length_map]; omega),
    hstart, htab, map_splice]

end Windows

/-! ### Writing a table -/

/-- The table with the values `vs` from index `k` on. -/
structure Table.Written (t : Table α) (k : Nat) (vs : List α) (t' : Table α) : Prop where
  start : t'.start = t.start
  tab : t'.tab = splice t.tab k vs

namespace Table

variable {t t' t'' : Table α} {k : Nat} {v : α} {vs : List α}

theorem exists_written (h : k + vs.length ≤ t.tab.length) : ∃ t', t.Written k vs t' :=
  ⟨⟨t.start, splice t.tab k vs, by rw [length_splice h]; exact t.nb_le⟩, rfl, rfl⟩

/-- Writing nothing leaves the table. -/
theorem Written.nothing (h : t.Written k [] t') : t' = t :=
  Table.ext' h.start (by rw [h.tab, splice_nil])

theorem Written.length (h : t.Written k vs t') (hfit : k + vs.length ≤ t.tab.length) :
    t'.tab.length = t.tab.length := by
  rw [h.tab, length_splice hfit]

/-- The first value, and then the others. -/
theorem Written.tail (h : t.Written k (v :: vs) t'') (h₁ : t.Written k [v] t')
    (hfit : k + (v :: vs).length ≤ t.tab.length) : t'.Written (k + 1) vs t'' := by
  rw [List.length_cons] at hfit
  have hset : splice t.tab k [v] = t.tab.set k v := by
    have hone := setCell_one (show k < t.tab.length by omega) v
    rw [setCell_of_lt (by omega)] at hone
    exact (Except.ok.inj hone).symm
  refine ⟨h.start.trans h₁.start.symm, ?_⟩
  rw [h.tab, h₁.tab, hset, splice_set (by omega)]

theorem Written.modify (h : t.Written k vs t') {f : List α → Run (List α)}
    (hf : ∀ {xs ys}, f xs = .ok ys → ys.length = xs.length)
    (hok : f t.tab = .ok (splice t.tab k vs)) : t.modify f hf = .ok t' :=
  Table.modify_eq_ok.mpr ⟨h.start, by rw [h.tab]; exact hok⟩

theorem Written.store (h : t.Written k [v] t') (hk : k < t.tab.length) :
    t.store k v = .ok t' :=
  h.modify length_of_setCell (setCell_one hk v)

theorem written_of_modify {f : List α → Run (List α)}
    (hf : ∀ {xs ys}, f xs = .ok ys → ys.length = xs.length) (h : t.modify f hf = .ok t')
    (hok : f t.tab = .ok (splice t.tab k vs)) : t.Written k vs t' := by
  obtain ⟨hstart, htab⟩ := Table.modify_eq_ok.mp h
  exact ⟨hstart, Except.ok.inj (htab.symm.trans hok)⟩

end Table

theorem Mapping.Regular.setBits {m : Mapping} {t : Table UInt8} (hm : m.Regular)
    (hstart : t.start = m.bits.start) (ht : t.BitsOnly) : ({ m with bits := t }).Regular := by
  have haddr : t.Addressable := by
    unfold Table.Addressable
    rw [hstart]
    exact hm.addressable.bits
  exact ⟨{ hm.addressable with bits := haddr }, ht, hm.inputBits⟩

theorem Mapping.Regular.setRegisters {m : Mapping} {t : Table UInt16} (hm : m.Regular)
    (hstart : t.start = m.registers.start) : ({ m with registers := t }).Regular := by
  have haddr : t.Addressable := by
    unfold Table.Addressable
    rw [hstart]
    exact hm.addressable.registers
  exact ⟨{ hm.addressable with registers := haddr }, hm.bits, hm.inputBits⟩

theorem map_bitOf_bitByte (values : List Bool) : (values.map bitByte).map bitOf = values := by
  rw [List.map_map]
  exact List.map_id'' bitOf_bitByte values

section Written

variable {m : Mapping} {addr k : Nat}

/-- Bits spliced into the table of coils are a `put` in the memory. -/
theorem Mapping.Regular.bits_written {t : Table UInt8} {vs : List UInt8} {values : List Bool}
    (hm : m.Regular) (hat : m.bits.At addr k vs) (hne : vs ≠ [])
    (hlen : values.length = vs.length) (hw : m.bits.Written k (values.map bitByte) t) :
    ({ m with bits := t }).Regular ∧ ({ m with bits := t }).memory =
      { m.memory with bits := m.memory.bits.put addr values } := by
  refine ⟨hm.setBits hw.start (hm.bits.splice hw.tab), ?_⟩
  have hcells : t.cells bitOf = (m.bits.cells bitOf).put addr ((values.map bitByte).map bitOf) :=
    hat.cells_put hm.addressable.bits hne (by rw [List.length_map, hlen]) hw.start hw.tab
  rw [map_bitOf_bitByte] at hcells
  show Memory.mk (t.cells bitOf) _ _ _ = _
  rw [hcells]
  rfl

/-- Registers spliced into the table of holding registers are a `put` in the memory. -/
theorem Mapping.Regular.registers_written {t : Table UInt16} {vs values : List UInt16}
    (hm : m.Regular) (hat : m.registers.At addr k vs) (hne : vs ≠ [])
    (hlen : values.length = vs.length) (hw : m.registers.Written k values t) :
    ({ m with registers := t }).Regular ∧ ({ m with registers := t }).memory =
      { m.memory with registers := m.memory.registers.put addr values } := by
  refine ⟨hm.setRegisters hw.start, ?_⟩
  have hcells : t.cells id = (m.registers.cells id).put addr (values.map id) :=
    hat.cells_put hm.addressable.registers hne hlen hw.start hw.tab
  rw [List.map_id] at hcells
  show Memory.mk _ _ _ (t.cells id) = _
  rw [hcells]
  rfl

end Written

/-! ### Requests on the wire -/

/-- Of a list that is not too long the byte count says how long it is. -/
theorem toNat_lo_length {bytes : List UInt8} (h : bytes.length < 256) :
    bytes.length = (lo bytes.length).toNat := (toNat_lo_nat h).symm

/-- A valid request has the shape the protocol gives it. -/
theorem Request.framed {r : Request} (h : r.Valid) : Framed .indication r.pdu := by
  have hshape : RequestPdu r.pdu ∧ r.pdu.length ≤ maxPduLength := by
    cases r with
    | readBits isInput addr nb =>
      refine ⟨.read ?_ _ _ _ _, show 5 ≤ 253 by decide⟩
      cases isInput with
      | false => exact Or.inl rfl
      | true => exact Or.inr (Or.inl rfl)
    | readRegisters isInput addr nb =>
      refine ⟨.read ?_ _ _ _ _, show 5 ≤ 253 by decide⟩
      cases isInput with
      | false => exact Or.inr (Or.inr (Or.inl rfl))
      | true => exact Or.inr (Or.inr (Or.inr rfl))
    | writeBit addr status => exact ⟨.writeSingle (Or.inl rfl) _ _ _ _, show 5 ≤ 253 by decide⟩
    | writeRegister addr value =>
      exact ⟨.writeSingle (Or.inr rfl) _ _ _ _, show 5 ≤ 253 by decide⟩
    | writeBits addr values =>
      have hmax : values.length ≤ 1968 := h.2.2
      have hlen := length_packBits values
      have hcount : (packBits values).length = (lo (packBits values).length).toNat :=
        toNat_lo_length (by omega)
      refine ⟨.writeMultiple (Or.inl rfl) _ _ _ _ _ _ hcount, ?_⟩
      show (packBits values).length + 6 ≤ 253
      omega
    | writeRegisters addr values =>
      have hmax : values.length ≤ 123 := h.2.2
      have hlen := length_bigEndian values
      have hcount : (bigEndian values).length = (lo (bigEndian values).length).toNat :=
        toNat_lo_length (by omega)
      refine ⟨.writeMultiple (Or.inr rfl) _ _ _ _ _ _ hcount, ?_⟩
      show (bigEndian values).length + 6 ≤ 253
      omega
    | maskWrite addr andMask orMask => exact ⟨.maskWrite _ _ _ _ _ _, show 7 ≤ 253 by decide⟩
    | writeAndRead readAddr readNb writeAddr values =>
      have hmax : values.length ≤ 121 := h.2.2.2.2
      have hlen := length_bigEndian values
      have hcount : (bigEndian values).length = (lo (bigEndian values).length).toNat :=
        toNat_lo_length (by omega)
      refine ⟨.writeAndRead _ _ _ _ _ _ _ _ _ _ hcount, ?_⟩
      show (bigEndian values).length + 10 ≤ 253
      omega
  exact hshape.1.framed hshape.2

theorem Framed.complete {pdu : List UInt8} (h : Framed .indication pdu) : Complete pdu :=
  ⟨pdu.length, h.1, Nat.le_refl _⟩

theorem servePdu_framed {ver : VersionString} {function : UInt8} {data : List UInt8} {m : Mapping}
    (h : Framed .indication (function :: data)) :
    servePdu ver (function :: data) m = serveSwitch function.toNat (function :: data) m ver := by
  show (if Complete (function :: data) then _ else _) = _
  rw [if_pos h.complete]

/-- A field of 16 bits. -/
theorem rdWord_field {pdu rest : List UInt8} {i n : Nat} (h : pdu.drop i = hi n :: lo n :: rest)
    (hn : n ≤ 65535) : rdWord pdu i = .ok n := by
  rw [rdWord, rd_of_drop h, ok_bind, rd_of_drop (drop_succ_of_drop h), ok_bind,
    word_hi_lo_nat (by omega)]

/-! ### The handlers on cells that are there -/

section Fits

variable {m : Mapping} {addr k : Nat}

theorem serveReadRegisters_fits (isInput : Bool) {values rest : List UInt16}
    (hr : (Request.readRegisters isInput addr values.length).Valid)
    (hindex : (addr : Int) -
      (if isInput then m.inputRegisters else m.registers).start.toInt = k)
    (hfound : (if isInput then m.inputRegisters else m.registers).tab.drop k = values ++ rest) :
    serveReadRegisters (Request.readRegisters isInput addr values.length).function.toNat
        (Request.readRegisters isInput addr values.length).pdu m isInput =
      .ok ⟨(Request.readRegisters isInput addr values.length).function ::
        (Request.readRegisters isInput addr values.length).answerData (.registers values),
        false, false, m⟩ := by
  obtain ⟨ha, hnb, hmax⟩ := hr
  simp only [maxReadRegisters] at hmax
  set t := if isInput then m.inputRegisters else m.registers with ht
  have hfit : k + values.length ≤ t.tab.length := by
    have hlen := congrArg List.length hfound
    rw [List.length_drop, List.length_append] at hlen
    omega
  set r := Request.readRegisters isInput addr values.length with hrdef
  have h1 : rdWord r.pdu 1 = .ok addr :=
    rdWord_field (show r.pdu.drop 1 = hi addr :: lo addr :: _ from rfl) ha
  have h3 : rdWord r.pdu 3 = .ok values.length :=
    rdWord_field (show r.pdu.drop 3 = hi values.length :: lo values.length :: _ from rfl) (by omega)
  simp only [serveReadRegisters, h1, h3, ok_bind, ← ht,
    cint_index hindex (show k ≤ t.tab.length by omega),
    if_neg (show ¬ (values.length < 1 ∨ maxReadRegisters < values.length) by
      simp only [maxReadRegisters]
      omega), rangeOutside_fits hfit, Bool.false_eq_true, if_false, readRegisters_bigEndian hfound,
    lo_toNat, ← length_bigEndian]
  rfl

theorem serveWriteSingleCoil_fits {status : Bool} {t' : Table UInt8}
    (ha : (Request.writeBit addr status).Valid) (hindex : (addr : Int) - m.bits.start.toInt = k)
    (hk : k < m.bits.tab.length) (hw : m.bits.Written k [bitByte status] t') :
    serveWriteSingleCoil (Request.writeBit addr status).function.toNat
        (Request.writeBit addr status).pdu m =
      .ok ⟨(Request.writeBit addr status).pdu, true, false, { m with bits := t' }⟩ := by
  set r := Request.writeBit addr status with hrdef
  have h1 : rdWord r.pdu 1 = .ok addr :=
    rdWord_field (show r.pdu.drop 1 = hi addr :: lo addr :: _ from rfl) ha
  have h3 : rdWord r.pdu 3 = .ok (if status then 0xFF00 else 0) := by
    rw [hrdef]
    cases status <;> rfl
  have hvalue : (if (if status then 0xFF00 else 0) ≠ 0 then (1 : UInt8) else 0) =
      bitByte status := by
    cases status <;> rfl
  have hfive : r.pdu.length = 5 := rfl
  simp only [serveWriteSingleCoil, h1, ok_bind, cint_index hindex (Nat.le_of_lt hk)]
  rw [if_neg (show ¬ ((k : Int) < 0 ∨ (m.bits.nb : Int) ≤ k) by unfold Table.nb; omega),
    if_neg (not_not.mpr hfive), h3, ok_bind, if_pos (by cases status <;> decide), hvalue,
    hw.store hk, ok_bind]

theorem serveWriteSingleRegister_fits {value : UInt16} {t' : Table UInt16}
    (ha : (Request.writeRegister addr value).Valid)
    (hindex : (addr : Int) - m.registers.start.toInt = k) (hk : k < m.registers.tab.length)
    (hw : m.registers.Written k [value] t') :
    serveWriteSingleRegister (Request.writeRegister addr value).function.toNat
        (Request.writeRegister addr value).pdu m =
      .ok ⟨(Request.writeRegister addr value).pdu, true, false, { m with registers := t' }⟩ := by
  have hv := value.toNat_lt
  set r := Request.writeRegister addr value with hrdef
  have h1 : rdWord r.pdu 1 = .ok addr :=
    rdWord_field (show r.pdu.drop 1 = hi addr :: lo addr :: _ from rfl) ha
  have h3 : rdWord r.pdu 3 = .ok value.toNat :=
    rdWord_field (show r.pdu.drop 3 = hi value.toNat :: lo value.toNat :: _ from rfl) (by omega)
  have hfive : r.pdu.length = 5 := rfl
  simp only [serveWriteSingleRegister, h1, ok_bind, cint_index hindex (Nat.le_of_lt hk)]
  rw [if_neg (show ¬ ((k : Int) < 0 ∨ (m.registers.nb : Int) ≤ k) by unfold Table.nb; omega),
    if_neg (not_not.mpr hfive), h3, ok_bind, UInt16.ofNat_toNat, hw.store hk, ok_bind]

theorem serveWriteMultipleRegisters_fits {values : List UInt16} {t' : Table UInt16}
    (hr : (Request.writeRegisters addr values).Valid)
    (hindex : (addr : Int) - m.registers.start.toInt = k)
    (hfit : k + values.length ≤ m.registers.tab.length) (hw : m.registers.Written k values t') :
    serveWriteMultipleRegisters (Request.writeRegisters addr values).function.toNat
        (Request.writeRegisters addr values).pdu m =
      .ok ⟨(Request.writeRegisters addr values).function ::
        (Request.writeRegisters addr values).answerData .written, false, false,
        { m with registers := t' }⟩ := by
  obtain ⟨ha, hnb, hmax⟩ := hr
  simp only [maxWriteRegisters] at hmax
  have hbytes := length_bigEndian values
  set r := Request.writeRegisters addr values with hrdef
  have h1 : rdWord r.pdu 1 = .ok addr :=
    rdWord_field (show r.pdu.drop 1 = hi addr :: lo addr :: _ from rfl) ha
  have h3 : rdWord r.pdu 3 = .ok values.length :=
    rdWord_field (show r.pdu.drop 3 = hi values.length :: lo values.length :: _ from rfl) (by omega)
  have h5 : rd r.pdu 5 = .ok (lo (bigEndian values).length) := rfl
  have hcount : (lo (bigEndian values).length).toNat = values.length * 2 := by
    rw [toNat_lo_nat (by omega)]
    omega
  have hok : ¬ (values.length < 1 ∨ maxWriteRegisters < values.length ∨
      values.length * 2 ≠ values.length * 2) := by
    simp only [maxWriteRegisters]
    omega
  have hat6 : r.pdu.drop 6 = bigEndian values ++ [] := (List.append_nil _).symm
  have hmod := hw.modify length_writeRegisters (writeRegisters_all hfit hat6)
  have hecho : rdSlice r.pdu 1 4 = .ok (r.data.take 4) :=
    rdSlice_of_le (show 1 + 4 ≤ (bigEndian values).length + 6 by omega)
  simp only [serveWriteMultipleRegisters, h1, h3, h5, ok_bind,
    cint_index hindex (show k ≤ m.registers.tab.length by omega), hcount, if_neg hok,
    rangeOutside_fits hfit, Bool.false_eq_true, if_false, hmod, hecho, lo_toNat]
  rfl

end Fits

/-! ### The server computes the meaning -/

/-- The reply says what the request means: the answer, with the new memory in the mapping, or an
exception, with the mapping as it was. -/
inductive Request.Answered (r : Request) (m : Mapping) (p : PduReply) : Prop
  | refused (h : r.apply m.memory = none)
      (hp : p = exceptionPdu r.function.toNat exceptionIllegalDataAddress false m)
  | done (answer : Response) (mem : Memory) (h : r.apply m.memory = some (answer, mem))
      (hpdu : p.pdu = r.function :: r.answerData answer) (hregular : p.mapping.Regular)
      (hmem : p.mapping.memory = mem)

section Handlers

variable {m : Mapping} {addr nb : Nat}

theorem serveReadBits_request (hm : m.Regular) (isInput : Bool)
    (hr : (Request.readBits isInput addr nb).Valid) :
    ∃ p, serveReadBits (Request.readBits isInput addr nb).function.toNat
        (Request.readBits isInput addr nb).pdu m isInput = .ok p ∧
      (Request.readBits isInput addr nb).Answered m p := by
  obtain ⟨ha, hnb, hmax⟩ := hr
  simp only [maxReadBits] at hmax
  set t := if isInput then m.inputBits else m.bits with ht
  have hmem : (if isInput then m.memory.inputBits else m.memory.bits) = t.cells bitOf := by
    cases isInput <;> rfl
  have htaddr : t.Addressable := by
    rw [ht]
    cases isInput with
    | false => exact hm.addressable.bits
    | true => exact hm.addressable.inputBits
  have htbits : t.BitsOnly := by
    rw [ht]
    cases isInput with
    | false => exact hm.bits
    | true => exact hm.inputBits
  set r := Request.readBits isInput addr nb with hrdef
  have h1 : rdWord r.pdu 1 = .ok addr :=
    rdWord_field (show r.pdu.drop 1 = hi addr :: lo addr :: _ from rfl) ha
  have h3 : rdWord r.pdu 3 = .ok nb :=
    rdWord_field (show r.pdu.drop 3 = hi nb :: lo nb :: _ from rfl) (by omega)
  simp only [serveReadBits, h1, h3, ok_bind, ← ht, Table.cint_address htaddr ha,
    if_neg (show ¬ (nb < 1 ∨ maxReadBits < nb) by simp only [maxReadBits]; omega)]
  cases hs : (t.cells bitOf).slice addr nb with
  | none =>
    rw [Table.rangeOutside_of_slice htaddr ha hmax hs, ok_bind, if_pos rfl]
    refine ⟨_, rfl, .refused ?_ rfl⟩
    simp only [hrdef, Request.apply, hmem, hs, Option.map_none]
  | some ws =>
    obtain ⟨k, vs, hat, rfl, hlen⟩ := Table.at_of_slice htaddr hnb hs
    have hne : vs ≠ [] := List.ne_nil_of_length_pos (by omega)
    have hvalues := hat.bits htbits
    obtain ⟨rest, hrest⟩ := hat.found
    rw [← hvalues] at hrest
    have hstatus := responseIoStatus_packBits hrest
    rw [List.length_map, hlen] at hstatus
    have hcount : nb / 8 + (if nb % 8 ≠ 0 then 1 else 0) = (packBits (vs.map bitOf)).length := by
      rw [length_packBits, List.length_map, hlen]
      split_ifs <;> omega
    have hrange := hat.rangeOutside hne
    rw [hlen] at hrange
    rw [hat.index, hrange, ok_bind, if_neg Bool.false_ne_true, hstatus, ok_bind, hcount, lo_toNat]
    refine ⟨_, rfl, .done (.bits (vs.map bitOf)) m.memory ?_ rfl hm rfl⟩
    simp only [hrdef, Request.apply, hmem, hs, Option.map_some]

theorem serveReadRegisters_request (hm : m.Regular) (isInput : Bool)
    (hr : (Request.readRegisters isInput addr nb).Valid) :
    ∃ p, serveReadRegisters (Request.readRegisters isInput addr nb).function.toNat
        (Request.readRegisters isInput addr nb).pdu m isInput = .ok p ∧
      (Request.readRegisters isInput addr nb).Answered m p := by
  have hbounds := hr
  obtain ⟨ha, hnb, hmax⟩ := hbounds
  simp only [maxReadRegisters] at hmax
  set t := if isInput then m.inputRegisters else m.registers with ht
  have hmem : (if isInput then m.memory.inputRegisters else m.memory.registers) = t.cells id := by
    cases isInput <;> rfl
  have htaddr : t.Addressable := by
    rw [ht]
    cases isInput with
    | false => exact hm.addressable.registers
    | true => exact hm.addressable.inputRegisters
  cases hs : (t.cells id).slice addr nb with
  | none =>
    set r := Request.readRegisters isInput addr nb with hrdef
    have h1 : rdWord r.pdu 1 = .ok addr :=
      rdWord_field (show r.pdu.drop 1 = hi addr :: lo addr :: _ from rfl) ha
    have h3 : rdWord r.pdu 3 = .ok nb :=
      rdWord_field (show r.pdu.drop 3 = hi nb :: lo nb :: _ from rfl) (by omega)
    simp only [serveReadRegisters, h1, h3, ok_bind, ← ht, Table.cint_address htaddr ha,
      if_neg (show ¬ (nb < 1 ∨ maxReadRegisters < nb) by simp only [maxReadRegisters]; omega)]
    rw [Table.rangeOutside_of_slice htaddr ha (by omega) hs, ok_bind, if_pos rfl]
    refine ⟨_, rfl, .refused ?_ rfl⟩
    simp only [hrdef, Request.apply, hmem, hs, Option.map_none]
  | some ws =>
    obtain ⟨k, vs, hat, rfl, rfl⟩ := Table.at_of_slice htaddr hnb hs
    rw [List.map_id] at hs
    obtain ⟨rest, hrest⟩ := hat.found
    refine ⟨_, serveReadRegisters_fits isInput hr hat.index hrest,
      .done (.registers vs) m.memory ?_ rfl hm rfl⟩
    simp only [Request.apply, hmem, hs, Option.map_some]

theorem serveWriteSingleCoil_request (hm : m.Regular) {status : Bool}
    (hr : (Request.writeBit addr status).Valid) :
    ∃ p, serveWriteSingleCoil (Request.writeBit addr status).function.toNat
        (Request.writeBit addr status).pdu m = .ok p ∧
      (Request.writeBit addr status).Answered m p := by
  have ha : addr ≤ 65535 := hr
  have htaddr := hm.addressable.bits
  cases hs : (m.bits.cells bitOf).slice addr 1 with
  | none =>
    set r := Request.writeBit addr status with hrdef
    have h1 : rdWord r.pdu 1 = .ok addr :=
      rdWord_field (show r.pdu.drop 1 = hi addr :: lo addr :: _ from rfl) ha
    have hout := Table.outside_of_slice htaddr hs
    simp only [serveWriteSingleCoil, h1, ok_bind, Table.cint_address htaddr ha]
    rw [if_pos (by omega)]
    refine ⟨_, rfl, .refused ?_ rfl⟩
    simp only [hrdef, Request.apply, Mapping.memory, hs, Option.map_none]
  | some ws =>
    obtain ⟨k, vs, hat, -, hlen⟩ := Table.at_of_slice htaddr Nat.one_pos hs
    have hne : vs ≠ [] := List.ne_nil_of_length_pos (by omega)
    have hfit := hat.fits hne
    rw [hlen] at hfit
    have hone : k + [bitByte status].length ≤ m.bits.tab.length := hfit
    obtain ⟨t', hw⟩ := Table.exists_written hone
    have hsame : [status].length = vs.length := hlen.symm
    obtain ⟨hreg, hmem⟩ := hm.bits_written hat hne hsame hw
    refine ⟨_, serveWriteSingleCoil_fits hr hat.index hfit hw, .done .written _ ?_ rfl hreg hmem⟩
    simp only [Request.apply, Mapping.memory, hs, Option.map_some]

theorem serveWriteSingleRegister_request (hm : m.Regular) {value : UInt16}
    (hr : (Request.writeRegister addr value).Valid) :
    ∃ p, serveWriteSingleRegister (Request.writeRegister addr value).function.toNat
        (Request.writeRegister addr value).pdu m = .ok p ∧
      (Request.writeRegister addr value).Answered m p := by
  have ha : addr ≤ 65535 := hr
  have htaddr := hm.addressable.registers
  cases hs : (m.registers.cells id).slice addr 1 with
  | none =>
    set r := Request.writeRegister addr value with hrdef
    have h1 : rdWord r.pdu 1 = .ok addr :=
      rdWord_field (show r.pdu.drop 1 = hi addr :: lo addr :: _ from rfl) ha
    have hout := Table.outside_of_slice htaddr hs
    simp only [serveWriteSingleRegister, h1, ok_bind, Table.cint_address htaddr ha]
    rw [if_pos (by omega)]
    refine ⟨_, rfl, .refused ?_ rfl⟩
    simp only [hrdef, Request.apply, Mapping.memory, hs, Option.map_none]
  | some ws =>
    obtain ⟨k, vs, hat, -, hlen⟩ := Table.at_of_slice htaddr Nat.one_pos hs
    have hne : vs ≠ [] := List.ne_nil_of_length_pos (by omega)
    have hfit := hat.fits hne
    rw [hlen] at hfit
    have hone : k + [value].length ≤ m.registers.tab.length := hfit
    obtain ⟨t', hw⟩ := Table.exists_written hone
    have hsame : [value].length = vs.length := hlen.symm
    obtain ⟨hreg, hmem⟩ := hm.registers_written hat hne hsame hw
    refine ⟨_, serveWriteSingleRegister_fits hr hat.index hfit hw,
      .done .written _ ?_ rfl hreg hmem⟩
    simp only [Request.apply, Mapping.memory, hs, Option.map_some]

theorem serveMaskWriteRegister_request (hm : m.Regular) {andMask orMask : UInt16}
    (hr : (Request.maskWrite addr andMask orMask).Valid) :
    ∃ p, serveMaskWriteRegister (Request.maskWrite addr andMask orMask).function.toNat
        (Request.maskWrite addr andMask orMask).pdu m = .ok p ∧
      (Request.maskWrite addr andMask orMask).Answered m p := by
  have ha : addr ≤ 65535 := hr
  have hand := andMask.toNat_lt
  have hor := orMask.toNat_lt
  have htaddr := hm.addressable.registers
  set r := Request.maskWrite addr andMask orMask with hrdef
  have h1 : rdWord r.pdu 1 = .ok addr :=
    rdWord_field (show r.pdu.drop 1 = hi addr :: lo addr :: _ from rfl) ha
  have h3 : rdWord r.pdu 3 = .ok andMask.toNat :=
    rdWord_field (show r.pdu.drop 3 = hi andMask.toNat :: lo andMask.toNat :: _ from rfl) (by omega)
  have h5 : rdWord r.pdu 5 = .ok orMask.toNat :=
    rdWord_field (show r.pdu.drop 5 = hi orMask.toNat :: lo orMask.toNat :: _ from rfl) (by omega)
  have hseven : r.pdu.length = 7 := rfl
  simp only [serveMaskWriteRegister, h1, ok_bind, Table.cint_address htaddr ha]
  cases hs : (m.registers.cells id).slice addr 1 with
  | none =>
    have hout := Table.outside_of_slice htaddr hs
    rw [if_pos (by omega)]
    refine ⟨_, rfl, .refused ?_ rfl⟩
    simp only [hrdef, Request.apply, Mapping.memory, hs, Option.map_none]
  | some ws =>
    obtain ⟨k, vs, hat, rfl, hlen⟩ := Table.at_of_slice htaddr Nat.one_pos hs
    rw [List.map_id] at hs
    obtain ⟨v, rfl⟩ := List.length_eq_one_iff.mp hlen
    have hne : [v] ≠ [] := List.cons_ne_nil v []
    have hfit := hat.fits hne
    obtain ⟨rest, hrest⟩ := hat.found
    set value := (v &&& andMask) ||| (orMask &&& ~~~andMask) with hvalue
    have hone : k + [value].length ≤ m.registers.tab.length := hfit
    obtain ⟨t', hw⟩ := Table.exists_written hone
    have hsame : [value].length = [v].length := rfl
    obtain ⟨hreg, hmem⟩ := hm.registers_written hat hne hsame hw
    rw [hat.index, if_neg (hat.inside hne), h3, ok_bind, h5, ok_bind,
      if_neg (not_not.mpr hseven), cell_of_drop hrest, ok_bind, UInt16.ofNat_toNat,
      UInt16.ofNat_toNat, ← hvalue, hw.store hfit, ok_bind]
    refine ⟨_, rfl, .done .written _ ?_ rfl hreg hmem⟩
    simp only [hrdef, Request.apply, Mapping.memory, hs, Option.map_some]
    rfl

/-- Coils are written from any bytes that hold their bits; there may be more bytes than needed. -/
theorem serveWriteMultipleCoils_bits (hm : m.Regular) {pdu : List UInt8} {values : List Bool}
    {nbBits : UInt8} (hr : (Request.writeBits addr values).Valid) (h1 : rdWord pdu 1 = .ok addr)
    (h3 : rdWord pdu 3 = .ok values.length) (h5 : rd pdu 5 = .ok nbBits)
    (hcount : values.length ≤ nbBits.toNat * 8) (hbits : BitsAt pdu 6 values)
    (hecho : rdSlice pdu 1 4 = .ok ((Request.writeBits addr values).data.take 4)) :
    ∃ p, serveWriteMultipleCoils (Request.writeBits addr values).function.toNat pdu m = .ok p ∧
      (Request.writeBits addr values).Answered m p := by
  obtain ⟨ha, hnb, hmax⟩ := hr
  simp only [maxWriteBits] at hmax
  have htaddr := hm.addressable.bits
  set r := Request.writeBits addr values with hrdef
  have hok : ¬ (values.length < 1 ∨ maxWriteBits < values.length ∨
      nbBits.toNat * 8 < values.length) := by
    simp only [maxWriteBits]
    omega
  simp only [serveWriteMultipleCoils, h1, h3, h5, ok_bind, Table.cint_address htaddr ha,
    if_neg hok]
  cases hs : (m.bits.cells bitOf).slice addr values.length with
  | none =>
    rw [Table.rangeOutside_of_slice htaddr ha (by omega) hs, ok_bind, if_pos rfl]
    refine ⟨_, rfl, .refused ?_ rfl⟩
    simp only [hrdef, Request.apply, Mapping.memory, hs, Option.map_none]
  | some ws =>
    obtain ⟨k, vs, hat, -, hlen⟩ := Table.at_of_slice htaddr hnb hs
    have hne : vs ≠ [] := List.ne_nil_of_length_pos (by omega)
    have hfit := hat.fits hne
    have hrange := hat.rangeOutside hne
    rw [hlen] at hfit hrange
    have hset := modbusSetBitsFromBytes_splice hbits hfit
    have hroom : k + (values.map bitByte).length ≤ m.bits.tab.length := by
      rw [List.length_map]
      exact hfit
    obtain ⟨t', hw⟩ := Table.exists_written hroom
    have hmod := hw.modify length_modbusSetBitsFromBytes hset
    obtain ⟨hreg, hmem⟩ := hm.bits_written hat hne hlen.symm hw
    rw [hat.index, hrange, ok_bind, if_neg Bool.false_ne_true, hmod, ok_bind, hecho, ok_bind,
      lo_toNat]
    refine ⟨_, rfl, .done .written _ ?_ rfl hreg hmem⟩
    simp only [hrdef, Request.apply, Mapping.memory, hs, Option.map_some]

theorem serveWriteMultipleCoils_request (hm : m.Regular) {values : List Bool}
    (hr : (Request.writeBits addr values).Valid) :
    ∃ p, serveWriteMultipleCoils (Request.writeBits addr values).function.toNat
        (Request.writeBits addr values).pdu m = .ok p ∧
      (Request.writeBits addr values).Answered m p := by
  have hmax : values.length ≤ 1968 := hr.2.2
  have hbytes := length_packBits values
  have hcount : (lo (packBits values).length).toNat = (packBits values).length :=
    toNat_lo_nat (by omega)
  refine serveWriteMultipleCoils_bits hm hr ?_ ?_ rfl ?_ ?_ ?_
  · exact rdWord_field (show List.drop 1 _ = hi addr :: lo addr :: _ from rfl) hr.1
  · exact rdWord_field (show List.drop 3 _ = hi values.length :: lo values.length :: _ from rfl)
      (by omega)
  · omega
  · have hat6 : (Request.writeBits addr values).pdu.drop 6 = packBits values ++ [] :=
      (List.append_nil _).symm
    exact bitsAt_packBits hat6
  · exact rdSlice_of_le (show 1 + 4 ≤ (packBits values).length + 6 by omega)

theorem serveWriteMultipleRegisters_request (hm : m.Regular) {values : List UInt16}
    (hr : (Request.writeRegisters addr values).Valid) :
    ∃ p, serveWriteMultipleRegisters (Request.writeRegisters addr values).function.toNat
        (Request.writeRegisters addr values).pdu m = .ok p ∧
      (Request.writeRegisters addr values).Answered m p := by
  have hbounds := hr
  obtain ⟨ha, hnb, hmax⟩ := hbounds
  simp only [maxWriteRegisters] at hmax
  have htaddr := hm.addressable.registers
  cases hs : (m.registers.cells id).slice addr values.length with
  | none =>
    have hbytes := length_bigEndian values
    set r := Request.writeRegisters addr values with hrdef
    have h1 : rdWord r.pdu 1 = .ok addr :=
      rdWord_field (show r.pdu.drop 1 = hi addr :: lo addr :: _ from rfl) ha
    have h3 : rdWord r.pdu 3 = .ok values.length :=
      rdWord_field (show r.pdu.drop 3 = hi values.length :: lo values.length :: _ from rfl)
        (by omega)
    have h5 : rd r.pdu 5 = .ok (lo (bigEndian values).length) := rfl
    have hcount : (lo (bigEndian values).length).toNat = values.length * 2 := by
      rw [toNat_lo_nat (by omega)]
      omega
    have hok : ¬ (values.length < 1 ∨ maxWriteRegisters < values.length ∨
        values.length * 2 ≠ values.length * 2) := by
      simp only [maxWriteRegisters]
      omega
    simp only [serveWriteMultipleRegisters, h1, h3, h5, ok_bind, Table.cint_address htaddr ha,
      hcount, if_neg hok]
    rw [Table.rangeOutside_of_slice htaddr ha (by omega) hs, ok_bind, if_pos rfl]
    refine ⟨_, rfl, .refused ?_ rfl⟩
    simp only [hrdef, Request.apply, Mapping.memory, hs, Option.map_none]
  | some ws =>
    obtain ⟨k, vs, hat, -, hlen⟩ := Table.at_of_slice htaddr hnb hs
    have hne : vs ≠ [] := List.ne_nil_of_length_pos (by omega)
    have hfit := hat.fits hne
    rw [hlen] at hfit
    obtain ⟨t', hw⟩ := Table.exists_written hfit
    obtain ⟨hreg, hmem⟩ := hm.registers_written hat hne hlen.symm hw
    refine ⟨_, serveWriteMultipleRegisters_fits hr hat.index hfit hw,
      .done .written _ ?_ rfl hreg hmem⟩
    simp only [Request.apply, Mapping.memory, hs, Option.map_some]

theorem serveWriteAndReadRegisters_request (hm : m.Regular) {writeAddr : Nat}
    {values : List UInt16} (hr : (Request.writeAndRead addr nb writeAddr values).Valid) :
    ∃ p, serveWriteAndReadRegisters
        (Request.writeAndRead addr nb writeAddr values).function.toNat
        (Request.writeAndRead addr nb writeAddr values).pdu m = .ok p ∧
      (Request.writeAndRead addr nb writeAddr values).Answered m p := by
  obtain ⟨ha, ⟨hnb, hmax⟩, hwa, hwnb, hwmax⟩ := hr
  simp only [maxWrReadRegisters, maxWrWriteRegisters] at hmax hwmax
  have htaddr := hm.addressable.registers
  have hbytes := length_bigEndian values
  set r := Request.writeAndRead addr nb writeAddr values with hrdef
  have h1 : rdWord r.pdu 1 = .ok addr :=
    rdWord_field (show r.pdu.drop 1 = hi addr :: lo addr :: _ from rfl) ha
  have h3 : rdWord r.pdu 3 = .ok nb :=
    rdWord_field (show r.pdu.drop 3 = hi nb :: lo nb :: _ from rfl) (by omega)
  have h5 : rdWord r.pdu 5 = .ok writeAddr :=
    rdWord_field (show r.pdu.drop 5 = hi writeAddr :: lo writeAddr :: _ from rfl) hwa
  have h7 : rdWord r.pdu 7 = .ok values.length :=
    rdWord_field (show r.pdu.drop 7 = hi values.length :: lo values.length :: _ from rfl) (by omega)
  have h9 : rd r.pdu 9 = .ok (lo (bigEndian values).length) := rfl
  have hcount : (lo (bigEndian values).length).toNat = values.length * 2 := by
    rw [toNat_lo_nat (by omega)]
    omega
  have hok : ¬ (values.length < 1 ∨ maxWrWriteRegisters < values.length ∨ nb < 1 ∨
      maxWrReadRegisters < nb ∨ values.length * 2 ≠ values.length * 2) := by
    simp only [maxWrReadRegisters, maxWrWriteRegisters]
    omega
  simp only [serveWriteAndReadRegisters, h1, h3, h5, h7, h9, ok_bind,
    Table.cint_address htaddr ha, Table.cint_address htaddr hwa, hcount, if_neg hok]
  cases hs : (m.registers.cells id).slice addr nb with
  | none =>
    rw [Table.rangeOutside_of_slice htaddr ha (by omega) hs, ok_bind, if_pos rfl]
    refine ⟨_, rfl, .refused ?_ rfl⟩
    simp only [hrdef, Request.apply, Mapping.memory, hs, Option.bind_none]
  | some ws =>
    obtain ⟨k, vs, hat, -, hlen⟩ := Table.at_of_slice htaddr hnb hs
    have hne : vs ≠ [] := List.ne_nil_of_length_pos (by omega)
    have hfit := hat.fits hne
    have hrange := hat.rangeOutside hne
    rw [hlen] at hfit hrange
    rw [hat.index, hrange, ok_bind, if_neg Bool.false_ne_true]
    cases hws : (m.registers.cells id).slice writeAddr values.length with
    | none =>
      rw [Table.rangeOutside_of_slice htaddr hwa (by omega) hws, ok_bind, if_pos rfl]
      refine ⟨_, rfl, .refused ?_ rfl⟩
      simp only [hrdef, Request.apply, Mapping.memory, hs, hws, Option.bind_some, Option.bind_none]
    | some ws' =>
      obtain ⟨k', vs', hat', -, hlen'⟩ := Table.at_of_slice htaddr hwnb hws
      have hne' : vs' ≠ [] := List.ne_nil_of_length_pos (by omega)
      have hfit' := hat'.fits hne'
      have hrange' := hat'.rangeOutside hne'
      rw [hlen'] at hfit' hrange'
      have hat10 : r.pdu.drop 10 = bigEndian values ++ [] := (List.append_nil _).symm
      obtain ⟨t', hw⟩ := Table.exists_written hfit'
      have hmod := hw.modify length_writeRegisters (writeRegisters_all hfit' hat10)
      obtain ⟨hreg, hmem⟩ := hm.registers_written hat' hne' hlen'.symm hw
      -- what is read are the cells after the write
      have htaddr' : t'.Addressable := hreg.addressable.registers
      have hindex : (addr : Int) - t'.start.toInt = k := by
        rw [hw.start]
        exact hat.index
      have hfit'' : k + nb ≤ t'.tab.length := by
        rw [hw.length hfit']
        exact hfit
      obtain ⟨⟨-, rest, hrest⟩, hslice⟩ := Table.slice_of_fits (f := id) htaddr' hindex hfit''
      have hput : t'.cells id = (m.registers.cells id).put writeAddr values :=
        congrArg Memory.registers hmem
      rw [hput, List.map_id] at hslice
      generalize hnew : (t'.tab.drop k).take nb = new at hrest hslice
      have hnewlen : new.length = nb := by
        rw [← hnew, List.length_take, List.length_drop]
        omega
      have hvalues := readRegisters_bigEndian hrest
      rw [hnewlen] at hvalues
      rw [hat'.index, hrange', ok_bind, if_neg Bool.false_ne_true, hmod, ok_bind, hvalues, ok_bind,
        lo_toNat, ← hnewlen, ← length_bigEndian]
      refine ⟨_, rfl, .done (.registers new) _ ?_ rfl hreg hmem⟩
      simp only [hrdef, Request.apply, Mapping.memory, hs, hws, hslice, Option.bind_some,
        Option.map_some]

/-- **The server computes the meaning of every request.** -/
theorem servePdu_request (ver : VersionString) (hm : m.Regular) {r : Request} (hr : r.Valid) :
    ∃ p, servePdu ver r.pdu m = .ok p ∧ r.Answered m p := by
  rw [Request.pdu, servePdu_framed (Request.framed hr)]
  cases r with
  | readBits isInput addr nb =>
    have h := serveReadBits_request hm isInput hr
    cases isInput <;> exact h
  | readRegisters isInput addr nb =>
    have h := serveReadRegisters_request hm isInput hr
    cases isInput <;> exact h
  | writeBit addr status => exact serveWriteSingleCoil_request hm hr
  | writeRegister addr value => exact serveWriteSingleRegister_request hm hr
  | writeBits addr values => exact serveWriteMultipleCoils_request hm hr
  | writeRegisters addr values => exact serveWriteMultipleRegisters_request hm hr
  | maskWrite addr andMask orMask => exact serveMaskWriteRegister_request hm hr
  | writeAndRead readAddr readNb writeAddr values =>
    exact serveWriteAndReadRegisters_request hm hr

end Handlers

end Libmodbus
