/-
Libmodbus/Reference.lean

The server as the protocol describes it.  A request PDU is taken apart into its
`Fields`, and what is answered depends on them alone:

    no fields                        ILLEGAL_FUNCTION
    `IllegalValue`                   ILLEGAL_DATA_VALUE
    `IllegalAddress`                 ILLEGAL_DATA_ADDRESS
    otherwise                        `NormalResponse`, from the memory of the mapping

The handlers differ in the order in which they check values and addresses, so
`IllegalValue` of a single coil asks for its address, and `IllegalAddress` asks
for legal counts.  `servePdu_fields` says that the handlers compute this, and
`reply_computes_reference` says it of `modbus_reply` on every request that
`modbus_receive` returns.
-/
import Libmodbus.Memory
import Libmodbus.Lengths
import Libmodbus.Traces

namespace Libmodbus

open CSem Wire Posix

variable {σ τ α β : Type}

/-! ### The fields of a request -/

/-- A request by its fields; `count` is the byte count in front of the values. -/
inductive Fields
  | readBits (isInput : Bool) (addr nb : Nat)
  | readRegisters (isInput : Bool) (addr nb : Nat)
  | writeBit (addr value : Nat)
  | writeRegister (addr value : Nat)
  | writeBits (addr nb count : Nat) (values : List UInt8)
  | writeRegisters (addr nb count : Nat) (values : List UInt8)
  | reportSlaveId
  | maskWrite (addr andMask orMask : Nat)
  | writeAndRead (readAddr readNb writeAddr writeNb count : Nat) (values : List UInt8)

def byteAt (pdu : List UInt8) (i : Nat) : Nat := (pdu.getD i 0).toNat

def wordAt (pdu : List UInt8) (i : Nat) : Nat := word (pdu.getD i 0) (pdu.getD (i + 1) 0)

/-- The fields of a request PDU, none if its function is not served. -/
def fields (pdu : List UInt8) : Option Fields :=
  if byteAt pdu 0 = 0x01 then some (.readBits false (wordAt pdu 1) (wordAt pdu 3))
  else if byteAt pdu 0 = 0x02 then some (.readBits true (wordAt pdu 1) (wordAt pdu 3))
  else if byteAt pdu 0 = 0x03 then some (.readRegisters false (wordAt pdu 1) (wordAt pdu 3))
  else if byteAt pdu 0 = 0x04 then some (.readRegisters true (wordAt pdu 1) (wordAt pdu 3))
  else if byteAt pdu 0 = 0x05 then some (.writeBit (wordAt pdu 1) (wordAt pdu 3))
  else if byteAt pdu 0 = 0x06 then some (.writeRegister (wordAt pdu 1) (wordAt pdu 3))
  else if byteAt pdu 0 = 0x0F then
    some (.writeBits (wordAt pdu 1) (wordAt pdu 3) (byteAt pdu 5) (pdu.drop 6))
  else if byteAt pdu 0 = 0x10 then
    some (.writeRegisters (wordAt pdu 1) (wordAt pdu 3) (byteAt pdu 5) (pdu.drop 6))
  else if byteAt pdu 0 = 0x11 then some .reportSlaveId
  else if byteAt pdu 0 = 0x16 then
    some (.maskWrite (wordAt pdu 1) (wordAt pdu 3) (wordAt pdu 5))
  else if byteAt pdu 0 = 0x17 then
    some (.writeAndRead (wordAt pdu 1) (wordAt pdu 3) (wordAt pdu 5) (wordAt pdu 7) (byteAt pdu 9)
      (pdu.drop 10))
  else none

/-- The addressed cells are cells of the table. -/
def Table.Inside (t : Table α) (addr nb : Nat) : Prop :=
  t.start.toInt ≤ addr ∧ (addr : Int) + nb ≤ t.start.toInt + t.nb

instance (t : Table α) (addr nb : Nat) : Decidable (t.Inside addr nb) :=
  inferInstanceAs (Decidable (_ ∧ _))

namespace Fields

/-- Counts and byte counts are within their limits. -/
def Legal : Fields → Prop
  | readBits _ _ nb => 1 ≤ nb ∧ nb ≤ 2000
  | readRegisters _ _ nb => 1 ≤ nb ∧ nb ≤ 125
  | writeBits _ nb count _ => (1 ≤ nb ∧ nb ≤ 1968) ∧ (nb + 7) / 8 ≤ count
  | writeRegisters _ nb count _ => (1 ≤ nb ∧ nb ≤ 123) ∧ count = 2 * nb
  | writeAndRead _ readNb _ writeNb count _ =>
    (1 ≤ readNb ∧ readNb ≤ 125) ∧ (1 ≤ writeNb ∧ writeNb ≤ 121) ∧ count = 2 * writeNb
  | _ => True

/-- All ranges that are addressed are inside their tables. -/
def Inside (m : Mapping) : Fields → Prop
  | readBits isInput addr nb => (if isInput then m.inputBits else m.bits).Inside addr nb
  | readRegisters isInput addr nb =>
    (if isInput then m.inputRegisters else m.registers).Inside addr nb
  | writeBit addr _ => m.bits.Inside addr 1
  | writeRegister addr _ => m.registers.Inside addr 1
  | writeBits addr nb _ _ => m.bits.Inside addr nb
  | writeRegisters addr nb _ _ => m.registers.Inside addr nb
  | reportSlaveId => True
  | maskWrite addr _ _ => m.registers.Inside addr 1
  | writeAndRead readAddr readNb writeAddr writeNb _ _ =>
    m.registers.Inside readAddr readNb ∧ m.registers.Inside writeAddr writeNb

/-- A coil is asked to be neither on nor off. -/
def BadCoil : Fields → Prop
  | writeBit _ value => value ≠ 0 ∧ value ≠ 0xFF00
  | _ => False

/-- A count that is not legal, or a value that a coil which is there cannot take. -/
def IllegalValue (m : Mapping) (f : Fields) : Prop := ¬ f.Legal ∨ (f.Inside m ∧ f.BadCoil)

/-- Legal counts, and a range that is not inside its table. -/
def IllegalAddress (m : Mapping) (f : Fields) : Prop := f.Legal ∧ ¬ f.Inside m

/-- What the fields ask of the memory, if they ask anything of it. -/
def request : Fields → Option Request
  | readBits isInput addr nb => some (.readBits isInput addr nb)
  | readRegisters isInput addr nb => some (.readRegisters isInput addr nb)
  | writeBit addr value => some (.writeBit addr (decide (value ≠ 0)))
  | writeRegister addr value => some (.writeRegister addr (UInt16.ofNat value))
  | writeBits addr nb _ values => some (.writeBits addr (unpackBits nb values))
  | writeRegisters addr _ _ values => some (.writeRegisters addr (words values))
  | reportSlaveId => none
  | maskWrite addr andMask orMask =>
    some (.maskWrite addr (UInt16.ofNat andMask) (UInt16.ofNat orMask))
  | writeAndRead readAddr readNb writeAddr _ _ values =>
    some (.writeAndRead readAddr readNb writeAddr (words values))

/-- The function code, and behind it the answer of the memory or the slave id. -/
def NormalResponse (ver : VersionString) (function : UInt8) (m : Mapping) (f : Fields)
    (rsp : List UInt8) (m' : Mapping) : Prop :=
  match f.request with
  | some r => ∃ answer, r.apply m.memory = some (answer, m'.memory) ∧
      rsp = function :: r.answerData answer
  | none => m' = m ∧ rsp = function :: lo (slaveIdData ver).length :: slaveIdData ver

end Fields

/-! ### What the reference answers -/

/-- The response of the reference server to a request PDU, with the mapping it leaves. -/
inductive Reference (ver : VersionString) (function : UInt8) (pdu : List UInt8) (m : Mapping) :
    List UInt8 → Mapping → Prop
  | illegalFunction (hf : fields pdu = none) :
      Reference ver function pdu m [function ||| 0x80, 0x01] m
  | illegalValue {f : Fields} (hf : fields pdu = some f) (h : f.IllegalValue m) :
      Reference ver function pdu m [function ||| 0x80, 0x03] m
  | illegalAddress {f : Fields} (hf : fields pdu = some f) (h : f.IllegalAddress m) :
      Reference ver function pdu m [function ||| 0x80, 0x02] m
  | normal {f : Fields} {rsp : List UInt8} {m' : Mapping} (hf : fields pdu = some f)
      (hvalue : ¬ f.IllegalValue m) (haddress : ¬ f.IllegalAddress m)
      (h : f.NormalResponse ver function m rsp m') : Reference ver function pdu m rsp m'

/-! ### Exclusive cases -/

section

variable {ver : VersionString} {function : UInt8} {data rsp : List UInt8} {m m' : Mapping}
  {f : Fields}

theorem fields_cons (function : UInt8) (data : List UInt8) :
    byteAt (function :: data) 0 = function.toNat := rfl

/-- The codes of the functions that are served. -/
theorem servedFunction_iff : ServedFunction function ↔
    function ∈ [0x01, 0x02, 0x03, 0x04, 0x05, 0x06, 0x0F, 0x10, 0x11, 0x16, 0x17] := by
  simp only [ServedFunction, List.mem_cons, List.not_mem_nil, or_false, ← UInt8.toNat_inj,
    UInt8.toNat_ofNat, Nat.reducePow, Nat.reduceMod]
  omega

/-- There are fields for the functions that are served. -/
theorem fields_eq_none_iff : fields (function :: data) = none ↔ ¬ ServedFunction function := by
  constructor
  · intro h hs
    have hmem := servedFunction_iff.mp hs
    simp only [List.mem_cons, List.not_mem_nil, or_false] at hmem
    rcases hmem with rfl | rfl | rfl | rfl | rfl | rfl | rfl | rfl | rfl | rfl | rfl
    all_goals exact Option.some_ne_none _ h
  · intro h
    simp only [ServedFunction, ← UInt8.toNat_inj, UInt8.toNat_ofNat, Nat.reducePow,
      Nat.reduceMod] at h
    rw [fields, fields_cons, if_neg (show ¬ function.toNat = 0x01 by omega),
      if_neg (show ¬ function.toNat = 0x02 by omega),
      if_neg (show ¬ function.toNat = 0x03 by omega),
      if_neg (show ¬ function.toNat = 0x04 by omega),
      if_neg (show ¬ function.toNat = 0x05 by omega),
      if_neg (show ¬ function.toNat = 0x06 by omega),
      if_neg (show ¬ function.toNat = 0x0F by omega),
      if_neg (show ¬ function.toNat = 0x10 by omega),
      if_neg (show ¬ function.toNat = 0x11 by omega),
      if_neg (show ¬ function.toNat = 0x16 by omega),
      if_neg (show ¬ function.toNat = 0x17 by omega)]

theorem servedFunction_of_fields (h : fields (function :: data) = some f) :
    ServedFunction function := by
  by_contra hs
  cases h.symm.trans (fields_eq_none_iff.mpr hs)

/-- A normal response begins with the function code of the request. -/
theorem Fields.NormalResponse.cons (h : f.NormalResponse ver function m rsp m') :
    ∃ rest, rsp = function :: rest := by
  unfold Fields.NormalResponse at h
  split at h
  · obtain ⟨answer, -, hrsp⟩ := h
    exact ⟨_, hrsp⟩
  · exact ⟨_, h.2⟩

theorem exception_ne_cons (hlt : function.toNat < 0x80) (code : UInt8) (rest : List UInt8) :
    [function ||| 0x80, code] ≠ function :: rest := by
  intro h
  have hhead := (List.cons.inj h).1
  have hle := le_toNat_or_exception function
  rw [hhead] at hle
  omega

end

/-! ### The memory of the tables -/

section

variable {t : Table α} {g : α → β} {addr nb : Nat}

/-- Values can be read where all cells are inside the table. -/
theorem Table.isSome_slice (ht : t.Addressable) (hnb : 0 < nb) :
    ((t.cells g).slice addr nb).isSome ↔ t.Inside addr nb := by
  have hstart := ht.1
  constructor
  · intro h
    obtain ⟨ws, hs⟩ := Option.isSome_iff_exists.mp h
    obtain ⟨k, vs, hat, -, hlen⟩ := Table.at_of_slice ht hnb hs
    have hfit := hat.fits (List.ne_nil_of_length_pos (by omega))
    have hindex := hat.index
    unfold Table.Inside Table.nb
    omega
  · rintro ⟨hlow, hhigh⟩
    unfold Table.nb at hhigh
    obtain ⟨k, hk⟩ : ∃ k : Nat, (addr : Int) - t.start.toInt = k :=
      ⟨(addr - t.start.toInt).toNat, by omega⟩
    obtain ⟨-, hs⟩ := Table.slice_of_fits (f := g) ht hk (show k + nb ≤ t.tab.length by omega)
    rw [hs]
    rfl

end

/-! ### The handlers compute the reference -/

/-- The computation gives the response of the reference server, and a mapping of the same kind. -/
def Computes (ver : VersionString) (function : UInt8) (pdu : List UInt8) (m : Mapping)
    (x : Run PduReply) : Prop :=
  ∃ p, x = .ok p ∧ p.mapping.Regular ∧ Reference ver function pdu m p.pdu p.mapping

section

variable {ver : VersionString} {function : UInt8} {pdu : List UInt8} {m : Mapping} {f : Fields}
  {x : Run PduReply}

theorem computes_value (hm : m.Regular) (hlt : function.toNat < 0x80) (hf : fields pdu = some f)
    (h : f.IllegalValue m) (toFlush : Bool) :
    Computes ver function pdu m
      (.ok (exceptionPdu function.toNat exceptionIllegalDataValue toFlush m)) := by
  refine ⟨_, rfl, hm, ?_⟩
  show Reference ver function pdu m [lo (function.toNat + 0x80 : Nat), 0x03] m
  rw [lo_add_0x80 hlt]
  exact .illegalValue hf h

theorem computes_address (hm : m.Regular) (hlt : function.toNat < 0x80) (hf : fields pdu = some f)
    (h : f.IllegalAddress m) (toFlush : Bool) :
    Computes ver function pdu m
      (.ok (exceptionPdu function.toNat exceptionIllegalDataAddress toFlush m)) := by
  refine ⟨_, rfl, hm, ?_⟩
  show Reference ver function pdu m [lo (function.toNat + 0x80 : Nat), 0x02] m
  rw [lo_add_0x80 hlt]
  exact .illegalAddress hf h

/-- A legal request is answered by the memory. -/
theorem computes_answered {r : Request} (hm : m.Regular) (hlt : r.function.toNat < 0x80)
    (hf : fields pdu = some f) (hreq : f.request = some r) (hlegal : f.Legal)
    (hcoil : ¬ f.BadCoil) (hinside : (r.apply m.memory).isSome ↔ f.Inside m)
    (h : ∃ p, x = .ok p ∧ r.Answered m p) : Computes ver r.function pdu m x := by
  obtain ⟨p, rfl, h⟩ := h
  cases h with
  | refused happly hp =>
    subst hp
    refine computes_address hm hlt hf ⟨hlegal, fun hin => ?_⟩ false
    have hsome := hinside.mpr hin
    rw [happly] at hsome
    cases hsome
  | done answer mem happly hpdu hregular hmem =>
    have hin : f.Inside m := hinside.mp (by rw [happly]; rfl)
    refine ⟨p, rfl, hregular, .normal hf ?_ (fun h => h.2 hin) ?_⟩
    · rintro (h | h)
      · exact h hlegal
      · exact hcoil h.2
    · unfold Fields.NormalResponse
      rw [hreq]
      exact ⟨answer, by rw [happly, hmem], hpdu⟩

theorem word_le (h l : UInt8) : word h l ≤ 65535 := by
  have := word_lt h l
  omega

/-- The bits of the values of a request can be read where they stand. -/
theorem bitsAt_unpackBits {bytes values : List UInt8} {pos nb : Nat}
    (h : bytes.drop pos = values) (hlen : nb ≤ values.length * 8) :
    BitsAt bytes pos (unpackBits nb values) := by
  intro j hj
  rw [length_unpackBits] at hj
  have hlt : j / 8 < values.length := by omega
  refine ⟨values[j / 8], ?_, ?_⟩
  · apply rd_of_getElem?
    rw [← List.getElem?_drop, h, List.getElem?_eq_getElem hlt]
  · simp [unpackBits, List.getD, hj, hlt]

/-- The values of a request with as many bytes as registers need. -/
theorem registers_of_count {count : UInt8} {values : List UInt8} {nb : Nat}
    (hcount : values.length = count.toNat) (hlegal : count.toNat = 2 * nb) :
    (words values).length = nb ∧ bigEndian (words values) = values ∧
      lo (values.length : Nat) = count := by
  refine ⟨?_, bigEndian_words (by omega), ?_⟩
  · rw [length_words]
    omega
  · rw [hcount]
    exact lo_toNat count

/-- The cell of an address that is not inside the table. -/
theorem Table.not_inside_one {t : Table α} {addr : Nat} :
    ((addr : Int) - t.start.toInt < 0 ∨ (t.nb : Int) ≤ (addr : Int) - t.start.toInt) ↔
      ¬ t.Inside addr 1 := by
  unfold Table.Inside
  omega

section

variable (ver) (hm : m.Regular) (b₁ b₂ n₁ n₂ : UInt8)

include hm

theorem serveReadBits_computes (isInput : Bool) :
    Computes ver (if isInput then 0x02 else 0x01)
      [if isInput then 0x02 else 0x01, b₁, b₂, n₁, n₂] m
      (serveReadBits (if isInput then 0x02 else 0x01 : UInt8).toNat
        [if isInput then 0x02 else 0x01, b₁, b₂, n₁, n₂] m isInput) := by
  set r := Request.readBits isInput (word b₁ b₂) (word n₁ n₂) with hr
  have hpdu : [if isInput then 0x02 else 0x01, b₁, b₂, n₁, n₂] = r.pdu := by
    simp only [hr, Request.pdu, Request.function, Request.data, hi_word, lo_word]
  have hfields : fields [if isInput then 0x02 else 0x01, b₁, b₂, n₁, n₂] =
      some (.readBits isInput (word b₁ b₂) (word n₁ n₂)) := by
    cases isInput <;> rfl
  have hlt : r.function.toNat < 0x80 := r.function_lt
  set t := if isInput then m.inputBits else m.bits with ht
  have htaddr : t.Addressable := by
    rw [ht]
    cases isInput with
    | false => exact hm.addressable.bits
    | true => exact hm.addressable.inputBits
  by_cases hlegal : 1 ≤ word n₁ n₂ ∧ word n₁ n₂ ≤ 2000
  · refine computes_answered (r := r) hm hlt hfields rfl hlegal id ?_ ?_
    · have hcells : (if isInput then m.memory.inputBits else m.memory.bits) = t.cells bitOf := by
        cases isInput <;> rfl
      simp only [hr, Request.apply, hcells, Option.isSome_map]
      exact Table.isSome_slice htaddr hlegal.1
    · rw [hpdu]
      exact serveReadBits_request hm isInput ⟨word_le b₁ b₂, hlegal⟩
  · have haddr : rdWord [if isInput then 0x02 else 0x01, b₁, b₂, n₁, n₂] 1 = .ok (word b₁ b₂) := rfl
    have hnb : rdWord [if isInput then 0x02 else 0x01, b₁, b₂, n₁, n₂] 3 = .ok (word n₁ n₂) := rfl
    rw [serveReadBits]
    simp only [haddr, hnb, ok_bind, ← ht, Table.cint_address htaddr (word_le b₁ b₂)]
    have hbad : word n₁ n₂ < 1 ∨ maxReadBits < word n₁ n₂ := by
      simp only [maxReadBits]
      omega
    rw [if_pos hbad]
    exact computes_value hm hlt hfields (Or.inl hlegal) true

theorem serveReadRegisters_computes (isInput : Bool) :
    Computes ver (if isInput then 0x04 else 0x03)
      [if isInput then 0x04 else 0x03, b₁, b₂, n₁, n₂] m
      (serveReadRegisters (if isInput then 0x04 else 0x03 : UInt8).toNat
        [if isInput then 0x04 else 0x03, b₁, b₂, n₁, n₂] m isInput) := by
  set r := Request.readRegisters isInput (word b₁ b₂) (word n₁ n₂) with hr
  have hpdu : [if isInput then 0x04 else 0x03, b₁, b₂, n₁, n₂] = r.pdu := by
    simp only [hr, Request.pdu, Request.function, Request.data, hi_word, lo_word]
  have hfields : fields [if isInput then 0x04 else 0x03, b₁, b₂, n₁, n₂] =
      some (.readRegisters isInput (word b₁ b₂) (word n₁ n₂)) := by
    cases isInput <;> rfl
  have hlt : r.function.toNat < 0x80 := r.function_lt
  set t := if isInput then m.inputRegisters else m.registers with ht
  have htaddr : t.Addressable := by
    rw [ht]
    cases isInput with
    | false => exact hm.addressable.registers
    | true => exact hm.addressable.inputRegisters
  by_cases hlegal : 1 ≤ word n₁ n₂ ∧ word n₁ n₂ ≤ 125
  · refine computes_answered (r := r) hm hlt hfields rfl hlegal id ?_ ?_
    · have hcells : (if isInput then m.memory.inputRegisters else m.memory.registers) =
          t.cells id := by
        cases isInput <;> rfl
      simp only [hr, Request.apply, hcells, Option.isSome_map]
      exact Table.isSome_slice htaddr hlegal.1
    · rw [hpdu]
      exact serveReadRegisters_request hm isInput ⟨word_le b₁ b₂, hlegal⟩
  · have haddr : rdWord [if isInput then 0x04 else 0x03, b₁, b₂, n₁, n₂] 1 = .ok (word b₁ b₂) := rfl
    have hnb : rdWord [if isInput then 0x04 else 0x03, b₁, b₂, n₁, n₂] 3 = .ok (word n₁ n₂) := rfl
    rw [serveReadRegisters]
    simp only [haddr, hnb, ok_bind, ← ht, Table.cint_address htaddr (word_le b₁ b₂)]
    have hbad : word n₁ n₂ < 1 ∨ maxReadRegisters < word n₁ n₂ := by
      simp only [maxReadRegisters]
      omega
    rw [if_pos hbad]
    exact computes_value hm hlt hfields (Or.inl hlegal) true

/-- A coil is checked for its address first. -/
theorem serveWriteSingleCoil_computes :
    Computes ver 0x05 [0x05, b₁, b₂, n₁, n₂] m
      (serveWriteSingleCoil (0x05 : UInt8).toNat [0x05, b₁, b₂, n₁, n₂] m) := by
  have htaddr := hm.addressable.bits
  have hlt : (0x05 : UInt8).toNat < 0x80 := by decide
  have hfields : fields [0x05, b₁, b₂, n₁, n₂] =
      some (.writeBit (word b₁ b₂) (word n₁ n₂)) := rfl
  by_cases hvalue : word n₁ n₂ = 0 ∨ word n₁ n₂ = 0xFF00
  · have hstatus : n₁ = (if decide (word n₁ n₂ ≠ 0) then 0xFF else 0) ∧ n₂ = 0 := by
      rcases hvalue with h | h
      · obtain ⟨rfl, rfl⟩ := word_inj (h.trans (show 0 = word 0 0 by decide))
        exact ⟨by decide, rfl⟩
      · obtain ⟨rfl, rfl⟩ := word_inj (h.trans (show 0xFF00 = word 0xFF 0 by decide))
        exact ⟨by decide, rfl⟩
    set r := Request.writeBit (word b₁ b₂) (decide (word n₁ n₂ ≠ 0)) with hr
    have hpdu : [0x05, b₁, b₂, n₁, n₂] = r.pdu := by
      simp only [hr, Request.pdu, Request.function, Request.data, hi_word, lo_word]
      rw [← hstatus.1, hstatus.2]
    have hcoil : ¬ (Fields.writeBit (word b₁ b₂) (word n₁ n₂)).BadCoil := by
      rintro ⟨h0, h1⟩
      exact hvalue.elim h0 h1
    refine computes_answered (r := r) hm hlt hfields rfl trivial hcoil ?_ ?_
    · simp only [hr, Request.apply, Option.isSome_map]
      exact Table.isSome_slice htaddr Nat.one_pos
    · rw [hpdu]
      exact serveWriteSingleCoil_request hm (word_le b₁ b₂)
  · have haddr : rdWord [0x05, b₁, b₂, n₁, n₂] 1 = .ok (word b₁ b₂) := rfl
    have hdata : rdWord [0x05, b₁, b₂, n₁, n₂] 3 = .ok (word n₁ n₂) := rfl
    have hfive : ¬ [0x05, b₁, b₂, n₁, n₂].length ≠ 5 := fun h => h rfl
    have hbad : ¬ (word n₁ n₂ = 0xFF00 ∨ word n₁ n₂ = 0) := fun h => hvalue h.symm
    rw [serveWriteSingleCoil]
    simp only [haddr, ok_bind, Table.cint_address htaddr (word_le b₁ b₂)]
    by_cases hin : m.bits.Inside (word b₁ b₂) 1
    · rw [if_neg (fun h => Table.not_inside_one.mp h hin), if_neg hfive, hdata, ok_bind,
        if_neg hbad]
      refine computes_value hm hlt hfields (Or.inr ⟨hin, ?_⟩) false
      exact ⟨fun h => hvalue (Or.inl h), fun h => hvalue (Or.inr h)⟩
    · rw [if_pos (Table.not_inside_one.mpr hin)]
      exact computes_address hm hlt hfields ⟨trivial, hin⟩ false

theorem serveWriteSingleRegister_computes :
    Computes ver 0x06 [0x06, b₁, b₂, n₁, n₂] m
      (serveWriteSingleRegister (0x06 : UInt8).toNat [0x06, b₁, b₂, n₁, n₂] m) := by
  set r := Request.writeRegister (word b₁ b₂) (UInt16.ofNat (word n₁ n₂)) with hr
  have hvalue : (UInt16.ofNat (word n₁ n₂)).toNat = word n₁ n₂ :=
    UInt16.toNat_ofNat_of_lt' (word_lt n₁ n₂)
  have hpdu : [0x06, b₁, b₂, n₁, n₂] = r.pdu := by
    simp only [hr, Request.pdu, Request.function, Request.data, hvalue, hi_word, lo_word]
  refine computes_answered (r := r) (f := .writeRegister (word b₁ b₂) (word n₁ n₂)) hm r.function_lt
    rfl rfl trivial id ?_ ?_
  · simp only [hr, Request.apply, Option.isSome_map]
    exact Table.isSome_slice hm.addressable.registers Nat.one_pos
  · rw [hpdu]
    exact serveWriteSingleRegister_request hm (word_le b₁ b₂)

theorem serveMaskWriteRegister_computes (o₁ o₂ : UInt8) :
    Computes ver 0x16 [0x16, b₁, b₂, n₁, n₂, o₁, o₂] m
      (serveMaskWriteRegister (0x16 : UInt8).toNat [0x16, b₁, b₂, n₁, n₂, o₁, o₂] m) := by
  set r := Request.maskWrite (word b₁ b₂) (UInt16.ofNat (word n₁ n₂)) (UInt16.ofNat (word o₁ o₂))
    with hr
  have hand : (UInt16.ofNat (word n₁ n₂)).toNat = word n₁ n₂ :=
    UInt16.toNat_ofNat_of_lt' (word_lt n₁ n₂)
  have hor : (UInt16.ofNat (word o₁ o₂)).toNat = word o₁ o₂ :=
    UInt16.toNat_ofNat_of_lt' (word_lt o₁ o₂)
  have hpdu : [0x16, b₁, b₂, n₁, n₂, o₁, o₂] = r.pdu := by
    simp only [hr, Request.pdu, Request.function, Request.data, hand, hor, hi_word, lo_word]
  refine computes_answered (r := r) (f := .maskWrite (word b₁ b₂) (word n₁ n₂) (word o₁ o₂)) hm
    r.function_lt rfl rfl trivial id ?_ ?_
  · simp only [hr, Request.apply, Option.isSome_map]
    exact Table.isSome_slice hm.addressable.registers Nat.one_pos
  · rw [hpdu]
    exact serveMaskWriteRegister_request hm (word_le b₁ b₂)

theorem serveWriteMultipleCoils_computes (count : UInt8) (values : List UInt8)
    (hcount : values.length = count.toNat) :
    Computes ver 0x0F (0x0F :: b₁ :: b₂ :: n₁ :: n₂ :: count :: values) m
      (serveWriteMultipleCoils (0x0F : UInt8).toNat
        (0x0F :: b₁ :: b₂ :: n₁ :: n₂ :: count :: values) m) := by
  set pdu : List UInt8 := 0x0F :: b₁ :: b₂ :: n₁ :: n₂ :: count :: values with hpdu
  have htaddr := hm.addressable.bits
  have hlt : (0x0F : UInt8).toNat < 0x80 := by decide
  have hfields : fields pdu =
      some (.writeBits (word b₁ b₂) (word n₁ n₂) count.toNat values) := rfl
  have haddr : rdWord pdu 1 = .ok (word b₁ b₂) := rfl
  have hnb : rdWord pdu 3 = .ok (word n₁ n₂) := rfl
  have hbyte : rd pdu 5 = .ok count := rfl
  by_cases hlegal : (1 ≤ word n₁ n₂ ∧ word n₁ n₂ ≤ 1968) ∧ (word n₁ n₂ + 7) / 8 ≤ count.toNat
  · set r := Request.writeBits (word b₁ b₂) (unpackBits (word n₁ n₂) values) with hr
    have hlen : (unpackBits (word n₁ n₂) values).length = word n₁ n₂ := length_unpackBits _ _
    refine computes_answered (r := r) hm hlt hfields rfl hlegal id ?_ ?_
    · simp only [hr, Request.apply, Option.isSome_map, hlen]
      exact Table.isSome_slice htaddr hlegal.1.1
    · refine serveWriteMultipleCoils_bits hm ?_ haddr ?_ hbyte ?_ ?_ ?_
      · exact ⟨word_le b₁ b₂, by rw [hlen]; exact hlegal.1⟩
      · rw [hlen]
        exact hnb
      · omega
      · exact bitsAt_unpackBits rfl (by omega)
      · simp only [Request.data, hlen, hi_word, lo_word]
        exact rdSlice_of_le (show 1 + 4 ≤ values.length + 6 by omega)
  · rw [serveWriteMultipleCoils]
    simp only [haddr, hnb, hbyte, ok_bind, Table.cint_address htaddr (word_le b₁ b₂)]
    have hbad : word n₁ n₂ < 1 ∨ maxWriteBits < word n₁ n₂ ∨ count.toNat * 8 < word n₁ n₂ := by
      simp only [maxWriteBits]
      omega
    rw [if_pos hbad]
    exact computes_value hm hlt hfields (Or.inl hlegal) true

theorem serveWriteMultipleRegisters_computes (count : UInt8) (values : List UInt8)
    (hcount : values.length = count.toNat) :
    Computes ver 0x10 (0x10 :: b₁ :: b₂ :: n₁ :: n₂ :: count :: values) m
      (serveWriteMultipleRegisters (0x10 : UInt8).toNat
        (0x10 :: b₁ :: b₂ :: n₁ :: n₂ :: count :: values) m) := by
  set pdu : List UInt8 := 0x10 :: b₁ :: b₂ :: n₁ :: n₂ :: count :: values with hpdu
  have htaddr := hm.addressable.registers
  have hlt : (0x10 : UInt8).toNat < 0x80 := by decide
  have hfields : fields pdu =
      some (.writeRegisters (word b₁ b₂) (word n₁ n₂) count.toNat values) := rfl
  have haddr : rdWord pdu 1 = .ok (word b₁ b₂) := rfl
  have hnb : rdWord pdu 3 = .ok (word n₁ n₂) := rfl
  have hbyte : rd pdu 5 = .ok count := rfl
  by_cases hlegal : (1 ≤ word n₁ n₂ ∧ word n₁ n₂ ≤ 123) ∧ count.toNat = 2 * word n₁ n₂
  · obtain ⟨hlen, hbig, hlo⟩ := registers_of_count hcount hlegal.2
    set r := Request.writeRegisters (word b₁ b₂) (words values) with hr
    have hreq : pdu = r.pdu := by
      simp only [hpdu, hr, Request.pdu, Request.function, Request.data, hlen, hbig, hlo, hi_word,
        lo_word]
      rfl
    refine computes_answered (r := r) hm hlt hfields rfl hlegal id ?_ ?_
    · simp only [hr, Request.apply, Option.isSome_map, hlen]
      exact Table.isSome_slice htaddr hlegal.1.1
    · rw [hreq]
      refine serveWriteMultipleRegisters_request hm ⟨word_le b₁ b₂, ?_⟩
      rw [hlen]
      exact hlegal.1
  · rw [serveWriteMultipleRegisters]
    simp only [haddr, hnb, hbyte, ok_bind, Table.cint_address htaddr (word_le b₁ b₂)]
    have hbad : word n₁ n₂ < 1 ∨ maxWriteRegisters < word n₁ n₂ ∨
        count.toNat ≠ word n₁ n₂ * 2 := by
      simp only [maxWriteRegisters]
      omega
    rw [if_pos hbad]
    exact computes_value hm hlt hfields (Or.inl hlegal) true

theorem serveWriteAndReadRegisters_computes (w₁ w₂ k₁ k₂ count : UInt8) (values : List UInt8)
    (hcount : values.length = count.toNat) :
    Computes ver 0x17
      (0x17 :: b₁ :: b₂ :: n₁ :: n₂ :: w₁ :: w₂ :: k₁ :: k₂ :: count :: values) m
      (serveWriteAndReadRegisters (0x17 : UInt8).toNat
        (0x17 :: b₁ :: b₂ :: n₁ :: n₂ :: w₁ :: w₂ :: k₁ :: k₂ :: count :: values) m) := by
  set pdu : List UInt8 := 0x17 :: b₁ :: b₂ :: n₁ :: n₂ :: w₁ :: w₂ :: k₁ :: k₂ :: count :: values
    with hpdu
  have htaddr := hm.addressable.registers
  have hlt : (0x17 : UInt8).toNat < 0x80 := by decide
  have hfields : fields pdu = some (.writeAndRead (word b₁ b₂) (word n₁ n₂) (word w₁ w₂)
      (word k₁ k₂) count.toNat values) := rfl
  by_cases hlegal : (1 ≤ word n₁ n₂ ∧ word n₁ n₂ ≤ 125) ∧ (1 ≤ word k₁ k₂ ∧ word k₁ k₂ ≤ 121) ∧
      count.toNat = 2 * word k₁ k₂
  · obtain ⟨hlen, hbig, hlo⟩ := registers_of_count hcount hlegal.2.2
    set r := Request.writeAndRead (word b₁ b₂) (word n₁ n₂) (word w₁ w₂) (words values) with hr
    have hreq : pdu = r.pdu := by
      simp only [hpdu, hr, Request.pdu, Request.function, Request.data, hlen, hbig, hlo, hi_word,
        lo_word]
      rfl
    refine computes_answered (r := r) hm hlt hfields rfl hlegal id ?_ ?_
    · -- the write leaves all cells where they are
      have hread : ((m.registers.cells id).slice (word b₁ b₂) (word n₁ n₂)).isSome ↔ _ :=
        Table.isSome_slice htaddr hlegal.1.1
      have hwrite : ((m.registers.cells id).slice (word w₁ w₂) (word k₁ k₂)).isSome ↔ _ :=
        Table.isSome_slice htaddr hlegal.2.1.1
      show _ ↔ m.registers.Inside (word b₁ b₂) (word n₁ n₂) ∧
        m.registers.Inside (word w₁ w₂) (word k₁ k₂)
      rw [← hread, ← hwrite]
      simp only [hr, Request.apply, Mapping.memory, Option.isSome_bind, Option.isSome_map, hlen,
        Option.any_eq_true, Cells.isSome_slice_put]
      constructor
      · rintro ⟨ws, hws, ws', hws', -⟩
        exact ⟨Option.isSome_of_mem hws, Option.isSome_of_mem hws'⟩
      · rintro ⟨h, h'⟩
        obtain ⟨ws, hws⟩ := Option.isSome_iff_exists.mp h
        obtain ⟨ws', hws'⟩ := Option.isSome_iff_exists.mp h'
        exact ⟨ws, hws, ws', hws', h⟩
    · rw [hreq]
      refine serveWriteAndReadRegisters_request hm
        ⟨word_le b₁ b₂, hlegal.1, word_le w₁ w₂, ?_⟩
      rw [hlen]
      exact hlegal.2.1
  · have haddr : rdWord pdu 1 = .ok (word b₁ b₂) := rfl
    have hnb : rdWord pdu 3 = .ok (word n₁ n₂) := rfl
    have hwaddr : rdWord pdu 5 = .ok (word w₁ w₂) := rfl
    have hwnb : rdWord pdu 7 = .ok (word k₁ k₂) := rfl
    have hbyte : rd pdu 9 = .ok count := rfl
    rw [serveWriteAndReadRegisters]
    simp only [haddr, hnb, hwaddr, hwnb, hbyte, ok_bind,
      Table.cint_address htaddr (word_le b₁ b₂), Table.cint_address htaddr (word_le w₁ w₂)]
    have hbad : word k₁ k₂ < 1 ∨ maxWrWriteRegisters < word k₁ k₂ ∨ word n₁ n₂ < 1 ∨
        maxWrReadRegisters < word n₁ n₂ ∨ count.toNat ≠ word k₁ k₂ * 2 := by
      simp only [maxWrWriteRegisters, maxWrReadRegisters]
      omega
    rw [if_pos hbad]
    exact computes_value hm hlt hfields (Or.inl hlegal) true

end

end

/-- **The handlers compute the reference server.** -/
theorem servePdu_reference (ver : VersionString) {function : UInt8} {data : List UInt8}
    {m : Mapping} (hm : m.Regular) (h : Framed .indication (function :: data))
    (hlt : function.toNat < 0x80) :
    Computes ver function (function :: data) m (servePdu ver (function :: data) m) := by
  rw [servePdu_framed h]
  by_cases hs : ServedFunction function
  · -- each case of the switch has one shape, or one for each table
    have hshape := h.requestPdu hs
    generalize hpdu : function :: data = pdu at hshape
    cases hshape with
    | read hfc ah al nh nl =>
      rcases hfc with rfl | rfl | rfl | rfl
      all_goals cases hpdu
      · exact serveReadBits_computes ver hm ah al nh nl false
      · exact serveReadBits_computes ver hm ah al nh nl true
      · exact serveReadRegisters_computes ver hm ah al nh nl false
      · exact serveReadRegisters_computes ver hm ah al nh nl true
    | writeSingle hfc ah al vh vl =>
      rcases hfc with rfl | rfl
      all_goals cases hpdu
      · exact serveWriteSingleCoil_computes ver hm ah al vh vl
      · exact serveWriteSingleRegister_computes ver hm ah al vh vl
    | readExceptionStatus =>
      cases hpdu
      exact absurd hs (by decide)
    | writeMultiple hfc ah al nh nl count values hcount =>
      rcases hfc with rfl | rfl
      all_goals cases hpdu
      · exact serveWriteMultipleCoils_computes ver hm ah al nh nl count values hcount
      · exact serveWriteMultipleRegisters_computes ver hm ah al nh nl count values hcount
    | reportSlaveId =>
      cases hpdu
      refine ⟨_, rfl, hm, Reference.normal (f := .reportSlaveId) rfl ?_ ?_ ⟨rfl, rfl⟩⟩
      · rintro (h | ⟨-, h⟩)
        · exact h trivial
        · exact h
      · rintro ⟨-, h⟩
        exact h trivial
    | maskWrite ah al mh ml oh ol =>
      cases hpdu
      exact serveMaskWriteRegister_computes ver hm ah al mh ml oh ol
    | writeAndRead rh rl nh nl wh wl mh ml count values hcount =>
      cases hpdu
      exact serveWriteAndReadRegisters_computes ver hm rh rl nh nl wh wl mh ml count values hcount
  · -- none of the cases of the switch
    have hfields : fields (function :: data) = none := fields_eq_none_iff.mpr hs
    simp only [ServedFunction, ← UInt8.toNat_inj, UInt8.toNat_ofNat, Nat.reducePow,
      Nat.reduceMod] at hs
    have hswitch : serveSwitch function.toNat (function :: data) m ver =
        .ok (exceptionPdu function.toNat exceptionIllegalFunction true m) := by
      unfold serveSwitch
      rw [if_neg (show ¬ function.toNat = 0x01 by omega),
        if_neg (show ¬ function.toNat = 0x02 by omega),
        if_neg (show ¬ function.toNat = 0x03 by omega),
        if_neg (show ¬ function.toNat = 0x04 by omega),
        if_neg (show ¬ function.toNat = 0x05 by omega),
        if_neg (show ¬ function.toNat = 0x06 by omega),
        if_neg (show ¬ function.toNat = 0x0F by omega),
        if_neg (show ¬ function.toNat = 0x10 by omega),
        if_neg (show ¬ function.toNat = 0x11 by omega),
        if_neg (show ¬ function.toNat = 0x16 by omega),
        if_neg (show ¬ function.toNat = 0x17 by omega)]
    refine ⟨_, hswitch, hm, ?_⟩
    show Reference ver function _ m [lo (function.toNat + 0x80 : Nat), 0x01] m
    rw [lo_add_0x80 hlt]
    exact .illegalFunction hfields

/-! ### modbus_reply -/

/-- The response and the new mapping are those of the reference server: which exception it is, or
the normal response. -/
structure Conforms (ver : VersionString) (function : UInt8) (pdu : List UInt8) (m : Mapping)
    (rsp : List UInt8) (m' : Mapping) : Prop where
  illegalFunction : rsp = [function ||| 0x80, 0x01] ↔ ¬ ServedFunction function
  illegalDataValue :
    rsp = [function ||| 0x80, 0x03] ↔ ∃ f, fields pdu = some f ∧ f.IllegalValue m
  illegalDataAddress :
    rsp = [function ||| 0x80, 0x02] ↔ ∃ f, fields pdu = some f ∧ f.IllegalAddress m
  unchanged : ∀ code, rsp = [function ||| 0x80, code] → m' = m
  normal : ∀ f, fields pdu = some f → ¬ f.IllegalValue m → ¬ f.IllegalAddress m →
    f.NormalResponse ver function m rsp m'

/-- No request is illegal in two ways. -/
theorem Fields.IllegalAddress.not_value {f : Fields} {m : Mapping} (h : f.IllegalAddress m) :
    ¬ f.IllegalValue m := by
  rintro (hlegal | ⟨hin, -⟩)
  · exact hlegal h.1
  · exact h.2 hin

theorem Reference.conforms {ver : VersionString} {function : UInt8} {data rsp : List UInt8}
    {m m' : Mapping} (hlt : function.toNat < 0x80)
    (h : Reference ver function (function :: data) m rsp m') :
    Conforms ver function (function :: data) m rsp m' := by
  have hcode : ∀ {c c' : UInt8}, [function ||| 0x80, c] = [function ||| 0x80, c'] → c = c' :=
    fun h => (List.cons.inj (List.cons.inj h).2).1
  cases h with
  | illegalFunction hf =>
    refine ⟨⟨fun _ => fields_eq_none_iff.mp hf, fun _ => rfl⟩, ⟨fun h => ?_, ?_⟩, ⟨fun h => ?_, ?_⟩,
      fun _ _ => rfl, ?_⟩
    · exact absurd (hcode h) (by decide)
    · rintro ⟨f, hf', -⟩
      cases hf.symm.trans hf'
    · exact absurd (hcode h) (by decide)
    · rintro ⟨f, hf', -⟩
      cases hf.symm.trans hf'
    · intro f hf'
      cases hf.symm.trans hf'
  | @illegalValue f hf h =>
    have hserved := servedFunction_of_fields hf
    refine ⟨⟨fun h => ?_, fun hs => absurd hserved hs⟩, ⟨fun _ => ⟨f, hf, h⟩, fun _ => rfl⟩,
      ⟨fun h => ?_, ?_⟩, fun _ _ => rfl, ?_⟩
    · exact absurd (hcode h) (by decide)
    · exact absurd (hcode h) (by decide)
    · rintro ⟨f', hf', haddress⟩
      cases hf.symm.trans hf'
      exact absurd h haddress.not_value
    · intro f' hf' hvalue
      cases hf.symm.trans hf'
      exact absurd h hvalue
  | @illegalAddress f hf h =>
    have hserved := servedFunction_of_fields hf
    refine ⟨⟨fun h => ?_, fun hs => absurd hserved hs⟩, ⟨fun h => ?_, ?_⟩,
      ⟨fun _ => ⟨f, hf, h⟩, fun _ => rfl⟩, fun _ _ => rfl, ?_⟩
    · exact absurd (hcode h) (by decide)
    · exact absurd (hcode h) (by decide)
    · rintro ⟨f', hf', hvalue⟩
      cases hf.symm.trans hf'
      exact absurd hvalue h.not_value
    · intro f' hf' _ haddress
      cases hf.symm.trans hf'
      exact absurd h haddress
  | @normal f rsp m' hf hvalue haddress h =>
    have hserved := servedFunction_of_fields hf
    obtain ⟨rest, hrest⟩ := h.cons
    -- a normal response begins with the function itself, so it is no exception
    have hne : ∀ code, rsp ≠ [function ||| 0x80, code] := by
      intro code hrsp
      exact exception_ne_cons hlt code rest (hrsp.symm.trans hrest)
    refine ⟨⟨fun h => absurd h (hne _), fun hs => absurd hserved hs⟩,
      ⟨fun h => absurd h (hne _), ?_⟩, ⟨fun h => absurd h (hne _), ?_⟩,
      fun code h => absurd h (hne code), ?_⟩
    · rintro ⟨f', hf', h'⟩
      cases hf.symm.trans hf'
      exact absurd h' hvalue
    · rintro ⟨f', hf', h'⟩
      cases hf.symm.trans hf'
      exact absurd h' haddress
    · intro f' hf' _ _
      cases hf.symm.trans hf'
      exact h

/-- **`modbus_reply` computes the reference server.**  For every request that `modbus_receive`
returns, with a function code below 0x80 and a unit that is no broadcast, one frame is handed
over, under the unit and the transaction id of the request, and it says what the reference server
answers.  The call returns, unless it goes on recovering its link. -/
theorem reply_computes_reference {osr : Os τ} {st₀ st₁ : St τ} {rc : Int} {req : List UInt8}
    (hrc : 0 < rc) (hrcv : modbusReceive osr st₀ = .ok (rc, req, st₁)) {function unit : UInt8}
    (hfunction : rd req st₀.ctx.backend.headerLength = .ok function)
    (hlt : function.toNat < 0x80)
    (hunit : rd req (st₀.ctx.backend.headerLength - 1) = .ok unit)
    (hbroadcast : unit.toNat ≠ broadcastAddress) (os : Os σ) (ver : VersionString)
    {st : St (Recorded σ)} (hbe : st.ctx.backend = st₀.ctx.backend) {m : Mapping}
    (hm : m.Regular) :
    ∃ a : Adu, req = a.bytes st.ctx.backend ∧
      Ends (modbusReply (recordOs os) ver st req rc m)
        (fun r => ∃ b : Adu, b.unit = unit ∧ b.tId = a.tId ∧
          Handed st.ctx (b.bytes st.ctx.backend) st.os r.2.2.os ∧
          Conforms ver function a.pdu m b.pdu r.2.1)
        (Retries os st.ctx) := by
  obtain ⟨a, rfl, hframed, rfl⟩ := received_adu hrc hrcv
  rw [← hbe] at hfunction hunit ⊢
  refine ⟨a, rfl, ?_⟩
  obtain ⟨function', data, hpdu⟩ := List.exists_cons_of_ne_nil hframed.ne_nil
  have hf : rd (a.bytes st.ctx.backend) (st.ctx.backend.headerLength + 0) = .ok function' := by
    rw [Adu.bytes, a.rd_wrapped _ (by rw [hpdu]; exact Nat.succ_pos _), hpdu]
    rfl
  cases hf.symm.trans hfunction
  cases (a.rd_wrapped_unit (a.checksum st.ctx.backend)).symm.trans hunit
  rw [hpdu] at hframed
  obtain ⟨p, hp, hregular, href⟩ := servePdu_reference ver hm hframed hlt
  rw [← hpdu] at hp
  have hne : a.pdu ≠ [] := by
    rw [hpdu]
    exact List.cons_ne_nil function data
  have hreply : buildReply ver st.ctx.backend (a.bytes st.ctx.backend)
      ((a.bytes st.ctx.backend).length : Nat) m =
        (servePdu ver a.pdu m).map (PduReply.wrap st.ctx.backend a) :=
    buildReply_wrapped ver a m a.length_checksum hne
  rw [hp] at hreply
  have hroom : ((st.ctx.backend.headerLength + 1 : Nat) : Int) ≤
      ((a.bytes st.ctx.backend).length : Nat) := by
    rw [Adu.length_bytes, hpdu, List.length_cons]
    omega
  refine (modbusReply_answers os ver hunit hroom (suppressed_unit hbroadcast) hreply).imp
    (fun r h => ⟨p.adu a, rfl, rfl, ?_, ?_⟩) fun _ he => he
  · rw [← sendMsgPre_wrap]
    exact h.2
  · rw [h.1, hpdu]
    exact href.conforms hlt

/-- Ten coils from 1 on are asked for, of which the last seven are not there. -/
theorem reply_computes_reference_sample :
    ∃ a : Adu, [0, 7, 0, 0, 0, 6, 17, 0x01, 0, 1, 0, 10] = a.bytes .tcp ∧
      Ends (modbusReply (recordOs (linkOs 1)) ⟨[], by decide⟩ (recordedSt .tcp 17)
          [0, 7, 0, 0, 0, 6, 17, 0x01, 0, 1, 0, 10] 12 sampleMapping)
        (fun r => ∃ b : Adu, b.unit = 17 ∧ b.tId = a.tId ∧
          Handed (recordedSt .tcp 17).ctx (b.bytes .tcp) (recordedSt .tcp 17).os r.2.2.os ∧
          Conforms ⟨[], by decide⟩ 0x01 a.pdu sampleMapping b.pdu r.2.1)
        (Retries (linkOs 1) (recordedSt .tcp 17).ctx) := by
  have hrcv : modbusReceive (linkOs 1)
      (sampleSt .tcp 255 [0, 7, 0, 0, 0, 6, 17, 0x01, 0, 1, 0, 10]) =
      .ok (12, [0, 7, 0, 0, 0, 6, 17, 0x01, 0, 1, 0, 10], sampleSt .tcp 255 []) := rfl
  have hbe : (recordedSt .tcp 17).ctx.backend =
      (sampleSt .tcp 255 [0, 7, 0, 0, 0, 6, 17, 0x01, 0, 1, 0, 10]).ctx.backend := rfl
  exact reply_computes_reference (by decide) hrcv rfl (by decide) rfl (by decide) (linkOs 1)
    ⟨[], by decide⟩ hbe regular_sampleMapping

end Libmodbus
