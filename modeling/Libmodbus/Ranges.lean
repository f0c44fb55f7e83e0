/-
Libmodbus/Ranges.lean

Where the handlers index the tables.  A run that leaves a table, or overflows
the `int` arithmetic that should keep it inside, stops with a `TableFault`.

Every handler guards its access by `address - start` and by comparing
`mapping_address + nb` with the size of the table.  The guard is right as long
as these two sums fit an `int`.  The constructor takes the start address as an
`unsigned int` and stores it in an `int` unchecked, so starts just above 2^31
become the most negative ones, from which the sums overflow.

`table_accesses_in_range_iff` gives the exact set of start addresses for which
no request can cause a fault.
-/
import Libmodbus.Exceptions
import Libmodbus.Stops

namespace Libmodbus

open CSem Wire Posix

variable {σ : Type} {be : Backend} {α β γ : Type}

/-! ### Reading the request -/

/-- The request has `n` bytes, or reading behind its end is a stop that is tolerated.  With the
first, a result says that nothing is read outside; with the second it holds of any request. -/
def Reads (E : Stop → Prop) (req : List UInt8) (n : Nat) : Prop :=
  n ≤ req.length ∨ ∀ i, E (.readOutside i)

section

variable {E : Stop → Prop}

theorem Reads.mono {req : List UInt8} {n n' : Nat} (h : Reads E req n') (hn : n ≤ n') :
    Reads E req n := h.imp_left hn.trans

theorem ends_rd {req : List UInt8} {i : Nat} (h : Reads E req (i + 1)) :
    Ends (rd req i) (fun _ => True) E := by
  by_cases hi : i < req.length
  · rw [rd_lt hi]
    exact trivial
  · rw [rd_ge (Nat.le_of_not_lt hi)]
    exact h.elim (fun h => absurd h hi) fun h => h i

theorem ends_rdWord {req : List UInt8} {i : Nat} (h : Reads E req (i + 2)) :
    Ends (rdWord req i) (· < 65536) E := by
  refine (ends_rd (h.mono (by omega))).bind fun hb _ _ => (ends_rd h).bind fun lb _ _ => ?_
  exact word_lt hb lb

theorem ends_rdSlice {req : List UInt8} {off n : Nat} (h : Reads E req (off + n)) :
    Ends (rdSlice req off n) (fun _ => True) E := by
  by_cases hle : off + n ≤ req.length
  · rw [rdSlice_of_le hle]
    exact trivial
  · rw [rdSlice, if_neg hle]
    exact h.elim (fun h => absurd h hle) fun h => h _

theorem ends_computeResponseLength {req : List UInt8} (h : Reads E req (be.headerLength + 5)) :
    Ends (computeResponseLengthFromRequest be req) (fun _ => True) E := by
  have hword : Ends (rd req (be.headerLength + 3)) (fun _ => True) E ∧
      Ends (rd req (be.headerLength + 4)) (fun _ => True) E :=
    ⟨ends_rd (h.mono (by omega)), ends_rd h⟩
  refine (ends_rd (h.mono (by omega))).bind fun function _ _ => Ends.ite (fun _ => ?_) fun _ => ?_
  · exact hword.1.bind fun hb _ _ => hword.2.bind fun lb _ _ => trivial
  refine Ends.ite (fun _ => ?_) fun _ => ?_
  · exact hword.1.bind fun hb _ _ => hword.2.bind fun lb _ _ => trivial
  refine Ends.ite (fun _ => trivial) fun _ => Ends.ite (fun _ => trivial) fun _ => ?_
  exact Ends.ite (fun _ => trivial) fun _ => trivial

/-! ### Guards -/

theorem ends_cint {v : Int} (h : FitsInt v) : Ends (cint v) (· = v) E := by
  rw [cint_of_fits h]
  exact rfl

theorem ends_cell {tab : List α} {i : Int} (h : 0 ≤ i) (hi : i < tab.length) :
    Ends (cell tab i) (fun _ => True) E := by
  obtain ⟨n, rfl⟩ := Int.eq_ofNat_of_zero_le h
  rw [cell_of_lt (by omega)]
  exact trivial

theorem ends_setCell {tab : List α} {i : Int} (v : α) (h : 0 ≤ i) (hi : i < tab.length) :
    Ends (setCell tab i v) (fun _ => True) E := by
  obtain ⟨n, rfl⟩ := Int.eq_ofNat_of_zero_le h
  rw [setCell_of_lt (by omega)]
  exact trivial

/-- The guard of the handlers, when its sum fits: a range that passes lies in the table. -/
theorem ends_rangeOutside {mappingAddress : Int} {nb size : Nat}
    (h : mappingAddress + nb ≤ 2147483647) :
    Ends (rangeOutside mappingAddress nb size)
      (fun outside => ¬ outside = true → 0 ≤ mappingAddress ∧ mappingAddress + nb ≤ size) E := by
  refine Ends.ite (fun _ hn => absurd rfl hn) fun h0 => ?_
  refine (ends_cint ⟨by omega, h⟩).bind fun last _ hlast => ?_
  intro hn
  have hle : ¬ (size : Int) < last := by simpa using hn
  omega

/-! ### The loops stay in the range they are given -/

theorem ends_ioStatusLoop {tab : List UInt8} {n : Nat} {i : Int} {shift oneByte : Nat}
    (h : 0 ≤ i) (hn : i + n ≤ tab.length) :
    Ends (ioStatusLoop tab i n shift oneByte) (fun _ => True) E := by
  induction n generalizing i shift oneByte with
  | zero => exact trivial
  | succ n ih =>
    refine (ends_cell h (by omega)).bind fun v _ _ => Ends.ite (fun _ => ?_) fun _ => ?_
    · exact (ih (by omega) (by omega)).bind fun rest _ _ => trivial
    · exact ih (by omega) (by omega)

theorem ends_readRegisters {tab : List UInt16} {n : Nat} {i : Int} (h : 0 ≤ i)
    (hn : i + n ≤ tab.length) : Ends (readRegisters tab i n) (fun _ => True) E := by
  induction n generalizing i with
  | zero => exact trivial
  | succ n ih =>
    refine (ends_cell h (by omega)).bind fun v _ _ => ?_
    exact (ih (by omega) (by omega)).bind fun rest _ _ => trivial

theorem ends_setBitsLoop {tabByte dest : List UInt8} {pos k n : Nat} {idx : Int}
    (h : 0 ≤ idx) (hn : idx + k + n ≤ dest.length)
    (hr : Reads E tabByte (pos + (k + n + 7) / 8)) :
    Ends (setBitsLoop tabByte pos dest idx k n) (fun _ => True) E := by
  induction n generalizing dest k with
  | zero => exact trivial
  | succ n ih =>
    refine (ends_rd (hr.mono (by omega))).bind fun b _ _ => ?_
    refine (ends_setCell _ (by omega) (by omega)).bind fun dest' hd _ => ?_
    refine ih ?_ (hr.mono (by omega))
    rw [length_of_setCell hd]
    omega

theorem ends_writeRegisters {req : List UInt8} {tab : List UInt16} {i : Int} {j n : Nat}
    (h : 0 ≤ i) (hn : i + n ≤ tab.length) (hr : Reads E req (j + 2 * n)) :
    Ends (writeRegisters req tab i j n) (fun _ => True) E := by
  induction n generalizing tab i j with
  | zero => exact trivial
  | succ n ih =>
    refine (ends_rd (hr.mono (by omega))).bind fun hb _ _ => ?_
    refine (ends_rd (hr.mono (by omega))).bind fun lb _ _ => ?_
    refine (ends_setCell _ h (by omega)).bind fun tab' ht _ => ?_
    refine ih (by omega) ?_ (hr.mono (by omega))
    rw [length_of_setCell ht]
    omega

/-- A table is modified unless the function stops, and then for the same reason. -/
theorem ends_modify {t : Table α} {f : List α → Run (List α)}
    (hf : ∀ {xs ys}, f xs = .ok ys → ys.length = xs.length)
    (h : Ends (f t.tab) (fun _ => True) E) :
    Ends (t.modify f hf) (fun t' => t'.tab.length = t.tab.length) E := by
  unfold Table.modify
  split
  next tab ht => exact hf ht
  next e he => exact h.stop he

/-! ### Start addresses -/

/-- No address of a request, and no range of at most `nbMax` cells behind it, leaves `int`. -/
def Table.StartSafe (t : Table α) (nbMax : Nat) : Prop :=
  65535 - t.start.toInt + nbMax ≤ 2147483647

/-- The largest reads are the ones that decide. -/
structure StartsSafe (m : Mapping) : Prop where
  bits : m.bits.StartSafe maxReadBits
  inputBits : m.inputBits.StartSafe maxReadBits
  registers : m.registers.StartSafe maxReadRegisters
  inputRegisters : m.inputRegisters.StartSafe maxReadRegisters

/-- An address that a request can name is far from the end of an `int`. -/
theorem Mapping.Addressable.startsSafe {m : Mapping} (h : m.Addressable) : StartsSafe m := by
  have hsafe : ∀ {α : Type} {t : Table α} {nbMax : Nat}, t.Addressable → nbMax ≤ 2000 →
      t.StartSafe nbMax := by
    intro α t nbMax ht hmax
    have := ht.1
    unfold Table.StartSafe
    omega
  exact ⟨hsafe h.bits (by decide), hsafe h.inputBits (by decide), hsafe h.registers (by decide),
    hsafe h.inputRegisters (by decide)⟩

theorem ends_mappingAddress {t : Table α} {nbMax address : Nat} (h : t.StartSafe nbMax)
    (ha : address < 65536) :
    Ends (cint (address - t.start.toInt))
      (fun mappingAddress => ∀ nb : Nat, nb ≤ nbMax → mappingAddress + nb ≤ 2147483647) E := by
  have hstart : t.start.toInt ≤ 2147483647 := by
    have := Int32.toInt_lt t.start
    omega
  unfold Table.StartSafe at h
  have hfits : FitsInt (address - t.start.toInt) := ⟨by omega, by omega⟩
  refine (ends_cint hfits).imp (fun v hv nb hnb => ?_) fun _ h => h
  omega

/-! ### The handlers -/

section Handlers

variable {sft : Sft} {req : List UInt8} {reqLength : Int} {address : Nat} {m : Mapping}

theorem ends_replyReadBits {isInput : Bool} (hm : StartsSafe m) (ha : address < 65536)
    (hr : Reads E req (be.headerLength + 5)) :
    Ends (replyReadBits be sft req address m isInput) (fun _ => True) E := by
  have hsafe : (if isInput then m.inputBits else m.bits).StartSafe maxReadBits := by
    cases isInput with
    | false => exact hm.bits
    | true => exact hm.inputBits
  refine (ends_rdWord hr).bind fun nb _ _ => ?_
  refine (ends_mappingAddress hsafe ha).bind fun mappingAddress _ hfit => ?_
  refine Ends.ite (fun _ => trivial) fun hnb => ?_
  refine (ends_rangeOutside (hfit nb (by omega))).bind fun outside _ hin => ?_
  refine Ends.ite (fun _ => trivial) fun hout => ?_
  exact (ends_ioStatusLoop (hin hout).1 (hin hout).2).bind fun status _ _ => trivial

theorem ends_replyReadRegisters {isInput : Bool} (hm : StartsSafe m) (ha : address < 65536)
    (hr : Reads E req (be.headerLength + 5)) :
    Ends (replyReadRegisters be sft req address m isInput) (fun _ => True) E := by
  have hsafe : (if isInput then m.inputRegisters else m.registers).StartSafe
      maxReadRegisters := by
    cases isInput with
    | false => exact hm.registers
    | true => exact hm.inputRegisters
  refine (ends_rdWord hr).bind fun nb _ _ => ?_
  refine (ends_mappingAddress hsafe ha).bind fun mappingAddress _ hfit => ?_
  refine Ends.ite (fun _ => trivial) fun hnb => ?_
  refine (ends_rangeOutside (hfit nb (by omega))).bind fun outside _ hin => ?_
  refine Ends.ite (fun _ => trivial) fun hout => ?_
  exact (ends_readRegisters (hin hout).1 (hin hout).2).bind fun values _ _ => trivial

/-- The frame that the write handlers copy is not longer than the request. -/
theorem Reads.frame {rspLength : Int} (hl : Reads E req reqLength.toNat)
    (h : ¬ rspLength ≠ reqLength) :
    Reads E req (0 + (rspLength - be.checksumLength).toNat) :=
  hl.mono (by omega)

theorem ends_replyWriteSingleCoil (hm : StartsSafe m) (ha : address < 65536)
    (hr : Reads E req (be.headerLength + 5)) (hl : Reads E req reqLength.toNat) :
    Ends (replyWriteSingleCoil be sft req reqLength address m) (fun _ => True) E := by
  refine (ends_mappingAddress hm.bits ha).bind fun mappingAddress _ _ => ?_
  refine Ends.ite (fun _ => trivial) fun hin => ?_
  refine (ends_computeResponseLength hr).bind fun rspLength _ _ => ?_
  refine Ends.ite (fun _ => trivial) fun hlen => (ends_rdWord hr).bind fun data _ _ => ?_
  refine Ends.ite (fun _ => ?_) fun _ => trivial
  have hin' : 0 ≤ mappingAddress ∧ mappingAddress < m.bits.tab.length := by
    unfold Table.nb at hin
    omega
  refine (ends_modify length_of_setCell (ends_setCell _ hin'.1 hin'.2)).bind fun bits _ _ => ?_
  exact (ends_rdSlice (hl.frame hlen)).bind fun rsp _ _ => trivial

theorem ends_replyWriteSingleRegister (hm : StartsSafe m) (ha : address < 65536)
    (hr : Reads E req (be.headerLength + 5)) (hl : Reads E req reqLength.toNat) :
    Ends (replyWriteSingleRegister be sft req reqLength address m) (fun _ => True) E := by
  refine (ends_mappingAddress hm.registers ha).bind fun mappingAddress _ _ => ?_
  refine Ends.ite (fun _ => trivial) fun hin => ?_
  refine (ends_computeResponseLength hr).bind fun rspLength _ _ => ?_
  refine Ends.ite (fun _ => trivial) fun hlen => (ends_rdWord hr).bind fun data _ _ => ?_
  have hin' : 0 ≤ mappingAddress ∧ mappingAddress < m.registers.tab.length := by
    unfold Table.nb at hin
    omega
  refine (ends_modify length_of_setCell (ends_setCell _ hin'.1 hin'.2)).bind
    fun registers _ _ => ?_
  exact (ends_rdSlice (hl.frame hlen)).bind fun rsp _ _ => trivial

/-- What the two write handlers send back besides their function code. -/
theorem Reads.echo (hr : Reads E req (be.headerLength + 5)) :
    Reads E req ((buildResponseBasis be sft).length + 4) := by
  cases be with
  | rtu => exact hr.mono (Nat.le_of_eq rfl)
  | tcp => exact hr.mono (Nat.le_of_eq rfl)

theorem ends_replyWriteMultipleCoils (hm : StartsSafe m) (ha : address < 65536)
    (hr : Reads E req (be.headerLength + 6))
    (hd : ∀ c, rd req (be.headerLength + 5) = .ok c →
      Reads E req (be.headerLength + 6 + c.toNat)) :
    Ends (replyWriteMultipleCoils be sft req address m) (fun _ => True) E := by
  refine (ends_rdWord (hr.mono (by omega))).bind fun nb _ _ => ?_
  refine (ends_rd hr).bind fun nbBits hbits _ => ?_
  refine (ends_mappingAddress hm.bits ha).bind fun mappingAddress _ hfit => ?_
  refine Ends.ite (fun _ => trivial) fun hnb => ?_
  simp only [maxWriteBits, maxReadBits] at hnb hfit
  refine (ends_rangeOutside (hfit nb (by omega))).bind fun outside _ hin => ?_
  refine Ends.ite (fun _ => trivial) fun hout => ?_
  have hrange : mappingAddress + (0 : Nat) + nb ≤ m.bits.tab.length := by
    have := (hin hout).2
    unfold Table.nb at this
    omega
  have hread : Reads E req (be.headerLength + 6 + (0 + nb + 7) / 8) :=
    (hd nbBits hbits).mono (by omega)
  refine (ends_modify length_modbusSetBitsFromBytes
    (ends_setBitsLoop (hin hout).1 hrange hread)).bind fun bits _ _ => ?_
  exact (ends_rdSlice (hr.mono (by omega)).echo).bind fun echo _ _ => trivial

theorem ends_replyWriteMultipleRegisters (hm : StartsSafe m) (ha : address < 65536)
    (hr : Reads E req (be.headerLength + 6))
    (hd : ∀ c, rd req (be.headerLength + 5) = .ok c →
      Reads E req (be.headerLength + 6 + c.toNat)) :
    Ends (replyWriteMultipleRegisters be sft req address m) (fun _ => True) E := by
  refine (ends_rdWord (hr.mono (by omega))).bind fun nb _ _ => ?_
  refine (ends_rd hr).bind fun nbBytes hbytes _ => ?_
  refine (ends_mappingAddress hm.registers ha).bind fun mappingAddress _ hfit => ?_
  refine Ends.ite (fun _ => trivial) fun hnb => ?_
  simp only [maxWriteRegisters, maxReadRegisters] at hnb hfit
  refine (ends_rangeOutside (hfit nb (by omega))).bind fun outside _ hin => ?_
  refine Ends.ite (fun _ => trivial) fun hout => ?_
  have hread : Reads E req (be.headerLength + 6 + 2 * nb) :=
    (hd nbBytes hbytes).mono (by omega)
  refine (ends_modify length_writeRegisters
    (ends_writeRegisters (hin hout).1 (hin hout).2 hread)).bind fun registers _ _ => ?_
  exact (ends_rdSlice (hr.mono (by omega)).echo).bind fun echo _ _ => trivial

theorem ends_replyMaskWriteRegister (hm : StartsSafe m) (ha : address < 65536)
    (hr : Reads E req (be.headerLength + 7)) (hl : Reads E req reqLength.toNat) :
    Ends (replyMaskWriteRegister be sft req reqLength address m) (fun _ => True) E := by
  refine (ends_mappingAddress hm.registers ha).bind fun mappingAddress _ _ => ?_
  refine Ends.ite (fun _ => trivial) fun hin => ?_
  refine (ends_rdWord (hr.mono (by omega))).bind fun and _ _ => ?_
  refine (ends_rdWord hr).bind fun or _ _ => ?_
  refine (ends_computeResponseLength (hr.mono (by omega))).bind fun rspLength _ _ => ?_
  refine Ends.ite (fun _ => trivial) fun hlen => ?_
  have hin' : 0 ≤ mappingAddress ∧ mappingAddress < m.registers.tab.length := by
    unfold Table.nb at hin
    omega
  refine (ends_cell hin'.1 hin'.2).bind fun data _ _ => ?_
  refine (ends_modify length_of_setCell (ends_setCell _ hin'.1 hin'.2)).bind
    fun registers _ _ => ?_
  exact (ends_rdSlice (hl.frame hlen)).bind fun rsp _ _ => trivial

theorem ends_replyWriteAndReadRegisters (hm : StartsSafe m) (ha : address < 65536)
    (hr : Reads E req (be.headerLength + 10))
    (hd : ∀ c, rd req (be.headerLength + 9) = .ok c →
      Reads E req (be.headerLength + 10 + c.toNat)) :
    Ends (replyWriteAndReadRegisters be sft req address m) (fun _ => True) E := by
  refine (ends_rdWord (hr.mono (by omega))).bind fun nb _ _ => ?_
  refine (ends_rdWord (hr.mono (by omega))).bind fun addressWrite _ haw => ?_
  refine (ends_rdWord (hr.mono (by omega))).bind fun nbWrite _ _ => ?_
  refine (ends_rd hr).bind fun nbWriteBytes hbytes _ => ?_
  refine (ends_mappingAddress hm.registers ha).bind fun mappingAddress _ hfit => ?_
  refine (ends_mappingAddress hm.registers haw).bind fun mappingAddressWrite _ hfitW => ?_
  refine Ends.ite (fun _ => trivial) fun hnb => ?_
  simp only [maxWrWriteRegisters, maxWrReadRegisters, maxReadRegisters] at hnb hfit hfitW
  refine (ends_rangeOutside (hfit nb (by omega))).bind fun outside _ hin => ?_
  refine Ends.ite (fun _ => trivial) fun hout => ?_
  refine (ends_rangeOutside (hfitW nbWrite (by omega))).bind fun outsideWrite _ hinW => ?_
  refine Ends.ite (fun _ => trivial) fun houtW => ?_
  have hread : Reads E req (be.headerLength + 10 + 2 * nbWrite) :=
    (hd nbWriteBytes hbytes).mono (by omega)
  refine (ends_modify length_writeRegisters
    (ends_writeRegisters (hinW houtW).1 (hinW houtW).2 hread)).bind fun registers _ hlen => ?_
  have hrange : mappingAddress + nb ≤ registers.tab.length := by
    rw [hlen]
    exact (hin hout).2
  exact (ends_readRegisters (hin hout).1 hrange).bind fun values _ _ => trivial

/-- The request holds what its function needs: meta fields, and behind a byte count as many
bytes. -/
structure Holds (E : Stop → Prop) (be : Backend) (req : List UInt8) (function : Nat) : Prop where
  metaFields : Reads E req
    (be.headerLength + 1 + computeMetaLengthAfterFunction function .indication)
  data : ∀ pos, byteCountPos function .indication = some pos →
    ∀ c, rd req (be.headerLength + pos) = .ok c → Reads E req (be.headerLength + (pos + 1) + c.toNat)

theorem ends_replySwitch {ver : VersionString} (hm : StartsSafe m) (ha : address < 65536)
    (hh : Holds E be req sft.function) (hl : Reads E req reqLength.toNat) :
    Ends (replySwitch be sft req reqLength address m ver) (fun _ => True) E := by
  obtain ⟨hmeta, hdata⟩ := hh
  rw [Nat.add_assoc] at hmeta
  unfold replySwitch
  refine Ends.ite (fun h => ?_) fun _ => ?_
  · rw [h] at hmeta
    exact ends_replyReadBits hm ha hmeta
  refine Ends.ite (fun h => ?_) fun _ => ?_
  · rw [h] at hmeta
    exact ends_replyReadBits hm ha hmeta
  refine Ends.ite (fun h => ?_) fun _ => ?_
  · rw [h] at hmeta
    exact ends_replyReadRegisters hm ha hmeta
  refine Ends.ite (fun h => ?_) fun _ => ?_
  · rw [h] at hmeta
    exact ends_replyReadRegisters hm ha hmeta
  refine Ends.ite (fun h => ?_) fun _ => ?_
  · rw [h] at hmeta
    exact ends_replyWriteSingleCoil hm ha hmeta hl
  refine Ends.ite (fun h => ?_) fun _ => ?_
  · rw [h] at hmeta
    exact ends_replyWriteSingleRegister hm ha hmeta hl
  refine Ends.ite (fun h => ?_) fun _ => ?_
  · rw [h] at hmeta hdata
    exact ends_replyWriteMultipleCoils hm ha hmeta (hdata 5 rfl)
  refine Ends.ite (fun h => ?_) fun _ => ?_
  · rw [h] at hmeta hdata
    exact ends_replyWriteMultipleRegisters hm ha hmeta (hdata 5 rfl)
  refine Ends.ite (fun _ => trivial) fun _ => ?_
  refine Ends.ite (fun h => ?_) fun _ => ?_
  · rw [h] at hmeta
    exact ends_replyMaskWriteRegister hm ha hmeta hl
  refine Ends.ite (fun h => ?_) fun _ => trivial
  rw [h] at hmeta hdata
  exact ends_replyWriteAndReadRegisters hm ha hmeta (hdata 9 rfl)

/-- A length that passes the check covers all that is read afterwards. -/
theorem ends_neededLength {function : UInt8} (hl : Reads E req reqLength.toNat)
    (hf : rd req be.headerLength = .ok function) :
    Ends (neededLength be req reqLength function.toNat)
      (fun needed => ¬ reqLength < needed → Holds E be req function.toNat) E := by
  refine Ends.ite (fun hin => ?_) fun hout => ?_
  · -- the meta fields are present, and the byte count among them is read
    have hmeta := hl.mono (show be.headerLength + 1 +
      computeMetaLengthAfterFunction function.toNat .indication ≤ reqLength.toNat by omega)
    unfold computeDataLengthAfterMeta
    rw [hf, ok_bind]
    cases hpos : byteCountPos function.toNat .indication with
    | none => exact fun _ => ⟨hmeta, fun pos h => by rw [hpos] at h; cases h⟩
    | some pos =>
      have hpm := byteCountPos_eq_meta hpos
      show Ends (rd req (be.headerLength + pos) >>= _ >>= _) _ E
      rw [bind_assoc]
      refine (ends_rd (hmeta.mono (by omega))).bind fun c hc _ hneeded => ⟨hmeta, ?_⟩
      intro pos' h' c' hc'
      cases hpos.symm.trans h'
      cases hc.symm.trans hc'
      exact hl.mono (by omega)
  · intro hneeded
    exact absurd (Int.not_lt.mp hneeded) hout

/-- **Nothing outside is read or written.**  A reply to a request that holds its function code
stops neither at a table nor, when the caller's length is that of its array, at the request. -/
theorem ends_buildReply {ver : VersionString} (hm : StartsSafe m)
    (hr : Reads E req (be.headerLength + 1)) (hl : Reads E req reqLength.toNat) :
    Ends (buildReply ver be req reqLength m) (fun _ => True) E := by
  have hheader : 1 ≤ be.headerLength := by cases be <;> decide
  refine (ends_rd (hr.mono (by omega))).bind fun slave _ _ => ?_
  refine (ends_rd hr).bind fun function hf _ => ?_
  have hrest : ∀ address < 65536, Ends (do
      let tId ← getResponseTid be req
      let sft : Sft := { slave := slave.toNat, function := function.toNat, tId := tId }
      let needed ← neededLength be req reqLength function.toNat
      if reqLength < needed then .ok (responseException be sft exceptionIllegalDataValue true m)
      else replySwitch be sft req reqLength address m ver) (fun _ => True) E := by
    intro address ha
    refine Ends.bind (P := fun _ => True) ?_ fun tId _ _ => (ends_neededLength hl hf).bind
      fun needed _ hh => Ends.ite (fun _ => trivial) fun h => ends_replySwitch hm ha (hh h) hl
    cases be with
    | rtu => exact trivial
    | tcp =>
      exact (ends_rd (hr.mono (by decide))).bind fun _ _ _ =>
        (ends_rd (hr.mono (by decide))).bind fun _ _ _ => trivial
  refine Ends.ite (fun h3 => ?_) fun _ => hrest 0 (by decide)
  exact (ends_rdWord (hl.mono (by omega))).bind fun address _ ha => hrest address ha

end Handlers

end

/-- The server has an answer to every PDU. -/
theorem servePdu_answers (ver : VersionString) {function : UInt8} {data : List UInt8}
    {m : Mapping} (hm : StartsSafe m) :
    ∃ p, servePdu ver (function :: data) m = .ok p ∧ Outcome function m p := by
  set a := rtuAdu 0 (function :: data)
  have hframe : buildReply ver .tcp (a.wrapped .tcp []) (a.wrapped .tcp []).length m =
      (servePdu ver a.pdu m).map (PduReply.wrap .tcp a) :=
    buildReply_wrapped ver a m (show [].length = _ from rfl) (List.cons_ne_nil _ _)
  have hlen : (a.wrapped .tcp []).length = 7 + (data.length + 1) + 0 := a.length_wrapped []
  have hall : Ends (buildReply ver .tcp (a.wrapped .tcp []) (a.wrapped .tcp []).length m)
      (fun _ => True) fun _ => False := by
    refine ends_buildReply hm (Or.inl ?_) (Or.inl (by omega))
    rw [hlen]
    simp only [Backend.headerLength]
    omega
  rw [hframe] at hall
  have hpdu : a.pdu = function :: data := rfl
  rw [hpdu] at hall
  cases hp : servePdu ver (function :: data) m with
  | ok p => exact ⟨p, rfl, (servePdu_outcome ver function data m).result hp⟩
  | error e =>
    rw [hp] at hall
    exact absurd hall id

/-! ### Faults -/

/-- An index outside its table, or an overflow on the way to it. -/
def TableFault : Stop → Prop
  | .cellOutside _ => True
  | .overflow _ => True
  | _ => False

/-- The computation causes no fault, and its result has `P`. -/
abbrev Guarded (x : Run α) (P : α → Prop) : Prop := Ends x P fun e => ¬ TableFault e

theorem tolerant (req : List UInt8) (n : Nat) : Reads (fun e => ¬ TableFault e) req n :=
  Or.inr fun _ h => h

theorem Settles.guarded {x : Run α} (h : Settles x) : Guarded x fun _ => True := by
  refine h.imp (fun _ h => h) fun e he => ?_
  rw [he]
  exact fun h => h

/-- **Safe start addresses keep every access in range.** -/
theorem guarded_modbusReply {os : Os σ} {ver : VersionString} {st : St σ} {req : List UInt8}
    {reqLength : Int} {m : Mapping} (hm : StartsSafe m) :
    Guarded (modbusReply os ver st req reqLength m) fun _ => True := by
  rw [modbusReply_eq]
  refine Ends.ite (fun _ => trivial) fun _ => (ends_rd (tolerant req _)).bind fun slave _ _ => ?_
  refine (ends_buildReply hm (tolerant req _) (tolerant req _)).bind fun reply _ _ => ?_
  have hsend : ∀ st : St σ, Guarded (sendReply os slave reply st) fun _ => True := fun st =>
    Ends.ite (fun _ => trivial) fun _ => (sendMsg_settles os st _).guarded.bind fun _ _ _ => trivial
  refine Ends.ite (fun _ => ?_) fun _ => hsend st
  exact (sleepAndFlush_returns os st).bind fun st' _ _ => hsend st'

/-! ### Unsafe start addresses -/

/-- The guard of a read at address 65535, on a table whose start is not safe. -/
theorem overflow_of_not_startSafe {t : Table α} {nb : Nat} (h : ¬ t.StartSafe nb)
    (hnb : nb ≤ 2000) (g : Int → Bool → Run β) :
    ∃ v, (do
      let mappingAddress ← cint ((65535 : Nat) - t.start.toInt)
      let outside ← rangeOutside mappingAddress nb t.nb
      g mappingAddress outside) = .error (.overflow v) := by
  unfold Table.StartSafe at h
  by_cases hfit : FitsInt ((65535 : Nat) - t.start.toInt)
  · have hover : ¬ FitsInt ((65535 : Nat) - t.start.toInt + nb) := by
      intro hin
      exact absurd hin.2 (by omega)
    refine ⟨(65535 : Nat) - t.start.toInt + nb, ?_⟩
    rw [cint_of_fits hfit, ok_bind, rangeOutside, if_neg (by omega),
      cint_eq_error.mpr ⟨hover, rfl⟩]
    rfl
  · exact ⟨_, by rw [cint_eq_error.mpr ⟨hfit, rfl⟩]; rfl⟩

/-- Two thousand bits at address 65535. -/
def farBits (function : UInt8) : List UInt8 := [function, 0xFF, 0xFF, 0x07, 0xD0]

/-- 125 registers at address 65535. -/
def farRegisters (function : UInt8) : List UInt8 := [function, 0xFF, 0xFF, 0x00, 0x7D]

theorem serveReadBits_overflow (function : UInt8) (isInput : Bool) {m : Mapping}
    (h : ¬ (if isInput then m.inputBits else m.bits).StartSafe maxReadBits) :
    ∃ v, serveReadBits function.toNat (farBits function) m isInput = .error (.overflow v) := by
  have h1 : rdWord (farBits function) 1 = .ok 65535 := rfl
  have h3 : rdWord (farBits function) 3 = .ok 2000 := rfl
  simp only [serveReadBits, h1, h3, ok_bind,
    if_neg (show ¬ (2000 < 1 ∨ maxReadBits < 2000) by decide)]
  exact overflow_of_not_startSafe h (by decide) _

theorem serveReadRegisters_overflow (function : UInt8) (isInput : Bool) {m : Mapping}
    (h : ¬ (if isInput then m.inputRegisters else m.registers).StartSafe maxReadRegisters) :
    ∃ v, serveReadRegisters function.toNat (farRegisters function) m isInput =
      .error (.overflow v) := by
  have h1 : rdWord (farRegisters function) 1 = .ok 65535 := rfl
  have h3 : rdWord (farRegisters function) 3 = .ok 125 := rfl
  simp only [serveReadRegisters, h1, h3, ok_bind,
    if_neg (show ¬ (125 < 1 ∨ maxReadRegisters < 125) by decide)]
  exact overflow_of_not_startSafe h (by decide) _

/-- Where a start is not safe, one of four requests makes the guard overflow. -/
theorem exists_overflow (ver : VersionString) {m : Mapping} (h : ¬ StartsSafe m) :
    ∃ (function : UInt8) (data : List UInt8) (v : Int),
      servePdu ver (function :: data) m = .error (.overflow v) := by
  by_cases hb : m.bits.StartSafe maxReadBits
  swap
  · obtain ⟨v, hv⟩ := serveReadBits_overflow 0x01 false hb
    exact ⟨0x01, [0xFF, 0xFF, 0x07, 0xD0], v, hv⟩
  by_cases hib : m.inputBits.StartSafe maxReadBits
  swap
  · obtain ⟨v, hv⟩ := serveReadBits_overflow 0x02 true hib
    exact ⟨0x02, [0xFF, 0xFF, 0x07, 0xD0], v, hv⟩
  by_cases hr : m.registers.StartSafe maxReadRegisters
  swap
  · obtain ⟨v, hv⟩ := serveReadRegisters_overflow 0x03 false hr
    exact ⟨0x03, [0xFF, 0xFF, 0x00, 0x7D], v, hv⟩
  by_cases hir : m.inputRegisters.StartSafe maxReadRegisters
  swap
  · obtain ⟨v, hv⟩ := serveReadRegisters_overflow 0x04 true hir
    exact ⟨0x04, [0xFF, 0xFF, 0x00, 0x7D], v, hv⟩
  exact absurd ⟨hb, hib, hr, hir⟩ h

/-- A PDU on which the server stops also stops `modbus_reply`. -/
theorem modbusReply_stops {ver : VersionString} {function : UInt8} {data : List UInt8}
    {m : Mapping} {e : Stop} (h : servePdu ver (function :: data) m = .error e) :
    modbusReply (linkOs 1) ver (sampleSt .tcp 255 [])
        ((rtuAdu 1 (function :: data)).wrapped .tcp [])
        ((rtuAdu 1 (function :: data)).wrapped .tcp []).length m = .error e := by
  have hbe : (sampleSt .tcp 255 []).ctx.backend = .tcp := rfl
  have hreply := modbusReply_wrapped (linkOs 1) ver (sampleSt .tcp 255 [])
    (rtuAdu 1 (function :: data)) m (show [].length = _ from rfl) (List.cons_ne_nil _ _)
    (suppressed_tcp _ hbe)
  rw [hbe] at hreply
  rw [hreply]
  show (servePdu ver (function :: data) m >>= _) = _
  rw [h]
  rfl

/-! ### The mappings of the constructor -/

/-- The tables have the start addresses and sizes of `m₀`, and any contents. -/
structure SameTables (m₀ m : Mapping) : Prop where
  bits : m.bits.start = m₀.bits.start ∧ m.bits.nb = m₀.bits.nb
  inputBits : m.inputBits.start = m₀.inputBits.start ∧ m.inputBits.nb = m₀.inputBits.nb
  registers : m.registers.start = m₀.registers.start ∧ m.registers.nb = m₀.registers.nb
  inputRegisters : m.inputRegisters.start = m₀.inputRegisters.start ∧
    m.inputRegisters.nb = m₀.inputRegisters.nb

/-- An `unsigned` start address that stays away from 2^31. -/
def SafeStart (start : UInt32) (nbMax : Nat) : Prop :=
  start.toNat < 2147483648 ∨ 2147483648 + 65536 + nbMax ≤ start.toNat

theorem toInt_toInt32 (u : UInt32) : u.toInt32.toInt =
    if u.toNat < 2147483648 then (u.toNat : Int) else u.toNat - 4294967296 := by
  show u.toBitVec.toInt = _
  rw [BitVec.toInt_eq_toNat_cond]
  have h : u.toBitVec.toNat = u.toNat := rfl
  rw [h]
  split_ifs <;> omega

theorem startSafe_iff {t : Table α} {start : UInt32} {nbMax : Nat} (h : t.start = start.toInt32)
    (hnb : nbMax ≤ 2000) : t.StartSafe nbMax ↔ SafeStart start nbMax := by
  have hlt := start.toNat_lt
  unfold Table.StartSafe SafeStart
  rw [h, toInt_toInt32]
  split_ifs <;> omega

/-- The start addresses of a mapping of the constructor. -/
theorem startsSafe_iff {startBits nbBits startInputBits nbInputBits startRegisters
    nbRegisters startInputRegisters nbInputRegisters : UInt32} {m₀ m : Mapping}
    (h : modbusMappingNewStartAddress startBits nbBits startInputBits nbInputBits startRegisters
      nbRegisters startInputRegisters nbInputRegisters = .ok m₀) (hm : SameTables m₀ m) :
    StartsSafe m ↔ SafeStart startBits maxReadBits ∧ SafeStart startInputBits maxReadBits ∧
      SafeStart startRegisters maxReadRegisters ∧
      SafeStart startInputRegisters maxReadRegisters := by
  unfold modbusMappingNewStartAddress at h
  split at h
  swap
  · cases h
  cases h
  have hb := startSafe_iff hm.bits.1 (show maxReadBits ≤ 2000 by decide)
  have hib := startSafe_iff hm.inputBits.1 (show maxReadBits ≤ 2000 by decide)
  have hr := startSafe_iff hm.registers.1 (show maxReadRegisters ≤ 2000 by decide)
  have hir := startSafe_iff hm.inputRegisters.1 (show maxReadRegisters ≤ 2000 by decide)
  constructor
  · rintro ⟨h1, h2, h3, h4⟩
    exact ⟨hb.mp h1, hib.mp h2, hr.mp h3, hir.mp h4⟩
  · rintro ⟨h1, h2, h3, h4⟩
    exact ⟨hb.mpr h1, hib.mpr h2, hr.mpr h3, hir.mpr h4⟩

/-- **Every access is in range exactly for safe start addresses.**  Of the mappings that the
constructor returns, with any contents, those with these start addresses and no others let every
request, in every state of every system, pass without an index outside a table and without
overflow. -/
theorem table_accesses_in_range_iff {startBits nbBits startInputBits nbInputBits startRegisters
    nbRegisters startInputRegisters nbInputRegisters : UInt32} {m₀ : Mapping}
    (h : modbusMappingNewStartAddress startBits nbBits startInputBits nbInputBits startRegisters
      nbRegisters startInputRegisters nbInputRegisters = .ok m₀) :
    (∀ m, SameTables m₀ m → ∀ {σ : Type} (os : Os σ) (ver : VersionString) (st : St σ)
        (req : List UInt8) (reqLength : Int) (e : Stop),
        modbusReply os ver st req reqLength m = .error e → ¬ TableFault e) ↔
      SafeStart startBits maxReadBits ∧ SafeStart startInputBits maxReadBits ∧
        SafeStart startRegisters maxReadRegisters ∧
        SafeStart startInputRegisters maxReadRegisters := by
  have hsame : SameTables m₀ m₀ := ⟨⟨rfl, rfl⟩, ⟨rfl, rfl⟩, ⟨rfl, rfl⟩, ⟨rfl, rfl⟩⟩
  rw [← startsSafe_iff h hsame]
  constructor
  · intro hall
    by_contra hunsafe
    obtain ⟨function, data, v, hv⟩ := exists_overflow ⟨[], by decide⟩ hunsafe
    exact hall m₀ hsame _ _ _ _ _ _ (modbusReply_stops hv) trivial
  · intro hsafe m hm σ os ver st req reqLength e he
    have hsafe' : StartsSafe m := (startsSafe_iff h hm).mpr ((startsSafe_iff h hsame).mp hsafe)
    exact (guarded_modbusReply hsafe').stop he

/-- Coils from 2^31 on: reading 2000 of them at address 65535 overflows. -/
theorem unsafe_start_2147483648 :
    ∃ m₀ v, modbusMappingNewStartAddress 2147483648 1 0 0 0 0 0 0 = .ok m₀ ∧
      modbusReply (linkOs 1) ⟨[], by decide⟩ (sampleSt .tcp 255 [])
        [0, 0, 0, 0, 0, 0, 1, 0x01, 0xFF, 0xFF, 0x07, 0xD0] 12 m₀ = .error (.overflow v) :=
  ⟨_, _, rfl, rfl⟩

theorem table_accesses_in_range_sample :
    (SafeStart 0 maxReadBits ∧ SafeStart 0 maxReadBits ∧ SafeStart 100 maxReadRegisters ∧
      SafeStart 0 maxReadRegisters) ∧
    ∀ m, SameTables sampleMapping m → ∀ {σ : Type} (os : Os σ) (ver : VersionString)
      (st : St σ) (req : List UInt8) (reqLength : Int) (e : Stop),
      modbusReply os ver st req reqLength m = .error e → ¬ TableFault e := by
  have hsafe : SafeStart 0 maxReadBits ∧ SafeStart 0 maxReadBits ∧ SafeStart 100 maxReadRegisters ∧
      SafeStart 0 maxReadRegisters :=
    ⟨Or.inl (by decide), Or.inl (by decide), Or.inl (by decide), Or.inl (by decide)⟩
  exact ⟨hsafe, (table_accesses_in_range_iff
    (show modbusMappingNewStartAddress 0 4 0 0 100 10 0 0 = .ok sampleMapping from rfl)).mpr hsafe⟩

end Libmodbus
