/-
Libmodbus/Coils.lean

Cells that are not bits.  The application fills `tab_bits` and `tab_input_bits`
itself, with any bytes, and `response_io_status` shifts whole cells into the
byte it builds:

    cell j of a byte          v₇ … v₁ v₀  <<  j

So bit `i` of the response is set by every cell of its byte, at or before `i`,
that reaches it (`Covered`).  All bits say of their own cells whether they are
zero, and those behind the last cell are clear, exactly when no cell reaches a
later one that is zero, or the bits behind the last, and every cell that is not
zero is reached by one, itself or an earlier one (`Separate`).  Then a change of
one cell changes its own bit only.  The client's own packer takes each cell for
one bit, see `packByteLoop`.
-/
import Libmodbus.Reference

namespace Libmodbus

open CSem Wire Posix

variable {σ : Type} {α : Type}

/-! ### Whole cells shifted into a byte -/

/-- What the cells of one byte leave in `one_byte`. -/
def oneByte : List UInt8 → Nat
  | [] => 0
  | v :: vs => v.toNat ||| oneByte vs <<< 1

/-- A cell of the same byte, at or before `i`, has a bit that lands there. -/
def Covered (vs : List UInt8) (i : Nat) : Prop :=
  ∃ j ≤ i, j / 8 = i / 8 ∧ (vs.getD j 0).toNat.testBit (i - j) = true

theorem testBit_oneByte (vs : List UInt8) (i : Nat) :
    (oneByte vs).testBit i = true ↔ ∃ j ≤ i, (vs.getD j 0).toNat.testBit (i - j) = true := by
  induction vs generalizing i with
  | nil =>
    constructor
    · intro h
      rw [oneByte, Nat.zero_testBit] at h
      cases h
    · rintro ⟨j, -, h⟩
      rw [List.getD_nil, show (0 : UInt8).toNat = 0 from rfl, Nat.zero_testBit] at h
      cases h
  | cons v vs ih =>
    rw [oneByte, Nat.testBit_or, Nat.testBit_shiftLeft, Bool.or_eq_true]
    constructor
    · rintro (h | h)
      · exact ⟨0, Nat.zero_le i, h⟩
      · rw [Bool.and_eq_true, decide_eq_true_eq] at h
        obtain ⟨j, hj, hbit⟩ := (ih (i - 1)).mp h.2
        refine ⟨j + 1, by omega, ?_⟩
        rw [show i - (j + 1) = i - 1 - j by omega]
        exact hbit
    · rintro ⟨j, hj, hbit⟩
      cases j with
      | zero => exact Or.inl hbit
      | succ j =>
        refine Or.inr ?_
        rw [Bool.and_eq_true, decide_eq_true_eq]
        refine ⟨by omega, (ih (i - 1)).mpr ⟨j, by omega, ?_⟩⟩
        rw [show i - 1 - j = i - (j + 1) by omega]
        exact hbit

theorem oneByte_concat (vs : List UInt8) (v : UInt8) :
    oneByte vs ||| (v.toNat <<< vs.length) = oneByte (vs ++ [v]) := by
  induction vs with
  | nil =>
    show 0 ||| v.toNat <<< 0 = v.toNat ||| 0 <<< 1
    rw [Nat.zero_or, Nat.zero_shiftLeft, Nat.or_zero, Nat.shiftLeft_zero]
  | cons w vs ih =>
    rw [List.cons_append, oneByte, oneByte, ← ih, List.length_cons, Nat.shiftLeft_or_distrib,
      Nat.or_assoc, Nat.shiftLeft_add]

/-- Bits of the first byte. -/
theorem covered_first {xs vs : List UInt8} {i : Nat} (hi : i < 8)
    (hlen : vs = [] ∨ xs.length = 8) : Covered (xs ++ vs) i ↔ (oneByte xs).testBit i = true := by
  have hsame : ∀ j ≤ i, (xs ++ vs).getD j 0 = xs.getD j 0 := by
    intro j hj
    rcases hlen with rfl | hlen
    · rw [List.append_nil]
    · rw [List.getD, List.getD, List.getElem?_append_left (by omega)]
  rw [testBit_oneByte]
  constructor
  · rintro ⟨j, hj, -, hbit⟩
    rw [hsame j hj] at hbit
    exact ⟨j, hj, hbit⟩
  · rintro ⟨j, hj, hbit⟩
    refine ⟨j, hj, by omega, ?_⟩
    rw [hsame j hj]
    exact hbit

/-- Bits of the other bytes. -/
theorem covered_rest {xs vs : List UInt8} (hlen : xs.length = 8) (i : Nat) :
    Covered (xs ++ vs) (8 + i) ↔ Covered vs i := by
  have hsame : ∀ j, (xs ++ vs).getD (8 + j) 0 = vs.getD j 0 := by
    intro j
    rw [List.getD, List.getD, List.getElem?_append_right (by omega),
      show 8 + j - xs.length = j by omega]
  constructor
  · rintro ⟨j, hj, hbyte, hbit⟩
    obtain ⟨j, rfl⟩ := Nat.exists_eq_add_of_le (show 8 ≤ j by omega)
    rw [hsame, show 8 + i - (8 + j) = i - j by omega] at hbit
    exact ⟨j, by omega, by omega, hbit⟩
  · rintro ⟨j, hj, hbyte, hbit⟩
    refine ⟨8 + j, by omega, by omega, ?_⟩
    rw [hsame, show 8 + i - (8 + j) = i - j by omega]
    exact hbit

/-- Bit `i` of the data of a response. -/
def dataBit (data : List UInt8) (i : Nat) : Bool := (data.getD (i / 8) 0).toNat.testBit (i % 8)

/-- The bits of these bytes are those that the cells reach. -/
structure Smeared (vs : List UInt8) (bytes : List UInt8) : Prop where
  length : bytes.length = (vs.length + 7) / 8
  bit : ∀ i < 8 * bytes.length, dataBit bytes i = true ↔ Covered vs i

/-- A byte keeps the bits that it has. -/
theorem testBit_lo {n i : Nat} (hi : i < 8) : (lo n).toNat.testBit i = n.testBit i := by
  rw [lo_natCast, UInt8.toNat_ofNat', Nat.testBit_mod_two_pow, decide_eq_true hi, Bool.true_and]

theorem Smeared.single {vs : List UInt8} (h0 : vs ≠ []) (h : vs.length ≤ 8) :
    Smeared vs [lo (oneByte vs)] := by
  have hpos := List.length_pos_of_ne_nil h0
  have hlen : (vs.length + 7) / 8 = 1 := by omega
  refine ⟨hlen.symm, fun i hi => ?_⟩
  have h8 : i < 8 := hi
  have hcovered : Covered (vs ++ []) i ↔ (oneByte vs).testBit i = true :=
    covered_first h8 (Or.inl rfl)
  rw [List.append_nil] at hcovered
  rw [hcovered, dataBit, show i / 8 = 0 by omega, show i % 8 = i by omega]
  show (lo (oneByte vs)).toNat.testBit i = true ↔ _
  rw [testBit_lo h8]

theorem Smeared.cons {xs vs bytes : List UInt8} (hlen : xs.length = 8) (h : Smeared vs bytes) :
    Smeared (xs ++ vs) (lo (oneByte xs) :: bytes) := by
  refine ⟨?_, fun i hi => ?_⟩
  · rw [List.length_cons, h.length, List.length_append]
    omega
  · rw [List.length_cons] at hi
    by_cases h8 : i < 8
    · rw [covered_first h8 (Or.inr hlen), dataBit, show i / 8 = 0 by omega,
        show i % 8 = i by omega]
      show (lo (oneByte xs)).toNat.testBit i = true ↔ _
      rw [testBit_lo h8]
    · obtain ⟨i, rfl⟩ := Nat.exists_eq_add_of_le (show 8 ≤ i by omega)
      rw [covered_rest hlen, dataBit, show (8 + i) / 8 = i / 8 + 1 by omega,
        show (8 + i) % 8 = i % 8 by omega]
      exact h.bit i (by omega)

/-- `response_io_status` on any cells, with the cells `pre` already in `one_byte`. -/
theorem ioStatusLoop_smeared {tab rest pre vs : List UInt8} {k : Nat} (hpre : pre.length ≤ 7)
    (h : tab.drop k = vs ++ rest) :
    ∃ bytes, ioStatusLoop tab k vs.length pre.length (oneByte pre) = .ok bytes ∧
      Smeared (pre ++ vs) bytes := by
  induction vs generalizing pre k with
  | nil =>
    rw [List.append_nil]
    cases pre with
    | nil => exact ⟨[], rfl, rfl, fun i hi => absurd hi (Nat.not_lt_zero i)⟩
    | cons v pre =>
      exact ⟨_, rfl, Smeared.single (List.cons_ne_nil v pre) (Nat.le_succ_of_le hpre)⟩
  | cons v vs ih =>
    have hassoc : pre ++ v :: vs = (pre ++ [v]) ++ vs := by
      rw [List.append_assoc]
      rfl
    have hlen : (pre ++ [v]).length = pre.length + 1 := List.length_append
    have hnext := drop_succ_of_drop h
    rw [List.length_cons, ioStatusLoop, cell_of_drop h, ok_bind]
    simp only [oneByte_concat, hassoc]
    by_cases h7 : pre.length = 7
    · -- the byte is full
      have hnil : ([] : List UInt8).length ≤ 7 := Nat.zero_le 7
      obtain ⟨bytes, hloop, hbytes⟩ := ih hnil hnext
      have hfull : ioStatusLoop tab ((k : Int) + 1) vs.length 0 0 = .ok bytes := hloop
      rw [if_pos h7, hfull]
      exact ⟨_, rfl, hbytes.cons (by rw [hlen, h7])⟩
    · rw [if_neg h7, ← hlen]
      exact ih (by omega) hnext

/-! ### Cells that are told apart -/

/-- Every cell is told from zero by its own bit of the byte, and none reaches the padding. -/
structure Separate (vs : List UInt8) : Prop where
  /-- What is not zero is seen, by its lowest bit or because an earlier cell reaches it. -/
  seen : ∀ i < vs.length, vs.getD i 0 ≠ 0 → (vs.getD i 0).toNat.testBit 0 = true ∨
    ∃ j < i, j / 8 = i / 8 ∧ (vs.getD j 0).toNat.testBit (i - j) = true
  /-- What is zero is reached by no earlier cell. -/
  apart : ∀ i < vs.length, vs.getD i 0 = 0 →
    ∀ j < i, j / 8 = i / 8 → (vs.getD j 0).toNat.testBit (i - j) = false
  /-- And so is what is behind the last cell, up to the end of its byte. -/
  clear : ∀ i, vs.length ≤ i → i < 8 * ((vs.length + 7) / 8) →
    ∀ j < vs.length, j / 8 = i / 8 → (vs.getD j 0).toNat.testBit (i - j) = false

theorem getD_of_length_le {vs : List UInt8} {i : Nat} (h : vs.length ≤ i) : vs.getD i 0 = 0 := by
  rw [List.getD, List.getElem?_eq_none h]
  rfl

theorem separate_iff_covered {vs : List UInt8} :
    Separate vs ↔ ∀ i < 8 * ((vs.length + 7) / 8), (Covered vs i ↔ vs.getD i 0 ≠ 0) := by
  have hzero : ∀ k, (0 : UInt8).toNat.testBit k ≠ true := by
    intro k h
    rw [show (0 : UInt8).toNat = 0 from rfl, Nat.zero_testBit] at h
    cases h
  constructor
  · intro h i hi
    constructor
    · rintro ⟨j, hj, hbyte, hbit⟩ h0
      by_cases hin : i < vs.length
      · rcases Nat.lt_or_eq_of_le hj with hlt | rfl
        · rw [h.apart i hin h0 j hlt hbyte] at hbit
          cases hbit
        · rw [h0] at hbit
          exact hzero _ hbit
      · by_cases hjin : j < vs.length
        · rw [h.clear i (Nat.le_of_not_lt hin) hi j hjin hbyte] at hbit
          cases hbit
        · rw [getD_of_length_le (Nat.le_of_not_lt hjin)] at hbit
          exact hzero _ hbit
    · intro hne
      have hin : i < vs.length := by
        by_contra hout
        exact hne (getD_of_length_le (Nat.le_of_not_lt hout))
      rcases h.seen i hin hne with hbit | ⟨j, hj, hbyte, hbit⟩
      · refine ⟨i, Nat.le_refl i, rfl, ?_⟩
        rw [Nat.sub_self]
        exact hbit
      · exact ⟨j, Nat.le_of_lt hj, hbyte, hbit⟩
  · intro h
    refine ⟨fun i hi hne => ?_, fun i hi h0 j hj hbyte => ?_, fun i hout hi j hj hbyte => ?_⟩
    · obtain ⟨j, hj, hbyte, hbit⟩ := (h i (by omega)).mpr hne
      rcases Nat.lt_or_eq_of_le hj with hlt | rfl
      · exact Or.inr ⟨j, hlt, hbyte, hbit⟩
      · rw [Nat.sub_self] at hbit
        exact Or.inl hbit
    · by_contra hbit
      rw [Bool.not_eq_false] at hbit
      exact (h i (by omega)).mp ⟨j, Nat.le_of_lt hj, hbyte, hbit⟩ h0
    · by_contra hbit
      rw [Bool.not_eq_false] at hbit
      exact (h i hi).mp ⟨j, by omega, hbyte, hbit⟩ (getD_of_length_le hout)

/-- Bits are told apart. -/
theorem separate_of_bits {vs : List UInt8} (h : ∀ v ∈ vs, v = 0 ∨ v = 1) : Separate vs := by
  have hget : ∀ i, vs.getD i 0 = 0 ∨ vs.getD i 0 = 1 := by
    intro i
    by_cases hi : i < vs.length
    · rw [List.getD, List.getElem?_eq_getElem hi]
      exact h _ (List.getElem_mem hi)
    · exact Or.inl (getD_of_length_le (Nat.le_of_not_lt hi))
  have hlow : ∀ i j, j < i → (vs.getD j 0).toNat.testBit (i - j) = false := by
    intro i j hj
    have hone : (vs.getD j 0).toNat < 2 ^ 1 := by
      rcases hget j with h | h <;> rw [h] <;> decide
    exact Nat.testBit_lt_two_pow
      (Nat.lt_of_lt_of_le hone (Nat.pow_le_pow_right (by omega) (by omega)))
  refine ⟨fun i _ hne => Or.inl ?_, fun i _ _ j hj _ => hlow i j hj,
    fun i hout _ j hj _ => hlow i j (by omega)⟩
  rw [(hget i).resolve_left hne]
  rfl

/-- Every bit says whether its cell is zero, and a bit without a cell is clear. -/
def ReportsEach (vs data : List UInt8) : Prop :=
  ∀ i < 8 * data.length, dataBit data i = true ↔ i < vs.length ∧ vs.getD i 0 ≠ 0

theorem Smeared.reportsEach_iff {vs data : List UInt8} (h : Smeared vs data) :
    ReportsEach vs data ↔ Separate vs := by
  rw [separate_iff_covered, ← h.length]
  refine forall_congr' fun i => imp_congr_right fun hi => ?_
  have hin : i < vs.length ∧ vs.getD i 0 ≠ 0 ↔ vs.getD i 0 ≠ 0 := by
    refine and_iff_right_of_imp fun hne => ?_
    by_contra hout
    exact hne (getD_of_length_le (Nat.le_of_not_lt hout))
  rw [h.bit i hi, hin]

/-- **A change of one cell changes its own bit only.** -/
theorem ReportsEach.change {vs vs' data data' : List UInt8} (h : ReportsEach vs data)
    (h' : ReportsEach vs' data') (hlen : vs.length = vs'.length)
    (hdata : data.length = data'.length) {j : Nat}
    (hsame : ∀ i, i ≠ j → vs.getD i 0 = vs'.getD i 0) :
    ∀ i, i ≠ j → dataBit data i = dataBit data' i := by
  intro i hi
  by_cases hin : i < 8 * data.length
  · rw [Bool.eq_iff_iff, h i hin, h' i (by omega), hlen, hsame i hi]
  · rw [dataBit, dataBit, getD_of_length_le (by omega), getD_of_length_le (by omega)]

/-! ### modbus_reply -/

/-- The cells that a request addresses. -/
def Table.addressed (t : Table α) (addr nb : Nat) : List α :=
  (t.tab.drop ((addr : Int) - t.start.toInt).toNat).take nb

/-- The table that a request for coils, or for discrete inputs, is about. -/
def Mapping.bitTable (m : Mapping) (isInput : Bool) : Table UInt8 :=
  if isInput then m.inputBits else m.bits

theorem Table.length_addressed {t : Table α} {addr nb : Nat} (h : t.Inside addr nb) :
    (t.addressed addr nb).length = nb := by
  have hlow := h.1
  have hhigh := h.2
  unfold Table.nb at hhigh
  rw [Table.addressed, List.length_take, List.length_drop]
  omega

/-- The handler answers with what the cells leave, whatever stands in them. -/
theorem serveReadBits_smeared (function : Nat) {pdu : List UInt8} (m : Mapping) (isInput : Bool)
    {addr nb : Nat} (h1 : rdWord pdu 1 = .ok addr) (h3 : rdWord pdu 3 = .ok nb)
    (hnb : 1 ≤ nb ∧ nb ≤ maxReadBits) (hin : (m.bitTable isInput).Inside addr nb) :
    ∃ data, serveReadBits function pdu m isInput =
        .ok ⟨lo function :: lo data.length :: data, false, false, m⟩ ∧
      Smeared ((m.bitTable isInput).addressed addr nb) data := by
  set t := m.bitTable isInput with ht
  obtain ⟨k, hk⟩ : ∃ k : Nat, (addr : Int) - t.start.toInt = k :=
    ⟨((addr : Int) - t.start.toInt).toNat, by have := hin.1; omega⟩
  have hfit : k + nb ≤ t.tab.length := by
    have := hin.2
    unfold Table.nb at this
    omega
  have hvs : t.addressed addr nb = (t.tab.drop k).take nb := by
    rw [Table.addressed, hk, Int.toNat_natCast]
  have hlen : ((t.tab.drop k).take nb).length = nb := by
    rw [← hvs, Table.length_addressed hin]
  have hnil : ([] : List UInt8).length ≤ 7 := Nat.zero_le 7
  obtain ⟨data, hloop, hdata⟩ :=
    ioStatusLoop_smeared hnil (List.take_append_drop nb (t.tab.drop k)).symm
  rw [hlen] at hloop
  have hstatus : responseIoStatus t.tab k nb = .ok data := hloop
  have hcount : nb / 8 + (if nb % 8 ≠ 0 then 1 else 0) = data.length := by
    rw [hdata.length, List.nil_append, hlen]
    split_ifs <;> omega
  refine ⟨data, ?_, by rw [hvs]; exact hdata⟩
  simp only [Mapping.bitTable] at ht
  simp only [serveReadBits, h1, h3, ok_bind, ← ht, cint_index hk (show k ≤ t.tab.length by omega),
    if_neg (show ¬ (nb < 1 ∨ maxReadBits < nb) by omega), rangeOutside_fits hfit,
    Bool.false_eq_true, if_false, hstatus, hcount]

/-- **Coils are reported independently of each other iff they are told apart.**  A request for
cells that are there is answered with data of which each bit says whether its cell is zero, and
the bits behind the last cell are clear, if and only if the cells are `Separate`; bits always are
(`separate_of_bits`).  Two contents that both are, and differ in one cell, are answered with data
that differ in the bit of this cell at most. -/
theorem reads_independent_iff (os : Os σ) (ver : VersionString) (st : St σ) (a : Adu)
    {trailer : List UInt8} (isInput : Bool) {addr nb : Nat}
    (ht : trailer.length = st.ctx.backend.checksumLength)
    (hsup : suppressed st.ctx a.unit = false)
    (hpdu : a.pdu = (Request.readBits isInput addr nb).pdu)
    (hvalid : addr ≤ 65535 ∧ 1 ≤ nb ∧ nb ≤ maxReadBits) :
    ∃ data : Mapping → List UInt8,
      (∀ m : Mapping, (m.bitTable isInput).Inside addr nb →
        modbusReply os ver st (a.wrapped st.ctx.backend trailer)
            ((a.wrapped st.ctx.backend trailer).length : Nat) m =
          PduReply.send os st a
            ⟨(Request.readBits isInput addr nb).function :: lo (data m).length :: data m,
              false, false, m⟩ ∧
        (data m).length = (nb + 7) / 8 ∧
        (ReportsEach ((m.bitTable isInput).addressed addr nb) (data m) ↔
          Separate ((m.bitTable isInput).addressed addr nb))) ∧
      ∀ (m m' : Mapping) (j : Nat), (m.bitTable isInput).Inside addr nb →
        (m'.bitTable isInput).Inside addr nb →
        Separate ((m.bitTable isInput).addressed addr nb) →
        Separate ((m'.bitTable isInput).addressed addr nb) →
        (∀ i, i ≠ j → ((m.bitTable isInput).addressed addr nb).getD i 0 =
          ((m'.bitTable isInput).addressed addr nb).getD i 0) →
        ∀ i, i ≠ j → dataBit (data m) i = dataBit (data m') i := by
  have hr : (Request.readBits isInput addr nb).Valid := hvalid
  have hmax : nb ≤ 2000 := hvalid.2.2
  have h1 : rdWord a.pdu 1 = .ok addr := by
    rw [hpdu]
    exact rdWord_field (show List.drop 1 _ = hi addr :: lo addr :: _ from rfl) hvalid.1
  have h3 : rdWord a.pdu 3 = .ok nb := by
    rw [hpdu]
    exact rdWord_field (show List.drop 3 _ = hi nb :: lo nb :: _ from rfl) (by omega)
  have hne : a.pdu ≠ [] := by
    rw [hpdu]
    exact List.cons_ne_nil _ _
  have hanswer : ∀ m : Mapping, (m.bitTable isInput).Inside addr nb → ∃ data : List UInt8,
      modbusReply os ver st (a.wrapped st.ctx.backend trailer)
          ((a.wrapped st.ctx.backend trailer).length : Nat) m =
        PduReply.send os st a
          ⟨(Request.readBits isInput addr nb).function :: lo data.length :: data, false, false, m⟩ ∧
      Smeared ((m.bitTable isInput).addressed addr nb) data := by
    intro m hin
    obtain ⟨data, hserve, hdata⟩ := serveReadBits_smeared
      (Request.readBits isInput addr nb).function.toNat m isInput h1 h3 hvalid.2 hin
    have hswitch : servePdu ver a.pdu m =
        serveReadBits (Request.readBits isInput addr nb).function.toNat a.pdu m isInput := by
      rw [hpdu, Request.pdu, servePdu_framed (Request.framed hr)]
      cases isInput <;> rfl
    refine ⟨data, ?_, hdata⟩
    rw [modbusReply_wrapped os ver st a m ht hne hsup, hswitch, hserve, ok_bind, lo_toNat]
  choose! data hreply hsmeared using hanswer
  have hlen : ∀ m : Mapping, (m.bitTable isInput).Inside addr nb →
      (data m).length = (nb + 7) / 8 := fun m hin => by
    rw [(hsmeared m hin).length, Table.length_addressed hin]
  refine ⟨data, fun m hin => ⟨hreply m hin, hlen m hin, (hsmeared m hin).reportsEach_iff⟩, ?_⟩
  intro m m' j hin hin' hsep hsep' hsame
  exact ((hsmeared m hin).reportsEach_iff.mpr hsep).change
    ((hsmeared m' hin').reportsEach_iff.mpr hsep')
    ((Table.length_addressed hin).trans (Table.length_addressed hin').symm)
    ((hlen m hin).trans (hlen m' hin').symm) hsame

/-- The coils 3, 0, 4 from address 0 on. -/
def smearedMapping : Mapping :=
  { sampleMapping with bits := ⟨0, [3, 0, 4], by decide⟩ }

/-- The coil at 1 is set, the others are clear. -/
def oneCoilMapping : Mapping :=
  { sampleMapping with bits := ⟨0, [0, 1, 0], by decide⟩ }

/-- And one in which they are all clear. -/
def noCoilMapping : Mapping :=
  { sampleMapping with bits := ⟨0, [0, 0, 0], by decide⟩ }

theorem reads_independent_iff_sample :
    ∃ data : Mapping → List UInt8,
      (modbusReply (linkOs 1) ⟨[], by decide⟩ (sampleSt .tcp 17 [])
          [0, 7, 0, 0, 0, 6, 17, 0x01, 0, 0, 0, 3] 12 smearedMapping =
        PduReply.send (linkOs 1) (sampleSt .tcp 17 []) ⟨7, 0, 6, 17, [0x01, 0, 0, 0, 3]⟩
          ⟨0x01 :: lo (data smearedMapping).length :: data smearedMapping, false, false,
            smearedMapping⟩ ∧
      (data smearedMapping).length = (3 + 7) / 8 ∧
      (ReportsEach (smearedMapping.bits.addressed 0 3) (data smearedMapping) ↔
        Separate (smearedMapping.bits.addressed 0 3))) ∧
      ∀ i, i ≠ 1 → dataBit (data oneCoilMapping) i = dataBit (data noCoilMapping) i := by
  obtain ⟨data, hanswer, hchange⟩ := reads_independent_iff (linkOs 1) ⟨[], by decide⟩
    (sampleSt .tcp 17 []) ⟨7, 0, 6, 17, [0x01, 0, 0, 0, 3]⟩ false
    (show ([] : List UInt8).length = _ from rfl) rfl
    (show _ = (Request.readBits false 0 3).pdu from rfl) ⟨by decide, by decide, by decide⟩
  have hone : Separate (oneCoilMapping.bits.addressed 0 3) :=
    separate_of_bits (show ∀ v ∈ ([0, 1, 0] : List UInt8), v = 0 ∨ v = 1 by simp)
  have hnone : Separate (noCoilMapping.bits.addressed 0 3) :=
    separate_of_bits (show ∀ v ∈ ([0, 0, 0] : List UInt8), v = 0 ∨ v = 1 by simp)
  refine ⟨data, hanswer smearedMapping (by decide),
    hchange oneCoilMapping noCoilMapping 1 (by decide) (by decide) hone hnone fun i hi => ?_⟩
  rcases i with - | - | - | i
  · rfl
  · exact absurd rfl hi
  · rfl
  · rfl

/-- The coil that is zero is reported set, and the last one, which is not zero, is reported
clear. -/
theorem reads_smeared :
    smearedMapping.bits.tab = [3, 0, 4] ∧
    (modbusReply (recordOs (linkOs 1)) ⟨[], by decide⟩ (recordedSt .tcp 17)
        [0, 7, 0, 0, 0, 6, 17, 0x01, 0, 0, 0, 3] 12 smearedMapping).map
      (fun r => r.2.2.os.sent) = .ok [[0, 7, 0, 0, 0, 4, 17, 0x01, 1, 0x13]] ∧
    (0x13 : UInt8).toNat.testBit 1 = true ∧ (0x13 : UInt8).toNat.testBit 2 = false := by
  decide +kernel

end Libmodbus
