/-
Libmodbus/Compounds.lean

Requests that are made of others.

    WRITE_MULTIPLE_COILS        one WRITE_SINGLE_COIL for each value
    WRITE_MULTIPLE_REGISTERS    one WRITE_SINGLE_REGISTER for each value
    MASK_WRITE_REGISTER         WRITE_SINGLE_REGISTER of the masked value
    WRITE_AND_READ_REGISTERS    WRITE_MULTIPLE_REGISTERS, then
                                READ_HOLDING_REGISTERS

What is written to a table is `Written`; writing values one after the other
writes them all (`Table.Written.tail`), and one induction on the values makes
the sequence of single requests for both kinds of tables (`sequence_written`).
A mapping may have cells beyond address 65535.  A multiple write that begins
below reaches them, and no single write can name them, so the multiple writes
are taken as far as their last address is one.
-/
import Libmodbus.Coils
import Libmodbus.Plans
import Libmodbus.Relays

namespace Libmodbus

open CSem Wire Posix

variable {σ τ : Type} {α β : Type} {ver : VersionString} {m m' : Mapping}

/-! ### Requests that are answered normally -/

/-- `modbus_reply` answers the request PDU with the response PDU `rsp`, which is no exception, and
leaves the mapping `m'`: on every system, in the envelope of either backend. -/
def Serves (ver : VersionString) (pdu : List UInt8) (m : Mapping) (rsp : List UInt8)
    (m' : Mapping) : Prop :=
  rsp.head? = pdu.head? ∧
    ∀ {σ : Type} (os : Os σ) (st : St σ) (a : Adu) (trailer : List UInt8), a.pdu = pdu →
      trailer.length = st.ctx.backend.checksumLength → suppressed st.ctx a.unit = false →
      ∃ echo flush, modbusReply os ver st (a.wrapped st.ctx.backend trailer)
        ((a.wrapped st.ctx.backend trailer).length : Nat) m =
          PduReply.send os st a ⟨rsp, echo, flush, m'⟩

theorem serves_of_servePdu {pdu : List UInt8} {p : PduReply} (hne : pdu ≠ [])
    (h : servePdu ver pdu m = .ok p) (hnormal : p.pdu.head? = pdu.head?) :
    Serves ver pdu m p.pdu p.mapping := by
  refine ⟨hnormal, fun os st a trailer ha ht hsup => ⟨p.echo, p.flush, ?_⟩⟩
  subst ha
  rw [modbusReply_wrapped os ver st a m ht hne hsup, h]
  rfl

/-- The requests one after another, each answered normally. -/
inductive Sequence (ver : VersionString) : List (List UInt8) → Mapping → Mapping → Prop
  | nil (m : Mapping) : Sequence ver [] m m
  | cons {pdu rsp : List UInt8} {pdus : List (List UInt8)} {m m₁ m₂ : Mapping}
      (h : Serves ver pdu m rsp m₁) (hs : Sequence ver pdus m₁ m₂) :
      Sequence ver (pdu :: pdus) m m₂

/-- A table that single requests write is written by a sequence of them. -/
theorem sequence_written (get : Mapping → Table α) (set : Mapping → Table α → Mapping)
    (cell : β → α) {request : Nat → β → List UInt8} (hget : ∀ m t, get (set m t) = t)
    (hset : ∀ m t t', set (set m t) t' = set m t') (hself : ∀ m, set m (get m) = m)
    (hone : ∀ {m : Mapping} {addr k : Nat} {v : β} {t' : Table α}, addr ≤ 65535 →
      (addr : Int) - (get m).start.toInt = k → k < (get m).tab.length →
      (get m).Written k [cell v] t' → ∃ rsp, Serves ver (request addr v) m rsp (set m t'))
    {values : List β} {addr k : Nat} {t' : Table α}
    (hindex : (addr : Int) - (get m).start.toInt = k)
    (hfit : k + values.length ≤ (get m).tab.length) (haddr : addr + values.length ≤ 65536)
    (hw : (get m).Written k (values.map cell) t') :
    Sequence ver (values.mapIdx fun i v => request (addr + i) v) m (set m t') := by
  induction values generalizing m addr k with
  | nil =>
    rw [hw.nothing, hself]
    exact .nil m
  | cons v values ih =>
    rw [List.length_cons] at hfit haddr
    have hone' : k + [cell v].length ≤ (get m).tab.length := by
      rw [List.length_singleton]
      omega
    obtain ⟨t₁, h₁⟩ := Table.exists_written hone'
    obtain ⟨rsp, hserves⟩ := hone (show addr ≤ 65535 by omega) hindex (by omega) h₁
    -- what is left to write, in the table that one write leaves
    have hrest : (get (set m t₁)).Written (k + 1) (values.map cell) t' := by
      rw [hget]
      refine Table.Written.tail hw h₁ ?_
      rw [List.length_cons, List.length_map]
      omega
    have hlen := h₁.length hone'
    have hindex' : ((addr + 1 : Nat) : Int) - (get (set m t₁)).start.toInt = (k + 1 : Nat) := by
      rw [hget, h₁.start]
      omega
    have hfit' : k + 1 + values.length ≤ (get (set m t₁)).tab.length := by
      rw [hget]
      omega
    have hnext := ih hindex' hfit' (by omega) hrest
    rw [hset] at hnext
    have hshift : ((v :: values).mapIdx fun i v => request (addr + i) v) =
        request addr v :: values.mapIdx fun i v => request (addr + 1 + i) v := by
      rw [List.mapIdx_cons, Nat.add_zero]
      congr 2
      funext i w
      rw [show addr + (i + 1) = addr + 1 + i by omega]
    rw [hshift]
    exact .cons hserves hnext

/-! ### The requests that others are made of -/

section Elementary

variable {addr k : Nat}

/-- A valid request goes to its handler. -/
theorem serves_of_handler {r : Request} {handler : Run PduReply} {p : PduReply} (hr : r.Valid)
    (hswitch : serveSwitch r.function.toNat r.pdu m ver = handler) (hok : handler = .ok p)
    (hnormal : p.pdu.head? = some r.function) : Serves ver r.pdu m p.pdu p.mapping := by
  have hpdu : servePdu ver r.pdu m = .ok p := by
    rw [Request.pdu, servePdu_framed (Request.framed hr)]
    exact hswitch.trans hok
  exact serves_of_servePdu (List.cons_ne_nil _ _) hpdu hnormal

theorem serves_writeBit {status : Bool} {t' : Table UInt8} (ha : addr ≤ 65535)
    (hindex : (addr : Int) - m.bits.start.toInt = k) (hk : k < m.bits.tab.length)
    (hw : m.bits.Written k [bitByte status] t') :
    ∃ rsp, Serves ver (Request.writeBit addr status).pdu m rsp { m with bits := t' } := by
  have hr : (Request.writeBit addr status).Valid := ha
  exact ⟨_, serves_of_handler hr rfl (serveWriteSingleCoil_fits hr hindex hk hw) rfl⟩

theorem serves_writeRegister {value : UInt16} {t' : Table UInt16} (ha : addr ≤ 65535)
    (hindex : (addr : Int) - m.registers.start.toInt = k) (hk : k < m.registers.tab.length)
    (hw : m.registers.Written k [value] t') :
    ∃ rsp, Serves ver (Request.writeRegister addr value).pdu m rsp { m with registers := t' } := by
  have hr : (Request.writeRegister addr value).Valid := ha
  exact ⟨_, serves_of_handler hr rfl (serveWriteSingleRegister_fits hr hindex hk hw) rfl⟩

theorem serves_writeRegisters {values : List UInt16} {t' : Table UInt16}
    (hr : (Request.writeRegisters addr values).Valid)
    (hindex : (addr : Int) - m.registers.start.toInt = k)
    (hfit : k + values.length ≤ m.registers.tab.length) (hw : m.registers.Written k values t') :
    ∃ rsp, Serves ver (Request.writeRegisters addr values).pdu m rsp
      { m with registers := t' } :=
  ⟨_, serves_of_handler hr rfl (serveWriteMultipleRegisters_fits hr hindex hfit hw) rfl⟩

theorem serves_readRegisters {values rest : List UInt16}
    (hr : (Request.readRegisters false addr values.length).Valid)
    (hindex : (addr : Int) - m.registers.start.toInt = k)
    (hfound : m.registers.tab.drop k = values ++ rest) :
    Serves ver (Request.readRegisters false addr values.length).pdu m
      (0x03 :: lo (bigEndian values).length :: bigEndian values) m :=
  serves_of_handler hr rfl (serveReadRegisters_fits false hr hindex hfound) rfl

end Elementary

/-! ### What a request that is answered normally has done -/

section Inversion

variable {pdu : List UInt8} {function : UInt8} {p : PduReply}

theorem exceptionPdu_not_normal {code : Nat} {toFlush : Bool} :
    (exceptionPdu function.toNat code toFlush m).pdu.head? ≠ some function := by
  intro h
  have hbyte : lo (function.toNat + 0x80 : Nat) = function := Option.some.inj h
  have hmod := toNat_lo (function.toNat + 0x80 : Nat)
  have hlt := function.toNat_lt
  rw [hbyte] at hmod
  omega

theorem wordAt_of_rdWord {i n : Nat} (h : rdWord pdu i = .ok n) : wordAt pdu i = n := by
  obtain ⟨hb, hh, h⟩ := bind_eq_ok.mp h
  obtain ⟨lb, hl, h⟩ := bind_eq_ok.mp h
  cases h
  rw [wordAt, List.getD, List.getD, rd_eq_ok.mp hh, rd_eq_ok.mp hl]
  rfl

/-- Only the switch answers normally. -/
theorem serveSwitch_of_normal (hf : rd pdu 0 = .ok function) (h : servePdu ver pdu m = .ok p)
    (hnormal : p.pdu.head? = some function) :
    Complete pdu ∧ serveSwitch function.toNat pdu m ver = .ok p := by
  rw [servePdu, hf, ok_bind] at h
  split_ifs at h with hc
  · exact ⟨hc, h⟩
  · cases h
    exact absurd hnormal exceptionPdu_not_normal

/-- The index of an address, and the range that passes the check. -/
theorem index_of_rangeOutside {t : Table α} {addr nb : Nat} {mappingAddress : Int}
    (hcint : cint ((addr : Nat) - t.start.toInt) = .ok mappingAddress)
    (hrange : rangeOutside mappingAddress nb t.nb = .ok false) :
    ∃ k : Nat, mappingAddress = k ∧ (addr : Int) - t.start.toInt = k ∧ k + nb ≤ t.tab.length := by
  obtain ⟨-, rfl⟩ := cint_eq_ok.mp hcint
  obtain ⟨k, hk, hfit⟩ := rangeOutside_false hrange
  exact ⟨k, hk, hk, hfit⟩

theorem written_of_writeMultipleCoils (hc : Complete pdu) (hf : rd pdu 0 = .ok 0x0F)
    (h : serveWriteMultipleCoils (0x0F : UInt8).toNat pdu m = .ok p)
    (hnormal : p.pdu.head? = some 0x0F) :
    ∃ (k : Nat) (t' : Table _), (wordAt pdu 1 : Int) - m.bits.start.toInt = k ∧
      k + wordAt pdu 3 ≤ m.bits.tab.length ∧
      m.bits.Written k ((unpackBits (wordAt pdu 3) (pdu.drop 6)).map bitByte) t' ∧
      p.mapping = { m with bits := t' } := by
  obtain ⟨-, hdata⟩ := hc.spec hf
  obtain ⟨addr, h1, h⟩ := bind_eq_ok.mp h
  obtain ⟨nb, h3, h⟩ := bind_eq_ok.mp h
  obtain ⟨nbBits, h5, h⟩ := bind_eq_ok.mp h
  obtain ⟨mappingAddress, hcint, h⟩ := bind_eq_ok.mp h
  have hbytes := hdata 5 rfl nbBits h5
  rw [wordAt_of_rdWord h1, wordAt_of_rdWord h3]
  split_ifs at h with hnb
  · cases h
    exact absurd hnormal exceptionPdu_not_normal
  obtain ⟨outside, hrange, h⟩ := bind_eq_ok.mp h
  cases outside with
  | true =>
    cases h
    exact absurd hnormal exceptionPdu_not_normal
  | false =>
    obtain ⟨k, rfl, hindex, hfit⟩ := index_of_rangeOutside hcint hrange
    rw [if_neg Bool.false_ne_true] at h
    obtain ⟨bits, hbits, h⟩ := bind_eq_ok.mp h
    obtain ⟨echo, -, h⟩ := bind_eq_ok.mp h
    cases h
    have hvalues : nb ≤ (pdu.drop 6).length * 8 := by
      rw [List.length_drop]
      omega
    have hset := modbusSetBitsFromBytes_splice (bitsAt_unpackBits rfl hvalues)
      (show k + (unpackBits nb (pdu.drop 6)).length ≤ m.bits.tab.length by
        rw [length_unpackBits]
        exact hfit)
    rw [length_unpackBits] at hset
    exact ⟨k, bits, hindex, hfit,
      Table.written_of_modify length_modbusSetBitsFromBytes hbits hset, rfl⟩

/-- The values behind a byte count. -/
theorem bigEndian_values {nb i : Nat} (h : i + 2 * nb ≤ pdu.length) :
    (words ((pdu.drop i).take (2 * nb))).length = nb ∧
      pdu.drop i = bigEndian (words ((pdu.drop i).take (2 * nb))) ++ (pdu.drop i).drop (2 * nb) := by
  have hlen : ((pdu.drop i).take (2 * nb)).length = 2 * nb := by
    rw [List.length_take, List.length_drop]
    omega
  refine ⟨?_, ?_⟩
  · rw [length_words, hlen]
    omega
  · rw [bigEndian_words (by omega), List.take_append_drop]

theorem written_of_writeMultipleRegisters (hc : Complete pdu) (hf : rd pdu 0 = .ok 0x10)
    (h : serveWriteMultipleRegisters (0x10 : UInt8).toNat pdu m = .ok p)
    (hnormal : p.pdu.head? = some 0x10) :
    ∃ (k : Nat) (t' : Table _), (wordAt pdu 1 : Int) - m.registers.start.toInt = k ∧
      k + wordAt pdu 3 ≤ m.registers.tab.length ∧
      (words ((pdu.drop 6).take (2 * wordAt pdu 3))).length = wordAt pdu 3 ∧
      m.registers.Written k (words ((pdu.drop 6).take (2 * wordAt pdu 3))) t' ∧
      p.mapping = { m with registers := t' } := by
  obtain ⟨-, hdata⟩ := hc.spec hf
  obtain ⟨addr, h1, h⟩ := bind_eq_ok.mp h
  obtain ⟨nb, h3, h⟩ := bind_eq_ok.mp h
  obtain ⟨nbBytes, h5, h⟩ := bind_eq_ok.mp h
  obtain ⟨mappingAddress, hcint, h⟩ := bind_eq_ok.mp h
  have hbytes := hdata 5 rfl nbBytes h5
  rw [wordAt_of_rdWord h1, wordAt_of_rdWord h3]
  split_ifs at h with hnb
  · cases h
    exact absurd hnormal exceptionPdu_not_normal
  obtain ⟨outside, hrange, h⟩ := bind_eq_ok.mp h
  cases outside with
  | true =>
    cases h
    exact absurd hnormal exceptionPdu_not_normal
  | false =>
    obtain ⟨k, rfl, hindex, hfit⟩ := index_of_rangeOutside hcint hrange
    rw [if_neg Bool.false_ne_true] at h
    obtain ⟨registers, hregisters, h⟩ := bind_eq_ok.mp h
    obtain ⟨echo, -, h⟩ := bind_eq_ok.mp h
    cases h
    obtain ⟨hlen, hvalues⟩ := bigEndian_values (show 6 + 2 * nb ≤ pdu.length by omega)
    have hset := writeRegisters_all (show k + _ ≤ m.registers.tab.length by omega) hvalues
    rw [hlen] at hset
    exact ⟨k, registers, hindex, hfit, hlen,
      Table.written_of_modify length_writeRegisters hregisters hset, rfl⟩

theorem written_of_maskWriteRegister
    (h : serveMaskWriteRegister (0x16 : UInt8).toNat pdu m = .ok p)
    (hnormal : p.pdu.head? = some 0x16) :
    ∃ (k : Nat) (v : UInt16) (t' : Table UInt16), (wordAt pdu 1 : Int) - m.registers.start.toInt = k ∧
      k < m.registers.tab.length ∧ m.registers.addressed (wordAt pdu 1) 1 = [v] ∧
      m.registers.Written k [(v &&& UInt16.ofNat (wordAt pdu 3)) |||
        (UInt16.ofNat (wordAt pdu 5) &&& ~~~UInt16.ofNat (wordAt pdu 3))] t' ∧
      p.mapping = { m with registers := t' } := by
  obtain ⟨addr, h1, h⟩ := bind_eq_ok.mp h
  obtain ⟨mappingAddress, hcint, h⟩ := bind_eq_ok.mp h
  obtain ⟨-, rfl⟩ := cint_eq_ok.mp hcint
  by_cases hrange : (addr : Int) - m.registers.start.toInt < 0 ∨
      (m.registers.nb : Int) ≤ (addr : Int) - m.registers.start.toInt
  · -- exceptions do not begin with the function
    rw [if_pos hrange] at h
    cases h
    exact absurd hnormal exceptionPdu_not_normal
  rw [if_neg hrange] at h
  obtain ⟨andMask, h3, h⟩ := bind_eq_ok.mp h
  obtain ⟨orMask, h5, h⟩ := bind_eq_ok.mp h
  rw [wordAt_of_rdWord h1, wordAt_of_rdWord h3, wordAt_of_rdWord h5]
  by_cases hseven : pdu.length ≠ 7
  · rw [if_pos hseven] at h
    cases h
    exact absurd hnormal exceptionPdu_not_normal
  rw [if_neg hseven] at h
  obtain ⟨k, hindex⟩ : ∃ k : Nat, (addr : Int) - m.registers.start.toInt = k :=
    ⟨((addr : Int) - m.registers.start.toInt).toNat, by omega⟩
  have hk : k < m.registers.tab.length := by
    unfold Table.nb at hrange
    omega
  rw [hindex] at h
  obtain ⟨v, hv, h⟩ := bind_eq_ok.mp h
  obtain ⟨registers, hregisters, h⟩ := bind_eq_ok.mp h
  cases h
  rw [cell_of_lt hk] at hv
  have haddressed : m.registers.addressed addr 1 = [v] := by
    rw [Table.addressed, hindex, Int.toNat_natCast, List.drop_eq_getElem_cons hk,
      Except.ok.inj hv]
    rfl
  exact ⟨k, v, registers, hindex, hk, haddressed,
    Table.written_of_modify length_of_setCell hregisters (setCell_one hk _), rfl⟩

theorem written_of_writeAndReadRegisters (hc : Complete pdu) (hf : rd pdu 0 = .ok 0x17)
    (h : serveWriteAndReadRegisters (0x17 : UInt8).toNat pdu m = .ok p)
    (hnormal : p.pdu.head? = some 0x17) :
    ∃ (k k' : Nat) (t' : Table UInt16) (data : List UInt16),
      (wordAt pdu 1 : Int) - m.registers.start.toInt = k ∧
      (1 ≤ wordAt pdu 3 ∧ wordAt pdu 3 ≤ maxWrReadRegisters) ∧
      (wordAt pdu 5 : Int) - m.registers.start.toInt = k' ∧
      (1 ≤ wordAt pdu 7 ∧ wordAt pdu 7 ≤ maxWrWriteRegisters) ∧
      k' + wordAt pdu 7 ≤ m.registers.tab.length ∧
      (words ((pdu.drop 10).take (2 * wordAt pdu 7))).length = wordAt pdu 7 ∧
      m.registers.Written k' (words ((pdu.drop 10).take (2 * wordAt pdu 7))) t' ∧
      p.mapping = { m with registers := t' } ∧ data.length = wordAt pdu 3 ∧
      (∃ rest, t'.tab.drop k = data ++ rest) ∧
      p.pdu = 0x17 :: lo (bigEndian data).length :: bigEndian data := by
  obtain ⟨-, hdata⟩ := hc.spec hf
  obtain ⟨addr, h1, h⟩ := bind_eq_ok.mp h
  obtain ⟨nb, h3, h⟩ := bind_eq_ok.mp h
  obtain ⟨addrWrite, h5, h⟩ := bind_eq_ok.mp h
  obtain ⟨nbWrite, h7, h⟩ := bind_eq_ok.mp h
  obtain ⟨nbWriteBytes, h9, h⟩ := bind_eq_ok.mp h
  obtain ⟨mappingAddress, hcint, h⟩ := bind_eq_ok.mp h
  obtain ⟨mappingAddressWrite, hcint', h⟩ := bind_eq_ok.mp h
  have hbytes := hdata 9 rfl nbWriteBytes h9
  rw [wordAt_of_rdWord h1, wordAt_of_rdWord h3, wordAt_of_rdWord h5, wordAt_of_rdWord h7]
  split_ifs at h with hnb
  · cases h
    exact absurd hnormal exceptionPdu_not_normal
  obtain ⟨outside, hrange, h⟩ := bind_eq_ok.mp h
  cases outside with
  | true =>
    cases h
    exact absurd hnormal exceptionPdu_not_normal
  | false =>
    obtain ⟨k, rfl, hindex, hfit⟩ := index_of_rangeOutside hcint hrange
    rw [if_neg Bool.false_ne_true] at h
    obtain ⟨outside, hrange', h⟩ := bind_eq_ok.mp h
    cases outside with
    | true =>
      cases h
      exact absurd hnormal exceptionPdu_not_normal
    | false =>
      obtain ⟨k', rfl, hindex', hfit'⟩ := index_of_rangeOutside hcint' hrange'
      rw [if_neg Bool.false_ne_true] at h
      obtain ⟨registers, hregisters, h⟩ := bind_eq_ok.mp h
      obtain ⟨values, hvalues, h⟩ := bind_eq_ok.mp h
      cases h
      obtain ⟨hlen, hwritten⟩ := bigEndian_values (show 10 + 2 * nbWrite ≤ pdu.length by omega)
      have hset := writeRegisters_all (show k' + _ ≤ m.registers.tab.length by omega) hwritten
      rw [hlen] at hset
      have hw := Table.written_of_modify length_writeRegisters hregisters hset
      have hfit'' : k + nb ≤ registers.tab.length := by
        rw [hw.length (by omega)]
        exact hfit
      -- what is read stands in the table after the write
      have hread : registers.tab.drop k =
          (registers.tab.drop k).take nb ++ (registers.tab.drop k).drop nb :=
        (List.take_append_drop nb _).symm
      have hdatalen : ((registers.tab.drop k).take nb).length = nb := by
        rw [List.length_take, List.length_drop]
        omega
      have hbig := readRegisters_bigEndian hread
      rw [hdatalen] at hbig
      cases hbig.symm.trans hvalues
      refine ⟨k, k', registers, (registers.tab.drop k).take nb, hindex, by omega, hindex', by omega,
        hfit', hlen, hw, rfl, hdatalen, ⟨_, hread⟩, ?_⟩
      rw [length_bigEndian, hdatalen]
      rfl

end Inversion

/-! ### Compound requests -/

/-- A run that has handed over the response `b`, which is no exception, is that of the PDU. -/
theorem servePdu_of_handed {os : Os σ} {st st' : St (Recorded σ)} {a b : Adu}
    {trailer : List UInt8} {rc : Int} {fc : UInt8}
    (ht : trailer.length = st.ctx.backend.checksumLength)
    (hsup : suppressed st.ctx a.unit = false)
    (hrun : modbusReply (recordOs os) ver st (a.wrapped st.ctx.backend trailer)
      ((a.wrapped st.ctx.backend trailer).length : Nat) m = .ok (rc, m', st'))
    (hsent : Handed st.ctx (b.bytes st.ctx.backend) st.os st'.os) (hfc : a.pdu.head? = some fc) :
    ∃ p, servePdu ver a.pdu m = .ok p ∧ p.mapping = m' ∧ p.pdu = b.pdu := by
  have hne : a.pdu ≠ [] := by
    rintro hnil
    rw [hnil] at hfc
    cases hfc
  have hwrapped := modbusReply_wrapped (recordOs os) ver st a m ht hne hsup
  rw [hrun] at hwrapped
  obtain ⟨p, hp, -⟩ := bind_eq_ok.mp hwrapped.symm
  have hroom : ((st.ctx.backend.headerLength + 1 : Nat) : Int) ≤
      ((a.wrapped st.ctx.backend trailer).length : Nat) := by
    have := List.length_pos_of_ne_nil hne
    rw [Adu.length_wrapped]
    omega
  have hreply := buildReply_wrapped ver a m ht hne
  rw [hp] at hreply
  obtain ⟨hm, hhanded⟩ := (modbusReply_answers os ver (a.rd_wrapped_unit trailer) hroom hsup
    hreply).result hrun
  have hframe := hhanded.unique hsent
  rw [sendMsgPre_wrap] at hframe
  have hpdu : b.pdu = (p.adu a).pdu := by
    rw [← pdu_of_bytes b, ← hframe, pdu_of_bytes]
  exact ⟨p, hp, hm.symm, hpdu.symm⟩

/-- **Compound requests equal their elementary ones**, with the multiple writes as far as every
address they write is one. -/
theorem compound_eq_elementary (os : Os σ) (st : St (Recorded σ)) (a b : Adu)
    (trailer : List UInt8) {rc : Int} {st' : St (Recorded σ)}
    (ht : trailer.length = st.ctx.backend.checksumLength)
    (hsup : suppressed st.ctx a.unit = false)
    (hrun : modbusReply (recordOs os) ver st (a.wrapped st.ctx.backend trailer)
      ((a.wrapped st.ctx.backend trailer).length : Nat) m = .ok (rc, m', st'))
    (hsent : Handed st.ctx (b.bytes st.ctx.backend) st.os st'.os)
    (hnormal : b.pdu.head? = a.pdu.head?) :
    (a.pdu.head? = some 0x0F → wordAt a.pdu 1 + wordAt a.pdu 3 ≤ 65536 →
      Sequence ver ((unpackBits (wordAt a.pdu 3) (a.pdu.drop 6)).mapIdx fun i status =>
        (Request.writeBit (wordAt a.pdu 1 + i) status).pdu) m m') ∧
    (a.pdu.head? = some 0x10 → wordAt a.pdu 1 + wordAt a.pdu 3 ≤ 65536 →
      Sequence ver ((words ((a.pdu.drop 6).take (2 * wordAt a.pdu 3))).mapIdx fun i value =>
        (Request.writeRegister (wordAt a.pdu 1 + i) value).pdu) m m') ∧
    (a.pdu.head? = some 0x16 → ∃ v rsp, m.registers.addressed (wordAt a.pdu 1) 1 = [v] ∧
      Serves ver (Request.writeRegister (wordAt a.pdu 1) ((v &&& UInt16.ofNat (wordAt a.pdu 3)) |||
        (UInt16.ofNat (wordAt a.pdu 5) &&& ~~~UInt16.ofNat (wordAt a.pdu 3)))).pdu m rsp m') ∧
    (a.pdu.head? = some 0x17 → ∃ rsp data,
      Serves ver (Request.writeRegisters (wordAt a.pdu 5)
        (words ((a.pdu.drop 10).take (2 * wordAt a.pdu 7)))).pdu m rsp m' ∧
      Serves ver (Request.readRegisters false (wordAt a.pdu 1) (wordAt a.pdu 3)).pdu m'
        (0x03 :: data) m' ∧ b.pdu = 0x17 :: data) := by
  have hserved : ∀ {fc : UInt8}, a.pdu.head? = some fc → ∃ p, rd a.pdu 0 = .ok fc ∧
      Complete a.pdu ∧ serveSwitch fc.toNat a.pdu m ver = .ok p ∧ p.pdu.head? = some fc ∧
      p.mapping = m' ∧ p.pdu = b.pdu := by
    intro fc hfc
    obtain ⟨p, hp, hm, hpdu⟩ := servePdu_of_handed ht hsup hrun hsent hfc
    have hhead : p.pdu.head? = some fc := by rw [hpdu, hnormal, hfc]
    have hf : rd a.pdu 0 = .ok fc := by
      apply rd_of_getElem?
      rw [← List.head?_eq_getElem?]
      exact hfc
    obtain ⟨hc, hswitch⟩ := serveSwitch_of_normal hf hp hhead
    exact ⟨p, hf, hc, hswitch, hhead, hm, hpdu⟩
  refine ⟨fun hfc haddr => ?_, fun hfc haddr => ?_, fun hfc => ?_, fun hfc => ?_⟩
  · -- several coils, written one after the other
    obtain ⟨p, hf, hc, hswitch, hhead, rfl, -⟩ := hserved hfc
    obtain ⟨k, t', hindex, hfit, hw, hm⟩ := written_of_writeMultipleCoils hc hf hswitch hhead
    rw [hm]
    exact sequence_written Mapping.bits (fun m t => { m with bits := t }) bitByte
      (fun _ _ => rfl) (fun _ _ _ => rfl) (fun _ => rfl) serves_writeBit hindex
      (by rw [length_unpackBits]; exact hfit) (by rw [length_unpackBits]; exact haddr) hw
  · -- several registers
    obtain ⟨p, hf, hc, hswitch, hhead, rfl, -⟩ := hserved hfc
    obtain ⟨k, t', hindex, hfit, hlen, hw, hm⟩ :=
      written_of_writeMultipleRegisters hc hf hswitch hhead
    rw [hm]
    refine sequence_written Mapping.registers (fun m t => { m with registers := t }) id
      (fun _ _ => rfl) (fun _ _ _ => rfl) (fun _ => rfl) serves_writeRegister hindex
      (by rw [hlen]; exact hfit) (by rw [hlen]; exact haddr) ?_
    rw [List.map_id]
    exact hw
  · -- the mask is applied to the value that was there
    obtain ⟨p, -, -, hswitch, hhead, rfl, -⟩ := hserved hfc
    obtain ⟨k, v, t', hindex, hk, haddressed, hw, hm⟩ :=
      written_of_maskWriteRegister hswitch hhead
    have ha : wordAt a.pdu 1 ≤ 65535 := word_le _ _
    obtain ⟨rsp, hserves⟩ : ∃ rsp, Serves ver _ m rsp _ := serves_writeRegister ha hindex hk hw
    rw [hm]
    exact ⟨v, rsp, haddressed, hserves⟩
  · -- the write comes first, so that the read sees it
    obtain ⟨p, hf, hc, hswitch, hhead, rfl, hpdu⟩ := hserved hfc
    obtain ⟨k, k', t', data, hindex, hnb, hindex', hnb', hfit', hlen, hw, hm, hdatalen, ⟨rest, hrest⟩,
      hdata⟩ := written_of_writeAndReadRegisters hc hf hswitch hhead
    simp only [maxWrReadRegisters, maxWrWriteRegisters] at hnb hnb'
    have hvalid : (Request.writeRegisters (wordAt a.pdu 5)
        (words ((a.pdu.drop 10).take (2 * wordAt a.pdu 7)))).Valid := by
      refine ⟨word_le _ _, ?_, ?_⟩
      · rw [hlen]
        exact hnb'.1
      · rw [hlen]
        simp only [maxWriteRegisters]
        omega
    obtain ⟨rsp, hserves⟩ : ∃ rsp, Serves ver _ m rsp _ :=
      serves_writeRegisters hvalid hindex' (by rw [hlen]; exact hfit') hw
    have hvalid' : (Request.readRegisters false (wordAt a.pdu 1) data.length).Valid := by
      refine ⟨word_le _ _, ?_, ?_⟩
      · rw [hdatalen]
        exact hnb.1
      · rw [hdatalen]
        simp only [maxReadRegisters]
        omega
    have hstart : (wordAt a.pdu 1 : Int) - t'.start.toInt = k := by
      rw [hw.start]
      exact hindex
    have hreads : Serves ver (Request.readRegisters false (wordAt a.pdu 1) data.length).pdu
        { m with registers := t' } (0x03 :: lo (bigEndian data).length :: bigEndian data)
        { m with registers := t' } := serves_readRegisters hvalid' hstart hrest
    rw [hdatalen] at hreads
    rw [hm]
    rw [hpdu] at hdata
    exact ⟨rsp, _, hserves, hreads, hdata⟩

/-- Bits 1 and 2 are set, registers 101 and 102 are written, two bits of register 100 are set, and a
register is written before two are read. -/
theorem compound_eq_elementary_sample :
    Sequence ⟨[], by decide⟩ [(Request.writeBit 1 true).pdu, (Request.writeBit 2 true).pdu]
      sampleMapping { sampleMapping with bits := ⟨0, [0, 1, 1, 0], by decide⟩ } ∧
    Sequence ⟨[], by decide⟩
      [(Request.writeRegister 101 0x0102).pdu, (Request.writeRegister 102 0x0304).pdu]
      sampleMapping
      { sampleMapping with
        registers := ⟨100, [0, 0x0102, 0x0304, 0, 0, 0, 0, 0, 0, 0], by decide⟩ } ∧
    (∃ v rsp, sampleMapping.registers.addressed 100 1 = [v] ∧
      Serves ⟨[], by decide⟩ (Request.writeRegister 100
        ((v &&& UInt16.ofNat 0x00F2) ||| (UInt16.ofNat 0x0025 &&& ~~~UInt16.ofNat 0x00F2))).pdu
        sampleMapping rsp
        { sampleMapping with
          registers := ⟨100, [0x0005, 0, 0, 0, 0, 0, 0, 0, 0, 0], by decide⟩ }) ∧
    ∃ rsp data,
      Serves ⟨[], by decide⟩ (Request.writeRegisters 102 [0x1234]).pdu sampleMapping rsp
        { sampleMapping with
          registers := ⟨100, [0, 0, 0x1234, 0, 0, 0, 0, 0, 0, 0], by decide⟩ } ∧
      Serves ⟨[], by decide⟩ (Request.readRegisters false 101 2).pdu
        { sampleMapping with registers := ⟨100, [0, 0, 0x1234, 0, 0, 0, 0, 0, 0, 0], by decide⟩ }
        (0x03 :: data)
        { sampleMapping with
          registers := ⟨100, [0, 0, 0x1234, 0, 0, 0, 0, 0, 0, 0], by decide⟩ } ∧
      [0x17, 4, 0, 0, 0x12, 0x34] = 0x17 :: data :=
  ⟨(compound_eq_elementary (linkOs 1) (recordedSt .tcp 17)
      ⟨7, 0, 8, 17, [0x0F, 0, 1, 0, 2, 1, 3]⟩ ⟨7, 0, 6, 17, [0x0F, 0, 1, 0, 2]⟩ [] rfl rfl rfl
      ⟨0, rfl, fun _ => rfl⟩ rfl).1 rfl (by decide),
    (compound_eq_elementary (linkOs 1) (recordedSt .tcp 17)
      ⟨7, 0, 11, 17, [0x10, 0, 101, 0, 2, 4, 1, 2, 3, 4]⟩ ⟨7, 0, 6, 17, [0x10, 0, 101, 0, 2]⟩ []
      rfl rfl rfl ⟨0, rfl, fun _ => rfl⟩ rfl).2.1 rfl (by decide),
    (compound_eq_elementary (linkOs 1) (recordedSt .tcp 17)
      ⟨7, 0, 8, 17, [0x16, 0, 100, 0x00, 0xF2, 0x00, 0x25]⟩
      ⟨7, 0, 8, 17, [0x16, 0, 100, 0x00, 0xF2, 0x00, 0x25]⟩ [] rfl rfl rfl
      ⟨0, rfl, fun _ => rfl⟩ rfl).2.2.1 rfl,
    (compound_eq_elementary (linkOs 1) (recordedSt .tcp 17)
      ⟨7, 0, 13, 17, [0x17, 0, 101, 0, 2, 0, 102, 0, 1, 2, 0x12, 0x34]⟩
      ⟨7, 0, 7, 17, [0x17, 4, 0, 0, 0x12, 0x34]⟩ [] rfl rfl rfl
      ⟨0, rfl, fun _ => rfl⟩ rfl).2.2.2 rfl⟩

/-- Two registers, at 65535 and behind it. -/
def farMapping : Mapping := { sampleMapping with registers := ⟨65535, [0, 0], by decide⟩ }

/-- No single write reaches behind address 65535. -/
theorem writeRegister_not_beyond {ah al vh vl : UInt8} {p : PduReply}
    (hstart : m.registers.start = 65535)
    (h : servePdu ver [0x06, ah, al, vh, vl] m = .ok p) :
    p.mapping.registers.tab[1]? = m.registers.tab[1]? := by
  have hswitch : serveWriteSingleRegister (0x06 : UInt8).toNat [0x06, ah, al, vh, vl] m = .ok p := h
  obtain ⟨addr, h1, h⟩ := bind_eq_ok.mp hswitch
  obtain ⟨mappingAddress, hcint, h⟩ := bind_eq_ok.mp h
  obtain ⟨-, rfl⟩ := cint_eq_ok.mp hcint
  have haddr : addr ≤ 65535 := by
    rw [← wordAt_of_rdWord h1]
    exact word_le _ _
  have h65535 : m.registers.start.toInt = 65535 := by
    rw [hstart]
    rfl
  by_cases hrange : (addr : Int) - m.registers.start.toInt < 0 ∨
      (m.registers.nb : Int) ≤ (addr : Int) - m.registers.start.toInt
  · rw [if_pos hrange] at h
    cases h
    rfl
  -- only the first register is left
  have hzero : (addr : Int) - m.registers.start.toInt = (0 : Nat) := by omega
  have hfive : [0x06, ah, al, vh, vl].length = 5 := rfl
  rw [if_neg hrange, if_neg (not_not.mpr hfive), hzero] at h
  obtain ⟨value, -, h⟩ := bind_eq_ok.mp h
  obtain ⟨registers, hregisters, h⟩ := bind_eq_ok.mp h
  cases h
  obtain ⟨-, hset⟩ := Table.modify_eq_ok.mp hregisters
  rw [setCell_of_lt (by unfold Table.nb at hrange; omega)] at hset
  show registers.tab[1]? = _
  rw [← Except.ok.inj hset, List.getElem?_set_ne Nat.zero_ne_one]

/-- Both registers are written by one request, of which the second is out of reach of every single
write. -/
theorem compound_beyond_addresses :
    (modbusReply (recordOs (linkOs 1)) ⟨[], by decide⟩ (recordedSt .tcp 17)
        [0, 7, 0, 0, 0, 11, 17, 0x10, 0xFF, 0xFF, 0, 2, 4, 0, 1, 0, 2] 17 farMapping).map
      (fun r => (r.2.1.registers.tab, r.2.2.os.sent)) =
        .ok ([1, 2], [[0, 7, 0, 0, 0, 6, 17, 0x10, 0xFF, 0xFF, 0, 2]]) ∧
    ∀ (ver : VersionString) (m : Mapping) (ah al vh vl : UInt8) (p : PduReply),
      m.registers.start = farMapping.registers.start →
      servePdu ver [0x06, ah, al, vh, vl] m = .ok p →
      p.mapping.registers.tab[1]? = m.registers.tab[1]? :=
  ⟨by decide +kernel, fun _ _ _ _ _ _ _ hstart h => writeRegister_not_beyond hstart h⟩

end Libmodbus
