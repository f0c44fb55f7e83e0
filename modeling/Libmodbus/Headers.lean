/-
Libmodbus/Headers.lean

The header of a reply on TCP.  It is built afresh (`build_response_basis`), or,
for the functions that are answered with an echo, copied from the request, and
`send_msg_pre` writes the length into both:

    fresh    tId of the request | 0 | length | unit of the request
    copied   tId of the request | protocol id of the request | length | unit

The receive path does not look at the protocol id, but a client does: it refuses
a response whose protocol id is not 0.  `reply_canonical_iff` says for which
requests the reply has the header that the client expects.
-/
import Libmodbus.Lengths
import Libmodbus.Memory
import Libmodbus.Traces

namespace Libmodbus

open CSem Wire Posix

variable {σ α : Type}

/-! ### The header a client expects -/

/-- The reply `frame` has the header of a reply to `req`; a client that has sent a request with
this transaction id does not refuse it. -/
structure Canonical (req frame : List UInt8) : Prop where
  tId : ∃ tId, rdWord req 0 = .ok tId ∧ rdWord frame 0 = .ok tId
  protocol : rdWord frame 2 = .ok 0
  length : rdWord frame 4 = .ok (frame.length - 6)
  unit : ∃ unit, rd req 6 = .ok unit ∧ rd frame 6 = .ok unit
  accepted : ∀ sent, rdWord sent 0 = rdWord req 0 →
    preCheckConfirmation .tcp sent frame = .ok none

/-- Reading the header of an ADU. -/
theorem rdWord_tId (a : Adu) : rdWord (a.bytes .tcp) 0 = .ok a.tId.toNat := by
  show Except.ok (word (hi a.tId.toNat) (lo a.tId.toNat)) = _
  rw [word_hi_lo_nat a.tId.toNat_lt]

theorem rdWord_protocol (a : Adu) : rdWord (a.bytes .tcp) 2 = .ok a.protocol.toNat := by
  show Except.ok (word (hi a.protocol.toNat) (lo a.protocol.toNat)) = _
  rw [word_hi_lo_nat a.protocol.toNat_lt]

theorem rdWord_length (a : Adu) : rdWord (a.bytes .tcp) 4 = .ok a.length.toNat := by
  show Except.ok (word (hi a.length.toNat) (lo a.length.toNat)) = _
  rw [word_hi_lo_nat a.length.toNat_lt]

/-- Everything but the protocol id is always right. -/
theorem canonical_iff {a r : Adu} (htid : r.tId = a.tId) (hunit : r.unit = a.unit)
    (hlength : r.length = UInt16.ofNat (r.pdu.length + 1)) (hmax : r.pdu.length ≤ maxPduLength) :
    Canonical (a.bytes .tcp) (r.bytes .tcp) ↔ r.protocol = 0 := by
  constructor
  · intro h
    have h2 := (rdWord_protocol r).symm.trans h.protocol
    exact UInt16.toNat_inj.mp (Except.ok.inj h2)
  · intro h0
    have hlen : (r.bytes .tcp).length - 6 = r.pdu.length + 1 := by
      rw [Adu.length_bytes]
      simp only [Backend.headerLength, Backend.checksumLength]
      omega
    refine ⟨⟨a.tId.toNat, rdWord_tId a, htid ▸ rdWord_tId r⟩, ?_, ?_, ⟨a.unit, rfl, ?_⟩, ?_⟩
    · rw [rdWord_protocol, h0]
      rfl
    · have hfits : r.pdu.length + 1 < UInt16.size := Nat.lt_of_le_of_lt
        (Nat.succ_le_succ hmax) (by decide)
      rw [rdWord_length, hlen, hlength, UInt16.toNat_ofNat_of_lt' hfits]
    · show Except.ok r.unit = _
      rw [hunit]
    · intro sent hsent
      obtain ⟨h, hh, hs⟩ := bind_eq_ok.mp (hsent.trans (rdWord_tId a))
      obtain ⟨l, hl, hs⟩ := bind_eq_ok.mp hs
      have hw : word h l = r.tId.toNat := (Except.ok.inj hs).trans (congrArg UInt16.toNat htid.symm)
      have h0' : rd (r.bytes .tcp) 0 = .ok h := by
        show Except.ok (hi r.tId.toNat) = _
        rw [← hw, hi_word]
      have h1' : rd (r.bytes .tcp) 1 = .ok l := by
        show Except.ok (lo r.tId.toNat) = _
        rw [← hw, lo_word]
      have h2' : rd (r.bytes .tcp) 2 = .ok (hi r.protocol.toNat) := rfl
      have h3' : rd (r.bytes .tcp) 3 = .ok (lo r.protocol.toNat) := rfl
      have hzero : word (hi r.protocol.toNat) (lo r.protocol.toNat) = 0 := by
        rw [h0]
        rfl
      simp only [preCheckConfirmation, hh, hl, h0', h1', h2', h3', ok_bind, ne_eq,
        not_true_eq_false, or_self, if_false, hzero]

/-! ### Requests that are echoed -/

/-- A request can address this cell. -/
def Table.Has (t : Table α) (address : Nat) : Prop :=
  0 ≤ (address : Int) - t.start.toInt ∧ (address : Int) - t.start.toInt < t.nb

instance (t : Table α) (address : Nat) : Decidable (t.Has address) :=
  inferInstanceAs (Decidable (_ ∧ _))

/-- The requests that are answered with themselves: writes of one cell that is there. -/
inductive Echoed (m : Mapping) : List UInt8 → Prop
  | coil (a₁ a₂ v : UInt8) (ha : m.bits.Has (word a₁ a₂)) (hv : v = 0xFF ∨ v = 0) :
      Echoed m [0x05, a₁, a₂, v, 0]
  | register (a₁ a₂ v₁ v₂ : UInt8) (ha : m.registers.Has (word a₁ a₂)) :
      Echoed m [0x06, a₁, a₂, v₁, v₂]
  | mask (a₁ a₂ n₁ n₂ o₁ o₂ : UInt8) (ha : m.registers.Has (word a₁ a₂)) :
      Echoed m [0x16, a₁, a₂, n₁, n₂, o₁, o₂]

/-- The address of a cell that is there is computed and passes its check. -/
theorem Table.Has.index {t : Table α} {address : Nat} (h : t.Has address) :
    ∃ k : Nat, cint ((address : Nat) - t.start.toInt) = .ok k ∧ k < t.tab.length ∧
      ¬ ((k : Int) < 0 ∨ (t.nb : Int) ≤ k) := by
  obtain ⟨h0, hlt⟩ := h
  have hnb := t.nb_le
  unfold Table.nb at hlt ⊢
  simp only [maxTableSize] at hnb
  refine ⟨((address : Int) - t.start.toInt).toNat, ?_, by omega, by omega⟩
  rw [Int.toNat_of_nonneg h0]
  exact cint_of_fits ⟨by omega, by omega⟩

theorem Table.has_of_inside {t : Table α} {address : Nat} {i : Int}
    (hi : cint ((address : Nat) - t.start.toInt) = .ok i) (h : ¬ (i < 0 ∨ (t.nb : Int) ≤ i)) :
    t.Has address := by
  obtain ⟨-, rfl⟩ := cint_eq_ok.mp hi
  exact ⟨by omega, by omega⟩

theorem Table.store_of_lt {t : Table α} {k : Nat} (h : k < t.tab.length) (v : α) :
    ∃ t', t.store k v = .ok t' :=
  ⟨_, Table.modify_of_ok length_of_setCell (setCell_of_lt h v)⟩

/-- A word is zero or 0xFF00 as its bytes are. -/
theorem coil_value {v₁ v₂ : UInt8} :
    word v₁ v₂ = 0xFF00 ∨ word v₁ v₂ = 0 ↔ (v₁ = 0xFF ∨ v₁ = 0) ∧ v₂ = 0 := by
  have h1 := v₁.toNat_lt
  have h2 := v₂.toNat_lt
  rw [← UInt8.toNat_inj, ← UInt8.toNat_inj, ← UInt8.toNat_inj]
  show _ ↔ (v₁.toNat = 255 ∨ v₁.toNat = 0) ∧ v₂.toNat = 0
  unfold word
  omega

/-- **They are echoed.** -/
theorem Echoed.served (ver : VersionString) {m : Mapping} {pdu : List UInt8} (h : Echoed m pdu) :
    ∃ m', servePdu ver pdu m = .ok ⟨pdu, true, false, m'⟩ := by
  cases h with
  | coil a₁ a₂ v ha hv =>
    obtain ⟨k, hk, hlt, hin⟩ := ha.index
    obtain ⟨t', ht'⟩ := Table.store_of_lt hlt (if word v 0 ≠ 0 then 1 else 0)
    -- the request is rebuilt from its bytes, which the handler copies
    have hframed : Framed .indication [0x05, a₁, a₂, v, 0] :=
      (RequestPdu.writeSingle (Or.inl rfl) a₁ a₂ v 0).framed (show 5 ≤ 253 by decide)
    have hserve : servePdu ver [0x05, a₁, a₂, v, 0] m =
        serveWriteSingleCoil 5 [0x05, a₁, a₂, v, 0] m := servePdu_framed hframed
    have h1 : rdWord [0x05, a₁, a₂, v, 0] 1 = .ok (word a₁ a₂) := rfl
    have h3 : rdWord [0x05, a₁, a₂, v, 0] 3 = .ok (word v 0) := rfl
    have hlen : ¬ [0x05, a₁, a₂, v, 0].length ≠ 5 := fun h => h rfl
    refine ⟨{ m with bits := t' }, ?_⟩
    rw [hserve, serveWriteSingleCoil, h1, ok_bind, hk, ok_bind, if_neg hin, if_neg hlen, h3,
      ok_bind, if_pos (coil_value.mpr ⟨hv, rfl⟩), ht']
    rfl
  | register a₁ a₂ v₁ v₂ ha =>
    obtain ⟨k, hk, hlt, hin⟩ := ha.index
    obtain ⟨t', ht'⟩ := Table.store_of_lt hlt (UInt16.ofNat (word v₁ v₂))
    have hframed : Framed .indication [0x06, a₁, a₂, v₁, v₂] :=
      (RequestPdu.writeSingle (Or.inr rfl) a₁ a₂ v₁ v₂).framed (show 5 ≤ 253 by decide)
    have hserve : servePdu ver [0x06, a₁, a₂, v₁, v₂] m =
        serveWriteSingleRegister 6 [0x06, a₁, a₂, v₁, v₂] m := servePdu_framed hframed
    have h1 : rdWord [0x06, a₁, a₂, v₁, v₂] 1 = .ok (word a₁ a₂) := rfl
    have h3 : rdWord [0x06, a₁, a₂, v₁, v₂] 3 = .ok (word v₁ v₂) := rfl
    have hlen : ¬ [0x06, a₁, a₂, v₁, v₂].length ≠ 5 := fun h => h rfl
    refine ⟨{ m with registers := t' }, ?_⟩
    rw [hserve, serveWriteSingleRegister, h1, ok_bind, hk, ok_bind, if_neg hin, if_neg hlen, h3,
      ok_bind, ht']
    rfl
  | mask a₁ a₂ n₁ n₂ o₁ o₂ ha =>
    obtain ⟨k, hk, hlt, hin⟩ := ha.index
    set pdu := [0x16, a₁, a₂, n₁, n₂, o₁, o₂] with hpdu
    have hframed : Framed .indication pdu :=
      (RequestPdu.maskWrite a₁ a₂ n₁ n₂ o₁ o₂).framed (show 7 ≤ 253 by decide)
    have hserve : servePdu ver pdu m = serveMaskWriteRegister 22 pdu m := servePdu_framed hframed
    have h1 : rdWord pdu 1 = .ok (word a₁ a₂) := rfl
    have h3 : rdWord pdu 3 = .ok (word n₁ n₂) := rfl
    have h5 : rdWord pdu 5 = .ok (word o₁ o₂) := rfl
    have hlen : ¬ pdu.length ≠ 7 := fun h => h rfl
    have hcell : cell m.registers.tab k = .ok (m.registers.tab.get ⟨k, hlt⟩) := cell_of_lt hlt
    obtain ⟨t', ht'⟩ := Table.store_of_lt hlt
      ((m.registers.tab.get ⟨k, hlt⟩ &&& UInt16.ofNat (word n₁ n₂)) |||
        (UInt16.ofNat (word o₁ o₂) &&& ~~~UInt16.ofNat (word n₁ n₂)))
    refine ⟨{ m with registers := t' }, ?_⟩
    rw [hserve, serveMaskWriteRegister, h1, ok_bind, hk, ok_bind, if_neg hin, h3, ok_bind, h5,
      ok_bind, if_neg hlen, hcell, ok_bind, ht']
    rfl

/-! ### No other reply is an echo -/

section Echo

variable {function : Nat} {pdu : List UInt8} {m : Mapping}

/-- An echo is the reply to a request with an echo, whatever is computed. -/
abbrev EchoOnly (m : Mapping) (pdu : List UInt8) (x : Run PduReply) : Prop :=
  Ends x (fun p => p.echo = true → Echoed m pdu) fun _ => True

theorem echoOnly_of_fresh {p : PduReply} (h : p.echo = false) : EchoOnly m pdu (.ok p) := by
  intro he
  rw [h] at he
  cases he

theorem exists_cons_of_length {xs : List UInt8} {n : Nat} (h : xs.length = n + 1) :
    ∃ x ys, xs = x :: ys ∧ ys.length = n := by
  obtain ⟨x, ys, rfl⟩ := List.exists_of_length_succ xs h
  exact ⟨x, ys, rfl, Nat.succ.inj h⟩

theorem exists_of_length_five (h : pdu.length = 5) :
    ∃ f a₁ a₂ v₁ v₂, pdu = [f, a₁, a₂, v₁, v₂] := by
  obtain ⟨f, xs, rfl, h4⟩ := exists_cons_of_length h
  obtain ⟨a₁, xs, rfl, h3⟩ := exists_cons_of_length h4
  obtain ⟨a₂, xs, rfl, h2⟩ := exists_cons_of_length h3
  obtain ⟨v₁, xs, rfl, h1⟩ := exists_cons_of_length h2
  obtain ⟨v₂, xs, rfl, h0⟩ := exists_cons_of_length h1
  rw [List.length_eq_zero_iff.mp h0]
  exact ⟨f, a₁, a₂, v₁, v₂, rfl⟩

theorem exists_of_length_seven (h : pdu.length = 7) :
    ∃ f a₁ a₂ n₁ n₂ o₁ o₂, pdu = [f, a₁, a₂, n₁, n₂, o₁, o₂] := by
  obtain ⟨f, xs, rfl, h6⟩ := exists_cons_of_length h
  obtain ⟨a₁, xs, rfl, h5⟩ := exists_cons_of_length h6
  obtain ⟨a₂, n₁, n₂, o₁, o₂, rfl⟩ := exists_of_length_five h5
  exact ⟨f, a₁, a₂, n₁, n₂, o₁, o₂, rfl⟩

theorem serveWriteSingleCoil_echo (hf : rd pdu 0 = .ok 0x05) :
    EchoOnly m pdu (serveWriteSingleCoil function pdu m) := by
  refine Ends.seq fun address haddr => Ends.seq fun i hi => ?_
  refine Ends.ite (fun _ => echoOnly_of_fresh rfl) fun hin => ?_
  refine Ends.ite (fun _ => echoOnly_of_fresh rfl) fun hlen => Ends.seq fun data hdata => ?_
  refine Ends.ite (fun hv => Ends.seq fun bits _ _ => ?_) fun _ => echoOnly_of_fresh rfl
  obtain ⟨f, a₁, a₂, v₁, v₂, rfl⟩ := exists_of_length_five (not_not.mp hlen)
  cases hf
  cases haddr
  cases hdata
  obtain ⟨hv₁, rfl⟩ := coil_value.mp hv
  exact .coil a₁ a₂ v₁ (Table.has_of_inside hi hin) hv₁

theorem serveWriteSingleRegister_echo (hf : rd pdu 0 = .ok 0x06) :
    EchoOnly m pdu (serveWriteSingleRegister function pdu m) := by
  refine Ends.seq fun address haddr => Ends.seq fun i hi => ?_
  refine Ends.ite (fun _ => echoOnly_of_fresh rfl) fun hin => ?_
  refine Ends.ite (fun _ => echoOnly_of_fresh rfl) fun hlen => Ends.seq fun data hdata => ?_
  refine Ends.seq fun registers _ _ => ?_
  obtain ⟨f, a₁, a₂, v₁, v₂, rfl⟩ := exists_of_length_five (not_not.mp hlen)
  cases hf
  cases haddr
  exact .register a₁ a₂ v₁ v₂ (Table.has_of_inside hi hin)

theorem serveMaskWriteRegister_echo (hf : rd pdu 0 = .ok 0x16) :
    EchoOnly m pdu (serveMaskWriteRegister function pdu m) := by
  refine Ends.seq fun address haddr => Ends.seq fun i hi => ?_
  refine Ends.ite (fun _ => echoOnly_of_fresh rfl) fun hin => ?_
  refine Ends.seq fun and _ => Ends.seq fun or _ => ?_
  refine Ends.ite (fun _ => echoOnly_of_fresh rfl) fun hlen => Ends.seq fun data _ => ?_
  refine Ends.seq fun registers _ _ => ?_
  obtain ⟨f, a₁, a₂, n₁, n₂, o₁, o₂, rfl⟩ := exists_of_length_seven (not_not.mp hlen)
  cases hf
  cases haddr
  exact .mask a₁ a₂ n₁ n₂ o₁ o₂ (Table.has_of_inside hi hin)

theorem serveReadBits_fresh (isInput : Bool) :
    EchoOnly m pdu (serveReadBits function pdu m isInput) := by
  refine Ends.seq fun address _ => Ends.seq fun nb _ => Ends.seq fun i _ => ?_
  refine Ends.ite (fun _ => echoOnly_of_fresh rfl) fun _ => Ends.seq fun outside _ => ?_
  refine Ends.ite (fun _ => echoOnly_of_fresh rfl) fun _ => Ends.seq fun status _ => ?_
  exact echoOnly_of_fresh rfl

theorem serveReadRegisters_fresh (isInput : Bool) :
    EchoOnly m pdu (serveReadRegisters function pdu m isInput) := by
  refine Ends.seq fun address _ => Ends.seq fun nb _ => Ends.seq fun i _ => ?_
  refine Ends.ite (fun _ => echoOnly_of_fresh rfl) fun _ => Ends.seq fun outside _ => ?_
  refine Ends.ite (fun _ => echoOnly_of_fresh rfl) fun _ => Ends.seq fun values _ => ?_
  exact echoOnly_of_fresh rfl

theorem serveWriteMultipleCoils_fresh :
    EchoOnly m pdu (serveWriteMultipleCoils function pdu m) := by
  refine Ends.seq fun address _ => Ends.seq fun nb _ => Ends.seq fun nbBits _ => ?_
  refine Ends.seq fun i _ => Ends.ite (fun _ => echoOnly_of_fresh rfl) fun _ => ?_
  refine Ends.seq fun outside _ => Ends.ite (fun _ => echoOnly_of_fresh rfl) fun _ => ?_
  exact Ends.seq fun bits _ => Ends.seq fun echo _ => echoOnly_of_fresh rfl

theorem serveWriteMultipleRegisters_fresh :
    EchoOnly m pdu (serveWriteMultipleRegisters function pdu m) := by
  refine Ends.seq fun address _ => Ends.seq fun nb _ => Ends.seq fun nbBytes _ => ?_
  refine Ends.seq fun i _ => Ends.ite (fun _ => echoOnly_of_fresh rfl) fun _ => ?_
  refine Ends.seq fun outside _ => Ends.ite (fun _ => echoOnly_of_fresh rfl) fun _ => ?_
  exact Ends.seq fun registers _ => Ends.seq fun echo _ => echoOnly_of_fresh rfl

theorem serveWriteAndReadRegisters_fresh :
    EchoOnly m pdu (serveWriteAndReadRegisters function pdu m) := by
  refine Ends.seq fun address _ => Ends.seq fun nb _ => Ends.seq fun addressWrite _ => ?_
  refine Ends.seq fun nbWrite _ => Ends.seq fun nbWriteBytes _ => Ends.seq fun i _ => ?_
  refine Ends.seq fun j _ => Ends.ite (fun _ => echoOnly_of_fresh rfl) fun _ => ?_
  refine Ends.seq fun outside _ => Ends.ite (fun _ => echoOnly_of_fresh rfl) fun _ => ?_
  refine Ends.seq fun outside' _ => Ends.ite (fun _ => echoOnly_of_fresh rfl) fun _ => ?_
  exact Ends.seq fun registers _ => Ends.seq fun values _ => echoOnly_of_fresh rfl

/-- **No other request is.** -/
theorem servePdu_echo (ver : VersionString) : EchoOnly m pdu (servePdu ver pdu m) := by
  refine Ends.seq fun fc hf => Ends.ite (fun _ => ?_) fun _ => echoOnly_of_fresh rfl
  have hfc : ∀ c : UInt8, fc.toNat = c.toNat → rd pdu 0 = .ok c := fun c h => by
    rw [hf, UInt8.toNat_inj.mp h]
  refine Ends.ite (fun _ => serveReadBits_fresh false) fun _ => ?_
  refine Ends.ite (fun _ => serveReadBits_fresh true) fun _ => ?_
  refine Ends.ite (fun _ => serveReadRegisters_fresh false) fun _ => ?_
  refine Ends.ite (fun _ => serveReadRegisters_fresh true) fun _ => ?_
  refine Ends.ite (fun h => serveWriteSingleCoil_echo (hfc 0x05 h)) fun _ => ?_
  refine Ends.ite (fun h => serveWriteSingleRegister_echo (hfc 0x06 h)) fun _ => ?_
  refine Ends.ite (fun _ => serveWriteMultipleCoils_fresh) fun _ => ?_
  refine Ends.ite (fun _ => serveWriteMultipleRegisters_fresh) fun _ => ?_
  refine Ends.ite (fun _ => echoOnly_of_fresh rfl) fun _ => ?_
  refine Ends.ite (fun h => serveMaskWriteRegister_echo (hfc 0x16 h)) fun _ => ?_
  exact Ends.ite (fun _ => serveWriteAndReadRegisters_fresh) fun _ => echoOnly_of_fresh rfl

end Echo

/-! ### Replies -/

/-- The reply to a request of `modbus_receive`, whatever sends it. -/
def RepliesCanonically (ver : VersionString) (req : List UInt8) (m : Mapping) : Prop :=
  ∀ (σ : Type) (os : Os σ) (st : St (Recorded σ)), st.ctx.backend = .tcp →
    Ends (modbusReply (recordOs os) ver st req req.length m)
      (fun r => ∃ frame, Handed st.ctx frame st.os r.2.2.os ∧ Canonical req frame)
      fun e => Retries os st.ctx e ∨ ¬ StartsSafe m

section Received

variable (ver : VersionString) {a : Adu} (m : Mapping)

/-- The unit of a request is in front of its PDU. -/
theorem rd_unit (a : Adu) : rd (a.bytes .tcp) (Backend.tcp.headerLength - 1) = .ok a.unit := rfl

/-- A request that is received has a function code. -/
theorem room_of_framed (h : Framed .indication a.pdu) :
    ((Backend.tcp.headerLength + 1 : Nat) : Int) ≤ ((a.bytes .tcp).length : Nat) := by
  have hpos := List.length_pos_of_ne_nil h.ne_nil
  rw [Adu.length_bytes]
  simp only [Backend.headerLength, Backend.checksumLength]
  omega

/-- The frame of a reply is canonical just when its protocol id is. -/
theorem canonical_adu {p : PduReply} (h : Framed .indication a.pdu)
    (hp : servePdu ver a.pdu m = .ok p) :
    Canonical (a.bytes .tcp) ((p.adu a).bytes .tcp) ↔ p.echo = false ∨ a.protocol = 0 := by
  obtain ⟨function, data, hpdu⟩ := List.exists_cons_of_ne_nil h.ne_nil
  have hmax : p.pdu.length ≤ maxPduLength := by
    have hout := servePdu_outcome ver function data m
    rw [← hpdu, Answers, hp] at hout
    cases hout with
    | exception code toFlush hcode he =>
      rw [he]
      exact show 2 ≤ 253 by decide
    | normal data hpdu hshape hlen hfun => exact hlen
  have hiff := canonical_iff (a := a) (r := p.adu a) rfl rfl rfl hmax
  rw [hiff]
  show (if p.echo then a.protocol else 0) = 0 ↔ _
  cases p.echo <;> simp

/-- What a run of `modbus_reply` hands over. -/
theorem modbusReply_adu {st : St (Recorded σ)} (os : Os σ) {p : PduReply}
    (hbe : st.ctx.backend = .tcp) (h : Framed .indication a.pdu)
    (hp : servePdu ver a.pdu m = .ok p) :
    Ends (modbusReply (recordOs os) ver st (a.bytes .tcp) (a.bytes .tcp).length m)
      (fun r => Handed st.ctx ((p.adu a).bytes .tcp) st.os r.2.2.os) (Retries os st.ctx) := by
  have hbuild : buildReply ver .tcp (a.bytes .tcp) ((a.bytes .tcp).length : Nat) m =
      .ok (p.wrap .tcp a) := by
    rw [Adu.bytes, buildReply_wrapped ver a m a.length_checksum h.ne_nil, hp]
    rfl
  have hslave : rd (a.bytes .tcp) (st.ctx.backend.headerLength - 1) = .ok a.unit := by
    rw [hbe]
    exact rd_unit a
  have hroom : ((st.ctx.backend.headerLength + 1 : Nat) : Int) ≤ ((a.bytes .tcp).length : Nat) := by
    rw [hbe]
    exact room_of_framed h
  refine (modbusReply_answers os ver hslave hroom (suppressed_tcp a.unit hbe)
    (by rw [hbe]; exact hbuild)).imp (fun r hr => ?_) fun e he => he
  have hsent := hr.2
  rw [hbe, sendMsgPre_wrap] at hsent
  exact hsent

/-- On a link that takes every frame, an echo is handed over at once. -/
theorem modbusReply_echo {m' : Mapping} (h : Framed .indication a.pdu)
    (hp : servePdu ver a.pdu m = .ok ⟨a.pdu, true, false, m'⟩) :
    ∃ r, modbusReply (recordOs (linkOs 1)) ver (recordedSt .tcp 255) (a.bytes .tcp)
      (a.bytes .tcp).length m = .ok r := by
  have hrun := modbusReply_wrapped (recordOs (linkOs 1)) ver (recordedSt .tcp 255) a m
    a.length_checksum h.ne_nil (suppressed_tcp a.unit rfl)
  have hsend : ∃ r, sendAdu (recordOs (linkOs 1)) (recordedSt .tcp 255)
      (PduReply.adu a ⟨a.pdu, true, false, m'⟩) = .ok r :=
    ⟨_, sendLoop_of_sent (show 0 < 1 by decide) rfl⟩
  obtain ⟨r, hr⟩ := hsend
  simp only [hp, ok_bind, PduReply.send, Bool.false_eq_true, if_false, hr] at hrun
  exact ⟨_, hrun⟩

/-- A copied header keeps the protocol id. -/
theorem not_repliesCanonically (h : Framed .indication a.pdu) (he : Echoed m a.pdu)
    (hne : a.protocol ≠ 0) : ¬ RepliesCanonically ver (a.bytes .tcp) m := by
  intro hreplies
  obtain ⟨m', hp⟩ := he.served ver
  obtain ⟨r, hr⟩ := modbusReply_echo ver m h hp
  have hbe : (recordedSt .tcp 255).ctx.backend = .tcp := rfl
  have hsent := (modbusReply_adu ver m (linkOs 1) hbe h hp).result hr
  obtain ⟨frame, hframe, hcanonical⟩ :=
    (hreplies Link (linkOs 1) (recordedSt .tcp 255) hbe).result hr
  rw [← hsent.unique hframe, canonical_adu ver m h hp] at hcanonical
  rcases hcanonical with hfresh | hprotocol
  · cases hfresh
  · exact hne hprotocol

end Received

/-- **The header is right for requests of protocol id 0, and for those that are not echoed.** -/
theorem reply_canonical_iff (ver : VersionString) {req : List UInt8} (m : Mapping)
    (hreq : Receivable .tcp req) :
    RepliesCanonically ver req m ↔ rdWord req 2 = .ok 0 ∨ ¬ Echoed m (req.drop 7) := by
  obtain ⟨a, rfl, hframed⟩ := hreq.is_adu
  have hdrop : (a.bytes .tcp).drop 7 = a.pdu := List.append_nil a.pdu
  have hproto : rdWord (a.bytes .tcp) 2 = .ok 0 ↔ a.protocol = 0 := by
    rw [rdWord_protocol]
    exact ⟨fun h => UInt16.toNat_inj.mp (Except.ok.inj h), fun h => by rw [h]; rfl⟩
  rw [hdrop, hproto]
  constructor
  · intro hreplies
    by_contra hcond
    obtain ⟨hne, hecho⟩ := not_or.mp hcond
    exact not_repliesCanonically ver m hframed (not_not.mp hecho) hne hreplies
  · intro hcond σ os st hbe
    cases hp : servePdu ver a.pdu m with
    | error e =>
      obtain ⟨function, data, hpdu⟩ := List.exists_cons_of_ne_nil hframed.ne_nil
      have hrun : modbusReply (recordOs os) ver st (a.bytes .tcp) (a.bytes .tcp).length m =
          .error e := by
        have hw := modbusReply_wrapped (recordOs os) ver st a m a.length_checksum hframed.ne_nil
          (suppressed_tcp a.unit hbe)
        rw [hbe, hp] at hw
        exact hw
      rw [hrun]
      refine Or.inr fun hsafe => ?_
      have hanswers : ∃ p, servePdu ver (function :: data) m = .ok p ∧ Outcome function m p :=
        servePdu_answers ver hsafe
      obtain ⟨p, hok, -⟩ := hanswers
      rw [← hpdu, hp] at hok
      cases hok
    | ok p =>
      refine (modbusReply_adu ver m os hbe hframed hp).imp (fun r hr => ⟨_, hr, ?_⟩)
        fun e he => Or.inl he
      refine (canonical_adu ver m hframed hp).mpr ?_
      rcases hcond with hprotocol | hecho
      · exact Or.inr hprotocol
      · refine Or.inl (Bool.eq_false_iff.mpr fun he => hecho ?_)
        exact (servePdu_echo ver).result hp he

/-- A write of one register, with protocol id 0. -/
theorem reply_canonical_iff_sample :
    RepliesCanonically ⟨[], by decide⟩ [0, 7, 0, 0, 0, 6, 17, 0x06, 0, 101, 1, 2]
      sampleMapping := by
  have hreq : Receivable .tcp [0, 7, 0, 0, 0, 6, 17, 0x06, 0, 101, 1, 2] :=
    ⟨Link, linkOs 1, sampleSt .tcp 255 [0, 7, 0, 0, 0, 6, 17, 0x06, 0, 101, 1, 2], _, _, rfl,
      show (0 : Int) < 12 by decide, rfl⟩
  exact (reply_canonical_iff ⟨[], by decide⟩ sampleMapping hreq).mpr (Or.inl rfl)

/-- The same request with protocol id 1 is received, and its reply has protocol id 1. -/
theorem reply_not_canonical :
    Receivable .tcp [0, 7, 0, 1, 0, 6, 17, 0x06, 0, 101, 1, 2] ∧
      ¬ RepliesCanonically ⟨[], by decide⟩ [0, 7, 0, 1, 0, 6, 17, 0x06, 0, 101, 1, 2]
        sampleMapping := by
  refine ⟨⟨Link, linkOs 1, sampleSt .tcp 255 [0, 7, 0, 1, 0, 6, 17, 0x06, 0, 101, 1, 2], _, _, rfl,
    show (0 : Int) < 12 by decide, rfl⟩, ?_⟩
  have hframed : Framed .indication [0x06, 0, 101, 1, 2] :=
    (RequestPdu.writeSingle (Or.inr rfl) 0 101 1 2).framed (show 5 ≤ 253 by decide)
  have hecho : Echoed sampleMapping [0x06, 0, 101, 1, 2] := .register 0 101 1 2 (by decide)
  exact not_repliesCanonically (a := ⟨7, 1, 6, 17, [0x06, 0, 101, 1, 2]⟩) ⟨[], by decide⟩
    sampleMapping hframed hecho (by decide)

end Libmodbus
