/-
Libmodbus/Echoes.lean

What confirms a write.  The server repeats the front of the request:

    0x05, 0x06   function | address | value
    0x0F, 0x10   function | address | quantity
    0x16         function | address | AND mask | OR mask

`check_confirmation` has a case for the first two rows that compares these
fields.  The mask write falls into its default case, which compares nothing: a
frame that passes the pre-check and has its function code and length is enough.
So the first four calls are confirmed by their echo only (`Accepted.echo`), and
the last one by such a frame, whatever its address and masks (`OtherMasks`).
-/
import Libmodbus.Confirmations

namespace Libmodbus

open CSem Wire Posix

variable {σ : Type} {be : Backend}

/-! ### The calls that write -/

inductive WriteCall
  | bit (addr status : Int)
  | register (addr : Int) (value : UInt16)
  | bits (addr nb : Int) (src : List UInt8)
  | registers (addr nb : Int) (src : List UInt16)
  | maskRegister (addr : Int) (andMask orMask : UInt16)

namespace WriteCall

def run (os : Os σ) (st : St σ) : WriteCall → Run (Int × St σ)
  | bit addr status => modbusWriteBit os st addr status
  | register addr value => modbusWriteRegister os st addr value
  | bits addr nb src => modbusWriteBits os st addr nb src
  | registers addr nb src => modbusWriteRegisters os st addr nb src
  | maskRegister addr andMask orMask => modbusMaskWriteRegister os st addr andMask orMask

def sender : WriteCall → Sender
  | bit addr status => .writeBit addr status
  | register addr value => .writeRegister addr value
  | bits addr nb src => .writeBits addr nb src
  | registers addr nb src => .writeRegisters addr nb src
  | maskRegister addr andMask orMask => .maskWriteRegister addr andMask orMask

/-- The length of the echo: function code, address, and value, quantity or masks. -/
def echoLength : WriteCall → Nat
  | maskRegister .. => 7
  | _ => 5

def IsMask : WriteCall → Prop
  | maskRegister .. => True
  | _ => False

end WriteCall

/-- The PDU in `rsp` begins with the first `n` bytes of the one in `req`. -/
def EchoOf (be : Backend) (n : Nat) (req rsp : List UInt8) : Prop :=
  ∀ i < n, ∃ b, rd req (be.headerLength + i) = .ok b ∧ rd rsp (be.headerLength + i) = .ok b

/-- If the call does not fail, a frame was received during it that is the echo of its request; or
the system has taken nothing of the request. -/
def ConfirmedByEcho (os : Os σ) (st : St (Tapped σ)) (w : WriteCall) : Prop :=
  ∀ rc st', w.run (tapOs os) st = .ok (rc, st') → rc ≠ -1 →
    (rc = 0 ∧ SendsNothing os st w.sender) ∨
      ∃ msg rsp count, w.sender.message st.ctx = .ok msg ∧
        Confirmed os st (sendMsgPre st.ctx.backend msg) rsp count st' ∧
        EchoOf st.ctx.backend w.echoLength (sendMsgPre st.ctx.backend msg) rsp

/-! ### Echoes are compared -/

section Compared

variable {req rsp : List UInt8}

theorem sameWord_true {i : Nat} (h : sameWord req rsp i = .ok true) :
    ∃ b b', rd req i = .ok b ∧ rd rsp i = .ok b ∧ rd req (i + 1) = .ok b' ∧
      rd rsp (i + 1) = .ok b' := by
  obtain ⟨reqH, hreqH, h⟩ := bind_eq_ok.mp h
  obtain ⟨rspH, hrspH, h⟩ := bind_eq_ok.mp h
  obtain ⟨reqL, hreqL, h⟩ := bind_eq_ok.mp h
  obtain ⟨rspL, hrspL, h⟩ := bind_eq_ok.mp h
  obtain ⟨rfl, rfl⟩ := of_decide_eq_true (Except.ok.inj h)
  exact ⟨reqH, reqL, hreqH, hrspH, hreqL, hrspL⟩

/-- An echo of five bytes: the function code and two words. -/
theorem echoes_of_words {function : UInt8} (hreq : rd req be.headerLength = .ok function)
    (hrsp : rd rsp be.headerLength = .ok function)
    (haddr : sameWord req rsp (be.headerLength + 1) = .ok true)
    (hdata : sameWord req rsp (be.headerLength + 3) = .ok true) : EchoOf be 5 req rsp := by
  obtain ⟨a, a', ha, hb, ha', hb'⟩ := sameWord_true haddr
  obtain ⟨d, d', hd, he, hd', he'⟩ := sameWord_true hdata
  intro i hi
  rcases i with - | - | - | - | - | i
  · exact ⟨function, hreq, hrsp⟩
  · exact ⟨a, ha, hb⟩
  · exact ⟨a', ha', hb'⟩
  · exact ⟨d, hd, he⟩
  · exact ⟨d', hd', he'⟩
  · omega

/-- Two equal quantities have the same bytes. -/
theorem sameWord_of_word {i : Nat} {h l h' l' : UInt8} (hh : rd req i = .ok h)
    (hl : rd req (i + 1) = .ok l) (hh' : rd rsp i = .ok h') (hl' : rd rsp (i + 1) = .ok l')
    (hw : word h l = word h' l') : sameWord req rsp i = .ok true := by
  obtain ⟨rfl, rfl⟩ := word_inj hw
  rw [sameWord, hh, ok_bind, hh', ok_bind, hl, ok_bind, hl', ok_bind, decide_eq_true ⟨rfl, rfl⟩]

/-- **An accepted confirmation of a write is its echo**, for the functions that have a case. -/
theorem Accepted.echo {rspLength : Int} {count : Nat} {function : UInt8}
    (ha : Accepted be req rsp rspLength count) (hf : rd req be.headerLength = .ok function)
    (hwrite : function = 0x05 ∨ function = 0x06 ∨ function = 0x0F ∨ function = 0x10) :
    EchoOf be 5 req rsp := by
  obtain ⟨function', hrsp, hf', hvalues⟩ := ha.function
  cases hf.symm.trans hf'
  -- single writes: address and value are compared
  have hsingle : (function = 0x05 ∨ function = 0x06) → EchoOf be 5 req rsp := by
    intro hfun
    have hcase : confirmationValues be.headerLength function.toNat req rsp = (do
        let addrOk ← sameWord req rsp (be.headerLength + 1)
        let dataOk ← sameWord req rsp (be.headerLength + 3)
        .ok (1, 1, addrOk && dataOk)) := by
      rcases hfun with rfl | rfl <;> rfl
    rw [hcase] at hvalues
    obtain ⟨addrOk, haddr, hvalues⟩ := bind_eq_ok.mp hvalues
    obtain ⟨dataOk, hdata, hvalues⟩ := bind_eq_ok.mp hvalues
    have hboth : (addrOk && dataOk) = true :=
      (Prod.mk.inj (Prod.mk.inj (Except.ok.inj hvalues)).2).2
    obtain ⟨rfl, rfl⟩ := Bool.and_eq_true_iff.mp hboth
    exact echoes_of_words hf hrsp haddr hdata
  -- multiple writes: the quantity that is returned is the one that was compared
  have hmultiple : (function = 0x0F ∨ function = 0x10) → EchoOf be 5 req rsp := by
    intro hfun
    have hcase : confirmationValues be.headerLength function.toNat req rsp = (do
        let addrOk ← sameWord req rsp (be.headerLength + 1)
        let reqH ← rd req (be.headerLength + 3)
        let reqL ← rd req (be.headerLength + 4)
        let rspH ← rd rsp (be.headerLength + 3)
        let rspL ← rd rsp (be.headerLength + 4)
        .ok (word reqH reqL, word rspH rspL, addrOk)) := by
      rcases hfun with rfl | rfl <;> rfl
    rw [hcase] at hvalues
    obtain ⟨addrOk, haddr, hvalues⟩ := bind_eq_ok.mp hvalues
    obtain ⟨reqH, hreqH, hvalues⟩ := bind_eq_ok.mp hvalues
    obtain ⟨reqL, hreqL, hvalues⟩ := bind_eq_ok.mp hvalues
    obtain ⟨rspH, hrspH, hvalues⟩ := bind_eq_ok.mp hvalues
    obtain ⟨rspL, hrspL, hvalues⟩ := bind_eq_ok.mp hvalues
    obtain ⟨hreqNb, hrest⟩ := Prod.mk.inj (Except.ok.inj hvalues)
    obtain ⟨hrspNb, rfl⟩ := Prod.mk.inj hrest
    exact echoes_of_words hf hrsp haddr
      (sameWord_of_word hreqH hreqL hrspH hrspL (hreqNb.trans hrspNb.symm))
  rcases hwrite with h | h | h | h
  · exact hsingle (Or.inl h)
  · exact hsingle (Or.inr h)
  · exact hmultiple (Or.inl h)
  · exact hmultiple (Or.inr h)

end Compared

/-! ### The calls whose echo is compared -/

section Sent

variable {os : Os σ} {st st' : St (Tapped σ)} {rc : Int}

/-- The end of such a call, when its request is built. -/
theorem exchange_echo {function : Nat} {addr nb : Int} {req more rsp : List UInt8}
    {ctx' : Modbus} {s : Sender} (hs : s.Accepted st.ctx.backend)
    (hwrite : lo function = 0x05 ∨ lo function = 0x06 ∨ lo function = 0x0F ∨ lo function = 0x10)
    (hreq : buildRequestBasis st.ctx function addr nb = .ok (req, ctx'))
    (hmsg : s.message st.ctx = .ok (req ++ more))
    (h : exchange (tapOs os) { st with ctx := ctx' } (req ++ more) = .ok (rc, rsp, st'))
    (hrc : rc ≠ -1) :
    (rc = 0 ∧ SendsNothing os st s) ∨
      ∃ msg rsp count, s.message st.ctx = .ok msg ∧
        Confirmed os st (sendMsgPre st.ctx.backend msg) rsp count st' ∧
        EchoOf st.ctx.backend 5 (sendMsgPre st.ctx.backend msg) rsp := by
  obtain rfl := buildRequestBasis_next hreq
  have hbe : ({ st with ctx := st.ctx.next } : St (Tapped σ)).ctx.backend = st.ctx.backend := rfl
  obtain ⟨-, ⟨htakes, rfl⟩ | ⟨count, rspLength, rfl, haccepted, hconfirmed⟩⟩ :=
    exchange_confirmed hbe h hrc
  · exact Or.inl ⟨rfl, hs, req ++ more, hmsg, htakes⟩
  · refine Or.inr ⟨req ++ more, rsp, count, hmsg, ⟨hconfirmed.during, hconfirmed.accepted⟩, ?_⟩
    exact haccepted.echo (buildRequestBasis_fields hreq more).1 hwrite

theorem writeSingle_echo {function : Nat} {addr : Int} {value : UInt16} {s : Sender}
    (hs : s.Accepted st.ctx.backend) (hwrite : lo function = 0x05 ∨ lo function = 0x06)
    (hmsg : s.message st.ctx =
      (buildRequestBasis st.ctx function addr (value.toNat : Nat)).map Prod.fst)
    (h : writeSingle (tapOs os) st function addr value = .ok (rc, st')) (hrc : rc ≠ -1) :
    (rc = 0 ∧ SendsNothing os st s) ∨
      ∃ msg rsp count, s.message st.ctx = .ok msg ∧
        Confirmed os st (sendMsgPre st.ctx.backend msg) rsp count st' ∧
        EchoOf st.ctx.backend 5 (sendMsgPre st.ctx.backend msg) rsp := by
  obtain ⟨⟨req, ctx'⟩, hreq, h⟩ := bind_eq_ok.mp h
  obtain ⟨⟨rc₁, rsp, st₁⟩, hexchange, h⟩ := bind_eq_ok.mp h
  cases h
  rw [← List.append_nil req] at hexchange
  refine exchange_echo hs ?_ hreq ?_ hexchange hrc
  · rcases hwrite with h | h
    · exact Or.inl h
    · exact Or.inr (Or.inl h)
  · rw [hmsg, hreq, List.append_nil]
    rfl

theorem confirmedByEcho_of_compared (os : Os σ) (st : St (Tapped σ)) {w : WriteCall}
    (hw : ¬ w.IsMask) : ConfirmedByEcho os st w := by
  intro rc st' h hrc
  cases w with
  | bit addr status => exact writeSingle_echo trivial (Or.inl rfl) rfl h hrc
  | register addr value => exact writeSingle_echo trivial (Or.inr rfl) rfl h hrc
  | bits addr nb src =>
    rw [WriteCall.run, modbusWriteBits] at h
    by_cases hnb : nb < 1 ∨ (maxWriteBits : Int) < nb
    · rw [if_pos hnb] at h
      cases h
      exact absurd rfl hrc
    rw [if_neg hnb] at h
    obtain ⟨⟨req, ctx'⟩, hreq, h⟩ := bind_eq_ok.mp h
    obtain ⟨bytes, hbytes, h⟩ := bind_eq_ok.mp h
    obtain ⟨⟨rc₁, rsp, st₁⟩, hexchange, h⟩ := bind_eq_ok.mp h
    cases h
    refine exchange_echo hnb (Or.inr (Or.inr (Or.inl rfl))) hreq ?_ hexchange hrc
    simp only [Sender.message, WriteCall.sender, hreq, Except.map, ok_bind, hbytes]
  | registers addr nb src =>
    rw [WriteCall.run, modbusWriteRegisters] at h
    by_cases hnb : nb < 1 ∨ (maxWriteRegisters : Int) < nb
    · rw [if_pos hnb] at h
      cases h
      exact absurd rfl hrc
    rw [if_neg hnb] at h
    obtain ⟨⟨req, ctx'⟩, hreq, h⟩ := bind_eq_ok.mp h
    obtain ⟨bytes, hbytes, h⟩ := bind_eq_ok.mp h
    obtain ⟨⟨rc₁, rsp, st₁⟩, hexchange, h⟩ := bind_eq_ok.mp h
    cases h
    refine exchange_echo hnb (Or.inr (Or.inr (Or.inr rfl))) hreq ?_ hexchange hrc
    simp only [Sender.message, WriteCall.sender, hreq, Except.map, ok_bind, hbytes]
  | maskRegister addr andMask orMask => exact absurd trivial hw

end Sent

/-! ### The mask write -/

/-- The call sends `req`, and this is what it receives for its confirmation. -/
def WriteCall.Receives (os : Os σ) (st : St σ) (w : WriteCall) (req rsp : List UInt8)
    (rspLength : Int) (st₂ : St σ) : Prop :=
  ∃ msg, w.sender.Accepted st.ctx.backend ∧ w.sender.message st.ctx = .ok msg ∧
    req = sendMsgPre st.ctx.backend msg ∧
    Arrived os { st with ctx := st.ctx.next } msg rsp rspLength st₂

/-- The frame passes the pre-check, and has the function code and the length of the confirmation
of a mask write, but another address or other masks than the request. -/
structure OtherMasks (be : Backend) (req rsp : List UInt8) (rspLength : Int) : Prop where
  pre : preCheckConfirmation be req rsp = .ok none
  function : rd rsp be.headerLength = .ok 0x16
  length : rspLength = (be.headerLength + 7 + be.checksumLength : Nat)
  differs : ∃ i < 7, rd req (be.headerLength + i) ≠ rd rsp (be.headerLength + i)

/-- The PDU of a mask write. -/
def maskPdu (addr : Int) (andMask orMask : UInt16) : List UInt8 :=
  [0x16, hi addr, lo addr, hi andMask.toNat, lo andMask.toNat, hi orMask.toNat, lo orMask.toNat]

theorem computeResponseLength_mask {req : List UInt8} (h : rd req be.headerLength = .ok 0x16) :
    computeResponseLengthFromRequest be req =
      .ok ((be.headerLength + 7 + be.checksumLength : Nat) : Int) := by
  rw [computeResponseLengthFromRequest, h]
  rfl

/-- **The default case compares nothing.** -/
theorem checkConfirmation_mask {os : Os σ} {st : St σ} {req rsp : List UInt8} {rspLength : Int}
    (hreq : rd req st.ctx.backend.headerLength = .ok 0x16)
    (h : OtherMasks st.ctx.backend req rsp rspLength) :
    checkConfirmation os st req rsp rspLength = .ok (1, st) := by
  have hlow : ¬ 0x80 ≤ (0x16 : UInt8).toNat := by decide
  have hvalues : confirmationValues st.ctx.backend.headerLength (0x16 : UInt8).toNat req rsp =
      .ok (1, 1, true) := rfl
  simp only [checkConfirmation, h.function, hreq, h.pre, ok_bind, computeResponseLength_mask hreq,
    h.length, if_neg hlow, true_or, if_true, ne_eq, not_true_eq_false, if_false, hvalues, and_self]
  rfl

/-- A request is built unless the slave of an RTU context is unset. -/
theorem buildRequestBasis_slave {ctx ctx' : Modbus} {function : Nat} {addr nb : Int}
    {req : List UInt8}
    (h : buildRequestBasis ctx function addr nb = .ok (req, ctx')) :
    ctx.backend = .rtu → ctx.slave ≠ -1 := by
  intro hbe hslave
  unfold buildRequestBasis at h
  rw [hbe] at h
  simp only [hslave, if_true] at h
  cases h

section Mask

variable (ctx : Modbus) (addr : Int) (andMask orMask : UInt16)

/-- The message of a mask write: a header, and its PDU behind it. -/
theorem message_mask (hslave : ctx.backend = .rtu → ctx.slave ≠ -1) :
    (Sender.maskWriteRegister addr andMask orMask).message ctx =
      .ok ((requestAdu ctx (maskPdu addr andMask orMask)).header ctx.backend ++
        maskPdu addr andMask orMask) := by
  rw [Sender.message, buildRequestBasis_adu hslave fcMaskWriteRegister addr 0
    (maskPdu addr andMask orMask), Except.map, ok_bind, take_basis, List.append_assoc]
  rfl

/-- The call is the exchange of this message. -/
theorem modbusMaskWriteRegister_exchange (os : Os σ) (st : St σ)
    (hslave : st.ctx.backend = .rtu → st.ctx.slave ≠ -1) :
    modbusMaskWriteRegister os st addr andMask orMask =
      (exchange os { st with ctx := st.ctx.next }
        ((requestAdu st.ctx (maskPdu addr andMask orMask)).header st.ctx.backend ++
          maskPdu addr andMask orMask)).map fun r => (r.1, r.2.2) := by
  have hreq : ((requestAdu st.ctx (maskPdu addr andMask orMask)).header st.ctx.backend ++
      [lo fcMaskWriteRegister, hi addr, lo addr]) ++
      [hi andMask.toNat, lo andMask.toNat, hi orMask.toNat, lo orMask.toNat] =
      (requestAdu st.ctx (maskPdu addr andMask orMask)).header st.ctx.backend ++
        maskPdu addr andMask orMask := List.append_assoc _ _ _
  rw [modbusMaskWriteRegister, buildRequestBasis_adu hslave fcMaskWriteRegister addr 0
    (maskPdu addr andMask orMask), ok_bind, map_eq_bind]
  simp only [take_basis, hreq]

/-- The PDU behind the header of the frame. -/
theorem rd_mask (be : Backend) {i : Nat} (hi : i < 7) :
    rd (sendMsgPre be ((requestAdu ctx (maskPdu addr andMask orMask)).header be ++
      maskPdu addr andMask orMask)) (be.headerLength + i) =
      rd (maskPdu addr andMask orMask) i := by
  have hpre : sendMsgPre be ((requestAdu ctx (maskPdu addr andMask orMask)).header be ++
      maskPdu addr andMask orMask) = _ :=
    sendMsgPre_header (requestAdu ctx (maskPdu addr andMask orMask))
  rw [hpre]
  exact Adu.rd_wrapped _ _ hi

theorem rd_mask_function (be : Backend) :
    rd (sendMsgPre be ((requestAdu ctx (maskPdu addr andMask orMask)).header be ++
      maskPdu addr andMask orMask)) be.headerLength = .ok 0x16 :=
  rd_mask ctx addr andMask orMask be (show 0 < 7 by decide)

end Mask

/-- A frame with other masks is taken for the echo. -/
theorem not_confirmedByEcho {os : Os σ} {st st₂ : St (Tapped σ)} {w : WriteCall}
    {req rsp : List UInt8} {rspLength : Int} (hw : w.IsMask)
    (hreceives : w.Receives (tapOs os) st req rsp rspLength st₂)
    (hother : OtherMasks st.ctx.backend req rsp rspLength) : ¬ ConfirmedByEcho os st w := by
  cases w with
  | maskRegister addr andMask orMask =>
    obtain ⟨msg, -, hmsg, rfl, hreceived⟩ := hreceives
    have hslave : st.ctx.backend = .rtu → st.ctx.slave ≠ -1 := by
      obtain ⟨basis, hbasis, -⟩ := bind_eq_ok.mp hmsg
      obtain ⟨⟨req, ctx'⟩, hreq, -⟩ := bind_eq_ok.mp ((map_eq_bind _ _).symm.trans hbasis)
      exact buildRequestBasis_slave hreq
    cases (message_mask _ addr andMask orMask hslave).symm.trans hmsg
    have hbe : st₂.ctx.backend = st.ctx.backend := hreceived.backend
    -- the call succeeds
    have hrun : (WriteCall.maskRegister addr andMask orMask).run (tapOs os) st = .ok (1, st₂) := by
      rw [WriteCall.run, modbusMaskWriteRegister_exchange _ _ _ _ _ hslave, exchange_of_arrived hreceived,
        checkConfirmation_mask (by rw [hbe]; exact rd_mask_function _ _ _ _ _)
          (by rw [hbe]; exact hother)]
      rfl
    intro hecho
    obtain ⟨h0, -⟩ | ⟨msg', rsp', count, hmsg', hconfirmed, hsame⟩ := hecho 1 st₂ hrun (by decide)
    · exact absurd h0 (by decide)
    cases hmsg.symm.trans hmsg'
    -- the frame it should echo is the one that was received
    have hrsp : rsp' = rsp :=
      List.append_cancel_left (hconfirmed.during.symm.trans hreceived.during)
    obtain ⟨i, hi, hne⟩ := hother.differs
    obtain ⟨b, hb, hb'⟩ := hsame i hi
    rw [hrsp] at hb'
    exact hne (hb.trans hb'.symm)
  | _ => exact hw.elim

/-- Without such a frame a mask write that does not fail is confirmed by its echo. -/
theorem confirmedByEcho_of_mask (os : Os σ) (st : St (Tapped σ)) {w : WriteCall} (hw : w.IsMask)
    (h : ∀ req rsp rspLength st₂, w.Receives (tapOs os) st req rsp rspLength st₂ →
      ¬ OtherMasks st.ctx.backend req rsp rspLength) : ConfirmedByEcho os st w := by
  intro rc st' hrun hrc
  cases w with
  | maskRegister addr andMask orMask =>
    have hslave : st.ctx.backend = .rtu → st.ctx.slave ≠ -1 := by
      obtain ⟨⟨req, ctx'⟩, hreq, -⟩ := bind_eq_ok.mp hrun
      exact buildRequestBasis_slave hreq
    rw [WriteCall.run, modbusMaskWriteRegister_exchange _ _ _ _ _ hslave, map_eq_bind] at hrun
    obtain ⟨⟨rc, rsp, st₁⟩, hexchange, hend⟩ := bind_eq_ok.mp hrun
    cases hend
    have hmsg := message_mask _ addr andMask orMask hslave
    set msg := (requestAdu st.ctx (maskPdu addr andMask orMask)).header st.ctx.backend ++
      maskPdu addr andMask orMask
    obtain ⟨htakes, rfl⟩ | ⟨rspLength, st₂, hreceived, hcheck⟩ := exchange_received hexchange hrc
    · exact Or.inl ⟨rfl, trivial, _, hmsg, htakes⟩
    have hbe : st₂.ctx.backend = st.ctx.backend := hreceived.backend
    have hpre := checkConfirmation_pre hcheck hrc
    obtain ⟨count, rfl, rfl, haccepted⟩ := checkConfirmation_accepted hcheck hrc
    rw [hbe] at hpre haccepted
    have hreq := rd_mask_function st.ctx addr andMask orMask st.ctx.backend
    obtain ⟨function, hf, hf', -⟩ := haccepted.function
    cases hreq.symm.trans hf'
    obtain ⟨computed, hcomputed, hlen⟩ := haccepted.length
    have hcomputed' := computeResponseLength_mask hreq
    cases hcomputed'.symm.trans hcomputed
    have hreceives : (WriteCall.maskRegister addr andMask orMask).Receives (tapOs os) st _ rsp
        rspLength _ := ⟨_, trivial, hmsg, rfl, hreceived⟩
    refine Or.inr ⟨_, rsp, count, hmsg, ⟨hreceived.during, ?_⟩, fun i hi => ?_⟩
    · obtain ⟨sent, st₁, -, -, hrcv, hne⟩ := hreceived
      exact ⟨st₁, _, rspLength, hne, hrcv, hcheck⟩
    -- the bytes are those of the request, or the frame would be one with other masks
    have hsame : rd (sendMsgPre st.ctx.backend msg) (st.ctx.backend.headerLength + i) =
        rd rsp (st.ctx.backend.headerLength + i) := by
      by_contra hne
      exact h _ _ _ _ hreceives ⟨hpre, hf, by omega, i, hi, hne⟩
    have hb := rd_mask st.ctx addr andMask orMask st.ctx.backend hi
    rw [rd_lt (show i < (maskPdu addr andMask orMask).length from hi)] at hb
    exact ⟨_, hb, hsame.symm.trans hb⟩
  | _ => exact hw.elim

/-- **A write is confirmed by its echo only**, on every context and system and whatever the peer
sends, unless it is a mask write that receives a frame with other masks; and then it is not. -/
theorem confirmed_by_echo_iff (os : Os σ) (st : St (Tapped σ)) (w : WriteCall) :
    ConfirmedByEcho os st w ↔
      ¬ (w.IsMask ∧ ∃ req rsp rspLength st₂, w.Receives (tapOs os) st req rsp rspLength st₂ ∧
        OtherMasks st.ctx.backend req rsp rspLength) := by
  constructor
  · rintro hecho ⟨hw, req, rsp, rspLength, st₂, hreceives, hother⟩
    exact not_confirmedByEcho hw hreceives hother hecho
  · intro h
    by_cases hw : w.IsMask
    · refine confirmedByEcho_of_mask os st hw fun req rsp rspLength st₂ hreceives hother => ?_
      exact h ⟨hw, req, rsp, rspLength, st₂, hreceives, hother⟩
    · exact confirmedByEcho_of_compared os st hw

/-- The masks 0x00F2 and 0x0025 are sent, 0xFFFF and 0x0000 come back, and the call returns 1. -/
theorem mask_write_confirmed_by_other_masks :
    ¬ ConfirmedByEcho (linkOs 1)
      ⟨(sampleSt .tcp 17 []).ctx, .EINVAL, ⟨⟨[0, 1, 0, 0, 0, 8, 17, 0x16, 0, 5, 0xFF, 0xFF, 0, 0],
        [], fun _ => 0⟩, []⟩⟩ (.maskRegister 5 0x00F2 0x0025) := by
  intro hecho
  obtain ⟨h0, -⟩ | ⟨msg, rsp, count, hmsg, hconfirmed, hsame⟩ := hecho 1 _ rfl (by decide)
  · exact absurd h0 (by decide)
  cases hmsg
  have hduring : [0, 1, 0, 0, 0, 8, 17, 0x16, 0, 5, 0xFF, 0xFF, 0, 0] = [] ++ rsp :=
    hconfirmed.during
  rw [List.nil_append] at hduring
  subst hduring
  obtain ⟨b, hb, hb'⟩ := hsame 3 (by decide)
  cases hb
  cases hb'

end Libmodbus
