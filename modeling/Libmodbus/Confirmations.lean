/-
Libmodbus/Confirmations.lean

What a client call may report.  One variable of the source carries in turn the
bytes sent, the bytes received and the values confirmed:

    rc of send_msg             0 < rc   the request has left
    rc of _modbus_receive_msg  rc ≠ -1  a frame has arrived
    rc of check_confirmation   rc ≠ -1  the frame answers the request

A confirmation that is accepted is taken apart once (`checkConfirmation_accepted`),
the loops that decode it are inverted (`readBitsLoop_decoded`,
`storeRegisters_decoded`), and `exchange_confirmed` joins the three meanings.  The
register calls report what they have decoded.  The bit calls report the number
they were asked for, and do so also when the system has taken no byte of the
request (`success_means_received_iff`).
-/
import Libmodbus.Calls
import Libmodbus.Senders

namespace Libmodbus

open CSem Wire Posix

variable {σ : Type} {be : Backend}

/-! ### Accepted confirmations -/

theorem refuseConfirmation_rc {os : Os σ} {st st' : St σ} {rc : Int}
    (h : refuseConfirmation os st = .ok (rc, st')) : rc = -1 := by
  unfold refuseConfirmation at h
  split_ifs at h
  · obtain ⟨st₁, -, h⟩ := bind_eq_ok.mp h
    cases h
    rfl
  · cases h
    rfl

/-- What is behind a confirmation that is not refused: it echoes the function, has the length the
request asks for, and as many values. -/
structure Accepted (be : Backend) (req rsp : List UInt8) (rspLength : Int) (count : Nat) :
    Prop where
  function : ∃ function, rd rsp be.headerLength = .ok function ∧
    rd req be.headerLength = .ok function ∧
    confirmationValues be.headerLength function.toNat req rsp = .ok (count, count, true)
  length : ∃ computed, computeResponseLengthFromRequest be req = .ok computed ∧
    (rspLength = computed ∨ computed = -1)

/-- Whatever is accepted is, and checking it has changed nothing. -/
theorem checkConfirmation_accepted {os : Os σ} {st st' : St σ} {req rsp : List UInt8}
    {rspLength rc : Int} (h : checkConfirmation os st req rsp rspLength = .ok (rc, st'))
    (hrc : rc ≠ -1) :
    ∃ count : Nat, rc = count ∧ st' = st ∧ Accepted st.ctx.backend req rsp rspLength count := by
  obtain ⟨function, hfunction, h⟩ := bind_eq_ok.mp h
  obtain ⟨pre, -, h⟩ := bind_eq_ok.mp h
  cases pre with
  | some e =>
    simp only at h
    split_ifs at h
    · obtain ⟨st₁, -, h⟩ := bind_eq_ok.mp h
      cases h
      exact absurd rfl hrc
    · cases h
      exact absurd rfl hrc
  | none =>
    obtain ⟨computed, hcomputed, h⟩ := bind_eq_ok.mp h
    obtain ⟨reqFunction, hreq, h⟩ := bind_eq_ok.mp h
    by_cases h80 : 0x80 ≤ function.toNat
    · -- every exception response is an error
      rw [if_pos h80] at h
      split_ifs at h
      · obtain ⟨code, -, h⟩ := bind_eq_ok.mp h
        split_ifs at h
        · cases h
          exact absurd rfl hrc
        · cases h
          exact absurd rfl hrc
      · cases h
        exact absurd rfl hrc
    rw [if_neg h80] at h
    by_cases hlen : rspLength = computed ∨ computed = -1
    · rw [if_pos hlen] at h
      by_cases hne : function ≠ reqFunction
      · rw [if_pos hne] at h
        exact absurd (refuseConfirmation_rc h) hrc
      rw [if_neg hne] at h
      obtain ⟨⟨reqNbValue, rspNbValue, echoOk⟩, hvalues, h⟩ := bind_eq_ok.mp h
      simp only at h
      -- only here a value other than -1 is returned
      by_cases hsame : reqNbValue = rspNbValue ∧ echoOk = true
      · rw [if_pos hsame] at h
        cases h
        obtain ⟨rfl, rfl⟩ := hsame
        rw [← not_not.mp hne] at hreq
        exact ⟨reqNbValue, rfl, rfl, ⟨function, hfunction, hreq, hvalues⟩, computed, hcomputed, hlen⟩
      · rw [if_neg hsame] at h
        exact absurd (refuseConfirmation_rc h) hrc
    · rw [if_neg hlen] at h
      exact absurd (refuseConfirmation_rc h) hrc

/-- It has passed the pre-check of the backend. -/
theorem checkConfirmation_pre {os : Os σ} {st st' : St σ} {req rsp : List UInt8}
    {rspLength rc : Int} (h : checkConfirmation os st req rsp rspLength = .ok (rc, st'))
    (hrc : rc ≠ -1) : preCheckConfirmation st.ctx.backend req rsp = .ok none := by
  obtain ⟨function, -, h⟩ := bind_eq_ok.mp h
  obtain ⟨pre, hpre, h⟩ := bind_eq_ok.mp h
  cases pre with
  | none => exact hpre
  | some e =>
    simp only at h
    split_ifs at h
    · obtain ⟨st₁, -, h⟩ := bind_eq_ok.mp h
      cases h
      exact absurd rfl hrc
    · cases h
      exact absurd rfl hrc

section

variable {req rsp : List UInt8} {rspLength : Int} {count : Nat} {function h l : UInt8}

/-- A response with bits has a byte for every eight bits that were asked for. -/
theorem Accepted.bits (ha : Accepted be req rsp rspLength count)
    (hf : rd req be.headerLength = .ok function)
    (hbits : function.toNat = fcReadCoils ∨ function.toNat = fcReadDiscreteInputs)
    (hh : rd req (be.headerLength + 3) = .ok h) (hl : rd req (be.headerLength + 4) = .ok l) :
    count = (word h l + 7) / 8 ∧
      ∃ byteCount, rd rsp (be.headerLength + 1) = .ok byteCount ∧ byteCount.toNat = count := by
  obtain ⟨function', -, hf', hvalues⟩ := ha.function
  cases hf.symm.trans hf'
  rw [confirmationValues, if_pos hbits, hh, ok_bind, hl, ok_bind] at hvalues
  obtain ⟨byteCount, hbyte, hvalues⟩ := bind_eq_ok.mp hvalues
  obtain ⟨hreq, hrsp⟩ := Prod.mk.inj (Except.ok.inj hvalues)
  obtain ⟨hrsp, -⟩ := Prod.mk.inj hrsp
  refine ⟨?_, byteCount, hbyte, hrsp⟩
  split_ifs at hreq <;> omega

/-- A response with registers has two bytes for each of them. -/
theorem Accepted.registers (ha : Accepted be req rsp rspLength count)
    (hf : rd req be.headerLength = .ok function)
    (hregisters : function.toNat = fcWriteAndReadRegisters ∨
      function.toNat = fcReadHoldingRegisters ∨ function.toNat = fcReadInputRegisters) :
    ∃ byteCount, rd rsp (be.headerLength + 1) = .ok byteCount ∧ byteCount.toNat / 2 = count := by
  obtain ⟨function', -, hf', hvalues⟩ := ha.function
  cases hf.symm.trans hf'
  have hbits : ¬ (function.toNat = fcReadCoils ∨ function.toNat = fcReadDiscreteInputs) := by
    simp only [fcWriteAndReadRegisters, fcReadHoldingRegisters, fcReadInputRegisters,
      fcReadCoils, fcReadDiscreteInputs] at hregisters ⊢
    omega
  rw [confirmationValues, if_neg hbits, if_pos hregisters] at hvalues
  obtain ⟨h, -, hvalues⟩ := bind_eq_ok.mp hvalues
  obtain ⟨l, -, hvalues⟩ := bind_eq_ok.mp hvalues
  obtain ⟨byteCount, hbyte, hvalues⟩ := bind_eq_ok.mp hvalues
  obtain ⟨-, hrsp⟩ := Prod.mk.inj (Except.ok.inj hvalues)
  exact ⟨byteCount, hbyte, (Prod.mk.inj hrsp).1⟩

end

/-! ### What is decoded -/

/-- The data of a response that says how many bytes of it there are. -/
def responseData (be : Backend) (rsp : List UInt8) : List UInt8 :=
  (rsp.drop (be.headerLength + 2)).take (rsp.getD (be.headerLength + 1) 0).toNat

/-- The value of bit `i`. -/
def decodedBit (data : List UInt8) (i : Nat) : Option UInt8 :=
  (data[i / 8]?).map fun b => bitByte (b.toNat.testBit (i % 8))

/-- The value of register `i`. -/
def decodedRegister (data : List UInt8) (i : Nat) : Option UInt16 := do
  let h ← data[2 * i]?
  let l ← data[2 * i + 1]?
  some (UInt16.ofNat (word h l))

theorem getElem?_responseData {rsp : List UInt8} {byteCount : UInt8} {i : Nat}
    (h : rd rsp (be.headerLength + 1) = .ok byteCount) (hi : i < byteCount.toNat) :
    (responseData be rsp)[i]? = rsp[be.headerLength + 2 + i]? := by
  rw [responseData, List.getD, rd_eq_ok.mp h, Option.getD_some, List.getElem?_take_of_lt hi,
    List.getElem?_drop]

/-- One byte: `k` of its bits are done, and `n` are left. -/
theorem readByteLoop_decoded {temp nb k n pos pos' : Nat} {dest dest' : List UInt8}
    (hpos : pos ≤ nb) (h : readByteLoop temp nb n (1 <<< k) pos dest = .ok (pos', dest')) :
    pos' = min (pos + n) nb ∧ ∀ i, dest'[i]? =
      if pos ≤ i ∧ i < pos' then some (bitByte (temp.testBit (k + (i - pos)))) else dest[i]? := by
  induction n generalizing k pos dest with
  | zero =>
    cases h
    refine ⟨by omega, fun i => ?_⟩
    rw [if_neg (by omega)]
  | succ n ih =>
    rw [readByteLoop] at h
    by_cases hlt : pos < nb
    · have hbit : (if temp &&& 1 <<< k ≠ 0 then (1 : UInt8) else 0) = bitByte (temp.testBit k) := by
        simp only [and_shiftLeft_ne_zero]
        rfl
      rw [if_pos hlt, hbit] at h
      obtain ⟨dest₁, hwr, h⟩ := bind_eq_ok.mp h
      obtain ⟨hroom, rfl⟩ := wr_eq_ok hwr
      rw [← Nat.shiftLeft_add] at h
      obtain ⟨hpos', hrest⟩ := ih hlt h
      refine ⟨by omega, fun i => ?_⟩
      rw [hrest i]
      rcases Nat.lt_trichotomy i pos with hi | rfl | hi
      · rw [if_neg (by omega), if_neg (by omega), List.getElem?_set_ne (by omega)]
      · -- the bit of this turn, which the later ones leave alone
        rw [if_neg (by omega), if_pos (by omega), List.getElem?_set_self hroom, Nat.sub_self]
        rfl
      · by_cases hi' : i < pos'
        · rw [if_pos (by omega), if_pos (by omega),
            show k + 1 + (i - (pos + 1)) = k + (i - pos) by omega]
        · rw [if_neg (by omega), if_neg (by omega), List.getElem?_set_ne (by omega)]
    · rw [if_neg hlt] at h
      cases h
      refine ⟨by omega, fun i => ?_⟩
      rw [if_neg (by omega)]

/-- The bytes from `start + q` on give the bits from `8 * q` on. -/
theorem readBitsLoop_decoded {rsp dest dest' : List UInt8} {nb start q n : Nat}
    (h : readBitsLoop rsp nb (start + q) n (min (8 * q) nb) dest = .ok dest') (i : Nat) :
    (i < 8 * q → dest'[i]? = dest[i]?) ∧
      (8 * q ≤ i → i < 8 * (q + n) → i < nb →
        ∃ b, rsp[start + i / 8]? = some b ∧
          dest'[i]? = some (bitByte (b.toNat.testBit (i % 8)))) := by
  induction n generalizing q dest with
  | zero =>
    cases h
    exact ⟨fun _ => rfl, fun _ _ _ => by omega⟩
  | succ n ih =>
    rw [readBitsLoop] at h
    obtain ⟨temp, htemp, h⟩ := bind_eq_ok.mp h
    obtain ⟨⟨pos, dest₁⟩, hbyte, h⟩ := bind_eq_ok.mp h
    rw [show (0x01 : Nat) = 1 <<< 0 from rfl] at hbyte
    obtain ⟨rfl, hset⟩ := readByteLoop_decoded (by omega) hbyte
    have hstep : readBitsLoop rsp nb (start + (q + 1)) n (min (8 * (q + 1)) nb) dest₁ =
        .ok dest' := by
      rw [show min (8 * (q + 1)) nb = min (min (8 * q) nb + 8) nb by omega]
      exact h
    obtain ⟨hbefore, hafter⟩ := ih hstep
    refine ⟨fun hi => ?_, fun hle hlt hnb => ?_⟩
    · rw [hbefore (by omega), hset i, if_neg (by omega)]
    · by_cases hbyte : i < 8 * (q + 1)
      · have hdiv : i / 8 = q := by omega
        refine ⟨temp, ?_, ?_⟩
        · rw [hdiv]
          exact rd_eq_ok.mp htemp
        · rw [hbefore hbyte, hset i, if_pos (by omega),
            show 0 + (i - min (8 * q) nb) = i % 8 by omega]
      · exact hafter (by omega) (by omega) hnb

/-- The registers from index `i` on. -/
theorem storeRegisters_decoded {rsp : List UInt8} {dest dest' : List UInt16} {i n : Nat}
    (h : storeRegisters rsp be.headerLength i n dest = .ok dest') (j : Nat) :
    (j < i → dest'[j]? = dest[j]?) ∧
      (i ≤ j → j < i + n → ∃ h l, rsp[be.headerLength + 2 + 2 * j]? = some h ∧
        rsp[be.headerLength + 3 + 2 * j]? = some l ∧
        dest'[j]? = some (UInt16.ofNat (word h l))) := by
  induction n generalizing i dest with
  | zero =>
    cases h
    exact ⟨fun _ => rfl, fun _ _ => by omega⟩
  | succ n ih =>
    rw [storeRegisters] at h
    obtain ⟨hb, hh, h⟩ := bind_eq_ok.mp h
    obtain ⟨lb, hl, h⟩ := bind_eq_ok.mp h
    obtain ⟨dest₁, hwr, h⟩ := bind_eq_ok.mp h
    obtain ⟨hroom, rfl⟩ := wr_eq_ok hwr
    obtain ⟨hbefore, hafter⟩ := ih h
    refine ⟨fun hj => ?_, fun hle hlt => ?_⟩
    · rw [hbefore (by omega), List.getElem?_set_ne (by omega)]
    · rcases Nat.eq_or_lt_of_le hle with rfl | hlt'
      · refine ⟨hb, lb, rd_eq_ok.mp hh, rd_eq_ok.mp hl, ?_⟩
        rw [hbefore (Nat.lt_succ_self i), List.getElem?_set_self hroom]
      · exact hafter hlt' (by omega)

/-! ### The request that is checked -/

theorem buildRequestBasis_next {ctx ctx' : Modbus} {function : Nat} {addr nb : Int}
    {req : List UInt8} (h : buildRequestBasis ctx function addr nb = .ok (req, ctx')) :
    ctx' = ctx.next := by
  rcases ctx with ⟨backend, slave, s, errorRecovery, quirks, rt, bt, it, tId, flag⟩
  cases backend with
  | rtu =>
    unfold buildRequestBasis at h
    simp only at h
    split_ifs at h
    cases h
    rfl
  | tcp =>
    cases h
    rfl

/-- What `check_confirmation` finds in the request: the function and the number of values. -/
theorem buildRequestBasis_fields {ctx ctx' : Modbus} {function : Nat} {addr nb : Int}
    {req : List UInt8} (h : buildRequestBasis ctx function addr nb = .ok (req, ctx'))
    (more : List UInt8) :
    rd (sendMsgPre ctx.backend (req ++ more)) ctx.backend.headerLength = .ok (lo function) ∧
      rd (sendMsgPre ctx.backend (req ++ more)) (ctx.backend.headerLength + 3) = .ok (hi nb) ∧
      rd (sendMsgPre ctx.backend (req ++ more)) (ctx.backend.headerLength + 4) = .ok (lo nb) := by
  rcases ctx with ⟨backend, slave, s, errorRecovery, quirks, rt, bt, it, tId, flag⟩
  cases backend with
  | rtu =>
    unfold buildRequestBasis at h
    simp only at h
    split_ifs at h
    cases h
    exact ⟨rfl, rfl, rfl⟩
  | tcp =>
    cases h
    exact ⟨rfl, rfl, rfl⟩

/-! ### The three meanings of `rc` -/

/-- The system takes nothing of the frame: at the first attempt, or when the link has been
recovered after failures. -/
def TakesNone (os : Os σ) (frame : List UInt8) : Nat → St σ → Prop
  | 0, _ => False
  | fuel + 1, st =>
    match os.send frame st.os with
    | (.ok n, _) => n = 0
    | (.error e, s) => st.ctx.errorRecovery.link = true ∧
      ∃ st', recoverSend os { st with errno := .sys e, os := s } = .ok st' ∧
        TakesNone os frame fuel st'

/-- That is when `send_msg` returns 0. -/
theorem sendLoop_zero_iff {os : Os σ} {frame : List UInt8} {fuel : Nat} {st : St σ} :
    (∃ st', sendLoop os fuel st frame = .ok (0, st')) ↔ TakesNone os frame fuel st := by
  induction fuel generalizing st with
  | zero =>
    constructor
    · rintro ⟨st', h⟩
      cases h
    · exact False.elim
  | succ fuel ih =>
    rw [sendLoop, TakesNone]
    rcases os.send frame st.os with ⟨e | n, s⟩
    · simp only
      by_cases hlink : st.ctx.errorRecovery.link = true
      · rw [if_pos hlink]
        constructor
        · rintro ⟨st', h⟩
          obtain ⟨st₁, hrec, h⟩ := bind_eq_ok.mp h
          exact ⟨hlink, st₁, hrec, ih.mp ⟨st', h⟩⟩
        · rintro ⟨-, st₁, hrec, h⟩
          obtain ⟨st', hst'⟩ := ih.mpr h
          exact ⟨st', by rw [hrec, ok_bind, hst']⟩
      · rw [if_neg hlink]
        constructor
        · rintro ⟨st', h⟩
          cases h
        · rintro ⟨h, -⟩
          exact absurd h hlink
    · simp only
      split_ifs with h
      · constructor
        · rintro ⟨st', h'⟩
          cases h'
        · intro h'
          omega
      · constructor
        · rintro ⟨st', h'⟩
          have hn : ((n : Nat) : Int) = 0 := congrArg Prod.fst (Except.ok.inj h')
          omega
        · rintro rfl
          exact ⟨_, rfl⟩

theorem sendLoop_rc {os : Os σ} {frame : List UInt8} {fuel : Nat} {st st' : St σ} {rc : Int}
    (h : sendLoop os fuel st frame = .ok (rc, st')) : -1 ≤ rc := by
  induction fuel generalizing st with
  | zero => cases h
  | succ fuel ih =>
    rw [sendLoop] at h
    rcases hr : os.send frame st.os with ⟨e | n, s⟩
    · rw [hr] at h
      simp only at h
      split_ifs at h
      · obtain ⟨st₁, -, h⟩ := bind_eq_ok.mp h
        exact ih h
      · cases h
        exact Int.le_refl _
    · rw [hr] at h
      simp only at h
      split_ifs at h
      · cases h
        exact Int.le_refl _
      · cases h
        omega

/-- During a call that has begun in `st` the frame `rsp` was received, and accepted as the
confirmation of `req`, for `count` values; `st'` is what is left. -/
structure Confirmed (os : Os σ) (st : St (Tapped σ)) (req rsp : List UInt8) (count : Nat)
    (st' : St (Tapped σ)) : Prop where
  during : st'.os.received = st.os.received ++ rsp
  accepted : ∃ st₁ st₂ rc, rc ≠ -1 ∧
    modbusReceiveMsg (tapOs os) st₁ .confirmation = .ok (rc, rsp, st₂) ∧
    checkConfirmation (tapOs os) st₂ req rsp rc = .ok ((count : Int), st')

/-- The exchange sends `req` and receives `rsp`: there is something to check. -/
def Arrived (os : Os σ) (st : St σ) (req rsp : List UInt8) (rspLength : Int) (st₂ : St σ) : Prop :=
  ∃ sent st₁, sendMsg os st req = .ok (sent, st₁) ∧ 0 < sent ∧
    modbusReceiveMsg os st₁ .confirmation = .ok (rspLength, rsp, st₂) ∧ rspLength ≠ -1

theorem Arrived.backend {os : Os σ} {st st₂ : St σ} {req rsp : List UInt8} {rspLength : Int}
    (h : Arrived os st req rsp rspLength st₂) : st₂.ctx.backend = st.ctx.backend := by
  obtain ⟨sent, st₁, hsend, -, hrcv, -⟩ := h
  have hsent := (sendMsg_moved (obeys_any os) st trivial).result hsend
  have hreceived := (modbusReceiveMsg_moved (obeys_any os) st₁ .confirmation).result hrcv
  exact hreceived.backend.trans hsent.backend

theorem exchange_of_arrived {os : Os σ} {st st₂ : St σ} {req rsp : List UInt8} {rspLength : Int}
    (h : Arrived os st req rsp rspLength st₂) :
    exchange os st req =
      (checkConfirmation os st₂ (sendMsgPre st.ctx.backend req) rsp rspLength).map fun r =>
        (r.1, rsp, r.2) := by
  have hbe := h.backend
  obtain ⟨sent, st₁, hsend, hpos, hrcv, hne⟩ := h
  simp only [exchange, hsend, ok_bind, if_pos hpos, hrcv, if_neg hne, hbe]
  rfl

/-- An exchange that does not fail has sent nothing, or has received a frame and checked it. -/
theorem exchange_received {os : Os σ} {st st' : St σ} {req rsp : List UInt8} {rc : Int}
    (h : exchange os st req = .ok (rc, rsp, st')) (hrc : rc ≠ -1) :
    (TakesNone os (sendMsgPre st.ctx.backend req) os.fuel st ∧ rc = 0) ∨
      ∃ rspLength st₂, Arrived os st req rsp rspLength st₂ ∧
        checkConfirmation os st₂ (sendMsgPre st.ctx.backend req) rsp rspLength = .ok (rc, st') := by
  obtain ⟨⟨sent, st₁⟩, hsend, h⟩ := bind_eq_ok.mp h
  simp only at h
  by_cases hpos : 0 < sent
  · rw [if_pos hpos] at h
    obtain ⟨⟨rc₁, rsp₁, st₂⟩, hrcv, h⟩ := bind_eq_ok.mp h
    simp only at h
    by_cases hfail : rc₁ = -1
    · rw [if_pos hfail] at h
      cases h
      exact absurd rfl hrc
    rw [if_neg hfail] at h
    obtain ⟨⟨rc₂, st₃⟩, hcheck, h⟩ := bind_eq_ok.mp h
    cases h
    have hreceived : Arrived os st req rsp rc₁ st₂ := ⟨sent, st₁, hsend, hpos, hrcv, hfail⟩
    simp only [hreceived.backend] at hcheck
    exact Or.inr ⟨rc₁, st₂, hreceived, hcheck⟩
  · rw [if_neg hpos] at h
    cases h
    have hge := sendLoop_rc hsend
    obtain rfl : rc = 0 := by omega
    exact Or.inl ⟨sendLoop_zero_iff.mp ⟨_, hsend⟩, rfl⟩

/-- The record of an exchange grows by the frame it receives, and by nothing else. -/
theorem Arrived.during {os : Os σ} {st st₂ : St (Tapped σ)} {req rsp : List UInt8}
    {rspLength : Int} (h : Arrived (tapOs os) st req rsp rspLength st₂) :
    st₂.os.received = st.os.received ++ rsp := by
  obtain ⟨sent, st₁, hsend, -, hrcv, hne⟩ := h
  have hmoved := (sendMsg_received os st req).result hsend
  obtain ⟨a, e, s', -, -, -, htook, rfl⟩ := modbusReceiveMsg_is_adu (tapOs_tracked os) hne hrcv
  have hos : s'.received = st₁.os.received ++ rsp := htook
  rw [hos, show st₁.os.received = st.os.received from hmoved.os]

/-- An exchange that does not fail has sent nothing, or is confirmed. -/
theorem exchange_confirmed {os : Os σ} {st st' : St (Tapped σ)} {req rsp : List UInt8} {rc : Int}
    (hbe : st.ctx.backend = be) (h : exchange (tapOs os) st req = .ok (rc, rsp, st'))
    (hrc : rc ≠ -1) :
    st'.ctx.backend = be ∧
      ((TakesNone (tapOs os) (sendMsgPre be req) os.fuel st ∧ rc = 0) ∨
        ∃ (count : Nat) (rspLength : Int), rc = count ∧
          Accepted be (sendMsgPre be req) rsp rspLength count ∧
          Confirmed os st (sendMsgPre be req) rsp count st') := by
  subst hbe
  have hbe : st'.ctx.backend = st.ctx.backend :=
    ((exchange_moved (obeys_any _) st trivial).result h).backend
  refine ⟨hbe, (exchange_received h hrc).imp (fun h => h) ?_⟩
  rintro ⟨rspLength, st₂, hreceived, hcheck⟩
  obtain ⟨count, rfl, rfl, haccepted⟩ := checkConfirmation_accepted hcheck hrc
  rw [hbe] at haccepted
  have hduring := hreceived.during
  obtain ⟨sent, st₁, -, -, hrcv, hne⟩ := hreceived
  exact ⟨count, rspLength, rfl, haccepted, hduring, st₁, _, rspLength, hne, hrcv, hcheck⟩

/-! ### Reported success -/

/-- If the call returns a positive number, a frame was received during it and accepted as the
confirmation of its request, and that many values in `dest` are those the frame holds. -/
def Reported {α : Type} (os : Os σ) (st : St (Tapped σ)) (s : Sender)
    (decoded : List UInt8 → Nat → Option α) (x : Run (Int × List α × St (Tapped σ))) : Prop :=
  ∀ rc dest' st', x = .ok (rc, dest', st') → 0 < rc →
    ∃ msg rsp count, s.message st.ctx = .ok msg ∧
      Confirmed os st (sendMsgPre st.ctx.backend msg) rsp count st' ∧
      ∀ i < rc.toNat, ∃ v, decoded (responseData st.ctx.backend rsp) i = some v ∧
        dest'[i]? = some v

/-- The request of the call is built, and the system takes nothing of it. -/
def SendsNothing (os : Os σ) (st : St (Tapped σ)) (s : Sender) : Prop :=
  s.Accepted st.ctx.backend ∧ ∃ msg, s.message st.ctx = .ok msg ∧
    TakesNone (tapOs os) (sendMsgPre st.ctx.backend msg) os.fuel { st with ctx := st.ctx.next }

section

variable {os : Os σ} {st : St (Tapped σ)}

theorem Confirmed.rsp_ne_nil {st' : St (Tapped σ)} {req rsp : List UInt8} {count : Nat}
    (h : Confirmed os st req rsp count st') : rsp ≠ [] := by
  rintro rfl
  obtain ⟨st₁, st₂, rc, -, -, hcheck⟩ := h.accepted
  obtain ⟨function, hf, -⟩ := bind_eq_ok.mp hcheck
  cases rd_eq_ok.mp hf

/-- Bits are reported only if they were received, unless nothing of the request is taken. -/
theorem readBits_reported {s : Sender} {function : Nat} {addr nb : Int} {dest : List UInt8}
    (hf : function = fcReadCoils ∨ function = fcReadDiscreteInputs)
    (hs : s.message st.ctx = (buildRequestBasis st.ctx function addr nb).map Prod.fst)
    (hlimit : s.Accepted st.ctx.backend ↔ ¬ (nb < 1 ∨ (maxReadBits : Int) < nb)) :
    Reported os st s decodedBit (readBits (tapOs os) st function addr nb dest) ↔
      ¬ SendsNothing os st s := by
  constructor
  · rintro hrep ⟨hok, msg, hmsg, htakes⟩
    have hnb := hlimit.mp hok
    rw [hs] at hmsg
    obtain ⟨⟨req, ctx'⟩, hreq, hmsg⟩ : ∃ r, buildRequestBasis st.ctx function addr nb = .ok r ∧
        r.1 = msg := by
      cases hb : buildRequestBasis st.ctx function addr nb with
      | error e =>
        rw [hb] at hmsg
        cases hmsg
      | ok r =>
        rw [hb] at hmsg
        exact ⟨r, rfl, Except.ok.inj hmsg⟩
    obtain rfl : req = msg := hmsg
    obtain rfl := buildRequestBasis_next hreq
    obtain ⟨st', hsend⟩ := sendLoop_zero_iff.mpr htakes
    have hsend' : sendMsg (tapOs os) { st with ctx := st.ctx.next } req = .ok (0, st') := hsend
    have hcall : readBits (tapOs os) st function addr nb dest = .ok (nb, dest, st') := by
      simp only [readBits, if_neg hnb, readIoStatus, hreq, ok_bind, exchange, hsend']
      rfl
    -- the call reports `nb` bits, and has received none
    obtain ⟨msg, rsp, count, -, hconfirmed, -⟩ := hrep nb dest st' hcall (by omega)
    have hnone : st'.os.received = st.os.received :=
      ((sendMsg_received os { st with ctx := st.ctx.next } req).result hsend').os
    have hduring := hconfirmed.during
    rw [hnone, List.self_eq_append_right] at hduring
    exact hconfirmed.rsp_ne_nil hduring
  · intro hsome rc dest' st' h hpos
    by_cases hnb : nb < 1 ∨ (maxReadBits : Int) < nb
    · rw [readBits, if_pos hnb] at h
      cases h
      exact absurd hpos (by decide)
    rw [readBits, if_neg hnb] at h
    obtain ⟨⟨rc₁, dest₁, st₁⟩, hcall, h⟩ := bind_eq_ok.mp h
    simp only at h
    by_cases hfail : rc₁ = -1
    · rw [if_pos hfail] at h
      cases h
      exact absurd hpos (by decide)
    rw [if_neg hfail] at h
    cases h
    obtain ⟨⟨req, ctx'⟩, hreq, hcall⟩ := bind_eq_ok.mp hcall
    obtain rfl := buildRequestBasis_next hreq
    obtain ⟨⟨rc₂, rsp, st₂⟩, hexchange, hcall⟩ := bind_eq_ok.mp hcall
    simp only at hcall
    by_cases hfail₂ : rc₂ = -1
    · rw [if_pos hfail₂] at hcall
      cases hcall
      exact absurd rfl hfail
    rw [if_neg hfail₂] at hcall
    obtain ⟨dest₂, hloop, hcall⟩ := bind_eq_ok.mp hcall
    cases hcall
    have hmsg : s.message st.ctx = .ok req := by
      rw [hs, hreq]
      rfl
    have hbe : ({ st with ctx := st.ctx.next } : St (Tapped σ)).ctx.backend = st.ctx.backend := rfl
    obtain ⟨hbe', ⟨htakes, -⟩ | ⟨count, rspLength, rfl, haccepted, hconfirmed⟩⟩ :=
      exchange_confirmed hbe hexchange hfail
    · exact absurd ⟨hlimit.mpr hnb, req, hmsg, htakes⟩ hsome
    refine ⟨req, rsp, count, hmsg, ⟨hconfirmed.during, hconfirmed.accepted⟩, fun i hlt => ?_⟩
    obtain ⟨hfc, hh, hl⟩ := buildRequestBasis_fields hreq []
    rw [List.append_nil] at hfc hh hl
    have hbits : (lo function).toNat = fcReadCoils ∨ (lo function).toNat = fcReadDiscreteInputs := by
      rcases hf with rfl | rfl
      · exact Or.inl rfl
      · exact Or.inr rfl
    obtain ⟨hcount, byteCount, hbyte, hvalue⟩ := haccepted.bits hfc hbits hh hl
    rw [hbe', Int.toNat_natCast] at hloop
    have hword : word (hi nb) (lo nb) = nb.toNat := by
      have := word_hi_lo (show 0 ≤ nb by omega) (show nb < 65536 by
        simp only [maxReadBits] at hnb
        omega)
      omega
    rw [hword] at hcount
    -- every bit that was asked for is in one of the bytes that were decoded
    obtain ⟨-, hdecoded⟩ := readBitsLoop_decoded (q := 0) hloop i
    obtain ⟨b, hb, hdest⟩ := hdecoded (by omega) (by omega) hlt
    refine ⟨_, ?_, hdest⟩
    rw [decodedBit, getElem?_responseData hbyte (by omega), hb]
    rfl

/-- The registers of a confirmation are those that are reported. -/
theorem exchange_registers {s : Sender} {function : Nat} {addr nb : Int} {req more : List UInt8}
    {dest dest' : List UInt16} {ctx' : Modbus} {st' : St (Tapped σ)} {rc : Int}
    (hf : function = fcWriteAndReadRegisters ∨ function = fcReadHoldingRegisters ∨
      function = fcReadInputRegisters)
    (hreq : buildRequestBasis st.ctx function addr nb = .ok (req, ctx'))
    (hmsg : s.message st.ctx = .ok (req ++ more)) (hpos : 0 < rc)
    (h : (do
      let (rc, rsp, st) ← exchange (tapOs os) { st with ctx := ctx' } (req ++ more)
      if rc = -1 then .ok (-1, dest, st)
      else
        let dest ← storeRegisters rsp st.ctx.backend.headerLength 0 rc.toNat dest
        .ok (rc, dest, st)) = .ok (rc, dest', st')) :
    ∃ msg rsp count, s.message st.ctx = .ok msg ∧
      Confirmed os st (sendMsgPre st.ctx.backend msg) rsp count st' ∧
      ∀ i < rc.toNat, ∃ v, decodedRegister (responseData st.ctx.backend rsp) i = some v ∧
        dest'[i]? = some v := by
  obtain rfl := buildRequestBasis_next hreq
  obtain ⟨⟨rc₁, rsp, st₁⟩, hexchange, h⟩ := bind_eq_ok.mp h
  simp only at h
  by_cases hfail : rc₁ = -1
  · rw [if_pos hfail] at h
    cases h
    exact absurd hpos (by decide)
  rw [if_neg hfail] at h
  obtain ⟨dest₁, hstore, h⟩ := bind_eq_ok.mp h
  cases h
  have hbe : ({ st with ctx := st.ctx.next } : St (Tapped σ)).ctx.backend = st.ctx.backend := rfl
  obtain ⟨hbe', ⟨-, rfl⟩ | ⟨count, rspLength, rfl, haccepted, hconfirmed⟩⟩ :=
    exchange_confirmed hbe hexchange hfail
  · exact absurd hpos (by decide)
  rw [hbe', Int.toNat_natCast] at hstore
  refine ⟨_, rsp, count, hmsg, ⟨hconfirmed.during, hconfirmed.accepted⟩, fun i hlt => ?_⟩
  rw [Int.toNat_natCast] at hlt
  -- the byte count that was accepted covers every register that is stored
  obtain ⟨hfc, -, -⟩ := buildRequestBasis_fields hreq more
  have hregisters : (lo function).toNat = fcWriteAndReadRegisters ∨
      (lo function).toNat = fcReadHoldingRegisters ∨
      (lo function).toNat = fcReadInputRegisters := by
    rcases hf with rfl | rfl | rfl
    · exact Or.inl rfl
    · exact Or.inr (Or.inl rfl)
    · exact Or.inr (Or.inr rfl)
  obtain ⟨byteCount, hbyte, hvalue⟩ := haccepted.registers hfc hregisters
  obtain ⟨-, hdecoded⟩ := storeRegisters_decoded hstore i
  obtain ⟨h, l, hh, hl, hdest⟩ := hdecoded (Nat.zero_le i) (by omega)
  refine ⟨_, ?_, hdest⟩
  rw [decodedRegister, getElem?_responseData hbyte (by omega),
    getElem?_responseData hbyte (by omega), hh,
    show st.ctx.backend.headerLength + 2 + (2 * i + 1) =
      st.ctx.backend.headerLength + 3 + 2 * i by omega, hl]
  rfl

/-- Registers are reported only if they were received. -/
theorem readRegisters_reported {s : Sender} {function : Nat} {addr nb : Int} {dest : List UInt16}
    (hf : function = fcReadHoldingRegisters ∨ function = fcReadInputRegisters)
    (hs : s.message st.ctx = (buildRequestBasis st.ctx function addr nb).map Prod.fst) :
    Reported os st s decodedRegister (readAnyRegisters (tapOs os) st function addr nb dest) := by
  intro rc dest' st' h hpos
  rw [readAnyRegisters, readRegistersCall] at h
  split_ifs at h
  · cases h
    exact absurd hpos (by decide)
  · cases h
    exact absurd hpos (by decide)
  · obtain ⟨⟨req, ctx'⟩, hreq, h⟩ := bind_eq_ok.mp h
    have hmsg : s.message st.ctx = .ok (req ++ []) := by
      rw [hs, hreq, List.append_nil]
      rfl
    rw [← List.append_nil req] at h
    exact exchange_registers (Or.inr hf) hreq hmsg hpos h

theorem writeAndRead_reported {writeAddr writeNb readAddr readNb : Int} {src dest : List UInt16} :
    Reported os st (.writeAndReadRegisters writeAddr writeNb src readAddr readNb dest)
      decodedRegister
      (modbusWriteAndReadRegisters (tapOs os) st writeAddr writeNb src readAddr readNb dest) := by
  intro rc dest' st' h hpos
  rw [modbusWriteAndReadRegisters] at h
  split_ifs at h
  · cases h
    exact absurd hpos (by decide)
  · cases h
    exact absurd hpos (by decide)
  · cases h
    exact absurd hpos (by decide)
  · obtain ⟨⟨req, ctx'⟩, hreq, h⟩ := bind_eq_ok.mp h
    obtain ⟨bytes, hbytes, h⟩ := bind_eq_ok.mp h
    rw [List.append_assoc] at h
    refine exchange_registers (Or.inl rfl) hreq ?_ hpos h
    simp only [Sender.message, hreq, Except.map, ok_bind, hbytes, List.append_assoc]

end

/-- **Reported success means data was received**, for registers whatever the system does, and for
bits as long as the system does not take nothing of the request. -/
theorem success_means_received_iff (os : Os σ) (st : St (Tapped σ)) :
    (∀ addr nb dest, Reported os st (.readBits addr nb dest) decodedBit
      (modbusReadBits (tapOs os) st addr nb dest) ↔
        ¬ SendsNothing os st (.readBits addr nb dest)) ∧
    (∀ addr nb dest, Reported os st (.readInputBits addr nb dest) decodedBit
      (modbusReadInputBits (tapOs os) st addr nb dest) ↔
        ¬ SendsNothing os st (.readInputBits addr nb dest)) ∧
    (∀ addr nb dest, Reported os st (.readRegisters addr nb dest) decodedRegister
      (modbusReadRegisters (tapOs os) st addr nb dest)) ∧
    (∀ addr nb dest, Reported os st (.readInputRegisters addr nb dest) decodedRegister
      (modbusReadInputRegisters (tapOs os) st addr nb dest)) ∧
    (∀ writeAddr writeNb src readAddr readNb dest, Reported os st
      (.writeAndReadRegisters writeAddr writeNb src readAddr readNb dest) decodedRegister
      (modbusWriteAndReadRegisters (tapOs os) st writeAddr writeNb src readAddr readNb dest)) := by
  refine ⟨fun addr nb dest => ?_, fun addr nb dest => ?_, fun addr nb dest => ?_,
    fun addr nb dest => ?_, fun writeAddr writeNb src readAddr readNb dest => ?_⟩
  · exact readBits_reported (Or.inl rfl) rfl Iff.rfl
  · exact readBits_reported (Or.inr rfl) rfl Iff.rfl
  · exact readRegisters_reported (Or.inl rfl) rfl
  · exact readRegisters_reported (Or.inr rfl) rfl
  · exact writeAndRead_reported

/-! ### A report without a request -/

/-- An idle line that takes no byte of any message. -/
def muteOs : Os Link :=
  { linkOs 1 with
    send := fun _ l => (.ok 0, l)
    send_length := by
      intro m s n s' h
      cases h
      exact Nat.zero_le _ }

/-- A connected context on an idle line that keeps what is received. -/
def tappedSt (be : Backend) (slave : Int) : St (Tapped Link) :=
  ⟨(sampleSt be slave []).ctx, .sys (.other 0), ⟨(sampleSt be slave []).os, []⟩⟩

/-- Five coils are reported that nobody has asked for, and the caller finds what was there
before. -/
theorem reported_unsent :
    (∃ st', modbusReadBits (tapOs muteOs) (tappedSt .tcp 17) 0 5 [9, 9, 9, 9, 9] =
        .ok (5, [9, 9, 9, 9, 9], st') ∧ st'.os.received = []) ∧
      ¬ Reported muteOs (tappedSt .tcp 17) (.readBits 0 5 [9, 9, 9, 9, 9]) decodedBit
        (modbusReadBits (tapOs muteOs) (tappedSt .tcp 17) 0 5 [9, 9, 9, 9, 9]) := by
  have hcall : ∃ st', modbusReadBits (tapOs muteOs) (tappedSt .tcp 17) 0 5 [9, 9, 9, 9, 9] =
      .ok (5, [9, 9, 9, 9, 9], st') ∧ st'.os.received = [] := ⟨_, rfl, rfl⟩
  refine ⟨hcall, fun hrep => ?_⟩
  obtain ⟨st', hst', hnone⟩ := hcall
  obtain ⟨msg, rsp, count, -, hconfirmed, -⟩ := hrep 5 _ st' hst' (by decide)
  have hduring : st'.os.received = [] ++ rsp := hconfirmed.during
  rw [hnone] at hduring
  exact hconfirmed.rsp_ne_nil hduring.symm

end Libmodbus
