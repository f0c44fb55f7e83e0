/-
Libmodbus/Asked.lean

Requests say what the caller asked, up to the address.  Each of the ten calls
that read and write checks its counts, and then hands over one frame:

    not `Accepted`    -1, and nothing is sent
    `Accepted`        the frame of `asked`, which the server reads as `asked`

An address is an `int` that nobody checks; of it the two low bytes are sent
(`wireAddress`).  So the calls say what they were asked for addresses of 16
bits, and two addresses that differ by a multiple of 65536 are the same request.
-/
import Libmodbus.Clients
import Libmodbus.Exchanges
import Libmodbus.Reference

namespace Libmodbus

open CSem Wire Posix

variable {σ : Type}

/-! ### What the server reads -/

theorem wordAt_field {pdu rest : List UInt8} {i n : Nat} (h : pdu.drop i = hi n :: lo n :: rest)
    (hn : n ≤ 65535) : wordAt pdu i = n := by
  rw [wordAt, List.getD, List.getD, rd_eq_ok.mp (rd_of_drop h),
    rd_eq_ok.mp (rd_of_drop (drop_succ_of_drop h))]
  exact word_hi_lo_nat (by omega)

/-- The fields of a request ask for it. -/
theorem Request.fields_pdu {r : Request} (hr : r.Valid) :
    (fields r.pdu).bind Fields.request = some r := by
  -- a field that was written as a word is read back as it was, if it fits
  cases r with
  | readBits isInput addr nb =>
    obtain ⟨ha, h1, hmax⟩ := hr
    simp only [maxReadBits] at hmax
    have haddr : wordAt (Request.readBits isInput addr nb).pdu 1 = addr := wordAt_field rfl ha
    have hnb : wordAt (Request.readBits isInput addr nb).pdu 3 = nb := wordAt_field rfl (by omega)
    have hfields : fields (Request.readBits isInput addr nb).pdu = some (.readBits isInput
        (wordAt (Request.readBits isInput addr nb).pdu 1)
        (wordAt (Request.readBits isInput addr nb).pdu 3)) := by
      cases isInput <;> rfl
    rw [hfields, haddr, hnb]
    rfl
  | readRegisters isInput addr nb =>
    obtain ⟨ha, h1, hmax⟩ := hr
    simp only [maxReadRegisters] at hmax
    have haddr : wordAt (Request.readRegisters isInput addr nb).pdu 1 = addr := wordAt_field rfl ha
    have hnb : wordAt (Request.readRegisters isInput addr nb).pdu 3 = nb :=
      wordAt_field rfl (by omega)
    have hfields : fields (Request.readRegisters isInput addr nb).pdu = some (.readRegisters isInput
        (wordAt (Request.readRegisters isInput addr nb).pdu 1)
        (wordAt (Request.readRegisters isInput addr nb).pdu 3)) := by
      cases isInput <;> rfl
    rw [hfields, haddr, hnb]
    rfl
  | writeBit addr status =>
    have haddr : wordAt (Request.writeBit addr status).pdu 1 = addr := wordAt_field rfl hr
    have hvalue : decide (wordAt (Request.writeBit addr status).pdu 3 ≠ 0) = status := by
      cases status with
      | false =>
        rw [show wordAt (Request.writeBit addr false).pdu 3 = 0 from
          wordAt_field rfl (Nat.zero_le _)]
        decide
      | true =>
        rw [show wordAt (Request.writeBit addr true).pdu 3 = 0xFF00 from
          wordAt_field rfl (by decide)]
        decide
    show some (Request.writeBit (wordAt (Request.writeBit addr status).pdu 1)
      (decide (wordAt (Request.writeBit addr status).pdu 3 ≠ 0))) = _
    rw [haddr, hvalue]
  | writeRegister addr value =>
    have haddr : wordAt (Request.writeRegister addr value).pdu 1 = addr := wordAt_field rfl hr
    have hvalue : wordAt (Request.writeRegister addr value).pdu 3 = value.toNat :=
      wordAt_field rfl (by have := value.toNat_lt; omega)
    show some (Request.writeRegister (wordAt (Request.writeRegister addr value).pdu 1)
      (UInt16.ofNat (wordAt (Request.writeRegister addr value).pdu 3))) = _
    rw [haddr, hvalue, UInt16.ofNat_toNat]
  | writeBits addr values =>
    obtain ⟨ha, h1, hmax⟩ := hr
    simp only [maxWriteBits] at hmax
    have haddr : wordAt (Request.writeBits addr values).pdu 1 = addr := wordAt_field rfl ha
    have hnb : wordAt (Request.writeBits addr values).pdu 3 = values.length :=
      wordAt_field rfl (by omega)
    show some (Request.writeBits (wordAt (Request.writeBits addr values).pdu 1)
      (unpackBits (wordAt (Request.writeBits addr values).pdu 3) (packBits values))) = _
    rw [haddr, hnb, unpackBits_packBits]
  | writeRegisters addr values =>
    obtain ⟨ha, h1, hmax⟩ := hr
    have haddr : wordAt (Request.writeRegisters addr values).pdu 1 = addr := wordAt_field rfl ha
    show some (Request.writeRegisters (wordAt (Request.writeRegisters addr values).pdu 1)
      (words (bigEndian values))) = _
    rw [haddr, words_bigEndian]
  | maskWrite addr andMask orMask =>
    have haddr : wordAt (Request.maskWrite addr andMask orMask).pdu 1 = addr := wordAt_field rfl hr
    have hand : wordAt (Request.maskWrite addr andMask orMask).pdu 3 = andMask.toNat :=
      wordAt_field rfl (by have := andMask.toNat_lt; omega)
    have hor : wordAt (Request.maskWrite addr andMask orMask).pdu 5 = orMask.toNat :=
      wordAt_field rfl (by have := orMask.toNat_lt; omega)
    show some (Request.maskWrite (wordAt (Request.maskWrite addr andMask orMask).pdu 1)
      (UInt16.ofNat (wordAt (Request.maskWrite addr andMask orMask).pdu 3))
      (UInt16.ofNat (wordAt (Request.maskWrite addr andMask orMask).pdu 5))) = _
    rw [haddr, hand, hor, UInt16.ofNat_toNat, UInt16.ofNat_toNat]
  | writeAndRead readAddr readNb writeAddr values =>
    obtain ⟨ha, ⟨h1, hmax⟩, hwa, hw1, hwmax⟩ := hr
    simp only [maxWrReadRegisters] at hmax
    set pdu := (Request.writeAndRead readAddr readNb writeAddr values).pdu with hpdu
    have haddr : wordAt pdu 1 = readAddr := wordAt_field rfl ha
    have hnb : wordAt pdu 3 = readNb := wordAt_field rfl (by omega)
    have hwaddr : wordAt pdu 5 = writeAddr := wordAt_field rfl hwa
    show some (Request.writeAndRead (wordAt pdu 1) (wordAt pdu 3) (wordAt pdu 5)
      (words (bigEndian values))) = _
    rw [haddr, hnb, hwaddr, words_bigEndian]

/-- The server reads the PDU as the request: its fields are those of the request, and on every
memory it is answered with the meaning of the request. -/
structure ReadAs (pdu : List UInt8) (r : Request) : Prop where
  fields : (fields pdu).bind Fields.request = some r
  served : ∀ (ver : VersionString) (m : Mapping), m.Regular →
    ∃ p, servePdu ver pdu m = .ok p ∧ r.Answered m p

theorem Request.readAs {r : Request} (hr : r.Valid) : ReadAs r.pdu r :=
  ⟨Request.fields_pdu hr, fun ver _ hm => servePdu_request ver hm hr⟩

/-! ### What a call hands over -/

/-- The exchange of a request hands over its frame, and nothing after it. -/
theorem exchange_handed (os : Os σ) (st : St (Recorded σ)) (req : List UInt8) :
    Ends (exchange (recordOs os) st req)
      (fun r => Handed st.ctx (sendMsgPre st.ctx.backend req) st.os r.2.2.os) fun _ => True := by
  refine (sendMsg_handed os st req).bind fun sent _ hsent => ?_
  obtain ⟨rc, st₁⟩ := sent
  have hquiet : ∀ {st' : St (Recorded σ)}, st'.os.sent = st₁.os.sent →
      Handed st.ctx (sendMsgPre st.ctx.backend req) st.os st'.os := by
    intro st' h
    obtain ⟨k, hk, hlink⟩ := hsent
    exact ⟨k, h.trans hk, hlink⟩
  refine Ends.ite (fun _ => ?_) fun _ => hsent
  refine (modbusReceiveMsg_moved (recordOs_quiet os) st₁ .confirmation).bind fun received _ hrcv => ?_
  obtain ⟨rc₁, rsp, st₂⟩ := received
  refine Ends.ite (fun _ => hquiet hrcv.os) fun _ => ?_
  refine (checkConfirmation_moved (recordOs_quiet os) st₂ _ rsp rc₁).bind fun checked _ hcheck => ?_
  exact hquiet (hcheck.os.trans hrcv.os)

namespace Sender

/-- The caller's array has room for the values that are to be read. -/
def HasRoom : Sender → Prop
  | readBits _ nb dest => nb ≤ dest.length
  | readInputBits _ nb dest => nb ≤ dest.length
  | readRegisters _ nb dest => nb ≤ dest.length
  | readInputRegisters _ nb dest => nb ≤ dest.length
  | writeAndReadRegisters _ _ _ _ readNb dest => readNb ≤ dest.length
  | _ => True

variable {os : Os σ} {s : Sender} {r : Request}

/-- A call that is not accepted touches nothing but `errno`. -/
theorem returns_refused (st : St σ) (hr : s.asked = some r) (hs : ¬ s.Accepted st.ctx.backend) :
    ∃ e, s.returns os st = .ok (-1, { st with errno := e }) := by
  cases s with
  | readBits addr nb dest =>
    refine ⟨.EMBXILVAL, ?_⟩
    rw [returns, modbusReadBits, Libmodbus.readBits, if_pos (not_not.mp hs)]
    rfl
  | readInputBits addr nb dest =>
    refine ⟨.EMBXILVAL, ?_⟩
    rw [returns, modbusReadInputBits, Libmodbus.readBits, if_pos (not_not.mp hs)]
    rfl
  | readRegisters addr nb dest =>
    refine ⟨.EMBXILVAL, ?_⟩
    rw [returns, modbusReadRegisters, readAnyRegisters, if_pos (not_not.mp hs)]
    rfl
  | readInputRegisters addr nb dest =>
    refine ⟨.EMBXILVAL, ?_⟩
    rw [returns, modbusReadInputRegisters, readAnyRegisters, if_pos (not_not.mp hs)]
    rfl
  | writeBit addr status => exact absurd trivial hs
  | writeRegister addr value => exact absurd trivial hs
  | writeBits addr nb src => exact ⟨_, if_pos (not_not.mp hs)⟩
  | writeRegisters addr nb src => exact ⟨_, if_pos (not_not.mp hs)⟩
  | maskWriteRegister addr andMask orMask => exact absurd trivial hs
  | writeAndReadRegisters writeAddr writeNb src readAddr readNb dest =>
    rw [returns, modbusWriteAndReadRegisters]
    split_ifs with h1 h2 h3
    · exact ⟨_, rfl⟩
    · exact ⟨_, rfl⟩
    · exact ⟨_, rfl⟩
    · exact absurd ⟨h1, h2, h3⟩ hs
  | _ => cases hr

/-- The message of the function is handed over, as a frame. -/
def Hands (s : Sender) (st st' : St (Recorded σ)) : Prop :=
  ∃ msg, s.message st.ctx = .ok msg ∧
    Handed st.ctx (sendMsgPre st.ctx.backend msg) st.os st'.os

/-- The calls that ask something. -/
theorem isCall_of_asked (hr : s.asked = some r) : s.IsCall := by
  cases s with
  | reportSlaveId maxDest dest => cases hr
  | sendRawRequestTid rawReq tid => cases hr
  | reply ver req reqLength m => cases hr
  | replyException req exceptionCode => cases hr
  | _ => exact trivial

/-- **An accepted call hands over its message.** -/
theorem returns_hands {st : St (Recorded σ)} (hr : s.asked = some r)
    (hs : s.Accepted st.ctx.backend) :
    Ends (s.returns (recordOs os) st) (fun x => s.Hands st x.2) fun _ => True := by
  cases h : s.returns (recordOs os) st with
  | error e => exact trivial
  | ok x =>
    obtain ⟨msg, rc, rsp, hmsg, hexchange, -⟩ := Sender.exchanges (isCall_of_asked hr) hs h
    exact ⟨msg, hmsg, (exchange_handed os { st with ctx := st.ctx.next } msg).result hexchange⟩

/-- An RTU request is built for a slave. -/
theorem slave_of_build {ctx : Modbus} {function : Nat} {addr nb : Int} {req : List UInt8}
    (h : (buildRequestBasis ctx function addr nb).map Prod.fst = .ok req) :
    ctx.backend = .rtu → ctx.slave ≠ -1 := by
  intro hbe hslave
  unfold buildRequestBasis at h
  simp only [hbe, if_pos hslave] at h
  cases h

theorem slave_of_message {ctx : Modbus} {msg : List UInt8} (hr : s.asked = some r)
    (h : s.message ctx = .ok msg) : ctx.backend = .rtu → ctx.slave ≠ -1 := by
  cases s with
  | readBits addr nb dest => exact slave_of_build h
  | readInputBits addr nb dest => exact slave_of_build h
  | readRegisters addr nb dest => exact slave_of_build h
  | readInputRegisters addr nb dest => exact slave_of_build h
  | writeBit addr status => exact slave_of_build h
  | writeRegister addr value => exact slave_of_build h
  | writeBits addr nb src =>
    obtain ⟨req, hreq, -⟩ := bind_eq_ok.mp h
    exact slave_of_build hreq
  | writeRegisters addr nb src =>
    obtain ⟨req, hreq, -⟩ := bind_eq_ok.mp h
    exact slave_of_build hreq
  | maskWriteRegister addr andMask orMask =>
    obtain ⟨req, hreq, -⟩ := bind_eq_ok.mp h
    exact slave_of_build hreq
  | writeAndReadRegisters writeAddr writeNb src readAddr readNb dest =>
    obtain ⟨req, hreq, -⟩ := bind_eq_ok.mp h
    exact slave_of_build hreq
  | _ => cases hr

/-- A write has nothing to do after its exchange. -/
theorem exchange_ends (st : St σ) {pdu : List UInt8} (hpdu : Framed .indication pdu) :
    Ends (do
      let (rc, _, st) ← exchange os { st with ctx := st.ctx.next }
        ((requestAdu st.ctx pdu).header st.ctx.backend ++ pdu)
      .ok (rc, st)) (fun _ => True) (GivenUp os st.ctx) :=
  Ends.exchange os st hpdu (fun _ => Or.inl) fun _ _ _ _ _ => trivial

/-- With arrays that are long enough a call ends, or is given up. -/
theorem returns_ends (st : St σ) (hr : s.asked = some r) (hsrc : s.Supplied) (hroom : s.HasRoom) :
    Ends (s.returns os st) (fun _ => True) (GivenUp os st.ctx) := by
  by_cases hs : s.Accepted st.ctx.backend
  · have hframed : Framed .indication r.pdu := Request.framed (asked_valid hr hs hsrc)
    have hmessage := fun hslave => message_asked hslave hr hs hsrc
    cases s with
    | readBits addr nb dest =>
      have hdest := readBits_confined os st (Or.inl rfl) addr hroom
      exact Ends.map (hdest.imp (fun _ _ => trivial) fun _ h => h)
    | readInputBits addr nb dest =>
      have hdest := readBits_confined os st (Or.inr rfl) addr hroom
      exact Ends.map (hdest.imp (fun _ _ => trivial) fun _ h => h)
    | readRegisters addr nb dest =>
      have hdest := readAnyRegisters_confined os st (Or.inl rfl) addr hroom
      exact Ends.map (hdest.imp (fun _ _ => trivial) fun _ h => h)
    | readInputRegisters addr nb dest =>
      have hdest := readAnyRegisters_confined os st (Or.inr rfl) addr hroom
      exact Ends.map (hdest.imp (fun _ _ => trivial) fun _ h => h)
    | writeBit addr status =>
      -- the message is known, so the exchange is one of a framed request
      refine Ends.build r.pdu fun hslave => ?_
      have hmsg := hmessage hslave
      rw [message, buildRequestBasis_adu hslave _ _ _ r.pdu] at hmsg
      have hreq := Except.ok.inj hmsg
      simp only at hreq ⊢
      rw [hreq]
      exact exchange_ends st hframed
    | writeRegister addr value =>
      refine Ends.build r.pdu fun hslave => ?_
      have hmsg := hmessage hslave
      rw [message, buildRequestBasis_adu hslave _ _ _ r.pdu] at hmsg
      have hreq := Except.ok.inj hmsg
      simp only at hreq ⊢
      rw [hreq]
      exact exchange_ends st hframed
    | writeBits addr nb src =>
      refine Ends.ite (fun _ => trivial) fun _ => Ends.build r.pdu fun hslave => ?_
      have hmsg := hmessage hslave
      rw [message, buildRequestBasis_adu hslave _ _ _ r.pdu, Except.map, ok_bind] at hmsg
      obtain ⟨bytes, hbytes, hmsg⟩ := bind_eq_ok.mp hmsg
      simp only [hbytes, ok_bind]
      rw [Except.ok.inj hmsg]
      exact exchange_ends st hframed
    | writeRegisters addr nb src =>
      refine Ends.ite (fun _ => trivial) fun _ => Ends.build r.pdu fun hslave => ?_
      have hmsg := hmessage hslave
      rw [message, buildRequestBasis_adu hslave _ _ _ r.pdu, Except.map, ok_bind] at hmsg
      obtain ⟨bytes, hbytes, hmsg⟩ := bind_eq_ok.mp hmsg
      simp only [hbytes, ok_bind]
      rw [Except.ok.inj hmsg]
      exact exchange_ends st hframed
    | maskWriteRegister addr andMask orMask =>
      refine Ends.build r.pdu fun hslave => ?_
      have hmsg := hmessage hslave
      rw [message, buildRequestBasis_adu hslave _ _ _ r.pdu, Except.map, ok_bind] at hmsg
      simp only
      rw [Except.ok.inj hmsg]
      exact exchange_ends st hframed
    | writeAndReadRegisters writeAddr writeNb src readAddr readNb dest =>
      have hdest := writeAndRead_confined os st writeAddr readAddr hsrc hroom
      exact Ends.map (hdest.imp (fun _ _ => trivial) fun _ h => h)
    | _ => cases hr
  · obtain ⟨e, hcall⟩ := returns_refused st hr hs
    rw [hcall]
    exact trivial

end Sender

/-! ### Requests say what was asked -/

/-- **Requests say what the caller asked, with the address modulo 65536.**  A call that reads or
writes returns -1 and sends nothing, or hands over one frame, which the server reads as the request that
was asked for; it returns, unless it recovers its link for ever or has no slave. -/
theorem requests_say_asked (os : Os σ) (st : St (Recorded σ)) {s : Sender} {r : Request}
    (hr : s.asked = some r) (hsrc : s.Supplied) (hroom : s.HasRoom) :
    (¬ s.Accepted st.ctx.backend → Ends (s.returns (recordOs os) st)
      (fun x => x.1 = -1 ∧ x.2.os.sent = st.os.sent) fun _ => False) ∧
    (s.Accepted st.ctx.backend → ReadAs r.pdu r ∧ Ends (s.returns (recordOs os) st)
      (fun x => Handed st.ctx ((requestAdu st.ctx r.pdu).sealed.bytes st.ctx.backend) st.os x.2.os)
      (GivenUp os st.ctx)) ∧
    ∀ addr addr' : Int, (wireAddress addr = wireAddress addr' ↔ addr % 65536 = addr' % 65536) ∧
      ((wireAddress addr : Int) = addr ↔ 0 ≤ addr ∧ addr ≤ 65535) := by
  refine ⟨fun hs => ?_, fun hs => ⟨?_, ?_⟩, fun addr addr' => ⟨?_, ?_⟩⟩
  · obtain ⟨e, hcall⟩ : ∃ e, s.returns (recordOs os) st = .ok (-1, { st with errno := e }) :=
      Sender.returns_refused st hr hs
    rw [hcall]
    exact ⟨rfl, rfl⟩
  · exact Request.readAs (Sender.asked_valid hr hs hsrc)
  · refine ((Sender.returns_hands hr hs).and (Sender.returns_ends st hr hsrc hroom)).imp
      (fun x h => ?_) fun e h => h.2.imp_left Retries.of_record
    obtain ⟨⟨msg, hmsg, hhanded⟩, -⟩ := h
    rw [Sender.message_asked (Sender.slave_of_message hr hmsg) hr hs hsrc] at hmsg
    cases hmsg
    have hframe : sendMsgPre st.ctx.backend
        ((requestAdu st.ctx r.pdu).header st.ctx.backend ++ r.pdu) =
          (requestAdu st.ctx r.pdu).sealed.bytes st.ctx.backend :=
      sendMsgPre_header (requestAdu st.ctx r.pdu)
    rw [hframe] at hhanded
    exact hhanded
  · exact wireAddress_eq_iff
  · exact wireAddress_eq_self

/-- Register 5 of slave 17 over TCP. -/
theorem requests_say_asked_sample :
    Ends ((Sender.writeRegister 5 7).returns (recordOs (linkOs 1)) (recordedSt .tcp 17))
      (fun x => Handed (recordedSt .tcp 17).ctx
        ((requestAdu (recordedSt .tcp 17).ctx (Request.writeRegister 5 7).pdu).sealed.bytes .tcp)
        (recordedSt .tcp 17).os x.2.os) (GivenUp (linkOs 1) (recordedSt .tcp 17).ctx) :=
  have hcall := requests_say_asked (linkOs 1) (recordedSt .tcp 17)
    (s := .writeRegister 5 7) (r := .writeRegister 5 7) rfl trivial trivial
  (hcall.2.1 trivial).2

/-- Register 65541 is asked for, and register 5 is written. -/
theorem register_65541_is_register_5 :
    ∃ frame, ((Sender.writeRegister 65541 7).returns (recordOs (linkOs 1))
        (recordedSt .tcp 17)).map (fun x => x.2.os.sent) = .ok [frame] ∧
      ((Sender.writeRegister 5 7).returns (recordOs (linkOs 1))
        (recordedSt .tcp 17)).map (fun x => x.2.os.sent) = .ok [frame] ∧
      ReadAs (frame.drop 7) (.writeRegister 5 7) := by
  refine ⟨[0, 1, 0, 0, 0, 6, 17, 6, 0, 5, 0, 7], rfl, rfl, ?_⟩
  exact Request.readAs (r := .writeRegister 5 7) (show 5 ≤ 65535 by decide)

end Libmodbus
