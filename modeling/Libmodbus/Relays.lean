/-
Libmodbus/Relays.lean

What the frontend of a gateway hears.  A request that is forwarded has one of
these answers:

    refused, notSent                     exception GATEWAY_PATH
    notReceived                          GATEWAY_TARGET after a timeout, else GATEWAY_PATH
    invalid, empty                       exception GATEWAY_TARGET
    answered                             unit and PDU of the backend frame

`Forwarded` says which, in terms of the calls on the backend context alone.  The
frontend context is not touched before the answer is known, and then it is
handed the frame of that answer (`modbusProxy_forwarded`): exactly once
(`proxy_answers_once`), and a relayed frame has passed the pre-check of the
backend, and no other check (`proxy_relays_checked`).
-/
import Libmodbus.Gateway
import Libmodbus.Stops
import Libmodbus.Traces

namespace Libmodbus

open CSem Wire Posix

variable {σ τ : Type} {be : Backend}

/-! ### Answers -/

inductive Answer
  | relay (unit : UInt8) (pdu : List UInt8)
  | exception (code : Nat)
  deriving DecidableEq, Repr

/-- The ADU of an answer to the request `a`, under the transaction id of the request. -/
def Answer.adu (a : Adu) : Answer → Adu
  | relay unit pdu => { a.blank with unit := unit, pdu := pdu }.sealed
  | exception code => { a.blank with pdu := [a.pdu.headD 0 + 0x80, lo code] }.sealed

/-- The request has left: `modbus_send_raw_request_tid` has not failed, and `st` is what it has
left of the backend. -/
structure Left (bos : Os τ) (g : Gateway σ τ) (a : Adu) (st : St τ) : Prop where
  sent : ∃ back rc, modbusSetSlave g.back a.unit.toNat = .ok back ∧ rc ≠ -1 ∧
    modbusSendRawRequestTid bos ⟨back, g.errno, g.backOs⟩ (a.unit :: a.pdu) 0 = .ok (rc, st)

/-- The context of the backend is the one that was given the unit. -/
theorem Left.backend {bos : Os τ} {g : Gateway σ τ} {a : Adu} {st : St τ} (h : Left bos g a st) :
    st.ctx.backend = g.back.backend := by
  obtain ⟨back, rc, hset, -, hsend⟩ := h.sent
  have hmoved := (modbusSendRawRequestTid_moved (obeys_any bos) ⟨back, g.errno, g.backOs⟩
    fun _ => trivial).result hsend
  rw [hmoved.backend, modbusSetSlave_ok hset]

/-- The request that a confirmation is compared with. -/
def checkFrame (be : Backend) (a : Adu) : List UInt8 := (rtuAdu a.unit a.pdu).wrapped be []

/-- What came of a request that was forwarded. -/
inductive Forwarded (bos : Os τ) (g : Gateway σ τ) (a : Adu) : Answer → Prop
  /-- `modbus_set_slave` refuses the unit. -/
  | refused {e : Errno} (hset : modbusSetSlave g.back a.unit.toNat = .error e) :
      Forwarded bos g a (.exception exceptionGatewayPath)
  /-- `send_msg` fails. -/
  | notSent {back : Modbus} {st : St τ} (hset : modbusSetSlave g.back a.unit.toNat = .ok back)
      (hsend : modbusSendRawRequestTid bos ⟨back, g.errno, g.backOs⟩ (a.unit :: a.pdu) 0 =
        .ok (-1, st)) :
      Forwarded bos g a (.exception exceptionGatewayPath)
  /-- Nothing is received; `errno` says why. -/
  | notReceived {st st' : St τ} {msg : List UInt8} (hleft : Left bos g a st)
      (hrcv : modbusReceiveMsg bos st .confirmation = .ok (-1, msg, st')) :
      Forwarded bos g a (.exception
        (if st'.errno = .ETIMEDOUT then exceptionGatewayTarget else exceptionGatewayPath))
  /-- The pre-check refuses what is received. -/
  | invalid {st st' : St τ} {rc : Int} {msg : List UInt8} {e : Errno} (hleft : Left bos g a st)
      (hrcv : modbusReceiveMsg bos st .confirmation = .ok (rc, msg, st')) (hrc : rc ≠ -1)
      (hpre : preCheckConfirmation st'.ctx.backend (checkFrame st'.ctx.backend a) msg =
        .ok (some e)) :
      Forwarded bos g a (.exception exceptionGatewayTarget)
  /-- The frame of another slave is received as a message of length 0. -/
  | empty {st st' : St τ} {msg : List UInt8} (hleft : Left bos g a st)
      (hrcv : modbusReceiveMsg bos st .confirmation = .ok (0, msg, st'))
      (hpre : preCheckConfirmation st'.ctx.backend (checkFrame st'.ctx.backend a) msg =
        .ok none) :
      Forwarded bos g a (.exception exceptionGatewayTarget)
  /-- A frame is received and passes the pre-check. -/
  | answered {st st' : St τ} {rc : Int} {r : Adu} (hleft : Left bos g a st)
      (hrcv : modbusReceiveMsg bos st .confirmation =
        .ok (rc, r.bytes st'.ctx.backend, st')) (hrc : 0 < rc)
      (hpre : preCheckConfirmation st'.ctx.backend (checkFrame st'.ctx.backend a)
        (r.bytes st'.ctx.backend) = .ok none) :
      Forwarded bos g a (.relay r.unit r.pdu)

/-- The system refuses a frame, or takes a part of it. -/
def Refuses (frame : List UInt8) : Except SysErrno Nat → Prop
  | .error _ => True
  | .ok n => 0 < n ∧ n ≠ frame.length

/-- Without link recovery that is when sending fails. -/
theorem modbusSendRawRequestTid_fails_iff {os : Os τ} {st : St τ} (hf : 0 < os.fuel)
    (hlink : st.ctx.errorRecovery.link = false) {unit : UInt8} {pdu : List UInt8}
    (hne : pdu ≠ []) (hlen : pdu.length ≤ maxPduLength) :
    (∃ st', modbusSendRawRequestTid os st (unit :: pdu) 0 = .ok (-1, st')) ↔
      Refuses ((rtuAdu unit pdu).sealed.bytes st.ctx.backend)
        (os.send ((rtuAdu unit pdu).sealed.bytes st.ctx.backend) st.os).1 := by
  have hsend : modbusSendRawRequestTid os st (unit :: pdu) 0 =
      sendLoop os os.fuel st ((rtuAdu unit pdu).sealed.bytes st.ctx.backend) :=
    (modbusSendRawRequestTid_pdu hne hlen).trans (sendMsg_header os st (rtuAdu unit pdu))
  rw [hsend]
  generalize (rtuAdu unit pdu).sealed.bytes st.ctx.backend = frame
  obtain ⟨n, hn⟩ : ∃ n, os.fuel = n + 1 := ⟨os.fuel - 1, by omega⟩
  rw [hn, sendLoop]
  rcases os.send frame st.os with ⟨e | n, s⟩
  · simp only [hlink, Bool.false_eq_true, if_false]
    exact ⟨fun _ => trivial, fun _ => ⟨_, rfl⟩⟩
  · simp only
    split_ifs with h
    · exact ⟨fun _ => h, fun _ => ⟨_, rfl⟩⟩
    · constructor
      · rintro ⟨st', hst⟩
        have hrc : ((n : Nat) : Int) = -1 := congrArg Prod.fst (Except.ok.inj hst)
        omega
      · intro hr
        exact absurd hr h

/-- What the backend refuses to take is answered with GATEWAY_PATH. -/
theorem Forwarded.of_refuses {bos : Os τ} {g : Gateway σ τ} {a : Adu}
    (hlink : g.back.errorRecovery.link = false) (hf : 0 < bos.fuel) (hne : a.pdu ≠ [])
    (hlen : a.pdu.length ≤ maxPduLength)
    (hr : Refuses ((rtuAdu a.unit a.pdu).sealed.bytes g.back.backend)
      (bos.send ((rtuAdu a.unit a.pdu).sealed.bytes g.back.backend) g.backOs).1) :
    Forwarded bos g a (.exception exceptionGatewayPath) := by
  cases hset : modbusSetSlave g.back a.unit.toNat with
  | error e => exact .refused hset
  | ok back =>
    have hback := modbusSetSlave_ok hset
    have hlink' : back.errorRecovery.link = false := by rw [hback, hlink]
    have hbe : back.backend = g.back.backend := by rw [hback]
    rw [← hbe] at hr
    have hfails : ∃ st, modbusSendRawRequestTid bos ⟨back, g.errno, g.backOs⟩
        (a.unit :: a.pdu) 0 = .ok (-1, st) :=
      (modbusSendRawRequestTid_fails_iff hf hlink' hne hlen).mpr hr
    obtain ⟨st, hst⟩ := hfails
    exact .notSent hset hst

/-! ### There is only one -/

/-- The answer, computed. -/
def forward (bos : Os τ) (g : Gateway σ τ) (a : Adu) : Run Answer :=
  match modbusSetSlave g.back a.unit.toNat with
  | .error _ => .ok (.exception exceptionGatewayPath)
  | .ok back => do
    let (rc, st) ← modbusSendRawRequestTid bos ⟨back, g.errno, g.backOs⟩ (a.unit :: a.pdu) 0
    if rc = -1 then .ok (.exception exceptionGatewayPath)
    else
      let (rc, msg, st) ← modbusReceiveMsg bos st .confirmation
      if rc = -1 then
        .ok (.exception
          (if st.errno = .ETIMEDOUT then exceptionGatewayTarget else exceptionGatewayPath))
      else
        match ← preCheckConfirmation st.ctx.backend (checkFrame st.ctx.backend a) msg with
        | some _ => .ok (.exception exceptionGatewayTarget)
        | none =>
          if rc = 0 then .ok (.exception exceptionGatewayTarget)
          else
            let unit ← rd msg (st.ctx.backend.headerLength - 1)
            let length := msg.length - st.ctx.backend.headerLength - st.ctx.backend.checksumLength
            .ok (.relay unit ((msg.drop st.ctx.backend.headerLength).take length))

/-- The PDU of a frame, cut out of it. -/
theorem pdu_of_bytes (r : Adu) : ((r.bytes be).drop be.headerLength).take
    ((r.bytes be).length - be.headerLength - be.checksumLength) = r.pdu := by
  have hlen : (r.bytes be).length - be.headerLength - be.checksumLength = r.pdu.length := by
    rw [Adu.length_bytes]
    omega
  have hdrop : (r.bytes be).drop be.headerLength = r.pdu ++ r.checksum be :=
    List.drop_left' r.length_header
  rw [hlen, hdrop, List.take_left]

theorem Forwarded.computed {bos : Os τ} {g : Gateway σ τ} {a : Adu} {answer : Answer}
    (h : Forwarded bos g a answer) : forward bos g a = .ok answer := by
  cases h with
  | refused hset => rw [forward, hset]
  | notSent hset hsend =>
    simp only [forward, hset, hsend, ok_bind, if_true]
  | notReceived hleft hrcv =>
    obtain ⟨back, rc, hset, hrc, hsend⟩ := hleft.sent
    simp only [forward, hset, hsend, ok_bind, if_neg hrc, hrcv, if_true]
  | invalid hleft hrcv hrc hpre =>
    obtain ⟨back, rc', hset, hrc', hsend⟩ := hleft.sent
    simp only [forward, hset, hsend, ok_bind, if_neg hrc', hrcv, if_neg hrc, hpre]
  | empty hleft hrcv hpre =>
    obtain ⟨back, rc, hset, hrc, hsend⟩ := hleft.sent
    simp only [forward, hset, hsend, ok_bind, if_neg hrc, hrcv,
      if_neg (show ¬ (0 : Int) = -1 by decide), hpre, if_true]
  | @answered st st' rc r hleft hrcv hrc hpre =>
    obtain ⟨back, rc', hset, hrc', hsend⟩ := hleft.sent
    have hunit : rd (r.bytes st'.ctx.backend) (st'.ctx.backend.headerLength - 1) = .ok r.unit :=
      r.rd_wrapped_unit _
    simp only [forward, hset, hsend, ok_bind, if_neg hrc', hrcv,
      if_neg (show ¬ rc = -1 by omega), hpre, if_neg (show ¬ rc = 0 by omega), hunit, pdu_of_bytes]

/-- **A request has at most one answer.** -/
theorem Forwarded.unique {bos : Os τ} {g : Gateway σ τ} {a : Adu} {answer answer' : Answer}
    (h : Forwarded bos g a answer) (h' : Forwarded bos g a answer') : answer = answer' :=
  Except.ok.inj (h.computed.symm.trans h'.computed)

/-! ### The frontend is handed the frame of the answer -/

section

variable {fos : Os σ} {g : Gateway (Recorded σ) τ} {a : Adu}

/-- The frame of the answer has been handed to the frontend's send. -/
def AnsweredWith (g : Gateway (Recorded σ) τ) (a : Adu) (answer : Answer)
    (r : Int × Gateway (Recorded σ) τ) : Prop :=
  Handed g.front ((answer.adu a).bytes g.front.backend) g.frontOs r.2.frontOs

theorem sendMsg_answers (fos : Os σ) (st : St (Recorded σ)) (b : Adu) :
    Ends (sendAdu (recordOs fos) st b)
      (fun r => Handed st.ctx (b.bytes st.ctx.backend) st.os r.2.os) (Retries fos st.ctx) :=
  ((sendLoop_handed fos (recordOs fos).fuel st _).and (sendLoop_retries (recordOs fos) st _)).imp
    (fun _ h => h.1) fun _ h => h.2.of_record

theorem proxyFailure_answers {trailer : List UInt8} (hne : a.pdu ≠ []) {code : Nat}
    (hcode : code < exceptionMax) :
    Ends (proxyFailure (recordOs fos) g (a.wrapped g.front.backend trailer) code)
      (AnsweredWith g a (.exception code)) (Retries fos g.front) := by
  obtain ⟨function, data, hpdu⟩ := List.exists_cons_of_ne_nil hne
  have hf : rd (a.wrapped g.front.backend trailer) g.front.backend.headerLength = .ok function := by
    show rd _ (g.front.backend.headerLength + 0) = _
    rw [a.rd_wrapped trailer (List.length_pos_of_ne_nil hne), hpdu]
    rfl
  have hbuild := buildReplyException_wrapped a trailer sampleMapping hf hcode
  have hframe : (exceptionPdu function.toNat code false sampleMapping).adu a =
      (Answer.exception code).adu a := by
    have hlo : lo (function.toNat + 0x80 : Nat) = function + 0x80 := by
      apply UInt8.toNat_inj.mp
      have h := toNat_lo (function.toNat + 0x80 : Nat)
      rw [UInt8.toNat_add]
      show _ = (function.toNat + 128) % 256
      omega
    simp only [PduReply.adu, exceptionPdu, Answer.adu, Adu.sealed, Adu.blank, hpdu, List.headD_cons,
      hlo, Bool.false_eq_true, if_false]
  show Ends (modbusReplyException (recordOs fos) g.frontSt _ code >>= _) _ _
  rw [modbusReplyException]
  show Ends (buildReplyException g.front.backend _ code >>= _ >>= _) _ _
  have hsend : sendMsg (recordOs fos) g.frontSt
      ((exceptionPdu function.toNat code false sampleMapping).wrap g.front.backend a).rsp =
      sendAdu (recordOs fos) g.frontSt ((Answer.exception code).adu a) := by
    rw [← hframe]
    exact sendMsg_wrap (recordOs fos) g.frontSt a _
  rw [hbuild, ok_bind]
  simp only [hsend]
  exact (sendMsg_answers fos g.frontSt _).bind fun r _ h => h

theorem proxyRelay_answers {trailer : List UInt8} {r : Adu} (hr : r.pdu ≠ []) :
    Ends (proxyRelay (recordOs fos) g (r.bytes g.back.backend)
        ((r.bytes g.back.backend).length : Nat) (a.sft g.front.backend 0).tId
        (a.wrapped g.front.backend trailer))
      (AnsweredWith g a (.relay r.unit r.pdu)) (Retries fos g.front) := by
  rw [proxyRelay_bytes (recordOs fos) g hr]
  exact (sendMsg_answers fos g.frontSt _).bind fun r _ h => h

/-- A message of length 0 is not relayed. -/
theorem proxyRelay_empty {trailer : List UInt8} (hne : a.pdu ≠ []) (msg : List UInt8) (tId : Int) :
    Ends (proxyRelay (recordOs fos) g msg 0 tId (a.wrapped g.front.backend trailer))
      (AnsweredWith g a (.exception exceptionGatewayTarget)) (Retries fos g.front) := by
  rw [proxyRelay]
  simp only
  rw [if_pos (by omega)]
  exact proxyFailure_answers hne (by decide)

/-- **One answer, and its frame.**  A request with a PDU of at most 254 bytes has an answer, and
the frame of this answer is handed to the frontend, whatever the backend does. -/
theorem modbusProxy_forwarded (fos : Os σ) (bos : Os τ) (g : Gateway (Recorded σ) τ) {a : Adu}
    (trailer : List UInt8) {reqLength : Int} (hne : a.pdu ≠ [])
    (hmax : a.pdu.length ≤ maxPduLength + 1)
    (hn : reqLength - g.front.backend.headerLength - g.front.backend.checksumLength =
      a.pdu.length) :
    Ends (modbusProxy (recordOs fos) bos g (a.wrapped g.front.backend trailer) reqLength)
      (fun r => ∃ answer, Forwarded bos g a answer ∧ AnsweredWith g a answer r)
      fun e => Retries fos g.front e ∨ Retries bos g.back e := by
  have hrelay : ∀ (g' : Gateway (Recorded σ) τ) {answer : Answer} {x : Run (Int × Gateway _ τ)},
      g'.front = g.front → g'.frontOs = g.frontOs →
      Ends x (AnsweredWith g' a answer) (Retries fos g'.front) → Forwarded bos g a answer →
      Ends x (fun r => ∃ answer, Forwarded bos g a answer ∧ AnsweredWith g a answer r)
        fun e => Retries fos g.front e ∨ Retries bos g.back e := by
    intro g' answer x hfront hfos hx hanswer
    refine hx.imp (fun r h => ⟨_, hanswer, ?_⟩) fun _ h => Or.inl (hfront ▸ h)
    unfold AnsweredWith at h ⊢
    rw [← hfront, ← hfos]
    exact h
  have hfailure : ∀ (g' : Gateway (Recorded σ) τ) (code : Nat), g'.front = g.front →
      g'.frontOs = g.frontOs → code < exceptionMax → Forwarded bos g a (.exception code) →
      Ends (proxyFailure (recordOs fos) g' (a.wrapped g.front.backend trailer) code)
        (fun r => ∃ answer, Forwarded bos g a answer ∧ AnsweredWith g a answer r)
        fun e => Retries fos g.front e ∨ Retries bos g.back e := by
    intro g' code hfront hfos hcode hanswer
    refine hrelay g' hfront hfos ?_ hanswer
    rw [← hfront]
    exact proxyFailure_answers hne hcode
  rw [modbusProxy_wrapped _ _ _ trailer hne hmax hn]
  cases hset : modbusSetSlave g.back a.unit.toNat with
  | error e => exact hfailure _ _ rfl rfl (by decide) (.refused hset)
  | ok back =>
  have hback : ∀ e, Retries bos back e → Retries bos g.back e := by
    intro e he
    rw [modbusSetSlave_ok hset] at he
    exact he
  refine ((modbusSendRawRequestTid_retries bos ⟨back, g.errno, g.backOs⟩ _ 0).imp (fun _ h => h)
    fun e he => Or.inr (hback e he)).bind fun ⟨rc, st⟩ hsend _ => ?_
  refine Ends.ite (fun h => ?_) fun hrc => ?_
  · subst h
    exact hfailure _ _ rfl rfl (by decide) (.notSent hset hsend)
  have hleft : Left bos g a st := ⟨⟨back, rc, hset, hrc, hsend⟩⟩
  refine ((modbusReceiveMsg_retries bos st .confirmation).imp (fun _ h => h)
    fun e he => Or.inr (Retries.of_not_prompt g.back he)).bind fun ⟨rc', msg, st'⟩ hrcv _ => ?_
  refine Ends.ite (fun h => ?_) fun hrc' => ?_
  · subst h
    have hanswer := Forwarded.notReceived hleft hrcv
    refine Ends.ite (fun h => ?_) fun h => ?_
    · have htimeout : st'.errno = .ETIMEDOUT := h
      rw [if_pos htimeout] at hanswer
      exact hfailure _ _ rfl rfl (by decide) hanswer
    · have htimeout : ¬ st'.errno = .ETIMEDOUT := h
      rw [if_neg htimeout] at hanswer
      exact hfailure _ _ rfl rfl (by decide) hanswer
  -- what is received is the frame of an ADU, which the pre-check can read
  obtain ⟨r, e, s, rfl, hframed, hverdict, -, hst⟩ :=
    modbusReceiveMsg_is_adu (tracked_any bos) hrc' hrcv
  have hctx : st'.ctx = st.ctx := by rw [hst]
  rw [← hctx] at hverdict hrcv ⊢
  obtain ⟨pre, hpre⟩ : ∃ pre, preCheckConfirmation st'.ctx.backend
      (checkFrame st'.ctx.backend a) (r.bytes st'.ctx.backend) = .ok pre :=
    preCheckConfirmation_defined _ r _ _
  show Ends (preCheckConfirmation st'.ctx.backend (checkFrame st'.ctx.backend a)
    (r.bytes st'.ctx.backend) >>= _) _ _
  rw [hpre, ok_bind]
  cases pre with
  | some e => exact hfailure _ _ rfl rfl (by decide) (.invalid hleft hrcv hrc' hpre)
  | none =>
    by_cases haddr : Addressed st'.ctx r
    · rw [Adu.verdict_of_addressed haddr] at hverdict
      subst hverdict
      have hpos : (0 : Int) < (r.bytes st'.ctx.backend).length := by
        rw [Adu.length_bytes]
        have := List.length_pos_of_ne_nil hframed.ne_nil
        omega
      exact hrelay _ rfl rfl (proxyRelay_answers hframed.ne_nil) (.answered hleft hrcv hpos hpre)
    · rw [Adu.verdict_of_foreign haddr] at hverdict
      subst hverdict
      exact hrelay _ rfl rfl (proxyRelay_empty hne _ _) (.empty hleft hrcv hpre)

end

/-! ### Every request -/

/-- Bytes that have room for a header and `n` more are the frame of a PDU of `n` bytes, with
something behind it. -/
theorem exists_wrapped {req : List UInt8} {n : Nat} (h : be.headerLength + n ≤ req.length) :
    ∃ (a : Adu) (trailer : List UInt8), req = a.wrapped be trailer ∧ a.pdu.length = n := by
  cases be with
  | tcp =>
    have hlen : 7 + n ≤ req.length := h
    obtain ⟨a, rfl⟩ := exists_adu_tcp (show 7 ≤ req.length by omega)
    refine ⟨{ a with pdu := a.pdu.take n }, a.pdu.drop n, ?_, ?_⟩
    · show a.header .tcp ++ (a.pdu ++ []) = a.header .tcp ++ (a.pdu.take n ++ a.pdu.drop n)
      rw [List.take_append_drop, List.append_nil]
    · have hpdu : n ≤ a.pdu.length := by
        rw [Adu.length_bytes] at hlen
        simp only [Backend.headerLength, Backend.checksumLength] at hlen
        omega
      exact List.length_take_of_le hpdu
  | rtu =>
    have hlen : 1 + n ≤ req.length := h
    cases req with
    | nil =>
      rw [List.length_nil] at hlen
      omega
    | cons unit rest =>
      rw [List.length_cons] at hlen
      refine ⟨rtuAdu unit (rest.take n), rest.drop n, ?_, List.length_take_of_le (by omega)⟩
      show unit :: rest = unit :: (rest.take n ++ rest.drop n)
      rw [List.take_append_drop]

/-- The whole of a frame, whose trailer is the checksum. -/
theorem length_trailer {a : Adu} {trailer : List UInt8} {c : Nat}
    (h : (a.wrapped be trailer).length = be.headerLength + a.pdu.length + c) :
    trailer.length = c := by
  rw [Adu.length_wrapped] at h
  omega

/-- The transaction id of an answer is that of its request. -/
theorem Answer.tId_adu (answer : Answer) (a : Adu) : (answer.adu a).tId = a.tId := by
  cases answer with
  | relay unit pdu => rfl
  | exception code => rfl

/-- **The gateway answers exactly once.**  For a request whose PDU has 1 to 253 bytes, on a
frontend without link recovery and whatever the backend does, one frame is handed to the
frontend's send: that of the one answer the request has, under its transaction id.  A send that
fails or is cut short counts as a request that was not sent.  The call is given up only where a
signal interrupts `select` or the backend recovers its link, and so not on prompt systems without
link recovery. -/
theorem proxy_answers_once (fos : Os σ) (bos : Os τ) (g : Gateway (Recorded σ) τ)
    {req : List UInt8} (hlink : g.front.errorRecovery.link = false)
    (hmin : 1 ≤ (req.length : Int) - g.front.backend.headerLength - g.front.backend.checksumLength)
    (hmax : (req.length : Int) - g.front.backend.headerLength - g.front.backend.checksumLength ≤
      (maxPduLength : Int)) :
    ∃ (a : Adu) (trailer : List UInt8), req = a.wrapped g.front.backend trailer ∧
      trailer.length = g.front.backend.checksumLength ∧
      Ends (modbusProxy (recordOs fos) bos g req req.length)
        (fun r => ∃ answer, Forwarded bos g a answer ∧
          (∀ answer', Forwarded bos g a answer' → answer' = answer) ∧
          (answer.adu a).tId = a.tId ∧
          (g.back.errorRecovery.link = false → 0 < bos.fuel →
            Refuses ((rtuAdu a.unit a.pdu).sealed.bytes g.back.backend)
              (bos.send ((rtuAdu a.unit a.pdu).sealed.bytes g.back.backend) g.backOs).1 →
            answer = .exception exceptionGatewayPath) ∧
          r.2.frontOs.sent = g.frontOs.sent ++ [(answer.adu a).bytes g.front.backend])
        fun e => Retries fos g.front e ∨ Retries bos g.back e := by
  obtain ⟨n, hn⟩ : ∃ n : Nat, req.length = g.front.backend.headerLength + n +
      g.front.backend.checksumLength :=
    ⟨req.length - g.front.backend.headerLength - g.front.backend.checksumLength, by omega⟩
  simp only [maxPduLength] at hmax
  obtain ⟨a, trailer, rfl, hpdu⟩ := exists_wrapped (hn ▸ Nat.le_add_right _ _)
  have hne : a.pdu ≠ [] := List.ne_nil_of_length_pos (by omega)
  refine ⟨a, trailer, rfl, length_trailer (hpdu ▸ hn), ?_⟩
  refine (modbusProxy_forwarded fos bos g trailer hne (by simp only [maxPduLength]; omega)
    (by omega)).imp (fun r h => ?_) fun _ h => h
  obtain ⟨answer, hanswer, k, hsent, hk⟩ := h
  have hmax' : a.pdu.length ≤ maxPduLength := by
    simp only [maxPduLength]
    omega
  refine ⟨answer, hanswer, fun _ h => h.unique hanswer, answer.tId_adu a,
    fun hback hf hr => hanswer.unique (.of_refuses hback hf hne hmax' hr), ?_⟩
  rw [hk hlink] at hsent
  exact hsent

/-- A TCP frontend, and a backend on whose line these bytes have arrived. -/
def sampleGateway (be : Backend) (input : List UInt8) : Gateway (Recorded Link) Link :=
  ⟨(recordedSt .tcp 255).ctx, (recordedSt .tcp 255).os, (sampleSt be 1 input).ctx,
    (sampleSt be 1 input).os, .sys (.other 0)⟩

/-- Unit 17 does not answer. -/
theorem proxy_answers_once_sample :
    ∃ (a : Adu) (trailer : List UInt8),
      [0, 7, 0, 0, 0, 6, 17, 3, 0, 0, 0, 1] = a.wrapped .tcp trailer ∧ trailer.length = 0 ∧
      Ends (modbusProxy (recordOs (linkOs 1)) (linkOs 1) (sampleGateway .rtu [])
          [0, 7, 0, 0, 0, 6, 17, 3, 0, 0, 0, 1] 12)
        (fun r => ∃ answer, Forwarded (linkOs 1) (sampleGateway .rtu []) a answer ∧
          (∀ answer', Forwarded (linkOs 1) (sampleGateway .rtu []) a answer' →
            answer' = answer) ∧
          (answer.adu a).tId = a.tId ∧
          ((sampleGateway .rtu []).back.errorRecovery.link = false → 0 < (linkOs 1).fuel →
            Refuses ((rtuAdu a.unit a.pdu).sealed.bytes .rtu)
              ((linkOs 1).send ((rtuAdu a.unit a.pdu).sealed.bytes .rtu)
                (sampleGateway .rtu []).backOs).1 →
            answer = .exception exceptionGatewayPath) ∧
          r.2.frontOs.sent = [] ++ [(answer.adu a).bytes .tcp])
        fun e => Retries (linkOs 1) (sampleGateway .rtu []).front e ∨
          Retries (linkOs 1) (sampleGateway .rtu []).back e :=
  proxy_answers_once (linkOs 1) (linkOs 1) (sampleGateway .rtu [])
    (show (sampleGateway .rtu []).front.errorRecovery.link = false from rfl)
    (show (1 : Int) ≤ 12 - (7 : Nat) - (0 : Nat) by decide)
    (show (12 : Int) - (7 : Nat) - (0 : Nat) ≤ (253 : Nat) by decide)

/-! ### What has been checked of a relayed frame -/

/-- What the pre-check of the backend compares: the unit on RTU, unless the request was for all;
the transaction id, 0 as it was sent, and the protocol id on TCP. -/
def Checked (be : Backend) (a r : Adu) : Prop :=
  match be with
  | .rtu => a.unit.toNat = broadcastAddress ∨ r.unit = a.unit
  | .tcp => r.tId = 0 ∧ r.protocol = 0

theorem ok_ite_none_iff {c : Prop} [Decidable c] {e : Errno} :
    (Except.ok (if c then none else some e) : Run (Option Errno)) = .ok none ↔ c := by
  by_cases h : c
  · rw [if_pos h]
    exact ⟨fun _ => h, fun _ => rfl⟩
  · rw [if_neg h]
    exact ⟨fun hn => (by cases hn), fun hc => absurd hc h⟩

theorem preCheckConfirmation_checked (be : Backend) (a r : Adu) :
    preCheckConfirmation be (checkFrame be a) (r.bytes be) = .ok none ↔ Checked be a r := by
  cases be with
  | tcp =>
    show preCheckConfirmation .tcp ((rtuAdu a.unit a.pdu).wrapped .tcp []) (r.wrapped .tcp []) = _ ↔ _
    rw [preCheckConfirmation_tcp, ok_ite_none_iff]
    exact and_congr_left fun _ => ⟨Eq.symm, Eq.symm⟩
  | rtu =>
    show preCheckConfirmation .rtu ((rtuAdu a.unit a.pdu).wrapped .rtu []) (r.wrapped .rtu _) = _ ↔ _
    rw [preCheckConfirmation_rtu, ok_ite_none_iff, or_comm]
    exact or_congr_right ⟨Eq.symm, Eq.symm⟩

/-- The frame of `r` is received in answer to the request `a`. -/
def ReceivedFor (bos : Os τ) (g : Gateway σ τ) (a r : Adu) : Prop :=
  ∃ st st' rc, Left bos g a st ∧ rc ≠ -1 ∧
    modbusReceiveMsg bos st .confirmation = .ok (rc, r.bytes st'.ctx.backend, st')

/-- A received frame that the pre-check refuses is answered with an exception. -/
theorem Forwarded.of_unchecked {bos : Os τ} {g : Gateway σ τ} {a r : Adu} {answer : Answer}
    (h : Forwarded bos g a answer) (hr : ReceivedFor bos g a r)
    (hc : ¬ Checked g.back.backend a r) : answer = .exception exceptionGatewayTarget := by
  obtain ⟨st, st', rc, hleft, hrc, hrcv⟩ := hr
  obtain ⟨-, -, hctx⟩ := modbusReceiveMsg_le hrc hrcv
  obtain ⟨pre, hpre⟩ : ∃ pre, preCheckConfirmation st'.ctx.backend
      (checkFrame st'.ctx.backend a) (r.bytes st'.ctx.backend) = .ok pre :=
    preCheckConfirmation_defined _ r _ _
  cases pre with
  | some e => exact h.unique (.invalid hleft hrcv hrc hpre)
  | none =>
    rw [hctx, hleft.backend] at hpre
    exact absurd ((preCheckConfirmation_checked _ a r).mp hpre) hc

/-- A relayed frame was received and has passed the pre-check. -/
theorem Forwarded.relayed {bos : Os τ} {g : Gateway σ τ} {a : Adu} {unit : UInt8}
    {pdu : List UInt8} (h : Forwarded bos g a (.relay unit pdu)) :
    ∃ r : Adu, ReceivedFor bos g a r ∧ r.unit = unit ∧ r.pdu = pdu ∧
      Checked g.back.backend a r := by
  cases h with
  | @answered st st' rc r hleft hrcv hrc hpre =>
    obtain ⟨-, -, hctx⟩ := modbusReceiveMsg_le (by omega) hrcv
    refine ⟨r, ⟨st, st', rc, hleft, by omega, hrcv⟩, rfl, rfl, ?_⟩
    rw [hctx, hleft.backend] at hpre
    exact (preCheckConfirmation_checked _ a r).mp hpre

/-- **The gateway relays what passes the pre-check.**  For every request, on every pair of
backends and in every recovery mode: a request whose PDU has a length that is refused is not
answered, and to any other the frame of one answer is handed to the frontend.  If that is a relay,
its unit and PDU are those of a received frame that agrees with the request where the pre-check
looks: on RTU in the unit, on TCP in the transaction id.  A received frame that does not is
answered with GATEWAY_TARGET. -/
theorem proxy_relays_checked (fos : Os σ) (bos : Os τ) (g : Gateway (Recorded σ) τ)
    (req : List UInt8) :
    Ends (modbusProxy (recordOs fos) bos g req req.length)
      (fun r => (¬ (1 ≤ (req.length : Int) - g.front.backend.headerLength -
            g.front.backend.checksumLength ∧ (req.length : Int) - g.front.backend.headerLength -
            g.front.backend.checksumLength ≤ (maxPduLength : Int) + 1) ∧
          r.1 = -1 ∧ r.2.frontOs.sent = g.frontOs.sent) ∨
        ∃ (a : Adu) (trailer : List UInt8) (answer : Answer),
          req = a.wrapped g.front.backend trailer ∧
          trailer.length = g.front.backend.checksumLength ∧ AnsweredWith g a answer r ∧
          (∀ unit pdu, answer = .relay unit pdu → ∃ b : Adu, ReceivedFor bos g a b ∧
            b.unit = unit ∧ b.pdu = pdu ∧ Checked g.back.backend a b) ∧
          ∀ b, ReceivedFor bos g a b → ¬ Checked g.back.backend a b →
            answer = .exception exceptionGatewayTarget)
      fun e => Retries fos g.front e ∨ Retries bos g.back e := by
  by_cases hlen : 1 ≤ (req.length : Int) - g.front.backend.headerLength -
      g.front.backend.checksumLength ∧ (req.length : Int) - g.front.backend.headerLength -
      g.front.backend.checksumLength ≤ (maxPduLength : Int) + 1
  · obtain ⟨hmin, hmax⟩ := hlen
    obtain ⟨n, hn⟩ : ∃ n : Nat, req.length = g.front.backend.headerLength + n +
        g.front.backend.checksumLength :=
      ⟨req.length - g.front.backend.headerLength - g.front.backend.checksumLength, by omega⟩
    simp only [maxPduLength] at hmax
    obtain ⟨a, trailer, rfl, hpdu⟩ := exists_wrapped (hn ▸ Nat.le_add_right _ _)
    have hne : a.pdu ≠ [] := List.ne_nil_of_length_pos (by omega)
    have ht := length_trailer (hpdu ▸ hn)
    refine (modbusProxy_forwarded fos bos g trailer hne (by simp only [maxPduLength]; omega)
      (by omega)).imp (fun r h => Or.inr ?_) fun _ h => h
    obtain ⟨answer, hanswer, hframe⟩ := h
    refine ⟨a, trailer, answer, rfl, ht, hframe, ?_, fun b hb hc => hanswer.of_unchecked hb hc⟩
    intro unit pdu hrelay
    subst hrelay
    exact hanswer.relayed
  · -- the length of the PDU is refused
    refine Ends.ite (fun _ => Or.inl ⟨hlen, rfl, rfl⟩) fun _ => ?_
    rw [if_pos (by omega)]
    exact Or.inl ⟨hlen, rfl, rfl⟩

/-- Registers of unit 17 are asked for: from RTU input registers are relayed, from TCP the
registers of unit 18. -/
theorem relayed_unasked :
    (modbusProxy (recordOs (linkOs 1)) (linkOs 1)
        (sampleGateway .rtu [17, 4, 2, 0, 0, 120, 243])
        [0, 7, 0, 0, 0, 6, 17, 3, 0, 0, 0, 1] 12).map (fun r => (r.1, r.2.frontOs.sent)) =
      .ok (11, [[0, 7, 0, 0, 0, 5, 17, 4, 2, 0, 0]]) ∧
    (modbusProxy (recordOs (linkOs 1)) (linkOs 1)
        (sampleGateway .tcp [0, 0, 0, 0, 0, 5, 18, 3, 2, 0, 0])
        [0, 7, 0, 0, 0, 6, 17, 3, 0, 0, 0, 1] 12).map (fun r => (r.1, r.2.frontOs.sent)) =
      .ok (11, [[0, 7, 0, 0, 0, 5, 18, 3, 2, 0, 0]]) :=
  ⟨rfl, rfl⟩

end Libmodbus
