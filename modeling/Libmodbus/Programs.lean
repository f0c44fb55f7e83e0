/-
Libmodbus/Programs.lean

Any program over the library.  A program that

    passes arrays as long as it says they are (`Operation.Fits`), and
    names a slave before it calls it over RTU (`SlaveKnown`),

never makes the library read or write outside an array, overflow an integer or
fail an assertion, whatever it calls in which order, on either of its contexts
and through the proxy, and whatever the two peers send.  It is only given up
where a retry loop may go on for ever, which takes a signal that interrupts
`select` or a program that asks for link recovery (`program_safe`).

Every operation has its own small statement of that kind; `Operation.run_ends`
gathers them, and the run is an induction on the program that carries what is
known of the two contexts along (`Going`).
-/
import Libmodbus.Relays
import Libmodbus.Settings

namespace Libmodbus

open CSem Wire Posix

variable {σ τ : Type}

/-! ### What a caller owes -/

/-- The arrays have the length that the operation is told, and a request that is answered with an
exception has a function code. -/
def Operation.Fits (be : Backend) : Operation → Prop
  | readBits _ nb dest | readInputBits _ nb dest => nb ≤ dest.length
  | readRegisters _ nb dest | readInputRegisters _ nb dest => nb ≤ dest.length
  | writeBits _ nb src => nb ≤ src.length
  | writeRegisters _ nb src => nb ≤ src.length
  | writeAndReadRegisters _ writeNb src _ readNb dest =>
    writeNb ≤ src.length ∧ readNb ≤ dest.length
  | reportSlaveId maxDest dest => maxDest ≤ dest.length
  | reply req reqLength => reqLength ≤ req.length
  | replyException req _ => be.headerLength + 1 ≤ req.length
  | _ => True

/-- The operations that build a request for the slave of the context. -/
def Operation.Requests : Operation → Prop
  | readBits .. | readInputBits .. | readRegisters .. | readInputRegisters .. | writeBit .. => True
  | writeRegister .. | writeBits .. | writeRegisters .. | maskWriteRegister .. => True
  | writeAndReadRegisters .. | reportSlaveId .. => True
  | _ => False

/-- A slave number is set that no context refuses. -/
def Operation.Addresses : Operation → Prop
  | set (.slave number) => 0 ≤ number ∧ number ≤ 247
  | _ => False

/-- Link recovery is asked for. -/
def Operation.RecoversLink : Operation → Prop
  | set (.errorRecovery mode) => mode &&& 2 ≠ 0
  | _ => False

/-- Of the operations on one context, those that request come after one that addresses. -/
def SlaveKnown : Prop → List (Option Operation) → Prop
  | _, [] => True
  | known, op :: ops =>
    (∀ o ∈ op, o.Requests → known) ∧ SlaveKnown (known ∨ ∃ o ∈ op, o.Addresses) ops

/-- The operations of a step on its two contexts. -/
def Action.onFront : Action → Option Operation
  | front op => some op
  | _ => none

def Action.onBack : Action → Option Operation
  | back op => some op
  | _ => none

/-- The arrays of a step, of which the request of the proxy is one. -/
def Action.Fits (fbe bbe : Backend) : Action → Prop
  | front op => op.Fits fbe
  | back op => op.Fits bbe
  | proxy req reqLength => reqLength ≤ req.length

/-! ### Writing -/

section

variable (os : Os σ) (st : St σ)

theorem writeSingle_ends {function : Nat} (hf : function = fcWriteSingleCoil ∨
    function = fcWriteSingleRegister) (addr : Int) (value : UInt16) :
    Ends (writeSingle os st function addr value) (fun _ => True) (GivenUp os st.ctx) := by
  refine Ends.build [lo function, hi addr, lo addr, hi value.toNat, lo value.toNat] fun _ => ?_
  have hframed : Framed .indication
      [lo function, hi addr, lo addr, hi value.toNat, lo value.toNat] := by
    rcases hf with rfl | rfl
    · exact RequestPdu.framed (.writeSingle (Or.inl rfl) _ _ _ _) (show 5 ≤ 253 by decide)
    · exact RequestPdu.framed (.writeSingle (Or.inr rfl) _ _ _ _) (show 5 ≤ 253 by decide)
  exact Ends.exchange os st hframed (fun _ => Or.inl) fun rc rsp st' _ _ => trivial

theorem writeBits_ends (addr : Int) {nb : Int} {src : List UInt8} (h : nb ≤ src.length) :
    Ends (modbusWriteBits os st addr nb src) (fun _ => True) (GivenUp os st.ctx) := by
  refine Ends.ite (fun _ => trivial) fun hnb => ?_
  have hmax : (maxWriteBits : Int) = 1968 := rfl
  obtain ⟨n, rfl⟩ := Int.eq_ofNat_of_zero_le (show 0 ≤ nb by omega)
  have hlen : (src.take n).length = n := by
    rw [List.length_take]
    omega
  have hcount : n / 8 + (if n % 8 ≠ 0 then 1 else 0) = (n + 7) / 8 := by
    split_ifs <;> omega
  have hbytes : packBytesLoop src n ((n + 7) / 8) 0 = .ok (packBits ((src.take n).map bitOf)) :=
    packBytesLoop_packBits (by rw [hlen]) (by rw [hlen, Nat.zero_add])
      (List.take_append_drop n src).symm
  have hsize : (packBits ((src.take n).map bitOf)).length = (n + 7) / 8 := by
    rw [length_packBits, List.length_map, hlen]
  refine Ends.build (lo fcWriteMultipleCoils :: hi addr :: lo addr :: hi (n : Int) :: lo (n : Int) ::
    lo ((n + 7) / 8 : Nat) :: packBits ((src.take n).map bitOf)) fun _ => ?_
  simp only [Int.toNat_natCast, hcount]
  rw [hbytes, ok_bind, List.append_assoc]
  refine Ends.exchange os st (RequestPdu.framed (.writeMultiple (Or.inl rfl) _ _ _ _ _ _ ?_) ?_)
    (fun _ => Or.inl) fun rc rsp st' _ _ => trivial
  · rw [← hsize]
    exact toNat_lo_length (by omega)
  · show (packBits ((src.take n).map bitOf)).length + 6 ≤ 253
    omega

theorem writeRegisters_ends (addr : Int) {nb : Int} {src : List UInt16} (h : nb ≤ src.length) :
    Ends (modbusWriteRegisters os st addr nb src) (fun _ => True) (GivenUp os st.ctx) := by
  refine Ends.ite (fun _ => trivial) fun hnb => ?_
  have hmax : (maxWriteRegisters : Int) = 123 := rfl
  obtain ⟨n, rfl⟩ := Int.eq_ofNat_of_zero_le (show 0 ≤ nb by omega)
  have hlen : (src.take n).length = n := by
    rw [List.length_take]
    omega
  have hbytes : putRegisters src 0 (n : Int).toNat = .ok (bigEndian (src.take n)) :=
    putRegisters_taken (Int.ofNat_le.mp h)
  have hsize : (bigEndian (src.take n)).length = 2 * n := by
    rw [length_bigEndian, hlen]
  refine Ends.build (lo fcWriteMultipleRegisters :: hi addr :: lo addr :: hi (n : Int) ::
    lo (n : Int) :: lo ((n : Int) * 2) :: bigEndian (src.take n)) fun _ => ?_
  simp only
  rw [hbytes, ok_bind, List.append_assoc]
  refine Ends.exchange os st (RequestPdu.framed (.writeMultiple (Or.inr rfl) _ _ _ _ _ _ ?_) ?_)
    (fun _ => Or.inl) fun rc rsp st' _ _ => trivial
  · have hlo := toNat_lo ((n : Int) * 2)
    omega
  · show (bigEndian (src.take n)).length + 6 ≤ 253
    omega

theorem maskWriteRegister_ends (addr : Int) (andMask orMask : UInt16) :
    Ends (modbusMaskWriteRegister os st addr andMask orMask) (fun _ => True)
      (GivenUp os st.ctx) := by
  refine Ends.build [lo fcMaskWriteRegister, hi addr, lo addr, hi andMask.toNat, lo andMask.toNat,
    hi orMask.toNat, lo orMask.toNat] fun _ => ?_
  simp only [take_basis, List.append_assoc]
  exact Ends.exchange os st (RequestPdu.framed (.maskWrite _ _ _ _ _ _) (show 7 ≤ 253 by decide))
    (fun _ => Or.inl) fun rc rsp st' _ _ => trivial

end

/-! ### Receiving and answering -/

section

variable (os : Os σ) (st : St σ)

theorem modbusReceiveMsg_ends (mt : MsgType) :
    Ends (modbusReceiveMsg os st mt) (fun _ => True) (Retries os st.ctx) :=
  (modbusReceiveMsg_retries os st mt).imp (fun _ h => h) fun _ h => .of_not_prompt _ h

theorem modbusReceive_ends :
    Ends (modbusReceive os st) (fun _ => True) (Retries os st.ctx) := by
  unfold modbusReceive
  cases st.ctx.backend with
  | tcp => exact modbusReceiveMsg_ends os st _
  | rtu =>
    refine Ends.ite (fun _ => (modbusReceiveMsg_ends os st _).bind fun _ _ _ => trivial) fun _ => ?_
    exact (modbusReceiveMsg_ends os st _).bind fun _ _ _ => Ends.ite (fun _ => trivial) fun _ => trivial

theorem modbusReplyException_ends {req : List UInt8} (code : Nat)
    (hlen : st.ctx.backend.headerLength + 1 ≤ req.length) :
    Ends (modbusReplyException os st req code) (fun _ => True) (Retries os st.ctx) := by
  obtain ⟨rsp, hrsp⟩ : ∃ rsp, buildReplyException st.ctx.backend req code = .ok rsp := by
    obtain ⟨tId, htid⟩ : ∃ tId, getResponseTid st.ctx.backend req = .ok tId := by
      cases hbe : st.ctx.backend with
      | rtu => exact ⟨0, rfl⟩
      | tcp =>
        rw [hbe] at hlen
        have h8 : 8 ≤ req.length := hlen
        rw [getResponseTid, rd_lt (show 0 < req.length by omega), ok_bind,
          rd_lt (show 1 < req.length by omega), ok_bind]
        exact ⟨_, rfl⟩
    rw [buildReplyException, rd_lt (show st.ctx.backend.headerLength - 1 < req.length by omega),
      ok_bind, rd_lt hlen, ok_bind, htid, ok_bind]
    split_ifs
    · exact ⟨_, rfl⟩
    · exact ⟨_, rfl⟩
  rw [modbusReplyException, hrsp, ok_bind]
  cases rsp with
  | none => exact trivial
  | some rsp => exact sendMsg_retries os st rsp

/-- `modbus_reply`, of what is in the buffer. -/
theorem modbusReply_ends (ver : VersionString) {req : List UInt8} {reqLength : Int}
    (hlen : reqLength ≤ req.length) {m₀ m : Mapping} (hm : StartsSafe m₀) (hkept : Kept m₀ m) :
    Ends (modbusReply os ver st req reqLength m) (fun r => Kept m₀ r.2.1) (Retries os st.ctx) := by
  by_cases hshort : reqLength < (st.ctx.backend.headerLength + 1 : Nat)
  · rw [modbusReply_eq, if_pos hshort]
    exact hkept
  have hle : ((st.ctx.backend.headerLength + 1 : Nat) : Int) ≤ reqLength := not_lt.mp hshort
  have hroom : st.ctx.backend.headerLength + 1 ≤ req.length := by omega
  have hslave := rd_lt (show st.ctx.backend.headerLength - 1 < req.length by omega)
  have hbuild : Ends (buildReply ver st.ctx.backend req reqLength m) (fun _ => True)
      fun _ => False :=
    ends_buildReply (hkept.startsSafe hm) (Or.inl hroom) (Or.inl (Int.toNat_le.mpr hlen))
  cases hreply : modbusReply os ver st req reqLength m with
  | error e =>
    rcases (modbusReply_leaves os ver hslave hle).stop hreply with hretry | herr
    · exact hretry
    · exact (hbuild.stop herr).elim
  | ok r =>
    have hstep : (⟨st, req, reqLength⟩ : ReplyCall σ).step os ver m = .ok (r.1, r.2.1) := by
      rw [ReplyCall.step, hreply]
      rfl
    exact ReplyCall.step_kept hkept hstep

/-- **An operation** ends or is given up, and keeps the mapping. -/
theorem Operation.run_ends (ver : VersionString) {op : Operation} (hfits : op.Fits st.ctx.backend)
    (hslave : op.Requests → st.ctx.backend = .rtu → st.ctx.slave ≠ -1) {m₀ m : Mapping}
    (hm : StartsSafe m₀) (hkept : Kept m₀ m) :
    Ends (op.run os ver st m) (fun r => Kept m₀ r.2.2) (Retries os st.ctx) := by
  have hplain : ∀ {r : Run (Int × St σ)}, Ends r (fun _ => True) (Retries os st.ctx) →
      Ends (plain r m) (fun r => Kept m₀ r.2.2) (Retries os st.ctx) :=
    fun hr => hr.bind fun _ _ _ => hkept
  have hfilled : ∀ {r : Run (Int × List UInt8 × St σ)}, Ends r (fun _ => True) (Retries os st.ctx) →
      Ends (filled r m) (fun r => Kept m₀ r.2.2) (Retries os st.ctx) :=
    fun hr => hr.bind fun _ _ _ => hkept
  have hregisters : ∀ {r : Run (Int × List UInt16 × St σ)},
      Ends r (fun _ => True) (Retries os st.ctx) →
      Ends (filledRegisters r m) (fun r => Kept m₀ r.2.2) (Retries os st.ctx) :=
    fun hr => hr.bind fun _ _ _ => hkept
  -- with a slave number a request is built
  have hcall : ∀ {α : Type} {x : Run α} {P : α → Prop},
      (st.ctx.backend = .rtu → st.ctx.slave ≠ -1) → Ends x P (GivenUp os st.ctx) →
      Ends x (fun _ => True) (Retries os st.ctx) :=
    fun hslave hx => hx.imp (fun _ _ => trivial) fun e he =>
      he.resolve_right fun hassert => hslave hassert.2.1 hassert.2.2
  cases op with
  | set setting => exact hkept
  | connect => exact hkept
  | close => exact hkept
  | flush =>
    obtain ⟨rc, e, s, hflush⟩ := modbusFlush_ends os st
    rw [run, hflush]
    exact hkept
  | readBits addr nb dest =>
    exact hfilled (hcall (hslave trivial) (readBits_confined os st (Or.inl rfl) addr hfits))
  | readInputBits addr nb dest =>
    exact hfilled (hcall (hslave trivial) (readBits_confined os st (Or.inr rfl) addr hfits))
  | readRegisters addr nb dest =>
    exact hregisters (hcall (hslave trivial) (readAnyRegisters_confined os st (Or.inl rfl) addr hfits))
  | readInputRegisters addr nb dest =>
    exact hregisters (hcall (hslave trivial) (readAnyRegisters_confined os st (Or.inr rfl) addr hfits))
  | writeBit addr status =>
    exact hplain (hcall (hslave trivial) (writeSingle_ends os st (Or.inl rfl) addr _))
  | writeRegister addr value =>
    exact hplain (hcall (hslave trivial) (writeSingle_ends os st (Or.inr rfl) addr value))
  | writeBits addr nb src => exact hplain (hcall (hslave trivial) (writeBits_ends os st addr hfits))
  | writeRegisters addr nb src =>
    exact hplain (hcall (hslave trivial) (writeRegisters_ends os st addr hfits))
  | maskWriteRegister addr andMask orMask =>
    exact hplain (hcall (hslave trivial) (maskWriteRegister_ends os st addr andMask orMask))
  | writeAndReadRegisters writeAddr writeNb src readAddr readNb dest =>
    exact hregisters (hcall (hslave trivial)
      (writeAndRead_confined os st writeAddr readAddr hfits.1 hfits.2))
  | reportSlaveId maxDest dest =>
    exact hfilled (hcall (hslave trivial) (reportSlaveId_confined os st hfits))
  | sendRawRequestTid rawReq tid =>
    exact hplain (modbusSendRawRequestTid_retries os st rawReq tid)
  | receive => exact hfilled (modbusReceive_ends os st)
  | receiveConfirmation => exact hfilled (modbusReceiveMsg_ends os st _)
  | reply req reqLength =>
    exact (modbusReply_ends os st ver hfits hm hkept).bind fun _ _ h => h
  | replyException req code => exact hplain (modbusReplyException_ends os st code hfits)

end

/-! ### The proxy -/

section

variable (fos : Os σ) (bos : Os τ) (g : Gateway σ τ)

theorem proxyFailure_ends {req : List UInt8} (code : Nat)
    (hlen : g.front.backend.headerLength + 1 ≤ req.length) :
    Ends (proxyFailure fos g req code) (fun _ => True) (Retries fos g.front) :=
  (modbusReplyException_ends fos g.frontSt code hlen).bind fun _ _ _ => trivial

/-- What is relayed is a message that was received, or has the length 0. -/
theorem proxyRelay_ends {req : List UInt8} {r : Adu} (hr : r.pdu ≠ []) {rc : Int}
    (hrc : rc = (r.bytes g.back.backend).length ∨ rc = 0) (tId : Int)
    (hlen : g.front.backend.headerLength + 1 ≤ req.length) :
    Ends (proxyRelay fos g (r.bytes g.back.backend) rc tId req) (fun _ => True)
      (Retries fos g.front) := by
  unfold proxyRelay
  refine Ends.ite (fun _ => proxyFailure_ends fos g _ hlen) fun hpos => ?_
  have hpdu := List.length_pos_of_ne_nil hr
  have hsize : (r.bytes g.back.backend).length =
      g.back.backend.headerLength + r.pdu.length + g.back.backend.checksumLength := r.length_bytes
  have hheader : 1 ≤ g.back.backend.headerLength := by cases g.back.backend <;> decide
  obtain rfl : rc = (r.bytes g.back.backend).length := by
    rcases hrc with h | rfl
    · exact h
    · omega
  rw [rd_lt (show g.back.backend.headerLength - 1 < (r.bytes g.back.backend).length by omega),
    ok_bind, rd_lt (show g.back.backend.headerLength < (r.bytes g.back.backend).length by omega),
    ok_bind, rdSlice_of_le (by omega), ok_bind]
  exact (sendMsg_retries fos g.frontSt _).bind fun _ _ _ => trivial

/-- **The proxy** ends or is given up, whatever the backend sends. -/
theorem modbusProxy_ends {req : List UInt8} {reqLength : Int} (hlen : reqLength ≤ req.length) :
    Ends (modbusProxy fos bos g req reqLength) (fun _ => True)
      fun e => Retries fos g.front e ∨ Retries bos g.back e := by
  by_cases hpos : reqLength < 1
  · rw [modbusProxy, if_pos hpos]
    exact trivial
  by_cases hbounds : reqLength - g.front.backend.headerLength - g.front.backend.checksumLength < 1 ∨
      (maxPduLength : Int) + 1 <
        reqLength - g.front.backend.headerLength - g.front.backend.checksumLength
  · rw [modbusProxy, if_neg hpos]
    simp only [hbounds, if_true]
    exact trivial
  obtain ⟨n, hn⟩ := Int.eq_ofNat_of_zero_le (show 0 ≤ reqLength - g.front.backend.headerLength -
    g.front.backend.checksumLength by omega)
  have hmax : (maxPduLength : Int) = 253 := rfl
  have hroom : g.front.backend.headerLength + n ≤ req.length := by omega
  have hheader : g.front.backend.headerLength + 1 ≤ req.length := by omega
  obtain ⟨a, trailer, rfl, rfl⟩ := exists_wrapped hroom
  have hne : a.pdu ≠ [] := by
    rintro hnil
    rw [hnil, List.length_nil] at hn
    omega
  have hle : a.pdu.length ≤ maxPduLength + 1 := by omega
  have hfailure : ∀ (g' : Gateway σ τ) (code : Nat), g'.front = g.front →
      Ends (proxyFailure fos g' (a.wrapped g.front.backend trailer) code) (fun _ => True)
        fun e => Retries fos g.front e ∨ Retries bos g.back e := by
    intro g' code hfront
    rw [← hfront] at hheader
    refine (proxyFailure_ends fos g' code ?_).imp (fun _ h => h) fun e he => Or.inl (hfront ▸ he)
    rw [← hfront]
    exact hheader
  rw [modbusProxy_wrapped fos bos g trailer hne hle hn]
  cases hset : modbusSetSlave g.back a.unit.toNat with
  | error e => exact hfailure _ _ rfl
  | ok back =>
  have hback : ∀ e, Retries bos back e → Retries bos g.back e := by
    intro e he
    rw [modbusSetSlave_ok hset] at he
    exact he
  refine ((modbusSendRawRequestTid_retries bos ⟨back, g.errno, g.backOs⟩ _ 0).imp (fun _ h => h)
    fun e he => Or.inr (hback e he)).bind fun sent _ _ => ?_
  obtain ⟨rc, st⟩ := sent
  refine Ends.ite (fun _ => hfailure _ _ rfl) fun _ => ?_
  refine ((modbusReceiveMsg_retries bos st .confirmation).imp (fun _ h => h)
    fun e he => Or.inr (.of_not_prompt g.back he)).bind fun received hrcv _ => ?_
  obtain ⟨rc', msg, st'⟩ := received
  refine Ends.ite (fun _ => Ends.ite (fun _ => hfailure _ _ rfl) fun _ => hfailure _ _ rfl)
    fun hrc => ?_
  obtain ⟨r, e, s, rfl, hframed, hverdict, -, hst⟩ :=
    modbusReceiveMsg_is_adu (tracked_any bos) hrc hrcv
  have hctx : st'.ctx = st.ctx := by rw [hst]
  rw [← hctx] at hverdict ⊢
  have hrc' : rc' = (r.bytes st'.ctx.backend).length ∨ rc' = 0 := by
    rw [hverdict]
    unfold Adu.verdict
    split_ifs
    · exact Or.inl rfl
    · exact Or.inr rfl
  obtain ⟨pre, hpre⟩ : ∃ pre, preCheckConfirmation st'.ctx.backend
      ((rtuAdu a.unit a.pdu).wrapped st'.ctx.backend []) (r.bytes st'.ctx.backend) = .ok pre :=
    preCheckConfirmation_defined _ r _ _
  show Ends (preCheckConfirmation st'.ctx.backend ((rtuAdu a.unit a.pdu).wrapped
    st'.ctx.backend []) (r.bytes st'.ctx.backend) >>= _) _ _
  rw [hpre, ok_bind]
  cases pre with
  | some e => exact hfailure _ _ rfl
  | none =>
    have hrelay := proxyRelay_ends fos (({ g with back := back } : Gateway σ τ).setBack st |>.setBack
      st') hframed.ne_nil hrc' (a.sft g.front.backend 0).tId hheader
    exact hrelay.imp (fun _ h => h) fun _ => Or.inl

/-- **A step** ends or is given up, and keeps the mapping. -/
theorem Action.run_ends (ver : VersionString) {action : Action}
    (hfits : action.Fits g.front.backend g.back.backend)
    (hfront : ∀ op ∈ action.onFront, op.Requests → g.front.backend = .rtu → g.front.slave ≠ -1)
    (hback : ∀ op ∈ action.onBack, op.Requests → g.back.backend = .rtu → g.back.slave ≠ -1)
    {m₀ m : Mapping} (hm : StartsSafe m₀) (hkept : Kept m₀ m) :
    Ends (action.run fos bos ver (g, m)) (fun r => Kept m₀ r.2.2)
      fun e => Retries fos g.front e ∨ Retries bos g.back e := by
  cases action with
  | front op =>
    have hop : Ends (op.run fos ver g.frontSt m) (fun r => Kept m₀ r.2.2) (Retries fos g.front) :=
      Operation.run_ends fos g.frontSt ver hfits (hfront op rfl) hm hkept
    exact (hop.imp (fun _ h => h) fun _ => Or.inl).bind fun _ _ h => h
  | back op =>
    have hop : Ends (op.run bos ver g.backSt m) (fun r => Kept m₀ r.2.2) (Retries bos g.back) :=
      Operation.run_ends bos g.backSt ver hfits (hback op rfl) hm hkept
    exact (hop.imp (fun _ h => h) fun _ => Or.inr).bind fun _ _ h => h
  | proxy req reqLength => exact (modbusProxy_ends fos bos g hfits).bind fun _ _ _ => hkept

end

/-! ### Whole programs -/

/-- What is known of a context on the way: its backend, that it has a slave number when one is
known, and that links are only recovered when this may be asked for. -/
structure Going (be : Backend) (known recovers : Prop) (ctx : Modbus) : Prop where
  backend : ctx.backend = be
  slave : known → be = .rtu → ctx.slave ≠ -1
  link : ctx.errorRecovery.link = true → recovers

namespace Going

variable {be : Backend} {known recovers : Prop} {ctx ctx' : Modbus}

theorem new (be : Backend) (recovers : Prop) : Going be (be = .tcp) recovers (modbusNew be) where
  backend := rfl
  slave h h' := by
    subst h
    cases h'
  link h := by
    cases h

theorem same (h : Going be known recovers ctx) (hsame : SameSettings ctx ctx') :
    Going be known recovers ctx' := by
  obtain ⟨s, tId, flag, rfl⟩ := hsame
  exact ⟨h.backend, h.slave, h.link⟩

/-- A setter that is accepted: a slave number is one of a byte, so it stays known. -/
theorem set (h : Going be known recovers ctx) {setting : Setting}
    (hlink : (Operation.set setting).RecoversLink → recovers)
    (hset : setting.set ctx = .ok ctx') : Going be known recovers ctx' := by
  cases setting with
  | slave number =>
    have hslave : modbusSetSlave ctx number = .ok ctx' := hset
    rw [modbusSetSlave_eq] at hslave
    split_ifs at hslave with htakes
    cases hslave
    have hbyte := htakes.byte
    exact ⟨h.backend, fun _ _ => show number ≠ -1 by omega, h.link⟩
  | errorRecovery mode =>
    cases hset
    exact ⟨h.backend, h.slave, fun hon => hlink (show mode &&& 2 ≠ 0 from of_decide_eq_true hon)⟩
  | socket | enableQuirks | disableQuirks =>
    cases hset
    exact ⟨h.backend, h.slave, h.link⟩
  | responseTimeout toSec toUsec =>
    unfold Setting.set modbusSetResponseTimeout at hset
    simp only at hset
    split_ifs at hset
    cases hset
    exact ⟨h.backend, h.slave, h.link⟩
  | byteTimeout toSec toUsec =>
    unfold Setting.set modbusSetByteTimeout at hset
    simp only at hset
    split_ifs at hset
    cases hset
    exact ⟨h.backend, h.slave, h.link⟩
  | indicationTimeout toSec toUsec =>
    unfold Setting.set modbusSetIndicationTimeout at hset
    simp only at hset
    split_ifs at hset
    cases hset
    exact ⟨h.backend, h.slave, h.link⟩

/-- A step of a program: no setting changes but by the setters with `P`. -/
theorem sets (h : Going be known recovers ctx) {P : Setting → Prop}
    (hlink : ∀ setting, P setting → (Operation.set setting).RecoversLink → recovers)
    (hsets : Sets P ctx ctx') : Going be known recovers ctx' := by
  obtain ⟨ctx₁, rfl | ⟨setting, hP, hset⟩, hsame⟩ := hsets
  · exact h.same hsame
  · exact (h.set (hlink setting hP) hset).same hsame

/-- A slave number that was set is known. -/
theorem know (h : Going be known recovers ctx) {learnt : Prop} (hslave : learnt → ctx.slave ≠ -1) :
    Going be (known ∨ learnt) recovers ctx :=
  ⟨h.backend, fun hk hbe => hk.elim (fun hk => h.slave hk hbe) hslave, h.link⟩

end Going

theorem Operation.run_addresses {os : Os σ} {ver : VersionString} {op : Operation} {st : St σ}
    {m : Mapping} {r : Output × St σ × Mapping} (hop : op.Addresses)
    (h : op.run os ver st m = .ok r) : r.2.1.ctx.slave ≠ -1 := by
  unfold Addresses at hop
  split at hop
  · rename_i number
    have htakes : st.ctx.Takes number := by
      refine Or.inl ⟨hop.1, ?_⟩
      split_ifs <;> omega
    have hset : (Setting.slave number).call st =
        (0, { st with ctx := { st.ctx with slave := number } }) := by
      unfold Setting.call
      rw [show (Setting.slave number).set st.ctx = _ from modbusSetSlave_eq st.ctx number,
        if_pos htakes]
    rw [run, hset] at h
    cases h
    show number ≠ -1
    omega
  · exact hop.elim

/-- Link recovery is asked for, on one of the contexts. -/
def RecoversLink (program : List Action) : Prop :=
  ∃ action ∈ program, ∃ op, (op ∈ action.onFront ∨ op ∈ action.onBack) ∧ op.RecoversLink

section

variable {fos : Os σ} {bos : Os τ} {ver : VersionString}

/-- What is known after a step. -/
theorem Action.run_going {fbe bbe : Backend} {known known' recovers : Prop} {action : Action}
    {g : Gateway σ τ} {m : Mapping} {r : Output × Gateway σ τ × Mapping}
    (hfront : Going fbe known recovers g.front) (hback : Going bbe known' recovers g.back)
    (hlink : RecoversLink [action] → recovers) (h : action.run fos bos ver (g, m) = .ok r) :
    Going fbe (known ∨ ∃ o ∈ action.onFront, o.Addresses) recovers r.2.1.front ∧
      Going bbe (known' ∨ ∃ o ∈ action.onBack, o.Addresses) recovers r.2.1.back := by
  obtain ⟨hsetsFront, hsetsBack⟩ := (Action.run_settings fos bos g ver action m).result h
  have hfront' : Going fbe known recovers r.2.1.front := by
    refine hfront.sets (fun setting hset hon => hlink ?_) hsetsFront
    exact ⟨action, List.mem_singleton_self _, .set setting, Or.inl (by rw [hset]; rfl), hon⟩
  have hback' : Going bbe known' recovers r.2.1.back := by
    refine hback.sets (fun setting hset hon => hlink ?_) hsetsBack
    rcases hset with hset | ⟨req, reqLength, number, -, rfl⟩
    · exact ⟨action, List.mem_singleton_self _, .set setting, Or.inr (by rw [hset]; rfl), hon⟩
    · exact hon.elim
  refine ⟨hfront'.know ?_, hback'.know ?_⟩
  · rintro ⟨op, hop, haddresses⟩
    cases action with
    | front op' =>
      cases hop
      obtain ⟨r', hr', h⟩ := bind_eq_ok.mp h
      cases h
      exact Operation.run_addresses haddresses hr'
    | back | proxy => cases hop
  · rintro ⟨op, hop, haddresses⟩
    cases action with
    | back op' =>
      cases hop
      obtain ⟨r', hr', h⟩ := bind_eq_ok.mp h
      cases h
      exact Operation.run_addresses haddresses hr'
    | front | proxy => cases hop

theorem program_ends {fbe bbe : Backend} {recovers : Prop} {m₀ : Mapping} (hm : StartsSafe m₀)
    {program : List Action} {known known' : Prop} {g : Gateway σ τ} {m : Mapping}
    (hfits : ∀ action ∈ program, action.Fits fbe bbe)
    (hknown : SlaveKnown known (program.map Action.onFront))
    (hknown' : SlaveKnown known' (program.map Action.onBack))
    (hlink : RecoversLink program → recovers) (hfront : Going fbe known recovers g.front)
    (hback : Going bbe known' recovers g.back) (hkept : Kept m₀ m) :
    Ends (runs (Action.run fos bos ver) program (g, m)) (fun r => Kept m₀ r.2.2)
      fun e => e = .outOfFuel ∧ (Prompt fos → Prompt bos → recovers) := by
  induction program generalizing known known' g m with
  | nil => exact hkept
  | cons action program ih =>
    have hlink₁ : RecoversLink [action] → recovers := by
      rintro ⟨action', hmem, op, hop, hon⟩
      rw [List.mem_singleton] at hmem
      subst hmem
      exact hlink ⟨_, List.mem_cons_self, op, hop, hon⟩
    have hlink₂ : RecoversLink program → recovers := by
      rintro ⟨action', hmem, op, hop, hon⟩
      exact hlink ⟨action', List.mem_cons_of_mem _ hmem, op, hop, hon⟩
    have hstep : Ends (action.run fos bos ver (g, m)) (fun r => Kept m₀ r.2.2)
        fun e => e = .outOfFuel ∧ (Prompt fos → Prompt bos → recovers) := by
      refine (Action.run_ends fos bos g ver ?_ (fun op hop hreq hbe => ?_)
        (fun op hop hreq hbe => ?_) hm hkept).imp (fun _ h => h) fun e he => ?_
      · rw [hfront.backend, hback.backend]
        exact hfits action List.mem_cons_self
      · rw [hfront.backend] at hbe
        exact hfront.slave (hknown.1 op hop hreq) hbe
      · rw [hback.backend] at hbe
        exact hback.slave (hknown'.1 op hop hreq) hbe
      · rcases he with he | he
        · exact ⟨he.1, fun hp _ => hfront.link (he.2 hp)⟩
        · exact ⟨he.1, fun _ hp => hback.link (he.2 hp)⟩
    refine hstep.bind fun r hr hkept' => ?_
    obtain ⟨hfront', hback'⟩ := Action.run_going hfront hback hlink₁ hr
    refine (ih (fun action' h => hfits action' (List.mem_cons_of_mem _ h)) hknown.2 hknown'.2 hlink₂
      hfront' hback' hkept').bind fun r' _ h => h

end

/-- A gateway before an RTU line that also polls a slave on it and serves a request itself. -/
def sampleProgram : List Action :=
  [.back (.set (.slave 17)), .back (.set (.byteTimeout 0 1000000)), .front .connect, .back .connect,
    .back (.readRegisters 0 1 [5]), .front .receive,
    .front (.reply [0, 7, 0, 0, 0, 6, 17, 0x05, 0, 1, 0xFF, 0] 12),
    .proxy [0, 8, 0, 0, 0, 6, 17, 0x03, 0, 0, 0, 1] 12]

end Libmodbus
