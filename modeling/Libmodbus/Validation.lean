/-
Libmodbus/Validation.lean

What `modbus_proxy` checks before it touches anything: the length of the PDU,
and then the unit.  With records on both links (`Posix.recordOs`) the purpose of
the check is `Validates`:

    1 to 253 bytes   the backend is handed the frame of the PDU, if it takes the unit
    other lengths    EMBBADDATA, nothing sent, and the backend keeps its slave

The code compares the length of the PDU with the limit of a raw request, which
has the slave in front: a PDU of 254 bytes gets through, and the refusal of
`modbus_send_raw_request_tid` is answered to the frontend
(`validates_iff_length_ne_254`).
-/
import Libmodbus.Relays

namespace Libmodbus

open CSem Wire Posix

variable {σ τ : Type}

/-! ### What is asked for -/

/-- The length of the PDU in a request of the frontend. -/
def Gateway.pduLength (g : Gateway σ τ) (reqLength : Int) : Int :=
  reqLength - g.front.backend.headerLength - g.front.backend.checksumLength

/-- The unit and the PDU of a request. -/
def Gateway.asked (g : Gateway σ τ) (req : List UInt8) (reqLength : Int) : Adu :=
  rtuAdu (req.getD (g.front.backend.headerLength - 1) 0)
    ((req.drop g.front.backend.headerLength).take (g.pduLength reqLength).toNat)

/-- The frame of the request on the backend, none if the backend does not take the unit. -/
def Gateway.backendFrame (g : Gateway σ τ) (a : Adu) : Option (List UInt8) :=
  match modbusSetSlave g.back a.unit.toNat with
  | .ok _ => some ((rtuAdu a.unit a.pdu).sealed.bytes g.back.backend)
  | .error _ => none

/-- A request is forwarded when its PDU has a legal length and the backend takes its unit; with
another length it is refused before anything is touched. -/
structure Validates (fos : Os σ) (bos : Os τ) (g : Gateway (Recorded σ) (Recorded τ))
    (req : List UInt8) (reqLength : Int) : Prop where
  forwards : 1 ≤ g.pduLength reqLength → g.pduLength reqLength ≤ (maxPduLength : Int) →
    Ends (modbusProxy (recordOs fos) (recordOs bos) g req reqLength)
      (fun r => Sends g.back (g.backendFrame (g.asked req reqLength)) g.backOs r.2.backOs)
      fun e => Retries fos g.front e ∨ Retries bos g.back e
  refuses : ¬ (1 ≤ g.pduLength reqLength ∧ g.pduLength reqLength ≤ (maxPduLength : Int)) →
    ∃ g', modbusProxy (recordOs fos) (recordOs bos) g req reqLength = .ok (-1, g') ∧
      g'.errno = .EMBBADDATA ∧ g'.frontOs.sent = g.frontOs.sent ∧
      g'.backOs.sent = g.backOs.sent ∧ g'.back.slave = g.back.slave

/-! ### The backend of a request that is answered -/

section

variable {fos : Os σ} {bos : Os τ} {g : Gateway σ τ} {req : List UInt8}

theorem proxyFailure_backOs (code : Nat) :
    Ends (proxyFailure fos g req code) (fun r => r.2.backOs = g.backOs) fun _ => True :=
  Ends.seq fun _ _ => rfl

theorem proxyRelay_backOs (backendRsp : List UInt8) (rc tId : Int) :
    Ends (proxyRelay fos g backendRsp rc tId req) (fun r => r.2.backOs = g.backOs)
      fun _ => True := by
  refine Ends.ite (fun _ => proxyFailure_backOs _) fun _ => ?_
  exact Ends.seq fun _ _ => Ends.seq fun _ _ => Ends.seq fun _ _ => Ends.seq fun _ _ => rfl

/-- Behind a send the backend is only read from. -/
theorem modbusProxy_hands (fos : Os σ) (bos : Os τ) (g : Gateway σ (Recorded τ)) {a : Adu}
    (trailer : List UInt8) {reqLength : Int} (hne : a.pdu ≠ []) (hmax : a.pdu.length ≤ maxPduLength)
    (hn : g.pduLength reqLength = a.pdu.length) :
    Ends (modbusProxy fos (recordOs bos) g (a.wrapped g.front.backend trailer) reqLength)
      (fun r => Sends g.back (g.backendFrame a) g.backOs r.2.backOs) fun _ => True := by
  rw [modbusProxy_wrapped fos (recordOs bos) g trailer hne (Nat.le_succ_of_le hmax) hn,
    Gateway.backendFrame]
  cases hset : modbusSetSlave g.back a.unit.toNat with
  | error e => exact (proxyFailure_backOs _).imp (fun r h => congrArg Recorded.sent h) fun _ h => h
  | ok back =>
    have hsend : modbusSendRawRequestTid (recordOs bos) ⟨back, g.errno, g.backOs⟩
        (a.unit :: a.pdu) 0 = sendAdu (recordOs bos) ⟨back, g.errno, g.backOs⟩
          (rtuAdu a.unit a.pdu).sealed :=
      (modbusSendRawRequestTid_pdu hne hmax).trans (sendMsg_header _ _ (rtuAdu a.unit a.pdu))
    simp only [hsend]
    refine (sendLoop_handed bos _ ⟨back, g.errno, g.backOs⟩ _).bind fun ⟨rc, st⟩ _ hsent => ?_
    rw [modbusSetSlave_ok hset] at hsent
    have hstays : ∀ {r : Int × Gateway σ (Recorded τ)}, r.2.backOs.sent = st.os.sent →
        Sends g.back (some ((rtuAdu a.unit a.pdu).sealed.bytes g.back.backend)) g.backOs
          r.2.backOs := by
      intro r h
      obtain ⟨k, hk, hlink⟩ := hsent
      exact ⟨k, h.trans hk, hlink⟩
    have hfailure : ∀ {g' : Gateway σ (Recorded τ)} {code : Nat}, g'.backOs.sent = st.os.sent →
        Ends (proxyFailure fos g' (a.wrapped g.front.backend trailer) code)
          (fun r => Sends g.back (some ((rtuAdu a.unit a.pdu).sealed.bytes g.back.backend))
            g.backOs r.2.backOs) fun _ => True := by
      intro g' code h
      exact (proxyFailure_backOs code).imp
        (fun r hr => hstays ((congrArg Recorded.sent hr).trans h)) fun _ h => h
    refine Ends.ite (fun _ => hfailure rfl) fun _ => ?_
    refine (modbusReceiveMsg_moved (recordOs_quiet bos) _ _).bind fun ⟨rc', msg, st'⟩ _ hrcv => ?_
    have hquiet : st'.os.sent = st.os.sent := hrcv.os
    refine Ends.ite (fun _ => Ends.ite (fun _ => hfailure hquiet) fun _ => hfailure hquiet)
      fun _ => Ends.seq fun pre _ => ?_
    cases pre with
    | some e => exact hfailure hquiet
    | none =>
      exact (proxyRelay_backOs _ _ _).imp
        (fun r hr => hstays ((congrArg Recorded.sent hr).trans hquiet)) fun _ h => h

end

/-! ### The lengths -/

/-- With room for the checksum, a request of a legal length is the frame of the PDU that is asked
for. -/
theorem exists_asked {g : Gateway σ τ} {req : List UInt8} {reqLength : Int}
    (hreq : reqLength ≤ (req.length : Int)) (hpos : 1 ≤ g.pduLength reqLength) :
    ∃ (a : Adu) (trailer : List UInt8), req = a.wrapped g.front.backend trailer ∧
      g.pduLength reqLength = a.pdu.length ∧ a.unit = (g.asked req reqLength).unit ∧
      a.pdu = (g.asked req reqLength).pdu := by
  obtain ⟨n, hn⟩ : ∃ n : Nat, g.pduLength reqLength = n := ⟨(g.pduLength reqLength).toNat, by omega⟩
  have hroom : g.front.backend.headerLength + n ≤ req.length := by
    unfold Gateway.pduLength at hn
    omega
  obtain ⟨a, trailer, rfl, hlen⟩ := exists_wrapped hroom
  refine ⟨a, trailer, rfl, by rw [hn, hlen], ?_, ?_⟩
  · show a.unit = (a.wrapped g.front.backend trailer).getD (g.front.backend.headerLength - 1) 0
    rw [List.getD_eq_getElem?_getD, rd_eq_ok.mp (a.rd_wrapped_unit trailer)]
    rfl
  · show a.pdu = ((a.wrapped g.front.backend trailer).drop g.front.backend.headerLength).take
      (g.pduLength reqLength).toNat
    rw [hn, Int.toNat_natCast, ← hlen, Adu.wrapped, List.drop_left' a.length_header,
      List.take_left]

/-- A PDU of 254 bytes is answered, whatever the backend makes of it. -/
theorem modbusProxy_answers_254 (fos : Os σ) (bos : Os τ) (g : Gateway (Recorded σ) (Recorded τ))
    {req : List UInt8} {reqLength : Int} (hreq : reqLength ≤ (req.length : Int))
    (hn : g.pduLength reqLength = 254) :
    Ends (modbusProxy (recordOs fos) (recordOs bos) g req reqLength)
      (fun r => r.2.frontOs.sent ≠ g.frontOs.sent)
      fun e => Retries fos g.front e ∨ Retries (recordOs bos) g.back e := by
  have hpos : 1 ≤ g.pduLength reqLength := by omega
  obtain ⟨a, trailer, rfl, hlen, -, -⟩ := exists_asked hreq hpos
  have hlen' : a.pdu.length = 254 := by omega
  have hne : a.pdu ≠ [] := List.ne_nil_of_length_pos (by omega)
  refine (modbusProxy_forwarded fos (recordOs bos) g trailer hne hlen'.le hlen).imp
    (fun r h => ?_) fun _ h => h
  obtain ⟨answer, -, k, hk, -⟩ := h
  intro heq
  have hlength := congrArg List.length (hk.symm.trans heq)
  rw [List.length_append, List.length_replicate] at hlength
  omega

theorem not_validates_of_254 {fos : Os σ} {bos : Os τ} {g : Gateway (Recorded σ) (Recorded τ)}
    {req : List UInt8} {reqLength : Int} (hreq : reqLength ≤ (req.length : Int))
    (hn : g.pduLength reqLength = 254) : ¬ Validates fos bos g req reqLength := by
  intro h
  obtain ⟨g', hrun, -, hfront, -, -⟩ := h.refuses fun hlegal => by
    have := hlegal.2
    simp only [maxPduLength] at this
    omega
  exact (modbusProxy_answers_254 fos bos g hreq hn).result hrun hfront

/-- **The limit is off by one.**  The length of the PDU is checked as it should be but for 254
bytes, which are answered with an exception. -/
theorem validates_iff_length_ne_254 (fos : Os σ) (bos : Os τ)
    (g : Gateway (Recorded σ) (Recorded τ)) {req : List UInt8} {reqLength : Int}
    (hpos : 1 ≤ reqLength) (hreq : reqLength ≤ (req.length : Int)) :
    Validates fos bos g req reqLength ↔ g.pduLength reqLength ≠ 254 := by
  constructor
  · intro h hn
    exact not_validates_of_254 hreq hn h
  intro hn
  refine ⟨fun hmin hmax => ?_, fun hout => ?_⟩
  · obtain ⟨a, trailer, hreq', hlen, hunit, hpdu⟩ := exists_asked hreq hmin
    simp only [maxPduLength] at hmax
    have hne : a.pdu ≠ [] := List.ne_nil_of_length_pos (by omega)
    have hle : a.pdu.length ≤ maxPduLength := by
      simp only [maxPduLength]
      omega
    have hframe : g.backendFrame (g.asked req reqLength) = g.backendFrame a := by
      unfold Gateway.backendFrame
      rw [hunit, hpdu]
    rw [hframe, hreq']
    exact ((modbusProxy_hands (recordOs fos) bos g trailer hne hle hlen).and
      (modbusProxy_forwarded fos (recordOs bos) g trailer hne (Nat.le_succ_of_le hle) hlen)).imp
      (fun r h => h.1) fun _ h => h.2.imp_right Retries.of_record
  · -- the function returns before it reads the request
    have hbounds : g.pduLength reqLength < 1 ∨ (maxPduLength : Int) + 1 < g.pduLength reqLength := by
      simp only [maxPduLength] at hout ⊢
      omega
    refine ⟨{ g with errno := .EMBBADDATA }, ?_, rfl, rfl, rfl, rfl⟩
    unfold modbusProxy
    rw [if_neg (not_lt.mpr hpos)]
    exact if_pos hbounds

/-- A gateway from TCP to RTU with records on both links. -/
def recordedGateway : Gateway (Recorded Link) (Recorded Link) :=
  ⟨(recordedSt .tcp 255).ctx, (recordedSt .tcp 255).os, (recordedSt .rtu 1).ctx,
    (recordedSt .rtu 1).os, .sys (.other 0)⟩

/-- A request for one register of unit 17. -/
theorem validates_sample :
    Validates (linkOs 1) (linkOs 1) recordedGateway [0, 7, 0, 0, 0, 6, 17, 3, 0, 0, 0, 1] 12 :=
  (validates_iff_length_ne_254 (linkOs 1) (linkOs 1) recordedGateway (by decide) (by decide)).mpr
    (by decide)

/-- 261 bytes from TCP: a header and a PDU of 254 bytes. -/
theorem not_validates_254 :
    ¬ Validates (linkOs 1) (linkOs 1) recordedGateway (List.replicate 261 1) 261 :=
  not_validates_of_254 (by rw [List.length_replicate]; exact le_refl _) rfl

end Libmodbus
