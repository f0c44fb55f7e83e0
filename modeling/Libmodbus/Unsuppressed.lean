/-
Libmodbus/Unsuppressed.lean

Broadcasts that are answered.  `modbus_reply` looks at the unit of a request
before it sends; the two other functions that answer a request do not:

    modbus_reply            suppressed
    modbus_reply_exception  sends, if the code is one
    modbus_proxy            sends, if it takes the request

So on an RTU bus these two stay silent after a broadcast only where they stay
silent after any request.
-/
import Libmodbus.Relays

namespace Libmodbus

open CSem Wire Posix

variable {σ τ : Type}

theorem Handed.sent_ne {ctx : Modbus} {frame : List UInt8} {r r' : Recorded σ}
    (h : Handed ctx frame r r') : r'.sent ≠ r.sent := by
  obtain ⟨k, hsent, -⟩ := h
  intro heq
  have hlen := congrArg List.length (hsent.symm.trans heq)
  rw [List.length_append, List.length_replicate] at hlen
  omega

/-- The request goes to every slave of an RTU bus, and nobody may answer. -/
structure Broadcast (ctx : Modbus) (req : List UInt8) : Prop where
  rtu : ctx.backend = .rtu
  quirk : ctx.quirks.replyToBroadcast = false
  unit : ∃ function rest, req = 0 :: function :: rest

/-- `modbus_reply_exception` answers if the code is one. -/
theorem modbusReplyException_silent_iff (os : Os σ) {st : St (Recorded σ)} {req : List UInt8}
    (h : Broadcast st.ctx req) (exceptionCode : Nat) :
    Ends (modbusReplyException (recordOs os) st req exceptionCode)
      (fun r => r.2.os.sent = st.os.sent ↔ exceptionMax ≤ exceptionCode) (Retries os st.ctx) := by
  obtain ⟨function, rest, rfl⟩ := h.unit
  have hbuild : buildReplyException st.ctx.backend (0 :: function :: rest) exceptionCode =
      if exceptionCode < exceptionMax then
        .ok (some (buildResponseBasis .rtu ⟨0, function.toNat + 0x80, 0⟩ ++ [lo exceptionCode]))
      else .ok none := by
    rw [h.rtu]
    rfl
  rw [modbusReplyException, hbuild]
  by_cases hcode : exceptionCode < exceptionMax
  · rw [if_pos hcode, ok_bind]
    refine (sendMsg_hands os st _).imp (fun r hr => ?_) fun _ he => he
    exact ⟨fun hsent => absurd hsent hr.sent_ne, fun hle => absurd hcode (Nat.not_lt.mpr hle)⟩
  · rw [if_neg hcode, ok_bind]
    exact ⟨fun _ => Nat.not_lt.mp hcode, fun _ => rfl⟩

/-- `modbus_proxy` answers if the request has a PDU that may be forwarded. -/
theorem modbusProxy_silent_iff (fos : Os σ) (bos : Os τ) {g : Gateway (Recorded σ) τ}
    {req : List UInt8} (h : Broadcast g.front req) {reqLength : Int}
    (hlen : reqLength ≤ req.length) :
    Ends (modbusProxy (recordOs fos) bos g req reqLength)
      (fun r => r.2.frontOs.sent = g.frontOs.sent ↔ reqLength < 4 ∨ 257 < reqLength)
      fun e => Retries fos g.front e ∨ Retries bos g.back e := by
  have hheader : (g.front.backend.headerLength : Int) = 1 := by rw [h.rtu]; rfl
  have hchecksum : (g.front.backend.checksumLength : Int) = 2 := by rw [h.rtu]; rfl
  by_cases hrefused : reqLength < 4 ∨ 257 < reqLength
  · have hsilent : ∃ e, modbusProxy (recordOs fos) bos g req reqLength =
        .ok (-1, { g with errno := e }) := by
      rw [modbusProxy]
      by_cases hpos : reqLength < 1
      · exact ⟨_, if_pos hpos⟩
      · have hpdu : reqLength - g.front.backend.headerLength - g.front.backend.checksumLength < 1 ∨
            (maxPduLength : Int) + 1 <
              reqLength - g.front.backend.headerLength - g.front.backend.checksumLength := by
          rw [hheader, hchecksum]
          simp only [maxPduLength]
          omega
        exact ⟨_, (if_neg hpos).trans (if_pos hpdu)⟩
    obtain ⟨e, hsilent⟩ := hsilent
    rw [hsilent]
    exact ⟨fun _ => hrefused, fun _ => rfl⟩
  · obtain ⟨n, hn⟩ : ∃ n : Nat, reqLength = n + 3 := ⟨(reqLength - 3).toNat, by omega⟩
    have hlong : g.front.backend.headerLength + n ≤ req.length := by omega
    obtain ⟨a, trailer, rfl, hpdu⟩ := exists_wrapped hlong
    have hne : a.pdu ≠ [] := List.ne_nil_of_length_pos (by omega)
    refine (modbusProxy_forwarded fos bos g trailer hne (by simp only [maxPduLength]; omega)
      (by rw [hheader, hchecksum]; omega)).imp (fun r hr => ?_) fun _ he => he
    obtain ⟨answer, -, hanswer⟩ := hr
    exact ⟨fun hsent => absurd hsent hanswer.sent_ne, fun hlen => absurd hlen hrefused⟩

/-- **A broadcast is answered by both**, unless they refuse the call. -/
theorem broadcast_unanswered_iff {req : List UInt8} (os : Os σ) {st : St (Recorded σ)}
    (h : Broadcast st.ctx req) (exceptionCode : Nat) (fos : Os σ) (bos : Os τ)
    {g : Gateway (Recorded σ) τ} (hg : Broadcast g.front req) {reqLength : Int}
    (hlen : reqLength ≤ req.length) :
    Ends (modbusReplyException (recordOs os) st req exceptionCode)
      (fun r => r.2.os.sent = st.os.sent ↔ exceptionMax ≤ exceptionCode) (Retries os st.ctx) ∧
    Ends (modbusProxy (recordOs fos) bos g req reqLength)
      (fun r => r.2.frontOs.sent = g.frontOs.sent ↔ reqLength < 4 ∨ 257 < reqLength)
      fun e => Retries fos g.front e ∨ Retries bos g.back e :=
  ⟨modbusReplyException_silent_iff os h exceptionCode, modbusProxy_silent_iff fos bos hg hlen⟩

/-- An RTU frontend, and a TCP backend on whose line nothing arrives. -/
def rtuGateway : Gateway (Recorded Link) Link :=
  ⟨(recordedSt .rtu 17).ctx, (recordedSt .rtu 17).os, (sampleSt .tcp 1 []).ctx,
    (sampleSt .tcp 1 []).os, .sys (.other 0)⟩

/-- All slaves are asked for a register. -/
def broadcastRequest : List UInt8 := [0, 3, 0, 0, 0, 1, 0x85, 0xDB]

theorem broadcast_broadcastRequest : Broadcast (recordedSt .rtu 17).ctx broadcastRequest :=
  ⟨rfl, rfl, 3, _, rfl⟩

theorem broadcast_unanswered_iff_sample :
    Ends (modbusReplyException (recordOs (linkOs 1)) (recordedSt .rtu 17) broadcastRequest 13)
      (fun r => r.2.os.sent = (recordedSt .rtu 17).os.sent ↔ exceptionMax ≤ 13)
      (Retries (linkOs 1) (recordedSt .rtu 17).ctx) ∧
    Ends (modbusProxy (recordOs (linkOs 1)) (linkOs 1) rtuGateway broadcastRequest 3)
      (fun r => r.2.frontOs.sent = rtuGateway.frontOs.sent ↔ (3 : Int) < 4 ∨ (257 : Int) < 3)
      fun e => Retries (linkOs 1) rtuGateway.front e ∨ Retries (linkOs 1) rtuGateway.back e :=
  broadcast_unanswered_iff (linkOs 1) broadcast_broadcastRequest 13 (linkOs 1) (linkOs 1)
    broadcast_broadcastRequest (by decide)

/-- Both hand over a frame: the exception, and the one of a backend that does not answer. -/
theorem broadcast_answered_anyway :
    (modbusReplyException (recordOs (linkOs 1)) (recordedSt .rtu 17) broadcastRequest 2).map
      (fun r => r.2.os.sent) = .ok [[0, 0x83, 2, 0x91, 0x31]] ∧
    (modbusProxy (recordOs (linkOs 1)) (linkOs 1) rtuGateway broadcastRequest 8).map
      (fun r => r.2.frontOs.sent) = .ok [[0, 0x83, 11, 0x51, 0x37]] := by
  decide +kernel

end Libmodbus
