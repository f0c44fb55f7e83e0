/-
Libmodbus/Stops.lean

What can stop a function that talks to the system.  Sending, flushing and
receiving index no array outside its bounds and overflow nothing, whatever the
system does: a run of them only stops where a retry loop is given up.

    x.Settles    :=  x ends normally, or is out of fuel
    Retries os   :=  out of fuel, where `os` is not `Prompt` or links are recovered

There are two such loops, `send_msg` with link recovery and the call of `select`
after a signal.  The receive loop is not one of them: its invariant says that
the fields it reads are stored by then, that the integrity check finds a message
with a checksum, and that it is at most `max_adu_length` bytes away from the
end.
-/
import Libmodbus.Framing

namespace Libmodbus

open CSem Wire Posix

variable {σ α : Type} {be : Backend} {mt : MsgType} {E : Stop → Prop}

/-- The computation ends normally, or a retry loop is given up. -/
abbrev Settles (x : Run α) : Prop := Ends x (fun _ => True) (· = .outOfFuel)

/-- A loop is given up that may go on for ever: `select` is interrupted, or the link recovered. -/
def Retries (os : Os σ) (ctx : Modbus) (e : Stop) : Prop :=
  e = .outOfFuel ∧ (Prompt os → ctx.errorRecovery.link = true)

theorem Retries.of_not_prompt {os : Os σ} {e : Stop} (ctx : Modbus)
    (h : e = .outOfFuel ∧ ¬ Prompt os) : Retries os ctx e :=
  ⟨h.1, fun hp => absurd hp h.2⟩

/-! ### Flushing and sending -/

theorem drains_any (os : Os σ) : Drains os fun _ => True := ⟨fun h => h, fun h => h, fun h => h⟩

/-- A flush is over, whatever arrives: the loop over TCP runs at most 253 times. -/
theorem modbusFlush_ends (os : Os σ) (st : St σ) :
    ∃ rc e s, modbusFlush os st = .ok (rc, ⟨st.ctx, e, s⟩) := by
  unfold modbusFlush
  cases hbe : st.ctx.backend with
  | tcp =>
    have hloop : ∃ rc e s, tcpFlushLoop os 253 0 st = .ok (rc, ⟨st.ctx, e, s⟩) ∧ True :=
      tcpFlushLoop_ends (drains_any os) (show 65535 < 0 + 260 * 253 by decide) (by decide) trivial
    obtain ⟨rc, e, s, h, -⟩ := hloop
    exact ⟨rc, e, s, h⟩
  | rtu =>
    rcases hr : os.tcflush st.os with ⟨- | e, s⟩
    · exact ⟨0, st.errno, s, rfl⟩
    · exact ⟨-1, .sys e, s, rfl⟩

/-- Recovery sleeps and flushes, and keeps the context. -/
theorem sleepAndFlush_ok (os : Os σ) (st : St σ) :
    ∃ e s, sleepAndFlush os st = .ok ⟨st.ctx, e, s⟩ := by
  obtain ⟨rc, e, s, h⟩ := modbusFlush_ends os (sleepResponseTimeout os st)
  refine ⟨e, s, ?_⟩
  rw [sleepAndFlush, h, sleepResponseTimeout, St.touch_ctx]
  rfl

theorem sleepAndFlush_returns (os : Os σ) (st : St σ) :
    Ends (sleepAndFlush os st) (fun _ => True) E := by
  obtain ⟨e, s, h⟩ := sleepAndFlush_ok os st
  rw [h]
  exact trivial

theorem recoverSend_returns (os : Os σ) (st : St σ) :
    Ends (recoverSend os st) (fun _ => True) E :=
  Ends.ite (fun _ => trivial) fun _ => (sleepAndFlush_returns os st).bind fun _ _ _ => trivial

/-- Each turn of the loop sends, gives up, or recovers and goes on. -/
theorem sendLoop_settles (os : Os σ) (fuel : Nat) (st : St σ) (msg : List UInt8) :
    Settles (sendLoop os fuel st msg) := by
  induction fuel generalizing st with
  | zero => exact rfl
  | succ fuel ih =>
    rw [sendLoop]
    rcases os.send msg st.os with ⟨e | n, s⟩
    · refine Ends.ite (fun _ => ?_) fun _ => trivial
      exact (recoverSend_returns os _).bind fun st' _ _ => ih st'
    · exact Ends.ite (fun _ => trivial) fun _ => trivial

/-- A message is sent in one turn when the link is not recovered. -/
theorem sendLoop_retries (os : Os σ) (st : St σ) (msg : List UInt8) :
    Ends (sendLoop os os.fuel st msg) (fun _ => True) (Retries os st.ctx) := by
  cases hf : os.fuel with
  | zero => exact ⟨rfl, fun h => absurd h.turn (by omega)⟩
  | succ n =>
    rw [sendLoop]
    rcases os.send msg st.os with ⟨e | k, s⟩
    · refine Ends.ite (fun hlink => ?_) fun _ => trivial
      refine (recoverSend_returns os _).bind fun st' _ _ => ?_
      exact (sendLoop_settles os n st' _).imp (fun _ h => h) fun e h => ⟨h, fun _ => hlink⟩
    · exact Ends.ite (fun _ => trivial) fun _ => trivial

/-- `send_msg` is given up only where it recovers the link. -/
theorem sendMsg_retries (os : Os σ) (st : St σ) (msg : List UInt8) :
    Ends (sendMsg os st msg) (fun _ => True) (Retries os st.ctx) :=
  sendLoop_retries os st _

theorem sendMsg_settles (os : Os σ) (st : St σ) (msg : List UInt8) : Settles (sendMsg os st msg) :=
  sendLoop_settles os _ st _

/-- A raw request that is too short is refused before it is read. -/
theorem modbusSendRawRequestTid_retries (os : Os σ) (st : St σ) (rawReq : List UInt8) (tid : Int) :
    Ends (modbusSendRawRequestTid os st rawReq tid) (fun _ => True) (Retries os st.ctx) := by
  refine Ends.ite (fun _ => trivial) fun hlen => ?_
  rw [rd_lt (show 0 < rawReq.length by omega), ok_bind,
    rd_lt (show 1 < rawReq.length by omega), ok_bind]
  exact sendMsg_retries os st _

theorem modbusSendRawRequestTid_settles (os : Os σ) (st : St σ) (rawReq : List UInt8) (tid : Int) :
    Settles (modbusSendRawRequestTid os st rawReq tid) :=
  (modbusSendRawRequestTid_retries os st rawReq tid).imp (fun _ h => h) fun _ h => h.1

/-! ### Receiving -/

/-- `select` is called again after a signal only, so without signals its loop makes one turn. -/
theorem backendSelect_retries (os : Os σ) (st : St σ) (tv : Option Timeval) :
    Ends (backendSelect os os.fuel st tv) (fun _ => True)
      fun e => e = .outOfFuel ∧ ¬ Prompt os := by
  have hsettles : ∀ fuel (st : St σ), Settles (backendSelect os fuel st tv) := by
    intro fuel
    induction fuel with
    | zero => exact fun _ => rfl
    | succ fuel ih =>
      intro st
      rw [backendSelect]
      rcases os.select tv st.os with ⟨- | - | e, s⟩
      · exact trivial
      · exact trivial
      · exact Ends.ite (fun _ => Ends.ite (fun _ => trivial) fun _ => ih _) fun _ => trivial
  cases hf : os.fuel with
  | zero => exact ⟨rfl, fun h => absurd h.turn (by omega)⟩
  | succ n =>
    rw [backendSelect]
    rcases hsel : os.select tv st.os with ⟨- | - | e, s⟩
    · exact trivial
    · exact trivial
    · refine Ends.ite (fun he => Ends.ite (fun _ => trivial) fun _ => ?_) fun _ => trivial
      subst he
      exact (hsettles n _).imp (fun _ h => h) fun e h => ⟨h, fun hp => hp.select hsel⟩

theorem recoverSelect_returns (os : Os σ) (st : St σ) :
    Ends (recoverSelect os st) (fun _ => True) E := by
  refine Ends.ite (fun _ => trivial) fun _ => Ends.ite (fun _ => ?_) fun _ => ?_
  · exact (sleepAndFlush_returns os st).bind fun _ _ _ => trivial
  · exact Ends.ite (fun _ => trivial) fun _ => trivial

/-- The three bytes that the check of the CRC reads are there in a message with a checksum. -/
theorem checkIntegrity_returns (os : Os σ) (st : St σ) {msg : List UInt8}
    (h : st.ctx.backend.headerLength + 1 + st.ctx.backend.checksumLength ≤ msg.length) :
    Ends (checkIntegrity os st msg) (fun _ => True) E := by
  unfold checkIntegrity
  cases hbe : st.ctx.backend with
  | tcp => exact trivial
  | rtu =>
    rw [hbe] at h
    have hlen : 1 + 1 + 2 ≤ msg.length := h
    simp only
    rw [rd_lt (show 0 < msg.length by omega), ok_bind,
      rd_lt (show msg.length - 1 < msg.length by omega), ok_bind,
      rd_lt (show msg.length - 2 < msg.length by omega), ok_bind]
    refine Ends.ite (fun _ => Ends.ite (fun _ => ?_) fun _ => trivial) fun _ => ?_
    · obtain ⟨rc, e, s, hflush⟩ := modbusFlush_ends os st
      rw [hflush]
      exact trivial
    · exact Ends.ite (fun _ => trivial) fun _ => trivial

/-- Every turn brings a byte, and no boundary is behind `max_adu_length`. -/
theorem receiveLoop_retries (os : Os σ) {fuel : Nat} (st : St σ) {r : RecvState}
    (hp : Parsing st.ctx.backend mt r)
    (hfuel : st.ctx.backend.maxAduLength < r.msg.length + fuel) :
    Ends (receiveLoop os mt fuel st r) (fun _ => True)
      fun e => e = .outOfFuel ∧ ¬ Prompt os := by
  induction fuel generalizing st r with
  | zero =>
    have hle := hp.boundary.le_max
    omega
  | succ fuel ih =>
    rw [receiveLoop]
    refine Ends.ite (fun h0 => ?_) fun h0 => ?_
    · -- only the last step waits for nothing, and its boundary is the declared length
      have hb := hp.boundary
      rw [hp.waiting h0, h0, Nat.add_zero] at hb
      have hlen : st.ctx.backend.headerLength + 1 + st.ctx.backend.checksumLength ≤
          r.msg.length := by
        generalize hn : r.msg.length = n at hb
        cases hb with
        | data hm hmax => exact le_length_of_messageLength hm
      exact (checkIntegrity_returns os st hlen).bind fun _ _ _ => trivial
    refine (backendSelect_retries os st r.tv).bind fun p hsel _ => ?_
    obtain ⟨ready, st₁⟩ := p
    refine Ends.ite (fun _ => ?_) fun _ => ?_
    · exact (recoverSelect_returns os st₁).bind fun _ _ _ => trivial
    have hctx := (backendSelect_sound (tracked_any os) hsel).1
    rcases hrecv : os.recv r.lengthToRead st₁.os with ⟨e | bytes, s⟩
    · exact trivial
    · refine Ends.ite (fun _ => trivial) fun hne => ?_
      have hpos := List.length_pos_of_ne_nil hne
      rw [hctx]
      rcases afterRecv_spec hp (os.recv_length hrecv) with ⟨r', hr', hmsg, hp'⟩ | ⟨n, -, -, hr'⟩
      · simp only [hr', ok_bind]
        refine ih ⟨st.ctx, st₁.errno, s⟩ hp' ?_
        rw [hmsg, List.length_append]
        show st.ctx.backend.maxAduLength < _
        omega
      · simp only [hr', ok_bind]
        exact trivial

/-- Receiving is given up only where signals interrupt its `select` again and again. -/
theorem modbusReceiveMsg_retries (os : Os σ) (st : St σ) (mt : MsgType) :
    Ends (modbusReceiveMsg os st mt) (fun _ => True)
      fun e => e = .outOfFuel ∧ ¬ Prompt os := by
  refine Ends.ite (fun _ => trivial) fun _ => Ends.ite (fun _ => trivial) fun _ => ?_
  refine receiveLoop_retries os st (Parsing.start st.ctx mt) ?_
  show st.ctx.backend.maxAduLength < 0 + (st.ctx.backend.maxAduLength + 1)
  omega

/-- **Receiving stops at nothing else**, whatever arrives. -/
theorem modbusReceiveMsg_settles (os : Os σ) (st : St σ) (mt : MsgType) :
    Settles (modbusReceiveMsg os st mt) :=
  (modbusReceiveMsg_retries os st mt).imp (fun _ h => h) fun _ h => h.1

end Libmodbus
