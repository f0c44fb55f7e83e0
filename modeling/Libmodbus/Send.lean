/-
Libmodbus/Send.lean

Sending: `send_msg` with its link recovery, the flush of the two backends and
raw requests.

The recovery loop of `send_msg` goes on until a send succeeds, and may do so
for ever; it is followed `os.fuel` times.  Without link recovery one turn is
enough.
-/
import Libmodbus.Modbus

namespace Libmodbus

open CSem Wire Posix

variable {σ : Type}

/-! ### Recovery actions -/

/-- `_sleep_response_timeout` -/
def sleepResponseTimeout (os : Os σ) (st : St σ) : St σ :=
  let (e, s) := os.sleep st.ctx.responseTimeout st.os
  st.touch e s

/-- The loop of `_modbus_tcp_flush`: `MODBUS_TCP_MAX_ADU_LENGTH` bytes a turn, counted in a
`uint16_t` that is never allowed to wrap. -/
def tcpFlushLoop (os : Os σ) : Nat → Nat → St σ → Run (Int × St σ)
  | 0, _, _ => .error .outOfFuel
  | fuel + 1, rcSum, st =>
    match os.recvDontwait 260 st.os with
    | (.error e, s) => .ok (rcSum, st.touch (some e) s)
    | (.ok b, s) =>
      if 0 < b.length ∧ 65535 - b.length < rcSum then
        .ok (-1, { st with errno := .EOVERFLOW, os := s })
      else if b.length = 260 then tcpFlushLoop os fuel (rcSum + b.length) { st with os := s }
      else .ok ((rcSum + b.length : Nat), { st with os := s })

/-- `modbus_flush`.  The TCP loop overflows its counter in turn 253 at the latest. -/
def modbusFlush (os : Os σ) (st : St σ) : Run (Int × St σ) :=
  match st.ctx.backend with
  | .tcp => tcpFlushLoop os 253 0 st
  | .rtu =>
    match os.tcflush st.os with
    | (none, s) => .ok (0, { st with os := s })
    | (some e, s) => .ok (-1, st.touch (some e) s)

/-- `_sleep_response_timeout` and then `modbus_flush`, whose result no caller looks at. -/
def sleepAndFlush (os : Os σ) (st : St σ) : Run (St σ) := do
  let (_, st) ← modbusFlush os (sleepResponseTimeout os st)
  .ok st

/-- `modbus_close` -/
def modbusClose (os : Os σ) (st : St σ) : St σ :=
  if 0 ≤ st.ctx.s then
    let (e, s) := os.close st.os
    { st.touch e s with ctx := { st.ctx with s := -1 } }
  else st

/-- `modbus_connect`, given the outcome of opening a descriptor.  TCP replaces the old socket
only on success; RTU stores whatever `open` returned. -/
def modbusConnect (os : Os σ) (st : St σ) : Int × St σ :=
  let ((fd, e), s) := os.connect st.os
  let st := st.touch e s
  match st.ctx.backend, fd with
  | .tcp, none => (-1, st)
  | .tcp, some fd =>
    let st := modbusClose os st
    (0, { st with ctx := { st.ctx with s := fd } })
  | .rtu, none => (-1, { st with ctx := { st.ctx with s := -1 } })
  | .rtu, some fd => (0, { st with ctx := { st.ctx with s := fd } })

/-! ### send_msg -/

/-- What `send_msg` does between two attempts. -/
def recoverSend (os : Os σ) (st : St σ) : Run (St σ) := do
  let savedErrno := st.errno
  if st.errno = .EBADF ∨ st.errno = .ECONNRESET ∨ st.errno = .EPIPE then
    let st := sleepResponseTimeout os (modbusClose os st)
    let (_, st) := modbusConnect os st
    .ok { st with errno := savedErrno }
  else
    let st ← sleepAndFlush os st
    .ok { st with errno := savedErrno }

def sendLoop (os : Os σ) : Nat → St σ → List UInt8 → Run (Int × St σ)
  | 0, _, _ => .error .outOfFuel
  | fuel + 1, st, msg =>
    match os.send msg st.os with
    | (.ok n, s) =>
      if 0 < n ∧ n ≠ msg.length then .ok (-1, { st with errno := .EMBBADDATA, os := s })
      else .ok (n, { st with os := s })
    | (.error e, s) =>
      let st := { st with errno := .sys e, os := s }
      if st.ctx.errorRecovery.link then do
        let st ← recoverSend os st
        sendLoop os fuel st msg
      else .ok (-1, st)

/-- `send_msg` -/
def sendMsg (os : Os σ) (st : St σ) (msg : List UInt8) : Run (Int × St σ) :=
  sendLoop os os.fuel st (sendMsgPre st.ctx.backend msg)

/-- `modbus_send_raw_request_tid` -/
def modbusSendRawRequestTid (os : Os σ) (st : St σ) (rawReq : List UInt8) (tid : Int) :
    Run (Int × St σ) :=
  if rawReq.length < 2 ∨ maxPduLength + 1 < rawReq.length then
    .ok (-1, { st with errno := .EINVAL })
  else do
    let slave ← rd rawReq 0
    let function ← rd rawReq 1
    let sft : Sft := { slave := slave.toNat, function := function.toNat, tId := tid }
    sendMsg os st (buildResponseBasis st.ctx.backend sft ++ rawReq.drop 2)

/-- `modbus_send_raw_request` -/
def modbusSendRawRequest (os : Os σ) (st : St σ) (rawReq : List UInt8) : Run (Int × St σ) :=
  modbusSendRawRequestTid os st rawReq 0

/-! ### A system that takes the message whole -/

theorem sendLoop_of_sent {os : Os σ} {st : St σ} {msg : List UInt8} {s : σ} (hf : 0 < os.fuel)
    (h : os.send msg st.os = (.ok msg.length, s)) :
    sendLoop os os.fuel st msg = .ok ((msg.length : Nat), { st with os := s }) := by
  obtain ⟨n, hn⟩ : ∃ n, os.fuel = n + 1 := ⟨os.fuel - 1, by omega⟩
  simp only [hn, sendLoop, h, ne_eq, not_true_eq_false, and_false, if_false]

/-! ### What recovery leaves alone -/

@[simp] theorem St.touch_ctx (st : St σ) (e : Option SysErrno) (s : σ) :
    (st.touch e s).ctx = st.ctx := by
  cases e <;> rfl

theorem tcpFlushLoop_ctx {os : Os σ} {fuel rcSum : Nat} {st st' : St σ} {rc : Int}
    (h : tcpFlushLoop os fuel rcSum st = .ok (rc, st')) : st'.ctx = st.ctx := by
  induction fuel generalizing rcSum st with
  | zero => cases h
  | succ fuel ih =>
    rw [tcpFlushLoop] at h
    rcases hr : os.recvDontwait 260 st.os with ⟨res, s⟩
    rw [hr] at h
    cases res with
    | error e =>
      cases h
      rfl
    | ok b =>
      simp only at h
      split_ifs at h
      · cases h
        rfl
      · have hctx := ih h
        exact hctx
      · cases h
        rfl

theorem modbusFlush_ctx {os : Os σ} {st st' : St σ} {rc : Int}
    (h : modbusFlush os st = .ok (rc, st')) : st'.ctx = st.ctx := by
  unfold modbusFlush at h
  cases hbe : st.ctx.backend with
  | tcp =>
    simp only [hbe] at h
    exact tcpFlushLoop_ctx h
  | rtu =>
    simp only [hbe] at h
    rcases hr : os.tcflush st.os with ⟨e, s⟩
    rw [hr] at h
    cases e with
    | none =>
      cases h
      rfl
    | some e =>
      cases h
      rfl

theorem sleepAndFlush_ctx {os : Os σ} {st st' : St σ} (h : sleepAndFlush os st = .ok st') :
    st'.ctx = st.ctx := by
  unfold sleepAndFlush at h
  obtain ⟨⟨rc, st₁⟩, hf, h⟩ := bind_eq_ok.mp h
  cases h
  rw [modbusFlush_ctx hf, sleepResponseTimeout, St.touch_ctx]

/-! ### A flush ends -/

/-- The loop overflows its counter before it has been followed too often, whatever arrives. -/
theorem tcpFlushLoop_ends {os : Os σ} {P : σ → Prop} (hd : Drains os P) {fuel rcSum : Nat}
    {st : St σ} (hfuel : 65535 < rcSum + 260 * fuel) (hpos : 0 < fuel) (h : P st.os) :
    ∃ rc e s, tcpFlushLoop os fuel rcSum st = .ok (rc, ⟨st.ctx, e, s⟩) ∧ P s := by
  induction fuel generalizing rcSum st with
  | zero => exact absurd hpos (Nat.lt_irrefl 0)
  | succ fuel ih =>
    have hP : P (os.recvDontwait 260 st.os).2 := hd.recvDontwait h
    rw [tcpFlushLoop]
    rcases hr : os.recvDontwait 260 st.os with ⟨res, s⟩
    rw [hr] at hP
    cases res with
    | error e => exact ⟨_, _, s, rfl, hP⟩
    | ok b =>
      simp only
      split_ifs with h1 h2
      · exact ⟨_, _, s, rfl, hP⟩
      · have hle : rcSum + 260 ≤ 65535 := by omega
        have hnext : P ({ st with os := s } : St σ).os := hP
        exact ih (by omega) (by omega) hnext
      · exact ⟨_, _, s, rfl, hP⟩

theorem sleepAndFlush_ends {os : Os σ} {P : σ → Prop} (hd : Drains os P) {st : St σ}
    (h : P st.os) : ∃ e s, sleepAndFlush os st = .ok ⟨st.ctx, e, s⟩ ∧ P s := by
  have hsleep : P (sleepResponseTimeout os st).os := by
    have hP : P (os.sleep st.ctx.responseTimeout st.os).2 := hd.sleep h
    unfold sleepResponseTimeout
    rcases hr : os.sleep st.ctx.responseTimeout st.os with ⟨- | e, s⟩
    · rw [hr] at hP
      exact hP
    · rw [hr] at hP
      exact hP
  have hctx : (sleepResponseTimeout os st).ctx = st.ctx := St.touch_ctx _ _ _
  unfold sleepAndFlush modbusFlush
  cases hbe : (sleepResponseTimeout os st).ctx.backend with
  | tcp =>
    obtain ⟨rc, e, s, hloop, hP⟩ :=
      tcpFlushLoop_ends hd (show 65535 < 0 + 260 * 253 by decide) (by decide) hsleep
    rw [hctx] at hloop
    refine ⟨e, s, ?_, hP⟩
    simp only [hloop, ok_bind]
  | rtu =>
    have hP : P (os.tcflush (sleepResponseTimeout os st).os).2 := hd.tcflush hsleep
    rcases hr : os.tcflush (sleepResponseTimeout os st).os with ⟨- | e, s⟩
    · rw [hr] at hP
      refine ⟨(sleepResponseTimeout os st).errno, s, ?_, hP⟩
      rw [← hctx]
      rfl
    · rw [hr] at hP
      refine ⟨.sys e, s, ?_, hP⟩
      rw [← hctx]
      rfl

end Libmodbus
