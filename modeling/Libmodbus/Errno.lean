/-
Libmodbus/Errno.lean

Does a receive that fails say why?  `errno` is a variable of the whole program:
a call that returns `-1` without setting it reports the code of an earlier
call.  Two runs are compared that differ in nothing but the `errno` they start
from,

    outcome r   the result, the context and the system; errno after a failure
    failure r   rc, and errno after a failure

Every exit of the receive loop sets `errno`, whatever `select`, `recv` and the
integrity check do (`receiveLoop_outcome`).  The exit in front of the loop does
not: on a context that is not connected `_modbus_receive_msg` returns at once
(`sets_errno_iff_connected`).
-/
import Libmodbus.Receive

namespace Libmodbus

open CSem Wire Posix

variable {σ : Type} {os : Os σ}

/-! ### All but errno -/

/-- The part of a state that the two runs have in common. -/
def St.bare (st : St σ) : Modbus × σ := (st.ctx, st.os)

/-- What shows of the state when a call has returned `rc`: `errno` counts after a failure only. -/
def St.shown (st : St σ) (rc : Int) : (Modbus × σ) × Option Errno :=
  (st.bare, if rc = -1 then some st.errno else none)

/-- What shows of a receive that has ended. -/
def outcome (r : Int × List UInt8 × St σ) : Int × List UInt8 × (Modbus × σ) × Option Errno :=
  (r.1, r.2.1, r.2.2.shown r.1)

/-- What the caller is told of a failure. -/
def failure (r : Int × List UInt8 × St σ) : Int × Option Errno :=
  (r.1, if r.1 = -1 then some r.2.2.errno else none)

/-- **A failed call assigns `errno`**: what it held before does not show. -/
def SetsErrno (call : St σ → Run (Int × List UInt8 × St σ)) (st : St σ) : Prop :=
  ∀ e e', (call { st with errno := e }).map failure = (call { st with errno := e' }).map failure

theorem failure_of_outcome {x y : Run (Int × List UInt8 × St σ)}
    (h : x.map outcome = y.map outcome) : x.map failure = y.map failure := by
  have hproj : ∀ z : Run (Int × List UInt8 × St σ),
      z.map failure = (z.map outcome).map fun o => (o.1, o.2.2.2) := by
    intro z
    rw [map_map]
    rfl
  rw [hproj, hproj, h]

/-- Two states of one context and one system. -/
theorem eq_of_bare {st st' : St σ} (h : st.bare = st'.bare) :
    st' = { st with errno := st'.errno } := by
  obtain ⟨ctx, e, s⟩ := st
  obtain ⟨ctx', e', s'⟩ := st'
  cases h
  rfl

/-! ### Flushing -/

theorem tcpFlushLoop_bare (fuel rcSum : Nat) {st st' : St σ} (h : st.bare = st'.bare) :
    (tcpFlushLoop os fuel rcSum st).map (fun r => (r.1, r.2.bare)) =
      (tcpFlushLoop os fuel rcSum st').map fun r => (r.1, r.2.bare) := by
  induction fuel generalizing rcSum st st' with
  | zero => rfl
  | succ fuel ih =>
    rw [eq_of_bare h, tcpFlushLoop, tcpFlushLoop]
    simp only
    rcases os.recvDontwait 260 st.os with ⟨e | b, s⟩
    · rfl
    · refine map_ite_congr (fun _ => rfl) fun _ => map_ite_congr (fun _ => ?_) fun _ => rfl
      exact ih _ rfl

theorem modbusFlush_bare {st st' : St σ} (h : st.bare = st'.bare) :
    (modbusFlush os st).map (fun r => (r.1, r.2.bare)) =
      (modbusFlush os st').map fun r => (r.1, r.2.bare) := by
  rw [eq_of_bare h]
  unfold modbusFlush
  simp only
  cases st.ctx.backend with
  | tcp => exact tcpFlushLoop_bare _ _ rfl
  | rtu => rcases os.tcflush st.os with ⟨- | e, s⟩ <;> rfl

/-! ### The exits of the receive loop -/

/-- `errno` is what is left of the interrupted calls when data is ready, and the reason of the
failure otherwise. -/
theorem backendSelect_outcome (fuel : Nat) {st st' : St σ} (h : st.bare = st'.bare)
    (tv : Option Timeval) :
    (backendSelect os fuel st tv).map (fun r => (r.1, r.2.bare, if r.1 then none else
        some r.2.errno)) =
      (backendSelect os fuel st' tv).map fun r => (r.1, r.2.bare, if r.1 then none else
        some r.2.errno) := by
  cases fuel with
  | zero => rfl
  | succ fuel =>
    rw [eq_of_bare h, backendSelect, backendSelect]
    simp only
    rcases os.select tv st.os with ⟨- | - | e, s⟩ <;> rfl

/-- The error of a bad checksum is set behind the flush. -/
theorem checkIntegrity_outcome {st st' : St σ} (h : st.bare = st'.bare) (msg : List UInt8) :
    (checkIntegrity os st msg).map (fun r => (r.1, r.2.shown r.1)) =
      (checkIntegrity os st' msg).map fun r => (r.1, r.2.shown r.1) := by
  have hflush : ∀ {st st' : St σ}, st.bare = st'.bare →
      (modbusFlush os st >>= fun r => (.ok (-1, { r.2 with errno := .EMBBADCRC }) :
          Run (Int × St σ))).map (fun r => (r.1, r.2.shown r.1)) =
        (modbusFlush os st' >>= fun r => (.ok (-1, { r.2 with errno := .EMBBADCRC }) :
          Run (Int × St σ))).map fun r => (r.1, r.2.shown r.1) := by
    intro st st' h
    refine map_bind_related (modbusFlush_bare h) fun a b _ _ hab => ?_
    have hbare : a.2.bare = b.2.bare := congrArg Prod.snd hab
    rw [eq_of_bare hbare]
  unfold checkIntegrity
  rw [eq_of_bare h]
  simp only
  cases st.ctx.backend with
  | tcp => rfl
  | rtu =>
    refine map_bind_congr fun slave _ => map_bind_congr fun hi _ => map_bind_congr fun lo _ => ?_
    refine map_ite_congr (fun _ => map_ite_congr (fun _ => hflush rfl) fun _ => rfl) fun _ => ?_
    exact map_ite_congr (fun _ => rfl) fun _ => rfl

/-- **Every exit of the loop sets `errno`.**  Up to its exit a run does not look at it. -/
theorem receiveLoop_outcome (mt : MsgType) (fuel : Nat) {st st' : St σ}
    (h : st.bare = st'.bare) (r : RecvState) :
    (receiveLoop os mt fuel st r).map outcome = (receiveLoop os mt fuel st' r).map outcome := by
  induction fuel generalizing st st' r with
  | zero => rfl
  | succ fuel ih =>
    rw [receiveLoop, receiveLoop]
    refine map_ite_congr (fun _ => ?_) fun _ => ?_
    · refine map_bind_related (checkIntegrity_outcome h r.msg) fun a b _ _ hab => ?_
      show Except.ok (ε := Stop) (a.1, r.msg, a.2.shown a.1) = .ok (b.1, r.msg, b.2.shown b.1)
      obtain ⟨hrc, hshown⟩ := Prod.mk.inj hab
      rw [hshown, hrc]
    refine map_bind_related (backendSelect_outcome os.fuel h r.tv) fun a b _ _ hab => ?_
    obtain ⟨ready, st₁⟩ := a
    obtain ⟨ready', st₁'⟩ := b
    obtain ⟨hready, hab⟩ := Prod.mk.inj hab
    obtain ⟨hbare, herrno⟩ := Prod.mk.inj hab
    simp only at hready hbare herrno
    subst hready
    cases ready with
    | false =>
      -- the error of `select` is the same, and from here on the runs are
      have heq : st₁' = st₁ := by
        rw [eq_of_bare hbare, ← Option.some.inj herrno]
      rw [heq]
    | true =>
      rw [eq_of_bare hbare]
      simp only [not_true_eq_false, if_false]
      rcases os.recv r.lengthToRead st₁.os with ⟨e | bytes, s⟩
      · rfl
      · refine map_ite_congr (fun _ => rfl) fun _ => map_bind_congr fun next _ => ?_
        cases next with
        | error e => rfl
        | ok r' =>
          have hnext : St.bare ⟨st₁.ctx, st₁.errno, s⟩ = St.bare ⟨st₁.ctx, st₁'.errno, s⟩ := rfl
          exact ih hnext r'

/-! ### Receiving -/

theorem modbusReceiveMsg_outcome {st st' : St σ} (h : st.bare = st'.bare) (hs : 0 ≤ st.ctx.s)
    (mt : MsgType) :
    (modbusReceiveMsg os st mt).map outcome = (modbusReceiveMsg os st' mt).map outcome := by
  obtain ⟨ctx, e, s⟩ := st
  obtain ⟨ctx', e', s'⟩ := st'
  cases h
  unfold modbusReceiveMsg
  rw [if_neg (not_lt.mpr hs), if_neg (not_lt.mpr hs)]
  refine map_ite_congr (fun _ => rfl) fun _ => ?_
  have hbare : St.bare ⟨ctx, e, s⟩ = St.bare ⟨ctx, e', s⟩ := rfl
  exact receiveLoop_outcome mt _ hbare _

theorem outcome_inj {r r' : Int × List UInt8 × St σ} (h : outcome r = outcome r') :
    r.1 = r'.1 ∧ r.2.1 = r'.2.1 ∧ r.2.2.bare = r'.2.2.bare ∧
      (r.1 = -1 → r.2.2.errno = r'.2.2.errno) := by
  obtain ⟨hrc, h⟩ := Prod.mk.inj h
  obtain ⟨hmsg, h⟩ := Prod.mk.inj h
  obtain ⟨hbare, herrno⟩ := Prod.mk.inj h
  refine ⟨hrc, hmsg, hbare, fun hfail => ?_⟩
  rw [← hrc, if_pos hfail, if_pos hfail] at herrno
  exact Option.some.inj herrno

theorem modbusReceiveMsg_disconnected {st : St σ} (hs : st.ctx.s < 0) (mt : MsgType) :
    modbusReceiveMsg os st mt = .ok (-1, [], st) := if_pos hs

/-- Connected or not, the rest of the state does not depend on `errno`. -/
theorem modbusReceiveMsg_bare {st st' : St σ} (h : st.bare = st'.bare) (mt : MsgType) :
    (modbusReceiveMsg os st mt).map (fun r => (r.2.1, r.2.2.bare)) =
      (modbusReceiveMsg os st' mt).map fun r => (r.2.1, r.2.2.bare) := by
  by_cases hs : 0 ≤ st.ctx.s
  · have hproj : ∀ z : Run (Int × List UInt8 × St σ),
        z.map (fun r => (r.2.1, r.2.2.bare)) = (z.map outcome).map fun o => (o.2.1, o.2.2.1) := by
      intro z
      rw [map_map]
      rfl
    rw [hproj, hproj, modbusReceiveMsg_outcome h hs]
  · have hctx : st'.ctx = st.ctx := (congrArg Prod.fst h).symm
    rw [modbusReceiveMsg_disconnected (not_le.mp hs),
      modbusReceiveMsg_disconnected (by rw [hctx]; exact not_le.mp hs)]
    show Except.ok (ε := Stop) ([], st.bare) = .ok ([], st'.bare)
    rw [h]

/-- In RTU the call may change the context, and the error of a message that is ignored is no
error of the call. -/
theorem modbusReceive_outcome {st st' : St σ} (h : st.bare = st'.bare)
    (hs : 0 ≤ st.ctx.s ∨ (st.ctx.backend = .rtu ∧ st.ctx.confirmationToIgnore = true)) :
    (modbusReceive os st).map outcome = (modbusReceive os st').map outcome := by
  have hctx : st'.ctx = st.ctx := (congrArg Prod.fst h).symm
  unfold modbusReceive
  rw [hctx]
  cases hbe : st.ctx.backend with
  | tcp =>
    have hs' : 0 ≤ st.ctx.s := hs.resolve_right fun h => by rw [hbe] at h; cases h.1
    exact modbusReceiveMsg_outcome h hs' .indication
  | rtu =>
    refine map_ite_congr (fun _ => ?_) fun hignore => ?_
    · refine map_bind_related (modbusReceiveMsg_bare h .confirmation) fun a b _ _ hab => ?_
      obtain ⟨rc, msg, st₁⟩ := a
      obtain ⟨rc', msg', st₁'⟩ := b
      obtain ⟨hmsg, hbare⟩ := Prod.mk.inj hab
      simp only at hmsg hbare ⊢
      rw [hmsg, eq_of_bare hbare]
      rfl
    · have hs' : 0 ≤ st.ctx.s := hs.resolve_right fun h => hignore h.2
      refine map_bind_related (modbusReceiveMsg_outcome h hs' .indication) fun a b _ _ hab => ?_
      obtain ⟨rc, msg, st₁⟩ := a
      obtain ⟨rc', msg', st₁'⟩ := b
      obtain ⟨hrc, hmsg, hbare, herrno⟩ := outcome_inj hab
      simp only at hrc hmsg hbare herrno ⊢
      subst hrc
      subst hmsg
      rw [eq_of_bare hbare]
      refine map_ite_congr (fun h0 => ?_) fun _ => ?_
      · subst h0
        rfl
      · exact congrArg Except.ok ((eq_of_bare hbare) ▸ hab)

/-! ### The exit in front of the loop -/

/-- A call that fails with the `errno` it found. -/
theorem not_setsErrno {call : St σ → Run (Int × List UInt8 × St σ)} {st : St σ}
    (h : ∀ e, (call { st with errno := e }).map failure = .ok (-1, some e)) :
    ¬ SetsErrno call st := by
  intro hset
  have heq := hset .EINVAL .EBADF
  rw [h, h] at heq
  cases heq

/-- **A receive that fails sets `errno` just when it gets past the connection check.** -/
theorem sets_errno_iff_connected (os : Os σ) (st : St σ) (mt : MsgType) :
    (SetsErrno (fun st => modbusReceiveMsg os st mt) st ↔ 0 ≤ st.ctx.s) ∧
      (SetsErrno (modbusReceiveConfirmation os) st ↔ 0 ≤ st.ctx.s) ∧
      (SetsErrno (modbusReceive os) st ↔
        0 ≤ st.ctx.s ∨ (st.ctx.backend = .rtu ∧ st.ctx.confirmationToIgnore = true)) := by
  have hmsg : ∀ mt, SetsErrno (fun st => modbusReceiveMsg os st mt) st ↔ 0 ≤ st.ctx.s := by
    intro mt
    constructor
    · intro hset
      by_contra hs
      refine not_setsErrno (fun e => ?_) hset
      have hs' : (⟨st.ctx, e, st.os⟩ : St σ).ctx.s < 0 := not_le.mp hs
      rw [modbusReceiveMsg_disconnected hs']
      rfl
    · intro hs e e'
      have hbare : St.bare { st with errno := e } = St.bare { st with errno := e' } := rfl
      exact failure_of_outcome (modbusReceiveMsg_outcome hbare hs mt)
  refine ⟨hmsg mt, hmsg .confirmation, ?_, fun hs e e' => ?_⟩
  · intro hset
    by_contra hs
    obtain ⟨hs, hignore⟩ := not_or.mp hs
    refine not_setsErrno (fun e => ?_) hset
    have hs' : (⟨st.ctx, e, st.os⟩ : St σ).ctx.s < 0 := not_le.mp hs
    unfold modbusReceive
    simp only
    cases hbe : st.ctx.backend with
    | tcp =>
      rw [modbusReceiveMsg_disconnected hs']
      rfl
    | rtu =>
      rw [if_neg fun h => hignore ⟨hbe, h⟩, modbusReceiveMsg_disconnected hs']
      rfl
  · have hbare : St.bare { st with errno := e } = St.bare { st with errno := e' } := rfl
    exact failure_of_outcome (modbusReceive_outcome hbare hs)

/-- A context that was never connected, and the codes of two earlier calls. -/
theorem unconnected_receive_reports_a_stale_error :
    ¬ SetsErrno (fun st => modbusReceiveMsg (linkOs 1) st .indication)
      ⟨modbusNew .tcp, .ETIMEDOUT, ⟨[], [], fun _ => 0⟩⟩ := by
  intro hset
  have heq := hset .ETIMEDOUT .ECONNRESET
  cases heq

end Libmodbus
