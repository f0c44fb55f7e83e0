/-
Libmodbus/Flushes.lean

`_modbus_tcp_flush` on a socket on which nothing arrives.  The loop takes 260
bytes a turn and ends with the first turn that takes fewer, or none; its count
is a `uint16_t`.

    turn       1    2   ...  252    253
    count    260  520      65520    65520 + what is left

Before the last turn that is possible, 15 bytes more fit into the count.
-/
import Libmodbus.Send
import Libmodbus.Lib.Pending

namespace Libmodbus

open CSem Posix

variable {σ : Type} {os : Os σ} {pending : σ → List UInt8}

/-- The outcome of a flush that has taken `rcSum` bytes and finds `n` more. -/
structure FlushOutcome (pending : σ → List UInt8) (total : Nat) (rc : Int) (st' : St σ) : Prop where
  counted : total ≤ 65535 → rc = total ∧ pending st'.os = []
  overflow : 65535 < total → rc = -1 ∧ st'.errno = .EOVERFLOW

/-- What is left of 253 turns is enough. -/
theorem tcpFlushLoop_exact (h : Settled os pending) {turns rcSum : Nat} (st : St σ)
    (hturns : rcSum + 260 * turns = 260 * 253) (hpos : 0 < turns) :
    ∃ rc st', tcpFlushLoop os turns rcSum st = .ok (rc, st') ∧ st'.ctx = st.ctx ∧
      FlushOutcome pending (rcSum + (pending st.os).length) rc st' := by
  induction turns generalizing rcSum st with
  | zero => exact absurd hpos (Nat.lt_irrefl 0)
  | succ turns ih =>
    rw [tcpFlushLoop]
    by_cases hnil : pending st.os = []
    · -- the count was a multiple of 260
      obtain ⟨s, hrecv, hs⟩ := h.none 260 hnil
      rw [hrecv, hnil]
      refine ⟨_, _, rfl, rfl, fun _ => ⟨rfl, hs⟩, fun hover => ?_⟩
      rw [List.length_nil] at hover
      omega
    · obtain ⟨s, hrecv, hs⟩ := h.some 260 hnil
      have htaken : ((pending st.os).take 260).length = min 260 (pending st.os).length :=
        List.length_take
      have hne := List.length_pos_of_ne_nil hnil
      rw [hrecv]
      simp only [htaken]
      by_cases hover : 0 < min 260 (pending st.os).length ∧
          65535 - min 260 (pending st.os).length < rcSum
      · -- the next count would not fit into 16 bits
        rw [if_pos hover]
        refine ⟨_, _, rfl, rfl, fun hle => ?_, fun _ => ⟨rfl, rfl⟩⟩
        omega
      rw [if_neg hover]
      by_cases hfull : min 260 (pending st.os).length = 260
      · -- a full turn is followed by another one
        have hrest : rcSum + 260 + 260 * turns = 260 * 253 := by omega
        obtain ⟨rc, st', hloop, hctx, houtcome⟩ := ih { st with os := s } hrest (by omega)
        have htotal : rcSum + 260 + (pending s).length = rcSum + (pending st.os).length := by
          rw [hs, List.length_drop]
          omega
        rw [if_pos hfull, hfull]
        rw [htotal] at houtcome
        exact ⟨rc, st', hloop, hctx, houtcome⟩
      · -- fewer than 260 bytes were the last ones
        have hall : min 260 (pending st.os).length = (pending st.os).length := by omega
        rw [if_neg hfull, hall]
        refine ⟨_, _, rfl, rfl, fun _ => ⟨rfl, ?_⟩, fun hlt => ?_⟩
        · show pending s = []
          rw [hs]
          exact List.drop_of_length_le (by omega)
        · omega

/-- **The flush empties the socket and counts exactly**, or says that it cannot count. -/
theorem modbusFlush_exact (h : Settled os pending) (st : St σ) (htcp : st.ctx.backend = .tcp) :
    ∃ rc st', modbusFlush os st = .ok (rc, st') ∧ st'.ctx = st.ctx ∧
      ((pending st.os).length ≤ 65535 → rc = (pending st.os).length ∧ pending st'.os = []) ∧
      (65535 < (pending st.os).length → rc = -1 ∧ st'.errno = .EOVERFLOW) := by
  obtain ⟨rc, st', hloop, hctx, houtcome⟩ :=
    tcpFlushLoop_exact h st (Nat.zero_add (260 * 253)) (by decide)
  rw [Nat.zero_add] at houtcome
  rw [modbusFlush, htcp]
  exact ⟨rc, st', hloop, hctx, houtcome.counted, houtcome.overflow⟩

theorem modbusFlush_exact_sample : ∃ rc st',
    modbusFlush pendingOs ⟨modbusNew .tcp, .sys .EINTR, [0x00, 0x07, 0x00]⟩ = .ok (rc, st') ∧
      st'.ctx = modbusNew .tcp ∧ (3 ≤ 65535 → rc = (3 : Nat) ∧ st'.os = []) ∧
      (65535 < 3 → rc = -1 ∧ st'.errno = .EOVERFLOW) :=
  modbusFlush_exact pendingOs_settled ⟨modbusNew .tcp, .sys .EINTR, [0x00, 0x07, 0x00]⟩ rfl

end Libmodbus
