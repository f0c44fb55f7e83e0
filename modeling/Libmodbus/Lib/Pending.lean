/-
Libmodbus/Lib/Pending.lean

A socket on which nothing arrives: `recv` with `MSG_DONTWAIT` takes the bytes
that are pending, as many as it is asked for, and fails with `EAGAIN` when there
are none.  `pendingOs` is such a system.
-/
import Libmodbus.Lib.Posix

namespace Posix

variable {σ : Type}

/-- In every state the bytes `pending s` are there, and no others come. -/
structure Settled (os : Os σ) (pending : σ → List UInt8) : Prop where
  none : ∀ {s} n, pending s = [] →
    ∃ s', os.recvDontwait n s = (.error .EAGAIN, s') ∧ pending s' = []
  some : ∀ {s} n, pending s ≠ [] →
    ∃ s', os.recvDontwait n s = (.ok ((pending s).take n), s') ∧ pending s' = (pending s).drop n

def takePending (n : Nat) (s : List UInt8) : Except SysErrno (List UInt8) × List UInt8 :=
  if s = [] then (.error .EAGAIN, s) else (.ok (s.take n), s.drop n)

theorem takePending_length {n : Nat} {s b s' : List UInt8} (h : takePending n s = (.ok b, s')) :
    b.length ≤ n := by
  unfold takePending at h
  split_ifs at h
  · cases (Prod.mk.inj h).1
  · cases (Prod.mk.inj h).1
    exact List.length_take_le n s

/-- The state is what is pending. -/
def pendingOs : Os (List UInt8) where
  fuel := 1
  select _ s := (if s = [] then .timeout else .ready, s)
  recv := takePending
  recvDontwait := takePending
  tcflush _ := (none, [])
  send m s := (.ok m.length, s)
  sleep _ s := (none, s)
  close s := (none, s)
  connect s := ((some 0, none), s)
  recv_length := takePending_length
  recvDontwait_length := takePending_length
  send_length := by
    intro m s n s' h
    cases h
    exact Nat.le_refl _

theorem pendingOs_settled : Settled pendingOs id where
  none := by
    intro s n h
    exact ⟨s, if_pos h, h⟩
  some := by
    intro s n h
    exact ⟨s.drop n, if_neg h, rfl⟩

end Posix
