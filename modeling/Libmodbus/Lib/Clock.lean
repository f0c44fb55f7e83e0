/-
Libmodbus/Lib/Clock.lean

Waiting.  A `clock` reads off the state of a system how long the program has
waited so far.  `Clocked os clock` says where a program can wait:

    select (some tv)   at most tv
    sleep tv           at most tv
    other calls        not at all

and says nothing of a `select` without a timeout.

`timedOs` puts such a clock on any system, with an oracle for the time after
which `select` returns.

`os.elsewhere` is a system that does as it likes with a timeout out of range:
code that runs on it as on `os` has handed over no such timeout.
-/
import Libmodbus.Lib.Posix

namespace Posix

variable {σ : Type}

/-- The timeout in microseconds. -/
def Timeval.micros (tv : Timeval) : Nat := tv.sec * 1000000 + tv.usec

/-- Only `select` and a sleep wait, and no longer than they were told to. -/
structure Clocked (os : Os σ) (clock : σ → Nat) : Prop where
  select : ∀ {tv s r s'}, os.select (some tv) s = (r, s') → clock s' ≤ clock s + tv.micros
  sleep : ∀ {tv s e s'}, os.sleep tv s = (e, s') → clock s' ≤ clock s + tv.micros
  recv : ∀ {n s r s'}, os.recv n s = (r, s') → clock s' ≤ clock s
  recvDontwait : ∀ {n s r s'}, os.recvDontwait n s = (r, s') → clock s' ≤ clock s
  tcflush : ∀ {s e s'}, os.tcflush s = (e, s') → clock s' ≤ clock s
  send : ∀ {m s r s'}, os.send m s = (r, s') → clock s' ≤ clock s

/-! ### A system with a clock -/

/-- A system and the time its program has waited. -/
structure Timed (σ : Type) where
  os : σ
  elapsed : Nat

/-- A call that takes the time `wait`. -/
def Timed.after {α : Type} (wait : σ → Nat) (f : σ → α × σ) (t : Timed σ) : α × Timed σ :=
  ((f t.os).1, ⟨(f t.os).2, t.elapsed + wait t.os⟩)

/-- A call that is over at once. -/
def Timed.atOnce {α : Type} (f : σ → α × σ) : Timed σ → α × Timed σ := Timed.after (fun _ => 0) f

/-- The clock does not change what a call does. -/
theorem Timed.after_os {α : Type} {wait : σ → Nat} {f : σ → α × σ} {t t' : Timed σ} {a : α}
    (h : t.after wait f = (a, t')) : f t.os = (a, t'.os) := by
  obtain ⟨ha, ht⟩ := Prod.mk.inj h
  exact Prod.ext ha (congrArg Timed.os ht)

/-- The clock goes on by the time that the call takes. -/
theorem Timed.after_elapsed {α : Type} {wait : σ → Nat} {f : σ → α × σ} {t t' : Timed σ} {a : α}
    (h : t.after wait f = (a, t')) : t'.elapsed = t.elapsed + wait t.os := by
  obtain ⟨-, ht⟩ := Prod.mk.inj h
  exact (congrArg Timed.elapsed ht).symm

theorem Timed.atOnce_elapsed {α : Type} {f : σ → α × σ} {t t' : Timed σ} {a : α}
    (h : t.atOnce f = (a, t')) : t'.elapsed ≤ t.elapsed :=
  (Timed.after_elapsed h).le

/-- How long `select` takes: as `wait` says, or until its time is over. -/
def Timed.selectWait (wait : σ → Nat) (s : σ) : Option Timeval → Nat
  | some tv => min (wait s) tv.micros
  | none => wait s

/-- The system with a clock. -/
def timedOs (os : Os σ) (wait : σ → Nat) : Os (Timed σ) where
  fuel := os.fuel
  select tv := Timed.after (fun s => Timed.selectWait wait s tv) (os.select tv)
  recv n := Timed.atOnce (os.recv n)
  recvDontwait n := Timed.atOnce (os.recvDontwait n)
  tcflush := Timed.atOnce os.tcflush
  send m := Timed.atOnce (os.send m)
  sleep tv := Timed.after (fun _ => tv.micros) (os.sleep tv)
  close := Timed.atOnce os.close
  connect := Timed.atOnce os.connect
  recv_length h := os.recv_length (Timed.after_os h)
  recvDontwait_length h := os.recvDontwait_length (Timed.after_os h)
  send_length h := os.send_length (Timed.after_os h)

theorem timedOs_select {os : Os σ} {wait : σ → Nat} {tv : Option Timeval} {t t' : Timed σ}
    {r : Readiness} (h : (timedOs os wait).select tv t = (r, t')) :
    t'.elapsed = t.elapsed + Timed.selectWait wait t.os tv := by
  have hafter : t.after (fun s => Timed.selectWait wait s tv) (os.select tv) = (r, t') := h
  exact Timed.after_elapsed hafter

/-- **A system with a clock is clocked**: a `select` with a timeout is over when its time is, and
nothing but a sleep waits besides. -/
theorem timedOs_clocked (os : Os σ) (wait : σ → Nat) : Clocked (timedOs os wait) Timed.elapsed where
  select := by
    intro tv t r t' h
    have helapsed : t'.elapsed = t.elapsed + min (wait t.os) tv.micros := timedOs_select h
    rw [helapsed]
    exact Nat.add_le_add_left (Nat.min_le_right _ _) _
  sleep := by
    intro tv t e t' h
    have hsleep : t.after (fun _ => tv.micros) (os.sleep tv) = (e, t') := h
    exact (Timed.after_elapsed hsleep).le
  recv h := Timed.atOnce_elapsed h
  recvDontwait h := Timed.atOnce_elapsed h
  tcflush h := Timed.atOnce_elapsed h
  send h := Timed.atOnce_elapsed h

/-- No signal arrives because of the clock. -/
theorem Prompt.timed {os : Os σ} (h : Prompt os) (wait : σ → Nat) : Prompt (timedOs os wait) where
  turn := h.turn
  select := by
    intro tv t t' hsel
    have hafter : t.after (fun s => Timed.selectWait wait s tv) (os.select tv) =
      (.failed .EINTR, t') := hsel
    exact h.select (Timed.after_os hafter)

/-! ### Timeouts out of range -/

/-- The microseconds are less than a second, and the seconds fit into 32 bits. -/
def Timeval.InRange (tv : Timeval) : Prop := tv.sec < 2 ^ 32 ∧ tv.usec < 1000000

instance (tv : Timeval) : Decidable tv.InRange := inferInstanceAs (Decidable (_ ∧ _))

/-- The system, but with a timeout out of range it does what `select` and `sleep` say. -/
def Os.elsewhere (os : Os σ) (select : Timeval → σ → Readiness × σ)
    (sleep : Timeval → σ → Option SysErrno × σ) : Os σ :=
  { os with
    select := fun tv => match tv with
      | some tv => if tv.InRange then os.select (some tv) else select tv
      | none => os.select none
    sleep := fun tv => if tv.InRange then os.sleep tv else sleep tv }

section

variable (os : Os σ) (select : Timeval → σ → Readiness × σ)
  (sleep : Timeval → σ → Option SysErrno × σ)

/-- With a timeout in range, or none, `select` is that of the system. -/
theorem Os.elsewhere_select {tv : Option Timeval} (h : ∀ t, tv = some t → t.InRange) :
    (os.elsewhere select sleep).select tv = os.select tv := by
  cases tv with
  | none => rfl
  | some tv => exact if_pos (h tv rfl)

theorem Os.elsewhere_sleep {tv : Timeval} (h : tv.InRange) :
    (os.elsewhere select sleep).sleep tv = os.sleep tv := if_pos h

end

end Posix
