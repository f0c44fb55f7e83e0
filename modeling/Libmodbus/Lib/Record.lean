/-
Libmodbus/Lib/Record.lean

What a program does to the system, seen from outside.

* `Obeys os M R` says that every call moves the state of the system by `R`, as
  long as the messages that are sent have `M`.  A program that only sends such
  messages then moves the state by `R`, whatever calls it makes.
* `recordOs os` is `os` with a record of every message that is handed to
  `send`, also when the send fails.  It obeys two rules of that kind: with no
  message allowed the record stays, and with some allowed only these are added.
* `tapOs os` is `os` with a record of every byte that `recv` returns.  On
  `deaf os` there is nothing to receive; a program that does not read cannot
  tell it from `os`, and leaves that record alone.
-/
import Libmodbus.Lib.Posix

namespace Posix

variable {σ : Type}

/-! ### Rules for all calls -/

/-- Every call moves the state by `R`; messages that are sent have `M`. -/
structure Obeys (os : Os σ) (M : List UInt8 → Prop) (R : σ → σ → Prop) : Prop where
  refl : ∀ s, R s s
  trans : ∀ {s s' s''}, R s s' → R s' s'' → R s s''
  select : ∀ {tv s r s'}, os.select tv s = (r, s') → R s s'
  recv : ∀ {n s r s'}, os.recv n s = (r, s') → R s s'
  recvDontwait : ∀ {n s r s'}, os.recvDontwait n s = (r, s') → R s s'
  tcflush : ∀ {s r s'}, os.tcflush s = (r, s') → R s s'
  send : ∀ {m s r s'}, M m → os.send m s = (r, s') → R s s'
  sleep : ∀ {tv s r s'}, os.sleep tv s = (r, s') → R s s'
  close : ∀ {s r s'}, os.close s = (r, s') → R s s'
  connect : ∀ {s r s'}, os.connect s = (r, s') → R s s'

theorem obeys_any (os : Os σ) : Obeys os (fun _ => True) fun _ _ => True where
  refl _ := trivial
  trans _ _ := trivial
  select _ := trivial
  recv _ := trivial
  recvDontwait _ := trivial
  tcflush _ := trivial
  send _ _ := trivial
  sleep _ := trivial
  close _ := trivial
  connect _ := trivial

/-! ### Recording what is sent -/

/-- A system and the messages handed to `send` so far, the first in front. -/
structure Recorded (σ : Type) where
  os : σ
  sent : List (List UInt8)

/-- A call that leaves the record alone. -/
def Recorded.quiet {α : Type} (f : σ → α × σ) (r : Recorded σ) : α × Recorded σ :=
  ((f r.os).1, { r with os := (f r.os).2 })

theorem Recorded.quiet_fst {α : Type} {f : σ → α × σ} {r r' : Recorded σ} {a : α}
    (h : r.quiet f = (a, r')) : f r.os = (a, r'.os) := by
  obtain ⟨ha, hr⟩ := Prod.mk.inj h
  exact Prod.ext ha (congrArg Recorded.os hr)

theorem Recorded.quiet_sent {α : Type} {f : σ → α × σ} {r r' : Recorded σ} {a : α}
    (h : r.quiet f = (a, r')) : r'.sent = r.sent := by
  obtain ⟨-, hr⟩ := Prod.mk.inj h
  exact (congrArg Recorded.sent hr).symm

/-- The message enters the record whatever becomes of it. -/
def Recorded.send (os : Os σ) (m : List UInt8) (r : Recorded σ) :
    Except SysErrno Nat × Recorded σ :=
  ((os.send m r.os).1, ⟨(os.send m r.os).2, r.sent ++ [m]⟩)

def recordOs (os : Os σ) : Os (Recorded σ) where
  fuel := os.fuel
  select tv := Recorded.quiet (os.select tv)
  recv n := Recorded.quiet (os.recv n)
  recvDontwait n := Recorded.quiet (os.recvDontwait n)
  tcflush := Recorded.quiet os.tcflush
  send := Recorded.send os
  sleep tv := Recorded.quiet (os.sleep tv)
  close := Recorded.quiet os.close
  connect := Recorded.quiet os.connect
  recv_length h := os.recv_length (Recorded.quiet_fst h)
  recvDontwait_length h := os.recvDontwait_length (Recorded.quiet_fst h)
  send_length := by
    intro m r n r' h
    obtain ⟨hn, -⟩ := Prod.mk.inj h
    exact os.send_length (Prod.ext hn rfl : os.send m r.os = (_, (os.send m r.os).2))

theorem Prompt.record {os : Os σ} (h : Prompt os) : Prompt (recordOs os) :=
  ⟨h.turn, fun hsel => h.select (Recorded.quiet_fst hsel)⟩

/-- The messages that are added to the record have `M`. -/
def Recorded.Adds (M : List UInt8 → Prop) (r r' : Recorded σ) : Prop :=
  ∃ ms, r'.sent = r.sent ++ ms ∧ ∀ m ∈ ms, M m

theorem Recorded.Adds.of_eq {M : List UInt8 → Prop} {r r' : Recorded σ} (h : r'.sent = r.sent) :
    r.Adds M r' := ⟨[], by rw [h, List.append_nil], List.forall_mem_nil _⟩

theorem recordOs_adds (os : Os σ) (M : List UInt8 → Prop) :
    Obeys (recordOs os) M (Recorded.Adds M) where
  refl r := .of_eq rfl
  trans := by
    rintro r r' r'' ⟨ms, h, hms⟩ ⟨ms', h', hms'⟩
    refine ⟨ms ++ ms', by rw [h', h, List.append_assoc], ?_⟩
    intro m hm
    exact (List.mem_append.mp hm).elim (hms m) (hms' m)
  select h := .of_eq (Recorded.quiet_sent h)
  recv h := .of_eq (Recorded.quiet_sent h)
  recvDontwait h := .of_eq (Recorded.quiet_sent h)
  tcflush h := .of_eq (Recorded.quiet_sent h)
  send := by
    intro m r res r' hm h
    obtain ⟨-, hr⟩ := Prod.mk.inj h
    refine ⟨[m], (congrArg Recorded.sent hr).symm, ?_⟩
    intro m' hm'
    rw [List.mem_singleton.mp hm']
    exact hm
  sleep h := .of_eq (Recorded.quiet_sent h)
  close h := .of_eq (Recorded.quiet_sent h)
  connect h := .of_eq (Recorded.quiet_sent h)

/-- Where nothing is sent the record stays. -/
theorem recordOs_quiet (os : Os σ) :
    Obeys (recordOs os) (fun _ => False) fun r r' => r'.sent = r.sent where
  refl _ := rfl
  trans h h' := h'.trans h
  select := Recorded.quiet_sent
  recv := Recorded.quiet_sent
  recvDontwait := Recorded.quiet_sent
  tcflush := Recorded.quiet_sent
  send h := h.elim
  sleep := Recorded.quiet_sent
  close := Recorded.quiet_sent
  connect := Recorded.quiet_sent

/-! ### Recording what is received -/

/-- A system and the bytes that `recv` has returned so far. -/
structure Tapped (σ : Type) where
  os : σ
  received : List UInt8

/-- A call that returns no bytes. -/
def Tapped.quiet {α : Type} (f : σ → α × σ) (r : Tapped σ) : α × Tapped σ :=
  ((f r.os).1, { r with os := (f r.os).2 })

theorem Tapped.quiet_fst {α : Type} {f : σ → α × σ} {r r' : Tapped σ} {a : α}
    (h : r.quiet f = (a, r')) : f r.os = (a, r'.os) := by
  obtain ⟨ha, hr⟩ := Prod.mk.inj h
  exact Prod.ext ha (congrArg Tapped.os hr)

theorem Tapped.quiet_received {α : Type} {f : σ → α × σ} {r r' : Tapped σ} {a : α}
    (h : r.quiet f = (a, r')) : r'.received = r.received := by
  obtain ⟨-, hr⟩ := Prod.mk.inj h
  exact (congrArg Tapped.received hr).symm

def Tapped.recv (os : Os σ) (n : Nat) (r : Tapped σ) :
    Except SysErrno (List UInt8) × Tapped σ :=
  match os.recv n r.os with
  | (.ok b, s) => (.ok b, ⟨s, r.received ++ b⟩)
  | (.error e, s) => (.error e, { r with os := s })

theorem Tapped.recv_ok {os : Os σ} {n : Nat} {r r' : Tapped σ} {b : List UInt8}
    (h : r.recv os n = (.ok b, r')) :
    os.recv n r.os = (.ok b, r'.os) ∧ r'.received = r.received ++ b := by
  unfold Tapped.recv at h
  rcases hr : os.recv n r.os with ⟨e | b', s⟩
  · rw [hr] at h
    cases h
  · rw [hr] at h
    cases h
    exact ⟨rfl, rfl⟩

def tapOs (os : Os σ) : Os (Tapped σ) where
  fuel := os.fuel
  select tv := Tapped.quiet (os.select tv)
  recv := Tapped.recv os
  recvDontwait n := Tapped.quiet (os.recvDontwait n)
  tcflush := Tapped.quiet os.tcflush
  send m := Tapped.quiet (os.send m)
  sleep tv := Tapped.quiet (os.sleep tv)
  close := Tapped.quiet os.close
  connect := Tapped.quiet os.connect
  recv_length h := os.recv_length (Tapped.recv_ok h).1
  recvDontwait_length h := os.recvDontwait_length (Tapped.quiet_fst h)
  send_length h := os.send_length (Tapped.quiet_fst h)

/-- The record is what has been read. -/
theorem tapOs_tracked (os : Os σ) :
    Tracked (tapOs os) fun r xs r' => r'.received = r.received ++ xs where
  refl r := (List.append_nil _).symm
  trans := by
    intro r r' r'' xs ys h h'
    rw [h', h, List.append_assoc]
  select := by
    intro r tv a r' h
    rw [List.append_nil]
    exact Tapped.quiet_received h
  recv h := (Tapped.recv_ok h).2

/-- The system with nothing to receive. -/
def deaf (os : Os σ) : Os σ := { os with
  recv := fun _ s => (.error .EAGAIN, s)
  recv_length := by
    intro n s b s' h
    cases h }

/-- Who does not read leaves the record alone. -/
theorem tapOs_deaf (os : Os σ) :
    Obeys (deaf (tapOs os)) (fun _ => True) fun r r' => r'.received = r.received where
  refl _ := rfl
  trans h h' := h'.trans h
  select := Tapped.quiet_received
  recv := by
    intro n r a r' h
    cases h
    rfl
  recvDontwait := Tapped.quiet_received
  tcflush := Tapped.quiet_received
  send _ := Tapped.quiet_received
  sleep := Tapped.quiet_received
  close := Tapped.quiet_received
  connect := Tapped.quiet_received

end Posix
