/-
Libmodbus/Lib/Descriptors.lean

System calls that make descriptors and give them back.  A `Ledger` stands
between a program and the system and counts what the program holds:

    make   a new descriptor is held, one that was not held before
    close  a held descriptor is held no more; any other is a stray

`Sockets σ` says nothing about which calls succeed.  The only thing that is
relied on is that a descriptor that is still held is not handed out again.

`Accounts owned l` says that the ledger holds what the program thinks it owns,
in whatever order it was made.
-/
import Libmodbus.Lib.Posix

namespace Posix

/-- What `connect` says of a socket; `EINPROGRESS` is apart. -/
inductive Connecting
  | established
  | inProgress (e : SysErrno)
  | failed (e : SysErrno)
  deriving DecidableEq, Repr

/-- Options of a socket. -/
inductive SockOpt
  | tcpNodelay
  | ipTos
  deriving DecidableEq, Repr

/-- The calls that connect.  The ones that make a descriptor see which are held. -/
structure Sockets (σ : Type) where
  /-- `open` of a device. -/
  openDevice : List Nat → σ → Except SysErrno Nat × σ
  tcgetattr : Nat → σ → Option SysErrno × σ
  /-- `cfsetispeed` and `cfsetospeed` -/
  cfsetspeed : σ → Option SysErrno × σ
  tcsetattr : Nat → σ → Option SysErrno × σ
  /-- The addresses of a name, each with whether it is of the family `AF_INET`. -/
  getaddrinfo : σ → Option (List Bool) × σ
  /-- `socket`, of the family `AF_INET` or another. -/
  socket : Bool → List Nat → σ → Except SysErrno Nat × σ
  setsockopt : Nat → SockOpt → σ → Option SysErrno × σ
  /-- Whether the address is valid, and what is left in `errno` when it is touched. -/
  inetPton : σ → (Bool × Option SysErrno) × σ
  connect : Nat → σ → Connecting × σ
  /-- `select` for writing. -/
  selectWrite : Nat → Timeval → σ → Readiness × σ
  /-- `getsockopt` succeeds, and finds no error pending. -/
  soError : Nat → σ → Bool × σ
  shutdown : Nat → σ → Option SysErrno × σ
  close : Nat → σ → Option SysErrno × σ
  openDevice_fresh : ∀ {held s fd s'}, openDevice held s = (.ok fd, s') → fd ∉ held
  socket_fresh : ∀ {inet held s fd s'}, socket inet held s = (.ok fd, s') → fd ∉ held

/-! ### What is held -/

/-- A system, the descriptors that are held, and those that were closed without being held. -/
structure Ledger (σ : Type) where
  os : σ
  held : List Nat
  strays : List Nat

namespace Ledger

variable {σ α : Type}

/-- A call that neither makes nor closes. -/
def call (f : σ → α × σ) (l : Ledger σ) : α × Ledger σ := ((f l.os).1, { l with os := (f l.os).2 })

def make (f : List Nat → σ → Except SysErrno Nat × σ) (l : Ledger σ) :
    Except SysErrno Nat × Ledger σ :=
  match f l.held l.os with
  | (.ok fd, s) => (.ok fd, { l with os := s, held := l.held ++ [fd] })
  | (.error e, s) => (.error e, { l with os := s })

def close (f : Nat → σ → Option SysErrno × σ) (fd : Nat) (l : Ledger σ) :
    Option SysErrno × Ledger σ :=
  let (e, s) := f fd l.os
  (e, if fd ∈ l.held then { l with os := s, held := l.held.erase fd }
    else { l with os := s, strays := l.strays ++ [fd] })

/-- The same descriptors are held, and no other is a stray. -/
def Same (l l' : Ledger σ) : Prop := l'.held = l.held ∧ l'.strays = l.strays

/-- One more descriptor is held. -/
def Holds (fd : Nat) (l l' : Ledger σ) : Prop :=
  fd ∉ l.held ∧ l'.held = l.held ++ [fd] ∧ l'.strays = l.strays

theorem Same.refl (l : Ledger σ) : l.Same l := ⟨rfl, rfl⟩

theorem Same.trans {l l' l'' : Ledger σ} (h : l.Same l') (h' : l'.Same l'') : l.Same l'' :=
  ⟨h'.1.trans h.1, h'.2.trans h.2⟩

theorem Holds.same {fd : Nat} {l l' l'' : Ledger σ} (h : l.Holds fd l') (h' : l'.Same l'') :
    l.Holds fd l'' := ⟨h.1, h'.1.trans h.2.1, h'.2.trans h.2.2⟩

theorem call_same {f : σ → α × σ} {l l' : Ledger σ} {a : α} (h : l.call f = (a, l')) :
    l.Same l' := by
  cases h
  exact ⟨rfl, rfl⟩

theorem make_ok {f : List Nat → σ → Except SysErrno Nat × σ}
    (hf : ∀ {held s fd s'}, f held s = (.ok fd, s') → fd ∉ held) {l l' : Ledger σ} {fd : Nat}
    (h : l.make f = (.ok fd, l')) : l.Holds fd l' := by
  unfold make at h
  rcases hr : f l.held l.os with ⟨e | fd', s⟩
  · rw [hr] at h
    cases h
  · rw [hr] at h
    cases h
    exact ⟨hf hr, rfl, rfl⟩

theorem make_error {f : List Nat → σ → Except SysErrno Nat × σ} {l l' : Ledger σ} {e : SysErrno}
    (h : l.make f = (.error e, l')) : l.Same l' := by
  unfold make at h
  rcases hr : f l.held l.os with ⟨e | fd', s⟩
  · rw [hr] at h
    cases h
    exact ⟨rfl, rfl⟩
  · rw [hr] at h
    cases h

theorem close_held (f : Nat → σ → Option SysErrno × σ) {fd : Nat} {l : Ledger σ}
    (h : fd ∈ l.held) :
    (l.close f fd).2.held = l.held.erase fd ∧ (l.close f fd).2.strays = l.strays := by
  simp only [close, if_pos h, and_self]

/-- What was made and closed again is gone without a trace. -/
theorem Holds.close {fd : Nat} {l l' : Ledger σ} (h : l.Holds fd l')
    (f : Nat → σ → Option SysErrno × σ) : l.Same (l'.close f fd).2 := by
  obtain ⟨hfresh, hheld, hstrays⟩ := h
  have hmem : fd ∈ l'.held := by
    rw [hheld]
    exact List.mem_append_right _ (List.mem_singleton_self fd)
  obtain ⟨h1, h2⟩ := close_held f hmem
  refine ⟨?_, h2.trans hstrays⟩
  rw [h1, hheld, List.erase_append_right _ hfresh, List.erase_cons_head, List.append_nil]

/-! ### What is owned -/

/-- What is held is `owned`, in any order, and nothing was given back that was not held. -/
structure Accounts (owned : List Nat) (l : Ledger σ) : Prop where
  perm : l.held.Perm owned
  nodup : l.held.Nodup
  strays : l.strays = []

namespace Accounts

variable {owned owned' : List Nat} {l l' : Ledger σ}

theorem reorder (h : l.Accounts owned) (hp : owned.Perm owned') : l.Accounts owned' :=
  ⟨h.perm.trans hp, h.nodup, h.strays⟩

theorem same (h : l.Accounts owned) (hs : l.Same l') : l'.Accounts owned := by
  obtain ⟨hheld, hstrays⟩ := hs
  exact ⟨hheld ▸ h.perm, hheld ▸ h.nodup, hstrays.trans h.strays⟩

/-- What was made is owned. -/
theorem holds {p : Nat} (h : l.Accounts owned) (hp : l.Holds p l') : l'.Accounts (p :: owned) := by
  obtain ⟨hfresh, hheld, hstrays⟩ := hp
  refine ⟨?_, ?_, hstrays.trans h.strays⟩
  · rw [hheld]
    exact List.perm_append_comm.trans (h.perm.cons p)
  · rw [hheld, List.nodup_append_comm]
    exact List.nodup_cons.mpr ⟨hfresh, h.nodup⟩

/-- What is given back is owned no more. -/
theorem close {p : Nat} (h : l.Accounts (p :: owned)) (f : Nat → σ → Option SysErrno × σ) :
    (l.close f p).2.Accounts owned := by
  have hmem : p ∈ l.held := h.perm.mem_iff.mpr List.mem_cons_self
  obtain ⟨hheld, hstrays⟩ := close_held f hmem
  refine ⟨?_, ?_, hstrays.trans h.strays⟩
  · rw [hheld]
    have herase := h.perm.erase p
    rwa [List.erase_cons_head] at herase
  · rw [hheld]
    exact h.nodup.erase p

end Accounts

end Ledger

end Posix
