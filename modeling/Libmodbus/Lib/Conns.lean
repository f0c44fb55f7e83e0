/-
Libmodbus/Lib/Conns.lean

The server's end of a connection: a lossless line whose other end may be given
up.

    data waiting   select: ready,   recv: a piece of it
    nothing        select: timeout
    hung up        select: ready,   recv: the end of the stream, behind the last byte
-/
import Libmodbus.Lib.Posix

namespace Posix

structure Conn where
  line : Link
  hungUp : Bool

namespace Conn

/-- `recv` would not wait. -/
def Readable (c : Conn) : Prop := c.line.input ≠ [] ∨ c.hungUp = true

instance (c : Conn) : Decidable c.Readable := inferInstanceAs (Decidable (_ ∨ _))

def recv (n : Nat) (c : Conn) : Except SysErrno (List UInt8) × Conn :=
  if c.line.input = [] ∧ c.hungUp = true then (.ok [], c)
  else ((c.line.recv n).1, { c with line := (c.line.recv n).2 })

theorem recv_length {n : Nat} {c c' : Conn} {b : List UInt8} (h : c.recv n = (.ok b, c')) :
    b.length ≤ n := by
  unfold recv at h
  split_ifs at h
  · cases h
    exact Nat.zero_le n
  · have hb : (c.line.recv n).1 = .ok b := congrArg Prod.fst h
    exact Link.recv_length (Prod.ext hb rfl : c.line.recv n = (_, (c.line.recv n).2))

/-- After the last byte of a connection that was given up. -/
theorem recv_end {n : Nat} {c : Conn} (hin : c.line.input = []) (h : c.hungUp = true) :
    c.recv n = (.ok [], c) := if_pos ⟨hin, h⟩

end Conn

def connOs (fuel : Nat) : Os Conn where
  fuel := fuel
  select _ c := (if c.Readable then .ready else .timeout, c)
  recv := Conn.recv
  recvDontwait := Conn.recv
  tcflush c := (none, { c with line := { c.line with input := [] } })
  send m c := (.ok m.length, { c with line := { c.line with output := c.line.output ++ [m] } })
  sleep _ c := (none, c)
  close c := (none, c)
  connect c := ((some 0, none), c)
  recv_length := Conn.recv_length
  recvDontwait_length := Conn.recv_length
  send_length := by
    intro m s n s' h
    cases h
    exact Nat.le_refl _

/-- After reading `xs` the connection has the rest in front, and nothing was written. -/
def Conn.Took (c : Conn) (xs : List UInt8) (c' : Conn) : Prop :=
  c.line.Took xs c'.line ∧ c'.hungUp = c.hungUp

theorem connOs_source (fuel : Nat) :
    Source (connOs fuel) (fun c => c.line.input) Conn.Took where
  refl c := ⟨(linkOs_source fuel).refl c.line, rfl⟩
  trans := by
    rintro c c' c'' xs ys ⟨h1, h2⟩ ⟨h3, h4⟩
    exact ⟨(linkOs_source fuel).trans h1 h3, h4.trans h2⟩
  front := by
    rintro c c' xs ⟨h, -⟩
    exact (linkOs_source fuel).front h
  select := by
    intro c tv h
    exact ⟨c, Prod.ext (if_pos (Or.inl h)) rfl, (linkOs_source fuel).refl c.line, rfl⟩
  recv := by
    intro c n h hn
    obtain ⟨b, l, hrecv, hb, ht⟩ := (linkOs_source fuel).recv h hn
    refine ⟨b, { c with line := l }, ?_, hb, ht, rfl⟩
    have hrecv' : c.line.recv n = (.ok b, l) := hrecv
    show c.recv n = _
    rw [Conn.recv, if_neg fun hend => h hend.1, hrecv']

end Posix
