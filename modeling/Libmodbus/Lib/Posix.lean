/-
Libmodbus/Lib/Posix.lean

A descriptor as a program sees it.  `Os σ` is the set of system calls a
program makes on one descriptor, as functions on a state `σ` that the program
cannot look into: theorems that quantify over `Os σ` and `σ` hold whatever the
system, the peer and the line do.

Two instruments make reading tractable.

* `Link` and `linkOs` are a lossless line: bytes are read in order, in pieces
  whose sizes are chosen by an arbitrary oracle.
* `Source os view took` says of any system that the bytes `view s` can be read
  off without waiting; `took s xs s'` is what the system says about its state
  after the bytes `xs` have been read.  Code that reads is verified once, over
  `Source`, for all such systems and all ways of splitting the bytes.
-/
import Libmodbus.Lib.C

namespace Posix

inductive SysErrno
  | EINTR | EAGAIN | EBADF | EINVAL | EPIPE | ECONNRESET | ECONNREFUSED | ETIMEDOUT | EOVERFLOW
  /-- Any other code of the system. -/
  | other (n : Nat)
  deriving DecidableEq, Repr

structure Timeval where
  sec : Nat
  usec : Nat
  deriving DecidableEq, Repr

/-- What `select` says: data to read, time is over, or an error. -/
inductive Readiness
  | ready
  | timeout
  | failed (e : SysErrno)
  deriving DecidableEq, Repr

/-- The system calls on one descriptor. -/
structure Os (σ : Type) where
  /-- How often a loop that retries a system call is followed before the run is given up. -/
  fuel : Nat
  select : Option Timeval → σ → Readiness × σ
  /-- The bytes read, none at the end of the stream. -/
  recv : Nat → σ → Except SysErrno (List UInt8) × σ
  /-- `recv` with `MSG_DONTWAIT`. -/
  recvDontwait : Nat → σ → Except SysErrno (List UInt8) × σ
  /-- `tcflush (_, TCIOFLUSH)`, with the error if it fails. -/
  tcflush : σ → Option SysErrno × σ
  /-- `send` or `write`, with the number of bytes taken. -/
  send : List UInt8 → σ → Except SysErrno Nat × σ
  /-- A sleep, with what it leaves in `errno` when it touches it. -/
  sleep : Timeval → σ → Option SysErrno × σ
  close : σ → Option SysErrno × σ
  /-- A new connection: the descriptor, and what is left in `errno` when it is touched. -/
  connect : σ → (Option Nat × Option SysErrno) × σ
  recv_length : ∀ {n s b s'}, recv n s = (.ok b, s') → b.length ≤ n
  recvDontwait_length : ∀ {n s b s'}, recvDontwait n s = (.ok b, s') → b.length ≤ n
  send_length : ∀ {m s n s'}, send m s = (.ok n, s') → n ≤ m.length

variable {σ : Type}

/-- No signal interrupts `select`, and a loop that retries may make a turn. -/
structure Prompt (os : Os σ) : Prop where
  turn : 0 < os.fuel
  select : ∀ {tv s s'}, os.select tv s ≠ (.failed .EINTR, s')

/-! ### Bytes that can be read without waiting -/

/-- In every state, the bytes `view s` can be read: `select` reports them and `recv` takes a
non-empty piece of what was asked for. -/
structure Source (os : Os σ) (view : σ → List UInt8) (took : σ → List UInt8 → σ → Prop) :
    Prop where
  refl : ∀ s, took s [] s
  trans : ∀ {s s' s'' xs ys}, took s xs s' → took s' ys s'' → took s (xs ++ ys) s''
  /-- Reading takes bytes from the front; others may arrive behind. -/
  front : ∀ {s s' xs}, took s xs s' → ∃ more, view s ++ more = xs ++ view s'
  select : ∀ {s} tv, view s ≠ [] → ∃ s', os.select tv s = (.ready, s') ∧ took s [] s'
  recv : ∀ {s n}, view s ≠ [] → 0 < n → ∃ b s', os.recv n s = (.ok b, s') ∧ b ≠ [] ∧ took s b s'

/-- The first `n` bytes of a source: one `select` and one `recv` take a part of them and leave
the rest in front. -/
theorem Source.piece {os : Os σ} {view : σ → List UInt8} {took : σ → List UInt8 → σ → Prop}
    (h : Source os view took) (tv : Option Timeval) {s : σ} {xs rest : List UInt8}
    (hne : xs ≠ []) (hv : view s = xs ++ rest) :
    ∃ s₁ b s₂ ys more, os.select tv s = (.ready, s₁) ∧ os.recv xs.length s₁ = (.ok b, s₂) ∧
      b ≠ [] ∧ took s b s₂ ∧ xs = b ++ ys ∧ view s₂ = ys ++ more := by
  have hv0 : view s ≠ [] := by simp [hv, hne]
  obtain ⟨s₁, hsel, ht₁⟩ := h.select tv hv0
  obtain ⟨m₁, hm₁⟩ := h.front ht₁
  have hv1 : view s₁ = xs ++ (rest ++ m₁) := by
    rw [← List.append_assoc, ← hv, hm₁, List.nil_append]
  obtain ⟨b, s₂, hrecv, hb, ht₂⟩ :=
    h.recv (s := s₁) (by simp [hv1, hne]) (List.length_pos_of_ne_nil hne)
  obtain ⟨m₂, hm₂⟩ := h.front ht₂
  have hlen := os.recv_length hrecv
  rw [hv1, List.append_assoc] at hm₂
  obtain ⟨ys, hys, hmore⟩ : ∃ ys, xs = b ++ ys ∧ ys ++ ((rest ++ m₁) ++ m₂) = view s₂ := by
    rcases List.append_eq_append_iff.mp hm₂ with ⟨ys, h1, h2⟩ | ⟨ys, h1, h2⟩
    · have : ys = [] := by
        have := congrArg List.length h1
        simp only [List.length_append] at this
        exact List.length_eq_zero_iff.mp (by omega)
      subst this
      exact ⟨[], by simpa using h1.symm, by simpa using h2⟩
    · exact ⟨ys, h1, h2.symm⟩
  have ht : took s b s₂ := by simpa using h.trans ht₁ ht₂
  exact ⟨s₁, b, s₂, ys, _, hsel, hrecv, hb, ht, hys, hmore.symm⟩

/-! ### Bytes that have been read -/

/-- Whatever the system does, `took s xs s'` holds after calls that have read `xs`: nothing is
said about which calls succeed. -/
structure Tracked (os : Os σ) (took : σ → List UInt8 → σ → Prop) : Prop where
  refl : ∀ s, took s [] s
  trans : ∀ {s s' s'' xs ys}, took s xs s' → took s' ys s'' → took s (xs ++ ys) s''
  select : ∀ {s tv r s'}, os.select tv s = (r, s') → took s [] s'
  recv : ∀ {s n b s'}, os.recv n s = (.ok b, s') → took s b s'

theorem tracked_any (os : Os σ) : Tracked os fun _ _ _ => True :=
  ⟨fun _ => trivial, fun _ _ => trivial, fun _ => trivial, fun _ => trivial⟩

/-- Sleeping and throwing input away keep `P`. -/
structure Drains (os : Os σ) (P : σ → Prop) : Prop where
  sleep : ∀ {tv s}, P s → P (os.sleep tv s).2
  recvDontwait : ∀ {n s}, P s → P (os.recvDontwait n s).2
  tcflush : ∀ {s}, P s → P (os.tcflush s).2

theorem Drains.and {os : Os σ} {P Q : σ → Prop} (hp : Drains os P) (hq : Drains os Q) :
    Drains os fun s => P s ∧ Q s where
  sleep h := ⟨hp.sleep h.1, hq.sleep h.2⟩
  recvDontwait h := ⟨hp.recvDontwait h.1, hq.recvDontwait h.2⟩
  tcflush h := ⟨hp.tcflush h.1, hq.tcflush h.2⟩

/-! ### A lossless line -/

/-- One end of a line: the bytes that have arrived and are not read, the messages written so
far, and the oracle that decides how many bytes each `recv` returns. -/
structure Link where
  input : List UInt8
  output : List (List UInt8)
  split : Nat → Nat

/-- How many bytes the next `recv n` asks the line for: at least one, at most `n`. -/
def Link.chunk (l : Link) (n : Nat) : Nat := min n (max 1 (l.split 0))

def Link.recv (n : Nat) (l : Link) : Except SysErrno (List UInt8) × Link :=
  if l.input = [] then (.error .EAGAIN, l)
  else (.ok (l.input.take (l.chunk n)),
    { l with input := l.input.drop (l.chunk n), split := fun k => l.split (k + 1) })

theorem Link.recv_of_ne {l : Link} (n : Nat) (h : l.input ≠ []) :
    l.recv n = (.ok (l.input.take (l.chunk n)),
      { l with input := l.input.drop (l.chunk n), split := fun k => l.split (k + 1) }) := if_neg h

theorem Link.recv_length {n : Nat} {l l' : Link} {b : List UInt8}
    (h : l.recv n = (.ok b, l')) : b.length ≤ n := by
  unfold Link.recv at h
  split at h
  · simp at h
  · obtain ⟨rfl, -⟩ := Prod.mk.inj h |>.imp_left Except.ok.inj
    have : l.chunk n ≤ n := Nat.min_le_left ..
    simp only [List.length_take]
    omega

/-- The line: nothing fails, `select` times out when no byte is there. -/
def linkOs (fuel : Nat) : Os Link where
  fuel := fuel
  select _ l := (if l.input = [] then .timeout else .ready, l)
  recv := Link.recv
  recvDontwait := Link.recv
  tcflush l := (none, { l with input := [] })
  send m l := (.ok m.length, { l with output := l.output ++ [m] })
  sleep _ l := (none, l)
  close l := (none, l)
  connect l := ((some 0, none), l)
  recv_length := Link.recv_length
  recvDontwait_length := Link.recv_length
  send_length := by
    intro m s n s' h
    cases h
    exact Nat.le_refl _

/-- After reading `xs` the line has the rest in front, and nothing was written. -/
def Link.Took (l : Link) (xs : List UInt8) (l' : Link) : Prop :=
  l.input = xs ++ l'.input ∧ l'.output = l.output

/-- No signal arrives on a line. -/
theorem linkOs_prompt {fuel : Nat} (hf : 0 < fuel) : Prompt (linkOs fuel) where
  turn := hf
  select := by
    intro tv l l' h
    by_cases hin : l.input = []
    · rw [show (linkOs fuel).select tv l = (.timeout, l) from Prod.ext (if_pos hin) rfl] at h
      cases h
    · rw [show (linkOs fuel).select tv l = (.ready, l) from Prod.ext (if_neg hin) rfl] at h
      cases h

theorem linkOs_source (fuel : Nat) : Source (linkOs fuel) Link.input Link.Took where
  refl l := ⟨rfl, rfl⟩
  trans := by
    rintro l l' l'' xs ys ⟨h1, h2⟩ ⟨h3, h4⟩
    exact ⟨by rw [h1, h3, List.append_assoc], h4.trans h2⟩
  front := by
    rintro l l' xs ⟨h, -⟩
    exact ⟨[], by simpa using h⟩
  select := by
    intro l tv h
    exact ⟨l, by simp [linkOs, h], rfl, rfl⟩
  recv := by
    intro l n h hn
    refine ⟨_, _, Link.recv_of_ne n h, ?_, ?_, rfl⟩
    · have hc : 0 < l.chunk n := by unfold Link.chunk; omega
      have := List.length_pos_of_ne_nil h
      apply List.ne_nil_of_length_pos
      simp only [List.length_take]
      omega
    · exact (List.take_append_drop _ _).symm

theorem linkOs_tracked (fuel : Nat) : Tracked (linkOs fuel) Link.Took where
  refl := (linkOs_source fuel).refl
  trans := (linkOs_source fuel).trans
  select := by
    intro l tv r l' h
    obtain ⟨-, rfl⟩ := Prod.mk.inj h
    exact ⟨rfl, rfl⟩
  recv := by
    intro l n b l' h
    by_cases hne : l.input = []
    · simp [linkOs, Link.recv, hne] at h
    · have h' := (Link.recv_of_ne n hne).symm.trans h
      obtain ⟨hb, rfl⟩ := Prod.mk.inj h'
      cases hb
      exact ⟨(List.take_append_drop _ _).symm, rfl⟩

theorem Link.recv_output (n : Nat) (l : Link) : (l.recv n).2.output = l.output := by
  by_cases h : l.input = []
  · rw [Link.recv, if_pos h]
  · rw [l.recv_of_ne n h]

theorem Link.recv_nil {n : Nat} {l : Link} (h : l.input = []) : l.recv n = (.error .EAGAIN, l) :=
  if_pos h

/-- What was written stays written. -/
theorem linkOs_drains_output (fuel : Nat) (output : List (List UInt8)) :
    Drains (linkOs fuel) fun l => l.output = output where
  sleep h := h
  recvDontwait := by
    intro n l h
    exact (l.recv_output n).trans h
  tcflush h := h

/-- An empty line stays empty. -/
theorem linkOs_drains_input (fuel : Nat) : Drains (linkOs fuel) fun l => l.input = [] where
  sleep h := h
  recvDontwait := by
    intro n l h
    show (l.recv n).2.input = []
    rw [Link.recv_nil h, h]
  tcflush _ := rfl

/-! ### A line with a peer -/

/-- One end of a lossless line, with what is at the other end. -/
structure Peered (δ : Type) where
  line : Link
  peer : δ

variable {δ : Type}

/-- A call that concerns the line alone. -/
def Peered.onLine {α : Type} (f : Link → α × Link) (p : Peered δ) : α × Peered δ :=
  ((f p.line).1, { p with line := (f p.line).2 })

/-- A message reaches the peer at once, and what the peer answers is on the line. -/
def Peered.send (react : List UInt8 → δ → List UInt8 × δ) (m : List UInt8) (p : Peered δ) :
    Peered δ where
  line := { p.line with
    input := p.line.input ++ (react m p.peer).1
    output := p.line.output ++ [m] }
  peer := (react m p.peer).2

/-- The line to a peer that answers messages by `react`. -/
def peerOs (fuel : Nat) (react : List UInt8 → δ → List UInt8 × δ) : Os (Peered δ) where
  fuel := fuel
  select tv := Peered.onLine ((linkOs fuel).select tv)
  recv n := Peered.onLine (Link.recv n)
  recvDontwait n := Peered.onLine (Link.recv n)
  tcflush := Peered.onLine (linkOs fuel).tcflush
  send m p := (.ok m.length, p.send react m)
  sleep tv := Peered.onLine ((linkOs fuel).sleep tv)
  close := Peered.onLine (linkOs fuel).close
  connect := Peered.onLine (linkOs fuel).connect
  recv_length := by
    intro n p b p' h
    have h1 : (Link.recv n p.line).1 = .ok b := congrArg Prod.fst h
    exact Link.recv_length (Prod.ext h1 rfl : Link.recv n p.line = (_, (Link.recv n p.line).2))
  recvDontwait_length := by
    intro n p b p' h
    have h1 : (Link.recv n p.line).1 = .ok b := congrArg Prod.fst h
    exact Link.recv_length (Prod.ext h1 rfl : Link.recv n p.line = (_, (Link.recv n p.line).2))
  send_length := by
    intro m p n p' h
    cases h
    exact Nat.le_refl _

/-- Reading from the line leaves the peer alone. -/
def Peered.Took (p : Peered δ) (xs : List UInt8) (p' : Peered δ) : Prop :=
  p.line.Took xs p'.line ∧ p'.peer = p.peer

theorem peerOs_source (fuel : Nat) (react : List UInt8 → δ → List UInt8 × δ) :
    Source (peerOs fuel react) (fun p => p.line.input) Peered.Took where
  refl p := ⟨(linkOs_source fuel).refl p.line, rfl⟩
  trans := by
    rintro p p' p'' xs ys ⟨h1, h2⟩ ⟨h3, h4⟩
    exact ⟨(linkOs_source fuel).trans h1 h3, h4.trans h2⟩
  front := by
    rintro p p' xs ⟨h, -⟩
    exact (linkOs_source fuel).front h
  select := by
    intro p tv h
    obtain ⟨l, hsel, ht⟩ := (linkOs_source fuel).select tv h
    refine ⟨{ p with line := l }, ?_, ht, rfl⟩
    show Peered.onLine ((linkOs fuel).select tv) p = _
    rw [Peered.onLine, hsel]
  recv := by
    intro p n h hn
    obtain ⟨b, l, hrecv, hb, ht⟩ := (linkOs_source fuel).recv h hn
    refine ⟨b, { p with line := l }, ?_, hb, ht, rfl⟩
    show Peered.onLine ((linkOs fuel).recv n) p = _
    rw [Peered.onLine, hrecv]

end Posix
