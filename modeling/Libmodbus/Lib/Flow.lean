/-
Libmodbus/Lib/Flow.lean

A stream that ends, and the pieces in which it is read.

* `Flow os view` says that the system is a stream: `select` is always ready, and
  `recv n` takes between one and `n` bytes off the front of `view`, or none when
  nothing is left.  How many it takes is not said.  `pipeOs` is such a system,
  with an oracle for the sizes.
* `logOs os` is `os` with a record of every `recv`: the bytes that were asked
  for, and those that came.
* `Within max n reads` bounds a record.  Before every read, the bytes that have
  come and those that are asked for are at most `max`; so a buffer of `max`
  bytes is not overrun, and there are at most `max` reads that return something.
-/
import Libmodbus.Lib.Posix

namespace Posix

variable {σ : Type}

/-! ### Streams -/

/-- What can be read from the system is `view`, in pieces of any size, and then its end. -/
structure Flow (os : Os σ) (view : σ → List UInt8) : Prop where
  select : ∀ tv s, ∃ s', os.select tv s = (.ready, s') ∧ view s' = view s
  recv : ∀ {n : Nat} (s : σ), 0 < n → ∃ b s', os.recv n s = (.ok b, s') ∧
    view s = b ++ view s' ∧ (b = [] → view s = [])

/-- The line, with an end instead of a wait behind its last byte. -/
def Link.drain (n : Nat) (l : Link) : Except SysErrno (List UInt8) × Link :=
  (.ok (l.input.take (l.chunk n)),
    { l with input := l.input.drop (l.chunk n), split := fun k => l.split (k + 1) })

def pipeOs (fuel : Nat) : Os Link :=
  { linkOs fuel with
    select := fun _ l => (.ready, l)
    recv := Link.drain
    recv_length := by
      intro n l b l' h
      cases h
      have hchunk : l.chunk n ≤ n := Nat.min_le_left ..
      rw [List.length_take]
      omega }

theorem pipeOs_flow (fuel : Nat) : Flow (pipeOs fuel) Link.input where
  select _ l := ⟨l, rfl, rfl⟩
  recv := by
    intro n l hn
    refine ⟨_, _, rfl, (List.take_append_drop (l.chunk n) l.input).symm, ?_⟩
    intro h
    have hchunk : l.chunk n ≠ 0 := by
      unfold Link.chunk
      omega
    exact (List.take_eq_nil_iff.mp h).resolve_left hchunk

/-! ### Recording the reads -/

/-- A `recv`: how many bytes were asked for, and which came. -/
structure Read where
  asked : Nat
  got : List UInt8
  deriving DecidableEq, Repr

/-- A system and its reads so far, the first in front. -/
structure Logged (σ : Type) where
  os : σ
  reads : List Read

/-- A call that does not read. -/
def Logged.quiet {α : Type} (f : σ → α × σ) (r : Logged σ) : α × Logged σ :=
  ((f r.os).1, { r with os := (f r.os).2 })

theorem Logged.quiet_fst {α : Type} {f : σ → α × σ} {r r' : Logged σ} {a : α}
    (h : r.quiet f = (a, r')) : f r.os = (a, r'.os) := by
  obtain ⟨ha, hr⟩ := Prod.mk.inj h
  exact Prod.ext ha (congrArg Logged.os hr)

/-- The bytes of a read; a failed one has none. -/
def bytesOf (r : Except SysErrno (List UInt8)) : List UInt8 := r.toOption.getD []

def Logged.recv (os : Os σ) (n : Nat) (r : Logged σ) :
    Except SysErrno (List UInt8) × Logged σ :=
  ((os.recv n r.os).1, ⟨(os.recv n r.os).2, r.reads ++ [⟨n, bytesOf (os.recv n r.os).1⟩]⟩)

theorem Logged.recv_fst {os : Os σ} {n : Nat} {r r' : Logged σ}
    {res : Except SysErrno (List UInt8)} (h : r.recv os n = (res, r')) :
    os.recv n r.os = (res, r'.os) := by
  obtain ⟨hres, hr⟩ := Prod.mk.inj h
  exact Prod.ext hres (congrArg Logged.os hr)

def logOs (os : Os σ) : Os (Logged σ) where
  fuel := os.fuel
  select tv := Logged.quiet (os.select tv)
  recv := Logged.recv os
  recvDontwait n := Logged.quiet (os.recvDontwait n)
  tcflush := Logged.quiet os.tcflush
  send m := Logged.quiet (os.send m)
  sleep tv := Logged.quiet (os.sleep tv)
  close := Logged.quiet os.close
  connect := Logged.quiet os.connect
  recv_length h := os.recv_length (Logged.recv_fst h)
  recvDontwait_length h := os.recvDontwait_length (Logged.quiet_fst h)
  send_length h := os.send_length (Logged.quiet_fst h)

variable {os : Os σ} {view : σ → List UInt8}

theorem Flow.log_select (h : Flow os view) (tv : Option Timeval) (s : Logged σ) :
    ∃ s', (logOs os).select tv s = (.ready, s') ∧ view s'.os = view s.os ∧
      s'.reads = s.reads := by
  obtain ⟨s', hsel, hview⟩ := h.select tv s.os
  refine ⟨⟨s', s.reads⟩, ?_, hview, rfl⟩
  show Logged.quiet (os.select tv) s = _
  rw [Logged.quiet, hsel]

theorem Flow.log_recv (h : Flow os view) {n : Nat} (s : Logged σ) (hn : 0 < n) :
    ∃ b s', (logOs os).recv n s = (.ok b, s') ∧ view s.os = b ++ view s'.os ∧
      (b = [] → view s.os = []) ∧ s'.reads = s.reads ++ [⟨n, b⟩] := by
  obtain ⟨b, s', hrecv, hview, hend⟩ := h.recv s.os hn
  refine ⟨b, ⟨s', s.reads ++ [⟨n, b⟩]⟩, ?_, hview, hend, rfl⟩
  show Logged.recv os n s = _
  rw [Logged.recv, hrecv]
  rfl

/-! ### Bounds of a record -/

/-- The bytes that came. -/
def came (reads : List Read) : List UInt8 := reads.flatMap Read.got

@[simp] theorem came_cons (r : Read) (reads : List Read) : came (r :: reads) = r.got ++ came reads :=
  rfl

/-- With `n` bytes stored before, no read of the record asks for a byte behind the first `max`. -/
def Within (max n : Nat) (reads : List Read) : Prop :=
  ∀ before r after, reads = before ++ r :: after → n + (came before).length + r.asked ≤ max

variable {max n : Nat} {reads : List Read}

theorem within_nil : Within max n [] := by
  intro before r after h
  exact absurd h (by simp)

theorem within_cons {r : Read} (hr : n + r.asked ≤ max)
    (h : Within max (n + r.got.length) reads) : Within max n (r :: reads) := by
  intro before q after hsplit
  cases before with
  | nil =>
    obtain ⟨rfl, -⟩ := List.cons.inj hsplit
    exact hr
  | cons b before =>
    obtain ⟨rfl, hreads⟩ := List.cons.inj hsplit
    have hq := h before q after hreads
    rw [came_cons, List.length_append]
    omega

/-- The reads that return something. -/
def successful (reads : List Read) : List Read := reads.filter fun r => r.got ≠ []

/-- Every one of them brings a byte. -/
theorem length_successful_le (reads : List Read) :
    (successful reads).length ≤ (came reads).length := by
  induction reads with
  | nil => exact Nat.le_refl 0
  | cons r reads ih =>
    rw [came_cons, List.length_append, successful, List.filter_cons]
    split
    next h =>
      have hgot : r.got ≠ [] := by simpa using h
      have hpos := List.length_pos_of_ne_nil hgot
      change (successful reads).length + 1 ≤ r.got.length + (came reads).length
      omega
    next => exact ih.trans (Nat.le_add_left _ _)

end Posix
