/-
Libmodbus/Win32.lean

The receive buffer that stands in for `select` on Windows.  `win32_ser_select`
reads from the port into the buffer when it is empty, `win32_ser_read` copies
from its front.

    stream   0 1 2 3 4 5 6 7 8 ...
             `-- returned --´`-- buf, n_bytes --´
                                               `-- pos

What is copied is not moved out of the way: after a read that leaves something
in the buffer, the next one starts at its front again.  So the buffer is a FIFO
exactly as long as no read comes after such a one (`Whole`).
-/
import Libmodbus.Lib.Posix
import Libmodbus.Lib.Runs

namespace Libmodbus

open CSem Posix

/-! ### The port -/

/-- What arrives on the port, and how many bytes `ReadFile` gives when it is called for the `i`th
time: at most as many as it is asked for, `none` when it fails. -/
structure SerialPort where
  stream : Nat → UInt8
  amount : Nat → Option Nat

/-- `PY_BUF_SIZE` -/
def pyBufSize : Nat := 512

/-- `struct win32_ser` -/
structure Win32Ser where
  buf : List UInt8
  nBytes : Nat

/-- The buffer and the port: the timeout that was set last, how often it has been read from, and
how many bytes it has given. -/
structure Serial where
  ws : Win32Ser
  commTimeout : Nat
  calls : Nat
  pos : Nat

/-- `n` bytes of the stream, from `i` on. -/
def slice (stream : Nat → UInt8) (i n : Nat) : List UInt8 := (List.range' i n).map stream

/-- `win32_ser_init` -/
def win32SerInit : Serial := ⟨⟨List.replicate pyBufSize 0, 0⟩, 0, 0, 0⟩

/-- The timeout in milliseconds, in an `unsigned int`; `MAXDWORD` when there is none. -/
def commTimeouts : Option Timeval → Nat
  | none => 4294967295
  | some tv => max 1 ((tv.sec * 1000 + tv.usec / 1000) % 4294967296)

/-- How many bytes are asked for at most. -/
def clampLen (maxLen : Int) : Nat :=
  if (pyBufSize : Int) < maxLen ∨ maxLen < 0 then pyBufSize else maxLen.toNat

/-- How many bytes come when the port is read for the `i`th time. -/
def SerialPort.gives (amount : Nat → Option Nat) (i : Nat) (maxLen : Int) : Nat :=
  min (clampLen maxLen) ((amount i).getD 0)

/-- `SetCommTimeouts` and `ReadFile`, into an empty buffer. -/
def readFile (port : SerialPort) (s : Serial) (maxLen : Int) (tv : Option Timeval) : Serial :=
  let n := SerialPort.gives port.amount s.calls maxLen
  { ws := ⟨slice port.stream s.pos n ++ s.ws.buf.drop n, n⟩
    commTimeout := commTimeouts tv
    calls := s.calls + 1
    pos := s.pos + n }

/-- `win32_ser_select` -/
def win32SerSelect (port : SerialPort) (s : Serial) (maxLen : Int) (tv : Option Timeval) :
    Int × Serial :=
  -- check if some data still in the buffer to be consumed
  if 0 < s.ws.nBytes then (1, s)
  else if port.amount s.calls = none then (-1, readFile port s maxLen tv)
  else if 0 < (readFile port s maxLen tv).ws.nBytes then (1, readFile port s maxLen tv)
  else (0, readFile port s maxLen tv)

/-- `win32_ser_read`, with the bytes that are copied; it returns how many they are. -/
def win32SerRead (s : Serial) (maxLen : Nat) : List UInt8 × Serial :=
  let n := min s.ws.nBytes maxLen
  (s.ws.buf.take n, { s with ws := { s.ws with nBytes := s.ws.nBytes - n } })

/-! ### Runs -/

inductive SerialCall
  | select (maxLen : Int) (tv : Option Timeval)
  | read (maxLen : Nat)

/-- One call, and the bytes it returns. -/
def serialStep (port : SerialPort) : SerialCall → Serial → List UInt8 × Serial
  | .select maxLen tv, s => ([], (win32SerSelect port s maxLen tv).2)
  | .read maxLen, s => win32SerRead s maxLen

/-- All bytes that the reads return. -/
def returned (port : SerialPort) (calls : List SerialCall) (s : Serial) : List UInt8 :=
  (specRuns (serialStep port) calls s).1.flatten

namespace SerialCall

def IsRead : SerialCall → Prop
  | select .. => False
  | read _ => True

/-- The lengths are positive. -/
def Positive : SerialCall → Prop
  | select maxLen _ => 0 < maxLen
  | read maxLen => 0 < maxLen

end SerialCall

/-- No read comes after one that leaves something in the buffer; `n` bytes are in it, and the port
has been read `i` times. -/
def Whole (amount : Nat → Option Nat) : List SerialCall → Nat → Nat → Prop
  | [], _, _ => True
  | .select maxLen _ :: calls, i, n =>
    if 0 < n then Whole amount calls i n
    else Whole amount calls (i + 1) (SerialPort.gives amount i maxLen)
  | .read maxLen :: calls, i, n =>
    (n ≤ maxLen ∨ ∀ c ∈ calls, ¬ c.IsRead) ∧ Whole amount calls i (n - maxLen)

/-! ### The buffer in the stream -/

variable {port : SerialPort} {s : Serial} {r : Nat}

/-- After `r` bytes have been returned: the buffer holds the next ones of the stream. -/
structure Buffers (port : SerialPort) (s : Serial) (r : Nat) : Prop where
  front : s.ws.buf.take s.ws.nBytes = slice port.stream r s.ws.nBytes
  pos : s.pos = r + s.ws.nBytes

theorem length_slice (stream : Nat → UInt8) (i n : Nat) : (slice stream i n).length = n := by
  rw [slice, List.length_map, List.length_range']

theorem slice_append (stream : Nat → UInt8) (i n m : Nat) :
    slice stream i n ++ slice stream (i + n) m = slice stream i (n + m) := by
  have h : List.range' i n ++ List.range' (i + 1 * n) m = List.range' i (n + m) :=
    List.range'_append
  rw [Nat.one_mul] at h
  rw [slice, slice, slice, ← List.map_append, h]

theorem take_slice (stream : Nat → UInt8) (i : Nat) {n m : Nat} (h : m ≤ n) :
    (slice stream i n).take m = slice stream i m := by
  have hsplit := slice_append stream i m (n - m)
  rw [Nat.add_sub_cancel' h] at hsplit
  rw [← hsplit]
  exact List.take_left' (length_slice stream i m)

theorem buffers_init (port : SerialPort) : Buffers port win32SerInit 0 := ⟨rfl, rfl⟩

theorem win32SerSelect_snd (port : SerialPort) (s : Serial) (maxLen : Int) (tv : Option Timeval) :
    (win32SerSelect port s maxLen tv).2 =
      if 0 < s.ws.nBytes then s else readFile port s maxLen tv := by
  unfold win32SerSelect
  split_ifs <;> rfl

theorem buffers_readFile (h : Buffers port s r) (hn : s.ws.nBytes = 0) (maxLen : Int)
    (tv : Option Timeval) : Buffers port (readFile port s maxLen tv) r := by
  have hpos : s.pos = r := by rw [h.pos, hn, Nat.add_zero]
  refine ⟨?_, congrArg (· + SerialPort.gives port.amount s.calls maxLen) hpos⟩
  rw [readFile, hpos]
  exact List.take_left' (length_slice _ _ _)

theorem buffers_select (h : Buffers port s r) (maxLen : Int) (tv : Option Timeval) :
    Buffers port (win32SerSelect port s maxLen tv).2 r := by
  rw [win32SerSelect_snd]
  split_ifs with hn
  · exact h
  · exact buffers_readFile h (Nat.eq_zero_of_not_pos hn) maxLen tv

/-- A read that takes everything. -/
theorem buffers_read (h : Buffers port s r) {maxLen : Nat} (hle : s.ws.nBytes ≤ maxLen) :
    (win32SerRead s maxLen).1 = slice port.stream r s.ws.nBytes ∧
      Buffers port (win32SerRead s maxLen).2 (r + s.ws.nBytes) := by
  have hmin : min s.ws.nBytes maxLen = s.ws.nBytes := Nat.min_eq_left hle
  rw [win32SerRead, hmin]
  refine ⟨h.front, ?_, ?_⟩
  · show s.ws.buf.take (s.ws.nBytes - s.ws.nBytes) = slice _ _ (s.ws.nBytes - s.ws.nBytes)
    rw [Nat.sub_self]
    rfl
  · show s.pos = r + s.ws.nBytes + (s.ws.nBytes - s.ws.nBytes)
    rw [h.pos, Nat.sub_self]
    rfl

/-- A read takes the front of the buffer, in any case. -/
theorem read_front (h : Buffers port s r) {maxLen : Nat} (hle : maxLen ≤ s.ws.nBytes) :
    (win32SerRead s maxLen).1 = slice port.stream r maxLen := by
  have hmin : min s.ws.nBytes maxLen = maxLen := Nat.min_eq_right hle
  rw [win32SerRead, hmin, ← take_slice port.stream r hle, ← h.front, List.take_take,
    Nat.min_eq_left hle]

/-! ### Whole runs -/

variable {calls : List SerialCall}

theorem returned_select (port : SerialPort) (maxLen : Int) (tv : Option Timeval) (s : Serial) :
    returned port (.select maxLen tv :: calls) s =
      returned port calls (win32SerSelect port s maxLen tv).2 := rfl

theorem returned_read (port : SerialPort) (maxLen : Nat) (s : Serial) :
    returned port (.read maxLen :: calls) s =
      (win32SerRead s maxLen).1 ++ returned port calls (win32SerRead s maxLen).2 := rfl

/-- Nothing is returned without a read. -/
theorem returned_of_no_read (h : ∀ c ∈ calls, ¬ c.IsRead) (s : Serial) : returned port calls s = [] := by
  induction calls generalizing s with
  | nil => rfl
  | cons c calls ih =>
    cases c with
    | select maxLen tv =>
      rw [returned_select]
      exact ih (fun c hc => h c (List.mem_cons_of_mem _ hc)) _
    | read maxLen => exact absurd trivial (h _ List.mem_cons_self)

/-- The next bytes of the stream come back, in order. -/
theorem returned_of_whole (hs : Buffers port s r)
    (h : Whole port.amount calls s.calls s.ws.nBytes) :
    returned port calls s = slice port.stream r (returned port calls s).length := by
  induction calls generalizing s r with
  | nil => rfl
  | cons c calls ih =>
    cases c with
    | select maxLen tv =>
      rw [returned_select]
      refine ih (buffers_select hs maxLen tv) ?_
      rw [Whole] at h
      rw [win32SerSelect_snd]
      split_ifs at h ⊢
      · exact h
      · exact h
    | read maxLen =>
      obtain ⟨hwhole | hlast, hrest⟩ := h
      · obtain ⟨hread, hbuffers⟩ := buffers_read hs hwhole
        have hn : (win32SerRead s maxLen).2.ws.nBytes = s.ws.nBytes - maxLen := by
          show s.ws.nBytes - min s.ws.nBytes maxLen = s.ws.nBytes - maxLen
          omega
        have hnext := ih hbuffers (hn ▸ hrest)
        rw [returned_read, hread, List.length_append, length_slice, ← slice_append, ← hnext]
      · rw [returned_read, returned_of_no_read hlast, List.append_nil]
        rcases Nat.le_total s.ws.nBytes maxLen with hle | hle
        · rw [(buffers_read hs hle).1, length_slice]
        · rw [read_front hs hle, length_slice]

/-! ### Runs that are not whole -/

theorem whole_of_no_read {amount : Nat → Option Nat} (h : ∀ c ∈ calls, ¬ c.IsRead) (i n : Nat) :
    Whole amount calls i n := by
  induction calls generalizing i n with
  | nil => trivial
  | cons c calls ih =>
    have hrest : ∀ c ∈ calls, ¬ c.IsRead := fun c hc => h c (List.mem_cons_of_mem _ hc)
    cases c with
    | select maxLen tv =>
      rw [Whole]
      split_ifs
      · exact ih hrest i n
      · exact ih hrest _ _
    | read maxLen => exact absurd trivial (h _ List.mem_cons_self)

/-- As long as something is in the buffer, the next read starts at its front. -/
theorem returned_front (hfront : s.ws.buf.take s.ws.nBytes = slice port.stream r s.ws.nBytes)
    (hn : 0 < s.ws.nBytes) (hpos : ∀ c ∈ calls, c.Positive) (hread : ∃ c ∈ calls, c.IsRead) :
    (returned port calls s)[0]? = some (port.stream r) := by
  induction calls with
  | nil => simp at hread
  | cons c calls ih =>
    cases c with
    | select maxLen tv =>
      rw [returned_select, win32SerSelect_snd, if_pos hn]
      obtain ⟨c, hc, hcread⟩ := hread
      rcases List.mem_cons.mp hc with rfl | hc
      · exact hcread.elim
      · exact ih (fun c hc => hpos c (List.mem_cons_of_mem _ hc)) ⟨c, hc, hcread⟩
    | read maxLen =>
      have hlen : 0 < maxLen := hpos _ List.mem_cons_self
      have hmin : 0 < min s.ws.nBytes maxLen := by omega
      have hout : (win32SerRead s maxLen).1 = slice port.stream r (min s.ws.nBytes maxLen) := by
        rw [win32SerRead, ← take_slice port.stream r (Nat.min_le_left s.ws.nBytes maxLen), ← hfront,
          List.take_take, Nat.min_eq_left (Nat.min_le_left s.ws.nBytes maxLen)]
      rw [returned_read, hout, List.getElem?_append_left (by rw [length_slice]; exact hmin), slice,
        List.getElem?_map, List.getElem?_range' hmin]
      rfl

/-- A byte comes back `d` places too late, wherever the stream came from. -/
theorem returned_of_not_whole {amount : Nat → Option Nat} (hpos : ∀ c ∈ calls, c.Positive)
    {i n : Nat} (h : ¬ Whole amount calls i n) (r : Nat) : ∃ p d, r ≤ p ∧ 0 < d ∧
      ∀ stream s, Buffers ⟨stream, amount⟩ s r → s.calls = i → s.ws.nBytes = n →
        (returned ⟨stream, amount⟩ calls s)[p + d - r]? = some (stream p) := by
  induction calls generalizing i n r with
  | nil => exact absurd trivial h
  | cons c calls ih =>
    have hpos' : ∀ c ∈ calls, c.Positive := fun c hc => hpos c (List.mem_cons_of_mem _ hc)
    cases c with
    | select maxLen tv =>
      rw [Whole] at h
      by_cases hn : 0 < n
      · -- there are bytes in the buffer, and nothing is read from the port
        rw [if_pos hn] at h
        obtain ⟨p, d, hp, hd, hmis⟩ := ih hpos' h r
        refine ⟨p, d, hp, hd, fun stream s hs hi hns => ?_⟩
        rw [returned_select, win32SerSelect_snd, if_pos (hns ▸ hn)]
        exact hmis stream s hs hi hns
      · rw [if_neg hn] at h
        obtain ⟨p, d, hp, hd, hmis⟩ := ih hpos' h r
        refine ⟨p, d, hp, hd, fun stream s hs hi hns => ?_⟩
        have hs' := buffers_select hs maxLen tv
        rw [returned_select, win32SerSelect_snd, if_neg (hns ▸ hn)]
        rw [win32SerSelect_snd, if_neg (hns ▸ hn)] at hs'
        refine hmis stream _ hs' (congrArg (· + 1) hi) ?_
        show SerialPort.gives amount s.calls maxLen = _
        rw [hi]
    | read maxLen =>
      by_cases hle : n ≤ maxLen
      · -- nothing is left, and the mistake comes later
        have hrest : ¬ Whole amount calls i (n - maxLen) := fun hw => h ⟨Or.inl hle, hw⟩
        obtain ⟨p, d, hp, hd, hmis⟩ := ih hpos' hrest (r + n)
        refine ⟨p, d, by omega, hd, fun stream s hs hi hns => ?_⟩
        obtain ⟨hread, hbuffers⟩ := buffers_read hs (show s.ws.nBytes ≤ maxLen by omega)
        have hns' : (win32SerRead s maxLen).2.ws.nBytes = n - maxLen := by
          show s.ws.nBytes - min s.ws.nBytes maxLen = n - maxLen
          omega
        rw [hns] at hbuffers
        have hget := hmis stream (win32SerRead s maxLen).2 hbuffers hi hns'
        rw [returned_read, hread, List.getElem?_append_right (by rw [length_slice]; omega),
          length_slice, ← hget]
        congr 1
        omega
      · -- something is left, and there is another read
        have hread : ∃ c ∈ calls, c.IsRead := by
          by_contra hnone
          have hall : ∀ c ∈ calls, ¬ c.IsRead := fun c hc hcread => hnone ⟨c, hc, hcread⟩
          exact h ⟨Or.inr hall, whole_of_no_read hall _ _⟩
        have hlen : 0 < maxLen := hpos _ List.mem_cons_self
        refine ⟨r, maxLen, Nat.le_refl r, hlen, fun stream s hs hi hns => ?_⟩
        have hle' : maxLen ≤ s.ws.nBytes := by omega
        have hmin : min s.ws.nBytes maxLen = maxLen := Nat.min_eq_right hle'
        have hfront : (win32SerRead s maxLen).2.ws.buf.take (win32SerRead s maxLen).2.ws.nBytes =
            slice stream r (win32SerRead s maxLen).2.ws.nBytes := by
          show s.ws.buf.take (s.ws.nBytes - min s.ws.nBytes maxLen) =
            slice stream r (s.ws.nBytes - min s.ws.nBytes maxLen)
          rw [← take_slice stream r (Nat.sub_le s.ws.nBytes (min s.ws.nBytes maxLen)), ← hs.front,
            List.take_take, Nat.min_eq_left (Nat.sub_le _ _)]
        have hleft : 0 < (win32SerRead s maxLen).2.ws.nBytes := by
          show 0 < s.ws.nBytes - min s.ws.nBytes maxLen
          omega
        have hget : (returned ⟨stream, amount⟩ calls (win32SerRead s maxLen).2)[0]? =
            some (stream r) := returned_front hfront hleft hpos' hread
        rw [returned_read, read_front hs hle', Nat.add_sub_cancel_left,
          List.getElem?_append_right (by rw [length_slice]), length_slice, Nat.sub_self]
        exact hget

/-- What is returned is a prefix of the stream. -/
def Fifo (port : SerialPort) (calls : List SerialCall) : Prop :=
  returned port calls win32SerInit =
    slice port.stream 0 (returned port calls win32SerInit).length

/-- **The buffer is a FIFO exactly as long as no read comes after one that leaves something in
it.** -/
theorem fifo_iff_whole (amount : Nat → Option Nat) {calls : List SerialCall}
    (hpos : ∀ c ∈ calls, c.Positive) :
    (∀ stream, Fifo ⟨stream, amount⟩ calls) ↔ Whole amount calls 0 0 := by
  constructor
  · intro h
    by_contra hwhole
    obtain ⟨p, d, -, hd, hmis⟩ := returned_of_not_whole hpos hwhole 0
    -- a stream in which the byte that is late is not the one that should be there
    have hget := hmis (fun i => if i = p then 1 else 0) win32SerInit (buffers_init _) rfl rfl
    have hfifo := h fun i => if i = p then 1 else 0
    rw [Fifo] at hfifo
    rw [hfifo, if_pos rfl, slice, List.getElem?_map] at hget
    obtain ⟨j, hj, hone⟩ := Option.map_eq_some_iff.mp hget
    have hj' : j = p + d := by
      rw [List.getElem?_eq_some_iff] at hj
      obtain ⟨hlt, hj⟩ := hj
      rw [List.getElem_range'] at hj
      omega
    rw [hj'] at hone
    have hzero : (if p + d = p then (1 : UInt8) else 0) = 0 := if_neg (by omega)
    exact absurd (hzero.symm.trans hone) (by decide)
  · intro hwhole stream
    exact returned_of_whole (buffers_init ⟨stream, amount⟩) hwhole

theorem fifo_iff_whole_sample :
    (∀ stream, Fifo ⟨stream, fun _ => some 8⟩ [.select 8 none, .read 8]) ↔
      Whole (fun _ => some 8) [.select 8 none, .read 8] 0 0 :=
  fifo_iff_whole (fun _ => some 8) (by
    intro c hc
    rcases List.mem_cons.mp hc with rfl | hc
    · exact (by decide : (0 : Int) < 8)
    · rw [List.mem_singleton.mp hc]
      exact (by decide : 0 < 8))

/-- A read of two bytes, and then of the others: the first two come again. -/
theorem partial_read_repeats :
    ¬ ∀ (port : SerialPort) (calls : List SerialCall), (∀ c ∈ calls, c.Positive) →
      Fifo port calls := by
  intro h
  have hpos : ∀ c ∈ [SerialCall.select 8 none, .read 2, .read 6], c.Positive := by
    intro c hc
    simp only [List.mem_cons, List.not_mem_nil, or_false] at hc
    rcases hc with rfl | rfl | rfl
    · exact (by decide : (0 : Int) < 8)
    · exact (by decide : 0 < 2)
    · exact (by decide : 0 < 6)
  have hfifo := h ⟨UInt8.ofNat, fun _ => some 8⟩ _ hpos
  have hreturned : returned ⟨UInt8.ofNat, fun _ => some 8⟩
      [.select 8 none, .read 2, .read 6] win32SerInit = [0, 1, 0, 1, 2, 3, 4, 5] := by
    decide +kernel
  rw [Fifo, hreturned] at hfifo
  exact absurd hfifo (by decide)

end Libmodbus
