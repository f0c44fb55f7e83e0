/-
Libmodbus/Lib/Late.lean

A line to a peer that answers every message, some time.  `lateOs` is a system
whose every message is answered with one message of the peer; the answers come
whole and in order, and a schedule decides how many of them come before each
system call.

    sent       0 1 2 3 4 5 6        requests, numbered in the order they are sent
    delivered  0 1 2 3              answers that have come
    input          2 3              their bytes that have not been read

A byte remembers the request whose answer it belongs to (`Piece`), and the
system writes down what is read of it (`Late.read`) and how many bytes each
flush has found (`Late.found`); the program sees bytes only.

`Aligned s k` says that the unread input begins with the answer to request `k`
and ends with an answer.  Reading one answer whole takes it to `Aligned s (k+1)`
(`Aligned.took`).
-/
import Libmodbus.Lib.Record

namespace Posix

/-! ### Labelled bytes -/

/-- A byte of the answer to request `number`. -/
structure Piece where
  number : Nat
  byte : UInt8
  deriving DecidableEq, Repr

def label (number : Nat) (bytes : List UInt8) : List Piece := bytes.map (Piece.mk number)

@[simp] theorem length_label (number : Nat) (bytes : List UInt8) :
    (label number bytes).length = bytes.length := List.length_map _

@[simp] theorem map_byte_label (number : Nat) (bytes : List UInt8) :
    (label number bytes).map Piece.byte = bytes := by
  rw [label, List.map_map]
  exact List.map_id bytes

/-- The answers to the requests from `k` up to `d`, one after the other. -/
def pieces (answers : List (List UInt8)) (k d : Nat) : List Piece :=
  (List.range' k (d - k)).flatMap fun i => label i (answers.getD i [])

@[simp] theorem pieces_self (answers : List (List UInt8)) (k : Nat) : pieces answers k k = [] := by
  rw [pieces, Nat.sub_self]
  rfl

theorem pieces_append (answers : List (List UInt8)) {k d e : Nat} (hkd : k ≤ d) (hde : d ≤ e) :
    pieces answers k d ++ pieces answers d e = pieces answers k e := by
  have hrange : List.range' k (d - k) ++ List.range' d (e - d) = List.range' k (e - k) := by
    have h : List.range' k (d - k) ++ List.range' (k + 1 * (d - k)) (e - d) =
        List.range' k (d - k + (e - d)) := List.range'_append
    rwa [Nat.one_mul, show k + (d - k) = d by omega, show d - k + (e - d) = e - k by omega] at h
  rw [pieces, pieces, pieces, ← List.flatMap_append, hrange]

theorem pieces_cons (answers : List (List UInt8)) {k d : Nat} (h : k < d) :
    pieces answers k d = label k (answers.getD k []) ++ pieces answers (k + 1) d := by
  rw [pieces, show d - k = d - (k + 1) + 1 by omega, List.range'_succ, List.flatMap_cons]
  rfl

/-- A new answer is not among the old ones. -/
theorem pieces_concat (answers : List (List UInt8)) (a : List UInt8) {k d : Nat}
    (h : d ≤ answers.length) : pieces (answers ++ [a]) k d = pieces answers k d := by
  unfold pieces
  refine List.flatMap_congr fun i hi => ?_
  have hlt : i < answers.length := by
    have := List.mem_range'_1.mp hi
    omega
  rw [List.getD_eq_getElem?_getD, List.getD_eq_getElem?_getD, List.getElem?_append_left hlt]

theorem length_pieces {answers : List (List UInt8)} {k d n : Nat}
    (h : ∀ i, k ≤ i → i < d → (answers.getD i []).length = n) :
    (pieces answers k d).length = (d - k) * n := by
  have hlength : ∀ i ∈ List.range' k (d - k), (label i (answers.getD i [])).length = n := by
    intro i hi
    have hi := List.mem_range'_1.mp hi
    rw [length_label]
    exact h i (by omega) (by omega)
  rw [pieces, List.length_flatMap, List.map_congr_left hlength, List.map_const', List.sum_replicate,
    List.length_range', smul_eq_mul]

/-! ### The system -/

/-- What the other end and the line do. -/
structure Network where
  /-- The answer to a request, given its number. -/
  respond : Nat → List UInt8 → List UInt8
  /-- How many answers come before the system call number `clock` looks at the input. -/
  delay : Nat → Nat
  /-- How many bytes that call returns at most, if it is a `recv`. -/
  split : Nat → Nat

/-- A byte that has been read, and how many requests had been sent by then. -/
structure Received where
  piece : Piece
  sent : Nat
  deriving DecidableEq, Repr

/-- How many requests were sent after the one that the byte answers. -/
def Received.late (r : Received) : Nat := r.sent - (r.piece.number + 1)

structure Late where
  clock : Nat
  /-- The answers to all requests so far. -/
  answers : List (List UInt8)
  /-- How many of them have come. -/
  delivered : Nat
  input : List Piece
  /-- What `recv` has returned. -/
  read : List Received
  /-- How many bytes the flush that is going on has taken. -/
  flushed : Nat
  /-- At every turn of a flush: how many bytes it has taken, and how many more there are. -/
  found : List Nat
  delivered_le : delivered ≤ answers.length

namespace Late

variable (net : Network) (s : Late)

/-- How many answers have come when the next call looks. -/
def arrived : Nat := min (s.delivered + net.delay s.clock) s.answers.length

/-- Time goes on up to the next call. -/
def poll : Late where
  clock := s.clock + 1
  answers := s.answers
  delivered := s.arrived net
  input := s.input ++ pieces s.answers s.delivered (s.arrived net)
  read := s.read
  flushed := 0
  found := s.found
  delivered_le := Nat.min_le_right _ _

/-- `n` bytes are taken from the input and read. -/
def take (n : Nat) : Late :=
  { s with
    input := s.input.drop n
    read := s.read ++ (s.input.take n).map fun p => ⟨p, s.answers.length⟩ }

/-- How many bytes `recv n` returns: at least one, at most `n`. -/
def chunk (n : Nat) : Nat := min n (max 1 (net.split s.clock))

def recv (n : Nat) : Except SysErrno (List UInt8) × Late :=
  if (s.poll net).input = [] then (.error .EAGAIN, s.poll net)
  else (.ok (((s.poll net).input.take (s.chunk net n)).map Piece.byte),
    (s.poll net).take (s.chunk net n))

/-- Up to `n` bytes are thrown away. -/
def discard (n : Nat) : Late :=
  { s.poll net with
    input := (s.poll net).input.drop n
    flushed := s.flushed + min n (s.poll net).input.length
    found := s.found ++ [s.flushed + (s.poll net).input.length] }

/-- All bytes that have come, up to `n`. -/
def recvDontwait (n : Nat) : Except SysErrno (List UInt8) × Late :=
  (if (s.poll net).input = [] then .error .EAGAIN
    else .ok (((s.poll net).input.take n).map Piece.byte), s.discard net n)

/-- The message leaves whole. -/
def send (m : List UInt8) : Late :=
  { s with
    answers := s.answers ++ [net.respond s.answers.length m]
    flushed := 0
    delivered_le := by
      rw [List.length_append]
      exact Nat.le_add_right_of_le s.delivered_le }

/-- Before the first request. -/
def start : Late := ⟨0, [], 0, [], [], 0, [], Nat.le_refl 0⟩

end Late

/-- Nothing fails; `select` times out when nothing has come. -/
def lateOs (fuel : Nat) (net : Network) : Os Late where
  fuel := fuel
  select _ s := (if (s.poll net).input = [] then .timeout else .ready, s.poll net)
  recv n s := s.recv net n
  recvDontwait n s := s.recvDontwait net n
  tcflush s := (none, { s with input := [] })
  send m s := (.ok m.length, s.send net m)
  sleep _ s := (none, s.poll net)
  close s := (none, s)
  connect s := ((some 0, none), s)
  recv_length := by
    intro n s b s' h
    unfold Late.recv at h
    split_ifs at h
    · cases (Prod.mk.inj h).1
    · have hb := Except.ok.inj (Prod.mk.inj h).1
      have hle : s.chunk net n ≤ n := Nat.min_le_left ..
      rw [← hb, List.length_map, List.length_take]
      omega
  recvDontwait_length := by
    intro n s b s' h
    have h := (Prod.mk.inj h).1
    split_ifs at h
    · have hb := Except.ok.inj h
      rw [← hb, List.length_map, List.length_take]
      omega
  send_length := by
    intro m s n s' h
    cases h
    exact Nat.le_refl _

/-! ### Reading -/

variable {net : Network} {s s' s'' : Late} {k : Nat}

theorem Late.delivered_le_arrived (net : Network) (s : Late) : s.delivered ≤ s.arrived net :=
  Nat.le_min.mpr ⟨Nat.le_add_right _ _, s.delivered_le⟩

/-- After calls that have read `xs`: the bytes that were there, and those that have come since,
begin with them. -/
structure Late.Took (net : Network) (s : Late) (xs : List UInt8) (s' : Late) : Prop where
  answers : s'.answers = s.answers
  found : s'.found = s.found
  delivered : s.delivered ≤ s'.delivered
  moved : ∃ ts more, xs = ts.map Piece.byte ∧
    s'.read = s.read ++ ts.map (fun p => ⟨p, s.answers.length⟩) ∧
    s.input ++ pieces s.answers s.delivered s'.delivered = ts ++ s'.input ∧
    (s.poll net).input ++ more = ts ++ (s'.poll net).input

theorem Late.Took.refl (s : Late) : s.Took net [] s where
  answers := rfl
  found := rfl
  delivered := Nat.le_refl _
  moved := ⟨[], [], rfl, (List.append_nil _).symm, by rw [pieces_self, List.append_nil]; rfl,
    List.append_nil _⟩

theorem Late.Took.trans {xs ys : List UInt8} (h : s.Took net xs s') (h' : s'.Took net ys s'') :
    s.Took net (xs ++ ys) s'' where
  answers := h'.answers.trans h.answers
  found := h'.found.trans h.found
  delivered := h.delivered.trans h'.delivered
  moved := by
    obtain ⟨ts, more, rfl, hread, hinput, hview⟩ := h.moved
    obtain ⟨ts', more', rfl, hread', hinput', hview'⟩ := h'.moved
    rw [h.answers] at hread' hinput'
    refine ⟨ts ++ ts', more ++ more', List.map_append.symm, ?_, ?_, ?_⟩
    · rw [hread', hread, List.map_append, List.append_assoc]
    · rw [← pieces_append s.answers h.delivered h'.delivered, ← List.append_assoc, hinput,
        List.append_assoc, hinput', List.append_assoc]
    · rw [← List.append_assoc, hview, List.append_assoc, hview', List.append_assoc]

/-- Looking at the input reads nothing. -/
theorem Late.took_poll (net : Network) (s : Late) : s.Took net [] (s.poll net) where
  answers := rfl
  found := rfl
  delivered := s.delivered_le_arrived net
  moved := ⟨[], pieces s.answers (s.arrived net) ((s.poll net).arrived net), rfl,
    (List.append_nil _).symm, rfl, rfl⟩

theorem Late.took_take (net : Network) (s : Late) (n : Nat) :
    s.Took net ((s.input.take n).map Piece.byte) (s.take n) where
  answers := rfl
  found := rfl
  delivered := Nat.le_refl _
  moved := by
    refine ⟨s.input.take n, [], rfl, rfl, ?_, ?_⟩
    · show s.input ++ pieces s.answers s.delivered s.delivered = s.input.take n ++ s.input.drop n
      rw [pieces_self, List.append_nil, List.take_append_drop]
    · show s.input ++ pieces s.answers s.delivered (s.arrived net) ++ [] =
        s.input.take n ++ (s.input.drop n ++ pieces s.answers s.delivered (s.arrived net))
      rw [List.append_nil, ← List.append_assoc, List.take_append_drop]

/-- What the next call can read. -/
def Late.view (net : Network) (s : Late) : List UInt8 := (s.poll net).input.map Piece.byte

theorem Late.view_ne_nil (h : s.view net ≠ []) : (s.poll net).input ≠ [] := by
  intro hnil
  exact h (by rw [view, hnil]; rfl)

theorem lateOs_source (fuel : Nat) (net : Network) :
    Source (lateOs fuel net) (Late.view net) (Late.Took net) where
  refl := Late.Took.refl
  trans := Late.Took.trans
  front := by
    intro s s' xs h
    obtain ⟨ts, more, rfl, -, -, hview⟩ := h.moved
    refine ⟨more.map Piece.byte, ?_⟩
    rw [Late.view, Late.view, ← List.map_append, hview, List.map_append]
  select := by
    intro s tv h
    refine ⟨s.poll net, ?_, s.took_poll net⟩
    show (if (s.poll net).input = [] then _ else _, _) = _
    rw [if_neg (Late.view_ne_nil h)]
  recv := by
    intro s n h hn
    have hne := Late.view_ne_nil h
    refine ⟨((s.poll net).input.take (s.chunk net n)).map Piece.byte,
      (s.poll net).take (s.chunk net n), if_neg hne, ?_, ?_⟩
    · have hchunk : 0 < s.chunk net n := by
        unfold Late.chunk
        omega
      have hpos := List.length_pos_of_ne_nil hne
      apply List.ne_nil_of_length_pos
      rw [List.length_map, List.length_take]
      omega
    · exact (s.took_poll net).trans ((s.poll net).took_take net _)

/-! ### Throwing away -/

/-- What the next turn of a flush finds. -/
def Late.finds (net : Network) (s : Late) : Nat := s.flushed + (s.poll net).input.length

@[simp] theorem Late.discard_answers (n : Nat) : (s.discard net n).answers = s.answers := rfl

@[simp] theorem Late.discard_read (n : Nat) : (s.discard net n).read = s.read := rfl

@[simp] theorem Late.discard_input (n : Nat) :
    (s.discard net n).input = (s.poll net).input.drop n := rfl

@[simp] theorem Late.discard_flushed (n : Nat) :
    (s.discard net n).flushed = s.flushed + min n (s.poll net).input.length := rfl

@[simp] theorem Late.discard_found (n : Nat) :
    (s.discard net n).found = s.found ++ [s.finds net] := rfl

theorem Late.recvDontwait_of_nil (n : Nat) (h : (s.poll net).input = []) :
    s.recvDontwait net n = (.error .EAGAIN, s.discard net n) := by
  rw [recvDontwait, if_pos h]

theorem Late.recvDontwait_of_ne (n : Nat) (h : (s.poll net).input ≠ []) :
    s.recvDontwait net n =
      (.ok (((s.poll net).input.take n).map Piece.byte), s.discard net n) := by
  rw [recvDontwait, if_neg h]

/-- When every answer has come, the input stays as it is. -/
theorem Late.poll_of_delivered (net : Network) (h : s.delivered = s.answers.length) :
    (s.poll net).delivered = s.answers.length ∧ (s.poll net).input = s.input := by
  have harrived : s.arrived net = s.answers.length := by
    rw [arrived, h]
    exact Nat.min_eq_right (Nat.le_add_right _ _)
  refine ⟨harrived, ?_⟩
  show s.input ++ pieces s.answers s.delivered (s.arrived net) = _
  rw [harrived, h, pieces_self, List.append_nil]

/-! ### Whole answers -/

/-- The input begins with the answer to request `k` and ends with an answer. -/
structure Late.Aligned (s : Late) (k : Nat) : Prop where
  le : k ≤ s.delivered
  input : s.input = pieces s.answers k s.delivered

theorem Late.aligned_of_input_nil (h : s.input = []) : s.Aligned s.delivered :=
  ⟨Nat.le_refl _, by rw [h, pieces_self]⟩

theorem Late.Aligned.poll (h : s.Aligned k) : (s.poll net).Aligned k where
  le := h.le.trans (s.delivered_le_arrived net)
  input := by
    show s.input ++ _ = _
    rw [h.input]
    exact pieces_append s.answers h.le (s.delivered_le_arrived net)

theorem Late.Aligned.send (h : s.Aligned k) (m : List UInt8) : (s.send net m).Aligned k where
  le := h.le
  input := h.input.trans (pieces_concat s.answers _ s.delivered_le).symm

/-- An input that is not empty begins with a whole answer. -/
theorem Late.Aligned.front (h : s.Aligned k) (hne : s.input ≠ []) :
    k < s.delivered ∧
      s.input = label k (s.answers.getD k []) ++ pieces s.answers (k + 1) s.delivered := by
  have hlt : k < s.delivered := by
    rcases Nat.lt_or_eq_of_le h.le with hlt | heq
    · exact hlt
    · rw [h.input, ← heq, pieces_self] at hne
      exact absurd rfl hne
  exact ⟨hlt, by rw [h.input, pieces_cons s.answers hlt]⟩

/-- Reading one answer whole. -/
theorem Late.Aligned.took (h : s.Aligned k) (hpos : s.answers.getD k [] ≠ [])
    (ht : s.Took net (s.answers.getD k []) s') :
    s'.Aligned (k + 1) ∧ s'.read = s.read ++
      (label k (s.answers.getD k [])).map fun p => ⟨p, s.answers.length⟩ := by
  obtain ⟨ts, more, hts, hread, hinput, -⟩ := ht.moved
  have hle : k ≤ s'.delivered := h.le.trans ht.delivered
  rw [h.input, pieces_append s.answers h.le ht.delivered] at hinput
  have hlt : k < s'.delivered := by
    rcases Nat.lt_or_eq_of_le hle with hlt | heq
    · exact hlt
    · rw [← heq, pieces_self] at hinput
      obtain ⟨rfl, -⟩ := List.append_eq_nil_iff.mp hinput.symm
      exact absurd hts hpos
  rw [pieces_cons s.answers hlt] at hinput
  have hlen : (label k (s.answers.getD k [])).length = ts.length := by
    rw [length_label, hts, List.length_map]
  obtain ⟨rfl, hrest⟩ := List.append_inj hinput hlen
  exact ⟨⟨hlt, by rw [ht.answers, hrest]⟩, hread⟩

/-! ### Which answer comes next -/

/-- A message sent now gets its own answer or none: nothing is unread, and no other answer is on its
way or nothing comes before the next call looks. -/
def Late.Clear (net : Network) (s : Late) : Prop :=
  s.input = [] ∧ (s.delivered = s.answers.length ∨ net.delay s.clock = 0)

instance (net : Network) (s : Late) : Decidable (s.Clear net) := inferInstanceAs (Decidable (_ ∧ _))

theorem pieces_ne_nil {answers : List (List UInt8)} {k d : Nat} (h : k < d)
    (hpos : answers.getD k [] ≠ []) : pieces answers k d ≠ [] := by
  rw [pieces_cons answers h]
  intro hnil
  have hlabel := (List.append_eq_nil_iff.mp hnil).1
  exact hpos (List.map_eq_nil_iff.mp hlabel)

theorem getD_send {s : Late} {i : Nat} (h : i < s.answers.length) (m : List UInt8) :
    (s.send net m).answers.getD i [] = s.answers.getD i [] := by
  show (s.answers ++ [_]).getD i [] = _
  rw [List.getD_eq_getElem?_getD, List.getD_eq_getElem?_getD, List.getElem?_append_left h]

/-- The input after a message was sent and time has gone on. -/
theorem input_poll_send (net : Network) (s : Late) (m : List UInt8) :
    ((s.send net m).poll net).input =
      s.input ++ pieces (s.send net m).answers s.delivered ((s.send net m).arrived net) := rfl

theorem arrived_send (net : Network) (s : Late) (m : List UInt8) :
    (s.send net m).arrived net = min (s.delivered + net.delay s.clock) (s.answers.length + 1) := by
  have hlen : (s.send net m).answers.length = s.answers.length + 1 := List.length_append
  rw [Late.arrived, hlen]
  rfl

/-- If the answers are not empty, the next one to be read is the message's own or none exactly when
the line was clear. -/
theorem Late.clear_iff (net : Network) (hal : ∃ k, s.Aligned k)
    (hpos : ∀ i < s.answers.length, s.answers.getD i [] ≠ []) :
    ∃ k, s.Aligned k ∧ ∀ m,
      (s.Clear net ↔ ((s.send net m).poll net).input = [] ∨ k = s.answers.length) := by
  by_cases hinput : s.input = []
  · refine ⟨s.delivered, aligned_of_input_nil hinput, fun m => ?_⟩
    rw [input_poll_send, hinput, List.nil_append, arrived_send, Clear, and_iff_right hinput, or_comm]
    refine or_congr_left' fun hne => ⟨fun hdelay => ?_, fun hnil => ?_⟩
    · rw [hdelay, Nat.add_zero, Nat.min_eq_left (Nat.le_succ_of_le s.delivered_le), pieces_self]
    · -- the next of the old answers comes
      have hlt : s.delivered < s.answers.length := Nat.lt_of_le_of_ne s.delivered_le hne
      by_contra hdelay
      refine pieces_ne_nil ?_ ?_ hnil
      · omega
      · rw [getD_send hlt]
        exact hpos _ hlt
  · obtain ⟨k, hk⟩ := hal
    obtain ⟨hlt, -⟩ := hk.front hinput
    refine ⟨k, hk, fun m => iff_of_false (fun h => hinput h.1) ?_⟩
    rintro (hnil | rfl)
    · rw [input_poll_send] at hnil
      exact hinput (List.append_eq_nil_iff.mp hnil).1
    · exact absurd s.delivered_le (Nat.not_le.mpr hlt)

/-! ### What is written down -/

/-- What has been written down stays. -/
def Late.Grown (s s' : Late) : Prop := s.read <+: s'.read ∧ s.found <+: s'.found

theorem lateOs_grown (fuel : Nat) (net : Network) (M : List UInt8 → Prop) :
    Obeys (lateOs fuel net) M Late.Grown where
  refl _ := ⟨List.prefix_refl _, List.prefix_refl _⟩
  trans h h' := ⟨h.1.trans h'.1, h.2.trans h'.2⟩
  select := by
    intro tv s r s' h
    cases h
    exact ⟨List.prefix_refl _, List.prefix_refl _⟩
  recv := by
    intro n s r s' h
    change s.recv net n = (r, s') at h
    unfold Late.recv at h
    split_ifs at h
    · cases h
      exact ⟨List.prefix_refl _, List.prefix_refl _⟩
    · cases h
      exact ⟨List.prefix_append _ _, List.prefix_refl _⟩
  recvDontwait := by
    intro n s r s' h
    cases h
    exact ⟨List.prefix_refl _, List.prefix_append _ _⟩
  tcflush := by
    intro s r s' h
    cases h
    exact ⟨List.prefix_refl _, List.prefix_refl _⟩
  send := by
    intro m s r s' _ h
    cases h
    exact ⟨List.prefix_refl _, List.prefix_refl _⟩
  sleep := by
    intro tv s r s' h
    cases h
    exact ⟨List.prefix_refl _, List.prefix_refl _⟩
  close := by
    intro s r s' h
    cases h
    exact ⟨List.prefix_refl _, List.prefix_refl _⟩
  connect := by
    intro s r s' h
    cases h
    exact ⟨List.prefix_refl _, List.prefix_refl _⟩

/-- Time does not go back. -/
theorem lateOs_clock (fuel : Nat) (net : Network) (M : List UInt8 → Prop) :
    Obeys (lateOs fuel net) M fun s s' => s.clock ≤ s'.clock where
  refl _ := Nat.le_refl _
  trans h h' := Nat.le_trans h h'
  select := by
    intro tv s r s' h
    cases h
    exact Nat.le_succ _
  recv := by
    intro n s r s' h
    change s.recv net n = (r, s') at h
    unfold Late.recv at h
    split_ifs at h
    · cases h
      exact Nat.le_succ _
    · cases h
      exact Nat.le_succ _
  recvDontwait := by
    intro n s r s' h
    cases h
    exact Nat.le_succ _
  tcflush := by
    intro s r s' h
    cases h
    exact Nat.le_refl _
  send := by
    intro m s r s' _ h
    cases h
    exact Nat.le_refl _
  sleep := by
    intro tv s r s' h
    cases h
    exact Nat.le_succ _
  close := by
    intro s r s' h
    cases h
    exact Nat.le_refl _
  connect := by
    intro s r s' h
    cases h
    exact Nat.le_refl _

end Posix
