/-
Libmodbus/Stale.lean

Late responses.  A client calls a server whose responses may come during any
later call; every response carries the transaction id of its request, and the
ids count the requests modulo 65536.

    receive_served       a call reads one response, whole, or none
    exchange_served      and accepts it only under the id it sent
    report_serving       which is its own, unless it comes 65536 requests late
    stale_never_accepted so is every run

What a call leaves on the line begins with a whole response as long as no flush
stops before the line is empty; a flush of more than `flushLimit` bytes does.
-/
import Libmodbus.Lib.Late
import Libmodbus.Exchanges

namespace Libmodbus

open CSem Wire Posix

variable {σ : Type}

/-! ### A timeout -/

/-- Nothing comes before the first timeout. -/
theorem modbusReceiveMsg_timeout {os : Os σ} (hf : 0 < os.fuel) {st : St σ} {mt : MsgType}
    (hc : Connected st.ctx) {s : σ} (h : ∀ tv, os.select tv st.os = (.timeout, s)) :
    modbusReceiveMsg os st mt =
      recoverSelect os { st with errno := .ETIMEDOUT, os := s } >>= fun st => .ok (-1, [], st) := by
  obtain ⟨n, hn⟩ : ∃ n, os.fuel = n + 1 := ⟨os.fuel - 1, by omega⟩
  have hselect : backendSelect os os.fuel st (RecvState.start st.ctx mt).tv =
      .ok (false, { st with errno := .ETIMEDOUT, os := s }) := by
    rw [hn, backendSelect, h]
  have hlen : ¬ (RecvState.start st.ctx mt).lengthToRead = 0 := Nat.succ_ne_zero _
  rw [modbusReceiveMsg, if_neg (not_lt.mpr hc.1), if_neg (not_le.mpr hc.2), receiveLoop,
    if_neg hlen, hselect]
  rfl

/-! ### Flushes -/

/-- How many bytes a flush throws away at most. -/
def flushLimit : Nat := 65780

/-- The bytes that have come are thrown away, as far as the flush gets. -/
structure Flushed (s s' : Late) : Prop where
  answers : s'.answers = s.answers
  read : s'.read = s.read
  found : s.found <+: s'.found
  /-- A flush that has never found more than it throws away leaves nothing. -/
  drained : (∀ n ∈ s'.found, n ≤ flushLimit) → s'.input = []

section

variable (fuel : Nat) (net : Network)

/-- `errno` is as it was, or comes from the system. -/
def ErrnoKept (e e' : Errno) : Prop := e' = e ∨ ∃ code, e' = .sys code

theorem flushed_discard (s : Late) (n : Nat)
    (h : s.finds net ≤ flushLimit → (s.poll net).input.drop n = []) :
    Flushed s (s.discard net n) where
  answers := rfl
  read := rfl
  found := List.prefix_append _ _
  drained hall := h (hall _ (List.mem_append_right _ (List.mem_singleton_self _)))

theorem tcpFlushLoop_flushed {turns rcSum : Nat} (st : St Late) (hpos : 0 < turns)
    (hlimit : rcSum + 260 * turns = flushLimit) (htaken : st.os.flushed = rcSum) :
    ∃ rc e s, tcpFlushLoop (lateOs fuel net) turns rcSum st = .ok (rc, ⟨st.ctx, e, s⟩) ∧
      ErrnoKept st.errno e ∧ Flushed st.os s := by
  induction turns generalizing rcSum st with
  | zero => exact absurd hpos (Nat.lt_irrefl 0)
  | succ turns ih =>
    have hfinds : st.os.finds net = rcSum + (st.os.poll net).input.length := by
      rw [Late.finds, htaken]
    rw [flushLimit] at hlimit
    rw [tcpFlushLoop]
    by_cases hne : (st.os.poll net).input = []
    · have hr : (lateOs fuel net).recvDontwait 260 st.os = _ := Late.recvDontwait_of_nil 260 hne
      rw [hr]
      refine ⟨_, _, _, rfl, Or.inr ⟨_, rfl⟩, flushed_discard net st.os 260 fun _ => ?_⟩
      rw [hne]
      rfl
    have hr : (lateOs fuel net).recvDontwait 260 st.os = _ := Late.recvDontwait_of_ne 260 hne
    have hlen : (((st.os.poll net).input.take 260).map Piece.byte).length =
        min 260 (st.os.poll net).input.length := by
      rw [List.length_map, List.length_take]
    -- in the last turn there is no more than is taken
    have hlast : turns = 0 ∨ (st.os.poll net).input.length < 260 →
        Flushed st.os (st.os.discard net 260) := by
      intro hlast
      refine flushed_discard net st.os 260 fun hle => List.drop_of_length_le ?_
      rw [flushLimit] at hle
      omega
    rw [hr]
    simp only [hlen]
    by_cases hover : 0 < min 260 (st.os.poll net).input.length ∧
        65535 - min 260 (st.os.poll net).input.length < rcSum
    · rw [if_pos hover]
      exact ⟨_, _, _, rfl, Or.inr ⟨_, rfl⟩, hlast (Or.inl (by omega))⟩
    rw [if_neg hover]
    by_cases hfull : min 260 (st.os.poll net).input.length = 260
    · rw [if_pos hfull, hfull]
      have htaken' : (st.os.discard net 260).flushed = rcSum + 260 := by
        rw [Late.discard_flushed, htaken, hfull]
      have hlimit' : rcSum + 260 + 260 * turns = flushLimit := by
        rw [flushLimit]
        omega
      obtain ⟨rc, e, s, hloop, he, hflushed⟩ :=
        ih { st with os := st.os.discard net 260 } (by omega) hlimit' htaken'
      exact ⟨rc, e, s, hloop, he, hflushed.answers, hflushed.read,
        (List.prefix_append _ _).trans hflushed.found, hflushed.drained⟩
    · rw [if_neg hfull]
      exact ⟨_, _, _, rfl, Or.inl rfl, hlast (Or.inr (by omega))⟩

theorem sleepAndFlush_flushed (st : St Late) (htcp : st.ctx.backend = .tcp) :
    ∃ e s, sleepAndFlush (lateOs fuel net) st = .ok ⟨st.ctx, e, s⟩ ∧ ErrnoKept st.errno e ∧
      Flushed st.os s := by
  have hsleep : sleepResponseTimeout (lateOs fuel net) st = { st with os := st.os.poll net } := rfl
  obtain ⟨rc, e, s, hloop, he, hflushed⟩ := tcpFlushLoop_flushed fuel net
    { st with os := st.os.poll net } (by decide : 0 < 253) (rfl : 0 + 260 * 253 = flushLimit) rfl
  refine ⟨e, s, ?_, he, hflushed.answers, hflushed.read, hflushed.found, hflushed.drained⟩
  rw [sleepAndFlush, hsleep, modbusFlush, htcp]
  simp only [hloop, ok_bind]

/-- Nothing was read, and the input begins and ends with whole answers if it did. -/
structure Rests (s s' : Late) : Prop where
  answers : s'.answers = s.answers
  read : s'.read = s.read
  found : s.found <+: s'.found
  aligned : (∀ n ∈ s'.found, n ≤ flushLimit) → (∃ k, s.Aligned k) → ∃ k, s'.Aligned k

theorem Rests.refl (s : Late) : Rests s s := ⟨rfl, rfl, List.prefix_refl _, fun _ h => h⟩

theorem Rests.trans {s s' s'' : Late} (h : Rests s s') (h' : Rests s' s'') : Rests s s'' where
  answers := h'.answers.trans h.answers
  read := h'.read.trans h.read
  found := h.found.trans h'.found
  aligned hall hk := h'.aligned hall (h.aligned (fun n hn => hall n (h'.found.subset hn)) hk)

theorem Flushed.rests {s s' : Late} (h : Flushed s s') : Rests s s' where
  answers := h.answers
  read := h.read
  found := h.found
  aligned hall _ := ⟨s'.delivered, Late.aligned_of_input_nil (h.drained hall)⟩

theorem recoverSelect_rests (st : St Late) (htcp : st.ctx.backend = .tcp) :
    ∃ s, recoverSelect (lateOs fuel net) { st with errno := .ETIMEDOUT } =
      .ok ⟨st.ctx, .ETIMEDOUT, s⟩ ∧ Rests st.os s := by
  unfold recoverSelect
  by_cases hlink : st.ctx.errorRecovery.link = true
  · obtain ⟨e, s, hflush, -, hs⟩ := sleepAndFlush_flushed fuel net
      { st with errno := .ETIMEDOUT } htcp
    refine ⟨s, ?_, hs.rests⟩
    simp only [hlink, not_true_eq_false, if_false, if_true, hflush, ok_bind]
  · exact ⟨st.os, if_pos hlink, .refl _⟩

end

/-! ### Confirmations -/

section

variable {fuel : Nat} {net : Network}

/-- The caller sees a confirmation: the call does not fail, or with an exception. -/
def Accepts (rc : Int) (errno : Errno) : Prop :=
  rc ≠ -1 ∨ ∃ code, errno = .mb code ∧ (code < exceptionMax ∨ errno = .EMBBADEXC)

theorem ErrnoKept.not_accepts {e e' : Errno} (h : ErrnoKept e e') (he : ¬ Accepts (-1) e) :
    ¬ Accepts (-1) e' := by
  rcases h with rfl | ⟨code, rfl⟩
  · exact he
  · rintro (h | ⟨code', h, -⟩)
    · exact h rfl
    · cases h

theorem not_accepts_badData : ¬ Accepts (-1) .EMBBADDATA := by
  rintro (h | ⟨code, h, h'⟩)
  · exact h rfl
  · cases h
    rcases h' with h' | h'
    · exact absurd h' (by decide)
    · cases h'

theorem not_accepts_timeout : ¬ Accepts (-1) .ETIMEDOUT := by
  rintro (h | ⟨code, h, -⟩)
  · exact h rfl
  · cases h

theorem refuseConfirmation_rests {st st' : St Late} {rc : Int}
    (h : refuseConfirmation (lateOs fuel net) st = .ok (rc, st')) (htcp : st.ctx.backend = .tcp) :
    st'.ctx = st.ctx ∧ Rests st.os st'.os := by
  unfold refuseConfirmation at h
  by_cases hprotocol : st.ctx.errorRecovery.protocol = true
  · obtain ⟨e, s, hflush, -, hs⟩ := sleepAndFlush_flushed fuel net st htcp
    simp only [hprotocol, if_true, hflush, ok_bind] at h
    cases h
    exact ⟨rfl, hs.rests⟩
  · simp only [hprotocol] at h
    cases h
    exact ⟨rfl, .refl _⟩

/-- Checking a confirmation reads nothing. -/
theorem checkConfirmation_rests {st st' : St Late} {req rsp : List UInt8} {rspLength rc : Int}
    (h : checkConfirmation (lateOs fuel net) st req rsp rspLength = .ok (rc, st'))
    (htcp : st.ctx.backend = .tcp) : st'.ctx = st.ctx ∧ Rests st.os st'.os := by
  obtain ⟨function, -, h⟩ := bind_eq_ok.mp h
  obtain ⟨pre, -, h⟩ := bind_eq_ok.mp h
  cases pre with
  | some e =>
    simp only at h
    by_cases hprotocol : st.ctx.errorRecovery.protocol = true
    · obtain ⟨e', s, hflush, -, hs⟩ := sleepAndFlush_flushed fuel net
        { st with errno := e } htcp
      simp only [hprotocol, if_true, hflush, ok_bind] at h
      cases h
      exact ⟨rfl, hs.rests⟩
    · simp only [hprotocol] at h
      cases h
      exact ⟨rfl, .refl _⟩
  | none =>
    obtain ⟨computed, -, h⟩ := bind_eq_ok.mp h
    obtain ⟨reqFunction, -, h⟩ := bind_eq_ok.mp h
    split_ifs at h
    · obtain ⟨code, -, h⟩ := bind_eq_ok.mp h
      split_ifs at h
      · cases h
        exact ⟨rfl, .refl _⟩
      · cases h
        exact ⟨rfl, .refl _⟩
    · cases h
      exact ⟨rfl, .refl _⟩
    · exact refuseConfirmation_rests h htcp
    · obtain ⟨values, -, h⟩ := bind_eq_ok.mp h
      simp only at h
      split_ifs at h
      · cases h
        exact ⟨rfl, .refl _⟩
      · exact refuseConfirmation_rests h htcp
    · exact refuseConfirmation_rests h htcp

/-- A response under another transaction id is not accepted. -/
theorem checkConfirmation_foreign {st st' : St Late} {q r : Adu} {rspLength rc : Int}
    (h : checkConfirmation (lateOs fuel net) st (q.bytes .tcp) (r.bytes .tcp) rspLength =
      .ok (rc, st')) (htcp : st.ctx.backend = .tcp) (htid : q.tId ≠ r.tId) : ¬ Accepts rc st'.errno := by
  obtain ⟨function, -, h⟩ := bind_eq_ok.mp h
  obtain ⟨pre, hpre, h⟩ := bind_eq_ok.mp h
  rw [htcp, Adu.bytes, Adu.bytes, preCheckConfirmation_tcp, if_neg (fun h => htid h.1)] at hpre
  cases hpre
  simp only at h
  by_cases hprotocol : st.ctx.errorRecovery.protocol = true
  · obtain ⟨e', s, hflush, he, -⟩ := sleepAndFlush_flushed fuel net
      { st with errno := .EMBBADDATA } htcp
    simp only [hprotocol, if_true, hflush, ok_bind] at h
    cases h
    exact he.not_accepts not_accepts_badData
  · simp only [hprotocol] at h
    cases h
    exact not_accepts_badData

/-! ### Requests and their answers -/

/-- A whole response frame under this transaction id. -/
def ResponseUnder (tId : UInt16) (bytes : List UInt8) : Prop :=
  ∃ r : Adu, bytes = r.bytes .tcp ∧ r.tId = tId ∧ r.protocol = 0 ∧ Framed .confirmation r.pdu

/-- The other end answers every frame with one whole response frame that echoes its transaction
id. -/
def Echoes (net : Network) : Prop :=
  ∀ (n : Nat) (q : Adu), ResponseUnder q.tId (net.respond n (q.bytes .tcp))

/-- Request number `i` was sent under `tid i`, and answered. -/
def Served (tid : Nat → UInt16) (answers : List (List UInt8)) : Prop :=
  ∀ i < answers.length, ResponseUnder (tid i) (answers.getD i [])

theorem Served.concat {tid : Nat → UInt16} {answers : List (List UInt8)} {a : List UInt8}
    (h : Served tid answers) (ha : ResponseUnder (tid answers.length) a) : Served tid (answers ++ [a]) := by
  intro i hi
  rw [List.getD_eq_getElem?_getD]
  rcases Nat.lt_or_ge i answers.length with hlt | hge
  · rw [List.getElem?_append_left hlt, ← List.getD_eq_getElem?_getD]
    exact h i hlt
  · rw [List.length_append, List.length_singleton] at hi
    obtain rfl : i = answers.length := by omega
    rw [List.getElem?_concat_length]
    exact ha

/-- The labelled bytes of an answer, as they are written down when it is read. -/
def readAs (number : Nat) (bytes : List UInt8) (sent : Nat) : List Received :=
  (label number bytes).map fun p => ⟨p, sent⟩

/-- A receive call takes the first answer that was not read, or times out when none has come. -/
theorem receive_served (hf : 0 < fuel) (net : Network) {tid : Nat → UInt16} (st : St Late) {k : Nat}
    (hc : Connected st.ctx) (htcp : st.ctx.backend = .tcp) (hs : Served tid st.os.answers)
    (hal : st.os.Aligned k) :
    ((st.os.poll net).input = [] ∧
      modbusReceiveMsg (lateOs fuel net) st .confirmation =
        recoverSelect (lateOs fuel net) ⟨st.ctx, .ETIMEDOUT, st.os.poll net⟩ >>=
          fun st => .ok (-1, [], st)) ∨
    ((st.os.poll net).input ≠ [] ∧ ∃ (r : Adu) (s : Late), k < st.os.answers.length ∧
      st.os.answers.getD k [] = r.bytes .tcp ∧ r.tId = tid k ∧ r.protocol = 0 ∧
      Framed .confirmation r.pdu ∧
      modbusReceiveMsg (lateOs fuel net) st .confirmation =
        .ok (((r.bytes .tcp).length : Nat), r.bytes .tcp, { st with os := s }) ∧
      s.Aligned (k + 1) ∧ s.answers = st.os.answers ∧ s.found = st.os.found ∧
      s.read = st.os.read ++ readAs k (r.bytes .tcp) st.os.answers.length) := by
  by_cases hne : (st.os.poll net).input = []
  · refine Or.inl ⟨hne, modbusReceiveMsg_timeout hf hc fun tv => ?_⟩
    show (if (st.os.poll net).input = [] then _ else _, _) = _
    rw [if_pos hne]
  · -- the answer in front is whole, and the loop stops at its end
    obtain ⟨hlt, hfront⟩ := hal.poll.front hne
    have hk : k < st.os.answers.length := Nat.lt_of_lt_of_le hlt (st.os.poll net).delivered_le
    obtain ⟨r, hr, htid, hprotocol, hframed⟩ := hs k hk
    have hview : st.os.view net = r.bytes st.ctx.backend ++
        (pieces st.os.answers (k + 1) (st.os.poll net).delivered).map Piece.byte := by
      rw [Late.view, hfront, List.map_append, map_byte_label, htcp]
      exact congrArg (· ++ _) hr
    obtain ⟨s, hrcv, htook⟩ := modbusReceiveMsg_adu (lateOs_source fuel net) hf hc hframed hview
    have haddr : Addressed st.ctx r := fun h => absurd (htcp.symm.trans h) (by decide)
    rw [Adu.verdict_of_addressed haddr, htcp] at hrcv
    rw [htcp, ← hr] at htook
    have hpos : st.os.answers.getD k [] ≠ [] := by
      rw [hr]
      apply List.ne_nil_of_length_pos
      rw [Adu.length_bytes]
      exact Nat.lt_of_lt_of_le (by decide : 0 < 7) (by simp only [Backend.headerLength]; omega)
    obtain ⟨hal', hread⟩ := hal.took hpos htook
    rw [hr] at hread
    exact Or.inr ⟨hne, r, s, hk, hr, htid, hprotocol, hframed, hrcv, hal', htook.answers,
      htook.found, hread⟩

/-- What an exchange leaves on the line: the answer to its own request is the last one, the bytes
`used` were read, and the input ends between two answers if it did. -/
structure Consumed (st : St Late) (answer : List UInt8) (used : List Piece) (st' : St Late) :
    Prop where
  ctx : st'.ctx = st.ctx
  answers : st'.os.answers = st.os.answers ++ [answer]
  read : st'.os.read = st.os.read ++ used.map fun p => ⟨p, st.os.answers.length + 1⟩
  aligned : (∀ n ∈ st'.os.found, n ≤ flushLimit) → ∃ k, st'.os.Aligned k

theorem sendMsg_late (hf : 0 < fuel) (net : Network) (st : St Late) (msg : List UInt8) :
    sendMsg (lateOs fuel net) st msg = .ok (((sendMsgPre st.ctx.backend msg).length : Nat),
      { st with os := st.os.send net (sendMsgPre st.ctx.backend msg) }) :=
  sendLoop_of_sent hf rfl

/-- The message leaves whole, and then the client receives. -/
theorem exchange_late (hf : 0 < fuel) (net : Network) (st : St Late) (htcp : st.ctx.backend = .tcp)
    {msg : List UInt8} {q : Adu} (hq : sendMsgPre .tcp msg = q.bytes .tcp) :
    exchange (lateOs fuel net) st msg =
      modbusReceiveMsg (lateOs fuel net) { st with os := st.os.send net (q.bytes .tcp) }
        .confirmation >>= fun r =>
      if r.1 = -1 then .ok (-1, r.2.1, r.2.2)
      else checkConfirmation (lateOs fuel net) r.2.2 (sendMsgPre r.2.2.ctx.backend msg) r.2.1 r.1
        >>= fun c => .ok (c.1, r.2.1, c.2) := by
  have hpos : (0 : Int) < ((q.bytes .tcp).length : Nat) := by
    rw [Adu.length_bytes]
    simp only [Backend.headerLength]
    omega
  rw [exchange, sendMsg_late hf net, htcp, hq, ok_bind]
  simp only [if_pos hpos]

/-- **One exchange.**  At most one answer is read, whole, and it is accepted only under the
transaction id of the request. -/
theorem exchange_served (hf : 0 < fuel) (hnet : Echoes net) {tid : Nat → UInt16} (st : St Late)
    {st' : St Late} (hc : Connected st.ctx) (htcp : st.ctx.backend = .tcp) (hs : Served tid st.os.answers)
    (hal : ∃ k, st.os.Aligned k) {msg : List UInt8} {q : Adu}
    (hq : sendMsgPre .tcp msg = q.bytes .tcp) (htid : q.tId = tid st.os.answers.length) {rc : Int}
    {rsp : List UInt8} (h : exchange (lateOs fuel net) st msg = .ok (rc, rsp, st')) :
    ∃ used, Consumed st (net.respond st.os.answers.length (q.bytes .tcp)) used st' ∧
      (Accepts rc st'.errno → ∃ k ≤ st.os.answers.length, tid k = tid st.os.answers.length ∧
        used = label k (st'.os.answers.getD k [])) := by
  obtain ⟨k, hk⟩ := hal
  have hs' : Served tid (st.os.send net (q.bytes .tcp)).answers :=
    hs.concat (htid ▸ hnet st.os.answers.length q)
  have hlen : (st.os.send net (q.bytes .tcp)).answers.length = st.os.answers.length + 1 :=
    List.length_append
  rw [exchange_late hf net st htcp hq] at h
  rcases receive_served hf net ⟨st.ctx, st.errno, st.os.send net (q.bytes .tcp)⟩ hc htcp hs'
    (hk.send (q.bytes .tcp)) with
    ⟨-, hrcv⟩ | ⟨-, r, s, hlt, hr, hrtid, -, -, hrcv, hal, hans, -, hread⟩
  · -- a timeout, after which the line may be flushed
    obtain ⟨s, hrecover, hrests⟩ := recoverSelect_rests fuel net
      ⟨st.ctx, .ETIMEDOUT, (st.os.send net (q.bytes .tcp)).poll net⟩ htcp
    rw [hrcv, hrecover] at h
    simp only [ok_bind, if_true] at h
    cases h
    refine ⟨[], ⟨rfl, hrests.answers, hrests.read.trans (List.append_nil _).symm, fun hall => ?_⟩,
      fun hacc => absurd hacc not_accepts_timeout⟩
    exact hrests.aligned hall ⟨k, (hk.send _).poll⟩
  · rw [hrcv, ok_bind] at h
    have hne : ¬ (((r.bytes .tcp).length : Nat) : Int) = -1 := by omega
    simp only [if_neg hne] at h
    obtain ⟨⟨rc', st₁⟩, hcheck, h⟩ := bind_eq_ok.mp h
    cases h
    rw [htcp, hq] at hcheck
    obtain ⟨hctx, hrests⟩ := checkConfirmation_rests hcheck htcp
    have hle : k ≤ st.os.answers.length := Nat.le_of_lt_succ (Nat.lt_of_lt_of_eq hlt hlen)
    refine ⟨label k (r.bytes .tcp), ⟨hctx, hrests.answers.trans hans, ?_, fun hall =>
      hrests.aligned hall ⟨k + 1, hal⟩⟩, fun hacc => ⟨k, hle, ?_, ?_⟩⟩
    · rw [hrests.read, hread, readAs, hlen]
      rfl
    · -- under another id it would have been refused
      by_contra hne'
      have hforeign : q.tId ≠ r.tId := by
        rw [hrtid, htid]
        exact Ne.symm hne'
      exact checkConfirmation_foreign hcheck htcp hforeign hacc
    · rw [hrests.answers, hans, hr]

end

/-! ### The frame of a request -/

/-- `send_msg_pre` leaves the transaction id alone. -/
theorem sendMsgPre_tId (tId : UInt16) (a b c d e : UInt8) (rest : List UInt8) :
    ∃ q : Adu, sendMsgPre .tcp (hi tId.toNat :: lo tId.toNat :: a :: b :: c :: d :: e :: rest) =
      q.bytes .tcp ∧ q.tId = tId := by
  obtain ⟨l₁, l₂, hpre⟩ : ∃ l₁ l₂,
      sendMsgPre .tcp (hi tId.toNat :: lo tId.toNat :: a :: b :: c :: d :: e :: rest) =
        hi tId.toNat :: lo tId.toNat :: a :: b :: l₁ :: l₂ :: e :: rest := ⟨_, _, rfl⟩
  obtain ⟨q, hq⟩ := exists_adu_tcp (show 7 ≤
    (hi tId.toNat :: lo tId.toNat :: a :: b :: l₁ :: l₂ :: e :: rest).length from
      Nat.le_add_left 7 rest.length)
  refine ⟨q, hpre.trans hq, ?_⟩
  obtain ⟨h₁, hq⟩ := List.cons.inj hq
  obtain ⟨h₂, -⟩ := List.cons.inj hq
  rw [← ofNat_word_hi_lo q.tId, ← ofNat_word_hi_lo tId, h₁, h₂]

theorem buildRequestBasis_tcp {ctx : Modbus} (h : ctx.backend = .tcp) (function : Nat)
    (addr nb : Int) :
    buildRequestBasis ctx function addr nb = .ok ([hi ctx.next.tId.toNat, lo ctx.next.tId.toNat,
      0, 0, 0, 0, lo ctx.slave, lo function, hi addr, lo addr, hi nb, lo nb], ctx.next) := by
  rcases ctx with ⟨backend, slave, s, errorRecovery, quirks, rt, bt, it, tId, flag⟩
  cases h
  rfl

/-- Every call sends its request under the next transaction id. -/
theorem Sender.frame_tcp {s : Sender} {ctx : Modbus} {msg : List UInt8} (hcall : s.IsCall)
    (htcp : ctx.backend = .tcp) (h : s.message ctx = .ok msg) :
    ∃ q : Adu, sendMsgPre .tcp msg = q.bytes .tcp ∧ q.tId = ctx.next.tId := by
  have hbasis := buildRequestBasis_tcp htcp
  cases s with
  | readBits addr nb dest =>
    rw [message, hbasis] at h
    cases h
    exact sendMsgPre_tId ..
  | readInputBits addr nb dest =>
    rw [message, hbasis] at h
    cases h
    exact sendMsgPre_tId ..
  | readRegisters addr nb dest =>
    rw [message, hbasis] at h
    cases h
    exact sendMsgPre_tId ..
  | readInputRegisters addr nb dest =>
    rw [message, hbasis] at h
    cases h
    exact sendMsgPre_tId ..
  | writeBit addr status =>
    rw [message, hbasis] at h
    cases h
    exact sendMsgPre_tId ..
  | writeRegister addr value =>
    rw [message, hbasis] at h
    cases h
    exact sendMsgPre_tId ..
  | writeBits addr nb src =>
    rw [message, hbasis] at h
    obtain ⟨req, hreq, h⟩ := bind_eq_ok.mp h
    cases hreq
    obtain ⟨bytes, -, h⟩ := bind_eq_ok.mp h
    cases h
    exact sendMsgPre_tId ..
  | writeRegisters addr nb src =>
    rw [message, hbasis] at h
    obtain ⟨req, hreq, h⟩ := bind_eq_ok.mp h
    cases hreq
    obtain ⟨bytes, -, h⟩ := bind_eq_ok.mp h
    cases h
    exact sendMsgPre_tId ..
  | maskWriteRegister addr andMask orMask =>
    rw [message, hbasis] at h
    cases h
    exact sendMsgPre_tId ..
  | writeAndReadRegisters writeAddr writeNb src readAddr readNb dest =>
    rw [message, hbasis] at h
    obtain ⟨req, hreq, h⟩ := bind_eq_ok.mp h
    cases hreq
    obtain ⟨bytes, -, h⟩ := bind_eq_ok.mp h
    cases h
    exact sendMsgPre_tId ..
  | reportSlaveId maxDest dest => exact hcall.elim
  | sendRawRequestTid rawReq tid => exact hcall.elim
  | reply ver req reqLength m => exact hcall.elim
  | replyException req exceptionCode => exact hcall.elim

/-! ### Runs -/

/-- What is seen of a call: its value and `errno`, the number of its request, the answer to that,
and the bytes that were read during the call. -/
structure CallReport where
  rc : Int
  errno : Errno
  own : Nat
  response : List UInt8
  used : List Piece

def Sender.report (fuel : Nat) (net : Network) (s : Sender) (st : St Late) :
    Run (CallReport × St Late) := do
  let (rc, st') ← s.returns (lateOs fuel net) st
  .ok (⟨rc, st'.errno, st.os.answers.length, st'.os.answers.getD st.os.answers.length [],
    (st'.os.read.drop st.os.read.length).map Received.piece⟩, st')

/-- The transaction ids, counted from the one the context started with. -/
def tIdFrom (tId : UInt16) (i : Nat) : UInt16 := tId + UInt16.ofNat (i + 1)

theorem nextTId_eq (tId : UInt16) : nextTId tId = tId + 1 := by
  unfold nextTId
  split_ifs with h
  · rfl
  · have hlt := tId.toNat_lt
    apply UInt16.toNat_inj.mp
    rw [UInt16.toNat_add]
    show 0 = (tId.toNat + 1) % 65536
    omega

/-- Two ids are the same only if they are at least 65536 requests apart. -/
theorem eq_of_tIdFrom {tId : UInt16} {k n : Nat} (h : tIdFrom tId k = tIdFrom tId n) (hkn : k ≤ n)
    (hlate : n - k ≤ 65535) : k = n := by
  have h' := congrArg UInt16.toNat h
  simp only [tIdFrom, UInt16.toNat_add, UInt16.toNat_ofNat'] at h'
  omega

/-- A context whose requests so far were all answered, under their ids and whole. -/
structure Serving (ctx : Modbus) (st : St Late) : Prop where
  context : st.ctx = { ctx with tId := ctx.tId + UInt16.ofNat st.os.answers.length }
  served : Served (tIdFrom ctx.tId) st.os.answers
  aligned : ∃ k, st.os.Aligned k

/-- No answer is read too late, and no flush finds more than it throws away. -/
def Timely (st : St Late) : Prop :=
  (∀ r ∈ st.os.read, r.late ≤ 65535) ∧ ∀ n ∈ st.os.found, n ≤ flushLimit

theorem next_of_serving {ctx : Modbus} {st : St Late} (htcp : ctx.backend = .tcp)
    (h : Serving ctx st) :
    st.ctx.next = { ctx with tId := tIdFrom ctx.tId st.os.answers.length } := by
  have hid : nextTId (ctx.tId + UInt16.ofNat st.os.answers.length) =
      tIdFrom ctx.tId st.os.answers.length := by
    rw [nextTId_eq, tIdFrom, UInt16.ofNat_add, ← UInt16.add_assoc]
    rfl
  rw [h.context, Modbus.next, htcp]
  simp only [hid]

section

variable {fuel : Nat} {net : Network} {ctx : Modbus} {s : Sender} {st st' : St Late}
  {o : CallReport}

theorem report_timely (h : s.report fuel net st = .ok (o, st')) (ht : Timely st') : Timely st := by
  obtain ⟨⟨rc, st₁⟩, hret, h⟩ := bind_eq_ok.mp h
  cases h
  obtain ⟨hread, hfound⟩ :=
    (s.run_obeys (lateOs_grown fuel net _)).result (Sender.run_of_returns hret)
  exact ⟨fun r hr => ht.1 r (hread.subset hr), fun n hn => ht.2 n (hfound.subset hn)⟩

/-- One call. -/
theorem report_serving (hf : 0 < fuel) (hnet : Echoes net) (hc : Connected ctx)
    (htcp : ctx.backend = .tcp) (hs : s.IsCall ∧ s.Accepted .tcp) (hst : Serving ctx st)
    (ht : Timely st') (h : s.report fuel net st = .ok (o, st')) :
    (Accepts o.rc o.errno → o.used = label o.own o.response) ∧ Serving ctx st' := by
  obtain ⟨⟨rc, st₁⟩, hret, h⟩ := bind_eq_ok.mp h
  cases h
  have hctx : st.ctx.backend = .tcp := by rw [hst.context, htcp]
  obtain ⟨msg, rc₁, rsp, hmsg, hexchange, hrc⟩ := s.exchanges hs.1 (hctx ▸ hs.2) hret
  obtain ⟨q, hq, htid⟩ := s.frame_tcp hs.1 hctx hmsg
  have hnext := next_of_serving htcp hst
  rw [hnext] at hexchange htid
  have htid' : q.tId = tIdFrom ctx.tId st.os.answers.length := htid
  obtain ⟨used, hconsumed, hacc⟩ := exchange_served hf hnet
    { st with ctx := { ctx with tId := tIdFrom ctx.tId st.os.answers.length } } hc htcp hst.served
    hst.aligned hq htid' hexchange
  have hanswers : st'.os.answers =
      st.os.answers ++ [net.respond st.os.answers.length (q.bytes .tcp)] := hconsumed.answers
  have hread : st'.os.read = st.os.read ++
      used.map fun p => ⟨p, st.os.answers.length + 1⟩ := hconsumed.read
  have hserved : Served (tIdFrom ctx.tId) st'.os.answers := by
    rw [hanswers]
    exact hst.served.concat (htid' ▸ hnet st.os.answers.length q)
  have hlen : st'.os.answers.length = st.os.answers.length + 1 := by
    rw [hanswers]
    exact List.length_append
  refine ⟨fun haccepts => ?_, ?_, hserved, hconsumed.aligned ht.2⟩
  · have haccepts' : Accepts rc₁ st'.errno := by
      rcases haccepts with hne | hcode
      · exact Or.inl fun hfail => hne (hrc hfail)
      · exact Or.inr hcode
    obtain ⟨k, hk, hsame, rfl⟩ := hacc haccepts'
    have hkn : k ≤ st.os.answers.length := hk
    obtain ⟨r, hr, -⟩ := hserved k (by omega)
    -- the id tells the answer from all those that are not too late
    have hlate : st.os.answers.length - k ≤ 65535 := by
      have hmem : (⟨⟨k, hi r.tId.toNat⟩, st.os.answers.length + 1⟩ : Received) ∈ st'.os.read := by
        rw [hread, hr]
        exact List.mem_append_right _ List.mem_cons_self
      have hle := ht.1 _ hmem
      simp only [Received.late] at hle
      omega
    obtain rfl : k = st.os.answers.length := eq_of_tIdFrom hsame hk hlate
    show (st'.os.read.drop st.os.read.length).map Received.piece = _
    rw [hread, List.drop_left, List.map_map]
    exact List.map_id _
  · rw [hconsumed.ctx, hlen]
    rfl

end

/-- **No stale response is accepted**, as long as none is read more than 65535 requests late and
no recovery flush finds more bytes than it throws away. -/
theorem stale_never_accepted {fuel : Nat} (hf : 0 < fuel) {net : Network} (hnet : Echoes net)
    {ctx : Modbus} (hc : Connected ctx) (htcp : ctx.backend = .tcp) (errno : Errno)
    {calls : List Sender} (hcalls : ∀ s ∈ calls, s.IsCall ∧ s.Accepted .tcp)
    {os : List CallReport} {st' : St Late}
    (h : runs (Sender.report fuel net) calls ⟨ctx, errno, .start⟩ = .ok (os, st'))
    (hlate : ∀ r ∈ st'.os.read, r.late ≤ 65535) (hflush : ∀ n ∈ st'.os.found, n ≤ flushLimit) :
    ∀ o ∈ os, Accepts o.rc o.errno → o.used = label o.own o.response := by
  have hstart : Serving ctx ⟨ctx, errno, .start⟩ := by
    refine ⟨?_, fun i hi => absurd hi (Nat.not_lt_zero i), 0, Nat.le_refl 0, rfl⟩
    show ctx = { ctx with tId := ctx.tId + 0 }
    rw [UInt16.add_zero]
  exact (runs_inv_of_last h report_timely (report_serving hf hnet hc htcp) hcalls hstart
    ⟨hlate, hflush⟩).1

/-- A server that refuses everything, at once. -/
def refusal (tId : UInt16) : Adu := ⟨tId, 0, 3, 1, [0x83, 2]⟩

def refusingNet : Network where
  respond _ m := (refusal (UInt16.ofNat (word (m.getD 0 0) (m.getD 1 0)))).bytes .tcp
  delay _ := 1
  split _ := 260

theorem echoes_refusingNet : Echoes refusingNet := by
  intro n q
  have htid : UInt16.ofNat (word ((q.bytes .tcp).getD 0 0) ((q.bytes .tcp).getD 1 0)) = q.tId :=
    ofNat_word_hi_lo q.tId
  have hshape : ResponsePdu [0x03 + 0x80, 2] := .exception (Or.inl ⟨by decide, by decide⟩) 2
  refine ⟨refusal q.tId, ?_, rfl, rfl, hshape.framed (by decide)⟩
  show (refusal _).bytes .tcp = _
  rw [htid]

def refusedCall : Sender := .readRegisters 0 1 [0]

theorem stale_never_accepted_sample : ∃ os st',
    runs (Sender.report 1 refusingNet) [refusedCall]
      ⟨{ modbusNew .tcp with slave := 1, s := 3 }, .sys .EINTR, .start⟩ = .ok (os, st') ∧
    os.length = 1 ∧ ∀ o ∈ os, Accepts o.rc o.errno → o.used = label o.own o.response := by
  have hcalls : ∀ s ∈ [refusedCall], s.IsCall ∧ s.Accepted .tcp := by
    intro s hs
    rw [List.mem_singleton.mp hs]
    exact ⟨trivial, show ¬ ((1 : Int) < 1 ∨ (125 : Int) < 1) by decide⟩
  have hc : Connected { modbusNew .tcp with slave := 1, s := 3 } := ⟨by decide, by decide⟩
  refine ⟨_, _, rfl, rfl, ?_⟩
  exact stale_never_accepted Nat.one_pos echoes_refusingNet hc rfl (.sys .EINTR) hcalls rfl
    (by decide) (by decide)

end Libmodbus
