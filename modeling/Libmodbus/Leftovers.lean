/-
Libmodbus/Leftovers.lean

A run in which a stale response is accepted, because a flush has left a part of
it behind.

    calls 1 .. 255   125 registers are asked for, and nothing comes
    call  256        all 256 responses come; the first one is refused and the
                     others are flushed, but for the last 265 bytes
    call  257        a register is written, and what is left of the responses
                     255 and 256 is accepted as its confirmation

The flush counts in a `uint16_t` that may not wrap, so it ends after 65780
bytes; 255 responses of 259 bytes are more.  Where it stops is the middle of
response 255, whose data look like a header under the next transaction id.
-/
import Libmodbus.Recovery
import Libmodbus.Stale

namespace Libmodbus

open CSem Wire Posix

/-! ### The server -/

/-- 125 registers, of which the last three are 0x0107, 0 and 0. -/
def registerBytes : List UInt8 := List.replicate 244 0 ++ [1, 7, 0, 0, 0, 0]

/-- The response that carries them. -/
def registersAdu (tId : UInt16) : Adu := ⟨tId, 0, 253, 1, 3 :: 250 :: registerBytes⟩

/-- The write of register 0, as it is sent and confirmed. -/
def writeAdu : Adu := ⟨263, 0, 6, 1, [6, 0, 0, 0, 253]⟩

/-- A write is echoed, everything else answered with registers; nothing comes before time 255. -/
def heldNet : Network where
  respond _ m :=
    if m = writeAdu.bytes .tcp then m
    else (registersAdu (UInt16.ofNat (word (m.getD 0 0) (m.getD 1 0)))).bytes .tcp
  delay clock := if clock < 255 then 0 else 300
  split _ := 260

theorem length_registerBytes : registerBytes.length = 250 := by
  rw [registerBytes, List.length_append, List.length_replicate]
  rfl

theorem length_registersAdu (tId : UInt16) : ((registersAdu tId).bytes .tcp).length = 259 := by
  rw [Adu.length_bytes, registersAdu, List.length_cons, List.length_cons, length_registerBytes]
  rfl

theorem framed_registersAdu (tId : UInt16) : Framed .confirmation (registersAdu tId).pdu := by
  have hshape : ResponsePdu (registersAdu tId).pdu :=
    .values (Or.inr (Or.inr (Or.inl rfl))) 250 _ length_registerBytes
  refine hshape.framed ?_
  rw [registersAdu, List.length_cons, List.length_cons, length_registerBytes]
  decide

theorem framed_writeAdu : Framed .confirmation writeAdu.pdu :=
  (ResponsePdu.written (Or.inr (Or.inl rfl)) 0 0 0 253).framed (show 5 ≤ 253 by decide)

theorem echoes_heldNet : Echoes heldNet := by
  intro n q
  have htid : UInt16.ofNat (word ((q.bytes .tcp).getD 0 0) ((q.bytes .tcp).getD 1 0)) = q.tId :=
    ofNat_word_hi_lo q.tId
  by_cases hq : q.bytes .tcp = writeAdu.bytes .tcp
  · refine ⟨writeAdu, (if_pos hq).trans hq, ?_, rfl, framed_writeAdu⟩
    rw [← htid, hq]
    rfl
  · refine ⟨registersAdu q.tId, ?_, rfl, rfl, framed_registersAdu q.tId⟩
    show (if q.bytes .tcp = writeAdu.bytes .tcp then _ else _) = _
    rw [if_neg hq, htid]

/-! ### The client -/

/-- A client of slave 1 that recovers the protocol, after its sixth request. -/
def heldCtx (tId : UInt16) : Modbus :=
  { modbusNew .tcp with slave := 1, s := 3, errorRecovery := ⟨false, true⟩, tId := tId }

theorem connected_heldCtx (tId : UInt16) : Connected (heldCtx tId) :=
  ⟨show (0 : Int) ≤ 3 by decide, show (3 : Int) < 1024 by decide⟩

def readCall : Sender := .readRegisters 0 125 (List.replicate 125 0)

def writeCall : Sender := .writeRegister 0 253

/-- The request for 125 registers. -/
def readAdu (tId : UInt16) : Adu := ⟨tId, 0, 6, 1, [3, 0, 0, 0, 125]⟩

theorem bytes_readAdu (tId : UInt16) : (readAdu tId).bytes .tcp =
    [hi tId.toNat, lo tId.toNat, hi (0 : UInt16).toNat, lo (0 : UInt16).toNat,
      hi (6 : UInt16).toNat, lo (6 : UInt16).toNat, 1, 3, 0, 0, 0, 125] := rfl

theorem sendMsgPre_readAdu (tId : UInt16) :
    sendMsgPre .tcp [hi tId.toNat, lo tId.toNat, 0, 0, 0, 0, lo 1, lo fcReadHoldingRegisters,
      hi 0, lo 0, hi 125, lo 125] = (readAdu tId).bytes .tcp := by
  have hhigh : hi (0 : UInt16).toNat = 0 := rfl
  have hlow : lo (0 : UInt16).toNat = 0 := rfl
  rw [bytes_readAdu, hhigh, hlow]
  rfl

theorem respond_readAdu (n : Nat) (tId : UInt16) :
    heldNet.respond n ((readAdu tId).bytes .tcp) = (registersAdu tId).bytes .tcp := by
  have hne : (readAdu tId).bytes .tcp ≠ writeAdu.bytes .tcp := by
    intro h
    have h7 : (3 : UInt8) = 6 := congrArg (fun bytes => bytes.getD 7 0) h
    exact absurd h7 (by decide)
  have htid : UInt16.ofNat (word (((readAdu tId).bytes .tcp).getD 0 0)
      (((readAdu tId).bytes .tcp).getD 1 0)) = tId := ofNat_word_hi_lo tId
  show (if (readAdu tId).bytes .tcp = writeAdu.bytes .tcp then _ else _) = _
  rw [if_neg hne, htid]

/-- A read is one exchange of its message. -/
theorem readCall_returns {tId : UInt16} {e e' : Errno} {s s' : Late} (rsp : List UInt8)
    (h : ∀ msg, sendMsgPre .tcp msg = (readAdu (tId + 1)).bytes .tcp →
      exchange (lateOs 1 heldNet) ⟨heldCtx (tId + 1), e, s⟩ msg =
        .ok (-1, rsp, ⟨heldCtx (tId + 1), e', s'⟩)) :
    readCall.returns (lateOs 1 heldNet) ⟨heldCtx tId, e, s⟩ =
      .ok (-1, ⟨heldCtx (tId + 1), e', s'⟩) := by
  have hnext : (heldCtx tId).next = heldCtx (tId + 1) := by
    show { heldCtx tId with tId := nextTId tId } = _
    rw [nextTId_eq]
    rfl
  have hnb : ¬ ((125 : Int) < 1 ∨ (maxReadRegisters : Int) < 125) := by decide
  show (readAnyRegisters (lateOs 1 heldNet) ⟨heldCtx tId, e, s⟩ fcReadHoldingRegisters 0 125
    (List.replicate 125 0)).map _ = _
  rw [readAnyRegisters, if_neg hnb, readRegistersCall, if_neg (fun h => hnb (Or.inr h)),
    buildRequestBasis_tcp rfl, hnext, ok_bind]
  have hid : (heldCtx (tId + 1)).tId = tId + 1 := rfl
  have hslave : (heldCtx tId).slave = 1 := rfl
  simp only
  rw [hid, hslave, h _ (sendMsgPre_readAdu (tId + 1))]
  rfl

/-! ### The timeouts -/

/-- The answers to the first `k` requests. -/
def heldAnswers (k : Nat) : List (List UInt8) :=
  (List.range k).map fun i => (registersAdu (tIdFrom 6 i)).bytes .tcp

theorem length_heldAnswers (k : Nat) : (heldAnswers k).length = k := by
  rw [heldAnswers, List.length_map, List.length_range]

theorem heldAnswers_succ (k : Nat) :
    heldAnswers (k + 1) = heldAnswers k ++ [(registersAdu (tIdFrom 6 k)).bytes .tcp] := by
  rw [heldAnswers, List.range_succ, List.map_append]
  rfl

/-- The line after `k` calls, when nothing has come. -/
def heldLine (k : Nat) : Late := ⟨k, heldAnswers k, 0, [], [], 0, [], Nat.zero_le _⟩

/-- The client then. -/
def heldSt (k : Nat) (e : Errno) : St Late := ⟨heldCtx (6 + UInt16.ofNat k), e, heldLine k⟩

theorem tIdFrom_six (k : Nat) : 6 + UInt16.ofNat k + 1 = tIdFrom 6 k := by
  rw [tIdFrom, UInt16.ofNat_add, UInt16.add_assoc]
  rfl

/-- The next request of a read. -/
theorem heldLine_send (k : Nat) :
    (heldLine k).send heldNet ((readAdu (tIdFrom 6 k)).bytes .tcp) =
      ⟨k, heldAnswers (k + 1), 0, [], [], 0, [], Nat.zero_le _⟩ := by
  have hanswers : (heldLine k).answers ++ [heldNet.respond (heldLine k).answers.length
      ((readAdu (tIdFrom 6 k)).bytes .tcp)] = heldAnswers (k + 1) := by
    rw [respond_readAdu, heldAnswers_succ]
    rfl
  rw [Late.send]
  simp only [hanswers]
  rfl

/-- Before time 255 nothing comes. -/
theorem heldLine_poll {k : Nat} (hk : k < 255) :
    (Late.mk k (heldAnswers (k + 1)) 0 [] [] 0 [] (Nat.zero_le _)).poll heldNet =
      heldLine (k + 1) := by
  have harrived : (Late.mk k (heldAnswers (k + 1)) 0 [] [] 0 [] (Nat.zero_le _)).arrived heldNet =
      0 := by
    show min (0 + if k < 255 then 0 else 300) _ = 0
    rw [if_pos hk, Nat.zero_min]
  rw [Late.poll]
  simp only [harrived, pieces_self]
  rfl

/-- One call times out. -/
theorem readCall_timeout {k : Nat} (hk : k < 255) (e : Errno) :
    readCall.returns (lateOs 1 heldNet) (heldSt k e) = .ok (-1, heldSt (k + 1) .ETIMEDOUT) := by
  have hctx : heldCtx (6 + UInt16.ofNat k + 1) = heldCtx (6 + UInt16.ofNat (k + 1)) := by
    rw [tIdFrom_six, tIdFrom]
  show readCall.returns (lateOs 1 heldNet) ⟨heldCtx (6 + UInt16.ofNat k), e, heldLine k⟩ =
    .ok (-1, ⟨heldCtx (6 + UInt16.ofNat (k + 1)), .ETIMEDOUT, heldLine (k + 1)⟩)
  rw [← hctx]
  refine readCall_returns [] fun msg hmsg => ?_
  rw [tIdFrom_six] at hmsg ⊢
  have hselect : ∀ tv, (lateOs 1 heldNet).select tv
      ((heldLine k).send heldNet ((readAdu (tIdFrom 6 k)).bytes .tcp)) =
        (.timeout, heldLine (k + 1)) := by
    intro tv
    show (if (Late.poll heldNet _).input = [] then _ else _, Late.poll heldNet _) = _
    rw [heldLine_send, heldLine_poll hk]
    rfl
  rw [exchange_late (by decide) heldNet _ rfl hmsg,
    modbusReceiveMsg_timeout (by decide) (connected_heldCtx _) hselect]
  rfl

theorem readCalls_timeout (e : Errno) :
    ∀ k ≤ 255, ∃ os e', runs (Sender.report 1 heldNet) (List.replicate k readCall) (heldSt 0 e) =
      .ok (os, heldSt k e')
  | 0, _ => ⟨[], e, rfl⟩
  | k + 1, hk => by
    obtain ⟨os, e', hruns⟩ := readCalls_timeout e k (by omega)
    have hlast : ∃ o, runs (Sender.report 1 heldNet) [readCall] (heldSt k e') =
        .ok ([o], heldSt (k + 1) .ETIMEDOUT) := by
      rw [runs, Sender.report, readCall_timeout hk]
      exact ⟨_, rfl⟩
    obtain ⟨o, hlast⟩ := hlast
    rw [List.replicate_succ', runs_append hruns, hlast]
    exact ⟨_, _, rfl⟩

/-! ### The flush -/

/-- The first `n` bytes of the input are gone. -/
structure Thrown (n : Nat) (s s' : Late) : Prop where
  answers : s'.answers = s.answers
  delivered : s'.delivered = s.delivered
  input : s'.input = s.input.drop n
  read : s'.read = s.read
  clock : s.clock ≤ s'.clock

/-- One turn of a flush when every answer has come. -/
theorem thrown_discard {net : Network} {s : Late} (h : s.delivered = s.answers.length) (n : Nat) :
    Thrown n s (s.discard net n) := by
  obtain ⟨hdelivered, hinput⟩ := Late.poll_of_delivered net h
  refine ⟨rfl, hdelivered.trans h.symm, ?_, rfl, Nat.le_succ _⟩
  rw [Late.discard_input, hinput]

theorem Thrown.trans {n n' : Nat} {s s' s'' : Late} (h : Thrown n s s') (h' : Thrown n' s' s'') :
    Thrown (n + n') s s'' where
  answers := h'.answers.trans h.answers
  delivered := h'.delivered.trans h.delivered
  input := by rw [h'.input, h.input, List.drop_drop]
  read := h'.read.trans h.read
  clock := h.clock.trans h'.clock

/-- The flush stops when its counter would wrap, and leaves what is left. -/
theorem tcpFlushLoop_thrown {fuel : Nat} {net : Network} {turns rcSum : Nat} (st : St Late)
    (hpos : 0 < turns) (hlimit : rcSum + 260 * turns = flushLimit)
    (h : st.os.delivered = st.os.answers.length) (hlen : 260 * turns ≤ st.os.input.length) :
    ∃ s, tcpFlushLoop (lateOs fuel net) turns rcSum st = .ok (-1, ⟨st.ctx, .EOVERFLOW, s⟩) ∧
      Thrown (260 * turns) st.os s := by
  induction turns generalizing rcSum st with
  | zero => exact absurd hpos (Nat.lt_irrefl 0)
  | succ turns ih =>
    obtain ⟨hdelivered, hinput⟩ := Late.poll_of_delivered net h
    have hne : (st.os.poll net).input ≠ [] := by
      rw [hinput]
      exact List.ne_nil_of_length_pos (by omega)
    have hr : (lateOs fuel net).recvDontwait 260 st.os = _ := Late.recvDontwait_of_ne 260 hne
    have hfull : (((st.os.poll net).input.take 260).map Piece.byte).length = 260 := by
      rw [List.length_map, List.length_take, hinput]
      omega
    have hthrown : Thrown 260 st.os (st.os.discard net 260) := thrown_discard h 260
    rw [flushLimit] at hlimit
    rw [tcpFlushLoop, hr]
    simp only [hfull]
    cases turns with
    | zero =>
      -- the last turn
      have hover : 0 < 260 ∧ 65535 - 260 < rcSum := by omega
      rw [if_pos hover]
      exact ⟨_, rfl, hthrown⟩
    | succ turns =>
      have hlimit' : rcSum + 260 + 260 * (turns + 1) = flushLimit := by
        rw [Nat.mul_succ] at hlimit
        rw [Nat.add_assoc, Nat.add_comm 260, hlimit, flushLimit]
      have hover : ¬ (0 < 260 ∧ 65535 - 260 < rcSum) := by omega
      have hleft : 260 * (turns + 1) ≤ (st.os.discard net 260).input.length := by
        rw [hthrown.input, List.length_drop]
        omega
      have hsettled : (st.os.discard net 260).delivered = (st.os.discard net 260).answers.length := by
        rw [hthrown.delivered, hthrown.answers, h]
      obtain ⟨s, hloop, hs⟩ := ih { st with os := st.os.discard net 260 } (Nat.succ_pos _) hlimit'
        hsettled hleft
      rw [if_neg hover, if_true]
      refine ⟨s, hloop, ?_⟩
      rw [Nat.mul_succ, Nat.add_comm]
      exact hthrown.trans hs

/-! ### The call that flushes -/

theorem getD_heldAnswers {i k : Nat} (h : i < k) :
    (heldAnswers k).getD i [] = (registersAdu (tIdFrom 6 i)).bytes .tcp := by
  rw [List.getD_eq_getElem?_getD, heldAnswers, List.getElem?_map, List.getElem?_range h]
  rfl

theorem served_heldAnswers (k : Nat) : Served (tIdFrom 6) (heldAnswers k) := by
  intro i hi
  rw [length_heldAnswers] at hi
  rw [getD_heldAnswers hi]
  exact ⟨registersAdu (tIdFrom 6 i), rfl, rfl, rfl, framed_registersAdu _⟩

/-- A response, up to its last three registers. -/
def registersFront (tId : UInt16) : List UInt8 :=
  (registersAdu tId).header .tcp ++ 3 :: 250 :: List.replicate 244 0

theorem length_registersFront (tId : UInt16) : (registersFront tId).length = 253 := by
  rw [registersFront, List.length_append, Adu.length_header, List.length_cons, List.length_cons,
    List.length_replicate]
  rfl

theorem bytes_registersAdu (tId : UInt16) :
    (registersAdu tId).bytes .tcp = registersFront tId ++ [1, 7, 0, 0, 0, 0] := by
  have hbytes : (registersAdu tId).bytes .tcp =
      (registersAdu tId).header .tcp ++ (3 :: 250 :: registerBytes ++ []) := rfl
  rw [hbytes, List.append_nil, registerBytes, registersFront, List.append_assoc, List.cons_append,
    List.cons_append]

/-- The end of response 254, and response 255. -/
def leftover : List Piece :=
  label 254 [1, 7, 0, 0, 0, 0] ++ label 255 ((registersAdu (tIdFrom 6 255)).bytes .tcp)

/-- The first response is read, and of the others 65780 bytes are thrown away. -/
theorem drop_heldAnswers : (pieces (heldAnswers 256) 1 256).drop flushLimit = leftover := by
  have hlength : (pieces (heldAnswers 256) 1 254).length = 253 * 259 := by
    refine length_pieces fun i _ hi => ?_
    rw [getD_heldAnswers (Nat.lt_trans hi (by decide)), length_registersAdu]
  have hfront : (label 254 (registersFront (tIdFrom 6 254))).length = 253 := by
    rw [length_label, length_registersFront]
  have hlabel : label 254 ((registersAdu (tIdFrom 6 254)).bytes .tcp) =
      label 254 (registersFront (tIdFrom 6 254)) ++ label 254 [1, 7, 0, 0, 0, 0] := by
    rw [bytes_registersAdu, label, label, label, List.map_append]
  have hsplit : pieces (heldAnswers 256) 1 256 = (pieces (heldAnswers 256) 1 254 ++
      label 254 (registersFront (tIdFrom 6 254))) ++ leftover := by
    rw [← pieces_append _ (show 1 ≤ 254 by decide) (show 254 ≤ 256 by decide),
      pieces_cons _ (show 254 < 256 by decide), pieces_cons _ (show 255 < 256 by decide),
      pieces_self, List.append_nil, getD_heldAnswers (by decide), getD_heldAnswers (by decide),
      hlabel, leftover, List.append_assoc, List.append_assoc]
  rw [hsplit]
  refine List.drop_left' ?_
  rw [List.length_append, hlength, hfront]
  rfl

/-- The line after the flush. -/
structure LeftBehind (s : Late) : Prop where
  answers : s.answers = heldAnswers 256
  delivered : s.delivered = 256
  input : s.input = leftover
  read : ∀ r ∈ s.read, r.sent ≤ 257

theorem Thrown.leftBehind {s s' : Late} (h : Thrown flushLimit s s') (hal : s.Aligned 1)
    (hans : s.answers = heldAnswers 256) (hdel : s.delivered = 256)
    (hread : ∀ r ∈ s.read, r.sent ≤ 257) : LeftBehind s' where
  answers := h.answers.trans hans
  delivered := h.delivered.trans hdel
  input := by rw [h.input, hal.input, hans, hdel, drop_heldAnswers]
  read := by
    rw [h.read]
    exact hread

/-- The line when request 255 has been sent. -/
def sentLine : Late := ⟨255, heldAnswers 256, 0, [], [], 0, [], Nat.zero_le _⟩

/-- All responses come during this call.  The first of them is refused, and most of the others are
thrown away. -/
theorem readCall_leftBehind (e : Errno) : ∃ e' s,
    readCall.returns (lateOs 1 heldNet) (heldSt 255 e) =
      .ok (-1, ⟨heldCtx (tIdFrom 6 255), e', s⟩) ∧ LeftBehind s := by
  have hsent : (heldLine 255).send heldNet ((readAdu (tIdFrom 6 255)).bytes .tcp) =
      sentLine := heldLine_send 255
  have hcome : (sentLine.poll heldNet).input ≠ [] := by
    show [] ++ pieces (heldAnswers 256) 0 (min (0 + 300) (heldAnswers 256).length) ≠ []
    rw [length_heldAnswers, List.nil_append, pieces_cons _ (by decide), getD_heldAnswers (by decide),
      bytes_registersAdu]
    exact List.cons_ne_nil _ _
  have hserved : Served (tIdFrom 6) sentLine.answers := served_heldAnswers 256
  have haligned : sentLine.Aligned 0 := ⟨Nat.le_refl 0, rfl⟩
  rcases receive_served Nat.one_pos heldNet ⟨heldCtx (tIdFrom 6 255), e, sentLine⟩
    (connected_heldCtx _) rfl hserved haligned with
    ⟨hnil, -⟩ | ⟨-, r, s, -, hr, hrtid, -, -, hrcv, hal, hans, -, hread⟩
  · exact absurd hnil hcome
  have hclock : 255 ≤ s.clock :=
    ((modbusReceiveMsg_moved (lateOs_clock 1 heldNet fun _ => True) _ _).result hrcv).os
  -- all responses have come when the flush begins
  have hdelivered : (s.poll heldNet).delivered = 256 := by
    show min (s.delivered + if s.clock < 255 then 0 else 300) s.answers.length = 256
    rw [if_neg (Nat.not_lt.mpr hclock), hans]
    show min (s.delivered + 300) (heldAnswers 256).length = 256
    rw [length_heldAnswers]
    omega
  have hall : (s.poll heldNet).answers = heldAnswers 256 := hans
  have hlength : 260 * 253 ≤ (s.poll heldNet).input.length := by
    rw [hal.poll.input, hall, hdelivered, length_pieces fun i _ hi => by
      rw [getD_heldAnswers hi, length_registersAdu]]
    decide
  have hsettled : (s.poll heldNet).delivered = (s.poll heldNet).answers.length := by
    rw [hdelivered, hall, length_heldAnswers]
  have hflush : ∃ s', tcpFlushLoop (lateOs 1 heldNet) 253 0
      ⟨heldCtx (tIdFrom 6 255), .EMBBADDATA, s.poll heldNet⟩ =
        .ok (-1, ⟨heldCtx (tIdFrom 6 255), .EOVERFLOW, s'⟩) ∧
      Thrown (260 * 253) (s.poll heldNet) s' :=
    tcpFlushLoop_thrown _ (by decide) rfl hsettled hlength
  obtain ⟨s', hloop, hthrown⟩ := hflush
  have hleft : LeftBehind s' := by
    refine Thrown.leftBehind hthrown hal.poll hall hdelivered fun received hmem => ?_
    have hmem : received ∈ s.read := hmem
    rw [hread] at hmem
    obtain ⟨p, -, rfl⟩ := List.mem_map.mp hmem
    show (heldAnswers 256).length ≤ 257
    rw [length_heldAnswers]
    decide
  refine ⟨.EOVERFLOW, s', readCall_returns (r.bytes .tcp) fun msg hmsg => ?_, hleft⟩
  have hrefuses : PreRefuses .tcp ((readAdu (tIdFrom 6 255)).bytes .tcp) (r.bytes .tcp)
      .EMBBADDATA := by
    have hne : ¬ ((readAdu (tIdFrom 6 255)).tId = r.tId ∧ r.protocol = 0) := by
      rw [hrtid]
      exact fun h => absurd h.1 (by decide)
    have hfunction : rd ((registersAdu (tIdFrom 6 0)).bytes .tcp) 7 = .ok 3 := rfl
    rw [← getD_heldAnswers (show 0 < 256 by decide)] at hfunction
    refine ⟨⟨3, hr ▸ hfunction⟩, ?_⟩
    rw [Adu.bytes, Adu.bytes, preCheckConfirmation_tcp, if_neg hne]
  have hflushed : sleepAndFlush (lateOs 1 heldNet)
      ⟨heldCtx (tIdFrom 6 255), .EMBBADDATA, s⟩ =
        .ok ⟨heldCtx (tIdFrom 6 255), .EOVERFLOW, s'⟩ := by
    show (tcpFlushLoop (lateOs 1 heldNet) 253 0
      ⟨heldCtx (tIdFrom 6 255), .EMBBADDATA, s.poll heldNet⟩ >>= fun r => .ok r.2) = _
    rw [hloop]
    rfl
  have hcheck : checkConfirmation (lateOs 1 heldNet) ⟨heldCtx (tIdFrom 6 255), e, s⟩
      ((readAdu (tIdFrom 6 255)).bytes .tcp) (r.bytes .tcp) ((r.bytes .tcp).length : Nat) =
        .ok (-1, ⟨heldCtx (tIdFrom 6 255), .EOVERFLOW, s'⟩) := by
    rw [checkConfirmation_refused _ hrefuses]
    show (sleepAndFlush (lateOs 1 heldNet) ⟨heldCtx (tIdFrom 6 255), .EMBBADDATA, s⟩ >>= _) = _
    rw [hflushed]
    rfl
  have hne : ¬ ((((r.bytes .tcp).length : Nat) : Int) = -1) := by omega
  have hmsg : sendMsgPre .tcp msg = (readAdu (tIdFrom 6 255)).bytes .tcp := hmsg
  show exchange (lateOs 1 heldNet) ⟨heldCtx (tIdFrom 6 255), e, heldLine 255⟩ msg = _
  rw [exchange_late Nat.one_pos heldNet _ rfl hmsg]
  show (modbusReceiveMsg (lateOs 1 heldNet) ⟨heldCtx (tIdFrom 6 255), e,
    (heldLine 255).send heldNet ((readAdu (tIdFrom 6 255)).bytes .tcp)⟩ .confirmation >>= _) = _
  rw [hsent, hrcv, ok_bind]
  simp only [if_neg hne]
  show (checkConfirmation (lateOs 1 heldNet) ⟨heldCtx (tIdFrom 6 255), e, s⟩ (sendMsgPre .tcp msg)
    (r.bytes .tcp) _ >>= _) = _
  rw [hmsg, hcheck]
  rfl

/-! ### The call that is deceived -/

/-- What is left of the responses, read as a response. -/
def staleAdu : Adu := ⟨263, 0, 0, 1, [6, 0, 0, 0, 253]⟩

theorem framed_staleAdu : Framed .confirmation staleAdu.pdu := framed_writeAdu

theorem checkConfirmation_staleAdu (os : Os Late) (e : Errno) (s : Late) :
    checkConfirmation os ⟨heldCtx 263, e, s⟩ (writeAdu.bytes .tcp) (staleAdu.bytes .tcp) 12 =
      .ok (1, ⟨heldCtx 263, e, s⟩) := rfl

/-- The last request, as it is handed over. -/
theorem sendMsgPre_writeAdu :
    sendMsgPre .tcp [hi (263 : UInt16).toNat, lo (263 : UInt16).toNat, 0, 0, 0, 0, lo 1,
      lo fcWriteSingleRegister, hi 0, lo 0, hi 253, lo 253] = writeAdu.bytes .tcp := by
  decide

theorem view_leftover {s : Late} (h : s.input = leftover) :
    ∃ rest, s.view heldNet = staleAdu.bytes .tcp ++ rest := by
  have hbytes : (registersAdu (tIdFrom 6 255)).bytes .tcp = [1, 6, 0, 0, 0, 253] ++
      1 :: 3 :: 250 :: registerBytes := by
    have hheader : (registersAdu (tIdFrom 6 255)).header .tcp = [1, 6, 0, 0, 0, 253, 1] := by decide
    have hbytes : (registersAdu (tIdFrom 6 255)).bytes .tcp =
        (registersAdu (tIdFrom 6 255)).header .tcp ++ (3 :: 250 :: registerBytes ++ []) := rfl
    rw [hbytes, hheader, List.append_nil]
    rfl
  refine ⟨1 :: 3 :: 250 :: registerBytes ++
    (pieces s.answers s.delivered (s.arrived heldNet)).map Piece.byte, ?_⟩
  show (s.input ++ pieces s.answers s.delivered (s.arrived heldNet)).map Piece.byte = _
  rw [List.map_append, h, leftover, List.map_append, map_byte_label, map_byte_label, hbytes,
    List.append_assoc, List.append_assoc]
  rfl

/-- **The write is confirmed by the end of one response and the header of another.** -/
theorem writeCall_deceived (e : Errno) {s : Late} (h : LeftBehind s) : ∃ s',
    writeCall.returns (lateOs 1 heldNet) ⟨heldCtx (tIdFrom 6 255), e, s⟩ =
      .ok (1, ⟨heldCtx 263, e, s'⟩) ∧ s'.answers.length = 257 ∧
    ∃ ts, s'.read = s.read ++ (⟨254, 1⟩ :: ts).map fun p => ⟨p, 257⟩ := by
  have hsent : (s.send heldNet (writeAdu.bytes .tcp)).input = leftover := h.input
  obtain ⟨rest, hview⟩ := view_leftover hsent
  have hreceive : ∃ s', modbusReceiveMsg (lateOs 1 heldNet)
      ⟨heldCtx 263, e, s.send heldNet (writeAdu.bytes .tcp)⟩ .confirmation =
        .ok (12, staleAdu.bytes .tcp, ⟨heldCtx 263, e, s'⟩) ∧
      (s.send heldNet (writeAdu.bytes .tcp)).Took heldNet (staleAdu.bytes .tcp) s' :=
    modbusReceiveMsg_adu (lateOs_source 1 heldNet) Nat.one_pos (connected_heldCtx 263)
      framed_staleAdu hview
  obtain ⟨s', hrcv, htook⟩ := hreceive
  have hlength : (s.send heldNet (writeAdu.bytes .tcp)).answers.length = 257 := by
    show (s.answers ++ [_]).length = 257
    rw [List.length_append, h.answers, length_heldAnswers]
    rfl
  have hnext : (heldCtx (tIdFrom 6 255)).next = heldCtx 263 := rfl
  have hid : (heldCtx 263).tId = 263 := rfl
  have hslave : (heldCtx (tIdFrom 6 255)).slave = 1 := rfl
  have hne : ¬ ((12 : Int) = -1) := by decide
  refine ⟨s', ?_, (congrArg List.length htook.answers).trans hlength, ?_⟩
  · show writeSingle (lateOs 1 heldNet) ⟨heldCtx (tIdFrom 6 255), e, s⟩ fcWriteSingleRegister 0
      (253 : UInt16) = _
    have hvalue : (((253 : UInt16).toNat : Nat) : Int) = 253 := rfl
    rw [writeSingle, buildRequestBasis_tcp rfl, hnext, ok_bind, hid, hslave, hvalue]
    simp only
    rw [exchange_late Nat.one_pos heldNet _ rfl sendMsgPre_writeAdu, hrcv, ok_bind]
    simp only [if_neg hne]
    show (checkConfirmation (lateOs 1 heldNet) ⟨heldCtx 263, e, s'⟩ (sendMsgPre .tcp _)
      (staleAdu.bytes .tcp) 12 >>= _) >>= _ = _
    rw [sendMsgPre_writeAdu, checkConfirmation_staleAdu]
    rfl
  · obtain ⟨ts, more, hts, hread, hinput, -⟩ := htook.moved
    rw [hsent] at hinput
    rw [hlength] at hread
    cases ts with
    | nil => exact absurd (congrArg List.length hts) (by decide)
    | cons p ts =>
      obtain ⟨hp, -⟩ := List.cons.inj (hinput : (⟨254, 1⟩ : Piece) :: _ = p :: (ts ++ s'.input))
      exact ⟨ts, hp ▸ hread⟩

theorem accepted_heldCalls {s : Sender}
    (h : s ∈ List.replicate 255 readCall ++ [readCall, writeCall]) : s.IsCall ∧ s.Accepted .tcp := by
  have hread : readCall.IsCall ∧ readCall.Accepted .tcp :=
    ⟨trivial, show ¬ ((125 : Int) < 1 ∨ (125 : Int) < 125) by decide⟩
  have hwrite : writeCall.IsCall ∧ writeCall.Accepted .tcp := ⟨trivial, trivial⟩
  rcases List.mem_append.mp h with h | h
  · rw [List.eq_of_mem_replicate h]
    exact hread
  · rcases List.mem_cons.mp h with rfl | h
    · exact hread
    · rw [List.mem_singleton.mp h]
      exact hwrite

/-- **A stale response is accepted**, when nothing limits what a recovery flush finds. -/
theorem stale_response_accepted :
    ¬ ∀ (net : Network) (ctx : Modbus) (errno : Errno) (calls : List Sender)
      (os : List CallReport) (st' : St Late), Echoes net → Connected ctx → ctx.backend = .tcp →
      (∀ s ∈ calls, s.IsCall ∧ s.Accepted .tcp) →
      runs (Sender.report 1 net) calls ⟨ctx, errno, .start⟩ = .ok (os, st') →
      (∀ r ∈ st'.os.read, r.late ≤ 65535) →
      ∀ o ∈ os, Accepts o.rc o.errno → o.used = label o.own o.response := by
  intro hclaim
  obtain ⟨os, e, hwaits⟩ := readCalls_timeout (.sys .EINTR) 255 (Nat.le_refl 255)
  obtain ⟨e', s, hleaves, hleft⟩ := readCall_leftBehind e
  obtain ⟨s', hdeceived, hlength, ts, hread⟩ := writeCall_deceived e' hleft
  have hfirst : ∃ o, Sender.report 1 heldNet readCall (heldSt 255 e) =
      .ok (o, ⟨heldCtx (tIdFrom 6 255), e', s⟩) := by
    rw [Sender.report, hleaves]
    exact ⟨_, rfl⟩
  obtain ⟨o', ho', hsecond⟩ : ∃ o' : CallReport, o' = ⟨1, e', s.answers.length,
      s'.answers.getD s.answers.length [], (s'.read.drop s.read.length).map Received.piece⟩ ∧
      Sender.report 1 heldNet writeCall ⟨heldCtx (tIdFrom 6 255), e', s⟩ =
        .ok (o', ⟨heldCtx 263, e', s'⟩) := by
    rw [Sender.report, hdeceived]
    exact ⟨_, rfl, rfl⟩
  obtain ⟨o, hfirst⟩ := hfirst
  have hlast : runs (Sender.report 1 heldNet) [readCall, writeCall] (heldSt 255 e) =
      .ok ([o, o'], ⟨heldCtx 263, e', s'⟩) := by
    rw [runs_cons_ok hfirst, runs_cons_ok hsecond]
    rfl
  have hstart : heldSt 0 (.sys .EINTR) = ⟨heldCtx 6, .sys .EINTR, .start⟩ := rfl
  have hruns := (runs_append hwaits).trans (congrArg (Except.map _) hlast)
  rw [hstart] at hruns
  have hlate : ∀ r ∈ s'.read, r.late ≤ 65535 := by
    intro r hr
    have hsent : r.sent ≤ 257 := by
      rw [hread] at hr
      rcases List.mem_append.mp hr with hr | hr
      · exact hleft.read r hr
      · obtain ⟨p, -, rfl⟩ := List.mem_map.mp hr
        exact Nat.le_refl 257
    exact (Nat.sub_le _ _).trans (hsent.trans (by decide))
  have hstale := hclaim heldNet (heldCtx 6) _ _ _ _ echoes_heldNet (connected_heldCtx 6) rfl
    (fun s hs => accepted_heldCalls hs) hruns hlate o'
    (List.mem_append_right os (List.mem_cons_of_mem o List.mem_cons_self))
    (Or.inl (by rw [ho']; exact (by decide : (1 : Int) ≠ -1)))
  have hused : (s'.read.drop s.read.length).map Received.piece = ⟨254, 1⟩ :: ts := by
    rw [hread, List.drop_left, List.map_map]
    exact List.map_id _
  have hown : s.answers.length = 256 := by rw [hleft.answers, length_heldAnswers]
  rw [ho'] at hstale
  -- the call read a byte of response 254, and its own is number 256
  have hmem : (⟨254, 1⟩ : Piece) ∈ label s.answers.length (s'.answers.getD s.answers.length []) := by
    rw [← hstale, hused]
    exact List.mem_cons_self
  obtain ⟨b, -, hb⟩ := List.mem_map.mp hmem
  rw [hown] at hb
  cases hb

end Libmodbus
