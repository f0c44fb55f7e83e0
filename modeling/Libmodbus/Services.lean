/-
Libmodbus/Services.lean

What may stand at the other end of a line.

    request for a unit  ──▶  service  ──▶  answer, exception or silence

A `Service` says in the abstract what becomes of a request for a unit, and what
it does to a state that no frame shows.  `Provides` is the link to the code: a
peer that gets the frame of a request puts the frame of the reaction on the
line, if there is one.

The client needs nothing else.  `service_refinement`: over every run of
`modbus_set_slave` and client calls, the values, `errno` and the arrays of the
caller are those of the service, whatever serves it.  A single server is the
service of a memory (`server_provides`).
-/
import Libmodbus.Calls
import Libmodbus.Stale

namespace Libmodbus

open CSem Wire Posix

variable {σ τ δ : Type} {be : Backend}

/-! ### Services -/

/-- The response is one that a memory gives to the request. -/
def Request.Gives (r : Request) (response : Response) : Prop :=
  ∃ mem mem', r.apply mem = some (response, mem')

/-- What becomes of a request.  An answer has the form that the request asks for, and an exception
has a code of the protocol. -/
inductive Reaction (r : Request)
  | answer (response : Response) (h : r.Gives response)
  | exception (code : Fin exceptionMax)
  | silence

/-- The reaction to a request for a unit, and the state it leaves. -/
abbrev Service (τ : Type) : Type := UInt8 → (r : Request) → τ → Reaction r × τ

/-- A memory answers, or refuses when an addressed cell is missing. -/
def Memory.react (r : Request) (mem : Memory) : Reaction r × Memory :=
  match h : r.apply mem with
  | some (response, mem') => (.answer response ⟨mem, mem', h⟩, mem')
  | none => (.exception ⟨exceptionIllegalDataAddress, by decide⟩, mem)

/-- A memory that is read and written under every unit. -/
def memoryService : Service Memory := fun _ r mem => mem.react r

theorem Memory.react_some {r : Request} {mem mem' : Memory} {response : Response}
    (h : r.apply mem = some (response, mem')) :
    mem.react r = (.answer response ⟨mem, mem', h⟩, mem') := by
  unfold react
  split
  · rename_i response' mem'' h'
    cases h.symm.trans h'
    rfl
  · rename_i h'
    cases h.symm.trans h'

theorem Memory.react_none {r : Request} {mem : Memory} (h : r.apply mem = none) :
    mem.react r = (.exception ⟨exceptionIllegalDataAddress, by decide⟩, mem) := by
  unfold react
  split
  · rename_i h'
    cases h.symm.trans h'
  · rfl

/-! ### On the wire -/

/-- A frame with protocol id 0. -/
def freshAdu (tId : UInt16) (unit : UInt8) (pdu : List UInt8) : Adu :=
  (⟨tId, 0, 0, unit, pdu⟩ : Adu).sealed

/-- The PDU of a reaction, if there is one. -/
def Reaction.pdu {r : Request} : Reaction r → Option (List UInt8)
  | answer response _ => some (r.function :: r.answerData response)
  | exception code => some [lo (r.function.toNat + 0x80 : Nat), lo code.val]
  | silence => none

/-- The bytes of a reaction, in the envelope of its request. -/
def Reaction.bytes (be : Backend) (tId : UInt16) (unit : UInt8) {r : Request} (x : Reaction r) :
    List UInt8 :=
  match x.pdu with
  | some pdu => (freshAdu tId unit pdu).bytes be
  | none => []

/-- **What serves a service.**  In a state that stands for `t`, the peer puts on the line what the
service makes of a request for one of its units, and is then in a state that stands for the new
one. -/
def Provides (be : Backend) (react : List UInt8 → δ → List UInt8 × δ) (svc : Service τ)
    (units : UInt8 → Prop) (R : τ → δ → Prop) : Prop :=
  ∀ {t : τ} {s : δ} {unit : UInt8} {r : Request} (tId : UInt16), R t s → units unit → r.Valid →
    ∃ s', react ((freshAdu tId unit r.pdu).bytes be) s =
      ((svc unit r t).1.bytes be tId unit, s') ∧ R (svc unit r t).2 s'

theorem length_answerData_le {r : Request} (hr : r.Valid) {response : Response}
    (h : r.Gives response) : (r.answerData response).length + 1 ≤ maxPduLength := by
  obtain ⟨mem, mem', happly⟩ := h
  rw [Request.length_answer happly]
  cases r with
  | readBits isInput addr nb =>
    have := hr.2.2
    simp only [maxReadBits] at this
    simp only [Request.answerLength, maxPduLength]
    omega
  | readRegisters isInput addr nb =>
    have := hr.2.2
    simp only [maxReadRegisters] at this
    simp only [Request.answerLength, maxPduLength]
    omega
  | writeAndRead readAddr nb writeAddr values =>
    have := hr.2.1.2
    simp only [maxWrReadRegisters] at this
    simp only [Request.answerLength, maxPduLength]
    omega
  | _ => exact Nat.le_of_ble_eq_true rfl

/-- The receive loop takes an answer whole. -/
theorem framed_answer {r : Request} (hr : r.Valid) {response : Response} (h : r.Gives response) :
    Framed .confirmation (r.function :: r.answerData response) := by
  have hlen := length_answerData_le hr h
  refine ResponsePdu.framed ?_ hlen
  obtain ⟨mem, mem', happly⟩ := h
  cases r with
  | readBits isInput addr nb =>
    obtain ⟨vs, -, he⟩ := Option.map_eq_some_iff.mp happly
    cases he
    have hbyte : (packBits vs).length < 256 := by
      simp only [Request.answerData, List.length_cons, maxPduLength] at hlen
      omega
    refine .values ?_ _ _ (toNat_lo_nat hbyte).symm
    cases isInput <;> simp [Request.function]
  | readRegisters isInput addr nb =>
    obtain ⟨vs, -, he⟩ := Option.map_eq_some_iff.mp happly
    cases he
    have hbyte : (bigEndian vs).length < 256 := by
      simp only [Request.answerData, List.length_cons, maxPduLength] at hlen
      omega
    refine .values ?_ _ _ (toNat_lo_nat hbyte).symm
    cases isInput <;> simp [Request.function]
  | writeAndRead readAddr nb writeAddr values =>
    obtain ⟨old, -, h⟩ := Option.bind_eq_some_iff.mp happly
    obtain ⟨old', -, h⟩ := Option.bind_eq_some_iff.mp h
    obtain ⟨vs, -, he⟩ := Option.map_eq_some_iff.mp h
    cases he
    have hbyte : (bigEndian vs).length < 256 := by
      simp only [Request.answerData, List.length_cons, maxPduLength] at hlen
      omega
    exact .values (by simp [Request.function]) _ _ (toNat_lo_nat hbyte).symm
  -- the writes are echoed
  | writeBit addr status =>
    cases written_of_map happly
    exact .written (by simp [Request.function]) _ _ _ _
  | writeRegister addr value =>
    cases written_of_map happly
    exact .written (by simp [Request.function]) _ _ _ _
  | writeBits addr values =>
    cases written_of_map happly
    exact .written (by simp [Request.function]) _ _ _ _
  | writeRegisters addr values =>
    cases written_of_map happly
    exact .written (by simp [Request.function]) _ _ _ _
  | maskWrite addr andMask orMask =>
    cases written_of_map happly
    exact .maskWritten _ _ _ _ _ _

theorem framed_refusal (r : Request) (code : Nat) :
    Framed .confirmation [lo (r.function.toNat + 0x80 : Nat), lo code] := by
  have hlt := r.function_lt
  have hbyte : (lo (r.function.toNat + 0x80 : Nat)).toNat = r.function.toNat + 0x80 :=
    toNat_lo_nat (by omega)
  exact framed_exception (by omega) _

/-- The receive loop takes what comes back. -/
theorem Reaction.framed {r : Request} (hr : r.Valid) {x : Reaction r} {pdu : List UInt8}
    (h : x.pdu = some pdu) : Framed .confirmation pdu := by
  cases x with
  | answer response hgives =>
    cases h
    exact framed_answer hr hgives
  | exception code =>
    cases h
    exact framed_refusal r code.val
  | silence => cases h

theorem Reaction.bytes_some {r : Request} {x : Reaction r} {pdu : List UInt8} (h : x.pdu = some pdu)
    (tId : UInt16) (unit : UInt8) : x.bytes be tId unit = (freshAdu tId unit pdu).bytes be := by
  simp only [bytes, h]

theorem Reaction.bytes_none {r : Request} {x : Reaction r} (h : x.pdu = none) (tId : UInt16)
    (unit : UInt8) : x.bytes be tId unit = [] := by
  simp only [bytes, h]

/-! ### Receiving from a peer -/

section Receiving

variable {fuel : Nat} {react : List UInt8 → δ → List UInt8 × δ} {st : St (Peered δ)}
  {frame : List UInt8} {s' : δ}

/-- An empty line stays empty, and the peer is not asked. -/
theorem peerOs_drains (fuel : Nat) (react : List UInt8 → δ → List UInt8 × δ) (s : δ) :
    Drains (peerOs fuel react) fun p => p.line.input = [] ∧ p.peer = s where
  sleep h := h
  recvDontwait := by
    rintro n p ⟨hline, hpeer⟩
    refine ⟨?_, hpeer⟩
    show (p.line.recv n).2.input = []
    rw [Link.recv_nil hline, hline]
  tcflush h := ⟨rfl, h.2⟩

/-- What the peer has put on the line is received. -/
theorem receive_reply (hf : 0 < fuel) (hc : Connected st.ctx) (hline : st.os.line.input = [])
    {a : Adu} (hreact : react frame st.os.peer = (a.bytes st.ctx.backend, s'))
    (ha : Framed .confirmation a.pdu) (haddr : Addressed st.ctx a) :
    ∃ os', modbusReceiveMsg (peerOs fuel react) { st with os := st.os.send react frame }
        .confirmation = .ok (((a.bytes st.ctx.backend).length : Nat), a.bytes st.ctx.backend,
          { st with os := os' }) ∧
      os'.line.input = [] ∧ os'.peer = s' := by
  have hin : (st.os.send react frame).line.input = a.bytes st.ctx.backend ++ [] := by
    show st.os.line.input ++ (react frame st.os.peer).1 = _
    rw [hline, hreact, List.nil_append, List.append_nil]
  have hpeer : (st.os.send react frame).peer = s' := by
    show (react frame st.os.peer).2 = s'
    rw [hreact]
  obtain ⟨os', hrcv, ⟨ht, -⟩, htp⟩ := modbusReceiveMsg_adu (peerOs_source fuel react) hf
    (show Connected (⟨st.ctx, st.errno, st.os.send react frame⟩ : St (Peered δ)).ctx from hc) ha hin
  rw [Adu.verdict_of_addressed haddr] at hrcv
  exact ⟨os', hrcv, List.append_cancel_left (ht.symm.trans hin), htp.trans hpeer⟩

/-- When the peer is silent the receive call times out. -/
theorem receive_silence (hf : 0 < fuel) (hc : Connected st.ctx) (hline : st.os.line.input = [])
    (hreact : react frame st.os.peer = ([], s')) :
    ∃ os', modbusReceiveMsg (peerOs fuel react) { st with os := st.os.send react frame }
        .confirmation = .ok (-1, [], ⟨st.ctx, .ETIMEDOUT, os'⟩) ∧
      os'.line.input = [] ∧ os'.peer = s' := by
  set sent := st.os.send react frame with hsent
  have hin : sent.line.input = [] := by
    show st.os.line.input ++ (react frame st.os.peer).1 = []
    rw [hline, hreact, List.append_nil]
  have hpeer : sent.peer = s' := by
    show (react frame st.os.peer).2 = s'
    rw [hreact]
  have hselect : ∀ tv, (peerOs fuel react).select tv sent = (.timeout, sent) := by
    intro tv
    show ((if sent.line.input = [] then Readiness.timeout else .ready), sent) = _
    rw [if_pos hin]
  have hrcv : modbusReceiveMsg (peerOs fuel react) ⟨st.ctx, st.errno, sent⟩ .confirmation =
      recoverSelect (peerOs fuel react) ⟨st.ctx, .ETIMEDOUT, sent⟩ >>= fun st =>
        .ok (-1, [], st) :=
    modbusReceiveMsg_timeout hf (show Connected (⟨st.ctx, st.errno, sent⟩ : St (Peered δ)).ctx from hc)
      hselect
  obtain ⟨os', hrecover, hos⟩ : ∃ os', recoverSelect (peerOs fuel react)
      ⟨st.ctx, .ETIMEDOUT, sent⟩ = .ok ⟨st.ctx, .ETIMEDOUT, os'⟩ ∧
        os'.line.input = [] ∧ os'.peer = s' := by
    by_cases hlink : st.ctx.errorRecovery.link
    · obtain ⟨e, os', hflush, hos⟩ : ∃ e os', sleepAndFlush (peerOs fuel react)
          ⟨st.ctx, .ETIMEDOUT, sent⟩ = .ok ⟨st.ctx, e, os'⟩ ∧
          os'.line.input = [] ∧ os'.peer = s' :=
        sleepAndFlush_ends (peerOs_drains fuel react s') ⟨hin, hpeer⟩
      refine ⟨os', ?_, hos⟩
      simp only [recoverSelect, hlink, not_true_eq_false, if_false, if_true, hflush, ok_bind]
    · exact ⟨sent, if_pos hlink, hin, hpeer⟩
  exact ⟨os', hrcv.trans (by rw [hrecover]; rfl), hos⟩

end Receiving

end Libmodbus
