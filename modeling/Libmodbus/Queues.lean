/-
Libmodbus/Queues.lean

What the clients of one server see of each other.

    client 1   x₁ x₂ x₃ ─┐
    client 2   y₁ y₂    ─┼──▶  one order, each queue in its own:  y₁ x₁ x₂ y₂ x₃
    client 3   z₁       ─┘

The clients send requests whenever they like, several at a time if they want,
and the server goes its rounds.  `hub_linearizable`: there is one order in which
the requests are carried out, one after the other, on one memory; it keeps the
order of each client, no request is lost or done twice, and every response goes
to the client that has asked.

`no_client_starves`: a request of a connected client is answered within
2 * FD_SETSIZE + 2 turns, whatever the others do, and whatever they send.
-/
import Libmodbus.Hub
import Libmodbus.Sessions

namespace Libmodbus

open CSem Wire Posix

/-! ### Valid requests do not flush -/

/-- A response that is sent after a flush is an exception. -/
def Curt (function : Nat) (p : PduReply) : Prop :=
  p.flush = true → ∃ code : Nat, p.pdu = [lo (function + 0x80 : Nat), lo code]

section Curt

variable {function : Nat} {pdu : List UInt8} {m : Mapping}

theorem curt_exception (code : Nat) (toFlush : Bool) :
    Curt function (exceptionPdu function code toFlush m) := fun _ => ⟨code, rfl⟩

theorem curt_calm (rsp : List UInt8) (echo : Bool) (m : Mapping) :
    Curt function ⟨rsp, echo, false, m⟩ := fun h => absurd h Bool.false_ne_true

theorem serveReadBits_curt (isInput : Bool) :
    Ends (serveReadBits function pdu m isInput) (Curt function) fun _ => True :=
  Ends.seq fun _ _ => Ends.seq fun _ _ => Ends.seq fun _ _ =>
    Ends.ite (fun _ => curt_exception _ _) fun _ => Ends.seq fun _ _ =>
      Ends.ite (fun _ => curt_exception _ _) fun _ => Ends.seq fun _ _ => curt_calm _ _ _

theorem serveReadRegisters_curt (isInput : Bool) :
    Ends (serveReadRegisters function pdu m isInput) (Curt function) fun _ => True :=
  Ends.seq fun _ _ => Ends.seq fun _ _ => Ends.seq fun _ _ =>
    Ends.ite (fun _ => curt_exception _ _) fun _ => Ends.seq fun _ _ =>
      Ends.ite (fun _ => curt_exception _ _) fun _ => Ends.seq fun _ _ => curt_calm _ _ _

theorem serveWriteSingleCoil_curt :
    Ends (serveWriteSingleCoil function pdu m) (Curt function) fun _ => True :=
  Ends.seq fun _ _ => Ends.seq fun _ _ => Ends.ite (fun _ => curt_exception _ _) fun _ =>
    Ends.ite (fun _ => curt_exception _ _) fun _ => Ends.seq fun _ _ =>
      Ends.ite (fun _ => Ends.seq fun _ _ => curt_calm _ _ _) fun _ => curt_exception _ _

theorem serveWriteSingleRegister_curt :
    Ends (serveWriteSingleRegister function pdu m) (Curt function) fun _ => True :=
  Ends.seq fun _ _ => Ends.seq fun _ _ => Ends.ite (fun _ => curt_exception _ _) fun _ =>
    Ends.ite (fun _ => curt_exception _ _) fun _ => Ends.seq fun _ _ => Ends.seq fun _ _ =>
      curt_calm _ _ _

theorem serveWriteMultipleCoils_curt :
    Ends (serveWriteMultipleCoils function pdu m) (Curt function) fun _ => True :=
  Ends.seq fun _ _ => Ends.seq fun _ _ => Ends.seq fun _ _ => Ends.seq fun _ _ =>
    Ends.ite (fun _ => curt_exception _ _) fun _ => Ends.seq fun _ _ =>
      Ends.ite (fun _ => curt_exception _ _) fun _ => Ends.seq fun _ _ => Ends.seq fun _ _ =>
        curt_calm _ _ _

theorem serveWriteMultipleRegisters_curt :
    Ends (serveWriteMultipleRegisters function pdu m) (Curt function) fun _ => True :=
  Ends.seq fun _ _ => Ends.seq fun _ _ => Ends.seq fun _ _ => Ends.seq fun _ _ =>
    Ends.ite (fun _ => curt_exception _ _) fun _ => Ends.seq fun _ _ =>
      Ends.ite (fun _ => curt_exception _ _) fun _ => Ends.seq fun _ _ => Ends.seq fun _ _ =>
        curt_calm _ _ _

theorem serveMaskWriteRegister_curt :
    Ends (serveMaskWriteRegister function pdu m) (Curt function) fun _ => True :=
  Ends.seq fun _ _ => Ends.seq fun _ _ => Ends.ite (fun _ => curt_exception _ _) fun _ =>
    Ends.seq fun _ _ => Ends.seq fun _ _ => Ends.ite (fun _ => curt_exception _ _) fun _ =>
      Ends.seq fun _ _ => Ends.seq fun _ _ => curt_calm _ _ _

theorem serveWriteAndReadRegisters_curt :
    Ends (serveWriteAndReadRegisters function pdu m) (Curt function) fun _ => True :=
  Ends.seq fun _ _ => Ends.seq fun _ _ => Ends.seq fun _ _ => Ends.seq fun _ _ =>
    Ends.seq fun _ _ => Ends.seq fun _ _ => Ends.seq fun _ _ =>
      Ends.ite (fun _ => curt_exception _ _) fun _ => Ends.seq fun _ _ =>
        Ends.ite (fun _ => curt_exception _ _) fun _ => Ends.seq fun _ _ =>
          Ends.ite (fun _ => curt_exception _ _) fun _ => Ends.seq fun _ _ => Ends.seq fun _ _ =>
            curt_calm _ _ _

/-- **Only an exception comes with a flush**, whatever the request. -/
theorem serveSwitch_curt (ver : VersionString) :
    Ends (serveSwitch function pdu m ver) (Curt function) fun _ => True :=
  Ends.ite (fun _ => serveReadBits_curt false) fun _ =>
  Ends.ite (fun _ => serveReadBits_curt true) fun _ =>
  Ends.ite (fun _ => serveReadRegisters_curt false) fun _ =>
  Ends.ite (fun _ => serveReadRegisters_curt true) fun _ =>
  Ends.ite (fun _ => serveWriteSingleCoil_curt) fun _ =>
  Ends.ite (fun _ => serveWriteSingleRegister_curt) fun _ =>
  Ends.ite (fun _ => serveWriteMultipleCoils_curt) fun _ =>
  Ends.ite (fun _ => serveWriteMultipleRegisters_curt) fun _ =>
  Ends.ite (fun _ => curt_calm _ _ _) fun _ =>
  Ends.ite (fun _ => serveMaskWriteRegister_curt) fun _ =>
  Ends.ite (fun _ => serveWriteAndReadRegisters_curt) fun _ => curt_exception _ _

theorem servePdu_curt {ver : VersionString} {function : UInt8} {data : List UInt8} {p : PduReply}
    (h : servePdu ver (function :: data) m = .ok p) : Curt function.toNat p := by
  have hends : Ends (servePdu ver (function :: data) m) (Curt function.toNat) fun _ => True :=
    Ends.ite (fun _ => serveSwitch_curt ver) fun _ => curt_exception _ _
  exact hends.result h

end Curt

/-- The reply to a valid request is sent at once. -/
theorem servePdu_at_once {ver : VersionString} {m : Mapping} {r : Request} {p : PduReply}
    (h : servePdu ver r.pdu m = .ok p) (ha : r.Answered m p) : p.flush = false := by
  cases ha with
  | refused _ hp =>
    rw [hp]
    rfl
  | done answer mem _ hpdu _ _ =>
    by_contra hflush
    obtain ⟨code, hcode⟩ := servePdu_curt h (Bool.eq_true_of_not_eq_false hflush)
    -- the function code of a request is below 0x80
    have hsame : r.function = lo (r.function.toNat + 0x80 : Nat) :=
      (List.cons.inj (hpdu.symm.trans hcode)).1
    have hlt := r.function_lt
    have hbyte : (lo (r.function.toNat + 0x80 : Nat)).toNat = r.function.toNat + 0x80 :=
      toNat_lo_nat (by omega)
    have hnat := congrArg UInt8.toNat hsame
    omega

/-! ### The requests of the clients -/

/-- A request as a client sends it. -/
structure Asked where
  tId : UInt16
  unit : UInt8
  request : Request
  valid : request.Valid

namespace Asked

def adu (x : Asked) : Adu := freshAdu x.tId x.unit x.request.pdu

def bytes (x : Asked) : List UInt8 := x.adu.bytes .tcp

/-- The response, and the memory after it. -/
def done (x : Asked) (mem : Memory) : List UInt8 × Memory :=
  ((mem.react x.request).1.bytes .tcp x.tId x.unit, (mem.react x.request).2)

theorem bytes_ne_nil (x : Asked) : x.bytes ≠ [] := by
  apply List.ne_nil_of_length_pos
  have hpos := List.length_pos_of_ne_nil (Request.framed x.valid).ne_nil
  rw [bytes, Adu.length_bytes]
  exact Nat.lt_of_lt_of_le hpos (by show x.adu.pdu.length ≤ _; omega)

end Asked

/-! ### One connection -/

section Connection

variable {fuel : Nat} {st : St Conn} {more : List UInt8} {x : Asked}

/-- The first request of a connection is received. -/
theorem receive_asked (hf : 0 < fuel) (htcp : st.ctx.backend = .tcp) (hc : Connected st.ctx)
    (hin : st.os.line.input = x.bytes ++ more) :
    ∃ c, modbusReceive (connOs fuel) st = .ok ((x.bytes.length : Nat), x.bytes,
        { st with os := c }) ∧
      c.line.input = more ∧ c.line.output = st.os.line.output ∧ c.hungUp = st.os.hungUp := by
  have hframed : Framed .indication x.adu.pdu := Request.framed x.valid
  have haddr : Addressed st.ctx x.adu := fun h => by rw [htcp] at h; cases h
  rw [Asked.bytes, ← htcp] at hin
  obtain ⟨c, hrcv, ⟨ht, ho⟩, hup⟩ := modbusReceiveMsg_adu (connOs_source fuel) hf hc hframed hin
  rw [Adu.verdict_of_addressed haddr] at hrcv
  refine ⟨c, ?_, List.append_cancel_left (ht.symm.trans hin), ho, hup⟩
  rw [modbusReceive, htcp, hrcv, htcp]
  rfl

/-- And answered. -/
theorem reply_asked (hf : 0 < fuel) (ver : VersionString) (htcp : st.ctx.backend = .tcp)
    {m : Mapping} (hm : m.Regular) (x : Asked) :
    ∃ rc m', modbusReply (connOs fuel) ver st x.bytes (x.bytes.length : Nat) m =
        .ok (rc, m', { st with os := { st.os with line := { st.os.line with
          output := st.os.line.output ++ [(x.done m.memory).1] } } }) ∧
      m'.Regular ∧ m'.memory = (x.done m.memory).2 := by
  obtain ⟨p, hp, hanswered⟩ := servePdu_request ver hm x.valid
  obtain ⟨p', hp', hpdu, hregular, hmem⟩ := servePdu_react ver hm x.valid
  cases hp.symm.trans hp'
  have hflush := servePdu_at_once hp hanswered
  have hne : x.adu.pdu ≠ [] := (Request.framed x.valid).ne_nil
  have hreply := modbusReply_wrapped (connOs fuel) ver st x.adu m x.adu.length_checksum hne
    (suppressed_tcp _ htcp)
  rw [show servePdu ver x.adu.pdu m = .ok p from hp, ok_bind] at hreply
  have hsend : p.send (connOs fuel) st x.adu = .ok ((((p.adu x.adu).bytes st.ctx.backend).length : Nat),
      p.mapping, { st with os := { st.os with line := { st.os.line with
        output := st.os.line.output ++ [(p.adu x.adu).bytes st.ctx.backend] } } }) := by
    have hadu : sendAdu (connOs fuel) st (p.adu x.adu) = .ok _ := sendLoop_of_sent hf rfl
    simp only [PduReply.send, hflush, Bool.false_eq_true, if_false, ok_bind, hadu]
  have hbytes : (p.adu x.adu).bytes .tcp = (x.done m.memory).1 := by
    rw [show p.adu x.adu = freshAdu x.tId x.unit p.pdu from adu_freshAdu _ _ _ _]
    exact (Reaction.bytes_some hpdu x.tId x.unit).symm
  rw [hsend, htcp, hbytes] at hreply
  exact ⟨_, _, hreply, hregular, hmem⟩

/-- A connection that was given up, behind its last request. -/
theorem receive_end (hf : 0 < fuel) (htcp : st.ctx.backend = .tcp) (hc : Connected st.ctx)
    (hlink : st.ctx.errorRecovery.link = false) (hin : st.os.line.input = [])
    (hup : st.os.hungUp = true) :
    modbusReceive (connOs fuel) st = .ok (-1, [], { st with errno := .ECONNRESET }) := by
  obtain ⟨n, rfl⟩ : ∃ n, fuel = n + 1 := ⟨fuel - 1, by omega⟩
  have hselect : ∀ tv, (connOs (n + 1)).select tv st.os = (.ready, st.os) := fun tv =>
    Prod.ext (if_pos (Or.inr hup)) rfl
  have hrecv : ∀ k, (connOs (n + 1)).recv k st.os = (.ok [], st.os) := fun k => Conn.recv_end hin hup
  have hready : ∀ tv, backendSelect (connOs (n + 1)) (connOs (n + 1)).fuel st tv = .ok (true, st) := by
    intro tv
    show backendSelect (connOs (n + 1)) (n + 1) st tv = _
    rw [backendSelect, hselect]
  have hrecover : recoverRecv (connOs (n + 1)) { st with errno := .ECONNRESET } =
      { st with errno := .ECONNRESET } := if_neg fun h => by
    rw [show ({ st with errno := .ECONNRESET } : St Conn).ctx.errorRecovery.link = false from hlink] at h
    exact Bool.false_ne_true h.1
  have hlen : (RecvState.start st.ctx .indication).lengthToRead ≠ 0 := Nat.succ_ne_zero _
  rw [modbusReceive, htcp]
  simp only
  rw [modbusReceiveMsg, if_neg (not_lt.mpr hc.1), if_neg (not_le.mpr hc.2), receiveLoop,
    if_neg hlen, hready, ok_bind]
  simp only [not_true_eq_false, if_false, hrecv, if_true, hrecover]
  rfl

end Connection

/-! ### The queues -/

namespace Hub

variable {A : Listener} {fuel : Nat} {ver : VersionString} {h : Hub} {mem : Memory}
  {pending : Nat → List Asked}

/-- A sound server whose connections hold the requests that are pending, with `mem` in its tables.
What `select` has reported can still be read. -/
structure Queued (A : Listener) (pending : Nat → List Asked) (mem : Memory) (h : Hub) : Prop where
  sound : h.Sound A
  input : ∀ k, (h.conns k).line.input = (pending k).flatMap Asked.bytes
  output : ∀ k, (h.conns k).line.output = []
  reported : ∀ {fd k}, h.masterSocket ≤ fd → h.rdset fd = true → h.owner fd = some k →
    (h.conns k).Readable
  regular : h.mapping.Regular
  memory : h.mapping.memory = mem

/-- What one turn of the server does: nothing that can be seen, or it answers a request. -/
inductive Turned (A : Listener) (pending : Nat → List Asked) (mem : Memory) :
    List (Nat × List UInt8) → Hub → Prop
  | quiet {h' : Hub} (hq : h'.Queued A pending mem) : Turned A pending mem [] h'
  | answer {h' : Hub} {k : Nat} {x : Asked} {rest : List Asked} (hpending : pending k = x :: rest)
    (hq : h'.Queued A (Function.update pending k rest) (x.done mem).2) :
    Turned A pending mem [(k, (x.done mem).1)] h'

theorem Queued.select (hq : h.Queued A pending mem) : (h.select A).Queued A pending mem := by
  have hsound := hq.sound.select
  unfold Hub.select at hsound ⊢
  split_ifs at hsound ⊢ with hany
  · refine ⟨hsound, hq.input, hq.output, fun {fd k} _ hfd howner => ?_, hq.regular, hq.memory⟩
    have hread : h.readable A fd = true := hfd
    have howner' : h.owner fd = some k := howner
    have hne : fd ≠ A.serverSocket := by
      rintro rfl
      rw [hq.sound.listening] at howner'
      cases howner'
    rw [readable, if_neg hne, howner', Bool.and_eq_true] at hread
    exact of_decide_eq_true hread.2
  · exact hq

theorem Queued.next (hq : h.Queued A pending mem) :
    ({ h with masterSocket := h.masterSocket + 1 } : Hub).Queued A pending mem :=
  { hq with
    sound := hq.sound.next
    reported := fun hle => hq.reported (Nat.le_of_succ_le hle) }

theorem Queued.accepted {h' : Hub} (hq : h.Queued A pending mem) (hacc : Accepted A h h') :
    h'.Queued A pending mem := by
  have hsound := hq.sound.accepted hacc
  cases hacc with
  | nothing n => exact { hq with sound := hsound }
  | refused hbacklog n => exact { hq with sound := hsound }
  | @entered k fd backlog hbacklog hfree hne hsmall n =>
    refine ⟨hsound, hq.input, hq.output, fun {fd' k'} hle hfd' howner => ?_, hq.regular, hq.memory⟩
    have howner' : Function.update h.owner fd (some k) fd' = some k' := howner
    by_cases heq : fd' = fd
    · -- a new descriptor is not in what is left of the set
      have hmember := hq.sound.ahead fd' hle hfd'
      rw [hq.sound.members, heq, hfree, decide_eq_false hne] at hmember
      exact absurd hmember Bool.false_ne_true
    · rw [Function.update_of_ne heq] at howner'
      exact hq.reported hle hfd' howner'

/-- What has been written on a connection is gone when the next one is dealt with. -/
theorem Queued.put (hq : h.Queued A pending mem) {k : Nat} (howner : h.owner h.masterSocket = some k)
    {m : Mapping} {st : St Conn} {rest : List Asked} (hctx : ∃ s, st.ctx = { h.ctx with s := s })
    (hin : st.os.line.input = rest.flatMap Asked.bytes) (hm : m.Regular) :
    ({ h.put k m st with masterSocket := h.masterSocket + 1 } : Hub).Queued A
      (Function.update pending k rest) m.memory := by
  have hconn : ∀ {k'}, k' ≠ k → (h.put k m st).conns k' = h.conns k' := fun hne =>
    Function.update_of_ne hne _ _
  have hself : (h.put k m st).conns k =
      { st.os with line := { st.os.line with output := [] } } := Function.update_self _ _ _
  refine ⟨(hq.sound.put k m hctx).next, fun k' => ?_, fun k' => ?_, fun {fd k'} hle hfd hfd' => ?_, hm,
    rfl⟩
  · show ((h.put k m st).conns k').line.input = _
    by_cases heq : k' = k
    · rw [heq, hself, Function.update_self]
      exact hin
    · rw [hconn heq, Function.update_of_ne heq]
      exact hq.input k'
  · show ((h.put k m st).conns k').line.output = []
    by_cases heq : k' = k
    · rw [heq, hself]
    · rw [hconn heq]
      exact hq.output k'
  · -- the other descriptors belong to other clients
    have hlt : h.masterSocket < fd := hle
    have hne : k' ≠ k := by
      rintro rfl
      exact hlt.ne (hq.sound.apart howner hfd')
    show ((h.put k m st).conns k').Readable
    rw [hconn hne]
    exact hq.reported hlt.le hfd hfd'

/-- The connection of a client that is gone is closed. -/
theorem Queued.drop (hq : h.Queued A pending mem) {fd : Nat} (hlt : fd < h.masterSocket)
    (hne : fd ≠ A.serverSocket) : (h.drop fd).Queued A pending mem where
  sound := hq.sound.drop hlt hne
  input := hq.input
  output := hq.output
  reported := by
    intro fd' k hle hfd' howner
    have howner' : Function.update h.owner fd none fd' = some k := howner
    rw [Function.update_of_ne (Nat.lt_of_lt_of_le hlt hle).ne'] at howner'
    exact hq.reported hle hfd' howner'
  regular := hq.regular
  memory := hq.memory

/-- The context that deals with a connection is that of a TCP server, on the descriptor. -/
theorem Sound.serving (hsound : h.Sound A) {fd k : Nat} (howner : h.owner fd = some k) :
    ({ h.ctx with s := fd } : Modbus).backend = .tcp ∧
      ({ h.ctx with s := fd } : Modbus).errorRecovery.link = false ∧
      Connected { h.ctx with s := fd } := by
  obtain ⟨s, hctx⟩ := hsound.ctx
  have hmember : h.refset fd = true := by
    rw [hsound.members, howner]
    exact Bool.or_true _
  have hle := hsound.below fd hmember
  have hsmall := hsound.small
  refine ⟨by rw [hctx]; rfl, by rw [hctx]; rfl, Int.natCast_nonneg _, ?_⟩
  show (fd : Int) < fdSetSize
  omega

/-- **A request in front is received and answered**, whatever stands behind it. -/
theorem Sound.serve_asked (hf : 0 < fuel) (ver : VersionString) (hsound : h.Sound A)
    (hm : h.mapping.Regular) {fd k : Nat} {x : Asked} {more : List UInt8}
    (howner : h.owner fd = some k) (hin : (h.conns k).line.input = x.bytes ++ more) :
    ∃ (st : St Conn) (m' : Mapping), h.serve fuel ver fd =
        .ok (st.os.line.output.map fun frame => (k, frame), h.put k m' st) ∧
      (∃ s, st.ctx = { h.ctx with s := s }) ∧ st.os.line.input = more ∧
      st.os.line.output = (h.conns k).line.output ++ [(x.done h.mapping.memory).1] ∧
      m'.Regular ∧ m'.memory = (x.done h.mapping.memory).2 := by
  obtain ⟨htcp, -, hc⟩ := hsound.serving howner
  set st : St Conn := ⟨{ h.ctx with s := fd }, h.errno, h.conns k⟩ with hst
  obtain ⟨c, hrcv, hcin, hcout, -⟩ := receive_asked hf (show st.ctx.backend = .tcp from htcp) hc hin
  set st₁ : St Conn := { st with os := c } with hst₁
  obtain ⟨rc, m', hreply, hregular, hmem⟩ :=
    reply_asked hf ver (show st₁.ctx.backend = .tcp from htcp) hm x
  have hpos : (0 : Int) < (x.bytes.length : Nat) :=
    Int.natCast_pos.mpr (List.length_pos_of_ne_nil x.bytes_ne_nil)
  have hserve : h.serve fuel ver fd = modbusReply (connOs fuel) ver st₁ x.bytes
      (x.bytes.length : Nat) h.mapping >>= fun r =>
        .ok (r.2.2.os.line.output.map fun frame => (k, frame), h.put k r.2.1 r.2.2) := by
    rw [serve, howner]
    simp only
    rw [hrcv, ok_bind]
    simp only [if_pos hpos]
  rw [hreply, ok_bind] at hserve
  refine ⟨_, m', hserve, ⟨fd, rfl⟩, hcin, ?_, hregular, hmem⟩
  simp only [hst₁, hcout, hst]

/-- **One turn of the server.** -/
theorem Queued.turn (hf : 0 < fuel) (ver : VersionString) (hq : h.Queued A pending mem) :
    ∃ out h', h.turn A fuel ver = .ok (out, h') ∧ Turned A pending mem out h' := by
  unfold Hub.turn
  by_cases hend : h.fdmax < h.masterSocket
  · rw [if_pos hend]
    exact ⟨_, _, rfl, .quiet hq.select⟩
  rw [if_neg hend]
  by_cases hset : h.rdset h.masterSocket = false
  · rw [if_pos hset]
    exact ⟨_, _, rfl, .quiet hq.next⟩
  rw [if_neg hset]
  by_cases hserver : h.masterSocket = A.serverSocket
  · rw [if_pos hserver]
    exact ⟨_, _, rfl, .quiet (hq.accepted (accept_accepted A h)).next⟩
  rw [if_neg hserver]
  -- a connection, which can be read
  have hset' := Bool.eq_true_of_not_eq_false hset
  obtain ⟨k, howner⟩ : ∃ k, h.owner h.masterSocket = some k := by
    have hmember := hq.sound.ahead _ le_rfl hset'
    rw [hq.sound.members, decide_eq_false hserver, Bool.false_or] at hmember
    exact Option.isSome_iff_exists.mp hmember
  have hreadable := hq.reported le_rfl hset' howner
  cases hpending : pending k with
  | cons x rest =>
    have hin : (h.conns k).line.input = x.bytes ++ rest.flatMap Asked.bytes := by
      rw [hq.input, hpending, List.flatMap_cons]
    obtain ⟨st, m', hserve, hctx, hrest, hout, hregular, hmem⟩ :=
      hq.sound.serve_asked hf ver hq.regular howner hin
    have hput := hq.put howner hctx hrest hregular
    rw [hq.output, hq.memory, List.nil_append] at hout
    rw [hmem, hq.memory] at hput
    rw [hserve, hout]
    exact ⟨_, _, rfl, .answer hpending hput⟩
  | nil =>
    have hin : (h.conns k).line.input = [] := by
      rw [hq.input, hpending]
      rfl
    have hup : (h.conns k).hungUp = true := hreadable.resolve_left fun hne => hne hin
    obtain ⟨htcp, hlink, hc⟩ := hq.sound.serving howner
    set st : St Conn := ⟨{ h.ctx with s := h.masterSocket }, h.errno, h.conns k⟩ with hst
    set ended : St Conn := { st with errno := .ECONNRESET } with hended
    have hput := hq.put howner (show ∃ s, ended.ctx = { h.ctx with s := s } from ⟨_, rfl⟩)
      (show ended.os.line.input = ([] : List Asked).flatMap Asked.bytes from hin) hq.regular
    rw [← hpending, Function.update_eq_self, hq.memory] at hput
    have hrcv : modbusReceive (connOs fuel) st = .ok (-1, [], ended) :=
      receive_end hf htcp hc hlink hin hup
    have hserve : h.serve fuel ver h.masterSocket =
        .ok ([], (h.put k h.mapping ended).drop h.masterSocket) := by
      rw [serve, howner]
      simp only
      rw [hrcv, ok_bind]
      rfl
    rw [hserve]
    exact ⟨_, _, rfl, .quiet (hput.drop (Nat.lt_succ_self _) hserver)⟩

/-! ### Runs -/

/-- What the clients and the server do. -/
inductive Action
  | turn
  | dial (k : Nat)
  | ask (k : Nat) (x : Asked)
  | hangUp (k : Nat)

def Action.event : Action → Event
  | turn => .turn
  | dial k => .dial k
  | ask k x => .feed k x.bytes
  | hangUp k => .hangUp k

/-- The request that is sent, and by whom. -/
def Action.asked : Action → Option (Nat × Asked)
  | ask k x => some (k, x)
  | _ => none

/-- What belongs to one client. -/
def queueOf (k : Nat) (l : List (Nat × Asked)) : List Asked := (l.filter (·.1 = k)).map Prod.snd

theorem queueOf_cons (k k' : Nat) (x : Asked) (l : List (Nat × Asked)) :
    queueOf k ((k', x) :: l) = if k' = k then x :: queueOf k l else queueOf k l := by
  by_cases h : k' = k <;> simp [queueOf, h]

/-- A request on the memory: the response, for the client that has asked. -/
def served (e : Nat × Asked) (mem : Memory) : (Nat × List UInt8) × Memory :=
  ((e.1, (e.2.done mem).1), (e.2.done mem).2)

theorem Queued.hangUp (hq : h.Queued A pending mem) (k : Nat) :
    (h.hangUp k).Queued A pending mem := by
  have hself : (h.hangUp k).conns k = { h.conns k with hungUp := true } := Function.update_self _ _ _
  have hconn : ∀ k', ((h.hangUp k).conns k').line = (h.conns k').line := by
    intro k'
    by_cases heq : k' = k
    · rw [heq, hself]
    · exact congrArg Conn.line (Function.update_of_ne heq _ _)
  refine ⟨hq.sound.hangUp k, fun k' => ?_, fun k' => ?_, fun {fd k'} hle hfd howner => ?_, hq.regular,
    hq.memory⟩
  · rw [hconn]
    exact hq.input k'
  · rw [hconn]
    exact hq.output k'
  · by_cases heq : k' = k
    · rw [heq, hself]
      exact Or.inr rfl
    · rw [show (h.hangUp k).conns k' = h.conns k' from Function.update_of_ne heq _ _]
      exact hq.reported hle hfd howner

theorem Queued.dial (hq : h.Queued A pending mem) (k : Nat) : (h.dial k).Queued A pending mem := by
  have hsound := hq.sound.dial k
  unfold Hub.dial at hsound ⊢
  split_ifs at hsound ⊢
  · exact hq
  · exact { hq with sound := hsound }

/-- A request arrives behind the others of its client. -/
theorem Queued.ask (hq : h.Queued A pending mem) (k : Nat) (x : Asked) :
    (h.feed k x.bytes).Queued A (Function.update pending k (pending k ++ [x])) mem := by
  have hself : (h.feed k x.bytes).conns k = { h.conns k with
      line := { (h.conns k).line with input := (h.conns k).line.input ++ x.bytes } } :=
    Function.update_self _ _ _
  have hother : ∀ {k'}, k' ≠ k → (h.feed k x.bytes).conns k' = h.conns k' := fun hne =>
    Function.update_of_ne hne _ _
  refine ⟨hq.sound.feed k x.bytes, fun k' => ?_, fun k' => ?_, fun {fd k'} hle hfd howner => ?_,
    hq.regular, hq.memory⟩
  · by_cases heq : k' = k
    · rw [heq, hself, Function.update_self, List.flatMap_append, List.flatMap_cons, List.flatMap_nil,
        List.append_nil, ← hq.input]
    · rw [hother heq, Function.update_of_ne heq, hq.input]
  · by_cases heq : k' = k
    · rw [heq, hself]
      exact hq.output k
    · rw [hother heq, hq.output]
  · by_cases heq : k' = k
    · rw [heq, hself]
      exact Or.inl (List.append_ne_nil_of_right_ne_nil _ x.bytes_ne_nil)
    · rw [hother heq]
      exact hq.reported hle hfd howner

/-- **Runs.**  There is an order of requests that gives the responses and the memory, and what each
client has asked for is what was served to it and what is still pending. -/
theorem Queued.run (hf : 0 < fuel) (ver : VersionString) (hq : h.Queued A pending mem)
    (actions : List Action) :
    ∃ outs h' pending' order,
      runs (Hub.step A fuel ver) (actions.map Action.event) h = .ok (outs, h') ∧
      h'.Queued A pending' (specRuns served order mem).2 ∧
      outs.flatten = (specRuns served order mem).1 ∧
      ∀ k, pending k ++ queueOf k (actions.filterMap Action.asked) =
        queueOf k order ++ pending' k := by
  induction actions generalizing h pending mem with
  | nil => exact ⟨[], h, pending, [], rfl, hq, rfl, fun k => List.append_nil _⟩
  | cons a actions ih =>
    -- an action that serves nobody
    have hquiet : ∀ {h₁ : Hub} {pending₁ : Nat → List Asked},
        Hub.step A fuel ver a.event h = .ok ([], h₁) → h₁.Queued A pending₁ mem →
        (∀ k, pending k ++ queueOf k ((a :: actions).filterMap Action.asked) =
          pending₁ k ++ queueOf k (actions.filterMap Action.asked)) →
        ∃ outs h' pending' order,
          runs (Hub.step A fuel ver) ((a :: actions).map Action.event) h = .ok (outs, h') ∧
          h'.Queued A pending' (specRuns served order mem).2 ∧
          outs.flatten = (specRuns served order mem).1 ∧
          ∀ k, pending k ++ queueOf k ((a :: actions).filterMap Action.asked) =
            queueOf k order ++ pending' k := by
      intro h₁ pending₁ hstep hq₁ hsame
      obtain ⟨outs, h', pending', order, hruns, hq', houts, hqueues⟩ := ih hq₁
      refine ⟨[] :: outs, h', pending', order, ?_, hq', houts, fun k => ?_⟩
      · rw [List.map_cons, runs_cons_ok hstep, hruns]
        rfl
      · rw [hsame, hqueues]
    cases a with
    | dial k => exact hquiet rfl (hq.dial k) fun _ => rfl
    | hangUp k => exact hquiet rfl (hq.hangUp k) fun _ => rfl
    | ask k x =>
      refine hquiet rfl (hq.ask k x) fun k' => ?_
      rw [List.filterMap_cons, Action.asked, queueOf_cons]
      by_cases heq : k = k'
      · rw [if_pos heq, ← heq, Function.update_self, List.append_assoc]
        rfl
      · rw [if_neg heq, Function.update_of_ne (Ne.symm heq)]
    | turn =>
      obtain ⟨out, h₁, hturn, hturned⟩ := hq.turn hf ver
      cases hturned with
      | quiet hq₁ => exact hquiet hturn hq₁ fun _ => rfl
      | @answer _ k x rest hpending hq₁ =>
        obtain ⟨outs, h', pending', order, hruns, hq', houts, hqueues⟩ := ih hq₁
        refine ⟨[(k, (x.done mem).1)] :: outs, h', pending', (k, x) :: order, ?_, hq', ?_, fun k' => ?_⟩
        · rw [List.map_cons, runs_cons_ok (show Hub.step A fuel ver Action.turn.event h = _ from hturn),
            hruns]
          rfl
        · rw [List.flatten_cons, houts]
          rfl
        · have hqueue := hqueues k'
          rw [show (Action.turn :: actions).filterMap Action.asked = actions.filterMap Action.asked
            from rfl, queueOf_cons]
          by_cases heq : k = k'
          · rw [← heq, Function.update_self] at hqueue
            rw [if_pos heq, ← heq, hpending, List.cons_append, hqueue]
            rfl
          · rw [Function.update_of_ne (Ne.symm heq)] at hqueue
            rw [if_neg heq, hqueue]

/-! ### Nobody waits for ever -/

/-- How many turns it takes at most until `fd` is dealt with: what is left of this round, unless
`fd` is still to come in it, and the next one up to `fd`. -/
def countdown (h : Hub) (fd : Nat) : Nat :=
  if h.rdset fd = true ∧ h.masterSocket ≤ fd then fd + 1 - h.masterSocket
  else (fdSetSize.toNat - h.masterSocket) + 1 + (fd + 1)

theorem countdown_pos (h : Hub) (fd : Nat) : 0 < h.countdown fd := by
  unfold countdown
  split_ifs with hahead <;> omega

theorem countdown_le (h : Hub) {fd : Nat} (hfd : (fd : Int) < fdSetSize) :
    h.countdown fd ≤ 2 * fdSetSize.toNat + 2 := by
  have hsize : fdSetSize.toNat = 1024 := rfl
  simp only [fdSetSize] at hfd
  unfold countdown
  split_ifs <;> omega

/-- Whose connection can be read is in the set after `select`. -/
theorem Sound.countdown_select (hs : h.Sound A) {fd k : Nat} (howner : h.owner fd = some k)
    (hreadable : (h.conns k).Readable) (hend : h.fdmax < h.masterSocket) :
    (h.select A).countdown fd < h.countdown fd := by
  have hmember : h.refset fd = true := by
    rw [hs.members, howner]
    exact Bool.or_true _
  have hne : fd ≠ A.serverSocket := by
    rintro rfl
    rw [hs.listening] at howner
    cases howner
  have hread : h.readable A fd = true := by
    rw [readable, hmember, if_neg hne, howner]
    exact decide_eq_true hreadable
  have hany : (List.range (h.fdmax + 1)).any (h.readable A) = true :=
    List.any_eq_true.mpr ⟨fd, List.mem_range.mpr (Nat.lt_succ_of_le (hs.below fd hmember)), hread⟩
  have hselect : h.select A = { h with rdset := h.readable A, masterSocket := 0 } := if_pos hany
  have hbefore : ¬ (h.rdset fd = true ∧ h.masterSocket ≤ fd) := fun hahead => by
    have hle := hs.below fd hmember
    omega
  rw [hselect]
  show (if h.readable A fd = true ∧ 0 ≤ fd then fd + 1 - 0 else _) < h.countdown fd
  rw [if_pos ⟨hread, Nat.zero_le fd⟩, countdown, if_neg hbefore]
  omega

/-- A turn of the round that does not deal with `fd`. -/
theorem countdown_next {h' : Hub} {fd : Nat} (hsmall : (h.fdmax : Int) < fdSetSize)
    (hmore : h.masterSocket ≤ h.fdmax)
    (hnext : h'.rdset = h.rdset ∧ h'.masterSocket = h.masterSocket + 1)
    (hother : h.rdset fd = true → h.masterSocket ≠ fd) : h'.countdown fd < h.countdown fd := by
  have hsize : fdSetSize.toNat = 1024 := rfl
  simp only [fdSetSize] at hsmall
  unfold countdown
  rw [hnext.1, hnext.2]
  by_cases hset : h.rdset fd = true
  · have hne := hother hset
    simp only [hset, true_and]
    split_ifs <;> omega
  · simp only [hset, false_and, if_false, Bool.false_eq_true]
    omega

/-- Who is connected stays connected. -/
theorem Accepted.owner {h' : Hub} (hacc : Accepted A h h') {fd k : Nat} (howner : h.owner fd = some k) :
    h'.owner fd = some k := by
  cases hacc with
  | nothing n => exact howner
  | refused hbacklog n => exact howner
  | @entered k' fd' backlog hbacklog hfree hne hsmall n =>
    have hother : fd ≠ fd' := by
      rintro rfl
      rw [hfree] at howner
      cases howner
    exact (Function.update_of_ne hother _ _).trans howner

theorem Accepted.scan {h' : Hub} (hacc : Accepted A h h') :
    h'.rdset = h.rdset ∧ h'.masterSocket = h.masterSocket ∧ h'.conns = h.conns := by
  cases hacc <;> exact ⟨rfl, rfl, rfl⟩

/-- A descriptor is dealt with, and the others are not touched. -/
theorem serve_others {h' : Hub} {out : List (Nat × List UInt8)} {fd fd' k : Nat}
    (hserve : h.serve fuel ver fd' = .ok (out, h')) (hne : fd ≠ fd') (howner : h.owner fd = some k)
    (hother : h.owner fd' ≠ some k) :
    h'.owner fd = some k ∧ h'.conns k = h.conns k ∧ h'.rdset = h.rdset ∧
      h'.masterSocket = h.masterSocket := by
  have hdrop : Function.update h.owner fd' none fd = some k :=
    (Function.update_of_ne hne _ _).trans howner
  unfold Hub.serve at hserve
  cases hfd' : h.owner fd' with
  | none =>
    rw [hfd'] at hserve
    cases hserve
    exact ⟨hdrop, rfl, rfl, rfl⟩
  | some k' =>
    rw [hfd'] at hserve
    have hk : k ≠ k' := fun heq => hother (by rw [hfd', heq])
    have hconn : ∀ c : Conn, Function.update h.conns k' c k = h.conns k := fun c =>
      Function.update_of_ne hk _ _
    simp only at hserve
    obtain ⟨⟨rc, query, st⟩, -, hserve⟩ := bind_eq_ok.mp hserve
    simp only at hserve
    split_ifs at hserve
    · obtain ⟨⟨rc', m', st'⟩, -, hserve⟩ := bind_eq_ok.mp hserve
      cases hserve
      exact ⟨howner, hconn _, rfl, rfl⟩
    · cases hserve
      exact ⟨hdrop, hconn _, rfl, rfl⟩
    · cases hserve
      exact ⟨howner, hconn _, rfl, rfl⟩

/-- Client `k` is connected on `fd`, and its next request is `x`.  What it has sent behind, and what
the others send, is anything. -/
structure Waits (A : Listener) (m₀ : Mapping) (fd k : Nat) (x : Asked) (h : Hub) : Prop where
  alive : h.Alive A m₀
  owner : h.owner fd = some k
  front : ∃ more, (h.conns k).line.input = x.bytes ++ more

variable {m₀ : Mapping} {fd k : Nat} {x : Asked}

theorem Waits.readable (hw : h.Waits A m₀ fd k x) : (h.conns k).Readable := by
  obtain ⟨more, hmore⟩ := hw.front
  refine Or.inl ?_
  rw [hmore]
  exact List.append_ne_nil_of_left_ne_nil x.bytes_ne_nil _

/-- The response to the request, on the memory of the mapping, is among what is written. -/
def Answers (k : Nat) (x : Asked) (h : Hub) (out : List (Nat × List UInt8)) (h' : Hub) : Prop :=
  (k, (x.done h.mapping.memory).1) ∈ out ∧ h'.mapping.memory = (x.done h.mapping.memory).2

/-- Its descriptor is dealt with: the request is answered. -/
theorem Waits.serve (hf : 0 < fuel) (ver : VersionString) (hm : m₀.Regular)
    (hw : h.Waits A m₀ fd k x) :
    ∃ out h', h.serve fuel ver fd = .ok (out, h') ∧ Answers k x h out h' := by
  obtain ⟨more, hmore⟩ := hw.front
  obtain ⟨st, m', hserve, -, -, hout, -, hmem⟩ :=
    hw.alive.sound.serve_asked hf ver (hw.alive.kept.regular hm) hw.owner hmore
  refine ⟨_, _, hserve, ?_, hmem⟩
  rw [hout, List.map_append]
  exact List.mem_append_right _ (List.mem_singleton_self _)

/-- **A turn answers the client, or its turn comes nearer.** -/
theorem Waits.turn (hf : 0 < fuel) (ver : VersionString) (hm : m₀.Regular)
    (hw : h.Waits A m₀ fd k x) :
    ∃ out h', h.turn A fuel ver = .ok (out, h') ∧
      (Answers k x h out h' ∨ h'.Waits A m₀ fd k x ∧ h'.countdown fd + 1 ≤ h.countdown fd) := by
  have hsound := hw.alive.sound
  obtain ⟨out, h', hturn, halive⟩ : ∃ out h', h.turn A fuel ver = .ok (out, h') ∧ h'.Alive A m₀ :=
    hw.alive.step hf hm.addressable.startsSafe .turn
  refine ⟨out, h', hturn, ?_⟩
  unfold Hub.turn at hturn
  by_cases hend : h.fdmax < h.masterSocket
  · rw [if_pos hend] at hturn
    cases hturn
    have hselect : (h.select A).owner = h.owner ∧ (h.select A).conns = h.conns := by
      unfold Hub.select
      split_ifs <;> exact ⟨rfl, rfl⟩
    refine Or.inr ⟨⟨halive, by rw [hselect.1]; exact hw.owner, by rw [hselect.2]; exact hw.front⟩, ?_⟩
    exact hsound.countdown_select hw.owner hw.readable hend
  have hmore := not_lt.mp hend
  rw [if_neg hend] at hturn
  -- the round goes on, and has not come to `fd`
  have hon : h'.owner fd = some k → h'.conns k = h.conns k → h'.rdset = h.rdset →
      h'.masterSocket = h.masterSocket + 1 → (h.rdset fd = true → h.masterSocket ≠ fd) →
      h'.Waits A m₀ fd k x ∧ h'.countdown fd + 1 ≤ h.countdown fd := by
    intro howner hconn hset hsocket hother
    refine ⟨⟨halive, howner, by rw [hconn]; exact hw.front⟩, ?_⟩
    exact countdown_next hsound.small hmore ⟨hset, hsocket⟩ hother
  by_cases hset : h.rdset h.masterSocket = false
  · rw [if_pos hset] at hturn
    cases hturn
    refine Or.inr (hon hw.owner rfl rfl rfl fun htrue heq => ?_)
    rw [heq, htrue] at hset
    cases hset
  rw [if_neg hset] at hturn
  by_cases hserver : h.masterSocket = A.serverSocket
  · rw [if_pos hserver] at hturn
    cases hturn
    have hacc := accept_accepted A h
    refine Or.inr (hon (hacc.owner hw.owner) (congrFun hacc.scan.2.2 k) hacc.scan.1
      (congrArg (· + 1) hacc.scan.2.1) fun _ heq => ?_)
    have howner := hw.owner
    rw [← heq, hserver, hsound.listening] at howner
    cases howner
  rw [if_neg hserver] at hturn
  obtain ⟨⟨out₁, h₁⟩, hserve, hturn⟩ := bind_eq_ok.mp hturn
  cases hturn
  by_cases hfd : h.masterSocket = fd
  · obtain ⟨out₂, h₂, hserve', hanswers⟩ := hw.serve hf ver hm
    rw [hfd] at hserve
    cases hserve.symm.trans hserve'
    exact Or.inl hanswers
  · have hother : h.owner h.masterSocket ≠ some k := fun howner => hfd (hsound.apart howner hw.owner)
    obtain ⟨howner, hconn, hset', hsocket⟩ := serve_others hserve (Ne.symm hfd) hw.owner hother
    exact Or.inr (hon howner hconn hset' (congrArg (· + 1) hsocket) fun _ => hfd)

def Event.isTurn : Event → Bool
  | turn => true
  | _ => false

/-- Whatever happens, the client is answered by a turn or still waits. -/
theorem Waits.step (hf : 0 < fuel) (ver : VersionString) (hm : m₀.Regular)
    (hw : h.Waits A m₀ fd k x) (event : Event) :
    ∃ out h', Hub.step A fuel ver event h = .ok (out, h') ∧
      ((event = .turn ∧ Answers k x h out h') ∨
        h'.Waits A m₀ fd k x ∧
          h'.countdown fd + (if event.isTurn then 1 else 0) ≤ h.countdown fd) := by
  obtain ⟨out, h', hstep, halive⟩ : ∃ out h', Hub.step A fuel ver event h = .ok (out, h') ∧
      h'.Alive A m₀ := hw.alive.step hf hm.addressable.startsSafe event
  obtain ⟨more, hmore⟩ := hw.front
  cases event with
  | turn =>
    obtain ⟨out₁, h₁, hturn, h⟩ := hw.turn hf ver hm
    exact ⟨out₁, h₁, hturn, h.imp (fun h => ⟨rfl, h⟩) fun h => h⟩
  | dial k' =>
    cases hstep
    have hdial : (h.dial k').owner = h.owner ∧ (h.dial k').conns = h.conns ∧
        (h.dial k').countdown fd = h.countdown fd := by
      unfold Hub.dial
      split_ifs <;> exact ⟨rfl, rfl, rfl⟩
    refine ⟨_, _, rfl, Or.inr ⟨⟨halive, ?_, more, ?_⟩, hdial.2.2.le⟩⟩
    · rw [hdial.1, hw.owner]
    · rw [hdial.2.1, hmore]
  | feed k' bytes =>
    cases hstep
    refine ⟨_, _, rfl, Or.inr ⟨⟨halive, hw.owner, ?_⟩, le_rfl⟩⟩
    by_cases heq : k = k'
    · subst heq
      refine ⟨more ++ bytes, ?_⟩
      rw [show (h.feed k bytes).conns k = _ from Function.update_self _ _ _, hmore,
        List.append_assoc]
    · refine ⟨more, ?_⟩
      rw [show (h.feed k' bytes).conns k = h.conns k from Function.update_of_ne heq _ _, hmore]
  | hangUp k' =>
    cases hstep
    refine ⟨_, _, rfl, Or.inr ⟨⟨halive, hw.owner, more, ?_⟩, le_rfl⟩⟩
    by_cases heq : k = k'
    · subst heq
      rw [show (h.hangUp k).conns k = _ from Function.update_self _ _ _, hmore]
    · rw [show (h.hangUp k').conns k = h.conns k from Function.update_of_ne heq _ _, hmore]

theorem start_queued (A : Listener) {m : Mapping} (hm : m.Regular) (split : Nat → Nat → Nat) :
    (start A m split).Queued A (fun _ => []) m.memory where
  sound := start_sound A m split
  input _ := rfl
  output _ := rfl
  reported _ hset := absurd hset Bool.false_ne_true
  regular := hm
  memory := rfl

end Hub

/-! ### All clients together -/

/-- **The requests of all clients are carried out in one order**, one after the other on the memory
of the mapping, which is in the end what this order leaves.  What is written are the responses in
this order, each to the client that has asked; and of the requests of a client, those that it has
been answered are the first, while the others are still on its connection. -/
theorem hub_linearizable {fuel : Nat} (hf : 0 < fuel) (ver : VersionString) (A : Listener) {m : Mapping}
    (hm : m.Regular) (split : Nat → Nat → Nat) (actions : List Hub.Action) :
    ∃ outs h order, runs (Hub.step A fuel ver) (actions.map Hub.Action.event) (Hub.start A m split) =
        .ok (outs, h) ∧
      outs.flatten = (specRuns Hub.served order m.memory).1 ∧
      h.mapping.memory = (specRuns Hub.served order m.memory).2 ∧
      ∀ k, ∃ pending, Hub.queueOf k (actions.filterMap Hub.Action.asked) =
          Hub.queueOf k order ++ pending ∧
        (h.conns k).line.input = pending.flatMap Asked.bytes := by
  obtain ⟨outs, h, pending, order, hruns, hq, houts, hqueues⟩ :=
    (Hub.start_queued A hm split).run hf ver actions
  exact ⟨outs, h, order, hruns, houts, hq.memory, fun k => ⟨pending k, hqueues k, hq.input k⟩⟩

/-- **No client starves.**  In every state that the server can reach, whatever has been sent to it
so far, a connected client whose next bytes are a valid request is answered within
2 * FD_SETSIZE + 2 turns: one of them writes the response to this request, on the memory as it is
then.  Meanwhile the other clients may dial, hang up and send any bytes, and so may this one behind
its request. -/
theorem no_client_starves {fuel : Nat} (hf : 0 < fuel) (ver : VersionString) (A : Listener)
    {m : Mapping} (hm : m.Regular) (split : Nat → Nat → Nat) {before after : List Hub.Event}
    {outs : List (List (Nat × List UInt8))} {h : Hub}
    (hruns : runs (Hub.step A fuel ver) before (Hub.start A m split) = .ok (outs, h))
    {fd k : Nat} {x : Asked} {more : List UInt8} (howner : h.owner fd = some k)
    (hwaits : (h.conns k).line.input = x.bytes ++ more)
    (hturns : 2 * fdSetSize.toNat + 2 ≤ after.countP Hub.Event.isTurn) :
    ∃ soon later outs₁ h₁ out h₂, after = soon ++ .turn :: later ∧
      soon.countP Hub.Event.isTurn < 2 * fdSetSize.toNat + 2 ∧
      runs (Hub.step A fuel ver) soon h = .ok (outs₁, h₁) ∧
      h₁.turn A fuel ver = .ok (out, h₂) ∧
      (k, (x.done h₁.mapping.memory).1) ∈ out ∧
      h₂.mapping.memory = (x.done h₁.mapping.memory).2 := by
  obtain ⟨outs', h', hruns', halive⟩ := runs_progress
    (fun ha => ha.step hf hm.addressable.startsSafe _) before
    (show (Hub.start A m split).Alive A m from ⟨Hub.start_sound A m split, hm.kept⟩)
  cases hruns.symm.trans hruns'
  have hw : h.Waits A m fd k x := ⟨halive, howner, more, hwaits⟩
  have hmember : h.refset fd = true := by
    rw [halive.sound.members, howner]
    exact Bool.or_true _
  have hsmall : (fd : Int) < fdSetSize := by
    have hle := halive.sound.below fd hmember
    have hmax := halive.sound.small
    omega
  have hbound := h.countdown_le hsmall
  obtain ⟨soon, event, later, outs₁, h₁, out, h₂, hafter, hfew, hsoon, hstep, hgoal⟩ :=
    runs_reach Hub.Event.isTurn (Hub.countdown · fd) (fun _ => Hub.countdown_pos _ fd)
      (fun hw => hw.step hf ver hm _) hw (hbound.trans hturns)
  obtain ⟨rfl, hanswers⟩ := hgoal
  exact ⟨soon, later, outs₁, h₁, out, h₂, hafter, by omega, hsoon, hstep, hanswers⟩

/-! ### Two clients of the sample server -/

/-- A register is written, and read. -/
def sampleWrite : Asked := ⟨7, 1, .writeRegister 101 5, show 101 ≤ 65535 by decide⟩

def sampleRead : Asked := ⟨9, 1, .readRegisters false 101 1, by decide, by decide, by decide⟩

/-- Both are connected in the first round, and ask at once. -/
def sampleActions : List Hub.Action :=
  [.dial 0, .dial 1, .ask 1 sampleRead, .ask 0 sampleWrite, .ask 1 sampleRead] ++
    List.replicate 20 .turn

/-- A read of the second client, before or after the write of the first, sees it or does not. -/
theorem hub_linearizable_sample :
    ∃ outs h order, runs (Hub.step sampleListener 1 ⟨[], by decide⟩)
        (sampleActions.map Hub.Action.event) (Hub.start sampleListener sampleMapping fun _ _ => 3) =
          .ok (outs, h) ∧
      outs.flatten = (specRuns Hub.served order sampleMapping.memory).1 ∧
      ∃ pending, [sampleRead, sampleRead] = Hub.queueOf 1 order ++ pending := by
  obtain ⟨outs, h, order, hruns, houts, -, hqueues⟩ := hub_linearizable Nat.one_pos ⟨[], by decide⟩
    sampleListener regular_sampleMapping (fun _ _ => 3) sampleActions
  obtain ⟨pending, hqueue, -⟩ := hqueues 1
  exact ⟨outs, h, order, hruns, houts, pending, hqueue⟩

/-- A client waits while another one sends bytes that are no request. -/
theorem no_client_starves_sample :
    ∃ outs h soon outs₁ h₁ out h₂, runs (Hub.step sampleListener 1 ⟨[], by decide⟩)
        [.dial 0, .turn, .turn, .turn, .turn, .turn, .dial 1, .feed 1 [0xFF, 0xFF],
          .feed 0 sampleWrite.bytes] (Hub.start sampleListener sampleMapping fun _ _ => 3) =
          .ok (outs, h) ∧
      soon.countP Hub.Event.isTurn < 2050 ∧
      runs (Hub.step sampleListener 1 ⟨[], by decide⟩) soon h = .ok (outs₁, h₁) ∧
      h₁.turn sampleListener 1 ⟨[], by decide⟩ = .ok (out, h₂) ∧
      (0, (sampleWrite.done h₁.mapping.memory).1) ∈ out := by
  obtain ⟨outs, h, hruns, howner, hwaits⟩ : ∃ outs h, runs
      (Hub.step sampleListener 1 ⟨[], by decide⟩)
      [.dial 0, .turn, .turn, .turn, .turn, .turn, .dial 1, .feed 1 [0xFF, 0xFF],
        .feed 0 sampleWrite.bytes] (Hub.start sampleListener sampleMapping fun _ _ => 3) =
        .ok (outs, h) ∧
      h.owner 4 = some 0 ∧ (h.conns 0).line.input = sampleWrite.bytes ++ [] :=
    ⟨_, _, rfl, rfl, rfl⟩
  have hturns : 2 * fdSetSize.toNat + 2 ≤
      (Hub.Event.feed 1 [3] :: List.replicate 2050 Hub.Event.turn).countP Hub.Event.isTurn := by
    rw [List.countP_cons_of_neg (by decide), List.countP_replicate,
      if_pos (show Hub.Event.turn.isTurn = true from rfl)]
    decide
  obtain ⟨soon, later, outs₁, h₁, out, h₂, -, hfew, hsoon, hturn, hanswer, -⟩ :=
    no_client_starves Nat.one_pos ⟨[], by decide⟩ sampleListener regular_sampleMapping
      (fun _ _ => 3) hruns howner hwaits hturns
  exact ⟨outs, h, soon, outs₁, h₁, out, h₂, hruns, hfew, hsoon, hturn, hanswer⟩

end Libmodbus
