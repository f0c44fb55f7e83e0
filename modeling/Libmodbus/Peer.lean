/-
Libmodbus/Peer.lean

A server at the other end of a line.

    client ── send ──▶ server input ── modbus_receive ; modbus_reply ──▶ client input

The server runs as long as bytes are waiting on its side and otherwise sits in
`modbus_receive`.  `serverReact` is what it answers to the bytes of one
message, with any chunking on either side of the line.

`serverReact_answer`: to the frame of a request that is for it, an idle server
answers the response of `servePdu`, and is idle again.  `request_answered`
puts the two ends together.
-/
import Libmodbus.Ranges
import Libmodbus.Client

namespace Libmodbus

open CSem Wire Posix

/-! ### The server loop -/

/-- A server: its context on its end of the line, and its mapping. -/
abbrev Server : Type := St Link × Mapping

/-- `modbus_receive` and, for a request, `modbus_reply`, as long as bytes are waiting.  Every
turn takes at least one. -/
def serverLoop (fuel : Nat) (ver : VersionString) : Nat → Server → Run Server
  | 0, _ => .error .outOfFuel
  | n + 1, (st, m) =>
    if st.os.input = [] then .ok (st, m)
    else do
      let (rc, req, st) ← modbusReceive (linkOs fuel) st
      if 0 < rc then
        let (_, m, st) ← modbusReply (linkOs fuel) ver st req rc m
        serverLoop fuel ver n (st, m)
      else serverLoop fuel ver n (st, m)

/-- The server gets some bytes, and hands over what it has written. -/
def serverStep (fuel : Nat) (ver : VersionString) (bytes : List UInt8) (s : Server) :
    Run (List UInt8 × Server) := do
  let input := s.1.os.input ++ bytes
  let (st, m) ← serverLoop fuel ver (input.length + 1)
    ({ s.1 with os := { s.1.os with input := input } }, s.2)
  .ok (st.os.output.flatten, { st with os := { st.os with output := [] } }, m)

/-- The answer of a server that may have stopped. -/
def serverReact (fuel : Nat) (ver : VersionString) (bytes : List UInt8) (s : Run Server) :
    List UInt8 × Run Server :=
  match s >>= serverStep fuel ver bytes with
  | .ok (answer, s) => (answer, .ok s)
  | .error e => ([], .error e)

/-- The server sits in `modbus_receive` and takes what comes next for a request; nothing is
waiting on its side. -/
structure Idle (ctx : Modbus) (m : Mapping) (s : Run Server) : Prop where
  running : ∃ st, s = .ok (st, m) ∧ st.ctx = ctx ∧ st.os.input = [] ∧ st.os.output = []
  connected : Connected ctx
  listening : Listening ctx .indication

/-! ### Sending on a line -/

theorem sendAdu_link {fuel : Nat} (hf : 0 < fuel) (st : St Link) (a : Adu) :
    sendAdu (linkOs fuel) st a = .ok (((a.bytes st.ctx.backend).length : Nat),
      { st with os := { st.os with output := st.os.output ++ [a.bytes st.ctx.backend] } }) :=
  sendLoop_of_sent hf rfl

/-- A response is appended to what was written, after a flush that keeps `P`. -/
theorem send_link {fuel : Nat} (hf : 0 < fuel) {P : Link → Prop} (hd : Drains (linkOs fuel) P)
    {st : St Link} (h : P st.os) (a : Adu) (p : PduReply) :
    ∃ e l, P l ∧ p.send (linkOs fuel) st a =
      .ok ((((p.adu a).bytes st.ctx.backend).length : Nat), p.mapping, ⟨st.ctx, e,
        { l with output := l.output ++ [(p.adu a).bytes st.ctx.backend] }⟩) := by
  unfold PduReply.send
  cases p.flush with
  | false =>
    refine ⟨st.errno, st.os, h, ?_⟩
    simp only [Bool.false_eq_true, if_false, sendAdu_link hf, ok_bind]
  | true =>
    obtain ⟨e, l, hflush, hl⟩ := sleepAndFlush_ends hd h
    refine ⟨e, l, hl, ?_⟩
    simp only [if_true, hflush, sendAdu_link hf, ok_bind]

theorem sendAdu_peer {fuel : Nat} (hf : 0 < fuel) {δ : Type}
    {react : List UInt8 → δ → List UInt8 × δ} (st : St (Peered δ)) (a : Adu) :
    sendAdu (peerOs fuel react) st a = .ok (((a.bytes st.ctx.backend).length : Nat),
      { st with os := st.os.send react (a.bytes st.ctx.backend) }) :=
  sendLoop_of_sent hf rfl

/-! ### One request -/

section Answered

variable {fuel : Nat} {ver : VersionString} {ctx : Modbus} {a : Adu} {m : Mapping} {p : PduReply}

/-- One turn of the server: the frame of a request that is for it and not a broadcast is read,
and the response written. -/
theorem serverLoop_answer (hf : 0 < fuel) (st : St Link) (hc : Connected st.ctx)
    (hl : Listening st.ctx .indication) (ha : Framed .indication a.pdu)
    (haddr : Addressed st.ctx a) (hsup : suppressed st.ctx a.unit = false)
    (hp : servePdu ver a.pdu m = .ok p) (hin : st.os.input = a.bytes st.ctx.backend)
    (hout : st.os.output = []) (n : Nat) :
    ∃ st', serverLoop fuel ver (n + 2) (st, m) = .ok (st', p.mapping) ∧ st'.ctx = st.ctx ∧
      st'.os.input = [] ∧ st'.os.output = [(p.adu a).bytes st.ctx.backend] := by
  have hpos : 0 < (a.bytes st.ctx.backend).length := by
    have := List.length_pos_of_ne_nil ha.ne_nil
    rw [Adu.length_bytes]
    omega
  have hne : st.os.input ≠ [] := by
    rw [hin]
    exact List.ne_nil_of_length_pos hpos
  obtain ⟨l, hrcv, ht, hto⟩ := receiveStep_adu (linkOs_source fuel) hf hc hl ha haddr
    (hin.trans (List.append_nil _).symm)
  obtain ⟨⟨rc, req, st₂⟩, hrcv, he⟩ := bind_eq_ok.mp hrcv
  cases he
  have hlin : l.input = [] := by
    rw [hin] at ht
    exact List.append_cancel_left (ht.symm.trans (List.append_nil _).symm)
  -- the request is answered on the state that the receive call left
  obtain ⟨e, l', ⟨hin', hout'⟩, hsend⟩ : ∃ e, ∃ l' : Link, (l'.input = [] ∧ l'.output = []) ∧
      p.send (linkOs fuel) { st with os := l } a = .ok (_, _, ⟨st.ctx, e,
        { l' with output := l'.output ++ [(p.adu a).bytes st.ctx.backend] }⟩) :=
    send_link hf ((linkOs_drains_input fuel).and (linkOs_drains_output fuel []))
      ⟨hlin, hto.trans hout⟩ a p
  have hreply := modbusReply_wrapped (linkOs fuel) ver { st with os := l } a m a.length_checksum
    ha.ne_nil hsup
  rw [hp, ok_bind, hsend] at hreply
  have hrcv' : modbusReceive (linkOs fuel) st = .ok (((a.bytes st.ctx.backend).length : Nat),
      a.bytes st.ctx.backend, { st with os := l }) := hrcv
  have hrc : (0 : Int) < ((a.bytes st.ctx.backend).length : Nat) := Int.natCast_pos.mpr hpos
  have hreply' : modbusReply (linkOs fuel) ver { st with os := l } (a.bytes st.ctx.backend)
      ((a.bytes st.ctx.backend).length : Nat) m = _ := hreply
  refine ⟨⟨st.ctx, e, { l' with output := l'.output ++ [(p.adu a).bytes st.ctx.backend] }⟩, ?_,
    rfl, hin', ?_⟩
  · simp only [serverLoop, if_neg hne, hrcv', ok_bind, if_pos hrc, hreply', hin', if_true]
  · show l'.output ++ _ = _
    rw [hout', List.nil_append]

/-- **The server answers.**  To the frame of a request that is for it and not a broadcast, an
idle server writes the response and is idle again, with the new mapping. -/
theorem serverReact_answer (hf : 0 < fuel) {s : Run Server} (hs : Idle ctx m s)
    (ha : Framed .indication a.pdu) (haddr : Addressed ctx a)
    (hsup : suppressed ctx a.unit = false) (hp : servePdu ver a.pdu m = .ok p) :
    ∃ s', serverReact fuel ver (a.bytes ctx.backend) s = ((p.adu a).bytes ctx.backend, s') ∧
      Idle ctx p.mapping s' := by
  obtain ⟨⟨st, rfl, rfl, hin, hout⟩, hc, hl⟩ := hs
  set bytes := a.bytes st.ctx.backend with hbytes
  have hlen : (st.os.input ++ bytes).length + 1 = (a.pdu.length + st.ctx.backend.headerLength +
      st.ctx.backend.checksumLength - 1) + 2 := by
    have := List.length_pos_of_ne_nil ha.ne_nil
    rw [hin, List.nil_append, hbytes, Adu.length_bytes]
    omega
  set st₁ : St Link := { st with os := { st.os with input := st.os.input ++ bytes } } with hst₁
  have hin₁ : st₁.os.input = bytes := by
    show st.os.input ++ bytes = bytes
    rw [hin, List.nil_append]
  obtain ⟨st', hloop, hctx, hin', hout'⟩ := serverLoop_answer hf st₁ hc hl ha haddr hsup hp hin₁
    hout (a.pdu.length + st.ctx.backend.headerLength + st.ctx.backend.checksumLength - 1)
  rw [← hlen] at hloop
  refine ⟨.ok ({ st' with os := { st'.os with output := [] } }, p.mapping), ?_, ?_⟩
  · have hstep : serverStep fuel ver bytes (st, m) =
        .ok (st'.os.output.flatten, { st' with os := { st'.os with output := [] } }, p.mapping) := by
      show (serverLoop fuel ver _ (st₁, m) >>= _) = _
      rw [hloop]
      rfl
    simp only [serverReact, ok_bind, hstep, hout', List.flatten_cons, List.flatten_nil,
      List.append_nil]
    rfl
  · exact ⟨⟨_, rfl, hctx, hin', rfl⟩, hc, hl⟩

/-- **Request and response.**  After the frame of a request has been sent to an idle server, the
next receive call returns the response, and the line is empty again. -/
theorem request_answered (hf : 0 < fuel) {st : St (Peered (Run Server))} (hc : Connected st.ctx)
    (hin : st.os.line.input = []) (hs : Idle ctx m st.os.peer)
    (hbe : ctx.backend = st.ctx.backend) (ha : Framed .indication a.pdu)
    (haddr : Addressed ctx a) (hsup : suppressed ctx a.unit = false)
    (hp : servePdu ver a.pdu m = .ok p) (hr : Framed .confirmation p.pdu)
    (hrsp : Addressed st.ctx (p.adu a)) :
    ∃ os', modbusReceiveMsg (peerOs fuel (serverReact fuel ver))
        { st with os := st.os.send (serverReact fuel ver) (a.bytes st.ctx.backend) }
        .confirmation = .ok ((((p.adu a).bytes st.ctx.backend).length : Nat),
          (p.adu a).bytes st.ctx.backend, { st with os := os' }) ∧
      os'.line.input = [] ∧ Idle ctx p.mapping os'.peer := by
  obtain ⟨s', hreact, hidle⟩ := serverReact_answer hf hs ha haddr hsup hp
  rw [hbe] at hreact
  have hline : (st.os.send (serverReact fuel ver) (a.bytes st.ctx.backend)).line.input =
      (p.adu a).bytes st.ctx.backend ++ [] := by
    show st.os.line.input ++ _ = _
    rw [hin, hreact, List.nil_append, List.append_nil]
  have hpeer : (st.os.send (serverReact fuel ver) (a.bytes st.ctx.backend)).peer = s' := by
    show (serverReact fuel ver _ st.os.peer).2 = s'
    rw [hreact]
  set sent := st.os.send (serverReact fuel ver) (a.bytes st.ctx.backend)
  obtain ⟨os', hrcv, ⟨ht, -⟩, htp⟩ := modbusReceiveMsg_adu
    (peerOs_source fuel (serverReact fuel ver)) hf
    (show Connected (⟨st.ctx, st.errno, sent⟩ : St (Peered (Run Server))).ctx from hc) hr hline
  rw [Adu.verdict_of_addressed hrsp] at hrcv
  refine ⟨os', hrcv, List.append_cancel_left (ht.symm.trans hline), ?_⟩
  rw [htp, hpeer]
  exact hidle

end Answered

end Libmodbus
