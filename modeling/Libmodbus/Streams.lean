/-
Libmodbus/Streams.lean

Runs of receive calls over a line that carries many ADUs.

    input = bytes a₁ ++ bytes a₂ ++ … ++ rest     (in pieces of any size)

`receive_run` is the general result: one call for each ADU, each returning its
own, and `rest` is not touched.  Main results:

* `receive_exact_on_streams`: for the requests and the responses of the
  protocol, on both backends;
* `bus_run`: on a shared RTU bus the answers of the other slaves are skipped,
  although a response is framed by other lengths than a request;
* `tcp_message_declared`: on TCP the length of a message comes from the tables
  alone.  The MBAP length is never read (`smuggled_request`), so it agrees with
  the message only when the sender computed it by the same tables.
-/
import Libmodbus.Frames
import Libmodbus.Lib.Runs

namespace Libmodbus

open CSem Wire Posix

variable {σ : Type} {be : Backend} {mt : MsgType}

/-! ### Receive calls as steps -/

/-- `modbus_receive` for requests, `modbus_receive_confirmation` for responses. -/
def receiveAs (os : Os σ) (mt : MsgType) (st : St σ) : Run (Int × List UInt8 × St σ) :=
  match mt with
  | .indication => modbusReceive os st
  | .confirmation => modbusReceiveConfirmation os st

/-- A receive call as the step of a run, one for each ADU on the line.  The ADU is what the call
is expected to take; it is not looked at. -/
def receiveStep (os : Os σ) (mt : MsgType) (_ : Adu) (st : St σ) :
    Run ((Int × List UInt8) × St σ) := do
  let (rc, msg, st) ← receiveAs os mt st
  .ok ((rc, msg), st)

/-- The next call of `modbus_receive` takes what comes for a request. -/
def Listening (ctx : Modbus) (mt : MsgType) : Prop :=
  mt = .indication → ctx.backend = .rtu → ctx.confirmationToIgnore = false

/-- A receive call is `_modbus_receive_msg` when the message is for the context. -/
theorem receiveAs_of_msg {os : Os σ} {st st' : St σ} {rc : Int} {msg : List UInt8}
    (hl : Listening st.ctx mt) (hrc : st.ctx.backend = .rtu → rc ≠ 0)
    (h : modbusReceiveMsg os st mt = .ok (rc, msg, st')) :
    receiveAs os mt st = .ok (rc, msg, st') := by
  cases mt with
  | confirmation => exact h
  | indication =>
    cases hbe : st.ctx.backend with
    | tcp => simp only [receiveAs, modbusReceive, hbe, h]
    | rtu =>
      have hflag := hl rfl hbe
      simp only [receiveAs, modbusReceive, hbe, hflag, h, ok_bind, Bool.false_eq_true,
        if_false, if_neg (hrc hbe)]

/-- The ADU has the given shape, is not longer than the backend allows and is for the context. -/
structure WellFormed (shape : List UInt8 → Prop) (ctx : Modbus) (a : Adu) : Prop where
  shape : shape a.pdu
  fits : (a.bytes ctx.backend).length ≤ ctx.backend.maxAduLength
  addressed : Addressed ctx a

/-- An ADU fits its backend iff its PDU fits every backend. -/
theorem Adu.fits_iff {a : Adu} :
    (a.bytes be).length ≤ be.maxAduLength ↔ a.pdu.length ≤ maxPduLength := by
  rw [Adu.length_bytes]
  cases be <;> simp only [Backend.headerLength, Backend.checksumLength, Backend.maxAduLength,
    maxPduLength] <;> omega

/-- The shape of the messages of one direction. -/
def Shape : MsgType → List UInt8 → Prop
  | .indication => RequestPdu
  | .confirmation => ResponsePdu

theorem WellFormed.framed {ctx : Modbus} {a : Adu} (h : WellFormed (Shape mt) ctx a) :
    Framed mt a.pdu := by
  have hlen := Adu.fits_iff.mp h.fits
  cases mt with
  | indication => exact RequestPdu.framed h.shape hlen
  | confirmation => exact ResponsePdu.framed h.shape hlen

/-- One call takes one ADU. -/
theorem receiveStep_adu {os : Os σ} {view : σ → List UInt8} {took : σ → List UInt8 → σ → Prop}
    (hs : Source os view took) (hf : 0 < os.fuel) {st : St σ} (hc : Connected st.ctx)
    (hl : Listening st.ctx mt) {a : Adu} {rest : List UInt8} (ha : Framed mt a.pdu)
    (haddr : Addressed st.ctx a) (hv : view st.os = a.bytes st.ctx.backend ++ rest) :
    ∃ s', receiveStep os mt a st = .ok ((((a.bytes st.ctx.backend).length : Nat),
        a.bytes st.ctx.backend), { st with os := s' }) ∧
      took st.os (a.bytes st.ctx.backend) s' := by
  obtain ⟨s', hrcv, ht⟩ := modbusReceiveMsg_adu hs hf hc ha hv
  rw [Adu.verdict_of_addressed haddr] at hrcv
  have hne : (((a.bytes st.ctx.backend).length : Nat) : Int) ≠ 0 := by
    have hpos := List.length_pos_of_ne_nil ha.ne_nil
    rw [Adu.length_bytes]
    omega
  refine ⟨s', ?_, ht⟩
  rw [receiveStep, receiveAs_of_msg hl (fun _ => hne) hrcv]
  rfl

/-- **One call for each ADU.**  Every call returns the ADU that is next on the line, and what
follows the last one stays there. -/
theorem receive_run {fuel : Nat} (hf : 0 < fuel) {st : St Link} (hc : Connected st.ctx)
    (hl : Listening st.ctx mt) {adus : List Adu} {rest : List UInt8}
    (ha : ∀ a ∈ adus, Framed mt a.pdu ∧ Addressed st.ctx a)
    (hin : st.os.input = adus.flatMap (Adu.bytes st.ctx.backend) ++ rest) :
    ∃ l, runs (receiveStep (linkOs fuel) mt) adus st =
        .ok (adus.map fun a => (((a.bytes st.ctx.backend).length : Int), a.bytes st.ctx.backend),
          { st with os := l }) ∧
      l.input = rest := by
  induction adus generalizing st with
  | nil => exact ⟨st.os, rfl, hin⟩
  | cons a adus ih =>
    obtain ⟨haf, haa⟩ := ha a (by simp)
    rw [List.flatMap_cons, List.append_assoc] at hin
    obtain ⟨l₁, hcall, ht, -⟩ := receiveStep_adu (linkOs_source fuel) hf hc hl haf haa hin
    have hin₁ : l₁.input = adus.flatMap (Adu.bytes st.ctx.backend) ++ rest :=
      List.append_cancel_left (ht.symm.trans hin)
    have htail : ∀ b ∈ adus, Framed mt b.pdu ∧ Addressed st.ctx b :=
      fun b hb => ha b (by simp [hb])
    obtain ⟨l, hrun, hrest⟩ : ∃ l, runs (receiveStep (linkOs fuel) mt) adus
        { st with os := l₁ } = .ok (adus.map fun a =>
          (((a.bytes st.ctx.backend).length : Int), a.bytes st.ctx.backend),
          { st with os := l }) ∧ l.input = rest := ih hc hl htail hin₁
    refine ⟨l, ?_, hrest⟩
    rw [runs_cons_ok hcall, hrun]
    rfl

/-- **Framing is exact on streams.**  For every list of requests of the protocol on the line,
and for every list of responses, successive receive calls return exactly these ADUs in order,
and the line holds what came behind them. -/
theorem receive_exact_on_streams {fuel : Nat} (hf : 0 < fuel) (mt : MsgType) {st : St Link}
    (hc : Connected st.ctx) (hl : Listening st.ctx mt) {adus : List Adu} {rest : List UInt8}
    (ha : ∀ a ∈ adus, WellFormed (Shape mt) st.ctx a)
    (hin : st.os.input = adus.flatMap (Adu.bytes st.ctx.backend) ++ rest) :
    ∃ l, runs (receiveStep (linkOs fuel) mt) adus st =
        .ok (adus.map fun a => (((a.bytes st.ctx.backend).length : Int), a.bytes st.ctx.backend),
          { st with os := l }) ∧
      l.input = rest :=
  receive_run hf hc hl (fun a h => ⟨(ha a h).framed, (ha a h).addressed⟩) hin

/-- A read request and a broadcast that writes two registers. -/
def sampleRequests : List Adu :=
  [⟨0, 0, 0, 17, [0x03, 0, 1, 0, 2]⟩, ⟨0, 0, 0, 0, [0x10, 0, 1, 0, 2, 4, 1, 2, 3, 4]⟩]

theorem receive_exact_on_streams_sample :
    ∃ l, runs (receiveStep (linkOs 1) .indication) sampleRequests
        (sampleSt .rtu 17 (sampleRequests.flatMap (Adu.bytes .rtu) ++ [])) =
        .ok (sampleRequests.map fun a => (((a.bytes .rtu).length : Int), a.bytes .rtu),
          { sampleSt .rtu 17 (sampleRequests.flatMap (Adu.bytes .rtu) ++ []) with os := l }) ∧
      l.input = [] := by
  refine receive_exact_on_streams (by decide) .indication (by decide) (fun _ _ => rfl) ?_ rfl
  intro a ha
  simp only [sampleRequests, List.mem_cons, List.not_mem_nil, or_false] at ha
  rcases ha with rfl | rfl
  · exact ⟨.read (by simp) 0 1 0 2, by rw [Adu.fits_iff]; decide, fun _ => Or.inl rfl⟩
  · exact ⟨.writeMultiple (by simp) 0 1 0 2 4 [1, 2, 3, 4] rfl, by rw [Adu.fits_iff]; decide,
      fun _ => Or.inr rfl⟩

/-! ### A shared RTU bus -/

/-- What goes over the bus from one request of the master to the next. -/
inductive Transaction
  /-- A request to this server. -/
  | own (request : List UInt8)
  /-- A broadcast, which nobody answers. -/
  | broadcast (request : List UInt8)
  /-- A request to another slave, and its response. -/
  | foreign (slave : UInt8) (request response : List UInt8)

namespace Transaction

/-- The frames of a transaction, as a server with number `s` hears them. -/
def frames (s : UInt8) : Transaction → List Adu
  | own request => [rtuAdu s request]
  | broadcast request => [rtuAdu 0 request]
  | foreign slave request response => [rtuAdu slave request, rtuAdu slave response]

def wire (s : UInt8) (t : Transaction) : List UInt8 := (t.frames s).flatMap (Adu.bytes .rtu)

/-- The requests the server has to process. -/
def accepted (s : UInt8) : Transaction → List (List UInt8)
  | foreign _ _ _ => []
  | t => (t.frames s).map (Adu.bytes .rtu)

/-- The result of each receive call: a foreign frame makes it return 0. -/
def results (s : UInt8) : Transaction → List (Int × List UInt8)
  | foreign slave request response =>
    [(0, (rtuAdu slave request).bytes .rtu), (0, (rtuAdu slave response).bytes .rtu)]
  | t => (t.frames s).map fun a => (((a.bytes .rtu).length : Int), a.bytes .rtu)

/-- The frames have the shapes of the protocol and fit, and "another slave" is neither this
server nor the broadcast address. -/
def Valid (s : UInt8) : Transaction → Prop
  | own request => RequestPdu request ∧ request.length ≤ maxPduLength
  | broadcast request => RequestPdu request ∧ request.length ≤ maxPduLength
  | foreign slave request response => slave ≠ s ∧ slave ≠ 0 ∧
      (RequestPdu request ∧ request.length ≤ maxPduLength) ∧
      (ResponsePdu response ∧ response.length ≤ maxPduLength)

end Transaction

/-- `modbus_receive` on a server whose flag is down takes a request of its own. -/
theorem receive_own {fuel : Nat} (hf : 0 < fuel) {st : St Link} (hc : Connected st.ctx)
    (hbe : st.ctx.backend = .rtu) (hflag : st.ctx.confirmationToIgnore = false) {a : Adu}
    {rest : List UInt8} (ha : Framed .indication a.pdu) (haddr : Addressed st.ctx a)
    (hin : st.os.input = a.bytes .rtu ++ rest) :
    ∃ l, receiveStep (linkOs fuel) .indication a st =
        .ok ((((a.bytes .rtu).length : Nat), a.bytes .rtu), { st with os := l }) ∧
      l.input = rest := by
  rw [← hbe] at hin ⊢
  obtain ⟨l, hcall, ht, -⟩ :=
    receiveStep_adu (linkOs_source fuel) hf hc (fun _ _ => hflag) ha haddr hin
  exact ⟨l, hcall, List.append_cancel_left (ht.symm.trans hin)⟩

/-- A foreign request raises the flag. -/
theorem receive_foreign_request {fuel : Nat} (hf : 0 < fuel) {st : St Link}
    (hc : Connected st.ctx) (hbe : st.ctx.backend = .rtu)
    (hflag : st.ctx.confirmationToIgnore = false) {a : Adu} {rest : List UInt8}
    (ha : Framed .indication a.pdu) (haddr : ¬ Addressed st.ctx a)
    (hin : st.os.input = a.bytes .rtu ++ rest) :
    ∃ l, receiveStep (linkOs fuel) .indication a st = .ok ((0, a.bytes .rtu),
        { st with ctx := { st.ctx with confirmationToIgnore := true }, os := l }) ∧
      l.input = rest := by
  obtain ⟨l, hrcv, ht, -⟩ :=
    modbusReceiveMsg_adu (linkOs_source fuel) hf hc ha (by rw [hbe]; exact hin)
  rw [Adu.verdict_of_foreign haddr, hbe] at hrcv
  rw [hbe] at ht
  refine ⟨l, ?_, List.append_cancel_left (ht.symm.trans hin)⟩
  simp only [receiveStep, receiveAs, modbusReceive, hbe, hflag, hrcv, ok_bind,
    Bool.false_eq_true, if_false, if_true]

/-- The response that follows is framed as one, dropped, and the flag falls again. -/
theorem receive_foreign_response {fuel : Nat} (hf : 0 < fuel) {st : St Link}
    (hc : Connected st.ctx) (hbe : st.ctx.backend = .rtu)
    (hflag : st.ctx.confirmationToIgnore = true) {a : Adu} {rest : List UInt8}
    (ha : Framed .confirmation a.pdu) (hin : st.os.input = a.bytes .rtu ++ rest) :
    ∃ l, receiveStep (linkOs fuel) .indication a st = .ok ((0, a.bytes .rtu),
        { st with ctx := { st.ctx with confirmationToIgnore := false }, os := l }) ∧
      l.input = rest := by
  obtain ⟨l, hrcv, ht, -⟩ :=
    modbusReceiveMsg_adu (linkOs_source fuel) hf hc ha (by rw [hbe]; exact hin)
  rw [hbe] at hrcv ht
  refine ⟨l, ?_, List.append_cancel_left (ht.symm.trans hin)⟩
  simp only [receiveStep, receiveAs, modbusReceive, hbe, hflag, hrcv, ok_bind, if_true]

theorem addressed_rtuAdu {ctx : Modbus} {s slave : UInt8} {pdu : List UInt8}
    (hbe : ctx.backend = .rtu) (hs : ctx.slave = s.toNat) :
    Addressed ctx (rtuAdu slave pdu) ↔ slave = s ∨ slave = 0 := by
  have h0 : slave.toNat = broadcastAddress ↔ slave = 0 := UInt8.toNat_inj (b := 0)
  have hs' : (slave.toNat : Int) = s.toNat ↔ slave = s := by
    rw [Int.natCast_inj, UInt8.toNat_inj]
  simp only [Addressed, hbe, forall_const, rtuAdu, hs, hs', h0]

/-- **One transaction.**  The calls it takes return its results and leave the context as it was,
the flag down. -/
theorem bus_transaction {fuel : Nat} (hf : 0 < fuel) {st : St Link} {s : UInt8}
    (hc : Connected st.ctx) (hbe : st.ctx.backend = .rtu) (hs : st.ctx.slave = s.toNat)
    (hflag : st.ctx.confirmationToIgnore = false) {t : Transaction} {rest : List UInt8}
    (ht : t.Valid s) (hin : st.os.input = t.wire s ++ rest) :
    ∃ l, runs (receiveStep (linkOs fuel) .indication) (t.frames s) st =
        .ok (t.results s, { st with os := l }) ∧ l.input = rest := by
  cases t with
  | own request =>
    have hin' : st.os.input = (rtuAdu s request).bytes .rtu ++ rest := by
      simpa [Transaction.wire, Transaction.frames] using hin
    obtain ⟨l, hcall, hl⟩ := receive_own hf hc hbe hflag (RequestPdu.framed ht.1 ht.2)
      ((addressed_rtuAdu hbe hs).mpr (Or.inl rfl)) hin'
    refine ⟨l, ?_, hl⟩
    show runs _ [rtuAdu s request] st = _
    rw [runs_cons_ok hcall]
    rfl
  | broadcast request =>
    have hin' : st.os.input = (rtuAdu 0 request).bytes .rtu ++ rest := by
      simpa [Transaction.wire, Transaction.frames] using hin
    obtain ⟨l, hcall, hl⟩ := receive_own hf hc hbe hflag (RequestPdu.framed ht.1 ht.2)
      ((addressed_rtuAdu hbe hs).mpr (Or.inr rfl)) hin'
    refine ⟨l, ?_, hl⟩
    show runs _ [rtuAdu 0 request] st = _
    rw [runs_cons_ok hcall]
    rfl
  | foreign slave request response =>
    obtain ⟨hne, h0, hreq, hrsp⟩ := ht
    have hin' : st.os.input = (rtuAdu slave request).bytes .rtu ++
        ((rtuAdu slave response).bytes .rtu ++ rest) := by
      simpa [Transaction.wire, Transaction.frames] using hin
    have haddr : ¬ Addressed st.ctx (rtuAdu slave request) := by
      rw [addressed_rtuAdu hbe hs]
      exact not_or.mpr ⟨hne, h0⟩
    obtain ⟨l₁, hcall₁, hl₁⟩ := receive_foreign_request hf hc hbe hflag
      (RequestPdu.framed hreq.1 hreq.2) haddr hin'
    -- between the two calls the flag is up, and the next frame on the wire is the response
    set st₁ : St Link :=
      { st with ctx := { st.ctx with confirmationToIgnore := true }, os := l₁ } with hst₁
    have hc₁ : Connected st₁.ctx := hc
    have hin₁ : st₁.os.input = (rtuAdu slave response).bytes .rtu ++ rest := hl₁
    obtain ⟨l₂, hcall₂, hl₂⟩ : ∃ l, receiveStep (linkOs fuel) .indication
        (rtuAdu slave response) st₁ = .ok ((0, (rtuAdu slave response).bytes .rtu),
          { st₁ with ctx := { st₁.ctx with confirmationToIgnore := false }, os := l }) ∧
        l.input = rest :=
      receive_foreign_response hf hc₁ hbe rfl
        (show Framed .confirmation (rtuAdu slave response).pdu from
          ResponsePdu.framed hrsp.1 hrsp.2) hin₁
    have hctx : { st₁ with ctx := { st₁.ctx with confirmationToIgnore := false }, os := l₂ } =
        { st with os := l₂ } := by
      rw [hst₁, ← hflag]
    refine ⟨l₂, ?_, hl₂⟩
    show runs _ [rtuAdu slave request, rtuAdu slave response] st = _
    rw [runs_cons_ok hcall₁, runs_cons_ok hcall₂, hctx]
    rfl

/-- The calls that return a positive length return the accepted requests. -/
theorem Transaction.accepted_of_results (s : UInt8) (t : Transaction) :
    ((t.results s).filter fun o => 0 < o.1).map Prod.snd = t.accepted s := by
  have hpos : ∀ a : Adu, (0 : Int) < ((a.bytes .rtu).length : Nat) := by
    intro a
    rw [Adu.length_bytes]
    simp only [Backend.headerLength, Backend.checksumLength]
    omega
  cases t with
  | own request => simp only [results, frames, accepted, List.map_cons, List.map_nil,
      List.filter_cons, hpos, decide_true, if_true, List.filter_nil]
  | broadcast request => simp only [results, frames, accepted, List.map_cons, List.map_nil,
      List.filter_cons, hpos, decide_true, if_true, List.filter_nil]
  | foreign slave request response => rfl

/-- **A server on a shared bus processes exactly its own requests.**  Over any sequence of
transactions the receive calls, one for each frame on the bus, return the requests to the server
and the broadcasts, in order, and 0 for every foreign frame.  The flag is down again after them,
whatever follows on the bus. -/
theorem bus_run {fuel : Nat} (hf : 0 < fuel) {st : St Link} {s : UInt8} (hc : Connected st.ctx)
    (hbe : st.ctx.backend = .rtu) (hs : st.ctx.slave = s.toNat)
    (hflag : st.ctx.confirmationToIgnore = false)
    {ts : List Transaction} {rest : List UInt8} (ht : ∀ t ∈ ts, t.Valid s)
    (hin : st.os.input = ts.flatMap (Transaction.wire s) ++ rest) :
    ∃ l outs, runs (receiveStep (linkOs fuel) .indication)
        (ts.flatMap (Transaction.frames s)) st = .ok (outs, { st with os := l }) ∧
      outs = ts.flatMap (Transaction.results s) ∧
      (outs.filter fun o => 0 < o.1).map Prod.snd = ts.flatMap (Transaction.accepted s) ∧
      ({ st with os := l }).ctx.confirmationToIgnore = false ∧ l.input = rest := by
  induction ts generalizing st with
  | nil => exact ⟨st.os, [], rfl, rfl, rfl, hflag, hin⟩
  | cons t ts ih =>
    rw [List.flatMap_cons, List.append_assoc] at hin
    obtain ⟨l₁, hrun₁, hl₁⟩ := bus_transaction hf hc hbe hs hflag (ht t (by simp)) hin
    obtain ⟨l, outs, hrun, houts, hacc, hfin, hrest⟩ : ∃ l outs,
        runs (receiveStep (linkOs fuel) .indication)
          (ts.flatMap (Transaction.frames s)) { st with os := l₁ } =
            .ok (outs, { st with os := l }) ∧
        outs = ts.flatMap (Transaction.results s) ∧
        (outs.filter fun o => 0 < o.1).map Prod.snd = ts.flatMap (Transaction.accepted s) ∧
        st.ctx.confirmationToIgnore = false ∧ l.input = rest :=
      ih hc hbe hs hflag (fun t' h' => ht t' (by simp [h'])) hl₁
    refine ⟨l, t.results s ++ outs, ?_, ?_, ?_, hfin, hrest⟩
    · rw [List.flatMap_cons, runs_append hrun₁, hrun]
      rfl
    · rw [List.flatMap_cons, houts]
    · rw [List.flatMap_cons, List.filter_append, List.map_append, t.accepted_of_results, hacc]

/-- A master that reads from slave 9, then writes to slave 17. -/
def sampleBus : List Transaction :=
  [.foreign 9 [0x03, 0, 1, 0, 2] [0x03, 4, 1, 2, 3, 4], .own [0x06, 0, 1, 0, 2]]

theorem bus_run_sample :
    ∃ l outs, runs (receiveStep (linkOs 1) .indication)
        (sampleBus.flatMap (Transaction.frames 17))
        (sampleSt .rtu 17 (sampleBus.flatMap (Transaction.wire 17) ++ [])) = .ok (outs,
          { sampleSt .rtu 17 (sampleBus.flatMap (Transaction.wire 17) ++ []) with os := l }) ∧
      outs = sampleBus.flatMap (Transaction.results 17) ∧
      (outs.filter fun o => 0 < o.1).map Prod.snd = sampleBus.flatMap (Transaction.accepted 17) ∧
      (sampleSt .rtu 17 []).ctx.confirmationToIgnore = false ∧ l.input = [] := by
  refine bus_run (by decide) (by decide) rfl rfl rfl ?_ rfl
  intro t ht
  simp only [sampleBus, List.mem_cons, List.not_mem_nil, or_false] at ht
  rcases ht with rfl | rfl
  · exact ⟨by decide, by decide, ⟨.read (by simp) 0 1 0 2, by decide⟩,
      ⟨.values (by simp) 4 [1, 2, 3, 4] rfl, by decide⟩⟩
  · exact ⟨.writeSingle (by simp) 0 1 0 2, by decide⟩

/-! ### TCP messages and the MBAP length -/

theorem receiveAs_tcp {os : Os σ} {st : St σ} (htcp : st.ctx.backend = .tcp) :
    receiveAs os mt st = modbusReceiveMsg os st mt := by
  cases mt with
  | indication => simp only [receiveAs, modbusReceive, htcp]
  | confirmation => rfl

/-- **What a message is on TCP.**  Whatever the system does, a message that is returned with a
positive `rc` is `rc` bytes long, these are the bytes that were read, there are not more than an
ADU may have, and their number is the one that the function code tables compute from the message
itself. -/
theorem tcp_message_sound {os : Os σ} {took : σ → List UInt8 → σ → Prop} (ht : Tracked os took)
    {st st' : St σ} {rc : Int} {msg : List UInt8} (htcp : st.ctx.backend = .tcp) (hrc : 0 < rc)
    (h : receiveAs os mt st = .ok (rc, msg, st')) :
    rc = msg.length ∧ messageLength .tcp mt msg = .ok msg.length ∧
      msg.length ≤ Backend.tcp.maxAduLength ∧ took st.os msg st'.os := by
  rw [receiveAs_tcp htcp] at h
  obtain ⟨e, s', htk, hm, hmax, hci⟩ := modbusReceiveMsg_sound ht (by omega) h
  have htcp' : (⟨st.ctx, e, s'⟩ : St σ).ctx.backend = .tcp := htcp
  rw [checkIntegrity_tcp htcp'] at hci
  cases hci
  rw [htcp] at hm hmax
  exact ⟨rfl, hm, hmax, htk⟩

/-- The sender's header agrees with the tables: protocol id 0, and as MBAP length the unit and a
PDU of the length it declares. -/
structure Consistent (mt : MsgType) (a : Adu) : Prop where
  framed : Framed mt a.pdu
  protocol : a.protocol = 0
  length : a.length.toNat = a.pdu.length + 1

/-- Protocol id 0 in bytes 2 and 3, and `n - 6` in bytes 4 and 5. -/
def HeaderRight (msg : List UInt8) (n : Int) : Prop :=
  rdWord msg 2 = .ok 0 ∧ ∃ length, rdWord msg 4 = .ok length ∧ (length : Int) = n - 6

theorem Consistent.headerRight {a : Adu} (h : Consistent mt a) :
    HeaderRight (a.bytes .tcp) (a.bytes .tcp).length := by
  have hword : ∀ v : UInt16, word (hi v.toNat) (lo v.toNat) = v.toNat :=
    fun v => word_hi_lo_nat v.toNat_lt
  refine ⟨?_, a.length.toNat, ?_, ?_⟩
  · show Except.ok (word (hi a.protocol.toNat) (lo a.protocol.toNat)) = _
    rw [hword, h.protocol]
    rfl
  · show Except.ok (word (hi a.length.toNat) (lo a.length.toNat)) = _
    rw [hword]
  · rw [h.length, Adu.length_bytes]
    simp only [Backend.headerLength, Backend.checksumLength]
    omega

/-- **A TCP message is what the tables declare.**  First, whatever the system does, a message
that is returned with a positive `rc` is `rc` bytes long, at most an ADU, it is the bytes that
were read, and their number is the one the tables compute from the message itself.  Second, when
the headers of the senders agree with the tables, the calls return exactly the ADUs, so every
message has protocol id 0 and the right MBAP length and none begins inside another. -/
theorem tcp_message_declared (mt : MsgType) :
    (∀ {σ : Type} {os : Os σ} {took : σ → List UInt8 → σ → Prop} {st st' : St σ} {rc : Int}
        {msg : List UInt8}, Tracked os took → st.ctx.backend = .tcp → 0 < rc →
        receiveAs os mt st = .ok (rc, msg, st') →
      rc = msg.length ∧ messageLength .tcp mt msg = .ok msg.length ∧
        msg.length ≤ Backend.tcp.maxAduLength ∧ took st.os msg st'.os) ∧
    ∀ {fuel : Nat} {st : St Link} {adus : List Adu} {rest : List UInt8}, 0 < fuel →
        Connected st.ctx → st.ctx.backend = .tcp → (∀ a ∈ adus, Consistent mt a) →
        st.os.input = adus.flatMap (Adu.bytes .tcp) ++ rest →
      ∃ l outs, runs (receiveStep (linkOs fuel) mt) adus st =
          .ok (outs, { st with os := l }) ∧
        outs = adus.map (fun a => (((a.bytes .tcp).length : Int), a.bytes .tcp)) ∧
        (∀ o ∈ outs, HeaderRight o.2 o.1) ∧ l.input = rest := by
  refine ⟨fun ht htcp hrc h => tcp_message_sound ht htcp hrc h, ?_⟩
  intro fuel st adus rest hf hc htcp hcons hin
  have haddr : ∀ a, Addressed st.ctx a := fun a h => absurd (htcp.symm.trans h) (by decide)
  have hl : Listening st.ctx mt := fun _ h => absurd (htcp.symm.trans h) (by decide)
  rw [← htcp] at hin ⊢
  obtain ⟨l, hrun, hrest⟩ := receive_run hf hc hl
    (fun a ha => ⟨(hcons a ha).framed, haddr a⟩) hin
  refine ⟨l, _, hrun, rfl, ?_, hrest⟩
  intro o ho
  obtain ⟨a, ha, rfl⟩ := List.mem_map.mp ho
  rw [htcp]
  exact (hcons a ha).headerRight

theorem tcp_message_declared_sample :
    ∃ l outs, runs (receiveStep (linkOs 1) .indication) [⟨7, 0, 6, 1, [0x03, 0, 1, 0, 2]⟩]
        (sampleSt .tcp 255 [0, 7, 0, 0, 0, 6, 1, 0x03, 0, 1, 0, 2]) = .ok (outs,
          { sampleSt .tcp 255 [0, 7, 0, 0, 0, 6, 1, 0x03, 0, 1, 0, 2] with os := l }) ∧
      outs = [(12, [0, 7, 0, 0, 0, 6, 1, 0x03, 0, 1, 0, 2])] ∧
      (∀ o ∈ outs, HeaderRight o.2 o.1) ∧ l.input = [] :=
  (tcp_message_declared .indication).2 (by decide) (by decide) rfl
    (by
      intro a ha
      rw [List.mem_singleton.mp ha]
      exact ⟨by decide, rfl, rfl⟩) rfl

/-- One ADU of 24 bytes by its MBAP length: a read request, and twelve bytes more that have the
form of a write request. -/
def smuggled : List UInt8 :=
  [0, 1, 0, 0, 0, 18, 1, 0x03, 0, 0, 0, 1,  0, 2, 0, 0, 0, 6, 1, 0x06, 0, 0, 0, 99]

/-- The second half of that ADU is returned as a request of its own. -/
theorem smuggled_request :
    (runs (receiveStep (linkOs 1) .indication) [default, default]
        (sampleSt .tcp 255 smuggled)).map Prod.fst =
      .ok [(12, smuggled.take 12), (12, smuggled.drop 12)] ∧
    rdWord smuggled 4 = .ok (smuggled.length - 6) ∧ ¬ HeaderRight (smuggled.take 12) 12 := by
  refine ⟨by rfl, by rfl, ?_⟩
  rintro ⟨-, length, h, hlen⟩
  cases h
  exact absurd hlen (by decide)

end Libmodbus
