/-
Libmodbus/Traces.lean

What the functions of the library do to the system and to their context, for
every system whose calls obey a rule (`Posix.Obeys`): one lemma for each
function, assembled as the functions are.

    st.Moved R st'  :=  the context keeps all but its descriptor, and R st.os st'.os

`exchange_moved`, `modbusReply_moved` and their companions are used with the
two rules of a recording system: a receiver sends nothing, and a sender nothing
but its frame.
-/
import Libmodbus.Lib.Record
import Libmodbus.Client
import Libmodbus.Proxy
import Libmodbus.Stops

namespace Libmodbus

open CSem Wire Posix

variable {σ : Type}

/-- Recovery may replace the descriptor; nothing else of the context changes. -/
structure St.Moved (R : σ → σ → Prop) (st st' : St σ) : Prop where
  ctx : ∃ s, st'.ctx = { st.ctx with s := s }
  os : R st.os st'.os

namespace St.Moved

variable {os : Os σ} {M : List UInt8 → Prop} {R : σ → σ → Prop} {st st' st'' : St σ}

theorem refl (ho : Obeys os M R) (st : St σ) : st.Moved R st := ⟨⟨st.ctx.s, rfl⟩, ho.refl st.os⟩

theorem trans (ho : Obeys os M R) (h : st.Moved R st') (h' : st'.Moved R st'') :
    st.Moved R st'' := by
  obtain ⟨⟨s, hs⟩, hR⟩ := h
  obtain ⟨⟨s', hs'⟩, hR'⟩ := h'
  refine ⟨⟨s', ?_⟩, ho.trans hR hR'⟩
  rw [hs', hs]

/-- `errno` may be set on the way. -/
theorem errno (h : st.Moved R st') (e : Errno) : st.Moved R { st' with errno := e } :=
  ⟨h.ctx, h.os⟩

theorem backend (h : st.Moved R st') : st'.ctx.backend = st.ctx.backend := by
  obtain ⟨s, hs⟩ := h.ctx
  rw [hs]

theorem touch {s : σ} (h : R st.os s) (e : Option SysErrno) : st.Moved R (st.touch e s) := by
  cases e with
  | none => exact ⟨⟨st.ctx.s, rfl⟩, h⟩
  | some e => exact ⟨⟨st.ctx.s, rfl⟩, h⟩

/-- One call, and what it leaves in `errno`. -/
theorem call {s : σ} (h : R st.os s) (e : Errno) : st.Moved R ⟨st.ctx, e, s⟩ :=
  ⟨⟨st.ctx.s, rfl⟩, h⟩

end St.Moved

section

variable {os : Os σ} {M : List UInt8 → Prop} {R : σ → σ → Prop} (ho : Obeys os M R)

include ho

/-! ### Recovery actions -/

/-- The system is asked to sleep, and that is all. -/
theorem sleepResponseTimeout_moved (st : St σ) : st.Moved R (sleepResponseTimeout os st) :=
  St.Moved.touch (ho.sleep rfl) _

theorem tcpFlushLoop_moved (fuel rcSum : Nat) (st : St σ) :
    Ends (tcpFlushLoop os fuel rcSum st) (fun r => st.Moved R r.2) fun _ => True := by
  induction fuel generalizing rcSum st with
  | zero => exact trivial
  | succ fuel ih =>
    rw [tcpFlushLoop]
    rcases hr : os.recvDontwait 260 st.os with ⟨e | b, s⟩
    · exact St.Moved.touch (ho.recvDontwait hr) (some e)
    · have hs : st.Moved R { st with os := s } := .call (ho.recvDontwait hr) _
      refine Ends.ite (fun _ => hs.errno _) fun _ => Ends.ite (fun _ => ?_) fun _ => hs
      exact (ih _ _).imp (fun r h => hs.trans ho h) fun _ h => h

/-- What is waiting is thrown away: read on TCP, flushed by the driver on RTU. -/
theorem modbusFlush_moved (st : St σ) :
    Ends (modbusFlush os st) (fun r => st.Moved R r.2) fun _ => True := by
  unfold modbusFlush
  cases st.ctx.backend with
  | tcp => exact tcpFlushLoop_moved ho _ _ st
  | rtu =>
    rcases hr : os.tcflush st.os with ⟨- | e, s⟩
    · exact St.Moved.call (ho.tcflush hr) _
    · exact St.Moved.touch (ho.tcflush hr) (some e)

theorem sleepAndFlush_moved (st : St σ) :
    Ends (sleepAndFlush os st) (fun st' => st.Moved R st') fun _ => True :=
  (modbusFlush_moved ho _).bind fun _ _ h => (sleepResponseTimeout_moved ho st).trans ho h

theorem modbusClose_moved (st : St σ) : st.Moved R (modbusClose os st) := by
  unfold modbusClose
  split_ifs
  · rcases hr : os.close st.os with ⟨e, s⟩
    exact ⟨⟨-1, rfl⟩, (St.Moved.touch (ho.close hr) e).os⟩
  · exact .refl ho st

/-- A connection gives the context a descriptor; one that is refused gives it -1. -/
theorem modbusConnect_moved (st : St σ) : st.Moved R (modbusConnect os st).2 := by
  unfold modbusConnect
  rcases hr : os.connect st.os with ⟨⟨fd, e⟩, s⟩
  have h : st.Moved R (st.touch e s) := .touch (ho.connect hr) e
  have hfd : ∀ fd : Int, st.Moved R
      { st.touch e s with ctx := { (st.touch e s).ctx with s := fd } } := by
    intro fd
    obtain ⟨s', hs'⟩ := h.ctx
    exact ⟨⟨fd, by rw [hs']⟩, h.os⟩
  simp only
  split
  · exact h
  next fd _ =>
    have h' := h.trans ho (modbusClose_moved ho _)
    obtain ⟨s', hs'⟩ := h'.ctx
    exact ⟨⟨fd, by simp only [hs']⟩, h'.os⟩
  · exact hfd (-1)
  · exact hfd _

/-- What a recovery of the link does. -/
theorem reconnect_moved (st : St σ) : st.Moved R (modbusConnect os (modbusClose os st)).2 :=
  (modbusClose_moved ho st).trans ho (modbusConnect_moved ho _)

/-! ### Sending -/

/-- What `send_msg` does between two turns. -/
theorem recoverSend_moved (st : St σ) :
    Ends (recoverSend os st) (fun st' => st.Moved R st') fun _ => True := by
  refine Ends.ite (fun _ => ?_) fun _ => ?_
  · have h := (modbusClose_moved ho st).trans ho (sleepResponseTimeout_moved ho _)
    exact (h.trans ho (modbusConnect_moved ho _)).errno _
  · exact (sleepAndFlush_moved ho st).bind fun _ _ h => h.errno _

theorem sendLoop_moved {msg : List UInt8} (hm : M msg) (fuel : Nat) (st : St σ) :
    Ends (sendLoop os fuel st msg) (fun r => st.Moved R r.2) fun _ => True := by
  induction fuel generalizing st with
  | zero => exact trivial
  | succ fuel ih =>
    rw [sendLoop]
    rcases hr : os.send msg st.os with ⟨e | n, s⟩
    · have hs : st.Moved R { st with errno := .sys e, os := s } := .call (ho.send hm hr) _
      refine Ends.ite (fun _ => ?_) fun _ => hs
      refine (recoverSend_moved ho _).bind fun st' _ h => ?_
      exact (ih st').imp (fun r hr => hs.trans ho (h.trans ho hr)) fun _ h => h
    · have hs : st.Moved R { st with os := s } := .call (ho.send hm hr) _
      exact Ends.ite (fun _ => hs.errno _) fun _ => hs

/-- The only message of `send_msg` is the one it is given, sealed. -/
theorem sendMsg_moved {msg : List UInt8} (st : St σ) (hm : M (sendMsgPre st.ctx.backend msg)) :
    Ends (sendMsg os st msg) (fun r => st.Moved R r.2) fun _ => True :=
  sendLoop_moved ho hm os.fuel st

/-- A raw request goes out behind a header, for whatever slave and transaction. -/
theorem modbusSendRawRequestTid_moved (st : St σ) {rawReq : List UInt8} {tid : Int}
    (hm : ∀ sft, M (sendMsgPre st.ctx.backend
      (buildResponseBasis st.ctx.backend sft ++ rawReq.drop 2))) :
    Ends (modbusSendRawRequestTid os st rawReq tid) (fun r => st.Moved R r.2) fun _ => True :=
  Ends.ite (fun _ => (St.Moved.refl ho st).errno _) fun _ => Ends.seq fun _ _ =>
    Ends.seq fun _ _ => sendMsg_moved ho st (hm _)

/-! ### Receiving -/

/-- `select` is tried again when a signal interrupts it. -/
theorem backendSelect_moved (fuel : Nat) (st : St σ) (tv : Option Timeval) :
    Ends (backendSelect os fuel st tv) (fun r => st.Moved R r.2) fun _ => True := by
  induction fuel generalizing st with
  | zero => exact trivial
  | succ fuel ih =>
    rw [backendSelect]
    rcases hr : os.select tv st.os with ⟨- | - | e, s⟩
    · exact St.Moved.call (ho.select hr) _
    · exact St.Moved.call (ho.select hr) _
    · have hs : st.Moved R { st with errno := .sys e, os := s } := .call (ho.select hr) _
      refine Ends.ite (fun _ => Ends.ite (fun _ => hs.errno _) fun _ => ?_) fun _ => hs
      exact (ih _).imp (fun r h => hs.trans ho h) fun _ h => h

theorem recoverSelect_moved (st : St σ) :
    Ends (recoverSelect os st) (fun st' => st.Moved R st') fun _ => True := by
  refine Ends.ite (fun _ => .refl ho st) fun _ => Ends.ite (fun _ => ?_) fun _ => ?_
  · exact (sleepAndFlush_moved ho st).bind fun _ _ h => h.errno _
  · exact Ends.ite (fun _ => (reconnect_moved ho st).errno _) fun _ => .refl ho st

theorem recoverRecv_moved (st : St σ) : st.Moved R (recoverRecv os st) := by
  unfold recoverRecv
  simp only
  split_ifs
  · exact (reconnect_moved ho st).errno _
  · exact .refl ho st

/-- On an RTU backend, a message with a wrong CRC may be flushed. -/
theorem checkIntegrity_moved (st : St σ) (msg : List UInt8) :
    Ends (checkIntegrity os st msg) (fun r => st.Moved R r.2) fun _ => True := by
  unfold checkIntegrity
  cases st.ctx.backend with
  | tcp => exact .refl ho st
  | rtu =>
    refine Ends.seq fun slave _ => Ends.seq fun h _ => Ends.seq fun l _ => ?_
    refine Ends.ite (fun _ => Ends.ite (fun _ => ?_) fun _ => ?_) fun _ => ?_
    · exact (modbusFlush_moved ho st).bind fun _ _ h => h.errno _
    · exact (St.Moved.refl ho st).errno _
    · exact Ends.ite (fun _ => .refl ho st) fun _ => .refl ho st

/-- Every turn of the receiver selects, reads and perhaps recovers. -/
theorem receiveLoop_moved (mt : MsgType) (fuel : Nat) (st : St σ) (r : RecvState) :
    Ends (receiveLoop os mt fuel st r) (fun r => st.Moved R r.2.2) fun _ => True := by
  induction fuel generalizing st r with
  | zero => exact trivial
  | succ fuel ih =>
    rw [receiveLoop]
    refine Ends.ite (fun _ => ?_) fun _ => ?_
    · exact (checkIntegrity_moved ho st r.msg).bind fun _ _ h => h
    refine (backendSelect_moved ho _ st r.tv).bind fun selected _ h₁ => ?_
    obtain ⟨ready, st₁⟩ := selected
    refine Ends.ite (fun _ => ?_) fun _ => ?_
    · exact (recoverSelect_moved ho st₁).bind fun st₂ _ h₂ => h₁.trans ho h₂
    rcases hr : os.recv r.lengthToRead st₁.os with ⟨e | bytes, s⟩
    · have hs : st₁.Moved R { st₁ with errno := .sys e, os := s } := .call (ho.recv hr) _
      exact h₁.trans ho (hs.trans ho (recoverRecv_moved ho _))
    · have hs : ∀ e, st₁.Moved R { st₁ with errno := e, os := s } := fun e => .call (ho.recv hr) e
      refine Ends.ite (fun _ => ?_) fun _ => ?_
      · exact h₁.trans ho ((hs _).trans ho (recoverRecv_moved ho _))
      refine Ends.seq fun next _ => ?_
      rcases next with e | r'
      · exact h₁.trans ho (hs e)
      · exact (ih _ r').imp (fun r h => h₁.trans ho ((hs st₁.errno).trans ho h)) fun _ h => h

theorem modbusReceiveMsg_moved (st : St σ) (mt : MsgType) :
    Ends (modbusReceiveMsg os st mt) (fun r => st.Moved R r.2.2) fun _ => True := by
  refine Ends.ite (fun _ => .refl ho st) fun _ => Ends.ite (fun _ => ?_) fun _ => ?_
  · exact (St.Moved.refl ho st).errno _
  · exact receiveLoop_moved ho mt _ st _

/-! ### Confirmations -/

theorem refuseConfirmation_moved (st : St σ) :
    Ends (refuseConfirmation os st) (fun r => st.Moved R r.2) fun _ => True := by
  unfold refuseConfirmation
  split_ifs
  · exact (sleepAndFlush_moved ho st).bind fun _ _ h => h.errno _
  · exact (St.Moved.refl ho st).errno _

/-- Nothing is sent to check a confirmation; a refused one may be flushed. -/
theorem checkConfirmation_moved (st : St σ) (req rsp : List UInt8) (rspLength : Int) :
    Ends (checkConfirmation os st req rsp rspLength) (fun r => st.Moved R r.2)
      fun _ => True := by
  have hself := St.Moved.refl ho st
  refine Ends.seq fun function _ => Ends.seq fun pre _ => ?_
  rcases pre with - | e
  · refine Ends.seq fun rspLengthComputed _ => Ends.seq fun reqFunction _ => ?_
    refine Ends.ite (fun _ => Ends.ite (fun _ => Ends.seq fun code _ => ?_) fun _ => ?_) fun _ => ?_
    · exact Ends.ite (fun _ => hself.errno _) fun _ => hself.errno _
    · exact hself.errno _
    refine Ends.ite (fun _ => Ends.ite (fun _ => ?_) fun _ => ?_) fun _ => ?_
    · exact refuseConfirmation_moved ho st
    · refine Ends.seq fun ⟨n, n', ok⟩ _ => Ends.ite (fun _ => hself) fun _ => ?_
      exact refuseConfirmation_moved ho st
    · exact refuseConfirmation_moved ho st
  · simp only
    split_ifs
    · exact (sleepAndFlush_moved ho _).bind fun _ _ h => (hself.errno e).trans ho h
    · exact hself.errno e

/-- A request is sent, and what follows is received and checked. -/
theorem exchange_moved (st : St σ) {req : List UInt8} (hm : M (sendMsgPre st.ctx.backend req)) :
    Ends (exchange os st req) (fun r => st.Moved R r.2.2) fun _ => True := by
  refine (sendMsg_moved ho st hm).bind fun ⟨rc, st₁⟩ _ h₁ => Ends.ite (fun _ => ?_) fun _ => h₁
  refine (modbusReceiveMsg_moved ho st₁ .confirmation).bind fun ⟨rc', rsp, st₂⟩ _ h₂ => ?_
  refine Ends.ite (fun _ => h₁.trans ho h₂) fun _ => ?_
  exact (checkConfirmation_moved ho st₂ _ rsp rc').bind fun ⟨rc'', st₃⟩ _ h₃ =>
    h₁.trans ho (h₂.trans ho h₃)

/-! ### Replying -/

/-- The only message of `modbus_reply` is the reply. -/
theorem modbusReply_moved {ver : VersionString} {st : St σ} {req : List UInt8} {reqLength : Int}
    {m : Mapping} (hm : ∀ reply, buildReply ver st.ctx.backend req reqLength m = .ok reply →
      M (sendMsgPre st.ctx.backend reply.rsp)) :
    Ends (modbusReply os ver st req reqLength m) (fun r => st.Moved R r.2.2) fun _ => True := by
  rw [modbusReply_eq]
  refine Ends.ite (fun _ => (St.Moved.refl ho st).errno _) fun _ => ?_
  refine Ends.seq fun slave _ => Ends.seq fun reply hreply => ?_
  have hsend : ∀ st', st.Moved R st' →
      Ends (sendReply os slave reply st') (fun r => st.Moved R r.2.2) fun _ => True := by
    intro st' h
    refine Ends.ite (fun _ => h) fun _ => ?_
    have hmsg : M (sendMsgPre st'.ctx.backend reply.rsp) := by
      rw [h.backend]
      exact hm reply hreply
    exact (sendMsg_moved ho st' hmsg).bind fun _ _ h' => h.trans ho h'
  refine Ends.ite (fun _ => ?_) fun _ => hsend st (.refl ho st)
  exact (sleepAndFlush_moved ho st).bind fun st' _ h => hsend st' h

theorem modbusReplyException_moved {st : St σ} {req : List UInt8} {exceptionCode : Nat}
    (hm : ∀ rsp, buildReplyException st.ctx.backend req exceptionCode = .ok (some rsp) →
      M (sendMsgPre st.ctx.backend rsp)) :
    Ends (modbusReplyException os st req exceptionCode) (fun r => st.Moved R r.2)
      fun _ => True := by
  refine Ends.seq fun reply hreply => ?_
  cases reply with
  | none => exact (St.Moved.refl ho st).errno _
  | some rsp => exact sendMsg_moved ho st (hm rsp hreply)

end

/-! ### What is handed to the system -/

/-- A connected context on an idle line that keeps a record. -/
def recordedSt (be : Backend) (slave : Int) : St (Recorded Link) :=
  ⟨{ modbusNew be with slave := slave, s := 3 }, .sys (.other 0), ⟨⟨[], [], fun _ => 3⟩, []⟩⟩

/-- The frame is handed to `send`: once, and again after every recovery of the link. -/
def Handed (ctx : Modbus) (frame : List UInt8) (r r' : Recorded σ) : Prop :=
  ∃ k, r'.sent = r.sent ++ List.replicate (k + 1) frame ∧ (ctx.errorRecovery.link = false → k = 0)

/-- One frame is handed over, however often. -/
theorem Handed.unique {ctx : Modbus} {frame frame' : List UInt8} {r r' : Recorded σ}
    (h : Handed ctx frame r r') (h' : Handed ctx frame' r r') : frame = frame' := by
  obtain ⟨k, hk, -⟩ := h
  obtain ⟨k', hk', -⟩ := h'
  have hsame := List.append_cancel_left (hk.symm.trans hk')
  rw [List.replicate_succ, List.replicate_succ] at hsame
  exact (List.cons.inj hsame).1

theorem sendLoop_handed (os : Os σ) (fuel : Nat) (st : St (Recorded σ)) (frame : List UInt8) :
    Ends (sendLoop (recordOs os) fuel st frame) (fun r => Handed st.ctx frame st.os r.2.os)
      fun _ => True := by
  induction fuel generalizing st with
  | zero => exact trivial
  | succ fuel ih =>
    rw [sendLoop]
    rcases hr : (recordOs os).send frame st.os with ⟨e | n, s⟩
    · have hs : s.sent = st.os.sent ++ [frame] :=
        (congrArg Recorded.sent (Prod.mk.inj hr).2).symm
      refine Ends.ite (fun hlink => ?_) fun _ => ⟨0, hs, fun _ => rfl⟩
      refine (recoverSend_moved (recordOs_quiet os) _).bind fun st' _ h => ?_
      refine (ih st').imp (fun r hr => ?_) fun _ h => h
      -- the record grows by one frame here and by the others in the turns that follow
      obtain ⟨k, hk, -⟩ := hr
      refine ⟨k + 1, ?_, fun hno => absurd hlink (by rw [hno]; exact Bool.false_ne_true)⟩
      have hs' : st'.os.sent = s.sent := h.os
      rw [hk, hs', hs, List.append_assoc]
      rfl
    · have hs : s.sent = st.os.sent ++ [frame] :=
        (congrArg Recorded.sent (Prod.mk.inj hr).2).symm
      exact Ends.ite (fun _ => ⟨0, hs, fun _ => rfl⟩) fun _ => ⟨0, hs, fun _ => rfl⟩

/-- **`send_msg` hands over its frame and nothing else.** -/
theorem sendMsg_handed (os : Os σ) (st : St (Recorded σ)) (msg : List UInt8) :
    Ends (sendMsg (recordOs os) st msg)
      (fun r => Handed st.ctx (sendMsgPre st.ctx.backend msg) st.os r.2.os) fun _ => True :=
  sendLoop_handed os _ st _

/-- Either nothing is handed over or the frame. -/
def Sends (ctx : Modbus) : Option (List UInt8) → Recorded σ → Recorded σ → Prop
  | none, r, r' => r'.sent = r.sent
  | some frame, r, r' => Handed ctx frame r r'

/-- The frame that answers a request, if one does. -/
def replyFrame (ver : VersionString) (ctx : Modbus) (req : List UInt8) (reqLength : Int)
    (m : Mapping) : Run (Option (List UInt8)) :=
  if reqLength < (ctx.backend.headerLength + 1 : Nat) then .ok none
  else do
    let slave ← rd req (ctx.backend.headerLength - 1)
    let reply ← buildReply ver ctx.backend req reqLength m
    .ok (if suppressed ctx slave then none else some (sendMsgPre ctx.backend reply.rsp))

/-- **`modbus_reply` sends the frame that answers the request and nothing else.** -/
theorem modbusReply_sends (os : Os σ) (ver : VersionString) (st : St (Recorded σ))
    (req : List UInt8) (reqLength : Int) (m : Mapping) :
    Ends (modbusReply (recordOs os) ver st req reqLength m)
      (fun r => ∃ frame, replyFrame ver st.ctx req reqLength m = .ok frame ∧
        Sends st.ctx frame st.os r.2.2.os) fun _ => True := by
  rw [modbusReply_eq]
  unfold replyFrame
  refine Ends.ite (fun h => ⟨none, if_pos h, rfl⟩) fun h => ?_
  refine Ends.seq fun slave hslave => Ends.seq fun reply hreply => ?_
  rw [if_neg h, hslave, ok_bind, hreply, ok_bind]
  have hsend : ∀ st', st.Moved (fun r r' => r'.sent = r.sent) st' →
      Ends (sendReply (recordOs os) slave reply st')
        (fun r => ∃ frame, Except.ok (ε := Stop) (if suppressed st.ctx slave then none
            else some (sendMsgPre st.ctx.backend reply.rsp)) = .ok frame ∧
          Sends st.ctx frame st.os r.2.2.os) fun _ => True := by
    intro st' hmoved
    obtain ⟨⟨s, hctx⟩, hsent⟩ := hmoved
    have hsup : suppressed st'.ctx slave = suppressed st.ctx slave := by
      rw [hctx]
      rfl
    rw [sendReply, hsup]
    by_cases hs : suppressed st.ctx slave = true
    · rw [if_pos hs, if_pos hs]
      exact ⟨none, rfl, hsent⟩
    · rw [if_neg hs, if_neg hs]
      refine (sendMsg_handed os st' reply.rsp).bind fun r _ hr => ⟨_, rfl, ?_⟩
      obtain ⟨k, hk, hlink⟩ := hr
      rw [hctx] at hk hlink
      exact ⟨k, by rw [hk, hsent], hlink⟩
  refine Ends.ite (fun _ => ?_) fun _ => hsend st (.refl (recordOs_quiet os) st)
  exact (sleepAndFlush_moved (recordOs_quiet os) st).bind fun st' _ h => hsend st' h

/-! ### How a reply ends -/

/-- A record makes no system wait. -/
theorem Retries.of_record {os : Os σ} {ctx : Modbus} {e : Stop}
    (h : Retries (recordOs os) ctx e) : Retries os ctx e :=
  ⟨h.1, fun hp => h.2 hp.record⟩

/-- One frame is handed over, unless a recovery is retried for ever. -/
theorem sendMsg_hands (os : Os σ) (st : St (Recorded σ)) (msg : List UInt8) :
    Ends (sendMsg (recordOs os) st msg)
      (fun r => Handed st.ctx (sendMsgPre st.ctx.backend msg) st.os r.2.os) (Retries os st.ctx) :=
  ((sendMsg_handed os st msg).and (sendMsg_retries (recordOs os) st msg)).imp (fun _ h => h.1)
    fun _ h => h.2.of_record

/-- The mapping that a run of `modbus_reply` leaves is the one of its reply, and the run stops
with it or where a link is recovered. -/
theorem modbusReply_leaves (os : Os σ) (ver : VersionString) {st : St σ} {req : List UInt8}
    {reqLength : Int} {m : Mapping} {slave : UInt8}
    (hslave : rd req (st.ctx.backend.headerLength - 1) = .ok slave)
    (hlen : ((st.ctx.backend.headerLength + 1 : Nat) : Int) ≤ reqLength) :
    Ends (modbusReply os ver st req reqLength m)
      (fun r => ∃ reply, buildReply ver st.ctx.backend req reqLength m = .ok reply ∧
        r.2.1 = reply.mapping)
      fun e => Retries os st.ctx e ∨ buildReply ver st.ctx.backend req reqLength m = .error e := by
  rw [modbusReply_eq, if_neg (not_lt.mpr hlen), hslave, ok_bind]
  cases buildReply ver st.ctx.backend req reqLength m with
  | error e => exact Or.inr rfl
  | ok reply =>
    have hsend : ∀ st' : St σ, st'.ctx = st.ctx → Ends (sendReply os slave reply st')
        (fun r => ∃ reply', Except.ok (ε := Stop) reply = .ok reply' ∧ r.2.1 = reply'.mapping)
        fun e => Retries os st.ctx e ∨ Except.ok reply = .error e := by
      intro st' hctx
      refine Ends.ite (fun _ => ⟨reply, rfl, rfl⟩) fun _ => ?_
      rw [← hctx]
      exact ((sendMsg_retries os st' reply.rsp).imp (fun _ h => h) fun _ h => Or.inl h).bind
        fun r _ _ => ⟨reply, rfl, rfl⟩
    rw [ok_bind]
    refine Ends.ite (fun _ => ?_) fun _ => hsend st rfl
    obtain ⟨e, s, hflush⟩ := sleepAndFlush_ok os st
    rw [hflush, ok_bind]
    exact hsend ⟨st.ctx, e, s⟩ rfl

theorem modbusReply_error (os : Os σ) (ver : VersionString) {st : St σ} {req : List UInt8}
    {reqLength : Int} {m : Mapping} {slave : UInt8} {e : Stop}
    (hslave : rd req (st.ctx.backend.headerLength - 1) = .ok slave)
    (hlen : ((st.ctx.backend.headerLength + 1 : Nat) : Int) ≤ reqLength)
    (h : buildReply ver st.ctx.backend req reqLength m = .error e) :
    modbusReply os ver st req reqLength m = .error e := by
  rw [modbusReply_eq, if_neg (not_lt.mpr hlen), hslave, ok_bind, h]
  rfl

/-- A reply leaves its mapping, and its frame is handed over unless it is suppressed. -/
theorem modbusReply_replies (os : Os σ) (ver : VersionString) {st : St (Recorded σ)}
    {req : List UInt8} {reqLength : Int} {m : Mapping} {slave : UInt8}
    (hslave : rd req (st.ctx.backend.headerLength - 1) = .ok slave)
    (hlen : ((st.ctx.backend.headerLength + 1 : Nat) : Int) ≤ reqLength) :
    Ends (modbusReply (recordOs os) ver st req reqLength m)
      (fun r => ∃ reply, buildReply ver st.ctx.backend req reqLength m = .ok reply ∧
        r.2.1 = reply.mapping ∧ Sends st.ctx (if suppressed st.ctx slave then none
          else some (sendMsgPre st.ctx.backend reply.rsp)) st.os r.2.2.os)
      fun e => Retries os st.ctx e ∨ buildReply ver st.ctx.backend req reqLength m = .error e := by
  refine ((modbusReply_sends os ver st req reqLength m).and
    (modbusReply_leaves (recordOs os) ver hslave hlen)).imp (fun r h => ?_)
    fun e h => h.2.imp Retries.of_record id
  obtain ⟨⟨frame, hframe, hsends⟩, reply, hreply, hm⟩ := h
  rw [replyFrame, if_neg (not_lt.mpr hlen), hslave, ok_bind, hreply, ok_bind] at hframe
  cases hframe
  exact ⟨reply, hreply, hm, hsends⟩

/-- When there is a reply and it is not suppressed, its frame is handed over. -/
theorem modbusReply_answers (os : Os σ) (ver : VersionString) {st : St (Recorded σ)}
    {req : List UInt8} {reqLength : Int} {m : Mapping} {slave : UInt8} {reply : Reply}
    (hslave : rd req (st.ctx.backend.headerLength - 1) = .ok slave)
    (hlen : ((st.ctx.backend.headerLength + 1 : Nat) : Int) ≤ reqLength)
    (hsup : suppressed st.ctx slave = false)
    (hreply : buildReply ver st.ctx.backend req reqLength m = .ok reply) :
    Ends (modbusReply (recordOs os) ver st req reqLength m)
      (fun r => r.2.1 = reply.mapping ∧
        Handed st.ctx (sendMsgPre st.ctx.backend reply.rsp) st.os r.2.2.os)
      (Retries os st.ctx) := by
  refine (modbusReply_replies os ver hslave hlen).imp (fun r h => ?_) fun e h => ?_
  · obtain ⟨reply', hreply', hm, hsends⟩ := h
    cases hreply.symm.trans hreply'
    rw [hsup] at hsends
    exact ⟨hm, hsends⟩
  · refine h.resolve_right fun herr => ?_
    rw [hreply] at herr
    cases herr

/-! ### What is received -/

theorem tcpFlushLoop_deaf (os : Os σ) (fuel rcSum : Nat) (st : St σ) :
    tcpFlushLoop (deaf os) fuel rcSum st = tcpFlushLoop os fuel rcSum st := by
  induction fuel generalizing rcSum st with
  | zero => rfl
  | succ fuel ih =>
    rw [tcpFlushLoop, tcpFlushLoop]
    simp only [ih]
    rfl

theorem recoverSend_deaf (os : Os σ) (st : St σ) : recoverSend (deaf os) st = recoverSend os st := by
  unfold recoverSend sleepAndFlush modbusFlush
  simp only [tcpFlushLoop_deaf]
  rfl

/-- Sending reads nothing. -/
theorem sendLoop_deaf (os : Os σ) (fuel : Nat) (st : St σ) (msg : List UInt8) :
    sendLoop (deaf os) fuel st msg = sendLoop os fuel st msg := by
  induction fuel generalizing st with
  | zero => rfl
  | succ fuel ih =>
    rw [sendLoop, sendLoop]
    simp only [ih, recoverSend_deaf]
    rfl

theorem sendMsg_received (os : Os σ) (st : St (Tapped σ)) (msg : List UInt8) :
    Ends (sendMsg (tapOs os) st msg) (fun r => st.Moved (fun r r' => r'.received = r.received) r.2)
      fun _ => True := by
  have h : Ends (sendMsg (deaf (tapOs os)) st msg)
      (fun r => st.Moved (fun r r' => r'.received = r.received) r.2) fun _ => True :=
    sendMsg_moved (tapOs_deaf os) st trivial
  unfold sendMsg at h ⊢
  rw [sendLoop_deaf] at h
  exact h

end Libmodbus
