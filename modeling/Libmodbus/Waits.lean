/-
Libmodbus/Waits.lean

How long the library waits.  Whatever the peer sends, and in whatever pieces, a
message of at most `max_adu_length` bytes is waited for no longer than

    first timeout  +  (max_adu_length - 1) * byte timeout

since every turn of the loop brings a byte.  Without a byte timeout the first
one is waited for in every turn.  A call of a client waits for one message and,
with protocol recovery, sleeps once (`session_in_time`); a turn of a server
waits for one message and sleeps once at most (`server_in_time`).

    st.Waits clock n st'  :=  the clock has gone on by no more than n
-/
import Libmodbus.Lib.Clock
import Libmodbus.Histories
import Libmodbus.Clients
import Libmodbus.Sessions

namespace Libmodbus

open CSem Wire Posix

variable {σ : Type}

/-! ### Budgets -/

/-- The longest wait between two bytes of a message that was begun under the timeout `first`. -/
def Modbus.gap (ctx : Modbus) (first : Timeval) : Nat :=
  if 0 < ctx.byteTimeout.sec ∨ 0 < ctx.byteTimeout.usec then ctx.byteTimeout.micros
  else first.micros

/-- The longest wait for a message. -/
def Modbus.messageBudget (ctx : Modbus) (first : Timeval) : Nat :=
  first.micros + (ctx.backend.maxAduLength - 1) * ctx.gap first

/-- The longest wait of a client call. -/
def Modbus.callBudget (ctx : Modbus) : Nat :=
  ctx.messageBudget ctx.responseTimeout +
    if ctx.errorRecovery.protocol then ctx.responseTimeout.micros else 0

/-- From `st` to `st'` the clock goes on by `n` at most. -/
def St.Waits (clock : σ → Nat) (n : Nat) (st st' : St σ) : Prop :=
  clock st'.os ≤ clock st.os + n

namespace St.Waits

variable {clock : σ → Nat} {n m : Nat} {st st' st'' : St σ}

theorem refl (st : St σ) : st.Waits clock 0 st := Nat.le_refl _

theorem trans (h : st.Waits clock n st') (h' : st'.Waits clock m st'') :
    st.Waits clock (n + m) st'' := by
  unfold St.Waits at *
  omega

theorem mono (h : st.Waits clock n st') (hle : n ≤ m) : st.Waits clock m st' :=
  Nat.le_trans h (Nat.add_le_add_left hle _)

theorem touch {s : σ} (h : clock s ≤ clock st.os + n) (e : Option SysErrno) :
    st.Waits clock n (st.touch e s) := by
  cases e with
  | none => exact h
  | some e => exact h

end St.Waits

section

variable {os : Os σ} {clock : σ → Nat} (hc : Clocked os clock)

include hc

/-! ### Flushing and sending -/

theorem sleepResponseTimeout_waits (st : St σ) :
    st.Waits clock st.ctx.responseTimeout.micros (sleepResponseTimeout os st) :=
  .touch (hc.sleep rfl) _

theorem tcpFlushLoop_waits (fuel rcSum : Nat) (st : St σ) :
    Ends (tcpFlushLoop os fuel rcSum st) (fun r => st.Waits clock 0 r.2) fun _ => True := by
  induction fuel generalizing rcSum st with
  | zero => exact trivial
  | succ fuel ih =>
    rw [tcpFlushLoop]
    rcases hr : os.recvDontwait 260 st.os with ⟨e | b, s⟩
    · exact St.Waits.touch (hc.recvDontwait hr) (some e)
    · have hs : st.Waits clock 0 { st with os := s } := hc.recvDontwait hr
      refine Ends.ite (fun _ => hs) fun _ => Ends.ite (fun _ => ?_) fun _ => hs
      exact (ih _ _).imp (fun r h => hs.trans h) fun _ h => h

theorem modbusFlush_waits (st : St σ) :
    Ends (modbusFlush os st) (fun r => st.Waits clock 0 r.2) fun _ => True := by
  unfold modbusFlush
  cases st.ctx.backend with
  | tcp => exact tcpFlushLoop_waits hc _ _ st
  | rtu =>
    rcases hr : os.tcflush st.os with ⟨- | e, s⟩
    · exact hc.tcflush hr
    · exact St.Waits.touch (hc.tcflush hr) (some e)

theorem sleepAndFlush_waits (st : St σ) :
    Ends (sleepAndFlush os st) (fun st' => st.Waits clock st.ctx.responseTimeout.micros st')
      fun _ => True := by
  refine (modbusFlush_waits hc (sleepResponseTimeout os st)).bind fun r _ h => ?_
  have hboth := (sleepResponseTimeout_waits hc st).trans h
  rw [Nat.add_zero] at hboth
  exact hboth

/-- Sending does not wait when the link is not recovered. -/
theorem sendMsg_waits (st : St σ) (msg : List UInt8) (hlink : st.ctx.errorRecovery.link = false) :
    Ends (sendMsg os st msg) (fun r => st.Waits clock 0 r.2) fun _ => True := by
  unfold sendMsg
  cases os.fuel with
  | zero => exact trivial
  | succ fuel =>
    rw [sendLoop]
    rcases hr : os.send (sendMsgPre st.ctx.backend msg) st.os with ⟨e | n, s⟩
    · have hs : st.Waits clock 0 { st with errno := .sys e, os := s } := hc.send hr
      refine Ends.ite (fun h => ?_) fun _ => hs
      rw [hlink] at h
      cases h
    · have hs : st.Waits clock 0 { st with os := s } := hc.send hr
      exact Ends.ite (fun _ => hs) fun _ => hs

/-! ### Receiving -/

theorem backendSelect_waits (hp : Prompt os) (fuel : Nat) (st : St σ) (tv : Timeval) :
    Ends (backendSelect os fuel st (some tv))
      (fun r => r.2.ctx = st.ctx ∧ st.Waits clock tv.micros r.2) fun _ => True := by
  cases fuel with
  | zero => exact trivial
  | succ fuel =>
    rw [backendSelect]
    rcases hr : os.select (some tv) st.os with ⟨- | - | e, s⟩
    · exact ⟨rfl, hc.select hr⟩
    · exact ⟨rfl, hc.select hr⟩
    · refine Ends.ite (fun he => ?_) fun _ => ⟨rfl, hc.select hr⟩
      subst he
      exact absurd hr hp.select

theorem checkIntegrity_waits (st : St σ) (msg : List UInt8) :
    Ends (checkIntegrity os st msg) (fun r => st.Waits clock 0 r.2) fun _ => True := by
  unfold checkIntegrity
  cases st.ctx.backend with
  | tcp => exact St.Waits.refl st
  | rtu =>
    refine Ends.seq fun slave _ => Ends.seq fun h _ => Ends.seq fun l _ => ?_
    refine Ends.ite (fun _ => Ends.ite (fun _ => ?_) fun _ => ?_) fun _ => ?_
    · exact (modbusFlush_waits hc st).bind fun _ _ h => h
    · exact St.Waits.refl st
    · exact Ends.ite (fun _ => .refl st) fun _ => .refl st

end

/-- Without link recovery a failed `recv` is only reported. -/
theorem recoverRecv_off (os : Os σ) {st : St σ} (hlink : st.ctx.errorRecovery.link = false) :
    recoverRecv os st = st := by
  unfold recoverRecv
  simp only [hlink, Bool.false_eq_true, false_and, if_false]

/-- What is waited for after a piece: the byte timeout, or what was waited for before. -/
theorem rearm_tv {ctx : Modbus} {first tv : Timeval} {r : RecvState} (htv : r.tv = some tv)
    (hfirst : tv.micros ≤ ctx.gap first ∨ tv = first) :
    ∃ tv', (r.rearm ctx.byteTimeout).tv = some tv' ∧
      ((r.rearm ctx.byteTimeout).lengthToRead ≠ 0 → tv'.micros ≤ ctx.gap first) := by
  unfold RecvState.rearm
  split_ifs with h
  · refine ⟨ctx.byteTimeout, rfl, fun _ => ?_⟩
    rw [Modbus.gap, if_pos h.2]
  · refine ⟨tv, htv, fun hne => ?_⟩
    have hoff : ¬ (0 < ctx.byteTimeout.sec ∨ 0 < ctx.byteTimeout.usec) :=
      fun hon => h ⟨Nat.pos_of_ne_zero hne, hon⟩
    rcases hfirst with hle | rfl
    · exact hle
    · rw [Modbus.gap, if_neg hoff]

theorem nextStep_tv {be : Backend} {mt : MsgType} {r r' : RecvState}
    (h : nextStep be mt r = .ok (.ok r')) : r'.tv = r.tv := by
  have hmeta : ∀ {r'}, stepMeta be mt r = .ok (.ok r') → r'.tv = r.tv := by
    intro r' h
    obtain ⟨length, -, h⟩ := bind_eq_ok.mp h
    split_ifs at h
    · cases h
    · cases h
      rfl
  unfold nextStep at h
  cases hs : r.step with
  | function =>
    rw [hs] at h
    obtain ⟨function, -, h⟩ := bind_eq_ok.mp h
    simp only at h
    split_ifs at h
    · cases h
      rfl
    · exact hmeta h
  | metaInfo =>
    rw [hs] at h
    exact hmeta h
  | data =>
    rw [hs] at h
    cases h
    rfl

/-- The timeout of the next turn. -/
theorem afterRecv_tv {ctx : Modbus} {mt : MsgType} {first tv : Timeval} {r r' : RecvState}
    {bytes : List UInt8} (h : afterRecv ctx mt r bytes = .ok (.ok r')) (htv : r.tv = some tv)
    (hfirst : tv.micros ≤ ctx.gap first ∨ tv = first) :
    ∃ tv', r'.tv = some tv' ∧ (r'.lengthToRead ≠ 0 → tv'.micros ≤ ctx.gap first) := by
  unfold afterRecv at h
  simp only at h
  split_ifs at h with h0
  · obtain ⟨res, hres, h⟩ := bind_eq_ok.mp h
    cases res with
    | error e => cases h
    | ok r₁ =>
      cases h
      exact rearm_tv ((nextStep_tv hres).trans htv) hfirst
  · cases h
    refine rearm_tv ?_ hfirst
    exact htv

section

variable {os : Os σ} {clock : σ → Nat} (hc : Clocked os clock) (hp : Prompt os)

include hc hp

/-- Every turn brings a byte, so there are no more gaps than bytes that a message may still have. -/
theorem receiveLoop_waits {mt : MsgType} {first : Timeval} (fuel : Nat) {st : St σ}
    (hlink : st.ctx.errorRecovery.link = false) {r : RecvState} {tv : Timeval}
    (hparse : Parsing st.ctx.backend mt r) (htv : r.tv = some tv)
    (hfirst : r.lengthToRead ≠ 0 → tv.micros ≤ st.ctx.gap first ∨ tv = first) :
    Ends (receiveLoop os mt fuel st r) (fun x => st.Waits clock
      ((if r.lengthToRead = 0 then 0 else tv.micros) +
        (st.ctx.backend.maxAduLength - r.msg.length - 1) * st.ctx.gap first) x.2.2)
      fun _ => True := by
  induction fuel generalizing st r tv with
  | zero => exact trivial
  | succ fuel ih =>
    rw [receiveLoop]
    refine Ends.ite (fun h0 => ?_) fun h0 => ?_
    · exact (checkIntegrity_waits hc st r.msg).bind fun _ _ h => h.mono (Nat.zero_le _)
    rw [if_neg h0, htv]
    refine (backendSelect_waits hc hp os.fuel st tv).bind fun selected _ h₁ => ?_
    obtain ⟨ready, st₁⟩ := selected
    obtain ⟨hctx, h₁⟩ : st₁.ctx = st.ctx ∧ st.Waits clock tv.micros st₁ := h₁
    rw [← hctx] at hlink
    have hend : ∀ {st₂ : St σ}, st₁.Waits clock 0 st₂ → st.Waits clock (tv.micros +
        (st.ctx.backend.maxAduLength - r.msg.length - 1) * st.ctx.gap first) st₂ :=
      fun h₂ => (h₁.trans h₂).mono (Nat.add_le_add_left (Nat.zero_le _) _)
    refine Ends.ite (fun _ => ?_) fun _ => ?_
    · rw [recoverSelect_off os hlink, ok_bind]
      exact hend (St.Waits.refl st₁)
    rcases hr : os.recv r.lengthToRead st₁.os with ⟨e | bytes, s⟩
    · simp only
      rw [recoverRecv_off]
      · exact hend (hc.recv hr)
      · exact hlink
    · have hs : ∀ e, st₁.Waits clock 0 { st₁ with errno := e, os := s } := fun e => hc.recv hr
      refine Ends.ite (fun _ => ?_) fun hne => ?_
      · rw [recoverRecv_off]
        · exact hend (hs _)
        · exact hlink
      rw [hctx]
      rcases afterRecv_spec hparse (os.recv_length hr) with ⟨r', hr', hmsg, hparse'⟩ | ⟨n, -, -, hr'⟩
      · simp only [hr', ok_bind]
        obtain ⟨tv', htv', hle⟩ := afterRecv_tv hr' htv (hfirst h0)
        rw [hctx] at hlink
        set st₂ : St σ := ⟨st.ctx, st₁.errno, s⟩ with hst₂
        have h₂ : st.Waits clock (tv.micros + 0) st₂ := h₁.trans (hs st₁.errno)
        have hlen : r'.msg.length + r'.lengthToRead ≤ st.ctx.backend.maxAduLength :=
          hparse'.boundary.le_max
        have hmore : r.msg.length < r'.msg.length := by
          rw [hmsg, List.length_append]
          exact Nat.lt_add_of_pos_right (List.length_pos_of_ne_nil hne)
        have hrest := ih (show st₂.ctx.errorRecovery.link = false from hlink) hparse' htv'
          fun hne => Or.inl (hle hne)
        refine hrest.imp (fun x h => (h₂.trans h).mono ?_) fun _ h => h
        rw [Nat.add_zero]
        refine Nat.add_le_add_left ?_ _
        show (if r'.lengthToRead = 0 then 0 else tv'.micros) +
          (st.ctx.backend.maxAduLength - r'.msg.length - 1) * st.ctx.gap first ≤ _
        by_cases hdone : r'.lengthToRead = 0
        · rw [if_pos hdone, Nat.zero_add]
          exact Nat.mul_le_mul_right _ (by omega)
        · -- the wait of the next turn is one gap, and a byte is missing that it is for
          rw [if_neg hdone]
          calc tv'.micros + (st.ctx.backend.maxAduLength - r'.msg.length - 1) * st.ctx.gap first
              ≤ st.ctx.gap first +
                  (st.ctx.backend.maxAduLength - r'.msg.length - 1) * st.ctx.gap first :=
                Nat.add_le_add_right (hle hdone) _
            _ = (st.ctx.backend.maxAduLength - r'.msg.length - 1 + 1) * st.ctx.gap first := by
                rw [Nat.succ_mul, Nat.add_comm]
            _ ≤ (st.ctx.backend.maxAduLength - r.msg.length - 1) * st.ctx.gap first :=
                Nat.mul_le_mul_right _ (by omega)
      · simp only [hr', ok_bind]
        exact hend (hs .EMBBADDATA)

/-- **A message**, begun under a timeout, is not waited for longer than its budget. -/
theorem modbusReceiveMsg_waits {mt : MsgType} {first : Timeval} {st : St σ}
    (hlink : st.ctx.errorRecovery.link = false) (hfirst : firstTimeout st.ctx mt = some first) :
    Ends (modbusReceiveMsg os st mt)
      (fun x => st.Waits clock (st.ctx.messageBudget first) x.2.2) fun _ => True := by
  have hnone : ∀ {st' : St σ}, st.Waits clock 0 st' →
      st.Waits clock (st.ctx.messageBudget first) st' := fun h => h.mono (Nat.zero_le _)
  refine Ends.ite (fun _ => hnone (.refl st)) fun _ => Ends.ite (fun _ => hnone (.refl st)) fun _ => ?_
  exact receiveLoop_waits hc hp _ hlink (Parsing.start st.ctx mt) hfirst fun _ => Or.inr rfl

end

/-! ### Calls -/

section

variable {os : Os σ} {clock : σ → Nat} (hc : Clocked os clock)

include hc

theorem refuseConfirmation_waits (st : St σ) :
    Ends (refuseConfirmation os st) (fun r => st.Waits clock
      (if st.ctx.errorRecovery.protocol then st.ctx.responseTimeout.micros else 0) r.2)
      fun _ => True := by
  unfold refuseConfirmation
  split_ifs
  · exact (sleepAndFlush_waits hc st).bind fun _ _ h => h
  · exact St.Waits.refl st

theorem checkConfirmation_waits (st : St σ) (req rsp : List UInt8) (rspLength : Int) :
    Ends (checkConfirmation os st req rsp rspLength) (fun r => st.Waits clock
      (if st.ctx.errorRecovery.protocol then st.ctx.responseTimeout.micros else 0) r.2)
      fun _ => True := by
  have hself : ∀ e, st.Waits clock
      (if st.ctx.errorRecovery.protocol then st.ctx.responseTimeout.micros else 0)
      { st with errno := e } := fun e => (St.Waits.refl st).mono (Nat.zero_le _)
  refine Ends.seq fun function _ => Ends.seq fun pre _ => ?_
  rcases pre with - | e
  · refine Ends.seq fun rspLengthComputed _ => Ends.seq fun reqFunction _ => ?_
    refine Ends.ite (fun _ => Ends.ite (fun _ => Ends.seq fun code _ => ?_) fun _ => ?_) fun _ => ?_
    · exact Ends.ite (fun _ => hself _) fun _ => hself _
    · exact hself _
    refine Ends.ite (fun _ => Ends.ite (fun _ => ?_) fun _ => ?_) fun _ => ?_
    · exact refuseConfirmation_waits hc st
    · refine Ends.seq fun ⟨n, n', ok⟩ _ => Ends.ite (fun _ => hself st.errno) fun _ => ?_
      exact refuseConfirmation_waits hc st
    · exact refuseConfirmation_waits hc st
  · simp only
    split_ifs
    · exact (sleepAndFlush_waits hc { st with errno := e }).bind fun _ _ h => h
    · exact St.Waits.refl st

/-- **An exchange** waits for one message and sleeps at most once. -/
theorem exchange_waits (hp : Prompt os) {st : St σ} (hlink : st.ctx.errorRecovery.link = false)
    (req : List UInt8) :
    Ends (exchange os st req) (fun x => st.Waits clock st.ctx.callBudget x.2.2) fun _ => True := by
  have hnone : ∀ {st' : St σ}, st.Waits clock 0 st' → st.Waits clock st.ctx.callBudget st' :=
    fun h => h.mono (Nat.zero_le _)
  refine (sendMsg_waits hc st req hlink).bind fun sent hsend h₁ => ?_
  obtain ⟨rc, st₁⟩ := sent
  refine Ends.ite (fun _ => ?_) fun _ => hnone h₁
  obtain ⟨fd, hctx⟩ := ((sendMsg_moved (obeys_any os) st trivial).result hsend).ctx
  have hlink₁ : st₁.ctx.errorRecovery.link = false := by rw [hctx]; exact hlink
  refine (modbusReceiveMsg_waits hc hp hlink₁ rfl).bind fun received hrcv h₂ => ?_
  obtain ⟨rc₁, rsp, st₂⟩ := received
  have hmessage : st.Waits clock (0 + st₁.ctx.messageBudget st₁.ctx.responseTimeout) st₂ :=
    St.Waits.trans h₁ h₂
  have hbudget : st₁.ctx.messageBudget st₁.ctx.responseTimeout =
      st.ctx.messageBudget st.ctx.responseTimeout := by rw [hctx]; rfl
  rw [hbudget, Nat.zero_add] at hmessage
  refine Ends.ite (fun _ => hmessage.mono (Nat.le_add_right _ _)) fun _ => ?_
  obtain ⟨fd₂, hctx₂⟩ := ((modbusReceiveMsg_moved (obeys_any os) st₁ .confirmation).result hrcv).ctx
  refine (checkConfirmation_waits hc st₂ _ rsp rc₁).bind fun checked _ h₃ => ?_
  have hrecover : (if st₂.ctx.errorRecovery.protocol then st₂.ctx.responseTimeout.micros else 0) =
      if st.ctx.errorRecovery.protocol then st.ctx.responseTimeout.micros else 0 := by
    rw [hctx₂, hctx]
  rw [hrecover] at h₃
  exact hmessage.trans h₃

end

namespace Call

/-- What a call does after its exchange does not touch the system. -/
theorem finish_leaves {c : Call} {x : Int × List UInt8 × St σ} :
    Ends (c.finish x) (fun r => r.2 = x.2.2) fun _ => True := by
  unfold finish
  refine Ends.ite (fun _ => rfl) fun _ => ?_
  cases c with
  | readBits _ _ _ | readInputBits _ _ _ | readRegisters _ _ _ | readInputRegisters _ _ _
  | writeAndReadRegisters _ _ _ _ _ _ => exact Ends.seq fun _ _ => rfl
  | writeBit _ _ | writeRegister _ _ | writeBits _ _ _ | writeRegisters _ _ _
  | maskWriteRegister _ _ _ => exact rfl

/-- A valid call ends, whatever the peer does. -/
theorem run_ends (os : Os σ) {st : St σ} {c : Call} (hc : c.Valid)
    (hslave : st.ctx.backend = .rtu → st.ctx.slave ≠ -1) :
    Ends (c.run os st) (fun _ => True) (GivenUp os st.ctx) := by
  have hplain : ∀ {finish : Int × List UInt8 × St σ → Run (Returned × St σ)},
      (∀ x, ∃ r, finish x = .ok r) →
      Ends (exchange os { st with ctx := st.ctx.next }
        ((requestAdu st.ctx c.request.pdu).header st.ctx.backend ++ c.request.pdu) >>= finish)
        (fun _ => True) (GivenUp os st.ctx) := by
    intro finish hfinish
    refine Ends.exchange os st (Request.framed hc.request) (fun _ => Or.inl) fun rc rsp st' _ _ => ?_
    obtain ⟨r, hr⟩ := hfinish (rc, rsp, st')
    rw [hr]
    exact trivial
  cases c with
  | readBits addr nb dest =>
    exact (readBits_confined os st (Or.inl rfl) addr (by exact_mod_cast hc.2.2)).bind
      fun _ _ _ => trivial
  | readInputBits addr nb dest =>
    exact (readBits_confined os st (Or.inr rfl) addr (by exact_mod_cast hc.2.2)).bind
      fun _ _ _ => trivial
  | readRegisters addr nb dest =>
    exact (readAnyRegisters_confined os st (Or.inl rfl) addr (by exact_mod_cast hc.2.2)).bind
      fun _ _ _ => trivial
  | readInputRegisters addr nb dest =>
    exact (readAnyRegisters_confined os st (Or.inr rfl) addr (by exact_mod_cast hc.2.2)).bind
      fun _ _ _ => trivial
  | writeAndReadRegisters writeAddr writeNb src readAddr readNb dest =>
    exact (writeAndRead_confined os st writeAddr readAddr (by exact_mod_cast hc.1.2.2)
      (by exact_mod_cast hc.2.2.2)).bind fun _ _ _ => trivial
  | writeBit _ _ | writeRegister _ _ | writeBits _ _ _ | writeRegisters _ _ _
  | maskWriteRegister _ _ _ =>
    rw [run_eq hc hslave]
    refine hplain fun x => ?_
    unfold finish
    split_ifs <;> exact ⟨_, rfl⟩

end Call

/-! ### Sessions -/

/-- The contexts differ in nothing that a wait depends on. -/
structure SameTimes (ctx ctx' : Modbus) : Prop where
  backend : ctx'.backend = ctx.backend
  errorRecovery : ctx'.errorRecovery = ctx.errorRecovery
  responseTimeout : ctx'.responseTimeout = ctx.responseTimeout
  byteTimeout : ctx'.byteTimeout = ctx.byteTimeout
  indicationTimeout : ctx'.indicationTimeout = ctx.indicationTimeout

theorem SameTimes.trans {ctx ctx' ctx'' : Modbus} (h : SameTimes ctx ctx')
    (h' : SameTimes ctx' ctx'') : SameTimes ctx ctx'' :=
  ⟨h'.backend.trans h.backend, h'.errorRecovery.trans h.errorRecovery,
    h'.responseTimeout.trans h.responseTimeout, h'.byteTimeout.trans h.byteTimeout,
    h'.indicationTimeout.trans h.indicationTimeout⟩

theorem SameTimes.messageBudget {ctx ctx' : Modbus} (h : SameTimes ctx ctx') (first : Timeval) :
    ctx'.messageBudget first = ctx.messageBudget first := by
  unfold Modbus.messageBudget Modbus.gap
  rw [h.backend, h.byteTimeout]

theorem SameTimes.callBudget {ctx ctx' : Modbus} (h : SameTimes ctx ctx') :
    ctx'.callBudget = ctx.callBudget := by
  unfold Modbus.callBudget
  rw [h.responseTimeout, h.messageBudget, h.errorRecovery]

theorem SameTimes.refl (ctx : Modbus) : SameTimes ctx ctx := ⟨rfl, rfl, rfl, rfl, rfl⟩

theorem sameTimes_next (ctx : Modbus) : SameTimes ctx ctx.next := ⟨rfl, rfl, rfl, rfl, rfl⟩

theorem St.Moved.sameTimes {R : σ → σ → Prop} {st st' : St σ} (h : st.Moved R st') :
    SameTimes st.ctx st'.ctx := by
  obtain ⟨s, hs⟩ := h.ctx
  rw [hs]
  exact ⟨rfl, rfl, rfl, rfl, rfl⟩

section

variable {os : Os σ} {clock : σ → Nat} (hc : Clocked os clock) (hp : Prompt os)

include hc hp

/-- One call, of any slave number. -/
theorem runUnder_waits {st : St σ} (hlink : st.ctx.errorRecovery.link = false) {input : Int × Call}
    (hvalid : input.2.Valid) :
    ∃ o st', Call.runUnder os input st = .ok (o, st') ∧ SameTimes st.ctx st'.ctx ∧
      st.Waits clock st.ctx.callBudget st' := by
  unfold Call.runUnder
  rw [modbusSetSlave_eq]
  split_ifs with htakes
  · have hbyte := htakes.byte
    set st₁ : St σ := { st with ctx := { st.ctx with slave := input.1 } } with hst₁
    have hslave : st₁.ctx.backend = .rtu → st₁.ctx.slave ≠ -1 :=
      fun _ => show input.1 ≠ -1 by omega
    have hsame₁ : SameTimes st.ctx st₁.ctx.next :=
      SameTimes.trans (⟨rfl, rfl, rfl, rfl, rfl⟩ : SameTimes st.ctx st₁.ctx) (sameTimes_next _)
    have hwaits : Ends (input.2.run os st₁)
        (fun r => SameTimes st.ctx r.2.ctx ∧ st.Waits clock st.ctx.callBudget r.2)
        fun _ => True := by
      rw [Call.run_eq hvalid hslave]
      have hlink₂ : ({ st₁ with ctx := st₁.ctx.next } : St σ).ctx.errorRecovery.link = false := by
        rw [hsame₁.errorRecovery]
        exact hlink
      refine (exchange_waits hc hp hlink₂ _).bind fun x hx h => ?_
      have hmoved := (exchange_moved (obeys_any os) { st₁ with ctx := st₁.ctx.next } trivial).result hx
      refine Call.finish_leaves.imp (fun r hr => ?_) fun _ h => h
      rw [hr]
      refine ⟨hsame₁.trans hmoved.sameTimes, ?_⟩
      rw [← hsame₁.callBudget]
      exact h
    -- a call is given up only where a link is recovered or a signal comes
    cases hrun : input.2.run os st₁ with
    | error e =>
      rcases (Call.run_ends os hvalid hslave).stop hrun with ⟨-, hretry⟩ | ⟨-, hbe, hs⟩
      · have hon := hretry hp
        rw [show st₁.ctx.errorRecovery.link = false from hlink] at hon
        cases hon
      · exact absurd hs (hslave hbe)
    | ok r => exact ⟨r.1, r.2, hrun, hwaits.result hrun⟩
  · exact ⟨_, _, rfl, .refl _, (St.Waits.refl st).mono (Nat.zero_le _)⟩

/-- **No peer can hold up a client.**  Whatever is at the other end of the line and however it cuts
its bytes, a session of `n` calls ends, and waits for no longer than `n` times the budget of a
call. -/
theorem session_in_time {st : St σ} (hlink : st.ctx.errorRecovery.link = false)
    {inputs : List (Int × Call)} (hvalid : ∀ i ∈ inputs, i.2.Valid) :
    ∃ outs st', runs (Call.runUnder os) inputs st = .ok (outs, st') ∧
      clock st'.os ≤ clock st.os + inputs.length * st.ctx.callBudget := by
  have hstep : ∀ {i : Int × Call} {st' : St σ}, i.2.Valid → SameTimes st.ctx st'.ctx →
      ∃ o st'', Call.runUnder os i st' = .ok (o, st'') ∧ SameTimes st.ctx st''.ctx ∧
        clock st''.os ≤ clock st'.os + st.ctx.callBudget := by
    intro i st' hi hsame
    have hlink' : st'.ctx.errorRecovery.link = false := by
      rw [hsame.errorRecovery]
      exact hlink
    obtain ⟨o, st'', hrun, hsame', hwaits⟩ := runUnder_waits hc hp hlink' hi
    rw [hsame.callBudget] at hwaits
    exact ⟨o, st'', hrun, hsame.trans hsame', hwaits⟩
  obtain ⟨outs, st', hruns, -, hcost⟩ := runs_cost (fun st' : St σ => clock st'.os) hstep inputs
    hvalid (SameTimes.refl st.ctx)
  exact ⟨outs, st', hruns, hcost⟩

end

/-- A system that lets every byte wait for most of the timeout. -/
def slowOs : Os (Timed Link) := timedOs (linkOs 1) fun _ => 400000

/-- A client, a server or a gateway's front on the slow line. -/
def slowSt (ctx : Modbus) (input : List UInt8) : St (Timed Link) :=
  ⟨ctx, .sys (.other 0), ⟨⟨input, [], fun _ => 1⟩, 0⟩⟩

theorem slowOs_prompt : Prompt slowOs := (linkOs_prompt Nat.one_pos).timed _

/-- A response arrives byte after byte, and the next call gets none. -/
theorem session_in_time_sample :
    ∃ outs st', runs (Call.runUnder slowOs)
        [(1, .readRegisters 0 1 [5]), (300, .writeBit 0 1), (1, .readRegisters 0 1 [5])]
        (slowSt { modbusNew .tcp with s := 3 } [0, 1, 0, 0, 0, 5, 1, 3, 2, 0, 7]) = .ok (outs, st') ∧
      st'.os.elapsed ≤ 3 * 130000000 := by
  have hvalid : ∀ i ∈ [((1 : Int), Call.readRegisters 0 1 [5]), (300, .writeBit 0 1),
      (1, .readRegisters 0 1 [5])], i.2.Valid := by
    simp [Call.Valid]
  exact session_in_time (timedOs_clocked _ _) slowOs_prompt rfl hvalid

/-! ### Servers -/

theorem Mapping.Regular.kept {m : Mapping} (h : m.Regular) : Kept m m :=
  ⟨⟨⟨rfl, rfl⟩, ⟨rfl, rfl⟩, ⟨rfl, rfl⟩, ⟨rfl, rfl⟩⟩, h.bits, rfl, rfl⟩

theorem Kept.regular {m₀ m : Mapping} (h : Kept m₀ m) (hm : m₀.Regular) : m.Regular := by
  have hstart : ∀ {α : Type} {t t' : Table α}, t'.start = t.start → t.Addressable →
      t'.Addressable := by
    intro α t t' hstart ht
    unfold Table.Addressable at ht ⊢
    rw [hstart]
    exact ht
  refine ⟨⟨hstart h.tables.bits.1 hm.addressable.bits,
    hstart h.tables.inputBits.1 hm.addressable.inputBits,
    hstart h.tables.inputRegisters.1 hm.addressable.inputRegisters,
    hstart h.tables.registers.1 hm.addressable.registers⟩, h.bits, ?_⟩
  rw [h.inputBits]
  exact hm.inputBits

theorem Kept.startsSafe {m₀ m : Mapping} (h : Kept m₀ m) (hm : StartsSafe m₀) : StartsSafe m := by
  have hsafe : ∀ {α : Type} {t t' : Table α} {nbMax : Nat}, t'.start = t.start →
      t.StartSafe nbMax → t'.StartSafe nbMax := by
    intro α t t' nbMax hstart ht
    unfold Table.StartSafe at ht ⊢
    rw [hstart]
    exact ht
  exact ⟨hsafe h.tables.bits.1 hm.bits, hsafe h.tables.inputBits.1 hm.inputBits,
    hsafe h.tables.registers.1 hm.registers, hsafe h.tables.inputRegisters.1 hm.inputRegisters⟩

section Returning

variable {os : Os σ} {st : St σ}

/-- Without interrupts `_modbus_receive_msg` always returns.  A message that it reports is as long
as it says, and holds a function code. -/
theorem modbusReceiveMsg_returns (hp : Prompt os) (st : St σ) (mt : MsgType) :
    ∃ rc msg st', modbusReceiveMsg os st mt = .ok (rc, msg, st') ∧
      (∃ s, st'.ctx = { st.ctx with s := s }) ∧
      (0 < rc → rc = msg.length ∧ st.ctx.backend.headerLength + 1 ≤ msg.length) := by
  have hends := modbusReceiveMsg_retries os st mt
  have hmoved := modbusReceiveMsg_moved (obeys_any os) st mt
  cases hrcv : modbusReceiveMsg os st mt with
  | error e =>
    rw [hrcv] at hends
    exact absurd hp hends.2
  | ok r =>
    rw [hrcv] at hmoved
    refine ⟨r.1, r.2.1, r.2.2, rfl, hmoved.ctx, fun hpos => ?_⟩
    obtain ⟨a, e, s', hmsg, hframed, hrc, -, -⟩ := modbusReceiveMsg_is_adu (tracked_any os)
      (show r.1 ≠ -1 by omega) hrcv
    rw [hmsg, hrc]
    rw [hrc] at hpos
    unfold Adu.verdict at hpos ⊢
    split_ifs at hpos ⊢ with haddressed
    · refine ⟨rfl, ?_⟩
      have hpdu : 0 < a.pdu.length := List.length_pos_of_ne_nil hframed.ne_nil
      rw [a.length_bytes]
      omega
    · exact absurd hpos (lt_irrefl _)

/-- And from `modbus_reply`, which keeps the shape of the mapping. -/
theorem modbusReply_returns (hp : Prompt os) (ver : VersionString)
    (hlink : st.ctx.errorRecovery.link = false) {m₀ m : Mapping} (hm : StartsSafe m)
    (hkept : Kept m₀ m) {req : List UInt8} (hlen : st.ctx.backend.headerLength + 1 ≤ req.length) :
    ∃ rc m' st', modbusReply os ver st req req.length m = .ok (rc, m', st') ∧
      (∃ s, st'.ctx = { st.ctx with s := s }) ∧ Kept m₀ m' := by
  have hslave := rd_lt (show st.ctx.backend.headerLength - 1 < req.length by omega)
  have hends : Ends (modbusReply os ver st req req.length m) _ _ :=
    modbusReply_leaves os ver hslave (Int.ofNat_le.mpr hlen)
  have hmoved : Ends (modbusReply os ver st req req.length m) _ _ :=
    modbusReply_moved (obeys_any os) fun _ _ => trivial
  have hbuild : Ends (buildReply ver st.ctx.backend req req.length m) (fun _ => True)
      fun _ => False := ends_buildReply hm (Or.inl hlen) (Or.inl (by simp))
  cases hreply : modbusReply os ver st req req.length m with
  | error e =>
    rw [hreply] at hends
    rcases hends with hretry | herr
    · rw [hretry.2 hp] at hlink
      cases hlink
    · rw [herr] at hbuild
      exact hbuild.elim
  | ok r =>
    rw [hreply] at hmoved
    have hstep : (⟨st, req, req.length⟩ : ReplyCall σ).step os ver m = .ok (r.1, r.2.1) := by
      rw [ReplyCall.step, hreply]
      rfl
    exact ⟨r.1, r.2.1, r.2.2, rfl, hmoved.ctx, ReplyCall.step_kept hkept hstep⟩

end Returning

/-- The body of the loop of a server: `modbus_receive` and, for a request, `modbus_reply`. -/
def serverTurn (os : Os σ) (ver : VersionString) (_ : Unit) (s : St σ × Mapping) :
    Run (Int × St σ × Mapping) := do
  let (rc, req, st) ← modbusReceive os s.1
  if 0 < rc then
    let (_, m, st) ← modbusReply os ver st req rc s.2
    .ok (rc, st, m)
  else .ok (rc, st, s.2)

/-- The longest wait of a turn of a server that does not wait for ever.  An RTU server also reads
the confirmations of the other stations, and bad requests are slept on before they are refused. -/
def Modbus.turnBudget (ctx : Modbus) : Nat :=
  max (ctx.messageBudget ctx.indicationTimeout) (ctx.messageBudget ctx.responseTimeout) +
    ctx.responseTimeout.micros

theorem SameTimes.turnBudget {ctx ctx' : Modbus} (h : SameTimes ctx ctx') :
    ctx'.turnBudget = ctx.turnBudget := by
  unfold Modbus.turnBudget
  rw [h.indicationTimeout, h.responseTimeout, h.messageBudget, h.messageBudget]

section

variable {os : Os σ} {clock : σ → Nat} (hc : Clocked os clock)

include hc

/-- A reply sleeps at most once. -/
theorem modbusReply_waits {ver : VersionString} {st : St σ} (req : List UInt8) (reqLength : Int)
    (m : Mapping) (hlink : st.ctx.errorRecovery.link = false) :
    Ends (modbusReply os ver st req reqLength m)
      (fun r => st.Waits clock st.ctx.responseTimeout.micros r.2.2) fun _ => True := by
  have hnone : ∀ {st' : St σ}, st.Waits clock 0 st' →
      st.Waits clock st.ctx.responseTimeout.micros st' := fun h => h.mono (Nat.zero_le _)
  rw [modbusReply_eq]
  refine Ends.ite (fun _ => hnone (.refl st)) fun _ => ?_
  refine Ends.seq fun slave _ => Ends.seq fun reply _ => ?_
  have hsend : ∀ {n : Nat} {st' : St σ}, st'.ctx.errorRecovery.link = false → st.Waits clock n st' →
      Ends (sendReply os slave reply st') (fun r => st.Waits clock n r.2.2) fun _ => True := by
    intro n st' hlink' h
    refine Ends.ite (fun _ => h) fun _ => ?_
    refine (sendMsg_waits hc st' _ hlink').bind fun r _ h' => ?_
    have hboth := h.trans h'
    rw [Nat.add_zero] at hboth
    exact hboth
  refine Ends.ite (fun _ => ?_) fun _ => ?_
  · refine (sleepAndFlush_waits hc st).bind fun st' hflush h => hsend ?_ h
    rw [sleepAndFlush_ctx hflush]
    exact hlink
  · exact (hsend hlink (.refl st)).imp (fun _ h => hnone h) fun _ h => h

/-- `modbus_receive`, of both backends. -/
theorem modbusReceive_waits (hp : Prompt os) {st : St σ} (hlink : st.ctx.errorRecovery.link = false)
    (hwait : ¬ (st.ctx.indicationTimeout.sec = 0 ∧ st.ctx.indicationTimeout.usec = 0)) :
    ∃ rc req st', modbusReceive os st = .ok (rc, req, st') ∧ SameTimes st.ctx st'.ctx ∧
      (0 < rc → rc = req.length ∧ st.ctx.backend.headerLength + 1 ≤ req.length) ∧
      st.Waits clock (max (st.ctx.messageBudget st.ctx.indicationTimeout)
        (st.ctx.messageBudget st.ctx.responseTimeout)) st' := by
  have hfirst : firstTimeout st.ctx .indication = some st.ctx.indicationTimeout := if_neg hwait
  -- a message of either kind
  have hmessage : ∀ (mt : MsgType) (first : Timeval), firstTimeout st.ctx mt = some first →
      ∃ rc req st', modbusReceiveMsg os st mt = .ok (rc, req, st') ∧ SameTimes st.ctx st'.ctx ∧
        (0 < rc → rc = req.length ∧ st.ctx.backend.headerLength + 1 ≤ req.length) ∧
        st.Waits clock (st.ctx.messageBudget first) st' := by
    intro mt first hfirst
    obtain ⟨rc, req, st', hrcv, -, hlen⟩ := modbusReceiveMsg_returns hp st mt
    exact ⟨rc, req, st', hrcv, ((modbusReceiveMsg_moved (obeys_any os) st mt).result hrcv).sameTimes,
      hlen, (modbusReceiveMsg_waits hc hp hlink hfirst).result hrcv⟩
  obtain ⟨rc, req, st', hrcv, hsame, hlen, hwaits⟩ := hmessage .indication _ hfirst
  have hmax := hwaits.mono (Nat.le_max_left _ (st.ctx.messageBudget st.ctx.responseTimeout))
  unfold modbusReceive
  cases hbe : st.ctx.backend with
  | tcp => exact ⟨rc, req, st', hrcv, hsame, by rw [← hbe]; exact hlen, hmax⟩
  | rtu =>
    rw [hbe] at hlen
    simp only
    split_ifs with hignore
    · obtain ⟨rc₁, req₁, st₁, hrcv₁, hsame₁, -, hwaits₁⟩ := hmessage .confirmation _ rfl
      rw [hrcv₁, ok_bind]
      refine ⟨0, req₁, _, rfl, hsame₁.trans ⟨rfl, rfl, rfl, rfl, rfl⟩,
        fun h => absurd h (lt_irrefl _), ?_⟩
      exact hwaits₁.mono (Nat.le_max_right _ _)
    · rw [hrcv, ok_bind]
      simp only
      split_ifs with hrc
      · exact ⟨rc, req, _, rfl, hsame.trans ⟨rfl, rfl, rfl, rfl, rfl⟩, hlen, hmax⟩
      · exact ⟨rc, req, _, rfl, hsame, hlen, hmax⟩

/-- **One turn of a server.** -/
theorem serverTurn_waits (hp : Prompt os) (ver : VersionString) {st : St σ}
    (hlink : st.ctx.errorRecovery.link = false)
    (hwait : ¬ (st.ctx.indicationTimeout.sec = 0 ∧ st.ctx.indicationTimeout.usec = 0))
    {m₀ m : Mapping} (hm : StartsSafe m₀) (hkept : Kept m₀ m) :
    ∃ rc st' m', serverTurn os ver () (st, m) = .ok (rc, st', m') ∧ SameTimes st.ctx st'.ctx ∧
      Kept m₀ m' ∧ st.Waits clock st.ctx.turnBudget st' := by
  obtain ⟨rc, req, st₁, hrcv, hsame, hlen, hwaits⟩ := modbusReceive_waits hc hp hlink hwait
  simp only [serverTurn, hrcv, ok_bind]
  split_ifs with hpos
  · obtain ⟨rfl, hle⟩ := hlen hpos
    have hlink₁ : st₁.ctx.errorRecovery.link = false := by
      rw [hsame.errorRecovery]
      exact hlink
    obtain ⟨rc', m', st₂, hreply, ⟨s, hs⟩, hkept'⟩ := modbusReply_returns hp ver hlink₁
      (hkept.startsSafe hm) hkept (by rw [hsame.backend]; exact hle)
    have hwaits₂ := (modbusReply_waits hc req _ m hlink₁).result hreply
    rw [hsame.responseTimeout] at hwaits₂
    have hsame₂ : SameTimes st₁.ctx st₂.ctx := by
      rw [hs]
      exact ⟨rfl, rfl, rfl, rfl, rfl⟩
    rw [hreply, ok_bind]
    exact ⟨_, st₂, m', rfl, hsame.trans hsame₂, hkept', hwaits.trans hwaits₂⟩
  · exact ⟨rc, st₁, m, rfl, hsame, hkept, hwaits.mono (Nat.le_add_right _ _)⟩

/-- **No client can hold up a server** that has an indication timeout, on either backend: `n` turns
of its loop end, and wait for no longer than `n` times the budget of a turn.  Nothing but `select`
and the sleep waits, no signal comes, and links are not recovered: with recovery `send_msg` goes on
for ever once the client has gone. -/
theorem server_in_time (hp : Prompt os) (ver : VersionString) {st : St σ} {m : Mapping}
    (hlink : st.ctx.errorRecovery.link = false)
    (hwait : ¬ (st.ctx.indicationTimeout.sec = 0 ∧ st.ctx.indicationTimeout.usec = 0))
    (hm : m.Regular) (n : Nat) :
    ∃ rcs st' m', runs (serverTurn os ver) (List.replicate n ()) (st, m) = .ok (rcs, st', m') ∧
      Kept m m' ∧ clock st'.os ≤ clock st.os + n * st.ctx.turnBudget := by
  have hstep : ∀ {i : Unit} {s : St σ × Mapping}, True → SameTimes st.ctx s.1.ctx ∧ Kept m s.2 →
      ∃ rc s', serverTurn os ver i s = .ok (rc, s') ∧ (SameTimes st.ctx s'.1.ctx ∧ Kept m s'.2) ∧
        clock s'.1.os ≤ clock s.1.os + st.ctx.turnBudget := by
    rintro ⟨⟩ ⟨st₁, m₁⟩ - ⟨hsame, hkept⟩
    have hlink₁ : st₁.ctx.errorRecovery.link = false := by
      rw [hsame.errorRecovery]
      exact hlink
    have hwait₁ : ¬ (st₁.ctx.indicationTimeout.sec = 0 ∧ st₁.ctx.indicationTimeout.usec = 0) := by
      rw [hsame.indicationTimeout]
      exact hwait
    obtain ⟨rc, st', m', hturn, hsame', hkept', hwaits⟩ :=
      serverTurn_waits hc hp ver hlink₁ hwait₁ hm.addressable.startsSafe hkept
    rw [hsame.turnBudget] at hwaits
    exact ⟨rc, (st', m'), hturn, ⟨hsame.trans hsame', hkept'⟩, hwaits⟩
  obtain ⟨rcs, s', hruns, ⟨-, hkept'⟩, hcost⟩ := runs_cost (fun s : St σ × Mapping => clock s.1.os)
    hstep (List.replicate n ()) (fun _ _ => trivial)
    (show SameTimes st.ctx (st, m).1.ctx ∧ Kept m (st, m).2 from ⟨.refl _, hm.kept⟩)
  rw [List.length_replicate] at hcost
  exact ⟨rcs, s'.1, s'.2, hruns, hkept', hcost⟩

end

/-- A server with an indication timeout of a second, and a client that sends a part of a request. -/
theorem server_in_time_sample :
    ∃ rcs st' m', runs (serverTurn slowOs ⟨[], by decide⟩) (List.replicate 4 ())
        (slowSt { modbusNew .rtu with slave := 17, s := 3, indicationTimeout := ⟨1, 0⟩ }
          [17, 3, 0], sampleMapping) = .ok (rcs, st', m') ∧
      Kept sampleMapping m' ∧ st'.os.elapsed ≤ 0 + 4 * 129000000 :=
  server_in_time (timedOs_clocked _ _) slowOs_prompt _ rfl (by decide) regular_sampleMapping 4

end Libmodbus
