/-
Libmodbus/Recovery.lean

Does the error that is reported depend on the recovery mode?  The same call is
run in two modes, on the same system, and what it reports is compared:

    received r   rc, message and errno of _modbus_receive_msg
    reported r   rc and errno of check_confirmation

Receiving reports the same in every mode (`modbusReceiveMsg_recovering`): up to
the failure the two runs make the same calls, and after it `errno` is restored.
So does `check_confirmation`, which sets `errno` after the recovery actions, but
for one exit: when the pre-check of the backend refuses, `errno` is set first,
and what sleeping and flushing leave in it is reported instead
(`error_same_in_every_mode_iff`).
-/
import Libmodbus.Client
import Libmodbus.Frames
import Libmodbus.Stops

namespace Libmodbus

open CSem Wire Posix

variable {σ : Type} {os : Os σ} {be : Backend}

/-! ### Modes -/

/-- The same state in another recovery mode. -/
def St.recovering (st : St σ) (mode : ErrorRecovery) : St σ :=
  { st with ctx := { st.ctx with errorRecovery := mode } }

@[simp] theorem recovering_backend (st : St σ) (mode : ErrorRecovery) :
    (st.recovering mode).ctx.backend = st.ctx.backend := rfl

@[simp] theorem recovering_slave (st : St σ) (mode : ErrorRecovery) :
    (st.recovering mode).ctx.slave = st.ctx.slave := rfl

@[simp] theorem recovering_s (st : St σ) (mode : ErrorRecovery) :
    (st.recovering mode).ctx.s = st.ctx.s := rfl

@[simp] theorem recovering_os (st : St σ) (mode : ErrorRecovery) :
    (st.recovering mode).os = st.os := rfl

/-- What the caller of `_modbus_receive_msg` gets to see. -/
def received (r : Int × List UInt8 × St σ) : Int × List UInt8 × Errno := (r.1, r.2.1, r.2.2.errno)

/-- What the caller of `check_confirmation` gets to see. -/
def reported (r : Int × St σ) : Int × Errno := (r.1, r.2.errno)

/-! ### Recovery actions end -/

theorem recoverSelect_errno (os : Os σ) (st : St σ) :
    ∃ st', recoverSelect os st = .ok st' ∧ st'.errno = st.errno := by
  unfold recoverSelect
  simp only
  split_ifs
  · obtain ⟨e, s, h⟩ := sleepAndFlush_ok os st
    rw [h]
    exact ⟨_, rfl, rfl⟩
  · exact ⟨_, rfl, rfl⟩
  · exact ⟨st, rfl, rfl⟩
  · exact ⟨st, rfl, rfl⟩

theorem recoverRecv_errno (os : Os σ) (st : St σ) : (recoverRecv os st).errno = st.errno := by
  unfold recoverRecv
  simp only
  split_ifs
  · rfl
  · rfl

/-! ### Receiving -/

theorem checkIntegrity_recovering (mode : ErrorRecovery) (st : St σ) (msg : List UInt8) :
    (checkIntegrity os (st.recovering mode) msg).map reported =
      (checkIntegrity os st msg).map reported := by
  have hcrc : ∀ st' : St σ, Except.map reported (if st'.ctx.errorRecovery.protocol then
        modbusFlush os st' >>= fun r => .ok (-1, { r.2 with errno := .EMBBADCRC })
      else (.ok (-1, { st' with errno := .EMBBADCRC }) : Run (Int × St σ))) =
        .ok (-1, .EMBBADCRC) := by
    intro st'
    split_ifs
    · obtain ⟨rc, e, s, h⟩ := modbusFlush_ends os st'
      rw [h]
      rfl
    · rfl
  unfold checkIntegrity
  rw [recovering_backend]
  cases st.ctx.backend with
  | tcp => rfl
  | rtu =>
    refine map_bind_congr fun slave _ => map_bind_congr fun h _ => map_bind_congr fun l _ => ?_
    refine map_ite_congr (fun _ => ?_) fun _ => ?_
    · exact (hcrc (st.recovering mode)).trans (hcrc st).symm
    · exact map_ite_congr (fun _ => rfl) fun _ => rfl

theorem backendSelect_recovering (mode : ErrorRecovery) (fuel : Nat) (st : St σ)
    (tv : Option Timeval) :
    backendSelect os fuel (st.recovering mode) tv =
      (backendSelect os fuel st tv).map fun r => (r.1, r.2.recovering mode) := by
  induction fuel generalizing st with
  | zero => rfl
  | succ fuel ih =>
    rw [backendSelect, backendSelect, recovering_os]
    rcases os.select tv st.os with ⟨- | - | e, s⟩
    · rfl
    · rfl
    · simp only [recovering_s]
      exact ite_map_congr (fun _ => ite_map_congr (fun _ => rfl)
        fun _ => ih { st with errno := .sys e, os := s }) fun _ => rfl

/-- The two runs make the same calls until one of them is about to report. -/
theorem receiveLoop_recovering (mode : ErrorRecovery) (mt : MsgType) (fuel : Nat) (st : St σ)
    (r : RecvState) :
    (receiveLoop os mt fuel (st.recovering mode) r).map received =
      (receiveLoop os mt fuel st r).map received := by
  induction fuel generalizing st r with
  | zero => rfl
  | succ fuel ih =>
    rw [receiveLoop, receiveLoop]
    by_cases h0 : r.lengthToRead = 0
    · rw [if_pos h0, if_pos h0]
      have hmap : ∀ x : Run (Int × St σ), Except.map received (x >>= fun p =>
            .ok (p.1, r.msg, p.2)) = (x.map reported).map fun p => (p.1, r.msg, p.2) := by
        rintro (e | ⟨rc, st⟩)
        · rfl
        · rfl
      exact (hmap _).trans (checkIntegrity_recovering mode st r.msg ▸ (hmap _).symm)
    rw [if_neg h0, if_neg h0, backendSelect_recovering]
    cases backendSelect os os.fuel st r.tv with
    | error e => rfl
    | ok p =>
      obtain ⟨ready, st₁⟩ := p
      cases ready with
      | false =>
        -- the flush keeps `errno`
        obtain ⟨st₂, hst₂, he₂⟩ := recoverSelect_errno os st₁
        obtain ⟨st₃, hst₃, he₃⟩ := recoverSelect_errno os (st₁.recovering mode)
        have he : st₃.errno = st₂.errno := he₃.trans he₂.symm
        show Except.map received (recoverSelect os (st₁.recovering mode) >>= fun st =>
          .ok (-1, r.msg, st)) = Except.map received (recoverSelect os st₁ >>= fun st =>
          .ok (-1, r.msg, st))
        rw [hst₂, hst₃]
        simp only [ok_bind, Except.map, received, he]
      | true =>
        simp only [Except.map, ok_bind, not_true_eq_false, if_false, recovering_os]
        rcases os.recv r.lengthToRead st₁.os with ⟨e | bytes, s⟩
        · simp only [received, recoverRecv_errno]
        · simp only
          by_cases hnil : bytes = []
          · rw [if_pos hnil, if_pos hnil]
            simp only [received, recoverRecv_errno]
          · rw [if_neg hnil, if_neg hnil]
            show Except.map received (afterRecv st₁.ctx mt r bytes >>= _) = _
            cases afterRecv st₁.ctx mt r bytes with
            | error e => rfl
            | ok next =>
              cases next with
              | error e => rfl
              | ok r' => exact ih { st₁ with os := s } r'

/-- **Receiving reports the same in every mode**, whatever the recovery actions leave in
`errno`. -/
theorem modbusReceiveMsg_recovering (mode : ErrorRecovery) (st : St σ) (mt : MsgType) :
    (modbusReceiveMsg os (st.recovering mode) mt).map received =
      (modbusReceiveMsg os st mt).map received := by
  unfold modbusReceiveMsg
  exact map_ite_congr (fun _ => rfl) fun _ => map_ite_congr (fun _ => rfl) fun _ =>
    receiveLoop_recovering mode mt _ st _

/-! ### Recovery that leaves errno alone -/

/-- The flush of the TCP backend ends without an error: with a piece that is not full, and before
the counter overflows. -/
def TcpFlushQuiet (os : Os σ) : Nat → Nat → σ → Prop
  | 0, _, _ => False
  | fuel + 1, rcSum, s =>
    match os.recvDontwait 260 s with
    | (.error _, _) => False
    | (.ok b, s) => ¬ (0 < b.length ∧ 65535 - b.length < rcSum) ∧
      (b.length = 260 → TcpFlushQuiet os fuel (rcSum + b.length) s)

def FlushQuiet (os : Os σ) : Backend → σ → Prop
  | .tcp, s => TcpFlushQuiet os 253 0 s
  | .rtu, s => (os.tcflush s).1 = none

/-- Neither the sleep nor the flush touches `errno`. -/
def RecoveryQuiet (os : Os σ) (ctx : Modbus) (s : σ) : Prop :=
  (os.sleep ctx.responseTimeout s).1 = none ∧
    FlushQuiet os ctx.backend (os.sleep ctx.responseTimeout s).2

/-- What an action leaves in `errno`: what was there, or a code of the system. -/
def Leaves (quiet : Prop) (e e' : Errno) : Prop := (quiet → e' = e) ∧ (¬ quiet → ∃ c, e' = .sys c)

theorem tcpFlushLoop_leaves {fuel rcSum : Nat} {st st' : St σ} {rc : Int}
    (h : tcpFlushLoop os fuel rcSum st = .ok (rc, st')) :
    Leaves (TcpFlushQuiet os fuel rcSum st.os) st.errno st'.errno := by
  induction fuel generalizing rcSum st with
  | zero => cases h
  | succ fuel ih =>
    rw [tcpFlushLoop] at h
    rw [TcpFlushQuiet]
    rcases hr : os.recvDontwait 260 st.os with ⟨e | b, s⟩
    · rw [hr] at h
      cases h
      exact ⟨False.elim, fun _ => ⟨e, rfl⟩⟩
    · rw [hr] at h
      simp only at h ⊢
      by_cases hover : 0 < b.length ∧ 65535 - b.length < rcSum
      · rw [if_pos hover] at h
        cases h
        exact ⟨fun hq => absurd hover hq.1, fun _ => ⟨_, rfl⟩⟩
      rw [if_neg hover] at h
      by_cases hfull : b.length = 260
      · rw [if_pos hfull] at h
        obtain ⟨hquiet, htouch⟩ := ih h
        exact ⟨fun hq => hquiet (hq.2 hfull), fun hq => htouch fun hq' => hq ⟨hover, fun _ => hq'⟩⟩
      · rw [if_neg hfull] at h
        cases h
        exact ⟨fun _ => rfl, fun hq => absurd ⟨hover, fun hf => absurd hf hfull⟩ hq⟩

theorem modbusFlush_leaves {st st' : St σ} {rc : Int} (h : modbusFlush os st = .ok (rc, st')) :
    Leaves (FlushQuiet os st.ctx.backend st.os) st.errno st'.errno := by
  unfold modbusFlush at h
  cases hbe : st.ctx.backend with
  | tcp =>
    simp only [hbe] at h
    exact tcpFlushLoop_leaves h
  | rtu =>
    simp only [hbe] at h
    show Leaves ((os.tcflush st.os).1 = none) _ _
    rcases hr : os.tcflush st.os with ⟨- | e, s⟩
    · rw [hr] at h
      cases h
      exact ⟨fun _ => rfl, fun hq => absurd rfl hq⟩
    · rw [hr] at h
      cases h
      exact ⟨fun hq => (Option.some_ne_none e hq).elim, fun _ => ⟨e, rfl⟩⟩

theorem sleepAndFlush_leaves {st st' : St σ} (h : sleepAndFlush os st = .ok st') :
    Leaves (RecoveryQuiet os st.ctx st.os) st.errno st'.errno := by
  obtain ⟨⟨rc, st₁⟩, hflush, h⟩ := bind_eq_ok.mp h
  cases h
  obtain ⟨hquiet, htouch⟩ := modbusFlush_leaves hflush
  unfold sleepResponseTimeout at hquiet htouch
  unfold RecoveryQuiet
  rcases hr : os.sleep st.ctx.responseTimeout st.os with ⟨- | c, s⟩ <;>
    simp only [hr] at hquiet htouch
  · exact ⟨fun hq => hquiet hq.2, fun hq => htouch fun hq' => hq ⟨rfl, hq'⟩⟩
  · refine ⟨fun hq => (Option.some_ne_none c hq.1).elim, fun _ => ?_⟩
    -- the sleep has left a code of the system, and the flush leaves it or another
    by_cases hq : FlushQuiet os st.ctx.backend s
    · exact ⟨c, hquiet hq⟩
    · exact htouch hq

/-! ### check_confirmation -/

/-- The function code is there, and the pre-check of the backend refuses the confirmation. -/
def PreRefuses (be : Backend) (req rsp : List UInt8) (e : Errno) : Prop :=
  (∃ function, rd rsp be.headerLength = .ok function) ∧
    preCheckConfirmation be req rsp = .ok (some e)

/-- A pre-check refuses with an error of the library. -/
theorem preCheckConfirmation_code {req rsp : List UInt8} {e : Errno}
    (h : preCheckConfirmation be req rsp = .ok (some e)) : ∃ code, e = .mb code := by
  have hcode : ∀ code e, some (Errno.mb code) = some e → ∃ code, e = .mb code := by
    intro code e he
    cases he
    exact ⟨code, rfl⟩
  have hnone : ∀ e, none = some e → ∃ code, e = Errno.mb code := by
    intro e he
    cases he
  have hends : Ends (preCheckConfirmation be req rsp)
      (fun refused => ∀ e, refused = some e → ∃ code, e = .mb code) fun _ => True := by
    cases be with
    | tcp =>
      refine Ends.seq fun _ _ => Ends.seq fun _ _ => Ends.seq fun _ _ => Ends.seq fun _ _ => ?_
      refine Ends.ite (fun _ => hcode _) fun _ => Ends.seq fun _ _ => Ends.seq fun _ _ => ?_
      exact Ends.ite (fun _ => hcode _) fun _ => hnone
    | rtu =>
      refine Ends.seq fun _ _ => Ends.seq fun _ _ => ?_
      exact Ends.ite (fun _ => hcode _) fun _ => hnone
  exact hends.result h e rfl

/-- Bad data: `errno` is set after the recovery actions. -/
theorem refuseConfirmation_reported (os : Os σ) (st : St σ) :
    (refuseConfirmation os st).map reported = .ok (-1, .EMBBADDATA) := by
  unfold refuseConfirmation
  split_ifs
  · obtain ⟨e, s, h⟩ := sleepAndFlush_ok os st
    rw [h]
    rfl
  · rfl

/-- What the pre-check refuses: `errno` is set before. -/
theorem checkConfirmation_refused (st : St σ) {req rsp : List UInt8} {rspLength : Int} {e : Errno}
    (h : PreRefuses st.ctx.backend req rsp e) :
    checkConfirmation os st req rsp rspLength =
      (if st.ctx.errorRecovery.protocol then sleepAndFlush os { st with errno := e }
        else .ok { st with errno := e }) >>= fun st => .ok (-1, st) := by
  obtain ⟨⟨function, hf⟩, hpre⟩ := h
  simp only [checkConfirmation, hf, ok_bind, hpre]
  split_ifs
  · rfl
  · rfl

/-- Past the pre-check the mode makes no difference. -/
theorem checkConfirmation_recovering {st : St σ} {req rsp : List UInt8} {rspLength : Int}
    (h : ∀ e, ¬ PreRefuses st.ctx.backend req rsp e) (mode : ErrorRecovery) :
    (checkConfirmation os (st.recovering mode) req rsp rspLength).map reported =
      (checkConfirmation os st req rsp rspLength).map reported := by
  have hrefuse : (refuseConfirmation os (st.recovering mode)).map reported =
      (refuseConfirmation os st).map reported :=
    (refuseConfirmation_reported os _).trans (refuseConfirmation_reported os st).symm
  unfold checkConfirmation
  refine map_bind_congr fun function hf => map_bind_congr fun refused hpre => ?_
  cases refused with
  | some e => exact absurd ⟨⟨function, hf⟩, hpre⟩ (h e)
  | none =>
    refine map_bind_congr fun computed _ => map_bind_congr fun reqFunction _ => ?_
    refine map_ite_congr (fun _ => ?_) fun _ => map_ite_congr (fun _ => ?_) fun _ => hrefuse
    · -- exception responses set `errno` and nothing else
      refine map_ite_congr (fun _ => map_bind_congr fun code _ => ?_) fun _ => rfl
      exact map_ite_congr (fun _ => rfl) fun _ => rfl
    · refine map_ite_congr (fun _ => hrefuse) fun _ => map_bind_congr fun values _ => ?_
      exact map_ite_congr (fun _ => rfl) fun _ => hrefuse

/-! ### Two runs -/

/-- `check_confirmation` reports the same in every mode unless the pre-check refuses and the
recovery actions touch `errno`. -/
theorem checkConfirmation_same_iff (os : Os σ) (st : St σ) (req rsp : List UInt8)
    (rspLength : Int) :
    (∀ mode mode', (checkConfirmation os (st.recovering mode) req rsp rspLength).map reported =
      (checkConfirmation os (st.recovering mode') req rsp rspLength).map reported) ↔
      ((∃ e, PreRefuses st.ctx.backend req rsp e) → RecoveryQuiet os st.ctx st.os) := by
  constructor
  · rintro hsame ⟨e, he⟩
    obtain ⟨code, rfl⟩ := preCheckConfirmation_code he.2
    have hnone : (checkConfirmation os (st.recovering ⟨false, false⟩) req rsp rspLength).map
        reported = .ok (-1, .mb code) := by
      rw [checkConfirmation_refused (st.recovering ⟨false, false⟩) he]
      rfl
    obtain ⟨e', s, hflush⟩ :=
      sleepAndFlush_ok os { st.recovering ⟨false, true⟩ with errno := .mb code }
    have hprotocol : (checkConfirmation os (st.recovering ⟨false, true⟩) req rsp rspLength).map
        reported = .ok (-1, e') := by
      rw [checkConfirmation_refused (st.recovering ⟨false, true⟩) he]
      show Except.map reported (sleepAndFlush os _ >>= _) = _
      rw [hflush]
      rfl
    -- so the flush would have to leave the code of the pre-check
    have heq : e' = .mb code := by
      have h := (hsame ⟨false, true⟩ ⟨false, false⟩).symm
      rw [hnone, hprotocol] at h
      exact (congrArg Prod.snd (Except.ok.inj h)).symm
    by_contra hloud
    obtain ⟨c, hc⟩ := (sleepAndFlush_leaves hflush).2 hloud
    have hc' : e' = .sys c := hc
    rw [heq] at hc'
    cases hc'
  · intro hquiet mode mode'
    by_cases hpre : ∃ e, PreRefuses st.ctx.backend req rsp e
    · -- in every mode the code of the pre-check is reported
      obtain ⟨e, he⟩ := hpre
      have hcode : ∀ mode, (checkConfirmation os (st.recovering mode) req rsp rspLength).map
          reported = .ok (-1, e) := by
        intro mode
        rw [checkConfirmation_refused (st.recovering mode) he]
        by_cases hp : (st.recovering mode).ctx.errorRecovery.protocol = true
        · rw [if_pos hp]
          obtain ⟨e', s, hflush⟩ := sleepAndFlush_ok os { st.recovering mode with errno := e }
          have he' : e' = e := (sleepAndFlush_leaves hflush).1 (hquiet ⟨e, he⟩)
          rw [hflush, he']
          rfl
        · rw [if_neg hp]
          rfl
      rw [hcode, hcode]
    · have hno : ∀ e, ¬ PreRefuses st.ctx.backend req rsp e := fun e he => hpre ⟨e, he⟩
      rw [checkConfirmation_recovering hno, checkConfirmation_recovering hno]

/-- **The reported error does not depend on the recovery mode**: never for `_modbus_receive_msg`,
and for `check_confirmation` exactly when no recovery that touches `errno` follows a refused
pre-check. -/
theorem error_same_in_every_mode_iff (os : Os σ) (st : St σ) :
    (∀ mt mode mode', (modbusReceiveMsg os (st.recovering mode) mt).map received =
      (modbusReceiveMsg os (st.recovering mode') mt).map received) ∧
    ∀ req rsp rspLength,
      (∀ mode mode', (checkConfirmation os (st.recovering mode) req rsp rspLength).map reported =
        (checkConfirmation os (st.recovering mode') req rsp rspLength).map reported) ↔
        ((∃ e, PreRefuses st.ctx.backend req rsp e) → RecoveryQuiet os st.ctx st.os) := by
  refine ⟨fun mt mode mode' => ?_, checkConfirmation_same_iff os st⟩
  rw [modbusReceiveMsg_recovering, modbusReceiveMsg_recovering]

/-- A response with the wrong transaction id, on a line with nothing more to read: without protocol
recovery bad data is reported, and with it what the flush has left. -/
theorem errno_of_flush_reported :
    (checkConfirmation (linkOs 1) ((sampleSt .tcp 17 []).recovering ⟨false, false⟩)
        [0, 7, 0, 0, 0, 6, 17, 6, 0, 1, 0, 3] [0, 8, 0, 0, 0, 6, 17, 6, 0, 1, 0, 3] 12).map
          reported = .ok (-1, .EMBBADDATA) ∧
      (checkConfirmation (linkOs 1) ((sampleSt .tcp 17 []).recovering ⟨false, true⟩)
        [0, 7, 0, 0, 0, 6, 17, 6, 0, 1, 0, 3] [0, 8, 0, 0, 0, 6, 17, 6, 0, 1, 0, 3] 12).map
          reported = .ok (-1, .sys .EAGAIN) := ⟨rfl, rfl⟩

end Libmodbus
