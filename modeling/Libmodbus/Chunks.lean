/-
Libmodbus/Chunks.lean

Receiving from a stream, whatever the pieces.

    stream    takes                       rc   errno        stored
    cut       too short for a message     -1   ECONNRESET   all of it
    refused   declares too many bytes     -1   EMBBADDATA   up to the meta fields
    whole n   a message of n bytes        check_integrity   its n bytes

`takes` and `receivedFrom` read this table off the stream alone.  The loop
knows only the pieces it has got so far; but its three steps end at boundaries
that depend on the bytes and not on the pieces (`Parsing`), so it agrees with
`receivedFrom` at the end of every run (`receiveLoop_received`).  The same
induction bounds the reads: stored and requested bytes end at the boundary of a
step.
-/
import Libmodbus.Framing
import Libmodbus.Lib.Flow

namespace Libmodbus

open CSem Wire Posix

variable {σ : Type} {be : Backend} {mt : MsgType}

/-! ### What a stream holds -/

/-- The first message of a stream. -/
inductive Taking
  /-- It ends before the message does. -/
  | cut
  /-- With its first `k` bytes it declares more than the buffer holds. -/
  | refused (k : Nat)
  /-- The message is its first `n` bytes. -/
  | whole (n : Nat)
  deriving DecidableEq, Repr

def takes (be : Backend) (mt : MsgType) (stream : List UInt8) : Taking :=
  match stream[be.headerLength]? with
  | none => .cut
  | some function =>
    let k := be.headerLength + 1 + computeMetaLengthAfterFunction function.toNat mt
    if stream.length < k then .cut
    else
      match messageLength be mt stream with
      | .error _ => .cut
      | .ok n =>
        if be.maxAduLength < n then .refused k
        else if stream.length < n then .cut
        else .whole n

/-- What `check_integrity` returns for a message, and the `errno` it sets. -/
def integrity (ctx : Modbus) (msg : List UInt8) : Int × Option Errno :=
  match ctx.backend with
  | .tcp => (msg.length, none)
  | .rtu =>
    let slave := (msg.getD 0 0).toNat
    let crcReceived := word (msg.getD (msg.length - 1) 0) (msg.getD (msg.length - 2) 0)
    if crc16 (msg.take (msg.length - 2)) ≠ crcReceived then (-1, some .EMBBADCRC)
    else if (slave : Int) ≠ ctx.slave ∧ slave ≠ broadcastAddress then (0, none)
    else (msg.length, none)

/-- What a receive call returns, the `errno` it leaves and the bytes it has stored. -/
structure Reception where
  rc : Int
  errno : Errno
  stored : List UInt8
  deriving DecidableEq, Repr

def Taking.reception (ctx : Modbus) (e : Errno) (stream : List UInt8) : Taking → Reception
  | cut => ⟨-1, .ECONNRESET, stream⟩
  | refused k => ⟨-1, .EMBBADDATA, stream.take k⟩
  | whole n =>
    ⟨(integrity ctx (stream.take n)).1, (integrity ctx (stream.take n)).2.getD e, stream.take n⟩

/-- A receive call on a stream, with `e` left in `errno` before. -/
def receivedFrom (ctx : Modbus) (mt : MsgType) (e : Errno) (stream : List UInt8) : Reception :=
  if ctx.s < 0 then ⟨-1, e, []⟩
  else if fdSetSize ≤ ctx.s then ⟨-1, .EINVAL, []⟩
  else (takes ctx.backend mt stream).reception ctx e stream

/-! ### The table is right at each boundary -/

/-- A message of its declared length is taken, whatever follows it. -/
theorem takes_whole {msg rest : List UInt8} (hm : messageLength be mt msg = .ok msg.length)
    (hmax : msg.length ≤ be.maxAduLength) : takes be mt (msg ++ rest) = .whole msg.length := by
  obtain ⟨fc, hf, h⟩ := bind_eq_ok.mp hm
  obtain ⟨length, hl, h⟩ := bind_eq_ok.mp h
  have htotal := Except.ok.inj h
  have hlen : (msg ++ rest).length = msg.length + rest.length := List.length_append
  simp only [takes, rd_eq_ok.mp (rd_append_ok hf rest), messageLength_append hm rest]
  rw [if_neg (show ¬ (msg ++ rest).length < be.headerLength + 1 +
      computeMetaLengthAfterFunction fc.toNat mt by omega),
    if_neg (not_lt.mpr hmax), if_neg (show ¬ (msg ++ rest).length < msg.length by omega)]

/-- A stream that ends before a boundary is cut. -/
theorem takes_cut {step : Step} {stream : List UInt8} {n : Nat} (h : Boundary be mt step stream n)
    (hlen : stream.length < n) : takes be mt stream = .cut := by
  cases h with
  | function =>
    have hnone : stream[be.headerLength]? = none := List.getElem?_eq_none (by omega)
    simp only [takes, hnone]
  | metaInfo hf => simp only [takes, rd_eq_ok.mp hf, if_pos hlen]
  | data hn hmax =>
    obtain ⟨fc, hf, -⟩ := bind_eq_ok.mp hn
    simp only [takes, rd_eq_ok.mp hf, hn, if_neg (not_lt.mpr hmax), if_pos hlen, ite_self]

/-- A message that is too long is refused after its meta fields. -/
theorem takes_refused {msg rest : List UInt8} {fc : UInt8} {n : Nat}
    (hf : rd msg be.headerLength = .ok fc)
    (hlen : msg.length = be.headerLength + 1 + computeMetaLengthAfterFunction fc.toNat mt)
    (hn : messageLength be mt msg = .ok n) (hmax : be.maxAduLength < n) :
    takes be mt (msg ++ rest) = .refused msg.length := by
  simp only [takes, rd_eq_ok.mp (rd_append_ok hf rest), messageLength_append hn rest, ← hlen,
    List.length_append]
  rw [if_neg (not_lt.mpr (Nat.le_add_right _ _)), if_pos hmax]

/-- At a boundary where the switch refuses, the meta fields are stored. -/
theorem nextStep_refused {r : RecvState} {e : Errno} (h : Boundary be mt r.step r.msg r.msg.length)
    (hr : nextStep be mt r = .ok (.error e)) :
    ∃ fc, rd r.msg be.headerLength = .ok fc ∧
      r.msg.length = be.headerLength + 1 + computeMetaLengthAfterFunction fc.toNat mt := by
  cases hs : r.step with
  | function =>
    have hlen : r.msg.length = be.headerLength + 1 := by
      rw [hs] at h
      generalize r.msg.length = n at h
      cases h
      rfl
    have hf := rd_lt (show be.headerLength < r.msg.length by omega)
    refine ⟨_, hf, ?_⟩
    simp only [nextStep, hs, stepFunction, hf, ok_bind] at hr
    split at hr
    next => cases hr
    next he => omega
  | metaInfo =>
    rw [hs] at h
    generalize hn : r.msg.length = n at h
    cases h with
    | metaInfo hf => exact ⟨_, hf, rfl⟩
  | data =>
    simp only [nextStep, hs] at hr
    cases hr

theorem afterRecv_refused {ctx : Modbus} {r : RecvState} {bytes : List UInt8} {e : Errno}
    (h : Parsing ctx.backend mt r) (hlen : bytes.length ≤ r.lengthToRead)
    (hr : afterRecv ctx mt r bytes = .ok (.error e)) (rest : List UInt8) :
    e = .EMBBADDATA ∧
      takes ctx.backend mt (r.msg ++ bytes ++ rest) = .refused (r.msg ++ bytes).length := by
  rcases afterRecv_spec h hlen with ⟨r', hr', -⟩ | ⟨n, hn, hmax, hr'⟩
  · cases hr'.symm.trans hr
  · cases hr'.symm.trans hr
    refine ⟨rfl, ?_⟩
    have hb := h.got hlen
    set r₁ : RecvState := { r with
      msg := r.msg ++ bytes, lengthToRead := r.lengthToRead - bytes.length } with hr₁
    have hdef : afterRecv ctx mt r bytes = (do
        let res ← if r₁.lengthToRead = 0 then nextStep ctx.backend mt r₁ else .ok (.ok r₁)
        .ok (res.map (RecvState.rearm ctx.byteTimeout))) := rfl
    rw [hdef] at hr
    by_cases h0 : r₁.lengthToRead = 0
    · rw [if_pos h0] at hr
      obtain ⟨res, hres, hmap⟩ := bind_eq_ok.mp hr
      cases res with
      | ok r₂ => cases hmap
      | error e =>
        have hb₁ : Boundary ctx.backend mt r₁.step r₁.msg (r₁.msg.length + r₁.lengthToRead) := hb
        rw [h0, Nat.add_zero] at hb₁
        obtain ⟨fc, hf, hmeta⟩ := nextStep_refused hb₁ hres
        exact takes_refused hf hmeta hn hmax
    · rw [if_neg h0] at hr
      cases hr

/-! ### The pieces -/

/-- The bytes are drawn off the stream, behind `n` stored ones and in reads that stay within
`max`. -/
structure Drawn (view : σ → List UInt8) (max n : Nat) (bytes : List UInt8) (s t : Logged σ) :
    Prop where
  view : view s.os = bytes ++ view t.os
  fits : n + bytes.length ≤ max
  reads : ∃ reads, t.reads = s.reads ++ reads ∧ came reads = bytes ∧ Within max n reads

variable {view : σ → List UInt8} {max n : Nat}

theorem Drawn.refl (s : Logged σ) (hn : n ≤ max) : Drawn view max n [] s s :=
  ⟨rfl, hn, [], (List.append_nil _).symm, rfl, within_nil⟩

/-- Ready, but nothing is read yet. -/
theorem Drawn.ready {bytes : List UInt8} {s s' t : Logged σ} (hview : view s'.os = view s.os)
    (hreads : s'.reads = s.reads) (h : Drawn view max n bytes s' t) :
    Drawn view max n bytes s t :=
  ⟨hview ▸ h.view, h.fits, hreads ▸ h.reads⟩

/-- A read, and what is drawn after it. -/
theorem Drawn.read {asked : Nat} {b bytes : List UInt8} {s s' t : Logged σ}
    (hasked : n + asked ≤ max) (hview : view s.os = b ++ view s'.os)
    (hreads : s'.reads = s.reads ++ [⟨asked, b⟩])
    (h : Drawn view max (n + b.length) bytes s' t) : Drawn view max n (b ++ bytes) s t := by
  obtain ⟨reads, ht, hcame, hwithin⟩ := h.reads
  refine ⟨?_, ?_, ⟨asked, b⟩ :: reads, ?_, ?_, ?_⟩
  · rw [hview, h.view, List.append_assoc]
  · rw [List.length_append, ← Nat.add_assoc]
    exact h.fits
  · rw [ht, hreads, List.append_assoc, List.singleton_append]
  · rw [came_cons, hcame]
  · exact within_cons hasked hwithin

/-! ### The loop -/

/-- Without protocol recovery the integrity check only sets `errno`. -/
theorem checkIntegrity_eq (os : Os σ) {st : St σ} {msg : List UInt8}
    (hprotocol : st.ctx.errorRecovery.protocol = false) (hlen : 2 ≤ msg.length) :
    checkIntegrity os st msg = .ok ((integrity st.ctx msg).1,
      { st with errno := (integrity st.ctx msg).2.getD st.errno }) := by
  have hget : ∀ i, i < msg.length → rd msg i = .ok (msg.getD i 0) := by
    intro i hi
    rw [rd_lt hi, List.getD_eq_getElem _ _ hi]
  cases hbe : st.ctx.backend with
  | tcp => simp only [checkIntegrity, integrity, hbe, Option.getD_none]
  | rtu =>
    simp only [checkIntegrity, integrity, hbe, hget 0 (by omega), hget (msg.length - 1) (by omega),
      hget (msg.length - 2) (by omega), ok_bind, hprotocol, Bool.false_eq_true, if_false]
    split_ifs <;> rfl

/-- `MODBUS_ERROR_RECOVERY_NONE` -/
def NoRecovery (ctx : Modbus) : Prop :=
  ctx.errorRecovery.link = false ∧ ctx.errorRecovery.protocol = false

theorem recoverRecv_eq (os : Os σ) (st : St σ) (h : st.ctx.errorRecovery.link = false) :
    recoverRecv os st = st := by
  simp only [recoverRecv, h, Bool.false_eq_true, false_and, if_false]

section

variable {os : Os σ} {fuel : Nat} {st : St σ} {r : RecvState} {s₁ s₂ : σ} {bytes : List UInt8}
  {e : Errno}

/-- A turn in which the stream is at its end. -/
theorem receiveLoop_ended (hf : 0 < os.fuel) (hr : r.lengthToRead ≠ 0)
    (hsel : os.select r.tv st.os = (.ready, s₁))
    (hrecv : os.recv r.lengthToRead s₁ = (.ok [], s₂)) :
    receiveLoop os mt (fuel + 1) st r =
      .ok (-1, r.msg, recoverRecv os { st with errno := .ECONNRESET, os := s₂ }) := by
  rw [receiveLoop, if_neg hr, backendSelect_ready hf hsel]
  simp only [ok_bind, not_true_eq_false, if_false, hrecv, if_true]

/-- A turn that finds the message too long. -/
theorem receiveLoop_refused (hf : 0 < os.fuel) (hr : r.lengthToRead ≠ 0)
    (hsel : os.select r.tv st.os = (.ready, s₁))
    (hrecv : os.recv r.lengthToRead s₁ = (.ok bytes, s₂)) (hb : bytes ≠ [])
    (ha : afterRecv st.ctx mt r bytes = .ok (.error e)) :
    receiveLoop os mt (fuel + 1) st r =
      .ok (-1, r.msg ++ bytes, { st with errno := e, os := s₂ }) := by
  rw [receiveLoop, if_neg hr, backendSelect_ready hf hsel]
  simp only [ok_bind, not_true_eq_false, if_false, hrecv, if_neg hb, ha]

end

/-- With `msg` stored before, the call returns `out`: it draws the other bytes of it. -/
def Receives (view : σ → List UInt8) (st : St (Logged σ)) (msg : List UInt8)
    (x : Run (Int × List UInt8 × St (Logged σ))) (out : Reception) : Prop :=
  ∃ bytes t, x = .ok (out.rc, out.stored, ⟨st.ctx, out.errno, t⟩) ∧ out.stored = msg ++ bytes ∧
    Drawn view st.ctx.backend.maxAduLength msg.length bytes st.os t

/-- **The loop agrees with the stream.**  The induction is on the turns, and at each of them the
bytes stored and those that are left are the whole stream. -/
theorem receiveLoop_received {os : Os σ} (h : Flow os view) (hf : 0 < os.fuel) {fuel : Nat}
    {st : St (Logged σ)} {r : RecvState} {stream : List UInt8} (hnone : NoRecovery st.ctx)
    (hp : Parsing st.ctx.backend mt r) (hs : stream = r.msg ++ view st.os.os)
    (hfuel : st.ctx.backend.maxAduLength < r.msg.length + fuel) :
    Receives view st r.msg (receiveLoop (logOs os) mt fuel st r)
      ((takes st.ctx.backend mt stream).reception st.ctx st.errno stream) := by
  have hf' : 0 < (logOs os).fuel := hf
  induction fuel generalizing st r with
  | zero =>
    have hle := hp.boundary.le_max
    omega
  | succ fuel ih =>
    by_cases h0 : r.lengthToRead = 0
    · -- the last boundary: the message is whole
      have hb := hp.boundary
      rw [hp.waiting h0, h0, Nat.add_zero] at hb
      obtain ⟨hm, hmax⟩ : messageLength st.ctx.backend mt r.msg = .ok r.msg.length ∧
          r.msg.length ≤ st.ctx.backend.maxAduLength := by
        generalize r.msg.length = n at hb
        cases hb with
        | data hm hmax => exact ⟨hm, hmax⟩
      have htake : stream.take r.msg.length = r.msg := by rw [hs, List.take_left]
      have hlen : 2 ≤ r.msg.length := by
        have hle := le_length_of_messageLength hm
        cases hbe : st.ctx.backend <;>
          simp only [hbe, Backend.headerLength, Backend.checksumLength] at hle <;> omega
      rw [show takes st.ctx.backend mt stream = .whole r.msg.length by rw [hs, takes_whole hm hmax],
        receiveLoop_done h0]
      refine ⟨[], st.os, ?_, ?_, Drawn.refl st.os hmax⟩
      · simp only [finish, checkIntegrity_eq (logOs os) hnone.2 hlen, Taking.reception, htake,
          ok_bind]
      · rw [List.append_nil]
        exact htake
    · obtain ⟨s₁, hsel, hview₁, hreads₁⟩ := h.log_select r.tv st.os
      obtain ⟨b, s₂, hrecv, hview₂, hend, hreads₂⟩ := h.log_recv s₁ (Nat.pos_of_ne_zero h0)
      have hasked := hp.boundary.le_max
      by_cases hb : b = []
      · -- the end of the stream, short of a boundary
        subst hb
        have hstream : stream = r.msg := by rw [hs, ← hview₁, hend rfl, List.append_nil]
        rw [hstream, takes_cut hp.boundary (show r.msg.length < _ by omega)]
        refine ⟨[], s₂, ?_, (List.append_nil _).symm, ?_⟩
        · rw [receiveLoop_ended hf' h0 hsel hrecv,
            recoverRecv_eq (logOs os) { st with errno := .ECONNRESET, os := s₂ } hnone.1]
          rfl
        · exact .ready hview₁ hreads₁ (.read hasked hview₂ hreads₂
            (.refl s₂ (show r.msg.length + 0 ≤ _ by omega)))
      · have hblen : b.length ≤ r.lengthToRead := (logOs os).recv_length hrecv
        have hstream : stream = r.msg ++ b ++ view s₂.os := by
          rw [hs, ← hview₁, hview₂, List.append_assoc]
        have hdraw : ∀ {bytes t}, Drawn view st.ctx.backend.maxAduLength
            (r.msg.length + b.length) bytes s₂ t →
              Drawn view st.ctx.backend.maxAduLength r.msg.length (b ++ bytes) st.os t :=
          fun ht => .ready hview₁ hreads₁ (.read hasked hview₂ hreads₂ ht)
        rcases hafter : afterRecv st.ctx mt r b with e | e | r'
        · -- no byte is read that is not there
          rcases afterRecv_spec hp hblen with ⟨r', hr', -⟩ | ⟨n, -, -, hr'⟩
          · cases hafter.symm.trans hr'
          · cases hafter.symm.trans hr'
        · obtain ⟨rfl, htakes⟩ := afterRecv_refused hp hblen hafter (view s₂.os)
          rw [hstream, htakes]
          refine ⟨b, s₂, ?_, ?_, by simpa using hdraw (.refl s₂ (by omega))⟩
          · rw [receiveLoop_refused hf' h0 hsel hrecv hb hafter]
            simp only [Taking.reception, List.take_left]
          · exact List.take_left
        · obtain ⟨hmsg, hp'⟩ : r'.msg = r.msg ++ b ∧ Parsing st.ctx.backend mt r' := by
            rcases afterRecv_spec hp hblen with ⟨r₁, hr₁, hmsg, hp'⟩ | ⟨n, -, -, hr₁⟩
            · cases hafter.symm.trans hr₁
              exact ⟨hmsg, hp'⟩
            · cases hafter.symm.trans hr₁
          have hpos := List.length_pos_of_ne_nil hb
          have hlen : r'.msg.length = r.msg.length + b.length := by rw [hmsg, List.length_append]
          have hrun : Receives view { st with os := s₂ } r'.msg
              (receiveLoop (logOs os) mt fuel { st with os := s₂ } r')
              ((takes st.ctx.backend mt stream).reception st.ctx st.errno stream) :=
            ih hnone hp' (by rw [hmsg, hstream])
              (show st.ctx.backend.maxAduLength < r'.msg.length + fuel by omega)
          obtain ⟨bytes, t, hloop, hstored, ht⟩ := hrun
          refine ⟨b ++ bytes, t, ?_, ?_, ?_⟩
          · rw [receiveLoop_step hf' h0 hsel hrecv hb hafter, hloop]
          · rw [hstored, hmsg, List.append_assoc]
          · rw [hlen] at ht
            exact hdraw ht

/-! ### A receive call -/

/-- A receive call returns `out`.  It takes the bytes it stores off the stream and no others; its
reads stay within the buffer, and there are no more of them than the buffer has bytes. -/
def ReceivesWithin (os : Os σ) (view : σ → List UInt8) (mt : MsgType) (st : St (Logged σ))
    (out : Reception) : Prop :=
  ∃ t reads, modbusReceiveMsg (logOs os) st mt =
      .ok (out.rc, out.stored, ⟨st.ctx, out.errno, t⟩) ∧
    view st.os.os = out.stored ++ view t.os ∧
    t.reads = st.os.reads ++ reads ∧ came reads = out.stored ∧
    Within st.ctx.backend.maxAduLength 0 reads ∧
    (successful reads).length ≤ st.ctx.backend.maxAduLength

theorem modbusReceiveMsg_received {os : Os σ} (h : Flow os view) (hf : 0 < os.fuel)
    {st : St (Logged σ)} (hnone : NoRecovery st.ctx) (mt : MsgType) :
    ReceivesWithin os view mt st (receivedFrom st.ctx mt st.errno (view st.os.os)) := by
  obtain ⟨bytes, t, hrun, hstored, hdrawn⟩ : Receives view st []
      (modbusReceiveMsg (logOs os) st mt) (receivedFrom st.ctx mt st.errno (view st.os.os)) := by
    unfold modbusReceiveMsg receivedFrom
    split_ifs
    · exact ⟨[], st.os, rfl, rfl, .refl _ (Nat.zero_le _)⟩
    · exact ⟨[], st.os, rfl, rfl, .refl _ (Nat.zero_le _)⟩
    · refine receiveLoop_received h hf hnone (Parsing.start st.ctx mt) rfl ?_
      show st.ctx.backend.maxAduLength < 0 + (st.ctx.backend.maxAduLength + 1)
      omega
  obtain ⟨reads, ht, hcame, hwithin⟩ := hdrawn.reads
  rw [List.nil_append] at hstored
  refine ⟨t, reads, hrun, ?_, ht, hcame.trans hstored.symm, hwithin, ?_⟩
  · rw [hstored]
    exact hdrawn.view
  · have hcount := length_successful_le reads
    have hfits := hdrawn.fits
    rw [hcame] at hcount
    exact hcount.trans ((Nat.le_add_left _ _).trans hfits)

/-- **Receiving is bounded, and does not depend on the pieces.**  For two systems with the same
stream, whatever the pieces each of them returns, a receive call ends in the same way; the stream
alone decides how. -/
theorem receiving_ignores_chunks {τ : Type} {os : Os σ} {os' : Os τ} {view : σ → List UInt8}
    {view' : τ → List UInt8} (h : Flow os view) (h' : Flow os' view') (hf : 0 < os.fuel)
    (hf' : 0 < os'.fuel) {ctx : Modbus} (hnone : NoRecovery ctx) (mt : MsgType) (e : Errno)
    {s : Logged σ} {s' : Logged τ} (hs : view s.os = view' s'.os) :
    ReceivesWithin os view mt ⟨ctx, e, s⟩ (receivedFrom ctx mt e (view s.os)) ∧
      ReceivesWithin os' view' mt ⟨ctx, e, s'⟩ (receivedFrom ctx mt e (view s.os)) := by
  refine ⟨?_, ?_⟩
  · exact modbusReceiveMsg_received h hf hnone mt
  · rw [hs]
    exact modbusReceiveMsg_received h' hf' hnone mt

/-- A request and one byte behind it, in pieces of `size` bytes. -/
def sampleFlow (size : Nat) : Logged Link :=
  ⟨⟨[0, 0, 0, 0, 0, 6, 17, 3, 0, 1, 0, 2, 9], [], fun _ => size⟩, []⟩

theorem receiving_ignores_chunks_sample :
    ReceivesWithin (pipeOs 1) Link.input .indication
        ⟨{ modbusNew .tcp with s := 3 }, .sys (.other 0), sampleFlow 1⟩
        ⟨12, .sys (.other 0), [0, 0, 0, 0, 0, 6, 17, 3, 0, 1, 0, 2]⟩ ∧
      ReceivesWithin (pipeOs 1) Link.input .indication
        ⟨{ modbusNew .tcp with s := 3 }, .sys (.other 0), sampleFlow 260⟩
        ⟨12, .sys (.other 0), [0, 0, 0, 0, 0, 6, 17, 3, 0, 1, 0, 2]⟩ :=
  receiving_ignores_chunks (pipeOs_flow 1) (pipeOs_flow 1) (by decide) (by decide) ⟨rfl, rfl⟩
    .indication _ rfl

end Libmodbus
