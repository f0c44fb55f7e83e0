/-
Libmodbus/Framing.lean

What the receive loop returns.  The two length tables give every message a
length that its own first bytes declare (`messageLength`), and the loop is a
walk through three boundaries: the function code, the meta fields, the end.

Design.  `Boundary` says where the current step ends, from the bytes stored so
far, and `Parsing` ties the loop variables to it.  One step lemma,
`afterRecv_spec`, shows that `Parsing` survives every piece that `recv` can
return.  Two results follow by induction on the turns:

* `receiveLoop_of_source`: when a message with its declared length can be read
  off, in whatever pieces, exactly its bytes are taken;
* `receiveLoop_sound`: whatever the system does, a message that is returned has
  its declared length.
-/
import Libmodbus.Receive

namespace Libmodbus

open CSem Wire Posix

variable {σ : Type} {be : Backend} {mt : MsgType}

/-! ### The declared length -/

/-- The length of a message as the two tables compute it from its own bytes. -/
def messageLength (be : Backend) (mt : MsgType) (msg : List UInt8) : Run Nat := do
  let function ← rd msg be.headerLength
  let length ← computeDataLengthAfterMeta be msg mt
  .ok (be.headerLength + 1 + computeMetaLengthAfterFunction function.toNat mt + length)

/-- The byte count is the last of the meta fields. -/
theorem byteCountPos_eq_meta {function pos : Nat} (h : byteCountPos function mt = some pos) :
    pos = computeMetaLengthAfterFunction function mt := by
  cases mt with
  | indication =>
    simp only [byteCountPos] at h
    split_ifs at h with h1 h2
    · cases h
      simp_all [computeMetaLengthAfterFunction]
      omega
    · cases h
      simp_all [computeMetaLengthAfterFunction]
  | confirmation =>
    simp only [byteCountPos] at h
    split_ifs at h with h1
    cases h
    simp only [fcReadInputRegisters, fcReportSlaveId, fcWriteAndReadRegisters] at h1
    simp only [computeMetaLengthAfterFunction]
    rw [if_neg (by simp only [fcWriteSingleCoil, fcWriteSingleRegister, fcWriteMultipleCoils,
      fcWriteMultipleRegisters]; omega), if_neg (by simp only [fcMaskWriteRegister]; omega)]

/-- A message that holds its meta fields declares a length. -/
theorem computeDataLengthAfterMeta_defined (mt : MsgType) {msg : List UInt8} {fc : UInt8}
    (hf : rd msg be.headerLength = .ok fc)
    (hlen : be.headerLength + 1 + computeMetaLengthAfterFunction fc.toNat mt ≤ msg.length) :
    ∃ n, computeDataLengthAfterMeta be msg mt = .ok n := by
  simp only [computeDataLengthAfterMeta, hf, ok_bind]
  cases hpos : byteCountPos fc.toNat mt with
  | none => exact ⟨_, rfl⟩
  | some pos =>
    have h := byteCountPos_eq_meta hpos
    simp only [rd_lt (show be.headerLength + pos < msg.length by omega), ok_bind]
    exact ⟨_, rfl⟩

theorem computeDataLengthAfterMeta_append {msg : List UInt8} {n : Nat}
    (h : computeDataLengthAfterMeta be msg mt = .ok n) (more : List UInt8) :
    computeDataLengthAfterMeta be (msg ++ more) mt = .ok n := by
  obtain ⟨fc, hf, h⟩ := bind_eq_ok.mp h
  simp only [computeDataLengthAfterMeta, rd_append_ok hf, ok_bind]
  cases hpos : byteCountPos fc.toNat mt with
  | none => simpa [hpos] using h
  | some pos =>
    simp only [hpos] at h
    obtain ⟨length, hl, h⟩ := bind_eq_ok.mp h
    simp only [rd_append_ok hl, ok_bind]
    exact h

/-- Bytes behind a message do not change the length it declares. -/
theorem messageLength_append {msg : List UInt8} {n : Nat} (h : messageLength be mt msg = .ok n)
    (more : List UInt8) : messageLength be mt (msg ++ more) = .ok n := by
  obtain ⟨fc, hf, h⟩ := bind_eq_ok.mp h
  obtain ⟨length, hl, h⟩ := bind_eq_ok.mp h
  simp only [messageLength, rd_append_ok hf, computeDataLengthAfterMeta_append hl, ok_bind]
  exact h

/-- A message of its declared length has a function code and a checksum. -/
theorem le_length_of_messageLength {msg : List UInt8} {n : Nat}
    (h : messageLength be mt msg = .ok n) : be.headerLength + 1 + be.checksumLength ≤ n := by
  obtain ⟨function, -, h⟩ := bind_eq_ok.mp h
  obtain ⟨length, hl, h⟩ := bind_eq_ok.mp h
  have htotal := Except.ok.inj h
  have hcheck : be.checksumLength ≤ length := by
    obtain ⟨function', -, hl⟩ := bind_eq_ok.mp hl
    cases hpos : byteCountPos function'.toNat mt with
    | none =>
      rw [hpos] at hl
      exact (Except.ok.inj hl).le
    | some pos =>
      rw [hpos] at hl
      obtain ⟨byteCount, -, hl⟩ := bind_eq_ok.mp hl
      have := Except.ok.inj hl
      omega
  omega

/-! ### Where a step ends -/

/-- `Boundary be mt step msg n`: with `msg` stored, the current step ends after `n` bytes. -/
inductive Boundary (be : Backend) (mt : MsgType) : Step → List UInt8 → Nat → Prop
  | function {msg : List UInt8} : Boundary be mt .function msg (be.headerLength + 1)
  | metaInfo {msg : List UInt8} {fc : UInt8} (hf : rd msg be.headerLength = .ok fc) :
      Boundary be mt .metaInfo msg
        (be.headerLength + 1 + computeMetaLengthAfterFunction fc.toNat mt)
  | data {msg : List UInt8} {n : Nat} (hn : messageLength be mt msg = .ok n)
      (hmax : n ≤ be.maxAduLength) : Boundary be mt .data msg n

theorem Boundary.append {step : Step} {msg : List UInt8} {n : Nat}
    (h : Boundary be mt step msg n) (more : List UInt8) : Boundary be mt step (msg ++ more) n := by
  cases h with
  | function => exact .function
  | metaInfo hf => exact .metaInfo (rd_append_ok hf more)
  | data hn hmax => exact .data (messageLength_append hn more) hmax

theorem metaLength_le (function : Nat) (mt : MsgType) : computeMetaLengthAfterFunction function mt ≤ 9 := by
  cases mt <;> simp only [computeMetaLengthAfterFunction] <;> split_ifs <;> omega

/-- No step reads past the caller's buffer. -/
theorem Boundary.le_max {step : Step} {msg : List UInt8} {n : Nat}
    (h : Boundary be mt step msg n) : n ≤ be.maxAduLength := by
  have hbe : be.headerLength + 10 ≤ be.maxAduLength := by cases be <;> decide
  cases h with
  | function => omega
  | @metaInfo _ fc hf =>
    have := metaLength_le fc.toNat mt
    omega
  | data hn hmax => exact hmax

/-- The boundary of a step is not behind the end that the whole message declares. -/
theorem Boundary.le_total {step : Step} {msg more : List UInt8} {n total : Nat}
    (h : Boundary be mt step msg n) (ht : messageLength be mt (msg ++ more) = .ok total) :
    n ≤ total := by
  cases h with
  | function =>
    obtain ⟨fc, -, ht⟩ := bind_eq_ok.mp ht
    obtain ⟨length, -, ht⟩ := bind_eq_ok.mp ht
    cases ht
    omega
  | @metaInfo _ fc hf =>
    obtain ⟨fc', hf', ht⟩ := bind_eq_ok.mp ht
    obtain ⟨length, -, ht⟩ := bind_eq_ok.mp ht
    cases ht
    cases (rd_append_ok hf more).symm.trans hf'
    omega
  | data hn hmax =>
    cases (messageLength_append hn more).symm.trans ht
    exact Nat.le_refl _

theorem Boundary.data_eq {msg more : List UInt8} {n total : Nat}
    (h : Boundary be mt .data msg n) (ht : messageLength be mt (msg ++ more) = .ok total) :
    n = total := by
  cases h with
  | data hn hmax =>
    cases (messageLength_append hn more).symm.trans ht
    rfl

/-- The invariant of the loop: `length_to_read` is the distance to the boundary, and only the
last step may have nothing to read. -/
structure Parsing (be : Backend) (mt : MsgType) (r : RecvState) : Prop where
  boundary : Boundary be mt r.step r.msg (r.msg.length + r.lengthToRead)
  waiting : r.lengthToRead = 0 → r.step = .data

theorem Parsing.start (ctx : Modbus) (mt : MsgType) :
    Parsing ctx.backend mt (.start ctx mt) where
  boundary := by
    show Boundary _ _ .function [] (0 + (ctx.backend.headerLength + 1))
    rw [Nat.zero_add]
    exact .function
  waiting := by
    intro h
    exact absurd h (Nat.succ_ne_zero _)

/-! ### One step -/

/-- With all meta fields stored, `_STEP_META` computes the end, or refuses a length that the
buffer cannot hold. -/
theorem stepMeta_spec {r : RecvState} {fc : UInt8} (hf : rd r.msg be.headerLength = .ok fc)
    (hlen : r.msg.length = be.headerLength + 1 + computeMetaLengthAfterFunction fc.toNat mt) :
    (∃ r', stepMeta be mt r = .ok (.ok r') ∧ r'.msg = r.msg ∧ Parsing be mt r') ∨
      ∃ n, messageLength be mt r.msg = .ok n ∧ be.maxAduLength < n ∧
        stepMeta be mt r = .ok (.error .EMBBADDATA) := by
  obtain ⟨length, hd⟩ := computeDataLengthAfterMeta_defined mt hf (by omega)
  have hm : messageLength be mt r.msg = .ok (r.msg.length + length) := by
    simp only [messageLength, hf, hd, ok_bind, hlen]
  by_cases hmax : be.maxAduLength < r.msg.length + length
  · right
    refine ⟨_, hm, hmax, ?_⟩
    simp only [stepMeta, hd, ok_bind, if_pos hmax]
  · left
    refine ⟨{ r with lengthToRead := length, step := .data }, ?_, rfl, ?_⟩
    · simp only [stepMeta, hd, ok_bind, if_neg hmax]
    · exact ⟨.data hm (Nat.le_of_not_lt hmax), fun _ => rfl⟩

/-- At a boundary the switch moves on to the next one. -/
theorem nextStep_spec {r : RecvState} (h : Boundary be mt r.step r.msg r.msg.length)
    (h0 : r.lengthToRead = 0) :
    (∃ r', nextStep be mt r = .ok (.ok r') ∧ r'.msg = r.msg ∧ Parsing be mt r') ∨
      ∃ n, messageLength be mt r.msg = .ok n ∧ be.maxAduLength < n ∧
        nextStep be mt r = .ok (.error .EMBBADDATA) := by
  cases hs : r.step with
  | function =>
    have hlen : r.msg.length = be.headerLength + 1 := by
      rw [hs] at h
      generalize r.msg.length = n at h
      cases h
      rfl
    have hf := rd_lt (show be.headerLength < r.msg.length by omega)
    simp only [nextStep, hs, stepFunction, hf, ok_bind]
    split
    next hne =>
      left
      refine ⟨_, rfl, rfl, ?_, fun h => absurd h hne⟩
      have hb : Boundary be mt .metaInfo r.msg _ := .metaInfo hf
      rw [← hlen] at hb
      exact hb
    next he =>
      -- without meta fields the function step falls through to the next one
      have he' : computeMetaLengthAfterFunction _ mt = 0 := not_not.mp he
      exact stepMeta_spec hf (by rw [he', hlen])
  | metaInfo =>
    rw [hs] at h
    obtain ⟨fc, hf, hlen⟩ : ∃ fc, rd r.msg be.headerLength = .ok fc ∧
        r.msg.length = be.headerLength + 1 + computeMetaLengthAfterFunction fc.toNat mt := by
      generalize hn : r.msg.length = n at h
      cases h with
      | metaInfo hf => exact ⟨_, hf, rfl⟩
    simp only [nextStep, hs]
    exact stepMeta_spec hf hlen
  | data =>
    left
    refine ⟨r, by simp only [nextStep, hs], rfl, ?_, fun _ => hs⟩
    rw [h0]
    exact h

theorem Parsing.rearm {r : RecvState} (h : Parsing be mt r) (tv : Timeval) :
    Parsing be mt (r.rearm tv) := by
  unfold RecvState.rearm
  split
  · exact ⟨h.boundary, h.waiting⟩
  · exact h

@[simp] theorem rearm_msg (r : RecvState) (tv : Timeval) : (r.rearm tv).msg = r.msg := by
  unfold RecvState.rearm
  split <;> rfl

/-- Bytes that were asked for do not move the boundary. -/
theorem Parsing.got {r : RecvState} {bytes : List UInt8} (h : Parsing be mt r)
    (hlen : bytes.length ≤ r.lengthToRead) : Boundary be mt r.step (r.msg ++ bytes)
      ((r.msg ++ bytes).length + (r.lengthToRead - bytes.length)) := by
  have hsum : (r.msg ++ bytes).length + (r.lengthToRead - bytes.length) =
      r.msg.length + r.lengthToRead := by
    rw [List.length_append]
    omega
  rw [hsum]
  exact h.boundary.append bytes

/-- **One piece.**  Whatever part of the missing bytes arrives, the invariant holds after it,
unless the message declares more bytes than the buffer holds. -/
theorem afterRecv_spec {ctx : Modbus} {r : RecvState} {bytes : List UInt8}
    (h : Parsing ctx.backend mt r) (hlen : bytes.length ≤ r.lengthToRead) :
    (∃ r', afterRecv ctx mt r bytes = .ok (.ok r') ∧ r'.msg = r.msg ++ bytes ∧
        Parsing ctx.backend mt r') ∨
      ∃ n, messageLength ctx.backend mt (r.msg ++ bytes) = .ok n ∧ ctx.backend.maxAduLength < n ∧
        afterRecv ctx mt r bytes = .ok (.error .EMBBADDATA) := by
  set r₁ : RecvState := { r with
    msg := r.msg ++ bytes, lengthToRead := r.lengthToRead - bytes.length } with hr₁
  have hb : Boundary ctx.backend mt r₁.step r₁.msg (r₁.msg.length + r₁.lengthToRead) :=
    h.got hlen
  have hdef : afterRecv ctx mt r bytes = (do
      let res ← if r₁.lengthToRead = 0 then nextStep ctx.backend mt r₁ else .ok (.ok r₁)
      .ok (res.map (RecvState.rearm ctx.byteTimeout))) := rfl
  by_cases h0 : r₁.lengthToRead = 0
  · rw [h0, Nat.add_zero] at hb
    rw [hdef, if_pos h0]
    rcases nextStep_spec hb h0 with ⟨r', hr', hmsg, hp⟩ | ⟨n, hn, hmax, hr'⟩
    · left
      exact ⟨r'.rearm ctx.byteTimeout, by rw [hr']; rfl, by rw [rearm_msg, hmsg], hp.rearm _⟩
    · right
      exact ⟨n, hn, hmax, by rw [hr']; rfl⟩
  · left
    rw [hdef, if_neg h0]
    refine ⟨r₁.rearm ctx.byteTimeout, rfl, by rw [rearm_msg], ?_⟩
    exact Parsing.rearm ⟨hb, fun h => absurd h h0⟩ _

/-! ### Messages that can be read off -/

/-- `check_integrity` and what the loop returns with it. -/
def finish (os : Os σ) (st : St σ) (msg : List UInt8) : Run (Int × List UInt8 × St σ) := do
  let (rc, st) ← checkIntegrity os st msg
  .ok (rc, msg, st)

theorem receiveLoop_done {os : Os σ} {fuel : Nat} {st : St σ} {r : RecvState}
    (h : r.lengthToRead = 0) : receiveLoop os mt (fuel + 1) st r = finish os st r.msg := by
  simp only [receiveLoop, if_pos h, finish]

theorem backendSelect_ready {os : Os σ} {fuel : Nat} {st : St σ} {tv : Option Timeval} {s : σ}
    (hf : 0 < fuel) (h : os.select tv st.os = (.ready, s)) :
    backendSelect os fuel st tv = .ok (true, { st with os := s }) := by
  obtain ⟨n, rfl⟩ : ∃ n, fuel = n + 1 := ⟨fuel - 1, by omega⟩
  simp only [backendSelect, h]

/-- A turn in which the system has bytes. -/
theorem receiveLoop_step {os : Os σ} {fuel : Nat} {st : St σ} {r r' : RecvState} {s₁ s₂ : σ}
    {bytes : List UInt8} (hf : 0 < os.fuel) (hr : r.lengthToRead ≠ 0)
    (hsel : os.select r.tv st.os = (.ready, s₁))
    (hrecv : os.recv r.lengthToRead s₁ = (.ok bytes, s₂)) (hb : bytes ≠ [])
    (ha : afterRecv st.ctx mt r bytes = .ok (.ok r')) :
    receiveLoop os mt (fuel + 1) st r = receiveLoop os mt fuel { st with os := s₂ } r' := by
  rw [receiveLoop, if_neg hr, backendSelect_ready hf hsel]
  simp only [ok_bind, not_true_eq_false, if_false, hrecv, if_neg hb, ha]

/-- **Exactness of the loop.**  If the bytes that are missing to a message of its declared length
can be read off, the loop takes exactly these, in whatever pieces they come. -/
theorem receiveLoop_of_source {os : Os σ} {view : σ → List UInt8}
    {took : σ → List UInt8 → σ → Prop} (hs : Source os view took) (hf : 0 < os.fuel)
    {todo rest : List UInt8} {st : St σ} {r : RecvState} {fuel : Nat}
    (hp : Parsing st.ctx.backend mt r) (hv : view st.os = todo ++ rest)
    (hm : messageLength st.ctx.backend mt (r.msg ++ todo) = .ok (r.msg ++ todo).length)
    (hmax : (r.msg ++ todo).length ≤ st.ctx.backend.maxAduLength) (hfuel : todo.length < fuel) :
    ∃ s', receiveLoop os mt fuel st r = finish os { st with os := s' } (r.msg ++ todo) ∧
      took st.os todo s' := by
  induction fuel generalizing todo rest st r with
  | zero => omega
  | succ fuel ih =>
    have hle := hp.boundary.le_total hm
    rw [List.length_append] at hle
    by_cases h0 : r.lengthToRead = 0
    · -- only the last step waits for nothing, and then nothing is missing
      have hb := hp.boundary
      rw [hp.waiting h0, h0] at hb
      have htodo : todo = [] := by
        have := hb.data_eq hm
        rw [List.length_append] at this
        exact List.length_eq_zero_iff.mp (by omega)
      subst htodo
      refine ⟨st.os, ?_, hs.refl _⟩
      rw [receiveLoop_done h0, List.append_nil]
    · -- the bytes up to the boundary, of which the system returns a part
      have hxs : (todo.take r.lengthToRead).length = r.lengthToRead := by
        rw [List.length_take]
        omega
      have hne : todo.take r.lengthToRead ≠ [] := by
        intro h
        rw [h] at hxs
        exact h0 hxs.symm
      have hv' : view st.os = todo.take r.lengthToRead ++ (todo.drop r.lengthToRead ++ rest) := by
        rw [← List.append_assoc, List.take_append_drop, hv]
      obtain ⟨s₁, b, s₂, ys, more, hsel, hrecv, hb, ht, hsplit, hview⟩ := hs.piece r.tv hne hv'
      rw [hxs] at hrecv
      have hblen := os.recv_length hrecv
      have htodo : todo = b ++ (ys ++ todo.drop r.lengthToRead) := by
        rw [← List.append_assoc, ← hsplit, List.take_append_drop]
      have hmsg : r.msg ++ todo = r.msg ++ b ++ (ys ++ todo.drop r.lengthToRead) := by
        rw [List.append_assoc, ← htodo]
      rcases afterRecv_spec hp hblen with ⟨r', hr', hmsg', hp'⟩ | ⟨n, hn, hlong, -⟩
      · rw [hmsg, ← hmsg'] at hm hmax
        have hpos := List.length_pos_of_ne_nil hb
        have hlen := congrArg List.length htodo
        rw [List.length_append] at hlen
        obtain ⟨m₂, hm₂⟩ := hs.front ht
        have hrest : view s₂ = (ys ++ todo.drop r.lengthToRead) ++ (rest ++ m₂) := by
          apply (List.append_right_inj b).mp
          rw [← hm₂, hv, List.append_assoc, ← List.append_assoc b, ← htodo]
        obtain ⟨s', hloop, ht'⟩ : ∃ s', receiveLoop os mt fuel { st with os := s₂ } r' =
            finish os { st with os := s' } (r'.msg ++ (ys ++ todo.drop r.lengthToRead)) ∧
            took s₂ (ys ++ todo.drop r.lengthToRead) s' :=
          ih hp' hrest hm hmax (by omega)
        refine ⟨s', ?_, ?_⟩
        · rw [receiveLoop_step hf h0 hsel hrecv hb hr', hloop, hmsg', ← hmsg]
        · rw [htodo]
          exact hs.trans ht ht'
      · -- the declared length would be the length of the message, which fits
        rw [hmsg] at hm hmax
        cases (messageLength_append hn _).symm.trans hm
        omega

/-- **Exactness of `_modbus_receive_msg`.** -/
theorem modbusReceiveMsg_of_source {os : Os σ} {view : σ → List UInt8}
    {took : σ → List UInt8 → σ → Prop} (hs : Source os view took) (hf : 0 < os.fuel)
    {msg rest : List UInt8} {st : St σ} (hc : Connected st.ctx) (hv : view st.os = msg ++ rest)
    (hm : messageLength st.ctx.backend mt msg = .ok msg.length)
    (hmax : msg.length ≤ st.ctx.backend.maxAduLength) :
    ∃ s', modbusReceiveMsg os st mt = finish os { st with os := s' } msg ∧
      took st.os msg s' := by
  have h := receiveLoop_of_source hs hf (Parsing.start st.ctx mt) hv hm hmax
    (Nat.lt_succ_of_le hmax)
  unfold modbusReceiveMsg
  rw [if_neg (not_lt.mpr hc.1), if_neg (not_le.mpr hc.2)]
  exact h

/-! ### Messages that are returned -/

theorem backendSelect_sound {os : Os σ} {took : σ → List UInt8 → σ → Prop} (ht : Tracked os took)
    {fuel : Nat} {st st' : St σ} {tv : Option Timeval} {b : Bool}
    (h : backendSelect os fuel st tv = .ok (b, st')) :
    st'.ctx = st.ctx ∧ took st.os [] st'.os := by
  induction fuel generalizing st with
  | zero => cases h
  | succ fuel ih =>
    rw [backendSelect] at h
    rcases hsel : os.select tv st.os with ⟨r, s⟩
    have hs := ht.select hsel
    rw [hsel] at h
    cases r with
    | ready =>
      cases h
      exact ⟨rfl, hs⟩
    | timeout =>
      cases h
      exact ⟨rfl, hs⟩
    | failed e =>
      simp only at h
      split_ifs at h
      · cases h
        exact ⟨rfl, hs⟩
      · -- interrupted by a signal: select is called again
        obtain ⟨hctx, ht'⟩ := ih h
        exact ⟨hctx, by simpa using ht.trans hs ht'⟩
      · cases h
        exact ⟨rfl, hs⟩

/-- **Soundness of the loop.**  Whatever the system does, a message that is not reported with
`-1` is the bytes that were read, it has the length it declares, and `rc` is what the integrity
check says of it. -/
theorem receiveLoop_sound {os : Os σ} {took : σ → List UInt8 → σ → Prop} (ht : Tracked os took)
    {fuel : Nat} {st st' : St σ} {r : RecvState} {rc : Int} {msg : List UInt8}
    (hp : Parsing st.ctx.backend mt r) (hrc : rc ≠ -1)
    (h : receiveLoop os mt fuel st r = .ok (rc, msg, st')) :
    ∃ todo e s', msg = r.msg ++ todo ∧ took st.os todo s' ∧
      messageLength st.ctx.backend mt msg = .ok msg.length ∧
      msg.length ≤ st.ctx.backend.maxAduLength ∧
      checkIntegrity os ⟨st.ctx, e, s'⟩ msg = .ok (rc, st') := by
  induction fuel generalizing st r with
  | zero => cases h
  | succ fuel ih =>
    by_cases h0 : r.lengthToRead = 0
    · -- the last boundary: what was stored declares its own length
      rw [receiveLoop_done h0] at h
      obtain ⟨⟨rc', st₁⟩, hci, h⟩ := bind_eq_ok.mp h
      cases h
      have hb := hp.boundary
      rw [hp.waiting h0, h0, Nat.add_zero] at hb
      generalize hn : r.msg.length = n at hb
      cases hb with
      | data hm hmax =>
        subst hn
        exact ⟨[], st.errno, st.os, (List.append_nil _).symm, ht.refl _, hm, hmax, hci⟩
    · rw [receiveLoop, if_neg h0] at h
      obtain ⟨⟨ready, st₁⟩, hsel, h⟩ := bind_eq_ok.mp h
      obtain ⟨hctx, ht₁⟩ := backendSelect_sound ht hsel
      cases ready with
      | false =>
        -- every way out but the boundaries returns -1
        obtain ⟨st₂, -, h⟩ := bind_eq_ok.mp h
        cases h
        exact absurd rfl hrc
      | true =>
        simp only [not_true_eq_false, if_false] at h
        rcases hrecv : os.recv r.lengthToRead st₁.os with ⟨res, s₂⟩
        rw [hrecv] at h
        cases res with
        | error e =>
          cases h
          exact absurd rfl hrc
        | ok bytes =>
          simp only at h
          split_ifs at h with hempty
          · cases h
            exact absurd rfl hrc
          · obtain ⟨res, ha, h⟩ := bind_eq_ok.mp h
            rw [hctx] at ha
            rcases afterRecv_spec hp (os.recv_length hrecv) with
              ⟨r', hr', hmsg', hp'⟩ | ⟨n, -, -, hr'⟩
            · cases hr'.symm.trans ha
              rw [← hctx] at hp'
              have hp₂ : Parsing (⟨st₁.ctx, st₁.errno, s₂⟩ : St σ).ctx.backend mt r' := hp'
              -- the bytes of this turn come before those of the others
              obtain ⟨todo, e, s', hmsg, htd, hm, hmax, hci⟩ := ih hp₂ h
              refine ⟨bytes ++ todo, e, s', ?_, ?_, ?_, ?_, ?_⟩
              · rw [hmsg, hmsg', List.append_assoc]
              · simpa using ht.trans ht₁ (ht.trans (ht.recv hrecv) htd)
              · rw [← hctx]
                exact hm
              · rw [← hctx]
                exact hmax
              · rw [← hctx]
                exact hci
            · cases hr'.symm.trans ha
              cases h
              exact absurd rfl hrc

/-- **Soundness of `_modbus_receive_msg`.** -/
theorem modbusReceiveMsg_sound {os : Os σ} {took : σ → List UInt8 → σ → Prop}
    (ht : Tracked os took) {st st' : St σ} {rc : Int} {msg : List UInt8} (hrc : rc ≠ -1)
    (h : modbusReceiveMsg os st mt = .ok (rc, msg, st')) :
    ∃ e s', took st.os msg s' ∧ messageLength st.ctx.backend mt msg = .ok msg.length ∧
      msg.length ≤ st.ctx.backend.maxAduLength ∧
      checkIntegrity os ⟨st.ctx, e, s'⟩ msg = .ok (rc, st') := by
  unfold modbusReceiveMsg at h
  split_ifs at h
  · cases h
    exact absurd rfl hrc
  · cases h
    exact absurd rfl hrc
  · obtain ⟨todo, e, s', hmsg, htd, hm, hmax, hci⟩ :=
      receiveLoop_sound ht (Parsing.start st.ctx mt) hrc h
    have hmsg' : msg = todo := hmsg
    subst hmsg'
    exact ⟨e, s', htd, hm, hmax, hci⟩

end Libmodbus
