/-
Libmodbus/Histories.lean

A server over many requests.  Both results rest on the plans of the requests:
a plan writes bits to bit tables, it writes the same when it runs again, and a
request that is answered with an exception has a plan that writes nothing.

* `server_state_invariant` holds after every finite sequence of calls of
  `modbus_reply`, whatever the requests.
* `duplicate_harmless`: a request that is processed twice in a row is answered
  with the same frame, and the second time changes nothing.
-/
import Libmodbus.Memory
import Libmodbus.Plans
import Libmodbus.Traces

namespace Libmodbus

open CSem Wire Posix

variable {σ : Type} {ver : VersionString} {be : Backend} {req : List UInt8} {reqLength : Int}
  {m m' : Mapping}

/-! ### Plans that run again -/

theorem Table.update_update {α : Type} {t : Table α} {u : Update α}
    (h : ∀ i f, u i = some f → ∀ x, f (f x) = f x) : (t.update u).update u = t.update u :=
  Table.ext' rfl (Update.apply_apply h t.tab)

theorem Plan.Sound.write_write {function : UInt8} {p : Plan} (h : p.Sound be function)
    (m : Mapping) : p.write (p.write m) = p.write m := by
  show ({ m with
    bits := (m.bits.update p.bits).update p.bits
    registers := (m.registers.update p.registers).update p.registers } : Mapping) = _
  rw [Table.update_update h.bitsIdempotent, Table.update_update h.registersIdempotent]
  rfl

/-- What a plan leaves behind. -/
theorem Plan.run_eq_ok {p : Plan} {reply : Reply} (h : p.run m = .ok reply) :
    reply.mapping = p.write m ∧ ∃ values, p.reading.values (p.write m) = .ok values ∧
      reply = ⟨p.rsp ++ values, p.flush, p.write m⟩ := by
  obtain ⟨values, hvalues, h⟩ := bind_eq_ok.mp h
  cases h
  exact ⟨rfl, values, hvalues, rfl⟩

/-- A reply is the run of a sound plan. -/
theorem buildReply_eq_ok {reply : Reply} (h : buildReply ver be req reqLength m = .ok reply) :
    ∃ p function, planReply ver be req reqLength m = .ok p ∧
      rd req be.headerLength = .ok function ∧ p.Sound be function ∧ p.run m = .ok reply := by
  rw [buildReply_plan] at h
  obtain ⟨p, hp, hrun⟩ := bind_eq_ok.mp h
  obtain ⟨function, hf, hsound⟩ := planReply_sound hp
  exact ⟨p, function, hp, hf, hsound, hrun⟩

/-- The same request on the mapping it has left behind. -/
theorem buildReply_again {reply : Reply} (h : buildReply ver be req reqLength m = .ok reply) :
    buildReply ver be req reqLength reply.mapping = .ok reply := by
  obtain ⟨p, function, hp, -, hsound, hrun⟩ := buildReply_eq_ok h
  obtain ⟨hm, values, hvalues, rfl⟩ := Plan.run_eq_ok hrun
  show buildReply ver be req reqLength (p.write m) = _
  rw [buildReply_plan, planReply_congr ver be req reqLength (p.sameTables_write m), hp, ok_bind,
    Plan.run, hsound.write_write, hvalues, ok_bind]

/-- What `modbus_reply` leaves behind. -/
theorem modbusReply_mapping {os : Os σ} {st st' : St σ} {rc : Int}
    (h : modbusReply os ver st req reqLength m = .ok (rc, m', st')) :
    (reqLength < (st.ctx.backend.headerLength + 1 : Nat) ∧ m' = m) ∨
      (¬ reqLength < (st.ctx.backend.headerLength + 1 : Nat) ∧
        ∃ reply, buildReply ver st.ctx.backend req reqLength m = .ok reply ∧
          m' = reply.mapping) := by
  rw [modbusReply_eq] at h
  split_ifs at h with hshort
  · cases h
    exact Or.inl ⟨hshort, rfl⟩
  · obtain ⟨slave, -, h⟩ := bind_eq_ok.mp h
    obtain ⟨reply, hreply, h⟩ := bind_eq_ok.mp h
    refine Or.inr ⟨hshort, reply, hreply, ?_⟩
    have hlast : ∀ st₁ : St σ, sendReply os slave reply st₁ = .ok (rc, m', st') →
        m' = reply.mapping := by
      intro st₁ h
      unfold sendReply at h
      split_ifs at h
      · cases h
        rfl
      · obtain ⟨r, -, h⟩ := bind_eq_ok.mp h
        cases h
        rfl
    split_ifs at h with hflush
    · obtain ⟨st₁, -, h⟩ := bind_eq_ok.mp h
      exact hlast st₁ h
    · exact hlast st h

/-! ### Duplicates -/

/-- On two mappings that answer alike and are left alike, `modbus_reply` does the same. -/
theorem modbusReply_congr (os : Os σ) (st : St σ)
    (h : buildReply ver st.ctx.backend req reqLength m' =
      buildReply ver st.ctx.backend req reqLength m)
    (hlong : ¬ reqLength < (st.ctx.backend.headerLength + 1 : Nat)) :
    modbusReply os ver st req reqLength m' = modbusReply os ver st req reqLength m := by
  unfold modbusReply
  rw [if_neg hlong, if_neg hlong, h]

/-- **Duplicate delivery is harmless.**  After a request has been processed, processing it again
is, in every state of every system, what processing it the first time would have been there.  So
when it is processed again at once the mapping stays, and the frame is sent that was sent
before. -/
theorem duplicate_harmless {os : Os σ} {st st₁ : St (Recorded σ)} {rc : Int}
    (h : modbusReply (recordOs os) ver st req reqLength m = .ok (rc, m', st₁)) :
    (∀ {τ : Type} (os' : Os τ) (st' : St τ), st'.ctx.backend = st.ctx.backend →
      modbusReply os' ver st' req reqLength m' = modbusReply os' ver st' req reqLength m) ∧
    ∀ rc₂ m'' st₂, modbusReply (recordOs os) ver st₁ req reqLength m' = .ok (rc₂, m'', st₂) →
      m'' = m' ∧ ∃ frame, Sends st.ctx frame st.os st₁.os ∧ Sends st.ctx frame st₁.os st₂.os := by
  -- the handlers do the same on the mapping they leave
  have hsame : ∀ {τ : Type} (os' : Os τ) (st' : St τ), st'.ctx.backend = st.ctx.backend →
      modbusReply os' ver st' req reqLength m' = modbusReply os' ver st' req reqLength m := by
    intro τ os' st' hbe
    rcases modbusReply_mapping h with ⟨-, rfl⟩ | ⟨hlong, reply, hreply, rfl⟩
    · rfl
    · refine modbusReply_congr os' st' ?_ (by rw [hbe]; exact hlong)
      rw [hbe, buildReply_again hreply, hreply]
  have hmoved := (modbusReply_moved (recordOs_adds os fun _ => True) fun _ _ => trivial).result h
  obtain ⟨⟨s, hctx⟩, -⟩ := hmoved
  have hctx : st₁.ctx = { st.ctx with s := s } := hctx
  have hbe : st₁.ctx.backend = st.ctx.backend := by rw [hctx]
  refine ⟨hsame, fun rc₂ m'' st₂ h₂ => ?_⟩
  have h₂' : modbusReply (recordOs os) ver st₁ req reqLength m = .ok (rc₂, m'', st₂) :=
    (hsame (recordOs os) st₁ hbe).symm.trans h₂
  constructor
  · rcases modbusReply_mapping h with ⟨hshort, rfl⟩ | ⟨hlong, reply, hreply, rfl⟩
    · rcases modbusReply_mapping h₂' with ⟨-, h'⟩ | ⟨hlong, -⟩
      · exact h'
      · exact absurd hshort (by rw [← hbe]; exact hlong)
    · rcases modbusReply_mapping h₂' with ⟨hshort, -⟩ | ⟨-, reply', hreply', rfl⟩
      · exact absurd (by rw [← hbe]; exact hshort) hlong
      · rw [hbe, hreply] at hreply'
        cases hreply'
        rfl
  · -- the two frames are computed from the same request and context
    obtain ⟨frame, hframe, hsends⟩ :=
      (modbusReply_sends os ver st req reqLength m).result h
    obtain ⟨frame', hframe', hsends'⟩ :=
      (modbusReply_sends os ver st₁ req reqLength m).result h₂'
    have hctx' : replyFrame ver st₁.ctx req reqLength m =
        replyFrame ver st.ctx req reqLength m := by
      rw [hctx]
      rfl
    rw [hctx', hframe] at hframe'
    cases hframe'
    refine ⟨frame, hsends, ?_⟩
    rw [hctx] at hsends'
    cases frame with
    | none => exact hsends'
    | some frame => exact hsends'

/-- A mask write, which reads and writes the same register. -/
theorem duplicate_harmless_sample :
    ∃ rc m' st₁, modbusReply (recordOs (linkOs 1)) ⟨[], by decide⟩ (recordedSt .tcp 255)
        [0, 7, 0, 0, 0, 8, 17, 0x16, 0, 101, 0, 0xF2, 0, 0x25] 14 sampleMapping =
          .ok (rc, m', st₁) ∧
      ∀ rc₂ m'' st₂, modbusReply (recordOs (linkOs 1)) ⟨[], by decide⟩ st₁
          [0, 7, 0, 0, 0, 8, 17, 0x16, 0, 101, 0, 0xF2, 0, 0x25] 14 m' = .ok (rc₂, m'', st₂) →
        m'' = m' ∧ ∃ frame, Sends (recordedSt .tcp 255).ctx frame (recordedSt .tcp 255).os st₁.os ∧
          Sends (recordedSt .tcp 255).ctx frame st₁.os st₂.os := by
  obtain ⟨rc, m', st₁, h⟩ : ∃ rc m' st₁, modbusReply (recordOs (linkOs 1)) ⟨[], by decide⟩
      (recordedSt .tcp 255) [0, 7, 0, 0, 0, 8, 17, 0x16, 0, 101, 0, 0xF2, 0, 0x25] 14
      sampleMapping = .ok (rc, m', st₁) := ⟨_, _, _, rfl⟩
  exact ⟨rc, m', st₁, h, (duplicate_harmless h).2⟩

/-! ### Histories -/

/-- A call of `modbus_reply`: the context and the system are in any state. -/
structure ReplyCall (σ : Type) where
  st : St σ
  req : List UInt8
  reqLength : Int

/-- What a call returns, and the mapping it leaves. -/
def ReplyCall.step (os : Os σ) (ver : VersionString) (c : ReplyCall σ) (m : Mapping) :
    Run (Int × Mapping) := do
  let (rc, m, _) ← modbusReply os ver c.st c.req c.reqLength m
  .ok (rc, m)

/-- The call returns before there is a reply, or its reply is an exception. -/
def ReplyCall.Refused (ver : VersionString) (c : ReplyCall σ) (m : Mapping) : Prop :=
  c.reqLength < (c.st.ctx.backend.headerLength + 1 : Nat) ∨
    ∃ function reply, rd c.req c.st.ctx.backend.headerLength = .ok function ∧
      buildReply ver c.st.ctx.backend c.req c.reqLength m = .ok reply ∧
      rd reply.rsp c.st.ctx.backend.headerLength = .ok (function + 0x80)

/-- What every call keeps. -/
structure Kept (m₀ m : Mapping) : Prop where
  tables : SameTables m₀ m
  bits : m.bits.BitsOnly
  inputBits : m.inputBits = m₀.inputBits
  inputRegisters : m.inputRegisters = m₀.inputRegisters

theorem SameTables.trans {m₀ m₁ m₂ : Mapping} (h : SameTables m₀ m₁) (h' : SameTables m₁ m₂) :
    SameTables m₀ m₂ :=
  ⟨⟨h'.bits.1.trans h.bits.1, h'.bits.2.trans h.bits.2⟩,
    ⟨h'.inputBits.1.trans h.inputBits.1, h'.inputBits.2.trans h.inputBits.2⟩,
    ⟨h'.registers.1.trans h.registers.1, h'.registers.2.trans h.registers.2⟩,
    ⟨h'.inputRegisters.1.trans h.inputRegisters.1, h'.inputRegisters.2.trans h.inputRegisters.2⟩⟩

theorem Kept.write {m₀ : Mapping} {function : UInt8} {p : Plan} (h : Kept m₀ m)
    (hp : p.Sound be function) : Kept m₀ (p.write m) where
  tables := h.tables.trans (p.sameTables_write m)
  bits := Update.forall_apply (fun i f hf x _ => hp.bits i f hf x) h.bits
  inputBits := h.inputBits
  inputRegisters := h.inputRegisters

/-- What a call does to the mapping. -/
theorem ReplyCall.step_mapping {os : Os σ} {c : ReplyCall σ} {rc : Int}
    (h : c.step os ver m = .ok (rc, m')) :
    (c.reqLength < (c.st.ctx.backend.headerLength + 1 : Nat) ∧ m' = m) ∨
      ∃ reply, buildReply ver c.st.ctx.backend c.req c.reqLength m = .ok reply ∧
        m' = reply.mapping := by
  obtain ⟨⟨rc', m₁, st'⟩, hreply, h⟩ := bind_eq_ok.mp h
  cases h
  rcases modbusReply_mapping hreply with h | ⟨-, h⟩
  · exact Or.inl h
  · exact Or.inr h

theorem ReplyCall.step_kept {os : Os σ} {c : ReplyCall σ} {m₀ : Mapping} {rc : Int}
    (hm : Kept m₀ m) (h : c.step os ver m = .ok (rc, m')) : Kept m₀ m' := by
  rcases ReplyCall.step_mapping h with ⟨-, rfl⟩ | ⟨reply, hreply, rfl⟩
  · exact hm
  · obtain ⟨p, function, -, -, hsound, hrun⟩ := buildReply_eq_ok hreply
    rw [(Plan.run_eq_ok hrun).1]
    exact hm.write hsound

/-- A call that is refused changes nothing. -/
theorem ReplyCall.refused_unchanged {os : Os σ} {c : ReplyCall σ} {rc : Int}
    (hc : c.Refused ver m) (h : c.step os ver m = .ok (rc, m')) : m' = m := by
  rcases ReplyCall.step_mapping h with ⟨-, h'⟩ | ⟨reply, hreply, rfl⟩
  · exact h'
  rcases hc with hshort | ⟨function, reply', hf, hreply', hexc⟩
  · obtain ⟨⟨rc', m₁, st'⟩, h, hm⟩ := bind_eq_ok.mp h
    rw [modbusReply, if_pos hshort] at h
    cases h
    exact (Prod.mk.inj (Except.ok.inj hm)).2.symm
  · cases hreply.symm.trans hreply'
    obtain ⟨p, function', -, hf', hsound, hrun⟩ := buildReply_eq_ok hreply
    cases hf.symm.trans hf'
    obtain ⟨-, values, -, rfl⟩ := Plan.run_eq_ok hrun
    rcases hsound.function with ⟨hb, hr⟩ | hrsp
    · show p.write m = m
      rw [Plan.write, hb, hr, Table.update_none, Table.update_none]
    · -- the reply to a request that writes shows its own function code
      have hsame := Except.ok.inj ((rd_append_ok hrsp values).symm.trans hexc)
      exact absurd (UInt8.left_eq_add.mp hsame) (by decide)

theorem kept_new {startBits nbBits startInputBits nbInputBits startRegisters nbRegisters
    startInputRegisters nbInputRegisters : UInt32} {m₀ : Mapping}
    (h : modbusMappingNewStartAddress startBits nbBits startInputBits nbInputBits startRegisters
      nbRegisters startInputRegisters nbInputRegisters = .ok m₀) : Kept m₀ m₀ := by
  unfold modbusMappingNewStartAddress at h
  split at h
  · cases h
    refine ⟨⟨⟨rfl, rfl⟩, ⟨rfl, rfl⟩, ⟨rfl, rfl⟩, ⟨rfl, rfl⟩⟩, ?_, rfl, rfl⟩
    intro v hv
    exact Or.inl (List.eq_of_mem_replicate hv)
  · cases h

/-- **What no request can break.**  After any finite sequence of calls, on a mapping that the
constructor has returned, the coils hold bits, the input tables are as they were, no table has
moved or changed its size, and a further call that is refused changes nothing. -/
theorem server_state_invariant {startBits nbBits startInputBits nbInputBits startRegisters
    nbRegisters startInputRegisters nbInputRegisters : UInt32} {m₀ : Mapping}
    (hnew : modbusMappingNewStartAddress startBits nbBits startInputBits nbInputBits
      startRegisters nbRegisters startInputRegisters nbInputRegisters = .ok m₀)
    {os : Os σ} {calls : List (ReplyCall σ)} {rcs : List Int}
    (h : runs (ReplyCall.step os ver) calls m₀ = .ok (rcs, m)) :
    Kept m₀ m ∧ ∀ (c : ReplyCall σ) (rc : Int) (m' : Mapping), c.Refused ver m →
      c.step os ver m = .ok (rc, m') → m' = m := by
  have hstep : ∀ {c : ReplyCall σ} {m m' : Mapping} {rc : Int}, Kept m₀ m →
      c.step os ver m = .ok (rc, m') → True ∧ Kept m₀ m' :=
    fun hm h => ⟨trivial, ReplyCall.step_kept hm h⟩
  obtain ⟨-, hkept⟩ := runs_inv (P := fun _ _ => True) hstep (kept_new hnew) h
  exact ⟨hkept, fun c rc m' hc h => ReplyCall.refused_unchanged hc h⟩

/-- A coil is written, and then a read is refused. -/
def sampleCalls : List (ReplyCall Link) :=
  [⟨sampleSt .tcp 255 [], [0, 7, 0, 0, 0, 6, 17, 0x05, 0, 1, 0xFF, 0], 12⟩,
    ⟨sampleSt .rtu 17 [], [17, 0x03, 0, 0, 0, 0, 0, 0], 8⟩]

theorem server_state_invariant_sample :
    ∃ rcs m, runs (ReplyCall.step (linkOs 1) ⟨[], by decide⟩) sampleCalls sampleMapping =
        .ok (rcs, m) ∧
      Kept sampleMapping m ∧ ∀ (c : ReplyCall Link) (rc : Int) (m' : Mapping),
        c.Refused ⟨[], by decide⟩ m → c.step (linkOs 1) ⟨[], by decide⟩ m = .ok (rc, m') →
          m' = m := by
  obtain ⟨rcs, m, h⟩ : ∃ rcs m, runs (ReplyCall.step (linkOs 1) ⟨[], by decide⟩) sampleCalls
      sampleMapping = .ok (rcs, m) := ⟨_, _, rfl⟩
  have hnew : modbusMappingNewStartAddress 0 4 0 0 100 10 0 0 = .ok sampleMapping := rfl
  exact ⟨rcs, m, h, server_state_invariant hnew h⟩

end Libmodbus
