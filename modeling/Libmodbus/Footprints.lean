/-
Libmodbus/Footprints.lean

Two requests that do not touch each other's cells.  The cells that a request
reads and writes are read off its plan; a request that is refused has none.

    p.run (q.write m)  =  p.run m,  up to the mapping it leaves

when `q` writes no cell that `p` reads or writes.  `independent_requests_commute`
carries this to `modbus_reply`: in both orders each request is answered as if it
were alone, and the mapping ends up the same.
-/
import Libmodbus.Histories

namespace Libmodbus

open CSem Wire Posix

variable {α : Type} {ver : VersionString} {m : Mapping}

/-! ### The cells of a plan -/

/-- A cell of the mapping: its table and its index there. -/
inductive CellRef
  | bits (i : Nat)
  | inputBits (i : Nat)
  | registers (i : Nat)
  | inputRegisters (i : Nat)
  deriving DecidableEq

/-- The cells whose values stand in the response. -/
def Reading.Covers : Reading → CellRef → Prop
  | .nothing, _ => False
  | .bits isInput index nb, c =>
    ∃ i : Nat, index ≤ i ∧ i < index + nb ∧ c = if isInput then .inputBits i else .bits i
  | .registers isInput index nb, c =>
    ∃ i : Nat, index ≤ i ∧ i < index + nb ∧
      c = if isInput then .inputRegisters i else .registers i

/-- The cells that are written, with the old value or a new one. -/
def Plan.Writes (p : Plan) : CellRef → Prop
  | .bits i => p.bits.Touches i
  | .registers i => p.registers.Touches i
  | .inputBits _ => False
  | .inputRegisters _ => False

/-- The cells whose values the response or another value depends on: the mask write reads the
register it changes. -/
def Plan.Reads (p : Plan) (c : CellRef) : Prop :=
  p.reading.Covers c ∨ ∃ i f, c = .registers i ∧ p.registers i = some f ∧ ∃ x y, f x ≠ f y

/-- Neither plan writes a cell that the other reads or writes. -/
structure Plan.Independent (p q : Plan) : Prop where
  left : ∀ c, p.Writes c → ¬ q.Reads c ∧ ¬ q.Writes c
  right : ∀ c, q.Writes c → ¬ p.Reads c ∧ ¬ p.Writes c

theorem Plan.Independent.symm {p q : Plan} (h : p.Independent q) : q.Independent p :=
  ⟨h.right, h.left⟩

/-- Without a reading the cells a plan depends on are among those it writes. -/
theorem Plan.Reads.writes {p : Plan} {c : CellRef} (h : p.Reads c) (hp : p.reading = .nothing) :
    p.Writes c := by
  rcases h with h | ⟨i, f, rfl, hf, -⟩
  · rw [hp] at h
    exact h.elim
  · intro hnone
    exact Option.some_ne_none f (hf.symm.trans hnone)

theorem Plan.Independent.of_writes {p q : Plan} (hp : p.reading = .nothing)
    (hq : q.reading = .nothing) (h : ∀ c, p.Writes c → ¬ q.Writes c) : p.Independent q where
  left c hc := ⟨fun hr => h c hc (hr.writes hq), h c hc⟩
  right c hc := ⟨fun hr => h c (hr.writes hp) hc, fun hw => h c hw hc⟩

/-! ### Reading outside the cells that are written -/

/-- The range of `n` cells from index `i` on has the same values in both arrays. -/
def SameRange (tab tab' : List α) (i : Int) (n : Nat) : Prop :=
  ∀ k : Nat, i ≤ k → k < i + n → tab'[k]? = tab[k]?

theorem SameRange.tail {tab tab' : List α} {i : Int} {n : Nat}
    (h : SameRange tab tab' i (n + 1)) : SameRange tab tab' (i + 1) n :=
  fun k hk hn => h k (by omega) (by omega)

theorem SameRange.cell {tab tab' : List α} {i : Int} {n : Nat}
    (h : SameRange tab tab' i (n + 1)) : cell tab' i = cell tab i := by
  unfold CSem.cell
  split_ifs with hi
  · rw [h i.toNat (by omega) (by omega)]
  · rfl

theorem ioStatusLoop_congr {tab tab' : List UInt8} {i : Int} {n shift oneByte : Nat}
    (h : SameRange tab tab' i n) :
    ioStatusLoop tab' i n shift oneByte = ioStatusLoop tab i n shift oneByte := by
  induction n generalizing i shift oneByte with
  | zero => rfl
  | succ n ih =>
    simp only [ioStatusLoop, h.cell, ih h.tail]

theorem readRegisters_congr {tab tab' : List UInt16} {i : Int} {n : Nat}
    (h : SameRange tab tab' i n) : readRegisters tab' i n = readRegisters tab i n := by
  induction n generalizing i with
  | zero => rfl
  | succ n ih =>
    simp only [readRegisters, h.cell, ih h.tail]

/-- A table that is updated outside a range. -/
theorem sameRange_update {t : Table α} {u : Update α} {i : Int} {n : Nat}
    (h : ∀ k : Nat, i ≤ k → k < i + n → ¬ u.Touches k) :
    SameRange t.tab (t.update u).tab i n :=
  fun k hk hn => Update.getElem?_apply_of_not_touches (h k hk hn)

/-- What a plan does not write is read as before. -/
theorem Reading.values_write {r : Reading} {p : Plan}
    (h : ∀ c, p.Writes c → ¬ r.Covers c) (m : Mapping) : r.values (p.write m) = r.values m := by
  cases r with
  | nothing => rfl
  | bits isInput index nb =>
    cases isInput with
    | true => rfl
    | false =>
      refine ioStatusLoop_congr (sameRange_update fun k hk hn htouch => ?_)
      exact h (.bits k) htouch ⟨k, hk, hn, rfl⟩
  | registers isInput index nb =>
    cases isInput with
    | true => rfl
    | false =>
      refine readRegisters_congr (sameRange_update fun k hk hn htouch => ?_)
      exact h (.registers k) htouch ⟨k, hk, hn, rfl⟩

/-! ### Two plans -/

theorem Table.update_comm {t : Table α} {u v : Update α}
    (h : ∀ i, u.Touches i → ¬ v.Touches i) : (t.update v).update u = (t.update u).update v :=
  Table.ext' rfl (Update.apply_comm h t.tab)

/-- The order of the writes does not matter. -/
theorem Plan.Independent.write_comm {p q : Plan} (h : p.Independent q) (m : Mapping) :
    p.write (q.write m) = q.write (p.write m) := by
  have hbits : ∀ i, p.bits.Touches i → ¬ q.bits.Touches i := fun i hi => (h.left (.bits i) hi).2
  have hregisters : ∀ i, p.registers.Touches i → ¬ q.registers.Touches i :=
    fun i hi => (h.left (.registers i) hi).2
  show ({ m with
    bits := (m.bits.update q.bits).update p.bits
    registers := (m.registers.update q.registers).update p.registers } : Mapping) = _
  rw [Table.update_comm hbits, Table.update_comm hregisters]
  rfl

/-- After the other plan has run, a plan answers as before. -/
theorem Plan.Independent.run {p q : Plan} (h : p.Independent q) (m : Mapping) :
    p.run (q.write m) =
      (p.run m).map fun reply => { reply with mapping := p.write (q.write m) } := by
  have hvalues : p.reading.values (p.write (q.write m)) = p.reading.values (p.write m) := by
    rw [h.write_comm]
    exact Reading.values_write (fun c hc hcover => (h.right c hc).1 (Or.inl hcover)) _
  show (p.reading.values (p.write (q.write m)) >>= _) = Except.map _ (_ >>= _)
  rw [hvalues]
  exact bind_map_congr fun values _ => rfl

/-! ### Two requests -/

/-- What `modbus_reply` is given, besides the mapping. -/
structure Arrival where
  be : Backend
  req : List UInt8
  reqLength : Int

/-- The plan of a request; there is nothing to do for one that is too short to be looked at. -/
def Arrival.plan (ver : VersionString) (a : Arrival) (m : Mapping) : Run Plan :=
  if a.reqLength < (a.be.headerLength + 1 : Nat) then .ok (.answer [] false)
  else planReply ver a.be a.req a.reqLength m

/-- Neither request writes a cell that the other reads or writes. -/
def Arrival.Independent (ver : VersionString) (a b : Arrival) (m : Mapping) : Prop :=
  ∀ p q, a.plan ver m = .ok p → b.plan ver m = .ok q → p.Independent q

section

variable {σ : Type} {a : Arrival} {m' m'' : Mapping} {p : Plan}

/-- A call that ends has run the plan of its request. -/
theorem Arrival.plan_of_ok {os : Os σ} {st st' : St σ} {rc : Int} (hbe : st.ctx.backend = a.be)
    (h : modbusReply os ver st a.req a.reqLength m = .ok (rc, m', st')) :
    ∃ p, a.plan ver m = .ok p ∧ m' = p.write m := by
  unfold Arrival.plan
  rw [← hbe]
  rcases modbusReply_mapping h with ⟨hshort, rfl⟩ | ⟨hlong, reply, hreply, rfl⟩
  · rw [if_pos hshort]
    exact ⟨_, rfl, (Plan.run_eq_ok (Plan.run_answer m' [] false)).1⟩
  · rw [if_neg hlong]
    obtain ⟨p, -, hp, -, -, hrun⟩ := buildReply_eq_ok hreply
    exact ⟨p, hp, (Plan.run_eq_ok hrun).1⟩

/-- The request is answered on `m'` as on `m`, and leaves `m''`. -/
structure Arrival.AnswersAlike (ver : VersionString) (a : Arrival) (m m' m'' : Mapping) :
    Prop where
  call : ∀ {τ : Type} (os : Os τ) (st : St τ), st.ctx.backend = a.be →
    modbusReply os ver st a.req a.reqLength m' =
      (modbusReply os ver st a.req a.reqLength m).map fun r => (r.1, m'', r.2.2)
  frame : ∀ ctx : Modbus, ctx.backend = a.be →
    replyFrame ver ctx a.req a.reqLength m' = replyFrame ver ctx a.req a.reqLength m

theorem Arrival.answersAlike (hp : a.plan ver m = .ok p) (hsame : SameTables m m')
    (hrun : p.run m' = (p.run m).map fun reply => { reply with mapping := m'' }) :
    a.AnswersAlike ver m m' m'' := by
  unfold Arrival.plan at hp
  split_ifs at hp with hshort
  · -- too short: the mapping is not touched
    cases hp
    rw [Plan.run_answer, Plan.run_answer] at hrun
    have hm : m' = m'' := congrArg Reply.mapping (Except.ok.inj hrun)
    refine ⟨fun os st hbe => ?_, fun ctx hbe => ?_⟩
    · rw [← hbe] at hshort
      rw [modbusReply, modbusReply, if_pos hshort, if_pos hshort, hm]
      rfl
    · rw [← hbe] at hshort
      rw [replyFrame, replyFrame, if_pos hshort, if_pos hshort]
  · have hreply : buildReply ver a.be a.req a.reqLength m' =
        (buildReply ver a.be a.req a.reqLength m).map
          fun reply => { reply with mapping := m'' } := by
      rw [buildReply_plan, buildReply_plan, planReply_congr ver a.be a.req a.reqLength hsame, hp,
        ok_bind, ok_bind, hrun]
    refine ⟨fun {τ} os st hbe => ?_, fun ctx hbe => ?_⟩
    · rw [← hbe] at hshort hreply
      rw [modbusReply_eq, modbusReply_eq, if_neg hshort, if_neg hshort, hreply]
      refine bind_map_congr fun slave _ => ?_
      cases buildReply ver st.ctx.backend a.req a.reqLength m with
      | error e => rfl
      | ok reply =>
        have htail : ∀ st₁ : St τ, sendReply os slave { reply with mapping := m'' } st₁ =
            (sendReply os slave reply st₁).map fun r => (r.1, m'', r.2.2) := fun st₁ =>
          ite_map_congr (fun _ => rfl) fun _ => bind_map_congr fun _ _ => rfl
        exact ite_map_congr (fun _ => bind_map_congr fun st₁ _ => htail st₁) fun _ => htail st
    · rw [← hbe] at hshort hreply
      rw [replyFrame, replyFrame, if_neg hshort, if_neg hshort, hreply]
      cases rd a.req (ctx.backend.headerLength - 1) with
      | error e => rfl
      | ok slave =>
        cases buildReply ver ctx.backend a.req a.reqLength m with
        | error e => rfl
        | ok reply => rfl

/-- **Independent requests commute.**  Two requests, in contexts of their own or in the same one,
neither of which writes a cell that the other reads or writes: after the other, each is answered
as without it, in every state of every system, and the mapping ends up the same in both
orders. -/
theorem independent_requests_commute {a b : Arrival} (hind : a.Independent ver b m)
    {τ : Type} {osA : Os σ} {osB : Os τ} {stA stA' : St σ} {stB stB' : St τ}
    (hA : stA.ctx.backend = a.be) (hB : stB.ctx.backend = b.be) {rcA rcB : Int}
    {mA mB : Mapping}
    (ha : modbusReply osA ver stA a.req a.reqLength m = .ok (rcA, mA, stA'))
    (hb : modbusReply osB ver stB b.req b.reqLength m = .ok (rcB, mB, stB')) :
    ∃ m'', a.AnswersAlike ver m mB m'' ∧ b.AnswersAlike ver m mA m'' := by
  obtain ⟨p, hp, rfl⟩ := Arrival.plan_of_ok hA ha
  obtain ⟨q, hq, rfl⟩ := Arrival.plan_of_ok hB hb
  have h := hind p q hp hq
  refine ⟨p.write (q.write m), ?_, ?_⟩
  · exact Arrival.answersAlike hp (q.sameTables_write m) (h.run m)
  · refine Arrival.answersAlike hq (p.sameTables_write m) ?_
    rw [h.write_comm]
    exact h.symm.run m

end

/-! ### Two requests from different clients -/

/-- A mask write of the register 101, on TCP. -/
def maskArrival : Arrival := ⟨.tcp, [0, 7, 0, 0, 0, 8, 17, 0x16, 0, 101, 0, 0xF2, 0, 0x25], 14⟩

/-- A write of the register 102, on RTU. -/
def writeArrival : Arrival := ⟨.rtu, [17, 0x06, 0, 102, 1, 2, 0, 0], 8⟩

theorem independent_sample :
    maskArrival.Independent ⟨[], by decide⟩ writeArrival sampleMapping := by
  have hmask : maskArrival.plan ⟨[], by decide⟩ sampleMapping =
      .ok ⟨_, _, .none, .single 1 _, .nothing⟩ := rfl
  have hwrite : writeArrival.plan ⟨[], by decide⟩ sampleMapping =
      .ok ⟨_, _, .none, .put 2 [258], .nothing⟩ := rfl
  intro p q hp hq
  obtain rfl := Except.ok.inj (hmask.symm.trans hp)
  obtain rfl := Except.ok.inj (hwrite.symm.trans hq)
  -- neither reads a cell for its response, so it is enough that they write different ones
  refine Plan.Independent.of_writes rfl rfl fun c hc hc' => ?_
  cases c with
  | bits i => exact hc rfl
  | inputBits i => exact hc
  | inputRegisters i => exact hc
  | registers i =>
    have hi : i = 1 := Update.touches_single.mp hc
    have hle : 2 ≤ i := (Update.touches_put.mp hc').1
    omega

theorem independent_requests_commute_sample :
    ∃ mA mB m'', maskArrival.AnswersAlike ⟨[], by decide⟩ sampleMapping mB m'' ∧
      writeArrival.AnswersAlike ⟨[], by decide⟩ sampleMapping mA m'' := by
  obtain ⟨rcA, mA, stA', ha⟩ : ∃ rc m' st', modbusReply (linkOs 1) ⟨[], by decide⟩
      (sampleSt .tcp 255 []) maskArrival.req maskArrival.reqLength sampleMapping =
        .ok (rc, m', st') := ⟨_, _, _, rfl⟩
  obtain ⟨rcB, mB, stB', hb⟩ : ∃ rc m' st', modbusReply (linkOs 1) ⟨[], by decide⟩
      (sampleSt .rtu 17 []) writeArrival.req writeArrival.reqLength sampleMapping =
        .ok (rc, m', st') := ⟨_, _, _, rfl⟩
  have hA : (sampleSt .tcp 255 []).ctx.backend = maskArrival.be := rfl
  have hB : (sampleSt .rtu 17 []).ctx.backend = writeArrival.be := rfl
  obtain ⟨m'', h⟩ := independent_requests_commute independent_sample hA hB ha hb
  exact ⟨mA, mB, m'', h⟩

end Libmodbus
