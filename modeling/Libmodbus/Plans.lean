/-
Libmodbus/Plans.lean

`modbus_reply` in two parts.  What a request does to the tables is decided by
its fields, the start addresses and the sizes of the tables, never by what the
cells hold: this part is the `Plan` of a request.  Running a plan updates the
tables, reads the cells the response asks for, and puts their values behind the
header.

    buildReply ver be req n m  =  planReply ver be req n m >>= fun p => p.run m

`buildReply_plan` is this equation, for all requests and mappings, also when the
run stops.  A plan says which cells it touches, so statements about two requests
become statements about two plans.
-/
import Libmodbus.Lib.Updates
import Libmodbus.Lengths
import Libmodbus.Ranges

namespace Libmodbus

open CSem Wire Posix

variable {α : Type}

/-! ### Plans -/

def Table.update (t : Table α) (u : Update α) : Table α :=
  { t with tab := u.apply t.tab, nb_le := (u.length_apply t.tab).symm ▸ t.nb_le }

@[simp] theorem Table.update_none (t : Table α) : t.update .none = t :=
  Table.ext' rfl (Update.apply_none t.tab)

/-- The cells whose values stand at the end of the response. -/
inductive Reading
  | nothing
  | bits (isInput : Bool) (index : Int) (nb : Nat)
  | registers (isInput : Bool) (index : Int) (nb : Nat)
  deriving DecidableEq

def Reading.values (m : Mapping) : Reading → Run (List UInt8)
  | .nothing => .ok []
  | .bits isInput index nb =>
    responseIoStatus (if isInput then m.inputBits else m.bits).tab index nb
  | .registers isInput index nb =>
    readRegisters (if isInput then m.inputRegisters else m.registers).tab index nb

/-- What a request does: two tables can be written, then cells are read. -/
structure Plan where
  /-- The response, up to the values that are read. -/
  rsp : List UInt8
  flush : Bool
  bits : Update UInt8
  registers : Update UInt16
  reading : Reading

def Plan.write (p : Plan) (m : Mapping) : Mapping :=
  { m with bits := m.bits.update p.bits, registers := m.registers.update p.registers }

def Plan.run (m : Mapping) (p : Plan) : Run Reply := do
  let values ← p.reading.values (p.write m)
  .ok ⟨p.rsp ++ values, p.flush, p.write m⟩

/-- An answer that touches nothing. -/
def Plan.answer (rsp : List UInt8) (flush : Bool) : Plan := ⟨rsp, flush, .none, .none, .nothing⟩

@[simp] theorem Plan.run_answer (m : Mapping) (rsp : List UInt8) (flush : Bool) :
    (Plan.answer rsp flush).run m = .ok ⟨rsp, flush, m⟩ := by
  show Except.ok (⟨rsp ++ [], flush, (Plan.answer rsp flush).write m⟩ : Reply) = _
  have hwrite : (Plan.answer rsp flush).write m = m := by
    simp only [Plan.write, Plan.answer, Table.update_none]
  rw [hwrite, List.append_nil]

/-- `response_exception` -/
def planException (be : Backend) (sft : Sft) (exceptionCode : Nat) (toFlush : Bool) : Plan :=
  .answer (buildResponseBasis be { sft with function := sft.function + 0x80 } ++ [lo exceptionCode])
    toFlush

theorem responseException_plan (be : Backend) (sft : Sft) (code : Nat) (toFlush : Bool)
    (m : Mapping) : Except.ok (responseException be sft code toFlush m) =
      (Except.ok (planException be sft code toFlush) : Run Plan) >>= Plan.run m :=
  (Plan.run_answer m _ toFlush).symm

/-! ### Values of the request -/

/-- The bits that `modbus_set_bits_from_bytes` stores, from bit `k` on. -/
def requestBits (tabByte : List UInt8) (pos : Nat) : Nat → Nat → Run (List UInt8)
  | _, 0 => .ok []
  | k, n + 1 => do
    let b ← rd tabByte (pos + k / 8)
    let rest ← requestBits tabByte pos (k + 1) n
    .ok ((if b.toNat &&& (1 <<< (k % 8)) ≠ 0 then 1 else 0) :: rest)

/-- The registers at `req[j]`. -/
def requestRegisters (req : List UInt8) : Nat → Nat → Run (List UInt16)
  | _, 0 => .ok []
  | j, n + 1 => do
    let h ← rd req j
    let l ← rd req (j + 1)
    let rest ← requestRegisters req (j + 2) n
    .ok (UInt16.ofNat (word h l) :: rest)

theorem length_requestBits {tabByte vs : List UInt8} {pos k n : Nat}
    (h : requestBits tabByte pos k n = .ok vs) : vs.length = n := by
  induction n generalizing k vs with
  | zero =>
    cases h
    rfl
  | succ n ih =>
    obtain ⟨b, -, h⟩ := bind_eq_ok.mp h
    obtain ⟨rest, hrest, h⟩ := bind_eq_ok.mp h
    cases h
    exact congrArg (· + 1) (ih hrest)

theorem length_requestRegisters {req : List UInt8} {vs : List UInt16} {j n : Nat}
    (h : requestRegisters req j n = .ok vs) : vs.length = n := by
  induction n generalizing j vs with
  | zero =>
    cases h
    rfl
  | succ n ih =>
    obtain ⟨hb, -, h⟩ := bind_eq_ok.mp h
    obtain ⟨lb, -, h⟩ := bind_eq_ok.mp h
    obtain ⟨rest, hrest, h⟩ := bind_eq_ok.mp h
    cases h
    exact congrArg (· + 1) (ih hrest)

/-- Only 0 and 1 are stored. -/
theorem bit_of_requestBits {tabByte vs : List UInt8} {pos k n : Nat}
    (h : requestBits tabByte pos k n = .ok vs) : ∀ v ∈ vs, v = 0 ∨ v = 1 := by
  induction n generalizing k vs with
  | zero =>
    cases h
    exact List.forall_mem_nil _
  | succ n ih =>
    obtain ⟨b, -, h⟩ := bind_eq_ok.mp h
    obtain ⟨rest, hrest, h⟩ := bind_eq_ok.mp h
    cases h
    refine List.forall_mem_cons.mpr ⟨?_, ih hrest⟩
    split_ifs
    · exact Or.inr rfl
    · exact Or.inl rfl

/-- Storing bits in a loop is reading them and then writing them. -/
theorem setBitsLoop_eq {tabByte dest : List UInt8} {pos idx k n : Nat}
    (h : idx + k + n ≤ dest.length) :
    setBitsLoop tabByte pos dest idx k n =
      (requestBits tabByte pos k n).map (splice dest (idx + k)) := by
  induction n generalizing dest k with
  | zero => exact congrArg Except.ok (splice_nil dest (idx + k)).symm
  | succ n ih =>
    refine bind_map_congr fun b _ => ?_
    generalize (if b.toNat &&& (1 <<< (k % 8)) ≠ 0 then (1 : UInt8) else 0) = v
    show (setCell dest ((idx : Int) + (k : Nat)) v >>= fun dest =>
      setBitsLoop tabByte pos dest idx (k + 1) n) = _
    rw [← Int.natCast_add, setCell_of_lt (by omega), ok_bind,
      ih (by rw [List.length_set]; omega)]
    cases hvs : requestBits tabByte pos (k + 1) n with
    | error e => rfl
    | ok vs =>
      have hlen : vs.length = n := length_requestBits hvs
      exact congrArg Except.ok (splice_set (by omega) v)

/-- Writing registers in a loop is reading them and then writing them. -/
theorem writeRegisters_eq {req : List UInt8} {tab : List UInt16} {k j n : Nat}
    (h : k + n ≤ tab.length) :
    writeRegisters req tab k j n = (requestRegisters req j n).map (splice tab k) := by
  induction n generalizing tab k j with
  | zero => exact congrArg Except.ok (splice_nil tab k).symm
  | succ n ih =>
    show (rd req j >>= fun hb => rd req (j + 1) >>= fun lb =>
      setCell tab k (UInt16.ofNat (word hb lb)) >>= fun tab =>
        writeRegisters req tab ((k : Int) + 1) (j + 2) n) = Except.map (splice tab k) _
    refine bind_map_congr fun hb _ => bind_map_congr fun lb _ => ?_
    have hfit : k + 1 + n ≤ (tab.set k (UInt16.ofNat (word hb lb))).length := by
      rw [List.length_set]
      omega
    have hstep : writeRegisters req (tab.set k (UInt16.ofNat (word hb lb))) ((k : Int) + 1) (j + 2)
        n = (requestRegisters req (j + 2) n).map (splice (tab.set k _) (k + 1)) := ih hfit
    rw [setCell_of_lt (by omega), ok_bind, hstep]
    cases hvs : requestRegisters req (j + 2) n with
    | error e => rfl
    | ok vs =>
      have hlen : vs.length = n := length_requestRegisters hvs
      exact congrArg Except.ok (splice_set (by omega) _)

/-! ### Tables are updated -/

section Tables

variable {t : Table α} {k : Nat}

theorem Table.modify_put {f : List α → Run (List α)} {x : Run (List α)}
    (hf : ∀ {xs ys}, f xs = .ok ys → ys.length = xs.length) (h : f t.tab = x.map (splice t.tab k))
    (hx : ∀ vs, x = .ok vs → k + vs.length ≤ t.tab.length) :
    t.modify f hf = x.map fun vs => t.update (.put k vs) := by
  cases x with
  | error e =>
    unfold Table.modify
    split
    next tab htab => cases htab.symm.trans h
    next e' he => exact congrArg Except.error (Except.error.inj (he.symm.trans h))
  | ok vs =>
    have hput : f t.tab = .ok ((Update.put k vs).apply t.tab) := by
      rw [Update.apply_put (hx vs rfl)]
      exact h
    exact Table.modify_of_ok hf hput

theorem Table.modify_setCell (h : k < t.tab.length) (v : α) :
    t.modify (fun tab => setCell tab k v) length_of_setCell = .ok (t.update (.put k [v])) := by
  have hput : setCell t.tab k v = .ok ((Update.put k [v]).apply t.tab) := by
    rw [Update.apply_put (Nat.succ_le_of_lt h), setCell_one h]
  exact Table.modify_of_ok length_of_setCell hput

/-- A cell that is read and written back. -/
theorem Table.modify_single (h : k < t.tab.length) (f : α → α) :
    (cell t.tab k >>= fun data => t.modify (fun tab => setCell tab k (f data)) length_of_setCell) =
      .ok (t.update (.single k f)) := by
  have hput : setCell t.tab k (f t.tab[k]) = .ok ((Update.single k f).apply t.tab) := by
    rw [Update.apply_single (List.getElem?_eq_getElem h), setCell_of_lt h]
  rw [cell_of_lt h, ok_bind]
  exact Table.modify_of_ok length_of_setCell hput

end Tables

/-- A range that passes the guard lies in the table. -/
theorem rangeOutside_false {mappingAddress : Int} {nb size : Nat}
    (h : rangeOutside mappingAddress nb size = .ok false) :
    ∃ k : Nat, mappingAddress = k ∧ k + nb ≤ size := by
  unfold rangeOutside at h
  split_ifs at h with hneg
  · cases h
  · obtain ⟨last, hlast, h⟩ := bind_eq_ok.mp h
    obtain ⟨-, rfl⟩ := cint_eq_ok.mp hlast
    have hle := of_decide_eq_false (Except.ok.inj h)
    obtain ⟨k, rfl⟩ := Int.eq_ofNat_of_zero_le (Int.not_lt.mp hneg)
    exact ⟨k, rfl, by omega⟩

/-! ### The plans of the cases -/

section Handlers

variable (be : Backend) (sft : Sft) (req : List UInt8) (reqLength : Int) (address : Nat)
  (m : Mapping)

def planReadBits (isInput : Bool) : Run Plan := do
  let t := if isInput then m.inputBits else m.bits
  let nb ← rdWord req (be.headerLength + 3)
  let mappingAddress ← cint (address - t.start.toInt)
  if nb < 1 ∨ maxReadBits < nb then .ok (planException be sft exceptionIllegalDataValue true)
  else if ← rangeOutside mappingAddress nb t.nb then
    .ok (planException be sft exceptionIllegalDataAddress false)
  else
    .ok ⟨buildResponseBasis be sft ++ [lo (nb / 8 + (if nb % 8 ≠ 0 then 1 else 0) : Nat)], false,
      .none, .none, .bits isInput mappingAddress nb⟩

def planReadRegisters (isInput : Bool) : Run Plan := do
  let t := if isInput then m.inputRegisters else m.registers
  let nb ← rdWord req (be.headerLength + 3)
  let mappingAddress ← cint (address - t.start.toInt)
  if nb < 1 ∨ maxReadRegisters < nb then
    .ok (planException be sft exceptionIllegalDataValue true)
  else if ← rangeOutside mappingAddress nb t.nb then
    .ok (planException be sft exceptionIllegalDataAddress false)
  else
    .ok ⟨buildResponseBasis be sft ++ [lo (2 * nb : Nat)], false, .none, .none,
      .registers isInput mappingAddress nb⟩

def planWriteSingleCoil : Run Plan := do
  let mappingAddress ← cint (address - m.bits.start.toInt)
  if mappingAddress < 0 ∨ (m.bits.nb : Int) ≤ mappingAddress then
    .ok (planException be sft exceptionIllegalDataAddress false)
  else
    let rspLength ← computeResponseLengthFromRequest be req
    if rspLength ≠ reqLength then .ok (planException be sft exceptionIllegalDataValue false)
    else
      let data ← rdWord req (be.headerLength + 3)
      if data = 0xFF00 ∨ data = 0 then
        let rsp ← rdSlice req 0 (rspLength - be.checksumLength).toNat
        .ok ⟨rsp, false, .put mappingAddress.toNat [if data ≠ 0 then 1 else 0], .none, .nothing⟩
      else .ok (planException be sft exceptionIllegalDataValue false)

def planWriteSingleRegister : Run Plan := do
  let mappingAddress ← cint (address - m.registers.start.toInt)
  if mappingAddress < 0 ∨ (m.registers.nb : Int) ≤ mappingAddress then
    .ok (planException be sft exceptionIllegalDataAddress false)
  else
    let rspLength ← computeResponseLengthFromRequest be req
    if rspLength ≠ reqLength then .ok (planException be sft exceptionIllegalDataValue false)
    else
      let data ← rdWord req (be.headerLength + 3)
      let rsp ← rdSlice req 0 (rspLength - be.checksumLength).toNat
      .ok ⟨rsp, false, .none, .put mappingAddress.toNat [UInt16.ofNat data], .nothing⟩

def planWriteMultipleCoils : Run Plan := do
  let nb ← rdWord req (be.headerLength + 3)
  let nbBits ← rd req (be.headerLength + 5)
  let mappingAddress ← cint (address - m.bits.start.toInt)
  if nb < 1 ∨ maxWriteBits < nb ∨ nbBits.toNat * 8 < nb then
    .ok (planException be sft exceptionIllegalDataValue true)
  else if ← rangeOutside mappingAddress nb m.bits.nb then
    .ok (planException be sft exceptionIllegalDataAddress false)
  else
    let values ← requestBits req (be.headerLength + 6) 0 nb
    let basis := buildResponseBasis be sft
    let echo ← rdSlice req basis.length 4
    .ok ⟨basis ++ echo, false, .put mappingAddress.toNat values, .none, .nothing⟩

def planWriteMultipleRegisters : Run Plan := do
  let nb ← rdWord req (be.headerLength + 3)
  let nbBytes ← rd req (be.headerLength + 5)
  let mappingAddress ← cint (address - m.registers.start.toInt)
  if nb < 1 ∨ maxWriteRegisters < nb ∨ nbBytes.toNat ≠ nb * 2 then
    .ok (planException be sft exceptionIllegalDataValue true)
  else if ← rangeOutside mappingAddress nb m.registers.nb then
    .ok (planException be sft exceptionIllegalDataAddress false)
  else
    let values ← requestRegisters req (be.headerLength + 6) nb
    let basis := buildResponseBasis be sft
    let echo ← rdSlice req basis.length 4
    .ok ⟨basis ++ echo, false, .none, .put mappingAddress.toNat values, .nothing⟩

def planReportSlaveId (ver : VersionString) : Run Plan :=
  .ok (.answer (buildResponseBasis be sft ++ lo (slaveIdData ver).length :: slaveIdData ver) false)

def planMaskWriteRegister : Run Plan := do
  let mappingAddress ← cint (address - m.registers.start.toInt)
  if mappingAddress < 0 ∨ (m.registers.nb : Int) ≤ mappingAddress then
    .ok (planException be sft exceptionIllegalDataAddress false)
  else
    let and ← rdWord req (be.headerLength + 3)
    let or ← rdWord req (be.headerLength + 5)
    let rspLength ← computeResponseLengthFromRequest be req
    if rspLength ≠ reqLength then .ok (planException be sft exceptionIllegalDataValue false)
    else
      let andMask := UInt16.ofNat and
      let orMask := UInt16.ofNat or
      let rsp ← rdSlice req 0 (rspLength - be.checksumLength).toNat
      .ok ⟨rsp, false, .none,
        .single mappingAddress.toNat fun data => (data &&& andMask) ||| (orMask &&& ~~~andMask),
        .nothing⟩

def planWriteAndReadRegisters : Run Plan := do
  let nb ← rdWord req (be.headerLength + 3)
  let addressWrite ← rdWord req (be.headerLength + 5)
  let nbWrite ← rdWord req (be.headerLength + 7)
  let nbWriteBytes ← rd req (be.headerLength + 9)
  let mappingAddress ← cint (address - m.registers.start.toInt)
  let mappingAddressWrite ← cint (addressWrite - m.registers.start.toInt)
  if nbWrite < 1 ∨ maxWrWriteRegisters < nbWrite ∨ nb < 1 ∨ maxWrReadRegisters < nb ∨
      nbWriteBytes.toNat ≠ nbWrite * 2 then
    .ok (planException be sft exceptionIllegalDataValue true)
  else if ← rangeOutside mappingAddress nb m.registers.nb then
    .ok (planException be sft exceptionIllegalDataAddress false)
  else if ← rangeOutside mappingAddressWrite nbWrite m.registers.nb then
    .ok (planException be sft exceptionIllegalDataAddress false)
  else
    let values ← requestRegisters req (be.headerLength + 10) nbWrite
    .ok ⟨buildResponseBasis be sft ++ [lo (2 * nb : Nat)], false, .none,
      .put mappingAddressWrite.toNat values, .registers false mappingAddress nb⟩

def planSwitch (ver : VersionString) : Run Plan :=
  if sft.function = fcReadCoils then planReadBits be sft req address m false
  else if sft.function = fcReadDiscreteInputs then planReadBits be sft req address m true
  else if sft.function = fcReadHoldingRegisters then planReadRegisters be sft req address m false
  else if sft.function = fcReadInputRegisters then planReadRegisters be sft req address m true
  else if sft.function = fcWriteSingleCoil then
    planWriteSingleCoil be sft req reqLength address m
  else if sft.function = fcWriteSingleRegister then
    planWriteSingleRegister be sft req reqLength address m
  else if sft.function = fcWriteMultipleCoils then planWriteMultipleCoils be sft req address m
  else if sft.function = fcWriteMultipleRegisters then
    planWriteMultipleRegisters be sft req address m
  else if sft.function = fcReportSlaveId then planReportSlaveId be sft ver
  else if sft.function = fcMaskWriteRegister then
    planMaskWriteRegister be sft req reqLength address m
  else if sft.function = fcWriteAndReadRegisters then
    planWriteAndReadRegisters be sft req address m
  else .ok (planException be sft exceptionIllegalFunction true)

end Handlers

/-- The plan of a request, on the tables of a mapping. -/
def planReply (ver : VersionString) (be : Backend) (req : List UInt8) (reqLength : Int)
    (m : Mapping) : Run Plan := do
  let offset := be.headerLength
  let slave ← rd req (offset - 1)
  let function ← rd req offset
  let address ← if (offset + 3 : Nat) ≤ reqLength then rdWord req (offset + 1) else .ok 0
  let tId ← getResponseTid be req
  let sft : Sft := { slave := slave.toNat, function := function.toNat, tId := tId }
  let needed ← neededLength be req reqLength function.toNat
  if reqLength < needed then .ok (planException be sft exceptionIllegalDataValue true)
  else planSwitch be sft req reqLength address m ver

/-! ### A reply is a plan that is run -/

section Equations

variable {be : Backend} {sft : Sft} {req : List UInt8} {reqLength : Int} {address : Nat}
  (m : Mapping)

theorem replyReadBits_plan (isInput : Bool) :
    replyReadBits be sft req address m isInput =
      planReadBits be sft req address m isInput >>= Plan.run m := by
  refine bind_bind_congr fun nb _ => bind_bind_congr fun mappingAddress _ => ?_
  refine ite_bind_congr (fun _ => responseException_plan be sft _ _ m) fun _ => ?_
  refine bind_bind_congr fun outside _ => ?_
  refine ite_bind_congr (fun _ => responseException_plan be sft _ _ m) fun _ => ?_
  simp only [ok_bind, Plan.run, Plan.write, Table.update_none, Reading.values, List.append_assoc,
    List.cons_append, List.nil_append]

theorem replyReadRegisters_plan (isInput : Bool) :
    replyReadRegisters be sft req address m isInput =
      planReadRegisters be sft req address m isInput >>= Plan.run m := by
  refine bind_bind_congr fun nb _ => bind_bind_congr fun mappingAddress _ => ?_
  refine ite_bind_congr (fun _ => responseException_plan be sft _ _ m) fun _ => ?_
  refine bind_bind_congr fun outside _ => ?_
  refine ite_bind_congr (fun _ => responseException_plan be sft _ _ m) fun _ => ?_
  simp only [ok_bind, Plan.run, Plan.write, Table.update_none, Reading.values, List.append_assoc,
    List.cons_append, List.nil_append]

/-- A cell inside the table. -/
theorem index_of_inside {t : Table α} {mappingAddress : Int}
    (h : ¬ (mappingAddress < 0 ∨ (t.nb : Int) ≤ mappingAddress)) :
    ∃ k : Nat, mappingAddress = k ∧ k < t.tab.length := by
  unfold Table.nb at h
  obtain ⟨k, rfl⟩ := Int.eq_ofNat_of_zero_le (show 0 ≤ mappingAddress by omega)
  exact ⟨k, rfl, by omega⟩

theorem replyWriteSingleCoil_plan :
    replyWriteSingleCoil be sft req reqLength address m =
      planWriteSingleCoil be sft req reqLength address m >>= Plan.run m := by
  refine bind_bind_congr fun mappingAddress _ => ?_
  refine ite_bind_congr (fun _ => responseException_plan be sft _ _ m) fun hin => ?_
  refine bind_bind_congr fun rspLength _ => ?_
  refine ite_bind_congr (fun _ => responseException_plan be sft _ _ m) fun _ => ?_
  refine bind_bind_congr fun data _ => ?_
  refine ite_bind_congr (fun _ => ?_) fun _ => responseException_plan be sft _ _ m
  obtain ⟨k, rfl, hk⟩ := index_of_inside hin
  rw [Table.modify_setCell hk, ok_bind]
  refine bind_bind_congr fun rsp _ => ?_
  simp only [ok_bind, Plan.run, Plan.write, Table.update_none, Reading.values, List.append_nil,
    Int.toNat_natCast]

theorem replyWriteSingleRegister_plan :
    replyWriteSingleRegister be sft req reqLength address m =
      planWriteSingleRegister be sft req reqLength address m >>= Plan.run m := by
  refine bind_bind_congr fun mappingAddress _ => ?_
  refine ite_bind_congr (fun _ => responseException_plan be sft _ _ m) fun hin => ?_
  refine bind_bind_congr fun rspLength _ => ?_
  refine ite_bind_congr (fun _ => responseException_plan be sft _ _ m) fun _ => ?_
  refine bind_bind_congr fun data _ => ?_
  obtain ⟨k, rfl, hk⟩ := index_of_inside hin
  rw [Table.modify_setCell hk, ok_bind]
  refine bind_bind_congr fun rsp _ => ?_
  simp only [ok_bind, Plan.run, Plan.write, Table.update_none, Reading.values, List.append_nil,
    Int.toNat_natCast]

theorem replyWriteMultipleCoils_plan :
    replyWriteMultipleCoils be sft req address m =
      planWriteMultipleCoils be sft req address m >>= Plan.run m := by
  refine bind_bind_congr fun nb _ => bind_bind_congr fun nbBits _ => ?_
  refine bind_bind_congr fun mappingAddress _ => ?_
  refine ite_bind_congr (fun _ => responseException_plan be sft _ _ m) fun _ => ?_
  refine bind_bind_congr fun outside hout => ?_
  refine ite_bind_congr (fun _ => responseException_plan be sft _ _ m) fun hfalse => ?_
  rw [Bool.not_eq_true] at hfalse
  subst hfalse
  obtain ⟨k, rfl, hk⟩ := rangeOutside_false hout
  have hset : modbusSetBitsFromBytes m.bits.tab k nb req (be.headerLength + 6) =
      (requestBits req (be.headerLength + 6) 0 nb).map (splice m.bits.tab k) := setBitsLoop_eq hk
  have hfit : ∀ vs, requestBits req (be.headerLength + 6) 0 nb = .ok vs →
      k + vs.length ≤ m.bits.tab.length := by
    intro vs hvs
    rw [length_requestBits hvs]
    exact hk
  rw [Table.modify_put length_modbusSetBitsFromBytes hset hfit]
  cases requestBits req (be.headerLength + 6) 0 nb with
  | error e => rfl
  | ok vs =>
    simp only [Except.map, ok_bind]
    refine bind_bind_congr fun echo _ => ?_
    simp only [ok_bind, Plan.run, Plan.write, Table.update_none, Reading.values, List.append_nil,
      Int.toNat_natCast]

theorem replyWriteMultipleRegisters_plan :
    replyWriteMultipleRegisters be sft req address m =
      planWriteMultipleRegisters be sft req address m >>= Plan.run m := by
  refine bind_bind_congr fun nb _ => bind_bind_congr fun nbBytes _ => ?_
  refine bind_bind_congr fun mappingAddress _ => ?_
  refine ite_bind_congr (fun _ => responseException_plan be sft _ _ m) fun _ => ?_
  refine bind_bind_congr fun outside hout => ?_
  refine ite_bind_congr (fun _ => responseException_plan be sft _ _ m) fun hfalse => ?_
  rw [Bool.not_eq_true] at hfalse
  subst hfalse
  obtain ⟨k, rfl, hk⟩ := rangeOutside_false hout
  have hfit : ∀ vs, requestRegisters req (be.headerLength + 6) nb = .ok vs →
      k + vs.length ≤ m.registers.tab.length := by
    intro vs hvs
    rw [length_requestRegisters hvs]
    exact hk
  rw [Table.modify_put length_writeRegisters (writeRegisters_eq hk) hfit]
  cases requestRegisters req (be.headerLength + 6) nb with
  | error e => rfl
  | ok vs =>
    simp only [Except.map, ok_bind]
    refine bind_bind_congr fun echo _ => ?_
    simp only [ok_bind, Plan.run, Plan.write, Table.update_none, Reading.values, List.append_nil,
      Int.toNat_natCast]

theorem replyMaskWriteRegister_plan :
    replyMaskWriteRegister be sft req reqLength address m =
      planMaskWriteRegister be sft req reqLength address m >>= Plan.run m := by
  refine bind_bind_congr fun mappingAddress _ => ?_
  refine ite_bind_congr (fun _ => responseException_plan be sft _ _ m) fun hin => ?_
  refine bind_bind_congr fun and _ => bind_bind_congr fun or _ => ?_
  refine bind_bind_congr fun rspLength _ => ?_
  refine ite_bind_congr (fun _ => responseException_plan be sft _ _ m) fun _ => ?_
  obtain ⟨k, rfl, hk⟩ := index_of_inside hin
  rw [← bind_assoc, Table.modify_single hk fun data =>
    (data &&& UInt16.ofNat and) ||| (UInt16.ofNat or &&& ~~~UInt16.ofNat and), ok_bind]
  refine bind_bind_congr fun rsp _ => ?_
  simp only [ok_bind, Plan.run, Plan.write, Table.update_none, Reading.values, List.append_nil,
    Int.toNat_natCast]

theorem replyWriteAndReadRegisters_plan :
    replyWriteAndReadRegisters be sft req address m =
      planWriteAndReadRegisters be sft req address m >>= Plan.run m := by
  refine bind_bind_congr fun nb _ => bind_bind_congr fun addressWrite _ => ?_
  refine bind_bind_congr fun nbWrite _ => bind_bind_congr fun nbWriteBytes _ => ?_
  refine bind_bind_congr fun mappingAddress _ => bind_bind_congr fun mappingAddressWrite _ => ?_
  refine ite_bind_congr (fun _ => responseException_plan be sft _ _ m) fun _ => ?_
  refine bind_bind_congr fun outside _ => ?_
  refine ite_bind_congr (fun _ => responseException_plan be sft _ _ m) fun _ => ?_
  refine bind_bind_congr fun outsideWrite hout => ?_
  refine ite_bind_congr (fun _ => responseException_plan be sft _ _ m) fun hfalse => ?_
  rw [Bool.not_eq_true] at hfalse
  subst hfalse
  obtain ⟨k, rfl, hk⟩ := rangeOutside_false hout
  have hfit : ∀ vs, requestRegisters req (be.headerLength + 10) nbWrite = .ok vs →
      k + vs.length ≤ m.registers.tab.length := by
    intro vs hvs
    rw [length_requestRegisters hvs]
    exact hk
  rw [Table.modify_put length_writeRegisters (writeRegisters_eq hk) hfit]
  cases requestRegisters req (be.headerLength + 10) nbWrite with
  | error e => rfl
  | ok vs =>
    simp only [Except.map, ok_bind, Plan.run, Plan.write, Table.update_none, Reading.values,
      Int.toNat_natCast, List.append_assoc, List.cons_append, List.nil_append, Bool.false_eq_true,
      if_false]

theorem replySwitch_plan (ver : VersionString) :
    replySwitch be sft req reqLength address m ver =
      planSwitch be sft req reqLength address m ver >>= Plan.run m := by
  unfold replySwitch planSwitch
  refine ite_bind_congr (fun _ => replyReadBits_plan m false) fun _ => ?_
  refine ite_bind_congr (fun _ => replyReadBits_plan m true) fun _ => ?_
  refine ite_bind_congr (fun _ => replyReadRegisters_plan m false) fun _ => ?_
  refine ite_bind_congr (fun _ => replyReadRegisters_plan m true) fun _ => ?_
  refine ite_bind_congr (fun _ => replyWriteSingleCoil_plan m) fun _ => ?_
  refine ite_bind_congr (fun _ => replyWriteSingleRegister_plan m) fun _ => ?_
  refine ite_bind_congr (fun _ => replyWriteMultipleCoils_plan m) fun _ => ?_
  refine ite_bind_congr (fun _ => replyWriteMultipleRegisters_plan m) fun _ => ?_
  refine ite_bind_congr (fun _ => (Plan.run_answer m _ _).symm) fun _ => ?_
  refine ite_bind_congr (fun _ => replyMaskWriteRegister_plan m) fun _ => ?_
  refine ite_bind_congr (fun _ => replyWriteAndReadRegisters_plan m) fun _ => ?_
  exact responseException_plan be sft _ _ m

end Equations

/-- **A reply is a plan that is run.** -/
theorem buildReply_plan (ver : VersionString) (be : Backend) (req : List UInt8) (reqLength : Int)
    (m : Mapping) : buildReply ver be req reqLength m =
      planReply ver be req reqLength m >>= Plan.run m := by
  refine bind_bind_congr fun slave _ => bind_bind_congr fun function _ => ?_
  have htail : ∀ address, (do
      let tId ← getResponseTid be req
      let sft : Sft := { slave := slave.toNat, function := function.toNat, tId := tId }
      let needed ← neededLength be req reqLength function.toNat
      if reqLength < needed then .ok (responseException be sft exceptionIllegalDataValue true m)
      else replySwitch be sft req reqLength address m ver : Run Reply) = (do
      let tId ← getResponseTid be req
      let sft : Sft := { slave := slave.toNat, function := function.toNat, tId := tId }
      let needed ← neededLength be req reqLength function.toNat
      if reqLength < needed then .ok (planException be sft exceptionIllegalDataValue true)
      else planSwitch be sft req reqLength address m ver) >>= Plan.run m := by
    intro address
    refine bind_bind_congr fun tId _ => bind_bind_congr fun needed _ => ?_
    exact ite_bind_congr (fun _ => responseException_plan be _ _ _ m) fun _ => replySwitch_plan m ver
  refine ite_bind_congr (fun _ => bind_bind_congr fun address _ => ?_) fun _ => ?_
  · exact htail address
  · exact htail 0

/-! ### What plans have in common -/

/-- Sizes and start addresses stay. -/
theorem Plan.sameTables_write (p : Plan) (m : Mapping) : SameTables m (p.write m) :=
  ⟨⟨rfl, Update.length_apply _ _⟩, ⟨rfl, rfl⟩, ⟨rfl, Update.length_apply _ _⟩, ⟨rfl, rfl⟩⟩

/-- The plan does not depend on what the cells hold. -/
theorem planReply_congr (ver : VersionString) (be : Backend) (req : List UInt8) (reqLength : Int)
    {m m' : Mapping} (h : SameTables m m') :
    planReply ver be req reqLength m' = planReply ver be req reqLength m := by
  obtain ⟨⟨hb, hbn⟩, ⟨hib, hibn⟩, ⟨hr, hrn⟩, ⟨hir, hirn⟩⟩ := h
  have hswitch : ∀ sft address, planSwitch be sft req reqLength address m' ver =
      planSwitch be sft req reqLength address m ver := by
    intro sft address
    simp only [planSwitch, planReadBits, planReadRegisters, planWriteSingleCoil,
      planWriteSingleRegister, planWriteMultipleCoils, planWriteMultipleRegisters,
      planMaskWriteRegister, planWriteAndReadRegisters, Bool.false_eq_true, if_false, if_true,
      hb, hbn, hib, hibn, hr, hrn, hir, hirn]
  simp only [planReply, hswitch]

/-- What every plan keeps to. -/
structure Plan.Sound (be : Backend) (function : UInt8) (p : Plan) : Prop where
  /-- Only 0 and 1 are written to the coils. -/
  bits : ∀ i f, p.bits i = some f → ∀ x, f x = 0 ∨ f x = 1
  /-- Writing a second time changes nothing. -/
  bitsIdempotent : ∀ i f, p.bits i = some f → ∀ x, f (f x) = f x
  registersIdempotent : ∀ i f, p.registers i = some f → ∀ x, f (f x) = f x
  /-- A request that writes is answered under its own function code. -/
  function : (p.bits = .none ∧ p.registers = .none) ∨ rd p.rsp be.headerLength = .ok function

section Sound

variable {be : Backend} {sft : Sft} {req : List UInt8} {reqLength : Int} {address : Nat}
  {m : Mapping} {function : UInt8}

/-- A plan that writes nothing. -/
theorem Plan.Sound.quiet (rsp : List UInt8) (flush : Bool) (reading : Reading) :
    Plan.Sound be function ⟨rsp, flush, .none, .none, reading⟩ :=
  ⟨fun i _ h => (Update.not_none i h).elim, fun i _ h => (Update.not_none i h).elim,
    fun i _ h => (Update.not_none i h).elim, Or.inl ⟨rfl, rfl⟩⟩

theorem Plan.Sound.putBits {rsp : List UInt8} {k : Nat} {vs : List UInt8}
    (hvs : ∀ v ∈ vs, v = 0 ∨ v = 1) (hrsp : rd rsp be.headerLength = .ok function) :
    Plan.Sound be function ⟨rsp, false, .put k vs, .none, .nothing⟩ := by
  refine ⟨?_, fun i f h => Update.put_idempotent h, fun i _ h => (Update.not_none i h).elim,
    Or.inr hrsp⟩
  intro i f h x
  show f x = 0 ∨ f x = 1
  have h' : Update.put k vs i = some f := h
  unfold Update.put at h'
  split_ifs at h'
  obtain ⟨v, hv, rfl⟩ := Option.map_eq_some_iff.mp h'
  exact hvs v (List.mem_of_getElem? hv)

theorem Plan.Sound.putRegisters {rsp : List UInt8} {k : Nat} {vs : List UInt16}
    {reading : Reading} (hrsp : rd rsp be.headerLength = .ok function) :
    Plan.Sound be function ⟨rsp, false, .none, .put k vs, reading⟩ :=
  ⟨fun i _ h => (Update.not_none i h).elim, fun i _ h => (Update.not_none i h).elim,
    fun _ _ h => Update.put_idempotent h, Or.inr hrsp⟩

/-- Masking a register twice is masking it once. -/
theorem mask_idempotent (andMask orMask data : UInt16) :
    (((data &&& andMask) ||| (orMask &&& ~~~andMask)) &&& andMask) ||| (orMask &&& ~~~andMask) =
      (data &&& andMask) ||| (orMask &&& ~~~andMask) := by
  apply UInt16.toBitVec_inj.mp
  simp only [UInt16.toBitVec_or, UInt16.toBitVec_and, UInt16.toBitVec_not]
  apply BitVec.eq_of_getLsbD_eq
  intro i hi
  simp only [BitVec.getLsbD_or, BitVec.getLsbD_and, BitVec.getLsbD_not, hi, decide_true,
    Bool.true_and]
  cases data.toBitVec.getLsbD i <;> cases andMask.toBitVec.getLsbD i <;>
    cases orMask.toBitVec.getLsbD i <;> rfl

/-- The header of a response ends with the function code. -/
theorem rd_responseBasis (hsft : sft.function = function.toNat) (tail : List UInt8) :
    rd (buildResponseBasis be sft ++ tail) be.headerLength = .ok function := by
  have hfun : lo sft.function = function := by
    rw [hsft]
    exact lo_toNat function
  cases be with
  | rtu => exact congrArg Except.ok hfun
  | tcp => exact congrArg Except.ok hfun

/-- A copy of the request, long enough to hold it, shows its function code. -/
theorem rd_rdSlice {rsp : List UInt8} {n : Nat} (hf : rd req be.headerLength = .ok function)
    (hn : be.headerLength < n) (h : rdSlice req 0 n = .ok rsp) :
    rd rsp be.headerLength = .ok function := by
  unfold rdSlice at h
  split_ifs at h
  cases h
  rw [List.drop_zero, rd_take hn, hf]

/-- The echo is as long as the request of such a function. -/
theorem computeResponseLength_echo {rspLength : Int} (hf : rd req be.headerLength = .ok function)
    (he : IsEcho function.toNat) (h : computeResponseLengthFromRequest be req = .ok rspLength) :
    be.headerLength < (rspLength - be.checksumLength).toNat ∧
      (rspLength - be.checksumLength).toNat ≤ be.headerLength + 7 := by
  simp only [computeResponseLengthFromRequest, hf, ok_bind] at h
  rcases he with he | he | he
  · rw [he] at h
    cases h
    omega
  · rw [he] at h
    cases h
    omega
  · rw [he] at h
    cases h
    omega

theorem sound_exception (code : Nat) (toFlush : Bool) :
    Ends (.ok (planException be sft code toFlush) : Run Plan) (Plan.Sound be function)
      fun _ => True := Plan.Sound.quiet _ _ _

theorem sound_readBits (isInput : Bool) :
    Ends (planReadBits be sft req address m isInput) (Plan.Sound be function) fun _ => True := by
  refine Ends.seq fun nb _ => Ends.seq fun mappingAddress _ => ?_
  refine Ends.ite (fun _ => sound_exception _ _) fun _ => Ends.seq fun outside _ => ?_
  exact Ends.ite (fun _ => sound_exception _ _) fun _ => Plan.Sound.quiet _ _ _

theorem sound_readRegisters (isInput : Bool) :
    Ends (planReadRegisters be sft req address m isInput) (Plan.Sound be function)
      fun _ => True := by
  refine Ends.seq fun nb _ => Ends.seq fun mappingAddress _ => ?_
  refine Ends.ite (fun _ => sound_exception _ _) fun _ => Ends.seq fun outside _ => ?_
  exact Ends.ite (fun _ => sound_exception _ _) fun _ => Plan.Sound.quiet _ _ _

theorem sound_writeSingleCoil (hf : rd req be.headerLength = .ok function)
    (he : IsEcho function.toNat) :
    Ends (planWriteSingleCoil be sft req reqLength address m) (Plan.Sound be function)
      fun _ => True := by
  refine Ends.seq fun mappingAddress _ => Ends.ite (fun _ => sound_exception _ _) fun _ => ?_
  refine Ends.seq fun rspLength hlen => Ends.ite (fun _ => sound_exception _ _) fun _ => ?_
  refine Ends.seq fun data _ => Ends.ite (fun _ => ?_) fun _ => sound_exception _ _
  refine Ends.seq fun rsp hrsp => ?_
  refine Plan.Sound.putBits ?_ (rd_rdSlice hf (computeResponseLength_echo hf he hlen).1 hrsp)
  intro v hv
  rw [List.mem_singleton.mp hv]
  split_ifs
  · exact Or.inr rfl
  · exact Or.inl rfl

theorem sound_writeSingleRegister (hf : rd req be.headerLength = .ok function)
    (he : IsEcho function.toNat) :
    Ends (planWriteSingleRegister be sft req reqLength address m) (Plan.Sound be function)
      fun _ => True := by
  refine Ends.seq fun mappingAddress _ => Ends.ite (fun _ => sound_exception _ _) fun _ => ?_
  refine Ends.seq fun rspLength hlen => Ends.ite (fun _ => sound_exception _ _) fun _ => ?_
  refine Ends.seq fun data _ => Ends.seq fun rsp hrsp => ?_
  exact Plan.Sound.putRegisters (rd_rdSlice hf (computeResponseLength_echo hf he hlen).1 hrsp)

theorem sound_writeMultipleCoils (hsft : sft.function = function.toNat) :
    Ends (planWriteMultipleCoils be sft req address m) (Plan.Sound be function)
      fun _ => True := by
  refine Ends.seq fun nb _ => Ends.seq fun nbBits _ => Ends.seq fun mappingAddress _ => ?_
  refine Ends.ite (fun _ => sound_exception _ _) fun _ => Ends.seq fun outside _ => ?_
  refine Ends.ite (fun _ => sound_exception _ _) fun _ => ?_
  refine Ends.seq fun values hvalues => Ends.seq fun echo _ => ?_
  exact Plan.Sound.putBits (bit_of_requestBits hvalues) (rd_responseBasis hsft echo)

theorem sound_writeMultipleRegisters (hsft : sft.function = function.toNat) :
    Ends (planWriteMultipleRegisters be sft req address m) (Plan.Sound be function)
      fun _ => True := by
  refine Ends.seq fun nb _ => Ends.seq fun nbBytes _ => Ends.seq fun mappingAddress _ => ?_
  refine Ends.ite (fun _ => sound_exception _ _) fun _ => Ends.seq fun outside _ => ?_
  refine Ends.ite (fun _ => sound_exception _ _) fun _ => ?_
  refine Ends.seq fun values _ => Ends.seq fun echo _ => ?_
  exact Plan.Sound.putRegisters (rd_responseBasis hsft echo)

theorem sound_maskWriteRegister (hf : rd req be.headerLength = .ok function)
    (he : IsEcho function.toNat) :
    Ends (planMaskWriteRegister be sft req reqLength address m) (Plan.Sound be function)
      fun _ => True := by
  refine Ends.seq fun mappingAddress _ => Ends.ite (fun _ => sound_exception _ _) fun _ => ?_
  refine Ends.seq fun and _ => Ends.seq fun or _ => ?_
  refine Ends.seq fun rspLength hlen => Ends.ite (fun _ => sound_exception _ _) fun _ => ?_
  refine Ends.seq fun rsp hrsp => ?_
  refine ⟨fun i _ h => (Update.not_none i h).elim, fun i _ h => (Update.not_none i h).elim, ?_, ?_⟩
  · intro i f h
    exact Update.single_idempotent (mask_idempotent _ _) h
  · exact Or.inr (rd_rdSlice hf (computeResponseLength_echo hf he hlen).1 hrsp)

theorem sound_writeAndReadRegisters (hsft : sft.function = function.toNat) :
    Ends (planWriteAndReadRegisters be sft req address m) (Plan.Sound be function)
      fun _ => True := by
  refine Ends.seq fun nb _ => Ends.seq fun addressWrite _ => Ends.seq fun nbWrite _ => ?_
  refine Ends.seq fun nbWriteBytes _ => Ends.seq fun mappingAddress _ => ?_
  refine Ends.seq fun mappingAddressWrite _ => Ends.ite (fun _ => sound_exception _ _) fun _ => ?_
  refine Ends.seq fun outside _ => Ends.ite (fun _ => sound_exception _ _) fun _ => ?_
  refine Ends.seq fun outsideWrite _ => Ends.ite (fun _ => sound_exception _ _) fun _ => ?_
  exact Ends.seq fun values _ => Plan.Sound.putRegisters (rd_responseBasis hsft _)

theorem sound_switch (ver : VersionString) (hf : rd req be.headerLength = .ok function)
    (hsft : sft.function = function.toNat) :
    Ends (planSwitch be sft req reqLength address m ver) (Plan.Sound be function)
      fun _ => True := by
  unfold planSwitch
  refine Ends.ite (fun _ => sound_readBits false) fun _ => ?_
  refine Ends.ite (fun _ => sound_readBits true) fun _ => ?_
  refine Ends.ite (fun _ => sound_readRegisters false) fun _ => ?_
  refine Ends.ite (fun _ => sound_readRegisters true) fun _ => ?_
  refine Ends.ite (fun h => sound_writeSingleCoil hf (Or.inl (hsft.symm.trans h))) fun _ => ?_
  refine Ends.ite (fun h => sound_writeSingleRegister hf (Or.inr (Or.inl (hsft.symm.trans h))))
    fun _ => ?_
  refine Ends.ite (fun _ => sound_writeMultipleCoils hsft) fun _ => ?_
  refine Ends.ite (fun _ => sound_writeMultipleRegisters hsft) fun _ => ?_
  refine Ends.ite (fun _ => Plan.Sound.quiet _ _ _) fun _ => ?_
  refine Ends.ite (fun h => sound_maskWriteRegister hf (Or.inr (Or.inr (hsft.symm.trans h))))
    fun _ => ?_
  exact Ends.ite (fun _ => sound_writeAndReadRegisters hsft) fun _ => sound_exception _ _

end Sound

/-- What holds of exceptions and of all that the switch plans holds of every plan. -/
theorem planReply_inv {ver : VersionString} {be : Backend} {req : List UInt8} {reqLength : Int}
    {m : Mapping} {P : UInt8 → Plan → Prop}
    (hexception : ∀ function sft code toFlush, P function (planException be sft code toFlush))
    (hswitch : ∀ {function : UInt8} {sft : Sft} {address : Nat},
      rd req be.headerLength = .ok function → sft.function = function.toNat →
        Ends (planSwitch be sft req reqLength address m ver) (P function) fun _ => True)
    {p : Plan} (h : planReply ver be req reqLength m = .ok p) :
    ∃ function, rd req be.headerLength = .ok function ∧ P function p := by
  obtain ⟨slave, -, h⟩ := bind_eq_ok.mp h
  obtain ⟨function, hf, h⟩ := bind_eq_ok.mp h
  refine ⟨function, hf, ?_⟩
  have htail : ∀ address, Ends (do
      let tId ← getResponseTid be req
      let sft : Sft := { slave := slave.toNat, function := function.toNat, tId := tId }
      let needed ← neededLength be req reqLength function.toNat
      if reqLength < needed then .ok (planException be sft exceptionIllegalDataValue true)
      else planSwitch be sft req reqLength address m ver) (P function) fun _ => True := by
    intro address
    refine Ends.seq fun tId _ => Ends.seq fun needed _ => ?_
    exact Ends.ite (fun _ => hexception _ _ _ _) fun _ => hswitch hf rfl
  split_ifs at h
  · obtain ⟨address, -, h⟩ := bind_eq_ok.mp h
    exact (htail address).result h
  · exact (htail 0).result h

/-- Every plan is sound. -/
theorem planReply_sound {ver : VersionString} {be : Backend} {req : List UInt8} {reqLength : Int}
    {m : Mapping} {p : Plan} (h : planReply ver be req reqLength m = .ok p) :
    ∃ function, rd req be.headerLength = .ok function ∧ p.Sound be function :=
  planReply_inv (fun _ _ _ _ => Plan.Sound.quiet _ _ _) (fun hf hsft => sound_switch ver hf hsft) h

end Libmodbus
