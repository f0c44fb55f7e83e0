/-
Libmodbus/Prefixes.lean

What `modbus_reply` reads of its request.  The caller passes an array and a
length, and the length may end anywhere in the array: behind a whole request, in
the middle of one, or far behind it.

Two facts say that nothing at or behind `req_length` is read:

* on the first `req_length` bytes alone the run ends without a read outside
  (`ends_buildReply`: the needed length covers what the handlers read);
* on the whole array it is the same run (`buildReply_cut`, one lemma for each
  handler), so what stands behind `req_length` plays no part in it.
-/
import Libmodbus.Lib.Prefix
import Libmodbus.Ranges

namespace Libmodbus

open CSem Wire Posix

variable {σ α : Type} {be : Backend}

/-! ### Reading fields and cells -/

/-- A 16-bit field is read byte by byte, and each byte is one of the buffer or none. -/
theorem cut_rdWord (xs : List UInt8) (n i : Nat) : Cut (rdWord (xs.take n) i) (rdWord xs i) := by
  apply (cut_rd xs n i).bind
  intro h
  apply (cut_rd xs n (i + 1)).bind
  intro l
  exact .refl _

theorem Table.modify_of_error {t : Table α} {f : List α → Run (List α)}
    (hf : ∀ {xs ys}, f xs = .ok ys → ys.length = xs.length) {e : Stop} (h : f t.tab = .error e) :
    t.modify f hf = .error e := by
  unfold Table.modify
  split
  next tab h' =>
    rw [h] at h'
    cases h'
  next e' h' =>
    rw [h] at h'
    cases h'
    rfl

/-- A loop over a table that reads a request is cut off with it, and leaves no half-written table.
-/
theorem cut_modify (t : Table α) {f g : List α → Run (List α)}
    (hf : ∀ {xs ys}, f xs = .ok ys → ys.length = xs.length)
    (hg : ∀ {xs ys}, g xs = .ok ys → ys.length = xs.length) (h : Cut (f t.tab) (g t.tab)) :
    Cut (t.modify f hf) (t.modify g hg) := by
  rcases h with h | ⟨i, h⟩
  · left
    cases hy : g t.tab with
    | error e => rw [Table.modify_of_error hf (h.trans hy), Table.modify_of_error hg hy]
    | ok tab => rw [Table.modify_of_ok hf (h.trans hy), Table.modify_of_ok hg hy]
  · exact Or.inr ⟨i, Table.modify_of_error hf h⟩

section Loops

variable (req : List UInt8) (n : Nat)

/-- The bits of the data are read one by one, from the byte that holds them. -/
theorem cut_setBitsLoop (pos : Nat) (dest : List UInt8) (idx : Int) (k nb : Nat) :
    Cut (setBitsLoop (req.take n) pos dest idx k nb) (setBitsLoop req pos dest idx k nb) := by
  induction nb generalizing dest k with
  | zero => exact .refl _
  | succ nb ih =>
    apply (cut_rd req n (pos + k / 8)).bind
    intro b
    apply (Cut.refl _).bind
    intro dest'
    exact ih dest' (k + 1)

/-- The values are read two bytes a turn. -/
theorem cut_writeRegisters (tab : List UInt16) (i : Int) (j nb : Nat) :
    Cut (writeRegisters (req.take n) tab i j nb) (writeRegisters req tab i j nb) := by
  induction nb generalizing tab i j with
  | zero => exact .refl _
  | succ nb ih =>
    apply (cut_rd req n j).bind
    intro h
    apply (cut_rd req n (j + 1)).bind
    intro l
    apply (Cut.refl _).bind
    intro tab'
    exact ih tab' (i + 1) (j + 2)

end Loops

/-! ### Lengths -/

section Lengths

variable (req : List UInt8) (n : Nat)

/-- The transaction id is read over TCP only. -/
theorem cut_getResponseTid : Cut (getResponseTid be (req.take n)) (getResponseTid be req) := by
  cases be with
  | rtu => exact .refl _
  | tcp =>
    apply (cut_rd req n 0).bind
    intro h
    apply (cut_rd req n 1).bind
    intro l
    exact .refl _

/-- Behind the function code the quantity is read, for those functions that have one. -/
theorem cut_computeResponseLength :
    Cut (computeResponseLengthFromRequest be (req.take n))
      (computeResponseLengthFromRequest be req) := by
  have hword : ∀ f : UInt8 → UInt8 → Run Int,
      Cut (rd (req.take n) (be.headerLength + 3) >>= fun h =>
          rd (req.take n) (be.headerLength + 4) >>= fun l => f h l)
        (rd req (be.headerLength + 3) >>= fun h => rd req (be.headerLength + 4) >>= fun l =>
          f h l) := by
    intro f
    apply (cut_rd req n _).bind
    intro h
    apply (cut_rd req n _).bind
    intro l
    exact .refl _
  apply (cut_rd req n be.headerLength).bind
  intro function
  apply (hword _).ite
  apply (hword _).ite
  exact .refl _

/-- The needed length reads the function code and, where there is one, the byte count. -/
theorem cut_neededLength (reqLength : Int) (function : Nat) :
    Cut (neededLength be (req.take n) reqLength function)
      (neededLength be req reqLength function) := by
  unfold neededLength computeDataLengthAfterMeta
  refine Cut.ite ?_ (.refl _)
  refine Cut.bind ?_ fun dataLength => .refl _
  apply (cut_rd req n be.headerLength).bind
  intro function'
  cases byteCountPos function'.toNat .indication with
  | none => exact .refl _
  | some pos =>
    apply (cut_rd req n (be.headerLength + pos)).bind
    intro length
    exact .refl _

end Lengths

/-! ### The handlers -/

section Handlers

variable (sft : Sft) (req : List UInt8) (n : Nat) (reqLength : Int) (address : Nat) (m : Mapping)

/-- A read of a table reads the quantity, whatever the table says. -/
theorem cut_replyReadBits (isInput : Bool) :
    Cut (replyReadBits be sft (req.take n) address m isInput)
      (replyReadBits be sft req address m isInput) := by
  apply (cut_rdWord req n _).bind
  intro nb
  exact .refl _

theorem cut_replyReadRegisters (isInput : Bool) :
    Cut (replyReadRegisters be sft (req.take n) address m isInput)
      (replyReadRegisters be sft req address m isInput) := by
  apply (cut_rdWord req n _).bind
  intro nb
  exact .refl _

/-- The single writes read their value, and the whole request once more for the echo. -/
theorem cut_replyWriteSingleCoil :
    Cut (replyWriteSingleCoil be sft (req.take n) reqLength address m)
      (replyWriteSingleCoil be sft req reqLength address m) := by
  apply (Cut.refl _).bind
  intro mappingAddress
  apply (Cut.refl _).ite
  apply (cut_computeResponseLength req n).bind
  intro rspLength
  apply (Cut.refl _).ite
  apply (cut_rdWord req n _).bind
  intro data
  refine Cut.ite ?_ (.refl _)
  apply (Cut.refl _).bind
  intro bits
  apply (cut_rdSlice req n _ _).bind
  intro rsp
  exact .refl _

theorem cut_replyWriteSingleRegister :
    Cut (replyWriteSingleRegister be sft (req.take n) reqLength address m)
      (replyWriteSingleRegister be sft req reqLength address m) := by
  apply (Cut.refl _).bind
  intro mappingAddress
  apply (Cut.refl _).ite
  apply (cut_computeResponseLength req n).bind
  intro rspLength
  apply (Cut.refl _).ite
  apply (cut_rdWord req n _).bind
  intro data
  apply (Cut.refl _).bind
  intro registers
  apply (cut_rdSlice req n _ _).bind
  intro rsp
  exact .refl _

/-- The multiple writes read quantity and byte count, then the data, then four bytes for the echo.
-/
theorem cut_replyWriteMultipleCoils :
    Cut (replyWriteMultipleCoils be sft (req.take n) address m)
      (replyWriteMultipleCoils be sft req address m) := by
  apply (cut_rdWord req n _).bind
  intro nb
  apply (cut_rd req n _).bind
  intro nbBits
  apply (Cut.refl _).bind
  intro mappingAddress
  apply (Cut.refl _).ite
  apply (Cut.refl _).bind
  intro outside
  apply (Cut.refl _).ite
  apply (cut_modify m.bits length_modbusSetBitsFromBytes length_modbusSetBitsFromBytes
    (cut_setBitsLoop req n _ _ _ 0 nb)).bind
  intro bits
  apply (cut_rdSlice req n _ 4).bind
  intro echo
  exact .refl _

theorem cut_replyWriteMultipleRegisters :
    Cut (replyWriteMultipleRegisters be sft (req.take n) address m)
      (replyWriteMultipleRegisters be sft req address m) := by
  apply (cut_rdWord req n _).bind
  intro nb
  apply (cut_rd req n _).bind
  intro nbBytes
  apply (Cut.refl _).bind
  intro mappingAddress
  apply (Cut.refl _).ite
  apply (Cut.refl _).bind
  intro outside
  apply (Cut.refl _).ite
  apply (cut_modify m.registers length_writeRegisters length_writeRegisters
    (cut_writeRegisters req n _ _ _ nb)).bind
  intro registers
  apply (cut_rdSlice req n _ 4).bind
  intro echo
  exact .refl _

/-- A mask write reads both masks and echoes the request. -/
theorem cut_replyMaskWriteRegister :
    Cut (replyMaskWriteRegister be sft (req.take n) reqLength address m)
      (replyMaskWriteRegister be sft req reqLength address m) := by
  apply (Cut.refl _).bind
  intro mappingAddress
  apply (Cut.refl _).ite
  apply (cut_rdWord req n _).bind
  intro and
  apply (cut_rdWord req n _).bind
  intro or
  apply (cut_computeResponseLength req n).bind
  intro rspLength
  apply (Cut.refl _).ite
  apply (Cut.refl _).bind
  intro data
  apply (Cut.refl _).bind
  intro registers
  apply (cut_rdSlice req n _ _).bind
  intro rsp
  exact .refl _

/-- A write and read reads both ranges and the data to write; its response echoes nothing. -/
theorem cut_replyWriteAndReadRegisters :
    Cut (replyWriteAndReadRegisters be sft (req.take n) address m)
      (replyWriteAndReadRegisters be sft req address m) := by
  apply (cut_rdWord req n _).bind
  intro nb
  apply (cut_rdWord req n _).bind
  intro addressWrite
  apply (cut_rdWord req n _).bind
  intro nbWrite
  apply (cut_rd req n _).bind
  intro nbWriteBytes
  apply (Cut.refl _).bind
  intro mappingAddress
  apply (Cut.refl _).bind
  intro mappingAddressWrite
  apply (Cut.refl _).ite
  apply (Cut.refl _).bind
  intro outside
  apply (Cut.refl _).ite
  apply (Cut.refl _).bind
  intro outsideWrite
  apply (Cut.refl _).ite
  apply (cut_modify m.registers length_writeRegisters length_writeRegisters
    (cut_writeRegisters req n _ _ _ nbWrite)).bind
  intro registers
  exact .refl _

/-- No handler tells the whole array from its first bytes, but by a read outside of them. -/
theorem cut_replySwitch (ver : VersionString) :
    Cut (replySwitch be sft (req.take n) reqLength address m ver)
      (replySwitch be sft req reqLength address m ver) := by
  unfold replySwitch
  apply (cut_replyReadBits sft req n address m false).ite
  apply (cut_replyReadBits sft req n address m true).ite
  apply (cut_replyReadRegisters sft req n address m false).ite
  apply (cut_replyReadRegisters sft req n address m true).ite
  apply (cut_replyWriteSingleCoil sft req n reqLength address m).ite
  apply (cut_replyWriteSingleRegister sft req n reqLength address m).ite
  apply (cut_replyWriteMultipleCoils sft req n address m).ite
  apply (cut_replyWriteMultipleRegisters sft req n address m).ite
  apply (Cut.refl _).ite
  apply (cut_replyMaskWriteRegister sft req n reqLength address m).ite
  apply (cut_replyWriteAndReadRegisters sft req n address m).ite
  exact .refl _

/-- Nor does what comes before the handlers. -/
theorem buildReply_cut (ver : VersionString) :
    Cut (buildReply ver be (req.take n) reqLength m) (buildReply ver be req reqLength m) := by
  have hrest : ∀ (slave function : UInt8) (address : Nat), Cut (do
        let tId ← getResponseTid be (req.take n)
        let sft : Sft := { slave := slave.toNat, function := function.toNat, tId := tId }
        let needed ← neededLength be (req.take n) reqLength function.toNat
        if reqLength < needed then .ok (responseException be sft exceptionIllegalDataValue true m)
        else replySwitch be sft (req.take n) reqLength address m ver)
      (do
        let tId ← getResponseTid be req
        let sft : Sft := { slave := slave.toNat, function := function.toNat, tId := tId }
        let needed ← neededLength be req reqLength function.toNat
        if reqLength < needed then .ok (responseException be sft exceptionIllegalDataValue true m)
        else replySwitch be sft req reqLength address m ver) := by
    intro slave function address
    apply (cut_getResponseTid req n).bind
    intro tId
    apply (cut_neededLength req n reqLength function.toNat).bind
    intro needed
    apply (Cut.refl _).ite
    exact cut_replySwitch _ req n reqLength address m ver
  apply (cut_rd req n (be.headerLength - 1)).bind
  intro slave
  apply (cut_rd req n be.headerLength).bind
  intro function
  refine Cut.ite ?_ (hrest slave function 0)
  apply (cut_rdWord req n (be.headerLength + 1)).bind
  intro address
  exact hrest slave function address

end Handlers

/-! ### modbus_reply -/

/-- **On the whole array the run is that on the first bytes**, unless these are too few for it. -/
theorem modbusReply_cut (os : Os σ) (ver : VersionString) (st : St σ) (req : List UInt8) (n : Nat)
    (reqLength : Int) (m : Mapping) :
    Cut (modbusReply os ver st (req.take n) reqLength m)
      (modbusReply os ver st req reqLength m) := by
  apply (Cut.refl _).ite
  apply (cut_rd req n _).bind
  intro slave
  apply (buildReply_cut req n reqLength m ver).bind
  intro reply
  exact .refl _

/-- Given `req_length` bytes, `modbus_reply` ends without a read outside of them, an access outside
a table or an overflow. -/
theorem modbusReply_settles (os : Os σ) (ver : VersionString) (st : St σ) {req : List UInt8}
    {m : Mapping} (hm : StartsSafe m) {reqLength : Int} (hlen : reqLength ≤ (req.length : Nat)) :
    Settles (modbusReply os ver st req reqLength m) := by
  have hheader : 1 ≤ st.ctx.backend.headerLength := by
    cases st.ctx.backend <;> decide
  rw [modbusReply_eq]
  refine Ends.ite (fun _ => trivial) fun hlong => ?_
  refine (ends_rd (Or.inl (by omega))).bind fun slave _ _ => ?_
  refine (ends_buildReply hm (Or.inl (by omega)) (Or.inl (by omega))).bind fun reply _ _ => ?_
  have hsend : ∀ st', Settles (sendReply os slave reply st') := by
    intro st'
    refine Ends.ite (fun _ => trivial) fun _ => ?_
    exact (sendMsg_settles os st' reply.rsp).bind fun _ _ _ => trivial
  refine Ends.ite (fun _ => ?_) fun _ => hsend st
  exact (sleepAndFlush_returns os st).bind fun st' _ _ => hsend st'

/-- **The server reads only what it was given.**  For any array and any length inside it,
`modbus_reply` does what it does on the first `req_length` bytes alone, and that run stops at no
read outside them. -/
theorem reply_reads_given (os : Os σ) (ver : VersionString) (st : St σ) (req : List UInt8)
    (reqLength : Int) (hlen : reqLength ≤ (req.length : Nat)) {m : Mapping} (hm : m.Addressable) :
    Settles (modbusReply os ver st (req.take reqLength.toNat) reqLength m) ∧
      modbusReply os ver st req reqLength m =
        modbusReply os ver st (req.take reqLength.toNat) reqLength m := by
  have hends : Settles (modbusReply os ver st (req.take reqLength.toNat) reqLength m) := by
    apply modbusReply_settles os ver st hm.startsSafe
    rw [List.length_take]
    omega
  refine ⟨hends, ?_⟩
  have hcut := modbusReply_cut os ver st req reqLength.toNat reqLength m
  exact (hcut.eq hends fun i h => by cases h).symm

/-- A write of four coils whose byte count points behind the request. -/
theorem reply_reads_given_sample :
    Settles (modbusReply (linkOs 1) ⟨[], by decide⟩ (sampleSt .tcp 1 [])
        [0, 7, 0, 0, 0, 8, 1, 0x0F, 0, 0, 0, 4, 200] 13 sampleMapping) ∧
      modbusReply (linkOs 1) ⟨[], by decide⟩ (sampleSt .tcp 1 [])
          [0, 7, 0, 0, 0, 8, 1, 0x0F, 0, 0, 0, 4, 200, 9, 9] 13 sampleMapping =
        modbusReply (linkOs 1) ⟨[], by decide⟩ (sampleSt .tcp 1 [])
          [0, 7, 0, 0, 0, 8, 1, 0x0F, 0, 0, 0, 4, 200] 13 sampleMapping := by
  have hm : sampleMapping.Addressable := ⟨by decide, by decide, by decide, by decide⟩
  exact reply_reads_given (linkOs 1) ⟨[], by decide⟩ (sampleSt .tcp 1 [])
    [0, 7, 0, 0, 0, 8, 1, 0x0F, 0, 0, 0, 4, 200, 9, 9] 13 (by decide) hm

end Libmodbus
