/-
Libmodbus/Rts.lean

The delays of `_modbus_rtu_send` when the RTS line is driven: before the frame
is written, `rts_delay`; after it, the time the frame takes on the line and
`rts_delay` again.

    set_rts   usleep   write   usleep ... usleep   set_rts
              `----´           `----------------´
              rts_delay        onebyte_time * req_length + rts_delay

`usleep` may fail for a second or more.  The delay after the frame is slept in
chunks below that, and the one before it is not.
-/
import Libmodbus.Modbus

namespace Libmodbus

open CSem

/-! ### The context -/

inductive RtsMode
  | none
  | up
  | down
  deriving DecidableEq, Repr

/-- `modbus_rtu_t`, as far as the line and its timing are concerned. -/
structure ModbusRtu where
  baud : Int
  parity : Char
  dataBit : Int
  stopBit : Int
  rts : RtsMode
  rtsDelay : Int
  onebyteTime : Int

/-- `modbus_new_rtu` -/
def modbusNewRtu (device : Option String) (baud : Int) (parity : Char) (dataBit stopBit : Int) :
    Run (Except Errno ModbusRtu) :=
  if device = none ∨ device = some "" then .ok (.error .EINVAL)
  else if baud ≤ 0 then .ok (.error .EINVAL)
  else if dataBit < 5 ∨ 8 < dataBit then .ok (.error .EINVAL)
  else if stopBit ≠ 1 ∧ stopBit ≠ 2 then .ok (.error .EINVAL)
  else if ¬ (parity = 'N' ∨ parity = 'E' ∨ parity = 'O') then .ok (.error .EINVAL)
  else do
    let bits ← cint (1 + dataBit)
    let bits ← cint (bits + if parity = 'N' then 0 else 1)
    let bits ← cint (bits + stopBit)
    let micros ← cint (1000000 * bits)
    let onebyteTime := micros.tdiv baud
    .ok (.ok ⟨baud, parity, dataBit, stopBit, .none, onebyteTime, onebyteTime⟩)

/-- `modbus_rtu_set_rts`, but for the signal it gives. -/
def modbusRtuSetRts (ctx : ModbusRtu) (mode : Int) : Except Errno ModbusRtu :=
  if mode = 0 then .ok { ctx with rts := .none }
  else if mode = 1 then .ok { ctx with rts := .up }
  else if mode = 2 then .ok { ctx with rts := .down }
  else .error .EINVAL

/-- `modbus_rtu_set_rts_delay` -/
def modbusRtuSetRtsDelay (ctx : ModbusRtu) (us : Int) : Except Errno ModbusRtu :=
  if us < 0 then .error .EINVAL else .ok { ctx with rtsDelay := us }

/-- The contexts that these functions make; an `int` is handed to the last one. -/
inductive Produced : ModbusRtu → Prop
  | new {device : Option String} {baud : Int} {parity : Char} {dataBit stopBit : Int}
      {ctx : ModbusRtu} (h : modbusNewRtu device baud parity dataBit stopBit = .ok (.ok ctx)) :
      Produced ctx
  | setRts {ctx ctx' : ModbusRtu} {mode : Int} (hctx : Produced ctx)
      (h : modbusRtuSetRts ctx mode = .ok ctx') : Produced ctx'
  | setRtsDelay {ctx ctx' : ModbusRtu} {us : Int} (hctx : Produced ctx) (hus : FitsInt us)
      (h : modbusRtuSetRtsDelay ctx us = .ok ctx') : Produced ctx'

/-! ### Sending -/

inductive RtsEvent
  | setRts (on : Bool)
  | usleep (us : Nat)
  | write (req : List UInt8)
  deriving DecidableEq

/-- The chunks of a delay. -/
def delayChunks (totalDelay : Nat) : List Nat :=
  if totalDelay = 0 then []
  else
    let delay := if 999999 < totalDelay then 999999 else totalDelay
    delay :: delayChunks (totalDelay - delay)
termination_by totalDelay
decreasing_by
  show totalDelay - (if 999999 < totalDelay then 999999 else totalDelay) < totalDelay
  split_ifs <;> omega

/-- The post-send delay, in a `uint64_t`, and clamped. -/
def totalDelay (ctx : ModbusRtu) (reqLength : Nat) : Nat :=
  let total := ((ctx.onebyteTime % 2 ^ 64).toNat * reqLength +
    (ctx.rtsDelay % 2 ^ 64).toNat) % 2 ^ 64
  if 1000000000 < total then 1000000000 else total

/-- `_modbus_rtu_send`: what is done in turn, and what `write` returned. -/
def modbusRtuSend (write : List UInt8 → Int) (ctx : ModbusRtu) (req : List UInt8) :
    Int × List RtsEvent :=
  if ctx.rts ≠ .none then
    (write req, [.setRts (ctx.rts = .up), .usleep (ctx.rtsDelay % 2 ^ 32).toNat, .write req] ++
      (delayChunks (totalDelay ctx req.length)).map .usleep ++ [.setRts (ctx.rts ≠ .up)])
  else (write req, [.write req])

/-- What `usleep` is called with. -/
def slept (events : List RtsEvent) : List Nat :=
  events.filterMap fun
    | .usleep us => some us
    | _ => none

/-- What comes after the frame. -/
def afterWrite : List RtsEvent → List RtsEvent
  | [] => []
  | .write _ :: events => events
  | _ :: events => afterWrite events

/-! ### The context keeps its times small -/

/-- Both times are those of an `int`, and one byte takes 12 seconds at most. -/
structure ModbusRtu.Timed (ctx : ModbusRtu) : Prop where
  onebyte_nonneg : 0 ≤ ctx.onebyteTime
  onebyte_le : ctx.onebyteTime ≤ 12000000
  delay_nonneg : 0 ≤ ctx.rtsDelay
  delay_le : ctx.rtsDelay ≤ 2147483647

/-- At most 12 bits to a byte, so nothing overflows. -/
theorem modbusNewRtu_defined (device : Option String) (baud : Int) (parity : Char)
    (dataBit stopBit : Int) : ∃ r, modbusNewRtu device baud parity dataBit stopBit = .ok r ∧
      ∀ ctx, r = .ok ctx → ctx.Timed := by
  have herror : ∃ r : Except Errno ModbusRtu, (.ok (.error .EINVAL) : Run _) = .ok r ∧
      ∀ ctx, r = .ok ctx → ctx.Timed := ⟨_, rfl, fun ctx h => by cases h⟩
  rw [modbusNewRtu]
  by_cases hdevice : device = none ∨ device = some ""
  · rw [if_pos hdevice]
    exact herror
  by_cases hbaud : baud ≤ 0
  · rw [if_neg hdevice, if_pos hbaud]
    exact herror
  by_cases hdata : dataBit < 5 ∨ 8 < dataBit
  · rw [if_neg hdevice, if_neg hbaud, if_pos hdata]
    exact herror
  by_cases hstop : stopBit ≠ 1 ∧ stopBit ≠ 2
  · rw [if_neg hdevice, if_neg hbaud, if_neg hdata, if_pos hstop]
    exact herror
  by_cases hparity : ¬ (parity = 'N' ∨ parity = 'E' ∨ parity = 'O')
  · rw [if_neg hdevice, if_neg hbaud, if_neg hdata, if_neg hstop, if_pos hparity]
    exact herror
  rw [if_neg hdevice, if_neg hbaud, if_neg hdata, if_neg hstop, if_neg hparity]
  obtain ⟨p, hp, hple⟩ : ∃ p : Int, (if parity = 'N' then 0 else 1) = p ∧ 0 ≤ p ∧ p ≤ 1 := by
    refine ⟨_, rfl, ?_⟩
    split_ifs <;> decide
  have hfits : ∀ v : Int, 0 ≤ v → v ≤ 12000000 → cint v = .ok v := by
    intro v h0 hle
    exact cint_of_fits ⟨by omega, by omega⟩
  have hmicros : 0 ≤ 1000000 * (1 + dataBit + p + stopBit) ∧
      1000000 * (1 + dataBit + p + stopBit) ≤ 12000000 := by omega
  rw [hp, hfits _ (by omega) (by omega), ok_bind, hfits _ (by omega) (by omega), ok_bind,
    hfits _ (by omega) (by omega), ok_bind, hfits _ hmicros.1 hmicros.2, ok_bind]
  have hbyte : 0 ≤ (1000000 * (1 + dataBit + p + stopBit)).tdiv baud ∧
      (1000000 * (1 + dataBit + p + stopBit)).tdiv baud ≤ 12000000 := by
    rw [Int.tdiv_eq_ediv_of_nonneg hmicros.1]
    exact ⟨Int.ediv_nonneg hmicros.1 (by omega),
      (Int.ediv_le_self baud hmicros.1).trans hmicros.2⟩
  refine ⟨_, rfl, fun ctx h => ?_⟩
  cases h
  exact ⟨hbyte.1, hbyte.2, hbyte.1, hbyte.2.trans (by decide)⟩

theorem Produced.timed {ctx : ModbusRtu} (h : Produced ctx) : ctx.Timed := by
  induction h with
  | @new device baud parity dataBit stopBit ctx h =>
    obtain ⟨r, hr, htimed⟩ := modbusNewRtu_defined device baud parity dataBit stopBit
    exact htimed ctx (Except.ok.inj (hr.symm.trans h))
  | setRts _ h ih =>
    unfold modbusRtuSetRts at h
    split_ifs at h
    all_goals
      cases h
      exact ⟨ih.onebyte_nonneg, ih.onebyte_le, ih.delay_nonneg, ih.delay_le⟩
  | setRtsDelay _ hus h ih =>
    unfold modbusRtuSetRtsDelay at h
    split_ifs at h with hneg
    cases h
    exact ⟨ih.onebyte_nonneg, ih.onebyte_le, Int.not_lt.mp hneg, hus.2⟩

/-! ### The chunks -/

theorem delayChunks_spec (total : Nat) :
    (delayChunks total).sum = total ∧ ∀ us ∈ delayChunks total, us < 1000000 := by
  induction total using delayChunks.induct with
  | case1 =>
    rw [delayChunks, if_pos rfl]
    exact ⟨rfl, fun us h => absurd h List.not_mem_nil⟩
  | case2 total hne delay ih =>
    have hdelay : delay ≤ total ∧ delay < 1000000 := by
      show (if 999999 < total then 999999 else total) ≤ total ∧
        (if 999999 < total then 999999 else total) < 1000000
      split_ifs <;> omega
    rw [delayChunks, if_neg hne]
    refine ⟨?_, fun us h => ?_⟩
    · rw [List.sum_cons]
      show delay + (delayChunks (total - delay)).sum = total
      rw [ih.1]
      omega
    · rcases List.mem_cons.mp h with rfl | h
      · exact hdelay.2
      · exact ih.2 us h

theorem slept_chunks (chunks : List Nat) (on : Bool) :
    slept (chunks.map .usleep ++ [.setRts on]) = chunks := by
  induction chunks with
  | nil => rfl
  | cons us chunks ih => exact congrArg (us :: ·) ih

/-! ### usleep -/

/-- The delays of one call are as they should be. -/
structure RtsTimed (ctx : ModbusRtu) (req : List UInt8) (events : List RtsEvent) : Prop where
  usleep : ∀ us ∈ slept events, us < 1000000
  post : ((slept (afterWrite events)).sum : Int) =
    min (ctx.onebyteTime * req.length + ctx.rtsDelay) 1000000000
  /-- Nothing wraps in the `uint64_t`. -/
  product : ctx.onebyteTime * req.length + ctx.rtsDelay < 2 ^ 64

theorem totalDelay_eq {ctx : ModbusRtu} (h : ctx.Timed) {n : Nat} (hn : n ≤ 256) :
    (totalDelay ctx n : Int) = min (ctx.onebyteTime * n + ctx.rtsDelay) 1000000000 ∧
      ctx.onebyteTime * n + ctx.rtsDelay < 2 ^ 64 := by
  obtain ⟨honebyte, honebyteLe, hdelay, hdelayLe⟩ := h
  lift ctx.onebyteTime to Nat using honebyte with onebyteTime honebyteTime
  lift ctx.rtsDelay to Nat using hdelay with rtsDelay hrtsDelay
  have hproduct : onebyteTime * n ≤ 12000000 * 256 := Nat.mul_le_mul (by omega) hn
  have hcast : ((onebyteTime * n : Nat) : Int) = (onebyteTime : Int) * n := Int.natCast_mul _ _
  have htotal : totalDelay ctx n =
      if 1000000000 < onebyteTime * n + rtsDelay then 1000000000
      else onebyteTime * n + rtsDelay := by
    rw [totalDelay, ← honebyteTime, ← hrtsDelay]
    have h₁ : ((onebyteTime : Int) % 2 ^ 64).toNat = onebyteTime := by omega
    have h₂ : ((rtsDelay : Int) % 2 ^ 64).toNat = rtsDelay := by omega
    have h₃ : (onebyteTime * n + rtsDelay) % 2 ^ 64 = onebyteTime * n + rtsDelay :=
      Nat.mod_eq_of_lt (by omega)
    rw [h₁, h₂, h₃]
  rw [htotal, ← hcast]
  constructor
  · split_ifs <;> omega
  · omega

/-- **The delays stay inside the domain of `usleep` exactly when `rts_delay` does**; the others are
right in any case, and no `int` overflows. -/
theorem rts_timed_iff {ctx : ModbusRtu} (hctx : Produced ctx) (hrts : ctx.rts ≠ .none)
    (write : List UInt8 → Int) {req : List UInt8} (hlen : req.length ≤ 256) :
    (∀ device baud parity dataBit stopBit, ∃ r,
      modbusNewRtu device baud parity dataBit stopBit = .ok r) ∧
    (RtsTimed ctx req (modbusRtuSend write ctx req).2 ↔ ctx.rtsDelay < 1000000) := by
  constructor
  · intro device baud parity dataBit stopBit
    obtain ⟨r, hr, -⟩ := modbusNewRtu_defined device baud parity dataBit stopBit
    exact ⟨r, hr⟩
  have htimed := hctx.timed
  obtain ⟨htotal, hproduct⟩ := totalDelay_eq htimed hlen
  obtain ⟨hsum, hlt⟩ := delayChunks_spec (totalDelay ctx req.length)
  have hfirst : ((ctx.rtsDelay % 2 ^ 32).toNat : Int) = ctx.rtsDelay := by
    have := htimed.delay_nonneg
    have := htimed.delay_le
    omega
  have hevents : slept (modbusRtuSend write ctx req).2 =
      (ctx.rtsDelay % 2 ^ 32).toNat :: delayChunks (totalDelay ctx req.length) := by
    rw [modbusRtuSend, if_pos hrts]
    exact congrArg (_ :: ·) (slept_chunks _ _)
  have hafter : slept (afterWrite (modbusRtuSend write ctx req).2) =
      delayChunks (totalDelay ctx req.length) := by
    rw [modbusRtuSend, if_pos hrts]
    exact slept_chunks _ _
  constructor
  · intro h
    have hle := h.usleep _ (hevents ▸ List.mem_cons_self)
    omega
  · intro hdelay
    refine ⟨fun us hus => ?_, ?_, hproduct⟩
    · rw [hevents] at hus
      rcases List.mem_cons.mp hus with rfl | hus
      · omega
      · exact hlt us hus
    · rw [hafter, hsum]
      exact htotal

/-- A context with this baud rate, and RTS up. -/
def rtsCtx (baud : Int) : ModbusRtu :=
  ⟨baud, 'N', 8, 1, .up, Int.tdiv 10000000 baud, Int.tdiv 10000000 baud⟩

theorem produced_rtsCtx {baud : Int} (h : 0 < baud) : Produced (rtsCtx baud) := by
  have hnew : modbusNewRtu (some "/dev/ttyS0") baud 'N' 8 1 =
      .ok (.ok { rtsCtx baud with rts := .none }) := by
    rw [modbusNewRtu, if_neg (by decide), if_neg (Int.not_le.mpr h)]
    rfl
  have hrts : modbusRtuSetRts { rtsCtx baud with rts := .none } 1 = .ok (rtsCtx baud) := rfl
  exact .setRts (.new hnew) hrts

theorem rts_timed_iff_sample :
    RtsTimed (rtsCtx 9600) [0x01, 0x07, 0x41, 0xE2]
      (modbusRtuSend (fun req => req.length) (rtsCtx 9600) [0x01, 0x07, 0x41, 0xE2]).2 ↔
      (rtsCtx 9600).rtsDelay < 1000000 :=
  (rts_timed_iff (produced_rtsCtx (by decide)) (by decide) _ (by decide)).2

/-- At 10 baud one byte takes a second, and so does the first sleep. -/
theorem rts_oversleeps :
    ¬ ∀ ctx, Produced ctx → ctx.rts ≠ .none → ∀ (write : List UInt8 → Int) (req : List UInt8),
      req.length ≤ 256 → RtsTimed ctx req (modbusRtuSend write ctx req).2 := by
  intro h
  have htimed := h (rtsCtx 10) (produced_rtsCtx (by decide)) (by decide) (fun req => req.length)
    [0x01, 0x07, 0x41, 0xE2] (by decide)
  exact absurd (htimed.usleep 1000000 List.mem_cons_self) (by decide)

end Libmodbus
