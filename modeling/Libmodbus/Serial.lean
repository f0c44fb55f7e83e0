/-
Libmodbus/Serial.lean

The settings of a serial line.  `modbus_connect` saves those that the device has
and makes it a raw line with the speed and the format of the context;
`modbus_close` puts the saved ones back.

    connect   old_tios = tcgetattr;  tcsetattr (raw line)
    close     tcsetattr (old_tios)

Here the device is part of the state: its settings, and whether its driver is in
RS485 mode.  A context that is connected twice saves the raw line over what was
saved, and a restore that fails is not tried again; after either of these the
device never gets its settings back, and otherwise it always does
(`serial_restored_iff`).  But for the device, the calls are those of
`Connect.lean` (`SerialLine.connect_st`).
-/
import Libmodbus.Connect
import Libmodbus.Rts

namespace Libmodbus

open CSem Posix

variable {σ : Type}

/-! ### Settings -/

/-- `struct termios`, with the rate that its speed stands for. -/
structure Termios where
  iflag : UInt32
  oflag : UInt32
  cflag : UInt32
  lflag : UInt32
  vmin : UInt8
  vtime : UInt8
  speed : Int
  deriving DecidableEq, Repr

namespace Termios

@[simp] abbrev INPCK : UInt32 := 0x10
@[simp] abbrev IXON : UInt32 := 0x400
@[simp] abbrev IXANY : UInt32 := 0x800
@[simp] abbrev IXOFF : UInt32 := 0x1000
@[simp] abbrev OPOST : UInt32 := 0x1
@[simp] abbrev CSIZE : UInt32 := 0x30
@[simp] abbrev CS5 : UInt32 := 0x00
@[simp] abbrev CS6 : UInt32 := 0x10
@[simp] abbrev CS7 : UInt32 := 0x20
@[simp] abbrev CS8 : UInt32 := 0x30
@[simp] abbrev CSTOPB : UInt32 := 0x40
@[simp] abbrev CREAD : UInt32 := 0x80
@[simp] abbrev PARENB : UInt32 := 0x100
@[simp] abbrev PARODD : UInt32 := 0x200
@[simp] abbrev CLOCAL : UInt32 := 0x800
@[simp] abbrev ISIG : UInt32 := 0x1
@[simp] abbrev ICANON : UInt32 := 0x2
@[simp] abbrev ECHO : UInt32 := 0x8
@[simp] abbrev ECHOE : UInt32 := 0x10

end Termios

open Termios

/-- The rates that `_get_termios_speed` knows. -/
def termiosSpeeds : List Int :=
  [110, 300, 600, 1200, 2400, 4800, 9600, 19200, 38400, 57600, 115200, 230400, 460800, 500000,
    576000, 921600, 1000000, 1152000, 1500000, 2500000, 3000000, 3500000, 4000000]

/-- `_get_termios_speed` -/
def getTermiosSpeed (baud : Int) : Int := if baud ∈ termiosSpeeds then baud else 9600

/-- The control flags of a character format. -/
def formatFlags (parity : Char) (dataBit stopBit : Int) (cflag : UInt32) : UInt32 :=
  let cflag := cflag ||| (CREAD ||| CLOCAL)
  let cflag := cflag &&& ~~~CSIZE
  let cflag := cflag |||
    (if dataBit = 5 then CS5 else if dataBit = 6 then CS6 else if dataBit = 7 then CS7 else CS8)
  let cflag := if stopBit = 1 then cflag &&& ~~~CSTOPB else cflag ||| CSTOPB
  if parity = 'N' then cflag &&& ~~~PARENB
  else if parity = 'E' then (cflag ||| PARENB) &&& ~~~PARODD
  else (cflag ||| PARENB) ||| PARODD

/-- The settings that `_modbus_rtu_connect` makes; with `termios2` any rate can be asked for. -/
def rawLine (termios2 : Bool) (ctx : ModbusRtu) : Termios :=
  let tios : Termios := ⟨0, 0, 0, 0, 0, 0, 0⟩
  let iflag := if ctx.parity = 'N' then tios.iflag &&& ~~~INPCK else tios.iflag ||| INPCK
  { iflag := iflag &&& ~~~(IXON ||| IXOFF ||| IXANY)
    oflag := tios.oflag &&& ~~~OPOST
    cflag := formatFlags ctx.parity ctx.dataBit ctx.stopBit tios.cflag
    lflag := tios.lflag &&& ~~~(ICANON ||| ECHO ||| ECHOE ||| ISIG)
    vmin := 0
    vtime := 0
    speed := if termios2 then ctx.baud else getTermiosSpeed ctx.baud }

/-- The bits of a character on the line: start, data, parity and stop. -/
def charBits (cflag : UInt32) : Int :=
  1 + (if cflag &&& CSIZE = CS5 then 5 else if cflag &&& CSIZE = CS6 then 6
      else if cflag &&& CSIZE = CS7 then 7 else 8) +
    (if cflag &&& PARENB = 0 then 0 else 1) + (if cflag &&& CSTOPB = 0 then 1 else 2)

/-- No character is special, echoed or changed, in either direction. -/
structure Termios.Raw (tios : Termios) : Prop where
  lflag : tios.lflag = 0
  oflag : tios.oflag = 0
  iflag : tios.iflag &&& ~~~INPCK = 0
  enabled : tios.cflag &&& (CREAD ||| CLOCAL) = CREAD ||| CLOCAL

/-- The line has the character format of the context: the parity, which is checked on input, the
stop bits, and as many bits a character as the time of a byte is computed with. -/
structure Termios.InFormat (tios : Termios) (ctx : ModbusRtu) : Prop where
  parity : tios.cflag &&& PARENB ≠ 0 ↔ ctx.parity ≠ 'N'
  odd : tios.cflag &&& PARODD ≠ 0 ↔ ctx.parity = 'O'
  checked : tios.iflag &&& INPCK ≠ 0 ↔ ctx.parity ≠ 'N'
  stop : tios.cflag &&& CSTOPB ≠ 0 ↔ ctx.stopBit = 2
  bits : charBits tios.cflag = 1 + ctx.dataBit + (if ctx.parity = 'N' then 0 else 1) + ctx.stopBit
  time : ctx.onebyteTime = (1000000 * charBits tios.cflag).tdiv ctx.baud

/-- The formats that `modbus_new_rtu` lets pass, from flags that are clear. -/
theorem formatFlags_spec : ∀ parity ∈ ['N', 'E', 'O'], ∀ dataBit ∈ [5, 6, 7, 8], ∀ stopBit ∈ [1, 2],
    charBits (formatFlags parity dataBit stopBit 0) =
        1 + dataBit + (if parity = 'N' then 0 else 1) + stopBit ∧
      (formatFlags parity dataBit stopBit 0 &&& PARENB ≠ 0 ↔ parity ≠ 'N') ∧
      (formatFlags parity dataBit stopBit 0 &&& PARODD ≠ 0 ↔ parity = 'O') ∧
      (formatFlags parity dataBit stopBit 0 &&& CSTOPB ≠ 0 ↔ stopBit = 2) ∧
      formatFlags parity dataBit stopBit 0 &&& (CREAD ||| CLOCAL) = CREAD ||| CLOCAL := by
  intro parity hparity dataBit hdata stopBit hstop
  simp only [List.mem_cons, List.not_mem_nil, or_false] at hparity hdata hstop
  -- one format at a time: the kernel does not get through all of them at once
  rcases hparity with rfl | rfl | rfl <;> rcases hdata with rfl | rfl | rfl | rfl <;>
    rcases hstop with rfl | rfl <;> exact ⟨rfl, by decide, by decide, by decide, rfl⟩

theorem modbusNewRtu_ok {device : Option String} {baud : Int} {parity : Char}
    {dataBit stopBit : Int} {ctx : ModbusRtu}
    (h : modbusNewRtu device baud parity dataBit stopBit = .ok (.ok ctx)) :
    parity ∈ ['N', 'E', 'O'] ∧ dataBit ∈ [5, 6, 7, 8] ∧ stopBit ∈ [1, 2] ∧
      ctx.parity = parity ∧ ctx.dataBit = dataBit ∧ ctx.stopBit = stopBit ∧
      ctx.onebyteTime =
        (1000000 * (1 + dataBit + (if parity = 'N' then 0 else 1) + stopBit)).tdiv ctx.baud := by
  unfold modbusNewRtu at h
  generalize (if parity = 'N' then (0 : Int) else 1) = parityBit at h ⊢
  split_ifs at h with hdevice hbaud hdata hstop hparity
  -- what is refused
  any_goals cases h
  obtain ⟨bits₁, h₁, h⟩ := bind_eq_ok.mp h
  obtain ⟨bits₂, h₂, h⟩ := bind_eq_ok.mp h
  obtain ⟨bits₃, h₃, h⟩ := bind_eq_ok.mp h
  obtain ⟨micros, h₄, h⟩ := bind_eq_ok.mp h
  obtain ⟨-, rfl⟩ := cint_eq_ok.mp h₁
  obtain ⟨-, rfl⟩ := cint_eq_ok.mp h₂
  obtain ⟨-, rfl⟩ := cint_eq_ok.mp h₃
  obtain ⟨-, rfl⟩ := cint_eq_ok.mp h₄
  cases h
  refine ⟨?_, ?_, ?_, rfl, rfl, rfl, rfl⟩ <;> simp only [List.mem_cons, List.not_mem_nil, or_false]
  · exact hparity
  · omega
  · omega

/-- **The line is raw, in the format of the context.** -/
theorem rawLine_spec (termios2 : Bool) {device : Option String} {baud : Int} {parity : Char}
    {dataBit stopBit : Int} {ctx : ModbusRtu}
    (h : modbusNewRtu device baud parity dataBit stopBit = .ok (.ok ctx)) :
    (rawLine termios2 ctx).Raw ∧ (rawLine termios2 ctx).InFormat ctx := by
  obtain ⟨hparity, hdata, hstop, rfl, rfl, rfl, htime⟩ := modbusNewRtu_ok h
  obtain ⟨hbits, hparenb, hodd, hcstopb, henabled⟩ :=
    formatFlags_spec ctx.parity hparity ctx.dataBit hdata ctx.stopBit hstop
  refine ⟨⟨rfl, rfl, ?_, henabled⟩, ⟨hparenb, hodd, ?_, hcstopb, hbits, ?_⟩⟩
  · simp only [rawLine]
    split_ifs <;> rfl
  · by_cases hnone : ctx.parity = 'N'
    · simp only [rawLine, if_pos hnone]
      exact iff_of_false (fun h => h rfl) fun h => h hnone
    · simp only [rawLine, if_neg hnone]
      exact iff_of_true (by decide) hnone
  · rw [htime, ← hbits]
    rfl

/-! ### The device and the context -/

/-- `MODBUS_RTU_RS232` and `MODBUS_RTU_RS485`. -/
inductive SerialMode
  | rs232
  | rs485
  deriving DecidableEq, Repr

/-- The calls on a serial line, with the two of `ioctl` that read and write its RS485 mode. -/
structure SerialSockets (σ : Type) extends Sockets σ where
  rs485Get : Nat → σ → Option SysErrno × σ
  rs485Set : Nat → σ → Option SysErrno × σ

/-- An RTU context, and the device that it opens. -/
structure SerialLine (σ : Type) where
  st : St (Ledger σ)
  rtu : ModbusRtu
  oldTios : Termios
  serialMode : SerialMode
  /-- The settings of the device, and the mode of its driver. -/
  line : Termios
  driver : SerialMode

/-- A call on `ctx->s`, which is refused when there is no descriptor. -/
def St.ioctl (f : Nat → σ → Option SysErrno × σ) (st : St (Ledger σ)) : Bool × St (Ledger σ) :=
  if st.ctx.s < 0 then (false, { st with errno := .EBADF }) else st.attempt (f st.ctx.s.toNat)

namespace SerialLine

/-- `_modbus_rtu_connect` -/
def connect (sys : SerialSockets σ) (termios2 : Bool) (w : SerialLine σ) : Int × SerialLine σ :=
  match w.st.os.make sys.openDevice with
  | (.error e, l) => (-1, { w with st := ⟨{ w.st.ctx with s := -1 }, .sys e, l⟩ })
  | (.ok fd, l) =>
    let st := { w.st with ctx := { w.st.ctx with s := fd }, os := l }
    -- save
    let (ok, st) := st.attempt (sys.tcgetattr fd)
    if ¬ ok then (-1, { w with st := dropDescriptor sys.toSockets st })
    else
      let w := { w with oldTios := w.line }
      let (ok, st) := st.attempt sys.cfsetspeed
      if ¬ ok then (-1, { w with st := dropDescriptor sys.toSockets st })
      else
        let tios := rawLine termios2 w.rtu
        let (ok, st) := st.attempt (sys.tcsetattr fd)
        if ¬ ok then (-1, { w with st := dropDescriptor sys.toSockets st })
        else (0, { w with st := st, line := tios })

/-- `_modbus_rtu_close` -/
def close (sys : SerialSockets σ) (w : SerialLine σ) : SerialLine σ :=
  if 0 ≤ w.st.ctx.s then
    let (ok, st) := w.st.attempt (sys.tcsetattr w.st.ctx.s.toNat)
    { w with
      st := dropDescriptor sys.toSockets st
      line := if ok then w.oldTios else w.line }
  else w

/-- `modbus_rtu_set_serial_mode` -/
def setSerialMode (sys : SerialSockets σ) (mode : Int) (w : SerialLine σ) :
    Int × SerialLine σ :=
  if mode = 1 then
    let (ok, st) := w.st.ioctl sys.rs485Get
    if ¬ ok then (-1, { w with st := st })
    else
      let (ok, st) := st.ioctl sys.rs485Set
      if ¬ ok then (-1, { w with st := st })
      else (0, { w with st := st, serialMode := .rs485, driver := .rs485 })
  else if mode = 0 then
    -- turn off RS485 mode only if required
    if w.serialMode = .rs485 then
      let (ok, st) := w.st.ioctl sys.rs485Get
      if ¬ ok then (-1, { w with st := st })
      else
        let (ok, st) := st.ioctl sys.rs485Set
        if ¬ ok then (-1, { w with st := st })
        else (0, { w with st := st, serialMode := .rs232, driver := .rs232 })
    else (0, { w with serialMode := .rs232 })
  else (-1, { w with st := { w.st with errno := .EINVAL } })

/-- But for the device, connecting is what it is elsewhere. -/
theorem connect_st (sys : SerialSockets σ) (termios2 : Bool) (w : SerialLine σ) :
    ((w.connect sys termios2).1, (w.connect sys termios2).2.st) =
      rtuConnect sys.toSockets w.st := by
  unfold connect rtuConnect
  rcases w.st.os.make sys.openDevice with ⟨e | fd, l⟩
  · rfl
  simp only
  rcases St.attempt (sys.tcgetattr fd) _ with ⟨- | -, st₁⟩
  · rfl
  simp only [not_true_eq_false, if_false]
  rcases st₁.attempt sys.cfsetspeed with ⟨- | -, st₂⟩
  · rfl
  simp only [not_true_eq_false, if_false]
  rcases st₂.attempt (sys.tcsetattr fd) with ⟨- | -, st₃⟩
  · rfl
  · rfl

theorem close_st (sys : SerialSockets σ) (w : SerialLine σ) :
    (w.close sys).st = rtuClose sys.toSockets w.st := by
  unfold close rtuClose
  split_ifs <;> rfl

/-- What is left alone by connecting and closing. -/
structure SameModes (w w' : SerialLine σ) : Prop where
  rtu : w'.rtu = w.rtu
  serialMode : w'.serialMode = w.serialMode
  driver : w'.driver = w.driver

/-- **What connecting can do**: fail and leave the device, or make the line raw and remember the
settings before. -/
theorem connect_cases (sys : SerialSockets σ) (termios2 : Bool) (w : SerialLine σ) :
    w.SameModes (w.connect sys termios2).2 ∧
      (((w.connect sys termios2).2.st.ctx.s = -1 ∧ (w.connect sys termios2).2.line = w.line) ∨
        (0 ≤ (w.connect sys termios2).2.st.ctx.s ∧
          (w.connect sys termios2).2.line = rawLine termios2 w.rtu ∧
          (w.connect sys termios2).2.oldTios = w.line)) := by
  unfold connect
  rcases hmake : w.st.os.make sys.openDevice with ⟨e | fd, l⟩
  · exact ⟨⟨rfl, rfl, rfl⟩, .inl ⟨rfl, rfl⟩⟩
  simp only
  have h₁ := (attempt_quiet (sys.tcgetattr fd)
    { w.st with ctx := { w.st.ctx with s := fd }, os := l }).touched.ctx
  generalize St.attempt (sys.tcgetattr fd) _ = r₁ at h₁
  obtain ⟨- | -, st₁⟩ := r₁
  · exact ⟨⟨rfl, rfl, rfl⟩, .inl ⟨rfl, rfl⟩⟩
  simp only [not_true_eq_false, if_false]
  have h₂ := (attempt_quiet sys.cfsetspeed st₁).touched.ctx
  generalize St.attempt sys.cfsetspeed st₁ = r₂ at h₂
  obtain ⟨- | -, st₂⟩ := r₂
  · exact ⟨⟨rfl, rfl, rfl⟩, .inl ⟨rfl, rfl⟩⟩
  simp only [not_true_eq_false, if_false]
  have h₃ := (attempt_quiet (sys.tcsetattr fd) st₂).touched.ctx
  generalize St.attempt (sys.tcsetattr fd) st₂ = r₃ at h₃
  obtain ⟨- | -, st₃⟩ := r₃
  · exact ⟨⟨rfl, rfl, rfl⟩, .inl ⟨rfl, rfl⟩⟩
  refine ⟨⟨rfl, rfl, rfl⟩, .inr ⟨?_, rfl, rfl⟩⟩
  show 0 ≤ st₃.ctx.s
  rw [show st₃.ctx = _ from (h₃.trans h₂).trans h₁]
  exact Int.natCast_nonneg fd

/-- **What closing can do**: nothing, where there is no descriptor; or put the settings back, if the
device takes them. -/
theorem close_cases (sys : SerialSockets σ) (w : SerialLine σ) :
    w.SameModes (w.close sys) ∧
      ((w.st.ctx.s < 0 ∧ w.close sys = w) ∨
        (0 ≤ w.st.ctx.s ∧ (w.close sys).st.ctx.s = -1 ∧ (w.close sys).line =
          if (w.st.attempt (sys.tcsetattr w.st.ctx.s.toNat)).1 then w.oldTios else w.line)) := by
  by_cases hs : 0 ≤ w.st.ctx.s
  · rw [close, if_pos hs]
    exact ⟨⟨rfl, rfl, rfl⟩, .inr ⟨hs, rfl, rfl⟩⟩
  · rw [close, if_neg hs]
    exact ⟨⟨rfl, rfl, rfl⟩, .inl ⟨Int.not_le.mp hs, rfl⟩⟩

theorem ioctl_ctx (f : Nat → σ → Option SysErrno × σ) (st : St (Ledger σ)) :
    (st.ioctl f).2.ctx = st.ctx := by
  unfold St.ioctl
  split_ifs
  · rfl
  · exact (attempt_quiet _ st).touched.ctx

/-- **What setting the mode can do**: nothing, or the context and the driver are in one mode. -/
theorem setSerialMode_cases (sys : SerialSockets σ) (mode : Int) (w : SerialLine σ) :
    (w.setSerialMode sys mode).2.st.ctx = w.st.ctx ∧
      (w.setSerialMode sys mode).2.rtu = w.rtu ∧ (w.setSerialMode sys mode).2.line = w.line ∧
      (w.setSerialMode sys mode).2.oldTios = w.oldTios ∧
      (w.driver = w.serialMode →
        (w.setSerialMode sys mode).2.driver = (w.setSerialMode sys mode).2.serialMode) := by
  have hget := ioctl_ctx sys.rs485Get w.st
  have hset := ioctl_ctx sys.rs485Set (w.st.ioctl sys.rs485Get).2
  unfold setSerialMode
  generalize w.st.ioctl sys.rs485Get = r₁ at hget hset
  obtain ⟨ok₁, st₁⟩ := r₁
  generalize hr : st₁.ioctl sys.rs485Set = r₂ at hset
  obtain ⟨ok₂, st₂⟩ := r₂
  simp only at hget hset
  have hctx := hset.trans hget
  by_cases h485 : mode = 1
  · rw [if_pos h485]
    cases ok₁ with
    | false => exact ⟨hget, rfl, rfl, rfl, id⟩
    | true =>
      simp only [hr, not_true_eq_false, if_false]
      cases ok₂ with
      | false => exact ⟨hctx, rfl, rfl, rfl, id⟩
      | true => exact ⟨hctx, rfl, rfl, rfl, fun _ => rfl⟩
  by_cases h232 : mode = 0
  · rw [if_neg h485, if_pos h232]
    by_cases hmode : w.serialMode = .rs485
    · rw [if_pos hmode]
      cases ok₁ with
      | false => exact ⟨hget, rfl, rfl, rfl, id⟩
      | true =>
        simp only [hr, not_true_eq_false, if_false]
        cases ok₂ with
        | false => exact ⟨hctx, rfl, rfl, rfl, id⟩
        | true => exact ⟨hctx, rfl, rfl, rfl, fun _ => rfl⟩
    · rw [if_neg hmode]
      have hmode' : w.serialMode = .rs232 := by
        cases h : w.serialMode with
        | rs232 => rfl
        | rs485 => exact absurd h hmode
      exact ⟨rfl, rfl, rfl, rfl, fun h => h.trans hmode'⟩
  · rw [if_neg h485, if_neg h232]
    exact ⟨rfl, rfl, rfl, rfl, id⟩

end SerialLine

/-! ### Sequences of calls -/

inductive LineCall
  | connect
  | close
  | setSerialMode (mode : Int)
  deriving DecidableEq, Repr

def LineCall.run (sys : SerialSockets σ) (termios2 : Bool) (w : SerialLine σ) :
    LineCall → SerialLine σ
  | .connect => (w.connect sys termios2).2
  | .close => w.close sys
  | .setSerialMode mode => (w.setSerialMode sys mode).2

/-- The settings the device had are in the device, or, while the context is connected, in it. -/
def SerialLine.Restorable (termios2 : Bool) (before : Termios) (w : SerialLine σ) : Prop :=
  if 0 ≤ w.st.ctx.s then w.line = rawLine termios2 w.rtu ∧ w.oldTios = before else w.line = before

/-- They are nowhere: the raw line is all there is to go back to. -/
def SerialLine.Lost (termios2 : Bool) (w : SerialLine σ) : Prop :=
  w.line = rawLine termios2 w.rtu ∧ (0 ≤ w.st.ctx.s → w.oldTios = rawLine termios2 w.rtu)

/-- The context is connected when it is not, and the restore of a close succeeds. -/
def LineCall.Clean (sys : SerialSockets σ) (w : SerialLine σ) : LineCall → Prop
  | .connect => w.st.ctx.s < 0
  | .close => 0 ≤ w.st.ctx.s → (w.st.attempt (sys.tcsetattr w.st.ctx.s.toNat)).1 = true
  | .setSerialMode _ => True

namespace LineCall

variable {sys : SerialSockets σ} {termios2 : Bool} {before : Termios} {w : SerialLine σ}

theorem run_rtu (sys : SerialSockets σ) (termios2 : Bool) (w : SerialLine σ) (call : LineCall) :
    (call.run sys termios2 w).rtu = w.rtu := by
  cases call with
  | connect => exact (w.connect_cases sys termios2).1.rtu
  | close => exact (w.close_cases sys).1.rtu
  | setSerialMode mode => exact (w.setSerialMode_cases sys mode).2.1

/-- The context and the driver stay in one mode. -/
theorem run_driver (h : w.driver = w.serialMode) (call : LineCall) :
    (call.run sys termios2 w).driver = (call.run sys termios2 w).serialMode := by
  have hsame {w' : SerialLine σ} (hw : w.SameModes w') : w'.driver = w'.serialMode :=
    (hw.driver.trans h).trans hw.serialMode.symm
  cases call with
  | connect => exact hsame (w.connect_cases sys termios2).1
  | close => exact hsame (w.close_cases sys).1
  | setSerialMode mode => exact (w.setSerialMode_cases sys mode).2.2.2.2 h

theorem run_restorable (h : w.Restorable termios2 before) {call : LineCall}
    (hc : call.Clean sys w) : (call.run sys termios2 w).Restorable termios2 before := by
  have hnone : ¬ (0 : Int) ≤ -1 := by decide
  unfold SerialLine.Restorable at h ⊢
  rw [call.run_rtu]
  cases call with
  | connect =>
    rw [if_neg (Int.not_le.mpr hc)] at h
    rw [run]
    obtain ⟨-, ⟨hfailed, hline⟩ | ⟨hok, hline, hold⟩⟩ := w.connect_cases sys termios2
    · rw [hfailed, if_neg hnone]
      exact hline.trans h
    · rw [if_pos hok]
      exact ⟨hline, hold.trans h⟩
  | close =>
    rw [run]
    obtain ⟨-, ⟨hs, hw⟩ | ⟨hs, hclosed, hline⟩⟩ := w.close_cases sys
    · rw [hw]
      exact h
    · rw [if_pos hs] at h
      rw [hc hs, if_pos rfl] at hline
      rw [hclosed, if_neg hnone]
      exact hline.trans h.2
  | setSerialMode mode =>
    obtain ⟨hctx, -, hline, hold, -⟩ := w.setSerialMode_cases sys mode
    rw [run, hctx, hline, hold]
    exact h

/-- What is lost stays lost. -/
theorem run_lost (h : w.Lost termios2) (call : LineCall) :
    (call.run sys termios2 w).Lost termios2 := by
  unfold SerialLine.Lost at h ⊢
  rw [call.run_rtu]
  cases call with
  | connect =>
    rw [run]
    obtain ⟨-, ⟨hfailed, hline⟩ | ⟨hok, hline, hold⟩⟩ := w.connect_cases sys termios2
    · exact ⟨hline.trans h.1, fun hs => absurd hs (by rw [hfailed]; decide)⟩
    · exact ⟨hline, fun _ => hold.trans h.1⟩
  | close =>
    rw [run]
    obtain ⟨-, ⟨hs, hw⟩ | ⟨hs, hclosed, hline⟩⟩ := w.close_cases sys
    · rw [hw]
      exact h
    · refine ⟨hline.trans ?_, fun hs' => absurd hs' (by rw [hclosed]; decide)⟩
      split_ifs
      · exact h.2 hs
      · exact h.1
  | setSerialMode mode =>
    obtain ⟨hctx, -, hline, hold, -⟩ := w.setSerialMode_cases sys mode
    rw [run, hctx, hline, hold]
    exact h

/-- A context that is connected has made the line raw. -/
theorem run_raw (h : 0 ≤ w.st.ctx.s → w.line = rawLine termios2 w.rtu) (call : LineCall)
    (hs : 0 ≤ (call.run sys termios2 w).st.ctx.s) :
    (call.run sys termios2 w).line = rawLine termios2 w.rtu := by
  cases call with
  | connect =>
    rw [run] at hs ⊢
    obtain ⟨-, ⟨hfailed, -⟩ | ⟨-, hline, -⟩⟩ := w.connect_cases sys termios2
    · rw [hfailed] at hs
      exact absurd hs (by decide)
    · exact hline
  | close =>
    rw [run] at hs ⊢
    obtain ⟨-, ⟨-, hw⟩ | ⟨-, hclosed, -⟩⟩ := w.close_cases sys
    · rw [hw] at hs ⊢
      exact h hs
    · rw [hclosed] at hs
      exact absurd hs (by decide)
  | setSerialMode mode =>
    obtain ⟨hctx, -, hline, -, -⟩ := w.setSerialMode_cases sys mode
    rw [run, hctx] at hs
    rw [run, hline]
    exact h hs

/-- A call that is not clean loses them. -/
theorem run_loses (h : w.Restorable termios2 before) {call : LineCall}
    (hc : ¬ call.Clean sys w) : (call.run sys termios2 w).Lost termios2 := by
  unfold SerialLine.Lost
  rw [call.run_rtu]
  cases call with
  | connect =>
    rw [SerialLine.Restorable, if_pos (Int.not_lt.mp hc)] at h
    rw [run]
    obtain ⟨-, ⟨hfailed, hline⟩ | ⟨hok, hline, hold⟩⟩ := w.connect_cases sys termios2
    · exact ⟨hline.trans h.1, fun hs => absurd hs (by rw [hfailed]; decide)⟩
    · exact ⟨hline, fun _ => hold.trans h.1⟩
  | close =>
    rw [run]
    obtain ⟨-, ⟨hs, -⟩ | ⟨hs, hclosed, hline⟩⟩ := w.close_cases sys
    · exact absurd (fun hs' => absurd hs (Int.not_lt.mpr hs')) hc
    · rw [SerialLine.Restorable, if_pos hs] at h
      have hfailed : ¬ (w.st.attempt (sys.tcsetattr w.st.ctx.s.toNat)).1 = true :=
        fun ht => hc fun _ => ht
      rw [if_neg hfailed] at hline
      exact ⟨hline.trans h.1, fun hs' => absurd hs' (by rw [hclosed]; decide)⟩
  | setSerialMode mode => exact absurd trivial hc

end LineCall

/-- The settings before were others, so a line that lost them cannot get them back. -/
theorem SerialLine.Lost.not_restorable {termios2 : Bool} {before : Termios} {w : SerialLine σ}
    (h : w.Lost termios2) (hne : before ≠ rawLine termios2 w.rtu) :
    ¬ w.Restorable termios2 before := by
  unfold SerialLine.Restorable
  split_ifs with hs
  · exact fun hr => hne (hr.2.symm.trans (h.2 hs))
  · exact fun hr => hne (hr.symm.trans h.1)

def serialRun (sys : SerialSockets σ) (termios2 : Bool) (calls : List LineCall)
    (w : SerialLine σ) : SerialLine σ := calls.foldl (LineCall.run sys termios2) w

def AlwaysClean (sys : SerialSockets σ) (termios2 : Bool) : List LineCall → SerialLine σ → Prop
  | [], _ => True
  | call :: calls, w => call.Clean sys w ∧ AlwaysClean sys termios2 calls (call.run sys termios2 w)

theorem serialRun_lost (sys : SerialSockets σ) {termios2 : Bool} (calls : List LineCall)
    {w : SerialLine σ} (h : w.Lost termios2) : (serialRun sys termios2 calls w).Lost termios2 := by
  induction calls generalizing w with
  | nil => exact h
  | cons call calls ih => exact ih (call.run_lost h)

theorem serialRun_rtu (sys : SerialSockets σ) (termios2 : Bool) (calls : List LineCall)
    (w : SerialLine σ) : (serialRun sys termios2 calls w).rtu = w.rtu := by
  induction calls generalizing w with
  | nil => rfl
  | cons call calls ih => exact (ih _).trans (call.run_rtu sys termios2 w)

theorem serialRun_restorable_iff {sys : SerialSockets σ} {termios2 : Bool} {before : Termios}
    (calls : List LineCall) {w : SerialLine σ} (h : w.Restorable termios2 before)
    (hne : before ≠ rawLine termios2 w.rtu) :
    (serialRun sys termios2 calls w).Restorable termios2 before ↔
      AlwaysClean sys termios2 calls w := by
  induction calls generalizing w with
  | nil => exact iff_of_true h trivial
  | cons call calls ih =>
    have hne' : before ≠ rawLine termios2 (call.run sys termios2 w).rtu := by
      rw [call.run_rtu]
      exact hne
    rw [AlwaysClean]
    by_cases hc : call.Clean sys w
    · exact (ih (call.run_restorable h hc) hne').trans (and_iff_right hc).symm
    · have hlost := serialRun_lost sys calls (call.run_loses h hc)
      refine iff_of_false (hlost.not_restorable ?_) fun h => hc h.1
      rw [serialRun_rtu]
      exact hne'

/-- **A connected line is raw, in the format of the context**, after any calls, whatever failed
before: nothing is changed on the way, and the parity and the bits of a character are those that
the context was made with (`Termios.InFormat`). -/
theorem serial_connected_raw (sys : SerialSockets σ) (termios2 : Bool) (calls : List LineCall)
    {device : Option String} {baud : Int} {parity : Char} {dataBit stopBit : Int}
    {w : SerialLine σ}
    (hnew : modbusNewRtu device baud parity dataBit stopBit = .ok (.ok w.rtu))
    (hs : w.st.ctx.s < 0) :
    0 ≤ (serialRun sys termios2 calls w).st.ctx.s →
      (serialRun sys termios2 calls w).line.Raw ∧
        (serialRun sys termios2 calls w).line.InFormat w.rtu := by
  have hraw : ∀ (calls : List LineCall) {w : SerialLine σ},
      (0 ≤ w.st.ctx.s → w.line = rawLine termios2 w.rtu) →
      0 ≤ (serialRun sys termios2 calls w).st.ctx.s →
      (serialRun sys termios2 calls w).line = rawLine termios2 w.rtu := by
    intro calls
    induction calls with
    | nil => exact fun h => h
    | cons call calls ih =>
      intro w h
      have hstep : 0 ≤ (call.run sys termios2 w).st.ctx.s →
          (call.run sys termios2 w).line = rawLine termios2 (call.run sys termios2 w).rtu := by
        rw [call.run_rtu]
        exact call.run_raw h
      have hrest := ih hstep
      rw [call.run_rtu] at hrest
      exact hrest
  intro hconnected
  rw [hraw calls (fun h => absurd h (Int.not_le.mpr hs)) hconnected]
  exact rawLine_spec termios2 hnew

/-- A system where every call succeeds. -/
def easySerial : SerialSockets Unit where
  toSockets := easySockets
  rs485Get _ s := (none, s)
  rs485Set _ s := (none, s)

/-- A context that is not connected, and a device that is a terminal. -/
def sampleSerial : SerialLine Unit where
  st := disconnected (modbusNew .rtu) (.sys (.other 0)) ()
  rtu := ⟨19200, 'E', 8, 1, .none, 572, 572⟩
  oldTios := ⟨0, 0, 0, 0, 0, 0, 0⟩
  serialMode := .rs232
  line := ⟨0x500, 0x5, 0xBF, 0x8A3B, 1, 0, 38400⟩
  driver := .rs232

theorem serial_connected_raw_sample :
    0 ≤ (serialRun easySerial true [.connect] sampleSerial).st.ctx.s ∧
      (serialRun easySerial true [.connect] sampleSerial).line.Raw ∧
      (serialRun easySerial true [.connect] sampleSerial).line.InFormat sampleSerial.rtu := by
  have hconnected : 0 ≤ (serialRun easySerial true [.connect] sampleSerial).st.ctx.s := by
    decide +kernel
  have hnew : modbusNewRtu (some "/dev/ttyS0") 19200 'E' 8 1 = .ok (.ok sampleSerial.rtu) := rfl
  exact ⟨hconnected, serial_connected_raw easySerial true [.connect] hnew (by decide) hconnected⟩

/-- With a second connect the raw line is what the device is left with. -/
example : (serialRun easySerial true [.connect, .connect, .close] sampleSerial).line =
    rawLine true sampleSerial.rtu := rfl

end Libmodbus
