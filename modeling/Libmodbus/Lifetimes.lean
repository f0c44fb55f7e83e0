/-
Libmodbus/Lifetimes.lean

The objects of the library in memory, from the call that makes them to the one
that frees them.

    mapping   modbus_mapping_t, tab_bits, tab_input_bits, tab_registers, tab_input_registers
    RTU       modbus_t, modbus_rtu_t, device
    TCP       modbus_t, modbus_tcp_t
    TCP-PI    modbus_t, modbus_tcp_pi_t, node, service

Any of the calls to `malloc` may fail, and what was made before it is then to be
given back.  After any sequence of calls the blocks that are live are those of
the objects that were returned and are not freed, and no block was freed twice
(`nothing_leaks`).  What a call returns is what the models without memory say,
or `NULL` with `EINVAL` or `ENOMEM` (`creations_exact`).
-/
import Libmodbus.Lib.Heap
import Libmodbus.Lib.Cells
import Libmodbus.Lib.Runs
import Libmodbus.Mapping
import Libmodbus.Rts

namespace Libmodbus

open CSem Posix

variable {σ : Type}

/-! ### strlcpy -/

/-- The characters of a C string, without the NUL. -/
structure CString where
  chars : List UInt8
  noNul : 0 ∉ chars

def CString.memory (s : CString) : List UInt8 := s.chars ++ [0]

/-- The string in an array. -/
def stringAt (buf : List UInt8) : List UInt8 := buf.takeWhile (· ≠ 0)

/-- Copy as many bytes as will fit: what is left of `n`, and how far `s` and `d` have come. -/
def strlcpyLoop (src : List UInt8) : Nat → Nat → List UInt8 → Run (Nat × Nat × List UInt8)
  | 0, i, dest => .ok (0, i, dest)
  | n + 1, i, dest => do
    let c ← rd src i
    let dest ← wr dest i c
    if c = 0 then .ok (n + 1, i + 1, dest) else strlcpyLoop src n (i + 1) dest

/-- `while (*s++);` over what follows `s`. -/
def skipString : List UInt8 → Nat → Run Nat
  | [], s => .error (.readOutside s)
  | c :: rest, s => if c = 0 then .ok (s + 1) else skipString rest (s + 1)

/-- `strlcpy`, with `dest` as it is afterwards. -/
def strlcpy (dest src : List UInt8) (destSize : Nat) : Run (Nat × List UInt8) := do
  let (n, s, dest) ← strlcpyLoop src (destSize - 1) 0 dest
  -- not enough room in dest, add NUL and traverse rest of src
  if n = 0 then do
    let dest ← if destSize ≠ 0 then wr dest s 0 else .ok dest
    let s ← skipString (src.drop s) s
    .ok (s - 1, dest)
  else .ok (s - 1, dest)

theorem skipString_eq (chars rest : List UInt8) (h : 0 ∉ chars) (s : Nat) :
    skipString (chars ++ 0 :: rest) s = .ok (s + chars.length + 1) := by
  induction chars generalizing s with
  | nil => rfl
  | cons c chars ih =>
    rw [List.mem_cons, not_or] at h
    rw [List.cons_append, skipString, if_neg (Ne.symm h.1), ih h.2, List.length_cons]
    congr 1
    omega

/-- The loop ends at the NUL, or when there is no room for more. -/
theorem strlcpyLoop_eq {chars : List UInt8} (h : 0 ∉ chars) (dest rest : List UInt8) (n i : Nat)
    (hi : i ≤ chars.length) (hroom : i + n ≤ dest.length) :
    strlcpyLoop (chars ++ 0 :: rest) n i (splice dest 0 (chars.take i)) =
      .ok (if i + n ≤ chars.length then (0, i + n, splice dest 0 (chars.take (i + n)))
        else (i + n - chars.length, chars.length + 1, splice dest 0 (chars ++ [0]))) := by
  induction n generalizing i with
  | zero => rw [strlcpyLoop, Nat.add_zero, if_pos hi]
  | succ n ih =>
    have hwrite := wr_splice_take hi (show i < dest.length by omega)
    rcases Nat.lt_or_eq_of_le hi with hlt | rfl
    · have hread : rd (chars ++ 0 :: rest) i = .ok chars[i] := by
        rw [rd_append_left _ hlt, rd_lt hlt]
      have hc : chars[i] ≠ 0 := fun hz => h (hz ▸ List.getElem_mem hlt)
      rw [strlcpyLoop, hread, ok_bind, hwrite, ok_bind, if_neg hc, List.take_concat_get' _ _ hlt,
        ih (i + 1) hlt (by omega), Nat.add_right_comm, Nat.add_assoc]
    · have hread : rd (chars ++ 0 :: rest) chars.length = .ok 0 := by
        have h0 := rd_append_add chars (0 :: rest) rfl (Nat.succ_pos rest.length)
        rwa [Nat.add_zero] at h0
      rw [strlcpyLoop, hread, ok_bind, hwrite, ok_bind, if_pos rfl, if_neg (by omega),
        List.take_length]
      congr 2
      omega

/-- **`strlcpy` stays inside both arrays**, returns the length of `src`, and leaves as much of it as
fits, with a NUL. -/
theorem strlcpy_eq {chars : List UInt8} (h : 0 ∉ chars) (dest rest : List UInt8) {destSize : Nat}
    (hpos : 0 < destSize) (hroom : destSize ≤ dest.length) :
    strlcpy dest (chars ++ 0 :: rest) destSize =
      .ok (chars.length, splice dest 0 (chars.take (destSize - 1) ++ [0])) := by
  have hloop := strlcpyLoop_eq h dest rest (destSize - 1) 0 (Nat.zero_le _) (by omega)
  rw [List.take_zero, splice_nil, Nat.zero_add] at hloop
  rw [strlcpy, hloop]
  simp only [ok_bind]
  by_cases hfull : destSize - 1 ≤ chars.length
  · have hwrite := wr_splice_take hfull (show destSize - 1 < dest.length by omega) 0
    have hdrop : 0 ∉ chars.drop (destSize - 1) := fun hm => h (List.mem_of_mem_drop hm)
    simp only [if_pos hfull, if_true, if_pos (Nat.ne_of_gt hpos), hwrite, ok_bind,
      List.drop_append_of_le_length hfull, skipString_eq _ rest hdrop, List.length_drop]
    congr 2
    omega
  · have hn : 0 + (destSize - 1) - chars.length ≠ 0 := by omega
    rw [Nat.zero_add] at hn
    simp only [if_neg hfull, if_neg hn, Nat.add_sub_cancel]
    rw [List.take_of_length_le (by omega)]

theorem stringAt_splice {chars : List UInt8} (h : 0 ∉ chars) (dest : List UInt8) :
    stringAt (splice dest 0 (chars ++ [0])) = chars := by
  rw [splice_zero, List.append_assoc, stringAt, List.takeWhile_append_of_pos]
  · exact List.append_nil chars
  · intro c hc
    have hne : c ≠ 0 := fun hz => h (hz ▸ hc)
    simpa using hne

/-! ### Objects in memory -/

/-- What `malloc` is asked for. -/
structure Sizes where
  modbus : Nat
  modbusRtu : Nat
  modbusTcp : Nat
  modbusTcpPi : Nat
  modbusMapping : Nat

/-- The pointers in the data of a backend. -/
inductive Strings
  | rtu (device : Option Nat)
  | tcp
  | tcpPi (node service : Option Nat)

structure ContextPtr where
  self : Nat
  backendData : Option Nat
  strings : Strings

structure MappingPtr where
  self : Nat
  tabBits : Option Nat
  tabInputBits : Option Nat
  tabRegisters : Option Nat
  tabInputRegisters : Option Nat

/-- What is in the blocks, apart from what every context starts with. -/
inductive Content
  | rtu (device : String) (ctx : ModbusRtu)
  | tcp (ip : List UInt8) (port : Int)
  | tcpPi (node service : String)
  | mapping (m : Mapping)

inductive Place
  | context (ctx : ContextPtr)
  | mapping (mbMapping : MappingPtr)

structure Object where
  place : Place
  content : Content

namespace InMemory

/-! ### Freeing -/

/-- The strings that `_modbus_rtu_free`, `_modbus_tcp_free` and `_modbus_tcp_pi_free` free. -/
def freeStrings (a : Allocator σ) : Strings → Heap σ → Heap σ
  | .rtu device, m => m.free a device
  | .tcp, m => m
  | .tcpPi node service, m => (m.free a node).free a service

/-- `modbus_free` -/
def modbusFree (a : Allocator σ) (ctx : ContextPtr) (m : Heap σ) : Heap σ :=
  match ctx.backendData with
  | none => m.free a ctx.self
  | some data => ((freeStrings a ctx.strings m).free a data).free a ctx.self

/-- `modbus_mapping_free` -/
def modbusMappingFree (a : Allocator σ) (mb : MappingPtr) (m : Heap σ) : Heap σ :=
  ((((m.free a mb.tabInputRegisters).free a mb.tabRegisters).free a mb.tabInputBits).free a
    mb.tabBits).free a mb.self

/-! ### Contexts -/

/-- The fields of an RTU context, from the parity on. -/
def rtuFields (baud : Int) (parity : Char) (dataBit stopBit : Int) : Run ModbusRtu := do
  let bits ← cint (1 + dataBit)
  let bits ← cint (bits + if parity = 'N' then 0 else 1)
  let bits ← cint (bits + stopBit)
  let micros ← cint (1000000 * bits)
  let onebyteTime := micros.tdiv baud
  .ok ⟨baud, parity, dataBit, stopBit, .none, onebyteTime, onebyteTime⟩

/-- `modbus_new_rtu` -/
def modbusNewRtu (a : Allocator σ) (sz : Sizes) (device : Option String) (baud : Int)
    (parity : Char) (dataBit stopBit : Int) (m : Heap σ) : Run (Option Object × Heap σ) :=
  if device = none ∨ device = some "" then .ok (none, m.fail .EINVAL)
  else if baud ≤ 0 then .ok (none, m.fail .EINVAL)
  else if dataBit < 5 ∨ 8 < dataBit then .ok (none, m.fail .EINVAL)
  else if stopBit ≠ 1 ∧ stopBit ≠ 2 then .ok (none, m.fail .EINVAL)
  else
    let device := device.getD ""
    match m.malloc a sz.modbus with
    | (none, m) => .ok (none, m)
    | (some self, m) =>
      match m.malloc a sz.modbusRtu with
      | (none, m) => .ok (none, (modbusFree a ⟨self, none, .rtu none⟩ m).fail .ENOMEM)
      | (some data, m) =>
        -- device name and \0
        match m.malloc a (device.utf8ByteSize + 1) with
        | (none, m) => .ok (none, (modbusFree a ⟨self, some data, .rtu none⟩ m).fail .ENOMEM)
        | (some name, m) =>
          let ctx : ContextPtr := ⟨self, some data, .rtu (some name)⟩
          if ¬ (parity = 'N' ∨ parity = 'E' ∨ parity = 'O') then
            .ok (none, (modbusFree a ctx m).fail .EINVAL)
          else do
            let fields ← rtuFields baud parity dataBit stopBit
            .ok (some ⟨.context ctx, .rtu device fields⟩, m)

/-- `modbus_new_tcp`, where `junk` is what `malloc` left in `ctx_tcp->ip`. -/
def modbusNewTcp (a : Allocator σ) (sz : Sizes) (ip : Option CString) (port : Int)
    (junk : Vector UInt8 16) (m : Heap σ) : Run (Option Object × Heap σ) :=
  match m.malloc a sz.modbus with
  | (none, m) => .ok (none, m)
  | (some self, m) =>
    match m.malloc a sz.modbusTcp with
    | (none, m) => .ok (none, (modbusFree a ⟨self, none, .tcp⟩ m).fail .ENOMEM)
    | (some data, m) =>
      let ctx : ContextPtr := ⟨self, some data, .tcp⟩
      match ip with
      | some ip => do
        let (retSize, field) ← strlcpy junk.toList ip.memory 16
        if retSize = 0 then .ok (none, (modbusFree a ctx m).fail .EINVAL)
        else if 16 ≤ retSize then .ok (none, (modbusFree a ctx m).fail .EINVAL)
        else .ok (some ⟨.context ctx, .tcp (stringAt field) port⟩, m)
      | none => do
        let field ← wr junk.toList 0 0x30
        let field ← wr field 1 0
        .ok (some ⟨.context ctx, .tcp (stringAt field) port⟩, m)

/-- `strdup` -/
def strdup (a : Allocator σ) (s : String) (m : Heap σ) : Option Nat × Heap σ :=
  m.malloc a (s.utf8ByteSize + 1)

/-- `modbus_new_tcp_pi` -/
def modbusNewTcpPi (a : Allocator σ) (sz : Sizes) (node service : Option String) (m : Heap σ) :
    Option Object × Heap σ :=
  match m.malloc a sz.modbus with
  | (none, m) => (none, m)
  | (some self, m) =>
    match m.malloc a sz.modbusTcpPi with
    | (none, m) => (none, (modbusFree a ⟨self, none, .tcpPi none none⟩ m).fail .ENOMEM)
    | (some data, m) =>
      -- the node can be empty to indicate any hosts
      let node := node.getD ""
      match strdup a node m with
      | (none, m) => (none, (modbusFree a ⟨self, some data, .tcpPi none none⟩ m).fail .ENOMEM)
      | (some nodePtr, m) =>
        let service := if service ≠ none ∧ service ≠ some "" then service.getD "" else "502"
        match strdup a service m with
        | (none, m) =>
          (none, (modbusFree a ⟨self, some data, .tcpPi (some nodePtr) none⟩ m).fail .ENOMEM)
        | (some servicePtr, m) =>
          (some ⟨.context ⟨self, some data, .tcpPi (some nodePtr) (some servicePtr)⟩,
            .tcpPi node service⟩, m)

/-! ### Mappings -/

/-- One of the four tables: there is no block for an empty one. -/
def newTable (a : Allocator σ) (nb cellSize : Nat) (m : Heap σ) : Option (Option Nat) × Heap σ :=
  if nb = 0 then (some none, m)
  else match m.malloc a (nb * cellSize) with
    | (none, m) => (none, m)
    | (some tab, m) => (some (some tab), m)

/-- `modbus_mapping_new_start_address` -/
def modbusMappingNewStartAddress (a : Allocator σ) (sz : Sizes) (startBits nbBits startInputBits
    nbInputBits startRegisters nbRegisters startInputRegisters nbInputRegisters : UInt32)
    (m : Heap σ) : Option Object × Heap σ :=
  if h : (nbBits.toNat ≤ maxTableSize ∧ nbInputBits.toNat ≤ maxTableSize) ∧
      nbRegisters.toNat ≤ maxTableSize ∧ nbInputRegisters.toNat ≤ maxTableSize then
    match m.malloc a sz.modbusMapping with
    | (none, m) => (none, m)
    | (some self, m) =>
      -- 0X
      match newTable a nbBits.toNat 1 m with
      | (none, m) => (none, m.free a self)
      | (some tabBits, m) =>
        -- 1X
        match newTable a nbInputBits.toNat 1 m with
        | (none, m) => (none, (m.free a tabBits).free a self)
        | (some tabInputBits, m) =>
          -- 4X
          match newTable a nbRegisters.toNat 2 m with
          | (none, m) => (none, ((m.free a tabInputBits).free a tabBits).free a self)
          | (some tabRegisters, m) =>
            -- 3X
            match newTable a nbInputRegisters.toNat 2 m with
            | (none, m) => (none,
                (((m.free a tabRegisters).free a tabInputBits).free a tabBits).free a self)
            | (some tabInputRegisters, m) => (some {
                place := .mapping ⟨self, tabBits, tabInputBits, tabRegisters, tabInputRegisters⟩
                content := .mapping {
                  bits := .new startBits nbBits h.1.1
                  inputBits := .new startInputBits nbInputBits h.1.2
                  registers := .new startRegisters nbRegisters h.2.1
                  inputRegisters := .new startInputRegisters nbInputRegisters h.2.2 } }, m)
  else (none, m.fail .EINVAL)

/-- `modbus_mapping_new` -/
def modbusMappingNew (a : Allocator σ) (sz : Sizes) (nbBits nbInputBits nbRegisters
    nbInputRegisters : Int) (m : Heap σ) : Option Object × Heap σ :=
  if nbBits < 0 ∨ nbInputBits < 0 ∨ nbRegisters < 0 ∨ nbInputRegisters < 0 then
    (none, m.fail .EINVAL)
  else
    modbusMappingNewStartAddress a sz 0 (UInt32.ofNat nbBits.toNat) 0
      (UInt32.ofNat nbInputBits.toNat) 0 (UInt32.ofNat nbRegisters.toNat) 0
      (UInt32.ofNat nbInputRegisters.toNat) m

end InMemory

/-! ### Blocks -/

/-- The blocks of an object, in the order in which they are freed. -/
def Strings.blocks : Strings → List Nat
  | .rtu device => device.toList
  | .tcp => []
  | .tcpPi node service => node.toList ++ service.toList

def ContextPtr.blocks (ctx : ContextPtr) : List Nat :=
  match ctx.backendData with
  | none => [ctx.self]
  | some data => ctx.strings.blocks ++ [data] ++ [ctx.self]

def MappingPtr.blocks (mb : MappingPtr) : List Nat :=
  mb.tabInputRegisters.toList ++ mb.tabRegisters.toList ++ mb.tabInputBits.toList ++
    mb.tabBits.toList ++ [mb.self]

def Object.blocks (o : Object) : List Nat :=
  match o.place with
  | .context ctx => ctx.blocks
  | .mapping mb => mb.blocks

namespace InMemory

open Heap

theorem freeStrings_frees (a : Allocator σ) (s : Strings) : Frees s.blocks (freeStrings a s) := by
  cases s with
  | rtu device => exact .free a device
  | tcp => exact .nil
  | tcpPi node service => exact (Frees.free a node).comp (.free a service)

theorem modbusFree_frees (a : Allocator σ) (ctx : ContextPtr) :
    Frees ctx.blocks (modbusFree a ctx) := by
  obtain ⟨self, - | data, s⟩ := ctx
  · exact .free a self
  · exact ((freeStrings_frees a s).comp (.free a data)).comp (.free a self)

theorem modbusMappingFree_frees (a : Allocator σ) (mb : MappingPtr) :
    Frees mb.blocks (modbusMappingFree a mb) :=
  ((((Frees.free a mb.tabInputRegisters).comp (.free a mb.tabRegisters)).comp
    (.free a mb.tabInputBits)).comp (.free a mb.tabBits)).comp (.free a mb.self)

end InMemory

/-! ### Creating -/

/-- The calls that make an object. -/
inductive Creation
  | rtu (device : Option String) (baud : Int) (parity : Char) (dataBit stopBit : Int)
  | tcp (ip : Option CString) (port : Int) (junk : Vector UInt8 16)
  | tcpPi (node service : Option String)
  | mappingStartAddress (startBits nbBits startInputBits nbInputBits startRegisters nbRegisters
      startInputRegisters nbInputRegisters : UInt32)
  | mapping (nbBits nbInputBits nbRegisters nbInputRegisters : Int)

def Creation.run (a : Allocator σ) (sz : Sizes) : Creation → Heap σ → Run (Option Object × Heap σ)
  | .rtu device baud parity dataBit stopBit =>
    InMemory.modbusNewRtu a sz device baud parity dataBit stopBit
  | .tcp ip port junk => InMemory.modbusNewTcp a sz ip port junk
  | .tcpPi node service => fun m => .ok (InMemory.modbusNewTcpPi a sz node service m)
  | .mappingStartAddress startBits nbBits startInputBits nbInputBits startRegisters nbRegisters
      startInputRegisters nbInputRegisters => fun m =>
    .ok (InMemory.modbusMappingNewStartAddress a sz startBits nbBits startInputBits nbInputBits
      startRegisters nbRegisters startInputRegisters nbInputRegisters m)
  | .mapping nbBits nbInputBits nbRegisters nbInputRegisters => fun m =>
    .ok (InMemory.modbusMappingNew a sz nbBits nbInputBits nbRegisters nbInputRegisters m)

/-- What the call makes where there is memory; nothing where it refuses its arguments. -/
def Creation.content : Creation → Option Content
  | .rtu device baud parity dataBit stopBit =>
    match modbusNewRtu device baud parity dataBit stopBit with
    | .ok (.ok ctx) => some (.rtu (device.getD "") ctx)
    | _ => none
  | .tcp none port _ => some (.tcp [0x30] port)
  | .tcp (some ip) port _ =>
    if ip.chars ≠ [] ∧ ip.chars.length ≤ 15 then some (.tcp ip.chars port) else none
  | .tcpPi node service =>
    some (.tcpPi (node.getD "") (if service.getD "" = "" then "502" else service.getD ""))
  | .mappingStartAddress startBits nbBits startInputBits nbInputBits startRegisters nbRegisters
      startInputRegisters nbInputRegisters =>
    (modbusMappingNewStartAddress startBits nbBits startInputBits nbInputBits startRegisters
      nbRegisters startInputRegisters nbInputRegisters).toOption.map .mapping
  | .mapping nbBits nbInputBits nbRegisters nbInputRegisters =>
    if nbBits < 0 ∨ nbInputBits < 0 ∨ nbRegisters < 0 ∨ nbInputRegisters < 0 then none
    else (modbusMappingNewStartAddress 0 (UInt32.ofNat nbBits.toNat) 0
      (UInt32.ofNat nbInputBits.toNat) 0 (UInt32.ofNat nbRegisters.toNat) 0
      (UInt32.ofNat nbInputRegisters.toNat)).toOption.map .mapping

/-- The answer to a call: the object, or `NULL` and why. -/
def Creation.Answers (c : Creation) : Option Object → SysErrno → Prop
  | some o, _ => c.content = some o.content
  | none, e => (c.content = none ∧ e = .EINVAL) ∨ e = .ENOMEM

/-- A call made on `m` has come to `r`: the blocks there are more are those of what is returned. -/
structure Creates (a : Allocator σ) (c : Creation) (m : Heap σ) (r : Option Object × Heap σ) :
    Prop where
  adds : Heap.Adds (r.1.elim [] Object.blocks) m r.2
  answers : Heap.Tidy a → c.Answers r.1 r.2.errno

namespace Creates

open Heap

variable {a : Allocator σ} {c : Creation} {m m' m'' : Heap σ} {n : Nat}

theorem made {o : Object} (h : Adds o.blocks m m') (hc : c.content = some o.content) :
    Creates a c m (some o, m') := ⟨h, fun _ => hc⟩

theorem refused (h : Adds [] m m') (hc : c.content = none) :
    Creates a c m (none, m'.fail .EINVAL) := ⟨h, fun _ => .inl ⟨hc, rfl⟩⟩

theorem noMemory (h : Adds [] m m') : Creates a c m (none, m'.fail .ENOMEM) :=
  ⟨h, fun _ => .inr rfl⟩

theorem noBlock (h : Adds [] m m') (hp : m'.malloc a n = (none, m'')) :
    Creates a c m (none, m'') := ⟨h.malloc_none hp, fun ha => .inr (malloc_errno ha hp)⟩

/-- An object that is given up, when the next block is not there or its arguments are refused. -/
theorem noBlock_free (ctx : ContextPtr) (h : Adds ctx.blocks m m')
    (hp : m'.malloc a n = (none, m'')) :
    Creates a c m (none, (InMemory.modbusFree a ctx m'').fail .ENOMEM) := by
  refine noMemory (Adds.frees ?_ (InMemory.modbusFree_frees a ctx))
  rw [List.append_nil]
  exact h.malloc_none hp

theorem refused_free (ctx : ContextPtr) (h : Adds ctx.blocks m m') (hc : c.content = none) :
    Creates a c m (none, (InMemory.modbusFree a ctx m').fail .EINVAL) := by
  refine refused (Adds.frees ?_ (InMemory.modbusFree_frees a ctx)) hc
  rw [List.append_nil]
  exact h

end Creates

namespace InMemory

open Heap

variable (a : Allocator σ) (sz : Sizes)

theorem rtuFields_map (baud : Int) (parity : Char) (dataBit stopBit : Int) {device : Option String}
    (hdevice : ¬ (device = none ∨ device = some "")) (hbaud : ¬ baud ≤ 0)
    (hdata : ¬ (dataBit < 5 ∨ 8 < dataBit)) (hstop : ¬ (stopBit ≠ 1 ∧ stopBit ≠ 2))
    (hparity : ¬ ¬ (parity = 'N' ∨ parity = 'E' ∨ parity = 'O')) :
    Libmodbus.modbusNewRtu device baud parity dataBit stopBit =
      (rtuFields baud parity dataBit stopBit).map .ok := by
  rw [Libmodbus.modbusNewRtu, if_neg hdevice, if_neg hbaud, if_neg hdata, if_neg hstop,
    if_neg hparity, rtuFields]
  refine bind_map_congr fun bits _ => bind_map_congr fun bits _ => bind_map_congr fun bits _ =>
    bind_map_congr fun micros _ => rfl

theorem modbusNewRtu_creates (device : Option String) (baud : Int) (parity : Char)
    (dataBit stopBit : Int) (m : Heap σ) :
    ∃ r, modbusNewRtu a sz device baud parity dataBit stopBit m = .ok r ∧
      Creates a (.rtu device baud parity dataBit stopBit) m r := by
  obtain ⟨r, hr, -⟩ := modbusNewRtu_defined device baud parity dataBit stopBit
  have hrefused : Libmodbus.modbusNewRtu device baud parity dataBit stopBit = .ok (.error .EINVAL) →
      (Creation.rtu device baud parity dataBit stopBit).content = none := by
    intro h
    simp only [Creation.content, h]
  rw [modbusNewRtu]
  by_cases hdevice : device = none ∨ device = some ""
  · rw [if_pos hdevice]
    exact ⟨_, rfl, .refused (.refl m) (hrefused (by rw [Libmodbus.modbusNewRtu, if_pos hdevice]))⟩
  by_cases hbaud : baud ≤ 0
  · rw [if_neg hdevice, if_pos hbaud]
    exact ⟨_, rfl, .refused (.refl m) (hrefused (by
      rw [Libmodbus.modbusNewRtu, if_neg hdevice, if_pos hbaud]))⟩
  by_cases hdata : dataBit < 5 ∨ 8 < dataBit
  · rw [if_neg hdevice, if_neg hbaud, if_pos hdata]
    exact ⟨_, rfl, .refused (.refl m) (hrefused (by
      rw [Libmodbus.modbusNewRtu, if_neg hdevice, if_neg hbaud, if_pos hdata]))⟩
  by_cases hstop : stopBit ≠ 1 ∧ stopBit ≠ 2
  · rw [if_neg hdevice, if_neg hbaud, if_neg hdata, if_pos hstop]
    exact ⟨_, rfl, .refused (.refl m) (hrefused (by
      rw [Libmodbus.modbusNewRtu, if_neg hdevice, if_neg hbaud, if_neg hdata, if_pos hstop]))⟩
  rw [if_neg hdevice, if_neg hbaud, if_neg hdata, if_neg hstop]
  rcases hself : m.malloc a sz.modbus with ⟨- | self, m₁⟩
  · exact ⟨_, rfl, .noBlock (.refl m) hself⟩
  have h₁ := (Adds.refl m).malloc hself
  rcases hptr : m₁.malloc a sz.modbusRtu with ⟨- | data, m₂⟩
  · refine ⟨_, ?_, Creates.noBlock_free ⟨self, none, .rtu none⟩ h₁ hptr⟩
    simp only [hptr]
  have h₂ := h₁.malloc hptr
  simp only [hptr]
  rcases hname : m₂.malloc a ((device.getD "").utf8ByteSize + 1) with ⟨- | name, m₃⟩
  · exact ⟨_, rfl, .noBlock_free ⟨self, some data, .rtu none⟩ h₂ hname⟩
  have h₃ := h₂.malloc hname
  simp only
  by_cases hparity : ¬ (parity = 'N' ∨ parity = 'E' ∨ parity = 'O')
  · rw [if_pos hparity]
    exact ⟨_, rfl, .refused_free ⟨self, some data, .rtu (some name)⟩ h₃ (hrefused (by
      rw [Libmodbus.modbusNewRtu, if_neg hdevice, if_neg hbaud, if_neg hdata, if_neg hstop,
        if_pos hparity]))⟩
  rw [if_neg hparity]
  have hmap := rtuFields_map baud parity dataBit stopBit hdevice hbaud hdata hstop hparity
  rcases hfields : rtuFields baud parity dataBit stopBit with stop | fields
  · rw [hfields, hr] at hmap
    cases hmap
  · rw [hfields] at hmap
    refine ⟨_, rfl, .made h₃ ?_⟩
    simp only [Creation.content, hmap, Except.map]

theorem modbusNewTcp_creates (ip : Option CString) (port : Int) (junk : Vector UInt8 16)
    (m : Heap σ) :
    ∃ r, modbusNewTcp a sz ip port junk m = .ok r ∧ Creates a (.tcp ip port junk) m r := by
  rw [modbusNewTcp]
  rcases hself : m.malloc a sz.modbus with ⟨- | self, m₁⟩
  · exact ⟨_, rfl, .noBlock (.refl m) hself⟩
  have h₁ := (Adds.refl m).malloc hself
  rcases hptr : m₁.malloc a sz.modbusTcp with ⟨- | data, m₂⟩
  · refine ⟨_, ?_, Creates.noBlock_free ⟨self, none, .tcp⟩ h₁ hptr⟩
    simp only [hptr]
  have h₂ := h₁.malloc hptr
  have hlen : junk.toList.length = 16 := by simp
  simp only [hptr]
  cases ip with
  | none =>
    -- only the first two bytes of the array are written
    have h0 : wr (splice junk.toList 0 []) 0 0x30 = .ok (splice junk.toList 0 [0x30]) :=
      wr_splice (by rw [hlen]; decide) 0x30
    have h1 : wr (splice junk.toList 0 [0x30]) 1 0 = .ok (splice junk.toList 0 ([0x30] ++ [0])) :=
      wr_splice (by rw [hlen]; decide) 0
    have hzero : 0 ∉ ([0x30] : List UInt8) := by decide
    rw [splice_nil] at h0
    simp only [h0, h1, ok_bind, stringAt_splice hzero]
    exact ⟨_, rfl, .made h₂ rfl⟩
  | some ip =>
    have hcopy : strlcpy junk.toList (ip.chars ++ [0]) 16 =
        .ok (ip.chars.length, splice junk.toList 0 (ip.chars.take (16 - 1) ++ [0])) :=
      strlcpy_eq ip.noNul junk.toList [] (by decide) (by omega)
    simp only [CString.memory, hcopy, ok_bind]
    by_cases hempty : ip.chars.length = 0
    · rw [if_pos hempty]
      refine ⟨_, rfl, .refused_free ⟨self, some data, .tcp⟩ h₂ ?_⟩
      exact if_neg fun h => h.1 (List.length_eq_zero_iff.mp hempty)
    by_cases hlong : 16 ≤ ip.chars.length
    · rw [if_neg hempty, if_pos hlong]
      refine ⟨_, rfl, .refused_free ⟨self, some data, .tcp⟩ h₂ ?_⟩
      exact if_neg fun h => absurd hlong (by omega)
    rw [if_neg hempty, if_neg hlong]
    refine ⟨_, rfl, .made h₂ ?_⟩
    have hfits : ip.chars.take (16 - 1) = ip.chars := List.take_of_length_le (by omega)
    have hne : ip.chars ≠ [] := fun h => hempty (List.length_eq_zero_iff.mpr h)
    simp only [hfits, stringAt_splice ip.noNul]
    exact if_pos ⟨hne, by omega⟩

theorem modbusNewTcpPi_creates (node service : Option String) (m : Heap σ) :
    Creates a (.tcpPi node service) m (modbusNewTcpPi a sz node service m) := by
  unfold modbusNewTcpPi strdup
  rcases hself : m.malloc a sz.modbus with ⟨- | self, m₁⟩
  · exact .noBlock (.refl m) hself
  have h₁ := (Adds.refl m).malloc hself
  simp only
  rcases hptr : m₁.malloc a sz.modbusTcpPi with ⟨- | data, m₂⟩
  · exact .noBlock_free ⟨self, none, .tcpPi none none⟩ h₁ hptr
  have h₂ := h₁.malloc hptr
  simp only
  rcases hnode : m₂.malloc a ((node.getD "").utf8ByteSize + 1) with ⟨- | nodePtr, m₃⟩
  · exact .noBlock_free ⟨self, some data, .tcpPi none none⟩ h₂ hnode
  have h₃ := h₂.malloc hnode
  simp only
  generalize hstring : (if service ≠ none ∧ service ≠ some "" then service.getD "" else "502") =
    string
  rcases hservice : m₃.malloc a (string.utf8ByteSize + 1) with ⟨- | servicePtr, m₄⟩
  · exact .noBlock_free ⟨self, some data, .tcpPi (some nodePtr) none⟩ h₃ hservice
  have h₄ := h₃.malloc hservice
  refine .made (h₄.reorder (List.Perm.swap nodePtr servicePtr _)) ?_
  have hdefault : string = if service.getD "" = "" then "502" else service.getD "" := by
    rw [← hstring]
    cases service with
    | none => rfl
    | some s => by_cases hs : s = "" <;> simp [hs]
  rw [Creation.content, hdefault]

/-! Tables -/

variable {a} {bs : List Nat} {m m' m'' : Heap σ} {nb cellSize : Nat}

theorem newTable_adds {tab : Option Nat} (h : Adds bs m m')
    (hp : newTable a nb cellSize m' = (some tab, m'')) : Adds (tab.toList ++ bs) m m'' := by
  unfold newTable at hp
  by_cases hnb : nb = 0
  · rw [if_pos hnb] at hp
    cases hp
    exact h
  · rw [if_neg hnb] at hp
    rcases htab : m'.malloc a (nb * cellSize) with ⟨- | p, m₁⟩
    · rw [htab] at hp
      cases hp
    · rw [htab] at hp
      cases hp
      exact h.malloc htab

theorem newTable_none (h : Adds bs m m') (hp : newTable a nb cellSize m' = (none, m'')) :
    Adds bs m m'' ∧ (Tidy a → m''.errno = .ENOMEM) := by
  unfold newTable at hp
  by_cases hnb : nb = 0
  · rw [if_pos hnb] at hp
    cases hp
  · rw [if_neg hnb] at hp
    rcases htab : m'.malloc a (nb * cellSize) with ⟨- | p, m₁⟩
    · rw [htab] at hp
      cases hp
      exact ⟨h.malloc_none htab, fun ha => malloc_errno ha htab⟩
    · rw [htab] at hp
      cases hp

theorem modbusMappingNewStartAddress_creates {c : Creation} (startBits nbBits startInputBits
    nbInputBits startRegisters nbRegisters startInputRegisters nbInputRegisters : UInt32)
    (hc : c.content = (Libmodbus.modbusMappingNewStartAddress startBits nbBits startInputBits
      nbInputBits startRegisters nbRegisters startInputRegisters
      nbInputRegisters).toOption.map .mapping) (m : Heap σ) :
    Creates a c m (modbusMappingNewStartAddress a sz startBits nbBits startInputBits nbInputBits
      startRegisters nbRegisters startInputRegisters nbInputRegisters m) := by
  unfold modbusMappingNewStartAddress
  unfold Libmodbus.modbusMappingNewStartAddress at hc
  by_cases h : (nbBits.toNat ≤ maxTableSize ∧ nbInputBits.toNat ≤ maxTableSize) ∧
      nbRegisters.toNat ≤ maxTableSize ∧ nbInputRegisters.toNat ≤ maxTableSize
  · rw [dif_pos (and_assoc.mp h)] at hc
    rw [dif_pos h]
    -- what is left when a table cannot be had: all that was made is freed, in turn
    have hgone {bs : List Nat} {m₁ m₂ : Heap σ} {g : Heap σ → Heap σ} {nb cellSize : Nat}
        (hadds : Adds bs m m₁) (hp : newTable a nb cellSize m₁ = (none, m₂)) (hg : Frees bs g)
        (herrno : Tidy a → (g m₂).errno = m₂.errno) : Creates a c m (none, g m₂) := by
      obtain ⟨hm₂, he⟩ := newTable_none hadds hp
      rw [← List.append_nil bs] at hm₂
      exact ⟨hm₂.frees hg, fun ha => .inr ((herrno ha).trans (he ha))⟩
    rcases hself : m.malloc a sz.modbusMapping with ⟨- | self, m₁⟩
    · exact .noBlock (.refl m) hself
    have h₁ := (Adds.refl m).malloc hself
    simp only
    rcases hbits : newTable a nbBits.toNat 1 m₁ with ⟨- | tabBits, m₂⟩
    · exact hgone h₁ hbits (.free a self) fun ha => free_errno ha _ _
    have h₂ := newTable_adds h₁ hbits
    simp only
    rcases hinputBits : newTable a nbInputBits.toNat 1 m₂ with ⟨- | tabInputBits, m₃⟩
    · have hfree := (Frees.free a tabBits).comp (.free a self)
      have hnull := hgone h₂ hinputBits hfree fun ha => by simp only [free_errno ha]
      exact hnull
    have h₃ := newTable_adds h₂ hinputBits
    simp only
    rcases hregisters : newTable a nbRegisters.toNat 2 m₃ with ⟨- | tabRegisters, m₄⟩
    · rw [← List.append_assoc] at h₃
      have hfree := ((Frees.free a tabInputBits).comp (.free a tabBits)).comp (.free a self)
      have hnull := hgone h₃ hregisters hfree fun ha => by simp only [free_errno ha]
      exact hnull
    have h₄ := newTable_adds h₃ hregisters
    simp only
    rcases hinputRegisters : newTable a nbInputRegisters.toNat 2 m₄ with ⟨- | tabInputRegisters, m₅⟩
    · rw [← List.append_assoc, ← List.append_assoc] at h₄
      have hfree := (((Frees.free a tabRegisters).comp (.free a tabInputBits)).comp
        (.free a tabBits)).comp (.free a self)
      have hnull := hgone h₄ hinputRegisters hfree fun ha => by simp only [free_errno ha]
      exact hnull
    have h₅ := newTable_adds h₄ hinputRegisters
    rw [← List.append_assoc, ← List.append_assoc, ← List.append_assoc] at h₅
    exact .made h₅ hc
  · rw [dif_neg (mt and_assoc.mpr h)] at hc
    rw [dif_neg h]
    exact .refused (.refl m) hc

theorem modbusMappingNew_creates (nbBits nbInputBits nbRegisters nbInputRegisters : Int)
    (m : Heap σ) : Creates a (.mapping nbBits nbInputBits nbRegisters nbInputRegisters) m
      (modbusMappingNew a sz nbBits nbInputBits nbRegisters nbInputRegisters m) := by
  unfold modbusMappingNew
  by_cases hneg : nbBits < 0 ∨ nbInputBits < 0 ∨ nbRegisters < 0 ∨ nbInputRegisters < 0
  · rw [if_pos hneg]
    exact .refused (.refl m) (if_pos hneg)
  · rw [if_neg hneg]
    refine modbusMappingNewStartAddress_creates sz _ _ _ _ _ _ _ _ ?_ m
    exact if_neg hneg

end InMemory

theorem Creation.run_creates (a : Allocator σ) (sz : Sizes) (c : Creation) (m : Heap σ) :
    ∃ r, c.run a sz m = .ok r ∧ Creates a c m r := by
  cases c with
  | rtu device baud parity dataBit stopBit =>
    exact InMemory.modbusNewRtu_creates a sz device baud parity dataBit stopBit m
  | tcp ip port junk => exact InMemory.modbusNewTcp_creates a sz ip port junk m
  | tcpPi node service => exact ⟨_, rfl, InMemory.modbusNewTcpPi_creates a sz node service m⟩
  | mappingStartAddress =>
    exact ⟨_, rfl, InMemory.modbusMappingNewStartAddress_creates sz _ _ _ _ _ _ _ _ rfl m⟩
  | mapping => exact ⟨_, rfl, InMemory.modbusMappingNew_creates sz _ _ _ _ m⟩

/-! ### Runs -/

/-- `modbus_free` or `modbus_mapping_free` -/
def Object.free (a : Allocator σ) (o : Object) (m : Heap σ) : Heap σ :=
  match o.place with
  | .context ctx => InMemory.modbusFree a ctx m
  | .mapping mb => InMemory.modbusMappingFree a mb m

theorem Object.free_frees (a : Allocator σ) (o : Object) : Heap.Frees o.blocks (o.free a) := by
  obtain ⟨ctx | mb, content⟩ := o
  · exact InMemory.modbusFree_frees a ctx
  · exact InMemory.modbusMappingFree_frees a mb

/-- What a program does with objects; it frees one that it has, or `NULL`. -/
inductive MemCall
  | create (c : Creation)
  | free (k : Nat)

/-- The objects that a program has, and the heap. -/
structure Program (σ : Type) where
  objects : List Object
  heap : Heap σ

def MemCall.run (a : Allocator σ) (sz : Sizes) :
    MemCall → Program σ → Run ((Option Object × SysErrno) × Program σ)
  | .create c, w => do
    let (o, m) ← c.run a sz w.heap
    .ok ((o, m.errno), ⟨w.objects ++ o.toList, m⟩)
  | .free k, w =>
    match w.objects[k]? with
    | none => .ok ((none, w.heap.errno), w)
    | some o =>
      let m := o.free a w.heap
      .ok ((none, m.errno), ⟨w.objects.eraseIdx k, m⟩)

/-- The live blocks are those of the objects. -/
def Program.Accounts (w : Program σ) : Prop :=
  w.heap.blocks.Accounts (w.objects.flatMap Object.blocks)

/-- What a call says of its answer. -/
def MemCall.Answers : MemCall → Option Object × SysErrno → Prop
  | .create c, r => c.Answers r.1 r.2
  | .free _, r => r.1 = none

/-- One call. -/
theorem MemCall.run_accounts (a : Allocator σ) (sz : Sizes) (call : MemCall) {w : Program σ}
    (hw : w.Accounts) : ∃ r w', call.run a sz w = .ok (r, w') ∧ w'.Accounts ∧
      (Heap.Tidy a → call.Answers r) := by
  cases call with
  | create c =>
    obtain ⟨⟨o, m⟩, hr, hcreates⟩ := c.run_creates a sz w.heap
    refine ⟨(o, m.errno), _, by rw [MemCall.run, hr, ok_bind], ?_, hcreates.answers⟩
    have hadds := hcreates.adds _ hw
    cases o with
    | none => rw [Option.toList_none, Program.Accounts, List.append_nil]; exact hadds
    | some o =>
      refine hadds.reorder (List.perm_append_comm.trans (.of_eq ?_))
      simp
  | free k =>
    rw [MemCall.run]
    rcases hk : w.objects[k]? with - | o
    · exact ⟨_, _, rfl, hw, fun _ => rfl⟩
    · refine ⟨_, _, rfl, ?_, fun _ => rfl⟩
      obtain ⟨hlt, rfl⟩ := List.getElem?_eq_some_iff.mp hk
      have hobjects := (List.getElem_cons_eraseIdx_perm hlt).flatMap_right Object.blocks
      exact Object.free_frees a _ _ _ (hw.reorder hobjects.symm)

/-- A program that has made nothing. -/
def Program.start (e : SysErrno) (s : σ) : Program σ := ⟨[], e, s, [], []⟩

theorem accounts_start (e : SysErrno) (s : σ) : (Program.start e s).Accounts :=
  ⟨.nil, .nil, rfl⟩

/-- **Nothing leaks**: after any calls that make and free objects, whichever blocks could not be
had, the blocks that are live are those of the objects that are there, each once; and no call has
freed a block that was not live. -/
theorem nothing_leaks (a : Allocator σ) (sz : Sizes) (calls : List MemCall) (e : SysErrno) (s : σ) :
    ∃ outs w, runs (MemCall.run a sz) calls (.start e s) = .ok (outs, w) ∧
      w.heap.blocks.held.Perm (w.objects.flatMap Object.blocks) ∧ w.heap.blocks.held.Nodup ∧
      w.heap.blocks.strays = [] := by
  have hstep : ∀ {call : MemCall} {w : Program σ}, w.Accounts →
      ∃ r w', call.run a sz w = .ok (r, w') ∧ w'.Accounts := by
    intro call w hw
    obtain ⟨r, w', hr, hw', -⟩ := call.run_accounts a sz hw
    exact ⟨r, w', hr, hw'⟩
  obtain ⟨outs, w, hrun, hw⟩ := runs_progress hstep calls (accounts_start e s)
  exact ⟨outs, w, hrun, hw.perm, hw.nodup, hw.strays⟩

/-- **`NULL` says why**: in any such run a call that returns an object returns the one its
arguments ask for, and one that returns none says `EINVAL` where it refuses them, or `ENOMEM`.  Of
the allocator it takes that a failing `malloc` says `ENOMEM`, and that `free` leaves `errno` alone
(`Heap.Tidy`). -/
theorem creations_exact {a : Allocator σ} (ha : Heap.Tidy a) (sz : Sizes) (calls : List MemCall)
    (e : SysErrno) (s : σ) {outs : List (Option Object × SysErrno)} {w : Program σ}
    (h : runs (MemCall.run a sz) calls (.start e s) = .ok (outs, w)) :
    List.Forall₂ MemCall.Answers calls outs := by
  refine (runs_inv (fun {call w r w'} hw hr => ?_) (accounts_start e s) h).1
  obtain ⟨r₁, w₁, hr₁, hw₁, hanswers⟩ := call.run_accounts a sz hw
  rw [hr₁] at hr
  cases hr
  exact ⟨hanswers ha, hw₁⟩

/-- A heap of so many blocks, which are numbered as they are made. -/
def fewBlocks : Allocator Nat where
  malloc _ live n :=
    if n = 0 then (.error .ENOMEM, 0) else (.ok (live.foldr max 0 + 1), n - 1)
  free _ n := (none, n + 1)
  malloc_fresh := by
    intro size live n p n' h
    by_cases hn : n = 0
    · rw [if_pos hn] at h
      cases h
    · rw [if_neg hn] at h
      cases h
      intro hmem
      have := List.le_max_of_le' 0 hmem (le_refl _)
      omega

theorem fewBlocks_tidy : Heap.Tidy fewBlocks where
  malloc := by
    intro size live n e n' h
    by_cases hn : n = 0
    · simp only [fewBlocks, if_pos hn, Prod.mk.injEq, Except.error.injEq] at h
      exact h.1.symm
    · simp only [fewBlocks, if_neg hn, Prod.mk.injEq, reduceCtorEq, false_and] at h
  free _ _ := rfl

/-- With four blocks there is no room for the tables of a mapping beside a context. -/
theorem creations_exact_sample :
    ∃ outs w, runs (MemCall.run fewBlocks ⟨1, 1, 1, 1, 1⟩)
        [.create (.tcp (some ⟨[0x3A, 0x3A], by decide⟩) 502 (.replicate 16 0xCC)),
          .create (.mapping 1 2 0 3), .free 0, .create (.mapping 1 (-2) 0 3)]
        (.start .EINTR 4) = .ok (outs, w) ∧
      List.Forall₂ MemCall.Answers
        [.create (.tcp (some ⟨[0x3A, 0x3A], by decide⟩) 502 (.replicate 16 0xCC)),
          .create (.mapping 1 2 0 3), .free 0, .create (.mapping 1 (-2) 0 3)] outs ∧
      outs.map Prod.snd = [.EINTR, .ENOMEM, .ENOMEM, .EINVAL] ∧ w.heap.blocks.held = [] :=
  ⟨_, _, rfl, creations_exact fewBlocks_tidy ⟨1, 1, 1, 1, 1⟩ _ .EINTR 4 rfl, rfl, rfl⟩

end Libmodbus
