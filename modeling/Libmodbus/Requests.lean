/-
Libmodbus/Requests.lean

The request that a client call puts on the wire, in the terms of the server.

    call   addr, nb, values   (int)
    wire   addr mod 65536, nb, values  =  Sender.asked

Counts are checked before anything is built, so they fit their fields; addresses
are not, and `build_request_basis` keeps their low 16 bits.  `message_asked`
says that the message of a call is the header of its context and the PDU of the
request `asked`.
-/
import Libmodbus.Calls
import Libmodbus.Senders

namespace Libmodbus

open CSem Wire Posix

variable {σ : Type} {be : Backend}

/-! ### Addresses -/

/-- The address that a request says. -/
def wireAddress (addr : Int) : Nat := (addr % 65536).toNat

theorem cast_wireAddress (addr : Int) : (wireAddress addr : Int) = addr % 65536 :=
  Int.toNat_of_nonneg (Int.emod_nonneg addr (by decide))

theorem wireAddress_le (addr : Int) : wireAddress addr ≤ 65535 := by
  have h := cast_wireAddress addr
  omega

@[simp] theorem hi_wireAddress (addr : Int) : hi (wireAddress addr) = hi addr := by
  rw [cast_wireAddress, hi_emod]

@[simp] theorem lo_wireAddress (addr : Int) : lo (wireAddress addr) = lo addr := by
  rw [cast_wireAddress, lo_emod]

/-- Two addresses are the same on the wire when they differ by a multiple of 65536. -/
theorem wireAddress_eq_iff {addr addr' : Int} :
    wireAddress addr = wireAddress addr' ↔ addr % 65536 = addr' % 65536 := by
  rw [← cast_wireAddress, ← cast_wireAddress]
  exact Int.natCast_inj.symm

/-- The addresses that are sent as they are have 16 bits. -/
theorem wireAddress_eq_self {addr : Int} :
    (wireAddress addr : Int) = addr ↔ 0 ≤ addr ∧ addr ≤ 65535 := by
  rw [cast_wireAddress]
  omega

/-! ### What a call asks -/

namespace Sender

/-- The request of the calls that read and write. -/
def asked : Sender → Option Request
  | readBits addr nb _ => some (.readBits false (wireAddress addr) nb.toNat)
  | readInputBits addr nb _ => some (.readBits true (wireAddress addr) nb.toNat)
  | readRegisters addr nb _ => some (.readRegisters false (wireAddress addr) nb.toNat)
  | readInputRegisters addr nb _ => some (.readRegisters true (wireAddress addr) nb.toNat)
  | writeBit addr status => some (.writeBit (wireAddress addr) (decide (status ≠ 0)))
  | writeRegister addr value => some (.writeRegister (wireAddress addr) value)
  | writeBits addr nb src =>
    some (.writeBits (wireAddress addr) ((src.take nb.toNat).map bitOf))
  | writeRegisters addr nb src =>
    some (.writeRegisters (wireAddress addr) (src.take nb.toNat))
  | maskWriteRegister addr andMask orMask =>
    some (.maskWrite (wireAddress addr) andMask orMask)
  | writeAndReadRegisters writeAddr writeNb src readAddr readNb _ =>
    some (.writeAndRead (wireAddress readAddr) readNb.toNat (wireAddress writeAddr)
      (src.take writeNb.toNat))
  | _ => none

/-- The caller's array holds the values that are to be written. -/
def Supplied : Sender → Prop
  | writeBits _ nb src => nb ≤ src.length
  | writeRegisters _ nb src => nb ≤ src.length
  | writeAndReadRegisters _ writeNb src _ _ _ => writeNb ≤ src.length
  | _ => True

variable {ctx : Modbus} {s : Sender} {r : Request}

/-- Within the limits of the calls all requests are valid. -/
theorem asked_valid (hr : s.asked = some r) (hs : s.Accepted be) (hsrc : s.Supplied) :
    r.Valid := by
  cases s with
  | readBits addr nb dest =>
    cases hr
    have hnb : ¬ (nb < 1 ∨ (maxReadBits : Int) < nb) := hs
    exact ⟨wireAddress_le addr, by omega, by omega⟩
  | readInputBits addr nb dest =>
    cases hr
    have hnb : ¬ (nb < 1 ∨ (maxReadBits : Int) < nb) := hs
    exact ⟨wireAddress_le addr, by omega, by omega⟩
  | readRegisters addr nb dest =>
    cases hr
    have hnb : ¬ (nb < 1 ∨ (maxReadRegisters : Int) < nb) := hs
    exact ⟨wireAddress_le addr, by omega, by omega⟩
  | readInputRegisters addr nb dest =>
    cases hr
    have hnb : ¬ (nb < 1 ∨ (maxReadRegisters : Int) < nb) := hs
    exact ⟨wireAddress_le addr, by omega, by omega⟩
  | writeBit addr status =>
    cases hr
    exact wireAddress_le addr
  | writeRegister addr value =>
    cases hr
    exact wireAddress_le addr
  | writeBits addr nb src =>
    cases hr
    have hnb : ¬ (nb < 1 ∨ (maxWriteBits : Int) < nb) := hs
    have hlen : nb ≤ src.length := hsrc
    refine ⟨wireAddress_le addr, ?_⟩
    rw [List.length_map, List.length_take]
    omega
  | writeRegisters addr nb src =>
    cases hr
    have hnb : ¬ (nb < 1 ∨ (maxWriteRegisters : Int) < nb) := hs
    have hlen : nb ≤ src.length := hsrc
    refine ⟨wireAddress_le addr, ?_⟩
    rw [List.length_take]
    omega
  | maskWriteRegister addr andMask orMask =>
    cases hr
    exact wireAddress_le addr
  | writeAndReadRegisters writeAddr writeNb src readAddr readNb dest =>
    cases hr
    obtain ⟨hpositive, hwrite, hread⟩ := hs
    have hlen : writeNb ≤ src.length := hsrc
    refine ⟨wireAddress_le readAddr, ⟨by omega, by omega⟩, wireAddress_le writeAddr, ?_⟩
    rw [List.length_take]
    omega
  | _ => cases hr

/-! ### Its message -/

section Messages

variable (hslave : ctx.backend = .rtu → ctx.slave ≠ -1)

include hslave

/-- The fields that are preset, with what is put behind them. -/
theorem message_append {function : Nat} {addr nb : Int} {pdu more : List UInt8}
    (hpdu : pdu = [lo function, hi addr, lo addr, hi nb, lo nb] ++ more) :
    (buildRequestBasis ctx function addr nb).map Prod.fst >>= (fun req => .ok (req ++ more)) =
      .ok ((requestAdu ctx pdu).header ctx.backend ++ pdu) := by
  rw [buildRequestBasis_adu hslave function addr nb pdu]
  show Except.ok _ = _
  rw [List.append_assoc, ← hpdu]

theorem message_preset {function : Nat} {addr nb : Int} {pdu : List UInt8}
    (hpdu : pdu = [lo function, hi addr, lo addr, hi nb, lo nb]) :
    (buildRequestBasis ctx function addr nb).map Prod.fst =
      .ok ((requestAdu ctx pdu).header ctx.backend ++ pdu) := by
  rw [buildRequestBasis_adu hslave function addr nb pdu, ← hpdu]
  rfl

theorem message_readBits (isInput : Bool) (addr : Int) {nb : Int} (hnb : 0 ≤ nb) :
    (buildRequestBasis ctx (if isInput then fcReadDiscreteInputs else fcReadCoils) addr nb).map
        Prod.fst =
      .ok ((requestAdu ctx (Request.readBits isInput (wireAddress addr) nb.toNat).pdu).header
        ctx.backend ++ (Request.readBits isInput (wireAddress addr) nb.toNat).pdu) := by
  refine message_preset hslave ?_
  simp only [Request.pdu, Request.data, hi_wireAddress, lo_wireAddress, Int.toNat_of_nonneg hnb]
  cases isInput <;> rfl

theorem message_readRegisters (isInput : Bool) (addr : Int) {nb : Int} (hnb : 0 ≤ nb) :
    (buildRequestBasis ctx (if isInput then fcReadInputRegisters else fcReadHoldingRegisters) addr
        nb).map Prod.fst =
      .ok ((requestAdu ctx (Request.readRegisters isInput (wireAddress addr) nb.toNat).pdu).header
        ctx.backend ++ (Request.readRegisters isInput (wireAddress addr) nb.toNat).pdu) := by
  refine message_preset hslave ?_
  simp only [Request.pdu, Request.data, hi_wireAddress, lo_wireAddress, Int.toNat_of_nonneg hnb]
  cases isInput <;> rfl

/-- **The message of a call is the request it asks.** -/
theorem message_asked (hr : s.asked = some r) (hs : s.Accepted ctx.backend) (hsrc : s.Supplied) :
    s.message ctx = .ok ((requestAdu ctx r.pdu).header ctx.backend ++ r.pdu) := by
  cases s with
  | readBits addr nb dest =>
    cases hr
    -- the checks leave a quantity that is its own field
    have hnb : ¬ (nb < 1 ∨ (maxReadBits : Int) < nb) := hs
    exact message_readBits hslave false addr (show 0 ≤ nb by omega)
  | readInputBits addr nb dest =>
    cases hr
    have hnb : ¬ (nb < 1 ∨ (maxReadBits : Int) < nb) := hs
    exact message_readBits hslave true addr (show 0 ≤ nb by omega)
  | readRegisters addr nb dest =>
    cases hr
    have hnb : ¬ (nb < 1 ∨ (maxReadRegisters : Int) < nb) := hs
    exact message_readRegisters hslave false addr (show 0 ≤ nb by omega)
  | readInputRegisters addr nb dest =>
    cases hr
    have hnb : ¬ (nb < 1 ∨ (maxReadRegisters : Int) < nb) := hs
    exact message_readRegisters hslave true addr (show 0 ≤ nb by omega)
  | writeBit addr status =>
    cases hr
    refine message_preset hslave ?_
    simp only [Request.pdu, Request.data, hi_wireAddress, lo_wireAddress]
    by_cases h : status ≠ 0
    · rw [decide_eq_true h, if_pos h]
      rfl
    · rw [decide_eq_false h, if_neg h]
      rfl
  | writeRegister addr value =>
    cases hr
    refine message_preset hslave ?_
    simp only [Request.pdu, Request.data, hi_wireAddress, lo_wireAddress]
    rfl
  | writeBits addr nb src =>
    cases hr
    have hnb : ¬ (nb < 1 ∨ (maxWriteBits : Int) < nb) := hs
    have hsrc : nb ≤ src.length := hsrc
    obtain ⟨n, rfl⟩ := Int.eq_ofNat_of_zero_le (show 0 ≤ nb by omega)
    have hlen : (src.take n).length = n := by
      rw [List.length_take]
      omega
    have hcount : n / 8 + (if n % 8 ≠ 0 then 1 else 0) = (n + 7) / 8 := by
      split_ifs <;> omega
    have hbytes : packBytesLoop src n ((n + 7) / 8) 0 = .ok (packBits ((src.take n).map bitOf)) :=
      packBytesLoop_packBits (by rw [hlen]) (by rw [hlen, Nat.zero_add])
        (List.take_append_drop n src).symm
    simp only [message, Int.toNat_natCast, hcount, hbytes, ok_bind]
    refine message_append hslave ?_
    simp only [Request.pdu, Request.data, hi_wireAddress, lo_wireAddress, List.length_map,
      length_packBits, hlen]
    rfl
  | writeRegisters addr nb src =>
    cases hr
    have hnb : ¬ (nb < 1 ∨ (maxWriteRegisters : Int) < nb) := hs
    have hsrc : nb ≤ src.length := hsrc
    obtain ⟨n, rfl⟩ := Int.eq_ofNat_of_zero_le (show 0 ≤ nb by omega)
    have hlen : (src.take n).length = n := by
      rw [List.length_take]
      omega
    have htwice : (n : Int) * 2 = ((2 * n : Nat) : Int) := by omega
    simp only [message, Int.toNat_natCast, putRegisters_taken (Int.ofNat_le.mp hsrc), ok_bind]
    refine message_append hslave ?_
    simp only [Request.pdu, Request.data, hi_wireAddress, lo_wireAddress, length_bigEndian, hlen,
      htwice]
    rfl
  | maskWriteRegister addr andMask orMask =>
    cases hr
    -- the masks take the place of the quantity
    have hpdu : (Request.maskWrite (wireAddress addr) andMask orMask).pdu =
        [lo fcMaskWriteRegister, hi addr, lo addr] ++
          [hi andMask.toNat, lo andMask.toNat, hi orMask.toNat, lo orMask.toNat] := by
      simp only [Request.pdu, Request.data, hi_wireAddress, lo_wireAddress]
      rfl
    rw [message, buildRequestBasis_adu hslave fcMaskWriteRegister addr 0
      (Request.maskWrite (wireAddress addr) andMask orMask).pdu, Except.map, ok_bind, take_basis,
      List.append_assoc, ← hpdu]
  | writeAndReadRegisters writeAddr writeNb src readAddr readNb dest =>
    cases hr
    obtain ⟨hpositive, hwrite, hread⟩ := hs
    have hsrc : writeNb ≤ src.length := hsrc
    obtain ⟨n, rfl⟩ := Int.eq_ofNat_of_zero_le (show 0 ≤ writeNb by omega)
    obtain ⟨k, rfl⟩ := Int.eq_ofNat_of_zero_le (show 0 ≤ readNb by omega)
    have hlen : (src.take n).length = n := by
      rw [List.length_take]
      omega
    have htwice : (n : Int) * 2 = ((2 * n : Nat) : Int) := by omega
    simp only [message, Int.toNat_natCast, putRegisters_taken (Int.ofNat_le.mp hsrc), ok_bind,
      List.append_assoc]
    refine message_append hslave ?_
    simp only [Request.pdu, Request.data, hi_wireAddress, lo_wireAddress, length_bigEndian, hlen,
      htwice]
    rfl
  | _ => cases hr

end Messages

end Sender

end Libmodbus
