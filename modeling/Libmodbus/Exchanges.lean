/-
Libmodbus/Exchanges.lean

The calls of a client as exchanges.  Each call that reads or writes the memory
of a server builds a message, hands it over and receives, and then does
something with the outcome that the system does not see:

    call   =   message ; exchange ; copy

`Sender.returns` is what a call returns, and `Sender.exchanges` says that a call
whose arguments are accepted is one exchange of its message.
-/
import Libmodbus.Confirmations

namespace Libmodbus

open CSem Wire Posix

variable {σ : Type}

/-! ### The calls -/

namespace Sender

/-- What the function returns, and the state it leaves. -/
def returns (os : Os σ) (st : St σ) : Sender → Run (Int × St σ)
  | readBits addr nb dest => (modbusReadBits os st addr nb dest).map fun r => (r.1, r.2.2)
  | readInputBits addr nb dest =>
    (modbusReadInputBits os st addr nb dest).map fun r => (r.1, r.2.2)
  | readRegisters addr nb dest =>
    (modbusReadRegisters os st addr nb dest).map fun r => (r.1, r.2.2)
  | readInputRegisters addr nb dest =>
    (modbusReadInputRegisters os st addr nb dest).map fun r => (r.1, r.2.2)
  | writeBit addr status => modbusWriteBit os st addr status
  | writeRegister addr value => modbusWriteRegister os st addr value
  | writeBits addr nb src => modbusWriteBits os st addr nb src
  | writeRegisters addr nb src => modbusWriteRegisters os st addr nb src
  | maskWriteRegister addr andMask orMask => modbusMaskWriteRegister os st addr andMask orMask
  | writeAndReadRegisters writeAddr writeNb src readAddr readNb dest =>
    (modbusWriteAndReadRegisters os st writeAddr writeNb src readAddr readNb dest).map
      fun r => (r.1, r.2.2)
  | reportSlaveId maxDest dest =>
    (modbusReportSlaveId os st maxDest dest).map fun r => (r.1, r.2.2)
  | sendRawRequestTid rawReq tid => modbusSendRawRequestTid os st rawReq tid
  | reply ver req reqLength m =>
    (modbusReply os ver st req reqLength m).map fun r => (r.1, r.2.2)
  | replyException req exceptionCode => modbusReplyException os st req exceptionCode

theorem run_of_returns {os : Os σ} {st st' : St σ} {s : Sender} {rc : Int}
    (h : s.returns os st = .ok (rc, st')) : s.run os st = .ok st' := by
  have hmap : s.run os st = (s.returns os st).map Prod.snd := by
    cases s with
    | readBits addr nb dest => simp only [run, returns, map_map]
    | readInputBits addr nb dest => simp only [run, returns, map_map]
    | readRegisters addr nb dest => simp only [run, returns, map_map]
    | readInputRegisters addr nb dest => simp only [run, returns, map_map]
    | writeBit addr status => rfl
    | writeRegister addr value => rfl
    | writeBits addr nb src => rfl
    | writeRegisters addr nb src => rfl
    | maskWriteRegister addr andMask orMask => rfl
    | writeAndReadRegisters writeAddr writeNb src readAddr readNb dest =>
      simp only [run, returns, map_map]
    | reportSlaveId maxDest dest => simp only [run, returns, map_map]
    | sendRawRequestTid rawReq tid => rfl
    | reply ver req reqLength m => simp only [run, returns, map_map]
    | replyException req exceptionCode => rfl
  rw [hmap, h]
  rfl

/-- The calls that read and write the memory of a server. -/
def IsCall : Sender → Prop
  | reportSlaveId .. => False
  | sendRawRequestTid .. => False
  | reply .. => False
  | replyException .. => False
  | _ => True

/-- A call that returned is an exchange of its message, and fails if that did. -/
def Exchanges (os : Os σ) (st : St σ) (s : Sender) (rc : Int) (st' : St σ) : Prop :=
  ∃ msg rc₁ rsp, s.message st.ctx = .ok msg ∧
    exchange os { st with ctx := st.ctx.next } msg = .ok (rc₁, rsp, st') ∧ (rc₁ = -1 → rc = -1)

end Sender

section

variable {os : Os σ} {st st' : St σ} {rc : Int} {s : Sender}

/-- The end of a call that fills an array. -/
theorem exchanges_of_dest {α : Type} {function : Nat} {addr nb : Int} {req msg : List UInt8}
    {ctx : Modbus} {dest dest' : List α} (fill : List UInt8 → Int → St σ → Run (List α))
    (hreq : buildRequestBasis st.ctx function addr nb = .ok (req, ctx))
    (hmsg : s.message st.ctx = .ok msg)
    (h : (exchange os { st with ctx := ctx } msg >>= fun r =>
      if r.1 = -1 then .ok (-1, dest, r.2.2)
      else fill r.2.1 r.1 r.2.2 >>= fun dest => .ok (r.1, dest, r.2.2)) = .ok (rc, dest', st')) :
    s.Exchanges os st rc st' := by
  obtain rfl := buildRequestBasis_next hreq
  obtain ⟨⟨rc₁, rsp, st₁⟩, hexchange, h⟩ := bind_eq_ok.mp h
  simp only at h
  by_cases hfail : rc₁ = -1
  · rw [if_pos hfail] at h
    cases h
    exact ⟨msg, rc₁, rsp, hmsg, hexchange, fun _ => rfl⟩
  · rw [if_neg hfail] at h
    obtain ⟨dest₁, -, h⟩ := bind_eq_ok.mp h
    cases h
    exact ⟨msg, _, rsp, hmsg, hexchange, fun h => absurd h hfail⟩

/-- The end of a call that does not. -/
theorem exchanges_of_plain {function : Nat} {addr nb : Int} {req msg : List UInt8} {ctx : Modbus}
    (hreq : buildRequestBasis st.ctx function addr nb = .ok (req, ctx))
    (hmsg : s.message st.ctx = .ok msg)
    (h : (exchange os { st with ctx := ctx } msg >>= fun r => .ok (r.1, r.2.2)) =
      .ok (rc, st')) : s.Exchanges os st rc st' := by
  obtain rfl := buildRequestBasis_next hreq
  obtain ⟨⟨rc₁, rsp, st₁⟩, hexchange, h⟩ := bind_eq_ok.mp h
  cases h
  exact ⟨msg, rc₁, rsp, hmsg, hexchange, fun h => h⟩

theorem exchanges_readBits {function : Nat} {addr nb : Int} {dest : List UInt8}
    (hs : s.message st.ctx = (buildRequestBasis st.ctx function addr nb).map Prod.fst)
    (hnb : ¬ (nb < 1 ∨ (maxReadBits : Int) < nb))
    (h : (readBits os st function addr nb dest).map (fun r => (r.1, r.2.2)) = .ok (rc, st')) :
    s.Exchanges os st rc st' := by
  rw [readBits, if_neg hnb, map_eq_bind] at h
  obtain ⟨⟨rc₀, dest₀, st₀⟩, hread, hlast⟩ := bind_eq_ok.mp h
  obtain ⟨⟨rc₁, dest₁, st₁⟩, hcall, hrest⟩ := bind_eq_ok.mp hread
  have hend : st₁ = st' ∧ (rc₁ = -1 → rc = -1) := by
    cases hlast
    simp only at hrest
    by_cases hfail : rc₁ = -1
    · rw [if_pos hfail] at hrest
      cases hrest
      exact ⟨rfl, fun _ => rfl⟩
    · rw [if_neg hfail] at hrest
      cases hrest
      exact ⟨rfl, fun h => absurd h hfail⟩
  obtain ⟨rfl, hrc⟩ := hend
  obtain ⟨⟨req, ctx⟩, hreq, hcall⟩ := bind_eq_ok.mp hcall
  have hmsg : s.message st.ctx = .ok req := by
    rw [hs, hreq]
    rfl
  obtain ⟨msg, rc₂, rsp, hmsg, hexchange, hrc'⟩ := exchanges_of_dest
    (fun rsp rc st => readBitsLoop rsp nb.toNat (st.ctx.backend.headerLength + 2) rc.toNat 0 dest)
    hreq hmsg hcall
  exact ⟨msg, rc₂, rsp, hmsg, hexchange, fun h => hrc (hrc' h)⟩

theorem exchanges_readRegisters {function : Nat} {addr nb : Int} {dest : List UInt16}
    (hs : s.message st.ctx = (buildRequestBasis st.ctx function addr nb).map Prod.fst)
    (hnb : ¬ (nb < 1 ∨ (maxReadRegisters : Int) < nb))
    (h : (readAnyRegisters os st function addr nb dest).map (fun r => (r.1, r.2.2)) =
      .ok (rc, st')) : s.Exchanges os st rc st' := by
  rw [readAnyRegisters, if_neg hnb, readRegistersCall, if_neg (fun h => hnb (Or.inr h)),
    map_eq_bind] at h
  obtain ⟨⟨rc₀, dest₀, st₀⟩, hcall, hlast⟩ := bind_eq_ok.mp h
  cases hlast
  obtain ⟨⟨req, ctx⟩, hreq, hcall⟩ := bind_eq_ok.mp hcall
  have hmsg : s.message st.ctx = .ok req := by
    rw [hs, hreq]
    rfl
  exact exchanges_of_dest (fun rsp rc st =>
    storeRegisters rsp st.ctx.backend.headerLength 0 rc.toNat dest) hreq hmsg hcall

theorem exchanges_writeSingle {function : Nat} {addr : Int} {value : UInt16}
    (hs : s.message st.ctx = (buildRequestBasis st.ctx function addr value.toNat).map Prod.fst)
    (h : writeSingle os st function addr value = .ok (rc, st')) : s.Exchanges os st rc st' := by
  obtain ⟨⟨req, ctx⟩, hreq, h⟩ := bind_eq_ok.mp h
  have hmsg : s.message st.ctx = .ok req := by
    rw [hs, hreq]
    rfl
  exact exchanges_of_plain hreq hmsg h

/-- Every call is one exchange. -/
theorem Sender.exchanges (hcall : s.IsCall) (hok : s.Accepted st.ctx.backend)
    (h : s.returns os st = .ok (rc, st')) : s.Exchanges os st rc st' := by
  cases s with
  | readBits addr nb dest => exact exchanges_readBits rfl hok h
  | readInputBits addr nb dest => exact exchanges_readBits rfl hok h
  | readRegisters addr nb dest => exact exchanges_readRegisters rfl hok h
  | readInputRegisters addr nb dest => exact exchanges_readRegisters rfl hok h
  | writeBit addr status => exact exchanges_writeSingle rfl h
  | writeRegister addr value => exact exchanges_writeSingle rfl h
  | writeBits addr nb src =>
    rw [returns, modbusWriteBits, if_neg hok] at h
    obtain ⟨⟨req, ctx⟩, hreq, h⟩ := bind_eq_ok.mp h
    obtain ⟨bytes, hbytes, h⟩ := bind_eq_ok.mp h
    refine exchanges_of_plain hreq ?_ h
    simp only [message, hreq, Except.map, ok_bind, hbytes]
  | writeRegisters addr nb src =>
    rw [returns, modbusWriteRegisters, if_neg hok] at h
    obtain ⟨⟨req, ctx⟩, hreq, h⟩ := bind_eq_ok.mp h
    obtain ⟨bytes, hbytes, h⟩ := bind_eq_ok.mp h
    refine exchanges_of_plain hreq ?_ h
    simp only [message, hreq, Except.map, ok_bind, hbytes]
  | maskWriteRegister addr andMask orMask =>
    obtain ⟨⟨req, ctx⟩, hreq, h⟩ := bind_eq_ok.mp h
    refine exchanges_of_plain hreq ?_ h
    simp only [message, hreq, Except.map, ok_bind]
  | writeAndReadRegisters writeAddr writeNb src readAddr readNb dest =>
    rw [returns, modbusWriteAndReadRegisters, if_neg hok.1, if_neg hok.2.1, if_neg hok.2.2,
      map_eq_bind] at h
    obtain ⟨⟨rc₀, dest₀, st₀⟩, h', hlast⟩ := bind_eq_ok.mp h
    cases hlast
    obtain ⟨⟨req, ctx⟩, hreq, h'⟩ := bind_eq_ok.mp h'
    obtain ⟨bytes, hbytes, h'⟩ := bind_eq_ok.mp h'
    refine exchanges_of_dest (fun rsp rc st =>
      storeRegisters rsp st.ctx.backend.headerLength 0 rc.toNat dest) hreq ?_ h'
    simp only [message, hreq, Except.map, ok_bind, hbytes]
  | reportSlaveId maxDest dest => exact hcall.elim
  | sendRawRequestTid rawReq tid => exact hcall.elim
  | reply ver req reqLength m => exact hcall.elim
  | replyException req exceptionCode => exact hcall.elim

end

end Libmodbus
