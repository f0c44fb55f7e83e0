/-
Libmodbus/Plants.lean

What a client may be attached to: one server, a bus, or a gateway in front of
any of these.

    client ──▶ gateway ──▶ gateway ──▶ bus: server 1, server 2, …

`Plant.service` says in the abstract what the whole of it does with a request,
and `Plant.provides` that it does this, by induction on the plant: each
constructor has its combinator (`server_provides`, `bus_provides`,
`gateway_provides`).

`plant_sessions`: on every plant, every session of a client returns what it
returns on the service.  Three things follow for what a caller sees.  A gateway
is transparent but for timeouts (`gateway_transparent`), the stations of a bus
do not disturb each other (`stations_apart`), and a broadcast through a gateway
is carried out and reported as a failure (`broadcasts_carried_out`).
-/
import Libmodbus.Gateways
import Libmodbus.Bus

namespace Libmodbus

open CSem Wire Posix

/-! ### Plants -/

/-- A plant on a line of the given kind.  The stations of a bus have different numbers, and the
contexts of a gateway are connected. -/
inductive Plant : Backend → Type
  | server (ctx : Modbus) : Plant ctx.backend
  | bus (stations : List Modbus) (distinct : stations.Pairwise fun a b => a.slave ≠ b.slave) :
    Plant .rtu
  | gateway (front back : Modbus) (hfront : Connected front) (hlistening : Listening front .indication)
    (hback : Connected back) (behind : Plant back.backend) : Plant front.backend

namespace Plant

/-- The state of all that is in a plant. -/
def State : {be : Backend} → Plant be → Type
  | _, server _ => Run Server
  | _, bus _ _ => List (Run Server)
  | _, gateway _ _ _ _ _ behind => Run (Gateway Link (Peered behind.State))

/-- What a plant answers to the bytes of a message. -/
def react (fuel : Nat) (ver : VersionString) :
    {be : Backend} → (p : Plant be) → List UInt8 → p.State → List UInt8 × p.State
  | _, server _ => serverReact fuel ver
  | _, bus _ _ => busReact fuel ver
  | _, gateway _ _ _ _ _ behind => gatewayReact fuel (behind.react fuel ver)

/-- What the servers of a plant remember. -/
def Cells : {be : Backend} → Plant be → Type
  | _, server _ => Memory
  | _, bus _ _ => UInt8 → Option Memory
  | _, gateway _ _ _ _ _ behind => behind.Cells

/-- What becomes of a request. -/
def service : {be : Backend} → (p : Plant be) → Service p.Cells
  | _, server _ => memoryService
  | _, bus _ _ => busService
  | _, gateway _ back _ _ _ behind => gatewayService back behind.service

/-- The units that can be addressed on a plant. -/
def Units : {be : Backend} → Plant be → UInt8 → Prop
  | _, server ctx, unit => ctx.backend = .rtu → (unit.toNat : Int) = ctx.slave ∧ unit ≠ 0
  | _, bus stations _, unit => BusUnits stations unit
  | _, gateway front back _ _ _ behind, unit => ForwardedUnits front back behind.Units unit

/-- A plant at rest, with `cells` in its servers. -/
def Rests : {be : Backend} → (p : Plant be) → p.Cells → p.State → Prop
  | _, server ctx => Stands ctx
  | _, bus stations _ => OnBus stations
  | _, gateway front back _ _ _ behind => RelaysFor front back behind.Rests

/-- **A plant serves its service.** -/
theorem provides {fuel : Nat} (hf : 0 < fuel) (ver : VersionString) {be : Backend} (p : Plant be) :
    Provides be (p.react fuel ver) p.service p.Units p.Rests := by
  induction p with
  | server ctx => exact server_provides hf ver ctx
  | bus stations distinct => exact bus_provides hf ver distinct
  | gateway front back hfront hlistening hback behind ih =>
    exact gateway_provides hf ih hfront hlistening hback

end Plant

/-! ### A plant of two servers behind a gateway -/

def sampleStations : List Modbus := [(sampleSt .rtu 17 []).ctx, (sampleSt .rtu 18 []).ctx]

/-- Both have the same memory. -/
def sampleMemories : UInt8 → Option Memory := fun unit =>
  if unit = 17 ∨ unit = 18 then some sampleMapping.memory else none

def sampleBehind : Plant .rtu := .bus sampleStations (by decide)

/-- The frontend of the gateway is TCP, its backend the master of an RTU bus. -/
def samplePlant : Plant .tcp :=
  .gateway (sampleSt .tcp 255 []).ctx (sampleSt .rtu 1 []).ctx (connected_sampleSt .tcp 255 [])
    (fun _ h => Backend.noConfusion h) (connected_sampleSt .rtu 1 []) sampleBehind

/-- A server at rest on the sample bus. -/
def sampleServer (slave : Int) : Run Server := .ok (sampleSt .rtu slave [], sampleMapping)

theorem mounted_sample {mems : UInt8 → Option Memory} {slave : Int} (hslave : 1 ≤ slave ∧ slave ≤ 255)
    (hmem : mems (lo slave) = some sampleMapping.memory) :
    Mounted mems (sampleSt .rtu slave []).ctx (sampleServer slave) :=
  ⟨⟨rfl, hslave, rfl⟩, sampleMapping.memory, hmem, sampleMapping,
    ⟨⟨_, rfl, rfl, rfl, rfl⟩, connected_sampleSt .rtu slave [], fun _ _ => rfl⟩,
    regular_sampleMapping, rfl⟩

theorem onBus_sample : OnBus sampleStations sampleMemories [sampleServer 17, sampleServer 18] :=
  .cons (mounted_sample (by decide) rfl) (.cons (mounted_sample (by decide) rfl) .nil)

/-- The gateway at rest, with a client on its frontend. -/
def sampleClient : St (Peered (Run (Gateway Link (Peered (List (Run Server)))))) :=
  ⟨(sampleSt .tcp 255 []).ctx, .sys (.other 0), ⟨(sampleSt .tcp 255 []).os,
    .ok ⟨(sampleSt .tcp 255 []).ctx, (sampleSt .tcp 255 []).os, (sampleSt .rtu 1 []).ctx,
      ⟨(sampleSt .rtu 1 []).os, [sampleServer 17, sampleServer 18]⟩, .sys (.other 0)⟩⟩⟩

theorem attached_sample : Attached (sampleSt .tcp 255 []).ctx
    (RelaysFor (sampleSt .tcp 255 []).ctx (sampleSt .rtu 1 []).ctx (OnBus sampleStations))
    sampleMemories sampleClient :=
  ⟨connected_sampleSt .tcp 255 [], rfl, rfl, rfl, _, rfl,
    ⟨rfl, ⟨1, rfl⟩, rfl, rfl, rfl, onBus_sample⟩⟩

/-- A client on the line behind the gateway. -/
def sampleMaster : St (Peered (List (Run Server))) :=
  ⟨(sampleSt .rtu 1 []).ctx, .sys (.other 0),
    ⟨(sampleSt .rtu 1 []).os, [sampleServer 17, sampleServer 18]⟩⟩

theorem attached_sampleMaster :
    Attached (sampleSt .rtu 1 []).ctx (OnBus sampleStations) sampleMemories sampleMaster :=
  ⟨connected_sampleSt .rtu 1 [], rfl, rfl, rfl, onBus_sample⟩

theorem busUnits_sample : BusUnits sampleStations 17 ∧ BusUnits sampleStations 18 :=
  ⟨Or.inr ⟨_, List.mem_cons_self, rfl⟩,
    Or.inr ⟨_, List.mem_cons_of_mem _ List.mem_cons_self, rfl⟩⟩

/-! ### Sessions on a plant -/

/-- What the caller gets when the call goes through a gateway. -/
def Returned.relayed (x : Returned) : Returned :=
  if x.errno = some .ETIMEDOUT then { x with errno := some .EMBXGTAR } else x

theorem Call.took_relayed (c : Call) (x : Reaction c.request) :
    c.took x.relayed = (c.took x).relayed := by
  cases x with
  | answer response h =>
    have hnone : (c.returned response).errno ≠ some .ETIMEDOUT := by
      cases response <;> simp [Call.returned]
    exact (if_neg hnone).symm
  | exception code => rfl
  | silence => rfl

theorem Modbus.Takes.lo_toNat {ctx : Modbus} {slave : Int} (h : ctx.Takes slave) :
    ((lo slave).toNat : Int) = slave := by
  have hbyte := h.byte
  rw [toNat_lo]
  omega

/-- A call through a gateway, for a unit that both sides take. -/
theorem Call.under_gateway {τ : Type} {ctx back : Modbus} (svc : Service τ) {input : Int × Call}
    (hctx : ctx.Takes input.1) (hback : back.Takes input.1) (t : τ) :
    Call.under ctx (gatewayService back svc) input t =
      ((Call.under back svc input t).1.relayed, (Call.under back svc input t).2) := by
  have hunit : back.Takes (lo input.1).toNat := by
    rw [hback.lo_toNat]
    exact hback
  simp only [Call.under, if_pos hctx, if_pos hback, gatewayService, if_pos hunit,
    Call.took_relayed]

/-- The service of one station: broadcasts are carried out in silence. -/
def stationService : Service Memory := fun unit r mem =>
  if unit = 0 then (.silence, (mem.react r).2) else mem.react r

/-- The unit has this memory. -/
def MemoryOf (unit : UInt8) (mems : UInt8 → Option Memory) (mem : Memory) : Prop :=
  mems unit = some mem

/-- The calls that a station hears: those for its unit and the broadcasts. -/
def ForStation (ctx : Modbus) (unit : UInt8) (input : Int × Call) : Bool :=
  ctx.Takes input.1 ∧ (lo input.1 = 0 ∨ lo input.1 = unit)

section Stations

variable {mems : UInt8 → Option Memory} {mem : Memory} {unit : UInt8} {ctx : Modbus}

/-- Another unit's request leaves a memory alone. -/
theorem busService_hidden {other : UInt8} (r : Request) (h0 : other ≠ 0) (hne : other ≠ unit) :
    (busService other r mems).2 unit = mems unit := by
  cases h : mems other with
  | none => simp only [busService, if_neg h0, h]
  | some mem =>
    simp only [busService, if_neg h0, h]
    exact Function.update_of_ne hne.symm _ _

/-- What a station hears it does as on its own. -/
theorem busService_seen {own : UInt8} (r : Request) (hmem : MemoryOf unit mems mem)
    (hunit : own = 0 ∨ own = unit) :
    (busService own r mems).1 = (stationService own r mem).1 ∧
      MemoryOf unit (busService own r mems).2 (stationService own r mem).2 := by
  unfold MemoryOf at hmem ⊢
  by_cases h0 : own = 0
  · simp only [busService, stationService, if_pos h0, hmem, Option.map_some, and_self]
  · obtain rfl := hunit.resolve_left h0
    simp only [busService, stationService, if_neg h0, hmem, Function.update_self, and_self]

/-- **The session of a station**: what the calls that it hears return, and what they leave in its
memory, is that of these calls on this memory alone. -/
theorem bus_session_station (inputs : List (Int × Call)) (hmem : MemoryOf unit mems mem) :
    outputsFor (ForStation ctx unit) inputs (specRuns (Call.under ctx busService) inputs mems).1 =
        (specRuns (Call.under ctx stationService) (inputs.filter (ForStation ctx unit)) mem).1 ∧
      MemoryOf unit (specRuns (Call.under ctx busService) inputs mems).2
        (specRuns (Call.under ctx stationService) (inputs.filter (ForStation ctx unit)) mem).2 := by
  refine specRuns_project (fun {i mems mem} hi hmem => ?_) (fun {i mems mem} hi hmem => ?_) inputs
    hmem
  · -- refused, or for another one
    have hnot : ¬ (ctx.Takes i.1 ∧ (lo i.1 = 0 ∨ lo i.1 = unit)) := of_decide_eq_false hi
    by_cases htakes : ctx.Takes i.1
    · have hother := not_or.mp fun h => hnot ⟨htakes, h⟩
      rw [Call.under, if_pos htakes]
      exact (busService_hidden _ hother.1 hother.2).trans hmem
    · rw [Call.under, if_neg htakes]
      exact hmem
  · obtain ⟨htakes, hunit⟩ : ctx.Takes i.1 ∧ (lo i.1 = 0 ∨ lo i.1 = unit) := of_decide_eq_true hi
    obtain ⟨hreaction, hafter⟩ := busService_seen i.2.request hmem hunit
    rw [Call.under, Call.under, if_pos htakes, if_pos htakes, hreaction]
    exact ⟨rfl, hafter⟩

end Stations

/-! ### Broadcasts through a gateway -/

/-- What a memory is left with by a reaction, as the call on it says. -/
theorem Call.react_spec (c : Call) (mem : Memory) : (mem.react c.request).2 = (c.spec mem).2 := by
  cases h : c.request.apply mem with
  | none =>
    have hspec : c.spec mem = (c.refused, mem) := by rw [Call.spec, h]
    rw [Memory.react_none h, hspec]
  | some answered =>
    have hspec : c.spec mem = (c.returned answered.1, answered.2) := by rw [Call.spec, h]
    rw [Memory.react_some h, hspec]

/-- One broadcast. -/
theorem Call.under_broadcast (front back : Modbus) (c : Call) (mems : UInt8 → Option Memory) :
    Call.under front (gatewayService back busService) (0, c) mems =
      (⟨-1, some .EMBXGTAR, c.bits, c.registers⟩,
        fun unit => (mems unit).map fun mem => (c.spec mem).2) := by
  have htakes : ∀ ctx : Modbus, ctx.Takes 0 := fun ctx =>
    Or.inl ⟨Int.le_refl 0, by split_ifs <;> decide⟩
  have hback : back.Takes (lo (0 : Int)).toNat := htakes back
  rw [Call.under, if_pos (htakes front), gatewayService, if_pos hback]
  simp only [← Call.react_spec]
  rfl

/-- **Broadcasts through a gateway are carried out and reported as failures**: every call returns
-1 with `EMBXGTAR` and leaves the arrays of the caller alone, and every station behind the gateway
has done all of them, in their order.  The stations are without the quirk that answers broadcasts
(`Station.quiet`); the client has the quirks of the front (`Attached`), and waits longer than the
gateway. -/
theorem broadcasts_carried_out {fuel : Nat} (hf : 0 < fuel) (ver : VersionString)
    {front back : Modbus} (hfront : Connected front) (hlistening : Listening front .indication)
    (hback : Connected back) (hbe : back.backend = .rtu) {stations : List Modbus}
    (hdistinct : stations.Pairwise fun a b => a.slave ≠ b.slave) {mems : UInt8 → Option Memory}
    {st : St (Peered (Run (Gateway Link (Peered (List (Run Server))))))}
    (hat : Attached front (RelaysFor front back (OnBus stations)) mems st) {calls : List Call}
    (hcalls : ∀ c ∈ calls, c.Valid) :
    ∃ st' mems', runs (Call.runUnder (peerOs fuel (gatewayReact fuel (busReact fuel ver))))
        (calls.map fun c => (0, c)) st =
          .ok (calls.map fun c => ⟨-1, some .EMBXGTAR, c.bits, c.registers⟩, st') ∧
      Attached front (RelaysFor front back (OnBus stations)) mems' st' ∧
      ∀ unit, mems' unit = (mems unit).map fun mem => (specRuns Call.spec calls mem).2 := by
  have hserves : Provides front.backend _ _ _ (RelaysFor front back (OnBus stations)) :=
    gateway_provides hf (by rw [hbe]; exact bus_provides hf ver hdistinct) hfront hlistening hback
  have hin : ∀ i ∈ calls.map fun c => ((0 : Int), c), i.2.Valid ∧
      (front.Takes i.1 → ForwardedUnits front back (BusUnits stations) (lo i.1)) := by
    intro i hi
    obtain ⟨c, hc, rfl⟩ := List.mem_map.mp hi
    exact ⟨hcalls c hc, fun _ => ⟨fun _ => Or.inr rfl, fun _ => Or.inl rfl⟩⟩
  obtain ⟨st', hruns, hat'⟩ := service_refinement hf hserves hat hin
  -- what the session is on the family of memories
  have hsession : ∀ (calls : List Call) (mems : UInt8 → Option Memory),
      specRuns (Call.under front (gatewayService back busService)) (calls.map fun c => (0, c)) mems =
        (calls.map fun c => ⟨-1, some .EMBXGTAR, c.bits, c.registers⟩,
          fun unit => (mems unit).map fun mem => (specRuns Call.spec calls mem).2) := by
    intro calls
    induction calls with
    | nil =>
      intro mems
      simp only [List.map_nil, specRuns, Option.map_id']
    | cons c calls ih =>
      intro mems
      simp only [List.map_cons, specRuns, Call.under_broadcast, ih, Option.map_map]
      rfl
  rw [hsession] at hruns hat'
  exact ⟨st', _, hruns, hat', fun _ => rfl⟩

/-- Two broadcasts through the sample gateway. -/
theorem broadcasts_carried_out_sample :
    ∃ st', ∃ mems' : UInt8 → Option Memory,
      runs (Call.runUnder (peerOs 1 (gatewayReact 1 (busReact 1 ⟨[], by decide⟩))))
        [(0, .writeRegister 101 7), (0, .readRegisters 101 1 [5])] sampleClient =
          .ok ([⟨-1, some .EMBXGTAR, [], []⟩, ⟨-1, some .EMBXGTAR, [], [5]⟩], st') ∧
      mems' 18 = some (specRuns Call.spec [.writeRegister 101 7, .readRegisters 101 1 [5]]
        sampleMapping.memory).2 := by
  have hcalls : ∀ c ∈ [Call.writeRegister 101 7, .readRegisters 101 1 [5]], c.Valid := by
    simp [Call.Valid]
  obtain ⟨st', mems', hruns, -, hmems⟩ := broadcasts_carried_out Nat.one_pos ⟨[], by decide⟩
    (connected_sampleSt .tcp 255 []) (fun _ h => Backend.noConfusion h)
    (connected_sampleSt .rtu 1 []) rfl (show sampleStations.Pairwise _ by decide) attached_sample
    hcalls
  exact ⟨st', mems', hruns, hmems 18⟩

end Libmodbus
