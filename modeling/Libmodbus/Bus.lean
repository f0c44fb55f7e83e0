/-
Libmodbus/Bus.lean

A bus with one master and any number of RTU servers, which hear everything.

    request  ──▶  every station
    response ──▶  master, and every other station

A server that hears a request for another one takes the next frame for its
response (`confirmation_to_ignore`), and drops both.  So after each transaction
every station is idle again, and the bus is the service of a family of memories
(`bus_provides`): a request for a unit is done by the memory of this unit, and a
broadcast by all of them, in silence.

A request for a unit that is not on the bus is left out (`BusUnits`): no response
follows it, and the stations that wait for one drop the next request in its place.
-/
import Libmodbus.Sessions

namespace Libmodbus

open CSem Wire Posix

/-! ### Who hears what -/

/-- Each station hears what the others have answered. -/
def hear (fuel : Nat) (ver : VersionString) :
    List UInt8 → List (List UInt8 × Run Server) → List (Run Server)
  | _, [] => []
  | before, (answer, s) :: rest =>
    (serverReact fuel ver (before ++ (rest.map Prod.fst).flatten) s).2 ::
      hear fuel ver (before ++ answer) rest

/-- The master sends a message. -/
def busReact (fuel : Nat) (ver : VersionString) (message : List UInt8) (stations : List (Run Server)) :
    List UInt8 × List (Run Server) :=
  let heard := stations.map (serverReact fuel ver message)
  ((heard.map Prod.fst).flatten, hear fuel ver [] heard)

/-! ### The family of memories -/

/-- A request for unit 0 is for all memories, any other for the one of its unit. -/
def busService : Service (UInt8 → Option Memory) := fun unit r mems =>
  if unit = 0 then (.silence, fun u => (mems u).map fun mem => (mem.react r).2)
  else match mems unit with
    | some mem => ((mem.react r).1, Function.update mems unit (some (mem.react r).2))
    | none => (.silence, mems)

/-- An RTU server with a number of its own, which does not answer broadcasts. -/
structure Station (ctx : Modbus) : Prop where
  backend : ctx.backend = .rtu
  slave : 1 ≤ ctx.slave ∧ ctx.slave ≤ 255
  quiet : ctx.quirks.replyToBroadcast = false

/-- A station that stands for the memory of its unit. -/
def Mounted (mems : UInt8 → Option Memory) (ctx : Modbus) (s : Run Server) : Prop :=
  Station ctx ∧ ∃ mem, mems (lo ctx.slave) = some mem ∧ Stands ctx mem s

/-- So does each of the stations. -/
def OnBus (stations : List Modbus) (mems : UInt8 → Option Memory) (ss : List (Run Server)) : Prop :=
  List.Forall₂ (Mounted mems) stations ss

/-- The units that a master may address: the stations, and all of them. -/
def BusUnits (stations : List Modbus) (unit : UInt8) : Prop :=
  unit = 0 ∨ ∃ ctx ∈ stations, lo ctx.slave = unit

/-! ### What one station does -/

section Station

variable {fuel : Nat} {ver : VersionString} {ctx : Modbus} {m : Mapping} {s : Run Server} {a : Adu}

/-- A server that takes the next frame for the response of another one. -/
def Ignoring (ctx : Modbus) (m : Mapping) (s : Run Server) : Prop :=
  ∃ st, s = .ok (st, m) ∧ st.ctx = { ctx with confirmationToIgnore := true } ∧ st.os.input = [] ∧
    st.os.output = []

/-- A server that gets nothing stays as it is. -/
theorem serverReact_nothing (h : Idle ctx m s) : serverReact fuel ver [] s = ([], s) := by
  obtain ⟨st, rfl, -, hin, hout⟩ := h.running
  rcases st with ⟨ctx', e, ⟨input, output, split⟩⟩
  simp only at hin hout
  subst hin hout
  rfl

/-- A message is dealt with by the server loop, which starts with nothing else on the line. -/
theorem serverReact_of_loop {st st' : St Link} {m' : Mapping} {bytes : List UInt8}
    (hin : st.os.input = []) (hne : bytes ≠ [])
    (hloop : ∀ n, serverLoop fuel ver (n + 2) ({ st with os := { st.os with input := bytes } }, m) =
      .ok (st', m')) :
    serverReact fuel ver bytes (.ok (st, m)) =
      (st'.os.output.flatten, .ok ({ st' with os := { st'.os with output := [] } }, m')) := by
  obtain ⟨n, hn⟩ : ∃ n, bytes.length = n + 1 := ⟨bytes.length - 1, by
    have := List.length_pos_of_ne_nil hne
    omega⟩
  have hstep : serverStep fuel ver bytes (st, m) =
      .ok (st'.os.output.flatten, { st' with os := { st'.os with output := [] } }, m') := by
    simp only [serverStep, hin, List.nil_append, hn, hloop n, ok_bind]
  simp only [serverReact, ok_bind, hstep]

/-- A frame that the receive call returns 0 for is dropped. -/
theorem serverLoop_dropped {st st' : St Link} {msg : List UInt8} (hne : st.os.input ≠ [])
    (hrcv : modbusReceive (linkOs fuel) st = .ok (0, msg, st')) (hin : st'.os.input = []) (n : Nat) :
    serverLoop fuel ver (n + 2) (st, m) = .ok (st', m) := by
  simp only [serverLoop, if_neg hne, hrcv, ok_bind, lt_self_iff_false, if_false, hin, if_true]

theorem Adu.bytes_ne_nil (a : Adu) (be : Backend) : a.bytes be ≠ [] := by
  apply List.ne_nil_of_length_pos
  rw [Adu.length_bytes]
  cases be <;> simp only [Backend.headerLength] <;> omega

/-- The request of another unit: the next frame will be ignored. -/
theorem serverReact_foreign (hf : 0 < fuel) (ver : VersionString) (h : Idle ctx m s) (hbe : ctx.backend = .rtu)
    (ha : Framed .indication a.pdu) (haddr : ¬ Addressed ctx a) :
    ∃ s', serverReact fuel ver (a.bytes .rtu) s = ([], s') ∧ Ignoring ctx m s' := by
  obtain ⟨⟨st, rfl, rfl, hin, hout⟩, hc, hl⟩ := h
  set st₁ : St Link := { st with os := { st.os with input := a.bytes .rtu } } with hst₁
  obtain ⟨l, hrcv, ht, hto⟩ := modbusReceiveMsg_adu (linkOs_source fuel) hf
    (show Connected st₁.ctx from hc) ha
    (show st₁.os.input = a.bytes st₁.ctx.backend ++ [] by rw [List.append_nil, hst₁, hbe])
  rw [Adu.verdict_of_foreign haddr, show st₁.ctx.backend = .rtu from hbe] at hrcv
  rw [show st₁.ctx.backend = .rtu from hbe] at ht
  have hflag : st₁.ctx.confirmationToIgnore = false := hl rfl hbe
  have hcall : modbusReceive (linkOs fuel) st₁ = .ok (0, a.bytes .rtu,
      { st₁ with ctx := { st₁.ctx with confirmationToIgnore := true }, os := l }) := by
    simp only [modbusReceive, show st₁.ctx.backend = .rtu from hbe, hflag, hrcv, ok_bind,
      Bool.false_eq_true, if_false, if_true]
  have hlin : l.input = [] := List.append_cancel_left (ht.symm.trans (List.append_nil _).symm)
  have hlout : l.output.flatten = [] := by
    rw [hto.trans hout, List.flatten_nil]
  have hreact : serverReact fuel ver (a.bytes .rtu) (.ok (st, m)) = _ :=
    serverReact_of_loop hin (a.bytes_ne_nil _) (serverLoop_dropped (a.bytes_ne_nil .rtu) hcall hlin)
  simp only [hlout] at hreact
  exact ⟨_, hreact, _, rfl, rfl, hlin, rfl⟩

/-- The response that follows is dropped too. -/
theorem serverReact_ignored (hf : 0 < fuel) (ver : VersionString) (h : Ignoring ctx m s) (hc : Connected ctx)
    (hl : Listening ctx .indication) (hbe : ctx.backend = .rtu) (ha : Framed .confirmation a.pdu) :
    ∃ s', serverReact fuel ver (a.bytes .rtu) s = ([], s') ∧ Idle ctx m s' := by
  obtain ⟨st, rfl, hctx, hin, hout⟩ := h
  set st₁ : St Link := { st with os := { st.os with input := a.bytes .rtu } } with hst₁
  have hctx₁ : st₁.ctx = { ctx with confirmationToIgnore := true } := hctx
  have hbe₁ : st₁.ctx.backend = .rtu := by
    rw [hctx₁]
    exact hbe
  obtain ⟨l, hrcv, ht, hto⟩ := modbusReceiveMsg_adu (linkOs_source fuel) hf
    (show Connected st₁.ctx by rw [hctx₁]; exact hc) ha
    (show st₁.os.input = a.bytes st₁.ctx.backend ++ [] by rw [List.append_nil, hbe₁])
  rw [hbe₁] at hrcv ht
  have hcall : modbusReceive (linkOs fuel) st₁ = .ok (0, a.bytes .rtu,
      { st₁ with ctx := { st₁.ctx with confirmationToIgnore := false }, os := l }) := by
    simp only [modbusReceive, hbe₁, show st₁.ctx.confirmationToIgnore = true by rw [hctx₁], hrcv,
      ok_bind, if_true]
  have hlin : l.input = [] := List.append_cancel_left (ht.symm.trans (List.append_nil _).symm)
  have hlout : l.output.flatten = [] := by
    rw [hto.trans hout, List.flatten_nil]
  -- the flag is down again
  have hback : { st₁.ctx with confirmationToIgnore := false } = ctx := by
    rw [hctx₁, ← hl rfl hbe]
  have hreact : serverReact fuel ver (a.bytes .rtu) (.ok (st, m)) = _ :=
    serverReact_of_loop hin (a.bytes_ne_nil _) (serverLoop_dropped (a.bytes_ne_nil .rtu) hcall hlin)
  simp only [hlout] at hreact
  exact ⟨_, hreact, ⟨_, rfl, hback, hlin, rfl⟩, hc, hl⟩

/-- A broadcast is carried out in silence. -/
theorem serverReact_broadcast (hf : 0 < fuel) (h : Idle ctx m s) (ha : Framed .indication a.pdu)
    (haddr : Addressed ctx a) (hsup : suppressed ctx a.unit = true) {p : PduReply}
    (hp : servePdu ver a.pdu m = .ok p) :
    ∃ s', serverReact fuel ver (a.bytes ctx.backend) s = ([], s') ∧ Idle ctx p.mapping s' := by
  obtain ⟨⟨st, rfl, rfl, hin, hout⟩, hc, hl⟩ := h
  set bytes := a.bytes st.ctx.backend with hbytes
  have hne : bytes ≠ [] := a.bytes_ne_nil _
  have hpos := List.length_pos_of_ne_nil hne
  set st₁ : St Link := { st with os := { st.os with input := bytes } } with hst₁
  obtain ⟨l, hrcv, ht, hto⟩ := receiveStep_adu (linkOs_source fuel) hf
    (show Connected st₁.ctx from hc) hl ha haddr
    (show st₁.os.input = a.bytes st₁.ctx.backend ++ [] from (List.append_nil _).symm)
  obtain ⟨⟨rc, req, st₂⟩, hrcv, he⟩ := bind_eq_ok.mp hrcv
  cases he
  have hlin : l.input = [] := List.append_cancel_left (ht.symm.trans (List.append_nil _).symm)
  -- the reply is built, the link flushed perhaps, and nothing sent
  obtain ⟨e, l', hreply, hlin', hlout'⟩ : ∃ e l', modbusReply (linkOs fuel) ver { st₁ with os := l }
      bytes (bytes.length : Nat) m = .ok (0, p.mapping, ⟨st.ctx, e, l'⟩) ∧ l'.input = [] ∧
        l'.output = [] := by
    have hlen : ¬ ((bytes.length : Nat) : Int) < (st.ctx.backend.headerLength + 1 : Nat) := by
      have := List.length_pos_of_ne_nil ha.ne_nil
      rw [hbytes, Adu.length_bytes]
      omega
    have hunit : rd bytes (st.ctx.backend.headerLength - 1) = .ok a.unit := a.rd_wrapped_unit _
    have hbuild : buildReply ver st.ctx.backend bytes (bytes.length : Nat) m =
        .ok (p.wrap st.ctx.backend a) := by
      have hlast : (a.checksum st.ctx.backend).length = st.ctx.backend.checksumLength :=
        a.length_checksum
      have h := buildReply_wrapped ver a m hlast ha.ne_nil
      rw [hp] at h
      exact h
    have hcalm : ∀ st' : St Link, st'.ctx = st.ctx → sendReply (linkOs fuel) a.unit
        (p.wrap st.ctx.backend a) st' = .ok (0, p.mapping, st') := by
      intro st' hctx
      rw [sendReply, hctx, hsup]
      rfl
    rw [modbusReply_eq, show ({ st₁ with os := l } : St Link).ctx = st.ctx from rfl, if_neg hlen,
      hunit, ok_bind, hbuild, ok_bind]
    cases hflush : (p.wrap st.ctx.backend a).flush with
    | false =>
      rw [if_neg Bool.false_ne_true]
      exact ⟨st.errno, l, hcalm _ rfl, hlin, hto.trans hout⟩
    | true =>
      obtain ⟨e, l', hsleep, hl'⟩ : ∃ e l', sleepAndFlush (linkOs fuel) { st₁ with os := l } =
          .ok ⟨st.ctx, e, l'⟩ ∧ l'.input = [] ∧ l'.output = [] :=
        sleepAndFlush_ends ((linkOs_drains_input fuel).and (linkOs_drains_output fuel []))
          ⟨hlin, hto.trans hout⟩
      rw [if_pos rfl, hsleep, ok_bind]
      exact ⟨e, l', hcalm _ rfl, hl'⟩
  have hrcv' : modbusReceive (linkOs fuel) st₁ = .ok ((bytes.length : Nat), bytes,
      { st₁ with os := l }) := hrcv
  have hrc : (0 : Int) < (bytes.length : Nat) := Int.natCast_pos.mpr hpos
  have hloop : ∀ n, serverLoop fuel ver (n + 2) (st₁, m) = .ok (⟨st.ctx, e, l'⟩, p.mapping) := by
    intro n
    simp only [serverLoop, show st₁.os.input = bytes from rfl, if_neg hne, hrcv', ok_bind,
      if_pos hrc, hreply, hlin', if_true]
  have hreact := serverReact_of_loop hin hne hloop
  simp only [hlout', List.flatten_nil] at hreact
  exact ⟨_, hreact, ⟨_, rfl, rfl, hlin', rfl⟩, hc, hl⟩

end Station

/-! ### What the stations hear of each other -/

theorem flatten_silent {heard : List (List UInt8 × Run Server)} (h : ∀ x ∈ heard, x.1 = []) :
    (heard.map Prod.fst).flatten = [] := by
  rw [List.flatten_eq_nil_iff]
  intro l hl
  obtain ⟨y, hy, rfl⟩ := List.mem_map.mp hl
  exact h y hy

/-- When nobody answers, nothing is heard but what was there before. -/
theorem hear_silent {fuel : Nat} {ver : VersionString} {before : List UInt8}
    {heard : List (List UInt8 × Run Server)} (h : ∀ x ∈ heard, x.1 = []) :
    hear fuel ver before heard = heard.map fun x => (serverReact fuel ver before x.2).2 := by
  induction heard with
  | nil => rfl
  | cons x rest ih =>
    obtain ⟨hx, hrest⟩ := List.forall_mem_cons.mp h
    rw [hear, hx, flatten_silent hrest, List.append_nil, ih hrest]
    rfl

theorem flatten_answers {answer : List UInt8} {s : Run Server}
    {heard₁ heard₂ : List (List UInt8 × Run Server)} (h₁ : ∀ x ∈ heard₁, x.1 = [])
    (h₂ : ∀ x ∈ heard₂, x.1 = []) :
    ((heard₁ ++ (answer, s) :: heard₂).map Prod.fst).flatten = answer := by
  rw [List.map_append, List.map_cons, List.flatten_append, List.flatten_cons, flatten_silent h₁,
    flatten_silent h₂, List.nil_append, List.append_nil]

/-- When one of them answers, all others hear the answer. -/
theorem hear_one {fuel : Nat} {ver : VersionString} {answer : List UInt8} {s : Run Server}
    {heard₁ heard₂ : List (List UInt8 × Run Server)} (h₁ : ∀ x ∈ heard₁, x.1 = [])
    (h₂ : ∀ x ∈ heard₂, x.1 = []) :
    hear fuel ver [] (heard₁ ++ (answer, s) :: heard₂) =
      heard₁.map (fun x => (serverReact fuel ver answer x.2).2) ++
        (serverReact fuel ver [] s).2 ::
          heard₂.map fun x => (serverReact fuel ver answer x.2).2 := by
  induction heard₁ with
  | nil =>
    rw [List.nil_append, hear, flatten_silent h₂, List.append_nil, List.nil_append, hear_silent h₂]
    rfl
  | cons x rest ih =>
    obtain ⟨hx, hrest⟩ := List.forall_mem_cons.mp h₁
    rw [List.cons_append, hear, flatten_answers hrest h₂, List.nil_append, List.nil_append, hx,
      ih hrest]
    rfl

/-- Where one of a list is paired, the others are paired around it. -/
theorem forall₂_split {α β : Type} {P : α → β → Prop} {as₁ as₂ : List α} {a : α} {bs : List β}
    (h : List.Forall₂ P (as₁ ++ a :: as₂) bs) :
    ∃ bs₁ b bs₂, bs = bs₁ ++ b :: bs₂ ∧ List.Forall₂ P as₁ bs₁ ∧ P a b ∧ List.Forall₂ P as₂ bs₂ := by
  induction as₁ generalizing bs with
  | nil =>
    obtain ⟨b, bs₂, hb, hrest, rfl⟩ := List.forall₂_cons_left_iff.mp h
    exact ⟨[], b, bs₂, rfl, .nil, hb, hrest⟩
  | cons a' as ih =>
    obtain ⟨b', bs', hb', hrest, rfl⟩ := List.forall₂_cons_left_iff.mp h
    obtain ⟨bs₁, b, bs₂, rfl, h₁, hb, h₂⟩ := ih hrest
    exact ⟨b' :: bs₁, b, bs₂, rfl, .cons hb' h₁, hb, h₂⟩

/-! ### The bus -/

section Bus

variable {fuel : Nat} {ver : VersionString} {mems : UInt8 → Option Memory} {ctx : Modbus}
  {s : Run Server} {r : Request} {unit : UInt8}

theorem Station.toNat_unit (h : Station ctx) : ((lo ctx.slave).toNat : Int) = ctx.slave := by
  have hbyte := toNat_lo ctx.slave
  have := h.slave
  omega

/-- The station of another unit drops the request. -/
theorem Mounted.foreign (hf : 0 < fuel) (ver : VersionString) (h : Mounted mems ctx s) (hr : r.Valid) (tId : UInt16)
    (hunit : unit ≠ 0) (hother : lo ctx.slave ≠ unit) :
    ∃ m s', serverReact fuel ver ((freshAdu tId unit r.pdu).bytes .rtu) s = ([], s') ∧
      Ignoring ctx m s' ∧ Idle ctx m s ∧ m.Regular ∧ mems (lo ctx.slave) = some m.memory := by
  obtain ⟨hstation, mem, hmem, m, hidle, hm, rfl⟩ := h
  have haddr : ¬ Addressed ctx (freshAdu tId unit r.pdu) := by
    intro haddr
    rcases haddr hstation.backend with h | h
    · apply hother
      have hnat := hstation.toNat_unit.trans h.symm
      exact UInt8.toNat_inj.mp (Int.natCast_inj.mp hnat)
    · exact hunit (UInt8.toNat_inj.mp h)
  obtain ⟨s', hreact, hignoring⟩ := serverReact_foreign hf ver hidle hstation.backend
    (show Framed .indication (freshAdu tId unit r.pdu).pdu from Request.framed hr) haddr
  exact ⟨m, s', hreact, hignoring, hidle, hm, hmem⟩

/-- And the response to it. -/
theorem Mounted.bystander (hf : 0 < fuel) (ver : VersionString) (h : Mounted mems ctx s) (hr : r.Valid) (tId : UInt16)
    (hunit : unit ≠ 0) (hother : lo ctx.slave ≠ unit) {pdu : List UInt8}
    (hpdu : Framed .confirmation pdu) (mem : Option Memory) :
    (serverReact fuel ver ((freshAdu tId unit r.pdu).bytes .rtu) s).1 = [] ∧
      Mounted (Function.update mems unit mem) ctx
        (serverReact fuel ver ((freshAdu tId unit pdu).bytes .rtu)
          (serverReact fuel ver ((freshAdu tId unit r.pdu).bytes .rtu) s).2).2 := by
  obtain ⟨m, s₁, hreact₁, hignoring, hidle, hm, hmem⟩ := h.foreign hf ver hr tId hunit hother
  obtain ⟨s₂, hreact₂, hidle'⟩ := serverReact_ignored hf ver hignoring hidle.connected
    hidle.listening h.1.backend (show Framed .confirmation (freshAdu tId unit pdu).pdu from hpdu)
  rw [hreact₁]
  refine ⟨rfl, h.1, m.memory, ?_, m, ?_, hm, rfl⟩
  · rw [Function.update_of_ne hother]
    exact hmem
  · rw [hreact₂]
    exact hidle'

/-- A broadcast is for every station. -/
theorem Mounted.broadcast (hf : 0 < fuel) (ver : VersionString) (h : Mounted mems ctx s) (hr : r.Valid) (tId : UInt16) :
    (serverReact fuel ver ((freshAdu tId 0 r.pdu).bytes .rtu) s).1 = [] ∧
      Mounted (fun u => (mems u).map fun mem => (mem.react r).2) ctx
        (serverReact fuel ver [] (serverReact fuel ver ((freshAdu tId 0 r.pdu).bytes .rtu) s).2).2 := by
  obtain ⟨hstation, mem, hmem, m, hidle, hm, rfl⟩ := h
  obtain ⟨p, hp, -, hregular, hmem'⟩ := servePdu_react ver hm hr
  have hsup : suppressed ctx 0 = true := by
    simp [suppressed, hstation.backend, hstation.quiet]
  obtain ⟨s', hreact, hidle'⟩ := serverReact_broadcast (a := freshAdu tId 0 r.pdu) hf hidle
    (Request.framed hr) (fun _ => Or.inr rfl) hsup hp
  rw [hstation.backend] at hreact
  rw [hreact]
  refine ⟨rfl, hstation, p.mapping.memory, ?_, p.mapping, ?_, hregular, rfl⟩
  · show (mems (lo ctx.slave)).map _ = _
    rw [hmem, Option.map_some, hmem']
  · rw [serverReact_nothing hidle']
    exact hidle'

theorem forall_right {α β : Type} {P : α → β → Prop} {Q : β → Prop} {as : List α} {bs : List β}
    (h : List.Forall₂ P as bs) (hQ : ∀ {a b}, P a b → Q b) : ∀ b ∈ bs, Q b := by
  induction h with
  | nil => exact List.forall_mem_nil _
  | cons hab _ ih => exact List.forall_mem_cons.mpr ⟨hQ hab, ih⟩

/-- **The bus is the service of a family of memories**, for requests to stations that are there and
to all of them. -/
theorem bus_provides (hf : 0 < fuel) (ver : VersionString) {stations : List Modbus}
    (hdistinct : stations.Pairwise fun a b => a.slave ≠ b.slave) :
    Provides .rtu (busReact fuel ver) busService (BusUnits stations) (OnBus stations) := by
  intro mems ss unit r tId hR hunit hr
  set f := serverReact fuel ver ((freshAdu tId unit r.pdu).bytes .rtu) with hfdef
  by_cases h0 : unit = 0
  · -- nobody answers, and everybody has carried it out
    subst h0
    have hsvc : busService 0 r mems =
        (.silence, fun u => (mems u).map fun mem => (mem.react r).2) := if_pos rfl
    have hsilent : ∀ x ∈ ss.map f, x.1 = [] :=
      List.forall_mem_map.mpr (forall_right hR fun h => (h.broadcast hf ver hr tId).1)
    refine ⟨hear fuel ver [] (ss.map f), ?_, ?_⟩
    · rw [hsvc]
      exact Prod.ext (flatten_silent hsilent) rfl
    · rw [hsvc, hear_silent hsilent]
      refine List.forall₂_map_right_iff.mpr (List.forall₂_map_right_iff.mpr ?_)
      exact hR.imp fun ctx s h => (h.broadcast hf ver hr tId).2
  · -- one station answers
    obtain ⟨ctx, hmem, rfl⟩ := hunit.resolve_left h0
    obtain ⟨l₁, l₂, rfl⟩ := List.mem_iff_append.mp hmem
    obtain ⟨ss₁, s, ss₂, rfl, hR₁, ⟨hstation, mem, hown, hstands⟩, hR₂⟩ := forall₂_split hR
    obtain ⟨-, hd₂, hd₁⟩ := List.pairwise_append.mp hdistinct
    have hbytes := hstation.toNat_unit
    have hother : ∀ {c : Modbus}, Station c → c.slave ≠ ctx.slave → lo c.slave ≠ lo ctx.slave := by
      intro c hc hne heq
      exact hne (by rw [← hc.toNat_unit, heq, hbytes])
    have hother₁ : ∀ c ∈ l₁, c.slave ≠ ctx.slave := fun c hc => hd₁ c hc ctx List.mem_cons_self
    have hother₂ : ∀ c ∈ l₂, c.slave ≠ ctx.slave :=
      fun c hc => ((List.pairwise_cons.mp hd₂).1 c hc).symm
    obtain ⟨s', hreact, hstands'⟩ := server_provides hf ver ctx tId hstands
      (fun _ => ⟨hbytes, h0⟩) hr
    rw [hstation.backend] at hreact
    have hsvc : busService (lo ctx.slave) r mems =
        ((mem.react r).1, Function.update mems (lo ctx.slave) (some (mem.react r).2)) := by
      simp only [busService, if_neg h0, hown]
    obtain ⟨pdu, hpdu⟩ : ∃ pdu, (mem.react r).1.pdu = some pdu := by
      obtain ⟨m, -, hm, rfl⟩ := hstands
      obtain ⟨p, -, hpdu, -⟩ := servePdu_react ver hm hr
      exact ⟨p.pdu, hpdu⟩
    have hframed := Reaction.framed hr hpdu
    rw [show (memoryService (lo ctx.slave) r mem).1 = (mem.react r).1 from rfl,
      Reaction.bytes_some hpdu] at hreact
    -- the others hear the request and then the answer
    have hpair : ∀ {l : List Modbus} {ss : List (Run Server)}, (∀ c ∈ l, c.slave ≠ ctx.slave) →
        List.Forall₂ (Mounted mems) l ss →
        (∀ x ∈ ss.map f, x.1 = []) ∧ List.Forall₂
          (Mounted (Function.update mems (lo ctx.slave) (some (mem.react r).2))) l
          ((ss.map f).map fun x => (serverReact fuel ver
            ((freshAdu tId (lo ctx.slave) pdu).bytes .rtu) x.2).2) := by
      intro l ss hl hR
      induction hR with
      | nil => exact ⟨List.forall_mem_nil _, .nil⟩
      | @cons c s l ss h _ ih =>
        obtain ⟨hc, hrest⟩ := List.forall_mem_cons.mp hl
        obtain ⟨hsilent, hmounted⟩ := ih hrest
        have hby := h.bystander hf ver hr tId h0 (hother h.1 hc) hframed
          (some (mem.react r).2)
        exact ⟨List.forall_mem_cons.mpr ⟨hby.1, hsilent⟩, .cons hby.2 hmounted⟩
    obtain ⟨hs₁, hm₁⟩ := hpair hother₁ hR₁
    obtain ⟨hs₂, hm₂⟩ := hpair hother₂ hR₂
    have hheard : (ss₁ ++ s :: ss₂).map f = ss₁.map f ++
        ((freshAdu tId (lo ctx.slave) pdu).bytes .rtu, s') :: ss₂.map f := by
      rw [List.map_append, List.map_cons, ← hreact]
    obtain ⟨m', hidle', hregular', hmem'⟩ := hstands'
    refine ⟨hear fuel ver [] ((ss₁ ++ s :: ss₂).map f), ?_, ?_⟩
    · rw [hsvc, Reaction.bytes_some hpdu]
      refine Prod.ext ?_ rfl
      show (((ss₁ ++ s :: ss₂).map f).map Prod.fst).flatten = _
      rw [hheard, flatten_answers hs₁ hs₂]
    · rw [hsvc, hheard, hear_one hs₁ hs₂, serverReact_nothing hidle']
      refine List.rel_append hm₁ (.cons ⟨hstation, (mem.react r).2, ?_, m', hidle', hregular', ?_⟩ hm₂)
      · rw [Function.update_self]
      · exact hmem'

end Bus

end Libmodbus
