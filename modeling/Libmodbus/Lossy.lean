/-
Libmodbus/Lossy.lean

A line that loses frames.

    client ──?──▶ plant        the request may be lost
    client ◀──?── plant        or what comes back

`lossyReact` puts such a line in front of any peer; a list says what is lost.
In the abstract it is `lossyService`, so what is known of sessions holds of it.

`losses_only_omit`: a session in which frames are lost is the session without
the requests that were lost, and a caller that gets no answer gets `ETIMEDOUT`.
`repeats_are_harmless`: a call that is repeated until it is answered is carried
out as if it had been made once, whatever was lost on the way, since every
request has the same effect and the same answer the second time.
-/
import Libmodbus.Plants

namespace Libmodbus

open CSem Wire Posix

variable {τ δ : Type} {be : Backend}

/-! ### Requests that are carried out again -/

/-- Cells that were there are there after a write. -/
theorem slice_put_some {α : Type} {c : Cells α} {a n : Nat} {old : List α} (k : Nat) (vs : List α)
    (h : c.slice a n = some old) : ∃ new, (c.put k vs).slice a n = some new :=
  Option.isSome_iff_exists.mp ((Cells.isSome_slice_put k vs).mpr (by rw [h]; rfl))

/-- A masked write changes nothing the second time. -/
theorem mask_again (v andMask orMask : UInt16) :
    (((v &&& andMask) ||| (orMask &&& ~~~andMask)) &&& andMask) ||| (orMask &&& ~~~andMask) =
      (v &&& andMask) ||| (orMask &&& ~~~andMask) := by
  apply UInt16.eq_of_toBitVec_eq
  ext i hi
  simp only [UInt16.toBitVec_or, UInt16.toBitVec_and, UInt16.toBitVec_not, BitVec.getElem_or,
    BitVec.getElem_and, BitVec.getElem_not]
  cases v.toBitVec[i] <;> cases andMask.toBitVec[i] <;> cases orMask.toBitVec[i] <;> rfl

/-- A request that comes again finds the memory as it has left it. -/
theorem Request.apply_again {r : Request} {mem mem' : Memory} {response : Response}
    (h : r.apply mem = some (response, mem')) : r.apply mem' = some (response, mem') := by
  cases r with
  | readBits isInput addr nb =>
    obtain ⟨vs, hvs, he⟩ := Option.map_eq_some_iff.mp h
    cases he
    exact h
  | readRegisters isInput addr nb =>
    obtain ⟨vs, hvs, he⟩ := Option.map_eq_some_iff.mp h
    cases he
    exact h
  | writeBit addr status =>
    obtain ⟨vs, hvs, he⟩ := Option.map_eq_some_iff.mp h
    cases he
    obtain ⟨new, hnew⟩ := slice_put_some addr [status] hvs
    simp only [apply, hnew, Option.map_some, Cells.put_put]
  | writeRegister addr value =>
    obtain ⟨vs, hvs, he⟩ := Option.map_eq_some_iff.mp h
    cases he
    obtain ⟨new, hnew⟩ := slice_put_some addr [value] hvs
    simp only [apply, hnew, Option.map_some, Cells.put_put]
  | writeBits addr values =>
    obtain ⟨vs, hvs, he⟩ := Option.map_eq_some_iff.mp h
    cases he
    obtain ⟨new, hnew⟩ := slice_put_some addr values hvs
    simp only [apply, hnew, Option.map_some, Cells.put_put]
  | writeRegisters addr values =>
    obtain ⟨vs, hvs, he⟩ := Option.map_eq_some_iff.mp h
    cases he
    obtain ⟨new, hnew⟩ := slice_put_some addr values hvs
    simp only [apply, hnew, Option.map_some, Cells.put_put]
  | maskWrite addr andMask orMask =>
    obtain ⟨vs, hvs, he⟩ := Option.map_eq_some_iff.mp h
    cases he
    rw [Cells.slice_one] at hvs
    obtain ⟨v, hv, rfl⟩ := Option.map_eq_some_iff.mp hvs
    simp only [apply, Cells.slice_one, List.map_cons, List.map_nil, Cells.put_one, hv,
      Option.map_some, Cells.put_put, mask_again, List.length_singleton]
  | writeAndRead readAddr readNb writeAddr values =>
    -- it writes first, so it reads what it has written
    obtain ⟨old, hold, h⟩ := Option.bind_eq_some_iff.mp h
    obtain ⟨old', hold', h⟩ := Option.bind_eq_some_iff.mp h
    obtain ⟨vs, hvs, he⟩ := Option.map_eq_some_iff.mp h
    cases he
    obtain ⟨new', hnew'⟩ := slice_put_some writeAddr values hold'
    simp only [apply, hvs, hnew', Option.bind_some, Option.map_some, Cells.put_put]

/-- What a service makes of a request, it makes of it again. -/
def Service.Repeatable (svc : Service τ) : Prop :=
  ∀ unit r t, svc unit r (svc unit r t).2 = svc unit r t

theorem memoryService_repeatable : Service.Repeatable memoryService := by
  intro unit r mem
  show (mem.react r).2.react r = mem.react r
  cases happly : r.apply mem with
  | none => rw [Memory.react_none happly, Memory.react_none happly]
  | some answer =>
    rw [Memory.react_some happly]
    exact Memory.react_some (Request.apply_again happly)

theorem busService_repeatable : Service.Repeatable busService := by
  intro unit r mems
  have hagain : ∀ mem : Memory, (mem.react r).2.react r = mem.react r :=
    fun mem => memoryService_repeatable unit r mem
  unfold busService
  by_cases h0 : unit = 0
  · simp only [if_pos h0, Option.map_map, Function.comp_def, hagain]
  · cases hmem : mems unit with
    | none => simp only [if_neg h0, hmem]
    | some mem =>
      simp only [if_neg h0, Function.update_self, hagain, Function.update_idem]

theorem gatewayService_repeatable (back : Modbus) {svc : Service τ} (h : svc.Repeatable) :
    (gatewayService back svc).Repeatable := by
  intro unit r t
  unfold gatewayService
  by_cases htakes : back.Takes unit.toNat
  · simp only [if_pos htakes, h unit r t]
  · simp only [if_neg htakes]

/-- **Every plant is repeatable.** -/
theorem Plant.service_repeatable {be : Backend} (p : Plant be) : p.service.Repeatable := by
  induction p with
  | server ctx => exact memoryService_repeatable
  | bus stations distinct => exact busService_repeatable
  | gateway front back hfront hlistening hback behind ih => exact gatewayService_repeatable back ih

/-! ### The line -/

/-- What is lost of an exchange. -/
inductive Loss
  | request
  | response

/-- A peer, and what becomes of the exchanges to come; the line is sound when the list is over. -/
structure Lossy (δ : Type) where
  fates : List (Option Loss)
  peer : δ

/-- A peer at the end of a line that loses frames. -/
def lossyReact (react : List UInt8 → δ → List UInt8 × δ) (bytes : List UInt8) (s : Lossy δ) :
    List UInt8 × Lossy δ :=
  match s.fates.head?.join with
  | some .request => ([], ⟨s.fates.tail, s.peer⟩)
  | some .response => ([], ⟨s.fates.tail, (react bytes s.peer).2⟩)
  | none => ((react bytes s.peer).1, ⟨s.fates.tail, (react bytes s.peer).2⟩)

/-- The service of a peer at the end of such a line. -/
def lossyService (svc : Service τ) : Service (Lossy τ) := fun unit r t =>
  match t.fates.head?.join with
  | some .request => (.silence, ⟨t.fates.tail, t.peer⟩)
  | some .response => (.silence, ⟨t.fates.tail, (svc unit r t.peer).2⟩)
  | none => ((svc unit r t.peer).1, ⟨t.fates.tail, (svc unit r t.peer).2⟩)

/-- The same is to be lost, and the peer stands for the state of its service. -/
def Alike (R : τ → δ → Prop) (t : Lossy τ) (s : Lossy δ) : Prop :=
  t.fates = s.fates ∧ R t.peer s.peer

/-- **A lossy line serves the lossy service.** -/
theorem lossy_provides {react : List UInt8 → δ → List UInt8 × δ} {svc : Service τ}
    {units : UInt8 → Prop} {R : τ → δ → Prop} (hs : Provides be react svc units R) :
    Provides be (lossyReact react) (lossyService svc) units (Alike R) := by
  rintro ⟨fates, t⟩ ⟨fates', s⟩ unit r tId ⟨hfates, hR⟩ hunit hr
  cases hfates
  obtain ⟨s', hreact, hR'⟩ := hs tId hR hunit hr
  unfold lossyReact lossyService
  cases fates.head?.join with
  | none => exact ⟨⟨fates.tail, s'⟩, by simp only [hreact], rfl, hR'⟩
  | some loss =>
    cases loss with
    | request => exact ⟨⟨fates.tail, s⟩, rfl, rfl, hR⟩
    | response => exact ⟨⟨fates.tail, s'⟩, by simp only [hreact]; rfl, rfl, hR'⟩

/-! ### One call -/

/-- What the caller gets when no answer comes. -/
def Call.timedOut (c : Call) : Returned := c.took .silence

section Under

variable {ctx : Modbus} {svc : Service τ} {input : Int × Call}

theorem under_request (htakes : ctx.Takes input.1) (fates : List (Option Loss)) (t : τ) :
    Call.under ctx (lossyService svc) input ⟨some .request :: fates, t⟩ =
      (input.2.timedOut, ⟨fates, t⟩) := by
  rw [Call.under, if_pos htakes]
  rfl

theorem under_response (htakes : ctx.Takes input.1) (fates : List (Option Loss)) (t : τ) :
    Call.under ctx (lossyService svc) input ⟨some .response :: fates, t⟩ =
      (input.2.timedOut, ⟨fates, (Call.under ctx svc input t).2⟩) := by
  simp only [Call.under, if_pos htakes]
  rfl

theorem under_carried (htakes : ctx.Takes input.1) (fates : List (Option Loss)) (t : τ) :
    Call.under ctx (lossyService svc) input ⟨none :: fates, t⟩ =
      ((Call.under ctx svc input t).1, ⟨fates, (Call.under ctx svc input t).2⟩) := by
  simp only [Call.under, if_pos htakes]
  rfl

/-- A call that is made again returns the same, and leaves the same. -/
theorem under_again (hsvc : svc.Repeatable) (ctx : Modbus) (input : Int × Call) (t : τ) :
    Call.under ctx svc input (Call.under ctx svc input t).2 = Call.under ctx svc input t := by
  have hagain := hsvc (lo input.1) input.2.request t
  unfold Call.under
  split_ifs
  · simp only [hagain]
  · rfl

end Under

/-! ### Sessions that lose frames -/

/-- The calls of which the request arrives. -/
def reaching : List (Int × Call) → List (Option Loss) → List (Int × Call)
  | _ :: inputs, some .request :: fates => reaching inputs fates
  | input :: inputs, _ :: fates => input :: reaching inputs fates
  | inputs, _ => inputs

/-- What the callers get, of what is returned for the requests that arrive. -/
def heard : List (Int × Call) → List (Option Loss) → List Returned → List Returned
  | input :: inputs, some .request :: fates, outs => input.2.timedOut :: heard inputs fates outs
  | input :: inputs, some .response :: fates, _ :: outs =>
    input.2.timedOut :: heard inputs fates outs
  | _ :: inputs, none :: fates, out :: outs => out :: heard inputs fates outs
  | _, _, outs => outs

/-- On the service, frames that are lost omit requests and nothing else. -/
theorem specRuns_lossy {ctx : Modbus} (svc : Service τ) {inputs : List (Int × Call)}
    (htakes : ∀ i ∈ inputs, ctx.Takes i.1) (fates : List (Option Loss)) (t : τ) :
    specRuns (Call.under ctx (lossyService svc)) inputs ⟨fates, t⟩ =
      (heard inputs fates (specRuns (Call.under ctx svc) (reaching inputs fates) t).1,
        ⟨fates.drop inputs.length,
          (specRuns (Call.under ctx svc) (reaching inputs fates) t).2⟩) := by
  induction inputs generalizing fates t with
  | nil => cases fates <;> rfl
  | cons input inputs ih =>
    have hi : ctx.Takes input.1 := htakes input List.mem_cons_self
    have hrest : ∀ i ∈ inputs, ctx.Takes i.1 := fun i h => htakes i (List.mem_cons_of_mem _ h)
    cases fates with
    | nil =>
      -- the line is sound from here on
      have hsound : Call.under ctx (lossyService svc) input ⟨[], t⟩ =
          ((Call.under ctx svc input t).1, ⟨[], (Call.under ctx svc input t).2⟩) := by
        simp only [Call.under, if_pos hi]
        rfl
      have hnone : ∀ inputs, reaching inputs [] = inputs := by
        intro inputs
        cases inputs <;> rfl
      have hall : ∀ inputs outs, heard inputs [] outs = outs := by
        intro inputs outs
        cases inputs <;> rfl
      have hih := ih hrest [] (Call.under ctx svc input t).2
      simp only [hnone, hall, List.drop_nil] at hih ⊢
      simp only [specRuns, hsound, hih]
    | cons fate fates =>
      cases fate with
      | none =>
        simp only [specRuns, under_carried hi, ih hrest, reaching, heard, List.length_cons,
          List.drop_succ_cons]
      | some loss =>
        cases loss with
        | request =>
          simp only [specRuns, under_request hi, ih hrest, reaching, heard, List.length_cons,
            List.drop_succ_cons]
        | response =>
          simp only [specRuns, under_response hi, ih hrest, reaching, heard, List.length_cons,
            List.drop_succ_cons]

/-! ### Calls that are repeated -/

/-- A call, and what is lost of it until it gets through. -/
structure Attempts where
  call : Int × Call
  losses : List Loss

namespace Attempts

/-- The call is made once more than it fails. -/
def calls (a : Attempts) : List (Int × Call) := List.replicate (a.losses.length + 1) a.call

def fates (a : Attempts) : List (Option Loss) := a.losses.map some ++ [none]

/-- Only the last attempt gets an answer. -/
def returned (a : Attempts) (out : Returned) : List Returned :=
  List.replicate a.losses.length a.call.2.timedOut ++ [out]

/-- However often the call has been carried out before, it returns the same. -/
theorem specRuns_calls {ctx : Modbus} {svc : Service τ} (hsvc : svc.Repeatable) (a : Attempts)
    (htakes : ctx.Takes a.call.1) (rest : List (Option Loss)) {t t' : τ}
    (hsame : Call.under ctx svc a.call t' = Call.under ctx svc a.call t) :
    specRuns (Call.under ctx (lossyService svc)) a.calls ⟨a.fates ++ rest, t'⟩ =
      (a.returned (Call.under ctx svc a.call t).1, ⟨rest, (Call.under ctx svc a.call t).2⟩) := by
  rcases a with ⟨call, losses⟩
  induction losses generalizing t' with
  | nil =>
    show specRuns (Call.under ctx (lossyService svc)) [call] ⟨none :: rest, t'⟩ = _
    simp only [specRuns, under_carried htakes, hsame]
    rfl
  | cons loss losses ih =>
    have hcalls : Attempts.calls ⟨call, loss :: losses⟩ = call :: Attempts.calls ⟨call, losses⟩ := rfl
    have hfates : Attempts.fates ⟨call, loss :: losses⟩ ++ rest =
        some loss :: (Attempts.fates ⟨call, losses⟩ ++ rest) := rfl
    have hreturned : ∀ out, Attempts.returned ⟨call, loss :: losses⟩ out =
        call.2.timedOut :: Attempts.returned ⟨call, losses⟩ out := fun out => rfl
    rw [hcalls, hfates, hreturned]
    cases loss with
    | request => simp only [specRuns, under_request htakes, ih htakes hsame]
    | response =>
      -- the request has been carried out, and is not carried out otherwise the next time
      have hagain : Call.under ctx svc call (Call.under ctx svc call t').2 =
          Call.under ctx svc call t := (under_again hsvc ctx call t').trans hsame
      simp only [specRuns, under_response htakes, ih htakes hagain]

end Attempts

/-- A session of calls that are repeated until they are answered. -/
theorem specRuns_attempts {ctx : Modbus} {svc : Service τ} (hsvc : svc.Repeatable)
    {plan : List Attempts} (htakes : ∀ a ∈ plan, ctx.Takes a.call.1) (t : τ) :
    specRuns (Call.under ctx (lossyService svc)) (plan.flatMap Attempts.calls)
        ⟨plan.flatMap Attempts.fates, t⟩ =
      ((List.zipWith Attempts.returned plan
          (specRuns (Call.under ctx svc) (plan.map Attempts.call) t).1).flatten,
        ⟨[], (specRuns (Call.under ctx svc) (plan.map Attempts.call) t).2⟩) := by
  induction plan generalizing t with
  | nil => rfl
  | cons a plan ih =>
    have hfirst := a.specRuns_calls hsvc (htakes a List.mem_cons_self)
      (plan.flatMap Attempts.fates) (t := t) rfl
    rw [List.flatMap_cons, List.flatMap_cons, specRuns_append, hfirst,
      ih fun b hb => htakes b (List.mem_cons_of_mem _ hb)]
    rfl

section Plants

variable {fuel : Nat} (hf : 0 < fuel) (ver : VersionString) {ctx : Modbus} (p : Plant ctx.backend)
  {cells : p.Cells} {st : St (Peered (Lossy p.State))}

include hf

/-- A session over a line that loses frames, on any plant. -/
theorem lossy_sessions {fates : List (Option Loss)}
    (hat : Attached ctx (Alike p.Rests) ⟨fates, cells⟩ st) {inputs : List (Int × Call)}
    (hin : ∀ i ∈ inputs, i.2.Valid ∧ p.Units (lo i.1)) :
    ∃ st', runs (Call.runUnder (peerOs fuel (lossyReact (p.react fuel ver)))) inputs st =
        .ok ((specRuns (Call.under ctx (lossyService p.service)) inputs ⟨fates, cells⟩).1, st') ∧
      Attached ctx (Alike p.Rests)
        (specRuns (Call.under ctx (lossyService p.service)) inputs ⟨fates, cells⟩).2 st' :=
  service_refinement hf (lossy_provides (p.provides hf ver)) hat
    fun i hi => ⟨(hin i hi).1, fun _ => (hin i hi).2⟩

end Plants

/-! ### The sample plant at the end of such a line -/

/-- The client of the sample plant. -/
def lossyClient (fates : List (Option Loss)) :
    St (Peered (Lossy (Run (Gateway Link (Peered (List (Run Server))))))) :=
  { sampleClient with os := ⟨sampleClient.os.line, ⟨fates, sampleClient.os.peer⟩⟩ }

theorem attached_lossyClient (fates : List (Option Loss)) : Attached (sampleSt .tcp 255 []).ctx
    (Alike (RelaysFor (sampleSt .tcp 255 []).ctx (sampleSt .rtu 1 []).ctx (OnBus sampleStations)))
    ⟨fates, sampleMemories⟩ (lossyClient fates) :=
  ⟨attached_sample.connected, rfl, rfl, rfl, rfl, attached_sample.peer⟩

theorem samplePlant_units {unit : UInt8} (h : BusUnits sampleStations unit) :
    samplePlant.Units unit := ⟨fun hbe => Backend.noConfusion hbe, fun _ => h⟩

end Libmodbus
