/-
Libmodbus/Crossed.lean

A gateway whose backend answers late.  Every request is forwarded under
transaction id 0 and every answer carries the id of its request, so that one
answer is as good as another to the pre-check:

    request    0         1         2
    answer     none yet  0         1         as they are relayed

    modbusProxy_unforwarded   a request that is refused leaves the line alone
    modbusProxy_late          any other one gets the first answer that is unread
    report_backed             which is its own exactly when the line was clear
    relays_own_iff            so it is in every run

What the frontend gets is recorded: the frame of the answer that was read, or an
exception of the gateway (`Proxied.RelaysOwn`).
-/
import Libmodbus.Stale
import Libmodbus.Validation

namespace Libmodbus

open CSem Wire Posix

variable {σ τ : Type}

/-! ### Requests that are forwarded -/

/-- A PDU of 1 to 253 bytes for a unit that the backend context accepts. -/
structure Forwards (g : Gateway σ τ) (req : List UInt8) (reqLength : Int) : Prop where
  pos : 1 ≤ g.pduLength reqLength
  le : g.pduLength reqLength ≤ (maxPduLength : Int)
  unit : ∃ unit back, rd req (g.front.backend.headerLength - 1) = .ok unit ∧
    modbusSetSlave g.back unit.toNat = .ok back

/-- The calls on the frontend leave the backend alone. -/
theorem proxyFailure_ok {fos : Os σ} {g g' : Gateway σ τ} {req : List UInt8} {code : Nat} {rc : Int}
    (h : proxyFailure fos g req code = .ok (rc, g')) :
    rc = -1 ∧ g'.back = g.back ∧ g'.backOs = g.backOs := by
  obtain ⟨⟨rc', st⟩, -, h⟩ := bind_eq_ok.mp h
  cases h
  exact ⟨rfl, rfl, rfl⟩

/-- The frontend is handed nothing, or an exception of the gateway. -/
def Declined (g : Gateway (Recorded σ) τ) (req : List UInt8) (r : Int × Gateway (Recorded σ) τ) :
    Prop :=
  r.1 = -1 ∧ (r.2.frontOs.sent = g.frontOs.sent ∨
    ∃ (a : Adu) (trailer : List UInt8) (code : Nat), req = a.wrapped g.front.backend trailer ∧
      (code = exceptionGatewayPath ∨ code = exceptionGatewayTarget) ∧
      AnsweredWith g a (.exception code) r)

/-- A failure is an exception to a request that has a function code. -/
theorem proxyFailure_declined {fos : Os σ} {g₀ g g' : Gateway (Recorded σ) τ} {req : List UInt8}
    {code : Nat} {rc : Int} (h : proxyFailure (recordOs fos) g req code = .ok (rc, g'))
    (hcode : code = exceptionGatewayPath ∨ code = exceptionGatewayTarget)
    (hfront : g.front = g₀.front) (hos : g.frontOs = g₀.frontOs) : Declined g₀ req (rc, g') := by
  refine ⟨(proxyFailure_ok h).1, Or.inr ?_⟩
  obtain ⟨⟨rc', st⟩, hreply, -⟩ := bind_eq_ok.mp h
  obtain ⟨rsp, hbuild, -⟩ := bind_eq_ok.mp hreply
  obtain ⟨slave, -, hbuild⟩ := bind_eq_ok.mp hbuild
  obtain ⟨function, hfunction, -⟩ := bind_eq_ok.mp hbuild
  have hlen : g.front.backend.headerLength < req.length :=
    (List.getElem?_eq_some_iff.mp (rd_eq_ok.mp hfunction)).1
  obtain ⟨a, trailer, rfl, hpdu⟩ := exists_wrapped (show g.front.backend.headerLength + 1 ≤ _ from hlen)
  have hne : a.pdu ≠ [] := List.ne_nil_of_length_pos (by omega)
  have hmax : code < exceptionMax := by
    rcases hcode with rfl | rfl
    · decide
    · decide
  have hanswer : AnsweredWith g a (.exception code) (rc, g') :=
    (proxyFailure_answers hne hmax).result h
  unfold AnsweredWith at hanswer ⊢
  rw [← hfront, ← hos]
  exact ⟨a, trailer, code, rfl, hcode, hanswer⟩

section

variable {fos : Os σ} {bos : Os τ} {g g' : Gateway (Recorded σ) τ} {req : List UInt8}
  {reqLength rc : Int}

/-- **A request that is not forwarded** leaves the line to the backend as it is. -/
theorem modbusProxy_unforwarded
    (h : modbusProxy (recordOs fos) bos g req reqLength = .ok (rc, g'))
    (hno : ¬ Forwards g req reqLength) :
    Declined g req (rc, g') ∧ g'.backOs = g.backOs ∧
      ∃ slave, g'.back = { g.back with slave := slave } := by
  unfold modbusProxy at h
  by_cases hlen : reqLength < 1
  · rw [if_pos hlen] at h
    cases h
    exact ⟨⟨rfl, Or.inl rfl⟩, rfl, _, rfl⟩
  rw [if_neg hlen] at h
  by_cases hpdu : g.pduLength reqLength < 1 ∨ (maxPduLength : Int) + 1 < g.pduLength reqLength
  · have h := (if_pos hpdu).symm.trans h
    cases h
    exact ⟨⟨rfl, Or.inl rfl⟩, rfl, _, rfl⟩
  have h := (if_neg hpdu).symm.trans h
  obtain ⟨unit, hunit, h⟩ := bind_eq_ok.mp h
  cases hset : modbusSetSlave g.back unit.toNat with
  | error e =>
    rw [hset] at h
    obtain ⟨-, hback, hos⟩ := proxyFailure_ok h
    exact ⟨proxyFailure_declined h (Or.inl rfl) rfl rfl, hos, _, hback⟩
  | ok back =>
    rw [hset] at h
    obtain ⟨backendReq, hslice, h⟩ := bind_eq_ok.mp h
    obtain ⟨tId, -, h⟩ := bind_eq_ok.mp h
    -- only a PDU of 254 bytes is left, which is not sent
    have hlong : maxPduLength + 1 < backendReq.length := by
      have hle : ¬ g.pduLength reqLength ≤ (maxPduLength : Int) := fun hle =>
        hno ⟨by omega, hle, unit, back, hunit, hset⟩
      have hn := (length_of_rdSlice hslice).2
      unfold Gateway.pduLength at hle
      omega
    have hsend : modbusSendRawRequestTid bos ({ g with back := back }).backSt backendReq 0 =
        .ok (-1, { ({ g with back := back }).backSt with errno := .EINVAL }) :=
      if_pos (Or.inr hlong)
    rw [hsend] at h
    obtain ⟨-, hback, hos⟩ := proxyFailure_ok h
    exact ⟨proxyFailure_declined h (Or.inl rfl) rfl rfl, hos, _, hback.trans (modbusSetSlave_ok hset)⟩

end

section

variable {fos : Os σ} {bos : Os τ} {g g' : Gateway σ τ} {req : List UInt8} {reqLength rc : Int}

/-- A request that is forwarded is the frame of a PDU, with something behind it. -/
theorem Forwards.frame (hw : Forwards g req reqLength)
    (h : modbusProxy fos bos g req reqLength = .ok (rc, g')) :
    ∃ (a : Adu) (trailer : List UInt8) (back : Modbus), req = a.wrapped g.front.backend trailer ∧
      g.pduLength reqLength = a.pdu.length ∧ modbusSetSlave g.back a.unit.toNat = .ok back := by
  obtain ⟨hpos, hle, unit, back, hunit, hset⟩ := hw
  have hbounds : ¬ (g.pduLength reqLength < 1 ∨
      (maxPduLength : Int) + 1 < g.pduLength reqLength) := by omega
  have hlen : ¬ reqLength < 1 := by
    unfold Gateway.pduLength at hpos
    omega
  unfold modbusProxy at h
  rw [if_neg hlen] at h
  have h := (if_neg hbounds).symm.trans h
  simp only [hunit, ok_bind, hset] at h
  obtain ⟨backendReq, hslice, -⟩ := bind_eq_ok.mp h
  have hlength := (length_of_rdSlice hslice).1
  have hheader : 1 ≤ g.front.backend.headerLength := by cases g.front.backend <;> decide
  have hreq : g.front.backend.headerLength + (g.pduLength reqLength).toNat ≤ req.length := by
    unfold Gateway.pduLength at hpos ⊢
    omega
  obtain ⟨a, trailer, rfl, hpdu⟩ := exists_wrapped hreq
  have hsame : unit = a.unit := Except.ok.inj (hunit.symm.trans (a.rd_wrapped_unit trailer))
  rw [hsame] at hset
  exact ⟨a, trailer, back, rfl, by omega, hset⟩

end

/-! ### A call on a late line -/

/-- A context on whose line every request so far was sent under transaction id 0, and answered. -/
structure Backed (b : Modbus × Late) : Prop where
  connected : Connected b.1
  tcp : b.1.backend = .tcp
  link : b.1.errorRecovery.link = false
  served : Served (fun _ => 0) b.2.answers
  aligned : ∃ k, b.2.Aligned k

theorem Backed.answers_ne_nil {b : Modbus × Late} (h : Backed b) :
    ∀ i < b.2.answers.length, b.2.answers.getD i [] ≠ [] := by
  intro i hi
  obtain ⟨r, hr, -⟩ := h.served i hi
  rw [hr]
  apply List.ne_nil_of_length_pos
  rw [Adu.length_bytes]
  exact Nat.lt_of_lt_of_le (by decide : 0 < 7) (by simp only [Backend.headerLength]; omega)

section

variable {fuel : Nat} {net : Network} {fos : Os σ} {g g' : Gateway σ Late} {req : List UInt8}
  {reqLength rc : Int}

/-- A request leaves whole, under transaction id 0. -/
theorem modbusSendRawRequestTid_late (hf : 0 < fuel) (net : Network) (st : St Late) {unit : UInt8}
    {pdu : List UInt8} (hne : pdu ≠ []) (hmax : pdu.length ≤ maxPduLength) :
    modbusSendRawRequestTid (lateOs fuel net) st (unit :: pdu) 0 =
      .ok ((((rtuAdu unit pdu).sealed.bytes st.ctx.backend).length : Nat),
        { st with os := st.os.send net ((rtuAdu unit pdu).sealed.bytes st.ctx.backend) }) := by
  have hheader := sendMsg_header (lateOs fuel net) st (rtuAdu unit pdu)
  rw [modbusSendRawRequestTid_pdu hne hmax]
  refine hheader.trans ?_
  rw [sendAdu]
  exact sendLoop_of_sent hf rfl

/-- Over TCP a response whose header agrees with the request is relayed. -/
theorem Left.relayed_tcp {st st' : St Late} {a r : Adu} (hleft : Left (lateOs fuel net) g a st)
    (htcp : st'.ctx.backend = .tcp)
    (hrcv : modbusReceiveMsg (lateOs fuel net) st .confirmation =
      .ok (((r.bytes .tcp).length : Nat), r.bytes .tcp, st'))
    (hpre : preCheckConfirmation .tcp (checkFrame .tcp a) (r.bytes .tcp) = .ok none) :
    Forwarded (lateOs fuel net) g a (.relay r.unit r.pdu) := by
  rw [← htcp] at hrcv hpre
  refine .answered hleft hrcv ?_ hpre
  rw [Adu.length_bytes, htcp]
  simp only [Backend.headerLength]
  omega

/-- **A request that is forwarded** gets the first answer that is unread, if one has come by
then. -/
theorem modbusProxy_late (hf : 0 < fuel) (hnet : Echoes net) (hb : Backed (g.back, g.backOs)) {k : Nat}
    (hk : g.backOs.Aligned k) (hw : Forwards g req reqLength)
    (h : modbusProxy fos (lateOs fuel net) g req reqLength = .ok (rc, g')) :
    ∃ (a : Adu) (trailer m : List UInt8), req = a.wrapped g.front.backend trailer ∧
      g.pduLength reqLength = a.pdu.length ∧
      g'.backOs.answers = (g.backOs.send net m).answers ∧ Backed (g'.back, g'.backOs) ∧
      ((((g.backOs.send net m).poll net).input = [] ∧ rc = -1 ∧ g'.backOs.read = g.backOs.read ∧
        Forwarded (lateOs fuel net) g a (.exception exceptionGatewayTarget)) ∨
      (((g.backOs.send net m).poll net).input ≠ [] ∧ k ≤ g.backOs.answers.length ∧
        g'.backOs.read = g.backOs.read ++
          readAs k (g'.backOs.answers.getD k []) (g.backOs.answers.length + 1) ∧
        ∃ r : Adu, g'.backOs.answers.getD k [] = r.bytes .tcp ∧
          Forwarded (lateOs fuel net) g a (.relay r.unit r.pdu))) := by
  obtain ⟨a, trailer, back, rfl, hpdu, hset⟩ := hw.frame h
  have hpos := hw.pos
  have hle := hw.le
  rw [hpdu] at hpos hle
  have hne : a.pdu ≠ [] := List.ne_nil_of_length_pos (by omega)
  have hmax : a.pdu.length ≤ maxPduLength := by omega
  have hback := modbusSetSlave_ok hset
  have hctcp : back.backend = .tcp := by rw [hback, hb.tcp]
  have hc : Connected back := by
    rw [hback]
    exact hb.connected
  have hlink : back.errorRecovery.link = false := by rw [hback, hb.link]
  -- the request leaves whole, under transaction id 0
  set b := (rtuAdu a.unit a.pdu).sealed with hbdef
  have hsend : modbusSendRawRequestTid (lateOs fuel net) ⟨back, g.errno, g.backOs⟩
      (a.unit :: a.pdu) 0 = .ok (((b.bytes .tcp).length : Nat),
        ⟨back, g.errno, g.backOs.send net (b.bytes .tcp)⟩) := by
    rw [← hctcp]
    exact modbusSendRawRequestTid_late hf net ⟨back, g.errno, g.backOs⟩ hne hmax
  have hserved : Served (fun _ => 0) (g.backOs.send net (b.bytes .tcp)).answers :=
    hb.served.concat (hnet g.backOs.answers.length b)
  have hlen : (g.backOs.send net (b.bytes .tcp)).answers.length = g.backOs.answers.length + 1 :=
    List.length_append
  refine ⟨a, trailer, b.bytes .tcp, rfl, hpdu, ?_⟩
  have hleft : Left (lateOs fuel net) g a ⟨back, g.errno, g.backOs.send net (b.bytes .tcp)⟩ :=
    ⟨⟨back, _, hset, by omega, hsend⟩⟩
  rw [modbusProxy_wrapped _ _ _ trailer hne (Nat.le_succ_of_le hmax) hpdu] at h
  have hsent : ¬ (((b.bytes .tcp).length : Nat) : Int) = -1 := by omega
  simp only [hset, hsend, ok_bind, if_neg hsent, Gateway.backSt, Gateway.setBack] at h
  rcases receive_served hf net ⟨back, g.errno, g.backOs.send net (b.bytes .tcp)⟩ hc hctcp hserved
    (hk.send (b.bytes .tcp)) with
    ⟨hnil, hrcv⟩ | ⟨hsome, r, s, hlt, hr, hrtid, hprotocol, hframed, hrcv, hal, hans, -, hread⟩
  · -- a timeout
    have hrecover : recoverSelect (lateOs fuel net)
        ⟨back, .ETIMEDOUT, (g.backOs.send net (b.bytes .tcp)).poll net⟩ =
        .ok ⟨back, .ETIMEDOUT, (g.backOs.send net (b.bytes .tcp)).poll net⟩ :=
      recoverSelect_off _ hlink
    simp only [hrcv, hrecover, ok_bind, if_true] at h
    obtain ⟨hrc, hback', hos⟩ := proxyFailure_ok h
    have hrcv' : modbusReceiveMsg (lateOs fuel net)
        ⟨back, g.errno, g.backOs.send net (b.bytes .tcp)⟩ .confirmation =
        .ok (-1, [], ⟨back, .ETIMEDOUT, (g.backOs.send net (b.bytes .tcp)).poll net⟩) := by
      rw [hrcv, hrecover]
      rfl
    have hanswer : Forwarded (lateOs fuel net) g a (.exception (if Errno.ETIMEDOUT = .ETIMEDOUT
        then exceptionGatewayTarget else exceptionGatewayPath)) :=
      .notReceived hleft hrcv'
    rw [if_pos rfl] at hanswer
    rw [hback', hos]
    exact ⟨rfl, ⟨hc, hctcp, hlink, hserved, k, (hk.send _).poll⟩, Or.inl ⟨hnil, hrc, rfl, hanswer⟩⟩
  · -- any answer passes the pre-check, whosever it is
    have hreceived : ¬ (((r.bytes .tcp).length : Nat) : Int) = -1 := by omega
    have hpre : preCheckConfirmation .tcp ((rtuAdu a.unit a.pdu).wrapped .tcp []) (r.bytes .tcp) =
        .ok none := (preCheckConfirmation_checked .tcp a r).mpr ⟨hrtid, hprotocol⟩
    simp only [hrcv, ok_bind, if_neg hreceived, hctcp, hpre] at h
    have hrelay := proxyRelay_bytes fos { g with back := back, backOs := s } hframed.ne_nil a
      (a.wrapped g.front.backend trailer)
    simp only [hctcp] at hrelay
    rw [hrelay] at h
    obtain ⟨⟨rc', st⟩, -, h⟩ := bind_eq_ok.mp h
    cases h
    have hserved' : Served (fun _ => 0) s.answers := hans ▸ hserved
    have hkle : k ≤ g.backOs.answers.length := Nat.le_of_lt_succ (Nat.lt_of_lt_of_eq hlt hlen)
    have hanswer : Forwarded (lateOs fuel net) g a (.relay r.unit r.pdu) :=
      hleft.relayed_tcp hctcp hrcv hpre
    refine ⟨hans, ⟨hc, hctcp, hlink, hserved', k + 1, hal⟩, Or.inr ⟨hsome, hkle, ?_, r, ?_, hanswer⟩⟩
    · show s.read = _ ++ readAs k (s.answers.getD k []) _
      rw [hread, hlen, hans, hr]
      rfl
    · show s.answers.getD k [] = _
      rw [hans, hr]

end

/-! ### Runs -/

/-- What `modbus_proxy` is called with, besides the backend: a frontend in any state, and a
request. -/
structure ProxyCall (σ : Type) where
  front : Modbus
  frontOs : σ
  errno : Errno
  req : List UInt8
  reqLength : Int

/-- What is seen of a call: the request, the value, and the gateway before and afterwards, with a
record of what the frontend is handed. -/
structure Proxied (σ : Type) where
  before : Gateway (Recorded σ) Late
  req : List UInt8
  reqLength : Int
  rc : Int
  after : Gateway (Recorded σ) Late

namespace Proxied

variable (o : Proxied σ)

/-- The number that the request has if it is forwarded. -/
def own : Nat := o.before.backOs.answers.length

/-- What the backend answers to it. -/
def response : List UInt8 := o.after.backOs.answers.getD o.own []

/-- The bytes that were read during the call. -/
def used : List Piece := (o.after.backOs.read.drop o.before.backOs.read.length).map Received.piece

/-- Nothing stood between the request and its answer. -/
def Unhindered (net : Network) : Prop :=
  Forwards o.before o.req o.reqLength → o.before.backOs.Clear net

/-- The request is declined and nothing was read, or the frontend is handed the frame of what the
backend has answered to this request, which is what was read. -/
inductive RelaysOwn : Prop
  | declined (hused : o.used = []) (hfront : Declined o.before o.req (o.rc, o.after))
  | relayed {a : Adu} {trailer : List UInt8} {r : Adu}
      (hreq : o.req = a.wrapped o.before.front.backend trailer)
      (hused : o.used = label o.own o.response) (hresponse : o.response = r.bytes .tcp)
      (hfront : AnsweredWith o.before a (.relay r.unit r.pdu) (o.rc, o.after))

/-- Nothing was read, or the answer to the request. -/
theorem RelaysOwn.used_eq {o : Proxied σ} (h : o.RelaysOwn) :
    o.used = [] ∨ o.used = label o.own o.response := by
  cases h with
  | declined hused => exact Or.inl hused
  | relayed _ hused => exact Or.inr hused

end Proxied

def ProxyCall.report (fos : Os σ) (fuel : Nat) (net : Network) (c : ProxyCall σ)
    (b : Modbus × Late) : Run (Proxied σ × (Modbus × Late)) := do
  let g : Gateway (Recorded σ) Late := ⟨c.front, ⟨c.frontOs, []⟩, b.1, b.2, c.errno⟩
  let (rc, g') ← modbusProxy (recordOs fos) (lateOs fuel net) g c.req c.reqLength
  .ok (⟨g, c.req, c.reqLength, rc, g'⟩, (g'.back, g'.backOs))

theorem label_injective {k n : Nat} {xs ys : List UInt8} (h : label k xs = label n ys)
    (hne : xs ≠ []) : k = n := by
  obtain ⟨x, xs, rfl⟩ := List.exists_cons_of_ne_nil hne
  cases ys with
  | nil => cases h
  | cons y ys => exact congrArg Piece.number (List.cons.inj h).1

theorem map_piece_readAs (number : Nat) (bytes : List UInt8) (sent : Nat) :
    (readAs number bytes sent).map Received.piece = label number bytes := by
  rw [readAs, List.map_map]
  exact List.map_id _

section

variable {fuel : Nat} {net : Network} {fos : Os σ}

theorem label_ne_nil {k : Nat} {bytes : List UInt8} (h : bytes ≠ []) : label k bytes ≠ [] :=
  fun hnil => h (List.map_eq_nil_iff.mp hnil)

/-- One call. -/
theorem report_backed (hf : 0 < fuel) (hnet : Echoes net) {c : ProxyCall σ} {b b' : Modbus × Late}
    {o : Proxied σ} (hb : Backed b) (h : c.report fos fuel net b = .ok (o, b')) :
    (o.Unhindered net ↔ o.RelaysOwn) ∧ Backed b' := by
  obtain ⟨⟨rc, g'⟩, hproxy, h⟩ := bind_eq_ok.mp h
  cases h
  set g : Gateway (Recorded σ) Late := ⟨c.front, ⟨c.frontOs, []⟩, b.1, b.2, c.errno⟩ with hg
  by_cases hw : Forwards g c.req c.reqLength
  · obtain ⟨k, hk, hclear⟩ := Late.clear_iff net hb.aligned hb.answers_ne_nil
    obtain ⟨a, trailer, m, hreq, hpdu, hanswers, hb', hcases⟩ :=
      modbusProxy_late hf hnet hb hk hw hproxy
    -- the one answer to the request is what the frontend is handed
    have hfront : ∀ answer, Forwarded (lateOs fuel net) g a answer →
        AnsweredWith g a answer (rc, g') := by
      intro answer hanswer
      have hpos := hw.pos
      have hle := hw.le
      rw [hpdu] at hpos hle
      rw [hreq] at hproxy
      obtain ⟨answer', hanswer', hframe⟩ := (modbusProxy_forwarded fos (lateOs fuel net) g trailer
        (List.ne_nil_of_length_pos (by omega)) (by omega) hpdu).result hproxy
      rw [hanswer.unique hanswer']
      exact hframe
    rcases hcases with ⟨hnil, hrc, hread, hanswer⟩ | ⟨hsome, hkle, hread, r, hr, hanswer⟩
    · -- nothing comes
      have hused : (g'.backOs.read.drop b.2.read.length).map Received.piece = [] := by
        rw [hread, List.drop_length]
        rfl
      have hdeclined : Declined g c.req (rc, g') :=
        ⟨hrc, Or.inr ⟨a, trailer, _, hreq, Or.inr rfl, hfront _ hanswer⟩⟩
      exact ⟨⟨fun _ => .declined hused hdeclined, fun _ _ => (hclear m).mpr (Or.inl hnil)⟩, hb'⟩
    · have hused : (g'.backOs.read.drop b.2.read.length).map Received.piece =
          label k (g'.backOs.answers.getD k []) := by
        rw [hread, List.drop_left, map_piece_readAs]
      have hlt : k < g'.backOs.answers.length := by
        have hlen : g'.backOs.answers.length = b.2.answers.length + 1 := by
          rw [hanswers]
          exact List.length_append
        rw [hlen]
        exact Nat.lt_succ_of_le hkle
      have hne := hb'.answers_ne_nil k hlt
      refine ⟨⟨fun hun => ?_, fun hown _ => (hclear m).mpr (Or.inr ?_)⟩, hb'⟩
      · obtain rfl : k = b.2.answers.length := ((hclear m).mp (hun hw)).resolve_left hsome
        exact .relayed hreq hused hr (hfront _ hanswer)
      · rcases hown.used_eq with hnil | hlabel
        · exact absurd (hused.symm.trans hnil) (label_ne_nil hne)
        · exact label_injective (hused.symm.trans hlabel) hne
  · obtain ⟨hdeclined, hos, slave, hback⟩ := modbusProxy_unforwarded hproxy hw
    have hused : (g'.backOs.read.drop b.2.read.length).map Received.piece = [] := by
      rw [hos, List.drop_length]
      rfl
    refine ⟨⟨fun _ => .declined hused hdeclined, fun _ hw' => absurd hw' hw⟩, ?_⟩
    have hb' : Backed ({ b.1 with slave := slave }, b.2) :=
      ⟨hb.connected, hb.tcp, hb.link, hb.served, hb.aligned⟩
    rw [hos, hback]
    exact hb'

/-- **An answer is relayed to its own request** in exactly the runs in which a request is forwarded
only while nothing is unread and no earlier answer comes before the backend is listened to: there
every frame that the frontend is handed is that of the answer to its request, or an exception. -/
theorem relays_own_iff (hf : 0 < fuel) (hnet : Echoes net) {back : Modbus} (hc : Connected back)
    (htcp : back.backend = .tcp) (hlink : back.errorRecovery.link = false) (fos : Os σ)
    {calls : List (ProxyCall σ)} {os : List (Proxied σ)} {b' : Modbus × Late}
    (h : runs (ProxyCall.report fos fuel net) calls (back, .start) = .ok (os, b')) :
    (∀ o ∈ os, o.Unhindered net) ↔ ∀ o ∈ os, o.RelaysOwn := by
  have hstart : Backed (back, .start) :=
    ⟨hc, htcp, hlink, fun i hi => absurd hi (Nat.not_lt_zero i), 0, Nat.le_refl 0, rfl⟩
  have hrun : (∀ o ∈ os, o.Unhindered net ↔ o.RelaysOwn) ∧ Backed b' :=
    runs_inv_of_last h (fun _ _ => trivial) (fun _ hb _ h => report_backed hf hnet hb h)
      (fun c _ => trivial) hstart trivial
  exact forall_congr' fun o => imp_congr_right (hrun.1 o)

end

/-- One register of unit 17 is read from a TCP frontend. -/
def askingCall : ProxyCall Link where
  front := (sampleSt .tcp 255 []).ctx
  frontOs := (sampleSt .tcp 255 []).os
  errno := .sys (.other 0)
  req := [0, 7, 0, 0, 0, 6, 17, 3, 0, 0, 0, 1]
  reqLength := 12

/-- A backend without error recovery. -/
def sampleBack : Modbus := { modbusNew .tcp with s := 3 }

theorem relays_own_iff_sample : ∃ os b',
    runs (ProxyCall.report (linkOs 1) 1 refusingNet) [askingCall, askingCall]
      (sampleBack, .start) = .ok (os, b') ∧ os.length = 2 ∧ ∀ o ∈ os, o.RelaysOwn := by
  have hc : Connected sampleBack := ⟨by decide, by decide⟩
  obtain ⟨os, b', hrun, hlen, hclear⟩ : ∃ os b',
      runs (ProxyCall.report (linkOs 1) 1 refusingNet) [askingCall, askingCall]
        (sampleBack, .start) = .ok (os, b') ∧ os.length = 2 ∧
      ∀ o ∈ os, o.before.backOs.Clear refusingNet := ⟨_, _, rfl, rfl, by decide +kernel⟩
  refine ⟨os, b', hrun, hlen, ?_⟩
  exact (relays_own_iff Nat.one_pos echoes_refusingNet hc rfl rfl (linkOs 1) hrun).mp
    fun o ho _ => hclear o ho

/-! ### The answer to the request before -/

/-- A device that answers request `n` with a register of value `n`. -/
def countingResponse (n : Nat) (tId : UInt16) : Adu := ⟨tId, 0, 5, 17, [3, 2, hi n, lo n]⟩

/-- Nothing comes before the first timeout, and then one answer at a time. -/
def slowNet : Network where
  respond n m := (countingResponse n (UInt16.ofNat (word (m.getD 0 0) (m.getD 1 0)))).bytes .tcp
  delay clock := if clock = 0 then 0 else 1
  split _ := 260

theorem echoes_slowNet : Echoes slowNet := by
  intro n q
  have htid : UInt16.ofNat (word ((q.bytes .tcp).getD 0 0) ((q.bytes .tcp).getD 1 0)) = q.tId :=
    ofNat_word_hi_lo q.tId
  have hshape : ResponsePdu [3, 2, hi n, lo n] :=
    .values (Or.inr (Or.inr (Or.inl rfl))) 2 [hi n, lo n] rfl
  refine ⟨countingResponse n q.tId, ?_, rfl, rfl, hshape.framed (show 4 ≤ 253 by decide)⟩
  show (countingResponse _ _).bytes .tcp = _
  rw [htid]

/-- The first request times out, and the second is given its answer. -/
theorem answer_crossed : Echoes slowNet ∧ ∃ os b',
    runs (ProxyCall.report (linkOs 1) 1 slowNet) [askingCall, askingCall] (sampleBack, .start) =
      .ok (os, b') ∧ ∃ o ∈ os, ¬ o.RelaysOwn := by
  refine ⟨echoes_slowNet, _, _, rfl, _, List.mem_cons_of_mem _ List.mem_cons_self, fun h => ?_⟩
  exact absurd h.used_eq (by decide +kernel)

end Libmodbus
