/-
Libmodbus/Hub.lean

One server with many connections, as bandwidth-server-many-up.

    select on refset ──▶ rdset;  then for each descriptor of rdset, from 0 to fdmax:
      the server socket   accept, FD_SET
      any other           modbus_set_socket, modbus_receive, modbus_reply,
                          or close and FD_CLR

A turn of the server is one `select`, or one descriptor of the loop after it.
Between two turns anything may arrive, on any connection.

`hub_survives`: whatever the clients send, and whichever descriptors the system
hands out, the server never stops, and its sets are right in every state: it
knows each open connection, and touches no descriptor that is closed.
-/
import Libmodbus.Lib.Conns
import Libmodbus.Waits

namespace Libmodbus

open CSem Wire Posix

/-! ### The server -/

/-- The server socket, and what `accept` hands out: nothing when it fails, and never a descriptor
that is open. -/
structure Listener where
  serverSocket : Nat
  small : (serverSocket : Int) < fdSetSize
  /-- By the number of the call, and the connections of the open descriptors. -/
  newfd : Nat → (Nat → Option Nat) → Option Nat
  fresh : ∀ {t owner fd}, newfd t owner = some fd → owner fd = none ∧ fd ≠ serverSocket

/-- The variables of the server, and the connections that it is a party to. -/
structure Hub where
  ctx : Modbus
  errno : Errno
  mapping : Mapping
  refset : Nat → Bool
  rdset : Nat → Bool
  /-- Maximum file descriptor number. -/
  fdmax : Nat
  masterSocket : Nat
  /-- The connections, one for each client. -/
  conns : Nat → Conn
  /-- The client that an open descriptor is connected to. -/
  owner : Nat → Option Nat
  /-- The clients that wait for `accept`. -/
  backlog : List Nat
  /-- The clients that have asked for a connection. -/
  dialed : Nat → Bool
  accepts : Nat

namespace Hub

variable (A : Listener) (fuel : Nat) (ver : VersionString)

/-- What `select` leaves in the set. -/
def readable (h : Hub) (fd : Nat) : Bool :=
  h.refset fd && (if fd = A.serverSocket then decide (h.backlog ≠ []) else
    (h.owner fd).any fun k => (h.conns k).Readable)

/-- `select`, which waits as long as nothing can be read. -/
def select (h : Hub) : Hub :=
  if (List.range (h.fdmax + 1)).any (h.readable A) then
    { h with rdset := h.readable A, masterSocket := 0 }
  else h

/-- `close`, `FD_CLR` and `fdmax--`. -/
def drop (h : Hub) (fd : Nat) : Hub :=
  { h with
    refset := Function.update h.refset fd false
    owner := Function.update h.owner fd none
    fdmax := if fd = h.fdmax then h.fdmax - 1 else h.fdmax }

/-- A client is asking a new connection.  A descriptor that is too large is closed. -/
def accept (h : Hub) : Hub :=
  match h.backlog with
  | [] => h
  | k :: backlog =>
    match A.newfd h.accepts h.owner with
    | none => { h with accepts := h.accepts + 1 }
    | some fd =>
      let h := { h with backlog := backlog, accepts := h.accepts + 1 }
      if fdSetSize ≤ fd then h
      else
        { h with
          refset := Function.update h.refset fd true
          owner := Function.update h.owner fd (some k)
          fdmax := if h.fdmax < fd then fd else h.fdmax }

/-- The state after the calls on the connection of `k`, whose output is on its way. -/
def put (h : Hub) (k : Nat) (m : Mapping) (st : St Conn) : Hub :=
  { h with
    ctx := st.ctx
    errno := st.errno
    mapping := m
    conns := Function.update h.conns k { st.os with line := { st.os.line with output := [] } } }

/-- A request is read and answered, or the connection closed.  What is written is handed over, with
the client it is for. -/
def serve (h : Hub) (fd : Nat) : Run (List (Nat × List UInt8) × Hub) :=
  match h.owner fd with
  | none => .ok ([], h.drop fd)
  | some k => do
    let (rc, query, st) ← modbusReceive (connOs fuel)
      ⟨{ h.ctx with s := fd }, h.errno, h.conns k⟩
    if 0 < rc then
      let (_, m, st) ← modbusReply (connOs fuel) ver st query rc h.mapping
      .ok (st.os.line.output.map fun frame => (k, frame), h.put k m st)
    else
      let h := h.put k h.mapping st
      .ok ([], if rc = -1 then h.drop fd else h)

/-- One turn of the server. -/
def turn (h : Hub) : Run (List (Nat × List UInt8) × Hub) :=
  if h.fdmax < h.masterSocket then .ok ([], h.select A)
  else do
    let (out, h) ←
      if h.rdset h.masterSocket = false then .ok ([], h)
      else if h.masterSocket = A.serverSocket then .ok ([], h.accept A)
      else h.serve fuel ver h.masterSocket
    .ok (out, { h with masterSocket := h.masterSocket + 1 })

/-- Bytes from a client. -/
def feed (h : Hub) (k : Nat) (bytes : List UInt8) : Hub :=
  { h with conns := Function.update h.conns k { h.conns k with
      line := { (h.conns k).line with input := (h.conns k).line.input ++ bytes } } }

def hangUp (h : Hub) (k : Nat) : Hub :=
  { h with conns := Function.update h.conns k { h.conns k with hungUp := true } }

/-- A client asks for a connection, once. -/
def dial (h : Hub) (k : Nat) : Hub :=
  if h.dialed k then h
  else { h with backlog := h.backlog ++ [k], dialed := Function.update h.dialed k true }

/-- What can happen next. -/
inductive Event
  | turn
  | dial (k : Nat)
  | feed (k : Nat) (bytes : List UInt8)
  | hangUp (k : Nat)

/-- An event, with what the server has written. -/
def step : Event → Hub → Run (List (Nat × List UInt8) × Hub)
  | .turn, h => h.turn A fuel ver
  | .dial k, h => .ok ([], h.dial k)
  | .feed k bytes, h => .ok ([], h.feed k bytes)
  | .hangUp k, h => .ok ([], h.hangUp k)

/-- The server before its first `select`. -/
def start (m : Mapping) (split : Nat → Nat → Nat) : Hub where
  ctx := modbusNew .tcp
  errno := .sys (.other 0)
  mapping := m
  refset fd := fd = A.serverSocket
  rdset _ := false
  fdmax := A.serverSocket
  masterSocket := A.serverSocket + 1
  conns k := ⟨⟨[], [], split k⟩, false⟩
  owner _ := none
  backlog := []
  dialed _ := false
  accepts := 0

theorem mapping_select {A : Listener} {h : Hub} : (h.select A).mapping = h.mapping := by
  unfold select
  split_ifs <;> rfl

theorem mapping_dial {h : Hub} {k : Nat} : (h.dial k).mapping = h.mapping := by
  unfold dial
  split_ifs <;> rfl

/-- What `accept` can do: nothing, close a descriptor that is too large, or enter a connection. -/
inductive Accepted (A : Listener) (h : Hub) : Hub → Prop
  | nothing (n : Nat) : Accepted A h { h with accepts := n }
  | refused {k : Nat} {backlog : List Nat} (hbacklog : h.backlog = k :: backlog) (n : Nat) :
    Accepted A h { h with backlog := backlog, accepts := n }
  | entered {k fd : Nat} {backlog : List Nat} (hbacklog : h.backlog = k :: backlog)
    (hfree : h.owner fd = none) (hne : fd ≠ A.serverSocket) (hsmall : (fd : Int) < fdSetSize)
    (n : Nat) :
    Accepted A h { h with
      refset := Function.update h.refset fd true
      owner := Function.update h.owner fd (some k)
      fdmax := if h.fdmax < fd then fd else h.fdmax
      backlog := backlog
      accepts := n }

theorem Accepted.mapping {A : Listener} {h h' : Hub} (hacc : Accepted A h h') :
    h'.mapping = h.mapping := by
  cases hacc <;> rfl

theorem accept_accepted (A : Listener) (h : Hub) : Accepted A h (h.accept A) := by
  unfold accept
  split
  · exact .nothing h.accepts
  rename_i k backlog hbacklog
  split
  · exact .nothing _
  rename_i fd hnew
  obtain ⟨hfree, hne⟩ := A.fresh hnew
  simp only
  by_cases hlarge : fdSetSize ≤ (fd : Int)
  · rw [if_pos hlarge]
    exact .refused hbacklog _
  · rw [if_neg hlarge]
    exact .entered hbacklog hfree hne (not_le.mp hlarge) _

/-! ### What the sets say -/

/-- The sets of the server are right: `refset` has the server socket and the open connections, all
of them at most `fdmax`, and what is left of `rdset` is open.  Nothing is connected twice, and who
waits is not connected. -/
structure Sound (A : Listener) (h : Hub) : Prop where
  members : ∀ fd, h.refset fd = (decide (fd = A.serverSocket) || (h.owner fd).isSome)
  listening : h.owner A.serverSocket = none
  below : ∀ fd, h.refset fd = true → fd ≤ h.fdmax
  small : (h.fdmax : Int) < fdSetSize
  ahead : ∀ fd, h.masterSocket ≤ fd → h.rdset fd = true → h.refset fd = true
  apart : ∀ {fd fd' k}, h.owner fd = some k → h.owner fd' = some k → fd = fd'
  waiting : ∀ k ∈ h.backlog, h.dialed k = true ∧ ∀ fd, h.owner fd ≠ some k
  distinct : h.backlog.Nodup
  dialed : ∀ {fd k}, h.owner fd = some k → h.dialed k = true
  ctx : ∃ s, h.ctx = { modbusNew .tcp with s := s }

variable {A : Listener} {h : Hub}

theorem start_sound (A : Listener) (m : Mapping) (split : Nat → Nat → Nat) :
    (start A m split).Sound A where
  members fd := (Bool.or_false _).symm
  listening := rfl
  below fd hfd := (of_decide_eq_true hfd).le
  small := A.small
  ahead fd _ hfd := absurd hfd Bool.false_ne_true
  apart hfd := absurd hfd (by simp [start])
  waiting k hk := absurd hk List.not_mem_nil
  distinct := List.nodup_nil
  dialed hfd := absurd hfd (by simp [start])
  ctx := ⟨-1, rfl⟩

theorem Sound.select (hs : h.Sound A) : (h.select A).Sound A := by
  unfold Hub.select
  split_ifs
  · exact { hs with
      ahead := fun fd _ hfd => (Bool.and_eq_true_iff.mp hfd).1 }
  · exact hs

/-- The descriptor that is dealt with is not touched again. -/
theorem Sound.next (hs : h.Sound A) : ({ h with masterSocket := h.masterSocket + 1 } : Hub).Sound A :=
  { hs with ahead := fun fd hle => hs.ahead fd (Nat.le_of_succ_le hle) }

/-- Calls on a connection leave the sets alone. -/
theorem Sound.put (hs : h.Sound A) (k : Nat) (m : Mapping) {st : St Conn}
    (hctx : ∃ s, st.ctx = { h.ctx with s := s }) : (h.put k m st).Sound A :=
  { hs with
    ctx := by
      obtain ⟨s, hs'⟩ := hctx
      obtain ⟨s', hs''⟩ := hs.ctx
      exact ⟨s, hs'.trans (by rw [hs''])⟩ }

/-- A descriptor that has been dealt with may be closed. -/
theorem Sound.drop (hs : h.Sound A) {fd : Nat} (hlt : fd < h.masterSocket)
    (hne : fd ≠ A.serverSocket) : (h.drop fd).Sound A := by
  have howner : ∀ {fd' k}, Function.update h.owner fd none fd' = some k →
      h.owner fd' = some k := by
    intro fd' k hfd'
    by_cases heq : fd' = fd
    · rw [heq, Function.update_self] at hfd'
      cases hfd'
    · rwa [Function.update_of_ne heq] at hfd'
  refine ⟨fun fd' => ?_, ?_, fun fd' hfd' => ?_, ?_, fun fd' hle hfd' => ?_, fun h1 h2 =>
    hs.apart (howner h1) (howner h2), fun k hk => ?_, hs.distinct, fun h1 => hs.dialed (howner h1),
    hs.ctx⟩
  · show Function.update h.refset fd false fd' =
      (decide (fd' = A.serverSocket) || (Function.update h.owner fd none fd').isSome)
    by_cases heq : fd' = fd
    · rw [heq, Function.update_self, Function.update_self, decide_eq_false hne]
      rfl
    · rw [Function.update_of_ne heq, Function.update_of_ne heq, hs.members fd']
  · show Function.update h.owner fd none A.serverSocket = none
    rw [Function.update_of_ne hne.symm, hs.listening]
  · -- what is left is below
    have hfd'' : Function.update h.refset fd false fd' = true := hfd'
    show fd' ≤ if fd = h.fdmax then h.fdmax - 1 else h.fdmax
    by_cases heq : fd' = fd
    · rw [heq, Function.update_self] at hfd''
      cases hfd''
    · rw [Function.update_of_ne heq] at hfd''
      have hmax := hs.below fd' hfd''
      split_ifs <;> omega
  · show (((if fd = h.fdmax then h.fdmax - 1 else h.fdmax : Nat)) : Int) < fdSetSize
    have hsmall := hs.small
    split_ifs <;> omega
  · show Function.update h.refset fd false fd' = true
    rw [Function.update_of_ne (Nat.lt_of_lt_of_le hlt hle).ne']
    exact hs.ahead fd' hle hfd'
  · exact ⟨(hs.waiting k hk).1, fun fd' hfd' => (hs.waiting k hk).2 fd' (howner hfd')⟩

theorem Sound.accepted {h' : Hub} (hs : h.Sound A) (hacc : Accepted A h h') : h'.Sound A := by
  cases hacc with
  | nothing n => exact { hs with }
  | refused hbacklog n =>
    have hwaiting := hs.waiting
    have hdistinct := hs.distinct
    rw [hbacklog] at hwaiting hdistinct
    exact { hs with
      waiting := (List.forall_mem_cons.mp hwaiting).2
      distinct := (List.nodup_cons.mp hdistinct).2 }
  | @entered k fd backlog hbacklog hfree hne hsmall n =>
    have hwaiting := hs.waiting
    have hdistinct := hs.distinct
    rw [hbacklog] at hwaiting hdistinct
    obtain ⟨hk, hwaiting⟩ := List.forall_mem_cons.mp hwaiting
    obtain ⟨hfirst, hdistinct⟩ := List.nodup_cons.mp hdistinct
    have howner : ∀ {fd' k'}, Function.update h.owner fd (some k) fd' = some k' →
        (fd' = fd ∧ k' = k) ∨ (fd' ≠ fd ∧ h.owner fd' = some k') := by
      intro fd' k' hfd'
      by_cases heq : fd' = fd
      · rw [heq, Function.update_self] at hfd'
        exact Or.inl ⟨heq, (Option.some.inj hfd').symm⟩
      · rw [Function.update_of_ne heq] at hfd'
        exact Or.inr ⟨heq, hfd'⟩
    refine ⟨fun fd' => ?_, ?_, fun fd' hfd' => ?_, ?_, fun fd' hle hfd' => ?_, fun {fd₁ fd₂ k'} h1 h2 => ?_,
      fun k' hk' => ⟨(hwaiting k' hk').1, fun fd' hfd' => ?_⟩, hdistinct, fun {fd' k'} h1 => ?_, hs.ctx⟩
    · show Function.update h.refset fd true fd' =
        (decide (fd' = A.serverSocket) || (Function.update h.owner fd (some k) fd').isSome)
      by_cases heq : fd' = fd
      · rw [heq, Function.update_self, Function.update_self, Option.isSome_some, Bool.or_true]
      · rw [Function.update_of_ne heq, Function.update_of_ne heq, hs.members fd']
    · show Function.update h.owner fd (some k) A.serverSocket = none
      rw [Function.update_of_ne hne.symm, hs.listening]
    · have hfd'' : Function.update h.refset fd true fd' = true := hfd'
      show fd' ≤ if h.fdmax < fd then fd else h.fdmax
      by_cases heq : fd' = fd
      · split_ifs <;> omega
      · rw [Function.update_of_ne heq] at hfd''
        have hle := hs.below fd' hfd''
        split_ifs <;> omega
    · show (((if h.fdmax < fd then fd else h.fdmax : Nat)) : Int) < fdSetSize
      have hmax := hs.small
      split_ifs <;> omega
    · show Function.update h.refset fd true fd' = true
      by_cases heq : fd' = fd
      · rw [heq, Function.update_self]
      · rw [Function.update_of_ne heq]
        exact hs.ahead fd' hle hfd'
    · -- who has just been accepted was waiting, and so not connected
      rcases howner h1 with ⟨hfd₁, hk₁⟩ | ⟨-, hold₁⟩
      · rcases howner h2 with ⟨hfd₂, -⟩ | ⟨-, hold₂⟩
        · rw [hfd₁, hfd₂]
        · exact absurd (hk₁ ▸ hold₂) (hk.2 fd₂)
      · rcases howner h2 with ⟨-, hk₂⟩ | ⟨-, hold₂⟩
        · exact absurd (hk₂ ▸ hold₁) (hk.2 fd₁)
        · exact hs.apart hold₁ hold₂
    · rcases howner hfd' with ⟨-, rfl⟩ | ⟨-, hfd'⟩
      · exact hfirst hk'
      · exact (hwaiting k' hk').2 fd' hfd'
    · rcases howner h1 with ⟨-, rfl⟩ | ⟨-, h1⟩
      · exact hk.1
      · exact hs.dialed h1

theorem Sound.feed (hs : h.Sound A) (k : Nat) (bytes : List UInt8) : (h.feed k bytes).Sound A :=
  { hs with }

theorem Sound.hangUp (hs : h.Sound A) (k : Nat) : (h.hangUp k).Sound A := { hs with }

theorem Sound.dial (hs : h.Sound A) (k : Nat) : (h.dial k).Sound A := by
  unfold Hub.dial
  split_ifs with hk
  · exact hs
  have hnew : k ∉ h.backlog := fun hmem => hk (hs.waiting k hmem).1
  have hdialed : ∀ {k'}, h.dialed k' = true → Function.update h.dialed k true k' = true := by
    intro k' hk'
    by_cases heq : k' = k
    · rw [heq, Function.update_self]
    · rw [Function.update_of_ne heq, hk']
  refine { hs with waiting := ?_, distinct := ?_, dialed := fun h1 => hdialed (hs.dialed h1) }
  · refine List.forall_mem_append.mpr ⟨fun k' hk' =>
      ⟨hdialed (hs.waiting k' hk').1, (hs.waiting k' hk').2⟩, List.forall_mem_singleton.mpr ⟨?_, ?_⟩⟩
    · exact Function.update_self k true h.dialed
    · exact fun fd hfd => hk (hs.dialed hfd)
  · exact List.nodup_append.mpr ⟨hs.distinct, List.nodup_singleton k, fun a ha b hb heq =>
      hnew (by rw [← List.mem_singleton.mp hb, ← heq]; exact ha)⟩

/-! ### Any clients -/

/-- The server is sound, and its mapping has the shape of `m₀`. -/
structure Alive (A : Listener) (m₀ : Mapping) (h : Hub) : Prop where
  sound : h.Sound A
  kept : Kept m₀ h.mapping

variable {m₀ : Mapping} {fuel : Nat} {ver : VersionString}

theorem connOs_prompt (hf : 0 < fuel) : Prompt (connOs fuel) where
  turn := hf
  select := by
    intro tv c c' h
    by_cases hr : c.Readable
    · rw [show (connOs fuel).select tv c = (.ready, c) from Prod.ext (if_pos hr) rfl] at h
      cases h
    · rw [show (connOs fuel).select tv c = (.timeout, c) from Prod.ext (if_neg hr) rfl] at h
      cases h

/-- A descriptor is served, or closed. -/
theorem Alive.serve (hf : 0 < fuel) (hm : StartsSafe m₀) (ha : h.Alive A m₀)
    (hne : h.masterSocket ≠ A.serverSocket) :
    ∃ out h', h.serve fuel ver h.masterSocket = .ok (out, h') ∧ h'.masterSocket = h.masterSocket ∧
      ({ h' with masterSocket := h.masterSocket + 1 } : Hub).Alive A m₀ := by
  cases howner : h.owner h.masterSocket with
  | none =>
    refine ⟨[], h.drop h.masterSocket, ?_, rfl, ha.sound.next.drop (Nat.lt_succ_self _) hne, ha.kept⟩
    rw [Hub.serve, howner]
  | some k =>
    set st : St Conn := ⟨{ h.ctx with s := h.masterSocket }, h.errno, h.conns k⟩ with hst
    obtain ⟨s, hctx⟩ := ha.sound.ctx
    have htcp : st.ctx.backend = .tcp := by rw [hst, hctx]; rfl
    have hlink : st.ctx.errorRecovery.link = false := by rw [hst, hctx]; rfl
    obtain ⟨rc, query, st₁, hmsg, ⟨s₁, hctx₁⟩, hquery⟩ :=
      modbusReceiveMsg_returns (connOs_prompt hf) st .indication
    have hrcv : modbusReceive (connOs fuel) st = .ok (rc, query, st₁) := by
      rw [modbusReceive, htcp]
      exact hmsg
    have hserve : h.serve fuel ver h.masterSocket = (do
        let (rc, query, st) ← modbusReceive (connOs fuel) st
        if 0 < rc then
          let (_, m, st) ← modbusReply (connOs fuel) ver st query rc h.mapping
          .ok (st.os.line.output.map fun frame => (k, frame), h.put k m st)
        else
          let h := h.put k h.mapping st
          .ok ([], if rc = -1 then h.drop h.masterSocket else h)) := by
      rw [Hub.serve, howner]
      rfl
    rw [hserve, hrcv, ok_bind]
    simp only
    by_cases hpos : 0 < rc
    · -- a message, which is answered
      obtain ⟨rfl, hlen⟩ := hquery hpos
      have hctx₁' : st₁.ctx.backend = st.ctx.backend := by rw [hctx₁]
      have hlink₁ : st₁.ctx.errorRecovery.link = false := by rw [hctx₁]; exact hlink
      obtain ⟨rc', m', st₂, hreply, ⟨s₂, hctx₂⟩, hkept⟩ := modbusReply_returns (connOs_prompt hf) ver
        hlink₁ (ha.kept.startsSafe hm) ha.kept (by rw [hctx₁']; exact hlen)
      rw [if_pos hpos, hreply, ok_bind]
      have hmoved : ∃ s, st₂.ctx = { h.ctx with s := s } := ⟨s₂, by rw [hctx₂, hctx₁]⟩
      exact ⟨_, _, rfl, rfl, (ha.sound.put k m' hmoved).next, hkept⟩
    · have hmoved : ∃ s, st₁.ctx = { h.ctx with s := s } := ⟨s₁, hctx₁⟩
      have hput := ha.sound.put k h.mapping hmoved
      rw [if_neg hpos]
      refine ⟨_, _, rfl, ?_⟩
      by_cases hclosed : rc = -1
      · rw [if_pos hclosed]
        exact ⟨rfl, hput.next.drop (Nat.lt_succ_self _) hne, ha.kept⟩
      · rw [if_neg hclosed]
        exact ⟨rfl, hput.next, ha.kept⟩

/-- Every event leaves the server alive. -/
theorem Alive.step (hf : 0 < fuel) (hm : StartsSafe m₀) (ha : h.Alive A m₀) (event : Event) :
    ∃ out h', Hub.step A fuel ver event h = .ok (out, h') ∧ h'.Alive A m₀ := by
  cases event with
  | dial k => exact ⟨_, _, rfl, ha.sound.dial k, by rw [mapping_dial]; exact ha.kept⟩
  | feed k bytes => exact ⟨_, _, rfl, ha.sound.feed k bytes, ha.kept⟩
  | hangUp k => exact ⟨_, _, rfl, ha.sound.hangUp k, ha.kept⟩
  | turn =>
    show ∃ out h', h.turn A fuel ver = .ok (out, h') ∧ h'.Alive A m₀
    unfold Hub.turn
    by_cases hend : h.fdmax < h.masterSocket
    · rw [if_pos hend]
      exact ⟨_, _, rfl, ha.sound.select, by rw [mapping_select]; exact ha.kept⟩
    rw [if_neg hend]
    by_cases hset : h.rdset h.masterSocket = false
    · rw [if_pos hset]
      exact ⟨_, _, rfl, ha.sound.next, ha.kept⟩
    rw [if_neg hset]
    by_cases hserver : h.masterSocket = A.serverSocket
    · rw [if_pos hserver]
      have hacc := accept_accepted A h
      exact ⟨_, _, rfl, (ha.sound.accepted hacc).next, by
        rw [show ({ h.accept A with masterSocket := (h.accept A).masterSocket + 1 } : Hub).mapping =
          h.mapping from hacc.mapping]
        exact ha.kept⟩
    · rw [if_neg hserver]
      obtain ⟨out, h', hserve, hsocket, ha'⟩ := ha.serve hf hm hserver
      refine ⟨out, _, by rw [hserve]; rfl, ?_⟩
      rw [hsocket]
      exact ha'

end Hub

/-- **No client can harm the server.**  Whatever the clients send and in whichever order, how many
they are and which descriptors they get, the server never stops.  In every state its sets are
right, and the tables have their start addresses, sizes and bits. -/
theorem hub_survives {fuel : Nat} (hf : 0 < fuel) (ver : VersionString) (A : Listener) {m : Mapping}
    (hm : m.Regular) (split : Nat → Nat → Nat) (events : List Hub.Event) :
    ∃ outs h, runs (Hub.step A fuel ver) events (Hub.start A m split) = .ok (outs, h) ∧
      h.Sound A ∧ Kept m h.mapping := by
  obtain ⟨outs, h, hruns, halive⟩ := runs_progress
    (fun ha => ha.step hf hm.addressable.startsSafe _) events
    (show (Hub.start A m split).Alive A m from ⟨Hub.start_sound A m split, hm.kept⟩)
  exact ⟨outs, h, hruns, halive.sound, halive.kept⟩

/-- The server socket is 3, and there is room for two connections. -/
def sampleListener : Listener where
  serverSocket := 3
  small := by decide
  newfd _ owner := if owner 4 = none then some 4 else if owner 5 = none then some 5 else none
  fresh := by
    intro t owner fd h
    split_ifs at h with h4 h5
    · cases h
      exact ⟨h4, by decide⟩
    · cases h
      exact ⟨h5, by decide⟩

/-- Half a request, bytes that are none, and a client that is gone. -/
theorem hub_survives_sample :
    ∃ outs h, runs (Hub.step sampleListener 1 ⟨[], by decide⟩)
        ([.dial 0, .dial 1, .feed 0 [0, 1, 0, 0, 0, 6, 1], .feed 1 (List.replicate 300 0xFF), .turn,
          .turn, .turn, .turn, .turn, .turn, .turn, .turn, .hangUp 0] ++ List.replicate 9 .turn)
        (Hub.start sampleListener sampleMapping fun _ _ => 3) = .ok (outs, h) ∧
      h.Sound sampleListener ∧ Kept sampleMapping h.mapping :=
  hub_survives Nat.one_pos _ _ regular_sampleMapping _ _

end Libmodbus
