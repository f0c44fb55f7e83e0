/-
Libmodbus/Listening.lean

A TCP server and its descriptors: `modbus_tcp_listen` and `modbus_tcp_pi_listen`
return a new socket, which belongs to the program, and `modbus_tcp_accept` puts
the descriptor of a connection in the context.

    listen   socket, setsockopt, bind, listen;  closed again when one of them fails
    accept   ctx->s = accept (*s);              whatever was in `s`

The program has the sockets it listens on and what is in `s`, and nothing else
is held, as long as no connection is accepted while the context has one: such
an accept forgets the old descriptor, also when it fails (`server_keeps_iff`).
-/
import Libmodbus.Connect

namespace Libmodbus

open CSem Posix

variable {σ : Type}

/-! ### Listening -/

/-- The calls of a server. -/
structure ServerSockets (σ : Type) extends Sockets σ where
  /-- `setsockopt` with `SO_REUSEADDR`. -/
  reuseAddr : Nat → σ → Option SysErrno × σ
  bind : Nat → σ → Option SysErrno × σ
  listen : Nat → Int → σ → Option SysErrno × σ
  accept : Nat → List Nat → σ → Except SysErrno Nat × σ
  accept_fresh : ∀ {s held t fd t'}, accept s held t = (.ok fd, t') → fd ∉ held

/-- `modbus_tcp_listen`, with the address of the context. -/
def modbusTcpListen (sys : ServerSockets σ) (ip : List UInt8) (nbConnection : Int)
    (st : St (Ledger σ)) : Option Nat × St (Ledger σ) :=
  match st.os.make (sys.socket true) with
  | (.error e, l) => (none, { st with errno := .sys e, os := l })
  | (.ok newS, l) =>
    let (ok, st) := St.attempt (sys.reuseAddr newS) { st with os := l }
    if ¬ ok then (none, closeDescriptor sys.toSockets newS st)
    else
      -- an address that begins with a zero is any address
      let ((valid, e), l) := if ip.head? = some 0x30 then ((true, none), st.os)
        else st.os.call sys.inetPton
      let st := st.touch e l
      if ¬ valid then (none, closeDescriptor sys.toSockets newS st)
      else
        let (ok, st) := st.attempt (sys.bind newS)
        if ¬ ok then (none, closeDescriptor sys.toSockets newS st)
        else
          let (ok, st) := st.attempt (sys.listen newS nbConnection)
          if ¬ ok then (none, closeDescriptor sys.toSockets newS st) else (some newS, st)

/-- The loop of `modbus_tcp_pi_listen` over the addresses: the first that can be listened on. -/
def tcpPiListenLoop (sys : ServerSockets σ) (nbConnection : Int) :
    List Bool → St (Ledger σ) → Option Nat × St (Ledger σ)
  | [], st => (none, st)
  | inet :: aiList, st =>
    match st.os.make (sys.socket inet) with
    | (.error e, l) => tcpPiListenLoop sys nbConnection aiList { st with errno := .sys e, os := l }
    | (.ok s, l) =>
      let (ok, st) := St.attempt (sys.reuseAddr s) { st with os := l }
      if ¬ ok then tcpPiListenLoop sys nbConnection aiList (closeDescriptor sys.toSockets s st)
      else
        let (ok, st) := st.attempt (sys.bind s)
        if ¬ ok then tcpPiListenLoop sys nbConnection aiList (closeDescriptor sys.toSockets s st)
        else
          let (ok, st) := st.attempt (sys.listen s nbConnection)
          if ¬ ok then tcpPiListenLoop sys nbConnection aiList (closeDescriptor sys.toSockets s st)
          else (some s, st)

/-- `modbus_tcp_pi_listen` -/
def modbusTcpPiListen (sys : ServerSockets σ) (nbConnection : Int) (st : St (Ledger σ)) :
    Option Nat × St (Ledger σ) :=
  match st.os.call sys.getaddrinfo with
  | (none, l) => (none, { st with errno := .ECONNREFUSED, os := l })
  | (some aiList, l) => tcpPiListenLoop sys nbConnection aiList { st with os := l }

/-- `modbus_tcp_accept` -/
def modbusTcpAccept (sys : ServerSockets σ) (s : Nat) (st : St (Ledger σ)) :
    Int × St (Ledger σ) :=
  match st.os.make (sys.accept s) with
  | (.error e, l) => (-1, ⟨{ st.ctx with s := -1 }, .sys e, l⟩)
  | (.ok fd, l) =>
    let st := { st with ctx := { st.ctx with s := fd }, os := l }
    if fdSetSize ≤ (fd : Int) then
      (-1, { dropDescriptor sys.toSockets st with errno := .EINVAL })
    else (fd, st)

/-- `modbus_tcp_pi_accept`, which differs in the text it prints. -/
def modbusTcpPiAccept (sys : ServerSockets σ) (s : Nat) (st : St (Ledger σ)) :
    Int × St (Ledger σ) := modbusTcpAccept sys s st

/-! ### What each call does to the ledger -/

section

variable {st st' : St (Ledger σ)} {owned : List Nat}

theorem Quiet.accounts (h : Quiet st st') (ha : st.os.Accounts owned) : st'.os.Accounts owned :=
  ha.same h.same

theorem Makes.accounts {fd : Nat} (h : Makes fd st st') (ha : st.os.Accounts owned) :
    st'.os.Accounts (fd :: owned) := ha.holds h.holds

theorem closeDescriptor_accounts (sys : Sockets σ) {fd : Int}
    (ha : st.os.Accounts (fd.toNat :: owned)) :
    (closeDescriptor sys fd st).os.Accounts owned := by
  have hos : (closeDescriptor sys fd st).os = (st.os.close sys.close fd.toNat).2 := touch_os st _ _
  rw [hos]
  exact ha.close sys.close

theorem closeDescriptor_ctx (sys : Sockets σ) (fd : Int) (st : St (Ledger σ)) :
    (closeDescriptor sys fd st).ctx = st.ctx := St.touch_ctx _ _ _

theorem modbusTcpListen_opens (sys : ServerSockets σ) (ip : List UInt8) (nbConnection : Int)
    (st : St (Ledger σ)) : Opens st (modbusTcpListen sys ip nbConnection st) := by
  unfold modbusTcpListen
  rcases hmake : st.os.make (sys.socket true) with ⟨e | s, l⟩
  · exact quiet_of_error hmake
  have h₀ : Makes s st { st with os := l } := makes_of_ok sys.socket_fresh hmake
  have h₁ := h₀.quiet (attempt_quiet (sys.reuseAddr s) _)
  simp only
  generalize St.attempt (sys.reuseAddr s) { st with os := l } = r₁ at h₁
  obtain ⟨- | -, st₁⟩ := r₁
  · exact h₁.closed sys.toSockets
  simp only [not_true_eq_false, if_false]
  have hpton : st₁.os.Same (if ip.head? = some 0x30 then ((true, none), st₁.os)
      else st₁.os.call sys.inetPton).2 := by
    split_ifs
    · exact .refl st₁.os
    · exact Ledger.call_same rfl
  generalize (if ip.head? = some 0x30 then ((true, none), st₁.os)
    else st₁.os.call sys.inetPton) = r₂ at hpton
  obtain ⟨⟨valid, e⟩, l₂⟩ := r₂
  have h₂ := h₁.quiet (quiet_touch hpton e)
  simp only
  cases valid with
  | false => exact h₂.closed sys.toSockets
  | true =>
    have h₃ := h₂.quiet (attempt_quiet (sys.bind s) _)
    simp only [not_true_eq_false, if_false]
    generalize St.attempt (sys.bind s) (st₁.touch e l₂) = r₃ at h₃
    obtain ⟨- | -, st₃⟩ := r₃
    · exact h₃.closed sys.toSockets
    have h₄ := h₃.quiet (attempt_quiet (sys.listen s nbConnection) _)
    simp only [not_true_eq_false, if_false]
    generalize St.attempt (sys.listen s nbConnection) st₃ = r₄ at h₄
    obtain ⟨- | -, st₄⟩ := r₄
    · exact h₄.closed sys.toSockets
    · exact h₄

theorem tcpPiListenLoop_opens (sys : ServerSockets σ) (nbConnection : Int) (aiList : List Bool)
    (st : St (Ledger σ)) : Opens st (tcpPiListenLoop sys nbConnection aiList st) := by
  induction aiList generalizing st with
  | nil => exact quiet_touch (.refl st.os) none
  | cons inet aiList ih =>
    rw [tcpPiListenLoop]
    rcases hmake : st.os.make (sys.socket inet) with ⟨e | s, l⟩
    · exact (quiet_of_error hmake).opens (ih _)
    have h₀ : Makes s st { st with os := l } := makes_of_ok sys.socket_fresh hmake
    have h₁ := h₀.quiet (attempt_quiet (sys.reuseAddr s) _)
    simp only
    generalize St.attempt (sys.reuseAddr s) { st with os := l } = r₁ at h₁
    obtain ⟨- | -, st₁⟩ := r₁
    · exact (h₁.closed sys.toSockets).opens (ih _)
    have h₂ := h₁.quiet (attempt_quiet (sys.bind s) _)
    simp only [not_true_eq_false, if_false]
    generalize St.attempt (sys.bind s) st₁ = r₂ at h₂
    obtain ⟨- | -, st₂⟩ := r₂
    · exact (h₂.closed sys.toSockets).opens (ih _)
    have h₃ := h₂.quiet (attempt_quiet (sys.listen s nbConnection) _)
    simp only [not_true_eq_false, if_false]
    generalize St.attempt (sys.listen s nbConnection) st₂ = r₃ at h₃
    obtain ⟨- | -, st₃⟩ := r₃
    · exact (h₃.closed sys.toSockets).opens (ih _)
    · exact h₃

theorem modbusTcpPiListen_opens (sys : ServerSockets σ) (nbConnection : Int)
    (st : St (Ledger σ)) : Opens st (modbusTcpPiListen sys nbConnection st) := by
  unfold modbusTcpPiListen
  rcases hname : st.os.call sys.getaddrinfo with ⟨- | aiList, l⟩
  · exact quiet_touch (Ledger.call_same hname) (some .ECONNREFUSED)
  · have h : Quiet st { st with os := l } := quiet_touch (Ledger.call_same hname) none
    exact h.opens (tcpPiListenLoop_opens sys nbConnection aiList _)

/-! ### What each call does to the context -/

/-- Accepting adds what it leaves in `s` to what was held: the old descriptor is forgotten. -/
theorem modbusTcpAccept_accounts (sys : ServerSockets σ) (s : Nat) (ha : st.os.Accounts owned) :
    (modbusTcpAccept sys s st).2.os.Accounts (slot (modbusTcpAccept sys s st).2.ctx.s ++ owned) ∧
      (modbusTcpAccept sys s st).2.ctx.s < fdSetSize := by
  have hnone : (-1 : Int) < fdSetSize := by decide
  unfold modbusTcpAccept
  rcases hmake : st.os.make (sys.accept s) with ⟨e | fd, l⟩
  · exact ⟨ha.same (Ledger.make_error hmake), hnone⟩
  have hheld := ha.holds (Ledger.make_ok sys.accept_fresh hmake)
  simp only
  by_cases hbig : fdSetSize ≤ (fd : Int)
  · rw [if_pos hbig]
    exact ⟨closeDescriptor_accounts sys.toSockets hheld, hnone⟩
  · rw [if_neg hbig]
    refine ⟨?_, Int.not_le.mp hbig⟩
    rw [slot_natCast]
    exact hheld

/-- What is opened replaces what is in `s`, which is closed. -/
theorem replaceSocket_accounts (sys : Sockets σ) (fd : Nat)
    (ha : st.os.Accounts (fd :: (slot st.ctx.s ++ owned))) :
    (replaceSocket sys fd st).2.os.Accounts (slot (replaceSocket sys fd st).2.ctx.s ++ owned) := by
  unfold replaceSocket
  by_cases hs : 0 ≤ st.ctx.s
  · rw [slot, if_pos hs] at ha
    simp only [if_pos hs, slot_natCast]
    exact closeDescriptor_accounts sys (ha.reorder (List.Perm.swap _ _ _))
  · rw [slot, if_neg hs] at ha
    simp only [if_neg hs, slot_natCast]
    exact ha

/-- A descriptor that is returned fits in an `fd_set`. -/
def Fits (r : Option Nat × St (Ledger σ)) : Prop := ∀ fd, r.1 = some fd → (fd : Int) < fdSetSize

theorem fits_none (st : St (Ledger σ)) : Fits (none, st) := by
  intro fd h
  cases h

theorem tcpOpen_fits (sys : Sockets σ) (st : St (Ledger σ)) : Fits (tcpOpen sys st) := by
  unfold tcpOpen
  rcases st.os.make (sys.socket true) with ⟨e | s, l⟩
  · exact fits_none _
  simp only
  by_cases hbig : fdSetSize ≤ (s : Int)
  · rw [if_pos hbig]
    exact fits_none _
  rw [if_neg hbig]
  rcases setIpv4Options sys s { st with os := l } with ⟨- | -, st₁⟩
  · exact fits_none _
  simp only [not_true_eq_false, if_false]
  rcases st₁.os.call sys.inetPton with ⟨⟨- | -, e⟩, l₂⟩
  · exact fits_none _
  simp only [not_true_eq_false, if_false]
  rcases connectSocket sys s (st₁.touch e l₂).ctx.responseTimeout (st₁.touch e l₂) with ⟨- | -, st₃⟩
  · exact fits_none _
  · intro fd h
    cases h
    exact Int.not_le.mp hbig

theorem tcpPiLoop_fits (sys : Sockets σ) (aiList : List Bool) (st : St (Ledger σ)) :
    Fits (tcpPiLoop sys aiList st) := by
  induction aiList generalizing st with
  | nil => exact fits_none st
  | cons inet aiList ih =>
    rw [tcpPiLoop]
    rcases st.os.make (sys.socket inet) with ⟨e | s, l⟩
    · exact ih _
    simp only
    by_cases hbig : fdSetSize ≤ (s : Int)
    · rw [if_pos hbig]
      exact ih _
    rw [if_neg hbig]
    generalize (if inet = true then (setIpv4Options sys s { st with os := l }).2
      else { st with os := l }) = st₁
    rcases connectSocket sys s st₁.ctx.responseTimeout st₁ with ⟨- | -, st₂⟩
    · exact ih _
    · intro fd h
      cases h
      exact Int.not_le.mp hbig

theorem tcpPiOpen_fits (sys : Sockets σ) (st : St (Ledger σ)) : Fits (tcpPiOpen sys st) := by
  unfold tcpPiOpen
  rcases st.os.call sys.getaddrinfo with ⟨- | aiList, l⟩
  · exact fits_none _
  · exact tcpPiLoop_fits sys aiList _

end

/-! ### A program with a context -/

/-- The contexts that listen; a TCP one has an address. -/
inductive Host
  | tcp (ip : List UInt8)
  | tcpPi

def Host.connector : Host → Connector
  | .tcp _ => .tcp
  | .tcpPi => .tcpPi

def Host.listen (sys : ServerSockets σ) : Host → Int → St (Ledger σ) → Option Nat × St (Ledger σ)
  | .tcp ip => modbusTcpListen sys ip
  | .tcpPi => modbusTcpPiListen sys

def Host.accept (sys : ServerSockets σ) : Host → Nat → St (Ledger σ) → Int × St (Ledger σ)
  | .tcp _ => modbusTcpAccept sys
  | .tcpPi => modbusTcpPiAccept sys

/-- The sockets that the program listens on, and its context. -/
structure ServerState (σ : Type) where
  listeners : List Nat
  st : St (Ledger σ)

/-- The calls of the program; the last one is its own `close`. -/
inductive ServerCall
  | listen (nbConnection : Int)
  | accept (k : Nat)
  | connect
  | close
  | closeListener (k : Nat)

def ServerCall.run (sys : ServerSockets σ) (host : Host) (w : ServerState σ) :
    ServerCall → ServerState σ
  | .listen nbConnection =>
    let (newS, st) := host.listen sys nbConnection w.st
    ⟨w.listeners ++ newS.toList, st⟩
  | .accept k =>
    match w.listeners[k]? with
    | none => w
    | some s => { w with st := (host.accept sys s w.st).2 }
  | .connect => { w with st := (host.connector.connect sys.toSockets w.st).2 }
  | .close => { w with st := host.connector.close sys.toSockets w.st }
  | .closeListener k =>
    match w.listeners[k]? with
    | none => w
    | some s => ⟨w.listeners.eraseIdx k, closeDescriptor sys.toSockets s w.st⟩

/-- The program has what is held, and what is in `s` fits in an `fd_set`. -/
structure ServerState.Keeps (w : ServerState σ) : Prop where
  accounts : w.st.os.Accounts (slot w.st.ctx.s ++ w.listeners)
  fits : w.st.ctx.s < fdSetSize

/-- The call does not accept a connection while the context has one. -/
def ServerCall.Apart (w : ServerState σ) : ServerCall → Prop
  | .accept k => k < w.listeners.length → w.st.ctx.s < 0
  | _ => True

/-- What is held besides `others` before a call that opens, and after it. -/
theorem Opens.accounts {st : St (Ledger σ)} {r : Option Nat × St (Ledger σ)} {owned : List Nat}
    (h : Opens st r) (ha : st.os.Accounts owned) : r.2.os.Accounts (r.1.toList ++ owned) := by
  obtain ⟨- | fd, st'⟩ := r
  · exact Quiet.accounts h ha
  · exact Makes.accounts h ha

theorem Opens.ctx {st : St (Ledger σ)} {r : Option Nat × St (Ledger σ)} (h : Opens st r) :
    r.2.ctx = st.ctx := by
  obtain ⟨- | fd, st'⟩ := r
  · exact Touched.ctx (Quiet.touched h)
  · exact Touched.ctx (Makes.touched h)

theorem Host.listen_opens (sys : ServerSockets σ) (host : Host) (nbConnection : Int)
    (st : St (Ledger σ)) : Opens st (host.listen sys nbConnection st) := by
  cases host with
  | tcp ip => exact modbusTcpListen_opens sys ip nbConnection st
  | tcpPi => exact modbusTcpPiListen_opens sys nbConnection st

/-- Connecting replaces what is in `s`, or leaves it. -/
theorem Host.connect_keeps (sys : ServerSockets σ) (host : Host) {w : ServerState σ}
    (hk : w.Keeps) : (ServerCall.connect.run sys host w).Keeps := by
  have hnone : ∀ {st'}, Opens w.st (none, st') → ServerState.Keeps ⟨w.listeners, st'⟩ := by
    intro st' hr
    have hctx : st'.ctx = w.st.ctx := hr.ctx
    have haccounts := hr.accounts hk.accounts
    rw [← hctx] at haccounts
    exact ⟨haccounts, by rw [hctx]; exact hk.fits⟩
  have hsome : ∀ {fd st'}, Opens w.st (some fd, st') → Fits (some fd, st') →
      ServerState.Keeps ⟨w.listeners, (replaceSocket sys.toSockets fd st').2⟩ := by
    intro fd st' hr hfits
    have haccounts := hr.accounts hk.accounts
    rw [← hr.ctx] at haccounts
    exact ⟨replaceSocket_accounts sys.toSockets fd haccounts, hfits fd rfl⟩
  cases host with
  | tcp ip =>
    have hr := tcpOpen_opens sys.toSockets w.st
    have hfits := tcpOpen_fits sys.toSockets w.st
    show ServerState.Keeps ⟨w.listeners, (tcpConnect sys.toSockets w.st).2⟩
    unfold tcpConnect
    generalize tcpOpen sys.toSockets w.st = r at hr hfits
    obtain ⟨- | fd, st'⟩ := r
    · exact hnone hr
    · exact hsome hr hfits
  | tcpPi =>
    have hr := tcpPiOpen_opens sys.toSockets w.st
    have hfits := tcpPiOpen_fits sys.toSockets w.st
    show ServerState.Keeps ⟨w.listeners, (tcpPiConnect sys.toSockets w.st).2⟩
    unfold tcpPiConnect
    generalize tcpPiOpen sys.toSockets w.st = r at hr hfits
    obtain ⟨- | fd, st'⟩ := r
    · exact hnone hr
    · exact hsome hr hfits

theorem Host.close_keeps (sys : ServerSockets σ) (host : Host) {w : ServerState σ}
    (hk : w.Keeps) : (ServerCall.close.run sys host w).Keeps := by
  have hclose : ServerState.Keeps ⟨w.listeners, tcpClose sys.toSockets w.st⟩ := by
    unfold tcpClose
    by_cases hs : 0 ≤ w.st.ctx.s
    · rw [if_pos hs]
      have hquiet := attempt_quiet (sys.shutdown w.st.ctx.s.toNat) w.st
      have haccounts := hquiet.accounts hk.accounts
      rw [slot, if_pos hs] at haccounts
      generalize (w.st.attempt (sys.shutdown w.st.ctx.s.toNat)).2 = st₁ at hquiet haccounts
      rw [← hquiet.touched.ctx] at haccounts
      have hnone : (-1 : Int) < fdSetSize := by decide
      exact ⟨closeDescriptor_accounts sys.toSockets haccounts, hnone⟩
    · rw [if_neg hs]
      exact hk
  cases host with
  | tcp ip => exact hclose
  | tcpPi => exact hclose

/-- Two descriptors are not one. -/
theorem slot_eq_nil {s : Int} (h : (slot s).length = 0) : s < 0 := by
  by_contra hs
  rw [slot, if_pos (by omega)] at h
  cases h

/-- One call. -/
theorem ServerCall.run_keeps_iff (sys : ServerSockets σ) (host : Host) (call : ServerCall)
    {w : ServerState σ} (hk : w.Keeps) : (call.run sys host w).Keeps ↔ call.Apart w := by
  cases call with
  | listen nbConnection =>
    refine iff_of_true ?_ trivial
    have hopens := host.listen_opens sys nbConnection w.st
    have haccounts := hopens.accounts hk.accounts
    rw [← hopens.ctx] at haccounts
    refine ⟨haccounts.reorder ?_, by rw [ServerCall.run, hopens.ctx]; exact hk.fits⟩
    exact List.perm_append_comm.trans (.of_eq (List.append_assoc _ _ _))
  | connect => exact iff_of_true (host.connect_keeps sys hk) trivial
  | close => exact iff_of_true (host.close_keeps sys hk) trivial
  | closeListener k =>
    refine iff_of_true ?_ trivial
    rw [ServerCall.run]
    rcases hl : w.listeners[k]? with - | s
    · exact hk
    · obtain ⟨hlt, rfl⟩ := List.getElem?_eq_some_iff.mp hl
      have hsplit := (List.getElem_cons_eraseIdx_perm hlt).symm.append_left (slot w.st.ctx.s)
      have haccounts := hk.accounts.reorder (hsplit.trans List.perm_middle)
      simp only
      refine ⟨?_, by rw [closeDescriptor_ctx]; exact hk.fits⟩
      rw [closeDescriptor_ctx]
      exact closeDescriptor_accounts sys.toSockets haccounts
  | accept k =>
    rw [ServerCall.run, ServerCall.Apart]
    rcases hl : w.listeners[k]? with - | s
    · rw [List.getElem?_eq_none_iff] at hl
      exact iff_of_true hk fun hlt => absurd hlt (Nat.not_lt.mpr hl)
    · obtain ⟨hlt, rfl⟩ := List.getElem?_eq_some_iff.mp hl
      have haccept : host.accept sys w.listeners[k] w.st =
          modbusTcpAccept sys w.listeners[k] w.st := by
        cases host with
        | tcp ip => rfl
        | tcpPi => rfl
      obtain ⟨haccounts, hfits⟩ := modbusTcpAccept_accounts sys w.listeners[k] hk.accounts
      simp only [haccept]
      constructor
      · intro h _
        have hlen := (haccounts.perm.symm.trans h.accounts.perm).length_eq
        simp only [List.length_append] at hlen
        exact slot_eq_nil (by omega)
      · intro hs
        have hnone : slot w.st.ctx.s = [] := by
          have := hs hlt
          rw [slot, if_neg (by omega)]
        rw [hnone, List.nil_append] at haccounts
        exact ⟨haccounts, hfits⟩

/-! ### Runs -/

/-- After every call the program has what is held. -/
def AlwaysKeeps (sys : ServerSockets σ) (host : Host) : List ServerCall → ServerState σ → Prop
  | [], _ => True
  | call :: calls, w => (call.run sys host w).Keeps ∧
      AlwaysKeeps sys host calls (call.run sys host w)

/-- No connection is accepted while the context has one. -/
def AlwaysApart (sys : ServerSockets σ) (host : Host) : List ServerCall → ServerState σ → Prop
  | [], _ => True
  | call :: calls, w => call.Apart w ∧ AlwaysApart sys host calls (call.run sys host w)

theorem alwaysKeeps_iff (sys : ServerSockets σ) (host : Host) (calls : List ServerCall)
    {w : ServerState σ} (hk : w.Keeps) :
    AlwaysKeeps sys host calls w ↔ AlwaysApart sys host calls w := by
  induction calls generalizing w with
  | nil => exact Iff.rfl
  | cons call calls ih =>
    rw [AlwaysKeeps, AlwaysApart, call.run_keeps_iff sys host hk]
    refine and_congr_right fun hcall => ih ?_
    exact (call.run_keeps_iff sys host hk).mpr hcall

/-- **A server has every descriptor that is held**, and the one in its context fits in an `fd_set`,
after any calls that listen, accept, connect and close, in any order and whatever fails, if and only
if no connection is accepted while the context has one.  The descriptors that `listen` returns are
not checked against the size of an `fd_set`. -/
theorem server_keeps_iff (sys : ServerSockets σ) (host : Host) (ctx : Modbus) (e : Errno) (s : σ)
    (calls : List ServerCall) :
    AlwaysKeeps sys host calls ⟨[], disconnected ctx e s⟩ ↔
      AlwaysApart sys host calls ⟨[], disconnected ctx e s⟩ :=
  alwaysKeeps_iff sys host calls ⟨⟨.nil, .nil, rfl⟩, by show (-1 : Int) < fdSetSize; decide⟩

end Libmodbus
