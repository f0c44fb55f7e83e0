/-
Libmodbus/Connect.lean

`modbus_connect` and `modbus_close` of the RTU, TCP and TCP-PI backends, call by
call, over the descriptors that a context holds.

    TCP, TCP-PI   a new socket is made and connected; only then the old one is
                  closed and replaced
    RTU           what `open` returns is stored at once, and is closed again when
                  a later call fails

A context owns a descriptor when it is the one in `s` and no other is held
(`Owns`).  Closing keeps that, and so does connecting, but for a connect on an
RTU context that is still connected: it forgets the descriptor it had
(`descriptors_kept_iff`).  Elsewhere connecting is a single call whose outcome
is the system's (`Os.connect`); `connect_coarse` says that this is all that can
be seen of it.
-/
import Libmodbus.Lib.Descriptors
import Libmodbus.Send

namespace Libmodbus

open CSem Wire Posix

variable {σ : Type}

/-! ### Calls -/

/-- A call that may fail, and what it leaves in `errno` then. -/
def St.attempt (f : σ → Option SysErrno × σ) (st : St (Ledger σ)) : Bool × St (Ledger σ) :=
  let (e, l) := st.os.call f
  (e.isNone, st.touch e l)

def closeDescriptor (sys : Sockets σ) (fd : Int) (st : St (Ledger σ)) : St (Ledger σ) :=
  let (e, l) := st.os.close sys.close fd.toNat
  st.touch e l

/-- `close (ctx->s)` and `ctx->s = -1` -/
def dropDescriptor (sys : Sockets σ) (st : St (Ledger σ)) : St (Ledger σ) :=
  let st := closeDescriptor sys st.ctx.s st
  { st with ctx := { st.ctx with s := -1 } }

/-! ### TCP -/

/-- `_modbus_tcp_set_ipv4_options` -/
def setIpv4Options (sys : Sockets σ) (s : Nat) (st : St (Ledger σ)) : Bool × St (Ledger σ) :=
  let (ok, st) := st.attempt (sys.setsockopt s .tcpNodelay)
  if ¬ ok then (false, st) else st.attempt (sys.setsockopt s .ipTos)

/-- `_connect`, which waits for a connection that is in progress. -/
def connectSocket (sys : Sockets σ) (sockfd : Nat) (roTv : Timeval) (st : St (Ledger σ)) :
    Bool × St (Ledger σ) :=
  match st.os.call (sys.connect sockfd) with
  | (.established, l) => (true, { st with os := l })
  | (.failed e, l) => (false, { st with errno := .sys e, os := l })
  | (.inProgress e, l) =>
    if fdSetSize ≤ (sockfd : Int) then (false, { st with errno := .EINVAL, os := l })
    else
      -- wait to be available in writing
      match l.call (sys.selectWrite sockfd roTv) with
      | (.failed e, l) => (false, { st with errno := .sys e, os := l })
      | (.timeout, l) => (false, { st with errno := .ETIMEDOUT, os := l })
      | (.ready, l) =>
        let (ok, l) := l.call (sys.soError sockfd)
        if ok then (true, { st with errno := .sys e, os := l })
        else (false, { st with errno := .ECONNREFUSED, os := l })

/-- The part of `_modbus_tcp_connect` that makes the new socket. -/
def tcpOpen (sys : Sockets σ) (st : St (Ledger σ)) : Option Nat × St (Ledger σ) :=
  match st.os.make (sys.socket true) with
  | (.error e, l) => (none, { st with errno := .sys e, os := l })
  | (.ok s, l) =>
    let st := { st with os := l }
    if fdSetSize ≤ (s : Int) then
      (none, { closeDescriptor sys s st with errno := .EINVAL })
    else
      let (ok, st) := setIpv4Options sys s st
      if ¬ ok then (none, closeDescriptor sys s st)
      else
        let ((valid, e), l) := st.os.call sys.inetPton
        let st := st.touch e l
        if ¬ valid then (none, closeDescriptor sys s st)
        else
          let (ok, st) := connectSocket sys s st.ctx.responseTimeout st
          if ¬ ok then (none, closeDescriptor sys s st) else (some s, st)

/-- Replace any previously open socket. -/
def replaceSocket (sys : Sockets σ) (s : Nat) (st : St (Ledger σ)) : Int × St (Ledger σ) :=
  let st := if 0 ≤ st.ctx.s then closeDescriptor sys st.ctx.s st else st
  (0, { st with ctx := { st.ctx with s := s } })

/-- `_modbus_tcp_connect` -/
def tcpConnect (sys : Sockets σ) (st : St (Ledger σ)) : Int × St (Ledger σ) :=
  match tcpOpen sys st with
  | (none, st) => (-1, st)
  | (some s, st) => replaceSocket sys s st

/-- `_modbus_tcp_close` -/
def tcpClose (sys : Sockets σ) (st : St (Ledger σ)) : St (Ledger σ) :=
  if 0 ≤ st.ctx.s then dropDescriptor sys (st.attempt (sys.shutdown st.ctx.s.toNat)).2 else st

/-! ### TCP-PI -/

/-- The loop of `_modbus_tcp_pi_connect` over the addresses: the first that can be connected. -/
def tcpPiLoop (sys : Sockets σ) : List Bool → St (Ledger σ) → Option Nat × St (Ledger σ)
  | [], st => (none, st)
  | inet :: aiList, st =>
    match st.os.make (sys.socket inet) with
    | (.error e, l) => tcpPiLoop sys aiList { st with errno := .sys e, os := l }
    | (.ok s, l) =>
      let st := { st with os := l }
      if fdSetSize ≤ (s : Int) then tcpPiLoop sys aiList (closeDescriptor sys s st)
      else
        -- the result of the options is not looked at
        let st := if inet then (setIpv4Options sys s st).2 else st
        let (ok, st) := connectSocket sys s st.ctx.responseTimeout st
        if ¬ ok then tcpPiLoop sys aiList (closeDescriptor sys s st) else (some s, st)

def tcpPiOpen (sys : Sockets σ) (st : St (Ledger σ)) : Option Nat × St (Ledger σ) :=
  match st.os.call sys.getaddrinfo with
  | (none, l) => (none, { st with errno := .ECONNREFUSED, os := l })
  | (some aiList, l) => tcpPiLoop sys aiList { st with os := l }

/-- `_modbus_tcp_pi_connect` -/
def tcpPiConnect (sys : Sockets σ) (st : St (Ledger σ)) : Int × St (Ledger σ) :=
  match tcpPiOpen sys st with
  | (none, st) => (-1, st)
  | (some s, st) => replaceSocket sys s st

/-! ### RTU -/

/-- `_modbus_rtu_connect`.  With `termios2` the speed is a field and setting it does not fail. -/
def rtuConnect (sys : Sockets σ) (st : St (Ledger σ)) : Int × St (Ledger σ) :=
  match st.os.make sys.openDevice with
  | (.error e, l) => (-1, ⟨{ st.ctx with s := -1 }, .sys e, l⟩)
  | (.ok fd, l) =>
    let st := { st with ctx := { st.ctx with s := fd }, os := l }
    -- save
    let (ok, st) := st.attempt (sys.tcgetattr fd)
    if ¬ ok then (-1, dropDescriptor sys st)
    else
      let (ok, st) := st.attempt sys.cfsetspeed
      if ¬ ok then (-1, dropDescriptor sys st)
      else
        let (ok, st) := st.attempt (sys.tcsetattr fd)
        if ¬ ok then (-1, dropDescriptor sys st) else (0, st)

/-- `_modbus_rtu_close`: the line settings are restored first. -/
def rtuClose (sys : Sockets σ) (st : St (Ledger σ)) : St (Ledger σ) :=
  if 0 ≤ st.ctx.s then dropDescriptor sys (st.attempt (sys.tcsetattr st.ctx.s.toNat)).2 else st

/-! ### Contexts -/

/-- The kinds of context that can be connected. -/
inductive Connector
  | rtu
  | tcp
  | tcpPi
  deriving DecidableEq, Repr

def Connector.backend : Connector → Backend
  | .rtu => .rtu
  | .tcp => .tcp
  | .tcpPi => .tcp

/-- `modbus_connect` -/
def Connector.connect (sys : Sockets σ) : Connector → St (Ledger σ) → Int × St (Ledger σ)
  | .rtu => rtuConnect sys
  | .tcp => tcpConnect sys
  | .tcpPi => tcpPiConnect sys

/-- `modbus_close` -/
def Connector.close (sys : Sockets σ) : Connector → St (Ledger σ) → St (Ledger σ)
  | .rtu => rtuClose sys
  | .tcp => tcpClose sys
  | .tcpPi => tcpClose sys

/-! ### What each call does to the ledger -/

section

variable {st st' st'' : St (Ledger σ)}

theorem touch_os (st : St σ) (e : Option SysErrno) (os : σ) : (st.touch e os).os = os := by
  cases e with
  | none => rfl
  | some e => rfl

theorem touch_touch (st : St σ) (e e' : Option SysErrno) (os os' : σ) :
    ∃ e'', (st.touch e os).touch e' os' = st.touch e'' os' := by
  cases e' with
  | none => exact ⟨e, by cases e <;> rfl⟩
  | some e' => exact ⟨some e', by cases e <;> rfl⟩

/-- `errno` may be touched, and nothing else but the system. -/
def Touched (st st' : St (Ledger σ)) : Prop := ∃ e, st' = st.touch e st'.os

theorem Touched.trans (h : Touched st st') (h' : Touched st' st'') : Touched st st'' := by
  obtain ⟨e, he⟩ := h
  obtain ⟨e', he'⟩ := h'
  rw [he] at he'
  obtain ⟨e'', he''⟩ := touch_touch st e e' st'.os st''.os
  exact ⟨e'', he'.trans he''⟩

theorem Touched.ctx (h : Touched st st') : st'.ctx = st.ctx := by
  obtain ⟨e, he⟩ := h
  rw [he, St.touch_ctx]

theorem touched_touch (st : St (Ledger σ)) (e : Option SysErrno) (l : Ledger σ) :
    Touched st (st.touch e l) := ⟨e, by rw [touch_os]⟩

/-- A step that leaves the context and what it holds alone. -/
structure Quiet (st st' : St (Ledger σ)) : Prop where
  touched : Touched st st'
  same : st.os.Same st'.os

theorem Quiet.trans (h : Quiet st st') (h' : Quiet st' st'') : Quiet st st'' :=
  ⟨h.touched.trans h'.touched, h.same.trans h'.same⟩

theorem quiet_touch {l : Ledger σ} (h : st.os.Same l) (e : Option SysErrno) :
    Quiet st (st.touch e l) :=
  ⟨touched_touch st e l, by rw [touch_os]; exact h⟩

theorem attempt_quiet (f : σ → Option SysErrno × σ) (st : St (Ledger σ)) :
    Quiet st (st.attempt f).2 := quiet_touch (Ledger.call_same rfl) _

theorem setIpv4Options_quiet (sys : Sockets σ) (s : Nat) (st : St (Ledger σ)) :
    Quiet st (setIpv4Options sys s st).2 := by
  unfold setIpv4Options
  have h := attempt_quiet (sys.setsockopt s .tcpNodelay) st
  simp only
  split_ifs
  · exact h.trans (attempt_quiet _ _)
  · exact h

theorem connectSocket_quiet (sys : Sockets σ) (sockfd : Nat) (roTv : Timeval)
    (st : St (Ledger σ)) : Quiet st (connectSocket sys sockfd roTv st).2 := by
  unfold connectSocket
  rcases hc : st.os.call (sys.connect sockfd) with ⟨- | e | e, l⟩
  · exact quiet_touch (Ledger.call_same hc) none
  · have hconnect := Ledger.call_same hc
    simp only
    split_ifs
    · exact quiet_touch hconnect (some .EINVAL)
    rcases hw : l.call (sys.selectWrite sockfd roTv) with ⟨- | - | e', l'⟩
    · have hselect := hconnect.trans (Ledger.call_same hw)
      have herror := hselect.trans (Ledger.call_same (f := sys.soError sockfd) rfl)
      simp only
      split_ifs
      · exact quiet_touch herror (some e)
      · exact quiet_touch herror (some .ECONNREFUSED)
    · exact quiet_touch (hconnect.trans (Ledger.call_same hw)) (some .ETIMEDOUT)
    · exact quiet_touch (hconnect.trans (Ledger.call_same hw)) (some e')
  · exact quiet_touch (Ledger.call_same hc) (some e)

/-- A step after which one more descriptor is held. -/
structure Makes (fd : Nat) (st st' : St (Ledger σ)) : Prop where
  touched : Touched st st'
  holds : st.os.Holds fd st'.os

theorem Makes.quiet {fd : Nat} (h : Makes fd st st') (h' : Quiet st' st'') : Makes fd st st'' :=
  ⟨h.touched.trans h'.touched, h.holds.same h'.same⟩

theorem Quiet.makes {fd : Nat} (h : Quiet st st') (h' : Makes fd st' st'') : Makes fd st st'' := by
  obtain ⟨hfresh, hheld, hstrays⟩ := h'.holds
  refine ⟨h.touched.trans h'.touched, ?_, ?_, ?_⟩
  · rw [← h.same.1]
    exact hfresh
  · rw [hheld, h.same.1]
  · rw [hstrays, h.same.2]

theorem makes_of_ok {f : List Nat → σ → Except SysErrno Nat × σ}
    (hf : ∀ {held s fd s'}, f held s = (.ok fd, s') → fd ∉ held) {fd : Nat} {l : Ledger σ}
    (h : st.os.make f = (.ok fd, l)) : Makes fd st { st with os := l } :=
  ⟨⟨none, rfl⟩, Ledger.make_ok hf h⟩

theorem quiet_of_error {f : List Nat → σ → Except SysErrno Nat × σ} {e : SysErrno} {l : Ledger σ}
    (h : st.os.make f = (.error e, l)) : Quiet st { st with errno := .sys e, os := l } :=
  ⟨⟨some e, rfl⟩, Ledger.make_error h⟩

/-- What is left when the new descriptor is closed again. -/
theorem Makes.closed {fd : Nat} (h : Makes fd st st') (sys : Sockets σ) :
    Quiet st (closeDescriptor sys fd st') := by
  refine ⟨h.touched.trans (touched_touch st' _ _), ?_⟩
  show st.os.Same (st'.touch _ (st'.os.close sys.close ((fd : Nat) : Int).toNat).2).os
  rw [touch_os, Int.toNat_natCast]
  exact h.holds.close sys.close

/-- An attempt to open ends with nothing, or with one more descriptor. -/
def Opens (st : St (Ledger σ)) : Option Nat × St (Ledger σ) → Prop
  | (none, st') => Quiet st st'
  | (some fd, st') => Makes fd st st'

theorem Quiet.opens {r : Option Nat × St (Ledger σ)} (h : Quiet st st') (hr : Opens st' r) :
    Opens st r := by
  obtain ⟨- | fd, st''⟩ := r
  · exact h.trans hr
  · exact h.makes hr

theorem tcpOpen_opens (sys : Sockets σ) (st : St (Ledger σ)) : Opens st (tcpOpen sys st) := by
  unfold tcpOpen
  rcases hmake : st.os.make (sys.socket true) with ⟨e | s, l⟩
  · exact quiet_of_error hmake
  have h₀ : Makes s st { st with os := l } := makes_of_ok sys.socket_fresh hmake
  have h₁ := h₀.quiet (setIpv4Options_quiet sys s _)
  simp only
  by_cases hbig : fdSetSize ≤ (s : Int)
  · rw [if_pos hbig]
    exact (h₀.closed sys).trans (quiet_touch (.refl _) (some .EINVAL))
  rw [if_neg hbig]
  generalize setIpv4Options sys s { st with os := l } = r₁ at h₁
  obtain ⟨- | -, st₁⟩ := r₁
  · exact h₁.closed sys
  have hpton : st₁.os.Same (st₁.os.call sys.inetPton).2 := ⟨rfl, rfl⟩
  have h₂ := h₁.quiet (quiet_touch hpton (st₁.os.call sys.inetPton).1.2)
  simp only [not_true_eq_false, if_false]
  generalize (st₁.os.call sys.inetPton) = r₂ at h₂
  obtain ⟨⟨- | -, e⟩, l₂⟩ := r₂
  · exact h₂.closed sys
  have h₃ := h₂.quiet (connectSocket_quiet sys s (st₁.touch e l₂).ctx.responseTimeout _)
  simp only [not_true_eq_false, if_false]
  generalize connectSocket sys s (st₁.touch e l₂).ctx.responseTimeout (st₁.touch e l₂) = r₃ at h₃
  obtain ⟨- | -, st₃⟩ := r₃
  · exact h₃.closed sys
  · exact h₃

theorem tcpPiLoop_opens (sys : Sockets σ) (aiList : List Bool) (st : St (Ledger σ)) :
    Opens st (tcpPiLoop sys aiList st) := by
  induction aiList generalizing st with
  | nil => exact quiet_touch (.refl st.os) none
  | cons inet aiList ih =>
    rw [tcpPiLoop]
    rcases hmake : st.os.make (sys.socket inet) with ⟨e | s, l⟩
    · exact (quiet_of_error hmake).opens (ih _)
    have h₀ : Makes s st { st with os := l } := makes_of_ok sys.socket_fresh hmake
    simp only
    by_cases hbig : fdSetSize ≤ (s : Int)
    · rw [if_pos hbig]
      exact (h₀.closed sys).opens (ih _)
    rw [if_neg hbig]
    have h₁ : Makes s st (if inet = true then (setIpv4Options sys s { st with os := l }).2
        else { st with os := l }) := by
      split_ifs
      · exact h₀.quiet (setIpv4Options_quiet sys s _)
      · exact h₀
    generalize (if inet = true then (setIpv4Options sys s { st with os := l }).2
        else { st with os := l }) = st₁ at h₁
    have h₂ := h₁.quiet (connectSocket_quiet sys s st₁.ctx.responseTimeout st₁)
    generalize connectSocket sys s st₁.ctx.responseTimeout st₁ = r₂ at h₂
    obtain ⟨- | -, st₂⟩ := r₂
    · exact (h₂.closed sys).opens (ih _)
    · exact h₂

theorem tcpPiOpen_opens (sys : Sockets σ) (st : St (Ledger σ)) : Opens st (tcpPiOpen sys st) := by
  unfold tcpPiOpen
  rcases hname : st.os.call sys.getaddrinfo with ⟨- | aiList, l⟩
  · exact quiet_touch (Ledger.call_same hname) (some .ECONNREFUSED)
  · have h : Quiet st { st with os := l } := quiet_touch (Ledger.call_same hname) none
    exact h.opens (tcpPiLoop_opens sys aiList _)

/-! ### What a context holds -/

/-- The descriptor in `s`, if there is one. -/
def slot (s : Int) : List Nat := if 0 ≤ s then [s.toNat] else []

/-- The descriptor of the context is held, and no other; none was closed that was not held. -/
structure Owns (st : St (Ledger σ)) : Prop where
  held : st.os.held = slot st.ctx.s
  strays : st.os.strays = []

theorem slot_natCast (s : Nat) : slot s = [s] := by
  rw [slot, if_pos (Int.natCast_nonneg s), Int.toNat_natCast]

/-- Dropping the last of the held descriptors. -/
theorem dropDescriptor_spec (sys : Sockets σ) {others : List Nat}
    (hheld : st.os.held = others ++ [st.ctx.s.toNat]) (hnew : st.ctx.s.toNat ∉ others) :
    (dropDescriptor sys st).ctx.s = -1 ∧ (dropDescriptor sys st).os.held = others ∧
      (dropDescriptor sys st).os.strays = st.os.strays := by
  have hmem : st.ctx.s.toNat ∈ st.os.held := by
    rw [hheld]
    exact List.mem_append_right _ (List.mem_singleton_self _)
  obtain ⟨h1, h2⟩ := Ledger.close_held sys.close hmem
  have hos : (dropDescriptor sys st).os = (st.os.close sys.close st.ctx.s.toNat).2 :=
    touch_os st _ _
  refine ⟨rfl, ?_, ?_⟩
  · rw [hos, h1, hheld, List.erase_append_right _ hnew, List.erase_cons_head, List.append_nil]
  · rw [hos, h2]

/-- Closing what is held. -/
theorem closeDescriptor_slot (sys : Sockets σ) {others : List Nat}
    (hheld : st.os.held = st.ctx.s.toNat :: others) :
    (closeDescriptor sys st.ctx.s st).os.held = others ∧
      (closeDescriptor sys st.ctx.s st).os.strays = st.os.strays := by
  have hmem : st.ctx.s.toNat ∈ st.os.held := by
    rw [hheld]
    exact List.mem_cons_self
  obtain ⟨h1, h2⟩ := Ledger.close_held sys.close hmem
  have hos : (closeDescriptor sys st.ctx.s st).os = (st.os.close sys.close st.ctx.s.toNat).2 :=
    touch_os st _ _
  rw [hos]
  refine ⟨?_, h2⟩
  rw [h1, hheld, List.erase_cons_head]

theorem Quiet.owns (h : Quiet st st') (hk : Owns st) : Owns st' := by
  refine ⟨?_, h.same.2.trans hk.strays⟩
  rw [h.same.1, h.touched.ctx, hk.held]

/-- The new socket replaces the old one, which is closed. -/
theorem replaceSocket_owns (sys : Sockets σ) {fd : Nat} (hk : Owns st) (h : Makes fd st st') :
    Owns (replaceSocket sys fd st').2 := by
  obtain ⟨-, hheld, hstrays⟩ := h.holds
  rw [hk.held, ← h.touched.ctx] at hheld
  rw [hk.strays] at hstrays
  unfold replaceSocket
  by_cases hs : 0 ≤ st'.ctx.s
  · rw [slot, if_pos hs] at hheld
    obtain ⟨h1, h2⟩ := closeDescriptor_slot sys hheld
    simp only [if_pos hs]
    exact ⟨by rw [slot_natCast]; exact h1, h2.trans hstrays⟩
  · rw [slot, if_neg hs] at hheld
    simp only [if_neg hs]
    exact ⟨by rw [slot_natCast]; exact hheld, hstrays⟩

/-- **Connecting over TCP keeps the descriptor of the context**, whatever fails. -/
theorem Opens.connect_owns (sys : Sockets σ) {r : Option Nat × St (Ledger σ)} (h : Opens st r)
    (hk : Owns st) : Owns (match r with
      | (none, st) => (-1, st)
      | (some s, st) => replaceSocket sys s st).2 := by
  obtain ⟨- | fd, st'⟩ := r
  · exact h.owns hk
  · exact replaceSocket_owns sys hk h

/-- Closing what a context owns leaves it with nothing. -/
theorem dropDescriptor_owns (sys : Sockets σ) (h : Quiet st st') (hk : Owns st)
    (hs : 0 ≤ st.ctx.s) : Owns (dropDescriptor sys st') := by
  have hk' := h.owns hk
  have hs' : 0 ≤ st'.ctx.s := by
    rw [h.touched.ctx]
    exact hs
  have hheld : st'.os.held = [] ++ [st'.ctx.s.toNat] := by
    rw [hk'.held, slot, if_pos hs']
    rfl
  obtain ⟨h1, h2, h3⟩ := dropDescriptor_spec sys hheld List.not_mem_nil
  exact ⟨by rw [h2, h1]; rfl, h3.trans hk'.strays⟩

theorem Connector.close_owns (sys : Sockets σ) (c : Connector) (hk : Owns st) :
    Owns (c.close sys st) := by
  have hclose : ∀ f, Owns (if 0 ≤ st.ctx.s then dropDescriptor sys (st.attempt f).2 else st) := by
    intro f
    split_ifs with hs
    · exact dropDescriptor_owns sys (attempt_quiet f st) hk hs
    · exact hk
  cases c with
  | rtu => exact hclose _
  | tcp => exact hclose _
  | tcpPi => exact hclose _

/-- What `_modbus_rtu_connect` leaves, when `fd` is the new descriptor: the old one is overwritten
in either case. -/
def rtuOutcome (st : St (Ledger σ)) (fd : Option Nat) (e : Option SysErrno) (l : Ledger σ) :
    Int × St (Ledger σ) :=
  match fd with
  | none => (-1, { st.touch e l with ctx := { st.ctx with s := -1 } })
  | some fd => (0, { st.touch e l with ctx := { st.ctx with s := fd } })

theorem rtuConnect_outcome (sys : Sockets σ) (st : St (Ledger σ)) :
    ∃ fd e l, rtuConnect sys st = rtuOutcome st fd e l ∧ match fd with
      | none => st.os.Same l
      | some fd => st.os.Holds fd l := by
  unfold rtuConnect
  rcases hmake : st.os.make sys.openDevice with ⟨e | fd, l⟩
  · exact ⟨none, some e, l, rfl, Ledger.make_error hmake⟩
  -- from here on `s` is the new descriptor
  have htouch : ∀ e l, (⟨{ st.ctx with s := fd }, st.errno, st.os⟩ : St (Ledger σ)).touch e l =
      { st.touch e l with ctx := { st.ctx with s := fd } } := by
    intro e l
    cases e with
    | none => rfl
    | some e => rfl
  have hexit : ∀ st', Makes fd ⟨{ st.ctx with s := fd }, st.errno, st.os⟩ st' →
      ∃ fd e l, (-1, dropDescriptor sys st') = rtuOutcome st fd e l ∧ match fd with
        | none => st.os.Same l
        | some fd => st.os.Holds fd l := by
    intro st' h
    have hclosed := h.closed sys
    obtain ⟨e, he⟩ := hclosed.touched
    refine ⟨none, e, (closeDescriptor sys fd st').os, ?_, hclosed.same⟩
    generalize (closeDescriptor sys fd st').os = l' at he
    rw [htouch] at he
    rw [dropDescriptor, h.touched.ctx, he]
    rfl
  have h₀ : Makes fd ⟨{ st.ctx with s := fd }, st.errno, st.os⟩
      ⟨{ st.ctx with s := fd }, st.errno, l⟩ := makes_of_ok sys.openDevice_fresh hmake
  have h₁ := h₀.quiet (attempt_quiet (sys.tcgetattr fd) _)
  simp only
  generalize St.attempt (sys.tcgetattr fd) _ = r₁ at h₁
  obtain ⟨- | -, st₁⟩ := r₁
  · exact hexit st₁ h₁
  have h₂ := h₁.quiet (attempt_quiet sys.cfsetspeed st₁)
  simp only [not_true_eq_false, if_false]
  generalize St.attempt sys.cfsetspeed st₁ = r₂ at h₂
  obtain ⟨- | -, st₂⟩ := r₂
  · exact hexit st₂ h₂
  have h₃ := h₂.quiet (attempt_quiet (sys.tcsetattr fd) st₂)
  simp only [not_true_eq_false, if_false]
  generalize St.attempt (sys.tcsetattr fd) st₂ = r₃ at h₃
  obtain ⟨- | -, st₃⟩ := r₃
  · exact hexit st₃ h₃
  · obtain ⟨e, he⟩ := h₃.touched
    rw [htouch] at he
    exact ⟨some fd, e, st₃.os, congrArg (Prod.mk 0) he, h₃.holds⟩

/-- Connecting on a serial line adds what it leaves in `s` to what was held: the old descriptor
is forgotten. -/
theorem rtuConnect_holds (sys : Sockets σ) (st : St (Ledger σ)) :
    (rtuConnect sys st).2.os.held = st.os.held ++ slot (rtuConnect sys st).2.ctx.s ∧
      (rtuConnect sys st).2.os.strays = st.os.strays := by
  obtain ⟨fd, e, l, houtcome, hledger⟩ := rtuConnect_outcome sys st
  have hos : (rtuOutcome st fd e l).2.os = l := by
    cases fd with
    | none => exact touch_os st e l
    | some fd => exact touch_os st e l
  rw [houtcome, hos]
  cases fd with
  | none => exact ⟨hledger.1.trans (List.append_nil _).symm, hledger.2⟩
  | some fd => exact ⟨by rw [hledger.2.1, ← slot_natCast]; rfl, hledger.2.2⟩

/-- **A serial reconnect always leaks**: connecting keeps the descriptor of the context iff there is
none. -/
theorem rtuConnect_owns_iff (sys : Sockets σ) (hk : Owns st) :
    Owns (rtuConnect sys st).2 ↔ st.ctx.s < 0 := by
  obtain ⟨hheld, hstrays⟩ := rtuConnect_holds sys st
  rw [hk.held] at hheld
  rw [hk.strays] at hstrays
  constructor
  · rintro ⟨hslot, -⟩
    rw [hheld] at hslot
    by_contra hs
    -- two descriptors, or the old one without one in `s`
    have hlen := congrArg List.length hslot
    rw [List.length_append, slot, if_pos (by omega)] at hlen
    simp only [List.length_singleton] at hlen
    omega
  · intro hs
    rw [slot, if_neg (by omega), List.nil_append] at hheld
    exact ⟨hheld, hstrays⟩

end

/-! ### Sequences of calls -/

inductive ConnCall
  | connect
  | close
  deriving DecidableEq, Repr

def ConnCall.run (sys : Sockets σ) (c : Connector) (st : St (Ledger σ)) : ConnCall → St (Ledger σ)
  | .connect => (c.connect sys st).2
  | .close => c.close sys st

/-- After every call the context holds what is in `s`. -/
def AlwaysOwns (sys : Sockets σ) (c : Connector) : List ConnCall → St (Ledger σ) → Prop
  | [], _ => True
  | call :: calls, st => Owns (call.run sys c st) ∧ AlwaysOwns sys c calls (call.run sys c st)

/-- No serial context is connected while it is. -/
def NeverReconnects (sys : Sockets σ) (c : Connector) : List ConnCall → St (Ledger σ) → Prop
  | [], _ => True
  | call :: calls, st => (c = .rtu → call = .connect → st.ctx.s < 0) ∧
      NeverReconnects sys c calls (call.run sys c st)

/-- A context without a descriptor, that has not opened any. -/
def disconnected (ctx : Modbus) (e : Errno) (s : σ) : St (Ledger σ) :=
  ⟨{ ctx with s := -1 }, e, ⟨s, [], []⟩⟩

theorem owns_disconnected (ctx : Modbus) (e : Errno) (s : σ) : Owns (disconnected ctx e s) :=
  ⟨rfl, rfl⟩

/-- One call. -/
theorem ConnCall.run_owns_iff (sys : Sockets σ) (c : Connector) (call : ConnCall)
    {st : St (Ledger σ)} (hk : Owns st) :
    Owns (call.run sys c st) ↔ (c = .rtu → call = .connect → st.ctx.s < 0) := by
  cases call with
  | close =>
    constructor
    · intro _ _ h
      cases h
    · intro _
      exact c.close_owns sys hk
  | connect =>
    cases c with
    | rtu =>
      constructor
      · intro h _ _
        exact (rtuConnect_owns_iff sys hk).mp h
      · intro h
        exact (rtuConnect_owns_iff sys hk).mpr (h rfl rfl)
    | tcp =>
      constructor
      · intro _ h
        cases h
      · intro _
        exact (tcpOpen_opens sys st).connect_owns sys hk
    | tcpPi =>
      constructor
      · intro _ h
        cases h
      · intro _
        exact (tcpPiOpen_opens sys st).connect_owns sys hk

theorem alwaysOwns_iff (sys : Sockets σ) (c : Connector) (calls : List ConnCall)
    {st : St (Ledger σ)} (hk : Owns st) :
    AlwaysOwns sys c calls st ↔ NeverReconnects sys c calls st := by
  induction calls generalizing st with
  | nil => exact Iff.rfl
  | cons call calls ih =>
    rw [AlwaysOwns, NeverReconnects, call.run_owns_iff sys c hk]
    constructor
    · rintro ⟨hcall, hrest⟩
      exact ⟨hcall, (ih ((call.run_owns_iff sys c hk).mpr hcall)).mp hrest⟩
    · rintro ⟨hcall, hrest⟩
      exact ⟨hcall, (ih ((call.run_owns_iff sys c hk).mpr hcall)).mpr hrest⟩

/-- **No descriptor is leaked or lost** by any calls of `modbus_connect` and `modbus_close`, in any
order and whatever fails, if and only if no serial context is connected while it is. -/
theorem descriptors_kept_iff (sys : Sockets σ) (c : Connector) (ctx : Modbus) (e : Errno) (s : σ)
    (calls : List ConnCall) :
    AlwaysOwns sys c calls (disconnected ctx e s) ↔
      NeverReconnects sys c calls (disconnected ctx e s) :=
  alwaysOwns_iff sys c calls (owns_disconnected ctx e s)

/-! ### Two connects -/

theorem not_mem_foldr_max (held : List Nat) (n : Nat) : held.foldr max n + 1 ∉ held := by
  intro h
  have := List.le_max_of_le' n h (le_refl _)
  omega

/-- A system where every call succeeds, and a new descriptor is greater than those that are held. -/
def easySockets : Sockets Unit where
  openDevice held s := (.ok (held.foldr max 2 + 1), s)
  tcgetattr _ s := (none, s)
  cfsetspeed s := (none, s)
  tcsetattr _ s := (none, s)
  getaddrinfo s := (some [true], s)
  socket _ held s := (.ok (held.foldr max 2 + 1), s)
  setsockopt _ _ s := (none, s)
  inetPton s := ((true, none), s)
  connect _ s := (.established, s)
  selectWrite _ _ s := (.ready, s)
  soError _ s := (true, s)
  shutdown _ s := (none, s)
  close _ s := (none, s)
  openDevice_fresh := by
    intro held s fd s' h
    cases h
    exact not_mem_foldr_max held 2
  socket_fresh := by
    intro inet held s fd s' h
    cases h
    exact not_mem_foldr_max held 2

/-- The second connect on a serial context forgets the descriptor of the first. -/
theorem serial_reconnect_leaks :
    (ConnCall.connect.run easySockets .rtu (ConnCall.connect.run easySockets .rtu
        (disconnected (modbusNew .rtu) (.sys (.other 0)) ()))).os.held = [3, 4] ∧
      (ConnCall.connect.run easySockets .rtu (ConnCall.connect.run easySockets .rtu
        (disconnected (modbusNew .rtu) (.sys (.other 0)) ()))).ctx.s = 4 ∧
      ¬ AlwaysOwns easySockets .rtu [.connect, .connect]
        (disconnected (modbusNew .rtu) (.sys (.other 0)) ()) := by
  refine ⟨rfl, rfl, ?_⟩
  rintro ⟨-, ⟨hheld, -⟩, -⟩
  have hslot : ([3, 4] : List Nat) = [4] := hheld
  exact absurd hslot (by decide)

/-! ### The coarse view -/

/-- **Connecting is a call with an outcome.**  Whatever the system does, `modbus_connect` is the
coarse one for a descriptor (or none) and an `errno` that a single call could have left. -/
theorem connect_coarse (sys : Sockets σ) (c : Connector) {st : St (Ledger σ)}
    (hbe : st.ctx.backend = c.backend) (os : Os (Ledger σ)) :
    ∃ connect close, modbusConnect { os with connect := connect, close := close } st =
      c.connect sys st := by
  have htcp : st.ctx.backend = .tcp → ∀ r, Opens st r →
      ∃ connect close, modbusConnect { os with connect := connect, close := close } st =
        (match r with
          | (none, st) => (-1, st)
          | (some s, st) => replaceSocket sys s st) := by
    rintro htcp ⟨- | fd, st'⟩ h
    · obtain ⟨e, he⟩ := Quiet.touched h
      refine ⟨fun _ => ((none, e), st'.os), fun l => (none, l), ?_⟩
      simp only [modbusConnect, ← he]
      rw [Touched.ctx (Quiet.touched h), htcp]
    · obtain ⟨e, he⟩ := Makes.touched h
      refine ⟨fun _ => ((some fd, e), st'.os), fun l => l.close sys.close st'.ctx.s.toNat, ?_⟩
      simp only [modbusConnect, ← he]
      rw [h.touched.ctx, htcp]
      simp only [modbusClose, replaceSocket, closeDescriptor, h.touched.ctx]
      by_cases hs : 0 ≤ st.ctx.s
      · rw [if_pos hs, if_pos hs]
        simp only [St.touch_ctx, h.touched.ctx]
      · rw [if_neg hs, if_neg hs, h.touched.ctx]
  cases c with
  | tcp => exact htcp hbe _ (tcpOpen_opens sys st)
  | tcpPi => exact htcp hbe _ (tcpPiOpen_opens sys st)
  | rtu =>
    obtain ⟨fd, e, l, houtcome, -⟩ := rtuConnect_outcome sys st
    refine ⟨fun _ => ((fd, e), l), fun l => (none, l), ?_⟩
    show _ = rtuConnect sys st
    rw [houtcome]
    rcases st with ⟨⟨backend, slave, s, recovery, quirks, rt, bt, it, tId, flag⟩, errno, l₀⟩
    obtain rfl : backend = .rtu := hbe
    cases fd with
    | none => cases e <;> rfl
    | some fd => cases e <;> rfl

/-- Closing is one call as well. -/
theorem close_coarse (sys : Sockets σ) (c : Connector) (st : St (Ledger σ)) (os : Os (Ledger σ)) :
    ∃ close, modbusClose { os with close := close } st = c.close sys st := by
  have hclose : ∀ f, ∃ close, modbusClose { os with close := close } st =
      if 0 ≤ st.ctx.s then dropDescriptor sys (st.attempt f).2 else st := by
    intro f
    have h := (attempt_quiet f st).touched.trans
      (touched_touch _ ((st.attempt f).2.os.close sys.close st.ctx.s.toNat).1
        ((st.attempt f).2.os.close sys.close st.ctx.s.toNat).2)
    obtain ⟨e, he⟩ := h
    rw [touch_os] at he
    refine ⟨fun _ => (e, ((st.attempt f).2.os.close sys.close st.ctx.s.toNat).2), ?_⟩
    unfold modbusClose
    split_ifs
    · rw [dropDescriptor, closeDescriptor, (attempt_quiet f st).touched.ctx]
      simp only [← he, St.touch_ctx, (attempt_quiet f st).touched.ctx]
    · rfl
  cases c with
  | rtu => exact hclose _
  | tcp => exact hclose _
  | tcpPi => exact hclose _

end Libmodbus
