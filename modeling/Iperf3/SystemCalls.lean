import Iperf3.Contracts
import Iperf3.Descriptors
import Mathlib.Tactic

/-!
# Programs made of system calls

A program asks the system, which may answer every call as it likes.  What is
kept here is what has been opened and not yet closed, the two error numbers,
and the record of the calls with their answers, the newest first.

The error numbers are those of POSIX.  In the build for Windows only the calls
that it wraps (`fcntl`, `poll`, `write` and `close`) set `errno`; the others
leave their error to `WSAGetLastError`, which the program does not ask.
-/

namespace Iperf3

inductive AddressFamily where
  | unspec
  | inet
  | inet6
  | other
  deriving DecidableEq, Repr

inductive SocketType where
  | stream
  | dgram
  deriving DecidableEq, Repr

inductive SocketOption where
  | bindToDevice (device : String)
  | reuseAddr
  | v6Only
  | nodelay
  | maxseg
  | rcvbuf
  | sndbuf
  | userTimeout
  | flowlabelMgr
  | flowinfoSend
  | maxPacingRate
  | tclass
  | tos
  | error
  deriving DecidableEq, Repr

/-- An address list that `getaddrinfo` has allocated, by its number, and the
family of its first element. -/
structure AddrInfo where
  number : ℕ
  family : AddressFamily
  deriving DecidableEq, Repr

/-- Either the first address of a list, perhaps with its port overwritten, or
the wildcard address of a family. -/
inductive SockAddr where
  | resolved (list : AddrInfo) (port : Option ℤ)
  | any (family : AddressFamily) (port : ℤ)
  deriving DecidableEq, Repr

def SockAddr.lists : SockAddr → Multiset ℕ
  | .resolved list _ => {list.number}
  | .any _ _ => 0

inductive SystemCall where
  | getaddrinfo (node : Option String) (service : Option ℤ) (family : AddressFamily)
      (socktype : SocketType) (isPassive : Bool)
  | socket (family : AddressFamily) (socktype : SocketType) (protocol : ℤ)
  | setsockopt (s : ℕ) (option : SocketOption) (value : ℤ)
  | getsockopt (s : ℕ) (option : SocketOption)
  | getsockname (s : ℕ)
  | bind (s : ℕ) (name : SockAddr)
  | listen (s : ℕ)
  | connect (s : ℕ) (name : SockAddr)
  | poll (s : ℕ) (timeout : ℤ)
  | getFlags (s : ℕ)
  | setFlags (s : ℕ) (flags : ℤ) (nonblock : Bool)
  | write (s : ℕ)
  deriving DecidableEq, Repr

namespace SystemCall

def sockets : SystemCall → Multiset ℕ
  | .getaddrinfo .. => 0
  | .socket .. => 0
  | .setsockopt s _ _ => {s}
  | .getsockopt s _ => {s}
  | .getsockname s => {s}
  | .bind s _ => {s}
  | .listen s => {s}
  | .connect s _ => {s}
  | .poll s _ => {s}
  | .getFlags s => {s}
  | .setFlags s _ _ => {s}
  | .write s => {s}

def lists : SystemCall → Multiset ℕ
  | .bind _ name => name.lists
  | .connect _ name => name.lists
  | _ => 0

end SystemCall

structure CallRecord where
  call : SystemCall
  answer : Except ℤ ℤ

/-- The answers of the system may depend on everything that was asked before.
A number that it hands out is not in use, and closing something may leave
anything in `errno`. -/
structure Kernel where
  answer : List CallRecord → SystemCall → Except ℤ ℤ
  number : List CallRecord → Finset ℕ → ℕ
  fresh : ∀ calls opened, number calls opened ∉ opened
  family : List CallRecord → AddressFamily
  disturbed : List CallRecord → ℤ → ℤ
  einprogress : ℤ
  etimedout : ℤ
  eafnosupport : ℤ
  enotsup : ℤ
  afInet6 : ℤ

/-- Whether a call has named something that was not open is remembered in
`strayed`. -/
structure SystemState (ε : Type) where
  sockets : Descriptors
  lists : Descriptors
  strayed : Bool
  errno : ℤ
  gerror : ℤ
  iErrno : ε
  calls : List CallRecord

/-- A function of C that gives up by returning -1. -/
abbrev Program (ε α : Type) : Type :=
  Fallible (SystemState ε) α

namespace SystemState

variable {ε : Type}

def strays (c : SystemCall) (p : SystemState ε) : Bool :=
  decide (¬ (c.sockets.toFinset ⊆ p.sockets.opened ∧ c.lists.toFinset ⊆ p.lists.opened))

def record (c : SystemCall) (answer : Except ℤ ℤ) (p : SystemState ε) : SystemState ε :=
  { p with
    strayed := p.strayed || p.strays c
    calls := ⟨c, answer⟩ :: p.calls }

/-- `getaddrinfo` returns its error, the other calls of POSIX leave theirs in
`errno`. -/
def fail (c : SystemCall) (error : ℤ) (p : SystemState ε) : SystemState ε :=
  match c with
  | .getaddrinfo .. => { p with gerror := error }
  | _ => { p with errno := error }

end SystemState

namespace Kernel

variable {ε α : Type} (k : Kernel)

/-- The call with what becomes of its answer. -/
def ask (c : SystemCall) (use : ℤ → SystemState ε → Option α × SystemState ε) : Program ε α :=
  fun p =>
    match k.answer p.calls c with
    | .ok value => use value (p.record c (.ok value))
    | .error error => (none, (p.record c (.error error)).fail c error)

def syscall (c : SystemCall) : Program ε ℤ :=
  k.ask c fun value p => (some value, p)

/-- A call whose answer is not used. -/
def request (c : SystemCall) : Program ε Unit :=
  k.ask c fun _ p => (some (), p)

def getaddrinfo (node : Option String) (service : Option ℤ) (family : AddressFamily)
    (socktype : SocketType) (isPassive : Bool) : Program ε AddrInfo :=
  k.ask (.getaddrinfo node service family socktype isPassive) fun _ p =>
    let n := k.number p.calls p.lists.opened
    (some ⟨n, k.family p.calls⟩, { p with gerror := 0, lists := p.lists.obtain n })

def socket (family : AddressFamily) (socktype : SocketType) (protocol : ℤ) : Program ε ℕ :=
  k.ask (.socket family socktype protocol) fun _ p =>
    let s := k.number p.calls p.sockets.opened
    (some s, { p with sockets := p.sockets.obtain s })

def freeaddrinfo (p : SystemState ε) (list : AddrInfo) : SystemState ε :=
  { p with
    lists := p.lists.close list.number
    errno := k.disturbed p.calls p.errno }

def freeaddrinfos (lists : List AddrInfo) (p : SystemState ε) : SystemState ε :=
  lists.foldl k.freeaddrinfo p

def close (s : ℕ) (p : SystemState ε) : SystemState ε :=
  { p with
    sockets := p.sockets.close s
    errno := k.disturbed p.calls p.errno }

/-- What a program closes before it gives up, with `errno` saved over it. -/
def abandon (s : ℕ) (lists : List AddrInfo) (p : SystemState ε) : SystemState ε :=
  { k.freeaddrinfos lists (k.close s p) with errno := p.errno }

end Kernel

/-! ## What is held -/

/-- Why a program gives up: a call has failed, the program itself refuses with
an error or because of the family of an address, or the answer of a call is
below what was wanted. -/
inductive Reason where
  | refused (c : SystemCall)
  | unsupported (error : ℤ)
  | wrongFamily (family : AddressFamily)
  | insufficient (c : SystemCall) (value wanted : ℤ)
  deriving DecidableEq, Repr

/-- Nothing is expected of `errno`. -/
def SystemCall.Durable : SystemCall → Prop
  | .getaddrinfo .. => True
  | .socket .. => True
  | .listen _ => True
  | _ => False

def Reason.Durable : Reason → Prop
  | .refused c => c.Durable
  | .unsupported _ => False
  | .wrongFamily _ => True
  | .insufficient _ _ _ => True

namespace SystemState

variable {ε : Type}

/-- These sockets and lists have been opened since, nothing that was open
before has been closed, and every call was about something open. -/
structure Holding (before : SystemState ε) (ss ls : Multiset ℕ) (p : SystemState ε) : Prop where
  sockets : before.sockets.Adds ss p.sockets
  lists : before.lists.Adds ls p.lists
  strayed : p.strayed = before.strayed

/-- Where the error of a call is found.  The errors of `socket` and `listen`
may be lost, since something is closed or freed before `errno` is saved. -/
def Keeps (c : SystemCall) (error : ℤ) (p : SystemState ε) : Prop :=
  match c with
  | .getaddrinfo .. => p.gerror = error
  | .socket .. => True
  | .listen _ => True
  | _ => p.errno = error

def Answered (c : SystemCall) (value : ℤ) (p : SystemState ε) : Prop :=
  ∃ rest, p.calls = ⟨c, .ok value⟩ :: rest

/-- The reason stands in the record of the calls, and its error can be read. -/
def Blames (reason : Reason) (p : SystemState ε) : Prop :=
  match reason with
  | .refused c => ∃ error rest, p.calls = ⟨c, .error error⟩ :: rest ∧ p.Keeps c error
  | .unsupported error => p.errno = error
  | .wrongFamily family => family ≠ .inet6
  | .insufficient c value wanted => p.Answered c value ∧ value < wanted

variable {before p q : SystemState ε} {ss ls : Multiset ℕ} {c : SystemCall} {reason : Reason}

theorem Holding.refl (p : SystemState ε) : p.Holding 0 0 p :=
  ⟨Descriptors.Adds.refl _, Descriptors.Adds.refl _, rfl⟩

/-- Nothing is left behind. -/
theorem holding_zero_iff :
    before.Holding 0 0 p ↔
      p.sockets = before.sockets ∧ p.lists = before.lists ∧ p.strayed = before.strayed := by
  constructor
  · intro h
    exact ⟨Descriptors.adds_zero_iff.mp h.sockets, Descriptors.adds_zero_iff.mp h.lists,
      h.strayed⟩
  · rintro ⟨hsockets, hlists, hstrayed⟩
    exact ⟨Descriptors.adds_zero_iff.mpr hsockets, Descriptors.adds_zero_iff.mpr hlists, hstrayed⟩

/-- A change of the error numbers and of the record of the calls. -/
theorem Holding.same (h : before.Holding ss ls p) (hsockets : q.sockets = p.sockets)
    (hlists : q.lists = p.lists) (hstrayed : q.strayed = p.strayed) :
    before.Holding ss ls q where
  sockets := by rw [hsockets]; exact h.sockets
  lists := by rw [hlists]; exact h.lists
  strayed := hstrayed.trans h.strayed

theorem Holding.record (h : before.Holding ss ls p) (hs : c.sockets ≤ ss) (hl : c.lists ≤ ls)
    (answer : Except ℤ ℤ) : before.Holding ss ls (p.record c answer) where
  sockets := h.sockets
  lists := h.lists
  strayed := by
    have hopen : p.strays c = false := by
      simp [strays, h.sockets.subset hs, h.lists.subset hl]
    simp [SystemState.record, hopen, h.strayed]

theorem Holding.fail (h : before.Holding ss ls p) (error : ℤ) :
    before.Holding ss ls (p.fail c error) := by
  unfold SystemState.fail
  split
  · exact h.same rfl rfl rfl
  · exact h.same rfl rfl rfl

theorem blames_fail (c : SystemCall) (error : ℤ) (p : SystemState ε) :
    ((p.record c (.error error)).fail c error).Blames (.refused c) := by
  cases c with
  | socket => exact ⟨error, p.calls, rfl, trivial⟩
  | listen => exact ⟨error, p.calls, rfl, trivial⟩
  | _ => exact ⟨error, p.calls, rfl, rfl⟩

theorem Keeps.same {error : ℤ} (h : p.Keeps c error) (hgerror : q.gerror = p.gerror)
    (herrno : q.errno = p.errno ∨ c.Durable) : q.Keeps c error := by
  cases c with
  | getaddrinfo => exact hgerror.trans h
  | socket => trivial
  | listen => trivial
  | _ =>
      rcases herrno with herrno | hdurable
      · exact herrno.trans h
      · exact hdurable.elim

theorem Blames.same (h : p.Blames reason) (hcalls : q.calls = p.calls)
    (hgerror : q.gerror = p.gerror) (herrno : q.errno = p.errno ∨ reason.Durable) :
    q.Blames reason := by
  cases reason with
  | refused c =>
      obtain ⟨error, rest, hlast, hkept⟩ := h
      exact ⟨error, rest, hcalls.trans hlast, hkept.same hgerror herrno⟩
  | unsupported error =>
      rcases herrno with herrno | hdurable
      · exact herrno.trans h
      · exact hdurable.elim
  | wrongFamily family => exact h
  | insufficient c value wanted =>
      obtain ⟨⟨rest, hlast⟩, hless⟩ := h
      exact ⟨⟨rest, hcalls.trans hlast⟩, hless⟩

end SystemState

/-! ## What the calls do -/

namespace Kernel

variable {ε α : Type} (k : Kernel) {before : SystemState ε} {ss ls : Multiset ℕ}

open SystemState

theorem ask_contract {c : SystemCall} {use : ℤ → SystemState ε → Option α × SystemState ε}
    {Q : α → SystemState ε → Prop} (hs : c.sockets ≤ ss) (hl : c.lists ≤ ls)
    (huse : ∀ value p, before.Holding ss ls p → p.Answered c value →
      ∃ a q, use value p = (some a, q) ∧ Q a q) :
    Contract (before.Holding ss ls) (k.ask c use) Q
      fun p => before.Holding ss ls p ∧ p.Blames (.refused c) where
  returns p a q hp hrun := by
    unfold ask at hrun
    cases hanswer : k.answer p.calls c with
    | error error => simp [hanswer] at hrun
    | ok value =>
        have hrecorded := hp.record hs hl (.ok value)
        obtain ⟨a', q', huses, hq⟩ := huse value _ hrecorded ⟨p.calls, rfl⟩
        rw [hanswer] at hrun
        have hsame : (some a', q') = (some a, q) := huses.symm.trans hrun
        cases hsame
        exact hq
  givesUp p q hp hrun := by
    unfold ask at hrun
    cases hanswer : k.answer p.calls c with
    | error error =>
        rw [hanswer] at hrun
        cases hrun
        exact ⟨(hp.record hs hl _).fail error, blames_fail c error p⟩
    | ok value =>
        have hrecorded := hp.record hs hl (.ok value)
        obtain ⟨a', q', huses, hq⟩ := huse value _ hrecorded ⟨p.calls, rfl⟩
        rw [hanswer] at hrun
        have hsame : (some a', q') = (none, q) := huses.symm.trans hrun
        cases hsame

theorem syscall_contract {c : SystemCall} (hs : c.sockets ≤ ss) (hl : c.lists ≤ ls) :
    Contract (before.Holding ss ls) (k.syscall c)
      (fun value p => before.Holding ss ls p ∧ p.Answered c value)
      fun p => before.Holding ss ls p ∧ p.Blames (.refused c) :=
  k.ask_contract hs hl fun value p hp hanswered => ⟨value, p, rfl, hp, hanswered⟩

theorem request_contract {c : SystemCall} (hs : c.sockets ≤ ss) (hl : c.lists ≤ ls) :
    Contract (before.Holding ss ls) (k.request c) (fun _ => before.Holding ss ls)
      fun p => before.Holding ss ls p ∧ p.Blames (.refused c) :=
  k.ask_contract hs hl fun _ p hp _ => ⟨(), p, rfl, hp⟩

theorem getaddrinfo_contract (node : Option String) (service : Option ℤ) (family : AddressFamily)
    (socktype : SocketType) (isPassive : Bool) :
    Contract (before.Holding ss ls) (k.getaddrinfo node service family socktype isPassive)
      (fun list => before.Holding ss (list.number ::ₘ ls))
      fun p => before.Holding ss ls p ∧
        p.Blames (.refused (.getaddrinfo node service family socktype isPassive)) := by
  apply k.ask_contract (Multiset.zero_le ss) (Multiset.zero_le ls)
  intro value p hp hanswered
  exact ⟨_, _, rfl, hp.sockets, hp.lists.obtain (k.fresh _ _), hp.strayed⟩

theorem socket_contract (family : AddressFamily) (socktype : SocketType) (protocol : ℤ) :
    Contract (before.Holding ss ls) (k.socket family socktype protocol)
      (fun s => before.Holding (s ::ₘ ss) ls)
      fun p => before.Holding ss ls p ∧
        p.Blames (.refused (.socket family socktype protocol)) := by
  apply k.ask_contract (Multiset.zero_le ss) (Multiset.zero_le ls)
  intro value p hp hanswered
  exact ⟨_, _, rfl, hp.sockets.obtain (k.fresh _ _), hp.lists, hp.strayed⟩

variable {p : SystemState ε} {k}

theorem close_holding {s : ℕ} (h : before.Holding (s ::ₘ ss) ls p) :
    before.Holding ss ls (k.close s p) :=
  ⟨h.sockets.close, h.lists, h.strayed⟩

theorem freeaddrinfos_holding (lists : List AddrInfo)
    (h : before.Holding ss (lists.map AddrInfo.number) p) :
    before.Holding ss 0 (k.freeaddrinfos lists p) := by
  induction lists generalizing p with
  | nil => exact h
  | cons list lists ih =>
      apply ih
      exact ⟨h.sockets, h.lists.close, h.strayed⟩

@[simp]
theorem freeaddrinfos_calls (lists : List AddrInfo) (p : SystemState ε) :
    (k.freeaddrinfos lists p).calls = p.calls := by
  induction lists generalizing p with
  | nil => rfl
  | cons list lists ih => exact ih (k.freeaddrinfo p list)

@[simp]
theorem freeaddrinfos_gerror (lists : List AddrInfo) (p : SystemState ε) :
    (k.freeaddrinfos lists p).gerror = p.gerror := by
  induction lists generalizing p with
  | nil => rfl
  | cons list lists ih => exact ih (k.freeaddrinfo p list)

theorem freeaddrinfos_blames {reason : Reason} (lists : List AddrInfo) (h : p.Blames reason)
    (hdurable : reason.Durable) : (k.freeaddrinfos lists p).Blames reason :=
  h.same (freeaddrinfos_calls lists p) (freeaddrinfos_gerror lists p) (.inr hdurable)

theorem abandon_holding {s : ℕ} (lists : List AddrInfo)
    (h : before.Holding {s} (lists.map AddrInfo.number) p) :
    before.Holding 0 0 (k.abandon s lists p) := by
  have hclosed : before.Holding 0 (lists.map AddrInfo.number) (k.close s p) :=
    close_holding h
  exact (freeaddrinfos_holding lists hclosed).same rfl rfl rfl

theorem abandon_blames {reason : Reason} (s : ℕ) (lists : List AddrInfo) (h : p.Blames reason) :
    (k.abandon s lists p).Blames reason := by
  apply h.same
  · exact freeaddrinfos_calls lists (k.close s p)
  · exact freeaddrinfos_gerror lists (k.close s p)
  · exact .inl rfl

end Kernel

end Iperf3
