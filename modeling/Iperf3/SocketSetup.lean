import Iperf3.SystemCalls
import Iperf3.TestModel

/-!
# The sockets of a test, call by call

How `net.c` makes a socket that is bound, connected or announced.  Every way
out of these programs is here, with what is closed and freed on it.
-/

namespace Iperf3

namespace SocketSetup

open Fallible

structure SocketBuild extends Build where
  haveSoBindtodevice : Bool
  haveTcpUserTimeout : Bool

variable {ε α : Type} (b : SocketBuild) (k : Kernel)

/-- Something is undone before the program gives up. -/
def giveUpAfter (u : SystemState ε → SystemState ε) : Program ε α := do
  update u
  giveUp

def bindToDevice (s : ℕ) (device : String) : Program ε Unit :=
  if b.haveSoBindtodevice then k.request (.setsockopt s (.bindToDevice device) 0)
  else giveUpAfter fun p => { p with errno := k.enotsup }

def localAddress (domain : AddressFamily) (type : SocketType) :
    Option String → Program ε (Option AddrInfo)
  | none => pure none
  | some name => do
      let list ← k.getaddrinfo (some name) none domain type false
      return some list

/-- The address of the local name, or the wildcard address if only a port is
given. -/
def bindLocal (s : ℕ) (localPort : ℤ) (serverRes : AddrInfo) : Option AddrInfo → Program ε Unit
  | some list => do
      let port := if localPort = 0 then none else some localPort
      (k.request (.bind s (.resolved list port))).otherwise
        (giveUpAfter (k.abandon s [list, serverRes]))
      update (k.freeaddrinfos [list])
  | none =>
      provided (localPort ≠ 0) <|
        if serverRes.family = .inet ∨ serverRes.family = .inet6 then
          (k.request (.bind s (.any serverRes.family localPort))).otherwise
            (giveUpAfter (k.abandon s [serverRes]))
        else
          giveUpAfter fun p =>
            { k.freeaddrinfos [serverRes] (k.close s p) with errno := k.eafnosupport }

/-- Freeing the list of a local name that was not given does nothing. -/
def createSocket (domain : AddressFamily) (type : SocketType) (proto : ℤ)
    (localName bindDev : Option String) (localPort : ℤ) (server : String) (port : ℤ) :
    Program ε (ℕ × AddrInfo) := do
  let localRes ← localAddress k domain type localName
  let serverRes ← (k.getaddrinfo (some server) (some port) domain type false).otherwise
    (giveUpAfter (k.freeaddrinfos localRes.toList))
  let s ← (k.socket serverRes.family type proto).otherwise
    (giveUpAfter (k.freeaddrinfos (localRes.toList ++ [serverRes])))
  whenGiven bindDev fun device =>
    (bindToDevice b k s device).otherwise
      (giveUpAfter (k.abandon s (localRes.toList ++ [serverRes])))
  bindLocal k s localPort serverRes localRes
  return (s, serverRes)

/-! ## Connecting -/

/-- The wait for a connection that is in progress. -/
def awaitConnection (s : ℕ) (timeout : ℤ) : Program ε Unit := do
  let ready ← k.syscall (.poll s timeout)
  if ready = 1 then do
    let optval ← k.syscall (.getsockopt s .error)
    update fun p => { p with errno := optval }
    if optval = 0 then pure () else giveUp
  else if ready = 0 then giveUpAfter fun p => { p with errno := k.etimedout }
  else giveUp

def connectWithin (s : ℕ) (name : SockAddr) (timeout : ℤ) : Program ε Unit :=
  (k.request (.connect s name)).otherwise <|
    reading fun p => if p.errno = k.einprogress then awaitConnection k s timeout else giveUp

/-- `F_GETFL` fails with -1, which is then used as the flags. -/
def timeoutConnect (s : ℕ) (name : SockAddr) (timeout : ℤ) : Program ε Unit :=
  if timeout = -1 then connectWithin k s name timeout
  else do
    let flags ← (k.syscall (.getFlags s)).otherwise (pure (-1))
    k.request (.setFlags s flags true)
    let connected ← (do connectWithin k s name timeout; return true).otherwise (pure false)
    k.request (.setFlags s flags false)
    if connected then pure () else giveUp

def netdial (domain : AddressFamily) (proto : SocketType) (localName bindDev : Option String)
    (localPort : ℤ) (server : String) (port timeout : ℤ) : Program ε ℕ := do
  let (s, serverRes) ← createSocket b k domain proto 0 localName bindDev localPort server port
  (timeoutConnect k s (.resolved serverRes none) timeout).otherwise <|
    reading fun p =>
      if p.errno = k.einprogress then pure () else giveUpAfter (k.abandon s [serverRes])
  update (k.freeaddrinfos [serverRes])
  return s

/-! ## Announcing -/

def netannounce (domain : AddressFamily) (proto : SocketType) (localName bindDev : Option String)
    (port : ℤ) : Program ε ℕ := do
  let family := if domain = .unspec ∧ localName.isNone then .inet6 else domain
  let res ← k.getaddrinfo localName (some port) family proto true
  let s ← (k.socket res.family proto 0).otherwise (giveUpAfter (k.freeaddrinfos [res]))
  whenGiven bindDev fun device =>
    if b.haveSoBindtodevice then
      (k.request (.setsockopt s (.bindToDevice device) 0)).otherwise
        (giveUpAfter (k.abandon s [res]))
    else giveUpAfter (k.abandon s [res])
  (k.request (.setsockopt s .reuseAddr 1)).otherwise (giveUpAfter (k.abandon s [res]))
  provided (res.family = .inet6 ∧ (domain = .unspec ∨ domain = .inet6)) <|
    (k.request (.setsockopt s .v6Only (if domain = .unspec then 0 else 1))).otherwise
      (giveUpAfter (k.abandon s [res]))
  (k.request (.bind s (.resolved res none))).otherwise (giveUpAfter (k.abandon s [res]))
  update (k.freeaddrinfos [res])
  provided (proto = .stream) <|
    (k.request (.listen s)).otherwise (giveUpAfter (k.abandon s []))
  return s

/-! ## Nothing is left behind -/

/-- Why no socket is made. -/
def IsCreation : Reason → Prop
  | .refused (.getaddrinfo ..) => True
  | .refused (.socket ..) => True
  | .refused (.setsockopt _ (.bindToDevice _) _) => True
  | .refused (.bind ..) => True
  | .unsupported _ => True
  | _ => False

/-- These are still held, and there is a reason to give up. -/
def Stopped (before : SystemState ε) (ss ls : Multiset ℕ) (p : SystemState ε) : Prop :=
  before.Holding ss ls p ∧ ∃ reason, IsCreation reason ∧ p.Blames reason

section Contracts

variable {b k} {before : SystemState ε} {s : ℕ} {ls : Multiset ℕ}

theorem stopped_of_refused {c : SystemCall} (hc : IsCreation (.refused c)) {p : SystemState ε}
    {ss ls : Multiset ℕ} (h : before.Holding ss ls p ∧ p.Blames (.refused c)) :
    Stopped before ss ls p :=
  ⟨h.1, _, hc, h.2⟩

theorem request_stops {c : SystemCall} {ss ls : Multiset ℕ} (hc : IsCreation (.refused c))
    (hs : c.sockets ≤ ss) (hl : c.lists ≤ ls) :
    Contract (before.Holding ss ls) (k.request c) (fun _ => before.Holding ss ls)
      (Stopped before ss ls) :=
  (k.request_contract hs hl).weaken (fun _ h => h) (fun _ _ h => h) fun _ => stopped_of_refused hc

theorem giveUpAfter_contract {P E : SystemState ε → Prop} {Q : α → SystemState ε → Prop}
    {u : SystemState ε → SystemState ε} (h : ∀ p, P p → E (u p)) : Contract P (giveUpAfter u) Q E :=
  (Contract.update (Q := fun _ => E) h).seq (Contract.giveUp fun _ hp => hp)

theorem abandon_holds (lists : List AddrInfo) {Q : α → SystemState ε → Prop} :
    Contract (before.Holding {s} (lists.map AddrInfo.number))
      (giveUpAfter (k.abandon s lists)) Q (before.Holding 0 0) :=
  giveUpAfter_contract fun _ => Kernel.abandon_holding lists

theorem abandon_contract {lists : List AddrInfo} {Q : α → SystemState ε → Prop} :
    Contract (Stopped before {s} (lists.map AddrInfo.number))
      (giveUpAfter (k.abandon s lists)) Q (Stopped before 0 0) := by
  apply giveUpAfter_contract
  rintro p ⟨hp, reason, hcreation, hreason⟩
  exact ⟨Kernel.abandon_holding lists hp, reason, hcreation, Kernel.abandon_blames s lists hreason⟩

/-- What is done when `getaddrinfo` or `socket` has failed. -/
theorem freeAll_contract {c : SystemCall} {Q : α → SystemState ε → Prop} (lists : List AddrInfo)
    (hc : IsCreation (.refused c)) (hdurable : c.Durable) :
    Contract
      (fun p => before.Holding 0 (lists.map AddrInfo.number) p ∧ p.Blames (.refused c))
      (giveUpAfter (k.freeaddrinfos lists)) Q (Stopped before 0 0) := by
  apply giveUpAfter_contract
  intro p hp
  have hblames := Kernel.freeaddrinfos_blames (k := k) lists hp.2 hdurable
  exact ⟨Kernel.freeaddrinfos_holding lists hp.1, .refused c, hc, hblames⟩

/-- A call about the new socket, which is closed with every list if it fails. -/
theorem step_contract {c : SystemCall} {lists : List AddrInfo} (hc : IsCreation (.refused c))
    (hs : c.sockets ≤ {s}) (hl : c.lists ≤ lists.map AddrInfo.number) :
    Contract (before.Holding {s} (lists.map AddrInfo.number))
      ((k.request c).otherwise (giveUpAfter (k.abandon s lists)))
      (fun _ => before.Holding {s} (lists.map AddrInfo.number)) (Stopped before 0 0) :=
  (request_stops hc hs hl).otherwise abandon_contract

theorem localAddress_contract (domain : AddressFamily) (type : SocketType)
    (localName : Option String) :
    Contract (before.Holding 0 0) (localAddress k domain type localName)
      (fun localRes => before.Holding 0 (localRes.toList.map AddrInfo.number))
      (Stopped before 0 0) := by
  cases localName with
  | none => exact Contract.pure fun p hp => hp
  | some name =>
      have hlist : Contract (before.Holding 0 0) _ _ _ :=
        k.getaddrinfo_contract (some name) none domain type false
      have hstopped : ∀ p : SystemState ε, _ → Stopped before 0 0 p := fun p =>
        stopped_of_refused (c := .getaddrinfo (some name) none domain type false) trivial
      apply (hlist.weaken (fun _ h => h) (fun _ _ h => h) hstopped).bind
      exact fun list => Contract.pure fun p hp => hp

theorem bindToDevice_contract (device : String) :
    Contract (before.Holding {s} ls) (bindToDevice b k s device)
      (fun _ => before.Holding {s} ls) (Stopped before {s} ls) := by
  unfold bindToDevice
  split_ifs
  · exact request_stops (c := .setsockopt s (.bindToDevice device) 0) trivial le_rfl
      (Multiset.zero_le ls)
  · apply giveUpAfter_contract
    intro p hp
    exact ⟨hp.same rfl rfl rfl, .unsupported k.enotsup, trivial, rfl⟩

theorem bindLocal_contract (localPort : ℤ) (serverRes : AddrInfo) (localRes : Option AddrInfo) :
    Contract (before.Holding {s} ((localRes.toList ++ [serverRes]).map AddrInfo.number))
      (bindLocal k s localPort serverRes localRes)
      (fun _ => before.Holding {s} {serverRes.number}) (Stopped before 0 0) := by
  cases localRes with
  | none =>
      apply Contract.provided
      · intro _
        split_ifs
        · exact step_contract (c := .bind s (.any _ _)) trivial le_rfl (Multiset.zero_le _)
        · apply giveUpAfter_contract
          intro p hp
          have hclosed : before.Holding 0 ([serverRes].map AddrInfo.number) (k.close s p) :=
            Kernel.close_holding hp
          have hfreed := Kernel.freeaddrinfos_holding (k := k) [serverRes] hclosed
          exact ⟨hfreed.same rfl rfl rfl, .unsupported k.eafnosupport, trivial, rfl⟩
      · exact fun _ p hp => hp
  | some list =>
      apply Contract.seq (Q := fun _ =>
        before.Holding {s} ([list, serverRes].map AddrInfo.number))
      · exact step_contract (c := .bind s (.resolved list _)) trivial le_rfl
          (Multiset.singleton_le.mpr (List.mem_cons_self ..))
      · apply Contract.update
        intro p hp
        exact ⟨hp.sockets, hp.lists.close, hp.strayed⟩

theorem getaddrinfo_or_free (lists : List AddrInfo) (node : Option String) (service : Option ℤ)
    (family : AddressFamily) (type : SocketType) (isPassive : Bool) :
    Contract (before.Holding 0 (lists.map AddrInfo.number))
      ((k.getaddrinfo node service family type isPassive).otherwise
        (giveUpAfter (k.freeaddrinfos lists)))
      (fun list => before.Holding 0 ((lists ++ [list]).map AddrInfo.number))
      (Stopped before 0 0) := by
  apply Contract.otherwise _
    (freeAll_contract (c := .getaddrinfo node service family type isPassive) lists trivial trivial)
  apply (k.getaddrinfo_contract node service family type isPassive).weaken (fun _ h => h) _
    fun _ h => h
  intro list p hp
  have hsame : (((lists ++ [list]).map AddrInfo.number : List ℕ) : Multiset ℕ) =
      list.number ::ₘ (lists.map AddrInfo.number : List ℕ) := by
    rw [List.map_append]
    exact Multiset.coe_eq_coe.mpr (List.perm_append_singleton _ _)
  rw [hsame]
  exact hp

theorem socket_or_free (lists : List AddrInfo) (family : AddressFamily) (type : SocketType)
    (proto : ℤ) :
    Contract (before.Holding 0 (lists.map AddrInfo.number))
      ((k.socket family type proto).otherwise (giveUpAfter (k.freeaddrinfos lists)))
      (fun s => before.Holding {s} (lists.map AddrInfo.number)) (Stopped before 0 0) := by
  apply (k.socket_contract family type proto).otherwise
  exact freeAll_contract (c := .socket family type proto) lists trivial trivial

theorem createSocket_contract (domain : AddressFamily) (type : SocketType) (proto : ℤ)
    (localName bindDev : Option String) (localPort : ℤ) (server : String) (port : ℤ) :
    Contract (before.Holding 0 0)
      (createSocket b k domain type proto localName bindDev localPort server port)
      (fun r => before.Holding {r.1} {r.2.number}) (Stopped before 0 0) := by
  unfold createSocket
  apply (localAddress_contract domain type localName).bind
  intro localRes
  apply (getaddrinfo_or_free localRes.toList (some server) (some port) domain type false).bind
  intro serverRes
  apply (socket_or_free (localRes.toList ++ [serverRes]) serverRes.family type proto).bind
  intro s
  apply Contract.seq
  · apply Contract.whenGiven (Q := fun _ =>
      before.Holding {s} ((localRes.toList ++ [serverRes]).map AddrInfo.number))
    · intro device
      exact (bindToDevice_contract device).otherwise abandon_contract
    · exact fun p hp => hp
  · apply (bindLocal_contract localPort serverRes localRes).seq
    exact Contract.pure fun p hp => hp

theorem request_holds {c : SystemCall} {ss ls : Multiset ℕ} (hs : c.sockets ≤ ss)
    (hl : c.lists ≤ ls) :
    Contract (before.Holding ss ls) (k.request c) (fun _ => before.Holding ss ls)
      (before.Holding ss ls) :=
  (k.request_contract hs hl).weaken (fun _ h => h) (fun _ _ h => h) fun _ h => h.1

theorem syscall_holds {c : SystemCall} {ss ls : Multiset ℕ} (hs : c.sockets ≤ ss)
    (hl : c.lists ≤ ls) :
    Contract (before.Holding ss ls) (k.syscall c) (fun _ => before.Holding ss ls)
      (before.Holding ss ls) :=
  (k.syscall_contract hs hl).weaken (fun _ h => h) (fun _ _ h => h.1) fun _ h => h.1

theorem awaitConnection_contract (timeout : ℤ) :
    Contract (before.Holding {s} ls) (awaitConnection k s timeout)
      (fun _ => before.Holding {s} ls) (before.Holding {s} ls) := by
  apply (syscall_holds (c := .poll s timeout) le_rfl (Multiset.zero_le ls)).bind
  intro ready
  split_ifs
  · apply (syscall_holds (c := .getsockopt s .error) le_rfl (Multiset.zero_le ls)).bind
    intro optval
    apply Contract.seq (Q := fun _ => before.Holding {s} ls)
    · exact Contract.update fun p hp => hp.same rfl rfl rfl
    · split_ifs
      · exact Contract.pure fun p hp => hp
      · exact Contract.giveUp fun p hp => hp
  · exact giveUpAfter_contract fun p hp => hp.same rfl rfl rfl
  · exact Contract.giveUp fun p hp => hp

theorem connectWithin_contract {name : SockAddr} (timeout : ℤ) (hname : name.lists ≤ ls) :
    Contract (before.Holding {s} ls) (connectWithin k s name timeout)
      (fun _ => before.Holding {s} ls) (before.Holding {s} ls) := by
  apply (request_holds (c := .connect s name) le_rfl hname).otherwise
  apply Contract.reading
  intro p
  split_ifs
  · exact (awaitConnection_contract timeout).weaken (fun _ h => h.2) (fun _ _ h => h) fun _ h => h
  · exact Contract.giveUp fun _ h => h.2

theorem timeoutConnect_contract (name : SockAddr) (timeout : ℤ) (hname : name.lists ≤ ls) :
    Contract (before.Holding {s} ls) (timeoutConnect k s name timeout)
      (fun _ => before.Holding {s} ls) (before.Holding {s} ls) := by
  unfold timeoutConnect
  split_ifs
  · exact connectWithin_contract timeout hname
  · apply ((syscall_holds (c := .getFlags s) le_rfl (Multiset.zero_le ls)).otherwise
      (Contract.pure fun _ h => h)).bind
    intro flags
    have hset : ∀ nonblock, Contract (before.Holding {s} ls)
        (k.request (.setFlags s flags nonblock)) (fun _ => before.Holding {s} ls)
        (before.Holding {s} ls) := fun nonblock =>
      request_holds (c := .setFlags s flags nonblock) le_rfl (Multiset.zero_le ls)
    apply (hset true).seq
    apply Contract.bind (Q := fun _ => before.Holding {s} ls)
    · apply Contract.otherwise (F := before.Holding {s} ls)
      · exact (connectWithin_contract timeout hname).seq (Contract.pure fun _ h => h)
      · exact Contract.pure fun _ h => h
    · intro connected
      apply (hset false).seq
      split_ifs
      · exact Contract.pure fun _ h => h
      · exact Contract.giveUp fun _ h => h

theorem netdial_contract (domain : AddressFamily) (proto : SocketType)
    (localName bindDev : Option String) (localPort : ℤ) (server : String) (port timeout : ℤ) :
    Contract (before.Holding 0 0)
      (netdial b k domain proto localName bindDev localPort server port timeout)
      (fun s => before.Holding {s} 0) (before.Holding 0 0) := by
  unfold netdial
  have hcreated : Contract (before.Holding 0 0) _ _ _ :=
    createSocket_contract (b := b) (k := k) domain proto 0 localName bindDev localPort server port
  apply (hcreated.weaken (fun _ h => h) (fun _ _ h => h) fun _ h => h.1).bind
  rintro ⟨s, serverRes⟩
  apply Contract.seq (Q := fun _ => before.Holding {s} {serverRes.number})
  · apply (timeoutConnect_contract (.resolved serverRes none) timeout le_rfl).otherwise
    apply Contract.reading
    intro p
    split_ifs
    · exact Contract.pure fun _ h => h.2
    · apply giveUpAfter_contract
      intro q hq
      exact Kernel.abandon_holding [serverRes] hq.2
  · apply Contract.seq (Q := fun _ => before.Holding {s} 0)
    · exact Contract.update fun _ => Kernel.freeaddrinfos_holding [serverRes]
    · exact Contract.pure fun _ h => h

theorem netannounce_contract (domain : AddressFamily) (proto : SocketType)
    (localName bindDev : Option String) (port : ℤ) :
    Contract (before.Holding 0 0) (netannounce b k domain proto localName bindDev port)
      (fun s => before.Holding {s} 0) (before.Holding 0 0) := by
  unfold netannounce
  have hlist : Contract (before.Holding 0 0) _ _ _ :=
    k.getaddrinfo_contract localName (some port)
      (if domain = .unspec ∧ localName.isNone then .inet6 else domain) proto true
  apply (hlist.weaken (fun _ h => h) (fun _ _ h => h) fun _ h => h.1).bind
  intro res
  have hsocket : Contract (before.Holding 0 ([res].map AddrInfo.number)) _ _ _ :=
    socket_or_free (k := k) [res] res.family proto 0
  apply (hsocket.weaken (fun _ h => h) (fun _ _ h => h) fun _ h => h.1).bind
  intro s
  have hstep : ∀ {c : SystemCall}, c.sockets ≤ {s} → c.lists ≤ {res.number} →
      Contract (before.Holding {s} {res.number})
        ((k.request c).otherwise (giveUpAfter (k.abandon s [res])))
        (fun _ => before.Holding {s} {res.number}) (before.Holding 0 0) := fun hs hl =>
    (request_holds hs hl).otherwise (abandon_holds [res])
  apply Contract.seq (Q := fun _ => before.Holding {s} {res.number})
  · apply Contract.whenGiven
    · intro device
      split_ifs
      · exact hstep (c := .setsockopt s _ _) le_rfl (Multiset.zero_le _)
      · exact abandon_holds [res]
    · exact fun _ h => h
  apply (hstep (c := .setsockopt s _ _) le_rfl (Multiset.zero_le _)).seq
  apply Contract.seq (Q := fun _ => before.Holding {s} {res.number})
  · apply Contract.provided
    · exact fun _ => hstep (c := .setsockopt s _ _) le_rfl (Multiset.zero_le _)
    · exact fun _ _ h => h
  apply (hstep (c := .bind s (.resolved res none)) le_rfl le_rfl).seq
  apply Contract.seq (Q := fun _ => before.Holding {s} 0)
  · exact Contract.update fun _ => Kernel.freeaddrinfos_holding [res]
  apply Contract.seq (Q := fun _ => before.Holding {s} 0)
  · apply Contract.provided
    · intro _
      apply (request_holds (c := .listen s) le_rfl le_rfl).otherwise
      exact abandon_holds []
    · exact fun _ _ h => h
  · exact Contract.pure fun _ h => h

end Contracts

/-- A new socket has been made, or the sockets are those from before.  Every
address list has been freed once, and no call was about anything closed. -/
structure Leaves (before : SystemState ε) (r : Option ℕ × SystemState ε) : Prop where
  socket : ∀ s, r.1 = some s →
    s ∉ before.sockets.opened ∧ r.2.sockets = before.sockets.obtain s
  failed : r.1 = none → r.2.sockets = before.sockets
  lists : r.2.lists = before.lists
  strayed : r.2.strayed = before.strayed

theorem leaves_of_contract {x : Program ε ℕ}
    (h : ∀ before : SystemState ε,
      Contract (before.Holding 0 0) x (fun s => before.Holding {s} 0) (before.Holding 0 0))
    (p : SystemState ε) : Leaves p (x p) := by
  rcases hrun : x p with ⟨_ | s, q⟩
  · have hq := SystemState.holding_zero_iff.mp ((h p).givesUp p q (SystemState.Holding.refl p) hrun)
    exact
      { socket := fun s hs => absurd hs (Option.some_ne_none s).symm
        failed := fun _ => hq.1
        lists := hq.2.1
        strayed := hq.2.2 }
  · have hq := (h p).returns p s q (SystemState.Holding.refl p) hrun
    exact
      { socket := fun s' hs => Option.some.inj hs ▸ hq.sockets.obtained
        failed := fun hs => absurd hs (Option.some_ne_none s)
        lists := Descriptors.adds_zero_iff.mp hq.lists
        strayed := hq.strayed }

theorem net_leaves (p : SystemState ε) (domain : AddressFamily) (proto : SocketType)
    (localName bindDev : Option String) (localPort : ℤ) (server : String) (port timeout : ℤ) :
    Leaves p (netdial b k domain proto localName bindDev localPort server port timeout p) ∧
      Leaves p (netannounce b k domain proto localName bindDev port p) := by
  constructor
  · apply leaves_of_contract
    exact fun _ =>
      netdial_contract domain proto localName bindDev localPort server port timeout
  · apply leaves_of_contract
    exact fun _ => netannounce_contract domain proto localName bindDev port

/-! ## A socket that is returned is connected -/

/-- What is documented of the system: an operation is in progress only after
`connect`, and one socket is ready or is not. -/
structure Documented (k : Kernel) : Prop where
  inProgress : ∀ calls c, k.answer calls c = .error k.einprogress → ∃ s name, c = .connect s name
  socketError : ∀ calls s, k.answer calls (.getsockopt s .error) ≠ .ok k.einprogress
  ready : ∀ calls s timeout value,
    k.answer calls (.poll s timeout) = .ok value → value = 0 ∨ value = 1
  timedOut : k.etimedout ≠ k.einprogress

/-- The newest answers are those of a connection that has been made. -/
inductive Connected (k : Kernel) (s : ℕ) : List CallRecord → Prop
  | atOnce (name : SockAddr) (value : ℤ) (rest : List CallRecord) :
      Connected k s (⟨.connect s name, .ok value⟩ :: rest)
  | waited (name : SockAddr) (timeout : ℤ) (rest : List CallRecord) :
      Connected k s (⟨.getsockopt s .error, .ok 0⟩ :: ⟨.poll s timeout, .ok 1⟩ ::
        ⟨.connect s name, .error k.einprogress⟩ :: rest)

section Connection

variable {k}

theorem syscall_run (P : SystemState ε → Prop) (c : SystemCall) :
    Contract P (k.syscall c)
      (fun value q => ∃ p, P p ∧ k.answer p.calls c = .ok value ∧ q = p.record c (.ok value))
      fun q => ∃ p error, P p ∧ k.answer p.calls c = .error error ∧
        q = (p.record c (.error error)).fail c error where
  returns p value q hp hrun := by
    unfold Kernel.syscall Kernel.ask at hrun
    cases hanswer : k.answer p.calls c with
    | error error =>
        rw [hanswer] at hrun
        cases hrun
    | ok value' =>
        rw [hanswer] at hrun
        cases hrun
        exact ⟨p, hp, hanswer, rfl⟩
  givesUp p q hp hrun := by
    unfold Kernel.syscall Kernel.ask at hrun
    cases hanswer : k.answer p.calls c with
    | error error =>
        rw [hanswer] at hrun
        cases hrun
        exact ⟨p, error, hp, hanswer, rfl⟩
    | ok value' =>
        rw [hanswer] at hrun
        cases hrun

/-- Any call but `connect` fails with another error. -/
theorem other_error (hk : Documented k) {c : SystemCall} (hc : ∀ s name, c ≠ .connect s name)
    {p q : SystemState ε} {error : ℤ} (hanswer : k.answer p.calls c = .error error)
    (hkept : q.errno = error) : q.errno ≠ k.einprogress := by
  intro hprogress
  rw [hkept] at hprogress
  rw [hprogress] at hanswer
  obtain ⟨s, name, hconnect⟩ := hk.inProgress _ _ hanswer
  exact hc s name hconnect

theorem request_run (P : SystemState ε → Prop) (c : SystemCall) :
    Contract P (k.request c)
      (fun _ q => ∃ p value, P p ∧ q = p.record c (.ok value))
      fun q => ∃ p error, P p ∧ k.answer p.calls c = .error error ∧
        q = (p.record c (.error error)).fail c error := by
  have hrequest : (k.request c : Program ε Unit) = k.syscall c >>= fun _ => pure () := by
    funext p
    simp only [Kernel.request, Kernel.syscall, Kernel.ask, Bind.bind]
    cases k.answer p.calls c <;> rfl
  rw [hrequest]
  apply (syscall_run P c).bind
  rintro value
  apply Contract.pure
  rintro q ⟨p, hp, _, hq⟩
  exact ⟨p, value, hp, hq⟩

theorem awaitConnection_connects (hk : Documented k) (s : ℕ) (name : SockAddr) (timeout : ℤ) :
    Contract
      (fun p : SystemState ε => ∃ rest, p.calls = ⟨.connect s name, .error k.einprogress⟩ :: rest)
      (awaitConnection k s timeout) (fun _ p => Connected k s p.calls)
      fun p => p.errno ≠ k.einprogress := by
  unfold awaitConnection
  apply Contract.bind (Q := fun ready p => (ready = 0 ∨ ready = 1) ∧ ∃ rest,
    p.calls = ⟨.poll s timeout, .ok ready⟩ :: ⟨.connect s name, .error k.einprogress⟩ :: rest)
  · apply (syscall_run _ (.poll s timeout)).weaken fun _ h => h
    · rintro ready q ⟨p, ⟨rest, hrest⟩, hanswer, rfl⟩
      exact ⟨hk.ready _ _ _ _ hanswer, rest, congrArg _ hrest⟩
    · rintro q ⟨p, error, _, hanswer, rfl⟩
      exact other_error hk (fun _ _ => SystemCall.noConfusion) hanswer rfl
  intro ready
  split_ifs with hone hzero
  · subst hone
    apply Contract.bind (Q := fun optval p => optval ≠ k.einprogress ∧ ∃ rest,
      p.calls = ⟨.getsockopt s .error, .ok optval⟩ :: ⟨.poll s timeout, .ok 1⟩ ::
        ⟨.connect s name, .error k.einprogress⟩ :: rest)
    · apply (syscall_run _ (.getsockopt s .error)).weaken fun _ h => h
      · rintro optval q ⟨p, ⟨_, rest, hrest⟩, hanswer, rfl⟩
        have hother : optval ≠ k.einprogress := by
          rintro rfl
          exact hk.socketError _ _ hanswer
        exact ⟨hother, rest, congrArg _ hrest⟩
      · rintro q ⟨p, error, _, hanswer, rfl⟩
        exact other_error hk (fun _ _ => SystemCall.noConfusion) hanswer rfl
    · intro optval
      apply Contract.seq (Q := fun _ p => p.errno = optval ∧ optval ≠ k.einprogress ∧ ∃ rest,
        p.calls = ⟨.getsockopt s .error, .ok optval⟩ :: ⟨.poll s timeout, .ok 1⟩ ::
          ⟨.connect s name, .error k.einprogress⟩ :: rest)
      · exact Contract.update fun p hp => ⟨rfl, hp⟩
      · split_ifs with hnone
        · subst hnone
          apply Contract.pure
          rintro p ⟨_, _, rest, hrest⟩
          rw [hrest]
          exact .waited name timeout rest
        · apply Contract.giveUp
          rintro p ⟨herrno, hother, _⟩
          exact herrno.trans_ne hother
  · exact giveUpAfter_contract fun p _ => hk.timedOut
  · apply Contract.giveUp
    rintro p ⟨hready, _⟩
    exact absurd hready (by simp [hone, hzero])

theorem connectWithin_connects (hk : Documented k) (s : ℕ) (name : SockAddr) (timeout : ℤ) :
    Contract (fun _ : SystemState ε => True) (connectWithin k s name timeout)
      (fun _ p => Connected k s p.calls) fun p => p.errno ≠ k.einprogress := by
  apply Contract.otherwise (F := fun p => ∃ rest,
    p.calls = ⟨.connect s name, .error p.errno⟩ :: rest)
  · apply (request_run _ (.connect s name)).weaken fun _ h => h
    · rintro _ q ⟨p, value, _, rfl⟩
      exact .atOnce name value p.calls
    · rintro q ⟨p, error, _, _, rfl⟩
      exact ⟨p.calls, rfl⟩
  · apply Contract.reading
    intro p
    split_ifs with hprogress
    · apply (awaitConnection_connects hk s name timeout).weaken _ (fun _ _ h => h) fun _ h => h
      rintro q ⟨rfl, rest, hrest⟩
      exact ⟨rest, hprogress ▸ hrest⟩
    · apply Contract.giveUp
      rintro q ⟨rfl, _⟩
      exact hprogress

/-- The newest calls may be about the flags of the socket. -/
def HasConnected (k : Kernel) (s : ℕ) (p : SystemState ε) : Prop :=
  ∃ calls, calls <:+ p.calls ∧ Connected k s calls

theorem timeoutConnect_connects (hk : Documented k) (s : ℕ) (name : SockAddr) (timeout : ℤ) :
    Contract (fun _ : SystemState ε => True) (timeoutConnect k s name timeout)
      (fun _ => HasConnected k s) fun p => p.errno ≠ k.einprogress := by
  have hconnects := connectWithin_connects (ε := ε) hk s name timeout
  unfold timeoutConnect
  split_ifs
  · apply hconnects.weaken (fun _ h => h) _ fun _ h => h
    exact fun _ p h => ⟨p.calls, List.suffix_rfl, h⟩
  have hflags : ∀ (flags : ℤ) (nonblock : Bool) (P : SystemState ε → Prop),
      (∀ p value, P p → P (p.record (.setFlags s flags nonblock) (.ok value))) →
        Contract P (k.request (.setFlags s flags nonblock)) (fun _ => P)
          fun p => p.errno ≠ k.einprogress := by
    intro flags nonblock P hP
    apply (request_run P _).weaken fun _ h => h
    · rintro _ q ⟨p, value, hp, rfl⟩
      exact hP p value hp
    · rintro q ⟨p, error, _, hanswer, rfl⟩
      exact other_error hk (fun _ _ => SystemCall.noConfusion) hanswer rfl
  apply Contract.bind (Q := fun _ _ => True)
  · apply Contract.otherwise (F := fun _ => True)
    · exact (syscall_run _ _).weaken (fun _ h => h) (fun _ _ _ => trivial) fun _ _ => trivial
    · exact Contract.pure fun _ _ => trivial
  intro flags
  apply (hflags flags true _ fun _ _ _ => trivial).seq
  apply Contract.bind (Q := fun connected p =>
    if connected then HasConnected k s p else p.errno ≠ k.einprogress)
  · apply Contract.otherwise (F := fun p => p.errno ≠ k.einprogress)
    · apply hconnects.seq
      apply Contract.pure
      exact fun p h => ⟨p.calls, List.suffix_rfl, h⟩
    · exact Contract.pure fun _ h => h
  intro connected
  cases connected with
  | true =>
      apply (hflags flags false (HasConnected k s) _).seq
      · exact Contract.pure fun _ h => h
      · rintro p value ⟨calls, hsuffix, hconnected⟩
        exact ⟨calls, hsuffix.trans (List.suffix_cons _ _), hconnected⟩
  | false =>
      apply (hflags flags false (fun p => p.errno ≠ k.einprogress) fun _ _ h => h).seq
      exact Contract.giveUp fun _ h => h

theorem netdial_connects_contract (hk : Documented k) (domain : AddressFamily)
    (proto : SocketType) (localName bindDev : Option String) (localPort : ℤ) (server : String)
    (port timeout : ℤ) :
    Contract (fun _ : SystemState ε => True)
      (netdial b k domain proto localName bindDev localPort server port timeout)
      (HasConnected k) fun _ => True := by
  unfold netdial
  apply Contract.trivial.bind
  rintro ⟨s, serverRes⟩
  apply Contract.seq (Q := fun _ => HasConnected k s)
  · apply (timeoutConnect_connects hk s (.resolved serverRes none) timeout).otherwise
    apply Contract.reading
    intro p
    split_ifs with hprogress
    · apply Contract.pure
      rintro q ⟨rfl, hother⟩
      exact absurd hprogress hother
    · exact giveUpAfter_contract fun _ _ => True.intro
  apply Contract.seq (Q := fun _ => HasConnected k s)
  · apply Contract.update
    rintro p ⟨calls, hsuffix, hconnected⟩
    rw [← Kernel.freeaddrinfos_calls (k := k) [serverRes] p] at hsuffix
    exact ⟨calls, hsuffix, hconnected⟩
  · exact Contract.pure fun _ h => h

theorem netdial_connects (hk : Documented k) {domain : AddressFamily} {proto : SocketType}
    {localName bindDev : Option String} {localPort : ℤ} {server : String} {port timeout : ℤ}
    {p q : SystemState ε} {s : ℕ}
    (hrun : netdial b k domain proto localName bindDev localPort server port timeout p =
      (some s, q)) :
    HasConnected k s q :=
  (netdial_connects_contract b hk domain proto localName bindDev localPort server port
    timeout).returns p s q True.intro hrun

end Connection

/-! ## A connection that has to be waited for -/

theorem above_notMem (opened : Finset ℕ) : opened.sup id + 1 ∉ opened := by
  intro hmem
  have hle : opened.sup id + 1 ≤ opened.sup id := Finset.le_sup (f := id) hmem
  omega

def patientKernel : Kernel where
  answer _ c :=
    match c with
    | .connect _ _ => .error 115
    | .poll _ _ => .ok 1
    | _ => .ok 0
  number _ opened := opened.sup id + 1
  fresh _ opened := above_notMem opened
  family _ := .inet
  disturbed _ error := error
  einprogress := 115
  etimedout := 110
  eafnosupport := 97
  enotsup := 95
  afInet6 := 10

theorem documented_patientKernel : Documented patientKernel where
  inProgress calls c h := by
    cases c with
    | connect s name => exact ⟨s, name, rfl⟩
    | _ => cases h
  socketError calls s := by simp [patientKernel]
  ready calls s timeout value h := by
    cases h
    exact .inr rfl
  timedOut := by decide

def linuxSockets : SocketBuild where
  toBuild := Build.linux
  haveSoBindtodevice := true
  haveTcpUserTimeout := true

def nothingOpen : SystemState Unit where
  sockets := ⟨∅, false⟩
  lists := ⟨∅, false⟩
  strayed := false
  errno := 0
  gerror := 0
  iErrno := ()
  calls := []

def dialled : Option ℕ × SystemState Unit :=
  netdial linuxSockets patientKernel .unspec .stream none none 0 "server" 5201 5000 nothingOpen

theorem netdial_connects_patient : HasConnected patientKernel 1 dialled.2 := by
  have hreturned : dialled.1 = some 1 := by decide
  exact netdial_connects linuxSockets documented_patientKernel (Prod.ext hreturned rfl)

end SocketSetup

end Iperf3
