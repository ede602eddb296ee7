import Iperf3.ErrorReports
import Iperf3.Descriptors
import Iperf3.Sequence
import Mathlib.Data.List.ReduceOption
import Mathlib.Tactic

/-!
# The sockets of the server

The members of the test and of its streams hold numbers of sockets, or -1.
The calls of a run are replayed here on these members and on the table of the
sockets that are open.  A connection that is accepted and closed at once does
not appear among the calls.
-/

namespace Iperf3

/-- The number of the next socket, which may depend on everything that has
happened before this call. -/
structure SocketEnv where
  next : ℕ → Finset ℕ → ℕ
  fresh : ∀ i opened, next i opened ∉ opened

structure ServerSockets where
  listener : Option ℕ
  protListener : Option ℕ
  ctrlSck : Option ℕ
  data : Option ℕ
  streams : List (Option ℕ)
  descriptors : Descriptors
  deriving DecidableEq

namespace ServerSockets

def initial : ServerSockets := ⟨none, none, none, none, [], ⟨∅, false⟩⟩

section Calls

variable (env : SocketEnv) (i : ℕ)

/-- The number that `socket` or `accept` returns now. -/
def socket (x : ServerSockets) : ℕ := env.next i x.descriptors.opened

def obtain (n : ℕ) (x : ServerSockets) : ServerSockets :=
  { x with descriptors := x.descriptors.obtain n }

/-- Members that are -1 are not closed. -/
def close (numbers : List ℕ) (x : ServerSockets) : ServerSockets :=
  { x with descriptors := x.descriptors.closeAll numbers }

def openListener (x : ServerSockets) : ServerSockets :=
  { x.obtain (x.socket env i) with listener := some (x.socket env i) }

/-- A failure leaves the number of the closed listener in place; the socket
that was to replace it has been closed as well. -/
def iperfTcpListen (recreates : Bool) (listening : Listening) (x : ServerSockets) :
    ServerSockets :=
  match listening with
  | .listens =>
      let x := if recreates then (x.close x.listener.toList).openListener env i else x
      { x with protListener := x.listener }
  | _ => x.close x.listener.toList

def iperfUdpListen (listening : Listening) (x : ServerSockets) : ServerSockets :=
  match listening with
  | .listens => { x.obtain (x.socket env i) with protListener := some (x.socket env i) }
  | _ => x

/-- When `sctp_bindx` fails, both it and its caller close the socket. -/
def iperfSctpListen (listening : Listening) (x : ServerSockets) : ServerSockets :=
  let closed := { x.close x.listener.toList with listener := none }
  match listening with
  | .listens =>
      let x := closed.openListener env i
      { x with protListener := x.listener }
  | .fails code => if code.val = .ieNoSctp then x else closed
  | .bindxFails =>
      (closed.obtain (closed.socket env i)).close
        [closed.socket env i, closed.socket env i]

def dataAccepted (protocol : ProtocolId) (x : ServerSockets) : ServerSockets :=
  match protocol with
  | .udp =>
      { x.obtain (x.socket env i) with
        data := x.protListener
        protListener := some (x.socket env i) }
  | _ => { x.obtain (x.socket env i) with data := some (x.socket env i) }

/-- The listener of a TCP test is the one of the server. -/
def streamsComplete (protocol : ProtocolId) (reopens ok : Bool) (x : ServerSockets) :
    ServerSockets :=
  if protocol = .tcp then
    if reopens then
      let x := { x.close x.listener.toList with listener := none }
      if ok then { x.openListener env i with protListener := none } else x
    else { x with protListener := none }
  else { x.close x.protListener.toList with protListener := none }

/-- The streams first, then the members of the test. -/
def cleanupServer (x : ServerSockets) : ServerSockets :=
  { x.close (x.streams.reduceOption ++ (x.ctrlSck.toList ++
      (x.listener.toList ++ x.protListener.toList))) with
    streams := x.streams.map fun _ => none
    ctrlSck := none
    listener := none
    protListener := none }

def freeStreams (x : ServerSockets) : ServerSockets :=
  { x.close (x.streams.reduceOption ++ x.ctrlSck.toList) with
    streams := []
    ctrlSck := none }

/-- The socket of a data connection is a local variable of the run. -/
def iperfResetTest (x : ServerSockets) : ServerSockets :=
  { x with
    streams := []
    ctrlSck := none
    listener := none
    protListener := none
    data := none }

def call (x : ServerSockets) : ServerCall × ℕ → ServerSockets
  | (.serverListen, i) => x.openListener env i
  | (.accepted, i) => { x.obtain (x.socket env i) with ctrlSck := some (x.socket env i) }
  | (.protocolListen .tcp recreates listening, i) => x.iperfTcpListen env i recreates listening
  | (.protocolListen .udp _ listening, i) => x.iperfUdpListen env i listening
  | (.protocolListen .sctp _ listening, i) => x.iperfSctpListen env i listening
  | (.dataAccepted protocol, i) => x.dataAccepted env i protocol
  | (.dataClosed, _) => { x.close x.data.toList with data := none }
  | (.udpListenerLost reopened, i) =>
      if reopened then
        { x.obtain (x.socket env i) with protListener := some (x.socket env i) }
      else { x with protListener := none }
  | (.newStream, _) => { x with streams := x.streams ++ [x.data], data := none }
  | (.streamsComplete protocol reopens ok, i) => x.streamsComplete env i protocol reopens ok
  | (.streamsClosed, _) => x.close x.streams.reduceOption
  | (.streamsFreed, _) => x.freeStreams
  | (.cleanup _, _) => x.cleanupServer
  | (.reset, _) => x.iperfResetTest
  | _ => x

def replay (calls : List ServerCall) : ServerSockets :=
  calls.zipIdx.foldl (call env) initial

end Calls

/-! ## Ownership -/

theorem replay_append (env : SocketEnv) (calls : List ServerCall) (c : ServerCall) :
    replay env (calls ++ [c]) = (replay env calls).call env (c, calls.length) := by
  simp [replay, List.zipIdx_append]

/-- The numbers that the members hold. -/
def held (x : ServerSockets) : Multiset ℕ :=
  x.listener.toList + x.protListener.toList + x.ctrlSck.toList + x.data.toList +
    x.streams.reduceOption

/-- No two members hold the same socket. -/
def Separate (x : ServerSockets) : Prop :=
  x.descriptors.Owns x.held

/-- The listener of the data connections is the one of the server. -/
def Shared (x : ServerSockets) : Prop :=
  x.protListener = x.listener ∧ Separate { x with protListener := none }

section Ownership

variable {env : SocketEnv} {i : ℕ} {x y : ServerSockets}

theorem Separate.forget (h : Separate x) (hsame : y.descriptors = x.descriptors)
    (hheld : y.held ≤ x.held) : Separate y := by
  unfold Separate
  rw [hsame]
  exact Descriptors.Owns.forget h hheld

theorem Separate.obtain (env : SocketEnv) (i : ℕ) (h : Separate x)
    (hopened : y.descriptors = x.descriptors.obtain (x.socket env i))
    (hheld : y.held ≤ x.socket env i ::ₘ x.held) : Separate y := by
  unfold Separate
  rw [hopened]
  exact (Descriptors.Owns.obtain h (env.fresh i _)).forget hheld

theorem Separate.close (h : Separate x) {numbers : List ℕ}
    (hclosed : y.descriptors = x.descriptors.closeAll numbers)
    (hheld : numbers + y.held ≤ x.held) : Separate y := by
  unfold Separate
  rw [hclosed]
  exact (Descriptors.Owns.forget h hheld).closeAll

theorem Separate.openListener (h : Separate x) : Separate (x.openListener env i) := by
  refine h.obtain env i rfl (Multiset.le_iff_count.mpr fun n => ?_)
  simp only [held, ServerSockets.openListener, ServerSockets.obtain, Option.toList_some,
    Multiset.coe_singleton, Multiset.count_add, Multiset.count_cons, Multiset.count_singleton]
  split_ifs <;> omega

theorem Separate.takeControl (h : Separate x) :
    Separate { x.obtain (x.socket env i) with ctrlSck := some (x.socket env i) } := by
  refine h.obtain env i rfl (Multiset.le_iff_count.mpr fun n => ?_)
  simp only [held, ServerSockets.obtain, Option.toList_some,
    Multiset.coe_singleton, Multiset.count_add, Multiset.count_cons, Multiset.count_singleton]
  split_ifs <;> omega

theorem Separate.openProtListener (h : Separate x) :
    Separate { x.obtain (x.socket env i) with protListener := some (x.socket env i) } := by
  refine h.obtain env i rfl (Multiset.le_iff_count.mpr fun n => ?_)
  simp only [held, ServerSockets.obtain, Option.toList_some,
    Multiset.coe_singleton, Multiset.count_add, Multiset.count_cons, Multiset.count_singleton]
  split_ifs <;> omega

theorem Separate.dropProtListener (h : Separate x) : Separate { x with protListener := none } := by
  refine h.forget rfl (Multiset.le_iff_count.mpr fun n => ?_)
  simp only [held, Option.toList_none, Multiset.coe_nil, Multiset.count_add, Multiset.count_zero]
  omega

theorem Separate.closeListener (h : Separate x) :
    Separate { x.close x.listener.toList with listener := none } := by
  refine h.close rfl (Multiset.le_iff_count.mpr fun n => ?_)
  simp only [held, ServerSockets.close, Option.toList_none, Multiset.coe_nil, Multiset.count_add,
    Multiset.count_zero]
  omega

theorem Separate.closeProtListener (h : Separate x) :
    Separate { x.close x.protListener.toList with protListener := none } := by
  refine h.close rfl (Multiset.le_iff_count.mpr fun n => ?_)
  simp only [held, ServerSockets.close, Option.toList_none, Multiset.coe_nil, Multiset.count_add,
    Multiset.count_zero]
  omega

theorem Separate.dataAccepted (h : Separate x) (protocol : ProtocolId) :
    Separate (x.dataAccepted env i protocol) := by
  unfold ServerSockets.dataAccepted
  split
  · refine h.obtain env i rfl (Multiset.le_iff_count.mpr fun n => ?_)
    simp only [held, ServerSockets.obtain, Option.toList_some,
      Multiset.coe_singleton, Multiset.count_add, Multiset.count_cons, Multiset.count_singleton]
    split_ifs <;> omega
  · refine h.obtain env i rfl (Multiset.le_iff_count.mpr fun n => ?_)
    simp only [held, ServerSockets.obtain, Option.toList_some,
      Multiset.coe_singleton, Multiset.count_add, Multiset.count_cons, Multiset.count_singleton]
    split_ifs <;> omega

theorem Separate.closeData (h : Separate x) :
    Separate { x.close x.data.toList with data := none } := by
  refine h.close rfl (Multiset.le_iff_count.mpr fun n => ?_)
  simp only [held, ServerSockets.close, Option.toList_none, Multiset.coe_nil, Multiset.count_add,
    Multiset.count_zero]
  omega

theorem Separate.newStream (h : Separate x) :
    Separate { x with streams := x.streams ++ [x.data], data := none } := by
  have hdata : [x.data].reduceOption = x.data.toList := by cases x.data <;> rfl
  refine h.forget rfl (Multiset.le_iff_count.mpr fun n => ?_)
  simp only [held, List.reduceOption_append, hdata, ← Multiset.coe_add, Option.toList_none,
    Multiset.coe_nil, Multiset.count_add, Multiset.count_zero]
  omega

theorem Separate.freeStreams (h : Separate x) : Separate x.freeStreams := by
  refine h.close rfl (Multiset.le_iff_count.mpr fun n => ?_)
  simp only [held, ServerSockets.freeStreams, ServerSockets.close, ← Multiset.coe_add,
    Option.toList_none, List.reduceOption_nil, Multiset.coe_nil, Multiset.count_add,
    Multiset.count_zero]
  omega

theorem Separate.cleanupServer (h : Separate x) : Separate x.cleanupServer := by
  have hnone : (x.streams.map fun _ => (none : Option ℕ)).reduceOption = [] := by simp
  refine h.close rfl (Multiset.le_iff_count.mpr fun n => ?_)
  simp only [held, ServerSockets.cleanupServer, ServerSockets.close, ← Multiset.coe_add, hnone,
    Option.toList_none, Multiset.coe_nil, Multiset.count_add, Multiset.count_zero]
  omega

theorem separate_iperfResetTest (h : x.descriptors.closedTwice = false) :
    Separate x.iperfResetTest :=
  Descriptors.owns_zero h

theorem Separate.shared (h : Separate x) : Shared { x with protListener := x.listener } :=
  ⟨rfl, h.dropProtListener⟩

theorem Separate.iperfTcpListen (h : Separate x) (recreates : Bool) :
    Shared (x.iperfTcpListen env i recreates .listens) := by
  unfold ServerSockets.iperfTcpListen
  dsimp only
  split_ifs
  · exact h.closeListener.openListener.shared
  · exact h.shared

theorem Shared.dataAccepted (h : Shared x) : Shared (x.dataAccepted env i .tcp) :=
  ⟨h.1, h.2.dataAccepted .tcp⟩

theorem Shared.newStream (h : Shared x) :
    Shared { x with streams := x.streams ++ [x.data], data := none } :=
  ⟨h.1, h.2.newStream⟩

/-- When all data connections are there, the server has its listener back. -/
theorem Shared.streamsComplete (h : Shared x) {reopens ok : Bool} (hok : (!reopens || ok) = true) :
    Separate (x.streamsComplete env i .tcp reopens ok) := by
  unfold ServerSockets.streamsComplete
  rw [if_pos rfl]
  cases reopens with
  | false => exact h.2
  | true =>
      have hopened : ok = true := by simpa using hok
      subst hopened
      exact h.2.closeListener.openListener

theorem Separate.streamsComplete (h : Separate x) {protocol : ProtocolId} {reopens ok : Bool}
    (hprotocol : protocol ≠ .tcp) :
    Separate (x.streamsComplete env i protocol reopens ok) := by
  unfold ServerSockets.streamsComplete
  rw [if_neg hprotocol]
  exact h.closeProtListener

theorem Shared.once (h : Shared x) : x.descriptors.closedTwice = false :=
  h.2.once

end Ownership

end ServerSockets

/-! ## One turn -/

open ServerSockets

section Turn

variable (env : SocketEnv)

/-- After every call no number has been closed twice. -/
def ClosedOnce (calls : List ServerCall) : Prop :=
  calls |> Always fun before call =>
    (replay env (before ++ [call])).descriptors.closedTwice = false

/-- The sockets after the calls so far. -/
def Server.sockets (s : Server) : ServerSockets :=
  replay env s.calls

/-- The sockets meet `P`, and the list of streams is that of the server. -/
structure SocketsMeet (P : ServerSockets → Prop) (s : Server) : Prop where
  once : ClosedOnce env s.calls
  sockets : P (s.sockets env)
  streams : (s.sockets env).streams.length = s.streams.length

/-- A call that has nothing to do with sockets. -/
def Socketless (call : ServerCall) : Prop :=
  ∀ (env : SocketEnv) (x : ServerSockets) (i : ℕ), x.call env (call, i) = x

variable {env} {P Q : ServerSockets → Prop} {s : Server}

theorem ClosedOnce.closedTwice {calls : List ServerCall} (h : ClosedOnce env calls) :
    (replay env calls).descriptors.closedTwice = false := by
  rcases List.eq_nil_or_concat calls with rfl | ⟨before, call, rfl⟩
  · rfl
  · rw [List.concat_eq_append] at h ⊢
    exact (always_append.mp h).2

theorem sockets_log (s : Server) (call : ServerCall) :
    (s.log call).sockets env = (s.sockets env).call env (call, s.calls.length) :=
  replay_append env s.calls call

theorem ClosedOnce.log (h : ClosedOnce env s.calls) {call : ServerCall}
    (hcall : ((s.log call).sockets env).descriptors.closedTwice = false) :
    ClosedOnce env (s.log call).calls :=
  always_append.mpr ⟨h, hcall⟩

theorem ClosedOnce.socketless (h : ClosedOnce env s.calls) {call : ServerCall}
    (hcall : Socketless call) : ClosedOnce env (s.log call).calls := by
  apply h.log
  rw [sockets_log, hcall]
  exact h.closedTwice

theorem ClosedOnce.withErrno (h : ClosedOnce env s.calls) (code : IErrno) :
    ClosedOnce env (s.withErrno code).calls :=
  have hcall : Socketless (.raised code) := fun _ _ _ => rfl
  ClosedOnce.socketless (s := s) h hcall

theorem SocketsMeet.log (h : SocketsMeet env P s) {u : Server} {call : ServerCall}
    (hcalls : u.calls = s.calls ++ [call])
    (honce : ∀ x, Q x → x.descriptors.closedTwice = false)
    (hcall : ∀ i, Q ((s.sockets env).call env (call, i)))
    (hlength : ∀ i, ((s.sockets env).call env (call, i)).streams.length = u.streams.length) :
    SocketsMeet env Q u := by
  have hsockets : u.sockets env = (s.sockets env).call env (call, s.calls.length) := by
    unfold Server.sockets
    rw [hcalls, replay_append]
  have hnow : Q (u.sockets env) := by
    rw [hsockets]
    exact hcall _
  refine ⟨?_, hnow, ?_⟩
  · unfold ClosedOnce
    rw [hcalls]
    refine always_append.mpr ⟨h.once, ?_⟩
    rw [← hcalls]
    exact honce _ hnow
  · rw [hsockets]
    exact hlength _

theorem SocketsMeet.socketless (h : SocketsMeet env P s) {call : ServerCall}
    (hcall : Socketless call) :
    SocketsMeet env P (s.log call) := by
  have hsame : (s.log call).sockets env = s.sockets env := by rw [sockets_log, hcall]
  refine ⟨h.once.socketless hcall, ?_, ?_⟩
  · rw [hsame]
    exact h.sockets
  · rw [hsame]
    exact h.streams

theorem SocketsMeet.withErrno (h : SocketsMeet env P s) (code : IErrno) :
    SocketsMeet env P (s.withErrno code) := by
  have hcall : Socketless (.raised code) := fun _ _ _ => rfl
  exact SocketsMeet.socketless (s := { s with test := { s.test with iErrno := code } })
    ⟨h.once, h.sockets, h.streams⟩ hcall

theorem SocketsMeet.cleanupServer (h : SocketsMeet env Separate s) :
    SocketsMeet env Separate s.cleanupServer := by
  refine h.log rfl (fun _ hx => hx.once) (fun _ => h.sockets.cleanupServer) fun _ => ?_
  simp [ServerSockets.call, ServerSockets.cleanupServer, Server.cleanupServer, Server.log,
    h.streams]

theorem SocketsMeet.setSendState (h : SocketsMeet env P s) (sent : Bool) (state : TestState) :
    SocketsMeet env P (s.setSendState sent state).1 := by
  have hentered : SocketsMeet env P (s.enter state) := ⟨h.once, h.sockets, h.streams⟩
  unfold Server.setSendState
  split_ifs
  · exact hentered.socketless fun _ _ _ => rfl
  · exact hentered.withErrno _
  · exact h

/-- In a TCP test the listener is shared while data connections are taken. -/
def Server.WaitsTcp (s : Server) : Prop :=
  s.state = .createStreams ∧ s.test.protocol = .tcp

instance (s : Server) : Decidable s.WaitsTcp := by
  unfold Server.WaitsTcp
  infer_instance

variable (env) in
/-- What holds before each `select`. -/
structure Holding (s : Server) : Prop where
  separate : ¬ s.WaitsTcp → SocketsMeet env Separate s
  shared : s.WaitsTcp → SocketsMeet env Shared s
  timer : s.state = .createStreams ∨ s.ctrlSck = false → s.timer = false
  connected : s.state = .createStreams → s.ctrlSck = true

theorem SocketsMeet.congr (h : SocketsMeet env P s) {u : Server} (hcalls : u.calls = s.calls)
    (hstreams : u.streams.length = s.streams.length) : SocketsMeet env P u := by
  have hsockets : u.sockets env = s.sockets env := by
    unfold Server.sockets
    rw [hcalls]
  refine ⟨hcalls ▸ h.once, ?_, ?_⟩
  · rw [hsockets]
    exact h.sockets
  · rw [hsockets, hstreams]
    exact h.streams

/-! ### A client -/

/-- Where the sockets of a client's test come from: a TCP test listens and
goes on to take data connections, an SCTP test does not get that far. -/
def ListensSafely (b : Build) (accept : AcceptEnv) (s : Server) : Prop :=
  accept.Connects → (getParameters b accept.message s.test).2 = true →
    accept.authorization.ok = true →
      match (getParameters b accept.message s.test).1.protocol with
      | .tcp => accept.listening = .listens ∧ accept.sentCreateStreams = true ∧
          ((getParameters b accept.message s.test).1.serverAffinity = -1 ∨
            accept.affinitySet = true)
      | .udp => True
      | .sctp => ∃ code, accept.listening = .fails code

variable (env) in
/-- A client that is being accepted, with the test as it is then. -/
structure Greeting (t : Test) (s : Server) : Prop where
  sockets : SocketsMeet env Separate s
  ctrlSck : s.ctrlSck = true
  timer : s.timer = false
  test : s.test = t

variable (env) in
/-- The data connections can be listened for. -/
structure Listens (accept : AcceptEnv) (t : Test) (s : Server) : Prop where
  separate : t.protocol ≠ .tcp → SocketsMeet env Separate s
  shared : t.protocol = .tcp → SocketsMeet env Shared s ∧ accept.sentCreateStreams = true ∧
    (t.serverAffinity = -1 ∨ accept.affinitySet = true)
  ctrlSck : s.ctrlSck = true
  timer : s.timer = false
  test : s.test = t

theorem Greeting.socketless {t : Test} (h : Greeting env t s) {call : ServerCall}
    (hcall : Socketless call) : Greeting env t (s.log call) :=
  ⟨h.sockets.socketless hcall, h.ctrlSck, h.timer, h.test⟩

theorem Greeting.protocolListen {accept : AcceptEnv} {t : Test} (h : Greeting env t s)
    (hsafe : match t.protocol with
      | .tcp => accept.listening = .listens ∧ accept.sentCreateStreams = true ∧
          (t.serverAffinity = -1 ∨ accept.affinitySet = true)
      | .udp => True
      | .sctp => ∃ code, accept.listening = .fails code) :
    ((s.protocolListen accept.listening).2 = true →
      Listens env accept t (s.protocolListen accept.listening).1) ∧
    ((s.protocolListen accept.listening).2 = false →
      SocketsMeet env Separate (s.protocolListen accept.listening).1) := by
  have hprotocol : s.test.protocol = t.protocol := by rw [h.test]
  unfold Server.protocolListen
  rw [hprotocol]
  cases hp : t.protocol with
  | tcp =>
      rw [hp] at hsafe
      obtain ⟨hlistens, hsent, haffinity⟩ := hsafe
      rw [hlistens]
      have hshared : SocketsMeet env Shared
          (s.log (.protocolListen .tcp s.recreatesListener .listens)) := by
        refine h.sockets.log rfl (fun _ hx => hx.once)
          (fun _ => h.sockets.sockets.iperfTcpListen _) ?_
        intro i
        refine Eq.trans ?_ h.sockets.streams
        simp only [ServerSockets.call, ServerSockets.iperfTcpListen]
        split_ifs <;> rfl
      exact ⟨fun _ => ⟨fun hne => absurd hp hne, fun _ => ⟨hshared, hsent, haffinity⟩, h.ctrlSck,
        h.timer, h.test⟩, nofun⟩
  | udp =>
      have hne : t.protocol ≠ .tcp := by simp [hp]
      cases accept.listening with
      | listens =>
          have hlistens : SocketsMeet env Separate
              (s.log (.protocolListen .udp s.recreatesListener .listens)) :=
            h.sockets.log rfl (fun _ hx => hx.once) (fun _ => h.sockets.sockets.openProtListener)
              fun _ => h.sockets.streams
          exact ⟨fun _ => ⟨fun _ => hlistens, fun heq => absurd heq hne, h.ctrlSck, h.timer,
            h.test⟩, nofun⟩
      | fails code => exact ⟨nofun, fun _ => (h.sockets.socketless fun _ _ _ => rfl).withErrno _⟩
      | bindxFails => exact ⟨nofun, fun _ => (h.sockets.socketless fun _ _ _ => rfl).withErrno _⟩
  | sctp =>
      rw [hp] at hsafe
      obtain ⟨code, hcode⟩ := hsafe
      rw [hcode]
      have hclosed : SocketsMeet env Separate
          (s.log (.protocolListen .sctp s.recreatesListener (.fails code))) := by
        refine h.sockets.log rfl (fun _ hx => hx.once) (fun i => ?_) (fun i => ?_)
        · simp only [ServerSockets.call, ServerSockets.iperfSctpListen]
          split_ifs
          · exact h.sockets.sockets
          · exact h.sockets.sockets.closeListener
        · refine Eq.trans ?_ h.sockets.streams
          simp only [ServerSockets.call, ServerSockets.iperfSctpListen]
          split_ifs <;> rfl
      exact ⟨nofun, fun _ => hclosed.withErrno _⟩

theorem acceptClient_holding {b : Build} {accept : AcceptEnv} (h : Holding env s)
    (hfree : s.ctrlSck = false) (hsafe : ListensSafely b accept s) :
    Triple (fun u : Server => u = s) (acceptClient b accept)
      (fun u => Holding env (setStreamNumbers u))
      (SocketsMeet env Separate) := by
  have hnew : ¬ s.WaitsTcp := fun hwaits => by simpa [hfree] using h.connected hwaits.1
  let t := (getParameters b accept.message s.test).1
  have hread : Triple (Greeting env s.test) (fun u => u.getParameters b accept.message)
      (fun u => Greeting env t u ∧ (getParameters b accept.message s.test).2 = true)
      (SocketsMeet env Separate) := by
    intro u hu
    have hnoted : Greeting env t (u.getParameters b accept.message).1 := by
      have hparameters : Greeting env t { u with test := t } :=
        ⟨hu.sockets.congr rfl rfl, hu.ctrlSck, hu.timer, rfl⟩
      unfold Server.getParameters Server.noteErrno
      dsimp only
      rw [hu.test]
      split_ifs
      · exact hparameters.socketless fun _ _ _ => rfl
      · exact hparameters
    have hok : (u.getParameters b accept.message).2 =
        (getParameters b accept.message s.test).2 := by
      rw [← hu.test]
      rfl
    exact ⟨fun h => ⟨hnoted, hok.symm.trans h⟩, fun _ => hnoted.sockets⟩
  have htriple : Triple (fun u : Server => u = s) (acceptClient b accept)
      (fun u => Listens env accept t u ∧ u.state = .createStreams)
      (SocketsMeet env Separate) := by
    apply triple_acceptClient (M := Greeting env s.test)
      (N := fun u => Greeting env t u ∧ (getParameters b accept.message s.test).2 = true)
      (L := Listens env accept t) accept
    · rintro u rfl
      have htaken : SocketsMeet env Separate (u.log .accepted) :=
        (h.separate hnew).log rfl (fun _ hx => hx.once)
          (fun _ => (h.separate hnew).sockets.takeControl)
          fun _ => (h.separate hnew).streams
      exact ⟨htaken.congr rfl rfl, rfl, h.timer (Or.inr hfree), rfl⟩
    · exact fun u hu => hu.ctrlSck
    · exact fun code u hu => hu.sockets.withErrno code
    · exact fun cookie u hu => ⟨hu.sockets.congr rfl rfl, hu.ctrlSck, hu.timer, hu.test⟩
    · intro u hu
      have hentered : Greeting env s.test (u.enter .paramExchange) :=
        ⟨hu.sockets.congr rfl rfl, hu.ctrlSck, hu.timer, hu.test⟩
      exact hentered.socketless fun _ _ _ => rfl
    · exact fun u hu => SocketsMeet.withErrno (s := u.enter .paramExchange)
        (hu.sockets.congr rfl rfl) _
    · exact hread
    · exact fun _ u hu => ⟨hu.1.socketless fun _ _ _ => rfl, hu.2⟩
    · exact fun _ u hu => hu.1.sockets.socketless fun _ _ _ => rfl
    · exact fun hconnects hauthorized u hu =>
        hu.1.protocolListen (hsafe hconnects hu.2 hauthorized)
    · intro u hu
      exact ⟨fun hne => (hu.separate hne).congr rfl rfl,
        fun htcp => ⟨(hu.shared htcp).1.congr rfl rfl, (hu.shared htcp).2⟩, hu.ctrlSck, hu.timer,
        hu.test⟩
    · exact fun u hu => hu.ctrlSck
    · intro u hu
      have hsent : ∀ P, SocketsMeet env P u →
          SocketsMeet env P ((u.enter .createStreams).log (.sent .createStreams)) :=
        fun P hP => SocketsMeet.socketless (s := u.enter .createStreams) (hP.congr rfl rfl)
          fun _ _ _ => rfl
      exact ⟨⟨fun hne => hsent _ (hu.separate hne),
        fun htcp => ⟨hsent _ (hu.shared htcp).1, (hu.shared htcp).2⟩, hu.ctrlSck, hu.timer,
        hu.test⟩, rfl⟩
    · intro hfails u hu
      have hne : t.protocol ≠ .tcp := by
        intro htcp
        exact absurd ((hu.shared htcp).2.1.symm.trans hfails) (by decide)
      exact SocketsMeet.withErrno (s := u.enter .createStreams)
        ((hu.separate hne).congr rfl rfl) _
    · intro hfails u haffinity hu
      have hne : t.protocol ≠ .tcp := by
        intro htcp
        rcases (hu.1.shared htcp).2.2 with hnone | hset
        · exact haffinity (hu.1.test ▸ hnone)
        · exact absurd (hset.symm.trans hfails) (by decide)
      exact (hu.1.separate hne).withErrno _
  refine htriple.weaken (fun _ hu => hu) (fun u hu => ?_) (fun _ hu => hu)
  have hprotocol : u.test.protocol = t.protocol := by rw [hu.1.test]
  refine ⟨fun hwaits => ?_, fun hwaits => ?_, fun _ => hu.1.timer, fun _ => hu.1.ctrlSck⟩
  · exact (hu.1.separate fun htcp => hwaits ⟨hu.2, hprotocol.trans htcp⟩).congr rfl rfl
  · exact (hu.1.shared (hprotocol.symm.trans hwaits.2)).1.congr rfl rfl

/-! ### A message -/

/-- The message closes the sockets of the streams. -/
def MessageEnv.ClosesStreams (message : MessageEnv) : Prop :=
  ∃ value, message.read = .byte value ∧
    (TestState.ofByte value = .testEnd ∨ TestState.ofByte value = .clientTerminate)

variable (env) in
/-- A server with a client that waits for no data connection. -/
structure Attending (s : Server) : Prop where
  sockets : SocketsMeet env Separate s
  ctrlSck : s.ctrlSck = true

theorem Attending.socketless (h : Attending env s) {call : ServerCall} (hcall : Socketless call) :
    Attending env (s.log call) :=
  ⟨h.sockets.socketless hcall, h.ctrlSck⟩

theorem Attending.enter (h : Attending env s) (state : TestState) : Attending env (s.enter state) :=
  ⟨h.sockets.congr rfl rfl, h.ctrlSck⟩

theorem Attending.withErrno (h : Attending env s) (code : IErrno) :
    Attending env (s.withErrno code) :=
  ⟨h.sockets.withErrno code, h.ctrlSck⟩

theorem Attending.holding (h : Attending env s) (hstate : s.state ≠ .createStreams) :
    Holding env s where
  separate _ := h.sockets
  shared hwaits := absurd hwaits.1 hstate
  timer hidle := by
    rcases hidle with hcreate | hfree
    · exact absurd hcreate hstate
    · exact absurd (hfree.symm.trans h.ctrlSck) (by decide)
  connected hcreate := absurd hcreate hstate

theorem Attending.streamsClosed (h : Attending env s) (hnone : s.streams = []) :
    Attending env (s.log .streamsClosed) := by
  have hempty : (s.sockets env).streams = [] := by
    apply List.eq_nil_of_length_eq_zero
    rw [h.sockets.streams, hnone]
    rfl
  have hsame : ∀ i, (s.sockets env).call env (.streamsClosed, i) = s.sockets env := by
    intro i
    show (s.sockets env).close (s.sockets env).streams.reduceOption = s.sockets env
    rw [hempty]
    rfl
  refine ⟨h.sockets.log rfl (fun _ hx => hx.once) (fun i => ?_) fun i => ?_, h.ctrlSck⟩
  · rw [hsame]
    exact h.sockets.sockets
  · rw [hsame]
    exact h.sockets.streams

theorem getResults_attending (message : Option Json) :
    Triple (Attending env) (fun u => u.getResults message) (Attending env)
      (SocketsMeet env Separate) := by
  intro u hu
  have hread : Attending env { u with toTestSide := (getResults message u.toTestSide).1 } :=
    ⟨hu.sockets.congr rfl (getResults_length message u.toTestSide), hu.ctrlSck⟩
  have hnoted : Attending env (u.getResults message).1 := by
    unfold Server.getResults Server.noteErrno
    dsimp only
    split_ifs
    · exact hread.socketless fun _ _ _ => rfl
    · exact hread
  exact ⟨fun _ => hnoted, fun _ => hnoted.sockets⟩

theorem handleTestEnd_holding (message : MessageEnv) :
    Triple (fun u : Server => Attending env u ∧ u.streams = []) (handleTestEnd message)
      (Holding env)
      (SocketsMeet env Separate) := by
  apply triple_handleTestEnd (T := Attending env) message
  · rintro u ⟨hu, hnone⟩
    have hdone : Attending env { u with done := true } := ⟨hu.sockets.congr rfl rfl, hu.ctrlSck⟩
    exact hdone.streamsClosed hnone
  · exact fun u hu => hu.ctrlSck
  · exact fun u hu => (hu.enter _).socketless fun _ _ _ => rfl
  · exact fun state u hu => ((hu.enter state).withErrno _).sockets
  · exact getResults_attending message.results
  · exact fun u hu => (hu.withErrno _).sockets
  · intro u hu
    have hsent : Attending env ((u.enter .displayResults).log (.sent .displayResults)) :=
      (hu.enter _).socketless fun _ _ _ => rfl
    exact hsent.holding nofun

theorem handleMessageServer_holding (message : MessageEnv) :
    Triple (fun u : Server => Attending env u ∧ (message.ClosesStreams → u.streams = []))
      (handleMessageServer message) (Holding env) (SocketsMeet env Separate) := by
  have hread : ∀ (read : ControlRead) u, Attending env u →
      Attending env (u.log (.controlRead read)) :=
    fun read u hu => hu.socketless fun _ _ _ => rfl
  apply triple_handleMessageServer message
  · exact fun _ u hu => (((hread _ u hu.1).withErrno _).enter _).holding nofun
  · exact fun _ u hu => ((hread _ u hu.1).withErrno _).sockets
  · intro value state _ _ hquiet u hu
    have hentered := (hread (.byte value) u hu.1).enter state
    rcases hquiet with rfl | rfl
    · exact hentered.holding nofun
    · exact hentered.holding nofun
  · rintro value hbyte hend u ⟨hu, hnone⟩
    have hended : Attending env
        (((u.log (.controlRead (.byte value))).enter .testEnd).log (.endOfTest u.state)) :=
      ((hread _ u hu).enter _).socketless fun _ _ _ => rfl
    exact handleTestEnd_holding message _ ⟨hended, hnone ⟨value, hbyte, Or.inl hend⟩⟩
  · rintro value hbyte hterminate u ⟨hu, hnone⟩
    have hterminated : Attending env
        (((u.log (.controlRead (.byte value))).enter .clientTerminate).withErrno
          .ieClientTerm) := ((hread _ u hu).enter _).withErrno _
    have hempty : u.streams = [] := hnone ⟨value, hbyte, Or.inr hterminate⟩
    exact ((hterminated.streamsClosed hempty).enter _).holding nofun
  · exact fun value _ _ u hu => (((hread _ u hu.1).enter _).withErrno _).sockets

/-! ### A data connection -/

variable (env) in
/-- A server that takes the data connections of a test with this protocol. -/
structure Taking (P : ServerSockets → Prop) (protocol : ProtocolId) (s : Server) : Prop where
  sockets : SocketsMeet env P s
  protocol : s.test.protocol = protocol
  state : s.state = .createStreams
  ctrlSck : s.ctrlSck = true
  timer : s.timer = false

theorem acceptStream_taking {b : Build} {protocol : ProtocolId} {E : Server → Prop}
    (data : StreamEnv) (honce : ∀ x, P x → x.descriptors.closedTwice = false)
    (haccepted : ∀ i x, P x → P (x.dataAccepted env i protocol))
    (hnew : ∀ x : ServerSockets, P x →
      P { x with streams := x.streams ++ [x.data], data := none })
    (hfails : ∀ (code : ErrorCode) u, Taking env P protocol u →
      E ((u.noteAccept (.failed code)).withErrno code))
    (herror : ∀ code u, Taking env P protocol u → E (u.withErrno code))
    (hsetup : ∀ (code : ErrorCode) u, Taking env P protocol u →
      E ((u.log .dataClosed).cleanupServer.withErrno code)) :
    Triple (Taking env P protocol) (acceptStream b data) (Taking env P protocol) E := by
  have hstream : ∀ closed, Triple (Taking env P protocol) (newServerStream data closed)
      (Taking env P protocol) E := by
    intro closed u hu
    have hcounted : Taking env P protocol (u.countAccepted u.nextSender) := by
      unfold Server.countAccepted
      split
      · exact ⟨hu.sockets.congr rfl rfl, hu.protocol, hu.state, hu.ctrlSck, hu.timer⟩
      · exact ⟨hu.sockets.congr rfl rfl, hu.protocol, hu.state, hu.ctrlSck, hu.timer⟩
      · exact hu
    have hstreams : (u.countAccepted u.nextSender).streams = u.streams := by
      unfold Server.countAccepted
      split <;> rfl
    unfold newServerStream
    dsimp only
    split
    · exact ⟨fun _ => hcounted, nofun⟩
    · exact ⟨nofun, fun _ => herror _ _ hcounted⟩
    · rename_i sender buffer _ _
      split_ifs
      · exact ⟨nofun, fun _ => herror _ _ hcounted⟩
      · refine ⟨fun _ => ⟨?_, hcounted.protocol, hcounted.state, hcounted.ctrlSck,
          hcounted.timer⟩, nofun⟩
        refine hcounted.sockets.log rfl honce (fun _ => hnew _ hcounted.sockets.sockets) fun _ => ?_
        simp [ServerSockets.call, Server.log, iperfAddStream, hcounted.sockets.streams, hstreams]
  apply triple_acceptStream (M := fun _ => Taking env P protocol) data hfails
  · intro closed u hu
    cases closed with
    | true => exact hu
    | false =>
        refine ⟨?_, hu.protocol, hu.state, hu.ctrlSck, hu.timer⟩
        unfold Server.noteAccept
        rw [hu.protocol]
        refine hu.sockets.log rfl honce (fun i => haccepted i _ hu.sockets.sockets) fun i => ?_
        refine Eq.trans ?_ hu.sockets.streams
        simp only [ServerSockets.call, ServerSockets.dataAccepted]
        split <;> rfl
  · exact fun _ u hu => herror _ u hu
  · exact fun u hu => hu
  · exact fun _ code u hu => hsetup code u hu
  · exact fun _ name u hu =>
      ⟨hu.sockets.congr rfl rfl, hu.protocol, hu.state, hu.ctrlSck, hu.timer⟩
  · exact hstream

/-- A connection to a TCP test becomes a stream, or is turned away for its
cookie. -/
def TakesData (b : Build) (data : StreamEnv) (s : Server) : Prop :=
  data.accepted = true ∧ ∃ presented, data.cookie = .bytes presented ∧
    if sameCookie s.cookie presented then
      (s.test.settings.tos = 0 ∨ data.tosSet = true) ∧
        (data.socketSetup = none ∨ b.windows = true) ∧
          (s.nextSender = none ∨ data.buffer.isSome = true)
    else
      s.test.settings.tos = 0 ∧
        (b.windows = false ∨ data.staleEbadf = true ∨ s.nextSender = none)

theorem newServerStream_ok {data : StreamEnv} {closed : Bool}
    (h : s.nextSender = none ∨ closed = false ∧ data.buffer.isSome = true) :
    (newServerStream data closed s).2 = true := by
  unfold newServerStream
  dsimp only
  split
  · rfl
  · simp_all
  · simp_all

theorem acceptStream_takes {b : Build} {data : StreamEnv} (hprotocol : s.test.protocol = .tcp)
    (h : TakesData b data s) : (acceptStream b data s).2 = true := by
  obtain ⟨haccepted, presented, hcookie, htakes⟩ := h
  have hsocket : protocolAccept data s = .socket (!sameCookie s.cookie presented) := by
    simp [protocolAccept, hprotocol, iperfTcpAccept, haccepted, hcookie]
  have hnext : ∀ u : Server, u.nextSender = s.nextSender →
      (u.noteCongestion b data.congestionUsed).nextSender = s.nextSender := by
    intro u hu
    unfold Server.noteCongestion
    split_ifs <;> exact hu
  have htaken : ∀ closed, s.test.settings.tos = 0 ∨ closed = false ∧ data.tosSet = true →
      isClosed b data closed = true ∨ (data.socketSetup = none ∨ b.windows = true) ∧
        (s.nextSender = none ∨ closed = false ∧ data.buffer.isSome = true) →
      ∀ u : Server, u.nextSender = s.nextSender → u.test.settings.tos = s.test.settings.tos →
      (u.check (u.test.settings.tos = 0 || (!closed && data.tosSet)) .ieSetTos
        |> andThen (fun s =>
          if isClosed b data closed then (s, true)
          else
            s.setUp b data.socketSetup
            |> andThen (fun s =>
              newServerStream data closed (s.noteCongestion b data.congestionUsed)))).2 =
        true := by
    intro closed htos hstream u hu hsame
    have hchecked : u.check (u.test.settings.tos = 0 || (!closed && data.tosSet)) .ieSetTos =
        (u, true) := by
      unfold Server.check
      rw [if_pos]
      rcases htos with hzero | ⟨rfl, hset⟩
      · simp [hsame, hzero]
      · simp [hset]
    rw [hchecked]
    unfold andThen
    rw [if_pos rfl]
    split_ifs with hdrop
    · rfl
    · obtain ⟨hsetup, hbuffer⟩ := hstream.resolve_left hdrop
      have hset : u.setUp b data.socketSetup = (u, true) := by
        unfold Server.setUp
        rcases hsetup with hnone | hwindows
        · rw [hnone]
        · cases data.socketSetup <;> simp [hwindows]
      dsimp only
      rw [hset, if_pos rfl]
      apply newServerStream_ok
      rw [hnext u hu]
      exact hbuffer
  unfold acceptStream
  rw [hsocket]
  split_ifs at htakes with hcookies
  · obtain ⟨htos, hsetup, hbuffer⟩ := htakes
    rw [hcookies]
    exact htaken false (htos.imp_right fun h => ⟨rfl, h⟩)
      (Or.inr ⟨hsetup, hbuffer.imp_right fun h => ⟨rfl, h⟩⟩) (s.noteAccept (.socket false)) rfl rfl
  · obtain ⟨htos, hdropped⟩ := htakes
    rw [Bool.not_eq_true] at hcookies
    rw [hcookies]
    refine htaken true (Or.inl htos) ?_ s rfl rfl
    by_cases hwindows : b.windows = true
    · rcases hdropped with hlinux | hebadf | hnone
      · exact absurd (hwindows.symm.trans hlinux) (by decide)
      · exact Or.inl (by simp [isClosed, hebadf])
      · exact Or.inr ⟨Or.inr hwindows, Or.inl hnone⟩
    · exact Or.inl (by simp [isClosed, hwindows])

theorem acceptStream_holding {b : Build} {data : StreamEnv} (h : Holding env s)
    (hstate : s.state = .createStreams) (htakes : s.WaitsTcp → TakesData b data s) :
    Triple (fun u : Server => u = s) (acceptStream b data) (Holding env)
      (SocketsMeet env Separate) := by
  have hctrl := h.connected hstate
  have htimer := h.timer (Or.inl hstate)
  by_cases hwaits : s.WaitsTcp
  · -- nothing may fail while the listener is shared
    have htriple : Triple (Taking env Shared .tcp) (acceptStream b data)
        (Taking env Shared .tcp) (fun _ => True) :=
      acceptStream_taking data (fun _ hx => hx.once) (fun _ _ hx => hx.dataAccepted)
        (fun _ hx => hx.newStream) (fun _ _ _ => trivial) (fun _ _ _ => trivial)
        (fun _ _ _ => trivial)
    rintro u rfl
    have htaken := (htriple u ⟨h.shared hwaits, hwaits.2, hstate, hctrl, htimer⟩).1
    have hok := acceptStream_takes hwaits.2 (htakes hwaits)
    refine ⟨fun hs => ?_, fun hfails => absurd (hok.symm.trans hfails) (by decide)⟩
    have htaking := htaken hs
    exact ⟨fun hne => absurd ⟨htaking.state, htaking.protocol⟩ hne, fun _ => htaking.sockets,
      fun _ => htaking.timer, fun _ => htaking.ctrlSck⟩
  · have hseparate := h.separate hwaits
    have hne : s.test.protocol ≠ .tcp := fun htcp => hwaits ⟨hstate, htcp⟩
    have hlost : ∀ (code : ErrorCode) u, Taking env Separate s.test.protocol u →
        SocketsMeet env Separate ((u.noteAccept (.failed code)).withErrno code) := by
      intro code u hu
      have hnoted : SocketsMeet env Separate (u.noteAccept (.failed code)) := by
        unfold Server.noteAccept
        dsimp only
        split_ifs
        · exact hu.sockets.log rfl (fun _ hx => hx.once)
            (fun _ => hu.sockets.sockets.dropProtListener) fun _ => hu.sockets.streams
        · exact hu.sockets.log rfl (fun _ hx => hx.once)
            (fun _ => hu.sockets.sockets.openProtListener) fun _ => hu.sockets.streams
        · exact hu.sockets
        · exact hu.sockets
      exact hnoted.withErrno _
    have hclosed : ∀ (code : ErrorCode) u, Taking env Separate s.test.protocol u →
        SocketsMeet env Separate ((u.log .dataClosed).cleanupServer.withErrno code) := by
      intro code u hu
      have hdata : SocketsMeet env Separate (u.log .dataClosed) :=
        hu.sockets.log rfl (fun _ hx => hx.once) (fun _ => hu.sockets.sockets.closeData)
          fun _ => hu.sockets.streams
      exact hdata.cleanupServer.withErrno _
    have htriple : Triple (Taking env Separate s.test.protocol) (acceptStream b data)
        (Taking env Separate s.test.protocol) (SocketsMeet env Separate) :=
      acceptStream_taking data (fun _ hx => hx.once) (fun _ _ hx => hx.dataAccepted _)
        (fun _ hx => hx.newStream) hlost (fun code _ hu => hu.sockets.withErrno code) hclosed
    refine htriple.weaken ?_ (fun u hu => ?_) (fun _ hu => hu)
    · rintro u rfl
      exact ⟨hseparate, rfl, hstate, hctrl, htimer⟩
    · exact ⟨fun _ => hu.sockets, fun hcreate => absurd (hu.protocol.symm.trans hcreate.2) hne,
        fun _ => hu.timer, fun _ => hu.ctrlSck⟩

/-! ### The start of a test -/

theorem startTest_holding (start : StartEnv) (hrelistened : start.relistened = true) :
    Triple (fun u : Server => Holding env u ∧ u.state = .createStreams)
      (fun u => startTest start u |> andThen (createWorkers start)) (Holding env)
      (SocketsMeet env Separate) := by
  have hcomplete : ∀ u, Holding env u ∧ u.state = .createStreams →
      Attending env (u.closeProtListener.log
        (.streamsComplete u.test.protocol u.reopensListener start.relistened)) := by
    rintro u ⟨hu, hstate⟩
    refine ⟨?_, hu.connected hstate⟩
    have hlength : ∀ (x : ServerSockets) i protocol reopens,
        (x.streamsComplete env i protocol reopens start.relistened).streams.length =
          x.streams.length := by
      intro x i protocol reopens
      unfold ServerSockets.streamsComplete
      dsimp only
      split_ifs <;> rfl
    by_cases hwaits : u.WaitsTcp
    · have hshared := hu.shared hwaits
      rw [hwaits.2]
      exact hshared.log rfl (fun _ hx => hx.once)
        (fun _ => hshared.sockets.streamsComplete (by simp [hrelistened]))
        fun _ => (hlength ..).trans hshared.streams
    · have hseparate := hu.separate hwaits
      exact hseparate.log rfl (fun _ hx => hx.once)
        (fun _ => hseparate.sockets.streamsComplete fun htcp => hwaits ⟨hstate, htcp⟩)
        fun _ => (hlength ..).trans hseparate.streams
  have htimers : Keeps (Attending env)
      (fun u => createServerTimers start (u.stampStreams start.now)) := by
    intro u hu
    have hstamped : Attending env (u.stampStreams start.now) :=
      ⟨hu.sockets.congr rfl (List.length_map _), hu.ctrlSck⟩
    exact createServerTimers_keeps (fun code _ _ hs => hs.withErrno code)
      (fun _ _ hs => hs.socketless fun _ _ _ => rfl)
      (fun _ _ _ hs => hs.socketless fun _ _ _ => rfl)
      (fun _ _ _ hs => ⟨hs.sockets.congr rfl rfl, hs.ctrlSck⟩) start _ hstamped
  have hstart :
      Triple (fun u : Server => Holding env u ∧ u.state = .createStreams) (startTest start)
      (fun u => SocketsMeet env Separate u ∧ u.state ≠ .createStreams ∧
        (u.ctrlSck = false → u.timer = false)) (SocketsMeet env Separate) := by
    apply triple_startTest (N := Attending env) (T := Attending env) start
    · exact fun u hu _ => hcomplete u hu
    · exact fun u _ hfails => by simp [hrelistened] at hfails
    · exact fun u hu => hu.ctrlSck
    · exact fun u hu => hu.sockets.cleanupServer.withErrno _
    · exact fun u hu => (hu.enter _).socketless fun _ _ _ => rfl
    · exact fun u hu => ((hu.enter _).withErrno _).sockets
    · exact fun u hu => (hu.withErrno _).sockets
    · exact (Triple.of_keeps htimers).weaken (fun _ hu => hu) (fun _ hu => hu)
        fun _ hu => hu.sockets
    · exact fun u hu => hu.ctrlSck
    · intro u hu
      have hrunning : Attending env ((u.enter .testRunning).log (.sent .testRunning)) :=
        (hu.enter _).socketless fun _ _ _ => rfl
      exact ⟨hrunning.sockets, nofun, fun hfree => absurd (hfree.symm.trans hu.ctrlSck) (by decide)⟩
    · exact fun u hu => ((hu.enter _).withErrno _).sockets
  have hworkers : Triple (fun u : Server => SocketsMeet env Separate u ∧ u.state ≠ .createStreams ∧
      (u.ctrlSck = false → u.timer = false)) (createWorkers start)
      (fun u => SocketsMeet env Separate u ∧ u.state ≠ .createStreams ∧
        (u.ctrlSck = false → u.timer = false)) (SocketsMeet env Separate) := by
    apply triple_createWorkers start
    · rintro code hcode u ⟨hu, hstate, -⟩
      exact ⟨(hu.withErrno code).cleanupServer,
        cleanupServer_left (fun h => absurd h hstate) (by decide) hcode, fun _ => rfl⟩
    · rintro threads u ⟨hu, hstate, htimer⟩
      exact ⟨hu.log rfl (fun _ hx => hx.once) (fun _ => hu.sockets)
        fun _ => hu.streams.trans (by simp [Server.spawn, Server.log]), hstate, htimer⟩
    · exact fun u hu => hu.1.withErrno _
  refine (hstart.andThen hworkers).weaken (fun _ hu => hu) ?_ fun _ hu => hu
  rintro u ⟨hu, hstate, htimer⟩
  exact ⟨fun _ => hu, fun hwaits => absurd hwaits.1 hstate,
    fun hidle => htimer (hidle.resolve_left hstate), fun hcreate => absurd hcreate hstate⟩

/-! ### The duration timer -/

/-- The callback closes the streams and the control connection, and they are
gone. -/
theorem serverTimerProc_holding (h : Holding env s) (htimer : s.timer = true) (sent : Bool) :
    Holding env (s.serverTimerProc sent) := by
  have hstate : s.state ≠ .createStreams := by
    intro hcreate
    exact absurd (htimer.symm.trans (h.timer (Or.inl hcreate))) (by decide)
  have hexpired : SocketsMeet env Separate (s.log (.timerExpired .duration)) :=
    (h.separate fun hwaits => hstate hwaits.1).socketless fun _ _ _ => rfl
  have hflags : SocketsMeet env Separate
      { s.log (.timerExpired .duration) with done := true, timer := false } :=
    hexpired.congr rfl rfl
  have hannounced : SocketsMeet env Separate
      ((s.log (.timerExpired .duration)).announceExpiry sent) := by
    unfold Server.announceExpiry
    dsimp only
    split_ifs
    · exact (hflags.setSendState sent _).withErrno _
    · exact hflags.setSendState sent _
  have hleft : ((s.log (.timerExpired .duration)).announceExpiry sent).state ≠ .createStreams :=
    announceExpiry_left (s := s.log (.timerExpired .duration))
      (fun hcreate => absurd hcreate hstate) (by decide) sent
  have hstopped : ((s.log (.timerExpired .duration)).announceExpiry sent).timer = false := by
    unfold Server.announceExpiry Server.setSendState
    dsimp only
    split_ifs <;> rfl
  unfold Server.serverTimerProc
  dsimp only
  split_ifs
  · exact ⟨fun _ => hexpired.congr rfl rfl, fun hwaits => absurd hwaits.1 hstate, fun _ => rfl,
      fun hcreate => absurd hcreate hstate⟩
  · refine ⟨fun _ => ?_, fun hwaits => absurd hwaits.1 hleft, fun _ => hstopped,
      fun hcreate => absurd hcreate hleft⟩
    exact hannounced.log rfl (fun _ hx => hx.once) (fun _ => hannounced.sockets.freeStreams)
      fun _ => rfl

/-! ## Runs -/

/-- No message closes the sockets of streams, and while the listener of a TCP
test is shared nothing fails and the client is silent. -/
def KeepsSockets (b : Build) (s : Server) : ServerEvent → Prop
  | .turn env =>
      (s.ctrlSck = true → ∀ message, env.control = some message →
        ¬ s.WaitsTcp ∧ (message.ClosesStreams → s.streams = [])) ∧
      (s.WaitsTcp → ∀ data, env.data = some data → TakesData b data s) ∧
      (s.ctrlSck = false → s.state ≠ .createStreams → ∀ accept, env.listener = some accept →
        accept.accepted = true → ListensSafely b accept s) ∧
      env.start.relistened = true
  | .rateExceeded _ | .selectFails => ¬ s.WaitsTcp
  | .noMessage => s.WaitsTcp → s.test.mode = .sender
  | _ => True

variable (env) in
theorem socketRules (b : Build) :
    ServerRules b (KeepsSockets b) (Holding env) (SocketsMeet env Separate)
      (fun s => ClosedOnce env s.calls)
      (fun s => SocketsMeet env Separate s ∧ s.timer = false) where
  listens s h := by
    refine ⟨fun _ => ?_, nofun, fun _ => h.2, nofun⟩
    exact h.1.log rfl (fun _ hx => hx.once) (fun _ => h.1.sockets.openListener) fun _ => h.1.streams
  noLogfile s h := h.1.once
  startFails code s h := h.1.withErrno code
  traffic update s h :=
    ⟨fun hwaits => (h.separate hwaits).congr rfl (List.length_map _),
      fun hwaits => (h.shared hwaits).congr rfl (List.length_map _), h.timer, h.connected⟩
  worker i error s h := by
    have hreturned : ∀ P, SocketsMeet env P s →
        SocketsMeet env P ((s.checkError error).1.log (.workerReturned i)) := by
      intro P hP
      cases error with
      | none => exact hP.socketless fun _ _ _ => rfl
      | some code => exact (hP.withErrno code).socketless fun _ _ _ => rfl
    cases error <;> exact ⟨fun hwaits => hreturned _ (h.separate hwaits),
      fun hwaits => hreturned _ (h.shared hwaits), h.timer, h.connected⟩
  timer timer s hduration h :=
    ⟨fun hwaits => (h.separate hwaits).socketless fun _ _ _ => rfl,
      fun hwaits => (h.shared hwaits).socketless fun _ _ _ => rfl, h.timer, h.connected⟩
  expire sent s hC htimer h := serverTimerProc_holding h htimer sent
  turn turn s hC hdone h := by
    obtain ⟨hcontrol, hdata, haccept, hrelistened⟩ := hC
    apply serverTurn_rule (E := SocketsMeet env Separate) h
    · exact fun hstate _ _ _ hs => (hs.separate fun hwaits => hstate hwaits.1).withErrno _
    · exact fun hs => ⟨fun hwaits => (hs.separate hwaits).congr rfl rfl,
        fun hwaits => (hs.shared hwaits).congr rfl rfl, hs.timer, hs.connected⟩
    · exact fun hfree hstate accept hlistener haccepted =>
        acceptClient_holding h hfree (haccept hfree hstate accept hlistener haccepted)
    · intro hctrl message hmessage
      obtain ⟨hwaits, hcloses⟩ := hcontrol hctrl message hmessage
      refine (handleMessageServer_holding message).weaken ?_ (fun _ hu => hu) fun _ hu => hu
      have hattending : Attending env s := ⟨h.separate hwaits, hctrl⟩
      rintro u ⟨-, rfl | rfl⟩
      · exact ⟨hattending, hcloses⟩
      · exact ⟨⟨hattending.sockets.congr rfl rfl, hctrl⟩, hcloses⟩
    · exact fun hstate data hready =>
        acceptStream_holding h hstate fun hwaits => hdata hwaits data hready
    · exact startTest_holding turn.start hrelistened
  rateExceeded sent s hC hdone h := ((h.separate hC).withErrno _).setSendState sent _
  selectFails s hC hdone h := h.separate hC
  idleTimeout oneOff s hC hstart h := by
    have hidle : ¬ s.WaitsTcp := fun hwaits => by simpa [hstart] using hwaits.1
    exact (h.separate hidle).socketless fun _ _ _ => rfl
  noMessage s hC hquiet h := by
    have hidle : ¬ s.WaitsTcp := fun hwaits => hquiet (Or.inr (Or.inr (Or.inl (hC hwaits))))
    exact (h.separate hidle).withErrno _
  finish jsonFinished affinityCleared s hC hjson hdone h := by
    have hidle : ¬ s.WaitsTcp := fun hwaits => by simpa [hdone] using hwaits.1
    exact h.separate hidle
  noJson affinityCleared s hC hjson hdone h := by
    have hidle : ¬ s.WaitsTcp := fun hwaits => by simpa [hdone] using hwaits.1
    exact (h.separate hidle).once
  cleanup s h := h.cleanupServer.once
  late s h := h.withErrno _
  reset s h := by
    have hreset : (s.sockets env).descriptors.closedTwice = false := h.closedTwice
    have hsockets : ((Process.resetTest b s).sockets env) = (s.sockets env).iperfResetTest :=
      sockets_log s .reset
    refine ⟨⟨ClosedOnce.log (s := s) h ?_, ?_, ?_⟩, rfl⟩
    · rw [sockets_log]
      exact hreset
    · rw [hsockets]
      exact separate_iperfResetTest hreset
    · rw [hsockets]
      rfl
  exits s h := h.1.once

end Turn

/-- In a run in which no message closes the sockets of streams, and nothing
happens to the shared listener of a TCP test, no number is closed twice. -/
theorem sockets_closed_once
    (b : Build) (side : TestSide) (env : SocketEnv) {events : List ServerEvent}
    (hrun : (serverProcess side).Meets b (KeepsSockets b) events) :
    ClosedOnce env ((serverProcess side).run b events).server.calls := by
  have hstart : (serverProcess side).Holds (Holding env) (fun s => ClosedOnce env s.calls)
      (fun s => SocketsMeet env Separate s ∧ s.timer = false) :=
    ⟨⟨always_nil _, Descriptors.owns_zero rfl, rfl⟩, rfl⟩
  have hend := (socketRules env b).run hstart hrun
  unfold Process.Holds at hend
  split at hend
  · exact hend.1.once
  · by_cases hwaits : ((serverProcess side).run b events).server.WaitsTcp
    · exact (hend.shared hwaits).once
    · exact (hend.separate hwaits).once
  · exact hend
  · exact hend

/-! ## A test that ends -/

/-- The lowest number that is free, after the three standard ones. -/
def lowestFree (opened : Finset ℕ) : ℕ :=
  ((List.range' 3 (opened.card + 1)).find? (· ∉ opened)).getD 0

theorem lowestFree_notMem (opened : Finset ℕ) : lowestFree opened ∉ opened := by
  unfold lowestFree
  cases hfind : (List.range' 3 (opened.card + 1)).find? (· ∉ opened) with
  | some n => simpa using List.find?_some hfind
  | none =>
      -- then there are more numbers in the range than are open
      have hsub : (List.range' 3 (opened.card + 1)).toFinset ⊆ opened := by
        intro n hn
        simpa using List.find?_eq_none.mp hfind n (List.mem_toFinset.mp hn)
      have hcard := Finset.card_le_card hsub
      rw [List.toFinset_card_of_nodup List.nodup_range', List.length_range'] at hcard
      omega

def exampleSocketEnv : SocketEnv where
  next _ := lowestFree
  fresh _ := lowestFree_notMem

/-- The duration timer ends the test, and the server starts again. -/
def expiredTest : List ServerEvent :=
  startedTest ++ [.expire true, .selectFails, .reset true false, .start .listens]

theorem sockets_closed_once_expired :
    ((defaultServer Build.linux).run Build.linux expiredTest).phase = .running ∧
      ClosedOnce exampleSocketEnv
        ((defaultServer Build.linux).run Build.linux expiredTest).server.calls := by
  constructor
  · rfl
  · apply sockets_closed_once
    refine ⟨nofun, fun _ => ⟨fun _ _ => nofun, fun _ _ => nofun, ?_, rfl⟩,
      fun _ => ⟨fun _ _ => nofun, ?_, fun _ _ _ => nofun, rfl⟩, fun _ => trivial, ?_, nofun,
      nofun, trivial⟩
    · intro _ _ accept haccept _
      rw [← Option.some.inj haccept]
      exact fun _ _ _ => ⟨rfl, rfl, Or.inr rfl⟩
    · intro _ data hdata
      rw [← Option.some.inj hdata]
      exact ⟨rfl, _, rfl, by decide +kernel⟩
    · exact fun _ hwaits => absurd hwaits (by decide)

/-- At the end of a test the sockets of its streams are closed with the
traffic and again with the cleanup. -/
theorem completed_test_closes_twice :
    ¬ ClosedOnce exampleSocketEnv
      ((defaultServer Build.linux).run Build.linux completedTest).server.calls := by
  intro h
  have hlast := h.closedTwice
  revert hlast
  decide +kernel

end Iperf3
