import Iperf3.ServerSockets
import Iperf3.SocketSetup

/-!
# The sockets of TCP streams

The options that `iperf_tcp_connect` and `iperf_tcp_listen` set, the buffer
sizes that they read back, and the error code that each failure leaves.
-/

namespace Iperf3

namespace SocketSetup

open Fallible

inductive SetupErrno where
  | ieNone
  | ieStreamConnect
  | ieStreamListen
  | ieSetNodelay
  | ieSetMss
  | ieSetBuf
  | ieSetBuf2
  | ieSetUserTimeout
  | ieSetFlow
  | ieSetTos
  | ieSetCos
  | ieReuseAddr
  | ieV6Only
  | ieSendCookie
  deriving DecidableEq, Repr

/-- What the sockets of a test are made from, besides its other settings. -/
structure Endpoint where
  domain : AddressFamily
  bindAddress : Option String
  bindDev : Option String
  bindPort : ℤ
  serverHostname : String
  serverPort : ℤ
  sndTimeout : ℤ
  mappedV4 : Bool

abbrev TcpProgram (α : Type) : Type :=
  Program SetupErrno α

variable {α : Type} (b : SocketBuild) (k : Kernel) (e : Endpoint) (t : Test)

def setError (code : SetupErrno) (p : SystemState SetupErrno) : SystemState SetupErrno :=
  { p with iErrno := code }

/-- The socket is closed and the list freed, with `errno` saved over it. -/
def failWith (s : ℕ) (lists : List AddrInfo) (code : SetupErrno) : TcpProgram α :=
  giveUpAfter fun p => setError code (k.abandon s lists p)

def setOption (s : ℕ) (lists : List AddrInfo) (option : SocketOption) (value : ℤ)
    (code : SetupErrno) : TcpProgram Unit :=
  (k.request (.setsockopt s option value)).otherwise (failWith k s lists code)

/-- The size of a buffer is read back; it may be larger than the one set. -/
def checkBuffer (s : ℕ) (lists : List AddrInfo) (option : SocketOption) : TcpProgram Unit := do
  let actual ← (k.syscall (.getsockopt s option)).otherwise (failWith k s lists .ieSetBuf)
  provided (t.settings.socketBufsize ≠ 0 ∧ actual < t.settings.socketBufsize) <|
    giveUpAfter fun p => setError .ieSetBuf2 (k.freeaddrinfos lists (k.close s p))

def checkBuffers (s : ℕ) (lists : List AddrInfo) : TcpProgram Unit := do
  checkBuffer k t s lists .sndbuf
  checkBuffer k t s lists .rcvbuf

def mptcpProto : ℤ := 262

/-- Each option that both programs set. -/
def setOptions (s : ℕ) (lists : List AddrInfo) : TcpProgram Unit := do
  provided (t.noDelay ≠ 0) <| setOption k s lists .nodelay 1 .ieSetNodelay
  provided (t.settings.mss ≠ 0) <| setOption k s lists .maxseg t.settings.mss .ieSetMss
  provided (t.settings.socketBufsize ≠ 0) do
    setOption k s lists .rcvbuf t.settings.socketBufsize .ieSetBuf
    setOption k s lists .sndbuf t.settings.socketBufsize .ieSetBuf

def setFlowlabel (s : ℕ) (serverRes : AddrInfo) : TcpProgram Unit :=
  if serverRes.family ≠ .inet6 then failWith k s [serverRes] .ieSetFlow
  else do
    setOption k s [serverRes] .flowlabelMgr (t.settings.flowlabel % 2 ^ 20) .ieSetFlow
    setOption k s [serverRes] .flowinfoSend 1 .ieSetFlow

/-- The caller goes on when this fails, and leaves the error code. -/
def iperfCommonSockopts (s : ℕ) : TcpProgram Unit :=
  provided (t.settings.tos ≠ 0) do
    let family ← (k.syscall (.getsockname s)).otherwise (pure (-1))
    if family = k.afInet6 then do
      (k.request (.setsockopt s .tclass t.settings.tos)).otherwise
        (giveUpAfter (setError .ieSetCos))
      provided (e.mappedV4) <|
        (k.request (.setsockopt s .tos t.settings.tos)).otherwise (pure ())
    else
      (k.request (.setsockopt s .tos t.settings.tos)).otherwise
        (giveUpAfter (setError .ieSetTos))

def iperfTcpConnect : TcpProgram ℕ := do
  let proto := if b.haveIpprotoMptcp ∧ t.mptcp ≠ 0 then mptcpProto else 0
  let (s, serverRes) ← (createSocket b k e.domain .stream proto e.bindAddress e.bindDev
    e.bindPort e.serverHostname e.serverPort).otherwise
      (giveUpAfter (setError .ieStreamConnect))
  setOptions k t s [serverRes]
  provided (b.haveTcpUserTimeout ∧ e.sndTimeout ≠ 0) <|
    setOption k s [serverRes] .userTimeout e.sndTimeout .ieSetUserTimeout
  checkBuffers k t s [serverRes]
  provided (b.haveFlowlabel ∧ t.settings.flowlabel ≠ 0) <| setFlowlabel k t s serverRes
  provided (b.haveSoMaxPacingRate ∧ t.settings.fqrate / 8 ≠ 0) <|
    (k.request (.setsockopt s .maxPacingRate (t.settings.fqrate / 8 : ℕ))).otherwise (pure ())
  (iperfCommonSockopts k e t s).otherwise (pure ())
  (k.request (.connect s (.resolved serverRes none))).otherwise <|
    reading fun p =>
      if p.errno = k.einprogress then pure () else failWith k s [serverRes] .ieStreamConnect
  update (k.freeaddrinfos [serverRes])
  (k.request (.write s)).otherwise (failWith k s [] .ieSendCookie)
  return s

/-! ## Listening -/

/-- The listener of the server is closed and made again. -/
def recreateListener (listener : ℕ) : TcpProgram ℕ := do
  update (k.close listener)
  let family := if e.domain = .unspec ∧ e.bindAddress.isNone then .inet6 else e.domain
  let res ← (k.getaddrinfo e.bindAddress (some e.serverPort) family .stream true).otherwise
    (giveUpAfter (setError .ieStreamListen))
  let proto := if b.haveIpprotoMptcp ∧ t.mptcp ≠ 0 then mptcpProto else 0
  let s ← (k.socket res.family .stream proto).otherwise
    (giveUpAfter fun p => setError .ieStreamListen (k.freeaddrinfos [res] p))
  setOptions k t s [res]
  setOption k s [res] .reuseAddr 1 .ieReuseAddr
  provided (res.family = .inet6 ∧ (e.domain = .unspec ∨ e.domain = .inet)) <|
    setOption k s [res] .v6Only (if e.domain = .unspec then 0 else 1) .ieV6Only
  (k.request (.bind s (.resolved res none))).otherwise (failWith k s [res] .ieStreamListen)
  update (k.freeaddrinfos [res])
  (k.request (.listen s)).otherwise
    (giveUpAfter fun p => k.close s (setError .ieStreamListen p))
  return s

def recreatesListener : Prop :=
  t.noDelay ≠ 0 ∨ t.mptcp ≠ 0 ∨ t.settings.mss ≠ 0 ∨ t.settings.socketBufsize ≠ 0

instance : Decidable (recreatesListener t) :=
  inferInstanceAs (Decidable (_ ∨ _ ∨ _ ∨ _))

def iperfTcpListen (listener : ℕ) : TcpProgram ℕ := do
  let s ← (if recreatesListener t then recreateListener b k e t listener else pure listener)
  checkBuffers k t s []
  return s

/-! ## What a failure leaves -/

/-- The error code of a program whose sockets are refused with `base`. -/
def setupCode (base : SetupErrno) : Reason → SetupErrno
  | .refused (.setsockopt _ .nodelay _) => .ieSetNodelay
  | .refused (.setsockopt _ .maxseg _) => .ieSetMss
  | .refused (.setsockopt _ .rcvbuf _) => .ieSetBuf
  | .refused (.setsockopt _ .sndbuf _) => .ieSetBuf
  | .refused (.setsockopt _ .userTimeout _) => .ieSetUserTimeout
  | .refused (.setsockopt _ .flowlabelMgr _) => .ieSetFlow
  | .refused (.setsockopt _ .flowinfoSend _) => .ieSetFlow
  | .refused (.setsockopt _ .reuseAddr _) => .ieReuseAddr
  | .refused (.setsockopt _ .v6Only _) => .ieV6Only
  | .refused (.getsockopt _ _) => .ieSetBuf
  | .refused (.write _) => .ieSendCookie
  | .wrongFamily _ => .ieSetFlow
  | .insufficient _ _ _ => .ieSetBuf2
  | _ => base

theorem setupCode_of_creation (base : SetupErrno) {reason : Reason} (h : IsCreation reason) :
    setupCode base reason = base := by
  cases reason with
  | refused c =>
      cases c with
      | setsockopt s option value =>
          cases option with
          | bindToDevice device => rfl
          | _ => exact h.elim
      | getaddrinfo | socket | bind => rfl
      | _ => exact h.elim
  | unsupported error => rfl
  | wrongFamily family => exact h.elim
  | insufficient c value wanted => exact h.elim

/-- Nothing is left behind, and the error code says why. -/
def Explained (base : SetupErrno) (before p : SystemState SetupErrno) : Prop :=
  before.Holding 0 0 p ∧ ∃ reason, p.Blames reason ∧ p.iErrno = setupCode base reason

section Contracts

variable {b k e t} {before : SystemState SetupErrno} {s : ℕ} {base : SetupErrno}
  (lists : List AddrInfo)

theorem explained_of_setError (reason : Reason) {p : SystemState SetupErrno}
    (hp : before.Holding 0 0 p) (hreason : p.Blames reason) {code : SetupErrno}
    (hcode : setupCode base reason = code) : Explained base before (setError code p) :=
  ⟨hp.same rfl rfl rfl, reason, hreason.same rfl rfl (.inl rfl), hcode.symm⟩

theorem failWith_contract {c : SystemCall} {code : SetupErrno}
    {Q : α → SystemState SetupErrno → Prop}
    (hcode : setupCode base (.refused c) = code) :
    Contract
      (fun p => before.Holding {s} (lists.map AddrInfo.number) p ∧ p.Blames (.refused c))
      (failWith k s lists code) Q (Explained base before) := by
  apply giveUpAfter_contract
  intro p hp
  exact explained_of_setError _ (Kernel.abandon_holding lists hp.1)
    (Kernel.abandon_blames s lists hp.2) hcode

theorem required_contract {c : SystemCall} {code : SetupErrno} (hs : c.sockets ≤ {s})
    (hl : c.lists ≤ lists.map AddrInfo.number) (hcode : setupCode base (.refused c) = code) :
    Contract (before.Holding {s} (lists.map AddrInfo.number))
      ((k.request c).otherwise (failWith k s lists code))
      (fun _ => before.Holding {s} (lists.map AddrInfo.number)) (Explained base before) :=
  (k.request_contract hs hl).otherwise (failWith_contract lists hcode)

theorem setOption_contract {option : SocketOption} {value : ℤ} {code : SetupErrno}
    (hcode : setupCode base (.refused (.setsockopt s option value)) = code) :
    Contract (before.Holding {s} (lists.map AddrInfo.number))
      (setOption k s lists option value code)
      (fun _ => before.Holding {s} (lists.map AddrInfo.number)) (Explained base before) :=
  required_contract lists (c := .setsockopt s option value) le_rfl (Multiset.zero_le _) hcode

theorem checkBuffer_contract (option : SocketOption) :
    Contract (before.Holding {s} (lists.map AddrInfo.number)) (checkBuffer k t s lists option)
      (fun _ => before.Holding {s} (lists.map AddrInfo.number)) (Explained base before) := by
  unfold checkBuffer
  have hread : Contract (before.Holding {s} (lists.map AddrInfo.number)) _ _ _ :=
    k.syscall_contract (c := .getsockopt s option) le_rfl (Multiset.zero_le _)
  apply (hread.otherwise (failWith_contract lists rfl)).bind
  intro actual
  apply Contract.provided
  · rintro ⟨-, hless⟩
    apply giveUpAfter_contract
    rintro p ⟨hp, hanswered⟩
    have hclosed : before.Holding 0 (lists.map AddrInfo.number) (k.close s p) :=
      Kernel.close_holding hp
    have hblames : (k.close s p).Blames
        (.insufficient (.getsockopt s option) actual t.settings.socketBufsize) :=
      ⟨hanswered, hless⟩
    exact explained_of_setError _ (Kernel.freeaddrinfos_holding lists hclosed)
      (Kernel.freeaddrinfos_blames lists hblames trivial) rfl
  · exact fun _ p hp => hp.1

theorem checkBuffers_contract :
    Contract (before.Holding {s} (lists.map AddrInfo.number)) (checkBuffers k t s lists)
      (fun _ => before.Holding {s} (lists.map AddrInfo.number)) (Explained base before) :=
  (checkBuffer_contract lists .sndbuf).seq (checkBuffer_contract lists .rcvbuf)

theorem setOptions_contract :
    Contract (before.Holding {s} (lists.map AddrInfo.number)) (setOptions k t s lists)
      (fun _ => before.Holding {s} (lists.map AddrInfo.number)) (Explained base before) := by
  unfold setOptions
  apply (Contract.provided (fun _ => setOption_contract lists rfl) fun _ _ h => h).seq
  apply (Contract.provided (fun _ => setOption_contract lists rfl) fun _ _ h => h).seq
  apply Contract.provided
  · exact fun _ => (setOption_contract lists rfl).seq (setOption_contract lists rfl)
  · exact fun _ _ h => h

theorem setFlowlabel_contract (serverRes : AddrInfo) :
    Contract (before.Holding {s} {serverRes.number}) (setFlowlabel k t s serverRes)
      (fun _ => before.Holding {s} {serverRes.number}) (Explained base before) := by
  unfold setFlowlabel
  split_ifs with hfamily
  · apply giveUpAfter_contract
    intro p hp
    exact explained_of_setError (.wrongFamily serverRes.family)
      (Kernel.abandon_holding [serverRes] hp) hfamily rfl
  · exact (setOption_contract [serverRes] rfl).seq (setOption_contract [serverRes] rfl)

/-- A call whose failure is ignored. -/
theorem ignored_contract {c : SystemCall} {ss ls : Multiset ℕ} (hs : c.sockets ≤ ss)
    (hl : c.lists ≤ ls) {E : SystemState SetupErrno → Prop} :
    Contract (before.Holding ss ls) ((k.request c).otherwise (pure ()))
      (fun _ => before.Holding ss ls) E :=
  (request_holds hs hl).otherwise (Contract.pure fun _ h => h)

theorem iperfCommonSockopts_contract {ls : Multiset ℕ} :
    Contract (before.Holding {s} ls) (iperfCommonSockopts k e t s)
      (fun _ => before.Holding {s} ls) (before.Holding {s} ls) := by
  have hrefused : ∀ (option : SocketOption) (code : SetupErrno),
      Contract (before.Holding {s} ls)
        ((k.request (.setsockopt s option t.settings.tos)).otherwise
          (giveUpAfter (setError code)))
        (fun _ => before.Holding {s} ls) (before.Holding {s} ls) := by
    intro option code
    apply (request_holds (c := .setsockopt s option _) le_rfl (Multiset.zero_le ls)).otherwise
    exact giveUpAfter_contract fun p hp => hp.same rfl rfl rfl
  apply Contract.provided
  · intro _
    apply Contract.bind (Q := fun _ => before.Holding {s} ls)
    · apply Contract.otherwise (F := before.Holding {s} ls)
      · exact syscall_holds (c := .getsockname s) le_rfl (Multiset.zero_le ls)
      · exact Contract.pure fun _ h => h
    · intro family
      split_ifs
      · apply (hrefused .tclass .ieSetCos).seq
        apply Contract.provided
        · exact fun _ => ignored_contract (c := .setsockopt s _ _) le_rfl (Multiset.zero_le ls)
        · exact fun _ _ h => h
      · exact hrefused .tos .ieSetTos
  · exact fun _ _ h => h

theorem created_contract (domain : AddressFamily) (type : SocketType) (proto : ℤ)
    (localName bindDev : Option String) (localPort : ℤ) (server : String) (port : ℤ) :
    Contract (before.Holding 0 0)
      ((createSocket b k domain type proto localName bindDev localPort server port).otherwise
        (giveUpAfter (setError base)))
      (fun r => before.Holding {r.1} {r.2.number}) (Explained base before) := by
  apply (createSocket_contract ..).otherwise
  apply giveUpAfter_contract
  rintro p ⟨hp, reason, hcreation, hreason⟩
  exact explained_of_setError _ hp hreason (setupCode_of_creation base hcreation)

theorem iperfTcpConnect_contract :
    Contract (before.Holding 0 0) (iperfTcpConnect b k e t) (fun s => before.Holding {s} 0)
      (Explained .ieStreamConnect before) := by
  unfold iperfTcpConnect
  apply (created_contract ..).bind
  rintro ⟨s, serverRes⟩
  apply (setOptions_contract [serverRes]).seq
  apply Contract.seq (Q := fun _ => before.Holding {s} {serverRes.number})
  · apply Contract.provided
    · exact fun _ => setOption_contract [serverRes] rfl
    · exact fun _ _ h => h
  apply (checkBuffers_contract [serverRes]).seq
  apply Contract.seq (Q := fun _ => before.Holding {s} {serverRes.number})
  · exact Contract.provided (fun _ => setFlowlabel_contract serverRes) fun _ _ h => h
  apply Contract.seq (Q := fun _ => before.Holding {s} {serverRes.number})
  · apply Contract.provided
    · exact fun _ => ignored_contract (c := .setsockopt s _ _) le_rfl (Multiset.zero_le _)
    · exact fun _ _ h => h
  apply Contract.seq (Q := fun _ => before.Holding {s} {serverRes.number})
  · exact iperfCommonSockopts_contract.otherwise (Contract.pure fun _ h => h)
  apply Contract.seq (Q := fun _ => before.Holding {s} {serverRes.number})
  · apply (k.request_contract (c := .connect s (.resolved serverRes none)) le_rfl le_rfl).otherwise
    apply Contract.reading
    intro p
    split_ifs
    · exact Contract.pure fun _ h => h.2.1
    · exact (failWith_contract [serverRes] (c := .connect s _) rfl).weaken
        (fun _ h => h.2) (fun _ _ h => h) fun _ h => h
  apply Contract.seq (Q := fun _ => before.Holding {s} 0)
  · exact Contract.update fun _ => Kernel.freeaddrinfos_holding [serverRes]
  apply (required_contract [] (c := .write s) le_rfl le_rfl rfl).seq
  exact Contract.pure fun _ h => h

theorem recreateListener_contract (listener : ℕ) :
    Contract (before.Holding {listener} 0) (recreateListener b k e t listener)
      (fun s => before.Holding {s} 0) (Explained .ieStreamListen before) := by
  unfold recreateListener
  apply Contract.seq (Q := fun _ => before.Holding 0 0)
  · exact Contract.update fun _ => Kernel.close_holding
  apply Contract.bind (Q := fun res => before.Holding 0 ([res].map AddrInfo.number))
  · apply (k.getaddrinfo_contract ..).otherwise
    apply giveUpAfter_contract
    intro p hp
    exact explained_of_setError _ hp.1 hp.2 rfl
  intro res
  apply Contract.bind (Q := fun s => before.Holding {s} ([res].map AddrInfo.number))
  · apply (k.socket_contract ..).otherwise
    apply giveUpAfter_contract
    intro p hp
    exact explained_of_setError _ (Kernel.freeaddrinfos_holding [res] hp.1)
      (Kernel.freeaddrinfos_blames [res] hp.2 trivial) rfl
  intro s
  apply (setOptions_contract [res]).seq
  apply (setOption_contract [res] rfl).seq
  apply Contract.seq (Q := fun _ => before.Holding {s} ([res].map AddrInfo.number))
  · apply Contract.provided
    · exact fun _ => setOption_contract [res] rfl
    · exact fun _ _ h => h
  apply (required_contract [res] (c := .bind s _) le_rfl le_rfl rfl).seq
  apply Contract.seq (Q := fun _ => before.Holding {s} 0)
  · exact Contract.update fun _ => Kernel.freeaddrinfos_holding [res]
  apply Contract.seq (Q := fun _ => before.Holding {s} 0)
  · apply (k.request_contract (c := .listen s) le_rfl le_rfl).otherwise
    apply giveUpAfter_contract
    intro p hp
    have hblames : (k.close s (setError .ieStreamListen p)).Blames (.refused (.listen s)) :=
      hp.2.same rfl rfl (.inr trivial)
    have hset : before.Holding {s} 0 (setError .ieStreamListen p) := hp.1.same rfl rfl rfl
    exact ⟨Kernel.close_holding hset, .refused (.listen s), hblames, rfl⟩
  · exact Contract.pure fun _ h => h

/-- The listener is kept unless an option asks for a new one. -/
theorem iperfTcpListen_contract (listener : ℕ) :
    Contract (before.Holding {listener} 0) (iperfTcpListen b k e t listener)
      (fun s p => before.Holding {s} 0 p ∧ (¬ recreatesListener t → s = listener))
      (Explained .ieStreamListen before) := by
  unfold iperfTcpListen
  apply Contract.bind (Q := fun s p =>
    before.Holding {s} 0 p ∧ (¬ recreatesListener t → s = listener))
  · split_ifs with hrecreates
    · exact (recreateListener_contract listener).weaken (fun _ h => h)
        (fun _ _ h => ⟨h, absurd hrecreates⟩) fun _ h => h
    · exact Contract.pure fun _ h => ⟨h, fun _ => rfl⟩
  · intro s
    by_cases hkept : ¬ recreatesListener t → s = listener
    · have hchecked : Contract (before.Holding {s} 0) _ _ (Explained .ieStreamListen before) :=
        checkBuffers_contract (k := k) (t := t) []
      apply (hchecked.weaken (fun _ h => h.1) (fun _ _ h => h) fun _ h => h).seq
      exact Contract.pure fun _ h => ⟨h, hkept⟩
    · exact
        { returns := fun p s' q hp => absurd hp.2 hkept
          givesUp := fun p q hp => absurd hp.2 hkept }

end Contracts

/-- Which error is left is said only of the builds that are not for Windows,
where `errno` has it. -/
theorem tcp_connect_leaves (p : SystemState SetupErrno) :
    Leaves p (iperfTcpConnect b k e t p) ∧
      (b.windows = false → (iperfTcpConnect b k e t p).1 = none →
        ∃ reason, (iperfTcpConnect b k e t p).2.Blames reason ∧
          (iperfTcpConnect b k e t p).2.iErrno = setupCode .ieStreamConnect reason) := by
  have hcontract : ∀ before : SystemState SetupErrno, Contract (before.Holding 0 0)
      (iperfTcpConnect b k e t) (fun s => before.Holding {s} 0)
      (Explained .ieStreamConnect before) := fun before =>
    iperfTcpConnect_contract (b := b) (k := k) (e := e) (t := t)
  constructor
  · apply leaves_of_contract
    exact fun before => (hcontract before).weaken (fun _ h => h) (fun _ _ h => h) fun _ h => h.1
  · intro _ hfailed
    have hrun : iperfTcpConnect b k e t p = (none, (iperfTcpConnect b k e t p).2) :=
      Prod.ext hfailed rfl
    exact ((hcontract p).givesUp p _ (SystemState.Holding.refl p) hrun).2

def listening : SystemState SetupErrno where
  sockets := ⟨{3}, false⟩
  lists := ⟨∅, false⟩
  strayed := false
  errno := 0
  gerror := 0
  iErrno := .ieNone
  calls := []

def anyEndpoint : Endpoint where
  domain := .unspec
  bindAddress := none
  bindDev := none
  bindPort := 0
  serverHostname := "server"
  serverPort := 5201
  sndTimeout := 0
  mappedV4 := false

/-- A test whose socket buffers the system does not enlarge. -/
def bufferTest : Test :=
  { iperfNewTest with settings := { iperfNewTest.settings with socketBufsize := 65536 } }

/-- The system reads back a smaller buffer, and the socket is closed again. -/
theorem tcp_connect_leaves_small :
    Leaves listening (iperfTcpConnect linuxSockets patientKernel anyEndpoint bufferTest listening) ∧
      ∃ reason,
        (iperfTcpConnect linuxSockets patientKernel anyEndpoint bufferTest listening).2.Blames
          reason ∧ setupCode .ieStreamConnect reason = .ieSetBuf2 := by
  have hfailed :
      (iperfTcpConnect linuxSockets patientKernel anyEndpoint bufferTest listening).1 = none := by
    decide
  have hcode : (iperfTcpConnect linuxSockets patientKernel anyEndpoint bufferTest
      listening).2.iErrno = .ieSetBuf2 := by
    decide
  obtain ⟨hleaves, hblames⟩ := tcp_connect_leaves (b := linuxSockets) (k := patientKernel)
    (e := anyEndpoint) (t := bufferTest) listening
  obtain ⟨reason, hreason, herrno⟩ := hblames rfl hfailed
  exact ⟨hleaves, reason, hreason, herrno.symm.trans hcode⟩

/-! ## The listener of the server -/

/-- The system hands out this number, if it is free. -/
def handsOut (s : ℕ) (opened : Finset ℕ) : ℕ :=
  if s ∈ opened then opened.sup id + 1 else s

theorem handsOut_notMem (s : ℕ) (opened : Finset ℕ) : handsOut s opened ∉ opened := by
  unfold handsOut
  split_ifs with hs
  · exact above_notMem opened
  · exact hs

def envOf (s : ℕ) : SocketEnv where
  next _ opened := handsOut s opened
  fresh _ opened := handsOut_notMem s opened

/-- What becomes of the sockets of the server when its listener is made again. -/
structure ListenRefines (x : ServerSockets) (p : SystemState SetupErrno)
    (r : Option ℕ × SystemState SetupErrno) : Prop where
  listens : ∀ s, r.1 = some s →
    (x.iperfTcpListen (envOf s) 0 (recreatesListener t) .listens).descriptors = r.2.sockets ∧
      (x.iperfTcpListen (envOf s) 0 (recreatesListener t) .listens).listener = some s
  fails : r.1 = none → ∀ env i code,
    (x.iperfTcpListen env i (recreatesListener t) (.fails code)).descriptors = r.2.sockets
  lists : r.2.lists = p.lists
  strayed : r.2.strayed = p.strayed
  explained : r.1 = none →
    ∃ reason, r.2.Blames reason ∧ r.2.iErrno = setupCode .ieStreamListen reason

theorem tcp_listen_refines (x : ServerSockets) (p : SystemState SetupErrno) (listener : ℕ)
    (hlistener : x.listener = some listener) (hopened : listener ∈ x.descriptors.opened)
    (hsockets : p.sockets = x.descriptors) :
    ListenRefines t x p (iperfTcpListen b k e t listener p) := by
  -- The listener is the one socket that the program may close.
  let before : SystemState SetupErrno := { p with sockets := p.sockets.close listener }
  have hholds : before.Holding {listener} 0 p :=
    ⟨Descriptors.adds_of_close (hsockets ▸ hopened), Descriptors.Adds.refl _, rfl⟩
  have hcontract : Contract (before.Holding {listener} 0) _ _ _ :=
    iperfTcpListen_contract (b := b) (k := k) (e := e) (t := t) listener
  have hclosed : (x.close x.listener.toList).descriptors = before.sockets := by
    simp [ServerSockets.close, Descriptors.closeAll, hlistener, before, hsockets]
  rcases hrun : iperfTcpListen b k e t listener p with ⟨_ | s, q⟩
  · obtain ⟨hq, hexplained⟩ := hcontract.givesUp p q hholds hrun
    have hleft := SystemState.holding_zero_iff.mp hq
    exact
      { listens := fun s hs => absurd hs (Option.some_ne_none s).symm
        fails := fun _ _ _ _ => hclosed.trans hleft.1.symm
        lists := hleft.2.1
        strayed := hleft.2.2
        explained := fun _ => hexplained }
  · obtain ⟨hq, hkept⟩ := hcontract.returns p s q hholds hrun
    obtain ⟨hfresh, hobtained⟩ := hq.sockets.obtained
    have hlistens :
        (x.iperfTcpListen (envOf s) 0 (recreatesListener t) .listens).descriptors = q.sockets ∧
          (x.iperfTcpListen (envOf s) 0 (recreatesListener t) .listens).listener = some s := by
      by_cases hrecreates : recreatesListener t
      · have hnext : (x.close x.listener.toList).socket (envOf s) 0 = s := by
          unfold ServerSockets.socket
          rw [hclosed]
          exact if_neg hfresh
        simp only [ServerSockets.iperfTcpListen, hrecreates, decide_true, if_true,
          ServerSockets.openListener, ServerSockets.obtain, hnext, hclosed]
        exact ⟨hobtained.symm, trivial⟩
      · have hsame : q.sockets = p.sockets := by
          rw [hobtained, hkept hrecreates]
          exact Descriptors.obtain_close (hsockets ▸ hopened)
        simp only [ServerSockets.iperfTcpListen, hrecreates, decide_false]
        have hlast : x.listener = some s := by
          rw [hlistener, hkept hrecreates]
        exact ⟨hsockets.symm.trans hsame.symm, hlast⟩
    exact
      { listens := fun s' hs => Option.some.inj hs ▸ hlistens
        fails := fun hs => absurd hs (Option.some_ne_none s)
        lists := Descriptors.adds_zero_iff.mp hq.lists
        strayed := hq.strayed
        explained := fun hs => absurd hs (Option.some_ne_none s) }

/-- The size that is read back is below the one that was asked for. -/
theorem tcp_listen_refines_small :
    ListenRefines
      { iperfNewTest with settings := { iperfNewTest.settings with socketBufsize := 65536 } }
      { ServerSockets.initial with listener := some 3, descriptors := ⟨{3}, false⟩ } listening
      (iperfTcpListen linuxSockets patientKernel anyEndpoint
        { iperfNewTest with settings := { iperfNewTest.settings with socketBufsize := 65536 } } 3
        listening) :=
  tcp_listen_refines linuxSockets patientKernel anyEndpoint _ _ listening 3 rfl
    (Finset.mem_singleton_self 3) rfl

end SocketSetup

end Iperf3
