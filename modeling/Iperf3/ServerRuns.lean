import Iperf3.ServerFrame
import Mathlib.Tactic

/-!
# Invariants of server runs

An invariant of the server process comes in four parts: what holds at the
head of the loop, what holds where a turn has failed and a cleanup follows,
what holds after the loop, and what holds between two tests.  The rules say
what each part has to survive; an invariant that obeys them holds in every
run whose events meet the given condition.
-/

namespace Iperf3

/-! ## Single calls -/

section Triple

variable {P Q E : Server → Prop}

theorem triple_check (ok : Bool) {code : IErrno} (herror : ∀ s, P s → E (s.withErrno code)) :
    Triple P (fun s => s.check ok code) P E := by
  intro s hs
  dsimp only
  unfold Server.check
  split_ifs
  · exact ⟨fun _ => hs, nofun⟩
  · exact ⟨nofun, fun _ => herror s hs⟩

theorem triple_checkError (error : Option ErrorCode)
    (herror : ∀ (code : ErrorCode) s, P s → E (s.withErrno code)) :
    Triple P (fun s => s.checkError error) P E := by
  intro s hs
  cases error with
  | none => exact ⟨fun _ => hs, nofun⟩
  | some code => exact ⟨nofun, fun _ => herror code s hs⟩

theorem triple_protocolListen (listening : Listening)
    (hlog : ∀ s, P s →
      Q (s.log (.protocolListen s.test.protocol s.recreatesListener listening)))
    (herror : ∀ (code : ErrorCode) s, Q s → E (s.withErrno code)) :
    Triple P (fun s => s.protocolListen listening) Q E :=
  fun s hs => triple_checkError _ herror _ (hlog s hs)

theorem triple_checkLate (ok : Bool) {code : IErrno}
    (herror : ∀ s, P s → E (s.cleanupServer.withErrno code)) :
    Triple P (fun s => s.checkLate ok code) P E := by
  intro s hs
  dsimp only
  unfold Server.checkLate
  split_ifs
  · exact ⟨fun _ => hs, nofun⟩
  · exact ⟨nofun, fun _ => herror s hs⟩

theorem triple_setSendState (sent : Bool) {state : TestState}
    (hctrl : ∀ s, P s → s.ctrlSck = true)
    (hsent : ∀ s, P s → Q ((s.enter state).log (.sent state)))
    (herror : ∀ s, P s → E ((s.enter state).withErrno .ieSendMessage)) :
    Triple P (fun s => s.setSendState sent state) Q E := by
  intro s hs
  dsimp only
  unfold Server.setSendState
  rw [if_pos (hctrl s hs)]
  split_ifs
  · exact ⟨fun _ => hsent s hs, nofun⟩
  · exact ⟨nofun, fun _ => herror s hs⟩

end Triple

/-! ## One turn -/

section Turn

variable {b : Build} {S Q E : Server → Prop} {M : Bool → Server → Prop}

theorem newServerStream_keeps_state (env : StreamEnv) (closed : Bool) (s : Server) :
    (newServerStream env closed s).1.state = s.state ∧
      (newServerStream env closed s).1.ctrlSck = s.ctrlSck := by
  have hcounted : (s.countAccepted s.nextSender).state = s.state ∧
      (s.countAccepted s.nextSender).ctrlSck = s.ctrlSck := by
    unfold Server.countAccepted
    split <;> exact ⟨rfl, rfl⟩
  unfold newServerStream
  dsimp only
  split
  · exact hcounted
  · exact hcounted
  · split_ifs <;> exact hcounted

/-- What a data connection does if it is taken; `M` holds once the socket has
been accepted. -/
theorem triple_acceptStream (env : StreamEnv)
    (hfails : ∀ (code : ErrorCode) s, S s → E ((s.noteAccept (.failed code)).withErrno code))
    (haccept : ∀ closed s, S s → M closed (s.noteAccept (.socket closed)))
    (htos : ∀ closed s, M closed s → E (s.withErrno .ieSetTos))
    (hdropped : ∀ s, M true s → Q s)
    (hsetup : ∀ closed (code : ErrorCode) s, M closed s →
      E ((s.log .dataClosed).cleanupServer.withErrno code))
    (hcongestion : ∀ closed name s, M closed s →
      M closed { s with test := { s.test with congestionUsed := name } })
    (hnew : ∀ closed, Triple (M closed) (newServerStream env closed) Q E) :
    Triple S (acceptStream b env) Q E := by
  intro s hs
  unfold acceptStream
  split
  · exact ⟨nofun, fun _ => hfails _ s hs⟩
  · rename_i closed _
    have hnote : ∀ s, M closed s → M closed (s.noteCongestion b env.congestionUsed) := by
      intro s hs
      unfold Server.noteCongestion
      split_ifs
      · exact hcongestion closed _ s hs
      · exact hs
    have hset : Triple (M closed) (fun s => s.setUp b env.socketSetup) (M closed) E := by
      intro s hs
      dsimp only
      unfold Server.setUp
      split
      · split_ifs
        · exact ⟨nofun, fun _ => hsetup closed _ s hs⟩
        · exact ⟨fun _ => hs, nofun⟩
      · exact ⟨fun _ => hs, nofun⟩
    have hopen : Triple (M closed) (fun s => if isClosed b env closed then (s, true)
        else s.setUp b env.socketSetup
          |> andThen (fun s =>
            newServerStream env closed (s.noteCongestion b env.congestionUsed))) Q E := by
      intro s hs
      dsimp only
      split_ifs with hdrop
      · have hclosed : closed = true := by
          unfold isClosed at hdrop
          simp only [Bool.and_eq_true] at hdrop
          exact hdrop.1
        subst hclosed
        exact ⟨fun _ => hdropped s hs, nofun⟩
      · exact (hset.andThen (Triple.before hnote (hnew closed))) s hs
    exact ((triple_check _ (htos closed)).andThen hopen) _ (haccept closed s hs)

theorem noteAccept_keeps_state (outcome : AcceptedSocket) (s : Server) :
    (s.noteAccept outcome).state = s.state ∧ (s.noteAccept outcome).ctrlSck = s.ctrlSck := by
  unfold Server.noteAccept
  split
  · exact ⟨rfl, rfl⟩
  · exact ⟨rfl, rfl⟩
  · split_ifs <;> exact ⟨rfl, rfl⟩

theorem acceptStream_keeps_state (env : StreamEnv) {s : Server}
    (h : (acceptStream b env s).2 = true) :
    (acceptStream b env s).1.state = s.state ∧ (acceptStream b env s).1.ctrlSck = s.ctrlSck := by
  have htriple :
      Triple (fun u : Server => u.state = s.state ∧ u.ctrlSck = s.ctrlSck) (acceptStream b env)
      (fun u => u.state = s.state ∧ u.ctrlSck = s.ctrlSck) (fun _ => True) := by
    apply triple_acceptStream (M := fun _ u => u.state = s.state ∧ u.ctrlSck = s.ctrlSck) env
    · exact fun _ _ _ => trivial
    · intro closed u hu
      obtain ⟨hstate, hctrl⟩ := noteAccept_keeps_state (.socket closed) u
      exact ⟨hstate.trans hu.1, hctrl.trans hu.2⟩
    · exact fun _ _ _ => trivial
    · exact fun _ hu => hu
    · exact fun _ _ _ _ => trivial
    · exact fun _ _ _ hu => hu
    · intro closed u hu
      obtain ⟨hstate, hctrl⟩ := newServerStream_keeps_state env closed u
      exact ⟨fun _ => ⟨hstate.trans hu.1, hctrl.trans hu.2⟩, fun _ => trivial⟩
  exact (htriple s ⟨rfl, rfl⟩).1 h

/-- Nothing fails before the parameters are read. -/
def AcceptEnv.Connects (env : AcceptEnv) : Prop :=
  env.socketOptions = none ∧ env.cookie.isSome = true ∧ env.sentParamExchange = true

/-- A client that connects to a free server; `M` holds until its parameters
are read, `N` until the data connections can be listened for, and `L` then. -/
theorem triple_acceptClient {M N L : Server → Prop} (env : AcceptEnv)
    (htake : ∀ s, S s → M s.takeControl)
    (hctrl : ∀ s, M s → s.ctrlSck = true)
    (herror : ∀ (code : ErrorCode) s, M s → E (s.withErrno code))
    (hcookie : ∀ cookie s, M s → M { s with cookie := cookie })
    (hexchange : ∀ s, M s → M ((s.enter .paramExchange).log (.sent .paramExchange)))
    (hsendError : ∀ s, M s → E ((s.enter .paramExchange).withErrno .ieSendMessage))
    (hread : Triple M (fun s => s.getParameters b env.message) N E)
    (hauthorized : env.authorization.ok = true → ∀ s, N s →
      N (s.log (.testIsAuthorized env.authorization)))
    (hrefused : env.authorization.ok = false → ∀ s, N s →
      E (s.log (.testIsAuthorized env.authorization)))
    (hlisten : env.Connects → env.authorization.ok = true →
      Triple N (fun s => s.protocolListen env.listening) L E)
    (hopen : ∀ s, L s → L s.openProtListener)
    (hconnected : ∀ s, L s → s.ctrlSck = true)
    (hcreate : ∀ s, L s → Q ((s.enter .createStreams).log (.sent .createStreams)))
    (hcreateError : env.sentCreateStreams = false → ∀ s, L s →
      E ((s.enter .createStreams).withErrno .ieSendMessage))
    (haffinity : env.affinitySet = false → ∀ s, s.test.serverAffinity ≠ -1 → Q s →
      E (s.withErrno .ieAffinity)) :
    Triple S (acceptClient b env) Q E := by
  have hoptions : Triple S (fun s => s.takeControl.checkError env.socketOptions)
      (fun s => M s ∧ env.socketOptions = none) E := by
    intro s hs
    dsimp only
    unfold Server.checkError
    split
    · rename_i hnone
      exact ⟨fun _ => ⟨htake s hs, hnone⟩, nofun⟩
    · exact ⟨nofun, fun _ => herror _ _ (htake s hs)⟩
  have hreadCookie : Triple (fun s : Server => M s ∧ env.socketOptions = none)
      (fun s => s.readCookie env.cookie)
      (fun s => M s ∧ env.socketOptions = none ∧ env.cookie.isSome = true) E := by
    rintro s ⟨hs, hnone⟩
    dsimp only
    unfold Server.readCookie
    split
    · rename_i hcookies
      exact ⟨fun _ => ⟨hcookie _ s hs, hnone, by simp [hcookies]⟩, nofun⟩
    · exact ⟨nofun, fun _ => herror ⟨.ieRecvCookie, by decide⟩ s hs⟩
  have hsendExchange : Triple
      (fun s : Server => M s ∧ env.socketOptions = none ∧ env.cookie.isSome = true)
      (fun s => s.setSendState env.sentParamExchange .paramExchange)
      (fun s => M s ∧ env.Connects) E := by
    rintro s ⟨hs, hnone, hcookies⟩
    dsimp only
    unfold Server.setSendState
    rw [if_pos (hctrl s hs)]
    split_ifs with hsent
    · exact ⟨fun _ => ⟨hexchange s hs, hnone, hcookies, hsent⟩, nofun⟩
    · exact ⟨nofun, fun _ => hsendError s hs⟩
  have hcreated : Triple L (fun s =>
      s.openProtListener.setSendState env.sentCreateStreams .createStreams) Q E := by
    intro s hs
    dsimp only
    unfold Server.setSendState
    rw [if_pos (hconnected _ (hopen s hs))]
    split_ifs with hsent
    · exact ⟨fun _ => hcreate _ (hopen s hs), nofun⟩
    · exact ⟨nofun, fun _ => hcreateError (by simpa using hsent) _ (hopen s hs)⟩
  have hparameters :
      Triple (fun s : Server => M s ∧ env.Connects) (exchangeParameters b env) Q E := by
    rintro s ⟨hs, hconnects⟩
    have hauthorize : Triple N (fun s => s.testIsAuthorized env.authorization)
        (fun s => N s ∧ env.authorization.ok = true) E :=
      fun s hs => ⟨fun h => ⟨hauthorized h s hs, h⟩, fun h => hrefused h s hs⟩
    have hlistening : Triple (fun s : Server => N s ∧ env.authorization.ok = true)
        (fun s => s.protocolListen env.listening) L E :=
      fun s hs => hlisten hconnects hs.2 s hs.1
    exact (((hread.andThen hauthorize).andThen hlistening).andThen hcreated) s hs
  have hrest : Triple Q (fun s =>
      s.check (s.test.serverAffinity = -1 || env.affinitySet) .ieAffinity) Q E := by
    intro s hs
    dsimp only
    unfold Server.check
    split_ifs with hset
    · exact ⟨fun _ => hs, nofun⟩
    · simp only [Bool.or_eq_true, decide_eq_true_eq, not_or] at hset
      exact ⟨nofun, fun _ => haffinity (by simpa using hset.2) s hset.1 hs⟩
  exact (((hoptions.andThen hreadCookie).andThen hsendExchange).andThen hparameters).andThen
    hrest

/-- The end of a test; `T` holds during the exchange of the results. -/
theorem triple_handleTestEnd {P T : Server → Prop} (env : MessageEnv)
    (hfinish : ∀ s, P s → T s.finishTraffic)
    (hctrl : ∀ s, T s → s.ctrlSck = true)
    (hexchange : ∀ s, T s → T ((s.enter .exchangeResults).log (.sent .exchangeResults)))
    (hsendError : ∀ state s, T s → E ((s.enter state).withErrno .ieSendMessage))
    (hread : Triple T (fun s => s.getResults env.results) T E)
    (hresults : ∀ s, T s → E (s.withErrno .ieSendResults))
    (hdisplay : ∀ s, T s → Q ((s.enter .displayResults).log (.sent .displayResults))) :
    Triple P (handleTestEnd env) Q E :=
  (((Triple.before hfinish (triple_setSendState _ hctrl hexchange (hsendError _))).andThen
    hread).andThen (triple_check _ hresults)).andThen
      (triple_setSendState _ hctrl hdisplay (hsendError _))

/-- A byte that the server knows how to handle. -/
def MessageEnv.Understood (env : MessageEnv) : Prop :=
  ∃ value, env.read = .byte value ∧
    TestState.ofByte value ∈ [.testStart, .testEnd, .iperfDone, .clientTerminate]

theorem triple_handleMessageServer {P : Server → Prop} (env : MessageEnv)
    (hclosed : env.read = .closed → ∀ s, P s →
      Q (((s.log (.controlRead .closed)).withErrno .ieCtrlClose).enter .iperfDone))
    (hfailed : env.read = .failed → ∀ s, P s →
      E ((s.log (.controlRead .failed)).withErrno .ieRecvMessage))
    (hquiet : ∀ value state, env.read = .byte value → TestState.ofByte value = state →
      state = .testStart ∨ state = .iperfDone →
        ∀ s, P s → Q ((s.log (.controlRead (.byte value))).enter state))
    (hend : ∀ value, env.read = .byte value → TestState.ofByte value = .testEnd →
      Triple P (fun s => handleTestEnd env
        (((s.log (.controlRead (.byte value))).enter .testEnd).log (.endOfTest s.state))) Q E)
    (hterminate : ∀ value, env.read = .byte value →
      TestState.ofByte value = .clientTerminate → ∀ s, P s →
        Q (((((s.log (.controlRead (.byte value))).enter .clientTerminate).withErrno
          .ieClientTerm).log .streamsClosed).enter .iperfDone))
    (hother : ∀ value, env.read = .byte value → ¬ env.Understood → ∀ s, P s →
      E (((s.log (.controlRead (.byte value))).enter (TestState.ofByte value)).withErrno
        .ieMessage)) :
    Triple P (handleMessageServer env) Q E := by
  intro s hs
  unfold handleMessageServer
  dsimp only
  split
  · rename_i hread
    rw [hread]
    exact ⟨fun _ => hclosed hread s hs, nofun⟩
  · rename_i hread
    rw [hread]
    exact ⟨nofun, fun _ => hfailed hread s hs⟩
  · rename_i value hread
    rw [hread]
    split
    · rename_i hstate
      rw [hstate]
      exact ⟨fun _ => hquiet value _ hread hstate (Or.inl rfl) s hs, nofun⟩
    · rename_i hstate
      rw [hstate]
      exact hend value hread hstate s hs
    · rename_i hstate
      rw [hstate]
      exact ⟨fun _ => hquiet value _ hread hstate (Or.inr rfl) s hs, nofun⟩
    · rename_i hstate
      rw [hstate]
      exact ⟨fun _ => hterminate value hread hstate s hs, nofun⟩
    · rename_i hstart hend hdone hterminated
      have hunknown : ¬ env.Understood := by
        rintro ⟨other, hother, hmem⟩
        obtain rfl := ControlRead.byte.inj (hread.symm.trans hother)
        simp only [List.mem_cons, List.not_mem_nil, or_false] at hmem
        rcases hmem with hstate | hstate | hstate | hstate
        · exact hstart hstate
        · exact hend hstate
        · exact hdone hstate
        · exact hterminated hstate
      exact ⟨nofun, fun _ => hother value hread hunknown s hs⟩

theorem setSendState_ne_createStreams
    (sent : Bool) {state : TestState} (hstate : state ≠ .createStreams) :
    Keeps (fun s : Server => s.state ≠ .createStreams) (fun s => s.setSendState sent state) := by
  intro s hs
  dsimp only
  unfold Server.setSendState
  split_ifs
  · exact hstate
  · exact hstate
  · exact hs

/-- After a message the server waits for no data connection. -/
theorem handleMessageServer_ne_createStreams (env : MessageEnv) :
    Triple (fun _ : Server => True) (handleMessageServer env) (fun s => s.state ≠ .createStreams)
      (fun _ => True) := by
  have hread :
      Keeps (fun s : Server => s.state ≠ .createStreams) (fun s => s.getResults env.results) := by
    intro s hs
    dsimp only
    unfold Server.getResults Server.noteErrno
    dsimp only
    split_ifs <;> exact hs
  have hcheck : Keeps (fun s : Server => s.state ≠ .createStreams)
      (fun s => s.check env.sentResults .ieSendResults) := by
    intro s hs
    dsimp only
    unfold Server.check
    split_ifs <;> exact hs
  have hfirst : Keeps (fun s : Server => s.state ≠ .createStreams) (fun s =>
      s.finishTraffic.setSendState env.sentExchangeResults .exchangeResults) :=
    fun s hs => setSendState_ne_createStreams _ (by decide) s.finishTraffic hs
  have hend : Keeps (fun s : Server => s.state ≠ .createStreams) (handleTestEnd env) :=
    ((hfirst.andThen hread).andThen hcheck).andThen
      (setSendState_ne_createStreams _ (by decide))
  apply triple_handleMessageServer env
  · exact fun _ s _ => nofun
  · exact fun _ _ _ => trivial
  · rintro value state - - hquiet s -
    rcases hquiet with rfl | rfl <;> exact nofun
  · intro value _ _ s _
    exact ⟨fun _ => hend _ nofun, fun _ => trivial⟩
  · exact fun _ _ _ s _ => nofun
  · exact fun _ _ _ _ _ => trivial

/-- The start of a test; `N` holds once the listener of the data connections
is closed and `T` once the timers are set. -/
theorem triple_startTest {P N T : Server → Prop} (env : StartEnv)
    (hcomplete : ∀ s, P s → (!s.reopensListener || env.relistened) = true →
      N (s.closeProtListener.log
        (.streamsComplete s.test.protocol s.reopensListener env.relistened)))
    (hreopen : ∀ s, P s → (!s.reopensListener || env.relistened) = false →
      E ((s.closeProtListener.log (.streamsComplete s.test.protocol s.reopensListener
        env.relistened)).cleanupServer.withErrno .ieListen))
    (hctrl : ∀ s, N s → s.ctrlSck = true)
    (hrate : ∀ s, N s → E (s.cleanupServer.withErrno .ieTotalRate))
    (hstart : ∀ s, N s → N ((s.enter .testStart).log (.sent .testStart)))
    (hsendError : ∀ s, N s → E ((s.enter .testStart).withErrno .ieSendMessage))
    (hinit : ∀ s, N s → E (s.withErrno .ieInitTest))
    (htimers : Triple N (fun s => createServerTimers env (s.stampStreams env.now)) T E)
    (hconnected : ∀ s, T s → s.ctrlSck = true)
    (hrunning : ∀ s, T s → Q ((s.enter .testRunning).log (.sent .testRunning)))
    (hrunError : ∀ s, T s → E ((s.enter .testRunning).withErrno .ieSendMessage)) :
    Triple P (startTest env) Q E := by
  have hannounce : Triple P (fun s => s.announceStart env) N E := by
    intro s hs
    dsimp only
    unfold Server.announceStart Server.checkLate
    split_ifs with hok
    · exact ⟨fun _ => hcomplete s hs hok, nofun⟩
    · exact ⟨nofun, fun _ => hreopen s hs (by simpa using hok)⟩
  have hcheck : Triple N (fun s => s.checkLate
      (!s.test.exceedsBitrateLimit s.test.settings.rate) .ieTotalRate) N E :=
    fun s hs => triple_checkLate _ hrate s hs
  exact ((((hannounce.andThen hcheck).andThen
    (triple_setSendState _ hctrl hstart hsendError)).andThen
      (triple_check _ hinit)).andThen htimers).andThen
        (triple_setSendState _ hconnected hrunning hrunError)

theorem triple_createWorkers {P : Server → Prop} (env : StartEnv)
    (htolerate : ∀ code, code ≠ .ieNone → ∀ s, P s → P (s.withErrno code).cleanupServer)
    (hspawn : ∀ threads s, P s → P (s.spawn threads))
    (hfails : ∀ s, P s → E (s.withErrno .iePthreadCreate)) :
    Triple P (createWorkers env) P E := by
  have htolerated : ∀ (ok : Bool) (code : IErrno), code ≠ .ieNone → ∀ s, P s →
      P (s.tolerate ok code) := by
    intro ok code hcode s hs
    unfold Server.tolerate
    split_ifs
    · exact hs
    · exact htolerate code hcode s hs
  have hspawned : Triple P (fun s =>
      ((s.tolerate env.attrInit .iePthreadAttrInit).spawn env.threads).check
        (s.streams.length ≤ env.threads) .iePthreadCreate) P E :=
    fun s hs => triple_check _ hfails _ (hspawn _ _ (htolerated _ _ (by decide) s hs))
  exact hspawned.andThen (Triple.of_update fun s hs => htolerated _ _ (by decide) s hs)

/-! ### The parts of a turn -/

/-- After the listener has been looked at in a turn that began at `s`: with a
client connected before, the most that has changed is the numbering. -/
def ListenerDone (S : Server → Prop) (env : TurnEnv) (s u : Server) : Prop :=
  S u ∧ (s.ctrlSck = true → u = s ∨ u = setStreamNumbers s) ∧
    (s.state = .createStreams ∨ env.listener = none → u = s)

/-- After the control connection has been looked at: where a data connection
is taken, nothing has been done before. -/
def ControlDone (S : Server → Prop) (env : TurnEnv) (s u : Server) : Prop :=
  S u ∧ (u.state = .createStreams →
    s.state = .createStreams ∨ env.listener = none → u = s)

variable {env : TurnEnv} {s : Server}

theorem turnListener_rule (hs : S s)
    (herror : s.state ≠ .createStreams → ∀ accept, env.listener = some accept →
      accept.accepted = false → S s → E (s.withErrno .ieAccept))
    (hnumbers : S s → S (setStreamNumbers s))
    (haccept : s.ctrlSck = false → s.state ≠ .createStreams →
      ∀ accept, env.listener = some accept → accept.accepted = true →
        Triple (fun u : Server => u = s) (acceptClient b accept)
          (fun u => S (setStreamNumbers u)) E) :
    Triple (fun u : Server => u = s) (turnListener b (env.ready s)) (ListenerDone S env s) E := by
  rintro u rfl
  unfold turnListener
  split
  · rename_i accept haccepting
    have hlistens : env.listener = some accept := haccepting
    split_ifs with hstate
    · exact ⟨fun _ => ⟨hs, fun _ => Or.inl rfl, fun _ => rfl⟩, nofun⟩
    · have hfirst : Triple (fun u' => u' = u) (fun u' => u'.check accept.accepted .ieAccept)
          (fun u' => u' = u ∧ accept.accepted = true) E := by
        rintro u' rfl
        dsimp only
        unfold Server.check
        split_ifs with haccepted
        · exact ⟨fun _ => ⟨rfl, haccepted⟩, nofun⟩
        · exact ⟨nofun, fun _ => herror hstate accept hlistens (by simpa using haccepted) hs⟩
      have hsecond : Triple (fun u' => u' = u ∧ accept.accepted = true)
          (fun u' => if u'.ctrlSck then (u', true) else acceptClient b accept u')
          (fun u' => S (setStreamNumbers u') ∧ (u.ctrlSck = true → u' = u)) E := by
        rintro u' ⟨rfl, haccepted⟩
        dsimp only
        split_ifs with hctrl
        · exact ⟨fun _ => ⟨hnumbers hs, fun _ => rfl⟩, nofun⟩
        · have hclient := haccept (by simpa using hctrl) hstate accept hlistens haccepted u' rfl
          exact ⟨fun h => ⟨hclient.1 h, fun h => absurd h hctrl⟩, hclient.2⟩
      have hthird : Triple (fun u' => S (setStreamNumbers u') ∧ (u.ctrlSck = true → u' = u))
          (fun u' => (setStreamNumbers u', true)) (ListenerDone S env u) E := by
        refine Triple.of_update fun u' hu' => ⟨hu'.1, ?_, ?_⟩
        · exact fun hctrl => Or.inr (congrArg setStreamNumbers (hu'.2 hctrl))
        · rintro (hcreate | hnone)
          · exact absurd hcreate hstate
          · exact absurd (hnone.symm.trans hlistens) (by simp)
      exact ((hfirst.andThen hsecond).andThen hthird) u rfl
  · exact ⟨fun _ => ⟨hs, fun _ => Or.inl rfl, fun _ => rfl⟩, nofun⟩

theorem turnControl_rule
    (hmessage : s.ctrlSck = true → ∀ message, env.control = some message →
      Triple (fun u : Server => S u ∧ (u = s ∨ u = setStreamNumbers s))
        (handleMessageServer message) S E) :
    Triple (ListenerDone S env s) (turnControl (env.ready s)) (ControlDone S env s) E := by
  intro u hu
  unfold turnControl
  split
  · rename_i message hready
    have hconnected : s.ctrlSck = true ∧ env.control = some message := by
      by_cases hctrl : s.ctrlSck = true
      · exact ⟨hctrl, by simpa [TurnEnv.ready, hctrl] using hready⟩
      · simp [TurnEnv.ready, hctrl] at hready
    have hresult := hmessage hconnected.1 message hconnected.2 u ⟨hu.1, hu.2.1 hconnected.1⟩
    have hleft := (handleMessageServer_ne_createStreams message u trivial).1
    exact ⟨fun h => ⟨hresult.1 h, fun hstate => absurd hstate (hleft h)⟩, hresult.2⟩
  · exact ⟨fun _ => ⟨hu.1, fun _ => hu.2.2⟩, nofun⟩

theorem turnData_rule {u : Server} (hu : ControlDone S env s u) (hstate : u.state = .createStreams)
    (hdata : s.state = .createStreams → ∀ data, env.data = some data →
      Triple (fun u : Server => u = s) (acceptStream b data) S E) :
    Triple (fun v : Server => v = u) (turnData b (env.ready s))
      (fun v => S v ∧ v.state = .createStreams) E := by
  rintro v rfl
  unfold turnData
  split
  · rename_i data hready
    -- data is pending, so the listener has not been looked at
    have hpending : env.data = some data ∧
        (s.state = .createStreams ∨ env.listener = none) := by
      by_cases hother : s.state ≠ .createStreams ∧ env.listener.isSome
      · simp [TurnEnv.ready, hother] at hready
      · refine ⟨by simpa [TurnEnv.ready, hother] using hready, ?_⟩
        simp only [not_and_or, not_not] at hother
        exact hother.imp_right (by simp)
    have hsame : v = s := hu.2 hstate hpending.2
    have hresult := hdata (hsame ▸ hstate) data hpending.1 v hsame
    refine ⟨fun h => ⟨hresult.1 h, ?_⟩, hresult.2⟩
    exact (acceptStream_keeps_state data h).1.trans hstate
  · exact ⟨fun _ => ⟨hu.1, hstate⟩, nofun⟩

theorem turnStreams_rule
    (hdata : s.state = .createStreams → ∀ data, env.data = some data →
      Triple (fun u : Server => u = s) (acceptStream b data) S E)
    (hstart : Triple (fun u : Server => S u ∧ u.state = .createStreams)
      (fun u => startTest env.start u |> andThen (createWorkers env.start)) S E) :
    Triple (ControlDone S env s) (turnStreams b (env.ready s)) S E := by
  intro u hu
  unfold turnStreams
  split_ifs with hstate
  · have hcomplete : Triple (fun v : Server => S v ∧ v.state = .createStreams) (fun v =>
        if v.streamsComplete then
          startTest env.start v |> andThen (createWorkers env.start)
        else (v, true)) S E := by
      intro v hv
      dsimp only
      split_ifs
      · exact hstart v hv
      · exact ⟨fun _ => hv.1, nofun⟩
    exact ((turnData_rule hu hstate hdata).andThen hcomplete) u rfl
  · exact ⟨fun _ => hu.1, nofun⟩

/-- A turn: the listener, then the control connection, then the data
connections and the start of the test.  A data connection is taken only in a
turn that finds the server in `CREATE_STREAMS` and does nothing before. -/
theorem serverTurn_rule (hs : S s)
    (herror : s.state ≠ .createStreams → ∀ accept, env.listener = some accept →
      accept.accepted = false → S s → E (s.withErrno .ieAccept))
    (hnumbers : S s → S (setStreamNumbers s))
    (haccept : s.ctrlSck = false → s.state ≠ .createStreams →
      ∀ accept, env.listener = some accept → accept.accepted = true →
        Triple (fun u : Server => u = s) (acceptClient b accept)
          (fun u => S (setStreamNumbers u)) E)
    (hmessage : s.ctrlSck = true → ∀ message, env.control = some message →
      Triple (fun u : Server => S u ∧ (u = s ∨ u = setStreamNumbers s))
        (handleMessageServer message) S E)
    (hdata : s.state = .createStreams → ∀ data, env.data = some data →
      Triple (fun u : Server => u = s) (acceptStream b data) S E)
    (hstart : Triple (fun u : Server => S u ∧ u.state = .createStreams)
      (fun u => startTest env.start u |> andThen (createWorkers env.start)) S E) :
    ((serverTurn b env s).2 = true → S (serverTurn b env s).1) ∧
      ((serverTurn b env s).2 = false → E (serverTurn b env s).1) :=
  (((turnListener_rule hs herror hnumbers haccept).andThen (turnControl_rule hmessage)).andThen
    (turnStreams_rule hdata hstart)) s rfl

end Turn

/-! ## Leaving a state -/

/-- The expiry of the duration timer leaves a state that only a connected
server is in. -/
theorem announceExpiry_left
    {s : Server} {state : TestState} (hctrl : s.state = state → s.ctrlSck = true)
    (hstate : state ≠ .serverError) (sent : Bool) : (s.announceExpiry sent).state ≠ state := by
  unfold Server.announceExpiry Server.setSendState
  by_cases hc : s.ctrlSck = true
  · cases sent <;> simp [hc, hstate.symm, Server.withErrno, Server.log]
  · have hne : s.state ≠ state := fun hs => hc (hctrl hs)
    simpa [hc, Server.withErrno, Server.log] using hne

theorem cleanupServer_left
    {s : Server} {state : TestState} (hctrl : s.state = state → s.ctrlSck = true)
    (hstate : state ≠ .serverError) {code : IErrno} (hcode : code ≠ .ieNone) :
    (s.withErrno code).cleanupServer.state ≠ state := by
  intro heq
  by_cases hc : s.ctrlSck = true
  · have hcleaned : (s.withErrno code).cleanupServer.state = .serverError := by
      simp [Server.cleanupServer, Server.withErrno, Server.log, hcode, hc]
    exact hstate (heq.symm.trans hcleaned)
  · have hkept : (s.withErrno code).cleanupServer.state = s.state := by
      simp [Server.cleanupServer, Server.withErrno, Server.log, hc]
    exact hc (hctrl (hkept.symm.trans heq))

/-! ## The rules -/

structure ServerRules (b : Build) (C : Server → ServerEvent → Prop)
    (S E W B : Server → Prop) : Prop where
  listens : ∀ s, B s → S (Process.listening s)
  noLogfile : ∀ s, B s → W s
  startFails : ∀ (code : ErrorCode) s, B s → E (s.withErrno code)
  traffic : ∀ update s, S s → S { s with streams := s.streams.map (Stream.traffic update) }
  worker : ∀ i error s, S s → S ((s.checkError error).1.log (.workerReturned i))
  timer : ∀ timer s, timer ≠ .duration → S s → S (s.log (.timerExpired timer))
  expire : ∀ sent s, C s (.expire sent) → s.timer = true → S s → S (s.serverTimerProc sent)
  turn : ∀ env s, C s (.turn env) → ¬ (s.state = .iperfDone ∨ s.readSetStale = true) → S s →
    ((serverTurn b env s).2 = true → S (serverTurn b env s).1) ∧
      ((serverTurn b env s).2 = false → E (serverTurn b env s).1)
  rateExceeded : ∀ sent s, C s (.rateExceeded sent) → s.state ≠ .iperfDone → S s →
    E ((s.withErrno .ieTotalRate).setSendState sent .serverError).1
  selectFails : ∀ s, C s .selectFails → s.state ≠ .iperfDone → S s → E s
  idleTimeout : ∀ oneOff s, C s (.idleTimeout oneOff) → s.state = .iperfStart → S s →
    E (s.log .idleRestart)
  noMessage : ∀ s, C s .noMessage →
    ¬ (s.state = .iperfStart ∨ s.state = .iperfDone ∨ s.test.mode = .sender ∨
      s.readSetStale = true) → S s → E (s.withErrno .ieNoMsg)
  finish : ∀ jsonFinished affinityCleared s, C s (.finish jsonFinished affinityCleared) →
    ¬ (s.jsonOutput = true ∧ ¬ jsonFinished = true) → s.state = .iperfDone → S s → E s
  noJson : ∀ affinityCleared s, C s (.finish false affinityCleared) → s.jsonOutput = true →
    s.state = .iperfDone → S s → W s
  cleanup : ∀ s, E s → W s.cleanupServer
  late : ∀ s, W s → W (s.withErrno .ieSelect)
  reset : ∀ s, W s → B (Process.resetTest b s)
  exits : ∀ s, B s → W s

/-- The part of the invariant that belongs to the phase. -/
def Process.Holds (S W B : Server → Prop) (p : Process) : Prop :=
  match p.phase with
  | .between => B p.server
  | .running => S p.server
  | .returned _ | .exited => W p.server

/-- Every event of the run meets the condition in the state it finds. -/
def Process.Meets (b : Build) (C : Server → ServerEvent → Prop) :
    Process → List ServerEvent → Prop
  | _, [] => True
  | p, event :: events =>
      (p.phase = .running → C p.server event) ∧ Meets b C (p.step b event) events

theorem Process.Meets.mono
    {b : Build} {C D : Server → ServerEvent → Prop} (hCD : ∀ s event, C s event → D s event)
    {events : List ServerEvent} {p : Process} (h : p.Meets b C events) : p.Meets b D events := by
  induction events generalizing p with
  | nil => trivial
  | cons event events ih => exact ⟨fun hrunning => hCD _ _ (h.1 hrunning), ih h.2⟩

theorem Process.meets_trivial (b : Build) (p : Process) (events : List ServerEvent) :
    p.Meets b (fun _ _ => True) events := by
  induction events generalizing p with
  | nil => trivial
  | cons event events ih => exact ⟨fun _ => trivial, ih _⟩

section Rules

variable {b : Build} {C : Server → ServerEvent → Prop} {S E W B : Server → Prop}

theorem ServerRules.step
    (rules : ServerRules b C S E W B) {p : Process} {event : ServerEvent}
    (h : p.Holds S W B) (hevent : p.phase = .running → C p.server event) :
    (p.step b event).Holds S W B := by
  obtain ⟨s, phase⟩ := p
  cases phase with
  | between =>
      have hs : B s := h
      cases event with
      | start startup =>
          cases startup with
          | logfileFails => exact rules.noLogfile s hs
          | fails code => exact rules.cleanup _ (rules.startFails code s hs)
          | listens => exact rules.listens s hs
      | _ => exact h
  | exited => cases event <;> exact h
  | returned rc =>
      have hs : W s := h
      cases event with
      | reset jsonFinished stops =>
          show (Process.resetRun b rc jsonFinished stops s).Holds S W B
          unfold Process.resetRun
          have hreset := rules.reset s hs
          split_ifs
          · exact hs
          · exact rules.exits _ hreset
          · exact hreset
      | _ => exact h
  | running =>
      have hs : S s := h
      have hC : C s event := hevent rfl
      cases event with
      | start | reset => exact h
      | traffic update => exact rules.traffic update s hs
      | workerReturns i error => exact rules.worker i error s hs
      | timer timer =>
          show Process.Holds S W B (if timer = .duration then _ else _)
          split_ifs with hduration
          · exact h
          · exact rules.timer timer s hduration hs
      | expire sent =>
          show Process.Holds S W B (if s.timer then _ else _)
          split_ifs with htimer
          · exact rules.expire sent s hC htimer hs
          · exact h
      | turn env =>
          show Process.Holds S W B
            (if s.state = .iperfDone ∨ s.readSetStale then _ else Process.afterTurn _)
          unfold Process.afterTurn
          split_ifs with hdone hok
          · exact h
          · exact (rules.turn env s hC hdone hs).1 hok
          · exact rules.cleanup _ ((rules.turn env s hC hdone hs).2 (by simpa using hok))
      | rateExceeded sent =>
          show Process.Holds S W B (if s.state = .iperfDone then _ else _)
          split_ifs with hdone
          · exact h
          · exact rules.cleanup _ (rules.rateExceeded sent s hC hdone hs)
      | selectFails =>
          show Process.Holds S W B (if s.state = .iperfDone then _ else _)
          split_ifs with hdone
          · exact h
          · exact rules.late _ (rules.cleanup _ (rules.selectFails s hC hdone hs))
      | idleTimeout oneOff =>
          show Process.Holds S W B (if s.state ≠ .iperfStart then _ else _)
          split_ifs with hstart
          · exact h
          · exact rules.cleanup _ (rules.idleTimeout oneOff s hC (not_not.mp hstart) hs)
          · exact rules.cleanup _ (rules.idleTimeout oneOff s hC (not_not.mp hstart) hs)
      | noMessage =>
          show Process.Holds S W B (if s.state = .iperfStart ∨ s.state = .iperfDone ∨
            s.test.mode = .sender ∨ s.readSetStale then _ else _)
          split_ifs with hquiet
          · exact h
          · exact rules.cleanup _ (rules.noMessage s hC hquiet hs)
      | finish jsonFinished affinityCleared =>
          show Process.Holds S W B
            (if s.state = .iperfDone then Process.finishRun _ _ _ else _)
          unfold Process.finishRun
          split_ifs with hdone hjson haffinity
          · have hfailed : jsonFinished = false := by simpa using hjson.2
            subst hfailed
            exact rules.noJson affinityCleared s hC hjson.1 hdone hs
          · exact rules.cleanup _ (rules.finish jsonFinished affinityCleared s hC hjson hdone hs)
          · exact rules.cleanup _ (rules.finish jsonFinished affinityCleared s hC hjson hdone hs)
          · exact h

theorem ServerRules.run
    (rules : ServerRules b C S E W B) {events : List ServerEvent} {p : Process}
    (h : p.Holds S W B) (hrun : p.Meets b C events) : (p.run b events).Holds S W B := by
  induction events generalizing p with
  | nil => exact h
  | cons event events ih => exact ih (rules.step h hrun.1) hrun.2

end Rules

end Iperf3
