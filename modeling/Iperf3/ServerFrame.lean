import Iperf3.Server
import Mathlib.Tactic

/-!
# What a turn of the server leaves alone

The calls of a turn are sequences with early returns.  A property that every
call keeps is kept by the sequence.  An inert property looks only at the
error code, the client's mode and numbers, the control connection and the two
records, and survives the calls of a given kind; it is kept by everything
that a turn does except for the exchange of parameters.
-/

namespace Iperf3

section Timers

variable {P : Server → Prop}

theorem createTimer_keeps
    (herrno : ∀ code, code ≠ .ieAuthTest → ∀ s, P s → P (s.withErrno code))
    (hlog : ∀ timer created s, P s → P (s.log (.createTimer timer created)))
    (env : StartEnv) (timer : ServerTimer) (wanted : Bool) :
    Keeps P (fun s => s.createTimer env timer wanted) := by
  intro s hs
  dsimp only
  unfold Server.createTimer Server.check
  split_ifs
  · exact hlog _ _ s hs
  · exact herrno _ (by decide) _ (hlog _ _ s hs)
  · exact hs

theorem createServerTimers_keeps
    (herrno : ∀ code, code ≠ .ieAuthTest → ∀ s, P s → P (s.withErrno code))
    (hforget : ∀ timer s, P s → P (s.log (.forgetTimer timer)))
    (hlog : ∀ timer created s, P s → P (s.log (.createTimer timer created)))
    (hflags : ∀ done timer s, P s → P { s with done := done, timer := timer })
    (env : StartEnv) : Keeps P (createServerTimers env) := by
  have htimer := createTimer_keeps herrno hlog env
  have hforgotten : ∀ s, P s → P s.forgetTimers :=
    fun s hs => hforget _ _ (hforget _ _ (hforget _ s hs))
  have hduration : Keeps P (fun s => s.forgetTimers.createDurationTimer env) := by
    intro s hs
    dsimp only
    unfold Server.createDurationTimer
    split_ifs
    · exact htimer .duration true _ (hflags _ _ _ (hforgotten s hs))
    · exact hflags s.forgetTimers.done false _ (hforgotten s hs)
  have homit : Keeps P (createServerOmitTimer env) := by
    intro s hs
    unfold createServerOmitTimer
    split_ifs
    · exact htimer _ _ s hs
    · exact hforget _ s hs
  exact ((hduration.andThen fun s hs => htimer _ _ s hs).andThen
    fun s hs => htimer _ _ s hs).andThen homit

end Timers

/-- The members that an inert property may look at. -/
structure Agree (s s' : Server) : Prop where
  iErrno : s'.test.iErrno = s.test.iErrno
  mode : s'.test.mode = s.test.mode
  numStreams : s'.test.numStreams = s.test.numStreams
  ctrlSck : s'.ctrlSck = s.ctrlSck
  streamsToRec : s'.streamsToRec = s.streamsToRec
  streamsToSend : s'.streamsToSend = s.streamsToSend
  freed : s'.freed = s.freed
  calls : s'.calls = s.calls

/-- A call that neither accepts a client nor cleans up. -/
def Unreported (call : ServerCall) : Prop :=
  call ≠ .accepted ∧ ∀ reported, call ≠ .cleanup reported

structure Inert (P : Server → Prop) : Prop where
  congr : ∀ s s', Agree s s' → P s → P s'
  log : ∀ call s, Unreported call → P s → P (s.log call)
  withErrno : ∀ code, code ≠ .ieAuthTest → ∀ s, P s → P (s.withErrno code)
  cleanupServer : ∀ s, P s → P s.cleanupServer
  results : ∀ message s, P s → P (s.getResults message).1

section Inert

variable {P : Server → Prop}

theorem Inert.enter (h : Inert P) (state : TestState) {s : Server} (hs : P s) :
    P (s.enter state) :=
  h.congr s _ ⟨rfl, rfl, rfl, rfl, rfl, rfl, rfl, rfl⟩ hs

theorem Inert.check (h : Inert P) (ok : Bool) (code : IErrno)
    (hcode : code ≠ .ieAuthTest) :
    Keeps P (fun s => s.check ok code) := by
  intro s hs
  dsimp only
  unfold Server.check
  split_ifs
  · exact hs
  · exact h.withErrno code hcode s hs

theorem Inert.checkError (h : Inert P) (error : Option ErrorCode) :
    Keeps P (fun s => s.checkError error) := by
  intro s hs
  cases error with
  | none => exact hs
  | some code => exact h.withErrno code code.property.2 s hs

theorem Inert.checkLate (h : Inert P) (ok : Bool) (code : IErrno)
    (hcode : code ≠ .ieAuthTest) :
    Keeps P (fun s => s.checkLate ok code) := by
  intro s hs
  dsimp only
  unfold Server.checkLate
  split_ifs
  · exact hs
  · exact h.withErrno code hcode _ (h.cleanupServer s hs)

theorem Inert.tolerate (h : Inert P) (ok : Bool) (code : IErrno) {s : Server} (hs : P s)
    (hcode : code ≠ .ieAuthTest) : P (s.tolerate ok code) := by
  unfold Server.tolerate
  split_ifs
  · exact hs
  · exact h.cleanupServer _ (h.withErrno code hcode s hs)

theorem Inert.setSendState (h : Inert P) (sent : Bool) (state : TestState) :
    Keeps P (fun s => s.setSendState sent state) := by
  intro s hs
  have henter := h.enter state hs
  dsimp only
  unfold Server.setSendState
  split_ifs
  · exact h.log _ _ ⟨nofun, nofun⟩ henter
  · exact h.withErrno .ieSendMessage (by decide) _ henter
  · exact hs

theorem Inert.handleTestEnd (h : Inert P) (env : MessageEnv) :
    Keeps P (handleTestEnd env) := by
  have hfinish : ∀ s, P s → P s.finishTraffic := fun s hs =>
    h.log _ { s with done := true } ⟨nofun, nofun⟩
      (h.congr s _ ⟨rfl, rfl, rfl, rfl, rfl, rfl, rfl, rfl⟩ hs)
  have hsend : Keeps P (fun s =>
      s.finishTraffic.setSendState env.sentExchangeResults .exchangeResults) :=
    fun s hs => h.setSendState _ _ s.finishTraffic (hfinish s hs)
  exact ((hsend.andThen fun s => h.results env.results s).andThen (h.check _ _ (by decide))).andThen
    (h.setSendState _ _)

theorem Inert.handleMessageServer (h : Inert P) (env : MessageEnv) :
    Keeps P (handleMessageServer env) := by
  intro s hs
  have hread : P (s.log (.controlRead env.read)) := h.log _ s ⟨nofun, nofun⟩ hs
  unfold Iperf3.handleMessageServer
  dsimp only
  split
  · exact h.enter _ (h.withErrno _ (by decide) _ hread)
  · exact h.withErrno _ (by decide) _ hread
  · have henter := fun state => h.enter state hread
    split
    · exact henter _
    · exact h.handleTestEnd env _ (h.log _ _ ⟨nofun, nofun⟩ (henter _))
    · exact henter _
    · exact h.enter _ (h.log _ _ ⟨nofun, nofun⟩ (h.withErrno _ (by decide) _ (henter _)))
    · exact h.withErrno _ (by decide) _ (henter _)

theorem Inert.newServerStream (h : Inert P) (env : StreamEnv) (closed : Bool) :
    Keeps P (newServerStream env closed) := by
  intro s hs
  have hcounted : P (s.countAccepted s.nextSender) := by
    unfold Server.countAccepted
    split
    · exact h.congr s _ ⟨rfl, rfl, rfl, rfl, rfl, rfl, rfl, rfl⟩ hs
    · exact h.congr s _ ⟨rfl, rfl, rfl, rfl, rfl, rfl, rfl, rfl⟩ hs
    · exact hs
  unfold Iperf3.newServerStream
  dsimp only
  split
  · exact hcounted
  · exact h.withErrno _ (by decide) _ hcounted
  · split_ifs
    · exact h.withErrno _ (by decide) _ hcounted
    · exact h.log _ _ ⟨nofun, nofun⟩ (h.congr (s.countAccepted s.nextSender) _
        ⟨rfl, rfl, rfl, rfl, rfl, rfl, rfl, rfl⟩ hcounted)

theorem Inert.noteAccept (h : Inert P) (outcome : AcceptedSocket) {s : Server} (hs : P s) :
    P (s.noteAccept outcome) := by
  unfold Server.noteAccept
  split
  · exact h.log _ s ⟨nofun, nofun⟩ hs
  · exact hs
  · split_ifs
    · exact h.log _ s ⟨nofun, nofun⟩ hs
    · exact h.log _ s ⟨nofun, nofun⟩ hs
    · exact hs
    · exact hs

theorem Inert.acceptStream (h : Inert P) (b : Build) (env : StreamEnv) :
    Keeps P (acceptStream b env) := by
  have hcongestion : ∀ s, P s → P (s.noteCongestion b env.congestionUsed) := by
    intro s hs
    unfold Server.noteCongestion
    split_ifs
    · exact h.congr s _ ⟨rfl, rfl, rfl, rfl, rfl, rfl, rfl, rfl⟩ hs
    · exact hs
  have hsetup : Keeps P (fun s => s.setUp b env.socketSetup) := by
    intro s hs
    dsimp only
    unfold Server.setUp
    split
    · rename_i code _
      split_ifs
      · exact h.withErrno _ code.property.2 _
          (h.cleanupServer _ (h.log _ s ⟨nofun, nofun⟩ hs))
      · exact hs
    · exact hs
  intro s hs
  unfold Iperf3.acceptStream
  split
  · rename_i code _
    exact h.withErrno _ code.property.2 _ (h.noteAccept _ hs)
  · rename_i closed _
    have hopen : Keeps P (fun s => if isClosed b env closed then (s, true)
        else s.setUp b env.socketSetup
          |> andThen (fun s =>
            Iperf3.newServerStream env closed (s.noteCongestion b env.congestionUsed))) := by
      intro s hs
      dsimp only
      split_ifs
      · exact hs
      · exact (hsetup.andThen fun s hs =>
          h.newServerStream env closed _ (hcongestion s hs)) s hs
    exact ((h.check _ _ (by decide)).andThen hopen) _ (h.noteAccept _ hs)

theorem Inert.createServerTimers (h : Inert P) (env : StartEnv) :
    Keeps P (createServerTimers env) :=
  createServerTimers_keeps h.withErrno (fun _ s hs => h.log _ s ⟨nofun, nofun⟩ hs)
    (fun _ _ s hs => h.log _ s ⟨nofun, nofun⟩ hs)
    (fun _ _ s hs => h.congr s _ ⟨rfl, rfl, rfl, rfl, rfl, rfl, rfl, rfl⟩ hs) env

theorem Inert.startTest (h : Inert P) (env : StartEnv) :
    Keeps P (startTest env) := by
  have hreopen : Keeps P (fun s => s.announceStart env) := fun s hs =>
    h.checkLate _ _ (by decide) _ (h.log _ s.closeProtListener ⟨nofun, nofun⟩
      (h.congr s _ ⟨rfl, rfl, rfl, rfl, rfl, rfl, rfl, rfl⟩ hs))
  have hrate : Keeps P (fun s => s.checkLate
      (!s.test.exceedsBitrateLimit s.test.settings.rate) .ieTotalRate) :=
    fun s hs => h.checkLate _ _ (by decide) s hs
  have htimers : Keeps P (fun s => Iperf3.createServerTimers env (s.stampStreams env.now)) :=
    fun s hs => h.createServerTimers env _
      (h.congr s _ ⟨rfl, rfl, rfl, rfl, rfl, rfl, rfl, rfl⟩ hs)
  exact ((((hreopen.andThen hrate).andThen (h.setSendState _ _)).andThen
    (h.check _ _ (by decide))).andThen htimers).andThen (h.setSendState _ _)

theorem Inert.createWorkers (h : Inert P) (env : StartEnv) :
    Keeps P (createWorkers env) := by
  have hspawn : Keeps P (fun s =>
      ((s.tolerate env.attrInit .iePthreadAttrInit).spawn env.threads).check
        (s.streams.length ≤ env.threads) .iePthreadCreate) := by
    intro s hs
    apply h.check _ _ (by decide)
    exact h.log _ _ ⟨nofun, nofun⟩ (h.congr (s.tolerate env.attrInit .iePthreadAttrInit) _
      ⟨rfl, rfl, rfl, rfl, rfl, rfl, rfl, rfl⟩ (h.tolerate env.attrInit .iePthreadAttrInit hs
        (by decide)))
  exact hspawn.andThen fun s hs => h.tolerate _ _ hs (by decide)

theorem Inert.turnControl (h : Inert P) (env : TurnEnv) : Keeps P (turnControl env) := by
  intro s hs
  unfold Iperf3.turnControl
  split
  · exact h.handleMessageServer _ s hs
  · exact hs

theorem Inert.turnStreams (h : Inert P) (b : Build) (env : TurnEnv) :
    Keeps P (turnStreams b env) := by
  have hdata : Keeps P (turnData b env) := by
    intro s hs
    unfold turnData
    split
    · exact h.acceptStream b _ s hs
    · exact hs
  have hstart : Keeps P (fun s =>
      if s.streamsComplete then Iperf3.startTest env.start s
        |> andThen (Iperf3.createWorkers env.start)
      else (s, true)) := by
    intro s hs
    dsimp only
    split_ifs
    · exact ((h.startTest env.start).andThen (h.createWorkers env.start)) s hs
    · exact hs
  intro s hs
  unfold Iperf3.turnStreams
  split_ifs
  · exact (hdata.andThen hstart) s hs
  · exact hs

/-- Apart from the client that it may accept, a turn keeps an inert property
that the stream numbers do not touch. -/
theorem Inert.serverTurn (h : Inert P) (b : Build) {env : TurnEnv} {s : Server}
    (hnumbers : ∀ s, P s → P (setStreamNumbers s)) (hs : P s)
    (haccept : ∀ accept, env.listener = some accept → accept.accepted = true →
      s.ctrlSck = false → s.state ≠ .createStreams → P (acceptClient b accept s).1) :
    P (serverTurn b env s).1 := by
  have hlistener : P (turnListener b (env.ready s) s).1 := by
    unfold turnListener
    split
    · rename_i accept hlistener
      split_ifs with hstate
      · exact hs
      · have hset : Keeps P (fun s => (setStreamNumbers s, true)) := fun s hs => hnumbers s hs
        apply hset.apply
        unfold iperfAccept Server.check andThen
        by_cases haccepted : accept.accepted = true
        · simp only [haccepted, if_true]
          split_ifs with hc
          · exact hs
          · exact haccept accept hlistener haccepted (by simpa using hc) hstate
        · simp only [haccepted, Bool.false_eq_true, if_false]
          exact h.withErrno _ (by decide) s hs
    · exact hs
  exact (h.turnStreams b _).apply ((h.turnControl _).apply hlistener)

theorem Inert.serverTimerProc (h : Inert P) (sent : Bool) {s : Server} (hs : P s)
    (hclosed : ∀ s : Server, P s → P { s.freeStreams.log .streamsFreed with ctrlSck := false }) :
    P (s.serverTimerProc sent) := by
  have hlogged : P (s.log (.timerExpired .duration)) := h.log _ s ⟨nofun, nofun⟩ hs
  have hflags : ∀ (u : Server) done, P u → P { u with done := done, timer := false } :=
    fun u _ hu => h.congr u _ ⟨rfl, rfl, rfl, rfl, rfl, rfl, rfl, rfl⟩ hu
  have hexpired : P ((s.log (.timerExpired .duration)).announceExpiry sent) := by
    have hsent := h.setSendState sent .serverError _ (hflags _ true hlogged)
    unfold Server.announceExpiry
    dsimp only
    split_ifs
    · exact h.withErrno _ (by decide) _ hsent
    · exact hsent
  unfold Server.serverTimerProc
  dsimp only
  split_ifs
  · exact hflags _ s.done hlogged
  · exact hclosed _ hexpired

end Inert

/-! ## After the parameter exchange -/

/-- The freed streams and, while the control connection lasts, the numbers
that were fixed when the client was accepted. -/
structure Frame (old s : Server) : Prop where
  freed : s.freed = old.freed
  ctrlSck : s.ctrlSck = true → old.ctrlSck = true
  mode : s.ctrlSck = true → s.test.mode = old.test.mode
  numStreams : s.ctrlSck = true → s.test.numStreams = old.test.numStreams
  streamsToRec : s.ctrlSck = true → s.streamsToRec = old.streamsToRec
  streamsToSend : s.ctrlSck = true → s.streamsToSend = old.streamsToSend

theorem Frame.refl (s : Server) : Frame s s :=
  ⟨rfl, id, fun _ => rfl, fun _ => rfl, fun _ => rfl, fun _ => rfl⟩

/-- Reading results leaves the mode and the number of streams. -/
theorem getResults_fixed (message : Option Json) (side : TestSide) :
    (getResults message side).1.test.mode = side.test.mode ∧
      (getResults message side).1.test.numStreams = side.test.numStreams := by
  have hflags : ∀ (t : Test) (result : ℤ),
      (readRetransmitFlags t result).mode = t.mode ∧
        (readRetransmitFlags t result).numStreams = t.numStreams := by
    intro t result
    unfold readRetransmitFlags
    split <;> exact ⟨rfl, rfl⟩
  have hstreams : ∀ (j : Json) (side : TestSide),
      (readStreams j side).1.test.mode = side.test.mode ∧
        (readStreams j side).1.test.numStreams = side.test.numStreams := by
    intro j side
    unfold readStreams
    split
    · dsimp only
      split_ifs
      · split <;> exact ⟨rfl, rfl⟩
      · exact ⟨rfl, rfl⟩
    · exact ⟨rfl, rfl⟩
  unfold getResults
  split
  · exact ⟨rfl, rfl⟩
  · split
    · obtain ⟨hmode, hnum⟩ := hflags side.test _
      constructor
      · exact (hstreams _ _).1.trans hmode
      · exact (hstreams _ _).2.trans hnum
    · exact ⟨rfl, rfl⟩

theorem length_absorbStream {peer : PeerStream} {streams absorbed : List Stream}
    (h : absorbStream peer streams = some absorbed) : absorbed.length = streams.length := by
  induction streams generalizing absorbed with
  | nil => cases h
  | cons sp streams ih =>
      unfold absorbStream at h
      split_ifs at h
      · cases h
        rfl
      · obtain ⟨rest, hrest, rfl⟩ := Option.map_eq_some_iff.mp h
        rw [List.length_cons, List.length_cons, ih hrest]

theorem getResults_length (message : Option Json) (side : TestSide) :
    (getResults message side).1.streams.length = side.streams.length := by
  have hitems : ∀ (items : List Json) (state : ReadState),
      (items.foldl readStreamItem state).streams.length = state.streams.length := by
    intro items
    induction items with
    | nil => exact fun state => rfl
    | cons item items ih =>
        intro state
        rw [List.foldl_cons, ih]
        unfold readStreamItem
        split
        · rfl
        · split
          · rfl
          · rename_i habsorbed
            exact length_absorbStream habsorbed
  have hstreams : ∀ (j : Json) (side : TestSide),
      (readStreams j side).1.streams.length = side.streams.length := by
    intro j side
    unfold readStreams
    split
    · rename_i items _
      have hread := hitems items ⟨side.streams, side.test.iErrno, true⟩
      dsimp only
      split_ifs
      · split <;> exact hread
      · exact hread
    · rfl
  unfold getResults
  split
  · rfl
  · split
    · exact hstreams _ _
    · rfl

theorem noteErrno_eq (s : Server) (before : IErrno) (ok : Bool) :
    s.noteErrno before ok = s ∨ s.noteErrno before ok = s.log (.raised s.test.iErrno) := by
  unfold Server.noteErrno
  split_ifs
  · exact Or.inr rfl
  · exact Or.inl rfl

theorem inert_frame (old : Server) : Inert (Frame old) where
  congr s s' hagree h :=
    { freed := hagree.freed.trans h.freed
      ctrlSck := fun hc => h.ctrlSck (hagree.ctrlSck ▸ hc)
      mode := fun hc => hagree.mode.trans (h.mode (hagree.ctrlSck ▸ hc))
      numStreams := fun hc => hagree.numStreams.trans (h.numStreams (hagree.ctrlSck ▸ hc))
      streamsToRec := fun hc => hagree.streamsToRec.trans (h.streamsToRec (hagree.ctrlSck ▸ hc))
      streamsToSend := fun hc =>
        hagree.streamsToSend.trans (h.streamsToSend (hagree.ctrlSck ▸ hc)) }
  log _ _ _ h := { h with }
  withErrno _ _ _ h := { h with }
  cleanupServer _ h :=
    { freed := h.freed
      ctrlSck := nofun
      mode := nofun
      numStreams := nofun
      streamsToRec := nofun
      streamsToSend := nofun }
  results message s h := by
    obtain ⟨hmode, hnum⟩ := getResults_fixed message s.toTestSide
    have hread : Frame old { s with toTestSide := (getResults message s.toTestSide).1 } :=
      { h with
        mode := fun hc => hmode.trans (h.mode hc)
        numStreams := fun hc => hnum.trans (h.numStreams hc) }
    unfold Server.getResults
    dsimp only
    rcases noteErrno_eq { s with toTestSide := (getResults message s.toTestSide).1 }
      s.test.iErrno (getResults message s.toTestSide).2 with hsame | hlogged
    · rw [hsame]
      exact hread
    · rw [hlogged]
      exact { hread with }

theorem turnControl_frame (old : Server) (env : TurnEnv) :
    Keeps (Frame old) (turnControl env) :=
  (inert_frame old).turnControl env

theorem turnStreams_frame (old : Server) (b : Build) (env : TurnEnv) :
    Keeps (Frame old) (turnStreams b env) :=
  (inert_frame old).turnStreams b env

/-! ## The parameter exchange -/

section Accept

variable {b : Build} {P : Server → Prop}

theorem acceptClient_keeps
    (herrno : ∀ code, code ≠ .ieAuthTest → ∀ s, P s → P (s.withErrno code))
    (henter : ∀ state s, P s → P (s.enter state))
    (hsent : ∀ state s, P s → P (s.log (.sent state)))
    (hauthorized : ∀ outcome s, P s → P (s.log (.testIsAuthorized outcome)))
    (hlistens : ∀ protocol recreates listening s, P s →
      P (s.log (.protocolListen protocol recreates listening)))
    (env : AcceptEnv) (hcookie : ∀ cookie s, P s → P { s with cookie := cookie })
    (hread : Keeps P (fun s => s.getParameters b env.message))
    (hlisten : ∀ s, P s → P s.openProtListener)
    {s : Server} (hs : P s.takeControl) : P (acceptClient b env s).1 := by
  have hcheck : ∀ ok, Keeps P (fun s => s.check ok .ieAffinity) := by
    intro ok s hs
    dsimp only
    unfold Server.check
    split_ifs
    · exact hs
    · exact herrno _ (by decide) s hs
  have hsend : ∀ sent state, Keeps P (fun s => s.setSendState sent state) := by
    intro sent state s hs
    dsimp only
    unfold Server.setSendState
    split_ifs
    · exact hsent _ _ (henter state s hs)
    · exact herrno _ (by decide) _ (henter state s hs)
    · exact hs
  have hreadCookie : Keeps P (fun s => s.readCookie env.cookie) := by
    intro s hs
    dsimp only
    unfold Server.readCookie
    split
    · exact hcookie _ s hs
    · exact herrno _ (by decide) s hs
  have hauthorize : Keeps P (fun s => s.testIsAuthorized env.authorization) :=
    fun s hs => hauthorized _ s hs
  have hcheckError : ∀ error, Keeps P (fun s => s.checkError error) := by
    intro error s hs
    cases error with
    | none => exact hs
    | some code => exact herrno code code.property.2 s hs
  have hprotocol : Keeps P (fun s => s.protocolListen env.listening) :=
    fun s hs => hcheckError _ _ (hlistens _ _ _ s hs)
  have hopen : Keeps P (fun s =>
      s.openProtListener.setSendState env.sentCreateStreams .createStreams) :=
    fun s hs => hsend _ _ s.openProtListener (hlisten s hs)
  have hexchange : Keeps P (exchangeParameters b env) :=
    ((hread.andThen hauthorize).andThen hprotocol).andThen hopen
  have haffinity : Keeps P (fun s =>
      s.check (s.test.serverAffinity = -1 || env.affinitySet) .ieAffinity) :=
    fun s hs => hcheck _ s hs
  exact haffinity.apply (hexchange.apply ((hsend _ _).apply (hreadCookie.apply
    (hcheckError _ _ hs))))

theorem getParameters_keeps
    (hraised : ∀ code s, P s → P (s.log (.raised code)))
    (htest : ∀ t s, P s → P { s with test := t }) (message : Option Json) :
    Keeps P (fun s => s.getParameters b message) := by
  intro s hs
  dsimp only
  unfold Server.getParameters
  dsimp only
  rcases noteErrno_eq { s with test := (getParameters b message s.test).1 }
    s.test.iErrno (getParameters b message s.test).2 with hsame | hlogged
  · rw [hsame]
    exact htest _ s hs
  · rw [hlogged]
    exact hraised _ _ (htest _ s hs)

theorem iperfAccept_freed (env : AcceptEnv) (freed : List Stream) :
    Keeps (fun s : Server => s.freed = freed) (iperfAccept b env) := by
  have hfirst :
      Keeps (fun s : Server => s.freed = freed) (fun s => s.check env.accepted .ieAccept) := by
    intro s hs
    dsimp only
    unfold Server.check
    split_ifs <;> exact hs
  have hclient : Keeps (fun s : Server => s.freed = freed)
      (fun s => if s.ctrlSck then (s, true) else acceptClient b env s) := by
    intro s hs
    dsimp only
    split_ifs
    · exact hs
    · exact acceptClient_keeps (P := fun s => s.freed = freed) (fun _ _ _ h => h)
        (fun _ _ h => h) (fun _ _ h => h) (fun _ _ h => h) (fun _ _ _ _ h => h) env
        (fun _ _ h => h)
        (getParameters_keeps (fun _ _ h => h) (fun _ _ h => h) env.message) (fun _ h => h) hs
  exact hfirst.andThen hclient

end Accept

end Iperf3
