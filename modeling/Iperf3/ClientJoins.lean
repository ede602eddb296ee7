import Iperf3.Client
import Iperf3.ServerJoins
import Mathlib.Tactic

/-!
# The client waits for its workers

The client joins its senders at the end of the test, its receivers after the
loop, and all workers when it gives up.  Only the last message of a test
closes the sockets first.
-/

namespace Iperf3

open Workers

/-- What a call does to the workers of the client. -/
def Workers.clientCall (ws : Workers) : ClientCall → Workers
  | .newStream => ws.add
  | .spawned threads => ws.spawn threads
  | .joined workers => workers.foldl (fun ws i => ws.join i) ws
  | .sendersShutDown senders => senders.foldl (fun ws i => ws.close i) ws
  | .streamsClosed => ws.closeAll
  | .workerReturned i => ws.returns i
  | _ => ws

def clientWorkers (calls : List ClientCall) : Workers :=
  calls.foldl Workers.clientCall []

/-- No join waits for a worker that may be inside a blocking call. -/
def ClientJoinsSafe (calls : List ClientCall) : Prop :=
  calls |> Always fun before call =>
    ∀ workers, call = .joined workers → (clientWorkers before).Joinable workers

namespace Client

def workers (c : Client) : Workers :=
  clientWorkers c.calls

theorem workers_log (c : Client) (call : ClientCall) :
    (c.log call).workers = c.workers.clientCall call := by
  simp [workers, clientWorkers, log]

/-- A call that joins no worker and lets none block. -/
def Harmless (call : ClientCall) : Prop :=
  (∀ workers, call ≠ .joined workers) ∧ ∀ ws : Workers, ws.Safe → (ws.clientCall call).Safe

theorem harmless_of_same {call : ClientCall} (hjoined : ∀ workers, call ≠ .joined workers)
    (hsame : ∀ ws : Workers, ws.clientCall call = ws) : Harmless call :=
  ⟨hjoined, fun ws hws => (hsame ws).symm ▸ hws⟩

theorem harmless_raised (code : IErrno) : Harmless (.raised code) :=
  harmless_of_same nofun fun _ => rfl

theorem harmless_sent (state : TestState) : Harmless (.sent state) :=
  harmless_of_same nofun fun _ => rfl

theorem harmless_newStream : Harmless .newStream :=
  ⟨nofun, fun _ hws => hws.add⟩

/-- A property that the calls of a message keep. -/
structure Steady (P : Client → Prop) : Prop where
  log : ∀ call c, Harmless call → P c → P (c.log call)
  congr : ∀ c u : Client, u.calls = c.calls → u.startup = c.startup → u.state = c.state →
    P c → P u

section Steady

variable {P : Client → Prop} {c : Client}

theorem Steady.withErrno (h : Steady P) (code : IErrno) (hc : P c) : P (c.withErrno code) :=
  h.log _ { c with test := { c.test with iErrno := code } } (harmless_raised code)
    (h.congr c _ rfl rfl rfl hc)

theorem Steady.check (h : Steady P) (ok : Bool) (code : IErrno) :
    Keeps P (fun c => c.check ok code) := by
  intro c hc
  dsimp only
  unfold Client.check
  split_ifs
  · exact hc
  · exact h.withErrno code hc

theorem Steady.iperfCreateStreams (h : Steady P) (error : ErrorCode) (directions : List Bool)
    (buffers : List (List UInt8)) : Keeps P (iperfCreateStreams error directions buffers) := by
  induction directions generalizing buffers with
  | nil => exact fun c hc => hc
  | cons sender directions ih =>
      intro c hc
      cases buffers with
      | nil => exact h.withErrno _ hc
      | cons buffer buffers =>
          apply ih buffers
          exact h.log _ _ harmless_newStream (h.congr c _ rfl rfl rfl hc)

theorem Steady.handleTestStart (h : Steady P) (env : ClientMessageEnv) :
    Keeps P (handleTestStart env) := by
  have hinit : Keeps P (fun c => (c.stampStreams env.now).check env.initialized .ieInitTest) :=
    fun c hc => h.check _ _ _ (h.congr c _ rfl rfl rfl hc)
  have htimers : Keeps P (createClientTimers env) :=
    fun c hc => h.check _ _ _ (h.congr c _ rfl rfl rfl hc)
  have homit : Keeps P (createClientOmitTimer env) :=
    fun c hc => h.check _ _ _ (h.congr c _ rfl rfl rfl hc)
  exact ((hinit.andThen htimers).andThen homit).andThen fun c hc => h.check _ _ c hc

theorem Steady.exchangeResults (h : Steady P) (env : ClientMessageEnv) :
    Keeps P (fun c => c.check env.sentResults .ieSendResults
      |> andThen (fun c => c.getResults env.results)) := by
  have hread : Keeps P (fun c => c.getResults env.results) := by
    intro c hc
    have hresults : P { c with toTestSide := (Iperf3.getResults env.results c.toTestSide).1 } :=
      h.congr c _ rfl rfl rfl hc
    dsimp only [Client.getResults]
    split_ifs
    · exact hresults
    · exact h.log _ _ (harmless_raised _) hresults
  exact (h.check env.sentResults .ieSendResults).andThen hread

end Steady

/-! ## Steps of the loop -/

/-- Nothing that has been joined was blocked, and nothing is. -/
structure AllSafe (c : Client) : Prop where
  joins : ClientJoinsSafe c.calls
  safe : c.workers.Safe

/-- Nothing that has been joined was blocked, and before the start of the
workers nothing is. -/
structure Supervised (c : Client) : Prop where
  joins : ClientJoinsSafe c.calls
  fresh : c.startup = true → c.workers.Safe

theorem log_joins {c : Client} (h : ClientJoinsSafe c.calls) {call : ClientCall}
    (hcall : ∀ workers, call = .joined workers → c.workers.Joinable workers) :
    ClientJoinsSafe (c.log call).calls :=
  always_append.mpr ⟨h, hcall⟩

theorem Harmless.log_joins {c : Client} {call : ClientCall} (hcall : Harmless call)
    (h : ClientJoinsSafe c.calls) : ClientJoinsSafe (c.log call).calls :=
  Client.log_joins h fun workers heq => absurd heq (hcall.1 workers)

theorem Harmless.log_safe {c : Client} {call : ClientCall} (hcall : Harmless call)
    (h : c.workers.Safe) : (c.log call).workers.Safe := by
  rw [workers_log]
  exact hcall.2 _ h

theorem steady_allSafe : Steady AllSafe where
  log call c hcall h := ⟨hcall.log_joins h.joins, hcall.log_safe h.safe⟩
  congr c u hcalls hstartup hstate h := by
    have hworkers : u.workers = c.workers := congrArg clientWorkers hcalls
    exact ⟨hcalls ▸ h.joins, hworkers ▸ h.safe⟩

theorem steady_supervised : Steady Supervised where
  log call c hcall h := ⟨hcall.log_joins h.joins, fun hstartup => hcall.log_safe (h.fresh hstartup)⟩
  congr c u hcalls hstartup hstate h := by
    have hworkers : u.workers = c.workers := congrArg clientWorkers hcalls
    exact ⟨hcalls ▸ h.joins, fun hfresh => hworkers ▸ h.fresh (hstartup ▸ hfresh)⟩

theorem steady_state (state : TestState) : Steady (fun c => c.state = state) where
  log _ _ _ h := h
  congr _ _ _ _ hstate h := hstate.trans h

theorem AllSafe.supervised {c : Client} (h : AllSafe c) : Supervised c :=
  ⟨h.joins, fun _ => h.safe⟩

theorem AllSafe.enter {c : Client} (h : AllSafe c) (state : TestState) : AllSafe (c.enter state) :=
  ⟨h.joins, h.safe⟩

theorem Supervised.enter {c : Client} (h : Supervised c) (state : TestState) :
    Supervised (c.enter state) :=
  ⟨h.joins, h.fresh⟩

theorem AllSafe.setSendState {c : Client} (h : AllSafe c) (sent : Bool) (state : TestState) :
    AllSafe (c.setSendState sent state).1 := by
  unfold Client.setSendState
  split_ifs
  · exact steady_allSafe.log _ _ (harmless_sent state) (h.enter state)
  · exact steady_allSafe.withErrno _ (h.enter state)
  · exact h

theorem iperfClientEnd_allSafe {c : Client} (h : ClientJoinsSafe c.calls) (sentDone : Bool) :
    AllSafe (iperfClientEnd sentDone c).1 := by
  have hclosed : AllSafe (c.log .streamsClosed) := by
    refine ⟨log_joins h nofun, ?_⟩
    rw [workers_log]
    exact safe_closeAll _
  unfold iperfClientEnd
  dsimp only
  split_ifs
  · exact hclosed.setSendState _ _
  · exact hclosed

theorem join_joins {c : Client} (h : ClientJoinsSafe c.calls) (p : Stream → Bool)
    (hjoinable : c.workers.Joinable (c.select fun sp => p sp && sp.threadCreated)) :
    ClientJoinsSafe (c.join p).calls :=
  always_append.mpr ⟨h, by rintro workers heq; cases heq; exact hjoinable⟩

theorem select_mono {c : Client} {p q : Stream → Bool} (hpq : ∀ sp, q sp = true → p sp = true) :
    ∀ i ∈ c.select q, i ∈ c.select p := by
  intro i hi
  obtain ⟨sp, hsp, rfl⟩ := List.mem_map.mp hi
  rw [List.mem_filter] at hsp
  exact List.mem_map.mpr ⟨sp, List.mem_filter.mpr ⟨hsp.1, hpq _ hsp.2⟩, rfl⟩

theorem cleanupAndFail_joins {c : Client} (h : AllSafe c) :
    ClientJoinsSafe (ClientProcess.cleanupAndFail c).client.calls :=
  (iperfClientEnd_allSafe (join_joins h.joins _ (h.safe.joinable _)) true).joins

/-- The receivers can be waited for. -/
def ReceiversJoinable (c : Client) : Prop :=
  c.workers.Joinable (c.select fun sp => !sp.sender)

end Client

open Client

/-- A message that the client handles without a failure; if it ends the test,
then the receivers have stopped. -/
def ClientMessageEnv.GoesOn (env : ClientMessageEnv) (c : Client) : Prop :=
  ∃ value, env.read = .byte value ∧
    match TestState.ofByte value with
    | .paramExchange => env.sentParameters = true
    | .createStreams => c.test.streamDirections.length ≤ env.connections.length
    | .testStart => env.initialized = true ∧ env.timersCreated = true ∧
        (c.test.omitTime = 0 ∨ env.omitTimerCreated = true) ∧
          (c.test.mode = .receiver ∨ env.sendTimersCreated = true)
    | .testRunning | .displayResults => True
    | .exchangeResults => env.sentResults = true ∧
        (getResults env.results c.toTestSide).2 = true
    | .iperfDone => c.ReceiversJoinable
    | _ => False

theorem iperfCreateStreams_ok {error : ErrorCode} {directions : List Bool}
    {buffers : List (List UInt8)} (h : directions.length ≤ buffers.length) (c : Client) :
    (iperfCreateStreams error directions buffers c).2 = true := by
  induction directions generalizing buffers c with
  | nil => rfl
  | cons sender directions ih =>
      cases buffers with
      | nil => simp at h
      | cons buffer buffers => exact ih (by simpa using h) _

theorem handleTestStart_ok {env : ClientMessageEnv} {c : Client}
    (hinit : env.initialized = true) (htimers : env.timersCreated = true)
    (homit : c.test.omitTime = 0 ∨ env.omitTimerCreated = true)
    (hsend : c.test.mode = .receiver ∨ env.sendTimersCreated = true) :
    (handleTestStart env c).2 = true := by
  let Same : Client → Prop := fun u => u.test = c.test
  have hcheck : ∀ (u : Client) (ok : Bool), Same u → ok = true →
      ((u.check ok .ieInitTest).2 = true → Same (u.check ok .ieInitTest).1) ∧
        ((u.check ok .ieInitTest).2 = false → False) := by
    rintro u ok hu rfl
    exact ⟨fun _ => hu, nofun⟩
  have hstamp : Triple Same
      (fun u => (u.stampStreams env.now).check env.initialized .ieInitTest) Same fun _ => False :=
    fun u hu => hcheck _ _ hu hinit
  have hclient : Triple Same (createClientTimers env) Same fun _ => False :=
    fun u hu => hcheck _ _ hu htimers
  have homitting : Triple Same (createClientOmitTimer env) Same fun _ => False := by
    intro u hu
    refine hcheck _ _ hu ?_
    rw [show u.test = c.test from hu]
    simpa using homit
  have hsending : Triple Same
      (fun u => u.check (u.test.mode = .receiver || env.sendTimersCreated) .ieInitTest) Same
      fun _ => False := by
    intro u hu
    refine hcheck _ _ hu ?_
    rw [show u.test = c.test from hu]
    simpa using hsend
  have hstarted := (((hstamp.andThen hclient).andThen homitting).andThen hsending) c rfl
  by_contra hfails
  have hfalse : (handleTestStart env c).2 = false := by simpa using hfails
  exact hstarted.2 hfalse

theorem handleMessageClient_ok {env : ClientMessageEnv} {c : Client} (h : env.GoesOn c) :
    (handleMessageClient env c).2 = true := by
  obtain ⟨value, hread, hgoes⟩ := h
  unfold handleMessageClient
  rw [hread]
  dsimp only
  cases hstate : TestState.ofByte value <;> rw [hstate] at hgoes
  case paramExchange =>
    dsimp only at hgoes ⊢
    unfold Client.check
    rw [if_pos hgoes]
  case createStreams => exact iperfCreateStreams_ok hgoes _
  case testStart =>
    obtain ⟨hinit, htimers, homit, hsend⟩ := hgoes
    exact handleTestStart_ok hinit htimers homit hsend
  case exchangeResults =>
    obtain ⟨hsent, hresults⟩ := hgoes
    dsimp only
    unfold Client.check andThen
    rw [if_pos hsent]
    exact hresults
  all_goals exact hgoes.elim

/-- A message keeps what is steady, once its byte is stored. -/
theorem handleMessageClient_keeps {P : Client → Prop} (hP : Steady P)
    (henter : ∀ state c, P c → P (c.enter state))
    (hend : ∀ sentDone c, P c → P (iperfClientEnd sentDone c).1) (env : ClientMessageEnv) :
    Keeps P (handleMessageClient env) := by
  intro c hc
  have hlogged : P (c.log (.controlRead env.read)) :=
    hP.log _ _ (harmless_of_same nofun fun _ => rfl) hc
  unfold handleMessageClient
  dsimp only
  split
  · exact hP.withErrno _ hlogged
  · exact hP.withErrno _ hlogged
  · rename_i value _
    have hentered := henter (TestState.ofByte value) _ hlogged
    split
    · exact hP.check _ _ _ hentered
    · exact hP.iperfCreateStreams _ _ _ _ hentered
    · exact hP.handleTestStart env _ hentered
    · exact hentered
    · exact hP.exchangeResults env _ hentered
    · exact hend _ _ hentered
    · exact hentered
    · exact hP.withErrno _ hentered
    · exact hP.withErrno _ hentered
    · split
      · exact hP.withErrno _ hentered
      · exact hP.withErrno _ hentered
    · exact hP.withErrno _ hentered

/-- After a message that does not fail the loop ends only when the receivers
can be waited for. -/
theorem handleMessageClient_done {env : ClientMessageEnv} {c : Client}
    (h : ClientJoinsSafe c.calls) (hdone : c.workers.Safe ∨ env.GoesOn c)
    (hok : (handleMessageClient env c).2 = true)
    (hstate : (handleMessageClient env c).1.state = .iperfDone) :
    (handleMessageClient env c).1.ReceiversJoinable := by
  unfold handleMessageClient at hok hstate ⊢
  cases hread : env.read with
  | closed => simp [hread] at hok
  | failed => simp [hread] at hok
  | byte value =>
      rw [hread] at hok hstate
      dsimp only at hok hstate ⊢
      have hworkers : ((c.log (.controlRead (.byte value))).enter
          (TestState.ofByte value)).workers = c.workers :=
            Client.workers_log c (.controlRead (.byte value))
      cases hbyte : TestState.ofByte value <;> rw [hbyte] at hok hstate hworkers <;>
        dsimp only at hok hstate ⊢
      case paramExchange =>
        have hkept := (steady_state .paramExchange).check env.sentParameters .ieSendParams
          ((c.log (.controlRead (.byte value))).enter .paramExchange) rfl
        exact absurd (hkept.symm.trans hstate) (by decide)
      case createStreams =>
        have hkept := (steady_state .createStreams).iperfCreateStreams env.streamError
          ((c.log (.controlRead (.byte value))).enter .createStreams).test.streamDirections
          env.connections ((c.log (.controlRead (.byte value))).enter .createStreams) rfl
        exact absurd (hkept.symm.trans hstate) (by decide)
      case testStart =>
        have hkept := (steady_state .testStart).handleTestStart env
          ((c.log (.controlRead (.byte value))).enter .testStart) rfl
        exact absurd (hkept.symm.trans hstate) (by decide)
      case exchangeResults =>
        have hkept := (steady_state .exchangeResults).exchangeResults env
          ((c.log (.controlRead (.byte value))).enter .exchangeResults) rfl
        exact absurd (hkept.symm.trans hstate) (by decide)
      case testRunning => exact absurd hstate nofun
      case displayResults =>
        have hlogged : ClientJoinsSafe ((c.log (.controlRead (.byte value))).enter
            .displayResults).calls := log_joins h nofun
        exact (iperfClientEnd_allSafe hlogged env.sentDone).safe.joinable _
      case iperfDone =>
        unfold ReceiversJoinable
        rw [hworkers]
        rcases hdone with hsafe | ⟨byte, hsame, hgoes⟩
        · exact hsafe.joinable _
        · obtain rfl : value = byte := ControlRead.byte.inj (hread.symm.trans hsame)
          rw [hbyte] at hgoes
          exact hgoes
      case serverError =>
        cases henv : env.serverErrno <;> rw [henv] at hok <;> simp at hok
      all_goals simp at hok

/-! ## Runs -/

/-- The senders can be waited for. -/
def Client.SendersJoinable (c : Client) : Prop :=
  c.workers.Joinable (c.select fun sp => sp.sender)

/-- While a worker may be blocked nothing fails, if a worker is created then
all are, and whoever is waited for at the end has stopped. -/
def ClientJoinsDone (p : ClientProcess) (event : ClientEvent) : Prop :=
  match p.phase, event with
  | .waiting, .selectFails => p.client.state = .iperfDone ∨ p.client.workers.Safe
  | .waiting, .noMessage =>
      p.client.state ≠ .testRunning ∨ p.client.test.mode = .sender ∨ p.client.workers.Safe
  | .waiting, .wake (some env) =>
      p.client.state = .iperfDone ∨ p.client.workers.Safe ∨ env.GoesOn p.client
  | .starting, .start env =>
      p.client.startup = true → env.attrInit = true →
        env.threads = 0 ∨ (p.client.streams.length ≤ env.threads ∧ env.attrDestroy = true)
  | .checking, .timers events sent =>
      (p.client.traffic.run events).endReached p.client.test = true →
        p.client.SendersJoinable ∧ (sent = true ∨ p.client.workers.Safe)
  | _, _ => True

/-- What holds of the client in a phase. -/
def ClientPhase.Joined (c : Client) : ClientPhase → Prop
  | .connecting => Client.AllSafe c
  | .waiting => Client.Supervised c ∧ (c.state = .iperfDone → c.ReceiversJoinable)
  | .starting | .checking => Client.Supervised c ∧ c.state ≠ .iperfDone
  | .returned _ => ClientJoinsSafe c.calls

def ClientProcess.Joined (p : ClientProcess) : Prop :=
  p.phase.Joined p.client

theorem ClientProcess.Joined.joins {p : ClientProcess} (h : p.Joined) :
    ClientJoinsSafe p.client.calls := by
  unfold ClientProcess.Joined ClientPhase.Joined at h
  split at h
  · exact h.joins
  · exact h.1.joins
  · exact h.1.joins
  · exact h.1.joins
  · exact h

theorem cleanupAndFail_joined {c : Client} (h : Client.AllSafe c) :
    (ClientProcess.cleanupAndFail c).Joined :=
  cleanupAndFail_joins h

/-- Nobody is blocked after a worker has returned who was not before. -/
theorem ClientPhase.Joined.workerReturned {phase : ClientPhase} {c : Client}
    (h : phase.Joined c) (i : ℕ) : phase.Joined (c.log (.workerReturned i)) := by
  have hharmless : Harmless (.workerReturned i) := ⟨nofun, fun _ hws => hws.returns i⟩
  have hsupervised : Client.Supervised c → Client.Supervised (c.log (.workerReturned i)) :=
    steady_supervised.log _ _ hharmless
  cases phase with
  | connecting => exact steady_allSafe.log _ _ hharmless h
  | waiting =>
      refine ⟨hsupervised h.1, fun hdone => ?_⟩
      have hjoinable := h.2 hdone
      unfold ReceiversJoinable at hjoinable ⊢
      rw [Client.workers_log]
      exact hjoinable.returns i
  | starting => exact ⟨hsupervised h.1, h.2⟩
  | checking => exact ⟨hsupervised h.1, h.2⟩
  | returned rc => exact hharmless.log_joins h

theorem ClientPhase.Joined.traffic {phase : ClientPhase} {c : Client} (h : phase.Joined c)
    (traffic : Traffic) : phase.Joined { c with traffic := traffic } := by
  cases phase with
  | connecting => exact ⟨h.joins, h.safe⟩
  | waiting => exact ⟨⟨h.1.joins, h.1.fresh⟩, h.2⟩
  | starting => exact ⟨⟨h.1.joins, h.1.fresh⟩, h.2⟩
  | checking => exact ⟨⟨h.1.joins, h.1.fresh⟩, h.2⟩
  | returned rc => exact h

theorem connectTo_joined {c : Client} (h : Client.AllSafe c) (connecting : Connecting) :
    (ClientProcess.connectTo connecting c).Joined := by
  have hctrl : Client.AllSafe { c with ctrlSck := true } := ⟨h.joins, h.safe⟩
  cases connecting with
  | unprepared => exact h.joins
  | undialled => exact cleanupAndFail_joined (steady_allSafe.withErrno _ h)
  | fails code => exact cleanupAndFail_joined (steady_allSafe.withErrno _ hctrl)
  | connects => exact ⟨⟨h.joins, fun _ => h.safe⟩, fun _ => h.safe.joinable _⟩

theorem afterMessage_joined {env : ClientMessageEnv} {c : Client} (h : Client.Supervised c)
    (hevent : c.workers.Safe ∨ env.GoesOn c) :
    (ClientProcess.afterMessage (handleMessageClient env c)).Joined := by
  unfold ClientProcess.afterMessage
  split_ifs with hok hrunning
  · have hkept : Client.Supervised (handleMessageClient env c).1 :=
      handleMessageClient_keeps steady_supervised (fun state c hc => hc.enter state)
        (fun sentDone c hc => (iperfClientEnd_allSafe hc.joins sentDone).supervised) env c h
    refine ⟨hkept, fun hdone => ?_⟩
    exact absurd (hrunning.symm.trans hdone) (by decide)
  · have hkept : Client.Supervised (handleMessageClient env c).1 :=
      handleMessageClient_keeps steady_supervised (fun state c hc => hc.enter state)
        (fun sentDone c hc => (iperfClientEnd_allSafe hc.joins sentDone).supervised) env c h
    exact ⟨hkept, handleMessageClient_done h.joins hevent hok⟩
  · rcases hevent with hsafe | hgoes
    · apply cleanupAndFail_joined
      exact handleMessageClient_keeps steady_allSafe (fun state c hc => hc.enter state)
        (fun sentDone c hc => iperfClientEnd_allSafe hc.joins sentDone) env c ⟨h.joins, hsafe⟩
    · exact absurd (handleMessageClient_ok hgoes) hok

/-- When a creation fails, no worker has been created. -/
theorem createClientWorkers_joined {env : ClientStartEnv} {c : Client}
    (h : Client.AllSafe c) (hstate : c.state ≠ .iperfDone)
    (hall : env.attrInit = true →
      env.threads = 0 ∨ (c.streams.length ≤ env.threads ∧ env.attrDestroy = true)) :
    ((createClientWorkers env c).2 = true →
        ClientPhase.checking.Joined (createClientWorkers env c).1) ∧
      ((createClientWorkers env c).2 = false → Client.AllSafe (createClientWorkers env c).1) := by
  let Spawned : Client → Prop := fun u =>
    ClientJoinsSafe u.calls ∧ u.startup = false ∧ u.state ≠ .iperfDone ∧
      (env.threads = 0 → u.workers.Safe)
  have hbegun : Client.AllSafe { c with startup := false } := ⟨h.joins, h.safe⟩
  have hinit : Triple (fun u => u = c)
      (fun u => { u with startup := false }.check env.attrInit .iePthreadAttrInit)
      (fun u => u = { c with startup := false } ∧ env.attrInit = true) Client.AllSafe := by
    rintro u rfl
    unfold Client.check
    split_ifs with hok
    · exact ⟨fun _ => ⟨rfl, hok⟩, nofun⟩
    · exact ⟨nofun, fun _ => steady_allSafe.withErrno _ hbegun⟩
  have hspawn : Triple (fun u => u = { c with startup := false } ∧ env.attrInit = true)
      (fun u => (u.spawn env.threads).check (u.streams.length ≤ env.threads) .iePthreadCreate)
      (fun u => Spawned u ∧ (env.threads = 0 ∨ env.attrDestroy = true)) Client.AllSafe := by
    rintro u ⟨rfl, hok⟩
    have hworkers : ({ c with startup := false }.spawn env.threads).workers =
        c.workers.spawn env.threads := Client.workers_log _ (.spawned env.threads)
    have hjoins : ClientJoinsSafe ({ c with startup := false }.spawn env.threads).calls :=
      Client.log_joins (c := { c with startup := false }) h.joins nofun
    have hnone : env.threads = 0 → (c.workers.spawn env.threads).Safe := by
      intro hzero
      rw [hzero, spawn_zero]
      exact h.safe
    dsimp only
    unfold Client.check
    split_ifs with hcreated
    · refine ⟨fun _ => ⟨⟨hjoins, rfl, hstate, fun hzero => hworkers ▸ hnone hzero⟩, ?_⟩, nofun⟩
      exact (hall hok).imp_right fun hrest => hrest.2
    · refine ⟨nofun, fun _ => steady_allSafe.withErrno _ ⟨hjoins, hworkers ▸ hnone ?_⟩⟩
      have hshort : ¬ c.streams.length ≤ env.threads := by simpa using hcreated
      exact (hall hok).resolve_right fun hrest => hshort hrest.1
  have hdestroy : Triple (fun u => Spawned u ∧ (env.threads = 0 ∨ env.attrDestroy = true))
      (fun u => u.check env.attrDestroy .iePthreadAttrDestroy)
      (fun u => ClientPhase.checking.Joined u) Client.AllSafe := by
    rintro u ⟨⟨hjoins, hstartup, hrunning, hnone⟩, hrest⟩
    unfold Client.check
    split_ifs with hok
    · refine ⟨fun _ => ⟨⟨hjoins, fun hfresh => ?_⟩, hrunning⟩, nofun⟩
      exact absurd (hfresh.symm.trans hstartup) (by decide)
    · have hsafe : u.workers.Safe := hnone (hrest.resolve_right hok)
      exact ⟨nofun, fun _ => steady_allSafe.withErrno _ ⟨hjoins, hsafe⟩⟩
  exact ((hinit.andThen hspawn).andThen hdestroy) c rfl

theorem foldl_safe {α : Type} {f : Workers → α → Workers}
    (hf : ∀ ws i, ws.Safe → (f ws i).Safe) {ws : Workers} (h : ws.Safe) (numbers : List α) :
    (numbers.foldl f ws).Safe := by
  induction numbers generalizing ws with
  | nil => exact h
  | cons i numbers ih => exact ih (hf ws i h)

theorem stopSenders_joined (b : Build) {sent : Bool} {c : Client} (h : Client.Supervised c)
    (hstate : c.state ≠ .iperfDone) (hjoinable : c.SendersJoinable)
    (hsent : sent = true ∨ c.workers.Safe) :
    ((stopSenders b sent c).2 = true → ClientPhase.waiting.Joined (stopSenders b sent c).1) ∧
      ((stopSenders b sent c).2 = false → Client.AllSafe (stopSenders b sent c).1) := by
  let stopped := ((c.join fun sp => sp.sender).shutDownSenders b).finishTraffic
  have hjoined : ClientJoinsSafe (c.join fun sp => sp.sender).calls := by
    refine join_joins h.joins _ fun i hi => hjoinable i ?_
    exact select_mono (fun sp hsp => (Bool.and_eq_true_iff.mp hsp).1) i hi
  have hleft : c.workers.Safe → (c.join fun sp => sp.sender).workers.Safe := by
    intro hsafe
    have hworkers : (c.join fun sp => sp.sender).workers =
        c.workers.clientCall (.joined (c.select fun sp => sp.sender && sp.threadCreated)) :=
      Client.workers_log _ _
    rw [hworkers]
    exact foldl_safe (fun _ i hws => hws.join i) hsafe _
  have hstopped : ClientJoinsSafe stopped.calls ∧ (c.workers.Safe → stopped.workers.Safe) ∧
      stopped.startup = c.startup ∧ stopped.state = c.state := by
    change ClientJoinsSafe ((c.join fun sp => sp.sender).shutDownSenders b).calls ∧
      (c.workers.Safe → ((c.join fun sp => sp.sender).shutDownSenders b).workers.Safe) ∧
        ((c.join fun sp => sp.sender).shutDownSenders b).startup = c.startup ∧
          ((c.join fun sp => sp.sender).shutDownSenders b).state = c.state
    unfold Client.shutDownSenders
    split_ifs
    · refine ⟨log_joins hjoined nofun, fun hsafe => ?_, rfl, rfl⟩
      rw [Client.workers_log]
      exact foldl_safe (fun _ i hws => hws.close i) (hleft hsafe) _
    · exact ⟨hjoined, hleft, rfl, rfl⟩
  obtain ⟨hjoins, hsafe, hstartup, hsame⟩ := hstopped
  have hsupervised : Client.Supervised stopped :=
    ⟨hjoins, fun hfresh => hsafe (h.fresh (hstartup ▸ hfresh))⟩
  have hentered : Client.Supervised (stopped.enter .testEnd) := hsupervised.enter .testEnd
  change ((stopped.setSendState sent .testEnd).2 = true →
      ClientPhase.waiting.Joined (stopped.setSendState sent .testEnd).1) ∧
    ((stopped.setSendState sent .testEnd).2 = false →
      Client.AllSafe (stopped.setSendState sent .testEnd).1)
  unfold Client.setSendState
  split_ifs with hctrl hok
  · exact ⟨fun _ => ⟨steady_supervised.log _ _ (harmless_sent _) hentered, nofun⟩, nofun⟩
  · have hquiet : stopped.workers.Safe := hsafe (hsent.resolve_left hok)
    have hall : Client.AllSafe (stopped.enter .testEnd) := ⟨hjoins, hquiet⟩
    exact ⟨nofun, fun _ => steady_allSafe.withErrno _ hall⟩
  · exact ⟨fun _ => ⟨hsupervised, fun hdone => absurd (hsame.symm.trans hdone) hstate⟩, nofun⟩

theorem ClientProcess.step_joined (b : Build) {p : ClientProcess} {event : ClientEvent}
    (h : p.Joined) (hevent : ClientJoinsDone p event) : (p.step b event).Joined := by
  obtain ⟨c, phase⟩ := p
  cases phase with
  | connecting =>
      cases event
      case connect connecting => exact connectTo_joined h connecting
      all_goals exact h
  | returned rc => cases event <;> exact h
  | waiting =>
      cases event with
      | sent r blockComplete => exact ClientPhase.Joined.traffic h _
      | received r => exact ClientPhase.Joined.traffic h _
      | workerReturns i => exact ClientPhase.Joined.workerReturned h i
      | selectFails =>
          change (if c.state = .iperfDone then _ else _ : ClientProcess).Joined
          split_ifs with hdone
          · exact h
          · exact cleanupAndFail_joined (steady_allSafe.withErrno _
              ⟨h.joins, hevent.resolve_left hdone⟩)
      | noMessage =>
          change (if c.state ≠ .testRunning ∨ c.test.mode = .sender then _ else _ :
            ClientProcess).Joined
          split_ifs with hquiet
          · exact h
          · rw [not_or] at hquiet
            have hsafe : c.workers.Safe := (hevent.resolve_left hquiet.1).resolve_left hquiet.2
            exact cleanupAndFail_joined (steady_allSafe.withErrno _ ⟨h.joins, hsafe⟩)
      | wake message =>
          change (if c.state = .iperfDone then _ else _ : ClientProcess).Joined
          split_ifs with hdone
          · exact h
          · cases message with
            | some env => exact afterMessage_joined h.1 (hevent.resolve_left hdone)
            | none =>
                unfold ClientProcess.afterMessage
                rw [if_pos rfl]
                dsimp only
                split_ifs
                · exact ⟨h.1, hdone⟩
                · exact h
      | finish jsonFinished =>
          change (if c.state = .iperfDone then _ else _ : ClientProcess).Joined
          split_ifs with hdone
          · have hjoins : ClientJoinsSafe (c.join fun sp => !sp.sender).calls := by
              refine join_joins h.1.joins _ fun i hi => h.2 hdone i ?_
              exact select_mono (fun sp hsp => (Bool.and_eq_true_iff.mp hsp).1) i hi
            unfold ClientProcess.finishRun
            dsimp only
            split_ifs
            · exact hjoins
            · exact hjoins
          · exact h
      | _ => exact h
  | starting =>
      cases event with
      | sent r blockComplete => exact ClientPhase.Joined.traffic h _
      | received r => exact ClientPhase.Joined.traffic h _
      | workerReturns i => exact ClientPhase.Joined.workerReturned h i
      | start env =>
          change (if c.startup then _ else _ : ClientProcess).Joined
          have hcreated (hstartup : c.startup = true) :=
            createClientWorkers_joined ⟨h.1.joins, h.1.fresh hstartup⟩ h.2 (hevent hstartup)
          split_ifs with hstartup hok
          · exact (hcreated hstartup).1 hok
          · exact cleanupAndFail_joined ((hcreated hstartup).2 (by simpa using hok))
          · exact h
      | _ => exact h
  | checking =>
      cases event with
      | sent r blockComplete => exact ClientPhase.Joined.traffic h _
      | received r => exact ClientPhase.Joined.traffic h _
      | workerReturns i => exact ClientPhase.Joined.workerReturned h i
      | timers events sent =>
          have hrun : ClientPhase.checking.Joined { c with traffic := c.traffic.run events } :=
            ClientPhase.Joined.traffic h _
          change (if (checkEnd b sent { c with traffic := c.traffic.run events }).2 then _ else _ :
            ClientProcess).Joined
          have hchecked : ((checkEnd b sent { c with traffic := c.traffic.run events }).2 = true →
              ClientPhase.waiting.Joined
                (checkEnd b sent { c with traffic := c.traffic.run events }).1) ∧
              ((checkEnd b sent { c with traffic := c.traffic.run events }).2 = false →
                Client.AllSafe (checkEnd b sent { c with traffic := c.traffic.run events }).1) := by
            unfold checkEnd
            split_ifs with hend
            · exact stopSenders_joined b hrun.1 hrun.2 (hevent hend).1 (hevent hend).2
            · exact ⟨fun _ => ⟨hrun.1, fun hdone => absurd hdone hrun.2⟩, nofun⟩
          split_ifs with hok
          · exact hchecked.1 hok
          · exact cleanupAndFail_joined (hchecked.2 (by simpa using hok))
      | _ => exact h

/-- Every event of the run meets the condition in the state it finds. -/
def ClientProcess.Meets (b : Build) : ClientProcess → List ClientEvent → Prop
  | _, [] => True
  | p, event :: events => ClientJoinsDone p event ∧ Meets b (p.step b event) events

theorem ClientProcess.run_joined (b : Build) {events : List ClientEvent} {p : ClientProcess}
    (h : p.Joined) (hrun : p.Meets b events) : (p.run b events).Joined := by
  induction events generalizing p with
  | nil => exact h
  | cons event events ih => exact ih (step_joined b h hrun.1) hrun.2

theorem clientProcess_joined (side : TestSide) : (clientProcess side).Joined :=
  ⟨always_nil _, safe_nil⟩

/-- Neither party waits in a join for a worker that may be inside a blocking
call, if nothing fails while such a worker runs and every end finds the
workers stopped that it waits for. -/
theorem joins_never_block (b : Build) (side : TestSide) :
    (∀ events, (serverProcess side).Meets b ServerJoinsDone events →
      ServerJoinsSafe ((serverProcess side).run b events).server.calls) ∧
    ∀ events, (clientProcess side).Meets b events →
      ClientJoinsSafe ((clientProcess side).run b events).client.calls := by
  constructor
  · intro events hrun
    have hstart : (serverProcess side).Holds Iperf3.Supervised
        (fun s => ServerJoinsSafe s.calls) Iperf3.AllSafe := ⟨always_nil _, safe_nil⟩
    have hend := (serverJoinRules b).run hstart hrun
    unfold Process.Holds at hend
    split at hend
    · exact hend.joins
    · exact hend.joins
    · exact hend
    · exact hend
  · intro events hrun
    exact (ClientProcess.run_joined b (clientProcess_joined side) hrun).joins

/-! ## Runs with one stream -/

/-- The test of `iperf3 -c host -R`. -/
def reverseTest : Test :=
  match parseArguments Build.msvc none [.client, .reverse] (iperfStart Build.msvc) with
  | .ok t => t
  | .error _ => iperfStart Build.msvc

def reverseClient : ClientProcess :=
  clientProcess (freshSide reverseTest)

/-- Whatever a message needs succeeds. -/
def ClientMessageEnv.ok (state : TestState) : ClientMessageEnv :=
  { read := .byte state.toByte
    sentParameters := true
    connections := [[]]
    streamError := ⟨.ieStreamConnect, ieStreamConnect_isError⟩
    initialized := true
    now := IperfTime.ofCounters 0 0
    timersCreated := true
    omitTimerCreated := true
    sendTimersCreated := true
    sentResults := true
    results := none
    sentDone := true
    serverErrno := none }

/-- The client up to the start of its worker. -/
def startedClient : List ClientEvent :=
  [.connect .connects, .wake (some (.ok .paramExchange)), .wake (some (.ok .createStreams)),
    .wake (some (.ok .testStart)), .wake (some (.ok .testRunning)), .start ⟨true, 1, true⟩]

/-- The duration passes, and the server closes the connections of the test. -/
def finishedClient : List ClientEvent :=
  startedClient ++
    [.timers [.durationExpires] true, .workerReturns 0,
      .wake (some { ClientMessageEnv.ok .exchangeResults with results := some exampleResults }),
      .wake (some (.ok .displayResults)), .finish true]

/-- The server of a test that ends as it should. -/
def finishedServer : List ServerEvent :=
  let start := StartEnv.ok (IperfTime.ofCounters 0 0) 2
  startedTest ++
    [.turn ⟨none, some (.ok TestState.testEnd.toByte (some exampleResults)), none, start⟩,
      .turn ⟨none, some (.ok TestState.iperfDone.toByte none), none, start⟩,
      .finish true true]

theorem joins_never_block_finished :
    ServerJoinsSafe ((defaultServer Build.msvc).run Build.msvc finishedServer).server.calls ∧
      ClientJoinsSafe (reverseClient.run Build.msvc finishedClient).client.calls := by
  constructor
  · apply (joins_never_block Build.msvc _).1
    have hquiet : ∀ (s : Server) (env : TurnEnv), env.listener = none → env.control = none →
        env.start.CreatesAll (s.streams.length + 1) → ServerJoinsDone s (.turn env) := by
      intro s env hlistener hcontrol hall
      refine ⟨fun _ => ⟨fun accept haccept => ?_, fun message hmessage => ?_⟩, fun _ => hall⟩
      · exact absurd (hlistener.symm.trans haccept) (by simp)
      · exact absurd (hcontrol.symm.trans hmessage) (by simp)
    have hends : ∀ (s : Server) (env : TurnEnv) (message : MessageEnv), env.listener = none →
        env.control = some message → message.GoesOn →
          env.start.CreatesAll (s.streams.length + 1) → ServerJoinsDone s (.turn env) := by
      intro s env message hlistener hcontrol hgoes hall
      refine ⟨fun _ => ⟨fun accept haccept => ?_, fun other hother => ?_⟩, fun _ => hall⟩
      · exact absurd (hlistener.symm.trans haccept) (by simp)
      · obtain rfl := Option.some.inj (hcontrol.symm.trans hother)
        exact hgoes
    refine ⟨nofun, fun _ => ⟨fun hrisk => absurd ?_ hrisk, fun _ => Or.inr ⟨?_, rfl⟩⟩,
      fun _ => hquiet _ _ rfl rfl (Or.inr ⟨?_, rfl⟩),
      fun _ => hends _ _ _ rfl rfl (Or.inr ⟨_, rfl, ?_⟩) (Or.inr ⟨?_, rfl⟩),
      fun _ => hends _ _ _ rfl rfl (Or.inr ⟨_, rfl, ?_⟩) (Or.inr ⟨?_, rfl⟩),
      fun _ _ => Or.inr ?_, trivial⟩
    all_goals decide +kernel
  · apply (joins_never_block Build.msvc _).2
    have hwakes : ∀ (p : ClientProcess) (message : Option ClientMessageEnv),
        p.client.workers.Safe → ClientJoinsDone p (.wake message) := by
      rintro ⟨c, phase⟩ message hsafe
      cases phase <;> cases message
      case waiting.some env => exact Or.inr (Or.inl hsafe)
      all_goals trivial
    have hfinish : ∀ (p : ClientProcess) (jsonFinished : Bool),
        ClientJoinsDone p (.finish jsonFinished) := by
      rintro ⟨c, phase⟩ jsonFinished
      cases phase <;> trivial
    have hsenders : (reverseClient.run Build.msvc startedClient).client.select
        (fun sp => sp.sender) = [] := by decide +kernel
    refine ⟨trivial, hwakes _ _ ?_, hwakes _ _ ?_, hwakes _ _ ?_, hwakes _ _ ?_,
      fun _ _ => Or.inr ⟨?_, rfl⟩, fun _ => ⟨?_, Or.inl rfl⟩, trivial, hwakes _ _ ?_,
      hwakes _ _ ?_, hfinish _ _, trivial⟩
    case refine_6 =>
      intro i hi
      exact absurd (hsenders ▸ hi) (List.not_mem_nil)
    all_goals decide +kernel

/-- The connection to the client breaks while the worker receives, and the
cleanup of the server waits for it; a client that receives nothing gives up
and waits for the worker that does not receive. -/
theorem joins_block :
    ¬ ServerJoinsSafe ((defaultServer Build.msvc).run Build.msvc
        (startedTest ++
          [.turn ⟨none, some { MessageEnv.ok 0 none with read := .closed }, none,
            StartEnv.ok (IperfTime.ofCounters 0 0) 1⟩, .finish true true])).server.calls ∧
      ¬ ClientJoinsSafe (reverseClient.run Build.msvc
        (startedClient ++ [.timers [] true, .noMessage])).client.calls := by
  constructor
  · intro h
    have hsafe := h (((defaultServer Build.msvc).run Build.msvc
      (startedTest ++
          [.turn ⟨none, some { MessageEnv.ok 0 none with read := .closed }, none,
            StartEnv.ok (IperfTime.ofCounters 0 0) 1⟩, .finish true true])).server.calls.dropLast)
      (.cleanup (some .ieCtrlClose)) (by decide +kernel) _ rfl
    revert hsafe
    decide +kernel
  · intro h
    have hjoinable := h ((reverseClient.run Build.msvc
      (startedClient ++ [.timers [] true, .noMessage])).client.calls.takeWhile
        (· ≠ .joined [0])) (.joined [0]) (by decide +kernel) [0] rfl 0 (by simp) ⟨true, false, true⟩
          (by decide +kernel)
    exact absurd hjoinable (by decide)

end Iperf3
