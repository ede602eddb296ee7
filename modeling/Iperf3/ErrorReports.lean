import Iperf3.Sequence
import Iperf3.ParameterFields
import Iperf3.WorkerLifetime
import Mathlib.Tactic

/-!
# What the server reports to its clients

There is one error code for the whole process.  Every function assigns it on
its own failures, nothing clears it, and a cleanup sends whatever it holds to
the client that is connected then.  A report is faithful if its code was
assigned since that client was accepted.
-/

namespace Iperf3

/-- The calls since the last client was accepted, the latest first. -/
def thisTest (calls : List ServerCall) : List ServerCall :=
  calls.reverse.takeWhile fun call => call ≠ .accepted

/-- Every code that a cleanup sends was raised during the same test. -/
def FaithfulReports (calls : List ServerCall) : Prop :=
  calls |> Always fun before call =>
    ∀ code, call = .cleanup (some code) → .raised code ∈ thisTest before

theorem mem_thisTest_append {calls : List ServerCall} {x call : ServerCall}
    (hcall : call ≠ .accepted) (h : x ∈ thisTest calls ∨ x = call) :
    x ∈ thisTest (calls ++ [call]) := by
  have hcons : thisTest (calls ++ [call]) = call :: thisTest calls := by
    simp [thisTest, hcall]
  rw [hcons, List.mem_cons]
  exact h.symm

/-- While a client is connected, the error code is one of its own test. -/
structure Explained (s : Server) : Prop where
  faithful : FaithfulReports s.calls
  own : s.ctrlSck = true → s.test.iErrno = .ieNone ∨ .raised s.test.iErrno ∈ thisTest s.calls

theorem Explained.log {s : Server} (h : Explained s) {call : ServerCall}
    (hcall : Unreported call) : Explained (s.log call) where
  faithful := always_append.mpr ⟨h.faithful, fun _ heq => absurd heq (hcall.2 _)⟩
  own hc := (h.own hc).imp_right fun hmem => mem_thisTest_append hcall.1 (Or.inl hmem)

/-- An error code that has just been raised is explained. -/
theorem FaithfulReports.raised {s : Server} (h : FaithfulReports s.calls) :
    Explained (s.log (.raised s.test.iErrno)) where
  faithful := always_append.mpr ⟨h, nofun⟩
  own _ := Or.inr (mem_thisTest_append nofun (Or.inr rfl))

theorem Explained.withErrno {s : Server} (h : Explained s) (code : IErrno) :
    Explained (s.withErrno code) :=
  FaithfulReports.raised (s := { s with test.iErrno := code }) h.faithful

theorem Explained.cleanupServer {s : Server} (h : Explained s) : Explained s.cleanupServer where
  faithful := by
    refine always_append.mpr ⟨h.faithful, fun code heq => ?_⟩
    have hreported : s.reported = some code := ServerCall.cleanup.inj heq
    unfold Server.reported at hreported
    split_ifs at hreported with herror
    rw [← Option.some.inj hreported]
    exact (h.own herror.2).resolve_left herror.1
  own := nofun

/-- A function on the record that has assigned the error code is seen to. -/
theorem Explained.noteErrno {s s' : Server} (h : Explained s) (ok : Bool)
    (hcalls : s'.calls = s.calls) (hctrl : s'.ctrlSck = s.ctrlSck) :
    Explained (s'.noteErrno s.test.iErrno ok) := by
  unfold Server.noteErrno
  split_ifs with hchanged
  · exact FaithfulReports.raised (hcalls ▸ h.faithful)
  · have hsame : s'.test.iErrno = s.test.iErrno := by
      by_contra hne
      exact hchanged (Or.inl hne)
    refine ⟨hcalls ▸ h.faithful, fun hc => ?_⟩
    rw [hsame, hcalls]
    exact h.own (hctrl ▸ hc)

theorem inert_explained : Inert Explained where
  congr s s' hagree h :=
    { faithful := hagree.calls ▸ h.faithful
      own := fun hc => by
        rw [hagree.iErrno, hagree.calls]
        exact h.own (hagree.ctrlSck ▸ hc) }
  log call s hcall h := h.log hcall
  withErrno code hcode s h := h.withErrno code
  cleanupServer s h := h.cleanupServer
  results message s h := h.noteErrno _ rfl rfl

/-! ## Accepting a client -/

/-- Since a moment at which `n` calls were recorded, an error code has been
raised and is the current one. -/
def Reported (n : ℕ) (s : Server) : Prop :=
  s.test.iErrno ≠ .ieNone ∧ .raised s.test.iErrno ∈ s.calls.drop n

/-- If the client is refused after its control connection is in place, a code
says why. -/
def AcceptReported (b : Build) (env : AcceptEnv) (s : Server) : Prop :=
  env.accepted = true → s.ctrlSck = false → (iperfAccept b env s).2 = false →
    Reported s.calls.length (iperfAccept b env s).1

theorem reported_withErrno {n : ℕ} {s : Server} {code : IErrno}
    (hn : n ≤ s.calls.length) (hcode : code ≠ .ieNone) : Reported n (s.withErrno code) := by
  refine ⟨hcode, ?_⟩
  simp only [Server.withErrno, Server.log]
  rw [List.drop_append_of_le_length hn]
  exact List.mem_append_right _ (List.mem_singleton_self _)

theorem setProtocol_error (b : Build) (id : ProtocolId) {t : Test} (h : t.iErrno ≠ .ieNone) :
    (t.setProtocol b id).iErrno ≠ .ieNone := by
  unfold Test.setProtocol Test.checkSenderHasRetransmits
  split_ifs <;> simp_all

/-- Only the choice of the protocol assigns the error code. -/
theorem readParameters_iErrno (b : Build) (j : Json) (t : Test) :
    (readParameters b j t).1.iErrno = (readProtocol b j t).1.iErrno := by
  have hreverse : ∀ t : Test, (t.setTestReverse b 1).iErrno = t.iErrno := by
    intro t
    unfold Test.setTestReverse Test.checkSenderHasRetransmits
    dsimp only
    split_ifs <;> rfl
  have hdirection : ∀ t, (readDirection b j t).iErrno = t.iErrno := by
    intro t
    unfold readDirection
    dsimp only
    split_ifs <;> simp [hreverse, Test.setTestBidirectional]
  obtain ⟨r, hretransmits⟩ := readRetransmits_eq b (readOptions b j (readRates j
    (deriveGsoSizes (readSizes b j
      (readDirection b j (readLimits j (readProtocol b j t).1))))))
  calc (readParameters b j t).1.iErrno
      = (readDirection b j (readLimits j (readProtocol b j t).1)).iErrno := by
        unfold readParameters
        dsimp only
        rw [hretransmits, deriveGsoSizes_eq]
        rfl
    _ = (readProtocol b j t).1.iErrno := hdirection _

theorem readParameters_error {b : Build} {j : Json} {t : Test}
    (h : (readParameters b j t).2 = false) : (readParameters b j t).1.iErrno ≠ .ieNone := by
  have hprotocol : (readProtocol b j t).2 = false → (readProtocol b j t).1.iErrno ≠ .ieNone := by
    unfold readProtocol
    dsimp only
    split_ifs <;> simp_all [setProtocol_error]
  rw [readParameters_iErrno]
  exact hprotocol h

theorem getParameters_error {b : Build} {message : Option Json} {t : Test}
    (h : (getParameters b message t).2 = false) :
    (getParameters b message t).1.iErrno ≠ .ieNone := by
  cases message with
  | none => simp [getParameters]
  | some j =>
      simp only [getParameters, checkLimits_eq] at h ⊢
      unfold Test.limitErrno
      split_ifs with hrate hduration
      · simp
      · simp
      · -- no limit is exceeded, so the message itself was refused
        apply readParameters_error
        simp_all

theorem iperfAccept_reported
    {b : Build} {env : AcceptEnv} {s : Server} (hauthorized : env.authorization.ok = true) :
    AcceptReported b env s := by
  intro haccepted hfree
  have hgrows : ∀ call u, s.calls.length ≤ (u : Server).calls.length →
      s.calls.length ≤ (u.log call).calls.length := by
    intro call u hu
    simp only [Server.log, List.length_append]
    omega
  let Since : Server → Prop := fun u => u.ctrlSck = true ∧ s.calls.length ≤ u.calls.length
  have hread : Triple Since (fun u => u.getParameters b env.message) Since
      (Reported s.calls.length) := by
    rintro u ⟨hc, hu⟩
    dsimp only [Server.getParameters]
    constructor
    · intro _
      rcases noteErrno_eq { u with test := (getParameters b env.message u.test).1 }
        u.test.iErrno (getParameters b env.message u.test).2 with hsame | hlogged
      · rw [hsame]
        exact ⟨hc, hu⟩
      · rw [hlogged]
        exact ⟨hc, hgrows _ _ hu⟩
    · intro hfailed
      have herror := getParameters_error hfailed
      have hlogged := reported_withErrno
        (s := { u with test := (getParameters b env.message u.test).1 }) hu herror
      simpa [Server.noteErrno, hfailed, Server.withErrno] using hlogged
  have htriple : Triple (fun u : Server => u = s) (acceptClient b env)
      (fun u => s.calls.length ≤ u.calls.length) (Reported s.calls.length) := by
    apply triple_acceptClient (M := Since) (N := Since) (L := Since) env
    · rintro u rfl
      exact ⟨rfl, hgrows .accepted { u with ctrlSck := true } le_rfl⟩
    · exact fun u hu => hu.1
    · exact fun code u hu => reported_withErrno hu.2 code.property.1
    · exact fun _ _ hu => hu
    · exact fun u hu => ⟨hu.1, hgrows _ (u.enter .paramExchange) hu.2⟩
    · exact fun u hu => reported_withErrno (s := u.enter .paramExchange) hu.2 (by decide)
    · exact hread
    · exact fun _ u hu => ⟨hu.1, hgrows _ u hu.2⟩
    · exact fun h => absurd (h.symm.trans hauthorized) (by decide)
    · exact fun _ _ => triple_protocolListen _ (fun u hu => ⟨hu.1, hgrows _ u hu.2⟩)
        (fun code u hu => reported_withErrno hu.2 code.property.1)
    · exact fun _ hu => hu
    · exact fun _ hu => hu.1
    · exact fun u hu => hgrows _ (u.enter .createStreams) hu.2
    · exact fun _ u hu => reported_withErrno (s := u.enter .createStreams) hu.2 (by decide)
    · exact fun _ u _ hu => reported_withErrno hu (by decide)
  unfold iperfAccept Server.check andThen
  simp only [haccepted, if_true, hfree, Bool.false_eq_true, if_false]
  exact (htriple s rfl).2

/-! ## Runs -/

/-- A client is accepted only while no error code is left from before, and is
not refused for its login. -/
def CleanAccept (s : Server) : ServerEvent → Prop
  | .turn env => ∀ accept, env.listener = some accept → accept.accepted = true →
      s.ctrlSck = false → s.state ≠ .createStreams →
        s.test.iErrno = .ieNone ∧ accept.authorization.ok = true
  | _ => True

/-- A client that is accepted in this turn and refused is told why. -/
def TurnReported (b : Build) (s : Server) : ServerEvent → Prop
  | .turn env => ∀ accept, env.listener = some accept → s.state ≠ .createStreams →
      AcceptReported b accept s
  | _ => True

theorem acceptClient_explained
    {b : Build} (env : AcceptEnv) {s : Server} (h : Explained s)
    (herror : s.test.iErrno = .ieNone) :
    Explained (acceptClient b env s).1 := by
  have htaken : Explained s.takeControl :=
    ⟨always_append.mpr ⟨h.faithful, nofun⟩, fun _ => Or.inl herror⟩
  have hread : Keeps Explained (fun s => s.getParameters b env.message) :=
    fun s hs => hs.noteErrno _ rfl rfl
  exact acceptClient_keeps inert_explained.withErrno
    (fun state _ hs => inert_explained.enter state hs)
    (fun _ _ hs => hs.log ⟨nofun, nofun⟩) (fun _ _ hs => hs.log ⟨nofun, nofun⟩)
    (fun _ _ _ _ hs => hs.log ⟨nofun, nofun⟩) env
    (fun _ _ hs => ⟨hs.faithful, hs.own⟩) hread (fun _ hs => ⟨hs.faithful, hs.own⟩) htaken

theorem reportRules (b : Build) :
    ServerRules b CleanAccept Explained Explained Explained Explained where
  listens s h := by
    have hlogged : Explained (s.log .serverListen) := h.log ⟨nofun, nofun⟩
    exact ⟨hlogged.faithful, hlogged.own⟩
  noLogfile s h := h
  startFails code s h := h.withErrno code
  traffic update s h := ⟨h.faithful, h.own⟩
  worker i error s h := (inert_explained.checkError error s h).log ⟨nofun, nofun⟩
  timer timer s hduration h := h.log ⟨nofun, nofun⟩
  expire sent s hC htimer h :=
    inert_explained.serverTimerProc sent h fun s hs =>
      ⟨always_append.mpr ⟨hs.faithful, nofun⟩, nofun⟩
  turn env s hC hdone h := by
    have hturn : Explained (serverTurn b env s).1 :=
      inert_explained.serverTurn b (fun s hs => ⟨hs.faithful, hs.own⟩) h
        fun accept haccept haccepted hfree hstate =>
          acceptClient_explained accept h (hC accept haccept haccepted hfree hstate).1
    exact ⟨fun _ => hturn, fun _ => hturn⟩
  rateExceeded sent s hC hdone h :=
    inert_explained.setSendState sent _ _ (h.withErrno .ieTotalRate)
  selectFails s hC hdone h := h
  idleTimeout oneOff s hC hstart h := h.log ⟨nofun, nofun⟩
  noMessage s hC hquiet h := h.withErrno .ieNoMsg
  finish jsonFinished affinityCleared s hC hjson hdone h := h
  noJson affinityCleared s hC hjson hdone h := h
  cleanup s h := h.cleanupServer
  late s h := h.withErrno .ieSelect
  reset s h := ⟨always_append.mpr ⟨h.faithful, nofun⟩, nofun⟩
  exits s h := h

/-- If no error code is left over whenever a client is accepted, and no login
is refused, then every report is faithful and every refused client gets one. -/
theorem error_reports_faithful
    (b : Build) (side : TestSide) {events : List ServerEvent}
    (hrun : (serverProcess side).Meets b CleanAccept events) :
    FaithfulReports ((serverProcess side).run b events).server.calls ∧
      (serverProcess side).Meets b (TurnReported b) events := by
  constructor
  · have hstart : (serverProcess side).Holds Explained Explained Explained :=
      ⟨always_nil _, nofun⟩
    have hend := (reportRules b).run hstart hrun
    unfold Process.Holds at hend
    split at hend <;> exact hend.faithful
  · apply hrun.mono
    intro s event hclean
    cases event with
    | turn env =>
        intro accept haccept hstate haccepted hfree
        exact iperfAccept_reported (hclean accept haccept haccepted hfree hstate).2 haccepted hfree
    | _ => trivial

/-! ## A code from an earlier test -/

/-- What the client of a test with one stream sends as its results. -/
def exampleResults : Json :=
  sendResults { freshSide (serverStart Build.linux ServerArgs.default) with
    streams := [{ iperfNewStream true [] with id := 1 }] }

/-- A test that starts and ends as it should. -/
def completedTest : List ServerEvent :=
  let start := StartEnv.ok (IperfTime.ofCounters 0 0) 1
  startedTest ++
    [.turn ⟨none, some (.ok TestState.testEnd.toByte (some exampleResults)), none, start⟩,
      .turn ⟨none, some (.ok TestState.iperfDone.toByte none), none, start⟩,
      .finish true true]

theorem error_reports_faithful_completed :
    ((defaultServer Build.linux).run Build.linux completedTest).phase = .returned 0 ∧
      FaithfulReports
        ((defaultServer Build.linux).run Build.linux completedTest).server.calls ∧
      (defaultServer Build.linux).Meets Build.linux (TurnReported Build.linux) completedTest := by
  have hquiet : ∀ (s : Server) (env : TurnEnv), env.listener = none →
      CleanAccept s (.turn env) := by
    intro s env hnone accept haccept
    exact absurd (hnone.symm.trans haccept) (by simp)
  constructor
  · decide +kernel
  · apply error_reports_faithful
    refine ⟨nofun, fun _ => ?_, fun _ => hquiet _ _ rfl, fun _ => hquiet _ _ rfl,
      fun _ => hquiet _ _ rfl, fun _ => trivial, trivial⟩
    intro accept haccept _ _ _
    rw [← Option.some.inj haccept]
    exact ⟨rfl, rfl⟩

/-- A client whose password is wrong. -/
def refusedAccept : AcceptEnv :=
  { AcceptEnv.ok exampleCookie (some (.object [])) with authorization := .wrongPassword }

/-- After a terminated test the next client, whose test completes, is sent the
old error code; and a refused login raises no code. -/
theorem stale_code_reported :
    ¬ FaithfulReports ((defaultServer Build.linux).run Build.linux
        (terminatedTest ++ completedTest)).server.calls ∧
      ¬ AcceptReported Build.linux refusedAccept
        ((defaultServer Build.linux).run Build.linux [.start .listens]).server := by
  constructor
  · intro h
    have hraised := h (((defaultServer Build.linux).run Build.linux
      (terminatedTest ++ completedTest)).server.calls.dropLast)
        (.cleanup (some .ieClientTerm)) (by decide +kernel) .ieClientTerm rfl
    revert hraised
    decide +kernel
  · intro h
    have hreported := h rfl rfl rfl
    exact hreported.1 rfl

end Iperf3
