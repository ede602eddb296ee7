import Iperf3.Arguments
import Mathlib.Tactic

/-!
# The record of a freshly started server

An accepted server command line contains no client option, so its record
differs from the defaults only in the members that server options may set.
`serverStart` is that record as a function of those members, and
`parseArguments_serverStart` shows that every accepted server command line
produces one.
-/

namespace Iperf3

structure ServerArgs where
  statsInterval : ℚ
  diskfileName : Option String
  maxServerDuration : ℤ
  mptcp : Bool
  bitrateLimit : ℕ
  bitrateLimitInterval : ℚ
  deriving DecidableEq, Repr

structure ServerArgs.Accepted (b : Build) (a : ServerArgs) : Prop where
  statsInterval : outsideIntervalRange a.statsInterval = false
  bitrateLimitInterval : outsideIntervalRange a.bitrateLimitInterval = false
  maxServerDuration_nonneg : 0 ≤ a.maxServerDuration
  maxServerDuration_le : a.maxServerDuration ≤ maxTime
  mptcp : a.mptcp = true → b.haveIpprotoMptcp = true
  bitrateLimit_lt : a.bitrateLimit < 18446744073709551616

def ServerArgs.default : ServerArgs := ⟨1, none, 0, false, 0, 5⟩

/-- The record while the option loop has met server options only. -/
def serverOptions (b : Build) (role : Role) (a : ServerArgs) : Test :=
  { iperfStart b with
    role := role
    statsInterval := a.statsInterval
    diskfileName := a.diskfileName
    maxServerDuration := a.maxServerDuration
    mptcp := if a.mptcp then 1 else 0
    settings := { (iperfStart b).settings with
      bitrateLimit := a.bitrateLimit
      bitrateLimitInterval := a.bitrateLimitInterval } }

def serverStart (b : Build) (a : ServerArgs) : Test :=
  applyStatsPerInterval (serverOptions b .server a)

theorem ServerArgs.default_accepted (b : Build) :
    ServerArgs.default.Accepted b := by
  constructor <;>
    norm_num [ServerArgs.default, outsideIntervalRange, minIntervalSecs,
      maxIntervalSecs, maxTime]

theorem serverOptions_default (b : Build) :
    serverOptions b .none ServerArgs.default = iperfStart b := by
  simp [serverOptions, ServerArgs.default, iperfStart, iperfNewTest,
    Test.iperfDefaults, Test.setProtocol, Build.supports,
    Test.checkSenderHasRetransmits]

/-- Until a client option, the offload option or the client role appears, the
loop has only moved server members. -/
structure ServerOnly (b : Build) (p : ParseState) : Prop where
  blksize : p.blksize = 0
  rateFlag : p.rateFlag = false
  durationFlag : p.durationFlag = false
  test : ∃ a : ServerArgs, a.Accepted b ∧ p.test = serverOptions b p.test.role a

def ServerSoFar (b : Build) (p : ParseState) : Prop :=
  p.clientFlag = false → p.gsroFlag = false → p.test.role ≠ .client →
    ServerOnly b p

theorem serverSoFar_initial (b : Build) :
    ServerSoFar b (ParseState.initial (iperfStart b)) := by
  intro _ _ _
  have hrole : (iperfStart b).role = .none := by
    simp [iperfStart, iperfNewTest, Test.iperfDefaults, Test.setProtocol,
      Build.supports, Test.checkSenderHasRetransmits]
  refine ⟨rfl, rfl, rfl, ServerArgs.default, ServerArgs.default_accepted b, ?_⟩
  simp only [ParseState.initial, hrole]
  exact (serverOptions_default b).symm

/-! ## One option -/

/-- Options that leave both the client flag and the offload flag alone. -/
def Opt.isServerOption : Opt → Bool
  | .other .either | .other .server | .server | .client | .interval _
  | .serverBitrateLimit _ _ | .clientPort _ | .file _ | .serverMaxDuration _
  | .affinity none | .mptcp => true
  | _ => false

theorem parseBitrate_clientFlag
    {p next : ParseState} {rate : ℕ} {burst : Option ℤ}
    (hstep : parseBitrate p rate burst = .ok next) :
    next.clientFlag = true := by
  simp only [parseBitrate, refuse] at hstep
  split_ifs at hstep
  cases hstep
  rfl

theorem parseOption_not_serverOption
    {b : Build} {p next : ParseState} {o : Opt}
    (hscope : o.isServerOption = false)
    (hstep : parseOption b p o = .ok next) :
    next.clientFlag = true ∨ next.gsroFlag = true := by
  cases o with
  | other scope =>
      cases scope with
      | either => cases hscope
      | server => cases hscope
      | client =>
          cases hstep
          exact Or.inl rfl
  | affinity cpu =>
      cases cpu with
      | none => cases hscope
      | some cpu =>
          simp only [parseOption, refuse] at hstep
          split_ifs at hstep
          cases hstep
          exact Or.inl rfl
  | nstreams rate burst => exact Or.inl (parseBitrate_clientFlag hstep)
  | bitrate rate burst => exact Or.inl (parseBitrate_clientFlag hstep)
  | gsro =>
      cases hstep
      exact Or.inr rfl
  | server => cases hscope
  | client => cases hscope
  | interval secs => cases hscope
  | serverBitrateLimit rate interval => cases hscope
  | clientPort port => cases hscope
  | file name => cases hscope
  | serverMaxDuration secs => cases hscope
  | mptcp => cases hscope
  | _ =>
      simp only [parseOption, refuse] at hstep
      try split_ifs at hstep
      all_goals
        cases hstep
        exact Or.inl rfl

theorem setTestRole_serverOptions
    (b : Build) (role : Role) (a : ServerArgs) :
    (serverOptions b role a).setTestRole b .server =
      serverOptions b .server a := by
  simp [serverOptions, iperfStart, iperfNewTest, Test.iperfDefaults,
    Test.setTestRole, Test.setProtocol, Build.supports,
    Test.checkSenderHasRetransmits]

theorem mptcp_serverOptions
    (b : Build) (role : Role) (a : ServerArgs) :
    { (serverOptions b role a).setProtocol b .tcp with mptcp := 1 } =
      serverOptions b role { a with mptcp := true } := by
  simp [serverOptions, iperfStart, iperfNewTest, Test.iperfDefaults,
    Test.setProtocol, Build.supports, Test.checkSenderHasRetransmits]

/-- The server members behind a server option. -/
def Opt.serverArgs (a : ServerArgs) : Opt → ServerArgs
  | .interval secs => { a with statsInterval := secs }
  | .serverBitrateLimit rate secs =>
      { a with
        bitrateLimit := MachineInt.uint64 rate
        bitrateLimitInterval := secs.getD a.bitrateLimitInterval }
  | .file name => { a with diskfileName := some name }
  | .serverMaxDuration secs => { a with maxServerDuration := secs }
  | .mptcp => { a with mptcp := true }
  | _ => a

theorem ServerArgs.Accepted.step
    {b : Build} {p next : ParseState} {o : Opt} {a : ServerArgs}
    (ha : a.Accepted b) (hstep : parseOption b p o = .ok next) :
    (o.serverArgs a).Accepted b := by
  cases o with
  | interval secs =>
      simp only [parseOption, refuse] at hstep
      split_ifs at hstep with hrange
      have hsecs : outsideIntervalRange secs = false := by simpa using hrange
      exact { ha with statsInterval := hsecs }
  | serverBitrateLimit rate interval =>
      simp only [parseOption, refuse] at hstep
      split_ifs at hstep with hrange
      have hinterval : outsideIntervalRange (interval.getD a.bitrateLimitInterval) = false := by
        cases interval with
        | none => exact ha.bitrateLimitInterval
        | some secs => simpa using hrange
      exact { ha with
        bitrateLimitInterval := hinterval
        bitrateLimit_lt := MachineInt.uint64_lt rate }
  | file name => exact { ha with }
  | serverMaxDuration secs =>
      simp only [parseOption, refuse] at hstep
      split_ifs at hstep with hrange
      simp only [Bool.or_eq_true, decide_eq_true_eq, not_or, not_lt] at hrange
      exact { ha with
        maxServerDuration_nonneg := hrange.1
        maxServerDuration_le := hrange.2 }
  | mptcp =>
      simp only [parseOption] at hstep
      split_ifs at hstep with hbuild
      exact { ha with mptcp := fun _ => hbuild }
  | _ => exact ha

/-- A server option turns one server record into another. -/
theorem parseOption_serverOption
    {b : Build} {p next : ParseState} {o : Opt} {a : ServerArgs}
    (hscope : o.isServerOption = true)
    (htest : p.test = serverOptions b p.test.role a)
    (hstep : parseOption b p o = .ok next) :
    next.test.role = .client ∨
      next.test = serverOptions b next.test.role (o.serverArgs a) := by
  cases o with
  | other scope =>
      cases scope with
      | either => cases hstep; exact Or.inr htest
      | server => cases hstep; exact Or.inr htest
      | client => cases hscope
  | affinity cpu =>
      cases cpu with
      | none =>
          simp only [parseOption, refuse] at hstep
          split_ifs at hstep
          cases hstep
          exact Or.inr htest
      | some cpu => cases hscope
  | clientPort port =>
      simp only [parseOption, refuse] at hstep
      split_ifs at hstep
      cases hstep
      exact Or.inr htest
  | server =>
      simp only [parseOption, refuse] at hstep
      split_ifs at hstep
      cases hstep
      right
      simp only [Opt.serverArgs]
      rw [htest, setTestRole_serverOptions]
      rfl
  | client =>
      simp only [parseOption, refuse] at hstep
      split_ifs at hstep
      cases hstep
      left
      simp only [Test.setTestRole, Test.checkSenderHasRetransmits]
      split_ifs <;> rfl
  | mptcp =>
      simp only [parseOption] at hstep
      split_ifs at hstep
      cases hstep
      right
      simp only [Opt.serverArgs]
      rw [htest, mptcp_serverOptions]
      rfl
  | file name =>
      cases hstep
      right
      simp only [Opt.serverArgs]
      rw [htest]
      rfl
  | interval secs | serverBitrateLimit rate interval | serverMaxDuration secs =>
      simp only [parseOption, refuse] at hstep
      split_ifs at hstep
      cases hstep
      right
      simp only [ParseState.serverOnly, Opt.serverArgs]
      rw [htest]
      rfl
  | _ => cases hscope

/-- What a server option leaves alone. -/
structure ServerStep (p next : ParseState) : Prop where
  blksize : next.blksize = p.blksize
  rateFlag : next.rateFlag = p.rateFlag
  durationFlag : next.durationFlag = p.durationFlag
  clientFlag : next.clientFlag = p.clientFlag
  gsroFlag : next.gsroFlag = p.gsroFlag
  client : p.test.role = .client → next.test.role = .client

theorem parseOption_serverStep
    {b : Build} {p next : ParseState} {o : Opt}
    (hscope : o.isServerOption = true)
    (hstep : parseOption b p o = .ok next) :
    ServerStep p next := by
  cases o with
  | other scope =>
      cases scope with
      | either => cases hstep; exact ⟨rfl, rfl, rfl, rfl, rfl, id⟩
      | server => cases hstep; exact ⟨rfl, rfl, rfl, rfl, rfl, id⟩
      | client => cases hscope
  | affinity cpu =>
      cases cpu with
      | none =>
          simp only [parseOption, refuse] at hstep
          split_ifs at hstep
          cases hstep
          exact ⟨rfl, rfl, rfl, rfl, rfl, id⟩
      | some cpu => cases hscope
  | server =>
      simp only [parseOption, refuse] at hstep
      split_ifs at hstep with hrole
      cases hstep
      exact ⟨rfl, rfl, rfl, rfl, rfl, fun h => absurd h hrole⟩
  | client =>
      simp only [parseOption, refuse] at hstep
      split_ifs at hstep
      cases hstep
      refine ⟨rfl, rfl, rfl, rfl, rfl, fun _ => ?_⟩
      simp only [Test.setTestRole, Test.checkSenderHasRetransmits]
      split_ifs <;> rfl
  | mptcp =>
      simp only [parseOption] at hstep
      split_ifs at hstep
      cases hstep
      refine ⟨rfl, rfl, rfl, rfl, rfl, fun hrole => ?_⟩
      simp only [Test.setProtocol, Build.supports, if_true,
        Test.checkSenderHasRetransmits]
      split_ifs <;> exact hrole
  | file name => cases hstep; exact ⟨rfl, rfl, rfl, rfl, rfl, id⟩
  | interval | serverBitrateLimit | clientPort | serverMaxDuration =>
      simp only [parseOption, refuse] at hstep
      split_ifs at hstep
      cases hstep
      exact ⟨rfl, rfl, rfl, rfl, rfl, id⟩
  | _ => cases hscope

theorem ServerSoFar.step
    {b : Build} {p next : ParseState} {o : Opt}
    (hp : ServerSoFar b p) (hstep : parseOption b p o = .ok next) :
    ServerSoFar b next := by
  intro hclient hgsro hrole
  cases hscope : o.isServerOption with
  | false =>
      rcases parseOption_not_serverOption hscope hstep with h | h
      · rw [hclient] at h
        contradiction
      · rw [hgsro] at h
        contradiction
  | true =>
      have hkept := parseOption_serverStep hscope hstep
      have hserver : ServerOnly b p :=
        hp (hkept.clientFlag ▸ hclient) (hkept.gsroFlag ▸ hgsro)
          (fun h => hrole (hkept.client h))
      obtain ⟨a, ha, htest⟩ := hserver.test
      have hnext := (parseOption_serverOption hscope htest hstep).resolve_left hrole
      exact
        { blksize := hkept.blksize.trans hserver.blksize
          rateFlag := hkept.rateFlag.trans hserver.rateFlag
          durationFlag := hkept.durationFlag.trans hserver.durationFlag
          test := ⟨o.serverArgs a, ha.step hstep, hnext⟩ }

/-- What every option keeps, the option loop keeps. -/
theorem parseOptions_invariant
    {b : Build} {P : ParseState → Prop}
    (hstep : ∀ {p next : ParseState} {o : Opt},
      P p → parseOption b p o = .ok next → P next)
    {opts : List Opt} {p final : ParseState} (hp : P p)
    (hrun : opts.foldlM (parseOption b) p = .ok final) : P final := by
  induction opts generalizing p with
  | nil =>
      cases hrun
      exact hp
  | cons o opts ih =>
      rw [List.foldlM_cons] at hrun
      cases hnext : parseOption b p o with
      | error e =>
          rw [hnext] at hrun
          cases hrun
      | ok next =>
          rw [hnext] at hrun
          exact ih (hstep hp hnext) hrun

/-! ## The whole command line -/

@[simp]
theorem applyStatsPerInterval_role (t : Test) :
    (applyStatsPerInterval t).role = t.role := by
  unfold applyStatsPerInterval
  split_ifs <;> rfl

theorem checkScopes_ok
    {p next : ParseState} (h : checkScopes p = .ok next) :
    next = p ∧ (p.test.role = .server →
      p.clientFlag = false ∧ p.gsroFlag = false) := by
  simp only [checkScopes, refuse] at h
  split_ifs at h with h1 h2 h3 h4
  cases h
  refine ⟨rfl, fun hrole => ?_⟩
  simpa [hrole] using And.intro h2 h3

theorem checkBlksize_ok
    {p next : ParseState} (h : checkBlksize p = .ok next) : next = p := by
  simp only [checkBlksize, refuse] at h
  split_ifs at h
  cases h
  rfl

theorem checkEndConditions_ok
    {p : ParseState} {t result : Test}
    (h : checkEndConditions p t = .ok result) : result = t := by
  simp only [checkEndConditions] at h
  split_ifs at h
  cases h
  rfl

theorem parseArguments_ok
    {b : Build} {fileSize : Option ℕ} {opts : List Opt} {t result : Test}
    (h : parseArguments b fileSize opts t = .ok result) :
    ∃ p, opts.foldlM (parseOption b) (ParseState.initial t) = .ok p ∧
      checkScopes p = .ok p ∧ checkBlksize p = .ok p ∧
      checkEndConditions p (applyEndConditions p fileSize (applyBlksize p)) =
        .ok (applyEndConditions p fileSize (applyBlksize p)) ∧
      result =
        applyStatsPerInterval (applyEndConditions p fileSize (applyBlksize p)) := by
  unfold parseArguments at h
  cases hrun : opts.foldlM (parseOption b) (ParseState.initial t) with
  | error e =>
      rw [hrun] at h
      cases h
  | ok p =>
      rw [hrun] at h
      cases hscopes : checkScopes p with
      | error e =>
          simp [bind, Except.bind, hscopes] at h
      | ok p1 =>
          have hp1 := (checkScopes_ok hscopes).1
          subst hp1
          cases hblksize : checkBlksize p1 with
          | error e =>
              simp [bind, Except.bind, hscopes, hblksize] at h
          | ok p2 =>
              have hp2 := checkBlksize_ok hblksize
              subst hp2
              cases hend : checkEndConditions p2
                  (applyEndConditions p2 fileSize (applyBlksize p2)) with
              | error e =>
                  simp [bind, Except.bind, hscopes, hblksize, hend] at h
              | ok t2 =>
                  have ht2 := checkEndConditions_ok hend
                  subst ht2
                  simp only [bind, Except.bind, hscopes, hblksize, hend, pure,
                    Except.pure, Except.ok.injEq] at h
                  exact ⟨p2, rfl, hscopes, hblksize, hend, h.symm⟩

theorem applyBlksize_serverOptions
    {b : Build} {p : ParseState} {a : ServerArgs}
    (hserver : ServerOnly b p) (htest : p.test = serverOptions b .server a) :
    applyBlksize p = serverOptions b .server a := by
  simp only [applyBlksize, ParseState.effectiveBlksize, hserver.blksize,
    hserver.rateFlag, htest]
  simp [serverOptions, iperfStart, iperfNewTest, Test.iperfDefaults,
    Test.setProtocol, Build.supports, Test.checkSenderHasRetransmits]

theorem applyEndConditions_serverOptions
    (b : Build) (p : ParseState) (fileSize : Option ℕ) (a : ServerArgs) :
    applyEndConditions p fileSize (serverOptions b .server a) =
      serverOptions b .server a := by
  simp [applyEndConditions, serverOptions, iperfStart, iperfNewTest,
    Test.iperfDefaults, Test.setProtocol, Build.supports,
    Test.checkSenderHasRetransmits]

/-- Every accepted server command line starts one of the server records. -/
theorem parseArguments_serverStart
    {b : Build} {fileSize : Option ℕ} {opts : List Opt} {s : Test}
    (h : parseArguments b fileSize opts (iperfStart b) = .ok s)
    (hrole : s.role = .server) :
    ∃ a : ServerArgs, a.Accepted b ∧ s = serverStart b a := by
  obtain ⟨p, hrun, hscopes, -, -, hresult⟩ := parseArguments_ok h
  have hroles : p.test.role = .server := by
    rw [hresult] at hrole
    simpa [applyEndConditions, applyBlksize] using hrole
  obtain ⟨hclient, hgsro⟩ := (checkScopes_ok hscopes).2 hroles
  have hserver : ServerOnly b p :=
    parseOptions_invariant ServerSoFar.step (serverSoFar_initial b) hrun hclient hgsro
      (by simp [hroles])
  obtain ⟨a, ha, htest⟩ := hserver.test
  rw [hroles] at htest
  refine ⟨a, ha, ?_⟩
  rw [hresult, applyBlksize_serverOptions hserver htest,
    applyEndConditions_serverOptions]
  rfl

theorem parseArguments_server (b : Build) (fileSize : Option ℕ) :
    parseArguments b fileSize [.server] (iperfStart b) =
      .ok (serverStart b ServerArgs.default) := rfl

end Iperf3
