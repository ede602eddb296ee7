import Iperf3.ParameterFields
import Iperf3.ServerStart
import Mathlib.Tactic

/-!
# The client record when the parameters are sent

A client record is what the command line gives, with the sizes that
`iperf_connect` derives from the segment size of the control connection.  The
members that the parameter message carries satisfy what the message relies
on: flags are zero or one, members of type `int` are in range, and the mode
is the one that the direction flags and the role give.
-/

namespace Iperf3

open MachineInt

/-! ## Connecting -/

/-- The segment size kept from `getsockopt`, where zero means none. -/
def ctrlSckMss : Option ℤ → ℤ
  | some opt => if 0 < opt ∧ opt ≤ maxUdpBlocksize then opt else 0
  | none => 0

/-- The block size of a UDP test, derived when none was given. -/
def connectBlksize (opt : Option ℤ) (blksize : ℤ) : ℤ :=
  if blksize = 0 then
    if ctrlSckMss opt ≠ 0 then ctrlSckMss opt else defaultUdpBlksize
  else blksize

/-- The sizes that `iperf_connect` sets once the control connection is up. -/
def Test.iperfConnect (opt : Option ℤ) (t : Test) : Test :=
  if t.protocol = .udp then
    let blksize := connectBlksize opt t.settings.blksize
    let s :=
      if t.settings.gso ≠ 0 then t.settings.gsoSizesFrom blksize else t.settings
    { t with settings := { s with blksize := blksize } }
  else t

/-! ## What a client record satisfies -/

def IsInt (n : ℤ) : Prop := int32 n = n

def IsFlag (n : ℤ) : Prop := n = 0 ∨ n = 1

theorem IsInt.of_bounds {n : ℤ} (hlow : -2147483648 ≤ n) (hhigh : n < 2147483648) :
    IsInt n :=
  int32_of_mem hlow hhigh

theorem isInt_int32 (n : ℤ) : IsInt (int32 n) := by
  have hbounds := int32_bounds n
  exact IsInt.of_bounds hbounds.1 hbounds.2

theorem IsFlag.isInt {n : ℤ} (h : IsFlag n) : IsInt n := by
  rcases h with rfl | rfl <;> exact IsInt.of_bounds (by norm_num) (by norm_num)

/-- The mode of a client with the given direction flags. -/
def clientMode (reverse bidirectional : ℤ) : Mode :=
  if bidirectional ≠ 0 then .bidirectional
  else if reverse ≠ 0 then .receiver
  else .sender

structure ClientRecord (b : Build) (t : Test) : Prop where
  supported : b.supports t.protocol = true
  mode : t.role = .client → t.mode = clientMode t.reverse t.bidirectional
  exclusive : t.reverse = 0 ∨ t.bidirectional = 0
  reverse : IsFlag t.reverse
  bidirectional : IsFlag t.bidirectional
  noDelay : IsFlag t.noDelay
  getServerOutput : IsFlag t.getServerOutput
  udpCounters64bit : IsFlag t.udpCounters64bit
  repeatingPayload : IsFlag t.repeatingPayload
  zerocopy : IsFlag t.zerocopy
  skipRxCopy : IsFlag t.settings.skipRxCopy
  gso : IsFlag t.settings.gso
  gro : IsFlag t.settings.gro
  omitTime : IsInt t.omitTime
  duration : IsInt t.duration
  serverAffinity : IsInt t.serverAffinity
  numStreams : IsInt t.numStreams
  mss : IsInt t.settings.mss
  socketBufsize : IsInt t.settings.socketBufsize
  burst : IsInt t.settings.burst
  tos : IsInt t.settings.tos
  flowlabel : IsInt t.settings.flowlabel
  gsoDgSize : IsInt t.settings.gsoDgSize
  gsoBfSize : 0 ≤ t.settings.gsoBfSize ∧ t.settings.gsoBfSize ≤ gsoBfMaxSize
  groBfSize : IsInt t.settings.groBfSize
  blksize : IsInt t.settings.blksize

/-- Members outside the record's requirements may change freely. -/
theorem ClientRecord.sameUpToStatus
    {b : Build} {t u : Test} (h : ClientRecord b u) (hsame : t.SameUpToStatus u) :
    ClientRecord b t := by
  obtain ⟨r, e, rfl⟩ := hsame
  exact { h with }

/-! ## The option loop -/

theorem ClientRecord.setProtocol
    {b : Build} {t : Test} (h : ClientRecord b t) (id : ProtocolId) :
    ClientRecord b (t.setProtocol b id) := by
  apply ClientRecord.sameUpToStatus _ (setProtocol_eq b id t)
  by_cases hid : b.supports id = true
  · exact { h with supported := by simp [hid] }
  · exact { h with supported := by simpa [hid] using h.supported }

theorem ClientRecord.setTestRole
    {b : Build} {t : Test} (h : ClientRecord b t) (role : Role) :
    ClientRecord b (t.setTestRole b role) := by
  unfold Test.setTestRole
  obtain ⟨r, hr⟩ := checkSenderHasRetransmits_eq b { t with role := role, mode := _ }
  apply ClientRecord.sameUpToStatus _ ⟨r, t.iErrno, hr⟩
  exact { h with
    mode := by
      intro hrole
      have hclient : role = .client := hrole
      subst hclient
      rcases h.exclusive with hreverse | hbidirectional
      · simp [clientMode, hreverse]
      · simp [clientMode, hbidirectional] }

theorem ClientRecord.setTestReverse
    {b : Build} {t : Test} (h : ClientRecord b t) (hbidirectional : t.bidirectional = 0) :
    ClientRecord b (t.setTestReverse b 1) := by
  apply ClientRecord.sameUpToStatus _ (setTestReverse_eq b t)
  exact { h with
    reverse := Or.inr rfl
    exclusive := Or.inr hbidirectional
    mode := by
      intro hrole
      have hclient : t.role = .client := hrole
      simp [reversedMode, clientMode, hclient, hbidirectional] }

theorem ClientRecord.setTestBidirectional
    {b : Build} {t : Test} (h : ClientRecord b t) (hreverse : t.reverse = 0) :
    ClientRecord b (t.setTestBidirectional b 1) := by
  rw [Test.setTestBidirectional, if_pos one_ne_zero]
  exact { h with
    bidirectional := Or.inr rfl
    exclusive := Or.inl hreverse
    mode := fun _ => by simp [clientMode] }

theorem ClientRecord.parseBitrate
    {b : Build} {p next : ParseState} {rate : ℕ} {burst : Option ℤ}
    (h : ClientRecord b p.test) (hstep : parseBitrate p rate burst = .ok next) :
    ClientRecord b next.test := by
  simp only [Iperf3.parseBitrate, refuse] at hstep
  split_ifs at hstep with hrange
  cases hstep
  cases burst with
  | none => exact { h with }
  | some n =>
      simp only [Option.any_some, Bool.or_eq_true, decide_eq_true_eq, not_or, not_le,
        not_lt] at hrange
      have hmax : maxBurst = 1000 := rfl
      have hrangeInt : IsInt n := IsInt.of_bounds (by omega) (by omega)
      exact { h with burst := hrangeInt }

/-- What an option writes: the role, the protocol or the direction; a number
that is checked before, or cut to an `int`; a flag; or nothing that a record
has a requirement for. -/
inductive OptFamily where
  | modal
  | checked
  | cut
  | flag
  | free

def Opt.family : Opt → OptFamily
  | .server | .client | .udp | .sctp | .mptcp | .reverse | .bidir => .modal
  | .nstreams _ _ | .bitrate _ _ | .affinity (some _) | .time _ | .omitTime _ | .tos _
  | .flowlabel _ => .checked
  | .window _ | .parallel _ | .setMss _ | .dscp _ => .cut
  | .noDelay | .repeatingPayload | .getServerOutput | .udpCounters64bit | .gsro | .zerocopy
  | .skipRxCopy => .flag
  | _ => .free

section Families

variable {b : Build} {p next : ParseState} {o : Opt}

theorem ClientRecord.stepModal
    (h : ClientRecord b p.test) (hfamily : o.family = .modal)
    (hstep : parseOption b p o = .ok next) : ClientRecord b next.test := by
  cases o with
  | server =>
      simp only [parseOption, refuse] at hstep
      split_ifs at hstep
      cases hstep
      exact h.setTestRole .server
  | client =>
      simp only [parseOption, refuse] at hstep
      split_ifs at hstep
      cases hstep
      exact h.setTestRole .client
  | udp =>
      cases hstep
      exact h.setProtocol .udp
  | sctp =>
      simp only [parseOption, refuse] at hstep
      split_ifs at hstep
      cases hstep
      exact h.setProtocol .sctp
  | mptcp =>
      simp only [parseOption] at hstep
      split_ifs at hstep
      cases hstep
      exact { h.setProtocol .tcp with }
  | reverse =>
      simp only [parseOption, refuse] at hstep
      split_ifs at hstep with hbidirectional
      cases hstep
      exact h.setTestReverse (not_not.mp hbidirectional)
  | bidir =>
      simp only [parseOption, refuse] at hstep
      split_ifs at hstep with hreverse
      cases hstep
      exact h.setTestBidirectional (not_not.mp hreverse)
  | affinity cpu => cases cpu <;> cases hfamily
  | _ => cases hfamily

theorem ClientRecord.stepChecked
    (h : ClientRecord b p.test) (hfamily : o.family = .checked)
    (hstep : parseOption b p o = .ok next) : ClientRecord b next.test := by
  cases o with
  | nstreams rate burst => exact h.parseBitrate hstep
  | bitrate rate burst => exact h.parseBitrate hstep
  | affinity cpu =>
      cases cpu with
      | none => cases hfamily
      | some cpu =>
          simp only [parseOption, refuse] at hstep
          split_ifs at hstep with hbuild hrange
          cases hstep
          simp only [Bool.or_eq_true, decide_eq_true_eq, not_or, not_lt] at hrange
          have hrangeInt : IsInt cpu := IsInt.of_bounds (by omega) (by omega)
          exact { h with serverAffinity := hrangeInt }
  | time secs =>
      simp only [parseOption, refuse] at hstep
      split_ifs at hstep with hrange
      cases hstep
      simp only [Bool.or_eq_true, decide_eq_true_eq, not_or, not_lt] at hrange
      have hmax : maxTime = 86400 := rfl
      have hrangeInt : IsInt secs := IsInt.of_bounds (by omega) (by omega)
      exact { h with duration := hrangeInt }
  | omitTime secs =>
      simp only [parseOption, refuse] at hstep
      split_ifs at hstep with hrange
      cases hstep
      simp only [Bool.or_eq_true, decide_eq_true_eq, not_or, not_lt] at hrange
      have hmax : maxOmitTime = 600 := rfl
      have hrangeInt : IsInt secs := IsInt.of_bounds (by omega) (by omega)
      exact { h with omitTime := hrangeInt }
  | tos value =>
      simp only [parseOption, refuse] at hstep
      split_ifs at hstep with hrange
      cases hstep
      simp only [Bool.or_eq_true, decide_eq_true_eq, not_or, not_lt] at hrange
      have hrangeInt : IsInt value := IsInt.of_bounds (by omega) (by omega)
      exact { h with tos := hrangeInt }
  | flowlabel value =>
      simp only [parseOption, refuse] at hstep
      split_ifs at hstep with hbuild hrange
      cases hstep
      simp only [Bool.or_eq_true, decide_eq_true_eq, not_or, not_lt] at hrange
      have hrangeInt : IsInt value := IsInt.of_bounds (by omega) (by omega)
      exact { h with flowlabel := hrangeInt }
  | _ => cases hfamily

theorem ClientRecord.stepCut
    (h : ClientRecord b p.test) (hfamily : o.family = .cut)
    (hstep : parseOption b p o = .ok next) : ClientRecord b next.test := by
  cases o with
  | window size =>
      simp only [parseOption, refuse] at hstep
      split_ifs at hstep
      cases hstep
      exact { h with socketBufsize := isInt_int32 _ }
  | parallel count =>
      simp only [parseOption, refuse] at hstep
      split_ifs at hstep
      cases hstep
      exact { h with numStreams := isInt_int32 _ }
  | setMss size =>
      simp only [parseOption, refuse] at hstep
      split_ifs at hstep
      cases hstep
      exact { h with mss := isInt_int32 _ }
  | dscp value =>
      simp only [parseOption, refuse] at hstep
      split_ifs at hstep
      cases hstep
      exact { h with tos := isInt_int32 _ }
  | affinity cpu => cases cpu <;> cases hfamily
  | _ => cases hfamily

theorem ClientRecord.stepFlag
    (h : ClientRecord b p.test) (hfamily : o.family = .flag)
    (hstep : parseOption b p o = .ok next) : ClientRecord b next.test := by
  have hone : IsFlag 1 := Or.inr rfl
  cases o with
  | noDelay =>
      cases hstep
      exact { h with noDelay := hone }
  | repeatingPayload =>
      cases hstep
      exact { h with repeatingPayload := hone }
  | getServerOutput =>
      cases hstep
      exact { h with getServerOutput := hone }
  | udpCounters64bit =>
      cases hstep
      exact { h with udpCounters64bit := hone }
  | gsro =>
      cases hstep
      exact { h with gso := hone, gro := hone }
  | zerocopy =>
      simp only [parseOption, refuse] at hstep
      split_ifs at hstep
      cases hstep
      exact { h with zerocopy := hone }
  | skipRxCopy =>
      simp only [parseOption] at hstep
      split_ifs at hstep
      cases hstep
      exact { h with skipRxCopy := hone }
  | affinity cpu => cases cpu <;> cases hfamily
  | _ => cases hfamily

theorem ClientRecord.stepFree
    (h : ClientRecord b p.test) (hfamily : o.family = .free)
    (hstep : parseOption b p o = .ok next) : ClientRecord b next.test := by
  cases o with
  | server | client | udp | sctp | mptcp | reverse | bidir => cases hfamily
  | nstreams | bitrate | time | omitTime | tos | flowlabel => cases hfamily
  | window | parallel | setMss | dscp => cases hfamily
  | noDelay | repeatingPayload | getServerOutput | udpCounters64bit | gsro | zerocopy
    | skipRxCopy => cases hfamily
  | other scope =>
      cases scope <;> (cases hstep; exact h)
  | affinity cpu =>
      cases cpu with
      | none =>
          simp only [parseOption, refuse] at hstep
          split_ifs at hstep
          cases hstep
          exact h
      | some cpu => cases hfamily
  | clientPort port =>
      simp only [parseOption, refuse] at hstep
      split_ifs at hstep
      cases hstep
      exact h
  | bytes | blockcount | length | extraData | file | title =>
      cases hstep
      exact { h with }
  | pacingTimer usecs =>
      obtain ⟨timer, htimer⟩ : ∃ n, n = int32 usecs := ⟨_, rfl⟩
      simp only [parseOption, ← htimer] at hstep
      cases hstep
      exact { h with }
  | _ =>
      simp only [parseOption, refuse] at hstep
      split_ifs at hstep
      cases hstep
      exact { h with }

theorem ClientRecord.step
    (h : ClientRecord b p.test) (hstep : parseOption b p o = .ok next) :
    ClientRecord b next.test := by
  cases hfamily : o.family with
  | modal => exact h.stepModal hfamily hstep
  | checked => exact h.stepChecked hfamily hstep
  | cut => exact h.stepCut hfamily hstep
  | flag => exact h.stepFlag hfamily hstep
  | free => exact h.stepFree hfamily hstep

end Families

theorem isInt_blksize_step
    {b : Build} {p next : ParseState} {o : Opt}
    (h : IsInt p.blksize) (hstep : parseOption b p o = .ok next) :
    IsInt next.blksize := by
  have hclient : ∀ t, IsInt (p.clientOnly t).blksize := fun _ => h
  have hserver : ∀ t, IsInt (p.serverOnly t).blksize := fun _ => h
  cases o with
  | length count =>
      cases hstep
      exact isInt_int32 _
  | other scope =>
      cases scope <;> cases hstep
      · exact h
      · exact hserver _
      · exact hclient _
  | affinity cpu =>
      cases cpu <;> simp only [parseOption, refuse] at hstep <;> split_ifs at hstep <;>
        cases hstep
      · exact h
      · exact hclient _
  | nstreams rate burst =>
      simp only [parseOption, parseBitrate, refuse] at hstep
      split_ifs at hstep
      cases hstep
      exact h
  | bitrate rate burst =>
      simp only [parseOption, parseBitrate, refuse] at hstep
      split_ifs at hstep
      cases hstep
      exact h
  | time secs =>
      simp only [parseOption, refuse] at hstep
      split_ifs at hstep
      cases hstep
      exact h
  | udp | bytes | blockcount | extraData | title | pacingTimer | noDelay
    | repeatingPayload | getServerOutput | udpCounters64bit =>
      cases hstep
      exact hclient _
  | file | gsro =>
      cases hstep
      exact h
  | serverBitrateLimit rate interval =>
      simp only [parseOption, refuse] at hstep
      split_ifs at hstep
      cases hstep
      exact hserver _
  | serverMaxDuration secs =>
      simp only [parseOption, refuse] at hstep
      split_ifs at hstep
      cases hstep
      exact hserver _
  | server | client | interval | clientPort | mptcp =>
      simp only [parseOption, refuse] at hstep
      split_ifs at hstep
      cases hstep
      exact h
  | _ =>
      simp only [parseOption, refuse] at hstep
      split_ifs at hstep
      cases hstep
      exact hclient _

theorem clientRecord_iperfStart (b : Build) : ClientRecord b (iperfStart b) := by
  constructor <;>
    simp [iperfStart, iperfNewTest, Test.iperfDefaults, Test.setProtocol, Build.supports,
      Test.checkSenderHasRetransmits, IsFlag, IsInt, int32_eq, omitDefault,
      durationDefault, gsoBfMaxSize, groBfMaxSize, maxUdpBlocksize, defaultTcpBlksize]

/-! ## After the loop -/

theorem tdiv_mul_bounds {n m limit : ℤ} (hm : 0 < m) (hn : 0 ≤ n ∧ n ≤ limit) :
    0 ≤ n.tdiv m * m ∧ n.tdiv m * m ≤ limit := by
  rw [Int.tdiv_eq_ediv_of_nonneg hn.1]
  have hnonneg : 0 ≤ n / m := Int.ediv_nonneg hn.1 hm.le
  have hle : n / m * m ≤ n := Int.ediv_mul_le n hm.ne'
  constructor
  · positivity
  · omega

theorem ClientRecord.resize
    {b : Build} {t : Test} (h : ClientRecord b t) {blksize : ℤ} (hblksize : IsInt blksize)
    (derive : Prop) [Decidable derive] :
    ClientRecord b { t with settings :=
      { (if derive then t.settings.gsoSizesFrom blksize else t.settings) with
        blksize := blksize } } := by
  split_ifs with hderive
  · unfold Settings.gsoSizesFrom
    split_ifs with hpos
    · exact { h with
        gsoDgSize := hblksize
        gsoBfSize := tdiv_mul_bounds hpos h.gsoBfSize
        blksize := hblksize }
    · have hdefault : IsInt defaultUdpBlksize := by
        exact IsInt.of_bounds (by decide) (by decide)
      exact { h with gsoDgSize := hdefault, blksize := hblksize }
  · exact { h with blksize := hblksize }

theorem isInt_effectiveBlksize {p : ParseState} (h : IsInt p.blksize) :
    IsInt p.effectiveBlksize := by
  unfold ParseState.effectiveBlksize
  split_ifs
  · split <;> exact IsInt.of_bounds (by decide) (by decide)
  · exact h

theorem ClientRecord.applyBlksize
    {b : Build} {p : ParseState} (h : ClientRecord b p.test) (hblksize : IsInt p.blksize) :
    ClientRecord b (applyBlksize p) := by
  have hresized := h.resize (isInt_effectiveBlksize hblksize)
    (p.test.protocol = .udp ∧ p.test.settings.gso ≠ 0)
  exact { hresized with }

theorem ClientRecord.applyEndConditions
    {b : Build} {t : Test} (h : ClientRecord b t) (p : ParseState) (fileSize : Option ℕ) :
    ClientRecord b (applyEndConditions p fileSize t) := by
  have hduration : IsInt (Iperf3.applyEndConditions p fileSize t).duration := by
    simp only [Iperf3.applyEndConditions]
    split_ifs
    all_goals first
      | exact h.duration
      | exact IsFlag.isInt (Or.inl rfl)
  exact { h with duration := hduration }

theorem parseArguments_clientRecord
    {b : Build} {fileSize : Option ℕ} {opts : List Opt} {t : Test}
    (hparse : parseArguments b fileSize opts (iperfStart b) = .ok t) :
    ClientRecord b t := by
  obtain ⟨p, hrun, -, -, -, rfl⟩ := parseArguments_ok hparse
  have hzero : IsFlag 0 := Or.inl rfl
  have hloop : ClientRecord b p.test ∧ IsInt p.blksize := by
    refine parseOptions_invariant (P := fun p => ClientRecord b p.test ∧ IsInt p.blksize)
      ?_ ⟨clientRecord_iperfStart b, hzero.isInt⟩ hrun
    intro p next o hp hstep
    exact ⟨hp.1.step hstep, isInt_blksize_step hp.2 hstep⟩
  have hsized := (hloop.1.applyBlksize hloop.2).applyEndConditions p fileSize
  unfold applyStatsPerInterval
  split_ifs
  · exact { hsized with }
  · exact hsized

/-! ## The connected client -/

/-- A client record at the time of the parameter exchange. -/
structure ConnectedClient (b : Build) (t : Test) : Prop extends ClientRecord b t where
  role : t.role = .client
  blksize_ne_zero : t.settings.blksize ≠ 0
  gsoDgSize_ne_zero : t.protocol = .udp → t.settings.gso = 1 → t.settings.gsoDgSize ≠ 0

theorem parseArguments_blksize_ne_zero
    {b : Build} {fileSize : Option ℕ} {opts : List Opt} {t : Test}
    (hparse : parseArguments b fileSize opts (iperfStart b) = .ok t)
    (hprotocol : t.protocol ≠ .udp) : t.settings.blksize ≠ 0 := by
  obtain ⟨p, -, -, hcheck, -, rfl⟩ := parseArguments_ok hparse
  have hsame : ∀ u : Test, (applyStatsPerInterval u).protocol = u.protocol ∧
      (applyStatsPerInterval u).settings.blksize = u.settings.blksize := by
    intro u
    unfold applyStatsPerInterval
    split_ifs <;> exact ⟨rfl, rfl⟩
  obtain ⟨hsameProtocol, hsameBlksize⟩ := hsame
    (applyEndConditions p fileSize (applyBlksize p))
  rw [hsameProtocol] at hprotocol
  rw [hsameBlksize]
  have hparsed : p.test.protocol ≠ .udp := hprotocol
  have heffective : (applyEndConditions p fileSize (applyBlksize p)).settings.blksize =
      p.effectiveBlksize := rfl
  simp only [checkBlksize, refuse] at hcheck
  split_ifs at hcheck with hrange
  rw [heffective]
  intro hzero
  exact hrange (Or.inl ⟨hparsed, hzero.le⟩)

theorem gsoSizesFrom_gsoDgSize_ne_zero (s : Settings) (blksize : ℤ) :
    (s.gsoSizesFrom blksize).gsoDgSize ≠ 0 := by
  unfold Settings.gsoSizesFrom
  split_ifs with hpos
  · exact hpos.ne'
  · have hdefault : defaultUdpBlksize ≠ 0 := by decide
    exact hdefault

theorem isInt_ctrlSckMss (opt : Option ℤ) : IsInt (ctrlSckMss opt) := by
  have hzero : IsFlag 0 := Or.inl rfl
  cases opt with
  | none => exact hzero.isInt
  | some opt =>
      rw [ctrlSckMss]
      split_ifs with hrange
      · have hmax : maxUdpBlocksize = 65507 := rfl
        exact IsInt.of_bounds (by omega) (by omega)
      · exact hzero.isInt

theorem connectBlksize_spec
    (opt : Option ℤ) {blksize : ℤ} (h : IsInt blksize) :
    IsInt (connectBlksize opt blksize) ∧ connectBlksize opt blksize ≠ 0 := by
  unfold connectBlksize
  by_cases hzero : blksize = 0
  · rw [if_pos hzero]
    by_cases hmss : ctrlSckMss opt ≠ 0
    · rw [if_pos hmss]
      exact ⟨isInt_ctrlSckMss opt, hmss⟩
    · rw [if_neg hmss]
      exact ⟨IsInt.of_bounds (by decide) (by decide), by decide⟩
  · rw [if_neg hzero]
    exact ⟨h, hzero⟩

theorem connectedClient
    {b : Build} {fileSize : Option ℕ} {opts : List Opt} {t : Test}
    (hparse : parseArguments b fileSize opts (iperfStart b) = .ok t)
    (hrole : t.role = .client) (opt : Option ℤ) :
    ConnectedClient b (t.iperfConnect opt) := by
  have hrecord := parseArguments_clientRecord hparse
  by_cases hudp : t.protocol = .udp
  · obtain ⟨hint, hne⟩ := connectBlksize_spec opt hrecord.blksize
    have hconnect : t.iperfConnect opt = { t with settings :=
        { (if t.settings.gso ≠ 0 then
            t.settings.gsoSizesFrom (connectBlksize opt t.settings.blksize)
          else t.settings) with
          blksize := connectBlksize opt t.settings.blksize } } := if_pos hudp
    rw [hconnect]
    exact
      { toClientRecord := hrecord.resize hint (t.settings.gso ≠ 0)
        role := hrole
        blksize_ne_zero := hne
        gsoDgSize_ne_zero := by
          intro _ hgso
          by_cases hon : t.settings.gso ≠ 0
          · rw [if_pos hon]
            exact gsoSizesFrom_gsoDgSize_ne_zero _ _
          · rw [if_neg hon] at hgso
            exact absurd (hgso ▸ one_ne_zero) hon }
  · have hsame : t.iperfConnect opt = t := if_neg hudp
    rw [hsame]
    exact
      { toClientRecord := hrecord
        role := hrole
        blksize_ne_zero := parseArguments_blksize_ne_zero hparse hudp
        gsoDgSize_ne_zero := fun h => absurd h hudp }

end Iperf3
