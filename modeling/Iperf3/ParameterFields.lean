import Iperf3.Parameters
import Mathlib.Tactic

/-!
# The record after reading a parameter message

`readParameters` is a chain of blocks.  Here it is put into one record: every
member is given in terms of the message and of the record before.  Two
members are left open, because the blocks rewrite them several times and no
later use needs their value: the retransmission flag and the error code.
-/

namespace Iperf3

open MachineInt

variable {b : Build} {j : Json} {t : Test}

/-! ## Members that depend on more than one item -/

def selectProtocol (b : Build) (j : Json) (t : Test) : ProtocolId :=
  let id := if j.boolItem .tcp then .tcp else t.protocol
  let id := if j.boolItem .udp ∧ t.diskfileName = none then .udp else id
  if j.boolItem .sctp ∧ b.haveSctp then .sctp else id

def reversedMode (t : Test) : Mode :=
  match t.role with
  | .client => .receiver
  | .server => .sender
  | .none => t.mode

def selectMode (j : Json) (t : Test) : Mode :=
  if j.boolItem .bidirectional then .bidirectional
  else if j.boolItem .reverse then reversedMode t
  else t.mode

/-- Datagram and buffer size after the rewriting for offload. -/
def selectGsoSizes
    (protocol : ProtocolId) (gso blksize gsoDgSize gsoBfSize : ℤ) : ℤ × ℤ :=
  if protocol = .udp ∧ gso = 1 ∧ gsoDgSize = 0 then
    if 0 < blksize then (blksize, gsoBfSize.tdiv blksize * blksize)
    else (defaultUdpBlksize, gsoBfSize)
  else (gsoDgSize, gsoBfSize)

def assignedGsoSizes (b : Build) (j : Json) (t : Test) : ℤ × ℤ :=
  selectGsoSizes (selectProtocol b j t) (readInt j .gso t.settings.gso)
    (readInt j .len t.settings.blksize)
    (readInt j .gsoDgSize t.settings.gsoDgSize)
    (readInt j .gsoBfSize t.settings.gsoBfSize)

def assignedSettings (b : Build) (j : Json) (t : Test) : Settings :=
  { t.settings with
    bytes := readSize j .num 0
    blocks := readSize j .blockcount 0
    mss := readInt j .mss t.settings.mss
    socketBufsize := readInt j .window t.settings.socketBufsize
    blksize := readInt j .len t.settings.blksize
    gso := readInt j .gso t.settings.gso
    gsoDgSize := (assignedGsoSizes b j t).1
    gsoBfSize := (assignedGsoSizes b j t).2
    gro := readInt j .gro t.settings.gro
    groBfSize := readInt j .groBfSize t.settings.groBfSize
    rate := readSize j .bandwidth t.settings.rate
    fqrate := readSize j .fqrate t.settings.fqrate
    pacingTimer := readInt j .pacingTimer t.settings.pacingTimer
    burst := readInt j .burst t.settings.burst
    tos := readInt j .tos t.settings.tos
    flowlabel := readInt j .flowlabel t.settings.flowlabel
    dontFragment :=
      if b.haveDontFragment then readInt j .dontFragment t.settings.dontFragment
      else t.settings.dontFragment
    authtoken :=
      if b.haveSsl then readText j .authtoken t.settings.authtoken
      else t.settings.authtoken
    skipRxCopy :=
      ((j.getObjectItem .skipRxCopy).map fun item => int32 item.valueint).getD
        t.settings.skipRxCopy }

/-- All assignments of one message at once. -/
def assignParameters (b : Build) (j : Json) (t : Test) : Test :=
  { t with
    protocol := selectProtocol b j t
    mode := selectMode j t
    omitTime := readInt j .omitTime t.omitTime
    serverAffinity := readInt j .serverAffinity t.serverAffinity
    duration := readInt j .time t.duration
    noDelay := if j.boolItem .nodelay then 1 else t.noDelay
    numStreams := readInt j .parallel t.numStreams
    reverse := if j.boolItem .reverse then 1 else t.reverse
    bidirectional := if j.boolItem .bidirectional then 1 else t.bidirectional
    mptcp := if b.haveIpprotoMptcp && j.boolItem .mptcp then 1 else t.mptcp
    title := readText j .title t.title
    extraData := readText j .extraData t.extraData
    congestion := readText j .congestion t.congestion
    congestionUsed := readText j .congestionUsed t.congestionUsed
    getServerOutput := readPresence j .getServerOutput t.getServerOutput
    udpCounters64bit := readPresence j .udpCounters64bit t.udpCounters64bit
    repeatingPayload := readPresence j .repeatingPayload t.repeatingPayload
    zerocopy := readInt j .zerocopy t.zerocopy
    settings := assignedSettings b j t }

/-- Equality up to the retransmission flag and the error code. -/
def Test.SameUpToStatus (t u : Test) : Prop :=
  ∃ retransmits code,
    t = { u with senderHasRetransmits := retransmits, iErrno := code }

/-! ## The blocks -/

theorem checkSenderHasRetransmits_eq (b : Build) (t : Test) :
    ∃ retransmits, t.checkSenderHasRetransmits b =
      { t with senderHasRetransmits := retransmits } := by
  unfold Test.checkSenderHasRetransmits
  split_ifs
  · exact ⟨1, rfl⟩
  · exact ⟨0, rfl⟩

theorem setProtocol_eq (b : Build) (id : ProtocolId) (t : Test) :
    (t.setProtocol b id).SameUpToStatus
      { t with protocol := if b.supports id then id else t.protocol } := by
  unfold Test.setProtocol
  by_cases hsupported : b.supports id
  · obtain ⟨r, hr⟩ := checkSenderHasRetransmits_eq b { t with protocol := id }
    rw [if_pos hsupported, hr]
    exact ⟨r, t.iErrno, by simp [hsupported]⟩
  · rw [if_neg hsupported]
    exact ⟨t.senderHasRetransmits, .ieProtocol, by simp [hsupported]⟩

theorem setTestReverse_eq (b : Build) (t : Test) :
    (t.setTestReverse b 1).SameUpToStatus
      { t with reverse := 1, mode := reversedMode t } := by
  obtain ⟨r, hr⟩ := checkSenderHasRetransmits_eq b
    { t with reverse := 1, mode := reversedMode t }
  refine ⟨r, t.iErrno, ?_⟩
  simp only [Test.setTestReverse, one_ne_zero, if_false]
  exact hr

theorem readProtocol_eq (b : Build) (j : Json) (t : Test) :
    ((readProtocol b j t).1).SameUpToStatus
      { t with protocol := selectProtocol b j t } := by
  -- Each of the three selections changes only the protocol.
  have hselect : ∀ (present : Bool) (id : ProtocolId) (u : Test),
      (if present then u.setProtocol b id else u).SameUpToStatus
        { u with protocol :=
            if present ∧ b.supports id then id else u.protocol } := by
    intro present id u
    by_cases hpresent : present
    · simpa [hpresent] using setProtocol_eq b id u
    · exact ⟨u.senderHasRetransmits, u.iErrno, by simp [hpresent]⟩
  obtain ⟨r1, e1, h1⟩ := hselect (j.boolItem .tcp) .tcp t
  unfold readProtocol
  simp only [h1]
  by_cases hudp : j.boolItem .udp
  · by_cases hfile : t.diskfileName.isSome
    · obtain ⟨r3, e3, h3⟩ := hselect (j.boolItem .sctp) .sctp
        { t with
          protocol := if j.boolItem .tcp ∧ b.supports .tcp then .tcp else t.protocol
          senderHasRetransmits := r1
          iErrno := .ieUdpFileTransfer }
      refine ⟨r3, e3, ?_⟩
      have hnone : t.diskfileName ≠ none := by
        simpa [Option.isSome_iff_ne_none] using hfile
      simp only [hudp, hfile, if_true]
      rw [h3]
      simp [selectProtocol, Build.supports, hnone]
    · have hnone : t.diskfileName = none := by simpa using hfile
      obtain ⟨r2, e2, h2⟩ := setProtocol_eq b .udp
        { t with
          protocol := if j.boolItem .tcp ∧ b.supports .tcp then .tcp else t.protocol
          senderHasRetransmits := r1
          iErrno := e1 }
      obtain ⟨r3, e3, h3⟩ := hselect (j.boolItem .sctp) .sctp
        { t with
          protocol := .udp
          senderHasRetransmits := r2
          iErrno := e2 }
      refine ⟨r3, e3, ?_⟩
      simp only [Build.supports, if_true] at h2
      simp only [hudp, hfile, Bool.false_eq_true, if_true, if_false,
        Build.supports]
      have hprotocol : selectProtocol b j t =
          if j.boolItem .sctp ∧ b.supports .sctp then .sctp else .udp := by
        simp only [selectProtocol, hudp, hnone, and_self, if_true]
        rfl
      rw [h2, h3, hprotocol]
  · obtain ⟨r3, e3, h3⟩ := hselect (j.boolItem .sctp) .sctp
      { t with
        protocol := if j.boolItem .tcp ∧ b.supports .tcp then .tcp else t.protocol
        senderHasRetransmits := r1
        iErrno := e1 }
    refine ⟨r3, e3, ?_⟩
    simp only [hudp, Bool.false_eq_true, if_false]
    rw [h3]
    simp [selectProtocol, Build.supports, hudp]

theorem readDirection_eq (b : Build) (j : Json) (t : Test) :
    (readDirection b j t).SameUpToStatus
      { t with
        mode := selectMode j t
        reverse := if j.boolItem .reverse then 1 else t.reverse
        bidirectional :=
          if j.boolItem .bidirectional then 1 else t.bidirectional } := by
  obtain ⟨r, e, hreverse⟩ := setTestReverse_eq b t
  unfold readDirection
  by_cases hr : j.boolItem .reverse
  · by_cases hb : j.boolItem .bidirectional
    · exact ⟨r, e, by
        simp [hr, hb, hreverse, Test.setTestBidirectional, selectMode]⟩
    · exact ⟨r, e, by simp [hr, hb, hreverse, selectMode]⟩
  · by_cases hb : j.boolItem .bidirectional
    · exact ⟨t.senderHasRetransmits, t.iErrno, by
        simp [hr, hb, Test.setTestBidirectional, selectMode]⟩
    · exact ⟨t.senderHasRetransmits, t.iErrno, by simp [hr, hb, selectMode]⟩

theorem deriveGsoSizes_eq (t : Test) :
    deriveGsoSizes t =
      { t with settings := { t.settings with
          gsoDgSize := (selectGsoSizes t.protocol t.settings.gso
            t.settings.blksize t.settings.gsoDgSize t.settings.gsoBfSize).1
          gsoBfSize := (selectGsoSizes t.protocol t.settings.gso
            t.settings.blksize t.settings.gsoDgSize t.settings.gsoBfSize).2 } } := by
  unfold deriveGsoSizes selectGsoSizes
  split_ifs <;> rfl

theorem readRetransmits_eq (b : Build) (t : Test) :
    ∃ retransmits, readRetransmits b t =
      { t with senderHasRetransmits := retransmits } := by
  unfold readRetransmits
  split_ifs
  · exact ⟨1, rfl⟩
  · exact ⟨t.senderHasRetransmits, rfl⟩

/-! ## The whole message -/

theorem readParameters_eq (b : Build) (j : Json) (t : Test) :
    ((readParameters b j t).1).SameUpToStatus (assignParameters b j t) := by
  obtain ⟨r1, e1, h1⟩ := readProtocol_eq b j t
  obtain ⟨r2, e2, h2⟩ := readDirection_eq b j (readLimits j (readProtocol b j t).1)
  obtain ⟨r3, h3⟩ := readRetransmits_eq b (readOptions b j (readRates j
    (deriveGsoSizes (readSizes b j
      (readDirection b j (readLimits j (readProtocol b j t).1))))))
  refine ⟨r3, e2, ?_⟩
  unfold readParameters
  simp only
  rw [h3, deriveGsoSizes_eq, h2, h1]
  rfl

theorem readParameters_accepts (b : Build) (j : Json) (t : Test) :
    (readParameters b j t).2 = !(j.boolItem .udp && t.diskfileName.isSome) := by
  obtain ⟨r, e, h⟩ := setProtocol_eq b .tcp t
  have hdisk : (if j.boolItem .tcp then t.setProtocol b .tcp else t).diskfileName =
      t.diskfileName := by
    by_cases htcp : j.boolItem .tcp
    · simp [htcp, h]
    · simp [htcp]
  unfold readParameters readProtocol
  simp only [hdisk]
  by_cases hudp : j.boolItem .udp
  · by_cases hfile : t.diskfileName.isSome
    · simp [hudp, hfile]
    · simp [hudp, hfile]
  · simp [hudp]

/-- The error code after the limit checks. -/
def Test.limitErrno (t : Test) : IErrno :=
  if t.exceedsBitrateLimit t.settings.rate ∨
      t.exceedsBitrateLimit t.settings.fqrate then .ieTotalRate
  else if t.exceedsServerDuration then .ieMaxServerTestDurationExceeded
  else t.iErrno

theorem checkLimits_eq (t : Test) (ok : Bool) :
    checkLimits t ok =
      ({ t with iErrno := t.limitErrno },
        ok && !t.exceedsServerDuration &&
          !t.exceedsBitrateLimit t.settings.rate &&
          !t.exceedsBitrateLimit t.settings.fqrate) := by
  -- The error code takes no part in the checks.
  have hcode : ∀ (code : IErrno) (rate : ℕ),
      { t with iErrno := code }.exceedsBitrateLimit rate =
        t.exceedsBitrateLimit rate := fun _ _ => rfl
  unfold checkLimits Test.limitErrno
  cases hduration : t.exceedsServerDuration <;>
    cases hrate : t.exceedsBitrateLimit t.settings.rate <;>
      cases hfqrate : t.exceedsBitrateLimit t.settings.fqrate <;>
        simp [hcode, hrate, hfqrate]

/-- Reading a message and checking the limits assigns exactly the members of
`assignParameters`, whether or not the message is accepted. -/
theorem getParameters_eq (b : Build) (j : Json) (t : Test) :
    ((getParameters b (some j) t).1).SameUpToStatus (assignParameters b j t) := by
  obtain ⟨r, e, h⟩ := readParameters_eq b j t
  refine ⟨r, (readParameters b j t).1.limitErrno, ?_⟩
  simp only [getParameters, checkLimits_eq]
  rw [h]

theorem getParameters_accepts (b : Build) (j : Json) (t : Test) :
    (getParameters b (some j) t).2 =
      (!(j.boolItem .udp && t.diskfileName.isSome) &&
        !(assignParameters b j t).exceedsServerDuration &&
        !(assignParameters b j t).exceedsBitrateLimit
          (assignParameters b j t).settings.rate &&
        !(assignParameters b j t).exceedsBitrateLimit
          (assignParameters b j t).settings.fqrate) := by
  obtain ⟨r, e, h⟩ := readParameters_eq b j t
  simp only [getParameters, checkLimits_eq, readParameters_accepts]
  rw [h]
  rfl

end Iperf3
