import Iperf3.Results
import Mathlib.Tactic

/-!
# Both sides report the same results

After the exchange every stream of the client and the stream of the same id
of the server give the same report.  The server reads before it replies, and
what it overwrites then is never what it reports about its own side.
-/

namespace Iperf3

open MachineInt

/-! ## One stream on the wire -/

/-- An integer after printing and parsing, when numbers are re-read by `f`. -/
def reread (f : ℚ → ℚ) (n : ℤ) : ℤ :=
  CJson.saturate (f (Binary64.roundDouble n))

theorem reread_eq {f : ℚ → ℚ} (hf : CJson.KeepsIntegers f) {n : ℤ} (hn : |n| ≤ 2 ^ 53) :
    reread f n = n := by
  rw [reread, Binary64.roundDouble_intCast hn, hf n hn, CJson.saturate_intCast hn]

theorem reread_int32
    {f : ℚ → ℚ} (hf : CJson.KeepsIntegers f) {n : ℤ} (hn : int32 n = n) :
    int32 (reread f n) = n := by
  have hbounds := int32_bounds n
  rw [hn] at hbounds
  have habs : |n| ≤ 2 ^ 53 := by
    rw [abs_le]
    constructor <;> omega
  rw [reread_eq hf habs, hn]

theorem reread_uint64
    {f : ℚ → ℚ} (hf : CJson.KeepsIntegers f) {n : ℕ} (hn : n ≤ 2 ^ 53) :
    uint64 (reread f n) = n := by
  have habs : |(n : ℤ)| ≤ 2 ^ 53 := by
    rw [abs_of_nonneg (by omega)]
    exact_mod_cast hn
  rw [reread_eq hf habs, uint64_eq]
  omega

/-- A positive number that is not changed by the text is at most the largest
64-bit integer after reading. -/
theorem reread_id_bounds {n : ℤ} (hn : 0 < n) :
    0 ≤ reread id n ∧ reread id n ≤ 9223372036854775807 := by
  have hpos := Binary64.roundDouble_pos (q := n) (by exact_mod_cast hn)
  unfold reread CJson.saturate
  simp only [id]
  split_ifs with hhigh hlow
  · omega
  · linarith
  · have hnum : 0 ≤ (Binary64.roundDouble n).num := Rat.num_nonneg.mpr hpos.le
    rw [Int.tdiv_eq_ediv_of_nonneg hnum, ← Rat.floor_def']
    constructor
    · exact Int.floor_nonneg.mpr hpos.le
    · apply Int.le_of_lt_add_one
      apply Int.floor_lt.mpr
      push_cast
      linarith

/-- What the peer reads about a stream. -/
def Stream.shown (t : Test) (f : ℚ → ℚ) (sp : Stream) : PeerStream where
  sid := int32 (reread f sp.id)
  bytes := uint64 (reread f sp.bytesTransferred)
  retransmits := int32 (reread f
    (if sp.sender ∧ t.senderHasRetransmits ≠ 0 then int32 sp.result.streamRetrans
      else -1))
  jitter := f sp.jitter
  errors := reread f sp.cntError
  packets := reread f sp.packetCount
  omitted := some (reread f sp.omittedCntError, reread f sp.omittedPacketCount)
  elapsed := some (Binary64.roundDouble (f sp.elapsed -
    f (sp.result.startTime.diff sp.result.startTime).inSecs))

theorem readPeerStream_resultMembers (f : ℚ → ℚ) (t : Test) (sp : Stream) :
    readPeerStream ((CJson.object (resultMembers t sp)).mapNumbers f) =
      some (sp.shown t f) := by
  have hdouble : ∀ (key : Key) (q : ℚ),
      (CJson.object (resultMembers t sp)).getObjectItemType key .number =
        some (.number q) →
          ((CJson.object (resultMembers t sp)).mapNumbers f).getObjectItemType key
            .number = some (.number (f q)) := by
    intro key q hitem
    rw [CJson.getObjectItemType_mapNumbers, hitem]
    rfl
  have hread : ∀ (key : Key) (n : ℤ),
      (CJson.object (resultMembers t sp)).getObjectItemType key .number =
        some (.ofInt n) →
          ((CJson.object (resultMembers t sp)).mapNumbers f).numberItem key =
            some (reread f n) := by
    intro key n hitem
    rw [CJson.numberItem, hdouble key _ hitem]
    rfl
  unfold readPeerStream
  simp only [hread .id _ rfl, hread .bytes _ rfl, hread .retransmits _ rfl,
    hdouble .jitter _ rfl, hread .errors _ rfl, hread .packets _ rfl,
    hdouble .startTime _ rfl, hdouble .endTime _ rfl, hread .omittedErrors _ rfl,
    hread .omittedPackets _ rfl, Option.bind_eq_bind, Option.bind_some]
  rfl

/-- Statistics that survive the passage through a message. -/
structure Stream.WithinBounds (sp : Stream) : Prop where
  bytesReceived : sp.result.bytesReceived ≤ 2 ^ 53
  bytesSent : sp.sender = true →
    sp.result.bytesSentOmit ≤ sp.result.bytesSent ∧ sp.result.bytesSent ≤ 2 ^ 53
  packetCount : |sp.packetCount| ≤ 2 ^ 53
  omittedPacketCount : |sp.omittedPacketCount| ≤ 2 ^ 53
  cntError : |sp.cntError| ≤ 2 ^ 53
  omittedCntError : |sp.omittedCntError| ≤ 2 ^ 53

theorem Stream.WithinBounds.bytesTransferred_le
    {sp : Stream} (h : sp.WithinBounds) : sp.bytesTransferred ≤ 2 ^ 53 := by
  unfold Stream.bytesTransferred
  split_ifs with hsender
  · obtain ⟨hle, hbound⟩ := h.bytesSent hsender
    rw [uint64_eq]
    omega
  · exact h.bytesReceived

theorem Stream.WithinBounds.shown_eq
    {sp : Stream} (h : sp.WithinBounds) {f : ℚ → ℚ} (hf : CJson.KeepsIntegers f)
    (t : Test) :
    (sp.shown t f).bytes = sp.bytesTransferred ∧
      (sp.shown t f).errors = sp.cntError ∧
      (sp.shown t f).packets = sp.packetCount ∧
      (sp.shown t f).omitted = some (sp.omittedCntError, sp.omittedPacketCount) := by
  simp only [Stream.shown, reread_uint64 hf h.bytesTransferred_le, reread_eq hf h.cntError,
    reread_eq hf h.packetCount, reread_eq hf h.omittedCntError,
    reread_eq hf h.omittedPacketCount, and_self]

/-! ## Reading the stream array -/

/-- A stream after every element of the array has been offered to it. -/
def Stream.absorbAll (peers : List PeerStream) (sp : Stream) : Stream :=
  peers.foldl (fun sp peer => if sp.id = peer.sid then sp.absorb peer else sp) sp

@[simp]
theorem Stream.absorb_id (sp : Stream) (peer : PeerStream) :
    (sp.absorb peer).id = sp.id := by
  unfold Stream.absorb
  split_ifs <;> rfl

@[simp]
theorem Stream.absorb_sender (sp : Stream) (peer : PeerStream) :
    (sp.absorb peer).sender = sp.sender := by
  unfold Stream.absorb
  split_ifs <;> rfl

theorem absorbStream_eq_map
    (peer : PeerStream) {streams : List Stream}
    (hnodup : (streams.map (·.id)).Nodup) (hmem : peer.sid ∈ streams.map (·.id)) :
    absorbStream peer streams =
      some (streams.map fun sp => if sp.id = peer.sid then sp.absorb peer else sp) := by
  induction streams with
  | nil => simp at hmem
  | cons sp streams ih =>
      rw [List.map_cons, List.nodup_cons] at hnodup
      rw [absorbStream, List.map_cons]
      by_cases hsp : sp.id = peer.sid
      · have hrest : ∀ other ∈ streams, other.id ≠ peer.sid := by
          intro other hother heq
          apply hnodup.1
          rw [hsp, ← heq]
          exact List.mem_map_of_mem hother
        have hkeep : (streams.map fun sp =>
            if sp.id = peer.sid then sp.absorb peer else sp) = streams := by
          rw [List.map_congr_left fun other hother => if_neg (hrest other hother)]
          exact List.map_id' streams
        rw [if_pos hsp, if_pos hsp, hkeep]
      · have hmem' : peer.sid ∈ streams.map (·.id) := by
          rw [List.map_cons, List.mem_cons] at hmem
          exact hmem.resolve_left fun h => hsp h.symm
        rw [if_neg hsp, if_neg hsp, ih hnodup.2 hmem']
        rfl

/-- The loop over the stream array when every element is well formed and
names a stream of the reader. -/
theorem foldl_readStreamItem
    {items : List Json} {peers : List PeerStream} {state : ReadState}
    (hread : items.map readPeerStream = peers.map some)
    (hnodup : (state.streams.map (·.id)).Nodup)
    (hmem : ∀ peer ∈ peers, peer.sid ∈ state.streams.map (·.id)) :
    items.foldl readStreamItem state =
      { state with streams := state.streams.map (Stream.absorbAll peers) } := by
  induction items generalizing peers state with
  | nil =>
      have hpeers : peers = [] := by simpa using hread.symm
      subst hpeers
      have hkeep : Stream.absorbAll [] = id := rfl
      rw [hkeep, List.map_id]
      rfl
  | cons item items ih =>
      cases peers with
      | nil => simp at hread
      | cons peer peers =>
          rw [List.map_cons, List.map_cons, List.cons.injEq] at hread
          have hstep : readStreamItem state item =
              { state with streams := state.streams.map fun sp =>
                  if sp.id = peer.sid then sp.absorb peer else sp } := by
            have habsorb := absorbStream_eq_map peer hnodup
              (hmem peer List.mem_cons_self)
            unfold readStreamItem
            rw [hread.1]
            simp only [habsorb]
          have hids : (state.streams.map fun sp =>
              if sp.id = peer.sid then sp.absorb peer else sp).map (·.id) =
                state.streams.map (·.id) := by
            rw [List.map_map]
            apply List.map_congr_left
            intro sp _
            dsimp only [Function.comp_apply]
            split_ifs <;> simp
          rw [List.foldl_cons, hstep]
          rw [ih hread.2 (by simpa only [hids] using hnodup) fun other hother => by
            simpa only [hids] using hmem other (List.mem_cons_of_mem _ hother)]
          simp only [List.map_map]
          rfl

/-- With distinct ids a stream absorbs exactly the element of its own id. -/
theorem Stream.absorbAll_eq
    {peers : List PeerStream} (hnodup : (peers.map (·.sid)).Nodup)
    {peer : PeerStream} (hpeer : peer ∈ peers)
    {sp : Stream} (hid : sp.id = peer.sid) :
    sp.absorbAll peers = sp.absorb peer := by
  have hskip : ∀ (others : List PeerStream) (sp : Stream),
      (∀ other ∈ others, sp.id ≠ other.sid) → sp.absorbAll others = sp := by
    intro others
    induction others with
    | nil => exact fun _ _ => rfl
    | cons other others ih =>
        intro sp h
        have hhead := h other List.mem_cons_self
        rw [Stream.absorbAll, List.foldl_cons, if_neg hhead]
        exact ih sp fun x hx => h x (List.mem_cons_of_mem _ hx)
  induction peers with
  | nil => simp at hpeer
  | cons head peers ih =>
      rw [List.map_cons, List.nodup_cons] at hnodup
      rw [Stream.absorbAll, List.foldl_cons]
      rcases List.mem_cons.mp hpeer with rfl | hrest
      · rw [if_pos hid]
        apply hskip peers
        intro other hother heq
        apply hnodup.1
        rw [← hid, ← Stream.absorb_id sp peer, heq]
        exact List.mem_map_of_mem hother
      · have hne : sp.id ≠ head.sid := by
          intro heq
          apply hnodup.1
          rw [← heq, hid]
          exact List.mem_map_of_mem hrest
        rw [if_neg hne]
        exact ih hnodup.2 hrest

@[simp]
theorem Stream.absorbAll_id (peers : List PeerStream) (sp : Stream) :
    (sp.absorbAll peers).id = sp.id := by
  unfold Stream.absorbAll
  induction peers generalizing sp with
  | nil => rfl
  | cons peer peers ih =>
      rw [List.foldl_cons, ih]
      split_ifs <;> simp

/-! ## One message -/

theorem getObjectItemType_streams (side : TestSide) :
    (sendResults side).getObjectItemType .streams .array =
      some (.array (side.streams.map fun sp =>
        .object (resultMembers side.test sp))) := by
  unfold sendResults TestSide.serverOutput CJson.getObjectItemType CJson.getObjectItem
  cases side.test.congestionUsed <;> split_ifs <;> rfl

theorem map_readPeerStream (f : ℚ → ℚ) (side : TestSide) :
    (CJson.mapItems f (side.streams.map fun sp =>
      CJson.object (resultMembers side.test sp))).map readPeerStream =
        (side.streams.map (Stream.shown side.test f)).map some := by
  rw [CJson.mapItems_eq_map, List.map_map, List.map_map, List.map_map]
  apply List.map_congr_left
  intro sp _
  exact readPeerStream_resultMembers f side.test sp

/-- Every stream of the peer has an `int` id that a stream here has too. -/
def KnownStreams (peer side : List Stream) : Prop :=
  ∀ sp ∈ peer, int32 sp.id = sp.id ∧ sp.id ∈ side.map (·.id)

/-- The stream list and the verdict after reading the message of a peer whose
streams are all known here, whatever the statistics are. -/
theorem readStreams_sendResults
    {f : ℚ → ℚ} (hf : CJson.KeepsIntegers f) {peer side : TestSide}
    (hnodup : (side.streams.map (·.id)).Nodup)
    (hids : KnownStreams peer.streams side.streams) :
    (readStreams ((sendResults peer).mapNumbers f) side).2 = true ∧
      (readStreams ((sendResults peer).mapNumbers f) side).1.streams =
        side.streams.map
          (Stream.absorbAll (peer.streams.map (Stream.shown peer.test f))) ∧
      (readStreams ((sendResults peer).mapNumbers f) side).1.test = side.test := by
  have hknown : ∀ p ∈ peer.streams.map (Stream.shown peer.test f),
      p.sid ∈ side.streams.map (·.id) := by
    intro p hp
    obtain ⟨sp, hsp, rfl⟩ := List.mem_map.mp hp
    have hsid : (sp.shown peer.test f).sid = sp.id := reread_int32 hf (hids sp hsp).1
    rw [hsid]
    exact (hids sp hsp).2
  have hfold : (CJson.mapItems f (peer.streams.map fun sp =>
      CJson.object (resultMembers peer.test sp))).foldl readStreamItem
        ⟨side.streams, side.test.iErrno, true⟩ =
          ⟨side.streams.map
            (Stream.absorbAll (peer.streams.map (Stream.shown peer.test f))),
            side.test.iErrno, true⟩ :=
    foldl_readStreamItem (map_readPeerStream f peer) hnodup hknown
  unfold readStreams
  rw [CJson.getObjectItemType_mapNumbers, getObjectItemType_streams]
  simp only [Option.map_some, CJson.mapNumbers, hfold]
  split_ifs
  · split <;> exact ⟨rfl, rfl, rfl⟩
  · exact ⟨rfl, rfl, rfl⟩

theorem getResults_eq
    {j total user system : Json} {retransmits : ℤ} {side : TestSide}
    (htotal : j.getObjectItemType .cpuUtilTotal .number = some total)
    (huser : j.getObjectItemType .cpuUtilUser .number = some user)
    (hsystem : j.getObjectItemType .cpuUtilSystem .number = some system)
    (hretransmits : j.numberItem .senderHasRetransmits = some retransmits) :
    getResults (some j) side =
      Prod.map (readCongestion j) id
        (readStreams j { side with
          remoteCpuUtil := (total.valuedouble, user.valuedouble, system.valuedouble)
          test := readRetransmitFlags side.test (int32 retransmits) }) := by
  simp only [getResults, htotal, huser, hsystem, hretransmits]
  rfl

theorem getResults_sendResults
    {f : ℚ → ℚ} (hf : CJson.KeepsIntegers f) {peer side : TestSide}
    (hnodup : (side.streams.map (·.id)).Nodup)
    (hids : KnownStreams peer.streams side.streams) :
    ∃ side', getResults (some ((sendResults peer).mapNumbers f)) side = (side', true) ∧
      side'.streams = side.streams.map
        (Stream.absorbAll (peer.streams.map (Stream.shown peer.test f))) ∧
      side'.test.iErrno = side.test.iErrno ∧
      side'.test.mode = side.test.mode ∧
      (side.test.mode ≠ .receiver →
        side'.test.senderHasRetransmits = side.test.senderHasRetransmits) := by
  have hnumber : ∀ (key : Key) (q : ℚ),
      (sendResults peer).getObjectItem key = some (.number q) →
        ((sendResults peer).mapNumbers f).getObjectItemType key .number =
          some (.number (f q)) := by
    intro key q hitem
    rw [CJson.getObjectItemType_mapNumbers, CJson.getObjectItemType, hitem]
    rfl
  have htotal := hnumber .cpuUtilTotal _ rfl
  have huser := hnumber .cpuUtilUser _ rfl
  have hsystem := hnumber .cpuUtilSystem _ rfl
  have hretrans := hnumber .senderHasRetransmits _ rfl
  have hflagRead : ∃ flag,
      ((sendResults peer).mapNumbers f).numberItem .senderHasRetransmits = some flag := by
    rw [CJson.numberItem, hretrans]
    exact ⟨_, rfl⟩
  obtain ⟨flag, hflagRead⟩ := hflagRead
  rw [getResults_eq htotal huser hsystem hflagRead]
  -- The header only touches members that the stream array does not read.
  have hread : ∀ header : TestSide, header.streams = side.streams → _ :=
    fun header hheader => readStreams_sendResults hf
      (hheader.symm ▸ hnodup) (hheader.symm ▸ hids)
  have hkept : (readRetransmitFlags side.test (int32 flag)).mode = side.test.mode ∧
      (readRetransmitFlags side.test (int32 flag)).iErrno = side.test.iErrno := by
    unfold readRetransmitFlags
    split <;> exact ⟨rfl, rfl⟩
  obtain ⟨hok, hstreams, htest⟩ := hread
    { side with
      remoteCpuUtil := (CJson.valuedouble (κ := Key) (.number (f peer.cpuUtil.1)),
        CJson.valuedouble (κ := Key) (.number (f peer.cpuUtil.2.1)),
        CJson.valuedouble (κ := Key) (.number (f peer.cpuUtil.2.2)))
      test := readRetransmitFlags side.test (int32 flag) } rfl
  generalize readStreams _ _ = result at hok hstreams htest ⊢
  refine ⟨readCongestion _ result.1, Prod.ext rfl hok, hstreams,
    (congrArg Test.iErrno htest).trans hkept.2,
    (congrArg Test.mode htest).trans hkept.1, ?_⟩
  intro hmode
  have hflag : (readRetransmitFlags side.test (int32 flag)).senderHasRetransmits =
      side.test.senderHasRetransmits := by
    unfold readRetransmitFlags
    cases h : side.test.mode <;> first | rfl | exact absurd h hmode
  have hkept := congrArg Test.senderHasRetransmits htest
  exact hkept.trans hflag

/-! ## Both messages -/

/-- Two stream lists of one test: the ids identify the streams, and a stream
is the sender on exactly one side. -/
structure PairedStreams (client server : List Stream) : Prop where
  client_nodup : (client.map (·.id)).Nodup
  server_nodup : (server.map (·.id)).Nodup
  client_int : ∀ sp ∈ client, int32 sp.id = sp.id
  same_ids : ∀ id, id ∈ client.map (·.id) ↔ id ∈ server.map (·.id)
  opposite : ∀ sp ∈ client, ∀ sp' ∈ server, sp.id = sp'.id → sp'.sender = !sp.sender

/-- The server after it has read the client's message. -/
def serverAfterReading (codec : Codec) (client server : TestSide) : TestSide :=
  (getResults (jsonRead codec 0 (jsonWrite codec (sendResults client))).1 server).1

/-- The members of a stream's results that describe the sending side's own
part of it.  In receiver mode no stream counts retransmissions. -/
def ownKeys (t : Test) (sp : Stream) : List Key :=
  [.id, .bytes, .packets, .omittedPackets, .startTime, .endTime] ++
    (if sp.sender then [] else [.jitter, .errors, .omittedErrors]) ++
    (if t.mode = .receiver then [] else [.retransmits])

def ownMembers (t : Test) (sp : Stream) : List (Key × Json) :=
  (resultMembers t sp).filter fun member => member.1 ∈ ownKeys t sp

theorem Stream.WithinBounds.absorb
    {sp peer : Stream} {t : Test} {f : ℚ → ℚ} (hf : CJson.KeepsIntegers f)
    (h : sp.WithinBounds) (hpeer : peer.WithinBounds) :
    (sp.absorb (peer.shown t f)).WithinBounds := by
  obtain ⟨hbytes, herrors, -, homitted⟩ := hpeer.shown_eq hf t
  by_cases hsender : sp.sender = true
  · rw [Stream.absorb, if_pos hsender, hbytes, herrors, homitted]
    exact
      { bytesReceived := hpeer.bytesTransferred_le
        bytesSent := h.bytesSent
        packetCount := h.packetCount
        omittedPacketCount := h.omittedPacketCount
        cntError := hpeer.cntError
        omittedCntError := hpeer.omittedCntError }
  · rw [Stream.absorb, if_neg hsender]
    exact
      { bytesReceived := h.bytesReceived
        bytesSent := fun hs => absurd hs hsender
        packetCount := h.packetCount
        omittedPacketCount := h.omittedPacketCount
        cntError := h.cntError
        omittedCntError := h.omittedCntError }

theorem report_absorb_receiver
    {sp peer : Stream} {t : Test} {f : ℚ → ℚ} (hf : CJson.KeepsIntegers f)
    (hreceiver : sp.sender = false) (homit : sp.result.bytesSentOmit = 0)
    (hsender : peer.sender = true) (hpeer : peer.WithinBounds) :
    (sp.absorb (peer.shown t f)).report =
      { bytesSent := uint64 (peer.result.bytesSent - peer.result.bytesSentOmit)
        bytesReceived := sp.result.bytesReceived
        senderPacketCount := peer.packetCount
        senderOmittedPacketCount := peer.omittedPacketCount
        receiverPacketCount := sp.packetCount
        receiverOmittedPacketCount := sp.omittedPacketCount
        cntError := sp.cntError
        omittedCntError := sp.omittedCntError } := by
  obtain ⟨hbytes, -, hpackets, homitted⟩ := hpeer.shown_eq hf t
  have hsmall := hpeer.bytesTransferred_le
  have hexact : uint64 ((peer.bytesTransferred : ℤ) - (0 : ℕ)) = peer.bytesTransferred := by
    rw [uint64_eq]
    omega
  have hsent : peer.bytesTransferred =
      uint64 (peer.result.bytesSent - peer.result.bytesSentOmit) := by
    rw [Stream.bytesTransferred, if_pos hsender]
  rw [Stream.absorb, if_neg (by simp [hreceiver]), hbytes, hpackets, homitted, ← hsent]
  simp only [Stream.report, hreceiver, homit, hexact, Bool.false_eq_true, if_false]

theorem report_absorb_sender
    {sp peer : Stream} {t : Test} {f : ℚ → ℚ} (hf : CJson.KeepsIntegers f)
    (hsender : sp.sender = true)
    (hreceiver : peer.sender = false) (hpeer : peer.WithinBounds) :
    (sp.absorb (peer.shown t f)).report =
      { bytesSent := uint64 (sp.result.bytesSent - sp.result.bytesSentOmit)
        bytesReceived := peer.result.bytesReceived
        senderPacketCount := sp.packetCount
        senderOmittedPacketCount := sp.omittedPacketCount
        receiverPacketCount := peer.packetCount
        receiverOmittedPacketCount := peer.omittedPacketCount
        cntError := peer.cntError
        omittedCntError := peer.omittedCntError } := by
  obtain ⟨hbytes, herrors, hpackets, homitted⟩ := hpeer.shown_eq hf t
  have hreceived : peer.bytesTransferred = peer.result.bytesReceived := by
    rw [Stream.bytesTransferred, if_neg (by simp [hreceiver])]
  rw [Stream.absorb, if_pos hsender, hbytes, herrors, hpackets, homitted, hreceived]
  simp only [Stream.report, hsender, if_true]

/-- A client stream and its server stream after both have absorbed what the
other one showed. -/
theorem report_absorb_eq
    {sp sp' : Stream} {t t' : Test} {f f' : ℚ → ℚ}
    (hf : CJson.KeepsIntegers f) (hf' : CJson.KeepsIntegers f')
    (hopposite : sp'.sender = !sp.sender)
    (hsp : sp.WithinBounds) (hsp' : sp'.WithinBounds)
    (hreceiver : sp.sender = false → sp.result.bytesSentOmit = 0)
    (hreceiver' : sp'.sender = false → sp'.result.bytesSentOmit = 0) :
    (sp.absorb ((sp'.absorb (sp.shown t f)).shown t' f')).report =
      (sp'.absorb (sp.shown t f)).report := by
  have hread : (sp'.absorb (sp.shown t f)).WithinBounds := hsp'.absorb hf hsp
  cases hsender : sp.sender with
  | true =>
      have hsender' : sp'.sender = false := by rw [hopposite, hsender]; rfl
      have hrole' : (sp'.absorb (sp.shown t f)).sender = false := by
        rw [Stream.absorb_sender, hsender']
      rw [report_absorb_sender hf' hsender hrole' hread,
        report_absorb_receiver hf hsender' (hreceiver' hsender') hsender hsp]
      simp [Stream.absorb, hsender']
  | false =>
      have hsender' : sp'.sender = true := by rw [hopposite, hsender]; rfl
      have hrole' : (sp'.absorb (sp.shown t f)).sender = true := by
        rw [Stream.absorb_sender, hsender']
      rw [report_absorb_receiver hf' hsender (hreceiver hsender) hrole' hread,
        report_absorb_sender hf hsender' hsender hsp]
      simp [Stream.absorb, hsender']

/-- Reading the peer's statistics leaves what a stream says about its own side. -/
theorem ownMembers_absorb
    (t t' : Test) (sp : Stream) (peer : PeerStream)
    (hmode : t'.mode = t.mode)
    (hflag : t.mode ≠ .receiver → t'.senderHasRetransmits = t.senderHasRetransmits) :
    ownMembers t' (sp.absorb peer) = ownMembers t sp := by
  by_cases hreceiver : t.mode = .receiver
  · cases hsender : sp.sender <;>
      simp [ownMembers, ownKeys, resultMembers, Stream.absorb, Stream.bytesTransferred,
        Stream.elapsed, hsender, hmode, hreceiver]
  · have hflag' := hflag hreceiver
    cases hsender : sp.sender <;>
      simp [ownMembers, ownKeys, resultMembers, Stream.absorb, Stream.bytesTransferred,
        Stream.elapsed, hsender, hmode, hreceiver, hflag']

theorem map_id_absorbAll (peers : List PeerStream) (streams : List Stream) :
    (streams.map (Stream.absorbAll peers)).map (·.id) = streams.map (·.id) := by
  rw [List.map_map]
  apply List.map_congr_left
  intro sp _
  exact Stream.absorbAll_id peers sp

/-- What a stream absorbs from a peer with distinct ids is what the peer's
stream of its own id shows. -/
theorem absorbAll_shown
    {f : ℚ → ℚ} (hf : CJson.KeepsIntegers f) (t : Test) {streams : List Stream}
    (hnodup : (streams.map (·.id)).Nodup)
    (hint : ∀ sp ∈ streams, int32 sp.id = sp.id)
    {peer sp : Stream} (hpeer : peer ∈ streams) (hid : sp.id = peer.id) :
    sp.absorbAll (streams.map (Stream.shown t f)) = sp.absorb (peer.shown t f) := by
  have hsids : (streams.map (Stream.shown t f)).map (·.sid) = streams.map (·.id) := by
    rw [List.map_map]
    apply List.map_congr_left
    intro other hother
    exact reread_int32 hf (hint other hother)
  apply Stream.absorbAll_eq
  · rw [hsids]
    exact hnodup
  · exact List.mem_map_of_mem hpeer
  · rw [hid]
    exact (reread_int32 hf (hint peer hpeer)).symm

theorem exchangeResults_eq
    {codec : Codec} {client server : TestSide} {f f' : ℚ → ℚ}
    (hpaired : PairedStreams client.streams server.streams)
    (hf : CJson.KeepsIntegers f) (hf' : CJson.KeepsIntegers f')
    (hto : (jsonRead codec 0 (jsonWrite codec (sendResults client))).1 =
      some ((sendResults client).mapNumbers f))
    (hfrom : (jsonRead codec 0 (jsonWrite codec
      (sendResults (serverAfterReading codec client server)))).1 =
        some ((sendResults (serverAfterReading codec client server)).mapNumbers f')) :
    ∃ client' server', exchangeResults codec client server = (client', server', true) ∧
      server'.streams = server.streams.map
        (Stream.absorbAll (client.streams.map (Stream.shown client.test f))) ∧
      client'.streams = client.streams.map
        (Stream.absorbAll (server'.streams.map (Stream.shown server'.test f'))) ∧
      server'.test.mode = server.test.mode ∧
      (server.test.mode ≠ .receiver →
        server'.test.senderHasRetransmits = server.test.senderHasRetransmits) := by
  have hclientKnown : KnownStreams client.streams server.streams := fun sp hsp =>
    ⟨hpaired.client_int sp hsp,
      (hpaired.same_ids sp.id).mp (List.mem_map_of_mem hsp)⟩
  obtain ⟨server', hserver, hstreams, -, hmode, hflag⟩ :=
    getResults_sendResults hf hpaired.server_nodup hclientKnown
  have hafter : serverAfterReading codec client server = server' := by
    rw [serverAfterReading, hto, hserver]
  have hserverKnown : KnownStreams server'.streams client.streams := by
    intro sp hsp
    have hid : sp.id ∈ server.streams.map (·.id) := by
      rw [← map_id_absorbAll, ← hstreams]
      exact List.mem_map_of_mem hsp
    have hclientId := (hpaired.same_ids sp.id).mpr hid
    obtain ⟨peer, hpeer, heq⟩ := List.mem_map.mp hclientId
    exact ⟨heq ▸ hpaired.client_int peer hpeer, hclientId⟩
  obtain ⟨client', hclient, hstreams', -, -, -⟩ :=
    getResults_sendResults hf' hpaired.client_nodup hserverKnown
  rw [hafter] at hfrom
  refine ⟨client', server', ?_, hstreams, hstreams', hmode, hflag⟩
  unfold exchangeResults
  simp only [hto, hserver, hfrom, hclient]
  rfl

def oneStreamSide (t : Test) (sp : Stream) : TestSide where
  test := t
  cpuUtil := (0, 0, 0)
  remoteCpuUtil := (0, 0, 0)
  jsonOutput := false
  jsonTop := .null
  serverOutputList := []
  jsonServerOutput := none
  serverOutputText := none
  streams := [sp]

def sentStream (bytesSent bytesSentOmit : ℕ) : Stream :=
  let sp := iperfNewStream true []
  { sp with
    id := 1
    packetCount := 2
    result := { sp.result with
      bytesSent := bytesSent, bytesSentOmit := bytesSentOmit } }

def receivedStream (bytesReceived bytesSentOmit : ℕ) : Stream :=
  let sp := iperfNewStream false []
  { sp with
    id := 1
    packetCount := 2
    result := { sp.result with
      bytesReceived := bytesReceived, bytesSentOmit := bytesSentOmit } }

/-- A client with one finished sending stream. -/
def oneStreamClient (bytesSent bytesSentOmit : ℕ) : TestSide :=
  oneStreamSide
    { iperfNewTest with role := .client, mode := .sender, congestionUsed := some "cubic" }
    (sentStream bytesSent bytesSentOmit)

/-- A server with the receiving end of that stream. -/
def oneStreamServer (bytesReceived bytesSentOmit : ℕ) : TestSide :=
  oneStreamSide
    { iperfNewTest with role := .server, mode := .receiver }
    (receivedStream bytesReceived bytesSentOmit)

def cpuText : String :=
  "\x7b\"cpu_util_total\":0,\"cpu_util_user\":0,\"cpu_util_system\":0,\"sender_has_retransmits\":"

def streamText : String := ",\"streams\":[\x7b\"id\":1,\"bytes\":"

def lossText : String := ",\"retransmits\":-1,\"jitter\":0,\"errors\":0,\"omitted_errors\":0,"

def timesText : String :=
  "\"packets\":2,\"omitted_packets\":0,\"start_time\":0,\"end_time\":0\x7d]\x7d"

def resultsText (flags bytes : String) : List UInt8 :=
  asciiBytes cpuText ++
    (asciiBytes flags ++ asciiBytes (streamText ++ bytes ++ lossText ++ timesText))

def clientText : String → List UInt8 :=
  resultsText "0,\"congestion_used\":\"cubic\""

def serverText : String → List UInt8 :=
  resultsText "-1"

/-- Two texts that frames can carry and that differ. -/
def TwoTexts (sent received : String) : Prop :=
  (0 < (clientText sent).length ∧ (clientText sent).length < 4294967296) ∧
    (0 < (serverText received).length ∧ (serverText received).length < 4294967296) ∧
    serverText received ≠ clientText sent

theorem twoTexts_of_length
    {sent received : String} (hsent : sent.length < 100) (hreceived : received.length < 100) :
    TwoTexts sent received := by
  have hlength : ∀ flags bytes : String, flags.length < 100 → bytes.length < 100 →
      0 < (resultsText flags bytes).length ∧
        (resultsText flags bytes).length < 4294967296 := by
    intro flags bytes hflags hbytes
    have hcpu : cpuText.length < 100 ∧ 0 < cpuText.length := by decide
    have hstream : streamText.length < 100 := by decide
    have hloss : lossText.length < 100 := by decide
    have htimes : timesText.length < 100 := by decide
    simp only [resultsText, asciiBytes, List.length_append, List.length_map,
      String.length_toList, String.length_append]
    omega
  refine ⟨hlength _ _ (by decide) hsent, hlength _ _ (by decide) hreceived, ?_⟩
  intro heq
  have htail := List.append_cancel_left heq
  simp [asciiBytes] at htail

def namesCongestion (j : Json) : Bool :=
  (j.getObjectItem .congestionUsed).isSome

/-- The texts of the two messages, of which only the client's names a
congestion algorithm. -/
def exchangeCodec (sent received : String) (client server : TestSide) : Codec :=
  Codec.ofTexts namesCongestion
    (clientText sent, sendResults client)
    (serverText received,
      sendResults (getResults (some ((sendResults client).mapNumbers id)) server).1)

/-- An exchange as the result messages allow it: paired streams, statistics
below `2 ^ 53`, and messages that the codec carries. -/
structure SmallExchange (codec : Codec) (client server : TestSide) : Prop where
  paired : PairedStreams client.streams server.streams
  small : ∀ sp ∈ client.streams ++ server.streams,
    sp.result.bytesReceived < 2 ^ 53 ∧ sp.result.bytesSent < 2 ^ 53 ∧
      sp.result.bytesSentOmit < 2 ^ 53 ∧ |sp.packetCount| < 2 ^ 53 ∧
      |sp.omittedPacketCount| < 2 ^ 53 ∧ |sp.cntError| < 2 ^ 53 ∧
      |sp.omittedCntError| < 2 ^ 53
  toServer : codec.Carries 0 (sendResults client)
  toClient : codec.Carries 0 (sendResults (serverAfterReading codec client server))

def ReportsAgree (codec : Codec) (client server : TestSide) : Prop :=
  ∀ sp ∈ (exchangeResults codec client server).1.streams,
    ∀ sp' ∈ (exchangeResults codec client server).2.1.streams,
      sp.id = sp'.id → sp.report = sp'.report

theorem absorbAll_singleton
    {sp peer : Stream} (t : Test) (hid : sp.id = peer.id) (hint : int32 peer.id = peer.id) :
    sp.absorbAll [peer.shown t id] = sp.absorb (peer.shown t id) := by
  have hsid : (peer.shown t id).sid = sp.id :=
    (reread_int32 (fun _ _ => rfl) hint).trans hid.symm
  simp [Stream.absorbAll, hsid]

theorem bytesSent_of_reportsAgree
    {codec : Codec} {client server : TestSide} {sp sp' : Stream}
    (hclient : client.streams = [sp]) (hserver : server.streams = [sp'])
    (hpaired : PairedStreams client.streams server.streams)
    (hid : sp.id = sp'.id) (hsender : sp.sender = true) (hreceiver : sp'.sender = false)
    (hto : (jsonRead codec 0 (jsonWrite codec (sendResults client))).1 =
      some ((sendResults client).mapNumbers id))
    (hfrom : (jsonRead codec 0 (jsonWrite codec
      (sendResults (serverAfterReading codec client server)))).1 =
        some ((sendResults (serverAfterReading codec client server)).mapNumbers id))
    (hagree : ReportsAgree codec client server) :
    uint64 (sp.result.bytesSent - sp.result.bytesSentOmit) =
      uint64 (uint64 (reread id (uint64 (sp.result.bytesSent - sp.result.bytesSentOmit))) -
        sp'.result.bytesSentOmit) := by
  obtain ⟨client', server', hexchange, hstreams, hstreams', -, -⟩ :=
    exchangeResults_eq hpaired (fun _ _ => rfl) (fun _ _ => rfl) hto hfrom
  have hint : int32 sp.id = sp.id := hpaired.client_int sp (by simp [hclient])
  rw [hclient, hserver] at hstreams
  simp only [List.map_cons, List.map_nil, absorbAll_singleton client.test hid.symm hint]
    at hstreams
  rw [hstreams, hclient] at hstreams'
  have hid' : sp.id = (sp'.absorb (sp.shown client.test id)).id := by
    rw [Stream.absorb_id, hid]
  simp only [List.map_cons, List.map_nil,
    absorbAll_singleton server'.test hid' (hid' ▸ hint)] at hstreams'
  unfold ReportsAgree at hagree
  rw [hexchange] at hagree
  have hreport := hagree _ (by rw [hstreams']; exact List.mem_singleton_self _) _
    (by rw [hstreams]; exact List.mem_singleton_self _) (by rw [Stream.absorb_id, ← hid'])
  have hbytes := congrArg StreamReport.bytesSent hreport
  have hleft : ∀ peer, (sp.absorb peer).report.bytesSent =
      uint64 (sp.result.bytesSent - sp.result.bytesSentOmit) := by
    intro peer
    rw [Stream.absorb, if_pos hsender]
    rfl
  have hright : (sp'.absorb (sp.shown client.test id)).report.bytesSent =
      uint64 (uint64 (reread id sp.bytesTransferred) - sp'.result.bytesSentOmit) := by
    rw [Stream.absorb, if_neg (by simp [hreceiver])]
    rfl
  rw [hleft, hright, Stream.bytesTransferred, if_pos hsender] at hbytes
  exact hbytes

section OneStream

variable (sent received : String) (bytesSent clientOmit bytesReceived serverOmit : ℕ)

/-- Both messages of the exchange are carried, with every number unchanged. -/
theorem exchangeCodec_reads
    (htexts : TwoTexts sent received) :
    let client := oneStreamClient bytesSent clientOmit
    let server := oneStreamServer bytesReceived serverOmit
    let codec := exchangeCodec sent received client server
    let reply := sendResults (serverAfterReading codec client server)
    (codec.Carries 0 (sendResults client) ∧ codec.Carries 0 reply) ∧
      (jsonRead codec 0 (jsonWrite codec (sendResults client))).1 =
        some ((sendResults client).mapNumbers id) ∧
      (jsonRead codec 0 (jsonWrite codec reply)).1 = some (reply.mapNumbers id) := by
  intro client server codec reply
  obtain ⟨hsent, hreceived, hne⟩ := htexts
  have hfirst : codec.print (sendResults client) = clientText sent ∧
      codec.parse (clientText sent) = some ((sendResults client).mapNumbers id) :=
    Codec.ofTexts_first rfl
  have hto : codec.Carries 0 (sendResults client) :=
    Codec.carries_of_text hfirst hsent.1 hsent.2 (Or.inl rfl)
  have htoRead := jsonRead_jsonWrite hto.2 []
  rw [hfirst.1, hfirst.2, List.append_nil] at htoRead
  have hreply : reply =
      sendResults (getResults (some ((sendResults client).mapNumbers id)) server).1 := by
    simp only [reply, serverAfterReading, htoRead]
  have hsecond : codec.print reply = serverText received ∧
      codec.parse (serverText received) = some (reply.mapNumbers id) := by
    rw [hreply]
    exact Codec.ofTexts_second rfl hne
  have hfrom : codec.Carries 0 reply :=
    Codec.carries_of_text hsecond hreceived.1 hreceived.2 (Or.inl rfl)
  have hfromRead := jsonRead_jsonWrite hfrom.2 []
  rw [hsecond.1, hsecond.2, List.append_nil] at hfromRead
  exact ⟨⟨hto, hfrom⟩, congrArg Prod.fst htoRead, congrArg Prod.fst hfromRead⟩

theorem oneStream_paired :
    PairedStreams (oneStreamClient bytesSent clientOmit).streams
      (oneStreamServer bytesReceived serverOmit).streams := by
  constructor <;>
    simp [oneStreamClient, oneStreamServer, oneStreamSide, sentStream, receivedStream,
      iperfNewStream, int32_eq]

theorem oneStream_smallExchange
    (htexts : TwoTexts sent received)
    (hbytesSent : bytesSent < 2 ^ 53) (hclientOmit : clientOmit < 2 ^ 53)
    (hbytesReceived : bytesReceived < 2 ^ 53) (hserverOmit : serverOmit < 2 ^ 53) :
    SmallExchange
      (exchangeCodec sent received (oneStreamClient bytesSent clientOmit)
        (oneStreamServer bytesReceived serverOmit))
      (oneStreamClient bytesSent clientOmit)
      (oneStreamServer bytesReceived serverOmit) := by
  have hreads := exchangeCodec_reads sent received bytesSent clientOmit bytesReceived
    serverOmit htexts
  refine ⟨oneStream_paired bytesSent clientOmit bytesReceived serverOmit, ?_,
    hreads.1.1, hreads.1.2⟩
  intro sp hsp
  rcases List.mem_append.mp hsp with hsp | hsp <;>
    obtain rfl := List.mem_singleton.mp hsp
  · simp only [sentStream, iperfNewStream]
    norm_num
    omega
  · simp only [receivedStream, iperfNewStream]
    norm_num
    omega

theorem oneStream_bytesSent_of_agree
    (htexts : TwoTexts sent received)
    (hagree : ReportsAgree
      (exchangeCodec sent received (oneStreamClient bytesSent clientOmit)
        (oneStreamServer bytesReceived serverOmit))
      (oneStreamClient bytesSent clientOmit)
      (oneStreamServer bytesReceived serverOmit)) :
    uint64 ((bytesSent : ℤ) - clientOmit) =
      uint64 (uint64 (reread id (uint64 ((bytesSent : ℤ) - clientOmit))) - serverOmit) := by
  have hreads := exchangeCodec_reads sent received bytesSent clientOmit bytesReceived
    serverOmit htexts
  have hpaired := oneStream_paired bytesSent clientOmit bytesReceived serverOmit
  have hclient : (oneStreamClient bytesSent clientOmit).streams =
      [sentStream bytesSent clientOmit] := rfl
  have hserver : (oneStreamServer bytesReceived serverOmit).streams =
      [receivedStream bytesReceived serverOmit] := rfl
  exact bytesSent_of_reportsAgree hclient hserver hpaired rfl rfl rfl hreads.2.1 hreads.2.2
    hagree

end OneStream

theorem not_agree_of_receiver_omit :
    ¬ ReportsAgree
      (exchangeCodec "3000" "3000" (oneStreamClient 3000 0) (oneStreamServer 3000 1000))
      (oneStreamClient 3000 0) (oneStreamServer 3000 1000) := by
  intro hagree
  have hbytes := oneStream_bytesSent_of_agree "3000" "3000" 3000 0 3000 1000
    (twoTexts_of_length (by decide) (by decide)) hagree
  have hsent : uint64 (((3000 : ℕ) : ℤ) - ((0 : ℕ) : ℤ)) = 3000 := by decide
  rw [hsent, reread_uint64 (fun _ _ => rfl) (by decide)] at hbytes
  exact absurd hbytes (by decide)

theorem not_agree_of_sender_omit :
    ¬ ReportsAgree
      (exchangeCodec "1.8446744073709552e+19" "0" (oneStreamClient 0 1)
        (oneStreamServer 0 0))
      (oneStreamClient 0 1) (oneStreamServer 0 0) := by
  intro hagree
  have hbytes := oneStream_bytesSent_of_agree "1.8446744073709552e+19" "0" 0 1 0 0
    (twoTexts_of_length (by decide) (by decide)) hagree
  have hsent : uint64 (((0 : ℕ) : ℤ) - ((1 : ℕ) : ℤ)) = 18446744073709551615 := by
    decide
  rw [hsent] at hbytes
  have hbounds := reread_id_bounds (n := ((18446744073709551615 : ℕ) : ℤ)) (by norm_num)
  rw [uint64_eq, uint64_eq] at hbytes
  omega

end Iperf3
