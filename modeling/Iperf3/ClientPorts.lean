import Iperf3.ServerStart

/-!
# The local ports of a client's data streams

With `--cport` every data stream is bound to a port of its own, counted up
from the one that was given.  `createStreams` follows `iperf_create_streams`;
what happens to each socket is an input of the call.  The sum that a stream
asks for is a C `int`, and the socket layer keeps its low 16 bits.
-/

namespace Iperf3

open MachineInt

/-- The port in `bind_port` after the option loop has accepted these options;
0 stands for none. -/
def bindPortOf (opts : List Opt) : ℤ :=
  opts.foldl (fun port o =>
    match o with
    | .clientPort given => given
    | _ => port) 0

/-- A port that a socket can be bound to. -/
structure BoundPort where
  number : ℕ
  positive : 1 ≤ number
  small : number ≤ 65535
  deriving DecidableEq

inductive ConnectOutcome where
  -- No socket: the bind, the connect or the handshake failed.
  | refused
  -- A socket, but the congestion algorithm or the new stream failed.
  | dropped
  -- A stream.  The port is the system's choice where none is asked for.
  | connected (chosen : BoundPort)

structure LocalStream where
  sender : Bool
  localPort : ℕ
  deriving DecidableEq, Repr

structure StreamCreation where
  numStreams : ℤ
  mode : Mode
  bindPort : ℤ
  streams : List LocalStream
  deriving DecidableEq, Repr

def StreamCreation.start (opts : List Opt) (t : Test) : StreamCreation :=
  ⟨t.numStreams, t.mode, bindPortOf opts, []⟩

namespace StreamCreation

/-- The port a socket ends up with when `create_socket` is asked for one. -/
def socketPort (localPort : ℤ) (chosen : BoundPort) : ℕ :=
  -- Without a port there is no bind; a bind to port 0 leaves the choice open.
  if localPort = 0 ∨ unsigned 16 localPort = 0 then chosen.number
  else unsigned 16 localPort

/-- `bind_port` while stream `i` is connected. -/
def askedPort (orig : ℤ) (sender : Bool) (i : ℕ) (c : StreamCreation) : ℤ :=
  if orig = 0 then orig
  else if sender = false ∧ c.mode = .bidirectional then
    int32 (int32 (orig + i) + c.numStreams)
  else int32 (orig + i)

/-- The rest of the loop from stream `i` on. -/
def createFrom (orig : ℤ) (sender : Bool) (outcomes : ℕ → ConnectOutcome) :
    ℕ → ℕ → StreamCreation → StreamCreation × Bool
  | 0, _, c => (c, true)
  | left + 1, i, c =>
      let asking := { c with bindPort := c.askedPort orig sender i }
      let asked := { asking with bindPort := orig }
      match outcomes i with
      | .refused => (asked, false)
      | .dropped => (asked, false)
      | .connected chosen =>
          createFrom orig sender outcomes left (i + 1) { asked with
            streams := asked.streams ++ [⟨sender, socketPort asking.bindPort chosen⟩] }

/-- `iperf_create_streams` for one direction. -/
def createStreams (sender : Bool) (outcomes : ℕ → ConnectOutcome) (c : StreamCreation) :
    StreamCreation × Bool :=
  c.createFrom c.bindPort sender outcomes c.numStreams.toNat 0

/-- What the client does in the state `CREATE_STREAMS`. -/
def createAll (outcomes : Bool → ℕ → ConnectOutcome) (c : StreamCreation) :
    StreamCreation × Bool :=
  match c.mode with
  | .bidirectional =>
      let sending := c.createStreams true (outcomes true)
      if sending.2 then sending.1.createStreams false (outcomes false) else sending
  | .sender => c.createStreams true (outcomes true)
  | .receiver => c.createStreams false (outcomes false)

/-- The ports `first`, `first + 1`, and so on, one for each stream. -/
def portRun (sender : Bool) (first count : ℕ) : List LocalStream :=
  (List.range count).map fun i => ⟨sender, first + i⟩

/-- The streams and ports that `--cport` is meant to give. -/
def intended (c : StreamCreation) : List LocalStream :=
  let port := c.bindPort.toNat
  let count := c.numStreams.toNat
  match c.mode with
  | .bidirectional => portRun true port count ++ portRun false (port + count) count
  | .sender => portRun true port count
  | .receiver => portRun false port count

structure AllocatesPorts (c : StreamCreation) : Prop where
  restored : ∀ (sender : Bool) (outcomes : ℕ → ConnectOutcome) (d : StreamCreation),
    d.bindPort = c.bindPort → (d.createStreams sender outcomes).1.bindPort = c.bindPort
  assigned : ∀ outcomes : Bool → ℕ → ConnectOutcome, (c.createAll outcomes).2 = true →
    (c.createAll outcomes).1.streams = c.streams ++ c.intended
  distinct : ∀ outcomes : Bool → ℕ → ConnectOutcome, (c.createAll outcomes).2 = true →
    ((c.createAll outcomes).1.streams.map LocalStream.localPort).Nodup
  inRange : ∀ outcomes : Bool → ℕ → ConnectOutcome, (c.createAll outcomes).2 = true →
    ∀ s ∈ (c.createAll outcomes).1.streams, 1 ≤ s.localPort ∧ s.localPort ≤ 65535

/-- How many ports the streams take. -/
def portsNeeded (c : StreamCreation) : ℤ :=
  if c.mode = .bidirectional then 2 * c.numStreams else c.numStreams

/-! ## One direction -/

theorem createFrom_frame
    (orig : ℤ) (sender : Bool) (outcomes : ℕ → ConnectOutcome) (left i : ℕ)
    (c : StreamCreation) :
    (c.createFrom orig sender outcomes left i).1.numStreams = c.numStreams ∧
      (c.createFrom orig sender outcomes left i).1.mode = c.mode := by
  induction left generalizing i c with
  | zero => exact ⟨rfl, rfl⟩
  | succ left ih =>
      unfold createFrom
      cases outcomes i with
      | refused => exact ⟨rfl, rfl⟩
      | dropped => exact ⟨rfl, rfl⟩
      | connected chosen => exact ih _ _

theorem createFrom_bindPort
    {orig : ℤ} (sender : Bool) (outcomes : ℕ → ConnectOutcome) (left i : ℕ)
    {c : StreamCreation} (horig : c.bindPort = orig) :
    (c.createFrom orig sender outcomes left i).1.bindPort = orig := by
  induction left generalizing i c with
  | zero => exact horig
  | succ left ih =>
      unfold createFrom
      cases outcomes i with
      | refused => rfl
      | dropped => rfl
      | connected chosen => exact ih _ rfl

theorem createStreams_bindPort
    (sender : Bool) (outcomes : ℕ → ConnectOutcome) (c : StreamCreation) :
    (c.createStreams sender outcomes).1.bindPort = c.bindPort :=
  createFrom_bindPort sender outcomes _ 0 rfl

theorem createFrom_connected
    (orig : ℤ) (sender : Bool) (chosen : BoundPort) (left i : ℕ) (c : StreamCreation) :
    (c.createFrom orig sender (fun _ => .connected chosen) left i).2 = true := by
  induction left generalizing i c with
  | zero => rfl
  | succ left ih => exact ih _ _

theorem socketPort_of_mem
    {port : ℕ} (hpositive : 1 ≤ port) (hsmall : port ≤ 65535) (chosen : BoundPort) :
    socketPort port chosen = port := by
  have hlow : unsigned 16 (port : ℤ) = port := by
    unfold unsigned
    omega
  unfold socketPort
  rw [hlow, if_neg (by omega)]

/-- While the streams ask for the ports of a run inside the range, they get
them. -/
theorem createFrom_streams
    {orig : ℤ} {sender : Bool} {first count : ℕ} {outcomes : ℕ → ConnectOutcome}
    {left i : ℕ} {c : StreamCreation} (hcount : i + left = count)
    (hfirst : 1 ≤ first) (hlast : first + count ≤ 65536)
    (hasked : ∀ j < count, c.askedPort orig sender j = ((first + j : ℕ) : ℤ))
    (hok : (c.createFrom orig sender outcomes left i).2 = true) :
    (c.createFrom orig sender outcomes left i).1.streams =
      c.streams ++ portRun sender (first + i) left := by
  induction left generalizing i c with
  | zero => simp [createFrom, portRun]
  | succ left ih =>
      unfold createFrom at hok ⊢
      cases houtcome : outcomes i with
      | refused =>
          rw [houtcome] at hok
          cases hok
      | dropped =>
          rw [houtcome] at hok
          cases hok
      | connected chosen =>
          rw [houtcome] at hok
          have hport : socketPort (c.askedPort orig sender i) chosen = first + i := by
            rw [hasked i (by omega)]
            exact socketPort_of_mem (by omega) (by omega) chosen
          let next : StreamCreation := { c with
            bindPort := orig
            streams := c.streams ++
              [⟨sender, socketPort (c.askedPort orig sender i) chosen⟩] }
          have hrest := ih (i := i + 1) (c := next) (by omega) hasked hok
          have hrun : portRun sender (first + i) (left + 1) =
              ⟨sender, first + i⟩ :: portRun sender (first + (i + 1)) left := by
            simp only [portRun, List.range_succ_eq_map, List.map_cons, List.map_map,
              Function.comp_def, Nat.add_zero, Nat.succ_eq_add_one]
            congr 2
            funext j
            congr 1
            omega
          change (next.createFrom orig sender outcomes left (i + 1)).1.streams = _
          rw [hrest, hrun]
          change (c.streams ++ [_]) ++ _ = _
          rw [hport, List.append_assoc]
          rfl

theorem portRun_ports (sender : Bool) (first count : ℕ) :
    (portRun sender first count).map LocalStream.localPort = List.range' first count := by
  rw [portRun, List.map_map, List.range'_eq_map_range]
  rfl

/-! ## All directions -/

/-- The counts for which no sum leaves the width of an `int`. -/
structure Accepted (c : StreamCreation) : Prop where
  bindPort_pos : 1 ≤ c.bindPort
  bindPort_le : c.bindPort ≤ 65535
  numStreams_le : c.numStreams ≤ 128

/-- The first port of a direction. -/
def firstPort (sender : Bool) (c : StreamCreation) : ℕ :=
  if sender = false ∧ c.mode = .bidirectional then
    c.bindPort.toNat + c.numStreams.toNat
  else c.bindPort.toNat

theorem Accepted.askedPort
    {c : StreamCreation} (h : c.Accepted) (sender : Bool) {j : ℕ}
    (hj : j < c.numStreams.toNat) :
    c.askedPort c.bindPort sender j = ((c.firstPort sender + j : ℕ) : ℤ) := by
  obtain ⟨hpos, hle, hcount⟩ := h
  have hsum : int32 (c.bindPort + j) = c.bindPort + j :=
    int32_of_mem (by omega) (by omega)
  have hshifted : int32 (c.bindPort + j + c.numStreams) = c.bindPort + j + c.numStreams :=
    int32_of_mem (by omega) (by omega)
  unfold StreamCreation.askedPort firstPort
  rw [if_neg (by omega), hsum, hshifted]
  split_ifs <;> omega

/-- One direction gets the ports of its run. -/
theorem Accepted.createStreams
    {c : StreamCreation} (h : c.Accepted) {sender : Bool} {outcomes : ℕ → ConnectOutcome}
    (hlast : c.firstPort sender + c.numStreams.toNat ≤ 65536)
    (hok : (c.createStreams sender outcomes).2 = true) :
    (c.createStreams sender outcomes).1.streams =
      c.streams ++ portRun sender (c.firstPort sender) c.numStreams.toNat := by
  have hfirst : 1 ≤ c.firstPort sender := by
    have hpos := h.bindPort_pos
    unfold firstPort
    split_ifs <;> omega
  exact createFrom_streams (by omega) hfirst hlast (fun j hj => h.askedPort sender hj) hok

theorem Accepted.assigned
    {c : StreamCreation} (h : c.Accepted) (hneeded : c.bindPort + c.portsNeeded - 1 ≤ 65535)
    {outcomes : Bool → ℕ → ConnectOutcome} (hok : (c.createAll outcomes).2 = true) :
    (c.createAll outcomes).1.streams = c.streams ++ c.intended := by
  have hpos := h.bindPort_pos
  have hle := h.bindPort_le
  unfold portsNeeded at hneeded
  unfold createAll at hok ⊢
  unfold intended
  cases hmode : c.mode with
  | sender =>
      rw [hmode] at hok hneeded
      have hport : c.firstPort true = c.bindPort.toNat := rfl
      have hrun := h.createStreams (by rw [hport]; omega) hok
      rw [hport] at hrun
      exact hrun
  | receiver =>
      rw [hmode] at hok hneeded
      have hport : c.firstPort false = c.bindPort.toNat := by
        simp [firstPort, hmode]
      have hrun := h.createStreams (by rw [hport]; omega) hok
      rw [hport] at hrun
      exact hrun
  | bidirectional =>
      rw [hmode] at hok hneeded
      rw [if_pos rfl] at hneeded
      have hport : c.firstPort true = c.bindPort.toNat := rfl
      cases hsending : (c.createStreams true (outcomes true)).2 with
      | false =>
          simp [hsending] at hok
      | true =>
          simp only [hsending, if_true] at hok ⊢
          have hrun := h.createStreams (by rw [hport]; omega) hsending
          rw [hport] at hrun
          -- The sending direction hands over everything but its streams.
          obtain ⟨hstreams, hsame⟩ := createFrom_frame c.bindPort true (outcomes true)
            c.numStreams.toNat 0 c
          have hbind := createStreams_bindPort true (outcomes true) c
          change (c.createStreams true (outcomes true)).1.numStreams = _ at hstreams
          change (c.createStreams true (outcomes true)).1.mode = _ at hsame
          generalize (c.createStreams true (outcomes true)).1 = d at *
          have hd : d.Accepted := ⟨by omega, by omega, hstreams ▸ h.numStreams_le⟩
          have hsecond : d.firstPort false = c.bindPort.toNat + c.numStreams.toNat := by
            simp [firstPort, hsame, hmode, hstreams, hbind]
          have hback := hd.createStreams (by rw [hsecond, hstreams]; omega) hok
          rw [hback, hrun, hsecond, hstreams, List.append_assoc]

theorem createAll_connected (chosen : BoundPort) (c : StreamCreation) :
    (c.createAll fun _ _ => .connected chosen).2 = true := by
  have hdirection : ∀ (sender : Bool) (d : StreamCreation),
      (d.createStreams sender fun _ => .connected chosen).2 = true :=
    fun sender d => createFrom_connected _ sender chosen _ 0 d
  unfold createAll
  cases c.mode with
  | sender => exact hdirection true c
  | receiver => exact hdirection false c
  | bidirectional =>
      simp only [hdirection, if_true]

theorem intended_ports (c : StreamCreation) :
    c.intended.map LocalStream.localPort =
      List.range' c.bindPort.toNat c.portsNeeded.toNat := by
  unfold intended portsNeeded
  cases c.mode with
  | sender => exact portRun_ports true _ _
  | receiver => exact portRun_ports false _ _
  | bidirectional =>
      have hsum : (2 * c.numStreams).toNat = c.numStreams.toNat + c.numStreams.toNat := by
        omega
      rw [if_pos rfl, List.map_append, portRun_ports, portRun_ports, hsum,
        ← List.range'_append_1]

/-- The ports come out as meant exactly when the last one is a port. -/
theorem allocatesPorts_iff
    {c : StreamCreation} (h : c.Accepted) (hempty : c.streams = []) :
    c.AllocatesPorts ↔ c.numStreams ≤ 0 ∨ c.bindPort + c.portsNeeded - 1 ≤ 65535 := by
  have hpos := h.bindPort_pos
  have hle := h.bindPort_le
  have hneeded : c.numStreams ≤ c.portsNeeded ∨ c.portsNeeded ≤ 0 := by
    unfold portsNeeded
    split_ifs <;> omega
  have hnone : c.numStreams ≤ 0 ↔ c.portsNeeded ≤ 0 := by
    unfold portsNeeded
    split_ifs <;> omega
  rw [hnone]
  constructor
  · intro hports
    by_contra hcontra
    obtain ⟨hsome, hlast⟩ := not_or.mp hcontra
    let chosen : BoundPort := ⟨49152, by omega, by omega⟩
    have hok := createAll_connected chosen c
    have hstreams := hports.assigned _ hok
    have hrange := hports.inRange _ hok
    rw [hstreams, hempty, List.nil_append] at hrange
    -- The last stream was meant to have a port behind the range.
    have hmem : (c.bindPort + c.portsNeeded - 1).toNat ∈
        c.intended.map LocalStream.localPort := by
      rw [intended_ports, List.mem_range'_1]
      omega
    obtain ⟨s, hs, hport⟩ := List.mem_map.mp hmem
    have hsmall := (hrange s hs).2
    omega
  · intro hcondition
    have hlast : c.bindPort + c.portsNeeded - 1 ≤ 65535 := by omega
    have hassigned : ∀ outcomes : Bool → ℕ → ConnectOutcome,
        (c.createAll outcomes).2 = true →
          (c.createAll outcomes).1.streams = c.intended := by
      intro outcomes hok
      rw [h.assigned hlast hok, hempty, List.nil_append]
    refine ⟨?_, fun outcomes hok => h.assigned hlast hok, ?_, ?_⟩
    · intro sender outcomes d hd
      rw [createStreams_bindPort, hd]
    · intro outcomes hok
      rw [hassigned outcomes hok, intended_ports]
      exact List.nodup_range' 1
    · intro outcomes hok s hs
      rw [hassigned outcomes hok] at hs
      have hmem := List.mem_map_of_mem (f := LocalStream.localPort) hs
      rw [intended_ports, List.mem_range'_1] at hmem
      omega

end StreamCreation

/-! ## The accepted command line -/

theorem bindPortOf_given
    (opts : List Opt) : bindPortOf opts = 0 ∨ .clientPort (bindPortOf opts) ∈ opts := by
  induction opts using List.reverseRecOn with
  | nil => exact Or.inl rfl
  | append_singleton opts o ih =>
      have hlast : bindPortOf (opts ++ [o]) = bindPortOf opts ∨
          o = .clientPort (bindPortOf (opts ++ [o])) := by
        unfold bindPortOf
        rw [List.foldl_append]
        cases o with
        | clientPort given => exact Or.inr rfl
        | _ => exact Or.inl rfl
      rcases hlast with hkept | hgiven
      · rw [hkept]
        exact ih.imp_right fun h => List.mem_append_left _ h
      · refine Or.inr (List.mem_append_right _ ?_)
        rw [← hgiven]
        exact List.mem_singleton_self o

theorem parseOptions_clientPort
    {b : Build} {opts : List Opt} {p final : ParseState}
    (hrun : opts.foldlM (parseOption b) p = .ok final) {given : ℤ}
    (hgiven : .clientPort given ∈ opts) : 1 ≤ given ∧ given ≤ 65535 := by
  induction opts generalizing p with
  | nil => cases hgiven
  | cons o opts ih =>
      rw [List.foldlM_cons] at hrun
      cases hnext : parseOption b p o with
      | error e =>
          rw [hnext] at hrun
          cases hrun
      | ok next =>
          rw [hnext] at hrun
          rcases List.mem_cons.mp hgiven with rfl | hlater
          · simp only [parseOption, refuse] at hnext
            split_ifs at hnext with hrange
            simp only [Bool.or_eq_true, decide_eq_true_eq] at hrange
            omega
          · exact ih hrun hlater

@[simp]
theorem checkSenderHasRetransmits_numStreams (b : Build) (t : Test) :
    (t.checkSenderHasRetransmits b).numStreams = t.numStreams := by
  unfold Test.checkSenderHasRetransmits
  split_ifs <;> rfl

@[simp]
theorem setProtocol_numStreams (b : Build) (id : ProtocolId) (t : Test) :
    (t.setProtocol b id).numStreams = t.numStreams := by
  unfold Test.setProtocol
  split_ifs
  · exact checkSenderHasRetransmits_numStreams b _
  · rfl

@[simp]
theorem setTestBidirectional_numStreams (b : Build) (bidirectional : ℤ) (t : Test) :
    (t.setTestBidirectional b bidirectional).numStreams = t.numStreams := by
  unfold Test.setTestBidirectional
  split_ifs
  · rfl
  · exact checkSenderHasRetransmits_numStreams b _

@[simp]
theorem setTestRole_numStreams (b : Build) (role : Role) (t : Test) :
    (t.setTestRole b role).numStreams = t.numStreams :=
  checkSenderHasRetransmits_numStreams b _

@[simp]
theorem setTestReverse_numStreams (b : Build) (reverse : ℤ) (t : Test) :
    (t.setTestReverse b reverse).numStreams = t.numStreams :=
  checkSenderHasRetransmits_numStreams b _

theorem parseBitrate_numStreams
    {p next : ParseState} {rate : ℕ} {burst : Option ℤ}
    (h : parseBitrate p rate burst = .ok next) :
    next.test.numStreams = p.test.numStreams := by
  unfold parseBitrate refuse at h
  split_ifs at h
  obtain rfl := Except.ok.inj h
  rfl

theorem numStreams_le_step
    {b : Build} {p next : ParseState} {o : Opt} (hp : p.test.numStreams ≤ maxStreams)
    (h : parseOption b p o = .ok next) : next.test.numStreams ≤ maxStreams := by
  cases o with
  | parallel count =>
      simp only [parseOption, refuse] at h
      split_ifs at h with hmax
      obtain rfl := Except.ok.inj h
      exact not_lt.mp hmax
  | other scope => cases scope <;> cases h <;> exact hp
  | nstreams rate burst => exact (parseBitrate_numStreams h).trans_le hp
  | bitrate rate burst => exact (parseBitrate_numStreams h).trans_le hp
  | server | client | sctp | reverse | bidir | mptcp =>
      simp only [parseOption, refuse] at h
      split_ifs at h
      obtain rfl := Except.ok.inj h
      simpa only [ParseState.clientOnly, setTestRole_numStreams, setProtocol_numStreams,
        setTestReverse_numStreams, setTestBidirectional_numStreams] using hp
  | udp =>
      obtain rfl := Except.ok.inj h
      exact (setProtocol_numStreams b .udp p.test).trans_le hp
  | pacingTimer usecs =>
      obtain ⟨timer, htimer⟩ : ∃ n, n = int32 usecs := ⟨_, rfl⟩
      simp only [parseOption, ← htimer] at h
      obtain rfl := Except.ok.inj h
      exact hp
  | affinity server =>
      cases server <;> simp only [parseOption, refuse] at h <;> split_ifs at h <;>
        obtain rfl := Except.ok.inj h <;> exact hp
  | _ =>
      simp only [parseOption, refuse] at h
      try split_ifs at h
      all_goals
        obtain rfl := Except.ok.inj h
        exact hp

/-- An accepted command line with `--cport`. -/
theorem accepted_start
    {b : Build} {fileSize : Option ℕ} {opts : List Opt} {t : Test}
    (hparse : parseArguments b fileSize opts (iperfStart b) = .ok t)
    (hport : bindPortOf opts ≠ 0) : (StreamCreation.start opts t).Accepted := by
  obtain ⟨p, hrun, -, -, -, rfl⟩ := parseArguments_ok hparse
  have hgiven := (bindPortOf_given opts).resolve_left hport
  have hrange := parseOptions_clientPort hrun hgiven
  have hinitial : (1 : ℤ) ≤ maxStreams := by decide
  have hcount : p.test.numStreams ≤ maxStreams :=
    parseOptions_invariant (P := fun p => p.test.numStreams ≤ maxStreams)
      (fun hp hstep => numStreams_le_step hp hstep) hinitial hrun
  have hkept : (applyStatsPerInterval
      (applyEndConditions p fileSize (applyBlksize p))).numStreams = p.test.numStreams := by
    unfold applyStatsPerInterval
    split_ifs <;> rfl
  exact ⟨hrange.1, hrange.2, hkept.trans_le hcount⟩

/-- With `--cport` the streams of an accepted command line get the ports they
are meant to have exactly when there is no stream or the last of them still is
a port. -/
theorem client_ports_iff
    {b : Build} {fileSize : Option ℕ} {opts : List Opt} {t : Test}
    (hparse : parseArguments b fileSize opts (iperfStart b) = .ok t)
    (hport : bindPortOf opts ≠ 0) :
    (StreamCreation.start opts t).AllocatesPorts ↔
      t.numStreams ≤ 0 ∨
        bindPortOf opts + (StreamCreation.start opts t).portsNeeded - 1 ≤ 65535 :=
  StreamCreation.allocatesPorts_iff (accepted_start hparse hport) rfl

theorem client_ports_bidirectional :
    ∃ t, parseArguments .msvc none [.client, .clientPort 5201, .parallel 2, .bidir]
        (iperfStart .msvc) = .ok t ∧
      (StreamCreation.start [.client, .clientPort 5201, .parallel 2, .bidir] t).AllocatesPorts := by
  obtain ⟨t, hparse, hcount, hmode⟩ : ∃ t,
      parseArguments .msvc none [.client, .clientPort 5201, .parallel 2, .bidir]
        (iperfStart .msvc) = .ok t ∧ t.numStreams = 2 ∧ t.mode = .bidirectional :=
    ⟨_, rfl, rfl, rfl⟩
  refine ⟨t, hparse, (client_ports_iff hparse (by decide)).mpr (Or.inr ?_)⟩
  have hneeded : (StreamCreation.start
      [.client, .clientPort 5201, .parallel 2, .bidir] t).portsNeeded = 4 := by
    simp [StreamCreation.portsNeeded, StreamCreation.start, hmode, hcount]
  rw [hneeded]
  decide

/-- Behind the last port the second stream asks for 65536, which is stored as
no port at all. -/
theorem client_ports_past_the_end :
    ∃ t, parseArguments .msvc none [.client, .clientPort 65535, .parallel 2]
        (iperfStart .msvc) = .ok t ∧
      ((StreamCreation.start [.client, .clientPort 65535, .parallel 2] t).createAll
          fun _ _ => .connected ⟨49152, by decide, by decide⟩) =
        (⟨2, .sender, 65535, [⟨true, 65535⟩, ⟨true, 49152⟩]⟩, true) ∧
      ¬ (StreamCreation.start [.client, .clientPort 65535, .parallel 2] t).AllocatesPorts := by
  obtain ⟨t, hparse, hcount, hmode⟩ : ∃ t,
      parseArguments .msvc none [.client, .clientPort 65535, .parallel 2]
        (iperfStart .msvc) = .ok t ∧ t.numStreams = 2 ∧ t.mode = .sender :=
    ⟨_, rfl, rfl, rfl⟩
  have hstart : StreamCreation.start [.client, .clientPort 65535, .parallel 2] t =
      ⟨2, .sender, 65535, []⟩ := by
    simp [StreamCreation.start, hcount, hmode, bindPortOf]
  have hrun : StreamCreation.createAll (fun _ _ => .connected ⟨49152, by decide, by decide⟩)
      ⟨2, .sender, 65535, []⟩ =
      (⟨2, .sender, 65535, [⟨true, 65535⟩, ⟨true, 49152⟩]⟩, true) := by
    decide
  refine ⟨t, hparse, ?_, ?_⟩
  · rw [hstart, hrun]
  · rw [hstart]
    intro hports
    have hassigned := hports.assigned (fun _ _ => .connected ⟨49152, by decide, by decide⟩)
    rw [hrun] at hassigned
    exact absurd (hassigned rfl) (by decide)

end Iperf3
