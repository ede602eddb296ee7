import Iperf3.Client
import Iperf3.ParameterRoundTrip
import Iperf3.ServerRuns
import Iperf3.WorkerLifetime
import Mathlib.Tactic

/-!
# The stream lists of the two sides

The client fills its list while it connects, in one or two passes of
`iperf_create_streams`; the server fills its own as it accepts, receiving
streams first.  Both number their streams by the length of the list.
-/

namespace Iperf3

/-! ## Numbered streams -/

/-- What tells the streams of a list apart. -/
def Stream.face (sp : Stream) : ℤ × Bool × List UInt8 := (sp.id, sp.sender, sp.buffer)

def streamNumber (i : ℕ) : ℤ := if i = 0 then 1 else i + 2

def numbered (ends : List (Bool × List UInt8)) : List (ℤ × Bool × List UInt8) :=
  ends.zipIdx.map fun (stream, i) => (streamNumber i, stream)

theorem streamNumber_inj {i j : ℕ} : streamNumber i = streamNumber j ↔ i = j := by
  unfold streamNumber
  split_ifs <;> omega

@[simp] theorem length_numbered (ends : List (Bool × List UInt8)) :
    (numbered ends).length = ends.length := by
  simp [numbered]

theorem numbered_append (ends : List (Bool × List UInt8)) (stream : Bool × List UInt8) :
    numbered (ends ++ [stream]) = numbered ends ++ [(streamNumber ends.length, stream)] := by
  simp [numbered, List.zipIdx_append]

theorem face_addStream
    {streams : List Stream} {ends : List (Bool × List UInt8)}
    (h : streams.map Stream.face = numbered ends) (sp : Stream) :
    (iperfAddStream streams sp).map Stream.face = numbered (ends ++ [(sp.sender, sp.buffer)]) := by
  have hlength : streams.length = ends.length := by simpa using congrArg List.length h
  have hnumber : (if streams.isEmpty then (1 : ℤ) else streams.length + 2) =
      streamNumber ends.length := by
    rw [← hlength, streamNumber]
    cases streams <;> simp
  rw [numbered_append, ← h, iperfAddStream, List.map_append, ← hnumber]
  rfl

theorem map_id_of_faces
    {streams : List Stream} {ends : List (Bool × List UInt8)}
    (h : streams.map Stream.face = numbered ends) :
    streams.map (·.id) = (List.range ends.length).map streamNumber := by
  have hids : streams.map (·.id) = (numbered ends).map Prod.fst := by
    rw [← h, List.map_map]
    rfl
  rw [hids, numbered, List.map_map, List.zipIdx_eq_zip_range', List.range_eq_range']
  have hzip : ((List.range' 0 ends.length).map streamNumber) =
      ((ends.zip (List.range' 0 ends.length)).map Prod.snd).map streamNumber := by
    rw [List.map_snd_zip (by simp)]
  rw [hzip, List.map_map]
  rfl

theorem map_ends_of_faces
    {streams : List Stream} {ends : List (Bool × List UInt8)}
    (h : streams.map Stream.face = numbered ends) :
    streams.map (fun sp => (sp.sender, sp.buffer)) = ends := by
  have hends : streams.map (fun sp => (sp.sender, sp.buffer)) =
      (numbered ends).map Prod.snd := by
    rw [← h, List.map_map]
    rfl
  rw [hends, numbered, List.map_map]
  exact List.zipIdx_map_fst 0 ends

theorem nodup_ids_of_faces
    {streams : List Stream} {ends : List (Bool × List UInt8)}
    (h : streams.map Stream.face = numbered ends) : (streams.map (·.id)).Nodup := by
  rw [map_id_of_faces h]
  exact List.nodup_range.map fun _ _ heq => streamNumber_inj.mp heq

/-! ## The client -/

theorem iperfCreateStreams_faces
    {error : ErrorCode} {directions : List Bool} {connections : List (List UInt8)} {c : Client}
    {ends : List (Bool × List UInt8)} (hc : c.streams.map Stream.face = numbered ends)
    (hok : (iperfCreateStreams error directions connections c).2 = true) :
    (iperfCreateStreams error directions connections c).1.streams.map Stream.face =
      numbered (ends ++ directions.zip connections) := by
  induction directions generalizing connections c ends with
  | nil => simpa [iperfCreateStreams] using hc
  | cons sender directions ih =>
      cases connections with
      | nil => simp [iperfCreateStreams] at hok
      | cons buffer connections =>
          have hadded := face_addStream hc (iperfNewStream sender buffer)
          have hrest := ih hadded hok
          rwa [List.append_assoc] at hrest

theorem handleMessageClient_createStreams_faces
    {c : Client} {env : ClientMessageEnv}
    (hread : env.read = .byte TestState.createStreams.toByte) (hc : c.streams = [])
    (hok : (handleMessageClient env c).2 = true) :
    (handleMessageClient env c).1.streams.map Stream.face =
      numbered (c.test.streamDirections.zip env.connections) := by
  have hbyte : TestState.ofByte TestState.createStreams.toByte = .createStreams :=
    TestState.ofByte_toByte_of_mem (by decide)
  have hstep : handleMessageClient env c =
      iperfCreateStreams env.streamError c.test.streamDirections env.connections
        ((c.log (.controlRead env.read)).enter .createStreams) := by
    simp only [handleMessageClient, hread, hbyte]
    rfl
  have hempty : ((c.log (.controlRead env.read)).enter .createStreams).streams.map Stream.face =
      numbered [] := by
    simp [Client.log, Client.enter, hc, numbered]
  rw [hstep] at hok ⊢
  exact iperfCreateStreams_faces hempty hok

/-! ## The server -/

/-- The directions of the streams that the server waits for, in their order. -/
def Server.directionsLeft (s : Server) : List Bool :=
  List.replicate (s.streamsToRec - s.recStreamsAccepted).toNat false ++
    List.replicate (s.streamsToSend - s.sendStreamsAccepted).toNat true

/-- A connection that is accepted and kept open. -/
def Server.admits (s : Server) (env : StreamEnv) : Bool :=
  protocolAccept env s = .socket false

/-- The server has a client and waits for its data connections. -/
structure Server.AwaitsStreams (s : Server) : Prop where
  ctrlSck : s.ctrlSck = true
  state : s.state = .createStreams
  streams : s.streams = []
  recStreamsAccepted : s.recStreamsAccepted = 0
  sendStreamsAccepted : s.sendStreamsAccepted = 0
  streamsToRec : s.streamsToRec = s.test.mode.streamsToRec s.test.numStreams
  streamsToSend : s.streamsToSend = s.test.mode.streamsToSend s.test.numStreams

/-- Between two data connections: the streams so far and the directions of
those to come. -/
structure Server.Joins (admits : StreamEnv → Bool) (ends : List (Bool × List UInt8))
    (directions : List Bool) (s : Server) : Prop where
  ctrlSck : s.ctrlSck = true
  state : s.state = .createStreams
  admits_eq : s.admits = admits
  rec_le : s.recStreamsAccepted ≤ s.streamsToRec
  send_le : s.sendStreamsAccepted ≤ s.streamsToSend
  left : s.directionsLeft = directions
  faces : s.streams.map Stream.face = numbered ends

section Server

variable {b : Build} {s : Server} {admits : StreamEnv → Bool} {ends : List (Bool × List UInt8)}
  {directions : List Bool} {sender : Bool}

/-- The server picks the first direction that is left and counts it off. -/
theorem Server.Joins.next (h : s.Joins admits ends (sender :: directions)) :
    s.nextSender = some sender ∧
      (s.countAccepted s.nextSender).recStreamsAccepted ≤ s.streamsToRec ∧
      (s.countAccepted s.nextSender).sendStreamsAccepted ≤ s.streamsToSend ∧
      (s.countAccepted s.nextSender).directionsLeft = directions := by
  obtain ⟨-, -, -, hrec, hsend, hleft, -⟩ := h
  unfold Server.directionsLeft at hleft
  by_cases hreceivers : s.recStreamsAccepted = s.streamsToRec
  · have hnext : s.nextSender =
        if s.sendStreamsAccepted ≠ s.streamsToSend then some true else none := by
      simp [Server.nextSender, hreceivers]
    by_cases hsenders : s.sendStreamsAccepted = s.streamsToSend
    · simp [hreceivers, hsenders] at hleft
    · obtain ⟨k, hk⟩ : ∃ k : ℕ, s.streamsToSend - s.sendStreamsAccepted = k + 1 :=
        ⟨(s.streamsToSend - s.sendStreamsAccepted - 1).toNat, by omega⟩
      have hcount : (s.streamsToSend - s.sendStreamsAccepted).toNat = k + 1 := by omega
      have hrest : (s.streamsToSend - (s.sendStreamsAccepted + 1)).toNat = k := by omega
      rw [if_pos hsenders] at hnext
      rw [hreceivers, sub_self, hcount, List.replicate_succ] at hleft
      obtain ⟨rfl, rfl⟩ : true = sender ∧ List.replicate k true = directions := by
        simpa using hleft
      refine ⟨hnext, ?_, ?_, ?_⟩
      · simpa [hnext, Server.countAccepted] using hrec
      · simp only [hnext, Server.countAccepted]
        omega
      · simp [hnext, Server.countAccepted, Server.directionsLeft, hreceivers, hrest]
  · have hnext : s.nextSender = some false := by
      simp [Server.nextSender, hreceivers]
    obtain ⟨k, hk⟩ : ∃ k : ℕ, s.streamsToRec - s.recStreamsAccepted = k + 1 :=
      ⟨(s.streamsToRec - s.recStreamsAccepted - 1).toNat, by omega⟩
    have hcount : (s.streamsToRec - s.recStreamsAccepted).toNat = k + 1 := by omega
    have hrest : (s.streamsToRec - (s.recStreamsAccepted + 1)).toNat = k := by omega
    rw [hcount, List.replicate_succ, List.cons_append, List.cons.injEq] at hleft
    obtain ⟨rfl, hdirections⟩ := hleft
    refine ⟨hnext, ?_, ?_, ?_⟩
    · simp only [hnext, Server.countAccepted]
      omega
    · simpa [hnext, Server.countAccepted] using hsend
    · simpa [hnext, Server.countAccepted, Server.directionsLeft, hrest] using hdirections

theorem Server.Joins.streamsComplete_iff (h : s.Joins admits ends directions) :
    s.streamsComplete = true ↔ directions = [] := by
  have hrec := h.rec_le
  have hsend := h.send_le
  rw [← h.left]
  simp only [Server.streamsComplete, Server.directionsLeft, Bool.and_eq_true, decide_eq_true_eq,
    List.append_eq_nil_iff, List.replicate_eq_nil_iff]
  omega

theorem newServerStream_joins
    {env : StreamEnv} (h : s.Joins admits ends (sender :: directions))
    (hok : (newServerStream env false s).2 = true) :
    ∃ buffer, env.buffer = some buffer ∧
      (newServerStream env false s).1.Joins admits (ends ++ [(sender, buffer)]) directions := by
  obtain ⟨hnext, hrec, hsend, hleft⟩ := h.next
  unfold newServerStream at hok ⊢
  rw [hnext] at hok hrec hsend hleft ⊢
  cases hbuffer : env.buffer with
  | none => simp [hbuffer] at hok
  | some buffer =>
      refine ⟨buffer, rfl, ?_⟩
      have hfaces := face_addStream h.faces (iperfNewStream sender buffer)
      cases sender
      · exact ⟨h.ctrlSck, h.state, h.admits_eq, hrec, hsend, hleft, hfaces⟩
      · exact ⟨h.ctrlSck, h.state, h.admits_eq, hrec, hsend, hleft, hfaces⟩

theorem Server.Joins.noteAccept (h : s.Joins admits ends directions) (closed : Bool) :
    (s.noteAccept (.socket closed)).Joins admits ends directions := by
  cases closed
  · exact ⟨h.ctrlSck, h.state, h.admits_eq, h.rec_le, h.send_le, h.left, h.faces⟩
  · exact h

theorem Server.Joins.noteCongestion (h : s.Joins admits ends directions) (name : Option String) :
    (s.noteCongestion b name).Joins admits ends directions := by
  unfold Server.noteCongestion
  split_ifs
  · exact ⟨h.ctrlSck, h.state, h.admits_eq, h.rec_le, h.send_le, h.left, h.faces⟩
  · exact h

theorem of_andThen {σ : Type} {f : σ → σ × Bool} {r : σ × Bool} (h : (andThen f r).2 = true) :
    r.2 = true ∧ andThen f r = f r.1 := by
  unfold andThen at h ⊢
  split_ifs at h ⊢ with hr
  · exact ⟨hr, rfl⟩
  · exact absurd h hr

theorem Server.check_of_ok {ok : Bool} {code : IErrno} (h : (s.check ok code).2 = true) :
    s.check ok code = (s, true) := by
  unfold Server.check at h ⊢
  split_ifs at h ⊢
  rfl

theorem Server.setUp_of_ok {error : Option ErrorCode} (h : (s.setUp b error).2 = true) :
    s.setUp b error = (s, true) := by
  unfold Server.setUp at h ⊢
  split at h
  · split_ifs at h ⊢
    rfl
  · rfl

/-- A socket that is kept open becomes the next stream; another one is
dropped, or it makes the call fail. -/
theorem acceptStream_joins
    {env : StreamEnv} (h : s.Joins admits ends (sender :: directions))
    (hok : (acceptStream b env s).2 = true) :
    (admits env = true ∧ ∃ buffer, env.buffer = some buffer ∧
        (acceptStream b env s).1.Joins admits (ends ++ [(sender, buffer)]) directions) ∨
      (admits env = false ∧
        (acceptStream b env s).1.Joins admits ends (sender :: directions)) := by
  have hadmits : admits env = decide (protocolAccept env s = .socket false) := by
    rw [← h.admits_eq]
    rfl
  unfold acceptStream at hok ⊢
  cases haccept : protocolAccept env s with
  | failed code => simp [haccept] at hok
  | socket closed =>
      simp only [haccept] at hok ⊢
      have hnoted := h.noteAccept closed
      obtain ⟨hchecked, hrest⟩ := of_andThen hok
      rw [hrest] at hok ⊢
      rw [Server.check_of_ok hchecked] at hok ⊢
      dsimp only at hok ⊢
      split_ifs at hok ⊢ with hdropped
      · have hclosed : closed = true := by
          simp only [isClosed, Bool.and_eq_true] at hdropped
          exact hdropped.1
        subst hclosed
        exact Or.inr ⟨by simp [hadmits, haccept], hnoted⟩
      · obtain ⟨hset, hrest⟩ := of_andThen hok
        rw [hrest] at hok ⊢
        rw [Server.setUp_of_ok hset] at hok ⊢
        have hjoins := hnoted.noteCongestion (b := b) env.congestionUsed
        cases closed with
        | false => exact Or.inl ⟨by simp [hadmits, haccept], newServerStream_joins hjoins hok⟩
        | true =>
            -- `iperf_new_stream` fails on a closed socket
            rw [newServerStream, hjoins.next.1] at hok
            cases hbuffer : env.buffer <;> simp [hbuffer] at hok

/-! ## The start of the test -/

/-- The streams are those of `ends`, whatever they have come to. -/
def HasFaces (ends : List (Bool × List UInt8)) (s : Server) : Prop :=
  s.streams.map Stream.face = numbered ends

theorem HasFaces.map
    (h : HasFaces ends s) {f : Stream → Stream} (hf : ∀ sp, (f sp).face = sp.face) :
    HasFaces ends { s with streams := s.streams.map f } := by
  unfold HasFaces at h ⊢
  rw [← h, List.map_map]
  exact List.map_congr_left fun sp _ => hf sp

theorem startTest_faces (env : StartEnv) :
    Triple (fun s => s.ctrlSck = true ∧ HasFaces ends s) (startTest env)
      (fun s => s.state ≠ .createStreams ∧ HasFaces ends s) (fun _ => True) := by
  have htimers : Keeps (fun s => s.ctrlSck = true ∧ HasFaces ends s)
      (fun s => createServerTimers env (s.stampStreams env.now)) := by
    intro s hs
    have hkeeps : Keeps (fun s => s.ctrlSck = true ∧ HasFaces ends s)
        (createServerTimers env) :=
      createServerTimers_keeps (fun _ _ _ h => h) (fun _ _ h => h) (fun _ _ _ h => h)
        (fun _ _ _ h => h) env
    exact hkeeps _ ⟨hs.1, hs.2.map fun _ => rfl⟩
  apply triple_startTest (N := fun s => s.ctrlSck = true ∧ HasFaces ends s)
    (T := fun s => s.ctrlSck = true ∧ HasFaces ends s) env
  · exact fun s hs _ => hs
  · exact fun _ _ _ => trivial
  · exact fun s hs => hs.1
  · exact fun _ _ => trivial
  · exact fun s hs => hs
  · exact fun _ _ => trivial
  · exact fun _ _ => trivial
  · exact (Triple.of_keeps htimers).weaken (fun _ h => h) (fun _ h => h) (fun _ _ => trivial)
  · exact fun s hs => hs.1
  · exact fun s hs => ⟨nofun, hs.2⟩
  · exact fun _ _ => trivial

theorem createWorkers_faces (env : StartEnv) :
    Triple (fun s => s.state ≠ .createStreams ∧ HasFaces ends s) (createWorkers env)
      (fun s => s.state ≠ .createStreams ∧ HasFaces ends s) (fun _ => True) := by
  apply triple_createWorkers env
  · rintro code - s ⟨hstate, hfaces⟩
    refine ⟨?_, hfaces.map fun _ => rfl⟩
    unfold Server.cleanupServer
    dsimp only [Server.log]
    split_ifs
    · exact nofun
    · exact hstate
  · rintro threads s ⟨hstate, hfaces⟩
    refine ⟨hstate, ?_⟩
    have hspawned : (s.spawn threads).streams.map Stream.face =
        (s.streams.zipIdx.map Prod.fst).map Stream.face := by
      unfold Server.spawn
      dsimp only [Server.log]
      rw [List.map_map, List.map_map]
      rfl
    unfold HasFaces at hfaces ⊢
    rw [hspawned, List.zipIdx_map_fst, hfaces]
  · exact fun _ _ => trivial

/-! ## The turns in which the streams are created -/

/-- The turns of the server until it leaves `CREATE_STREAMS`. -/
def joinStreams (b : Build) : List TurnEnv → Server → Server × Bool
  | [], s => (s, true)
  | env :: turns, s =>
      serverTurn b env s
      |> andThen (fun s =>
        if s.state = .createStreams then joinStreams b turns s else (s, true))

/-- In `CREATE_STREAMS` the listener of the control connections is not
looked at. -/
theorem serverTurn_createStreams
    {env : TurnEnv} (hstate : s.state = .createStreams) (hquiet : env.control = none) :
    serverTurn b env s = turnStreams b env s := by
  have hlistener : turnListener b (env.ready s) s = (s, true) := by
    unfold turnListener
    split
    · rw [if_pos hstate]
    · rfl
  have hcontrol : turnControl (env.ready s) s = (s, true) := by
    simp [turnControl, TurnEnv.ready, hquiet]
  have hdata : (env.ready s).data = env.data := by
    simp [TurnEnv.ready, hstate]
  unfold serverTurn
  rw [hlistener]
  simp only [andThen, if_true, hcontrol]
  unfold turnStreams turnData
  rw [hdata]
  rfl

theorem startTest_createWorkers_faces (env : StartEnv) (h : s.Joins admits ends [])
    (hok : (startTest env s |> andThen (createWorkers env)).2 = true) :
    (startTest env s |> andThen (createWorkers env)).1.state ≠ .createStreams ∧
      HasFaces ends (startTest env s |> andThen (createWorkers env)).1 :=
  (((startTest_faces env).andThen (createWorkers_faces env)) s ⟨h.ctrlSck, h.faces⟩).1 hok

theorem turnStreams_unjoined
    {env : TurnEnv} (h : s.Joins admits ends (sender :: directions))
    (hdata : ((turnData b env s).1.Joins admits ends (sender :: directions)))
    (hdataok : (turnData b env s).2 = true) :
    turnStreams b env s = ((turnData b env s).1, true) := by
  have hleft : (turnData b env s).1.streamsComplete = false := by
    rw [← Bool.not_eq_true, hdata.streamsComplete_iff]
    exact List.cons_ne_nil _ _
  unfold turnStreams
  rw [if_pos h.state, andThen, if_pos hdataok, if_neg (by simp [hleft])]

/-- In a turn a stream joins, and the test is started if it was the last one,
or nothing happens. -/
theorem serverTurn_joins
    {env : TurnEnv} (h : s.Joins admits ends (sender :: directions))
    (hquiet : env.control = none) (hok : (serverTurn b env s).2 = true) :
    (env.data.toList.filter admits = [] ∧
        (serverTurn b env s).1.Joins admits ends (sender :: directions)) ∨
      ∃ data buffer, env.data = some data ∧ admits data = true ∧ data.buffer = some buffer ∧
        ((directions ≠ [] ∧
            (serverTurn b env s).1.Joins admits (ends ++ [(sender, buffer)]) directions) ∨
          (directions = [] ∧ (serverTurn b env s).1.state ≠ .createStreams ∧
            HasFaces (ends ++ [(sender, buffer)]) (serverTurn b env s).1)) := by
  rw [serverTurn_createStreams h.state hquiet] at hok ⊢
  cases hdata : env.data with
  | none =>
      have hnothing : turnData b env s = (s, true) := by simp [turnData, hdata]
      rw [turnStreams_unjoined h (by rw [hnothing]; exact h) (by rw [hnothing]), hnothing]
      exact Or.inl ⟨rfl, h⟩
  | some data =>
      have htaken : turnData b env s = acceptStream b data s := by simp [turnData, hdata]
      have hparts := of_andThen (by rwa [turnStreams, if_pos h.state] at hok)
      rw [htaken] at hparts
      rcases acceptStream_joins h hparts.1 with ⟨hadmits, buffer, hbuffer, hjoins⟩ |
        ⟨hadmits, hjoins⟩
      · refine Or.inr ⟨data, buffer, rfl, hadmits, hbuffer, ?_⟩
        have hturn : turnStreams b env s =
            if (acceptStream b data s).1.streamsComplete then
              startTest env.start (acceptStream b data s).1 |> andThen (createWorkers env.start)
            else ((acceptStream b data s).1, true) := by
          rw [turnStreams, if_pos h.state, htaken, hparts.2]
        rw [hturn] at hok ⊢
        by_cases hlast : directions = []
        · subst hlast
          rw [if_pos (hjoins.streamsComplete_iff.mpr rfl)] at hok ⊢
          exact Or.inr ⟨rfl, startTest_createWorkers_faces env.start hjoins hok⟩
        · rw [if_neg (by rwa [hjoins.streamsComplete_iff])]
          exact Or.inl ⟨hlast, hjoins⟩
      · rw [← htaken] at hjoins hparts
        rw [turnStreams_unjoined h hjoins hparts.1]
        exact Or.inl ⟨by simp [hadmits], hjoins⟩

theorem joinStreams_faces
    {turns : List TurnEnv} {buffers : List (List UInt8)}
    (h : s.Joins admits ends directions) (hdirections : directions ≠ [])
    (hquiet : ∀ env ∈ turns, env.control = none)
    (haccepted : ((turns.filterMap (·.data)).filter admits).map (·.buffer) = buffers.map some)
    (hlength : buffers.length = directions.length) (hok : (joinStreams b turns s).2 = true) :
    HasFaces (ends ++ directions.zip buffers) (joinStreams b turns s).1 := by
  induction turns generalizing s ends directions buffers with
  | nil =>
      have hnone : directions = [] := by
        rw [← List.length_eq_zero_iff, ← hlength]
        simpa using haccepted
      exact absurd hnone hdirections
  | cons env turns ih =>
      obtain ⟨sender, directions, rfl⟩ := List.exists_cons_of_ne_nil hdirections
      have hquietTurn := hquiet env (by simp)
      have hquietRest : ∀ env ∈ turns, env.control = none :=
        fun env henv => hquiet env (List.mem_cons_of_mem _ henv)
      obtain ⟨hturn, hrest⟩ := of_andThen hok
      have hrun : joinStreams b (env :: turns) s =
          if (serverTurn b env s).1.state = .createStreams then
            joinStreams b turns (serverTurn b env s).1
          else ((serverTurn b env s).1, true) := hrest
      have hpending : (env.data.toList.filter admits ++
          (turns.filterMap (·.data)).filter admits).map (·.buffer) = buffers.map some := by
        rw [← List.filter_append, ← haccepted]
        cases hdata : env.data <;> simp [hdata]
      rw [hrun] at hok ⊢
      rcases serverTurn_joins h hquietTurn hturn with
        ⟨hnone, hjoins⟩ | ⟨data, buffer, hdata, hadmits, hbuffer, hjoined⟩
      · rw [hnone, List.nil_append] at hpending
        rw [if_pos hjoins.state] at hok ⊢
        exact ih hjoins hdirections hquietRest hpending hlength hok
      · have hfirst : env.data.toList.filter admits = [data] := by simp [hdata, hadmits]
        rw [hfirst] at hpending
        obtain ⟨first, buffers, rfl⟩ : ∃ first rest, buffers = first :: rest := by
          apply List.exists_cons_of_ne_nil
          rintro rfl
          simp at hpending
        simp only [List.singleton_append, List.map_cons, List.cons.injEq, hbuffer,
          Option.some.injEq] at hpending
        obtain ⟨rfl, hpending⟩ := hpending
        have hlength' : buffers.length = directions.length := by simpa using hlength
        rw [List.zip_cons_cons, List.append_cons]
        rcases hjoined with ⟨hmore, hjoins⟩ | ⟨hlast, hstate, hfaces⟩
        · rw [if_pos hjoins.state] at hok ⊢
          exact ih hjoins hmore hquietRest hpending hlength' hok
        · subst hlast
          rw [if_neg hstate]
          simpa using hfaces

/-! ## From the control connection to the streams -/

/-- A server in its loop that has no client yet. -/
structure Server.Free (s : Server) : Prop where
  ctrlSck : s.ctrlSck = false
  state : s.state ≠ .createStreams
  streams : s.streams = []
  recStreamsAccepted : s.recStreamsAccepted = 0
  sendStreamsAccepted : s.sendStreamsAccepted = 0

/-- What the parameter exchange leaves alone. -/
structure Server.Unjoined (s : Server) : Prop where
  ctrlSck : s.ctrlSck = true
  streams : s.streams = []
  recStreamsAccepted : s.recStreamsAccepted = 0
  sendStreamsAccepted : s.sendStreamsAccepted = 0

theorem acceptClient_awaitsStreams (env : AcceptEnv) :
    Triple Server.Free (acceptClient b env)
      (fun s => s.Unjoined ∧ s.state = .createStreams) (fun _ => True) := by
  have hsame : ∀ {s s' : Server}, s.Unjoined → s'.ctrlSck = s.ctrlSck →
      s'.streams = s.streams → s'.recStreamsAccepted = s.recStreamsAccepted →
      s'.sendStreamsAccepted = s.sendStreamsAccepted → s'.Unjoined :=
    fun h h₁ h₂ h₃ h₄ => ⟨h₁.trans h.ctrlSck, h₂.trans h.streams,
      h₃.trans h.recStreamsAccepted, h₄.trans h.sendStreamsAccepted⟩
  have hread : Keeps Server.Unjoined (fun s => s.getParameters b env.message) :=
    getParameters_keeps (P := Server.Unjoined) (fun _ _ h => hsame h rfl rfl rfl rfl)
      (fun _ _ h => hsame h rfl rfl rfl rfl) _
  apply triple_acceptClient (M := Server.Unjoined) (N := Server.Unjoined)
    (L := Server.Unjoined) env
  · exact fun s hs => ⟨rfl, hs.streams, hs.recStreamsAccepted, hs.sendStreamsAccepted⟩
  · exact fun s hs => hs.ctrlSck
  · exact fun _ _ _ => trivial
  · exact fun _ _ h => hsame h rfl rfl rfl rfl
  · exact fun _ h => hsame h rfl rfl rfl rfl
  · exact fun _ _ => trivial
  · exact (Triple.of_keeps hread).weaken (fun _ h => h) (fun _ h => h) (fun _ _ => trivial)
  · exact fun _ _ h => hsame h rfl rfl rfl rfl
  · exact fun _ _ _ => trivial
  · exact fun _ _ => triple_protocolListen env.listening (fun _ h => hsame h rfl rfl rfl rfl)
      (fun _ _ _ => trivial)
  · exact fun _ h => hsame h rfl rfl rfl rfl
  · exact fun s hs => hs.ctrlSck
  · exact fun s hs => ⟨hsame hs rfl rfl rfl rfl, rfl⟩
  · exact fun _ _ _ => trivial
  · exact fun _ _ _ _ => trivial

theorem Server.Unjoined.awaitsStreams (h : s.Unjoined) (hstate : s.state = .createStreams) :
    (setStreamNumbers s).AwaitsStreams :=
  ⟨h.ctrlSck, hstate, h.streams, h.recStreamsAccepted, h.sendStreamsAccepted, rfl, rfl⟩

theorem serverTurn_awaitsStreams
    {env : TurnEnv} (h : s.Free) (hok : (serverTurn b env s).2 = true)
    (hstate : (serverTurn b env s).1.state = .createStreams) :
    (serverTurn b env s).1.AwaitsStreams := by
  have hempty : ∀ u : Server, u.AwaitsStreams → u.ctrlSck = true ∧ HasFaces [] u :=
    fun u hu => ⟨hu.ctrlSck, by simp [HasFaces, hu.streams, numbered]⟩
  have hturn : ((serverTurn b env s).2 = true →
        ((serverTurn b env s).1.state = .createStreams → (serverTurn b env s).1.AwaitsStreams)) ∧
      ((serverTurn b env s).2 = false → True) := by
    apply serverTurn_rule (S := fun u => u.state = .createStreams → u.AwaitsStreams)
      (E := fun _ => True)
    · exact fun hcreate => absurd hcreate h.state
    · exact fun _ _ _ _ _ => trivial
    · intro hawaits hcreate
      have hold := hawaits hcreate
      exact ⟨hold.ctrlSck, hcreate, hold.streams, hold.recStreamsAccepted,
        hold.sendStreamsAccepted, rfl, rfl⟩
    · intro _ _ accept _ _
      exact (acceptClient_awaitsStreams accept).weaken (fun u hu => hu ▸ h)
        (fun u hu _ => hu.1.awaitsStreams hu.2) (fun _ _ => trivial)
    · exact fun hctrl => absurd hctrl (by simp [h.ctrlSck])
    · exact fun hcreate => absurd hcreate h.state
    · exact ((startTest_faces env.start).andThen (createWorkers_faces env.start)).weaken
        (fun u hu => hempty u (hu.1 hu.2)) (fun u hu hcreate => absurd hcreate hu.1)
        (fun _ _ => trivial)
  exact hturn.1 hok hstate

/-- The server expects the directions of the client's streams, the other way
round. -/
theorem Server.AwaitsStreams.joins
    {t : Test} (h : s.AwaitsStreams) (hcount : 1 ≤ t.numStreams)
    (hmode : s.test.mode = t.mode.complement) (hnumber : s.test.numStreams = t.numStreams) :
    s.Joins s.admits [] (t.streamDirections.map not) ∧ t.streamDirections.map not ≠ [] := by
  have hrec := h.streamsToRec
  have hsend := h.streamsToSend
  rw [hmode, hnumber] at hrec hsend
  have hfaces : s.streams.map Stream.face = numbered [] := by simp [h.streams, numbered]
  have hmany : ∀ sender : Bool, List.replicate t.numStreams.toNat sender ≠ [] := by
    intro sender hnone
    rw [List.replicate_eq_nil_iff] at hnone
    omega
  refine ⟨⟨h.ctrlSck, h.state, rfl, ?_, ?_, ?_, hfaces⟩, ?_⟩
  · rw [h.recStreamsAccepted, hrec]
    cases t.mode <;> simp [Mode.complement, Mode.streamsToRec] <;> omega
  · rw [h.sendStreamsAccepted, hsend]
    cases t.mode <;> simp [Mode.complement, Mode.streamsToSend] <;> omega
  · rw [Server.directionsLeft, h.recStreamsAccepted, h.sendStreamsAccepted, hrec, hsend]
    unfold Test.streamDirections
    cases t.mode <;>
      simp [Mode.complement, Mode.streamsToRec, Mode.streamsToSend]
  · unfold Test.streamDirections
    cases t.mode
    · simpa using hmany true
    · simpa using hmany false
    · simpa using hmany true

end Server

/-! ## The pairing -/

/-- The statistics for the id of stream `i` are stored in stream `i`. -/
theorem absorbStream_eq_modify
    {streams : List Stream} {peer : PeerStream} {i : ℕ} (hnodup : (streams.map (·.id)).Nodup)
    (hi : i < streams.length) (hid : (streams.map (·.id))[i]? = some peer.sid) :
    absorbStream peer streams = some (streams.modify i (·.absorb peer)) := by
  induction streams generalizing i with
  | nil => simp at hi
  | cons sp streams ih =>
      rw [List.map_cons, List.nodup_cons] at hnodup
      cases i with
      | zero =>
          have hfirst : sp.id = peer.sid := by simpa using hid
          simp [absorbStream, hfirst]
      | succ i =>
          have hother : sp.id ≠ peer.sid := by
            intro hsame
            have hmem : peer.sid ∈ streams.map (·.id) :=
              List.mem_of_getElem? (by simpa using hid)
            exact hnodup.1 (hsame ▸ hmem)
          have hrest := ih hnodup.2 (by simpa using hi) (by simpa using hid)
          simp [absorbStream, hother, hrest]

/-- A data connection, by the memory of the stream that each side makes
for it. -/
structure DataConnection where
  clientBuffer : List UInt8
  serverBuffer : List UInt8

/-- The lists of the two sides after the connections have been made. -/
structure StreamsPairUp (connections : List DataConnection) (client server : List Stream) :
    Prop where
  client_connections : client.map (·.buffer) = connections.map (·.clientBuffer)
  server_connections : server.map (·.buffer) = connections.map (·.serverBuffer)
  client_nodup : (client.map (·.id)).Nodup
  server_nodup : (server.map (·.id)).Nodup
  same_ids : server.map (·.id) = client.map (·.id)
  opposite : server.map (·.sender) = client.map (!·.sender)
  found_by_server : ∀ i peer, (client.map (·.id))[i]? = some peer.sid →
    absorbStream peer server = some (server.modify i (·.absorb peer))
  found_by_client : ∀ i peer, (server.map (·.id))[i]? = some peer.sid →
    absorbStream peer client = some (client.modify i (·.absorb peer))

theorem streamsPairUp_of_faces
    {connections : List DataConnection} {client server : List Stream} {directions : List Bool}
    (hlength : connections.length = directions.length)
    (hclient : client.map Stream.face =
      numbered (directions.zip (connections.map (·.clientBuffer))))
    (hserver : server.map Stream.face =
      numbered ((directions.map not).zip (connections.map (·.serverBuffer)))) :
    StreamsPairUp connections client server := by
  have hids : server.map (·.id) = client.map (·.id) := by
    rw [map_id_of_faces hclient, map_id_of_faces hserver]
    simp
  have hcount : server.length = client.length := by simpa using congrArg List.length hids
  have hclientEnds := map_ends_of_faces hclient
  have hserverEnds := map_ends_of_faces hserver
  have hclientNodup := nodup_ids_of_faces hclient
  have hserverNodup := nodup_ids_of_faces hserver
  have hclientSenders : client.map (·.sender) = directions := by
    have hfirst := congrArg (List.map Prod.fst) hclientEnds
    rw [List.map_map, List.map_fst_zip (by simp [hlength])] at hfirst
    exact hfirst
  have hserverSenders : server.map (·.sender) = directions.map not := by
    have hfirst := congrArg (List.map Prod.fst) hserverEnds
    rw [List.map_map, List.map_fst_zip (by simp [hlength])] at hfirst
    exact hfirst
  refine ⟨?_, ?_, hclientNodup, hserverNodup, hids, ?_, ?_, ?_⟩
  · have hsecond := congrArg (List.map Prod.snd) hclientEnds
    rw [List.map_map, List.map_snd_zip (by simp [hlength])] at hsecond
    exact hsecond
  · have hsecond := congrArg (List.map Prod.snd) hserverEnds
    rw [List.map_map, List.map_snd_zip (by simp [hlength])] at hsecond
    exact hsecond
  · rw [hserverSenders, ← hclientSenders, List.map_map]
    rfl
  · intro i peer hid
    have hi : i < client.length := by simpa using (List.getElem?_eq_some_iff.mp hid).1
    exact absorbStream_eq_modify hserverNodup (hcount ▸ hi) (hids ▸ hid)
  · intro i peer hid
    have hi : i < server.length := by simpa using (List.getElem?_eq_some_iff.mp hid).1
    exact absorbStream_eq_modify hclientNodup (hcount ▸ hi) (hids ▸ hid)

/-- The client makes its connections on the message `CREATE_STREAMS`, and the
server, which has sent it in its turn `first`, accepts them in this order.
Other connections may come in between and are turned away. -/
theorem stream_ids_pair_up
    (b : Build) {c : Client} {env : ClientMessageEnv} {s : Server} {first : TurnEnv}
    {turns : List TurnEnv} {connections : List DataConnection}
    (hcount : 1 ≤ c.test.numStreams) (hempty : c.streams = [])
    (hread : env.read = .byte TestState.createStreams.toByte)
    (hmade : env.connections = connections.map (·.clientBuffer))
    (hlength : connections.length = c.test.streamDirections.length)
    (hclient : (handleMessageClient env c).2 = true)
    (hfree : s.Free) (hfirst : (serverTurn b first s).2 = true)
    (hstate : (serverTurn b first s).1.state = .createStreams)
    (hmode : (serverTurn b first s).1.test.mode = c.test.mode.complement)
    (hnumber : (serverTurn b first s).1.test.numStreams = c.test.numStreams)
    (hquiet : ∀ turn ∈ turns, turn.control = none)
    (haccepted :
      ((turns.filterMap (·.data)).filter (serverTurn b first s).1.admits).map (·.buffer) =
        connections.map fun connection => some connection.serverBuffer)
    (hserver : (joinStreams b turns (serverTurn b first s).1).2 = true) :
    StreamsPairUp connections (handleMessageClient env c).1.streams
      (joinStreams b turns (serverTurn b first s).1).1.streams := by
  have hawaits := serverTurn_awaitsStreams hfree hfirst hstate
  obtain ⟨hjoins, hdirections⟩ := hawaits.joins hcount hmode hnumber
  have hbuffers : ((turns.filterMap (·.data)).filter (serverTurn b first s).1.admits).map
      (·.buffer) = (connections.map (·.serverBuffer)).map some := by
    rw [haccepted, List.map_map]
    rfl
  have hfaces := joinStreams_faces hjoins hdirections hquiet hbuffers (by simp [hlength]) hserver
  have hmadeFaces := handleMessageClient_createStreams_faces hread hempty hclient
  rw [hmade] at hmadeFaces
  exact streamsPairUp_of_faces hlength hmadeFaces hfaces

def bidirectionalTest : Test :=
  { serverStart Build.linux ServerArgs.default with
    role := .client, mode := .bidirectional, numStreams := 2 }

def bidirectionalConnections : List DataConnection :=
  [⟨[1], [11]⟩, ⟨[2], [12]⟩, ⟨[3], [13]⟩, ⟨[4], [14]⟩]

def bidirectionalClient : Client :=
  (clientProcess (freshSide bidirectionalTest)).client

def createStreamsMessage : ClientMessageEnv where
  read := .byte TestState.createStreams.toByte
  sentParameters := true
  connections := bidirectionalConnections.map (·.clientBuffer)
  streamError := ⟨.ieStreamConnect, ieStreamConnect_isError⟩
  initialized := true
  now := IperfTime.ofCounters 0 0
  timersCreated := true
  omitTimerCreated := true
  sendTimersCreated := true
  sentResults := true
  results := none
  sentDone := true
  serverErrno := none

/-- The client comes to a server that has just begun to listen. -/
def acceptingTurn : TurnEnv where
  listener := some (.ok exampleCookie
    (some (.object [(.bidirectional, .bool true), (.parallel, .ofInt 2)])))
  control := none
  data := none
  start := .ok (IperfTime.ofCounters 0 0) 4

/-- A stranger comes after the first connection. -/
def joiningTurns : List TurnEnv :=
  ([StreamEnv.ok exampleCookie [11], StreamEnv.ok [] [0], StreamEnv.ok exampleCookie [12],
      StreamEnv.ok exampleCookie [13], StreamEnv.ok exampleCookie [14]]).map fun data =>
    ⟨none, none, some data, .ok (IperfTime.ofCounters 0 0) 4⟩

theorem stream_ids_pair_up_bidirectional :
    StreamsPairUp bidirectionalConnections
      (handleMessageClient createStreamsMessage bidirectionalClient).1.streams
      (joinStreams Build.linux joiningTurns
        (serverTurn Build.linux acceptingTurn
          (Process.listening (defaultServer Build.linux).server)).1).1.streams := by
  apply stream_ids_pair_up Build.linux
  case hfree => exact ⟨rfl, nofun, rfl, rfl, rfl⟩
  all_goals decide +kernel

end Iperf3
