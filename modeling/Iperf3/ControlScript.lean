import Iperf3.ControlConnection
import Iperf3.ParameterRoundTrip
import Iperf3.ResultAgreement
import Mathlib.Tactic

/-!
# What the parties say to each other

Each party has a script: what it writes to the control connection, in this
order.  Only the server departs from its script, with error reports, and the
client, with an early `IPERF_DONE`.  The calls of the server are sorted by
what they write and by the errors that they raise.
-/

namespace Iperf3

open Channels MachineInt

/-! ## Stream numbers -/

/-- The ids of the first `k` streams of a test. -/
def streamIds (k : ℕ) : List ℤ :=
  (List.range k).map fun i : ℕ => if i = 0 then 1 else (i : ℤ) + 2

def InIdOrder (streams : List Stream) : Prop :=
  streams.map (·.id) = streamIds streams.length

theorem InIdOrder.addStream {streams : List Stream} (h : InIdOrder streams) (sp : Stream) :
    InIdOrder (iperfAddStream streams sp) := by
  unfold InIdOrder at h ⊢
  unfold iperfAddStream
  rw [List.map_append, h, List.length_append, List.length_singleton, streamIds, streamIds,
    List.range_succ, List.map_append]
  cases streams <;> simp

theorem InIdOrder.congr {streams streams' : List Stream} (h : InIdOrder streams)
    (heq : streams'.map (·.id) = streams.map (·.id)) : InIdOrder streams' := by
  have hlength : streams'.length = streams.length := by simpa using congrArg List.length heq
  unfold InIdOrder at h ⊢
  rw [heq, h, hlength]

theorem streamIds_nodup (k : ℕ) : (streamIds k).Nodup := by
  apply List.Nodup.map_on _ List.nodup_range
  intro i _ i' _ hid
  split_ifs at hid <;> omega

theorem streamIds_int {k : ℕ} (hk : IsInt (k + 1)) {id : ℤ} (hid : id ∈ streamIds k) :
    int32 id = id := by
  have hbound := int32_bounds (k + 1 : ℤ)
  rw [hk] at hbound
  obtain ⟨i, hi, rfl⟩ := List.mem_map.mp hid
  rw [List.mem_range] at hi
  split_ifs
  · rfl
  · exact IsInt.of_bounds (by omega) (by omega)

/-- The streams of the peer are known when both sides have the same ids. -/
theorem knownStreams_of_ids {k : ℕ} (hk : IsInt (k + 1)) {peer side : List Stream}
    (hpeer : peer.map (·.id) = streamIds k) (hside : side.map (·.id) = streamIds k) :
    (side.map (·.id)).Nodup ∧ KnownStreams peer side := by
  refine ⟨hside ▸ streamIds_nodup k, ?_⟩
  intro sp hsp
  have hid : sp.id ∈ streamIds k := hpeer ▸ List.mem_map_of_mem hsp
  exact ⟨streamIds_int hk hid, hside ▸ hid⟩

/-- The number of streams of a test. -/
def Test.totalStreams (t : Test) : ℕ :=
  if t.mode = .bidirectional then 2 * t.numStreams.toNat else t.numStreams.toNat

theorem length_streamDirections (t : Test) : t.streamDirections.length = t.totalStreams := by
  unfold Test.streamDirections Test.totalStreams
  cases t.mode <;> simp
  omega

/-! ## The scripts -/

def Session.ResultsItem (sn : Session) (k : ℕ) (item : Item ItemKind) : Prop :=
  ∃ side : TestSide, side.streams.map (·.id) = streamIds k ∧
    sn.codec.Carries 0 (sendResults side) ∧ item = jsonItem sn.codec (sendResults side)

/-- What the server of a test with `k` streams writes in place `i`. -/
def Session.ServerItem (sn : Session) (k i : ℕ) (item : Item ItemKind) : Prop :=
  match i with
  | 0 => item = stateItem .paramExchange
  | 1 => item = stateItem .createStreams
  | 2 => item = stateItem .testStart
  | 3 => item = stateItem .testRunning
  | 4 => item = stateItem .exchangeResults
  | 5 => sn.ResultsItem k item
  | 6 => item = stateItem .displayResults
  | _ => False

/-- What the client writes in place `i`. -/
def Session.ClientItem (sn : Session) (params : Json) (k i : ℕ) (item : Item ItemKind) : Prop :=
  match i with
  | 0 => item = cookieItem sn.cookie
  | 1 => item = jsonItem sn.codec params
  | 2 => item = stateItem .testEnd
  | 3 => sn.ResultsItem k item
  | 4 => item = stateItem .iperfDone
  | _ => False

/-- Error reports one after the other. -/
inductive ErrorReports (sn : Session) : List (Item ItemKind) → Prop
  | nil : ErrorReports sn []
  | cons (code : IErrno) {items : List (Item ItemKind)} (h : ErrorReports sn items) :
      ErrorReports sn (stateItem .serverError :: ⟨.errorCodes, sn.errorCodes code⟩ :: items)

theorem ErrorReports.append {sn : Session} {items later : List (Item ItemKind)}
    (h : ErrorReports sn items) (h' : ErrorReports sn later) :
    ErrorReports sn (items ++ later) := by
  induction h with
  | nil => exact h'
  | cons code _ ih => exact ih.cons code

theorem serverItem_ne_error {sn : Session} {k i : ℕ} {item : Item ItemKind}
    (h : sn.ServerItem k i item) : item ≠ stateItem .serverError := by
  rintro rfl
  unfold Session.ServerItem at h
  split at h
  any_goals simp [stateItem, TestState.toByte] at h
  obtain ⟨side, -, -, hitem⟩ := h
  simp [jsonItem] at hitem

/-! ## Calls of the server -/

/-- The codes of a party that has been surprised by what it has read. -/
def protocolErrors : List IErrno :=
  [.ieMessage, .ieRecvParams, .ieRecvResults, .ieStreamId]

/-- A call that writes nothing and is not surprised. -/
def ServerCall.plain : ServerCall → Bool
  | .sent _ | .cleanup (some _) => false
  | .raised code => code ∉ protocolErrors
  | _ => true

/-- A call that writes nothing but error reports and is not surprised. -/
def ServerCall.tame : ServerCall → Bool
  | .sent state => state = .serverError
  | .raised code => code ∉ protocolErrors
  | _ => true

theorem ServerCall.tame_of_plain {call : ServerCall} (h : call.plain = true) :
    call.tame = true := by
  cases call <;> first | rfl | exact h | cases h

/-- A call that is not a surprise and tells the client of no state but this
one. -/
def ServerCall.calm (state : TestState) : ServerCall → Bool
  | .sent told => told ∈ TestState.named && (told = .serverError || told = state)
  | .raised code => code ∉ protocolErrors
  | _ => true

theorem ServerCall.calm_of_tame {state : TestState} {call : ServerCall} (h : call.tame = true) :
    call.calm state = true := by
  cases call with
  | sent told =>
      have htold : told = .serverError := by simpa [ServerCall.tame] using h
      subst htold
      rfl
  | raised code => exact h
  | _ => rfl

/-- All elements that have been added to a record have a property. -/
def Added {α : Type} (Q : α → Bool) (l l' : List α) : Prop :=
  ∃ more, l' = l ++ more ∧ ∀ x ∈ more, Q x = true

section Added

variable {α : Type} {Q Q' : α → Bool} {l l' l'' : List α} {x : α}

theorem Added.refl (l : List α) : Added Q l l :=
  ⟨[], by simp, nofun⟩

theorem Added.trans (h : Added Q l l') (h' : Added Q l' l'') : Added Q l l'' := by
  obtain ⟨more, heq, hmore⟩ := h
  obtain ⟨later, heq', hlater⟩ := h'
  refine ⟨more ++ later, by rw [heq', heq, List.append_assoc], ?_⟩
  intro x hx
  rcases List.mem_append.mp hx with hx | hx
  · exact hmore x hx
  · exact hlater x hx

theorem Added.concat (h : Added Q l l') (hx : Q x = true) : Added Q l (l' ++ [x]) :=
  h.trans ⟨[x], rfl, by simpa using hx⟩

theorem Added.mono (h : Added Q l l') (hQ : ∀ x, Q x = true → Q' x = true) : Added Q' l l' := by
  obtain ⟨more, heq, hmore⟩ := h
  exact ⟨more, heq, fun x hx => hQ x (hmore x hx)⟩

theorem Added.mem (h : Added Q l l') (hx : x ∈ l) : x ∈ l' := by
  obtain ⟨more, heq, -⟩ := h
  rw [heq]
  exact List.mem_append_left _ hx

theorem Added.not_mem (h : Added Q l l') (hx : x ∉ l) (hQ : Q x = false) : x ∉ l' := by
  obtain ⟨more, heq, hmore⟩ := h
  intro hmem
  rw [heq] at hmem
  rcases List.mem_append.mp hmem with hmem | hmem
  · exact hx hmem
  · exact absurd (hmore x hmem) (by simp [hQ])

end Added

/-- All calls between two states of the server have a property. -/
def Since (Q : ServerCall → Bool) (s s' : Server) : Prop :=
  Added Q s.calls s'.calls

section Since

variable {Q : ServerCall → Bool} {s s' s'' : Server}

theorem Since.refl (s : Server) : Since Q s s :=
  Added.refl _

theorem Since.trans (h : Since Q s s') (h' : Since Q s' s'') : Since Q s s'' :=
  Added.trans h h'

theorem Since.call (h : Since Q s s') {call : ServerCall} (hcall : Q call = true)
    (heq : s''.calls = s'.calls ++ [call]) : Since Q s s'' := by
  unfold Since
  rw [heq]
  exact Added.concat h hcall

theorem Since.log (h : Since Q s s') {call : ServerCall} (hcall : Q call = true) :
    Since Q s (s'.log call) :=
  h.call hcall rfl

theorem Since.withErrno (h : Since Q s s') {code : IErrno} (hcode : Q (.raised code) = true) :
    Since Q s (s'.withErrno code) :=
  h.call hcode rfl

theorem Since.cleanupServer (h : Since ServerCall.tame s s') :
    Since ServerCall.tame s s'.cleanupServer :=
  h.call rfl rfl

theorem Since.congr (h : Since Q s s') (heq : s''.calls = s'.calls) : Since Q s s'' := by
  unfold Since
  rw [heq]
  exact h

theorem Since.tame (h : Since ServerCall.plain s s') : Since ServerCall.tame s s' :=
  Added.mono h fun _ => ServerCall.tame_of_plain

theorem Since.calm {state : TestState} (h : Since ServerCall.tame s s') :
    Since (ServerCall.calm state) s s' :=
  Added.mono h fun _ => ServerCall.calm_of_tame

theorem Since.mem (h : Since Q s s') {call : ServerCall} (hcall : call ∈ s.calls) :
    call ∈ s'.calls :=
  Added.mem h hcall

end Since

/-! ## The server's calls on the network -/

section Carry

variable {sn : Session} {s s' : Server} {net : Network}

theorem serverItems_plain (code : IErrno) {call : ServerCall} (h : call.plain = true) :
    sn.serverItems code call = [] := by
  cases call with
  | sent state => cases h
  | cleanup reported =>
      cases reported with
      | none => rfl
      | some => cases h
  | _ => rfl

theorem serverItems_tame (code : IErrno) {call : ServerCall} (h : call.tame = true) :
    ErrorReports sn (sn.serverItems code call) := by
  cases call with
  | sent state =>
      have hstate : state = .serverError := by simpa [ServerCall.tame] using h
      subst hstate
      exact .cons code .nil
  | cleanup reported =>
      cases reported with
      | none => exact .nil
      | some => exact .cons code .nil
  | _ => exact .nil

theorem carryServer_of_calls {calls : List ServerCall} (h : s'.calls = s.calls ++ calls)
    (hctrl : s.ctrlSck = true → s'.ctrlSck = true) :
    net.carryServer sn s s' =
      { net with toClient :=
          net.toClient.write (calls.flatMap (sn.serverItems s'.test.iErrno)) } := by
  have hclose : (s.ctrlSck && !s'.ctrlSck) = false := by
    cases hc : s.ctrlSck with
    | false => rfl
    | true => simp [hctrl hc]
  unfold Network.carryServer
  simp only [h, List.drop_left, hclose, Bool.false_eq_true, if_false]

theorem carryServer_plain (h : Since ServerCall.plain s s')
    (hctrl : s.ctrlSck = true → s'.ctrlSck = true) : net.carryServer sn s s' = net := by
  obtain ⟨calls, heq, hcalls⟩ := h
  have hitems : calls.flatMap (sn.serverItems s'.test.iErrno) = [] := by
    rw [List.flatMap_eq_nil_iff]
    exact fun call hcall => serverItems_plain _ (hcalls call hcall)
  rw [carryServer_of_calls heq hctrl, hitems]
  simp [Channel.write]

theorem carryServer_send {state : TestState} (hstate : state ≠ .serverError)
    (heq : s'.calls = s.calls ++ [.sent state])
    (hctrl : s.ctrlSck = true → s'.ctrlSck = true) :
    net.carryServer sn s s' =
      { net with toClient := net.toClient.write [stateItem state] } := by
  have hitems : sn.serverItems s'.test.iErrno (.sent state) = [stateItem state] := by
    unfold Session.serverItems
    cases state <;> first | rfl | exact absurd rfl hstate
  rw [carryServer_of_calls heq hctrl, List.flatMap_singleton, hitems]

/-- A step of the server that reports nothing but errors. -/
theorem carryServer_tame (sn : Session) (net : Network) (h : Since ServerCall.tame s s') :
    ∃ errors, ErrorReports sn errors ∧
      (net.carryServer sn s s').toClient.written = net.toClient.written ++ errors ∧
      ((net.carryServer sn s s').toClient.closed = false → net.toClient.closed = false) := by
  obtain ⟨calls, heq, hcalls⟩ := h
  refine ⟨calls.flatMap (sn.serverItems s'.test.iErrno), ?_, ?_, ?_⟩
  · clear heq
    induction calls with
    | nil => exact .nil
    | cons call calls ih =>
        rw [List.flatMap_cons]
        exact (serverItems_tame _ (hcalls call List.mem_cons_self)).append
          (ih fun call hcall => hcalls call (List.mem_cons_of_mem _ hcall))
  · unfold Network.carryServer
    simp only [heq, List.drop_left]
    split_ifs <;> rfl
  · unfold Network.carryServer
    dsimp only
    split_ifs
    · exact fun hclosed => absurd hclosed (by simp [Channel.close])
    · exact id

/-- The network apart from the server's writing. -/
theorem carryServer_fields (sn : Session) (s s' : Server) (net : Network) :
    (net.carryServer sn s s').dialling = net.dialling ∧
      (net.carryServer sn s s').toServer = net.toServer ∧
      (net.carryServer sn s s').data = net.data ∧
      (net.carryServer sn s s').toClient.taken = net.toClient.taken := by
  unfold Network.carryServer
  dsimp only
  split_ifs <;> exact ⟨rfl, rfl, rfl, rfl⟩

end Carry

/-! ## Reading a frame -/

/-- The next item is a frame that the codec carries. -/
theorem readJson_item {codec : Codec} {maxSize : ℕ} {j : Json} {c : Channel ItemKind}
    {pending : List (Item ItemKind)} (h : c.Agrees (jsonItem codec j :: pending))
    (hcarries : codec.Carries maxSize j) :
    ∃ f c', CJson.KeepsIntegers f ∧ readJson codec maxSize c = some (some (j.mapNumbers f), c') ∧
      c'.Agrees pending ∧ c'.taken = c.taken ++ [jsonItem codec j] ∧
      c'.written = c.written ∧ c'.closed = c.closed := by
  obtain ⟨f, hf, hread⟩ := hcarries.jsonRead_eq (pending.flatMap Item.bytes)
  have hbytes : c.bytes = jsonWrite codec j ++ pending.flatMap Item.bytes := by
    rw [h.bytes, List.flatMap_cons]
    rfl
  obtain ⟨hpos, hsmall, hmax⟩ := hcarries.2
  have htake : c.bytes.take 4 = BigEndian.encode 4 (codec.print j).length := by
    rw [hbytes, jsonWrite, List.append_assoc, List.take_left' (by simp)]
  have hsize : BigEndian.decode (c.bytes.take 4) = (codec.print j).length := by
    rw [htake]
    apply BigEndian.decode_encode
    norm_num
    omega
  have harrived : frameArrived maxSize c.bytes = true := by
    unfold frameArrived
    simp only [hsize]
    rw [hbytes, jsonWrite]
    simp
  have hlength : c.bytes.length - (pending.flatMap Item.bytes).length =
      (jsonItem codec j).bytes.length := by
    rw [hbytes, List.length_append]
    simp [jsonItem]
  refine ⟨f, c.take (jsonItem codec j).kind (jsonItem codec j).bytes.length, hf, ?_,
    h.take.1, h.take.2, rfl, rfl⟩
  unfold readJson
  rw [hbytes] at harrived ⊢
  rw [if_pos harrived, hread]
  dsimp only
  rw [← hbytes, hlength]
  rfl

theorem readJson_nil {codec : Codec} {maxSize : ℕ} {c : Channel ItemKind} (h : c.Agrees [])
    (hopen : c.closed = false) : readJson codec maxSize c = none := by
  have hbytes : c.bytes = [] := h.bytes
  simp [readJson, frameArrived, hbytes, hopen]

end Iperf3
