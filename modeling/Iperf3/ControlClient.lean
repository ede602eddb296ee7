import Iperf3.ClientScript
import Iperf3.ControlServer
import Mathlib.Tactic

/-!
# The client on the control connection

As for the server, the numbers of items that the client has read and written
say where it is.  A client that has left has closed its sockets, or is about
to read the error codes.
-/

namespace Iperf3

open Channels MachineInt

section Client

variable {sn : Session} {t : Test} {params : Json} {stage : ClientStage} {party : ClientParty}
  {net net' : Network}

structure ClientTalks (sn : Session) (t : Test) (params : Json) (stage : ClientStage)
    (party : ClientParty) (net : Network) : Prop where
  connecting : stage = .connecting → party.process.phase = .connecting ∧ net.dialling = .idle
  waiting : stage ≠ .connecting → party.process.phase = .waiting ∨
    (stage = .running ∧ party.todo = [] ∧
      (party.process.phase = .starting ∨ party.process.phase = .checking))
  todo : stage.Allows party.todo
  ready : ClientReady t stage party.todo party.process.client
  reads : net.toClient.taken.length = stage.reads
  taken : Line (sn.ServerItem t.totalStreams) net.toClient.taken
  writes : net.toServer.written.length = stage.writes
  written : Line (sn.ClientItem params t.totalStreams) net.toServer.written
  isOpen : net.toServer.closed = false

/-- The client has closed its sockets, or reads the codes of an error. -/
def ClientParty.Gone (sn : Session) (party : ClientParty) (net : Network) : Prop :=
  (party.todo = [] ∧ ((∃ rc, party.process.phase = .returned rc) ∨
    (party.process.phase = .waiting ∧ party.process.client.state = .iperfDone))) ∨
  (party.todo = [.readErrorCodes] ∧ party.process.phase = .waiting ∧
    party.process.client.state = .serverError ∧ party.process.client.ctrlSck = true ∧
      net.Broken ∧ ∃ code later, net.toClient.Agrees (⟨.errorCodes, sn.errorCodes code⟩ :: later))

/-- The client has been told that the test is running. -/
def Session.Started (sn : Session) (k : ℕ) (net : Network) : Prop :=
  ∃ heard, heard <+: net.toClient.taken ∧ heard.length = 4 ∧ Line (sn.ServerItem k) heard

theorem Session.Started.mono {k : ℕ} (h : sn.Started k net)
    (htaken : net.toClient.taken <+: net'.toClient.taken) : sn.Started k net' := by
  obtain ⟨heard, hheard, hlength, hline⟩ := h
  exact ⟨heard, hheard.trans htaken, hlength, hline⟩

theorem Session.Started.four_le {k : ℕ} (h : sn.Started k net) :
    4 ≤ net.toClient.taken.length := by
  obtain ⟨heard, hheard, hlength, -⟩ := h
  exact hlength ▸ hheard.length_le

theorem Session.Started.testRunning_mem {k : ℕ} (h : sn.Started k net) :
    stateItem .testRunning ∈ net.toClient.taken := by
  obtain ⟨heard, hheard, hlength, hline⟩ := h
  have hlast := List.getElem?_eq_getElem (show 3 < heard.length by omega)
  have hitem : heard[3] = stateItem .testRunning := hline 3 _ hlast
  exact hheard.subset (hitem ▸ List.getElem_mem _)

/-- What the client has written in the end.  It does not leave where the
server reads a frame, unless the server has failed. -/
structure ClientWrote (sn : Session) (t : Test) (params : Json) (net : Network)
    (main late : List (Item ItemKind)) : Prop where
  written : net.toServer.written = main ++ late
  script : Line (sn.ClientItem params t.totalStreams) main
  last : late = [] ∨ (late = [stateItem .iperfDone] ∧ main.length ≠ 4)
  left : late ≠ [] ∨ net.toServer.closed = true →
    net.Broken ∨ (2 ≤ main.length ∧ main.length ≠ 3)
  started : 3 ≤ main.length → sn.Started t.totalStreams net

structure ClientLeft (sn : Session) (t : Test) (params : Json) (party : ClientParty)
    (net : Network) : Prop where
  gone : party.Gone sn net
  wrote : ∃ main late, ClientWrote sn t params net main late

def ClientSide (sn : Session) (t : Test) (params : Json) (party : ClientParty) (net : Network) :
    Prop :=
  (∃ stage, ClientTalks sn t params stage party net) ∨ ClientLeft sn t params party net

theorem ClientTalks.started (h : ClientTalks sn t params stage party net)
    (hwrites : 3 ≤ stage.writes) : sn.Started t.totalStreams net := by
  have hlength : 4 ≤ net.toClient.taken.length := by
    rw [h.reads]
    cases stage <;> first | decide | (revert hwrites; decide)
  have hline : Line (sn.ServerItem t.totalStreams)
      (net.toClient.taken.take 4 ++ net.toClient.taken.drop 4) := by
    rw [List.take_append_drop]
    exact h.taken
  exact ⟨_, List.take_prefix 4 _, by simpa using hlength, line_append_left hline⟩

theorem ClientTalks.wrote (h : ClientTalks sn t params stage party net) :
    ClientWrote sn t params net net.toServer.written [] where
  written := (List.append_nil _).symm
  script := h.written
  last := Or.inl rfl
  left hleft := by
    rcases hleft with hlate | hclosed
    · exact absurd rfl hlate
    · exact absurd (h.isOpen.symm.trans hclosed) (by decide)
  started hlength := h.started (h.writes ▸ hlength)

theorem ClientSide.wrote (h : ClientSide sn t params party net) :
    ∃ main late, ClientWrote sn t params net main late := by
  rcases h with ⟨stage, h⟩ | h
  · exact ⟨_, _, h.wrote⟩
  · exact h.wrote

/-! ## What a step does to the network -/

/-- What the client may do to the network. -/
structure ByClient (net net' : Network) : Prop where
  written : net'.toClient.written = net.toClient.written
  closed : net'.toClient.closed = net.toClient.closed
  taken : net'.toServer.taken = net.toServer.taken
  toClient : (∃ pending, net.toClient.Agrees pending) → ∃ pending, net'.toClient.Agrees pending
  toServer : ∀ pending, net.toServer.Agrees pending →
    ∃ later, net'.toServer.Agrees (pending ++ later)
  dialling : net.dialling ≠ .idle → net'.dialling = net.dialling

theorem ByClient.refl (net : Network) : ByClient net net :=
  ⟨rfl, rfl, rfl, id, fun pending h => ⟨[], by simpa using h⟩, fun _ => rfl⟩

theorem ByClient.trans {net'' : Network} (h : ByClient net net') (h' : ByClient net' net'') :
    ByClient net net'' where
  written := h'.written.trans h.written
  closed := h'.closed.trans h.closed
  taken := h'.taken.trans h.taken
  toClient hagrees := h'.toClient (h.toClient hagrees)
  toServer pending hagrees := by
    obtain ⟨later, hlater⟩ := h.toServer pending hagrees
    obtain ⟨last, hlast⟩ := h'.toServer _ hlater
    exact ⟨later ++ last, by rwa [← List.append_assoc]⟩
  dialling hidle := by
    have hsame := h.dialling hidle
    exact (h'.dialling (hsame ▸ hidle)).trans hsame

theorem byClient_carry (c c' : Client) (net : Network) : ByClient net (net.carryClient c c') := by
  refine ⟨rfl, rfl, ?_, id, ?_, fun _ => rfl⟩
  · unfold Network.carryClient
    dsimp only
    split_ifs <;> rfl
  · intro pending hagrees
    unfold Network.carryClient
    dsimp only
    split_ifs
    · exact ⟨_, (hagrees.write _).close⟩
    · exact ⟨_, hagrees.write _⟩

theorem ByClient.broken (h : ByClient net net') (hbroken : net.Broken) : net'.Broken := by
  unfold Network.Broken
  rw [h.closed, h.written]
  exact hbroken

/-- The server's side does not depend on what the client does. -/
theorem ServerSide.byClient {k : ℕ} {server : ServerParty}
    (h : ServerSide sn params k server net) (hnet : ByClient net net') :
    ServerSide sn params k server net' := by
  rcases h with ⟨stage, h⟩ | h
  · refine Or.inl ⟨stage, h.phase, h.todo, h.ready, by rw [hnet.taken]; exact h.reads,
      by rw [hnet.taken]; exact h.taken, by rw [hnet.written]; exact h.writes,
      by rw [hnet.written]; exact h.written, hnet.closed.trans h.isOpen, ?_, ?_⟩
    · intro hstage
      have haccepted := h.dialling hstage
      exact (hnet.dialling (by simp [haccepted])).trans haccepted
    · intro hmem
      have hwaiting := h.dials hmem
      exact (hnet.dialling (by simp [hwaiting])).trans hwaiting
  · refine Or.inr ⟨h.todo, h.stopped, ?_, by rw [hnet.written, hnet.taken]; exact h.written⟩
    intro hphase
    have haccepted := h.dialling hphase
    exact (hnet.dialling (by simp [haccepted])).trans haccepted

theorem ClientWrote.byServer {main late : List (Item ItemKind)}
    (h : ClientWrote sn t params net main late) (hnet : ByServer net net')
    (hagrees : ∃ pending, net.toClient.Agrees pending) :
    ClientWrote sn t params net' main late where
  written := hnet.written.trans h.written
  script := h.script
  last := h.last
  left hleft := by
    rw [hnet.closed] at hleft
    exact (h.left hleft).imp_left (hnet.broken hagrees)
  started hlength := (h.started hlength).mono (by rw [hnet.taken])

/-- The client's side depends on the server by what has gone wrong. -/
theorem ClientSide.byServer (h : ClientSide sn t params party net) (hnet : ByServer net net')
    (hagrees : ∃ pending, net.toClient.Agrees pending) : ClientSide sn t params party net' := by
  rcases h with ⟨stage, h⟩ | h
  · exact Or.inl ⟨stage,
      { connecting := fun hstage =>
          ⟨(h.connecting hstage).1, hnet.dialling (h.connecting hstage).2⟩
        waiting := h.waiting
        todo := h.todo
        ready := h.ready
        reads := by rw [hnet.taken]; exact h.reads
        taken := by rw [hnet.taken]; exact h.taken
        writes := by rw [hnet.written]; exact h.writes
        written := by rw [hnet.written]; exact h.written
        isOpen := hnet.closed.trans h.isOpen }⟩
  · obtain ⟨main, late, hwrote⟩ := h.wrote
    refine Or.inr ⟨?_, main, late, hwrote.byServer hnet hagrees⟩
    rcases h.gone with hgone | ⟨htodo, hphase, hstate, hctrl, hbroken, code, later, hpending⟩
    · exact Or.inl hgone
    · obtain ⟨more, hmore⟩ := hnet.toClient _ hpending
      exact Or.inr ⟨htodo, hphase, hstate, hctrl, hnet.broken hagrees hbroken, code,
        later ++ more, hmore⟩

/-! ## What each side finds -/

theorem iperfDone_last {k i : ℕ} (h : sn.ClientItem params k i (stateItem .iperfDone)) :
    i = 4 := by
  unfold Session.ClientItem at h
  split at h
  any_goals simp [stateItem, cookieItem, jsonItem, TestState.toByte] at h
  · obtain ⟨side, -, -, hitem⟩ := h
    simp [jsonItem] at hitem
  · rfl

theorem ClientWrote.awaits {main late : List (Item ItemKind)} {r : ℕ}
    (h : ClientWrote sn t params net main late) (hbroken : ¬ net.Broken)
    (hreads : net.toServer.taken.length = r)
    (htaken : Line (sn.ClientItem params t.totalStreams) net.toServer.taken) :
    sn.Awaits params t.totalStreams net r := by
  intro pending hagrees
  have hlast : ∀ item, late.head? = some item →
      ¬ sn.ClientItem params t.totalStreams main.length item := by
    intro item hhead hitem
    rcases h.last with rfl | ⟨rfl, hlength⟩
    · cases hhead
    · cases hhead
      exact hlength (iperfDone_last hitem)
  obtain ⟨rest, hmain, rfl⟩ := htaken.split (hagrees.written.symm.trans h.written) hlast
  have hlength : main.length = r + rest.length := by rw [hmain, List.length_append, hreads]
  cases rest with
  | nil =>
      have hleft : late ≠ [] ∨ net.toServer.closed = true → 2 ≤ r ∧ r ≠ 3 := by
        intro hleft
        rw [List.length_nil, Nat.add_zero] at hlength
        exact hlength ▸ (h.left hleft).resolve_left hbroken
      rcases h.last with rfl | ⟨rfl, -⟩
      · exact fun hclosed => hleft (Or.inr hclosed)
      · exact Or.inr ⟨rfl, hleft (Or.inl nofun)⟩
  | cons item rest =>
      left
      have hscript := h.script
      rw [hmain] at hscript
      refine ⟨hreads ▸ hscript.next, ?_⟩
      intro htwo
      apply (h.started _).four_le
      rw [hlength, List.length_cons]
      omega

/-- What the client finds when it has read `r` items.  Where it reads a frame
the server has not failed. -/
def Session.Offers (sn : Session) (k : ℕ) (net : Network) (r : ℕ) : Prop :=
  ∀ pending, net.toClient.Agrees pending →
    match pending with
    | [] => net.toClient.closed = true → r ≠ 5
    | item :: later =>
        (sn.ServerItem k r item ∧ (r = 4 → 3 ≤ net.toServer.taken.length)) ∨
          (item = stateItem .serverError ∧ r ≠ 5 ∧
            ∃ code rest, later = ⟨.errorCodes, sn.errorCodes code⟩ :: rest)

/-- The script of the server and the errors after it. -/
theorem ServerSide.wrote {k : ℕ} {server : ServerParty} (h : ServerSide sn params k server net) :
    ∃ main errors, net.toClient.written = main ++ errors ∧ Line (sn.ServerItem k) main ∧
      ErrorReports sn errors ∧ (errors ≠ [] ∨ net.toClient.closed = true → main.length ≠ 5) ∧
        (3 ≤ main.length → server.process.server.Holds k) ∧
          (5 ≤ main.length → 3 ≤ net.toServer.taken.length) := by
  rcases h with ⟨stage, h⟩ | h
  · refine ⟨_, [], (List.append_nil _).symm, h.written, .nil, ?_, ?_, ?_⟩
    · rintro (herrors | hclosed)
      · exact absurd rfl herrors
      · exact absurd (h.isOpen.symm.trans hclosed) (by decide)
    · intro hlength
      exact Or.inl (h.ready.full (h.writes ▸ hlength))
    · intro hlength
      rw [h.writes] at hlength
      rw [h.reads]
      cases stage <;> first | decide | (revert hlength; decide)
  · obtain ⟨main, errors, hwritten, hmain, herrors, hfive, hholds, hreads⟩ := h.written
    exact ⟨main, errors, hwritten, hmain, herrors, fun _ => hfive, hholds, hreads⟩

theorem ServerSide.split {k : ℕ} {server : ServerParty} (h : ServerSide sn params k server net)
    (htaken : Line (sn.ServerItem k) net.toClient.taken) {pending : List (Item ItemKind)}
    (hagrees : net.toClient.Agrees pending) :
    ∃ rest errors, pending = rest ++ errors ∧ Line (sn.ServerItem k) (net.toClient.taken ++ rest) ∧
      ErrorReports sn errors ∧
        (errors ≠ [] ∨ net.toClient.closed = true →
          net.toClient.taken.length + rest.length ≠ 5) ∧
        (3 ≤ net.toClient.taken.length → server.process.server.Holds k) ∧
        (5 ≤ net.toClient.taken.length + rest.length → 3 ≤ net.toServer.taken.length) := by
  obtain ⟨main, errors, hwritten, hmain, herrors, hfive, hholds, hread⟩ := h.wrote
  have hlast : ∀ item, errors.head? = some item → ¬ sn.ServerItem k main.length item := by
    intro item hhead hitem
    cases herrors with
    | nil => cases hhead
    | cons code herrors =>
        cases hhead
        exact serverItem_ne_error hitem rfl
  obtain ⟨rest, rfl, rfl⟩ := htaken.split (hagrees.written.symm.trans hwritten) hlast
  rw [List.length_append] at hfive hholds hread
  exact ⟨rest, errors, rfl, hmain, herrors, hfive, fun hlength => hholds (by omega), hread⟩

theorem ServerSide.offers {k r : ℕ} {server : ServerParty}
    (h : ServerSide sn params k server net) (hreads : net.toClient.taken.length = r)
    (htaken : Line (sn.ServerItem k) net.toClient.taken) : sn.Offers k net r := by
  intro pending hagrees
  obtain ⟨rest, errors, rfl, hscript, herrors, hfive, -, hread⟩ := h.split htaken hagrees
  rw [hreads] at hfive hread
  cases rest with
  | nil =>
      cases herrors with
      | nil => exact fun hclosed => hfive (Or.inr hclosed)
      | cons code herrors =>
          exact Or.inr ⟨rfl, hfive (Or.inl nofun), code, _, rfl⟩
  | cons item rest =>
      refine Or.inl ⟨hreads ▸ hscript.next, fun hfour => hread ?_⟩
      rw [hfour, List.length_cons]
      omega

/-! ## A step of the script -/

/-- What a step of the client comes to. -/
structure ClientGoes (sn : Session) (t : Test) (params : Json) (y y' : System) : Prop where
  side : ClientSide sn t params y'.client y'.net
  net : ByClient y.net y'.net
  server : y'.server = y.server
  calls : Added ClientCall.calm y.client.process.client.calls y'.client.process.client.calls

/-- The party after a call. -/
def ClientParty.after (phase : ClientPhase) (r : Client × Bool) (todo : List ClientAction) :
    ClientParty :=
  let todo := if r.2 then todo else []
  ⟨if todo.isEmpty then ClientProcess.afterMessage r else ⟨r.1, phase⟩, todo⟩

variable {y : System} {o : ClientOutcomes} {action : ClientAction} {later : List ClientAction}
  {r : Called Client ClientAction}

theorem clientCall_some (htodo : y.client.todo = action :: later)
    (hperform : action.perform sn o y.client.process.client y.net = some r) :
    y.clientCall sn o =
      { y with
        client := .after y.client.process.phase r.result (r.more ++ later)
        net := r.net.carryClient y.client.process.client
          (ClientParty.after y.client.process.phase r.result (r.more ++ later)).process.client
                } := by
  simp only [System.clientCall, htodo, hperform]
  rfl

theorem clientCall_none (htodo : y.client.todo = action :: later)
    (hperform : action.perform sn o y.client.process.client y.net = none) :
    y.clientCall sn o = y := by
  simp only [System.clientCall, htodo, hperform]

theorem ClientGoes.refl (h : ClientSide sn t params y.client y.net) :
    ClientGoes sn t params y y :=
  ⟨h, ByClient.refl _, rfl, Added.refl _⟩

theorem after_ok (phase : ClientPhase) (c : Client) (todo : List ClientAction) :
    (ClientParty.after phase (c, true) todo).todo = todo ∧
      (ClientParty.after phase (c, true) todo).process.client = c ∧
      (ClientParty.after phase (c, true) todo).process.phase =
        if todo = [] then (if c.state = .testRunning then .starting else .waiting) else phase := by
  unfold ClientParty.after ClientProcess.afterMessage
  cases todo with
  | nil => exact ⟨rfl, rfl, rfl⟩
  | cons action later => exact ⟨rfl, rfl, rfl⟩

theorem state_testRunning (h : stage.state = .testRunning) : stage = .running := by
  cases stage <;> first | rfl | exact absurd h (by decide)

/-- While a handler runs the client waits in it. -/
theorem ClientTalks.busy (h : ClientTalks sn t params stage y.client y.net)
    (hstage : stage ≠ .connecting) (htodo : y.client.todo = action :: later) :
    y.client.process.phase = .waiting := by
  rcases h.waiting hstage with hwaiting | ⟨-, hempty, -⟩
  · exact hwaiting
  · rw [htodo] at hempty
    cases hempty

/-- The call leads to a place of the script. -/
theorem ClientTalks.goesOn (h : ClientTalks sn t params stage y.client y.net) (next : ClientStage)
    (hstage : stage ≠ .connecting) (htodo : y.client.todo = action :: later) {c : Client}
    {more : List ClientAction} {last : Network}
    (hperform : action.perform sn o y.client.process.client y.net = some ⟨(c, true), more, net'⟩)
    (hcarry : net'.carryClient y.client.process.client c = last)
    (hnext : next ≠ .connecting) (hallows : next.Allows (more ++ later))
    (hready : ClientReady t next (more ++ later) c) (hnet : ByClient y.net net')
    (hreads : last.toClient.taken.length = next.reads)
    (htaken : Line (sn.ServerItem t.totalStreams) last.toClient.taken)
    (hwrites : last.toServer.written.length = next.writes)
    (hwritten : Line (sn.ClientItem params t.totalStreams) last.toServer.written)
    (hopen : last.toServer.closed = false)
    (hcalls : Added ClientCall.calm y.client.process.client.calls c.calls) :
    ClientGoes sn t params y (y.clientCall sn o) := by
  have hwaiting := h.busy hstage htodo
  rw [clientCall_some htodo hperform]
  obtain ⟨hafterTodo, hafterClient, hafterPhase⟩ :=
    after_ok y.client.process.phase c (more ++ later)
  refine ⟨Or.inl ⟨next, ?_⟩, ?_, rfl, ?_⟩
  · refine ⟨fun hconnecting => absurd hconnecting hnext, fun _ => ?_, ?_, ?_, ?_, ?_, ?_, ?_, ?_⟩
    · dsimp only
      rw [hafterPhase, hafterTodo]
      split_ifs with hempty hrunning
      · right
        exact ⟨state_testRunning (hready.state.symm.trans hrunning), hempty, Or.inl rfl⟩
      · exact Or.inl rfl
      · exact Or.inl hwaiting
    · dsimp only
      rw [hafterTodo]
      exact hallows
    · dsimp only
      rw [hafterTodo, hafterClient]
      exact hready
    all_goals
      dsimp only
      rw [hafterClient, hcarry]
      assumption
  · exact hnet.trans (byClient_carry _ _ _)
  · dsimp only
    rw [hafterClient]
    exact hcalls

/-- The client has left the script where it was. -/
theorem ClientTalks.left (h : ClientTalks sn t params stage y.client y.net)
    {party : ClientParty} (items : List (Item ItemKind)) (hnet : ByClient y.net net')
    (hserver : net'.toServer = (y.net.toServer.write items).close)
    (htaken : y.net.toClient.taken <+: net'.toClient.taken)
    (hgone : party.Gone sn net') (hitems : items = [] ∨ items = [stateItem .iperfDone])
    (hleft : y.net.Broken ∨ (2 ≤ stage.writes ∧ stage.writes ≠ 3)) :
    ClientLeft sn t params party net' := by
  have hwritten : net'.toServer.written = y.net.toServer.written ++ items := by rw [hserver]; rfl
  have hstarted : 3 ≤ stage.writes → sn.Started t.totalStreams net' :=
    fun hwrites => (h.started hwrites).mono htaken
  have hbroken : y.net.Broken → net'.Broken := hnet.broken
  by_cases hend : items = [stateItem .iperfDone] ∧ stage.writes = 4
  · -- an `IPERF_DONE` in its place
    obtain ⟨rfl, hwrites⟩ := hend
    refine ⟨hgone, _, [], hwritten.trans (List.append_nil _).symm, h.written.concat ?_, Or.inl rfl,
      fun _ => Or.inr ?_, ?_⟩
    · rw [h.writes, hwrites]
      rfl
    · rw [List.length_append, h.writes, hwrites]
      decide
    · exact fun _ => hstarted (by omega)
  · refine ⟨hgone, _, items, hwritten, h.written, ?_, fun _ => ?_, ?_⟩
    · rcases hitems with rfl | rfl
      · exact Or.inl rfl
      · exact Or.inr ⟨rfl, fun hlength => hend ⟨rfl, h.writes.symm.trans hlength⟩⟩
    · rw [h.writes]
      exact hleft.imp_left hbroken
    · rw [h.writes]
      exact hstarted

theorem ClientTalks.fails (h : ClientTalks sn t params stage y.client y.net)
    (hstage : stage ≠ .connecting) (htodo : y.client.todo = action :: later) {c : Client}
    {more : List ClientAction}
    (hperform : action.perform sn o y.client.process.client y.net = some ⟨(c, false), more, net'⟩)
    (hfailing : Failing y.client.process.client c) (hnet : ByClient y.net net')
    (hserver : net'.toServer = y.net.toServer)
    (htaken : y.net.toClient.taken <+: net'.toClient.taken)
    (hleft : y.net.Broken ∨ (2 ≤ stage.writes ∧ stage.writes ≠ 3)) :
    ClientGoes sn t params y (y.clientCall sn o) := by
  have hctrl := h.ready.ctrlSck hstage
  obtain ⟨workers, hclosed⟩ := cleanupAndFail_calls c (hfailing.ctrlSck.trans hctrl)
  rw [clientCall_some htodo hperform]
  refine ⟨Or.inr ?_, hnet.trans (byClient_carry _ _ _), rfl, ?_⟩
  · refine h.left (if y.client.process.client.state.positive then [stateItem .iperfDone]
      else []) (hnet.trans (byClient_carry _ _ _)) ?_ htaken
      (Or.inl ⟨rfl, Or.inl ⟨-1, rfl⟩⟩) ?_ hleft
    · change (net'.carryClient _ (ClientProcess.cleanupAndFail c).client).toServer = _
      rw [carryClient_cleanup net' hfailing hctrl, hserver]
    · split_ifs
      · exact Or.inr rfl
      · exact Or.inl rfl
  · change Added _ _ (ClientProcess.cleanupAndFail c).client.calls
    rw [hclosed]
    refine (hfailing.calls.mono fun _ => ClientCall.calm_of_silent).trans ⟨_, rfl, ?_⟩
    split_ifs <;> simp [ClientCall.calm]

/-- A call that neither reads nor writes. -/
theorem ClientTalks.quiet (h : ClientTalks sn t params stage y.client y.net) (next : ClientStage)
    (hstage : stage ≠ .connecting) (htodo : y.client.todo = action :: later)
    {result : Client × Bool}
    (hperform : action.perform sn o y.client.process.client y.net = some ⟨result, [], net'⟩)
    (hnext : next ≠ .connecting) (hallows : next.Allows later)
    (hpasses : ClientPasses y.client.process.client result)
    (hready : ClientProceeds y.client.process.client result.1 → ClientReady t next later result.1)
    (hnet : ByClient y.net net') (hserver : net'.toServer = y.net.toServer)
    (hclient : net'.toClient = y.net.toClient) (hreads : stage.reads = next.reads)
    (hwrites : stage.writes = next.writes) (hleft : 2 ≤ stage.writes ∧ stage.writes ≠ 3) :
    ClientGoes sn t params y (y.clientCall sn o) := by
  obtain ⟨c, ok⟩ := result
  rcases hpasses with ⟨hok, hc⟩ | ⟨hfails, hc⟩
  · cases hok
    refine h.goesOn next hstage htodo hperform (carryClient_silent hc.calls) hnext hallows
      (hready hc)
      hnet ?_ ?_ ?_ ?_ ?_ (hc.calls.mono fun _ => ClientCall.calm_of_silent)
    · rw [hclient, h.reads, hreads]
    · rw [hclient]
      exact h.taken
    · rw [hserver, h.writes, hwrites]
    · rw [hserver]
      exact h.written
    · rw [hserver]
      exact h.isOpen
  · cases hfails
    exact h.fails hstage htodo hperform hc hnet hserver (by rw [hclient]) (Or.inr hleft)

/-- A call that writes an item of the script. -/
theorem ClientTalks.writes_item (h : ClientTalks sn t params stage y.client y.net)
    (next : ClientStage) (hstage : stage ≠ .connecting) (htodo : y.client.todo = action :: later)
    {item : Item ItemKind}
    (hperform : action.perform sn o y.client.process.client y.net =
      some ⟨(y.client.process.client, true), [],
        { y.net with toServer := y.net.toServer.write [item] }⟩)
    (hnext : next ≠ .connecting) (hallows : next.Allows later)
    (hready : ClientReady t next later y.client.process.client)
    (hitem : sn.ClientItem params t.totalStreams stage.writes item)
    (hreads : stage.reads = next.reads) (hwrites : stage.writes + 1 = next.writes) :
    ClientGoes sn t params y (y.clientCall sn o) := by
  have hnet : ByClient y.net { y.net with toServer := y.net.toServer.write [item] } :=
    ⟨rfl, rfl, rfl, id, fun pending hagrees => ⟨[item], hagrees.write [item]⟩, fun _ => rfl⟩
  refine h.goesOn next hstage htodo hperform
    (carryClient_silent (Added.refl _)) hnext hallows hready
    hnet (h.reads.trans hreads) h.taken ?_ (h.written.concat (h.writes ▸ hitem)) h.isOpen
    (Added.refl _)
  rw [Channel.write, List.length_append, h.writes, List.length_singleton, hwrites]

theorem ClientTalks.cookie (h : ClientTalks sn t params .cookie y.client y.net) :
    ClientGoes sn t params y (y.clientCall sn o) := by
  have htodo : y.client.todo = [.sendCookie] := h.todo
  exact h.writes_item .connected nofun htodo rfl nofun (Or.inl rfl)
    ⟨h.ready.state, fun _ => h.ready.ctrlSck nofun, h.ready.test, h.ready.ids, h.ready.counts⟩ rfl
    rfl rfl

theorem ClientTalks.parameters (h : ClientTalks sn t params .params y.client y.net)
    (hs : sn.Suits t params) : ClientGoes sn t params y (y.clientCall sn o) := by
  have htodo : y.client.todo = [.sendParameters] := h.todo
  have hsent :
      sendParameters sn.clientBuild sn.auth y.client.process.client.test = some params := by
    rw [h.ready.test (by decide)]
    exact hs.sent
  exact h.writes_item .told nofun htodo (by simp only [ClientAction.perform, hsent])
    nofun (Or.inl rfl)
    ⟨h.ready.state, fun _ => h.ready.ctrlSck nofun, h.ready.test, h.ready.ids, h.ready.counts⟩ rfl
    rfl rfl

theorem ClientTalks.testStart (h : ClientTalks sn t params .testStart y.client y.net) :
    ClientGoes sn t params y (y.clientCall sn o) := by
  have htodo : y.client.todo = [.testStart] := h.todo
  refine h.quiet .started nofun htodo rfl nofun (Or.inl rfl)
    (handleTestStart_passes o.start _) (fun hc => ?_) (ByClient.refl _) rfl rfl rfl rfl (by decide)
  have hready := h.ready.proceeds hc
  have hcounts := hready.counts
  rw [htodo] at hcounts
  exact ⟨hready.state, fun _ => hready.ctrlSck nofun, nofun, hready.ids, hcounts⟩

theorem ClientTalks.sendResults (h : ClientTalks sn t params .sendResults y.client y.net)
    (hcarries : sn.codec.Carries 0 (Iperf3.sendResults y.client.process.client.toTestSide)) :
    ClientGoes sn t params y (y.clientCall sn o) := by
  have htodo : y.client.todo = [.sendResults, .getResults] := h.todo
  have hlength : y.client.process.client.streams.length = t.totalStreams := by
    have hcounts := h.ready.counts
    rw [htodo] at hcounts
    simpa [ClientStage.Counts, ClientStage.reads, ClientAction.adds] using hcounts
  have hids : y.client.process.client.streams.map (·.id) = streamIds t.totalStreams :=
    hlength ▸ h.ready.ids
  have hcounts := h.ready.counts
  rw [htodo] at hcounts
  exact h.writes_item .getResults nofun htodo rfl nofun rfl
    ⟨h.ready.state, fun _ => h.ready.ctrlSck nofun, nofun, h.ready.ids, hcounts⟩
    ⟨_, hids, hcarries, rfl⟩ rfl rfl

/-- A call of `iperf_create_streams`. -/
theorem ClientTalks.streams (h : ClientTalks sn t params .streams y.client y.net)
    (htodo : y.client.todo = action :: later)
    (hdials : ∀ other ∈ action :: later, other.dials = true) :
    ClientGoes sn t params y (y.clientCall sn o) := by
  have hlater : ClientStage.streams.Allows later :=
    Or.inl fun other hother => hdials other (List.mem_cons_of_mem _ hother)
  have hcounts : y.client.process.client.streams.length +
      (action :: later).countP ClientAction.adds = t.totalStreams := htodo ▸ h.ready.counts
  have hready : ∀ {c}, action.adds = false → ClientProceeds y.client.process.client c →
      ClientReady t .streams later c := by
    intro c hadds hc
    refine ClientReady.proceeds ?_ hc
    refine ⟨h.ready.state, h.ready.ctrlSck, h.ready.test, h.ready.ids, ?_⟩
    rwa [List.countP_cons_of_neg (by simp [hadds])] at hcounts
  have hleft : 2 ≤ ClientStage.streams.writes ∧ ClientStage.streams.writes ≠ 3 := by decide
  have hsame := clientPasses_of_proceeds (ClientProceeds.refl y.client.process.client)
  cases action with
  | dialStream =>
      exact h.quiet .streams nofun htodo rfl nofun hlater hsame (hready rfl)
        ⟨rfl, rfl, rfl, id, fun pending h => ⟨[], by simpa using h⟩, fun _ => rfl⟩ rfl rfl rfl rfl
        hleft
  | takeReply =>
      by_cases hreplies : 0 < y.net.replies
      · have hperform : ClientAction.takeReply.perform sn o y.client.process.client y.net =
            some ⟨(y.client.process.client, true), [],
              { y.net with replies := y.net.replies - 1 }⟩ := if_pos hreplies
        exact h.quiet .streams nofun htodo hperform nofun hlater hsame (hready rfl)
          ⟨rfl, rfl, rfl, id, fun pending h => ⟨[], by simpa using h⟩, fun _ => rfl⟩ rfl rfl rfl
          rfl hleft
      · rw [clientCall_none htodo (by simp only [ClientAction.perform, if_neg hreplies])]
        exact ClientGoes.refl (Or.inl ⟨_, h⟩)
  | newStream sender =>
      cases hbuffer : o.buffer with
      | none =>
          refine h.fails nofun htodo
            (by simp only [ClientAction.perform, Client.addStream, hbuffer]; rfl)
            (failing_withErrno _ (by decide)) (ByClient.refl _) rfl List.prefix_rfl (Or.inr hleft)
      | some buffer =>
          have hperform :
              (ClientAction.newStream sender).perform sn o y.client.process.client y.net =
              some ⟨(Client.log .newStream { y.client.process.client with
                streams := iperfAddStream y.client.process.client.streams
                  (iperfNewStream sender buffer) }, true), [], y.net⟩ := by
            simp only [ClientAction.perform, Client.addStream, hbuffer]
          refine h.goesOn .streams nofun htodo hperform
            (carryClient_silent ((Added.refl _).concat rfl)) nofun hlater ?_ (ByClient.refl _)
            h.reads h.taken h.writes h.written h.isOpen ((Added.refl _).concat rfl)
          refine ⟨h.ready.state, h.ready.ctrlSck, nofun, h.ready.ids.addStream _, ?_⟩
          rw [List.countP_cons_of_pos rfl] at hcounts
          simp only [ClientStage.Counts, ClientStage.reads, Client.log, iperfAddStream,
            List.length_append, List.length_singleton, List.nil_append]
          rw [if_neg (by decide)]
          omega
  | sendCookie | readMessage | sendParameters | testStart | sendResults | getResults | clientEnd
  | readErrorCodes | fail =>
      exact absurd (hdials _ List.mem_cons_self) (by simp [ClientAction.dials])

theorem ClientTalks.getResults (h : ClientTalks sn t params .getResults y.client y.net)
    (hk : IsInt (t.totalStreams + 1)) (hagrees : ∃ pending, y.net.toClient.Agrees pending)
    (hoffers : sn.Offers t.totalStreams y.net 5) :
    ClientGoes sn t params y (y.clientCall sn o) := by
  have htodo : y.client.todo = [.getResults] := h.todo
  obtain ⟨pending, hagrees⟩ := hagrees
  have hnext := hoffers pending hagrees
  cases pending with
  | nil =>
      have hopen : y.net.toClient.closed = false := by
        by_contra hclosed
        exact hnext (by simpa using hclosed) rfl
      rw [clientCall_none htodo (by simp [ClientAction.perform, readJson_nil hagrees hopen])]
      exact ClientGoes.refl (Or.inl ⟨_, h⟩)
  | cons item pending =>
      rcases hnext with ⟨⟨peer, hpeer, hcarries, rfl⟩, -⟩ | ⟨-, hfive, -⟩
      · obtain ⟨f, c, hf, hread, hagrees', htaken, hwritten, hclosed⟩ :=
          readJson_item hagrees hcarries
        have hlength : y.client.process.client.streams.length = t.totalStreams := by
          have hcounts := h.ready.counts
          rw [htodo] at hcounts
          simpa [ClientStage.Counts, ClientStage.reads, ClientAction.adds] using hcounts
        have hids : y.client.process.client.streams.map (·.id) = streamIds t.totalStreams :=
          hlength ▸ h.ready.ids
        obtain ⟨hnodup, hknown⟩ := knownStreams_of_ids hk hpeer hids
        obtain ⟨side, hresults, hstreams, -, -, -⟩ :=
          getResults_sendResults hf hnodup hknown
        have hsame : side.streams.map (·.id) = y.client.process.client.streams.map (·.id) := by
          rw [hstreams]
          exact map_id_absorbAll _ _
        have hnoted : y.client.process.client.getResults
            (some ((Iperf3.sendResults peer).mapNumbers f)) =
              ({ y.client.process.client with toTestSide := side }, true) := by
          unfold Client.getResults
          rw [hresults]
          rfl
        have hnet : ByClient y.net { y.net with toClient := c } :=
          ⟨hwritten, hclosed, rfl, fun _ => ⟨_, hagrees'⟩,
            fun pending h => ⟨[], by simpa using h⟩, fun _ => rfl⟩
        have hperform : ClientAction.getResults.perform sn o y.client.process.client y.net =
            some ⟨({ y.client.process.client with toTestSide := side }, true), [],
              { y.net with toClient := c }⟩ := by
          simp only [ClientAction.perform, hread, Option.map_some, hnoted]
        refine h.goesOn .exchanged nofun htodo hperform
          (carryClient_silent (Added.refl _)) nofun (Or.inl rfl) ?_ hnet ?_ ?_ h.writes h.written
          h.isOpen (Added.refl _)
        · refine ⟨h.ready.state, fun _ => h.ready.ctrlSck nofun, nofun, h.ready.ids.congr hsame, ?_⟩
          have hkept : side.streams.length = y.client.process.client.streams.length := by
            simpa using congrArg List.length hsame
          exact hkept.trans hlength
        · dsimp only
          rw [htaken, List.length_append, h.reads]
          rfl
        · dsimp only
          rw [htaken]
          exact h.taken.concat (h.reads ▸ ⟨peer, hpeer, hcarries, rfl⟩)
      · exact absurd rfl hfive

theorem ClientTalks.clientEnd (h : ClientTalks sn t params .display y.client y.net) :
    ClientGoes sn t params y (y.clientCall sn o) := by
  have htodo : y.client.todo = [.clientEnd] := h.todo
  have hend := iperfClientEnd_eq y.client.process.client (h.ready.ctrlSck nofun)
    (by rw [h.ready.state]; decide)
  have hcalls : (iperfClientEnd true y.client.process.client).1.calls =
      y.client.process.client.calls ++ [.streamsClosed, .sent .iperfDone] := by
    rw [hend]
    simp [Client.log, Client.enter]
  have hcarry := carryClient_of_calls y.net hcalls
  have hafter : ClientParty.after y.client.process.phase
      ((iperfClientEnd true y.client.process.client).1, true) [] =
        ⟨⟨(iperfClientEnd true y.client.process.client).1, .waiting⟩, []⟩ := by
    rw [hend]
    rfl
  have hlist : y.client.todo = .clientEnd :: [] := htodo
  rw [clientCall_some hlist rfl]
  change ClientGoes sn t params y { y with
    client := ClientParty.after _ _ []
    net := y.net.carryClient _ (ClientParty.after _ _ []).process.client }
  rw [hafter]
  refine ⟨Or.inr ?_, byClient_carry _ _ _, rfl, ?_⟩
  · refine h.left [stateItem .iperfDone] (byClient_carry _ _ _) ?_ List.prefix_rfl
      (Or.inl ⟨rfl, Or.inr ⟨rfl, ?_⟩⟩) (Or.inr rfl) (Or.inr (by decide))
    · dsimp only
      rw [hcarry, if_pos List.mem_cons_self]
      rfl
    · dsimp only
      rw [hend]
      rfl
  · dsimp only
    rw [hend]
    exact ((Added.refl _).concat rfl).concat rfl

theorem dials_createStreams (t : Test) :
    ∀ action ∈ messageActions t .createStreams, action.dials = true := by
  intro action haction
  obtain ⟨sender, -, hmem⟩ := List.mem_flatMap.mp haction
  unfold createStreamActions at hmem
  split_ifs at hmem <;> fin_cases hmem <;> rfl

/-- One stream for each direction. -/
theorem countP_createStreams (t : Test) :
    (messageActions t .createStreams).countP ClientAction.adds = t.streamDirections.length := by
  unfold messageActions
  induction t.streamDirections with
  | nil => rfl
  | cons sender directions ih =>
      have hone : (createStreamActions t.protocol sender).countP ClientAction.adds = 1 := by
        unfold createStreamActions
        split_ifs <;> rfl
      rw [List.flatMap_cons, List.countP_append, ih, hone, List.length_cons, Nat.add_comm]

/-- The state that the client expects. -/
theorem ClientTalks.hears (h : ClientTalks sn t params stage y.client y.net) (next : ClientStage)
    (hstage : stage ≠ .connecting) (htodo : y.client.todo = [.readMessage])
    {pending : List (Item ItemKind)}
    (hagrees : y.net.toClient.Agrees (stateItem next.state :: pending))
    (hbyte : TestState.ofByte next.state.toByte = next.state) (hnext : next ≠ .connecting)
    (hallows : next.Allows (messageActions y.client.process.client.test next.state))
    (hcounts : next.Counts t.totalStreams
      (messageActions y.client.process.client.test next.state) y.client.process.client)
    (htest : next.reads < 2 → stage.reads < 2) (hreads : stage.reads + 1 = next.reads)
    (hwrites : stage.writes = next.writes)
    (hitem : sn.ServerItem t.totalStreams stage.reads (stateItem next.state)) :
    ClientGoes sn t params y (y.clientCall sn o) := by
  obtain ⟨c, hread, hagrees', htaken, hwritten, hclosed⟩ :=
    hagrees.read .state 1 rfl rfl
  have hperform : ClientAction.readMessage.perform sn o y.client.process.client y.net =
      some ⟨((y.client.process.client.log (.controlRead (.byte next.state.toByte))).enter
        next.state, true), messageActions y.client.process.client.test next.state,
          { y.net with toClient := c }⟩ := by
    simp only [ClientAction.perform, hread, Option.map_some, stateItem, List.headD_cons, hbyte]
  have hnet : ByClient y.net { y.net with toClient := c } :=
    ⟨hwritten, hclosed, rfl, fun _ => ⟨_, hagrees'⟩, fun pending h => ⟨[], by simpa using h⟩,
      fun _ => rfl⟩
  have hready : ClientReady t next (messageActions y.client.process.client.test next.state ++ [])
      ((y.client.process.client.log (.controlRead (.byte next.state.toByte))).enter
        next.state) := by
    rw [List.append_nil]
    exact ⟨rfl, fun _ => h.ready.ctrlSck hstage, fun hearly => h.ready.test (htest hearly),
      h.ready.ids, hcounts⟩
  refine h.goesOn next hstage htodo hperform (carryClient_silent ((Added.refl _).concat rfl)) hnext
    (by rwa [List.append_nil]) hready hnet ?_ ?_ (h.writes.trans hwrites) h.written h.isOpen
    ((Added.refl _).concat rfl)
  · dsimp only
    rw [htaken, List.length_append, h.reads, List.length_singleton, hreads]
  · dsimp only
    rw [htaken]
    exact h.taken.concat (h.reads ▸ hitem)

/-- The server reports an error, and its codes follow. -/
theorem ClientTalks.errorReported (h : ClientTalks sn t params stage y.client y.net)
    (hstage : stage ≠ .connecting) (htodo : y.client.todo = [.readMessage]) {code : IErrno}
    {pending : List (Item ItemKind)}
    (hagrees : y.net.toClient.Agrees
      (stateItem .serverError :: ⟨.errorCodes, sn.errorCodes code⟩ :: pending)) :
    ClientGoes sn t params y (y.clientCall sn o) := by
  obtain ⟨c, hread, hagrees', htaken, hwritten, hclosed⟩ :=
    hagrees.read .state 1 rfl rfl
  obtain ⟨heard, hheard⟩ : ∃ heard, heard = (y.client.process.client.log
    (.controlRead (.byte TestState.serverError.toByte))).enter .serverError := ⟨_, rfl⟩
  have hperform : ClientAction.readMessage.perform sn o y.client.process.client y.net =
      some ⟨(heard, true), [.readErrorCodes], { y.net with toClient := c }⟩ := by
    simp only [ClientAction.perform, hread, Option.map_some, hheard]
    rfl
  have hcalls : Added ClientCall.silent y.client.process.client.calls heard.calls :=
    hheard ▸ (Added.refl _).concat rfl
  have hnet : ByClient y.net { y.net with toClient := c } :=
    ⟨hwritten, hclosed, rfl, fun _ => ⟨_, hagrees'⟩, fun pending h => ⟨[], by simpa using h⟩,
      fun _ => rfl⟩
  have hbroken : y.net.Broken := by
    right
    rw [hagrees.written]
    simp
  have hafter : ClientParty.after y.client.process.phase (heard, true) [.readErrorCodes] =
      ⟨⟨heard, y.client.process.phase⟩, [.readErrorCodes]⟩ := rfl
  have hcall : y.clientCall sn o = { y with
      client := ⟨⟨heard, y.client.process.phase⟩, [.readErrorCodes]⟩
      net := { y.net with toClient := c } } := by
    rw [clientCall_some htodo hperform, List.append_nil, hafter, carryClient_silent hcalls]
  rw [hcall]
  refine ⟨Or.inr ?_, hnet, rfl, hcalls.mono fun _ => ClientCall.calm_of_silent⟩
  have hwrote := h.wrote
  refine ⟨Or.inr ⟨rfl, h.busy hstage htodo, by rw [hheard]; rfl, ?_, hnet.broken hbroken,
    code, pending, hagrees'⟩, y.net.toServer.written, [], ?_⟩
  · rw [hheard]
    exact h.ready.ctrlSck hstage
  · exact ⟨hwrote.written, hwrote.script, hwrote.last, fun _ => Or.inl (hnet.broken hbroken),
      fun hlength => (hwrote.started hlength).mono (by simp [htaken])⟩

theorem ClientTalks.readMessage (h : ClientTalks sn t params stage y.client y.net)
    (hstage : stage ≠ .connecting) (htodo : y.client.todo = [.readMessage])
    (hagrees : ∃ pending, y.net.toClient.Agrees pending)
    (hserver : ∃ pending, y.net.toServer.Agrees pending)
    (hoffers : sn.Offers t.totalStreams y.net stage.reads) :
    ClientGoes sn t params y (y.clientCall sn o) := by
  obtain ⟨pending, hagrees⟩ := hagrees
  have hnext := hoffers pending hagrees
  cases pending with
  | nil =>
      have hread := hagrees.read_nil .state Nat.one_pos
      cases hclosed : y.net.toClient.closed with
      | false =>
          rw [clientCall_none htodo (by simp [ClientAction.perform, hread, hclosed])]
          exact ClientGoes.refl (Or.inl ⟨_, h⟩)
      | true =>
          have hfailing : Failing y.client.process.client
              ((y.client.process.client.log (.controlRead .closed)).withErrno .ieCtrlClose) :=
            (clientProceeds_log rfl).failing (failing_withErrno _ (by decide))
          exact h.fails hstage htodo
            (by simp only [ClientAction.perform, hread, hclosed, if_true, Option.map_some]; rfl)
            hfailing (ByClient.refl _) rfl List.prefix_rfl (Or.inl (Or.inl hclosed))
  | cons item pending =>
      rcases hnext with ⟨hitem, hfour⟩ | ⟨rfl, -, code, rest, rfl⟩
      · have hcounts := h.ready.counts
        have htodo' := h.todo
        rw [htodo] at hcounts htodo'
        cases stage
        case connected =>
          have hstate : item = stateItem .paramExchange := hitem
          subst hstate
          exact h.hears .params hstage htodo hagrees (by decide) nofun rfl hcounts
            (fun _ => by decide) rfl rfl rfl
        case told =>
          have hstate : item = stateItem .createStreams := hitem
          subst hstate
          have hempty : y.client.process.client.streams = [] := hcounts
          have htest : y.client.process.client.test = t := h.ready.test (by decide)
          refine h.hears .streams hstage htodo hagrees (by decide) nofun ?_ ?_
            (by decide) rfl rfl rfl
          · exact Or.inl (dials_createStreams _)
          · unfold ClientStage.Counts
            rw [if_neg (by decide), hempty, htest, ← length_streamDirections, List.length_nil,
              Nat.zero_add]
            exact countP_createStreams t
        case streams =>
          have hstate : item = stateItem .testStart := hitem
          subst hstate
          exact h.hears .testStart hstage htodo hagrees (by decide) nofun rfl hcounts
            (by decide) rfl rfl rfl
        case started =>
          have hstate : item = stateItem .testRunning := hitem
          subst hstate
          exact h.hears .running hstage htodo hagrees (by decide) nofun (Or.inl rfl)
            hcounts (by decide) rfl rfl rfl
        case running =>
          -- the answer to `TEST_END` does not come before it
          obtain ⟨unread, hunread⟩ := hserver
          have hlength := congrArg List.length hunread.written
          rw [h.writes, List.length_append] at hlength
          have htaken := hfour rfl
          simp only [ClientStage.writes] at hlength
          omega
        case ended =>
          have hstate : item = stateItem .exchangeResults := hitem
          subst hstate
          exact h.hears .sendResults hstage htodo hagrees (by decide) nofun rfl hcounts
            (by decide) rfl rfl rfl
        case exchanged =>
          have hstate : item = stateItem .displayResults := hitem
          subst hstate
          exact h.hears .display hstage htodo hagrees (by decide) nofun rfl hcounts
            (by decide) rfl rfl rfl
        all_goals cases htodo'
      · exact h.errorReported hstage htodo hagrees

/-! ## The steps of the client -/

theorem clientCall_empty (htodo : y.client.todo = []) : y.clientCall sn o = y := by
  simp only [System.clientCall, htodo]

/-- The error codes are read, and the sockets closed. -/
theorem ClientLeft.call (h : ClientLeft sn t params y.client y.net) :
    ClientGoes sn t params y (y.clientCall sn o) := by
  rcases h.gone with ⟨hempty, -⟩ | ⟨htodo, -, hstate, hctrl, hbroken, code, later, hagrees⟩
  · rw [clientCall_empty hempty]
    exact ClientGoes.refl (Or.inr h)
  · obtain ⟨c, hread, hagrees', htaken, hwritten, hclosed⟩ :=
      hagrees.read .errorCodes 8 rfl (sn.length_errorCodes code)
    have hperform : ClientAction.readErrorCodes.perform sn o y.client.process.client y.net =
        some ⟨(y.client.process.client.takeErrno o.serverErrno, false), [],
          { y.net with toClient := c }⟩ := by
      simp only [ClientAction.perform, hread, Option.map_some]
    have hnet : ByClient y.net { y.net with toClient := c } :=
      ⟨hwritten, hclosed, rfl, fun _ => ⟨_, hagrees'⟩, fun pending h => ⟨[], by simpa using h⟩,
        fun _ => rfl⟩
    have hfailing : Failing y.client.process.client
        (y.client.process.client.takeErrno o.serverErrno) :=
      ⟨rfl, rfl, Added.refl _⟩
    obtain ⟨workers, hcalls⟩ := cleanupAndFail_calls
      (y.client.process.client.takeErrno o.serverErrno) hctrl
    have hcarry := carryClient_cleanup { y.net with toClient := c } hfailing hctrl
    have hquiet : (if y.client.process.client.state.positive then [stateItem .iperfDone] else []) =
        [] := by
      rw [hstate]
      rfl
    rw [hquiet] at hcarry
    obtain ⟨main, late, hwrote⟩ := h.wrote
    have hcall : y.clientCall sn o = { y with
        client := ⟨ClientProcess.cleanupAndFail
          (y.client.process.client.takeErrno o.serverErrno), []⟩
        net := { y.net with toClient := c, toServer := (y.net.toServer.write []).close } } := by
      rw [clientCall_some htodo hperform, ← hcarry]
      rfl
    rw [hcall]
    have hlast : ByClient y.net
        { y.net with toClient := c, toServer := (y.net.toServer.write []).close } :=
      ⟨hwritten, hclosed, rfl, fun _ => ⟨_, hagrees'⟩,
        fun pending h => ⟨[], (h.write []).close⟩, fun _ => rfl⟩
    refine ⟨Or.inr ⟨Or.inl ⟨rfl, Or.inl ⟨-1, rfl⟩⟩, main, late, ?_⟩, hlast, rfl, ?_⟩
    · refine ⟨by simpa [Channel.write, Channel.close] using hwrote.written, hwrote.script,
        hwrote.last, fun _ => Or.inl (hlast.broken hbroken), fun hlength => ?_⟩
      exact (hwrote.started hlength).mono (by simp [htaken])
    · dsimp only
      rw [hcalls]
      refine (hfailing.calls.mono fun _ => ClientCall.calm_of_silent).trans ⟨_, rfl, ?_⟩
      split_ifs <;> simp [ClientCall.calm]

theorem clientCall_goes (hs : sn.Suits t params) (h : ClientSide sn t params y.client y.net)
    (hagrees : ∃ pending, y.net.toClient.Agrees pending)
    (hserver : ∃ pending, y.net.toServer.Agrees pending)
    (hoffers : ∀ stage, ClientTalks sn t params stage y.client y.net →
      sn.Offers t.totalStreams y.net stage.reads)
    (hresults : y.client.todo.head? = some .sendResults →
      sn.codec.Carries 0 (sendResults y.client.process.client.toTestSide)) :
    ClientGoes sn t params y (y.clientCall sn o) := by
  rcases h with ⟨stage, h⟩ | h
  · have hoffered := hoffers stage h
    have htodo := h.todo
    cases hlist : y.client.todo with
    | nil =>
        rw [clientCall_empty hlist]
        exact ClientGoes.refl (Or.inl ⟨stage, h⟩)
    | cons action later =>
        rw [hlist] at htodo
        cases stage
        case connecting => cases htodo
        case cookie => exact h.cookie
        case params => exact h.parameters hs
        case streams =>
          rcases htodo with hdials | hread
          · exact h.streams hlist hdials
          · exact h.readMessage nofun (hlist.trans hread) hagrees hserver hoffered
        case testStart => exact h.testStart
        case sendResults => exact h.sendResults (hresults (by rw [hlist, htodo]; rfl))
        case getResults => exact h.getResults hs.small hagrees hoffered
        case display => exact h.clientEnd
        all_goals
          rcases htodo with hempty | hread
          · cases hempty
          · exact h.readMessage nofun (hlist.trans hread) hagrees hserver hoffered
  · exact h.call

theorem clientConnect_goes (h : ClientSide sn t params y.client y.net) :
    ClientGoes sn t params y y.clientConnect := by
  unfold System.clientConnect
  split_ifs with hphase
  · rcases h with ⟨stage, h⟩ | h
    · have hstage : stage = .connecting := by
        by_contra hother
        rcases h.waiting hother with hwaiting | ⟨-, -, hrunning | hrunning⟩
        · rw [hphase] at hwaiting
          cases hwaiting
        · rw [hphase] at hrunning
          cases hrunning
        · rw [hphase] at hrunning
          cases hrunning
      subst hstage
      have hidle := (h.connecting rfl).2
      refine ⟨Or.inl ⟨.cookie, ?_⟩, ?_, rfl, Added.refl _⟩
      · exact
          { connecting := nofun
            waiting := fun _ => Or.inl rfl
            todo := rfl
            ready := ⟨h.ready.state, fun _ => rfl, h.ready.test, h.ready.ids, h.ready.counts⟩
            reads := h.reads
            taken := h.taken
            writes := h.writes
            written := h.written
            isOpen := h.isOpen }
      · exact ⟨rfl, rfl, rfl, id, fun pending h => ⟨[], by simpa using h⟩,
          fun hother => absurd hidle hother⟩
    · rcases h.gone with ⟨-, ⟨rc, hreturned⟩ | ⟨hwaiting, -⟩⟩ | ⟨-, hwaiting, -⟩
      · rw [hphase] at hreturned
        cases hreturned
      · rw [hphase] at hwaiting
        cases hwaiting
      · rw [hphase] at hwaiting
        cases hwaiting
  · exact ClientGoes.refl h

/-- An event of the loop that writes nothing. -/
theorem ClientTalks.stays (h : ClientTalks sn t params stage y.client y.net)
    (hstage : stage ≠ .connecting) {c : Client} {phase : ClientPhase}
    (hc : ClientProceeds y.client.process.client c)
    (hphase : phase = .waiting ∨ (stage = .running ∧ y.client.todo = [] ∧
      (phase = .starting ∨ phase = .checking))) :
    ClientGoes sn t params y { y with
      client := { y.client with process := ⟨c, phase⟩ }
      net := y.net.carryClient y.client.process.client c } := by
  rw [carryClient_silent hc.calls]
  refine ⟨Or.inl ⟨stage, ?_⟩, ByClient.refl _, rfl,
    hc.calls.mono fun _ => ClientCall.calm_of_silent⟩
  exact
    { connecting := fun hconnecting => absurd hconnecting hstage
      waiting := fun _ => hphase
      todo := h.todo
      ready := h.ready.proceeds hc
      reads := h.reads
      taken := h.taken
      writes := h.writes
      written := h.written
      isOpen := h.isOpen }

/-- An event of the loop with which the client leaves. -/
theorem ClientTalks.leaves (h : ClientTalks sn t params stage y.client y.net)
    (hstage : stage ≠ .connecting) (htodo : y.client.todo = []) {c : Client}
    (hc : Failing y.client.process.client c) (hwrites : 2 ≤ stage.writes ∧ stage.writes ≠ 3) :
    ClientGoes sn t params y { y with
      client := { y.client with process := ClientProcess.cleanupAndFail c }
      net := y.net.carryClient y.client.process.client
        (ClientProcess.cleanupAndFail c).client } := by
  have hctrl := h.ready.ctrlSck hstage
  obtain ⟨workers, hcalls⟩ := cleanupAndFail_calls c (hc.ctrlSck.trans hctrl)
  refine ⟨Or.inr ?_, byClient_carry _ _ _, rfl, ?_⟩
  · refine h.left (if y.client.process.client.state.positive then [stateItem .iperfDone]
      else []) (byClient_carry _ _ _) ?_ List.prefix_rfl (Or.inl ⟨htodo, Or.inl ⟨-1, rfl⟩⟩) ?_
      (Or.inr hwrites)
    · rw [carryClient_cleanup y.net hc hctrl]
    · split_ifs
      · exact Or.inr rfl
      · exact Or.inl rfl
  · dsimp only
    rw [hcalls]
    refine (hc.calls.mono fun _ => ClientCall.calm_of_silent).trans ⟨_, rfl, ?_⟩
    split_ifs <;> simp [ClientCall.calm]

/-- A client that has left waits for nothing. -/
theorem ClientLeft.deaf (h : ClientLeft sn t params y.client y.net)
    (hphase : y.client.process.phase = .waiting) (htodo : y.client.todo = []) :
    y.client.process.client.state = .iperfDone := by
  rcases h.gone with ⟨-, ⟨rc, hreturned⟩ | ⟨-, hdone⟩⟩ | ⟨hread, -⟩
  · rw [hphase] at hreturned
    cases hreturned
  · exact hdone
  · rw [htodo] at hread
    cases hread

theorem ClientTalks.not_connecting (h : ClientTalks sn t params stage y.client y.net)
    (hphase : y.client.process.phase ≠ .connecting) : stage ≠ .connecting :=
  fun hstage => hphase (h.connecting hstage).1

theorem clientWake_goes (h : ClientSide sn t params y.client y.net) (message : Bool) :
    ClientGoes sn t params y (y.clientWake message) := by
  unfold System.clientWake
  dsimp only
  split_ifs with hcond hmessage hreadable
  · obtain ⟨hphase, hempty, hstate⟩ := hcond
    rcases h with ⟨stage, h⟩ | h
    · have hstage := h.not_connecting (by rw [hphase]; nofun)
      refine ⟨Or.inl ⟨stage, ?_⟩, ByClient.refl _, rfl, Added.refl _⟩
      have htodo := h.todo
      have hcounts := h.ready.counts
      rw [hempty] at htodo hcounts
      have hready : ClientReady t stage [.readMessage] y.client.process.client :=
        ⟨h.ready.state, h.ready.ctrlSck, h.ready.test, h.ready.ids, hcounts⟩
      exact
        { connecting := fun hconnecting => absurd hconnecting hstage
          waiting := fun _ => Or.inl hphase
          todo := by
            cases stage
            case streams => exact Or.inr rfl
            case connecting => exact absurd rfl hstage
            all_goals first | exact Or.inr rfl | cases htodo
          ready := hready
          reads := h.reads
          taken := h.taken
          writes := h.writes
          written := h.written
          isOpen := h.isOpen }
    · exact absurd (h.deaf hphase hempty) hstate
  · exact ClientGoes.refl h
  · obtain ⟨hphase, hempty, hstate⟩ := hcond
    rcases h with ⟨stage, h⟩ | h
    · have hstage := h.not_connecting (by rw [hphase]; nofun)
      have hnext : ∀ phase : ClientPhase,
          phase = (if y.client.process.client.state = .testRunning then .starting else .waiting) →
            phase = .waiting ∨ (stage = .running ∧ y.client.todo = [] ∧
              (phase = .starting ∨ phase = .checking)) := by
        rintro phase rfl
        split_ifs with hrunning
        · exact Or.inr ⟨state_testRunning (h.ready.state.symm.trans hrunning), hempty, Or.inl rfl⟩
        · exact Or.inl rfl
      have hstays := h.stays hstage (ClientProceeds.refl _) (hnext _ rfl)
      rwa [carryClient_silent (Added.refl _)] at hstays
    · exact absurd (h.deaf hphase hempty) hstate
  · exact ClientGoes.refl h

/-- The end of the test is announced. -/
theorem ClientTalks.testEnd (h : ClientTalks sn t params .running y.client y.net)
    (htodo : y.client.todo = []) {c stopped : Client}
    (hstopped : ClientProceeds y.client.process.client stopped)
    (hc : c = Client.log (.sent .testEnd) (stopped.enter .testEnd)) :
    ClientGoes sn t params y { y with
      client := { y.client with process := ⟨c, .waiting⟩ }
      net := y.net.carryClient y.client.process.client c } := by
  have hcarry : y.net.carryClient y.client.process.client c =
      { y.net with toServer := y.net.toServer.write [stateItem .testEnd] } :=
    carryClient_sent hstopped.calls (by rw [hc]; rfl)
  have hready := h.ready.proceeds hstopped
  have hcalls : c.calls = stopped.calls ++ [.sent .testEnd] := by rw [hc]; rfl
  refine ⟨Or.inl ⟨.ended, ?_⟩, byClient_carry _ _ _, rfl, ?_⟩
  · rw [hcarry]
    exact
      { connecting := nofun
        waiting := fun _ => Or.inl rfl
        todo := Or.inl htodo
        ready := by
          rw [hc]
          exact ⟨rfl, fun _ => hready.ctrlSck nofun, nofun, hready.ids, hready.counts⟩
        reads := h.reads
        taken := h.taken
        writes := by
          rw [Channel.write, List.length_append, h.writes]
          rfl
        written := h.written.concat (h.writes ▸ rfl)
        isOpen := h.isOpen }
  · dsimp only
    rw [hcalls]
    exact (hstopped.calls.mono fun _ => ClientCall.calm_of_silent).concat rfl

/-- Workers go on in every phase. -/
theorem ClientTalks.works (h : ClientTalks sn t params stage y.client y.net) {c : Client}
    (hc : ClientProceeds y.client.process.client c) :
    ClientGoes sn t params y { y with
      client := { y.client with process := ⟨c, y.client.process.phase⟩ }
      net := y.net.carryClient y.client.process.client c } := by
  rw [carryClient_silent hc.calls]
  refine ⟨Or.inl ⟨stage, ?_⟩, ByClient.refl _, rfl,
    hc.calls.mono fun _ => ClientCall.calm_of_silent⟩
  exact
    { connecting := h.connecting
      waiting := h.waiting
      todo := h.todo
      ready := h.ready.proceeds hc
      reads := h.reads
      taken := h.taken
      writes := h.writes
      written := h.written
      isOpen := h.isOpen }

/-- The loop leaves its first phase only in a running test. -/
theorem ClientTalks.running (h : ClientTalks sn t params stage y.client y.net)
    (hphase : y.client.process.phase = .starting ∨ y.client.process.phase = .checking) :
    stage = .running := by
  have hstage : stage ≠ .connecting := by
    apply h.not_connecting
    rcases hphase with hphase | hphase <;> rw [hphase] <;> nofun
  rcases h.waiting hstage with hwaiting | ⟨hrunning, -⟩
  · rw [hwaiting] at hphase
    rcases hphase with hphase | hphase <;> cases hphase
  · exact hrunning

theorem ClientTalks.loop (h : ClientTalks sn t params stage y.client y.net) {p : ClientProcess}
    (hp : ClientLoops y.client.process (!y.client.todo.isEmpty) p) :
    ClientGoes sn t params y { y with
      client := { y.client with process := p }
      net := y.net.carryClient y.client.process.client p.client } := by
  generalize hbusy : (!y.client.todo.isEmpty) = busy at hp
  have htodo : busy = false → y.client.todo = [] := by
    rintro rfl
    simpa using hbusy
  have hfailing : ∀ {c}, stage = .running → busy = false →
      Failing y.client.process.client c → ClientGoes sn t params y { y with
        client := { y.client with process := ClientProcess.cleanupAndFail c }
        net := y.net.carryClient y.client.process.client
          (ClientProcess.cleanupAndFail c).client } := by
    rintro c rfl hidle hc
    exact h.leaves nofun (htodo hidle) hc (by decide)
  cases hp with
  | works hc => exact h.works hc
  | noMessage hphase hstate =>
      have hstage := state_testRunning (h.ready.state.symm.trans hstate)
      exact hfailing hstage rfl (failing_withErrno _ (by decide))
  | startFails hphase hc => exact hfailing (h.running (Or.inl hphase)) rfl hc
  | started hphase hc =>
      have hstage := h.running (Or.inl hphase)
      subst hstage
      exact h.stays nofun hc (Or.inr ⟨rfl, htodo rfl, Or.inr rfl⟩)
  | checked hphase hc =>
      have hstage := h.running (Or.inr hphase)
      subst hstage
      exact h.stays nofun hc (Or.inl rfl)
  | ended hphase hc =>
      have hstage := h.running (Or.inr hphase)
      subst hstage
      exact h.testEnd (htodo rfl) hc rfl
  | finished hphase hstate =>
      -- in no stage the client is done
      rw [h.ready.state] at hstate
      cases stage <;> cases hstate

/-- A client that has left may still wait for its workers. -/
theorem ClientLeft.loop (h : ClientLeft sn t params y.client y.net) {p : ClientProcess}
    (hp : ClientLoops y.client.process (!y.client.todo.isEmpty) p) :
    ClientGoes sn t params y { y with
      client := { y.client with process := p }
      net := y.net.carryClient y.client.process.client p.client } := by
  have hsilent : ∀ {c : Client}, Added ClientCall.silent y.client.process.client.calls c.calls →
      ∀ {phase}, ClientParty.Gone sn { y.client with process := ⟨c, phase⟩ } y.net →
        ClientGoes sn t params y { y with
          client := { y.client with process := ⟨c, phase⟩ }
          net := y.net.carryClient y.client.process.client c } := by
    intro c hcalls phase hgone
    rw [carryClient_silent hcalls]
    exact ⟨Or.inr ⟨hgone, h.wrote⟩, ByClient.refl _, rfl,
      hcalls.mono fun _ => ClientCall.calm_of_silent⟩
  have hstill : ∀ {phase}, y.client.process.phase = phase →
      phase = .waiting ∨ ∃ rc, phase = .returned rc := by
    rintro phase rfl
    rcases h.gone with ⟨-, hreturned | ⟨hwaiting, -⟩⟩ | ⟨-, hwaiting, -⟩
    · exact Or.inr hreturned
    · exact Or.inl hwaiting
    · exact Or.inl hwaiting
  generalize hbusy : (!y.client.todo.isEmpty) = busy at hp
  cases hp with
  | works hc =>
      apply hsilent hc.calls
      rcases h.gone with ⟨htodo, hreturned | ⟨hwaiting, hdone⟩⟩ |
        ⟨htodo, hwaiting, hstate, hctrl, hbroken⟩
      · exact Or.inl ⟨htodo, Or.inl hreturned⟩
      · exact Or.inl ⟨htodo, Or.inr ⟨hwaiting, hc.state.trans hdone⟩⟩
      · exact Or.inr ⟨htodo, hwaiting, hc.state.trans hstate, hc.ctrlSck.trans hctrl, hbroken⟩
  | noMessage hphase hstate =>
      rw [h.deaf hphase (by simpa using hbusy)] at hstate
      cases hstate
  | startFails hphase | started hphase | checked hphase | ended hphase =>
      rcases hstill hphase with hwaiting | ⟨rc, hreturned⟩
      · cases hwaiting
      · cases hreturned
  | finished hphase hstate =>
      obtain ⟨rc, hreturned⟩ := finishRun_eq _ y.client.process.client
      rw [hreturned]
      exact hsilent ((Added.refl _).concat rfl) (Or.inl ⟨by simpa using hbusy, Or.inl ⟨rc, rfl⟩⟩)

theorem clientLoop_goes (h : ClientSide sn t params y.client y.net) (event : ClientEvent) :
    ClientGoes sn t params y (y.clientLoop sn event) := by
  unfold System.clientLoop
  split_ifs with hallowed
  · have hctrl : y.client.process.phase = .checking → y.client.process.client.ctrlSck = true := by
      intro hphase
      rcases h with ⟨stage, h⟩ | h
      · exact h.ready.ctrlSck (h.not_connecting (by rw [hphase]; nofun))
      · rcases h.gone with ⟨-, ⟨rc, hreturned⟩ | ⟨hwaiting, -⟩⟩ | ⟨-, hwaiting, -⟩
        · cases hphase.symm.trans hreturned
        · cases hphase.symm.trans hwaiting
        · cases hphase.symm.trans hwaiting
    have hp := clientStep_allowed (b := sn.clientBuild) hctrl hallowed
    rcases h with ⟨stage, h⟩ | h
    · exact h.loop hp
    · exact h.loop hp
  · exact ClientGoes.refl h

end Client

end Iperf3
