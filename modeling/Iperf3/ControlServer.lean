import Iperf3.ServerScript
import Mathlib.Tactic

/-!
# The server on the control connection

As long as the server follows its script, the numbers of items that it has
read and written say where it is.  When a call has ended the test, the server
writes at most error reports and reads nothing more.
-/

namespace Iperf3

open Channels MachineInt
open scoped List

/-- The client can see that something has gone wrong on the server. -/
def Network.Broken (net : Network) : Prop :=
  net.toClient.closed = true ∨ stateItem .serverError ∈ net.toClient.written

section Server

variable {sn : Session} {params : Json} {k : ℕ} {stage : ServerStage} {party : ServerParty}
  {net net' : Network}

structure ServerTalks (sn : Session) (params : Json) (k : ℕ) (stage : ServerStage)
    (party : ServerParty) (net : Network) : Prop where
  phase : party.process.phase = .running
  todo : ∃ rest, party.todo = stage.todo ++ rest ∧ rest <+ stage.turn
  ready : ServerReady k stage party.process.server
  reads : net.toServer.taken.length = stage.reads
  taken : Line (sn.ClientItem params k) net.toServer.taken
  writes : net.toClient.written.length = stage.writes
  written : Line (sn.ServerItem k) net.toClient.written
  isOpen : net.toClient.closed = false
  dialling : stage ≠ .listening → net.dialling = .accepted
  dials : .accept ∈ party.todo → net.dialling = .waiting

/-- The streams are there unless the duration timer has freed them. -/
def Server.Holds (k : ℕ) (s : Server) : Prop :=
  s.streams.length = k ∨ .timerExpired .duration ∈ s.calls

/-- The server does not write the results and then stop. -/
structure ServerOver (sn : Session) (k : ℕ) (party : ServerParty) (net : Network) : Prop where
  todo : party.todo <+ [.acceptStream, .checkStreams]
  stopped : party.process.phase ≠ .running ∨ party.process.server.state = .iperfDone ∨
    party.process.server.Halted
  dialling : party.process.phase = .running → net.dialling = .accepted
  written : ∃ main errors, net.toClient.written = main ++ errors ∧
    Line (sn.ServerItem k) main ∧ ErrorReports sn errors ∧ main.length ≠ 5 ∧
      (3 ≤ main.length → party.process.server.Holds k) ∧
        (5 ≤ main.length → 3 ≤ net.toServer.taken.length)

/-- Either the server follows its script, or it is over with the test. -/
def ServerSide (sn : Session) (params : Json) (k : ℕ) (party : ServerParty) (net : Network) :
    Prop :=
  (∃ stage, ServerTalks sn params k stage party net) ∨ ServerOver sn k party net

theorem ServerTalks.not_broken (h : ServerTalks sn params k stage party net) : ¬ net.Broken := by
  rintro (hclosed | herror)
  · exact absurd (h.isOpen.symm.trans hclosed) (by decide)
  · obtain ⟨i, hi, hitem⟩ := List.mem_iff_getElem.mp herror
    exact serverItem_ne_error (h.written i _ (List.getElem?_eq_getElem hi)) hitem

/-! ## What a step does to the network -/

/-- What the server may do to the network. -/
structure ByServer (net net' : Network) : Prop where
  written : net'.toServer.written = net.toServer.written
  closed : net'.toServer.closed = net.toServer.closed
  taken : net'.toClient.taken = net.toClient.taken
  reads : net.toServer.taken.length ≤ net'.toServer.taken.length
  toServer : (∃ pending, net.toServer.Agrees pending) → ∃ pending, net'.toServer.Agrees pending
  toClient : ∀ pending, net.toClient.Agrees pending →
    ∃ later, net'.toClient.Agrees (pending ++ later)
  isClosed : net.toClient.closed = true → net'.toClient.closed = true
  dialling : net.dialling = .idle → net'.dialling = .idle

theorem ByServer.refl (net : Network) : ByServer net net :=
  ⟨rfl, rfl, rfl, le_rfl, id, fun pending h => ⟨[], by simpa using h⟩, id, id⟩

theorem ByServer.trans {net'' : Network} (h : ByServer net net') (h' : ByServer net' net'') :
    ByServer net net'' where
  written := h'.written.trans h.written
  closed := h'.closed.trans h.closed
  taken := h'.taken.trans h.taken
  reads := h.reads.trans h'.reads
  toServer hagrees := h'.toServer (h.toServer hagrees)
  toClient pending hagrees := by
    obtain ⟨later, hlater⟩ := h.toClient pending hagrees
    obtain ⟨last, hlast⟩ := h'.toClient _ hlater
    exact ⟨later ++ last, by rwa [← List.append_assoc]⟩
  isClosed hclosed := h'.isClosed (h.isClosed hclosed)
  dialling hidle := h'.dialling (h.dialling hidle)

theorem byServer_carry (s s' : Server) (net : Network) :
    ByServer net (net.carryServer sn s s') := by
  have hclient : ∀ pending, net.toClient.Agrees pending →
      ∃ later, (net.carryServer sn s s').toClient.Agrees (pending ++ later) := by
    intro pending hagrees
    unfold Network.carryServer
    dsimp only
    split_ifs
    · exact ⟨_, (hagrees.write _).close⟩
    · exact ⟨_, hagrees.write _⟩
  obtain ⟨hdialling, hserver, -, htaken⟩ := carryServer_fields sn s s' net
  refine ⟨by rw [hserver], by rw [hserver], htaken, by rw [hserver], by rw [hserver]; exact id,
    hclient, ?_,
    hdialling.trans⟩
  intro hclosed
  unfold Network.carryServer
  dsimp only
  split_ifs
  · rfl
  · exact hclosed

/-- The client sees of a server's step what it has seen before. -/
theorem ByServer.broken (h : ByServer net net') (hagrees : ∃ pending, net.toClient.Agrees pending)
    (hbroken : net.Broken) : net'.Broken := by
  rcases hbroken with hclosed | herror
  · exact Or.inl (h.isClosed hclosed)
  · obtain ⟨pending, hpending⟩ := hagrees
    obtain ⟨later, hlater⟩ := h.toClient pending hpending
    right
    rw [hlater.written, h.taken, ← List.append_assoc, ← hpending.written]
    exact List.mem_append_left _ herror

/-! ## A step of the script -/

/-- The test is over after these calls. -/
theorem ServerTalks.over (h : ServerTalks sn params k stage party net) {process : Process}
    {todo : List ServerAction} (hnet : ByServer net net') (hclient : net'.toClient = net.toClient)
    (hsince : Since ServerCall.tame party.process.server process.server)
    (hholds : 3 ≤ stage.writes → process.server.Holds k) (hwrites : stage.writes ≠ 5)
    (htodo : todo <+ [.acceptStream, .checkStreams])
    (hstopped : process.phase ≠ .running ∨ process.server.state = .iperfDone ∨
      process.server.Halted)
    (hdialling : process.phase = .running → net'.dialling = .accepted) :
    ServerOver sn k ⟨process, todo⟩
      (net'.carryServer sn party.process.server process.server) := by
  obtain ⟨hcarried, -⟩ :=
    carryServer_fields sn party.process.server process.server net'
  refine ⟨htodo, hstopped, fun hrunning => hcarried.trans (hdialling hrunning), ?_⟩
  obtain ⟨errors, herrors, hwritten, -⟩ :=
    carryServer_tame sn net' hsince
  refine ⟨net.toClient.written, errors, by rw [hwritten, hclient], h.written, herrors,
    h.writes ▸ hwrites, h.writes ▸ hholds, ?_⟩
  intro hfive
  rw [h.writes] at hfive
  refine le_trans ?_ (hnet.reads.trans (byServer_carry _ _ _).reads)
  rw [h.reads]
  cases stage <;> first | decide | (revert hfive; decide)

theorem ServerTalks.ends (h : ServerTalks sn params k stage party net) {process : Process}
    {todo : List ServerAction} (hnet : ByServer net net') (hclient : net'.toClient = net.toClient)
    (hends : Ends party.process.server process.server) (hwrites : stage.writes ≠ 5)
    (htodo : todo <+ [.acceptStream, .checkStreams])
    (hstopped : process.phase ≠ .running ∨ process.server.state = .iperfDone ∨
      process.server.Halted)
    (hdialling : process.phase = .running → net'.dialling = .accepted) :
    ServerOver sn k ⟨process, todo⟩
      (net'.carryServer sn party.process.server process.server) :=
  h.over hnet hclient hends.since
    (fun hlength => Or.inl (hends.length.trans (h.ready.full hlength)))
    hwrites htodo hstopped hdialling

/-- The party after a call. -/
def ServerParty.after (r : Server × Bool) (todo : List ServerAction) : ServerParty :=
  ⟨Process.afterTurn r, if r.2 then todo else []⟩

/-- What a step of the server comes to. -/
structure ServerGoes (sn : Session) (params : Json) (k : ℕ) (y y' : System) : Prop where
  side : ServerSide sn params k y'.server y'.net
  net : ByServer y.net y'.net
  client : y'.client = y.client
  calls : Since (ServerCall.calm y'.server.process.server.state) y.server.process.server
    y'.server.process.server

theorem serverCall_some {y : System} {o : ServerOutcomes} {action : ServerAction}
    {later : List ServerAction} {r : Called Server ServerAction}
    (hphase : y.server.process.phase = .running) (htodo : y.server.todo = action :: later)
    (hperform : action.perform sn o y.server.process.server y.net = some r) :
    y.serverCall sn o =
      { y with
        server := .after r.result (r.more ++ later)
        net := r.net.carryServer sn y.server.process.server
          (ServerParty.after r.result (r.more ++ later)).process.server } := by
  simp only [System.serverCall, hphase, htodo, hperform]
  rfl

theorem serverCall_none {y : System} {o : ServerOutcomes} {action : ServerAction}
    {later : List ServerAction} (htodo : y.server.todo = action :: later)
    (hperform : action.perform sn o y.server.process.server y.net = none) :
    y.serverCall sn o = y := by
  unfold System.serverCall
  split
  · rename_i other rest hphase htodo'
    obtain ⟨rfl, rfl⟩ := List.cons.inj (htodo.symm.trans htodo')
    rw [hperform]
  · rfl

theorem serverCall_empty {y : System} {o : ServerOutcomes} (htodo : y.server.todo = []) :
    y.serverCall sn o = y := by
  unfold System.serverCall
  rw [htodo]
  split <;> first | rfl | simp_all

variable {y : System} {o : ServerOutcomes} {action : ServerAction} {later : List ServerAction}
  {r : Called Server ServerAction}

theorem ServerTalks.fails (h : ServerTalks sn params k stage y.server y.net)
    (htodo : y.server.todo = action :: later)
    (hperform : action.perform sn o y.server.process.server y.net = some r)
    (hnet : ByServer y.net r.net) (hclient : r.net.toClient = y.net.toClient)
    (hfails : r.result.2 = false) (hends : Ends y.server.process.server r.result.1)
    (hwrites : stage.writes ≠ 5) : ServerGoes sn params k y (y.serverCall sn o) := by
  rw [serverCall_some h.phase htodo hperform]
  have hafter : ServerParty.after r.result (r.more ++ later) =
      ⟨⟨r.result.1.cleanupServer, .returned (-1)⟩, []⟩ := by
    simp [ServerParty.after, Process.afterTurn, Process.cleanedUp, Process.stop, hfails]
  rw [hafter]
  refine ⟨Or.inr ?_, hnet.trans (byServer_carry _ _ _), rfl, hends.cleanupServer.since.calm⟩
  exact h.ends hnet hclient hends.cleanupServer hwrites (List.nil_sublist _) (Or.inl nofun) nofun

/-- The call leads to a place of the script. -/
theorem ServerTalks.goesOn (h : ServerTalks sn params k stage y.server y.net)
    (next : ServerStage) (rest : List ServerAction) (items : List (Item ItemKind))
    (htodo : y.server.todo = action :: later)
    (hperform : action.perform sn o y.server.process.server y.net = some r)
    (hnet : ByServer y.net r.net) (hok : r.result.2 = true) (hready : ServerReady k next r.result.1)
    (hlater : r.more ++ later = next.todo ++ rest) (hrest : rest <+ next.turn)
    (hreads : r.net.toServer.taken.length = next.reads)
    (htaken : Line (sn.ClientItem params k) r.net.toServer.taken)
    (hcarry : r.net.carryServer sn y.server.process.server r.result.1 =
      { r.net with toClient := y.net.toClient.write items })
    (hitems : Line (sn.ServerItem k) (y.net.toClient.written ++ items))
    (hwrites : stage.writes + items.length = next.writes)
    (hdialling : next ≠ .listening → r.net.dialling = .accepted)
    (hdials : .accept ∈ later → r.net.dialling = .waiting) (hmore : .accept ∉ r.more)
    (hcalm : Since (ServerCall.calm r.result.1.state) y.server.process.server r.result.1) :
    ServerGoes sn params k y (y.serverCall sn o) := by
  rw [serverCall_some h.phase htodo hperform]
  have hafter : ServerParty.after r.result (r.more ++ later) =
      ⟨⟨r.result.1, .running⟩, next.todo ++ rest⟩ := by
    simp [ServerParty.after, Process.afterTurn, hok, hlater]
  rw [hafter]
  refine ⟨Or.inl ⟨next, ?_⟩, hnet.trans (byServer_carry _ _ _), rfl, hcalm⟩
  dsimp only
  rw [hcarry]
  refine ⟨rfl, ⟨rest, rfl, hrest⟩, hready, hreads, htaken, ?_, hitems, h.isOpen, hdialling, ?_⟩
  · rw [Channel.write, List.length_append, h.writes, hwrites]
  · intro hmem
    rw [← hlater] at hmem
    rcases List.mem_append.mp hmem with hmem | hmem
    · exact absurd hmem hmore
    · exact hdials hmem

/-- A call that neither reads nor writes. -/
theorem ServerTalks.calls (h : ServerTalks sn params k stage y.server y.net)
    (next : ServerStage) (rest : List ServerAction) (htodo : y.server.todo = action :: later)
    (hperform : action.perform sn o y.server.process.server y.net = some r)
    (hnet : ByServer y.net r.net) (hclient : r.net.toClient = y.net.toClient)
    (hr : Reaches k next y.server.process.server r.result)
    (hlater : r.more ++ later = next.todo ++ rest) (hrest : rest <+ next.turn)
    (hreads : r.net.toServer.taken.length = next.reads)
    (htaken : Line (sn.ClientItem params k) r.net.toServer.taken)
    (hwrites : stage.writes = next.writes) (hfive : stage.writes ≠ 5)
    (hlistening : next = .listening → stage = .listening)
    (hdialling : next ≠ .listening → r.net.dialling = .accepted)
    (hdials : .accept ∈ later → r.net.dialling = .waiting) (hmore : .accept ∉ r.more) :
    ServerGoes sn params k y (y.serverCall sn o) := by
  rcases hr with ⟨hok, hready, hsince⟩ | ⟨hfails, hends⟩
  · refine h.goesOn next rest [] htodo hperform hnet hok hready hlater hrest hreads htaken ?_ ?_
      hwrites hdialling hdials hmore hsince.tame.calm
    · rw [carryServer_plain hsince, ← hclient]
      · simp [Channel.write]
      · rw [h.ready.ctrlSck, hready.ctrlSck]
        simpa using fun hstage hnext => hstage (hlistening hnext)
    · simpa using h.written
  · exact h.fails htodo hperform hnet hclient hfails hends hfive

/-- In the middle of a handler no connection is waiting to be accepted. -/
theorem ServerTalks.not_accepting (h : ServerTalks sn params k stage y.server y.net)
    (hstage : stage ≠ .listening) : .accept ∉ y.server.todo := by
  intro hmem
  have hwaiting := h.dials hmem
  rw [h.dialling hstage] at hwaiting
  cases hwaiting

/-- A call in the middle of a handler that neither reads nor writes. -/
theorem ServerTalks.quiet (h : ServerTalks sn params k stage y.server y.net) (next : ServerStage)
    {result : Server × Bool} (hstage : stage ≠ .listening) (hnext : next ≠ .listening)
    (htodo : stage.todo = action :: next.todo) (hturn : stage.turn <+ next.turn)
    (hperform : action.perform sn o y.server.process.server y.net = some ⟨result, [], y.net⟩)
    (hr : Reaches k next y.server.process.server result) (hreads : stage.reads = next.reads)
    (hwrites : stage.writes = next.writes) (hfive : stage.writes ≠ 5) :
    ServerGoes sn params k y (y.serverCall sn o) := by
  obtain ⟨rest, hrest, hsub⟩ := h.todo
  rw [htodo, List.cons_append] at hrest
  have haccept := h.not_accepting hstage
  rw [hrest] at haccept
  exact h.calls next rest hrest hperform (ByServer.refl _) rfl hr rfl (hsub.trans hturn)
    (h.reads.trans hreads) h.taken hwrites hfive (fun hlistening => absurd hlistening hnext)
    (fun _ => h.dialling hstage) (fun hmem => absurd (List.mem_cons_of_mem _ hmem) haccept)
    (List.not_mem_nil)

theorem calm_sent (next : ServerStage) :
    (ServerCall.sent next.state).calm next.state = true := by
  cases next <;> rfl

/-- The client is told of the next state. -/
theorem ServerTalks.sends (h : ServerTalks sn params k stage y.server y.net) (next : ServerStage)
    (hstage : stage ≠ .listening) (hnext : next ≠ .listening)
    (htodo : stage.todo = .send next.state :: next.todo) (hturn : stage.turn <+ next.turn)
    (hcounts : ∀ u, stage.Counts k u → next.Counts k u) (hreads : stage.reads = next.reads)
    (hwrites : stage.writes + 1 = next.writes) (herror : next.state ≠ .serverError)
    (hitem : sn.ServerItem k stage.writes (stateItem next.state)) :
    ServerGoes sn params k y (y.serverCall sn o) := by
  obtain ⟨rest, hrest, hsub⟩ := h.todo
  rw [htodo, List.cons_append] at hrest
  have haccept := h.not_accepting hstage
  rw [hrest] at haccept
  obtain ⟨hsent, hready⟩ := h.ready.send hstage hnext hcounts
  have hperform : (ServerAction.send next.state).perform sn o y.server.process.server y.net =
      some ⟨(Server.log (.sent next.state) (y.server.process.server.enter next.state), true), [],
        y.net⟩ := by
    simp only [ServerAction.perform, hsent]
  have hctrl : (Server.log (.sent next.state)
      (y.server.process.server.enter next.state)).ctrlSck = true := by
    rw [hready.ctrlSck]
    simp [hnext]
  exact h.goesOn next rest _ hrest hperform (ByServer.refl _) rfl hready rfl (hsub.trans hturn)
    (h.reads.trans hreads) h.taken (carryServer_send herror rfl fun _ => hctrl)
    (h.written.concat (h.writes ▸ hitem)) hwrites (fun _ => h.dialling hstage)
    (fun hmem => absurd (List.mem_cons_of_mem _ hmem) haccept) (List.not_mem_nil)
    ((Since.refl _).call (calm_sent next) rfl)

/-! ## Reading -/

/-- What the server finds when it has read `r` items.  Where it reads a frame
the client has not left. -/
def Session.Awaits (sn : Session) (params : Json) (k : ℕ) (net : Network) (r : ℕ) : Prop :=
  ∀ pending, net.toServer.Agrees pending →
    match pending with
    | [] => net.toServer.closed = true → 2 ≤ r ∧ r ≠ 3
    | item :: _ =>
        (sn.ClientItem params k r item ∧ (r = 2 → 4 ≤ net.toClient.taken.length)) ∨
          (item = stateItem .iperfDone ∧ 2 ≤ r ∧ r ≠ 3)

theorem ServerGoes.refl (h : ServerSide sn params k y.server y.net) :
    ServerGoes sn params k y y :=
  ⟨h, ByServer.refl _, rfl, Since.refl _⟩

theorem byServer_take {c : Channel ItemKind} {pending : List (Item ItemKind)}
    (hagrees : c.Agrees pending) (hwritten : c.written = net.toServer.written)
    (hclosed : c.closed = net.toServer.closed)
    (hreads : net.toServer.taken.length ≤ c.taken.length) :
    ByServer net { net with toServer := c } :=
  ⟨hwritten, hclosed, rfl, hreads, fun _ => ⟨pending, hagrees⟩,
    fun pending h => ⟨[], by simpa using h⟩,
    id, id⟩

/-- A call that reads the next item of the client's script. -/
theorem ServerTalks.reads_item (h : ServerTalks sn params k stage y.server y.net)
    (next : ServerStage) {result : Server × Bool} {item : Item ItemKind} {c : Channel ItemKind}
    {pending : List (Item ItemKind)} (hstage : stage ≠ .listening) (hnext : next ≠ .listening)
    (htodo : stage.todo = action :: next.todo) (hturn : stage.turn <+ next.turn)
    (hitem : sn.ClientItem params k stage.reads item) (hagrees : c.Agrees pending)
    (htaken : c.taken = y.net.toServer.taken ++ [item])
    (hwritten : c.written = y.net.toServer.written) (hclosed : c.closed = y.net.toServer.closed)
    (hperform : action.perform sn o y.server.process.server y.net =
      some ⟨result, [], { y.net with toServer := c }⟩)
    (hr : Reaches k next y.server.process.server result) (hreads : stage.reads + 1 = next.reads)
    (hwrites : stage.writes = next.writes) (hfive : stage.writes ≠ 5) :
    ServerGoes sn params k y (y.serverCall sn o) := by
  obtain ⟨rest, hrest, hsub⟩ := h.todo
  rw [htodo, List.cons_append] at hrest
  have haccept := h.not_accepting hstage
  rw [hrest] at haccept
  refine h.calls next rest hrest hperform
    (byServer_take hagrees hwritten hclosed (by simp [htaken])) rfl hr rfl
    (hsub.trans hturn) ?_ ?_ hwrites hfive (fun hlistening => absurd hlistening hnext)
    (fun _ => h.dialling hstage) (fun hmem => absurd (List.mem_cons_of_mem _ hmem) haccept)
    (List.not_mem_nil)
  · dsimp only
    rw [htaken, List.length_append, h.reads, List.length_singleton, hreads]
  · dsimp only
    rw [htaken]
    exact h.taken.concat (h.reads ▸ hitem)

theorem ServerTalks.blocks (h : ServerTalks sn params k stage y.server y.net)
    (htodo : stage.todo = action :: later)
    (hperform : action.perform sn o y.server.process.server y.net = none) :
    ServerGoes sn params k y (y.serverCall sn o) := by
  obtain ⟨rest, hrest, -⟩ := h.todo
  rw [htodo, List.cons_append] at hrest
  rw [serverCall_none hrest hperform]
  exact ServerGoes.refl (Or.inl ⟨stage, h⟩)

theorem ServerTalks.cookie (h : ServerTalks sn params k .cookie y.server y.net)
    (hagrees : ∃ pending, y.net.toServer.Agrees pending) (hawaits : sn.Awaits params k y.net 0) :
    ServerGoes sn params k y (y.serverCall sn o) := by
  obtain ⟨pending, hagrees⟩ := hagrees
  have hnext := hawaits pending hagrees
  cases pending with
  | nil =>
      have hopen : y.net.toServer.closed = false := by
        by_contra hclosed
        have hlate := (hnext (by simpa using hclosed)).1
        omega
      apply h.blocks rfl
      simp [ServerAction.perform, hagrees.read_nil .cookie (show 0 < cookieSize by decide),
        hopen]
  | cons item pending =>
      rcases hnext with ⟨hitem, -⟩ | ⟨-, hlate, -⟩
      · have hcookie : item = cookieItem sn.cookie := hitem
        subst hcookie
        obtain ⟨c, hread, hagrees', htaken, hwritten, hclosed⟩ :=
          hagrees.read .cookie _ rfl sn.length_cookie
        exact h.reads_item .paramExchange nofun nofun rfl (List.Sublist.refl _) hitem
          hagrees' htaken hwritten hclosed (by simp [ServerAction.perform, hread, cookieItem])
          (readCookie_reaches h.ready sn.cookie) rfl rfl nofun
      · omega

theorem ServerTalks.parameters {t : Test}
    (h : ServerTalks sn params t.totalStreams .params y.server y.net)
    (hclient : ConnectedClient sn.clientBuild t) (hpos : 0 ≤ t.numStreams)
    (hsend : sendParameters sn.clientBuild sn.auth t = some params)
    (hcarries : sn.codec.Carries maxParamsJsonString params)
    (hagrees : ∃ pending, y.net.toServer.Agrees pending)
    (hawaits : sn.Awaits params t.totalStreams y.net 1) :
    ServerGoes sn params t.totalStreams y (y.serverCall sn o) := by
  obtain ⟨pending, hagrees⟩ := hagrees
  have hnext := hawaits pending hagrees
  cases pending with
  | nil =>
      have hopen : y.net.toServer.closed = false := by
        by_contra hclosed
        have hlate := (hnext (by simpa using hclosed)).1
        omega
      exact h.blocks rfl (by simp [ServerAction.perform, readJson_nil hagrees hopen])
  | cons item pending =>
      rcases hnext with ⟨hitem, -⟩ | ⟨-, hlate, -⟩
      · have hparams : item = jsonItem sn.codec params := hitem
        subst hparams
        obtain ⟨f, c, hf, hread, hagrees', htaken, hwritten, hclosed⟩ :=
          readJson_item hagrees hcarries
        exact h.reads_item .authorize nofun nofun rfl (List.Sublist.refl _) hitem
          hagrees' htaken hwritten hclosed (by simp [ServerAction.perform, hread]; rfl)
          (getParameters_reaches hclient hpos hsend hf h.ready) rfl rfl nofun
      · omega

theorem ServerTalks.results (h : ServerTalks sn params k .results y.server y.net)
    (hk : IsInt (k + 1)) (hagrees : ∃ pending, y.net.toServer.Agrees pending)
    (hawaits : sn.Awaits params k y.net 3) : ServerGoes sn params k y (y.serverCall sn o) := by
  obtain ⟨pending, hagrees⟩ := hagrees
  have hnext := hawaits pending hagrees
  cases pending with
  | nil =>
      have hopen : y.net.toServer.closed = false := by
        by_contra hclosed
        exact (hnext (by simpa using hclosed)).2 rfl
      exact h.blocks rfl (by simp [ServerAction.perform, readJson_nil hagrees hopen])
  | cons item pending =>
      rcases hnext with ⟨hitem, -⟩ | ⟨-, -, hlate⟩
      · obtain ⟨peer, hpeer, hcarries, rfl⟩ := hitem
        obtain ⟨f, c, hf, hread, hagrees', htaken, hwritten, hclosed⟩ :=
          readJson_item hagrees hcarries
        obtain ⟨s', hresults, hready, hsince⟩ := getResults_ready hk hpeer hf h.ready
        obtain ⟨rest, hrest, hsub⟩ := h.todo
        have haccept := h.not_accepting nofun
        rw [hrest] at haccept
        refine h.goesOn .sendResults rest [] hrest
          (by simp [ServerAction.perform, hread, hresults]; rfl)
          (byServer_take hagrees' hwritten hclosed (by simp [htaken])) rfl hready rfl hsub
          ?_ ?_ ?_ ?_ rfl
          (fun _ => h.dialling nofun) ?_ (List.not_mem_nil) hsince.tame.calm
        · dsimp only
          rw [htaken, List.length_append, h.reads]
          rfl
        · dsimp only
          rw [htaken]
          exact h.taken.concat (h.reads ▸ ⟨peer, hpeer, hcarries, rfl⟩)
        · rw [carryServer_plain hsince]
          · simp [Channel.write]
          · rw [hready.ctrlSck]
            simp
        · simpa using h.written
        · exact fun hmem => absurd (List.mem_cons_of_mem _ hmem) haccept
      · exact absurd rfl hlate

theorem ServerTalks.sendResults (h : ServerTalks sn params k .sendResults y.server y.net)
    (hcarries : sn.codec.Carries 0 (Iperf3.sendResults y.server.process.server.toTestSide)) :
    ServerGoes sn params k y (y.serverCall sn o) := by
  have hlength : y.server.process.server.streams.length = k := h.ready.counts
  have hids : y.server.process.server.streams.map (·.id) = streamIds k := hlength ▸ h.ready.ids
  obtain ⟨rest, hrest, hsub⟩ := h.todo
  have haccept := h.not_accepting nofun
  rw [hrest] at haccept
  have hwritten : ∀ items, ByServer y.net
      { y.net with toClient := y.net.toClient.write items } := fun items =>
    ⟨rfl, rfl, rfl, le_rfl, id, fun pending hagrees => ⟨items, hagrees.write items⟩, id, id⟩
  refine h.goesOn .displayResults rest _ hrest rfl (hwritten _) rfl ?_ rfl hsub
    h.reads h.taken (carryServer_plain (Since.refl _) id) (h.written.concat ?_) rfl
    (fun _ => h.dialling nofun)
    (fun hmem => absurd (List.mem_cons_of_mem _ hmem) haccept) (List.not_mem_nil)
    (Since.refl _)
  · exact h.ready.proceeds (Proceeds.refl _) nofun nofun rfl fun _ hu => hu
  · rw [h.writes]
    exact ⟨_, hids, hcarries, rfl⟩

theorem ServerTalks.workers (h : ServerTalks sn params k .workers y.server y.net) :
    ServerGoes sn params k y (y.serverCall sn o) := by
  have hctrl : y.server.process.server.ctrlSck = true := h.ready.ctrlSck
  rcases createWorkers_passes o.start hctrl with hpasses | ⟨hends, hhalted⟩
  · exact h.quiet .running nofun nofun rfl (List.nil_sublist _) rfl
      (hpasses.reaches h.ready nofun nofun rfl fun _ hu => hu) rfl rfl nofun
  · cases hok : (createWorkers o.start y.server.process.server).2 with
    | false =>
        obtain ⟨rest, hrest, -⟩ := h.todo
        exact h.fails hrest rfl (ByServer.refl _) rfl hok hends nofun
    | true =>
        obtain ⟨rest, hrest, hsub⟩ := h.todo
        have hnil : rest = [] := List.sublist_nil.mp hsub
        subst hnil
        rw [serverCall_some h.phase hrest rfl]
        have hafter : ServerParty.after (createWorkers o.start y.server.process.server) [] =
            ⟨⟨(createWorkers o.start y.server.process.server).1, .running⟩, []⟩ := by
          simp [ServerParty.after, Process.afterTurn, hok]
        change ServerGoes sn params k y { y with
          server := ServerParty.after _ []
          net := y.net.carryServer sn _ (ServerParty.after _ []).process.server }
        rw [hafter]
        refine ⟨Or.inr ?_, byServer_carry _ _ _, rfl, hends.since.calm⟩
        exact h.ends (ByServer.refl _) rfl hends nofun (List.nil_sublist _)
          (Or.inr (Or.inr hhalted))
          (fun _ => h.dialling nofun)

/-! ## Between the handlers -/

/-- The first of some calls of a turn, and what is left of them. -/
theorem turn_cases {α : Type} {x a b c : α} {l : List α} (h : x :: l <+ [a, b, c]) :
    (x = a ∧ l <+ [b, c]) ∨ (x = b ∧ l <+ [c]) ∨ (x = c ∧ l = []) := by
  rcases List.sublist_cons_iff.mp h with h | ⟨l', heq, h⟩
  · rcases List.sublist_cons_iff.mp h with h | ⟨l', heq, h⟩
    · rcases List.sublist_cons_iff.mp h with h | ⟨l', heq, h⟩
      · cases List.sublist_nil.mp h
      · obtain ⟨rfl, rfl⟩ := List.cons.inj heq
        exact Or.inr (Or.inr ⟨rfl, List.sublist_nil.mp h⟩)
    · obtain ⟨rfl, rfl⟩ := List.cons.inj heq
      exact Or.inr (Or.inl ⟨rfl, h⟩)
  · obtain ⟨rfl, rfl⟩ := List.cons.inj heq
    exact Or.inl ⟨rfl, h⟩

/-- A call of a turn that changes nothing but the streams. -/
theorem ServerTalks.idles (h : ServerTalks sn params k stage y.server y.net)
    (hidle : stage.todo = []) (htodo : y.server.todo = action :: later)
    (hlater : later <+ stage.turn) (hfive : stage.writes ≠ 5)
    (hperform : action.perform sn o y.server.process.server y.net = some r)
    (hmore : r.more = []) (hnet : ByServer y.net r.net) (hclient : r.net.toClient = y.net.toClient)
    (hserver : r.net.toServer = y.net.toServer) (hdialling : r.net.dialling = y.net.dialling)
    (hr : Reaches k stage y.server.process.server r.result) :
    ServerGoes sn params k y (y.serverCall sn o) := by
  refine h.calls stage later htodo hperform hnet hclient hr (by rw [hmore, hidle]) hlater
    (by rw [hserver, h.reads]) (by rw [hserver]; exact h.taken) rfl hfive id ?_ ?_ ?_
  · rw [hdialling]
    exact h.dialling
  · intro hmem
    rw [hdialling]
    exact h.dials (by rw [htodo]; exact List.mem_cons_of_mem _ hmem)
  · rw [hmore]
    exact List.not_mem_nil

theorem waiting_createStreams (hidle : stage.todo = []) (hstate : stage.state = .createStreams) :
    stage = .streams := by
  cases stage <;> first | rfl | exact absurd hidle (by decide) | exact absurd hstate (by decide)

theorem ServerTalks.acceptStream (h : ServerTalks sn params k stage y.server y.net)
    (hidle : stage.todo = []) (htodo : y.server.todo = .acceptStream :: later)
    (hlater : later <+ stage.turn) (hfive : stage.writes ≠ 5) :
    ServerGoes sn params k y (y.serverCall sn o) := by
  by_cases hstate : y.server.process.server.state = .createStreams
  · have hstage := waiting_createStreams hidle (h.ready.state.symm.trans hstate)
    subst hstage
    cases hdata : y.net.data with
    | nil =>
        rw [serverCall_none htodo (by simp [ServerAction.perform, hstate, hdata])]
        exact ServerGoes.refl (Or.inl ⟨_, h⟩)
    | cons bytes data =>
        have hnet : ByServer y.net { y.net with data := data, replies := y.net.replies + 1 } :=
          ⟨rfl, rfl, rfl, le_rfl, id, fun pending h => ⟨[], by simpa using h⟩, id, id⟩
        exact h.idles hidle htodo hlater hfive
          (by simp only [ServerAction.perform, hstate, hdata, if_true]; rfl) rfl hnet rfl rfl rfl
          (acceptStream_reaches sn.serverBuild o bytes h.ready)
  · exact h.idles hidle htodo hlater hfive
      (by simp only [ServerAction.perform, hstate, if_false]; rfl)
      rfl (ByServer.refl _) rfl rfl rfl (reaches_self h.ready)

theorem ServerTalks.checkStreams (h : ServerTalks sn params k stage y.server y.net)
    (hidle : stage.todo = []) (htodo : y.server.todo = [.checkStreams])
    (hfive : stage.writes ≠ 5) : ServerGoes sn params k y (y.serverCall sn o) := by
  by_cases hcomplete : y.server.process.server.state = .createStreams ∧
      y.server.process.server.streamsComplete
  · have hstage := waiting_createStreams hidle (h.ready.state.symm.trans hcomplete.1)
    subst hstage
    exact h.calls .announce [] htodo
      (by simp only [ServerAction.perform, if_pos hcomplete]; rfl) (ByServer.refl _) rfl
      (Or.inl ⟨rfl, h.ready.announces hcomplete.2, Since.refl _⟩) rfl (List.Sublist.refl _) h.reads
      h.taken rfl nofun nofun (fun _ => h.dialling nofun) nofun
      (by decide : ServerAction.accept ∉ startActions)
  · exact h.idles hidle htodo (List.nil_sublist _) hfive
      (by simp only [ServerAction.perform, if_neg hcomplete]; rfl) rfl (ByServer.refl _) rfl rfl rfl
      (reaches_self h.ready)

theorem ServerTalks.accept (h : ServerTalks sn params k .listening y.server y.net)
    (htodo : y.server.todo = .accept :: later) (hlater : later <+ [.acceptStream, .checkStreams]) :
    ServerGoes sn params k y (y.serverCall sn o) := by
  have hwaiting := h.dials (by rw [htodo]; exact List.mem_cons_self)
  have hnet : ByServer y.net { y.net with dialling := .accepted } :=
    ⟨rfl, rfl, rfl, le_rfl, id, fun pending h => ⟨[], by simpa using h⟩, id, fun hidle => by
      rw [hwaiting] at hidle
      cases hidle⟩
  have hfree : y.server.process.server.ctrlSck = false := h.ready.ctrlSck
  refine h.calls .cookie later htodo
    (by simp only [ServerAction.perform, hfree, Bool.false_eq_true, if_false]; rfl) hnet rfl
    (takeControl_reaches h.ready) rfl hlater h.reads h.taken rfl nofun nofun (fun _ => rfl) ?_
    (by decide : ServerAction.accept ∉ acceptActions)
  intro hmem
  exact absurd (hlater.subset hmem) (by decide)

/-- The client has said that it is done, or it has gone away. -/
theorem ServerTalks.leaves (h : ServerTalks sn params k stage y.server y.net)
    (hstage : stage ≠ .listening) (htodo : y.server.todo = action :: later)
    (hlater : later <+ [.acceptStream, .checkStreams]) {s' : Server} {c : Channel ItemKind}
    {pending : List (Item ItemKind)}
    (hperform : action.perform sn o y.server.process.server y.net =
      some ⟨(s', true), [], { y.net with toServer := c }⟩)
    (hagrees : c.Agrees pending) (hwritten : c.written = y.net.toServer.written)
    (hclosed : c.closed = y.net.toServer.closed)
    (hreads : y.net.toServer.taken.length ≤ c.taken.length)
    (hends : Ends y.server.process.server s')
    (hdone : s'.state = .iperfDone) (hfive : stage.writes ≠ 5) :
    ServerGoes sn params k y (y.serverCall sn o) := by
  rw [serverCall_some h.phase htodo hperform]
  have hnet := byServer_take hagrees hwritten hclosed hreads
  refine ⟨Or.inr ?_, hnet.trans (byServer_carry _ _ _), rfl, hends.since.calm⟩
  have hparty : ServerParty.after (s', true) ([] ++ later) = ⟨⟨s', .running⟩, later⟩ := rfl
  dsimp only
  rw [hparty]
  exact h.ends hnet rfl hends hfive hlater (Or.inr (Or.inl hdone)) fun _ => h.dialling hstage

theorem ServerTalks.readMessage (h : ServerTalks sn params k stage y.server y.net)
    (hstage : stage = .streams ∨ stage = .running ∨ stage = .displayed)
    (htodo : y.server.todo = .readMessage :: later)
    (hlater : later <+ [.acceptStream, .checkStreams])
    (hagrees : ∃ pending, y.net.toServer.Agrees pending)
    (hclient : ∃ pending, y.net.toClient.Agrees pending)
    (hawaits : sn.Awaits params k y.net stage.reads) :
    ServerGoes sn params k y (y.serverCall sn o) := by
  have hlistening : stage ≠ .listening := by
    rcases hstage with rfl | rfl | rfl <;> decide
  have hfive : stage.writes ≠ 5 := by
    rcases hstage with rfl | rfl | rfl <;> decide
  obtain ⟨pending, hagrees⟩ := hagrees
  have hnext := hawaits pending hagrees
  cases pending with
  | nil =>
      have hread := hagrees.read_nil .state Nat.one_pos
      cases hclosed : y.net.toServer.closed with
      | false =>
          rw [serverCall_none htodo (by simp [ServerAction.perform, hread, hclosed])]
          exact ServerGoes.refl (Or.inl ⟨_, h⟩)
      | true =>
          have hends : Ends y.server.process.server
              (((y.server.process.server.log (.controlRead .closed)).withErrno
                .ieCtrlClose).enter .iperfDone) :=
            ⟨(((Since.refl _).log rfl).withErrno (by decide)).congr rfl, rfl⟩
          exact h.leaves hlistening htodo hlater
            (by simp only [ServerAction.perform, hread, hclosed, if_true, Option.map_some]; rfl)
            hagrees rfl rfl le_rfl hends rfl hfive
  | cons item pending =>
      have hitem : (stage = .running ∧ item = stateItem .testEnd) ∨
          item = stateItem .iperfDone := by
        rcases hnext with ⟨hitem, htold⟩ | ⟨hdone, -, -⟩
        · rcases hstage with rfl | rfl | rfl
          · obtain ⟨unread, hunread⟩ := hclient
            have hlength := congrArg List.length hunread.written
            rw [h.writes, List.length_append] at hlength
            have htaken := htold rfl
            simp only [ServerStage.writes] at hlength
            omega
          · exact Or.inl ⟨rfl, hitem⟩
          · exact Or.inr hitem
        · exact Or.inr hdone
      rcases hitem with ⟨rfl, rfl⟩ | rfl
      · obtain ⟨c, hread, hagrees', htaken, hwritten, hclosed⟩ :=
          hagrees.read .state 1 rfl rfl
        obtain ⟨hr, hmore⟩ := testEnd_reaches TestState.testEnd.toByte h.ready (by decide)
        have haccept := h.not_accepting (by decide)
        rw [htodo] at haccept
        refine h.calls .exchangeResults later htodo
          (by simp only [ServerAction.perform, hread, Option.map_some]; rfl)
          (byServer_take hagrees' hwritten hclosed (by simp [htaken])) rfl hr ?_ hlater ?_ ?_ rfl
          (by decide) (by rintro ⟨⟩) (fun _ => h.dialling (by decide))
          (fun hmem => absurd (List.mem_cons_of_mem _ hmem) haccept) ?_
        · exact congrArg (· ++ later) hmore
        · dsimp only
          rw [htaken, List.length_append, h.reads]
          rfl
        · dsimp only
          rw [htaken]
          exact h.taken.concat (h.reads ▸ rfl)
        · change .accept ∉ (handleByteServer TestState.testEnd.toByte y.server.process.server).2
          rw [hmore]
          decide
      · obtain ⟨c, hread, hagrees', htaken, hwritten, hclosed⟩ :=
          hagrees.read .state 1 rfl rfl
        have hends : Ends y.server.process.server ((y.server.process.server.log
            (.controlRead (.byte TestState.iperfDone.toByte))).enter .iperfDone) :=
          ⟨((Since.refl _).log rfl).congr rfl, rfl⟩
        exact h.leaves hlistening htodo hlater
          (by simp only [ServerAction.perform, hread, Option.map_some]; rfl)
          hagrees' hwritten hclosed (by simp [htaken]) hends rfl hfive

/-! ## The steps of the server -/

/-- What a client and a session have to be for the script. -/
structure Session.Suits (sn : Session) (t : Test) (params : Json) : Prop where
  client : ConnectedClient sn.clientBuild t
  numStreams : 0 < t.numStreams
  small : IsInt (t.totalStreams + 1)
  sent : sendParameters sn.clientBuild sn.auth t = some params
  carries : sn.codec.Carries maxParamsJsonString params

theorem ServerOver.not_createStreams (h : ServerOver sn k y.server y.net)
    (hphase : y.server.process.phase = .running) :
    y.server.process.server.state ≠ .createStreams := by
  intro hstate
  rcases h.stopped with hstopped | hdone | ⟨-, hhalted⟩
  · exact hstopped hphase
  · rw [hstate] at hdone
    cases hdone
  · rw [hstate] at hhalted
    cases hhalted

theorem ServerOver.call (h : ServerOver sn k y.server y.net) :
    ServerGoes sn params k y (y.serverCall sn o) := by
  have hsame := ServerGoes.refl (y := y) (Or.inr h : ServerSide sn params k y.server y.net)
  by_cases hphase : y.server.process.phase = .running
  · have hstate := h.not_createStreams hphase
    cases htodo : y.server.todo with
    | nil => simpa [System.serverCall, htodo] using hsame
    | cons action later =>
        have hlater : later <+ [.acceptStream, .checkStreams] :=
          List.sublist_of_cons_sublist (htodo ▸ h.todo)
        have haction : action = .acceptStream ∨ action = .checkStreams := by
          have hmem : action ∈ y.server.todo := by rw [htodo]; exact List.mem_cons_self
          simpa using h.todo.subset hmem
        have hperform : action.perform sn o y.server.process.server y.net =
            some ⟨(y.server.process.server, true), [], y.net⟩ := by
          rcases haction with rfl | rfl <;> simp [ServerAction.perform, hstate]
        rw [serverCall_some hphase htodo hperform]
        refine ⟨Or.inr ?_, byServer_carry _ _ _, rfl, Since.refl _⟩
        have hnet : y.net.carryServer sn y.server.process.server y.server.process.server = y.net :=
          carryServer_plain (Since.refl _) id
        change ServerOver sn k ⟨⟨y.server.process.server, .running⟩, later⟩
          (y.net.carryServer sn y.server.process.server y.server.process.server)
        rw [hnet]
        exact ⟨hlater, Or.inr (h.stopped.resolve_left (not_not.mpr hphase)),
          fun _ => h.dialling hphase, h.written⟩
  · have hidle : y.serverCall sn o = y := by
      unfold System.serverCall
      split
      · exact absurd ‹_› hphase
      · rfl
    rw [hidle]
    exact hsame

theorem serverCall_goes {t : Test} (hs : sn.Suits t params)
    (h : ServerSide sn params t.totalStreams y.server y.net)
    (hagrees : ∃ pending, y.net.toServer.Agrees pending)
    (hclient : ∃ pending, y.net.toClient.Agrees pending)
    (hawaits : ∀ stage, ServerTalks sn params t.totalStreams stage y.server y.net →
      sn.Awaits params t.totalStreams y.net stage.reads)
    (hresults : y.server.todo.head? = some .sendResults →
      sn.codec.Carries 0 (sendResults y.server.process.server.toTestSide)) :
    ServerGoes sn params t.totalStreams y (y.serverCall sn o) := by
  rcases h with ⟨stage, h⟩ | h
  · have hexpects := hawaits stage h
    obtain ⟨rest, hrest, hsub⟩ := h.todo
    cases stage
    case cookie => exact h.cookie hagrees hexpects
    case paramExchange =>
      exact h.sends .params nofun nofun rfl (List.Sublist.refl _) (fun _ hu => hu) rfl
        rfl nofun rfl
    case params =>
      exact h.parameters hs.client hs.numStreams.le hs.sent hs.carries hagrees hexpects
    case authorize =>
      exact h.quiet .listen nofun nofun rfl (List.Sublist.refl _) rfl
        ((testIsAuthorized_passes _ _).reaches h.ready nofun nofun rfl fun _ hu => hu) rfl rfl
        nofun
    case listen =>
      exact h.quiet .createStreams nofun nofun rfl (List.Sublist.refl _) rfl
        ((protocolListen_passes _).reaches h.ready nofun nofun rfl fun _ hu => hu) rfl rfl nofun
    case createStreams =>
      exact h.sends .affinity nofun nofun rfl (List.Sublist.refl _) (fun _ hu => hu) rfl
        rfl nofun rfl
    case affinity =>
      exact h.quiet .numbers nofun nofun rfl (List.Sublist.refl _) rfl
        ((passes_check _ _ (by decide)).reaches h.ready nofun nofun rfl fun _ hu => hu) rfl rfl
        nofun
    case numbers =>
      exact h.quiet .streams nofun nofun rfl (List.Sublist.cons _ (List.Sublist.refl _))
        rfl (setStreamNumbers_reaches h.ready) rfl rfl nofun
    case announce =>
      exact h.quiet .rate nofun nofun rfl (List.Sublist.refl _) rfl
        ((announceStart_passes _ _).reaches h.ready nofun nofun rfl fun _ hu => hu) rfl rfl nofun
    case rate =>
      exact h.quiet .testStart nofun nofun rfl (List.Sublist.refl _) rfl
        ((passes_checkLate _ _ (by decide)).reaches h.ready nofun nofun rfl fun _ hu => hu) rfl
        rfl nofun
    case testStart =>
      exact h.sends .initTest nofun nofun rfl (List.Sublist.refl _) (fun _ hu => hu) rfl
        rfl nofun rfl
    case initTest =>
      exact h.quiet .timers nofun nofun rfl (List.Sublist.refl _) rfl
        ((passes_check _ _ (by decide)).reaches h.ready nofun nofun rfl fun _ hu => hu) rfl rfl
        nofun
    case timers =>
      exact h.quiet .testRunning nofun nofun rfl (List.Sublist.refl _) rfl
        ((initTest_passes _ _).reaches h.ready nofun nofun rfl fun _ hu => hu) rfl rfl nofun
    case testRunning =>
      exact h.sends .workers nofun nofun rfl (List.Sublist.refl _) (fun _ hu => hu) rfl
        rfl nofun rfl
    case workers => exact h.workers
    case exchangeResults =>
      exact h.sends .results nofun nofun rfl (List.Sublist.refl _) (fun _ hu => hu) rfl
        rfl nofun rfl
    case results => exact h.results hs.small hagrees hexpects
    case sendResults => exact h.sendResults (hresults (by rw [hrest]; rfl))
    case displayResults =>
      exact h.sends .displayed nofun nofun rfl (List.Sublist.cons _ (List.Sublist.refl _))
        (fun _ hu => hu) rfl rfl nofun rfl
    case listening =>
      cases rest with
      | nil =>
          rw [serverCall_empty hrest]
          exact ServerGoes.refl (Or.inl ⟨_, h⟩)
      | cons action later =>
          rcases turn_cases hsub with ⟨rfl, hlater⟩ | ⟨rfl, hlater⟩ | ⟨rfl, rfl⟩
          · exact h.accept hrest hlater
          · exact h.acceptStream rfl hrest (hlater.trans (by decide)) nofun
          · exact h.checkStreams rfl hrest nofun
    all_goals
      cases rest with
      | nil =>
          rw [serverCall_empty hrest]
          exact ServerGoes.refl (Or.inl ⟨_, h⟩)
      | cons action later =>
          rcases turn_cases hsub with ⟨rfl, hlater⟩ | ⟨rfl, hlater⟩ | ⟨rfl, rfl⟩
          · exact h.readMessage (by simp) hrest hlater hagrees hclient hexpects
          · exact h.acceptStream rfl hrest (hlater.trans (by decide)) nofun
          · exact h.checkStreams rfl hrest nofun
  · exact h.call

theorem sublist_ite {α : Type} (p : Prop) [Decidable p] (a : α) :
    (if p then [a] else []) <+ [a] := by
  split_ifs
  · exact List.Sublist.refl _
  · exact List.nil_sublist _

section Turn

variable {s : Server} (listener control data : Bool)

theorem turnActions_sublist (hdialling : net.dialling = .accepted) :
    System.turnActions listener control data s net <+
      [.readMessage, .acceptStream, .checkStreams] := by
  have hidle : (listener && decide (net.dialling = .waiting) && decide (s.state ≠ .createStreams)) =
      false := by simp [hdialling]
  unfold System.turnActions
  simp only [hidle, Bool.false_eq_true, if_false, List.nil_append]
  exact (sublist_ite _ _).append ((sublist_ite _ _).append (List.Sublist.refl _))

theorem turnActions_free (hctrl : s.ctrlSck = false) :
    System.turnActions listener control data s net <+ [.accept, .acceptStream, .checkStreams] := by
  unfold System.turnActions
  simp only [hctrl, Bool.and_false, Bool.false_and, Bool.false_eq_true, if_false, List.nil_append]
  exact (sublist_ite _ _).append ((sublist_ite _ _).append (List.Sublist.refl _))

theorem turnActions_over (hctrl : s.ctrlSck = false) (hdialling : net.dialling = .accepted) :
    System.turnActions listener control data s net <+ [.acceptStream, .checkStreams] := by
  have hidle : (listener && decide (net.dialling = .waiting) && decide (s.state ≠ .createStreams)) =
      false := by simp [hdialling]
  unfold System.turnActions
  simp only [hidle, hctrl, Bool.and_false, Bool.false_and, Bool.false_eq_true, if_false,
    List.nil_append]
  exact (sublist_ite _ _).append (List.Sublist.refl _)

theorem accept_turnActions (h : .accept ∈ System.turnActions listener control data s net) :
    net.dialling = .waiting := by
  by_contra hdialling
  simp [System.turnActions, hdialling] at h

end Turn

theorem serverTurn_goes (h : ServerSide sn params k y.server y.net) (listener control data : Bool) :
    ServerGoes sn params k y (y.serverTurn listener control data) := by
  unfold System.serverTurn
  dsimp only
  split_ifs with hcond
  · obtain ⟨hphase, hempty, hstate⟩ := hcond
    refine ⟨?_, ByServer.refl _, rfl, Since.refl _⟩
    rcases h with ⟨stage, h⟩ | h
    · obtain ⟨rest, hrest, -⟩ := h.todo
      have hidle : stage.todo = [] := (List.append_eq_nil_iff.mp (hrest.symm.trans hempty)).1
      refine Or.inl ⟨stage, h.phase, ⟨_, by rw [hidle]; rfl, ?_⟩, h.ready, h.reads, h.taken,
        h.writes, h.written, h.isOpen, h.dialling, accept_turnActions _ _ _⟩
      by_cases hlistening : stage = .listening
      · subst hlistening
        exact turnActions_free _ _ _ h.ready.ctrlSck
      · have hsub := turnActions_sublist listener control data
          (s := y.server.process.server) (h.dialling hlistening)
        cases stage <;>
          first
          | exact hsub
          | exact absurd hidle (by decide)
          | exact absurd rfl hlistening
    · have hhalted := (h.stopped.resolve_left (not_not.mpr hphase)).resolve_left hstate
      exact Or.inr ⟨turnActions_over _ _ _ hhalted.1 (h.dialling hphase), h.stopped, h.dialling,
        h.written⟩
  · exact ServerGoes.refl h

theorem ServerTalks.loop (h : ServerTalks sn params k stage y.server y.net) {event : ServerEvent}
    (hallowed : event.allowed (!y.server.todo.isEmpty) = true) :
    ServerSide sn params k
      { y.server with process := y.server.process.step sn.serverBuild event }
      (y.net.carryServer sn y.server.process.server
        (y.server.process.step sn.serverBuild event).server) := by
  rcases step_allowed (b := sn.serverBuild) h.phase hallowed with
    ⟨hphase, hproceeds, htimer⟩ | ⟨hidle, hends⟩
  · rw [carryServer_plain hproceeds.since fun hctrl => hproceeds.ctrlSck.trans hctrl]
    exact Or.inl ⟨stage, hphase, h.todo, h.ready.stays hproceeds htimer, h.reads, h.taken, h.writes,
      h.written, h.isOpen, h.dialling, h.dials⟩
  · have htodo : y.server.todo = [] := by simpa using hidle
    have hfive : stage.writes ≠ 5 := by
      obtain ⟨rest, hrest, -⟩ := h.todo
      have hnil := (List.append_eq_nil_iff.mp (hrest.symm.trans htodo)).1
      cases stage <;> first | exact absurd hnil (by decide) | nofun
    right
    have htimer : (y.server.process.step sn.serverBuild event).phase = .running →
        stage ≠ .listening := by
      rintro hphase rfl
      have hset := (hends.stopped.resolve_left (not_not.mpr hphase)).1
      rw [h.ready.timer rfl] at hset
      cases hset
    refine h.over (ByServer.refl _) rfl hends.since ?_ hfive
      (by rw [htodo]; exact List.nil_sublist _) ?_
      (fun hphase => h.dialling (htimer hphase))
    · intro hwrites
      rcases hends.streams with hlength | hexpired
      · exact Or.inl (hlength.trans (h.ready.full hwrites))
      · exact Or.inr hexpired
    · by_cases hphase : (y.server.process.step sn.serverBuild event).phase = .running
      · obtain ⟨-, hctrl, hstate⟩ := hends.stopped.resolve_left (not_not.mpr hphase)
        rw [h.ready.ctrlSck, if_pos (by simpa using htimer hphase)] at hstate
        exact Or.inr (Or.inr ⟨hctrl, hstate⟩)
      · exact Or.inl hphase

theorem ServerOver.loop (h : ServerOver sn k y.server y.net) {event : ServerEvent}
    (hallowed : event.allowed (!y.server.todo.isEmpty) = true) :
    ServerOver sn k
      { y.server with process := y.server.process.step sn.serverBuild event }
      (y.net.carryServer sn y.server.process.server
        (y.server.process.step sn.serverBuild event).server) := by
  by_cases hphase : y.server.process.phase = .running
  · have hcarried := (carryServer_fields sn y.server.process.server
      (y.server.process.step sn.serverBuild event).server y.net).1
    obtain ⟨main, errors, hwritten, hmain, herrors, hfive, hholds, hreads⟩ := h.written
    have hstopped := h.stopped.resolve_left (not_not.mpr hphase)
    rcases step_allowed (b := sn.serverBuild) hphase hallowed with
      ⟨-, hproceeds, -⟩ | ⟨-, hends⟩
    · rw [carryServer_plain hproceeds.since fun hctrl => hproceeds.ctrlSck.trans hctrl]
      refine ⟨h.todo, Or.inr ?_, fun _ => h.dialling hphase, main, errors, hwritten, hmain, herrors,
        hfive, ?_, hreads⟩
      · rcases hstopped with hdone | ⟨hctrl, hstate⟩
        · exact Or.inl (hproceeds.state.trans hdone)
        · exact Or.inr ⟨hproceeds.ctrlSck.trans hctrl, hproceeds.state.trans hstate⟩
      · intro hmain
        rcases hholds hmain with hlength | hexpired
        · exact Or.inl (hproceeds.length.trans hlength)
        · exact Or.inr (hproceeds.since.mem hexpired)
    · obtain ⟨later, hlater, hcarriedWritten, -⟩ :=
        carryServer_tame sn y.net hends.since
      refine ⟨h.todo, ?_, fun _ => hcarried.trans (h.dialling hphase), main, errors ++ later, ?_,
        hmain, herrors.append hlater, hfive, ?_, ?_⟩
      · by_cases hrunning : (y.server.process.step sn.serverBuild event).phase = .running
        · obtain ⟨-, hctrl, hstate⟩ := hends.stopped.resolve_left (not_not.mpr hrunning)
          right
          split_ifs at hstate
          · exact Or.inr ⟨hctrl, hstate⟩
          · rcases hstopped with hdone | ⟨-, hhalted⟩
            · exact Or.inl (hstate.trans hdone)
            · exact Or.inr ⟨hctrl, hstate.trans hhalted⟩
        · exact Or.inl hrunning
      · rw [hcarriedWritten, hwritten, List.append_assoc]
      · intro hmain
        rcases hends.streams with hlength | hexpired
        · rcases hholds hmain with hkept | hexpired
          · exact Or.inl (hlength.trans hkept)
          · exact Or.inr (hends.since.mem hexpired)
        · exact Or.inr hexpired
      · exact fun hmain => (hreads hmain).trans (byServer_carry _ _ _).reads
  · rw [step_stopped hphase hallowed, carryServer_plain (Since.refl _) id]
    exact h

theorem step_calm {b : Build} {p : Process} {event : ServerEvent} {busy : Bool} {state : TestState}
    (hallowed : event.allowed busy = true) :
    Since (ServerCall.calm state) p.server (p.step b event).server := by
  by_cases hphase : p.phase = .running
  · rcases step_allowed (b := b) hphase hallowed with ⟨-, hproceeds, -⟩ | ⟨-, hends⟩
    · exact hproceeds.since.tame.calm
    · exact hends.since.calm
  · rw [step_stopped hphase hallowed]
    exact Since.refl _

theorem serverLoop_goes (h : ServerSide sn params k y.server y.net) (event : ServerEvent) :
    ServerGoes sn params k y (y.serverLoop sn event) := by
  unfold System.serverLoop
  split_ifs with hallowed
  · refine ⟨?_, byServer_carry _ _ _, rfl, step_calm hallowed⟩
    rcases h with ⟨stage, h⟩ | h
    · exact h.loop hallowed
    · exact Or.inr (h.loop hallowed)
  · exact ServerGoes.refl h

end Server

end Iperf3
