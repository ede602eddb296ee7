import Iperf3.JsonReceived

/-!
# Lifecycles of JSON items

What is made for one message is gone after it, what is taken out of a received
message stays, and nothing is freed twice.
-/

namespace Iperf3

namespace JsonHeap

open Fallible LinkedList FloatScan

variable {base h : Heap} {f : Forest} {a j : ℕ} {name : Option Name} {body : Body} {cs : Forest}

/-! ## Some memory -/

def emptyMemory : Heap where
  nodes := fun _ => none
  links := { next := fun _ => none, prev := fun _ => none }
  texts := fun _ => none
  size := 0
  refused := false

def settings : Forest :=
  .cons 0 none .object (.cons 1 (some (0, CString.ofString "on")) (.bool true) .nil .nil) .nil

def settingsMemory : Heap where
  nodes a :=
    if a = 0 then some (Body.node none (some 1) .object)
    else if a = 1 then some (Body.node (some (0, CString.ofString "on")) none (.bool true))
    else none
  links := { next := fun _ => none, prev := fun a => if a = 1 then some 1 else none }
  texts k := if k = 0 then some (CString.ofString "on") else none
  size := 2
  refused := false

theorem settings_keeps : Keeps emptyMemory settings settingsMemory where
  held := by
    refine ⟨⟨rfl, trivial, .inr trivial, trivial, ?_⟩,
      ⟨⟨rfl, rfl, .inl rfl, trivial, rfl, rfl⟩, trivial, trivial⟩, trivial⟩
    simp [LinkedList.Ring, Segment, Forest.roots, settingsMemory]
  single _ _ := rfl
  nodup := by simp [settings, Forest.nodes]
  nodupTexts := by simp [settings, Forest.texts, nameTexts, Body.texts]
  nodes a ha := by
    simp [settings, Forest.nodes] at ha
    simp [settingsMemory, emptyMemory, ha]
  texts k hk := by
    simp [settings, Forest.texts, nameTexts, Body.texts] at hk
    simp [settingsMemory, emptyMemory, hk]
  fresh _ _ := rfl
  freshTexts _ _ := rfl
  next _ _ := rfl
  prev a ha := absurd rfl ha
  size := rfl

def event : Forest :=
  .cons 2 none .object
    (.cons 3 (some (2, CString.ofString "event")) (.string 1 (CString.ofString "start")) .nil
      (.cons 4 (some (3, CString.ofString "data"))
        (.reference (Body.node none (some 1) .object)) .nil
        (.cons 5 (some (4, CString.ofString "list")) .array
          (.cons 6 none .null .nil .nil) .nil))) .nil

def eventMemory : Heap where
  nodes a :=
    if a = 2 then some (Body.node none (some 3) .object)
    else if a = 3 then
      some (Body.node (some (2, CString.ofString "event")) none
        (.string 1 (CString.ofString "start")))
    else if a = 4 then
      some (Body.node (some (3, CString.ofString "data")) none
        (.reference (Body.node none (some 1) .object)))
    else if a = 5 then some (Body.node (some (4, CString.ofString "list")) (some 6) .array)
    else if a = 6 then some (Body.node none none .null)
    else settingsMemory.nodes a
  links :=
    { next := fun a => if a = 3 then some 4 else if a = 4 then some 5 else none
      prev := fun a =>
        if a = 3 then some 5 else if a = 4 then some 3 else if a = 5 then some 4
        else if a = 6 then some 6 else settingsMemory.links.prev a }
  texts k :=
    if k = 1 then some (CString.ofString "start")
    else if k = 2 then some (CString.ofString "event")
    else if k = 3 then some (CString.ofString "data")
    else if k = 4 then some (CString.ofString "list")
    else settingsMemory.texts k
  size := 7
  refused := false

theorem event_keeps : Keeps settingsMemory event eventMemory where
  held := by
    refine ⟨⟨rfl, trivial, .inr trivial, trivial, ?_⟩,
      ⟨⟨rfl, rfl, .inl rfl, rfl, rfl, rfl⟩, trivial,
      ⟨rfl, rfl, .inl rfl, trivial, rfl, rfl⟩, trivial,
      ⟨rfl, rfl, .inr trivial, trivial, ?_⟩,
      ⟨⟨rfl, trivial, .inl rfl, trivial, rfl, rfl⟩, trivial, trivial⟩, trivial⟩, trivial⟩
    · simp [LinkedList.Ring, Segment, Forest.roots, eventMemory]
    · simp [LinkedList.Ring, Segment, Forest.roots, eventMemory]
  single a ha := by
    simp [event, Forest.roots] at ha
    simp [eventMemory, ha]
  nodup := by simp [event, Forest.nodes]
  nodupTexts := by simp [event, Forest.texts, nameTexts, Body.texts]
  nodes a ha := by
    simp [event, Forest.nodes] at ha
    simp [eventMemory, ha]
  texts k hk := by
    simp [event, Forest.texts, nameTexts, Body.texts] at hk
    simp [eventMemory, hk]
  fresh a ha := by
    simp [event, Forest.nodes] at ha
    rcases ha with rfl | rfl | rfl | rfl | rfl <;> rfl
  freshTexts k hk := by
    simp [event, Forest.texts, nameTexts, Body.texts] at hk
    rcases hk with rfl | rfl | rfl | rfl <;> rfl
  next a ha := by
    have hlt : a = 0 ∨ a = 1 := by
      by_contra hne
      exact ha (by simp [settingsMemory, not_or.mp hne])
    rcases hlt with rfl | rfl <;> rfl
  prev a ha := by
    have hlt : a = 0 ∨ a = 1 := by
      by_contra hne
      exact ha (by simp [settingsMemory, not_or.mp hne])
    rcases hlt with rfl | rfl <;> rfl
  size := rfl

/-! ## Deleting -/

/-- Exactly what belongs to the item is freed, and what stands beside it is as
it was. -/
theorem delete_exact (hkeeps : Keeps base (.cons a name body cs f) h) :
    delete (some a) h =
      (some (), h.release (Forest.cons a name body cs .nil).nodes
        (Forest.cons a name body cs .nil).texts) ∧
      Keeps base f (h.release (Forest.cons a name body cs .nil).nodes
        (Forest.cons a name body cs .nil).texts) :=
  delete_eq hkeeps

theorem delete_exact_event :
    delete (some 2) eventMemory = (some (), eventMemory.release event.nodes event.texts) ∧
      Keeps settingsMemory .nil (eventMemory.release event.nodes event.texts) :=
  delete_exact event_keeps

/-! ## Events -/

/-- An allocator for small messages, whose texts need less than a page. -/
def smallAllocator : Allocator where
  node h := [h.size].find? fun a => (h.nodes a).isNone
  text h := (List.range' (4 * h.size) 4).find? fun k => (h.texts k).isNone
  buffer _ size := size < 4096
  node_free h _ ha := Option.isNone_iff_eq_none.mp
    (List.find?_some (p := fun a => (h.nodes a).isNone) ha)
  text_free h _ hk := Option.isNone_iff_eq_none.mp
    (List.find?_some (p := fun k => (h.texts k).isNone) hk)

/-- The value, and whether a request has been refused. -/
def outcome {α : Type} (r : Option α × Heap) : Option α × Bool :=
  (r.1, r.2.refused)

theorem settings_known : Known settingsMemory (some 0) := by
  rintro r ⟨⟩
  refine ⟨emptyMemory, settings, settings_keeps, ⟨?_, ⟨?_, trivial, trivial⟩, trivial⟩, ?_⟩
  · exact fun node hnode => by cases hnode
  · exact fun node hnode => by cases hnode
  · exact List.mem_cons_self

/-- Without a refused request nothing is left of an event that has been put
out. -/
theorem stream_output_leaves_nothing (m : Allocator) (eventName : CString) {obj : Option ℕ}
    (hobj : Known base obj) :
    (∃ r t, jsonStreamOutput m eventName obj base = (some r, t) ∧
      ((r = 0 ∧ ∃ f, (f = .nil ∨ t.refused = true) ∧ Keeps base f t) ∨
        (r = -1 ∧ t.refused = true ∧ ∃ f, Keeps base f t))) ∨
      ∃ t, jsonStreamOutput m eventName obj base = (none, t) ∧ ∃ event, Overlong false event t :=
  (jsonStreamOutput_contract eventName hobj).ends rfl

theorem stream_output_leaves_nothing_start :
    ∃ t, jsonStreamOutput smallAllocator (CString.ofString "start") (some 0) settingsMemory =
      (some 0, t) ∧ Keeps settingsMemory .nil t := by
  have houtcome : outcome (jsonStreamOutput smallAllocator (CString.ofString "start") (some 0)
      settingsMemory) = (some 0, false) := by decide +kernel
  rcases stream_output_leaves_nothing smallAllocator (CString.ofString "start") settings_known with
    ⟨r, t, hrun, hpost⟩ | ⟨t, hrun, -⟩
  · rw [hrun] at houtcome
    have hgranted : ¬ t.refused = true := Bool.eq_false_iff.mp (congrArg Prod.snd houtcome)
    rcases hpost with ⟨rfl, f, hf, hkeeps⟩ | ⟨-, hrefused, -⟩
    · obtain rfl := hf.resolve_right hgranted
      exact ⟨t, hrun, hkeeps⟩
    · exact absurd hrefused hgranted
  · rw [hrun] at houtcome
    cases houtcome

/-! ## Results -/

theorem send_results_leaves_nothing (m : Allocator) (debug written : Bool)
    {jsonTop : Option ℕ} (htop : Known base jsonTop) (side : TestSide) :
    (∃ sent t, sendResultItems m debug written jsonTop side base = (some sent, t) ∧
      (sent = written ∨ t.refused = true) ∧
        ∃ f, (f = .nil ∨ t.refused = true) ∧ Keeps base f t) ∨
      ∃ t, sendResultItems m debug written jsonTop side base = (none, t) ∧
        ((SendsText side ∧ t.refused = true) ∨ ∃ format j, Overlong format j t) :=
  (sendResultItems_contract debug written htop side).ends rfl

/-- A server with one stream that sends its output as a text. -/
def talkingServer : TestSide :=
  { reportingServer with
    test := { reportingServer.test with congestionUsed := none }
    cpuUtil := (0, 0, 0)
    jsonOutput := false
    serverOutputList := ["up", "down"]
    streams := [{ iperfNewStream true [] with id := 1 }] }

theorem send_results_leaves_nothing_talking :
    ∃ t, sendResultItems smallAllocator false true (some 0) talkingServer settingsMemory =
      (some true, t) ∧ Keeps settingsMemory .nil t := by
  have houtcome : outcome (sendResultItems smallAllocator false true (some 0) talkingServer
      settingsMemory) = (some true, false) := by decide +kernel
  rcases send_results_leaves_nothing smallAllocator false true settings_known talkingServer with
    ⟨sent, t, hrun, hsent, f, hf, hkeeps⟩ | ⟨t, hrun, -⟩
  · rw [hrun] at houtcome
    have hgranted : ¬ t.refused = true := Bool.eq_false_iff.mp (congrArg Prod.snd houtcome)
    obtain rfl := hf.resolve_right hgranted
    obtain rfl := hsent.resolve_right hgranted
    exact ⟨t, hrun, hkeeps⟩
  · rw [hrun] at houtcome
    cases houtcome

/-- The message is gone but for the output of the server, if it is asked for
and there. -/
theorem server_output_survives (m : Allocator) (debug : Bool) (t : Test)
    (hwhole : (Forest.cons j name body cs .nil).Whole)
    (hkeeps : Keeps base (.cons j name body cs .nil) h) :
    (∃ got h', getResultItems m debug t j h = (some got, h') ∧ Survives base t cs got h') ∨
      ∃ h', getResultItems m debug t j h = (none, h') ∧ debug = true ∧ Overlong true j h' :=
  (getResultItems_survives debug t hwhole).ends hkeeps

/-- A message of a server with one stream and its output. -/
def results : Forest :=
  .cons 0 none .object
    (.cons 1 (some (0, Key.cpuUtilTotal.cname)) (.number (toDouble 3)) .nil
      (.cons 2 (some (1, Key.cpuUtilUser.cname)) (.number (toDouble 2)) .nil
        (.cons 3 (some (2, Key.cpuUtilSystem.cname)) (.number (toDouble 1)) .nil
          (.cons 4 (some (3, Key.senderHasRetransmits.cname)) (.number (toDouble 0)) .nil
            (.cons 5 (some (4, Key.congestionUsed.cname)) (.string 5 (CString.ofString "cubic"))
              .nil
              (.cons 6 (some (6, Key.serverOutputJson.cname)) .object
                (.cons 7 (some (7, Key.title.cname)) (.bool true) .nil .nil)
                (.cons 8 (some (8, Key.streams.cname)) .array
                  (.cons 9 none .object
                    (.cons 10 (some (9, Key.id.cname)) (.number (toDouble 1)) .nil .nil) .nil)
                  .nil))))))) .nil

def resultsMemory : Heap where
  nodes a :=
    [Body.node none (some 1) .object,
      Body.node (some (0, [])) none (.number (toDouble 3)),
      Body.node (some (1, [])) none (.number (toDouble 2)),
      Body.node (some (2, [])) none (.number (toDouble 1)),
      Body.node (some (3, [])) none (.number (toDouble 0)),
      Body.node (some (4, [])) none (.string 5 []),
      Body.node (some (6, [])) (some 7) .object,
      Body.node (some (7, [])) none (.bool true),
      Body.node (some (8, [])) (some 9) .array,
      Body.node none (some 10) .object,
      Body.node (some (9, [])) none (.number (toDouble 1))][a]?
  links :=
    { next := fun a => ([none, some 2, some 3, some 4, some 5, some 6, some 8][a]?).join
      prev := fun a => ([none, some 8, some 1, some 2, some 3, some 4, some 5, some 7, some 6,
        some 9, some 10][a]?).join }
  texts k :=
    [Key.cpuUtilTotal.cname, Key.cpuUtilUser.cname, Key.cpuUtilSystem.cname,
      Key.senderHasRetransmits.cname, Key.congestionUsed.cname, CString.ofString "cubic",
      Key.serverOutputJson.cname, Key.title.cname, Key.streams.cname, Key.id.cname][k]?
  size := 11
  refused := false

theorem results_keeps : Keeps emptyMemory results resultsMemory where
  held := by
    refine ⟨⟨rfl, trivial, .inr trivial, trivial, ?_⟩,
      ⟨⟨rfl, rfl, .inl rfl, trivial, rfl, rfl⟩, trivial,
      ⟨rfl, rfl, .inl rfl, trivial, rfl, rfl⟩, trivial,
      ⟨rfl, rfl, .inl rfl, trivial, rfl, rfl⟩, trivial,
      ⟨rfl, rfl, .inl rfl, trivial, rfl, rfl⟩, trivial,
      ⟨rfl, rfl, .inl rfl, rfl, rfl, rfl⟩, trivial,
      ⟨rfl, rfl, .inr trivial, trivial, ?_⟩,
      ⟨⟨rfl, rfl, .inl rfl, trivial, rfl, rfl⟩, trivial, trivial⟩,
      ⟨rfl, rfl, .inr trivial, trivial, ?_⟩,
      ⟨⟨rfl, trivial, .inr trivial, trivial, ?_⟩,
      ⟨⟨rfl, rfl, .inl rfl, trivial, rfl, rfl⟩, trivial, trivial⟩, trivial⟩, trivial⟩, trivial⟩
    all_goals simp [LinkedList.Ring, Segment, Forest.roots, resultsMemory]
  single a ha := by
    simp [results, Forest.roots] at ha
    simp [resultsMemory, ha]
  nodup := by simp [results, Forest.nodes]
  nodupTexts := by simp [results, Forest.texts, nameTexts, Body.texts]
  nodes a ha := by
    simp [results, Forest.nodes] at ha
    exact List.getElem?_eq_none (by simp; omega)
  texts k hk := by
    simp [results, Forest.texts, nameTexts, Body.texts] at hk
    exact List.getElem?_eq_none (by simp; omega)
  fresh _ _ := rfl
  freshTexts _ _ := rfl
  next _ ha := absurd rfl ha
  prev _ ha := absurd rfl ha
  size := rfl

/-- A client that has asked for the server's output. -/
def curiousClient : Test :=
  { iperfStart Build.linux with
    role := .client
    getServerOutput := 1 }

/-- The client keeps the output and a copy of the congestion control's name. -/
theorem server_output_survives_results :
    ∃ got t base', getResultItems smallAllocator false curiousClient 0 resultsMemory =
        (some got, t) ∧ got.jsonServerOutput = some 6 ∧
      Copies emptyMemory got.remoteCongestionUsed.toList base' ∧
        Keeps base' (.cons 6 (some (6, Key.serverOutputJson.cname)) .object
          (.cons 7 (some (7, Key.title.cname)) (.bool true) .nil .nil) .nil) t := by
  have hkept : (getResultItems smallAllocator false curiousClient 0 resultsMemory).1.map
      (fun got => (got.jsonServerOutput, got.serverOutputText)) = some (some 6, none) := by
    decide +kernel
  have hwhole : results.Whole := by simp [results, Forest.Whole, Body.IsValue]
  rcases server_output_survives smallAllocator false curiousClient hwhole results_keeps with
    ⟨got, t, hrun, -, base', hcopies, hpost⟩ | ⟨t, hrun, hdebug, -⟩
  · rw [hrun] at hkept
    obtain ⟨houtput, htext⟩ := Prod.mk.inj (Option.some.inj hkept)
    rw [htext] at hcopies
    rcases hpost with ⟨hnone, -⟩ | ⟨xs, ys, a, name, output, ics, ha, hcs, hkeeps⟩
    · rw [houtput] at hnone
      cases hnone
    · obtain rfl : 6 = a := Option.some.inj (houtput.symm.trans ha)
      have htaken := Forest.has_append.mpr (.inr (.inl ⟨rfl, rfl, rfl, rfl⟩) : xs.Has 6 name output
        ics ∨ (Forest.cons 6 name output ics ys).Has 6 name output ics)
      rw [← hcs] at htaken
      obtain ⟨rfl, rfl, rfl⟩ := htaken.unique (Forest.nodup_cons results_keeps.nodup).2.2.1
        (.inr (.inr (.inr (.inr (.inr (.inr (.inr (.inr (.inr (.inr
          (.inl ⟨rfl, rfl, rfl, rfl⟩)))))))))))
      exact ⟨got, t, base', hrun, houtput, hcopies, hkeeps⟩
  · cases hdebug

end JsonHeap

end Iperf3
