import Iperf3.JsonHeapPrinting
import Iperf3.JsonMembers
import Iperf3.JsonRefusal

/-!
# Messages that are built, printed and deleted

A function makes an object, adds to it, prints it and deletes it.  Whatever it
adds and whatever the allocator refuses, the functions below touch only what
is allocated; when nothing is refused, memory is in the end what it was.
-/

namespace Iperf3

namespace JsonHeap

open Fallible LinkedList MachineInt

variable {base h h' : Heap} {f g : Forest} {a b j k : ℕ} {name : Option Name} {body : Body}
  {cs ss : Forest} (m : Allocator)

/-! ## The functions of the program -/

def jsonStreamOutput (eventName : CString) (obj : Option ℕ) : HeapProgram ℤ := do
  let event ← createObject m
  match event with
  | none => return -1
  | some event => do
      let _ ← addStringToObject m event (CString.ofString "event") (some eventName)
      let _ ← addItemReferenceToObject m event (CString.ofString "data") obj
      let str ← print m false event
      match str with
      | none => return -1
      | some str => do
          let _ ← readText str
          freeText str
          delete (some event)
          return 0

/-- One of the `cJSON_Add...ToObject` calls for a value without children. -/
def addMember (object : ℕ) (member : Key × Json) : HeapProgram (Option ℕ) :=
  match member.2 with
  | .bool value => addBoolToObject m object member.1.cname value
  | .number q => addNumberToObject m object member.1.cname (FloatScan.toDouble q)
  | .string s => addStringToObject m object member.1.cname (some (CString.ofString s))
  | _ => pure none

def addMembers (object : ℕ) : List (Key × Json) → HeapProgram Unit
  | [] => pure ()
  | member :: members => do
      let _ ← addMember m object member
      addMembers object members

/-- The calls of `strncat`, with memory for `capacity` bytes and the zero
behind them.  The pointer is not checked. -/
def appendLines (output : Option ℕ) (capacity : ℕ) : ℕ → List CString → HeapProgram Unit
  | _, [] => pure ()
  | buflen, line :: lines =>
      match output with
      | none => giveUp
      | some k => do
          let s ← readText k
          if capacity < (s ++ line.take buflen).length then giveUp
          else do
            writeText k fun s => s ++ line.take buflen
            appendLines output capacity (buflen - line.length) lines

def readPointer : Option ℕ → HeapProgram (Option CString)
  | none => pure none
  | some k => do
      let s ← readText k
      return some s

def addOutputText (object : ℕ) (lines : List CString) : HeapProgram Unit := do
  let buflen := (lines.map List.length).sum
  let output ← allocateText m []
  appendLines output buflen buflen lines
  let text ← readPointer output
  let _ ← addStringToObject m object Key.serverOutputText.cname text
  whenGiven output freeText

def addServerOutput (object : ℕ) (jsonTop : Option ℕ) (side : TestSide) : HeapProgram Unit :=
  provided (side.test.role = .server ∧ side.test.getServerOutput ≠ 0) <|
    if side.jsonOutput then do
      let _ ← addItemReferenceToObject m object Key.serverOutputJson.cname jsonTop
      return ()
    else addOutputText m object (side.serverOutputList.map CString.ofString)

/-- The loop over the streams.  It tells whether every stream got its object. -/
def addStreamResults (t : Test) (array : ℕ) : List Stream → HeapProgram Bool
  | [] => pure true
  | sp :: streams => do
      let item ← createObject m
      match item with
      | none => do
          let _ ← addStreamResults t array streams
          return false
      | some item => do
          let _ ← addItemToArray array (some item)
          addMembers m item (resultMembers t sp)
          addStreamResults t array streams

/-- What is shown when debugging.  A text that is not there is printed as such
by the C libraries. -/
def showItem (j : ℕ) : HeapProgram Unit := do
  let str ← print m true j
  whenGiven str fun str => do
    let _ ← readText str
    freeText str
    return ()

/-- `written` tells whether the calls of `Nwrite` succeed. -/
def jsonWriteItem (written : Bool) (j : ℕ) : HeapProgram Bool := do
  let str ← print m false j
  match str with
  | none => return false
  | some str => do
      let _ ← readText str
      freeText str
      return written

/-- `send_results` as a sequence of calls of the library. -/
def sendResultItems (debug written : Bool) (jsonTop : Option ℕ) (side : TestSide) :
    HeapProgram Bool := do
  let j ← createObject m
  match j with
  | none => return false
  | some j => do
      addMembers m j
        ([(.cpuUtilTotal, .number side.cpuUtil.1),
          (.cpuUtilUser, .number side.cpuUtil.2.1),
          (.cpuUtilSystem, .number side.cpuUtil.2.2),
          (.senderHasRetransmits, .ofInt
            (if side.test.mode = .receiver then -1 else side.test.senderHasRetransmits))] ++
          addString .congestionUsed side.test.congestionUsed)
      addServerOutput m j jsonTop side
      let streams ← createArray m
      let made ← (match streams with
        | none => pure false
        | some streams => do
            let _ ← addItemToObject m j Key.streams.cname (some streams)
            addStreamResults m side.test streams side.streams)
      provided (made = true ∧ debug = true) (showItem m j)
      let sent ← (if made then jsonWriteItem m written j else pure false)
      delete (some j)
      return sent

/-! ## A refusal is not forgotten -/

namespace Lasting

theorem addMember (member : Key × Json) : Lasting (addMember m b member) := by
  obtain ⟨key, item⟩ := member
  cases item with
  | bool value => exact addCreated m (allocateNode m)
  | number q => exact addCreated m (allocateNode m)
  | string s => exact addCreated m (createString m)
  | null => exact pure
  | array items => exact pure
  | object members => exact pure

theorem addMembers (members : List (Key × Json)) : Lasting (addMembers m b members) := by
  induction members with
  | nil => exact pure
  | cons member members ih => exact (addMember m member).bind fun _ => ih

theorem addStreamResults (t : Test) (streams : List Stream) :
    Lasting (addStreamResults m t b streams) := by
  induction streams with
  | nil => exact pure
  | cons sp streams ih =>
      apply (allocateNode m).bind
      intro item
      cases item with
      | none => exact ih.bind fun _ => pure
      | some item => exact addItemToArray.bind fun _ => (addMembers m _).bind fun _ => ih

theorem showItem : Lasting (showItem m j) :=
  (print m).bind fun _ => whenGiven fun _ => readText.bind fun _ => freeText.bind fun _ => pure

end Lasting

/-! ## What has been built -/

def Forest.Contains (f : Forest) (b : ℕ) : Prop :=
  ∃ name body bs, f.Has b name body bs ∧ Body.IsContainer body

/-- The items are those below `j`, and others only if a request for memory has
been refused; there are arrays or objects at the given addresses, and copied
nodes meet `P`. -/
structure Hangs (P : Node → Prop) (refused : Bool) (j : ℕ) (containers : List ℕ) (f : Forest) :
    Prop where
  shape : ∃ cs g, f = .cons j none .object cs g ∧ (g = .nil ∨ refused = true)
  containers : ∀ b ∈ containers, f.Contains b
  refs : f.Refs P

def Building (P : Node → Prop) (base : Heap) (j : ℕ) (containers : List ℕ) (h : Heap) : Prop :=
  ∃ f, Hangs P h.refused j containers f ∧ Keeps base f h

/-- An array or object that is still to be added. -/
def Beside (P : Node → Prop) (base : Heap) (j : ℕ) (containers : List ℕ) (a : ℕ) (h : Heap) :
    Prop :=
  ∃ f, Hangs P h.refused j containers f ∧
    ∃ body, Body.IsContainer body ∧ Keeps base (.cons a none body .nil f) h

/-- Memory after everything below `j` has been deleted. -/
def Cleared (base : Heap) (h : Heap) : Prop :=
  ∃ g, (g = .nil ∨ h.refused = true) ∧ Keeps base g h

/-- The first object of a message has been asked for. -/
def Begun (P : Node → Prop) (base : Heap) (item : Option ℕ) (h : Heap) : Prop :=
  match item with
  | none => h.refused = true ∧ Keeps base .nil h
  | some j => Building P base j [j] h

/-- An array or object has been asked for. -/
def Offered (P : Node → Prop) (base : Heap) (j : ℕ) (containers : List ℕ) (item : Option ℕ)
    (h : Heap) : Prop :=
  match item with
  | none => h.refused = true ∧ Building P base j containers h
  | some a => Beside P base j containers a h

variable {P : Node → Prop} {E : Heap → Prop} {containers : List ℕ} {s : CString} {r r' : Bool} {m}

theorem Hangs.later (hf : Hangs P r j containers f) (hr : r = true → r' = true) :
    Hangs P r' j containers f where
  shape := by
    obtain ⟨cs, g, hshape, hg⟩ := hf.shape
    exact ⟨cs, g, hshape, hg.imp_right hr⟩
  containers := hf.containers
  refs := hf.refs

theorem Hangs.attach (hf : Hangs P r j containers f) (b : ℕ) (hg : g.Refs P) :
    Hangs P r j containers (f.modify b (·.append g)) where
  shape := by
    obtain ⟨cs, rest, rfl, hrest⟩ := hf.shape
    rw [Forest.modify]
    split_ifs
    · exact ⟨_, rest, rfl, hrest⟩
    · refine ⟨_, _, rfl, hrest.imp_left fun hnil => ?_⟩
      rw [hnil, Forest.modify]
  containers c hc := by
    obtain ⟨name, body, bs, hhas, hcontainer⟩ := hf.containers c hc
    obtain ⟨bs', hhas'⟩ := hhas.modify_append
    exact ⟨name, body, bs', hhas', hcontainer⟩
  refs := hf.refs.modify hg

theorem Body.IsContainer.refs (hbody : Body.IsContainer body) :
    (Forest.cons a name body .nil .nil).Refs P := by
  refine ⟨?_, trivial, trivial⟩
  rintro node rfl
  exact hbody.elim

theorem Hangs.added (hf : Hangs P r j containers f) (hb : f.Contains b)
    (hbody : Body.IsContainer body) :
    Hangs P r j (a :: containers) (f.modify b (·.append (.cons a name body .nil .nil))) where
  shape := (hf.attach b hbody.refs).shape
  containers c hc := by
    rcases List.mem_cons.mp hc with rfl | hc
    · obtain ⟨_, _, _, hhas, -⟩ := hb
      exact ⟨name, body, .nil, hhas.added (.inl ⟨rfl, rfl, rfl, rfl⟩), hbody⟩
    · exact (hf.attach b hbody.refs).containers c hc
  refs := (hf.attach b hbody.refs).refs

theorem Keeps.swap {name' : Option Name} {body' : Body} {cs' : Forest}
    (hkeeps : Keeps base (.cons a name body cs (.cons b name' body' cs' f)) h) :
    Keeps base (.cons b name' body' cs' (.cons a name body cs f)) h := by
  apply hkeeps.rearrange
  exact
    { held := fun h hheld => ⟨hheld.2.2.1, hheld.2.2.2.1, hheld.1, hheld.2.1, hheld.2.2.2.2⟩
      roots := List.Perm.swap b a f.roots
      nodes := by
        simp only [Forest.nodes]
        rw [List.perm_iff_count]
        intro r
        simp only [List.count_cons, List.count_append]
        omega
      texts := by
        simp only [Forest.texts]
        rw [List.perm_iff_count]
        intro r
        simp only [List.count_append]
        omega }

/-- What is not added stays behind the object. -/
theorem Hangs.strand (hrefused : r = true) (hf : Hangs P r j containers f)
    (hrefs : (Forest.cons a name body cs .nil).Refs P)
    (hkeeps : Keeps base (.cons a name body cs f) h) :
    ∃ f', Hangs P r j containers f' ∧ (Body.IsContainer body → f'.Contains a) ∧
      Keeps base f' h := by
  obtain ⟨ds, rest, rfl, -⟩ := hf.shape
  obtain ⟨hj, hds, hrest⟩ := hf.refs
  refine ⟨.cons j none .object ds (.cons a name body cs rest),
    ⟨⟨ds, _, rfl, .inr hrefused⟩, ?_, hj, hds, hrefs.1, hrefs.2.1, hrest⟩, ?_, hkeeps.swap⟩
  · intro c hc
    obtain ⟨cname, cbody, bs, hhas, hcontainer⟩ := hf.containers c hc
    refine ⟨cname, cbody, bs, ?_, hcontainer⟩
    rcases hhas with hhas | hhas | hhas
    · exact .inl hhas
    · exact .inr (.inl hhas)
    · exact .inr (.inr (.inr (.inr hhas)))
  · exact fun hbody => ⟨name, body, cs, .inr (.inr (.inl ⟨rfl, rfl, rfl, rfl⟩)), hbody⟩

/-! ## What each call does to it -/

theorem Keeps.building (hkeeps : Keeps base (.cons j none .object .nil .nil) h) :
    Building P base j [j] h := by
  refine ⟨_, ⟨⟨.nil, .nil, rfl, .inl rfl⟩, ?_, Body.IsContainer.refs trivial⟩, hkeeps⟩
  intro c hc
  rw [List.mem_singleton.mp hc]
  exact ⟨none, .object, .nil, .inl ⟨rfl, rfl, rfl, rfl⟩, trivial⟩

theorem addCreated_building {excuse : Prop} {Q : Body → Prop} {create : HeapProgram (Option ℕ)}
    (hcreate : ∀ f, Contract (Keeps base f) create (Made excuse base f Q) fun _ => False)
    (hlast : Lasting create) (hQ : ∀ body, Q body → ∀ node, body ≠ .reference node)
    (hb : b ∈ containers) :
    Contract (Building P base j containers) (addCreated m create b s)
      (fun _ => Building P base j containers) E := by
  apply Contract.of_exists
  intro f
  apply Contract.of_runs
  rintro h ⟨hf, hkeeps⟩
  obtain ⟨_, _, _, hhas, hcontainer⟩ := hf.containers b hb
  obtain ⟨item, t, hrun, hpost⟩ :=
    (addCreated_adds m (s := s) (hcreate f) hhas hcontainer).runs hkeeps
  have hlater := hf.later ((Lasting.addCreated m hlast).run hrun)
  refine ⟨item, t, hrun, ?_⟩
  rcases hpost with ⟨-, -, hkeeps'⟩ | ⟨a, k, body, -, hbody, hkeeps'⟩
  · exact ⟨f, hlater, hkeeps'⟩
  · have hrefs : (Forest.cons a (some (k, s)) body .nil .nil).Refs P :=
      ⟨fun node hnode => absurd hnode (hQ body hbody node), trivial, trivial⟩
    exact ⟨_, hlater.attach b hrefs, hkeeps'⟩

theorem addStringToObject_building (text : Option CString) (hb : b ∈ containers) :
    Contract (Building P base j containers) (addStringToObject m b s text)
      (fun _ => Building P base j containers) E := by
  apply addCreated_building (fun _ => createString_made m text) (Lasting.createString m) _ hb
  rintro body ⟨k, s, -, rfl⟩ node hnode
  cases hnode

theorem addMember_building (member : Key × Json) (hb : b ∈ containers) :
    Contract (Building P base j containers) (addMember m b member)
      (fun _ => Building P base j containers) E := by
  obtain ⟨key, item⟩ := member
  cases item with
  | bool value =>
      apply addCreated_building (fun _ => createBool_made m value) (Lasting.allocateNode m) _ hb
      rintro _ rfl node hnode
      cases hnode
  | number q =>
      apply addCreated_building (fun _ => createNumber_made m _) (Lasting.allocateNode m) _ hb
      rintro _ rfl node hnode
      cases hnode
  | string s => exact addStringToObject_building _ hb
  | null => exact Contract.pure fun _ h => h
  | array items => exact Contract.pure fun _ h => h
  | object members => exact Contract.pure fun _ h => h

theorem addMembers_building (members : List (Key × Json)) (hb : b ∈ containers) :
    Contract (Building P base j containers) (addMembers m b members)
      (fun _ => Building P base j containers) E := by
  induction members with
  | nil => exact Contract.pure fun _ h => h
  | cons member members ih => exact (addMember_building member hb).bind fun _ => ih

/-- What is behind the pointer is an item in memory that refers to nothing. -/
def Known (base : Heap) (item : Option ℕ) : Prop :=
  ∀ r, item = some r → ∃ under g, Keeps under g base ∧ (g.Refs fun _ => False) ∧ r ∈ g.nodes

theorem Known.alive {item : Option ℕ} (hitem : Known base item) : Alive base item := by
  intro r hr
  obtain ⟨under, g, hg, -, hmem⟩ := hitem r hr
  obtain ⟨name, body, cs, hhas⟩ := Forest.exists_has hmem
  exact ⟨_, (hhas.held hg.held).1.node, Body.node_stringIsConst name _ body⟩

theorem Known.shows {item : Option ℕ} (hitem : Known base item) {r : ℕ} {node : Node}
    (hr : item = some r) (hnode : base.nodes r = some node) : base.Shows node := by
  obtain ⟨under, g, hg, hplain, hmem⟩ := hitem r hr
  exact ⟨under, g, hg, hplain, r, hmem, hnode⟩

theorem addItemReferenceToObject_building {item : Option ℕ} (hitem : Known base item)
    (hb : b ∈ containers) :
    Contract (Building base.Shows base j containers) (addItemReferenceToObject m b s item)
      (fun _ => Building base.Shows base j containers) E := by
  apply Contract.of_exists
  intro f
  apply Contract.of_runs
  rintro h ⟨hf, hkeeps⟩
  obtain ⟨_, _, _, hhas, hcontainer⟩ := hf.containers b hb
  obtain ⟨added, t, hrun, hpost⟩ :=
    (addItemReferenceToObject_adds m (s := s) hitem.alive hhas hcontainer).runs hkeeps
  have hlater := hf.later ((Lasting.addItemReferenceToObject m).run hrun)
  refine ⟨added, t, hrun, ?_⟩
  rcases hpost with ⟨-, -, hkeeps'⟩ | ⟨a, r, node, hr, hnode, hpost⟩
  · exact ⟨f, hlater, hkeeps'⟩
  · have hrefs : ∀ {name : Option Name},
        (Forest.cons a name (.reference node) .nil .nil).Refs base.Shows := by
      intro name
      refine ⟨?_, trivial, trivial⟩
      rintro _ ⟨⟩
      exact hitem.shows hr hnode
    rcases hpost with ⟨-, hrefused, hkeeps'⟩ | ⟨-, k, hkeeps'⟩
    · obtain ⟨f', hf', -, hkeeps''⟩ := hlater.strand hrefused hrefs hkeeps'
      exact ⟨f', hf', hkeeps''⟩
    · exact ⟨_, hlater.attach b hrefs, hkeeps'⟩

/-- A new array or object, which has not been added yet. -/
theorem made_offered {Q : Body → Prop} (hQ : ∀ body, Q body → Body.IsContainer body)
    {create : HeapProgram (Option ℕ)} (hlast : Lasting create)
    (hcreate : ∀ f, Contract (Keeps base f) create (Made False base f Q) fun _ => False) :
    Contract (Building P base j containers) create (Offered P base j containers) E := by
  apply Contract.of_exists
  intro f
  apply Contract.of_runs
  rintro h ⟨hf, hkeeps⟩
  obtain ⟨item, t, hrun, hpost⟩ := (hcreate f).runs hkeeps
  have hlater := hf.later (hlast.run hrun)
  refine ⟨item, t, hrun, ?_⟩
  cases item with
  | none => exact ⟨hpost.1.resolve_left id, f, hlater, hpost.2⟩
  | some a =>
      obtain ⟨body, hbody, hkeeps'⟩ := hpost
      exact ⟨f, hlater, body, hQ body hbody, hkeeps'⟩

theorem addItemToObject_building (hb : b ∈ containers) :
    Contract (Beside P base j containers a) (addItemToObject m b s (some a))
      (fun _ => Building P base j (a :: containers)) E := by
  apply Contract.of_runs
  rintro h ⟨f, hf, body, hbody, hkeeps⟩
  obtain ⟨_, _, _, hhas, hcontainer⟩ := hf.containers b hb
  obtain ⟨added, t, hrun, hpost⟩ := (addItemToObject_adds m (s := s) hhas hcontainer).runs hkeeps
  have hlater := hf.later ((Lasting.addItemToObject m).run hrun)
  refine ⟨added, t, hrun, ?_⟩
  rcases hpost with ⟨-, hrefused, hkeeps'⟩ | ⟨-, _, hkeeps'⟩
  · obtain ⟨f', hf', ha, hkeeps''⟩ := hlater.strand hrefused hbody.refs hkeeps'
    refine ⟨f', ⟨hf'.shape, fun c hc => ?_, hf'.refs⟩, hkeeps''⟩
    rcases List.mem_cons.mp hc with rfl | hc
    · exact ha hbody
    · exact hf'.containers c hc
  · exact ⟨_, hlater.added ⟨_, _, _, hhas, hcontainer⟩ hbody, hkeeps'⟩

theorem addItemToArray_building (hb : b ∈ containers) :
    Contract (Beside P base j containers a) (addItemToArray b (some a))
      (fun _ => Building P base j (a :: containers)) E := by
  apply Contract.of_runs
  rintro h ⟨f, hf, body, hbody, hkeeps⟩
  obtain ⟨_, _, _, hhas, hcontainer⟩ := hf.containers b hb
  obtain ⟨added, t, hrun, -, hkeeps'⟩ := (addItemToArray_adds hhas hcontainer).runs hkeeps
  have hlater := hf.later (Lasting.addItemToArray.run hrun)
  exact ⟨added, t, hrun, _, hlater.added ⟨_, _, _, hhas, hcontainer⟩ hbody, hkeeps'⟩

theorem delete_building :
    Contract (Building P base j containers) (delete (some j)) (fun _ => Cleared base) E := by
  apply Contract.of_runs
  rintro h ⟨f, hf, hkeeps⟩
  obtain ⟨cs, g, rfl, hg⟩ := hf.shape
  obtain ⟨hrun, hkeeps'⟩ := delete_eq hkeeps
  exact ⟨(), _, hrun, g, hg, hkeeps'⟩

theorem createObject_building :
    Contract (fun h => h = base) (createObject m) (Begun P base) E := by
  apply Contract.of_runs
  rintro h rfl
  have hcreate : Contract (Keeps h .nil) (createObject m)
      (Made False h .nil (· = .object)) fun _ => False := createObject_made m
  obtain ⟨item, t, hrun, hpost⟩ := hcreate.runs keeps_nil
  refine ⟨item, t, hrun, ?_⟩
  cases item with
  | none => exact ⟨hpost.1.resolve_left id, hpost.2⟩
  | some j =>
      obtain ⟨_, rfl, hkeeps⟩ := hpost
      exact hkeeps.building

theorem Building.mono (hbuilding : Building P base j (a :: containers) h) :
    Building P base j containers h := by
  obtain ⟨f, hf, hkeeps⟩ := hbuilding
  exact ⟨f, ⟨hf.shape, fun c hc => hf.containers c (List.mem_cons_of_mem _ hc), hf.refs⟩, hkeeps⟩

/-! ## Texts -/

/-- The text beside the items is given back. -/
theorem freeText_building (hk : base.texts k = none) {α : Type} {q : CString → HeapProgram α}
    {Q : α → Heap → Prop}
    (hq : ∀ s, Contract (Building P base j containers) (q s) Q E) :
    Contract (fun h => ∃ s, Building P (base.setText k s) j containers h)
      (do
        let s ← readText k
        freeText k
        q s) Q E := by
  apply Contract.of_exists
  intro s
  apply Contract.of_ends
  rintro h ⟨f, hf, hkeeps⟩
  have hbuilding : Building P base j containers (h.release [] [k]) := ⟨f, hf, hkeeps.dropText hk⟩
  rw [bind_of (readText_eq hkeeps.textOf), bind_of (freeText_eq hkeeps.textOf)]
  exact (hq s).ends hbuilding

theorem print_building {format : Bool} :
    Contract (Building base.Shows base j containers) (print m format j)
      (fun r h => ∃ s, Written base (Building base.Shows · j containers) s r h)
      (Overlong format j) := by
  apply Contract.of_exists
  intro f
  apply Contract.of_ends
  rintro h ⟨hf, hkeeps⟩
  obtain ⟨cs, g, hshape, -⟩ := hf.shape
  have hhas : f.Has j none .object cs := hshape ▸ .inl ⟨rfl, rfl, rfl, rfl⟩
  rcases (print_written m format hf.refs hhas).ends hkeeps with ⟨r, t, hrun, s, hwritten⟩ | hlong
  · have hlater := hf.later ((Lasting.print m).run hrun)
    refine .inl ⟨r, t, hrun, s, ?_⟩
    cases r with
    | none => exact ⟨hwritten.1, f, hlater, hwritten.2⟩
    | some k => exact ⟨hwritten.1, f, hlater, hwritten.2⟩
  · exact .inr hlong

theorem showItem_keeps (hrefs : f.Refs base.Shows) (hj : f.Has j name body cs) :
    Contract (Keeps base f) (showItem m j) (fun _ => Keeps base f) (Overlong true j) := by
  apply (print_written m true hrefs hj).bind
  intro str
  cases str with
  | none => exact Contract.pure fun h ⟨_, hwritten⟩ => hwritten.2
  | some str =>
      apply Contract.of_runs
      rintro h ⟨s, hk, hkeeps⟩
      exact ⟨(), _, (bind_of (readText_eq hkeeps.textOf)).trans
        (bind_of (freeText_eq hkeeps.textOf)), hkeeps.dropText hk⟩

theorem showItem_building :
    Contract (Building base.Shows base j containers) (showItem m j)
      (fun _ => Building base.Shows base j containers) (Overlong true j) := by
  apply Contract.of_exists
  intro f
  apply Contract.of_ends
  rintro h ⟨hf, hkeeps⟩
  obtain ⟨cs, g, hshape, -⟩ := hf.shape
  have hhas : f.Has j none .object cs := hshape ▸ .inl ⟨rfl, rfl, rfl, rfl⟩
  rcases (showItem_keeps hf.refs hhas).ends hkeeps with ⟨r, t, hrun, hkeeps'⟩ | hlong
  · exact .inl ⟨r, t, hrun, f, hf.later ((Lasting.showItem m).run hrun), hkeeps'⟩
  · exact .inr hlong

theorem jsonWriteItem_building (written : Bool) :
    Contract (Building base.Shows base j containers) (jsonWriteItem m written j)
      (fun sent h => (sent = written ∨ h.refused = true) ∧
        Building base.Shows base j containers h) (Overlong false j) := by
  apply print_building.bind
  intro str
  cases str with
  | none => exact Contract.pure fun h ⟨_, hwritten⟩ => ⟨.inr hwritten.1, hwritten.2⟩
  | some str =>
      apply Contract.of_ends
      rintro h ⟨s, hk, hbuilding⟩
      have hreturn : ∀ s : CString, Contract (Building base.Shows base j containers)
          (pure written : HeapProgram Bool)
          (fun sent h => (sent = written ∨ h.refused = true) ∧
            Building base.Shows base j containers h)
          (Overlong false j) := fun _ => Contract.pure fun _ h => ⟨.inl rfl, h⟩
      exact (freeText_building hk hreturn).ends ⟨s, hbuilding⟩

theorem Keeps.writeText {s s' : CString} (hkeeps : Keeps (base.setText k s) f h)
    (hk : base.texts k = none) : Keeps (base.setText k s') f (h.setText k s') := by
  have hdropped := hkeeps.dropText hk
  have hfree : (h.release [] [k]).texts k = none := if_pos (List.mem_singleton_self k)
  have hset := hdropped.setText (s := s') hfree
  have htexts : Function.update (h.release [] [k]).texts k (some s') =
      Function.update h.texts k (some s') := by
    funext r
    by_cases hr : r = k <;> simp [Heap.release, hr]
  have hsame : (h.release [] [k]).setText k s' = h.setText k s' := by
    rw [Heap.setText, htexts]
    simp [Heap.release, Heap.setText]
  rwa [hsame] at hset

/-- The lines fit: what is in the memory and what is left to come make up its
size. -/
theorem appendLines_building (hk : base.texts k = none) (capacity : ℕ) (lines : List CString) :
    ∀ {s : CString}, s.length + (lines.map List.length).sum = capacity →
      Contract (Building P (base.setText k s) j containers)
        (appendLines (some k) capacity (lines.map List.length).sum lines)
        (fun _ h => ∃ s, Building P (base.setText k s) j containers h) E := by
  induction lines with
  | nil => exact fun {s} _ => Contract.pure fun h hbuilding => ⟨s, hbuilding⟩
  | cons line lines ih =>
      intro s hroom
      rw [List.map_cons, List.sum_cons] at hroom ⊢
      have hline : line.take (line.length + (lines.map List.length).sum) = line :=
        List.take_of_length_le (Nat.le_add_right _ _)
      have hfits : (s ++ line).length + (lines.map List.length).sum = capacity := by
        rw [List.length_append]
        omega
      apply Contract.of_ends
      rintro h ⟨f, hf, hkeeps⟩
      have hread := readText_eq hkeeps.textOf
      have hwrite : writeText k (fun s => s ++ line) h = (some (), h.setText k (s ++ line)) := by
        rw [writeText, hkeeps.textOf]
        rfl
      have hbuilding : Building P (base.setText k (s ++ line)) j containers
          (h.setText k (s ++ line)) := ⟨f, hf, hkeeps.writeText hk⟩
      rw [appendLines, bind_of hread, hline, if_neg (by omega), bind_of hwrite,
        Nat.add_sub_cancel_left]
      exact (ih hfits).ends hbuilding

/-- The memory for the text is not checked, so that the program runs on when
there is none. -/
theorem addOutputText_building (lines : List CString) (hb : b ∈ containers)
    (hE : lines ≠ [] → ∀ h, h.refused = true → E h) :
    Contract (Building P base j containers) (addOutputText m b lines)
      (fun _ => Building P base j containers) E := by
  apply Contract.bind (Q := Written base (Building P · j containers) [])
  · apply Contract.of_exists
    intro f
    apply Contract.of_runs
    rintro h ⟨hf, hkeeps⟩
    obtain ⟨r, t, hrun, hwritten⟩ := (allocateText_written m (s := [])).runs hkeeps
    have hlater := hf.later ((Lasting.strdup m (s := some [])).run hrun)
    refine ⟨r, t, hrun, ?_⟩
    cases r with
    | none => exact ⟨hwritten.1, f, hlater, hwritten.2⟩
    | some k => exact ⟨hwritten.1, f, hlater, hwritten.2⟩
  · intro output
    cases output with
    | none =>
        cases lines with
        | nil =>
            apply Contract.of_ends
            rintro h ⟨-, hbuilding⟩
            apply Contract.ends _ hbuilding
            apply (addStringToObject_building none hb).bind
            exact fun _ => Contract.pure fun _ h => h
        | cons line lines =>
            apply Contract.of_ends
            rintro h ⟨hrefused, -⟩
            exact .inr ⟨h, rfl, hE (List.cons_ne_nil _ _) h hrefused⟩
    | some k =>
        apply Contract.of_ends
        rintro h ⟨hk, hbuilding⟩
        apply Contract.ends _ hbuilding
        apply (appendLines_building hk _ lines (by simp)).bind
        intro _
        apply Contract.of_exists
        intro s
        apply Contract.of_ends
        rintro t ⟨f, hf, hkeeps⟩
        have hread : readPointer (some k) t = (some (some s), t) :=
          bind_of (readText_eq hkeeps.textOf)
        have hadded : Contract (Building P (base.setText k s) j containers)
            (addStringToObject m b Key.serverOutputText.cname (some s))
            (fun _ => Building P (base.setText k s) j containers) E :=
          addStringToObject_building _ hb
        have hfree : Contract (Building P (base.setText k s) j containers)
            (whenGiven (some k) freeText) (fun _ => Building P base j containers) E := by
          apply Contract.of_runs
          rintro t' ⟨f', hf', hkeeps'⟩
          exact ⟨(), _, freeText_eq hkeeps'.textOf, f', hf', hkeeps'.dropText hk⟩
        rw [bind_of hread]
        exact (hadded.bind fun _ => hfree).ends ⟨f, hf, hkeeps⟩

/-! ## Whole messages -/

/-- The server's output goes as a text, and it is not empty. -/
def SendsText (side : TestSide) : Prop :=
  (side.test.role = .server ∧ side.test.getServerOutput ≠ 0) ∧ side.jsonOutput = false ∧
    side.serverOutputList ≠ []

theorem addServerOutput_building {jsonTop : Option ℕ} (htop : Known base jsonTop)
    (side : TestSide) (hb : b ∈ containers)
    (hE : SendsText side → ∀ h, h.refused = true → E h) :
    Contract (Building base.Shows base j containers) (addServerOutput m b jsonTop side)
      (fun _ => Building base.Shows base j containers) E := by
  apply Contract.provided
  · intro hasked
    split_ifs with hjson
    · apply (addItemReferenceToObject_building htop hb).bind
      exact fun _ => Contract.pure fun _ h => h
    · apply addOutputText_building _ hb
      intro hlines
      exact hE ⟨hasked, by simpa using hjson, fun hnil => hlines (by rw [hnil]; rfl)⟩
  · exact fun _ _ h => h

theorem addStreamResults_building (t : Test) (streams : List Stream) :
    ∀ {containers : List ℕ}, b ∈ containers →
      Contract (Building P base j containers) (addStreamResults m t b streams)
        (fun made h => (made = true ∨ h.refused = true) ∧ Building P base j containers h) E := by
  induction streams with
  | nil => exact fun _ => Contract.pure fun _ h => ⟨.inl rfl, h⟩
  | cons sp streams ih =>
      intro containers hb
      have hmade : Contract (Building P base j containers) (createObject m)
          (Offered P base j containers) E :=
        made_offered (Q := (· = .object)) (fun body hbody => hbody ▸ trivial)
          (Lasting.allocateNode m) fun _ => createObject_made m
      apply hmade.bind
      intro item
      cases item with
      | none =>
          apply Contract.bind (Q := fun _ h => h.refused = true ∧ Building P base j containers h)
          · apply Contract.of_ends
            rintro h ⟨hrefused, hbuilding⟩
            rcases (ih hb).ends hbuilding with ⟨made, t', hrun, -, hbuilding'⟩ | hfails
            · have hlater := (Lasting.addStreamResults m t streams).run hrun hrefused
              exact .inl ⟨made, t', hrun, hlater, hbuilding'⟩
            · exact .inr hfails
          · exact fun _ => Contract.pure fun h hpost => ⟨.inr hpost.1, hpost.2⟩
      | some item =>
          apply (addItemToArray_building hb).bind
          intro _
          apply (addMembers_building _ List.mem_cons_self).bind
          intro _
          apply (ih (List.mem_cons_of_mem item hb)).weaken (fun _ h => h) _ fun _ h => h
          exact fun made h hpost => ⟨hpost.1, hpost.2.mono⟩

/-- The result and the memory after an event. -/
def EventOver (base : Heap) (r : ℤ) (h : Heap) : Prop :=
  (r = 0 ∧ Cleared base h) ∨ (r = -1 ∧ h.refused = true ∧ ∃ f, Keeps base f h)

theorem jsonStreamOutput_contract (eventName : CString) {obj : Option ℕ}
    (hobj : Known base obj) :
    Contract (fun h => h = base) (jsonStreamOutput m eventName obj) (EventOver base)
      (fun h => ∃ event, Overlong false event h) := by
  apply createObject_building.bind
  intro event
  cases event with
  | none =>
      apply Contract.pure
      rintro h ⟨hrefused, hkeeps⟩
      exact .inr ⟨rfl, hrefused, .nil, hkeeps⟩
  | some event =>
      have hmem : event ∈ [event] := List.mem_singleton_self event
      apply (addStringToObject_building _ hmem).bind
      intro _
      apply (addItemReferenceToObject_building hobj hmem).bind
      intro _
      apply Contract.bind (print_building.weaken (fun _ h => h) (fun _ _ h => h)
        fun h hlong => ⟨event, hlong⟩)
      intro str
      cases str with
      | none =>
          apply Contract.pure
          rintro h ⟨s, hrefused, f, -, hkeeps⟩
          exact .inr ⟨rfl, hrefused, f, hkeeps⟩
      | some str =>
          apply Contract.of_ends
          rintro h ⟨s, hk, hbuilding⟩
          have hdelete : ∀ s : CString, Contract (Building base.Shows base event [event])
              (do
                delete (some event)
                return (0 : ℤ)) (EventOver base) (fun h => ∃ event, Overlong false event h) :=
            fun _ => delete_building.bind fun _ => Contract.pure fun h hcleared =>
              .inl ⟨rfl, hcleared⟩
          exact (freeText_building hk hdelete).ends ⟨s, hbuilding⟩

/-- When `send_results` gives up: the pointer to the textual output is null, or
a text is too long for the sizes of the printer. -/
def ResultsFail (side : TestSide) (h : Heap) : Prop :=
  (SendsText side ∧ h.refused = true) ∨ ∃ format j, Overlong format j h

theorem sendResultItems_contract (debug written : Bool) {jsonTop : Option ℕ}
    (htop : Known base jsonTop) (side : TestSide) :
    Contract (fun h => h = base) (sendResultItems m debug written jsonTop side)
      (fun sent h => (sent = written ∨ h.refused = true) ∧ Cleared base h)
      (ResultsFail side) := by
  apply createObject_building.bind
  intro item
  cases item with
  | none => exact Contract.pure fun h hpost => ⟨.inr hpost.1, .nil, .inl rfl, hpost.2⟩
  | some item =>
      have hmem : item ∈ [item] := List.mem_singleton_self item
      have hlong : ∀ format h, Overlong format item h → ResultsFail side h :=
        fun format h hlong => .inr ⟨format, item, hlong⟩
      apply (addMembers_building _ hmem).bind
      intro _
      apply (addServerOutput_building htop side hmem fun htext h hrefused =>
        .inl ⟨htext, hrefused⟩).bind
      intro _
      have hmade : Contract (Building base.Shows base item [item]) (createArray m)
          (Offered base.Shows base item [item]) (ResultsFail side) :=
        made_offered (Q := (· = .array)) (fun body hbody => hbody ▸ trivial)
          (Lasting.allocateNode m) fun _ => createArray_made m
      apply hmade.bind
      intro streams
      apply Contract.bind (Q := fun made h =>
        (made = true ∨ h.refused = true) ∧ Building base.Shows base item [item] h)
      · cases streams with
        | none => exact Contract.pure fun h hpost => ⟨.inr hpost.1, hpost.2⟩
        | some streams =>
            apply (addItemToObject_building hmem).bind
            intro _
            apply (addStreamResults_building side.test side.streams List.mem_cons_self).weaken
              (fun _ h => h) _ fun _ h => h
            exact fun made h hpost => ⟨hpost.1, hpost.2.mono⟩
      · intro made
        apply Contract.bind (Q := fun _ h =>
          (made = true ∨ h.refused = true) ∧ Building base.Shows base item [item] h)
        · apply Contract.provided
          · rintro ⟨rfl, -⟩
            apply showItem_building.weaken (fun _ h => h.2) _ (hlong true)
            exact fun _ h hbuilding => ⟨.inl rfl, hbuilding⟩
          · exact fun _ _ h => h
        · intro _
          apply Contract.bind (Q := fun sent h =>
            (sent = written ∨ h.refused = true) ∧ Building base.Shows base item [item] h)
          · cases made with
            | true =>
                exact (jsonWriteItem_building written).weaken (fun _ h => h.2) (fun _ _ h => h)
                  (hlong false)
            | false =>
                apply Contract.pure
                exact fun h hpost => ⟨.inr (hpost.1.resolve_left (by decide)), hpost.2⟩
          · intro sent
            apply Contract.of_runs
            rintro h ⟨hsent, f, hf, hkeeps⟩
            obtain ⟨cs, g, rfl, hg⟩ := hf.shape
            obtain ⟨hdelete, hkeeps'⟩ := delete_eq hkeeps
            exact ⟨sent, _, bind_of hdelete, hsent, g, hg, hkeeps'⟩

end JsonHeap

end Iperf3
