import Iperf3.JsonDetach

/-!
# Messages that are received

A received message is looked into and deleted.  A member may be taken out of
it before, and copies of its texts are kept.
-/

namespace Iperf3

namespace JsonHeap

open Fallible LinkedList

variable {base base' h h' : Heap} {f g : Forest} {a b j k : ℕ} {name : Option Name} {body : Body}
  {cs ss : Forest} (m : Allocator)

/-! ## The function of the program -/

/-- What is kept of a message. -/
structure Kept where
  jsonServerOutput : Option ℕ
  serverOutputText : Option ℕ
  remoteCongestionUsed : Option ℕ
  deriving DecidableEq, Repr

/-- Members of the message that have to be numbers. -/
def cpuKeys : List Key :=
  [.cpuUtilTotal, .cpuUtilUser, .cpuUtilSystem, .senderHasRetransmits]

def streamKeys : List Key :=
  [.id, .bytes, .retransmits, .jitter, .errors, .omittedErrors, .packets, .omittedPackets,
    .startTime, .endTime]

def lookUp (object : ℕ) : List Key → HeapProgram (List (Option ℕ))
  | [] => pure []
  | key :: keys => do
      let item ← getObjectItemType object key.cname .number
      let items ← lookUp object keys
      return item :: items

/-- The loop over the stream array, with the elements that are left. -/
def readStreamItems (array : ℕ) : ℕ → ℕ → HeapProgram Unit
  | _, 0 => pure ()
  | index, count + 1 => do
      let stream ← getArrayItem array index
      whenGiven stream fun stream => do
        let _ ← lookUp stream streamKeys
        return ()
      readStreamItems array (index + 1) count

/-- `strdup` of the text of an item that has been found. -/
def copyText (item : Option ℕ) : HeapProgram (Option ℕ) :=
  match item with
  | none => pure none
  | some item => do
      let node ← readNode item
      match node.valuestring with
      | none => giveUp
      | some k => do
          let s ← readText k
          allocateText m s

def takeServerOutput (j : ℕ) : HeapProgram (Option ℕ × Option ℕ) := do
  let item ← detachItemFromObject j Key.serverOutputJson.cname
  match item with
  | some item => return (some item, none)
  | none => do
      let text ← getObjectItemType j Key.serverOutputText.cname .string
      let copy ← copyText m text
      return (none, copy)

def readStreamResults (t : Test) (j : ℕ) : HeapProgram (Option ℕ × Option ℕ) := do
  let streams ← getObjectItemType j Key.streams.cname .array
  match streams with
  | none => return (none, none)
  | some streams => do
      let count ← getArraySize streams
      readStreamItems streams 0 count
      if t.role = .client ∧ t.getServerOutput ≠ 0 then takeServerOutput m j
      else return (none, none)

/-- What is done with every message in the end. -/
def endResults (j : ℕ) (output : Option ℕ × Option ℕ) : HeapProgram Kept := do
  let congestion ← getObjectItemType j Key.congestionUsed.cname .string
  let remoteCongestionUsed ← copyText m congestion
  delete (some j)
  return ⟨output.1, output.2, remoteCongestionUsed⟩

/-- `get_results` behind the reading of the message, as a sequence of calls of
the library. -/
def getResultItems (debug : Bool) (t : Test) (j : ℕ) : HeapProgram Kept := do
  let numbers ← lookUp j cpuKeys
  let output ← (if numbers.all Option.isSome then do
      provided (debug = true) (showItem m j)
      readStreamResults m t j
    else pure (none, none))
  endResults m j output

/-! ## Items as the parser makes them -/

def Body.IsValue : Body → Prop
  | .unset => False
  | .reference _ => False
  | _ => True

def Body.kind (body : Body) : Kind :=
  (body.node none none).kind

theorem Body.node_kind (name : Option Name) (first : Option ℕ) (body : Body) :
    (body.node name first).kind = body.kind := by
  cases body <;> rfl

theorem Body.IsValue.isReference (hbody : body.IsValue) : body.isReference = false := by
  cases body with
  | reference node => exact hbody.elim
  | _ => rfl

namespace Forest

/-- Every item has a value of its own. -/
def Whole : Forest → Prop
  | .nil => True
  | .cons _ _ body cs ss => body.IsValue ∧ cs.Whole ∧ ss.Whole

theorem Whole.refs (hf : f.Whole) {P : Node → Prop} : f.Refs P := by
  induction f with
  | nil => trivial
  | cons a name body cs ss ihcs ihss =>
      refine ⟨?_, ihcs hf.2.1, ihss hf.2.2⟩
      rintro node rfl
      exact hf.1.elim

theorem whole_append : (f.append g).Whole ↔ f.Whole ∧ g.Whole := by
  induction f with
  | nil => simp [append, Whole]
  | cons a name body cs ss _ ih => simp [append, Whole, ih, and_assoc]

variable {bname : Option Name} {bbody : Body} {bs : Forest}

theorem Has.whole (hf : f.Whole) (hb : f.Has b bname bbody bs) : bbody.IsValue ∧ bs.Whole := by
  induction f with
  | nil => exact hb.elim
  | cons a name body cs ss ihcs ihss =>
      rcases hb with ⟨rfl, rfl, rfl, rfl⟩ | hb | hb
      · exact ⟨hf.1, hf.2.1⟩
      · exact ihcs hf.2.1 hb
      · exact ihss hf.2.2 hb

theorem Has.child (hb : f.Has b bname bbody bs) (ha : bs.Has a name body cs) :
    f.Has a name body cs := by
  induction f with
  | nil => exact hb.elim
  | cons r rname rbody ds ss ihds ihss =>
      rcases hb with ⟨rfl, rfl, rfl, rfl⟩ | hb | hb
      · exact .inr (.inl ha)
      · exact .inr (.inl (ihds hb))
      · exact .inr (.inr (ihss hb))

/-- The first item with this name, if it is of this type. -/
def typed (key : CString) (kind : Kind) : Forest → Option ℕ
  | .nil => none
  | .cons a name body _ ss =>
      if Named key name then (if body.kind = kind then some a else none) else ss.typed key kind

theorem typed_of_named_none {key : CString} {kind : Kind} (hf : f.named key = none) :
    f.typed key kind = none := by
  induction f with
  | nil => rfl
  | cons a name body cs ss _ ih =>
      rw [named] at hf
      split_ifs at hf with hnamed
      rw [typed, if_neg hnamed]
      exact ih hf

theorem typed_of_named {key : CString} (hf : f.named key = some a) :
    ∃ name body cs, f.Has a name body cs ∧
      ∀ kind, f.typed key kind = if body.kind = kind then some a else none := by
  induction f with
  | nil => cases hf
  | cons r rname rbody ds ss _ ih =>
      rw [named] at hf
      split_ifs at hf with hnamed
      · obtain rfl := Option.some.inj hf
        refine ⟨rname, rbody, ds, .inl ⟨rfl, rfl, rfl, rfl⟩, fun kind => ?_⟩
        rw [typed, if_pos hnamed]
      · obtain ⟨name, body, cs, ha, htyped⟩ := ih hf
        refine ⟨name, body, cs, .inr (.inr ha), fun kind => ?_⟩
        rw [typed, if_neg hnamed, htyped]

theorem has_of_typed {key : CString} {kind : Kind} (hf : f.typed key kind = some a) :
    ∃ name body cs, f.Has a name body cs ∧ body.kind = kind := by
  cases hnamed : f.named key with
  | none =>
      rw [typed_of_named_none hnamed] at hf
      cases hf
  | some r =>
      obtain ⟨name, body, cs, hr, htyped⟩ := typed_of_named hnamed
      rw [htyped] at hf
      split_ifs at hf with hkind
      exact ⟨name, body, cs, Option.some.inj hf ▸ hr, hkind⟩

end Forest

/-! ## Looking into a message -/

section Looking

variable {bname : Option Name} {bbody : Body} {bs : Forest}

theorem getObjectItemType_eq (key : CString) (kind : Kind) (hkeeps : Keeps base f h)
    (hb : f.Has b bname bbody bs) (hbody : bbody.isReference = false) :
    getObjectItemType b key kind h = (some (bs.typed key kind), h) := by
  have hget := getObjectItem_eq key hkeeps hb hbody
  rw [getObjectItemType, bind_of hget]
  cases hnamed : bs.named key with
  | none =>
      rw [Forest.typed_of_named_none hnamed]
      rfl
  | some a =>
      obtain ⟨name, body, cs, ha, htyped⟩ := Forest.typed_of_named hnamed
      have hitem := ((hb.child ha).held hkeeps.held).1
      refine (bind_of (readNode_eq hitem.node)).trans ?_
      rw [Body.node_kind, htyped]
      rfl

theorem lookUp_eq (keys : List Key) (hkeeps : Keeps base f h) (hb : f.Has b bname bbody bs)
    (hbody : bbody.isReference = false) :
    lookUp b keys h = (some (keys.map fun key => bs.typed key.cname .number), h) := by
  induction keys with
  | nil => rfl
  | cons key keys ih =>
      rw [lookUp, bind_of (getObjectItemType_eq _ _ hkeeps hb hbody), bind_of ih]
      rfl

theorem listSize_eq (l : List ℕ) (hl : ∀ a ∈ l, h.nodes a ≠ none) :
    ∀ {p : Option ℕ} {fuel : ℕ}, Chained h.links.next p l → l.length ≤ fuel →
      listSize fuel p h = (some l.length, h) := by
  induction l with
  | nil =>
      intro p fuel hp _
      obtain rfl : p = none := hp
      cases fuel <;> rfl
  | cons a l ih =>
      intro p fuel hp hfuel
      obtain ⟨rfl, hbehind⟩ := hp
      rw [List.length_cons] at hfuel
      obtain ⟨fuel, rfl⟩ : ∃ n, fuel = n + 1 := ⟨fuel - 1, by omega⟩
      obtain ⟨node, hnode⟩ := Option.ne_none_iff_exists'.mp (hl a List.mem_cons_self)
      rw [listSize, bind_of (readNext_eq hnode),
        bind_of (ih (fun r hr => hl r (List.mem_cons_of_mem _ hr)) hbehind (by omega))]
      rfl

theorem listItem_eq (l : List ℕ) (hl : ∀ a ∈ l, h.nodes a ≠ none) :
    ∀ {p : Option ℕ} (index : ℕ), Chained h.links.next p l →
      listItem index p h = (some l[index]?, h) := by
  induction l with
  | nil =>
      intro p index hp
      obtain rfl : p = none := hp
      cases index <;> rfl
  | cons a l ih =>
      intro p index hp
      obtain ⟨rfl, hbehind⟩ := hp
      cases index with
      | zero => rfl
      | succ index =>
          obtain ⟨node, hnode⟩ := Option.ne_none_iff_exists'.mp (hl a List.mem_cons_self)
          rw [listItem, bind_of (readNext_eq hnode)]
          exact ih (fun r hr => hl r (List.mem_cons_of_mem _ hr)) index hbehind

theorem readStreamItems_eq (hkeeps : Keeps base f h) (hwhole : f.Whole)
    (hb : f.Has b bname bbody bs) (count : ℕ) :
    ∀ index, readStreamItems b index count h = (some (), h) := by
  obtain ⟨hitem, hbs⟩ := hb.held hkeeps.held
  have hbody := (hb.whole hwhole).1.isReference
  induction count with
  | zero => exact fun _ => rfl
  | succ count ih =>
      intro index
      have hget : getArrayItem b index h = (some bs.roots[index]?, h) := by
        rw [getArrayItem, bind_of (readNode_eq hitem.node), Body.node_child bname _ hbody]
        apply listItem_eq bs.roots _ index hitem.ring.chained
        exact fun r hr => hbs.allocated (Forest.roots_subset hr)
      have hstream : whenGiven bs.roots[index]? (fun stream => do
          let _ ← lookUp stream streamKeys
          return ()) h = (some (), h) := by
        cases hindex : bs.roots[index]? with
        | none => rfl
        | some stream =>
            obtain ⟨sname, sbody, members, hs⟩ := Forest.exists_has
              (Forest.roots_subset (List.mem_of_getElem? hindex))
            have hstream := hb.child hs
            exact bind_of
              (lookUp_eq streamKeys hkeeps hstream (hstream.whole hwhole).1.isReference)
      rw [readStreamItems, bind_of hget, bind_of hstream]
      exact ih (index + 1)

theorem getArraySize_eq (hkeeps : Keeps base f h) (hb : f.Has b bname bbody bs)
    (hbody : bbody.isReference = false) :
    getArraySize b h = (some bs.roots.length, h) := by
  obtain ⟨hitem, hbs⟩ := hb.held hkeeps.held
  rw [getArraySize, bind_of (readNode_eq hitem.node), Body.node_child bname _ hbody]
  apply listSize_eq bs.roots _ hitem.ring.chained (hkeeps.length_le hb)
  exact fun r hr => hbs.allocated (Forest.roots_subset hr)

end Looking

/-! ## Copies of texts -/

/-- Memory with texts at these places besides. -/
def Copies : Heap → List ℕ → Heap → Prop
  | base, [], base' => base' = base
  | base, k :: ks, base' => base.texts k = none ∧ ∃ s, Copies (base.setText k s) ks base'

theorem Copies.append {ks ks' : List ℕ} {base'' : Heap} (hks : Copies base ks base')
    (hks' : Copies base' ks' base'') : Copies base (ks ++ ks') base'' := by
  induction ks generalizing base with
  | nil =>
      obtain rfl : base' = base := hks
      exact hks'
  | cons k ks ih =>
      obtain ⟨hk, s, hks⟩ := hks
      exact ⟨hk, s, ih hks⟩

variable {E : Heap → Prop} {m}

theorem Body.IsValue.string (hbody : body.IsValue) (hkind : body.kind = .string) :
    ∃ k s, body = .string k s := by
  cases body with
  | string k s => exact ⟨k, s, rfl⟩
  | unset => exact hbody.elim
  | reference node => exact hbody.elim
  | bool value => cases value <;> cases hkind
  | _ => cases hkind

theorem copyText_keeps {item : Option ℕ} (hwhole : f.Whole)
    (hitem : ∀ a, item = some a → ∃ name body cs, f.Has a name body cs ∧ body.kind = .string) :
    Contract (Keeps base f) (copyText m item)
      (fun copy h => ∃ base', Copies base copy.toList base' ∧ Keeps base' f h) E := by
  cases item with
  | none => exact Contract.pure fun h hkeeps => ⟨base, rfl, hkeeps⟩
  | some a =>
      obtain ⟨name, body, cs, ha, hkind⟩ := hitem a rfl
      obtain ⟨k, s, rfl⟩ := (ha.whole hwhole).1.string hkind
      apply Contract.of_runs
      intro h hkeeps
      obtain ⟨hheld, -⟩ := ha.held hkeeps.held
      have hread := readNode_eq hheld.node
      have htext : readText k h = (some s, h) := readText_eq hheld.body
      obtain ⟨copy, t, hrun, hwritten⟩ := (allocateText_written m (s := s)).runs hkeeps
      refine ⟨copy, t, (bind_of hread).trans ((bind_of htext).trans hrun), ?_⟩
      cases copy with
      | none => exact ⟨base, rfl, hwritten.2⟩
      | some r => exact ⟨base.setText r s, ⟨hwritten.1, s, rfl⟩, hwritten.2⟩

/-! ## The server's output -/

/-- The message with or without the member that has been taken out of it. -/
def Taken (base : Heap) (j : ℕ) (name : Option Name) (body : Body) (cs : Forest)
    (asked : Option ℕ) (out : Option ℕ × Option ℕ) (h : Heap) : Prop :=
  out.1 = asked ∧ ∃ base', Copies base out.2.toList base' ∧
    (out.1 = none ∧ Keeps base' (.cons j name body cs .nil) h ∨
      ∃ (xs ys : Forest) (a : ℕ) (outputName : Option Name) (output : Body) (ics : Forest),
        out.1 = some a ∧ cs = xs.append (.cons a outputName output ics ys) ∧
          Keeps base' (.cons a outputName output ics (.cons j name body (xs.append ys) .nil)) h)

theorem taken_none : Contract (Keeps base (.cons j name body cs .nil))
    (pure (none, none) : HeapProgram (Option ℕ × Option ℕ)) (Taken base j name body cs none) E :=
  Contract.pure fun _ hkeeps => ⟨rfl, base, rfl, .inl ⟨rfl, hkeeps⟩⟩

theorem takeServerOutput_taken (hwhole : (Forest.cons j name body cs .nil).Whole) :
    Contract (Keeps base (.cons j name body cs .nil)) (takeServerOutput m j)
      (Taken base j name body cs (cs.named Key.serverOutputJson.cname)) E := by
  have hj : (Forest.cons j name body cs .nil).Has j name body cs := .inl ⟨rfl, rfl, rfl, rfl⟩
  have hbody := hwhole.1.isReference
  apply Contract.of_ends
  intro h hkeeps
  obtain ⟨item, t, hdetach, hitem, hpost⟩ :=
    (detachItemFromObject_detaches Key.serverOutputJson.cname hj hbody).runs hkeeps
  rw [takeServerOutput, bind_of hdetach]
  rcases hpost with ⟨rfl, hkeeps'⟩ | ⟨xs, ys, a, oname, output, ics, rfl, hcs, hkeeps'⟩
  · apply Contract.ends _ hkeeps'
    apply Contract.reads fun h hkeeps => getObjectItemType_eq _ _ hkeeps hj hbody
    apply (copyText_keeps hwhole fun a ha => ?_).bind
    · exact fun copy => Contract.pure fun h ⟨base', hcopies, hkeeps⟩ =>
        ⟨hitem, base', hcopies, .inl ⟨rfl, hkeeps⟩⟩
    · obtain ⟨aname, abody, ics, ha, hkind⟩ := Forest.has_of_typed ha
      exact ⟨aname, abody, ics, hj.child ha, hkind⟩
  · have hrest : (Forest.cons j name body cs .nil).modify j (fun _ => xs.append ys) =
        .cons j name body (xs.append ys) .nil := if_pos rfl
    rw [hrest] at hkeeps'
    exact .inl ⟨(some a, none), t, rfl, hitem, base, rfl,
      .inr ⟨xs, ys, a, oname, output, ics, rfl, hcs, hkeeps'⟩⟩

theorem readStreamResults_taken (hwhole : (Forest.cons j name body cs .nil).Whole) (t : Test) :
    Contract (Keeps base (.cons j name body cs .nil)) (readStreamResults m t j)
      (Taken base j name body cs
        (if (cs.typed Key.streams.cname .array).isSome ∧ t.role = .client ∧
            t.getServerOutput ≠ 0 then cs.named Key.serverOutputJson.cname else none)) E := by
  have hj : (Forest.cons j name body cs .nil).Has j name body cs := .inl ⟨rfl, rfl, rfl, rfl⟩
  apply Contract.reads fun h hkeeps => getObjectItemType_eq _ _ hkeeps hj hwhole.1.isReference
  cases htyped : cs.typed Key.streams.cname .array with
  | none => exact taken_none
  | some streams =>
      obtain ⟨sname, sbody, elements, hs, -⟩ := Forest.has_of_typed htyped
      have hstreams := hj.child hs
      apply Contract.reads fun h hkeeps =>
        getArraySize_eq hkeeps hstreams (hstreams.whole hwhole).1.isReference
      apply Contract.reads fun h hkeeps => readStreamItems_eq hkeeps hwhole hstreams _ 0
      by_cases hasked : t.role = .client ∧ t.getServerOutput ≠ 0
      · rw [if_pos hasked, if_pos ⟨rfl, hasked⟩]
        exact takeServerOutput_taken hwhole
      · rw [if_neg hasked, if_neg fun h => hasked h.2]
        exact taken_none

/-- The member that `get_results` takes out of the message. -/
def serverOutputOf (t : Test) (cs : Forest) : Option ℕ :=
  if (∀ key ∈ cpuKeys, (cs.typed key.cname .number).isSome) ∧
      (cs.typed Key.streams.cname .array).isSome ∧ t.role = .client ∧ t.getServerOutput ≠ 0 then
    cs.named Key.serverOutputJson.cname
  else none

/-- The message is gone but for the member that has been taken out of it. -/
def Survives (base : Heap) (t : Test) (cs : Forest) (got : Kept) (h : Heap) : Prop :=
  got.jsonServerOutput = serverOutputOf t cs ∧
    ∃ base', Copies base (got.serverOutputText.toList ++ got.remoteCongestionUsed.toList) base' ∧
      (got.jsonServerOutput = none ∧ Keeps base' .nil h ∨
        ∃ (xs ys : Forest) (a : ℕ) (outputName : Option Name) (output : Body) (ics : Forest),
          got.jsonServerOutput = some a ∧ cs = xs.append (.cons a outputName output ics ys) ∧
            Keeps base' (.cons a outputName output ics .nil) h)

theorem endResults_keeps (hwhole : (Forest.cons j name body cs f).Whole)
    (output : Option ℕ × Option ℕ) :
    Contract (Keeps base (.cons j name body cs f)) (endResults m j output)
      (fun got h => got.jsonServerOutput = output.1 ∧ got.serverOutputText = output.2 ∧
        ∃ base', Copies base got.remoteCongestionUsed.toList base' ∧ Keeps base' f h) E := by
  have hj : (Forest.cons j name body cs f).Has j name body cs := .inl ⟨rfl, rfl, rfl, rfl⟩
  apply Contract.reads fun h hkeeps => getObjectItemType_eq _ _ hkeeps hj hwhole.1.isReference
  apply (copyText_keeps hwhole fun a ha => ?_).bind
  · intro copy
    apply Contract.of_runs
    rintro h ⟨base', hcopies, hkeeps⟩
    obtain ⟨hdelete, hkeeps'⟩ := delete_eq hkeeps
    exact ⟨⟨output.1, output.2, copy⟩, _, bind_of hdelete, rfl, rfl, base', hcopies, hkeeps'⟩
  · obtain ⟨aname, abody, ics, ha, hkind⟩ := Forest.has_of_typed ha
    exact ⟨aname, abody, ics, hj.child ha, hkind⟩

theorem getResultItems_survives (debug : Bool) (t : Test)
    (hwhole : (Forest.cons j name body cs .nil).Whole) :
    Contract (Keeps base (.cons j name body cs .nil)) (getResultItems m debug t j)
      (Survives base t cs) (fun h => debug = true ∧ Overlong true j h) := by
  have hj : (Forest.cons j name body cs .nil).Has j name body cs := .inl ⟨rfl, rfl, rfl, rfl⟩
  apply Contract.reads fun h hkeeps => lookUp_eq _ hkeeps hj hwhole.1.isReference
  apply Contract.bind (Q := Taken base j name body cs (serverOutputOf t cs))
  · by_cases hnumbers : ∀ key ∈ cpuKeys, (cs.typed key.cname .number).isSome
    · rw [if_pos (by simpa [List.all_eq_true] using hnumbers)]
      have houtput : (if (cs.typed Key.streams.cname .array).isSome ∧ t.role = .client ∧
          t.getServerOutput ≠ 0 then cs.named Key.serverOutputJson.cname else none) =
            serverOutputOf t cs := by
        rw [serverOutputOf]
        exact if_congr ⟨fun h => ⟨hnumbers, h⟩, fun h => h.2⟩ rfl rfl
      rw [← houtput]
      refine Contract.bind (Q := fun _ => Keeps base (.cons j name body cs .nil)) ?_ fun _ =>
        readStreamResults_taken hwhole t
      apply Contract.provided
      · intro hdebug
        exact (showItem_keeps hwhole.refs hj).weaken (fun _ h => h) (fun _ _ h => h)
          fun _ hlong => ⟨hdebug, hlong⟩
      · exact fun _ _ h => h
    · rw [if_neg (by simpa [List.all_eq_true] using hnumbers)]
      have houtput : serverOutputOf t cs = none := if_neg fun h => hnumbers h.1
      rw [houtput]
      exact taken_none
  · rintro ⟨output, text⟩
    apply Contract.of_ends
    rintro h ⟨houtput, base', hcopies, hpost⟩
    rcases hpost with ⟨hnone, hkeeps⟩ | ⟨xs, ys, a, oname, body', ics, hsome, rfl, hkeeps⟩
    · apply ((endResults_keeps hwhole (output, text)).weaken (fun _ h => h) _
        fun _ h => h).ends hkeeps
      rintro got h ⟨hgot, htext, base'', hcopies', hkeeps'⟩
      rw [Survives, hgot, htext]
      exact ⟨houtput, base'', hcopies.append hcopies', .inl ⟨hnone, hkeeps'⟩⟩
    · obtain ⟨hbody, hcs, -⟩ := hwhole
      obtain ⟨hxs, hoBody, hics, hys⟩ := Forest.whole_append.mp hcs
      have hrest : (Forest.cons j name body (xs.append ys) (.cons a oname body' ics .nil)).Whole :=
        ⟨hbody, Forest.whole_append.mpr ⟨hxs, hys⟩, hoBody, hics, trivial⟩
      apply ((endResults_keeps hrest (output, text)).weaken (fun _ h => h) _
        fun _ h => h).ends hkeeps.swap
      rintro got h ⟨hgot, htext, base'', hcopies', hkeeps'⟩
      rw [Survives, hgot, htext]
      exact ⟨houtput, base'', hcopies.append hcopies',
        .inr ⟨xs, ys, a, oname, body', ics, hsome, rfl, hkeeps'⟩⟩

end JsonHeap

end Iperf3
