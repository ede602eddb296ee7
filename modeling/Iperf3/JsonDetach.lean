import Iperf3.JsonBuilding

/-!
# Items taken out of an object

A member is found by its name, and it comes to stand alone.
-/

namespace Iperf3

namespace JsonHeap

open Fallible LinkedList

variable {base h h' : Heap} {f g : Forest} {a b k : ℕ} {name : Option Name} {body : Body}
  {cs ss : Forest}

/-! ## Looking up -/

def Named (key : CString) (name : Option Name) : Bool :=
  name.any fun name => Key.sameName key name.2

/-- The first item with this name among those that are nobody's children. -/
def Forest.named (key : CString) : Forest → Option ℕ
  | .nil => none
  | .cons a name _ _ ss => if Named key name then some a else ss.named key

theorem hasName_eq (key : CString) {node : Node} (hnode : node.string = name.map Prod.fst)
    (hname : NameHeld h name) : hasName key node h = (some (Named key name), h) := by
  cases name with
  | none =>
      rw [hasName, hnode]
      rfl
  | some name =>
      rw [hasName, hnode]
      exact bind_of (readText_eq hname)

theorem findName_eq (key : CString) (f : Forest) : ∀ {p : Option ℕ} {fuel : ℕ}, f.Held h →
    Chained h.links.next p f.roots → f.roots.length ≤ fuel →
    findName key fuel p h = (some (f.named key), h) := by
  induction f with
  | nil =>
      intro p fuel _ hp _
      rw [show p = none from hp]
      cases fuel <;> rfl
  | cons a name body cs ss _ ih =>
      intro p fuel hheld hp hfuel
      obtain ⟨hitem, -, hss⟩ := hheld
      obtain ⟨rfl, hbehind⟩ := hp
      rw [Forest.roots, List.length_cons] at hfuel
      obtain ⟨fuel, rfl⟩ : ∃ n, fuel = n + 1 := ⟨fuel - 1, by omega⟩
      have hread := readNode_eq hitem.node
      have hname := hasName_eq key (Body.node_string name cs.roots.head? body) hitem.name
      rw [findName, bind_of hread, bind_of hname, Forest.named]
      split_ifs
      · rfl
      · rw [bind_of (readNext_eq hitem.node)]
        exact ih hss hbehind (by omega)

theorem Forest.length_roots_le (f : Forest) : f.roots.length ≤ f.nodes.length := by
  induction f with
  | nil => exact le_rfl
  | cons a name body cs ss _ ih =>
      rw [Forest.roots, Forest.nodes, List.length_cons, List.length_cons, List.length_append]
      omega

theorem Keeps.length_le (hkeeps : Keeps base f h) {bname : Option Name} {bbody : Body}
    {bs : Forest} (hb : f.Has b bname bbody bs) : bs.roots.length ≤ h.size := by
  have hle := hb.length_le
  have hroots := bs.length_roots_le
  have hsize := hkeeps.size
  omega

section Object

variable {bname : Option Name} {bbody : Body} {bs xs ys : Forest}

theorem getObjectItem_eq (key : CString) (hkeeps : Keeps base f h)
    (hb : f.Has b bname bbody bs) (hbody : bbody.isReference = false) :
    getObjectItem b key h = (some (bs.named key), h) := by
  obtain ⟨hitem, hbs⟩ := Forest.Has.held hkeeps.held hb
  rw [getObjectItem, bind_of (readNode_eq hitem.node), Body.node_child bname _ hbody]
  exact findName_eq key bs hbs hitem.ring.chained (hkeeps.length_le hb)

theorem Forest.named_split {key : CString} (ha : f.named key = some a) :
    ∃ (xs : Forest) (name : Option Name) (body : Body) (cs ys : Forest),
      f = xs.append (.cons a name body cs ys) ∧ Named key name = true ∧ xs.named key = none := by
  induction f with
  | nil => cases ha
  | cons r name body cs ss _ ih =>
      rw [Forest.named] at ha
      split_ifs at ha with hnamed
      · obtain rfl := Option.some.inj ha
        exact ⟨.nil, name, body, cs, ss, rfl, hnamed, rfl⟩
      · obtain ⟨xs, name', body', cs', ys, rfl, hname', hxs⟩ := ih ha
        refine ⟨.cons r name body cs xs, name', body', cs', ys, rfl, hname', ?_⟩
        rw [Forest.named, if_neg hnamed]
        exact hxs

/-! ## Detaching -/

/-- Memory after the item at `a` has been taken out of the children of `b`, of
which `first` is the first one. -/
def Heap.detach (h : Heap) (b first a : ℕ) (node : Node) : Heap where
  nodes :=
    if first = a then
      Function.update h.nodes b (some { node with child := h.links.next a })
    else h.nodes
  links := ((h.links.takeOut first a).setPrev a none).setNext a none
  texts := h.texts
  size := h.size
  refused := h.refused

theorem detachItemViaPointer_eq {node : Node} {first p : ℕ} (hne : b ≠ a)
    (hb : h.nodes b = some node) (hchild : node.child = some first) (ha : h.nodes a ≠ none)
    (hp : h.links.prev a = some p) (hpNode : h.nodes p ≠ none)
    (hnext : ∀ r, h.links.next a = some r → h.nodes r ≠ none) (hfirst : h.nodes first ≠ none) :
    detachItemViaPointer b a h = (some a, h.detach b first a node) := by
  obtain ⟨item, ha⟩ := Option.ne_none_iff_exists'.mp ha
  obtain ⟨before, hpNode⟩ := Option.ne_none_iff_exists'.mp hpNode
  obtain ⟨front, hfirst⟩ := Option.ne_none_iff_exists'.mp hfirst
  have hstill : ∀ u, Function.update h.nodes b u a = some item := fun u =>
    (Function.update_of_ne hne.symm _ _).trans ha
  by_cases hfirstEq : first = a
  · subst hfirstEq
    cases hn : h.links.next first with
    | none =>
        simp [detachItemViaPointer, readNode, readNext, readPrev, writeNode, writePrev, writeNext,
          provided, whenGiven, Bind.bind, Pure.pure, hb, hchild, ha, hp, hn, hstill, Heap.detach,
          Links.takeOut, Links.setPrevOf]
    | some r =>
        obtain ⟨behind, hr⟩ := Option.ne_none_iff_exists'.mp (hnext r hn)
        simp [detachItemViaPointer, readNode, readNext, readPrev, writeNode, writePrev, writeNext,
          provided, whenGiven, Bind.bind, Pure.pure, hb, hchild, ha, hp, hn, hr, hstill,
          Heap.detach, Links.takeOut, Links.setPrevOf]
  · cases hn : h.links.next a with
    | none =>
        simp [detachItemViaPointer, readNode, readNext, readPrev, writePrev, writeNext,
          provided, whenGiven, Bind.bind, Pure.pure, hb, hchild, ha, hp, hn, hpNode, hfirst,
          hfirstEq, Heap.detach, Links.takeOut, Links.setPrevOf]
    | some r =>
        obtain ⟨behind, hr⟩ := Option.ne_none_iff_exists'.mp (hnext r hn)
        simp [detachItemViaPointer, readNode, readNext, readPrev, writePrev, writeNext,
          provided, whenGiven, Bind.bind, Pure.pure, hb, hchild, ha, hp, hn, hr, hpNode,
          hfirstEq, Heap.detach, Links.takeOut, Links.setPrevOf]

/-- The nodes around an item of a list are in the list. -/
theorem Ring.neighbours {links : Links ℕ} {l l' : List ℕ} (h : Ring links (l ++ a :: l')) :
    (∃ p ∈ l ++ a :: l', links.prev a = some p) ∧
      ∀ r, links.next a = some r → r ∈ l ++ a :: l' := by
  constructor
  · rcases List.eq_nil_or_concat' l with rfl | ⟨front, p, rfl⟩
    · obtain ⟨p, hp⟩ : ∃ p, (a :: l').getLast? = some p :=
        ⟨_, List.getLast?_eq_some_getLast (List.cons_ne_nil a l')⟩
      exact ⟨p, List.mem_of_getLast? hp, (h.prev_first rfl).trans hp⟩
    · refine ⟨p, by simp, ?_⟩
      rw [(Ring.around h).2 (by simp), List.getLast?_concat]
  · intro r hr
    rw [(Ring.around h).1] at hr
    exact List.mem_append_right _ (List.mem_cons_of_mem _ (List.mem_of_head? hr))

theorem Ring.takeOut_frame {links : Links ℕ} {l l' : List ℕ} {first r : ℕ}
    (h : Ring links (l ++ a :: l')) (hfirst : first ∈ l ++ a :: l') (hr : r ∉ l ++ a :: l') :
    (links.takeOut first a).next r = links.next r ∧
      (links.takeOut first a).prev r = links.prev r := by
  obtain ⟨⟨p, hpMem, hp⟩, hnext⟩ := Ring.neighbours h
  have hrp : r ≠ p := fun h => hr (h ▸ hpMem)
  have hrf : r ≠ first := fun h => hr (h ▸ hfirst)
  cases hn : links.next a with
  | none =>
      rw [Links.takeOut, hp, hn]
      split_ifs <;> simp [Links.setPrevOf, Links.setPrev, Links.setNext,
        Function.update_of_ne hrp, Function.update_of_ne hrf]
  | some c =>
      have hrc : r ≠ c := fun h => hr (h ▸ hnext c hn)
      rw [Links.takeOut, hp, hn]
      split_ifs <;> simp [Links.setPrevOf, Links.setPrev, Links.setNext,
        Function.update_of_ne hrp, Function.update_of_ne hrf, Function.update_of_ne hrc]

theorem Heap.detach_alone {node : Node} {first : ℕ} :
    (h.detach b first a node).links.next a = none :=
  Function.update_self ..

theorem Ring.detach_relinks {node : Node} {first : ℕ} {l l' : List ℕ}
    (hring : Ring h.links (l ++ a :: l')) (hfirst : first ∈ l ++ a :: l') :
    Relinks h (h.detach b first a node) b (l ++ a :: l') := by
  have hframe : ∀ r ∉ l ++ a :: l',
      (h.detach b first a node).links.next r = h.links.next r ∧
        (h.detach b first a node).links.prev r = h.links.prev r := by
    intro r hr
    have hra : r ≠ a := by
      rintro rfl
      simp at hr
    obtain ⟨hnextSame, hprevSame⟩ := Ring.takeOut_frame hring hfirst hr
    simp [Heap.detach, Links.setNext, Links.setPrev, Function.update_of_ne hra, hnextSame,
      hprevSame]
  refine ⟨fun r hr => ?_, rfl, rfl, fun r hr => (hframe r hr).1, fun r hr => (hframe r hr).2⟩
  rw [Heap.detach]
  split_ifs
  · exact Function.update_of_ne hr _ _
  · rfl

theorem Ring.detach_rest {node : Node} {first : ℕ} {l l' : List ℕ}
    (hring : Ring h.links (l ++ a :: l')) (hnodup : (l ++ a :: l').Nodup)
    (hfirst : (l ++ a :: l').head? = some first) :
    Ring (h.detach b first a node).links (l ++ l') := by
  have hout := hring.takeOut hnodup hfirst
  have haOut : ∀ r ∈ l ++ l', r ≠ a := by
    rintro r hr rfl
    exact (List.nodup_cons.mp (List.perm_middle.nodup_iff.mp hnodup)).1 hr
  apply hout.congr
  · exact fun r hr => Function.update_of_ne (haOut r hr) _ _
  · exact fun r hr => Function.update_of_ne (haOut r hr) _ _

/-- The object points to the first of the items that are left. -/
theorem Heap.detach_node {first : ℕ} {l l' : List ℕ} {bname : Option Name} {bbody : Body}
    (hcontainer : Body.IsContainer bbody) (hring : Ring h.links (l ++ a :: l'))
    (hnodup : (l ++ a :: l').Nodup) (hfirst : (l ++ a :: l').head? = some first)
    (hnode : h.nodes b = some (bbody.node bname (l ++ a :: l').head?)) :
    (h.detach b first a (bbody.node bname (l ++ a :: l').head?)).nodes b =
      some (bbody.node bname (l ++ l').head?) := by
  rw [Heap.detach]
  cases l with
  | nil =>
      obtain rfl : a = first := Option.some.inj hfirst
      rw [if_pos rfl]
      refine (Function.update_self ..).trans ?_
      rw [hcontainer.node_eq, (Ring.around hring).1]
      rfl
  | cons r rest =>
      obtain rfl : r = first := Option.some.inj hfirst
      have hra : r ≠ a := by
        rintro rfl
        simp at hnodup
      rw [if_neg hra]
      exact hnode

theorem detachItemViaPointer_detaches {ics : Forest}
    (hb : f.Has b bname bbody (xs.append (.cons a name body ics ys)))
    (hcontainer : Body.IsContainer bbody) :
    Contract (Keeps base f) (detachItemViaPointer b a)
      (fun item h => item = a ∧
        Keeps base (.cons a name body ics (f.modify b fun _ => xs.append ys)) h)
      fun _ => False := by
  apply Contract.of_runs
  intro h hkeeps
  obtain ⟨hitem, hbs⟩ := Forest.Has.held hkeeps.held hb
  have hnodup := hb.nodup hkeeps.nodup
  have hbNot := hb.notMem hkeeps.nodup
  have hroots : (xs.append (.cons a name body ics ys)).roots = xs.roots ++ a :: ys.roots :=
    Forest.roots_append _ _
  have hring := hitem.ring
  have hnodupRoots := Forest.nodup_roots hnodup
  rw [hroots] at hring hnodupRoots
  have hallocated : ∀ r ∈ xs.roots ++ a :: ys.roots, h.nodes r ≠ none := by
    intro r hr
    rw [← hroots] at hr
    exact hbs.allocated (Forest.roots_subset hr)
  obtain ⟨first, hfirst⟩ : ∃ first, (xs.roots ++ a :: ys.roots).head? = some first := by
    cases xs.roots with
    | nil => exact ⟨a, rfl⟩
    | cons r rest => exact ⟨r, rfl⟩
  have hfirstMem := List.mem_of_head? hfirst
  have haMem : a ∈ xs.roots ++ a :: ys.roots := by simp
  have hne : b ≠ a := by
    rintro rfl
    rw [← hroots] at haMem
    exact hbNot (Forest.roots_subset haMem)
  obtain ⟨⟨p, hpMem, hp⟩, hnext⟩ := Ring.neighbours hring
  have hchild := hcontainer.child bname (xs.append (.cons a name body ics ys)).roots.head?
  rw [hroots] at hchild
  have hnode := hitem.node
  rw [hroots] at hnode
  refine ⟨a, _, detachItemViaPointer_eq hne hnode (hchild.trans hfirst) (hallocated a haMem) hp
    (hallocated p hpMem) (fun r hr => hallocated r (hnext r hr)) (hallocated first hfirstMem),
    rfl, ?_⟩
  set h' := h.detach b first a (bbody.node bname (xs.roots ++ a :: ys.roots).head?)
  have hrelinks : Relinks h h' b
      ((xs.append (.cons a name body ics ys)).roots ++ Forest.nil.roots) := by
    rw [hroots, Forest.roots, List.append_nil]
    exact Ring.detach_relinks hring hfirstMem
  have hinner : ∀ r ∈ (xs.append (.cons a name body ics ys)).inner,
      r ∉ (xs.append (.cons a name body ics ys)).roots ++ Forest.nil.roots := by
    intro r hr
    rw [Forest.roots, List.append_nil]
    exact Forest.inner_notMem_roots hnodup hr
  have hheld := hrelinks.held hbs hbNot hinner
  obtain ⟨hxsHeld, hitemHeld, hicsHeld, hysHeld⟩ := Forest.held_append.mp hheld
  have hrestRing : Ring h'.links (xs.append ys).roots := by
    rw [Forest.roots_append]
    exact Ring.detach_rest hring hnodupRoots hfirst
  have hnodeAfter : h'.nodes b = some (bbody.node bname (xs.append ys).roots.head?) := by
    rw [Forest.roots_append]
    exact Heap.detach_node hcontainer hring hnodupRoots hfirst hnode
  have hall : Keeps base (Forest.nil.append f) h := hkeeps
  have hnone : (Forest.cons a name body ics .nil).Held h' := ⟨hitemHeld, hicsHeld, trivial⟩
  have hsingle : ∀ r ∈ (Forest.cons a name body ics .nil).roots, h'.links.next r = none := by
    intro r hr
    rw [List.mem_singleton.mp hr]
    exact Heap.detach_alone
  have hfinal : Keeps base
      ((Forest.cons a name body ics .nil).append (f.modify b fun _ => xs.append ys)) h' := by
    apply Keeps.relink hall hb hcontainer hrelinks hnodeAfter hrestRing hsingle
      (Forest.held_append.mpr ⟨hxsHeld, hysHeld⟩) hnone
    · simp only [Forest.nodes_append, Forest.nodes, List.append_nil, List.nil_append]
      rw [List.perm_iff_count]
      intro r
      simp only [List.count_append, List.count_cons]
      omega
    · simp only [Forest.texts_append, Forest.texts, List.append_nil, List.nil_append]
      rw [List.perm_iff_count]
      intro r
      simp only [List.count_append]
      omega
  exact hfinal

/-- The first member with this name has come to stand alone, or there is none
and nothing has happened. -/
theorem detachItemFromObject_detaches (key : CString) (hb : f.Has b bname bbody bs)
    (hbody : bbody.isReference = false) :
    Contract (Keeps base f) (detachItemFromObject b key)
      (fun item h => item = bs.named key ∧
        (item = none ∧ Keeps base f h ∨
          ∃ (xs ys : Forest) (a : ℕ) (name : Option Name) (body : Body) (ics : Forest),
            item = some a ∧ bs = xs.append (.cons a name body ics ys) ∧
              Keeps base (.cons a name body ics (f.modify b fun _ => xs.append ys)) h))
      fun _ => False := by
  apply Contract.of_runs
  intro h hkeeps
  have hget := getObjectItem_eq key hkeeps hb hbody
  cases hnamed : bs.named key with
  | none =>
      rw [hnamed] at hget
      exact ⟨none, h, bind_of hget, rfl, .inl ⟨rfl, hkeeps⟩⟩
  | some a =>
      rw [hnamed] at hget
      obtain ⟨xs, name, body, ics, ys, rfl, -, -⟩ := Forest.named_split hnamed
      have hcontainer : Body.IsContainer bbody :=
        (hb.held hkeeps.held).1.children.resolve_left (by cases xs <;> simp [Forest.append])
      obtain ⟨item, t, hrun, rfl, hkeeps'⟩ :=
        (detachItemViaPointer_detaches hb hcontainer).runs hkeeps
      exact ⟨some item, t, (bind_of hget).trans (bind_of hrun), rfl,
        .inr ⟨xs, ys, item, name, body, ics, rfl, rfl, hkeeps'⟩⟩

end Object

end JsonHeap

end Iperf3
