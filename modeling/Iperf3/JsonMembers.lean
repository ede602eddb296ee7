import Iperf3.JsonOwnership

/-!
# Items in lists and objects

An item that stands alone comes behind the children of an array or object, and
a child of an object comes to stand alone.  Nothing else in memory is changed,
but for the name that the item gets.
-/

namespace Iperf3

namespace JsonHeap

open Fallible LinkedList

variable {base h h' : Heap} {f g : Forest} {a b k : ℕ} {name : Option Name} {body : Body}
  {cs ss : Forest}

/-! ## Changing the children of an item -/

/-- The links of some items and the node above them have changed. -/
structure Relinks (h h' : Heap) (b : ℕ) (moved : List ℕ) : Prop where
  nodes : ∀ a ≠ b, h'.nodes a = h.nodes a
  texts : h'.texts = h.texts
  size : h'.size = h.size
  next : ∀ a ∉ moved, h'.links.next a = h.links.next a
  prev : ∀ a ∉ moved, h'.links.prev a = h.links.prev a

theorem Relinks.held {moved : List ℕ} (hrelinks : Relinks h h' b moved) (hf : f.Held h)
    (hb : b ∉ f.nodes) (hinner : ∀ a ∈ f.inner, a ∉ moved) : f.Held h' := by
  apply hf.congr
  · intro a ha
    apply hrelinks.nodes
    rintro rfl
    exact hb ha
  · exact fun k _ => congrFun hrelinks.texts k
  · exact fun a ha => hrelinks.next a (hinner a ha)
  · exact fun a ha => hrelinks.prev a (hinner a ha)

section Relink

variable {bname : Option Name} {bbody : Body} {bs bs' g' : Forest}

theorem Forest.nodes_modify_perm (hnodup : f.nodes.Nodup) (hb : f.Has b bname bbody bs)
    (hnodes : (g'.nodes ++ bs'.nodes).Perm (g.nodes ++ bs.nodes)) :
    (g'.append (f.modify b fun _ => bs')).nodes.Perm (g.append f).nodes := by
  rw [Forest.nodes_append, Forest.nodes_append, List.perm_iff_count]
  intro r
  have hmodify := Forest.count_nodes_modify (u := fun _ => bs') hnodup hb r
  have hmoved := hnodes.count_eq r
  rw [List.count_append, List.count_append] at hmoved ⊢
  omega

theorem Forest.texts_modify_perm (hnodup : f.nodes.Nodup) (hb : f.Has b bname bbody bs)
    (htexts : (g'.texts ++ bs'.texts).Perm (g.texts ++ bs.texts)) :
    (g'.append (f.modify b fun _ => bs')).texts.Perm (g.append f).texts := by
  rw [Forest.texts_append, Forest.texts_append, List.perm_iff_count]
  intro r
  have hmodify := Forest.count_texts_modify (u := fun _ => bs') hnodup hb r
  have hmoved := htexts.count_eq r
  rw [List.count_append, List.count_append] at hmoved ⊢
  omega

/-- Items move between the children of `b` and those that stand alone. -/
theorem Keeps.relink (hkeeps : Keeps base (g.append f) h) (hb : f.Has b bname bbody bs)
    (hcontainer : Body.IsContainer bbody) (hrelinks : Relinks h h' b (bs.roots ++ g.roots))
    (hnode : h'.nodes b = some (bbody.node bname bs'.roots.head?))
    (hring : Ring h'.links bs'.roots) (hsingle : ∀ a ∈ g'.roots, h'.links.next a = none)
    (hbs' : bs'.Held h') (hg' : g'.Held h')
    (hnodes : (g'.nodes ++ bs'.nodes).Perm (g.nodes ++ bs.nodes))
    (htexts : (g'.texts ++ bs'.texts).Perm (g.texts ++ bs.texts)) :
    Keeps base (g'.append (f.modify b fun _ => bs')) h' := by
  obtain ⟨-, hf⟩ := Forest.held_append.mp hkeeps.held
  have hall := hkeeps.nodup
  rw [Forest.nodes_append] at hall
  obtain ⟨-, hnodup, hapart⟩ := List.nodup_append.mp hall
  have hpermNodes := Forest.nodes_modify_perm hnodup hb hnodes
  have hpermTexts := Forest.texts_modify_perm hnodup hb htexts
  have hbNode : b ∈ (g.append f).nodes := by
    rw [Forest.nodes_append]
    exact List.mem_append_right _ hb.mem
  have hmoved : ∀ a, a ∉ (g.append f).nodes → a ∉ bs.roots ++ g.roots := by
    intro a ha hmem
    rw [Forest.nodes_append, List.mem_append, not_or] at ha
    rcases List.mem_append.mp hmem with hmem | hmem
    · exact ha.2 (hb.subset a (List.mem_cons_of_mem _ (Forest.roots_subset hmem)))
    · exact ha.1 (Forest.roots_subset hmem)
  have hgroot : ∀ a ∈ f.nodes, a ∉ g.roots := fun a ha hmem =>
    hapart a (Forest.roots_subset hmem) a ha rfl
  have hchanges : Forest.Changes h h' b bs f :=
    { nodes := fun a _ hne => hrelinks.nodes a hne
      texts := fun k _ => congrFun hrelinks.texts k
      next := fun a ha hroot => hrelinks.next a (by
        rw [List.mem_append, not_or]
        exact ⟨hroot, hgroot a ha⟩)
      prev := fun a ha hroot => hrelinks.prev a (by
        rw [List.mem_append, not_or]
        exact ⟨hroot, hgroot a ha⟩) }
  have hitem := (Forest.Has.held hf hb).1
  have hitem' : ItemHeld h' b bname bbody bs' :=
    { node := hnode
      name := Forest.nameHeld_congr hitem.name fun k _ => congrFun hrelinks.texts k
      children := .inr hcontainer
      body := Forest.bodyHeld_congr hitem.body fun k _ => congrFun hrelinks.texts k
      ring := hring }
  exact
    { held := Forest.held_append.mpr
        ⟨hg', Forest.Held.modify hf hnodup hb hchanges hitem' hbs'⟩
      single := fun a ha => by
        rw [Forest.roots_append, Forest.roots_modify, List.mem_append] at ha
        rcases ha with ha | ha
        · exact hsingle a ha
        · have hout : a ∉ bs.roots ++ g.roots := by
            rw [List.mem_append, not_or]
            exact ⟨fun hmem => hb.root_notMem hnodup ha (Forest.roots_subset hmem),
              hgroot a (Forest.roots_subset ha)⟩
          rw [hrelinks.next a hout]
          apply hkeeps.single
          rw [Forest.roots_append]
          exact List.mem_append_right _ ha
      nodup := hpermNodes.nodup_iff.mpr hkeeps.nodup
      nodupTexts := hpermTexts.nodup_iff.mpr hkeeps.nodupTexts
      nodes := fun a ha => by
        rw [hpermNodes.mem_iff] at ha
        rw [hrelinks.nodes a fun hab => ha (hab ▸ hbNode)]
        exact hkeeps.nodes a ha
      texts := fun k hk => by
        rw [hpermTexts.mem_iff] at hk
        rw [hrelinks.texts]
        exact hkeeps.texts k hk
      fresh := fun a ha => hkeeps.fresh a (hpermNodes.mem_iff.mp ha)
      freshTexts := fun k hk => hkeeps.freshTexts k (hpermTexts.mem_iff.mp hk)
      next := fun a ha => by
        rw [hrelinks.next a (hmoved a fun hmem => ha (hkeeps.fresh a hmem))]
        exact hkeeps.next a ha
      prev := fun a ha => by
        rw [hrelinks.prev a (hmoved a fun hmem => ha (hkeeps.fresh a hmem))]
        exact hkeeps.prev a ha
      size := by rw [hrelinks.size, hkeeps.size, hpermNodes.length_eq] }

end Relink

/-! ## Adding an item -/

section Add

variable {bname : Option Name} {bbody : Body} {bs : Forest}

theorem Body.IsContainer.node_eq (hbody : Body.IsContainer bbody) (bname : Option Name)
    (first first' : Option ℕ) :
    { bbody.node bname first with child := first' } = bbody.node bname first' := by
  cases bbody with
  | array => rfl
  | object => rfl
  | _ => exact hbody.elim

theorem Body.IsContainer.child (hbody : Body.IsContainer bbody) (bname : Option Name)
    (first : Option ℕ) : (bbody.node bname first).child = first := by
  cases bbody with
  | array => rfl
  | object => rfl
  | _ => exact hbody.elim

theorem Forest.inner_notMem_roots (hnodup : f.nodes.Nodup) (ha : a ∈ f.inner) : a ∉ f.roots := by
  induction f with
  | nil => cases ha
  | cons r name body cs ss _ ih =>
      obtain ⟨hrcs, hrss, -, hss, hapart⟩ := Forest.nodup_cons hnodup
      intro hmem
      rcases List.mem_append.mp ha with hchild | hinner
      · rcases List.mem_cons.mp hmem with rfl | hroot
        · exact hrcs hchild
        · exact hapart a hchild (Forest.roots_subset hroot)
      · rcases List.mem_cons.mp hmem with rfl | hroot
        · exact hrss (Forest.inner_subset hinner)
        · exact ih hss hinner hroot

theorem Forest.Has.notMem (hb : f.Has b bname bbody bs) (hnodup : f.nodes.Nodup) :
    b ∉ bs.nodes := by
  induction f with
  | nil => exact hb.elim
  | cons a name body cs ss ihcs ihss =>
      obtain ⟨hacs, -, hcs, hss, -⟩ := Forest.nodup_cons hnodup
      rcases hb with ⟨rfl, rfl, rfl, rfl⟩ | hb | hb
      · exact hacs
      · exact ihcs hb hcs
      · exact ihss hb hss

theorem Forest.Has.nodup (hb : f.Has b bname bbody bs) (hnodup : f.nodes.Nodup) :
    bs.nodes.Nodup := by
  induction f with
  | nil => exact hb.elim
  | cons a name body cs ss ihcs ihss =>
      obtain ⟨-, -, hcs, hss, -⟩ := Forest.nodup_cons hnodup
      rcases hb with ⟨rfl, rfl, rfl, rfl⟩ | hb | hb
      · exact hcs
      · exact ihcs hb hcs
      · exact ihss hb hss

/-- The item has come behind the children of `b`. -/
theorem Keeps.attach (hkeeps : Keeps base (.cons a name body cs f) h)
    (hb : f.Has b bname bbody bs) (hcontainer : Body.IsContainer bbody)
    (hrelinks : Relinks h h' b (bs.roots ++ [a]))
    (hnode : h'.nodes b = some (bbody.node bname (bs.roots ++ [a]).head?))
    (hring : Ring h'.links (bs.roots ++ [a])) :
    Keeps base (f.modify b fun bs => bs.append (.cons a name body cs .nil)) h' := by
  have hall : Keeps base ((Forest.cons a name body cs .nil).append f) h := hkeeps
  obtain ⟨hitem, hcs, hf⟩ := hkeeps.held
  obtain ⟨hacs, haf, -, hnodup, hapart⟩ := Forest.nodup_cons hkeeps.nodup
  have hbsHeld := (Forest.Has.held hf hb).2
  have hroots : ∀ r ∈ bs.roots, r ∈ f.nodes := fun r hr =>
    hb.subset r (List.mem_cons_of_mem _ (Forest.roots_subset hr))
  have hbs' : bs.Held h' := by
    apply hrelinks.held hbsHeld (hb.notMem hnodup)
    intro r hr
    rw [List.mem_append, List.mem_singleton, not_or]
    refine ⟨Forest.inner_notMem_roots (hb.nodup hnodup) hr, ?_⟩
    rintro rfl
    exact haf (hb.subset r (List.mem_cons_of_mem _ (Forest.inner_subset hr)))
  have hg' : (Forest.cons a name body cs .nil).Held h' := by
    have hold : (Forest.cons a name body cs .nil).Held h := ⟨hitem, hcs, trivial⟩
    apply hrelinks.held hold
    · rw [Forest.nodes, Forest.nodes, List.append_nil, List.mem_cons, not_or]
      refine ⟨?_, fun hmem => hapart b hmem hb.mem⟩
      rintro rfl
      exact haf hb.mem
    · intro r hr
      rw [Forest.inner, Forest.inner, List.append_nil] at hr
      rw [List.mem_append, List.mem_singleton, not_or]
      refine ⟨fun hmem => hapart r hr (hroots r hmem), ?_⟩
      rintro rfl
      exact hacs hr
  have hsame : f.modify b (fun bs => bs.append (.cons a name body cs .nil)) =
      f.modify b fun _ => bs.append (.cons a name body cs .nil) :=
    Forest.modify_congr hnodup hb _
  rw [hsame]
  have hrootsEq : (bs.append (.cons a name body cs .nil)).roots = bs.roots ++ [a] :=
    Forest.roots_append _ _
  have hnone : Forest.nil.Held h' := trivial
  apply Keeps.relink hall hb hcontainer hrelinks _ _ _ (Forest.held_append.mpr ⟨hbs', hg'⟩) hnone
  · rw [Forest.nodes_append, Forest.nodes, List.nil_append]
    exact List.perm_append_comm
  · rw [Forest.texts_append, Forest.texts, List.nil_append]
    exact List.perm_append_comm
  · rw [hrootsEq]
    exact hnode
  · rw [hrootsEq]
    exact hring
  · exact fun r hr => by cases hr

end Add

section AddContracts

variable {bname : Option Name} {bbody : Body} {bs : Forest} (m : Allocator)

theorem addItemToArray_first {node : Node} (hne : b ≠ a) (hb : h.nodes b = some node)
    (hchild : node.child = none) (ha : h.nodes a ≠ none) :
    addItemToArray b (some a) h = (some true,
      { h with
        nodes := Function.update h.nodes b (some { node with child := some a })
        links := (h.links.setPrev a (some a)).setNext a none }) := by
  obtain ⟨item, ha⟩ := Option.ne_none_iff_exists'.mp ha
  have hstill : Function.update h.nodes b (some { node with child := some a }) a = some item := by
    rw [Function.update_of_ne hne.symm, ha]
  simp [addItemToArray, hne, readNode, writeNode, writePrev, writeNext, Bind.bind, hb, hchild,
    hstill]
  rfl

theorem addItemToArray_behind {node last item : Node} {first end' : ℕ} (hne : b ≠ a)
    (hb : h.nodes b = some node) (hchild : node.child = some first)
    (hfirst : h.nodes first = some item) (hprev : h.links.prev first = some end')
    (hlast : h.nodes end' = some last) (ha : h.nodes a ≠ none) :
    addItemToArray b (some a) h =
      (some true, { h with links := h.links.pushBack first end' a }) := by
  obtain ⟨added, ha⟩ := Option.ne_none_iff_exists'.mp ha
  simp [addItemToArray, hne, readNode, readPrev, writePrev, writeNext, suffixObject, whenGiven,
    Bind.bind, hb, hchild, hfirst, hprev, hlast, ha, LinkedList.Links.pushBack]
  rfl

theorem relinks_single {node : Node} :
    Relinks h { h with
      nodes := Function.update h.nodes b (some node)
      links := (h.links.setPrev a (some a)).setNext a none } b [a] where
  nodes r hr := Function.update_of_ne hr _ _
  texts := rfl
  size := rfl
  next r hr := Function.update_of_ne (by simpa using hr) _ _
  prev r hr := Function.update_of_ne (by simpa using hr) _ _

theorem relinks_pushBack {l : List ℕ} {first last : ℕ} (hfirst : first ∈ l) (hlast : last ∈ l) :
    Relinks h { h with links := h.links.pushBack first last a } b (l ++ [a]) := by
  refine ⟨fun _ _ => rfl, rfl, rfl, fun r hr => ?_, fun r hr => ?_⟩
  · rw [List.mem_append, List.mem_singleton, not_or] at hr
    have hrl : r ≠ last := fun h => hr.1 (h ▸ hlast)
    simp [LinkedList.Links.pushBack, LinkedList.Links.setNext, LinkedList.Links.setPrev,
      Function.update_of_ne hrl]
  · rw [List.mem_append, List.mem_singleton, not_or] at hr
    have hrf : r ≠ first := fun h => hr.1 (h ▸ hfirst)
    simp [LinkedList.Links.pushBack, LinkedList.Links.setNext, LinkedList.Links.setPrev,
      Function.update_of_ne hrf, Function.update_of_ne hr.2]

/-- The item comes behind those that the array or object has. -/
theorem addItemToArray_adds (hb : f.Has b bname bbody bs) (hcontainer : Body.IsContainer bbody) :
    Contract (Keeps base (.cons a name body cs f)) (addItemToArray b (some a))
      (fun added h => added = true ∧
        Keeps base (f.modify b fun bs => bs.append (.cons a name body cs .nil)) h)
      fun _ => False := by
  apply Contract.of_runs
  intro h hkeeps
  obtain ⟨hitem, -, hf⟩ := hkeeps.held
  obtain ⟨-, haf, -, hnodup, -⟩ := Forest.nodup_cons hkeeps.nodup
  obtain ⟨habove, hbs⟩ := Forest.Has.held hf hb
  have hne : b ≠ a := by
    rintro rfl
    exact haf hb.mem
  have hchild := hcontainer.child bname bs.roots.head?
  have hallocated : h.nodes a ≠ none := by simp [hitem.node]
  have hnext : h.links.next a = none := hkeeps.single a List.mem_cons_self
  have hnodupRoots : (bs.roots ++ [a]).Nodup := by
    apply List.nodup_append.mpr
    refine ⟨Forest.nodup_roots (hb.nodup hnodup), List.nodup_singleton a, ?_⟩
    intro r hr s hs
    rw [List.mem_singleton.mp hs]
    rintro rfl
    exact haf (hb.subset r (List.mem_cons_of_mem _ (Forest.roots_subset hr)))
  cases hfirst : bs.roots.head? with
  | none =>
      have hnil : bs.roots = [] := List.head?_eq_none_iff.mp hfirst
      refine ⟨true, _, addItemToArray_first hne habove.node (hchild.trans hfirst) hallocated,
        rfl, ?_⟩
      apply hkeeps.attach hb hcontainer
      · rw [hnil]
        exact relinks_single
      · rw [hnil]
        exact (Function.update_self ..).trans (congrArg some (hcontainer.node_eq bname _ _))
      · rw [hnil]
        exact ring_single h.links a
  | some first =>
      have hring := habove.ring
      have hprev := hring.prev_first hfirst
      obtain ⟨last, hlast⟩ : ∃ last, bs.roots.getLast? = some last := by
        cases hroots : bs.roots with
        | nil => simp [hroots] at hfirst
        | cons r rest => exact ⟨_, List.getLast?_eq_some_getLast (List.cons_ne_nil r rest)⟩
      obtain ⟨item, hitemFirst⟩ := Option.ne_none_iff_exists'.mp
        (hbs.allocated (Forest.roots_subset (List.mem_of_head? hfirst)))
      obtain ⟨item', hitemLast⟩ := Option.ne_none_iff_exists'.mp
        (hbs.allocated (Forest.roots_subset (List.mem_of_getLast? hlast)))
      refine ⟨true, _, addItemToArray_behind hne habove.node (hchild.trans hfirst) hitemFirst
        (hprev.trans hlast) hitemLast hallocated, rfl, ?_⟩
      apply hkeeps.attach hb hcontainer
      · exact relinks_pushBack (List.mem_of_head? hfirst) (List.mem_of_getLast? hlast)
      · rw [List.head?_append, hfirst]
        exact habove.node.trans (by rw [hfirst]; rfl)
      · exact hring.push_back hnodupRoots hfirst hlast hnext

end AddContracts

/-! ## Members of objects -/

section Members

variable {bname : Option Name} {bbody : Body} {bs : Forest} {s : CString} (m : Allocator)

theorem Body.node_rename (name : Option Name) (first : Option ℕ) (body : Body) (k : ℕ)
    (s : CString) : { body.node name first with string := some k, stringIsConst := false } =
      body.node (some (k, s)) first := by
  cases body <;> rfl

/-- The item has got a new name, and its old one is free. -/
def Heap.rename (h : Heap) (a : ℕ) (node : Node) (old : List ℕ) (k : ℕ) (s : CString) : Heap where
  nodes := Function.update h.nodes a (some node)
  links := h.links
  texts r := if r ∈ old then none else Function.update h.texts k (some s) r
  size := h.size
  refused := h.refused

/-- An item that stands alone has got another name or value. -/
theorem Keeps.reform {name' : Option Name} {body' : Body}
    (hkeeps : Keeps base (.cons a name body cs f) h)
    (hnodes : ∀ r ≠ a, h'.nodes r = h.nodes r)
    (hnode : h'.nodes a = some (body'.node name' cs.roots.head?)) (hlinks : h'.links = h.links)
    (hsize : h'.size = h.size) (hkept : ∀ r ∈ cs.texts ++ f.texts, h'.texts r = h.texts r)
    (hname : NameHeld h' name') (hbody : BodyHeld h' body')
    (hchildren : cs = .nil ∨ Body.IsContainer body')
    (hnodup : (Forest.cons a name' body' cs f).texts.Nodup)
    (hfresh : ∀ r ∈ (Forest.cons a name' body' cs f).texts, base.texts r = none)
    (hout : ∀ r ∉ (Forest.cons a name' body' cs f).texts, h'.texts r = base.texts r) :
    Keeps base (.cons a name' body' cs f) h' := by
  obtain ⟨hitem, hcs, hf⟩ := hkeeps.held
  obtain ⟨hacs, haf, -, -, -⟩ := Forest.nodup_cons hkeeps.nodup
  have hring : Ring h'.links cs.roots := by
    rw [hlinks]
    exact hitem.ring
  have hne : ∀ g : Forest, a ∉ g.nodes → ∀ r ∈ g.nodes, h'.nodes r = h.nodes r := by
    intro g hg r hr
    apply hnodes
    rintro rfl
    exact hg hr
  have hsame : ∀ g : Forest, a ∉ g.nodes → (∀ r ∈ g.texts, r ∈ cs.texts ++ f.texts) →
      g.Held h → g.Held h' := by
    intro g hg htexts hheld
    apply hheld.congr
    · exact hne g hg
    · exact fun r hr => hkept r (htexts r hr)
    · exact fun r _ => by rw [hlinks]
    · exact fun r _ => by rw [hlinks]
  exact
    { held := ⟨⟨hnode, hname, hchildren, hbody, hring⟩,
        hsame cs hacs (fun r hr => List.mem_append_left _ hr) hcs,
        hsame f haf (fun r hr => List.mem_append_right _ hr) hf⟩
      single := fun r hr => by
        rw [hlinks]
        exact hkeeps.single r hr
      nodup := hkeeps.nodup
      nodupTexts := hnodup
      nodes := fun r hr => by
        rw [hnodes r fun h => hr (h ▸ List.mem_cons_self)]
        exact hkeeps.nodes r hr
      texts := hout
      fresh := hkeeps.fresh
      freshTexts := hfresh
      next := fun r hr => by
        rw [hlinks]
        exact hkeeps.next r hr
      prev := fun r hr => by
        rw [hlinks]
        exact hkeeps.prev r hr
      size := hsize.trans hkeeps.size }

theorem Keeps.freshText (hkeeps : Keeps base f h) (hk : h.texts k = none) : base.texts k = none :=
  (hkeeps.texts k (hkeeps.notMem_texts hk)).symm.trans hk

theorem Keeps.rename (hkeeps : Keeps base (.cons a name body cs f) h) (hk : h.texts k = none) :
    Keeps base (.cons a (some (k, s)) body cs f)
      (h.rename a (body.node (some (k, s)) cs.roots.head?) (nameTexts name) k s) := by
  have hnot := hkeeps.notMem_texts hk
  obtain ⟨hitem, -, -⟩ := hkeeps.held
  obtain ⟨-, hrest, hapart⟩ := List.nodup_append.mp hkeeps.nodupTexts
  rw [Forest.texts, List.mem_append, not_or] at hnot
  have hsame : ∀ r ∈ body.texts ++ (cs.texts ++ f.texts),
      (h.rename a (body.node (some (k, s)) cs.roots.head?) (nameTexts name) k s).texts r =
        h.texts r := by
    intro r hr
    have hne : r ≠ k := by
      rintro rfl
      exact hnot.2 hr
    exact (if_neg fun hmem => hapart r hmem r hr rfl).trans (Function.update_of_ne hne _ _)
  apply hkeeps.reform
  · exact fun r hr => Function.update_of_ne hr _ _
  · exact Function.update_self ..
  · rfl
  · rfl
  · exact fun r hr => hsame r (List.mem_append_right _ hr)
  · exact (if_neg hnot.1).trans (Function.update_self ..)
  · exact Forest.bodyHeld_congr hitem.body fun r hr => hsame r (List.mem_append_left _ hr)
  · exact hitem.children
  · exact List.nodup_cons.mpr ⟨hnot.2, hrest⟩
  · intro r hr
    rcases List.mem_cons.mp hr with rfl | hr
    · exact hkeeps.freshText hk
    · exact hkeeps.freshTexts r (List.mem_append_right _ hr)
  · intro r hr
    obtain ⟨hne, hmem⟩ : r ≠ k ∧ r ∉ body.texts ++ (cs.texts ++ f.texts) :=
      not_or.mp fun h => hr (List.mem_cons.mpr h)
    by_cases hold : r ∈ nameTexts name
    · rw [hkeeps.freshTexts r (List.mem_append_left _ hold)]
      exact if_pos hold
    · have hout : r ∉ (Forest.cons a name body cs f).texts := fun h =>
        (List.mem_append.mp h).elim hold hmem
      exact (if_neg hold).trans
        ((Function.update_of_ne hne _ _).trans (hkeeps.texts r hout))

theorem addItemToObject_named (hkeeps : Keeps base (.cons a name body cs f) h) (hne : b ≠ a)
    (hk : m.text h = some k) :
    addItemToObject m b s (some a) h = addItemToArray b (some a)
      (h.rename a (body.node (some (k, s)) cs.roots.head?) (nameTexts name) k s) := by
  obtain ⟨hitem, -, -⟩ := hkeeps.held
  have hnot := hkeeps.notMem_texts (m.text_free h k hk)
  rw [Forest.texts, List.mem_append, not_or] at hnot
  have hname : NameHeld (h.setText k s) name := by
    apply Forest.nameHeld_congr hitem.name
    intro r hr
    apply Function.update_of_ne
    rintro rfl
    exact hnot.1 hr
  have hdup : strdup m (some s) h = (some (some k), h.setText k s) := by
    rw [strdup, allocateText, hk]
  have hread : readNode a (h.setText k s) =
      (some (body.node name cs.roots.head?), h.setText k s) := by
    rw [readNode, Heap.setText, hitem.node]
  have hfree : provided ((body.node name cs.roots.head?).stringIsConst = false)
      (whenGiven (body.node name cs.roots.head?).string freeText) (h.setText k s) =
        (some (), (h.setText k s).release [] (nameTexts name)) := by
    rw [Body.node_string]
    exact provided_of (Body.node_stringIsConst name _ body) (freeName_eq hname)
  have hwrite : writeNode a (fun node => { node with string := some k, stringIsConst := false })
      ((h.setText k s).release [] (nameTexts name)) =
        (some (), h.rename a (body.node (some (k, s)) cs.roots.head?) (nameTexts name) k s) := by
    simp only [writeNode, Heap.release, Heap.setText, hitem.node, Heap.rename, List.not_mem_nil,
      if_false, List.length_nil, Nat.sub_zero]
    rw [Body.node_rename]
  rw [addItemToObject, if_neg hne, bind_of hdup]
  exact (bind_of hread).trans ((bind_of hfree).trans (bind_of hwrite))

/-- The item has come behind the members that the object has, under this name;
or there was no memory for the name, and nothing has happened. -/
theorem addItemToObject_adds (hb : f.Has b bname bbody bs) (hcontainer : Body.IsContainer bbody) :
    Contract (Keeps base (.cons a name body cs f)) (addItemToObject m b s (some a))
      (fun added h =>
        (added = false ∧ h.refused = true ∧ Keeps base (.cons a name body cs f) h) ∨
        (added = true ∧ ∃ k,
          Keeps base (f.modify b fun bs => bs.append (.cons a (some (k, s)) body cs .nil)) h))
      fun _ => False := by
  apply Contract.of_runs
  intro h hkeeps
  obtain ⟨-, haf, -, -, -⟩ := Forest.nodup_cons hkeeps.nodup
  have hne : b ≠ a := by
    rintro rfl
    exact haf hb.mem
  cases hk : m.text h with
  | none =>
      have hfail : addItemToObject m b s (some a) h = (some false, { h with refused := true }) := by
        have hdup : strdup m (some s) h = (some none, { h with refused := true }) := by
          rw [strdup, allocateText, hk]
          rfl
        rw [addItemToObject, if_neg hne, bind_of hdup]
        rfl
      exact ⟨false, _, hfail, .inl ⟨rfl, rfl, hkeeps.refuse⟩⟩
  | some k =>
      have hrenamed := hkeeps.rename (s := s) (m.text_free h k hk)
      rw [addItemToObject_named m hkeeps hne hk]
      obtain ⟨added, t, hrun, hadded, hkeeps'⟩ :=
        (addItemToArray_adds hb hcontainer).runs hrenamed
      exact ⟨added, t, hrun, .inr ⟨hadded, k, hkeeps'⟩⟩

end Members

/-! ## Items with a text -/

section CreateString

variable {s : CString} (m : Allocator)

theorem Keeps.fill (hkeeps : Keeps base (.cons a none .unset .nil f) h)
    (hk : h.texts k = none) :
    Keeps base (.cons a none (.string k s) .nil f)
      { h with
        nodes := Function.update h.nodes a (some (Body.node none none (.string k s)))
        texts := Function.update h.texts k (some s) } := by
  have hnot := hkeeps.notMem_texts hk
  have hne : ∀ r ∈ f.texts, r ≠ k := by
    rintro r hr rfl
    exact hnot hr
  apply hkeeps.reform
  · exact fun r hr => Function.update_of_ne hr _ _
  · exact Function.update_self ..
  · rfl
  · rfl
  · exact fun r hr => Function.update_of_ne (hne r hr) _ _
  · trivial
  · exact Function.update_self ..
  · exact .inl rfl
  · exact List.nodup_cons.mpr ⟨hnot, hkeeps.nodupTexts⟩
  · intro r hr
    rcases List.mem_cons.mp hr with rfl | hr
    · exact hkeeps.freshText hk
    · exact hkeeps.freshTexts r hr
  · intro r hr
    obtain ⟨hrk, hmem⟩ : r ≠ k ∧ r ∉ f.texts := not_or.mp fun h => hr (List.mem_cons.mpr h)
    exact (Function.update_of_ne hrk _ _).trans (hkeeps.texts r hmem)

/-- Without a text there is no item. -/
theorem createString_made (text : Option CString) :
    Contract (Keeps base f) (createString m text)
      (Made (text = none) base f fun body => ∃ k s, text = some s ∧ body = .string k s)
      fun _ => False := by
  have hcreate : Contract (Keeps base f) (createPlain m .string) (Made False base f (· = .unset))
      fun _ => False := allocateNode_made m rfl rfl rfl
  apply hcreate.bind
  intro item
  cases item with
  | none => exact Contract.pure fun _ h => ⟨h.1.imp False.elim id, h.2⟩
  | some a =>
      apply Contract.of_runs
      rintro h ⟨_, rfl, hkeeps⟩
      cases text with
      | none =>
          obtain ⟨hdelete, hkeeps'⟩ := delete_eq hkeeps
          exact ⟨none, _, bind_of hdelete, .inl rfl, hkeeps'⟩
      | some s =>
          cases hk : m.text h with
          | none =>
              have hdup : strdup m (some s) h = (some none, { h with refused := true }) := by
                rw [strdup, allocateText, hk]
                rfl
              obtain ⟨hdelete, hkeeps'⟩ := delete_eq hkeeps.refuse
              exact ⟨none, _, (bind_of hdup).trans (bind_of hdelete), .inr rfl, hkeeps'⟩
          | some k =>
              have hdup : strdup m (some s) h = (some (some k), h.setText k s) := by
                rw [strdup, allocateText, hk]
              obtain ⟨hitem, -, -⟩ := hkeeps.held
              have hwrite : writeNode a (fun node => { node with valuestring := some k })
                  (h.setText k s) =
                    (some (), { h with
                      nodes := Function.update h.nodes a (some (Body.node none none (.string k s)))
                      texts := Function.update h.texts k (some s) }) := by
                simp only [writeNode, Heap.setText, hitem.node]
                rfl
              exact ⟨some a, _, (bind_of hdup).trans (bind_of hwrite), .string k s,
                ⟨k, s, rfl, rfl⟩, hkeeps.fill (m.text_free h k hk)⟩

end CreateString

/-! ## New members and references -/

section NewMembers

variable {bname : Option Name} {bbody : Body} {bs : Forest} {s : CString} (m : Allocator)

theorem addCreated_adds {excuse : Prop} {P : Body → Prop} {create : HeapProgram (Option ℕ)}
    (hcreate : Contract (Keeps base f) create (Made excuse base f P) fun _ => False)
    (hb : f.Has b bname bbody bs) (hcontainer : Body.IsContainer bbody) :
    Contract (Keeps base f) (addCreated m create b s)
      (fun item h => (item = none ∧ (excuse ∨ h.refused = true) ∧ Keeps base f h) ∨
        ∃ a k body, item = some a ∧ P body ∧
          Keeps base (f.modify b (·.append (.cons a (some (k, s)) body .nil .nil))) h)
      fun _ => False := by
  apply hcreate.bind
  intro item
  apply Contract.of_runs
  intro h hmade
  cases item with
  | none =>
      obtain ⟨_, t, hdelete, hmade'⟩ := delete_none.runs hmade
      have hadd : addItemToObject m b s none h = (some false, h) := rfl
      exact ⟨none, t, (bind_of hadd).trans (bind_of hdelete), .inl ⟨rfl, hmade'⟩⟩
  | some a =>
      obtain ⟨body, hP, hkeeps⟩ := hmade
      obtain ⟨added, t, hadd, hkeeps'⟩ :=
        (addItemToObject_adds m (s := s) hb hcontainer).runs hkeeps
      rcases hkeeps' with ⟨rfl, hrefused, hkeeps'⟩ | ⟨rfl, k, hkeeps'⟩
      · obtain ⟨hdelete, hkeeps''⟩ := delete_eq hkeeps'
        exact ⟨none, _, (bind_of hadd).trans (bind_of hdelete),
          .inl ⟨rfl, .inr hrefused, hkeeps''⟩⟩
      · exact ⟨some a, t, bind_of hadd, .inr ⟨a, k, body, rfl, hP, hkeeps'⟩⟩

/-- What is behind the pointer is an item whose name is its own. -/
def Alive (base : Heap) (item : Option ℕ) : Prop :=
  ∀ r, item = some r → ∃ node, base.nodes r = some node ∧ node.stringIsConst = false

theorem createReference_made {item : Option ℕ} (hitem : Alive base item) :
    Contract (Keeps base f) (createReference m item)
      (Made (item = none) base f fun body =>
        ∃ r node, item = some r ∧ base.nodes r = some node ∧ body = .reference node)
      fun _ => False := by
  cases item with
  | none => exact Contract.pure fun h hkeeps => ⟨.inl rfl, hkeeps⟩
  | some r =>
      obtain ⟨node, hnode, hconst⟩ := hitem r rfl
      apply Contract.of_runs
      intro h hkeeps
      have hout : r ∉ f.nodes := fun hmem => by
        rw [hkeeps.fresh r hmem] at hnode
        cases hnode
      have hread := readNode_eq ((hkeeps.nodes r hout).trans hnode)
      have hcopy : { node with string := none, isReference := true } =
          Body.node none none (.reference node) := by
        simp [Body.node, hconst]
      have hmade : Contract (Keeps base f)
          (allocateNode m { node with string := none, isReference := true })
          (Made False base f fun body =>
            ∃ r' node', some r = some r' ∧ base.nodes r' = some node' ∧ body = .reference node')
          fun _ => False := allocateNode_made m ⟨r, node, rfl, hnode, rfl⟩ hcopy rfl
      obtain ⟨reference, t, hrun, hpost⟩ := hmade.runs hkeeps
      refine ⟨reference, t, (bind_of hread).trans hrun, ?_⟩
      cases reference with
      | none => exact ⟨.inr (hpost.1.resolve_left id), hpost.2⟩
      | some a => exact hpost

/-- A reference that gets no name stays behind. -/
theorem addItemReferenceToObject_adds {item : Option ℕ} (hitem : Alive base item)
    (hb : f.Has b bname bbody bs) (hcontainer : Body.IsContainer bbody) :
    Contract (Keeps base f) (addItemReferenceToObject m b s item)
      (fun added h =>
        (added = false ∧ (item = none ∨ h.refused = true) ∧ Keeps base f h) ∨
        ∃ a r node, item = some r ∧ base.nodes r = some node ∧
          ((added = false ∧ h.refused = true ∧
              Keeps base (.cons a none (.reference node) .nil f) h) ∨
            (added = true ∧ ∃ k, Keeps base (f.modify b (·.append
              (.cons a (some (k, s)) (.reference node) .nil .nil))) h)))
      fun _ => False := by
  apply (createReference_made m hitem).bind
  intro reference
  apply Contract.of_runs
  intro h hmade
  cases reference with
  | none => exact ⟨false, h, rfl, .inl ⟨rfl, hmade⟩⟩
  | some a =>
      obtain ⟨_, ⟨r, node, hr, hnode, rfl⟩, hkeeps⟩ := hmade
      obtain ⟨added, t, hadd, hkeeps'⟩ :=
        (addItemToObject_adds m (s := s) hb hcontainer).runs hkeeps
      refine ⟨added, t, hadd, ?_⟩
      rcases hkeeps' with ⟨rfl, hrefused, hkeeps'⟩ | ⟨rfl, k, hkeeps'⟩
      · exact .inr ⟨a, r, node, hr, hnode, .inl ⟨rfl, hrefused, hkeeps'⟩⟩
      · exact .inr ⟨a, r, node, hr, hnode, .inr ⟨rfl, k, hkeeps'⟩⟩

end NewMembers

end JsonHeap

end Iperf3
