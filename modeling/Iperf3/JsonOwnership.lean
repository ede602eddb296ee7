import Iperf3.JsonForest

/-!
# Everything is freed once

What each function of the library does to memory that consists of what was
there before and of a forest of items.
-/

namespace Iperf3

namespace JsonHeap

open Fallible LinkedList

/-- Memory is that of `base` and, apart from it, the items of the forest, of
which those that are nobody's children stand alone. -/
structure Keeps (base : Heap) (f : Forest) (h : Heap) : Prop where
  held : f.Held h
  single : ∀ a ∈ f.roots, h.links.next a = none
  nodup : f.nodes.Nodup
  nodupTexts : f.texts.Nodup
  nodes : ∀ a ∉ f.nodes, h.nodes a = base.nodes a
  texts : ∀ k ∉ f.texts, h.texts k = base.texts k
  fresh : ∀ a ∈ f.nodes, base.nodes a = none
  freshTexts : ∀ k ∈ f.texts, base.texts k = none
  next : ∀ a, base.nodes a ≠ none → h.links.next a = base.links.next a
  prev : ∀ a, base.nodes a ≠ none → h.links.prev a = base.links.prev a
  size : h.size = base.size + f.nodes.length

variable {base h h' : Heap} {f g : Forest} {a b k : ℕ} {name : Option Name} {body : Body}
  {cs ss : Forest}

namespace Forest

theorem Held.allocated (hf : f.Held h) (ha : a ∈ f.nodes) : h.nodes a ≠ none := by
  induction f with
  | nil => cases ha
  | cons b name body cs ss ihcs ihss =>
      obtain ⟨hitem, hcs, hss⟩ := hf
      rcases List.mem_cons.mp ha with rfl | ha
      · simp [hitem.node]
      · rcases List.mem_append.mp ha with ha | ha
        · exact ihcs hcs ha
        · exact ihss hss ha

theorem ItemHeld.allocatedText (hitem : ItemHeld h a name body cs)
    (hk : k ∈ nameTexts name ++ body.texts) : h.texts k ≠ none := by
  rcases List.mem_append.mp hk with hk | hk
  · cases name with
    | none => cases hk
    | some name =>
        rw [List.mem_singleton.mp hk]
        simp [show h.texts name.1 = some name.2 from hitem.name]
  · cases body with
    | string k' s =>
        rw [List.mem_singleton.mp hk]
        simp [show h.texts k' = some s from hitem.body]
    | _ => cases hk

theorem Held.allocatedText (hf : f.Held h) (hk : k ∈ f.texts) : h.texts k ≠ none := by
  induction f with
  | nil => cases hk
  | cons b name body cs ss ihcs ihss =>
      obtain ⟨hitem, hcs, hss⟩ := hf
      rw [texts, ← List.append_assoc] at hk
      rcases List.mem_append.mp hk with hk | hk
      · exact ItemHeld.allocatedText hitem hk
      · rcases List.mem_append.mp hk with hk | hk
        · exact ihcs hcs hk
        · exact ihss hss hk

end Forest

theorem Keeps.notMem (hkeeps : Keeps base f h) (ha : h.nodes a = none) : a ∉ f.nodes :=
  fun hmem => hkeeps.held.allocated hmem ha

theorem Keeps.notMem_texts (hkeeps : Keeps base f h) (hk : h.texts k = none) : k ∉ f.texts :=
  fun hmem => hkeeps.held.allocatedText hmem hk

theorem keeps_nil : Keeps h .nil h where
  held := trivial
  single a ha := by cases ha
  nodup := List.nodup_nil
  nodupTexts := List.nodup_nil
  nodes a _ := rfl
  texts k _ := rfl
  fresh a ha := by cases ha
  freshTexts k hk := by cases hk
  next a _ := rfl
  prev a _ := rfl
  size := rfl

/-- The same items in another order. -/
structure Rearranges (f g : Forest) : Prop where
  held : ∀ h, f.Held h → g.Held h
  roots : f.roots.Perm g.roots
  nodes : f.nodes.Perm g.nodes
  texts : f.texts.Perm g.texts

theorem Keeps.rearrange (hkeeps : Keeps base f h) (hfg : Rearranges f g) : Keeps base g h where
  held := hfg.held h hkeeps.held
  single a ha := hkeeps.single a (hfg.roots.mem_iff.mpr ha)
  nodup := hfg.nodes.nodup_iff.mp hkeeps.nodup
  nodupTexts := hfg.texts.nodup_iff.mp hkeeps.nodupTexts
  nodes a ha := hkeeps.nodes a fun hmem => ha (hfg.nodes.mem_iff.mp hmem)
  texts k hk := hkeeps.texts k fun hmem => hk (hfg.texts.mem_iff.mp hmem)
  fresh a ha := hkeeps.fresh a (hfg.nodes.mem_iff.mpr ha)
  freshTexts k hk := hkeeps.freshTexts k (hfg.texts.mem_iff.mpr hk)
  next := hkeeps.next
  prev := hkeeps.prev
  size := by rw [hkeeps.size, hfg.nodes.length_eq]

/-! ## Deleting -/

def Heap.release (h : Heap) (nodes texts : List ℕ) : Heap where
  nodes a := if a ∈ nodes then none else h.nodes a
  links := h.links
  texts k := if k ∈ texts then none else h.texts k
  size := h.size - nodes.length
  refused := h.refused

theorem release_nil (h : Heap) : h.release [] [] = h := by
  simp [Heap.release]

theorem release_release (h : Heap) (ns ts ns' ts' : List ℕ) :
    (h.release ns ts).release ns' ts' = h.release (ns ++ ns') (ts ++ ts') := by
  have hnodes : ∀ a, (if a ∈ ns' then none else if a ∈ ns then none else h.nodes a) =
      if a ∈ ns ++ ns' then none else h.nodes a := by
    intro a
    simp only [List.mem_append]
    split_ifs <;> tauto
  have htexts : ∀ k, (if k ∈ ts' then none else if k ∈ ts then none else h.texts k) =
      if k ∈ ts ++ ts' then none else h.texts k := by
    intro k
    simp only [List.mem_append]
    split_ifs <;> tauto
  simp only [Heap.release, Heap.mk.injEq, true_and, List.length_append, Nat.sub_sub, and_true]
  exact ⟨funext hnodes, funext htexts⟩

theorem release_perm (h : Heap) {ns ts ns' ts' : List ℕ} (hns : ns.Perm ns') (hts : ts.Perm ts') :
    h.release ns ts = h.release ns' ts' := by
  simp [Heap.release, hns.mem_iff, hts.mem_iff, hns.length_eq]

theorem freeText_eq {s : CString} (hk : h.texts k = some s) :
    freeText k h = (some (), h.release [] [k]) := by
  have htexts : Function.update h.texts k none = fun r => if r ∈ [k] then none else h.texts r := by
    funext r
    simp [Function.update_apply]
  simp [freeText, hk, Heap.release, htexts]

theorem freeNode_eq {node : Node} (ha : h.nodes a = some node) :
    freeNode a h = (some (), h.release [a] []) := by
  have hnodes : Function.update h.nodes a none = fun r => if r ∈ [a] then none else h.nodes r := by
    funext r
    simp [Function.update_apply]
  simp [freeNode, ha, Heap.release, hnodes]

theorem Forest.Held.release (hf : f.Held h) {ns ts : List ℕ} (hns : ∀ a ∈ f.nodes, a ∉ ns)
    (hts : ∀ k ∈ f.texts, k ∉ ts) : f.Held (h.release ns ts) := by
  apply hf.congr
  · exact fun a ha => if_neg (hns a ha)
  · exact fun k hk => if_neg (hts k hk)
  · exact fun _ _ => rfl
  · exact fun _ _ => rfl

namespace Body

def isReference : Body → Bool
  | .reference _ => true
  | _ => false

theorem node_isReference (name : Option Name) (first : Option ℕ) (body : Body) :
    (body.node name first).isReference = body.isReference := by
  cases body <;> rfl

theorem node_stringIsConst (name : Option Name) (first : Option ℕ) (body : Body) :
    (body.node name first).stringIsConst = false := by
  cases body <;> rfl

theorem node_string (name : Option Name) (first : Option ℕ) (body : Body) :
    (body.node name first).string = name.map Prod.fst := by
  cases body <;> rfl

theorem node_child (name : Option Name) (first : Option ℕ) (hbody : body.isReference = false) :
    (body.node name first).child = first := by
  cases body with
  | reference node => cases hbody
  | _ => rfl

end Body

theorem freeName_eq (hname : NameHeld h name) :
    whenGiven (name.map Prod.fst) freeText h = (some (), h.release [] (nameTexts name)) := by
  cases name with
  | none =>
      rw [nameTexts]
      exact congrArg (Prod.mk _) (release_nil h).symm
  | some name => exact freeText_eq hname

theorem freeValue_eq {first : Option ℕ} (hbody : BodyHeld h body) :
    provided ((body.node name first).isReference = false)
        (whenGiven (body.node name first).valuestring freeText) h =
      (some (), h.release [] body.texts) := by
  cases body with
  | string k s => exact provided_of rfl (freeText_eq hbody)
  | reference node =>
      exact (provided_of_not (by simp [Body.node])).trans
        (congrArg (Prod.mk _) (release_nil h).symm)
  | _ => exact (provided_of rfl rfl).trans (congrArg (Prod.mk _) (release_nil h).symm)

/-! What other items own has been freed before. -/

theorem freeValue_released {first : Option ℕ} {ns ts : List ℕ} (hbody : BodyHeld h body)
    (hts : ∀ k ∈ body.texts, k ∉ ts) :
    provided ((body.node name first).isReference = false)
        (whenGiven (body.node name first).valuestring freeText) (h.release ns ts) =
      (some (), h.release ns (ts ++ body.texts)) := by
  have hheld : BodyHeld (h.release ns ts) body :=
    Forest.bodyHeld_congr hbody fun k hk => if_neg (hts k hk)
  rw [freeValue_eq hheld, release_release, List.append_nil]

theorem freeName_released {first : Option ℕ} {ns ts : List ℕ} (hname : NameHeld h name)
    (hts : ∀ k ∈ nameTexts name, k ∉ ts) :
    provided ((body.node name first).stringIsConst = false)
        (whenGiven (body.node name first).string freeText) (h.release ns ts) =
      (some (), h.release ns (ts ++ nameTexts name)) := by
  have hheld : NameHeld (h.release ns ts) name :=
    Forest.nameHeld_congr hname fun k hk => if_neg (hts k hk)
  rw [Body.node_string, provided_of (Body.node_stringIsConst name first body)
    (freeName_eq hheld), release_release, List.append_nil]

theorem freeNode_released {node : Node} {ns ts : List ℕ} (hnode : h.nodes a = some node)
    (ha : a ∉ ns) : freeNode a (h.release ns ts) = (some (), h.release (ns ++ [a]) ts) := by
  have hheld : (h.release ns ts).nodes a = some node := (if_neg ha).trans hnode
  rw [freeNode_eq hheld, release_release, List.append_nil]

/-- An item that refers to the children of another one leaves them alone. -/
theorem deleteChildren_eq {fuel : ℕ} {cs : Forest} (hchildren : cs = .nil ∨ Body.IsContainer body)
    (hdelete : deleteItems fuel cs.roots.head? h = (some (), h.release cs.nodes cs.texts)) :
    provided ((body.node name cs.roots.head?).isReference = false)
        (deleteItems fuel (body.node name cs.roots.head?).child) h =
      (some (), h.release cs.nodes cs.texts) := by
  cases hbody : body.isReference with
  | true =>
      have hnil : cs = .nil := by
        cases body with
        | reference node => exact hchildren.resolve_right fun h => h
        | _ => cases hbody
      rw [hnil, Forest.nodes, Forest.texts, release_nil]
      exact provided_of_not (by rw [Body.node_isReference, hbody]; decide)
  | false =>
      rw [Body.node_child name _ hbody]
      apply provided_of
      · rw [Body.node_isReference, hbody]
      · exact hdelete

/-- Every node and text of the items is freed, and nothing else. -/
theorem deleteItems_eq (f : Forest) : ∀ {h : Heap} {p : Option ℕ} {fuel : ℕ}, f.Held h →
    Chained h.links.next p f.roots → f.nodes.Nodup → f.texts.Nodup → f.nodes.length ≤ fuel →
    deleteItems fuel p h = (some (), h.release f.nodes f.texts) := by
  induction f with
  | nil =>
      intro h p fuel _ hp _ _ _
      rw [show p = none from hp]
      cases fuel <;> exact congrArg (Prod.mk _) (release_nil h).symm
  | cons a name body cs ss ihcs ihss =>
      intro h p fuel hheld hp hnodup htexts hfuel
      obtain ⟨hitem, hcs, hss⟩ := hheld
      obtain ⟨rfl, hbehind⟩ := hp
      obtain ⟨hacs, hass, hnodupCs, hnodupSs, hapart⟩ := Forest.nodup_cons hnodup
      rw [Forest.texts, ← List.append_assoc] at htexts
      obtain ⟨hown, hrest, hownApart⟩ := List.nodup_append.mp htexts
      obtain ⟨htextsCs, htextsSs, htextsApart⟩ := List.nodup_append.mp hrest
      rw [Forest.nodes, List.length_cons, List.length_append] at hfuel
      obtain ⟨fuel, rfl⟩ : ∃ n, fuel = n + 1 := ⟨fuel - 1, by omega⟩
      have hread := readNode_eq hitem.node
      have hreadNext := readNext_eq hitem.node
      have hchildren : provided ((body.node name cs.roots.head?).isReference = false)
          (deleteItems fuel (body.node name cs.roots.head?).child) h =
            (some (), h.release cs.nodes cs.texts) :=
        deleteChildren_eq hitem.children
          (ihcs hcs hitem.ring.chained hnodupCs htextsCs (by omega))
      have hvalue : ∀ k ∈ body.texts, k ∉ cs.texts := fun k hk hmem =>
        hownApart k (List.mem_append_right _ hk) k (List.mem_append_left _ hmem) rfl
      have hname : ∀ k ∈ nameTexts name, k ∉ cs.texts ++ body.texts := by
        intro k hk
        rw [List.mem_append, not_or]
        exact ⟨fun hmem => hownApart k (List.mem_append_left _ hk) k
          (List.mem_append_left _ hmem) rfl,
          fun hmem => (List.nodup_append.mp hown).2.2 k hk k hmem rfl⟩
      have hrestHeld : ss.Held
          (h.release (cs.nodes ++ [a]) (cs.texts ++ body.texts ++ nameTexts name)) := by
        apply hss.release
        · intro r hr
          rw [List.mem_append, List.mem_singleton, not_or]
          exact ⟨fun hmem => hapart r hmem hr, fun h => hass (h ▸ hr)⟩
        · intro r hr
          rw [List.mem_append, List.mem_append, not_or, not_or]
          refine ⟨⟨fun hmem => htextsApart r hmem r hr rfl, fun hmem => ?_⟩, fun hmem => ?_⟩
          · exact hownApart r (List.mem_append_right _ hmem) r (List.mem_append_right _ hr) rfl
          · exact hownApart r (List.mem_append_left _ hmem) r (List.mem_append_right _ hr) rfl
      have hsiblings : deleteItems fuel (h.links.next a)
          (h.release (cs.nodes ++ [a]) (cs.texts ++ body.texts ++ nameTexts name)) =
            (some (), (h.release (cs.nodes ++ [a])
              (cs.texts ++ body.texts ++ nameTexts name)).release ss.nodes ss.texts) :=
        ihss hrestHeld hbehind hnodupSs htextsSs (by omega)
      rw [deleteItems, bind_of hread, bind_of hreadNext, bind_of hchildren,
        bind_of (freeValue_released hitem.body hvalue),
        bind_of (freeName_released hitem.name hname),
        bind_of (freeNode_released hitem.node hacs), hsiblings, release_release]
      refine congrArg (Prod.mk _) (release_perm h ?_ ?_)
      · rw [Forest.nodes, List.append_assoc]
        exact List.perm_middle
      · rw [Forest.texts, ← List.append_assoc, ← List.append_assoc]
        apply List.Perm.append_right
        rw [List.append_assoc]
        exact List.perm_append_comm.trans (List.perm_append_comm.append_right _)

theorem Keeps.release (hkeeps : Keeps base (g.append f) h) :
    Keeps base f (h.release g.nodes g.texts) := by
  have hnodup := hkeeps.nodup
  have hnodupTexts := hkeeps.nodupTexts
  have hsize := hkeeps.size
  rw [Forest.nodes_append] at hnodup hsize
  rw [Forest.texts_append] at hnodupTexts
  obtain ⟨hg, hf, hapart⟩ := List.nodup_append.mp hnodup
  obtain ⟨hgTexts, hfTexts, hapartTexts⟩ := List.nodup_append.mp hnodupTexts
  exact
    { held := (Forest.held_append.mp hkeeps.held).2.release
        (fun a ha hmem => hapart a hmem a ha rfl) fun k hk hmem => hapartTexts k hmem k hk rfl
      single := fun a ha => hkeeps.single a (by
        rw [Forest.roots_append]
        exact List.mem_append_right _ ha)
      nodup := hf
      nodupTexts := hfTexts
      nodes := fun a ha => by
        by_cases hmem : a ∈ g.nodes
        · rw [hkeeps.fresh a (by simp [hmem])]
          exact if_pos hmem
        · exact (if_neg hmem).trans (hkeeps.nodes a (by simp [hmem, ha]))
      texts := fun k hk => by
        by_cases hmem : k ∈ g.texts
        · rw [hkeeps.freshTexts k (by simp [hmem])]
          exact if_pos hmem
        · exact (if_neg hmem).trans (hkeeps.texts k (by simp [hmem, hk]))
      fresh := fun a ha => hkeeps.fresh a (by simp [ha])
      freshTexts := fun k hk => hkeeps.freshTexts k (by simp [hk])
      next := hkeeps.next
      prev := hkeeps.prev
      size := by
        rw [List.length_append] at hsize
        have hless : (h.release g.nodes g.texts).size = h.size - g.nodes.length := rfl
        omega }

theorem delete_eq (hkeeps : Keeps base (.cons a name body cs f) h) :
    delete (some a) h =
      (some (), h.release (Forest.cons a name body cs .nil).nodes
        (Forest.cons a name body cs .nil).texts) ∧
      Keeps base f (h.release (Forest.cons a name body cs .nil).nodes
        (Forest.cons a name body cs .nil).texts) := by
  have hall : Keeps base ((Forest.cons a name body cs .nil).append f) h := hkeeps
  obtain ⟨hg, -⟩ := Forest.held_append.mp hall.held
  have hnodup := hall.nodup
  have htexts := hall.nodupTexts
  have hsize := hall.size
  rw [Forest.nodes_append] at hnodup hsize
  rw [Forest.texts_append] at htexts
  have hchained : Chained h.links.next (some a) (Forest.cons a name body cs .nil).roots :=
    ⟨rfl, hkeeps.single a List.mem_cons_self⟩
  refine ⟨?_, hall.release⟩
  apply deleteItems_eq _ hg hchained (List.nodup_append.mp hnodup).1 (List.nodup_append.mp htexts).1
  rw [hsize, List.length_append]
  omega

theorem delete_none {P : Heap → Prop} :
    Contract P (delete none) (fun _ => P) fun _ => False := by
  apply Contract.of_runs
  intro h hP
  refine ⟨(), h, ?_, hP⟩
  cases hsize : h.size <;> simp [delete, reading, deleteItems, hsize] <;> rfl

/-! ## New items -/

section Create

variable (m : Allocator)

/-- A new item that stands alone; there is none when a request was refused,
or there is an excuse. -/
def Made (excuse : Prop) (base : Heap) (f : Forest) (P : Body → Prop) (r : Option ℕ) (h : Heap) :
    Prop :=
  match r with
  | none => (excuse ∨ h.refused = true) ∧ Keeps base f h
  | some a => ∃ body, P body ∧ Keeps base (.cons a none body .nil f) h

theorem keeps_allocate (hkeeps : Keeps base f h) (ha : h.nodes a = none)
    (htexts : body.texts = []) :
    Keeps base (.cons a none body .nil f)
      { h with
        nodes := Function.update h.nodes a (some (body.node none none))
        links := (h.links.setNext a none).setPrev a none
        size := h.size + 1 } := by
  have hnot := hkeeps.notMem ha
  have hbase : base.nodes a = none := (hkeeps.nodes a hnot).symm.trans ha
  have hbody : ∀ h : Heap, BodyHeld h body := by
    cases body with
    | string k s => cases htexts
    | _ => exact fun _ => trivial
  have hne : ∀ r ∈ f.nodes, r ≠ a := by
    rintro r hr rfl
    exact hnot hr
  have hheld : f.Held
      { h with
        nodes := Function.update h.nodes a (some (body.node none none))
        links := (h.links.setNext a none).setPrev a none
        size := h.size + 1 } := by
    apply hkeeps.held.congr
    · exact fun r hr => Function.update_of_ne (hne r hr) _ _
    · exact fun _ _ => rfl
    · intro r hr
      exact Function.update_of_ne (hne r (Forest.inner_subset hr)) _ _
    · intro r hr
      exact Function.update_of_ne (hne r (Forest.inner_subset hr)) _ _
  have hother : ∀ r, base.nodes r ≠ none → r ≠ a := by
    rintro r hr rfl
    exact hr hbase
  exact
    { held := ⟨⟨Function.update_self .., trivial, .inl rfl, hbody _, rfl, rfl⟩, trivial, hheld⟩
      single := fun r hr => by
        rcases List.mem_cons.mp hr with rfl | hr
        · exact Function.update_self ..
        · exact (Function.update_of_ne (hne r (Forest.roots_subset hr)) _ _).trans
            (hkeeps.single r hr)
      nodup := List.nodup_cons.mpr ⟨hnot, hkeeps.nodup⟩
      nodupTexts := by simpa [Forest.texts, nameTexts, htexts] using hkeeps.nodupTexts
      nodes := fun r hr => by
        rw [Forest.nodes, List.mem_cons, not_or] at hr
        exact (Function.update_of_ne hr.1 _ _).trans (hkeeps.nodes r hr.2)
      texts := fun r hr => hkeeps.texts r fun hmem => hr (by
        simpa [Forest.texts, nameTexts, htexts] using hmem)
      fresh := fun r hr => by
        rcases List.mem_cons.mp hr with rfl | hr
        · exact hbase
        · exact hkeeps.fresh r hr
      freshTexts := fun r hr => hkeeps.freshTexts r (by
        simpa [Forest.texts, nameTexts, htexts] using hr)
      next := fun r hr => (Function.update_of_ne (hother r hr) _ _).trans (hkeeps.next r hr)
      prev := fun r hr => (Function.update_of_ne (hother r hr) _ _).trans (hkeeps.prev r hr)
      size := by
        simp only [Forest.nodes, List.nil_append, List.length_cons, hkeeps.size]
        omega }

theorem Keeps.refuse (hkeeps : Keeps base f h) : Keeps base f { h with refused := true } where
  held := hkeeps.held.congr (fun _ _ => rfl) (fun _ _ => rfl) (fun _ _ => rfl) fun _ _ => rfl
  single := hkeeps.single
  nodup := hkeeps.nodup
  nodupTexts := hkeeps.nodupTexts
  nodes := hkeeps.nodes
  texts := hkeeps.texts
  fresh := hkeeps.fresh
  freshTexts := hkeeps.freshTexts
  next := hkeeps.next
  prev := hkeeps.prev
  size := hkeeps.size

theorem allocateNode_made {node : Node} {P : Body → Prop} (hP : P body)
    (hnode : node = body.node none none) (htexts : body.texts = []) :
    Contract (Keeps base f) (allocateNode m node)
      (Made False base f P) fun _ => False := by
  apply Contract.of_runs
  intro h hkeeps
  unfold allocateNode
  cases ha : m.node h with
  | none => exact ⟨none, _, rfl, .inr rfl, hkeeps.refuse⟩
  | some a =>
      subst hnode
      exact ⟨some a, _, rfl, body, hP, keeps_allocate hkeeps (m.node_free h a ha) htexts⟩

theorem createObject_made :
    Contract (Keeps base f) (createObject m)
      (Made False base f (· = .object)) fun _ => False :=
  allocateNode_made m rfl rfl rfl

theorem createArray_made :
    Contract (Keeps base f) (createArray m)
      (Made False base f (· = .array)) fun _ => False :=
  allocateNode_made m rfl rfl rfl

theorem createNumber_made (d : FloatScan.Double) :
    Contract (Keeps base f) (createNumber m d)
      (Made False base f (· = .number d)) fun _ => False :=
  allocateNode_made m rfl rfl rfl

theorem createBool_made (value : Bool) :
    Contract (Keeps base f) (createBool m value)
      (Made False base f (· = .bool value)) fun _ => False :=
  allocateNode_made m rfl rfl rfl

end Create

/-! ## Texts beside the items -/

section Texts

variable {s : CString} (m : Allocator)

theorem Heap.setText_self (h : Heap) (k : ℕ) (s : CString) : (h.setText k s).texts k = some s :=
  Function.update_self ..

theorem Heap.setText_of_ne {r : ℕ} (hr : r ≠ k) : (h.setText k s).texts r = h.texts r :=
  Function.update_of_ne hr _ _

theorem Keeps.setText (hkeeps : Keeps base f h) (hk : h.texts k = none) :
    Keeps (base.setText k s) f (h.setText k s) where
  held := by
    apply Forest.Held.congr hkeeps.held
    · exact fun _ _ => rfl
    · intro r hr
      apply Heap.setText_of_ne
      rintro rfl
      exact hkeeps.notMem_texts hk hr
    · exact fun _ _ => rfl
    · exact fun _ _ => rfl
  single := hkeeps.single
  nodup := hkeeps.nodup
  nodupTexts := hkeeps.nodupTexts
  nodes := hkeeps.nodes
  texts r hr := by
    by_cases hrk : r = k
    · rw [hrk, Heap.setText_self, Heap.setText_self]
    · rw [Heap.setText_of_ne hrk, Heap.setText_of_ne hrk]
      exact hkeeps.texts r hr
  fresh := hkeeps.fresh
  freshTexts r hr := by
    have hrk : r ≠ k := by
      rintro rfl
      exact hkeeps.notMem_texts hk hr
    exact (Heap.setText_of_ne hrk).trans (hkeeps.freshTexts r hr)
  next := hkeeps.next
  prev := hkeeps.prev
  size := hkeeps.size

theorem Keeps.notMem_setText (hkeeps : Keeps (base.setText k s) f h) : k ∉ f.texts := by
  intro hmem
  have hfresh := hkeeps.freshTexts k hmem
  rw [Heap.setText_self] at hfresh
  cases hfresh

theorem Keeps.textOf (hkeeps : Keeps (base.setText k s) f h) : h.texts k = some s := by
  rw [hkeeps.texts k hkeeps.notMem_setText, Heap.setText_self]

theorem Keeps.dropText (hkeeps : Keeps (base.setText k s) f h) (hk : base.texts k = none) :
    Keeps base f (h.release [] [k]) := by
  have hne : ∀ r ∈ f.texts, r ≠ k := by
    rintro r hr rfl
    exact hkeeps.notMem_setText hr
  exact
    { held := hkeeps.held.release (fun _ _ => List.not_mem_nil)
        fun r hr => by simpa using hne r hr
      single := hkeeps.single
      nodup := hkeeps.nodup
      nodupTexts := hkeeps.nodupTexts
      nodes := fun a ha => by
        have hsame : (h.release [] [k]).nodes a = h.nodes a := by simp [Heap.release]
        exact hsame.trans (hkeeps.nodes a ha)
      texts := fun r hr => by
        by_cases hrk : r = k
        · rw [hrk, hk]
          exact if_pos (List.mem_singleton_self k)
        · have hother : (h.release [] [k]).texts r = h.texts r := if_neg (by simpa using hrk)
          exact hother.trans ((hkeeps.texts r hr).trans (Heap.setText_of_ne hrk))
      fresh := hkeeps.fresh
      freshTexts := fun r hr =>
        (Heap.setText_of_ne (hne r hr)).symm.trans (hkeeps.freshTexts r hr)
      next := hkeeps.next
      prev := hkeeps.prev
      size := hkeeps.size }

/-- A new text, which belongs to the memory around the items, or a refusal. -/
def Written (base : Heap) (P : Heap → Heap → Prop) (s : CString) (r : Option ℕ) (h : Heap) : Prop :=
  match r with
  | none => h.refused = true ∧ P base h
  | some k => base.texts k = none ∧ P (base.setText k s) h

theorem allocateText_written :
    Contract (Keeps base f) (allocateText m s) (Written base (Keeps · f ·) s) fun _ => False := by
  apply Contract.of_runs
  intro h hkeeps
  unfold allocateText
  cases hk : m.text h with
  | none => exact ⟨none, _, rfl, rfl, hkeeps.refuse⟩
  | some k =>
      have hfree := m.text_free h k hk
      exact ⟨some k, _, rfl,
        (hkeeps.texts k (hkeeps.notMem_texts hfree)).symm.trans hfree, hkeeps.setText hfree⟩

end Texts

end JsonHeap

end Iperf3
