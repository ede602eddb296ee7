import Iperf3.JsonHeap

/-!
# Forests of items

Who owns which node and which text.  A forest is a list of items with the
forests of their children; it is the shape that the `next` and `child`
pointers give.  A reference owns its node and its name alone.
-/

namespace Iperf3

namespace JsonHeap

open FloatScan LinkedList

inductive Body where
  | null
  | bool (value : Bool)
  | number (valuedouble : Double)
  -- A string item that has no text yet.
  | unset
  | string (valuestring : ℕ) (s : CString)
  | array
  | object
  -- A copy of another node, whose child and text belong to that node.
  | reference (node : Node)

/-- The name of an item in an object, and where it is. -/
abbrev Name : Type :=
  ℕ × CString

inductive Forest where
  | nil
  | cons (address : ℕ) (name : Option Name) (body : Body) (children : Forest)
      (siblings : Forest)

namespace Body

def IsContainer : Body → Prop
  | .array => True
  | .object => True
  | _ => False

def texts : Body → List ℕ
  | .string k _ => [k]
  | _ => []

/-- The node of an item with this first child. -/
def node (name : Option Name) (first : Option ℕ) : Body → Node
  | .null => { zeroNode with kind := .null, child := first, string := name.map Prod.fst }
  | .bool value =>
      { zeroNode with
        kind := if value then .true else .false
        child := first
        string := name.map Prod.fst }
  | .number d =>
      { zeroNode with
        kind := .number
        valuedouble := d
        child := first
        string := name.map Prod.fst }
  | .unset => { zeroNode with kind := .string, child := first, string := name.map Prod.fst }
  | .string k _ =>
      { zeroNode with
        kind := .string
        valuestring := some k
        child := first
        string := name.map Prod.fst }
  | .array => { zeroNode with kind := .array, child := first, string := name.map Prod.fst }
  | .object => { zeroNode with kind := .object, child := first, string := name.map Prod.fst }
  | .reference node =>
      { node with isReference := true, stringIsConst := false, string := name.map Prod.fst }

end Body

def nameTexts (name : Option Name) : List ℕ :=
  (name.map Prod.fst).toList

namespace Forest

def append : Forest → Forest → Forest
  | .nil, g => g
  | .cons a name body cs ss, g => .cons a name body cs (ss.append g)

/-- The addresses of the items that are nobody's children. -/
def roots : Forest → List ℕ
  | .nil => []
  | .cons a _ _ _ ss => a :: ss.roots

def nodes : Forest → List ℕ
  | .nil => []
  | .cons a _ _ cs ss => a :: (cs.nodes ++ ss.nodes)

/-- The addresses of the items that are children. -/
def inner : Forest → List ℕ
  | .nil => []
  | .cons _ _ _ cs ss => cs.nodes ++ ss.inner

def texts : Forest → List ℕ
  | .nil => []
  | .cons _ name body cs ss => nameTexts name ++ (body.texts ++ (cs.texts ++ ss.texts))

def collect (own : ℕ → Option Name → Body → List ℕ) : Forest → List ℕ
  | .nil => []
  | .cons a name body cs ss => own a name body ++ (cs.collect own ++ ss.collect own)

/-- Another forest of children for the item at `b`. -/
def modify (b : ℕ) (u : Forest → Forest) : Forest → Forest
  | .nil => .nil
  | .cons a name body cs ss =>
      if a = b then .cons a name body (u cs) ss
      else .cons a name body (cs.modify b u) (ss.modify b u)

/-- The item at `b` has this name, body and children. -/
def Has : Forest → ℕ → Option Name → Body → Forest → Prop
  | .nil, _, _, _, _ => False
  | .cons a name body cs ss, b, bname, bbody, bs =>
      (a = b ∧ name = bname ∧ body = bbody ∧ cs = bs) ∨ cs.Has b bname bbody bs ∨
        ss.Has b bname bbody bs

end Forest

/-! ## What is in memory -/

def NameHeld (h : Heap) : Option Name → Prop
  | none => True
  | some (k, s) => h.texts k = some s

def BodyHeld (h : Heap) : Body → Prop
  | .string k s => h.texts k = some s
  | _ => True

structure ItemHeld (h : Heap) (a : ℕ) (name : Option Name) (body : Body) (cs : Forest) :
    Prop where
  node : h.nodes a = some (Body.node name cs.roots.head? body)
  name : NameHeld h name
  children : cs = .nil ∨ Body.IsContainer body
  body : BodyHeld h body
  ring : Ring h.links cs.roots

def Forest.Held (h : Heap) : Forest → Prop
  | .nil => True
  | .cons a name body cs ss => ItemHeld h a name body cs ∧ cs.Held h ∧ ss.Held h

namespace Forest

variable {f g : Forest} {h h' : Heap} {a b : ℕ}

theorem nodes_eq_collect (f : Forest) : f.nodes = f.collect fun a _ _ => [a] := by
  induction f with
  | nil => rfl
  | cons a name body cs ss ihcs ihss => simp [nodes, collect, ihcs, ihss]

theorem texts_eq_collect (f : Forest) :
    f.texts = f.collect fun _ name body => nameTexts name ++ body.texts := by
  induction f with
  | nil => rfl
  | cons a name body cs ss ihcs ihss => simp [texts, collect, ihcs, ihss]

/-! ## Appending -/

@[simp]
theorem roots_append (f g : Forest) : (f.append g).roots = f.roots ++ g.roots := by
  induction f with
  | nil => rfl
  | cons a name body cs ss _ ih => simp [append, roots, ih]

@[simp]
theorem nodes_append (f g : Forest) : (f.append g).nodes = f.nodes ++ g.nodes := by
  induction f with
  | nil => rfl
  | cons a name body cs ss _ ih => simp [append, nodes, ih]

@[simp]
theorem texts_append (f g : Forest) : (f.append g).texts = f.texts ++ g.texts := by
  induction f with
  | nil => rfl
  | cons a name body cs ss _ ih => simp [append, texts, ih]

theorem held_append : (f.append g).Held h ↔ f.Held h ∧ g.Held h := by
  induction f with
  | nil => simp [append, Held]
  | cons a name body cs ss _ ih => simp [append, Held, ih, and_assoc]

theorem roots_subset (ha : a ∈ f.roots) : a ∈ f.nodes := by
  induction f with
  | nil => cases ha
  | cons b name body cs ss _ ih =>
      rcases List.mem_cons.mp ha with rfl | ha
      · exact List.mem_cons_self
      · exact List.mem_cons_of_mem _ (List.mem_append_right _ (ih ha))

theorem nodup_roots (h : f.nodes.Nodup) : f.roots.Nodup := by
  induction f with
  | nil => exact List.nodup_nil
  | cons a name body cs ss _ ih =>
      obtain ⟨ha, hrest⟩ := List.nodup_cons.mp h
      apply List.nodup_cons.mpr
      refine ⟨fun hmem => ha (List.mem_append_right _ (roots_subset hmem)), ?_⟩
      exact ih (List.nodup_append.mp hrest).2.1

theorem inner_subset (ha : a ∈ f.inner) : a ∈ f.nodes := by
  induction f with
  | nil => cases ha
  | cons b name body cs ss _ ih =>
      apply List.mem_cons_of_mem
      rcases List.mem_append.mp ha with ha | ha
      · exact List.mem_append_left _ ha
      · exact List.mem_append_right _ (ih ha)

/-! ## What does not touch a forest -/

theorem nameHeld_congr {name : Option Name} (hname : NameHeld h name)
    (htexts : ∀ k ∈ nameTexts name, h'.texts k = h.texts k) : NameHeld h' name := by
  cases name with
  | none => trivial
  | some name => exact (htexts name.1 (List.mem_singleton_self name.1)).trans hname

theorem bodyHeld_congr {body : Body} (hbody : BodyHeld h body)
    (htexts : ∀ k ∈ body.texts, h'.texts k = h.texts k) : BodyHeld h' body := by
  cases body with
  | string k s => exact (htexts k (List.mem_singleton_self k)).trans hbody
  | _ => trivial

/-- The links of the items that are nobody's children do not matter. -/
theorem Held.congr (hf : f.Held h) (hnodes : ∀ a ∈ f.nodes, h'.nodes a = h.nodes a)
    (htexts : ∀ k ∈ f.texts, h'.texts k = h.texts k)
    (hnext : ∀ a ∈ f.inner, h'.links.next a = h.links.next a)
    (hprev : ∀ a ∈ f.inner, h'.links.prev a = h.links.prev a) : f.Held h' := by
  induction f with
  | nil => trivial
  | cons a name body cs ss ihcs ihss =>
      obtain ⟨hitem, hcs, hss⟩ := hf
      have hroots : ∀ r ∈ cs.roots, r ∈ cs.nodes ++ ss.inner := fun r hr =>
        List.mem_append_left _ (roots_subset hr)
      refine ⟨⟨?_, ?_, hitem.children, ?_, ?_⟩, ?_, ?_⟩
      · exact (hnodes a List.mem_cons_self).trans hitem.node
      · exact nameHeld_congr hitem.name fun k hk => htexts k (List.mem_append_left _ hk)
      · apply bodyHeld_congr hitem.body
        exact fun k hk => htexts k (List.mem_append_right _ (List.mem_append_left _ hk))
      · exact hitem.ring.congr (fun r hr => hnext r (hroots r hr))
          fun r hr => hprev r (hroots r hr)
      · apply ihcs hcs
        · exact fun r hr => hnodes r (List.mem_cons_of_mem _ (List.mem_append_left _ hr))
        · exact fun k hk => htexts k
            (List.mem_append_right _ (List.mem_append_right _ (List.mem_append_left _ hk)))
        · exact fun r hr => hnext r (List.mem_append_left _ (inner_subset hr))
        · exact fun r hr => hprev r (List.mem_append_left _ (inner_subset hr))
      · apply ihss hss
        · exact fun r hr => hnodes r (List.mem_cons_of_mem _ (List.mem_append_right _ hr))
        · exact fun k hk => htexts k
            (List.mem_append_right _ (List.mem_append_right _ (List.mem_append_right _ hk)))
        · exact fun r hr => hnext r (List.mem_append_right _ hr)
        · exact fun r hr => hprev r (List.mem_append_right _ hr)

/-! ## One item of a forest -/

section Item

variable {name : Option Name} {body : Body} {cs ss : Forest} {bname : Option Name} {bbody : Body}
  {bs : Forest} {u : Forest → Forest}

theorem nodup_cons (h : (Forest.cons a name body cs ss).nodes.Nodup) :
    a ∉ cs.nodes ∧ a ∉ ss.nodes ∧ cs.nodes.Nodup ∧ ss.nodes.Nodup ∧
      ∀ r ∈ cs.nodes, r ∉ ss.nodes := by
  obtain ⟨ha, hrest⟩ := List.nodup_cons.mp h
  obtain ⟨hcs, hss, hapart⟩ := List.nodup_append.mp hrest
  rw [List.mem_append] at ha
  push Not at ha
  exact ⟨ha.1, ha.2, hcs, hss, fun r hr hmem => hapart r hr r hmem rfl⟩

theorem Has.subset (h : f.Has b bname bbody bs) : ∀ r ∈ b :: bs.nodes, r ∈ f.nodes := by
  intro r hr
  induction f with
  | nil => exact h.elim
  | cons a name body cs ss ihcs ihss =>
      rcases h with ⟨rfl, rfl, rfl, rfl⟩ | h | h
      · rcases List.mem_cons.mp hr with rfl | hr
        · exact List.mem_cons_self
        · exact List.mem_cons_of_mem _ (List.mem_append_left _ hr)
      · exact List.mem_cons_of_mem _ (List.mem_append_left _ (ihcs h))
      · exact List.mem_cons_of_mem _ (List.mem_append_right _ (ihss h))

theorem Has.mem (h : f.Has b bname bbody bs) : b ∈ f.nodes :=
  h.subset b List.mem_cons_self

theorem Has.held (hf : f.Held h) (hb : f.Has b bname bbody bs) :
    ItemHeld h b bname bbody bs ∧ bs.Held h := by
  induction f with
  | nil => exact hb.elim
  | cons a name body cs ss ihcs ihss =>
      obtain ⟨hitem, hcs, hss⟩ := hf
      rcases hb with ⟨rfl, rfl, rfl, rfl⟩ | hb | hb
      · exact ⟨hitem, hcs⟩
      · exact ihcs hcs hb
      · exact ihss hss hb

/-- An item that is nobody's child is not below another one. -/
theorem Has.root_notMem (hb : f.Has b bname bbody bs) (hnodup : f.nodes.Nodup) {r : ℕ}
    (hr : r ∈ f.roots) : r ∉ bs.nodes := by
  induction f with
  | nil => cases hr
  | cons a name body cs ss ihcs ihss =>
      obtain ⟨hacs, hass, hcs, hss, hapart⟩ := nodup_cons hnodup
      intro hmem
      rcases List.mem_cons.mp hr with rfl | hr
      · rcases hb with ⟨rfl, rfl, rfl, rfl⟩ | hb | hb
        · exact hacs hmem
        · exact hacs (hb.subset r (List.mem_cons_of_mem _ hmem))
        · exact hass (hb.subset r (List.mem_cons_of_mem _ hmem))
      · rcases hb with ⟨rfl, rfl, rfl, rfl⟩ | hb | hb
        · exact hapart r hmem (roots_subset hr)
        · exact hapart r (hb.subset r (List.mem_cons_of_mem _ hmem)) (roots_subset hr)
        · exact ihss hb hss hr hmem

theorem modify_of_notMem (hb : b ∉ f.nodes) : f.modify b u = f := by
  induction f with
  | nil => rfl
  | cons a name body cs ss ihcs ihss =>
      have hne : a ≠ b := by
        rintro rfl
        exact hb List.mem_cons_self
      have hcs : b ∉ cs.nodes := fun h => hb (List.mem_cons_of_mem _ (List.mem_append_left _ h))
      have hss : b ∉ ss.nodes := fun h => hb (List.mem_cons_of_mem _ (List.mem_append_right _ h))
      rw [modify, if_neg hne, ihcs hcs, ihss hss]

@[simp]
theorem roots_modify (f : Forest) (b : ℕ) (u : Forest → Forest) :
    (f.modify b u).roots = f.roots := by
  induction f with
  | nil => rfl
  | cons a name body cs ss _ ihss =>
      rw [modify]
      split_ifs
      · rfl
      · exact congrArg (List.cons a) ihss

/-- What a change of the children of the item at `b` does to memory outside of
these children. -/
structure Changes (h h' : Heap) (b : ℕ) (bs : Forest) (f : Forest) : Prop where
  nodes : ∀ a ∈ f.nodes, a ≠ b → h'.nodes a = h.nodes a
  texts : ∀ k ∈ f.texts, h'.texts k = h.texts k
  next : ∀ a ∈ f.nodes, a ∉ bs.roots → h'.links.next a = h.links.next a
  prev : ∀ a ∈ f.nodes, a ∉ bs.roots → h'.links.prev a = h.links.prev a

theorem Changes.children (hchanges : Changes h h' b bs (.cons a name body cs ss)) :
    Changes h h' b bs cs where
  nodes r hr := hchanges.nodes r (List.mem_cons_of_mem _ (List.mem_append_left _ hr))
  texts k hk := hchanges.texts k
    (List.mem_append_right _ (List.mem_append_right _ (List.mem_append_left _ hk)))
  next r hr := hchanges.next r (List.mem_cons_of_mem _ (List.mem_append_left _ hr))
  prev r hr := hchanges.prev r (List.mem_cons_of_mem _ (List.mem_append_left _ hr))

theorem Changes.siblings (hchanges : Changes h h' b bs (.cons a name body cs ss)) :
    Changes h h' b bs ss where
  nodes r hr := hchanges.nodes r (List.mem_cons_of_mem _ (List.mem_append_right _ hr))
  texts k hk := hchanges.texts k
    (List.mem_append_right _ (List.mem_append_right _ (List.mem_append_right _ hk)))
  next r hr := hchanges.next r (List.mem_cons_of_mem _ (List.mem_append_right _ hr))
  prev r hr := hchanges.prev r (List.mem_cons_of_mem _ (List.mem_append_right _ hr))

theorem Held.untouched (hf : f.Held h) (hchanges : Changes h h' b bs f)
    (hapart : ∀ r ∈ f.nodes, r ∉ b :: bs.nodes) : f.Held h' := by
  have hroots : ∀ r ∈ f.nodes, r ∉ bs.roots := fun r hr hroot =>
    hapart r hr (List.mem_cons_of_mem _ (roots_subset hroot))
  apply hf.congr
  · intro r hr
    apply hchanges.nodes r hr
    rintro rfl
    exact hapart r hr List.mem_cons_self
  · exact hchanges.texts
  · exact fun r hr => hchanges.next r (inner_subset hr) (hroots r (inner_subset hr))
  · exact fun r hr => hchanges.prev r (inner_subset hr) (hroots r (inner_subset hr))

/-- The item above, which keeps its list of children. -/
theorem ItemHeld.untouched (hitem : ItemHeld h a name body cs)
    (hchanges : Changes h h' b bs (.cons a name body cs ss)) (hne : a ≠ b)
    (hapart : ∀ r ∈ cs.roots, r ∉ bs.roots) : ItemHeld h' a name body (cs.modify b u) where
  node := by
    rw [hchanges.nodes a List.mem_cons_self hne, roots_modify]
    exact hitem.node
  name := nameHeld_congr hitem.name fun k hk => hchanges.texts k (List.mem_append_left _ hk)
  children := by
    rcases hitem.children with rfl | hcontainer
    · exact .inl rfl
    · exact .inr hcontainer
  body := bodyHeld_congr hitem.body fun k hk =>
    hchanges.texts k (List.mem_append_right _ (List.mem_append_left _ hk))
  ring := by
    rw [roots_modify]
    exact hitem.ring.congr
      (fun r hr => hchanges.children.next r (roots_subset hr) (hapart r hr))
      fun r hr => hchanges.children.prev r (roots_subset hr) (hapart r hr)

/-- A change of the children of one item, and of the links of these children
alone. -/
theorem Held.modify (hf : f.Held h) (hnodup : f.nodes.Nodup) (hb : f.Has b bname bbody bs)
    (hchanges : Changes h h' b bs f) (hitem : ItemHeld h' b bname bbody (u bs))
    (hchildren : (u bs).Held h') : (f.modify b u).Held h' := by
  induction f with
  | nil => exact hb.elim
  | cons a name body cs ss ihcs ihss =>
      obtain ⟨hold, hcsHeld, hssHeld⟩ := hf
      obtain ⟨hacs, hass, hcs, hss, hapart⟩ := nodup_cons hnodup
      rcases hb with ⟨rfl, rfl, rfl, rfl⟩ | hb | hb
      · rw [Forest.modify, if_pos rfl]
        refine ⟨hitem, hchildren, hssHeld.untouched hchanges.siblings ?_⟩
        intro r hr hmem
        rcases List.mem_cons.mp hmem with rfl | hmem
        · exact hass hr
        · exact hapart r hmem hr
      · have hne : a ≠ b := by
          rintro rfl
          exact hacs hb.mem
        have hroots : ∀ r ∈ cs.roots, r ∉ bs.roots := fun r hr hroot =>
          hb.root_notMem hcs hr (roots_subset hroot)
        rw [Forest.modify, if_neg hne, modify_of_notMem (hapart b hb.mem)]
        refine ⟨ItemHeld.untouched hold hchanges hne hroots,
          ihcs hcsHeld hcs hb hchanges.children, ?_⟩
        apply hssHeld.untouched hchanges.siblings
        exact fun r hr hmem => hapart r (hb.subset r hmem) hr
      · have hne : a ≠ b := by
          rintro rfl
          exact hass hb.mem
        have hroots : ∀ r ∈ cs.roots, r ∉ bs.roots := fun r hr hroot =>
          hapart r (roots_subset hr) (hb.subset r (List.mem_cons_of_mem _ (roots_subset hroot)))
        have hcsApart : ∀ r ∈ cs.nodes, r ∉ b :: bs.nodes := fun r hr hmem =>
          hapart r hr (hb.subset r hmem)
        have hsame : cs.modify b u = cs :=
          modify_of_notMem fun hmem => hcsApart b hmem List.mem_cons_self
        have habove := ItemHeld.untouched (u := u) hold hchanges hne hroots
        rw [hsame] at habove
        rw [Forest.modify, if_neg hne, hsame]
        exact ⟨habove, hcsHeld.untouched hchanges.children hcsApart,
          ihss hssHeld hss hb hchanges.siblings⟩

theorem has_append : (f.append g).Has b bname bbody bs ↔
    f.Has b bname bbody bs ∨ g.Has b bname bbody bs := by
  induction f with
  | nil => simp [append, Has]
  | cons a name body cs ss _ ih => simp [append, Has, ih, or_assoc]

/-- With more children for one item every item is still there. -/
theorem Has.modify_append {c : ℕ} {cname : Option Name} {cbody : Body}
    (hc : f.Has c cname cbody cs) :
    ∃ cs', (f.modify b (·.append g)).Has c cname cbody cs' := by
  induction f with
  | nil => exact hc.elim
  | cons a name body ds ss ihds ihss =>
      rw [Forest.modify]
      split_ifs with hab
      · rcases hc with ⟨rfl, rfl, rfl, rfl⟩ | hc | hc
        · exact ⟨_, .inl ⟨rfl, rfl, rfl, rfl⟩⟩
        · exact ⟨cs, .inr (.inl (has_append.mpr (.inl hc)))⟩
        · exact ⟨cs, .inr (.inr hc)⟩
      · rcases hc with ⟨rfl, rfl, rfl, rfl⟩ | hc | hc
        · exact ⟨_, .inl ⟨rfl, rfl, rfl, rfl⟩⟩
        · obtain ⟨cs', hcs'⟩ := ihds hc
          exact ⟨cs', .inr (.inl hcs')⟩
        · obtain ⟨cs', hcs'⟩ := ihss hc
          exact ⟨cs', .inr (.inr hcs')⟩

/-- The items that are added to the children of an item are there. -/
theorem Has.added {c : ℕ} {cname : Option Name} {cbody : Body} (hb : f.Has b bname bbody bs)
    (hc : g.Has c cname cbody cs) : (f.modify b (·.append g)).Has c cname cbody cs := by
  induction f with
  | nil => exact hb.elim
  | cons a name body ds ss ihds ihss =>
      rw [Forest.modify]
      split_ifs with hab
      · exact .inr (.inl (has_append.mpr (.inr hc)))
      · rcases hb with ⟨rfl, -⟩ | hb | hb
        · exact absurd rfl hab
        · exact .inr (.inl (ihds hb))
        · exact .inr (.inr (ihss hb))

/-- An address is that of one item. -/
theorem Has.unique {cname : Option Name} {cbody : Body} {es : Forest} (hnodup : f.nodes.Nodup)
    (hb : f.Has b bname bbody bs) (hc : f.Has b cname cbody es) :
    bname = cname ∧ bbody = cbody ∧ bs = es := by
  induction f with
  | nil => exact hb.elim
  | cons a name body cs ss ihcs ihss =>
      obtain ⟨hacs, hass, hcs, hss, hapart⟩ := nodup_cons hnodup
      rcases hb with ⟨rfl, rfl, rfl, rfl⟩ | hb | hb
      · rcases hc with ⟨-, rfl, rfl, rfl⟩ | hc | hc
        · exact ⟨rfl, rfl, rfl⟩
        · exact absurd hc.mem hacs
        · exact absurd hc.mem hass
      · rcases hc with ⟨rfl, -, -, -⟩ | hc | hc
        · exact absurd hb.mem hacs
        · exact ihcs hcs hb hc
        · exact absurd hc.mem (hapart b hb.mem)
      · rcases hc with ⟨rfl, -, -, -⟩ | hc | hc
        · exact absurd hb.mem hass
        · exact absurd hb.mem (hapart b hc.mem)
        · exact ihss hss hb hc

theorem modify_congr (hnodup : f.nodes.Nodup) (hb : f.Has b bname bbody bs)
    (u : Forest → Forest) : f.modify b u = f.modify b fun _ => u bs := by
  induction f with
  | nil => rfl
  | cons a name body cs ss ihcs ihss =>
      obtain ⟨hacs, hass, hcs, hss, hapart⟩ := nodup_cons hnodup
      rcases hb with ⟨rfl, rfl, rfl, rfl⟩ | hb | hb
      · rw [modify, modify, if_pos rfl, if_pos rfl]
      · have hne : a ≠ b := by
          rintro rfl
          exact hacs hb.mem
        rw [modify, modify, if_neg hne, if_neg hne, ihcs hcs hb,
          modify_of_notMem (hapart b hb.mem), modify_of_notMem (hapart b hb.mem)]
      · have hnot : b ∉ cs.nodes := fun hmem => hapart b hmem hb.mem
        have hne : a ≠ b := by
          rintro rfl
          exact hass hb.mem
        rw [modify, modify, if_neg hne, if_neg hne, ihss hss hb,
          modify_of_notMem hnot, modify_of_notMem hnot]

/-- What is collected from the items, with the children of one item changed. -/
theorem count_collect_modify (own : ℕ → Option Name → Body → List ℕ) (hnodup : f.nodes.Nodup)
    (hb : f.Has b bname bbody bs) (r : ℕ) :
    ((f.modify b u).collect own).count r + (bs.collect own).count r =
      (f.collect own).count r + ((u bs).collect own).count r := by
  induction f with
  | nil => exact hb.elim
  | cons a name body cs ss ihcs ihss =>
      obtain ⟨hacs, hass, hcs, hss, hapart⟩ := nodup_cons hnodup
      rcases hb with ⟨rfl, rfl, rfl, rfl⟩ | hb | hb
      · simp only [modify, if_true, collect, List.count_append]
        omega
      · have hne : a ≠ b := by
          rintro rfl
          exact hacs hb.mem
        have hcount := ihcs hcs hb
        rw [modify, if_neg hne, modify_of_notMem (hapart b hb.mem)]
        simp only [collect, List.count_append]
        omega
      · have hne : a ≠ b := by
          rintro rfl
          exact hass hb.mem
        have hcount := ihss hss hb
        rw [modify, if_neg hne, modify_of_notMem fun hmem => hapart b hmem hb.mem]
        simp only [collect, List.count_append]
        omega

theorem count_nodes_modify (hnodup : f.nodes.Nodup) (hb : f.Has b bname bbody bs) (r : ℕ) :
    (f.modify b u).nodes.count r + bs.nodes.count r =
      f.nodes.count r + (u bs).nodes.count r := by
  rw [nodes_eq_collect, nodes_eq_collect, nodes_eq_collect, nodes_eq_collect]
  exact count_collect_modify _ hnodup hb r

theorem count_texts_modify (hnodup : f.nodes.Nodup) (hb : f.Has b bname bbody bs) (k : ℕ) :
    (f.modify b u).texts.count k + bs.texts.count k =
      f.texts.count k + (u bs).texts.count k := by
  rw [texts_eq_collect, texts_eq_collect, texts_eq_collect, texts_eq_collect]
  exact count_collect_modify _ hnodup hb k

end Item

end Forest

end JsonHeap

end Iperf3
