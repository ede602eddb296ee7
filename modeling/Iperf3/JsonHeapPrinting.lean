import Iperf3.JsonOwnership

/-!
# Printing items in memory

What is printed may refer to an item elsewhere, of which it holds a copy.  The
walk through both ends within the number of nodes and reads only what is
allocated, and the text is that of the item which the walk has found.
-/

namespace Iperf3

namespace JsonHeap

open Fallible LinkedList

variable {base h h' : Heap} {f g : Forest} {a b j k n n' : ℕ} {name : Option Name} {body : Body}
  {cs : Forest} {node : Node}

/-! ## Items that refer to others -/

/-- Every copy of another node meets `P`. -/
def Forest.Refs (P : Node → Prop) : Forest → Prop
  | .nil => True
  | .cons _ _ body cs ss => (∀ node, body = .reference node → P node) ∧ cs.Refs P ∧ ss.Refs P

namespace Forest

variable {P Q : Node → Prop} {bname : Option Name} {bbody : Body} {bs : Forest}

theorem refs_append : (f.append g).Refs P ↔ f.Refs P ∧ g.Refs P := by
  induction f with
  | nil => simp [append, Refs]
  | cons a name body cs ss _ ih => simp [append, Refs, ih, and_assoc]

theorem Refs.mono (hf : f.Refs P) (hPQ : ∀ node, P node → Q node) : f.Refs Q := by
  induction f with
  | nil => trivial
  | cons a name body cs ss ihcs ihss =>
      exact ⟨fun node hnode => hPQ node (hf.1 node hnode), ihcs hf.2.1, ihss hf.2.2⟩

theorem Refs.modify (hf : f.Refs P) (hg : g.Refs P) : (f.modify b (·.append g)).Refs P := by
  induction f with
  | nil => trivial
  | cons a name body cs ss ihcs ihss =>
      rw [Forest.modify]
      split_ifs
      · exact ⟨hf.1, refs_append.mpr ⟨hf.2.1, hg⟩, hf.2.2⟩
      · exact ⟨hf.1, ihcs hf.2.1, ihss hf.2.2⟩

theorem Has.refs (hf : f.Refs P) (hb : f.Has b bname bbody bs) :
    (∀ node, bbody = .reference node → P node) ∧ bs.Refs P := by
  induction f with
  | nil => exact hb.elim
  | cons a name body cs ss ihcs ihss =>
      rcases hb with ⟨rfl, rfl, rfl, rfl⟩ | hb | hb
      · exact ⟨hf.1, hf.2.1⟩
      · exact ihcs hf.2.1 hb
      · exact ihss hf.2.2 hb

theorem exists_has (ha : a ∈ f.nodes) : ∃ name body cs, f.Has a name body cs := by
  induction f with
  | nil => cases ha
  | cons b name body cs ss ihcs ihss =>
      rcases List.mem_cons.mp ha with rfl | ha
      · exact ⟨name, body, cs, .inl ⟨rfl, rfl, rfl, rfl⟩⟩
      · rcases List.mem_append.mp ha with ha | ha
        · obtain ⟨name, body, cs, ha⟩ := ihcs ha
          exact ⟨name, body, cs, .inr (.inl ha)⟩
        · obtain ⟨name, body, cs, ha⟩ := ihss ha
          exact ⟨name, body, cs, .inr (.inr ha)⟩

theorem Has.length_le (hb : f.Has b bname bbody bs) : bs.nodes.length + 1 ≤ f.nodes.length := by
  induction f with
  | nil => exact hb.elim
  | cons a name body cs ss ihcs ihss =>
      rw [nodes, List.length_cons, List.length_append]
      rcases hb with ⟨rfl, rfl, rfl, rfl⟩ | hb | hb
      · omega
      · have hle := ihcs hb
        omega
      · have hle := ihss hb
        omega

end Forest

/-! ## Reading -/

/-- Wherever there is a copy of this node, an item is read in `n` steps. -/
def Legible (h : Heap) (n : ℕ) (node : Node) : Prop :=
  ∃ item, ∀ fuel ≥ n, ∀ (a : ℕ) (reference const : Bool) (string : Option ℕ),
    h.nodes a = some { node with
      isReference := reference
      stringIsConst := const
      string := string } →
    readItem (fuel + 1) a h = (some (some item), h)

theorem Legible.mono (hnode : Legible h n node) (hle : n ≤ n') : Legible h n' node := by
  obtain ⟨item, hread⟩ := hnode
  exact ⟨item, fun fuel hfuel => hread fuel (hle.trans hfuel)⟩

theorem Legible.read (hnode : Legible h n node) (ha : h.nodes a = some node) :
    ∃ item, ∀ fuel ≥ n, readItem (fuel + 1) a h = (some (some item), h) := by
  obtain ⟨item, hread⟩ := hnode
  exact ⟨item, fun fuel hfuel => hread fuel hfuel a _ _ _ ha⟩

/-- From a pointer on, the items of a list are read in `n` steps. -/
structure LegibleList (h : Heap) (n : ℕ) (p : Option ℕ) : Prop where
  elements : ∃ items, ∀ fuel ≥ n, readElements fuel p h = (some (some items), h)
  members : ∃ members, ∀ fuel ≥ n, readMembers fuel p h = (some (some members), h)

theorem LegibleList.mono {p : Option ℕ} (hlist : LegibleList h n p) (hle : n ≤ n') :
    LegibleList h n' p := by
  obtain ⟨⟨items, hitems⟩, ⟨members, hmembers⟩⟩ := hlist
  exact ⟨⟨items, fun fuel hfuel => hitems fuel (hle.trans hfuel)⟩,
    ⟨members, fun fuel hfuel => hmembers fuel (hle.trans hfuel)⟩⟩

theorem legibleList_none : LegibleList h n none := by
  constructor
  · refine ⟨[], fun fuel _ => ?_⟩
    cases fuel <;> rfl
  · refine ⟨[], fun fuel _ => ?_⟩
    cases fuel <;> rfl

theorem readString_name (hname : NameHeld h name) :
    ∃ s, readString (name.map Prod.fst) h = (some s, h) := by
  cases name with
  | none => exact ⟨[], rfl⟩
  | some name =>
      refine ⟨name.2, ?_⟩
      change readText name.1 h = _
      rw [readText, show h.texts name.1 = some name.2 from hname]

theorem LegibleList.cons {next : Option ℕ} (hnode : h.nodes a = some node)
    (hstring : node.string = name.map Prod.fst) (hname : NameHeld h name)
    (hnext : h.links.next a = next) (hitem : Legible h n node) (hrest : LegibleList h n next) :
    LegibleList h (n + 2) (some a) := by
  obtain ⟨item, hitem⟩ := hitem.read hnode
  obtain ⟨⟨items, hitems⟩, ⟨members, hmembers⟩⟩ := hrest
  obtain ⟨s, hs⟩ := readString_name hname
  have hread := readNode_eq hnode
  have hreadNext : readNext a h = (some next, h) := hnext ▸ readNext_eq hnode
  constructor
  · refine ⟨item :: items, fun fuel hfuel => ?_⟩
    obtain ⟨fuel, rfl⟩ : ∃ i, fuel = i + 2 := ⟨fuel - 2, by omega⟩
    rw [readElements, bind_of (hitem fuel (by omega))]
    exact (bind_of hreadNext).trans (bind_of (hitems (fuel + 1) (by omega)))
  · refine ⟨(s, item) :: members, fun fuel hfuel => ?_⟩
    obtain ⟨fuel, rfl⟩ : ∃ i, fuel = i + 2 := ⟨fuel - 2, by omega⟩
    rw [readMembers, bind_of hread, hstring, bind_of hs, bind_of (hitem fuel (by omega))]
    exact (bind_of hreadNext).trans (bind_of (hmembers (fuel + 1) (by omega)))

/-- The item has its own value and children, or it is a copy of a node that can
be read. -/
theorem ItemHeld.legible (hitem : ItemHeld h a name body cs)
    (href : ∀ node, body = .reference node → Legible h n node)
    (hcs : LegibleList h n cs.roots.head?) :
    Legible h n (body.node name cs.roots.head?) := by
  cases body with
  | null =>
      refine ⟨.null, fun fuel _ a reference const string hnode => ?_⟩
      rw [readItem, bind_of (readNode_eq hnode)]
      rfl
  | bool value =>
      refine ⟨.bool value, fun fuel _ a reference const string hnode => ?_⟩
      rw [readItem, bind_of (readNode_eq hnode)]
      cases value <;> rfl
  | number d =>
      refine ⟨.number d, fun fuel _ a reference const string hnode => ?_⟩
      rw [readItem, bind_of (readNode_eq hnode)]
      rfl
  | unset =>
      refine ⟨.string [], fun fuel _ a reference const string hnode => ?_⟩
      rw [readItem, bind_of (readNode_eq hnode)]
      rfl
  | string k s =>
      refine ⟨.string s, fun fuel _ a reference const string hnode => ?_⟩
      have htext : readString (some k) h = (some s, h) := readText_eq hitem.body
      rw [readItem, bind_of (readNode_eq hnode)]
      exact bind_of htext
  | array =>
      obtain ⟨items, hitems⟩ := hcs.elements
      refine ⟨.array items, fun fuel hfuel a reference const string hnode => ?_⟩
      rw [readItem, bind_of (readNode_eq hnode)]
      exact bind_of (hitems fuel hfuel)
  | object =>
      obtain ⟨members, hmembers⟩ := hcs.members
      refine ⟨.object members, fun fuel hfuel a reference const string hnode => ?_⟩
      rw [readItem, bind_of (readNode_eq hnode)]
      exact bind_of (hmembers fuel hfuel)
  | reference node => exact href node rfl

/-- The induction is on the forest: a list of items is one with the children of
its first item, which are read before the rest. -/
theorem Forest.Held.legible (hf : f.Held h) (hrefs : f.Refs (Legible h n)) {p : Option ℕ}
    (hp : Chained h.links.next p f.roots) : LegibleList h (2 * f.nodes.length + n) p := by
  induction f generalizing p with
  | nil =>
      obtain rfl : p = none := hp
      exact legibleList_none
  | cons a name body cs ss ihcs ihss =>
      obtain ⟨hitem, hcs, hss⟩ := hf
      obtain ⟨href, hrefsCs, hrefsSs⟩ := hrefs
      obtain ⟨rfl, hbehind⟩ := hp
      have hchildren := ihcs hcs hrefsCs hitem.ring.chained
      have hrest := ihss hss hrefsSs hbehind
      have hnode : Legible h (2 * cs.nodes.length + n) (body.node name cs.roots.head?) :=
        hitem.legible (fun node hnode => (href node hnode).mono (by omega)) hchildren
      rw [nodes, List.length_cons, List.length_append]
      apply (LegibleList.cons (n := 2 * (cs.nodes.length + ss.nodes.length) + n) hitem.node
        (Body.node_string name _ body) hitem.name rfl _ _).mono (by omega)
      · exact hnode.mono (by omega)
      · exact hrest.mono (by omega)

/-! ## Memory that stays -/

/-- A node of an item in memory that refers to nothing. -/
def Heap.Shows (base : Heap) (node : Node) : Prop :=
  ∃ under g, Keeps under g base ∧ (g.Refs fun _ => False) ∧ ∃ r ∈ g.nodes, base.nodes r = some node

/-- What was in memory before is still there. -/
theorem Keeps.still (hkeeps : Keeps base f h) (hg : g.Held base) : g.Held h := by
  have hout : ∀ a ∈ g.nodes, a ∉ f.nodes := fun a ha hmem =>
    hg.allocated ha (hkeeps.fresh a hmem)
  apply hg.congr
  · exact fun a ha => hkeeps.nodes a (hout a ha)
  · exact fun k hk => hkeeps.texts k fun hmem => hg.allocatedText hk (hkeeps.freshTexts k hmem)
  · exact fun a ha => hkeeps.next a (hg.allocated (Forest.inner_subset ha))
  · exact fun a ha => hkeeps.prev a (hg.allocated (Forest.inner_subset ha))

theorem Heap.Shows.legible (hshows : base.Shows node) (hkeeps : Keeps base f h) :
    Legible h (2 * base.size) node := by
  obtain ⟨under, g, hg, hplain, r, hr, hnode⟩ := hshows
  obtain ⟨name, body, cs, hhas⟩ := Forest.exists_has hr
  obtain ⟨hitem, hcs⟩ := hhas.held (hkeeps.still hg.held)
  obtain ⟨hbody, hrefs⟩ := hhas.refs hplain
  have hsize := hg.size
  have hsame := (hhas.held hg.held).1.node
  rw [hnode, Option.some_inj] at hsame
  have hlength := hhas.length_le
  have hlist : LegibleList h (2 * cs.nodes.length + 0) cs.roots.head? :=
    hcs.legible (hrefs.mono fun _ => False.elim) hitem.ring.chained
  rw [hsame]
  apply (hitem.legible (fun node hnode => (hbody node hnode).elim) hlist).mono
  omega

/-- The walk through an item of the forest ends. -/
theorem Keeps.readItem (hkeeps : Keeps base f h) (hrefs : f.Refs base.Shows)
    (hj : f.Has j name body cs) :
    ∃ item, readItem (2 * h.size) j h = (some (some item), h) := by
  obtain ⟨hitem, hcs⟩ := hj.held hkeeps.held
  obtain ⟨hbody, hcsRefs⟩ := hj.refs hrefs
  have hlength := hj.length_le
  have hsize := hkeeps.size
  have hlist : LegibleList h (2 * cs.nodes.length + 2 * base.size) cs.roots.head? :=
    hcs.legible (hcsRefs.mono fun _ hshows => hshows.legible hkeeps) hitem.ring.chained
  have hlegible := hitem.legible
    (fun node hnode => ((hbody node hnode).legible hkeeps).mono (by omega)) hlist
  obtain ⟨item, hread⟩ := hlegible.read hitem.node
  refine ⟨item, ?_⟩
  obtain ⟨i, hi⟩ : ∃ i, 2 * h.size = i + 1 := ⟨2 * h.size - 1, by omega⟩
  rw [hi]
  exact hread i (by omega)

/-! ## Printing -/

section Print

variable (m : Allocator) (format : Bool)

/-- The item has a text that the printer's sizes do not hold. -/
def Overlong (format : Bool) (j : ℕ) (h : Heap) : Prop :=
  ∃ item, readItem (2 * h.size) j h = (some (some item), h) ∧
    PrintBuffer.sizeMax < 2 * ((JsonText.valueText format 0 item).length + 2)

/-- The text gets memory of its own, and nothing else changes. -/
theorem print_written (hrefs : f.Refs base.Shows) (hj : f.Has j name body cs) :
    Contract (Keeps base f) (print m format j)
      (fun r h => ∃ s, Written base (Keeps · f ·) s r h) (Overlong format j) := by
  apply Contract.of_ends
  intro h hkeeps
  obtain ⟨item, hread⟩ := hkeeps.readItem hrefs hj
  have hvalue : reading (fun h => JsonHeap.readItem (2 * h.size) j) h = (some (some item), h) :=
    hread
  rw [print, bind_of hvalue]
  dsimp only [reading]
  cases hprint : JsonPrinter.print (m.buffer h) (m.buffer h) format item with
  | ok cells =>
      obtain ⟨r, t, hrun, hwritten⟩ :=
        (allocateText_written m (s := CString.ofBytes cells.reduceOption)).runs hkeeps
      exact .inl ⟨r, t, hrun, _, hwritten⟩
  | error failure =>
      cases failure with
      | refused => exact .inl ⟨none, _, rfl, [], rfl, hkeeps.refuse⟩
      | outside =>
          refine .inr ⟨h, rfl, item, hread, ?_⟩
          by_contra hshort
          rcases JsonPrinter.print_outcomes (m.buffer h) (m.buffer h) format item
            (not_lt.mp hshort) with hok | ⟨hrefused, -⟩
          · rw [hprint] at hok
            cases hok
          · rw [hprint] at hrefused
            cases hrefused

end Print

end JsonHeap

end Iperf3
