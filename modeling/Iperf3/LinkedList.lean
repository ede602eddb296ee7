import Mathlib.Tactic

/-!
# Doubly linked lists

Nodes are addresses, and the two pointers of every node are functions on
addresses.  A segment is a run of nodes between a node in front of it and a
pointer behind it; insertion and removal are changes of at most four pointers
at the border of two segments.  The second part is about lists that are kept
sorted by a key with the later one of two equal keys behind the earlier one.
-/

namespace LinkedList

variable {α : Type*}

structure Links (α : Type*) where
  next : α → Option α
  prev : α → Option α

section Segments

/-- The nodes of the list, entered from `before` through the pointer `first`;
`last` is the node that the pointer `after` leaves. -/
def Segment (links : Links α) : Option α → Option α → List α → Option α → Option α → Prop
  | before, first, [], last, after => before = last ∧ first = after
  | before, first, a :: l, last, after =>
      first = some a ∧ links.prev a = before ∧
        Segment links (some a) (links.next a) l last after

variable {links links' : Links α} {before first last after : Option α} {xs ys : List α}

theorem segment_append :
    Segment links before first (xs ++ ys) last after ↔
      ∃ m p, Segment links before first xs m p ∧ Segment links m p ys last after := by
  induction xs generalizing before first with
  | nil =>
      constructor
      · intro h
        exact ⟨before, first, ⟨rfl, rfl⟩, h⟩
      · rintro ⟨m, p, ⟨rfl, rfl⟩, h⟩
        exact h
  | cons a xs ih =>
      constructor
      · rintro ⟨hfirst, hprev, hrest⟩
        obtain ⟨m, p, hxs, hys⟩ := ih.mp hrest
        exact ⟨m, p, ⟨hfirst, hprev, hxs⟩, hys⟩
      · rintro ⟨m, p, ⟨hfirst, hprev, hxs⟩, hys⟩
        exact ⟨hfirst, hprev, ih.mpr ⟨m, p, hxs, hys⟩⟩

theorem Segment.congr
    (h : Segment links before first xs last after)
    (hnext : ∀ a ∈ xs, links'.next a = links.next a)
    (hprev : ∀ a ∈ xs, links'.prev a = links.prev a) :
    Segment links' before first xs last after := by
  induction xs generalizing before first with
  | nil => exact h
  | cons a xs ih =>
      obtain ⟨hfirst, hback, hrest⟩ := h
      refine ⟨hfirst, (hprev a (by simp)).trans hback, ?_⟩
      rw [hnext a (by simp)]
      exact ih hrest (fun x hx => hnext x (by simp [hx])) (fun x hx => hprev x (by simp [hx]))

theorem Segment.last_cases (h : Segment links none first xs last after) :
    (xs = [] ∧ last = none) ∨ ∃ l a, xs = l ++ [a] ∧ last = some a := by
  rcases List.eq_nil_or_concat' xs with rfl | ⟨l, a, rfl⟩
  · exact Or.inl ⟨rfl, h.1.symm⟩
  · obtain ⟨m, p, -, -, -, hlast, -⟩ := segment_append.mp h
    exact Or.inr ⟨l, a, rfl, hlast.symm⟩

theorem Segment.first_cases (h : Segment links before first xs last none) :
    (xs = [] ∧ first = none) ∨ ∃ a l, xs = a :: l ∧ first = some a := by
  cases xs with
  | nil => exact Or.inl ⟨rfl, h.2⟩
  | cons a l => exact Or.inr ⟨a, l, rfl, h.1⟩

theorem Segment.redirect_next [DecidableEq α]
    (h : Segment links before first (xs ++ [a]) last after) (hnodup : (xs ++ [a]).Nodup)
    (target : Option α) :
    Segment { links with next := Function.update links.next a target }
      before first (xs ++ [a]) (some a) target := by
  obtain ⟨m, p, hxs, hfirst, hprev, -⟩ := segment_append.mp h
  apply segment_append.mpr
  have hne : ∀ x ∈ xs, x ≠ a := by
    intro x hx hxa
    have hdisjoint := (List.nodup_append.mp hnodup).2.2 x hx a (by simp)
    exact hdisjoint hxa
  refine ⟨m, p, hxs.congr ?_ (fun _ _ => rfl), hfirst, hprev, rfl, ?_⟩
  · intro x hx
    simp [Function.update_of_ne (hne x hx)]
  · simp

theorem Segment.redirect_prev [DecidableEq α]
    (h : Segment links before first (a :: ys) last after) (hnodup : (a :: ys).Nodup)
    (target : Option α) :
    Segment { links with prev := Function.update links.prev a target }
      target first (a :: ys) last after := by
  obtain ⟨hfirst, -, hrest⟩ := h
  refine ⟨hfirst, by simp, hrest.congr (fun _ _ => rfl) ?_⟩
  intro x hx
  have hne : x ≠ a := by
    rintro rfl
    exact (List.nodup_cons.mp hnodup).1 hx
  simp [Function.update_of_ne hne]

end Segments

/-! ## Whole lists -/

section Lists

variable {links : Links α} {head : Option α} {xs ys : List α}

/-- A list that starts at `head` and ends in a null pointer. -/
def Linked (links : Links α) (head : Option α) (l : List α) : Prop :=
  ∃ last, Segment links none head l last none

theorem Linked.of_segments
    {m p last : Option α}
    (hxs : Segment links none head xs m p) (hys : Segment links m p ys last none) :
    Linked links head (xs ++ ys) :=
  ⟨last, segment_append.mpr ⟨m, p, hxs, hys⟩⟩

variable [DecidableEq α]

def Links.setNext (links : Links α) (a : α) (target : Option α) : Links α :=
  { links with next := Function.update links.next a target }

def Links.setPrev (links : Links α) (a : α) (target : Option α) : Links α :=
  { links with prev := Function.update links.prev a target }

/-- A pointer back is redirected only if there is a node to do it at. -/
def Links.setPrevOf (links : Links α) (a : Option α) (target : Option α) : Links α :=
  match a with
  | some a => links.setPrev a target
  | none => links

theorem Segment.setPrevOf
    {before first last : Option α} (h : Segment links before first xs last none)
    (hnodup : xs.Nodup) (target : Option α) :
    ∃ last', Segment (links.setPrevOf first target) target first xs last' none := by
  rcases h.first_cases with ⟨rfl, rfl⟩ | ⟨a, l, rfl, rfl⟩
  · exact ⟨target, rfl, rfl⟩
  · exact ⟨last, h.redirect_prev hnodup target⟩

theorem Links.setPrevOf_next (links : Links α) (a target : Option α) :
    (links.setPrevOf a target).next = links.next := by
  cases a <;> rfl

theorem Links.setPrevOf_prev_of_ne
    {a target : Option α} {x : α} (hx : a ≠ some x) :
    (links.setPrevOf a target).prev x = links.prev x := by
  cases a with
  | none => rfl
  | some a =>
      have hne : x ≠ a := fun h => hx (congrArg some h.symm)
      simp [Links.setPrevOf, Links.setPrev, Function.update_of_ne hne]

theorem Linked.push_front
    {t : α} (h : Linked links head xs) (ht : t ∉ xs) (hnodup : xs.Nodup) :
    Linked (((links.setPrev t none).setNext t head).setPrevOf head (some t)) (some t)
      (t :: xs) := by
  obtain ⟨last, hsegment⟩ := h
  have hother : ∀ x ∈ xs, x ≠ t := fun x hx hxt => ht (hxt ▸ hx)
  have hsame : Segment ((links.setPrev t none).setNext t head) none head xs last none := by
    apply hsegment.congr
    · intro x hx
      simp [Links.setNext, Links.setPrev, Function.update_of_ne (hother x hx)]
    · intro x hx
      simp [Links.setNext, Links.setPrev, Function.update_of_ne (hother x hx)]
  obtain ⟨last', hrest⟩ := hsame.setPrevOf hnodup (some t)
  have hne : head ≠ some t := by
    rintro rfl
    rcases hsegment.first_cases with ⟨-, hnone⟩ | ⟨a, l, rfl, hsome⟩
    · cases hnone
    · cases hsome
      exact ht (by simp)
  refine ⟨last', rfl, ?_, ?_⟩
  · rw [Links.setPrevOf_prev_of_ne hne]
    simp [Links.setNext, Links.setPrev]
  · rw [Links.setPrevOf_next]
    simpa [Links.setNext] using hrest

/-- The pointers after `t` has been put between `a` and the node that `a`
pointed to. -/
def Links.insertAfter (links : Links α) (a t : α) (behind : Option α) : Links α :=
  (((links.setNext a (some t)).setPrev t (some a)).setNext t behind).setPrevOf behind (some t)

theorem Linked.insert_after
    {a t : α} (h : Linked links head (xs ++ a :: ys))
    (hnodup : (xs ++ a :: ys).Nodup) (ht : t ∉ xs ++ a :: ys) :
    Linked (links.insertAfter a t (links.next a)) head (xs ++ a :: t :: ys) := by
  obtain ⟨last, hsegment⟩ := h
  obtain ⟨m, p, hxs, hp, hprev, hys⟩ := segment_append.mp hsegment
  have hta : t ≠ a := fun h => ht (by simp [h])
  have htx : ∀ x ∈ xs, x ≠ t ∧ x ≠ a := by
    intro x hx
    constructor
    · rintro rfl
      exact ht (by simp [hx])
    · rintro rfl
      exact (List.nodup_append.mp hnodup).2.2 x hx x (by simp) rfl
  have hty : ∀ y ∈ ys, y ≠ t ∧ y ≠ a := by
    intro y hy
    constructor
    · rintro rfl
      exact ht (by simp [hy])
    · rintro rfl
      have htail := (List.nodup_append.mp hnodup).2.1
      exact (List.nodup_cons.mp htail).1 hy
  have hnodupYs : ys.Nodup := (List.nodup_cons.mp (List.nodup_append.mp hnodup).2.1).2
  -- the first three assignments change no pointer of the other nodes
  have hsame : Segment (((links.setNext a (some t)).setPrev t (some a)).setNext t (links.next a))
      (some a) (links.next a) ys last none := by
    apply hys.congr
    · intro y hy
      obtain ⟨hyt, hya⟩ := hty y hy
      simp [Links.setNext, Links.setPrev, Function.update_of_ne hyt, Function.update_of_ne hya]
    · intro y hy
      simp [Links.setNext, Links.setPrev, Function.update_of_ne (hty y hy).1]
  obtain ⟨last', hbehind⟩ := hsame.setPrevOf hnodupYs (some t)
  have hnotBehind : ∀ x, x ∉ ys → links.next a ≠ some x := by
    intro x hx hsome
    rcases hys.first_cases with ⟨-, hnone⟩ | ⟨y, l, rfl, hfirst⟩
    · rw [hnone] at hsome
      cases hsome
    · rw [hfirst] at hsome
      cases hsome
      exact hx (by simp)
  have htNotin : t ∉ ys := fun h => (hty t h).1 rfl
  have haNotin : a ∉ ys := fun h => (hty a h).2 rfl
  have hfront : Segment (links.insertAfter a t (links.next a)) none head xs m p := by
    apply hxs.congr
    · intro x hx
      obtain ⟨hxt, hxa⟩ := htx x hx
      unfold Links.insertAfter
      rw [Links.setPrevOf_next]
      simp [Links.setNext, Links.setPrev, Function.update_of_ne hxt, Function.update_of_ne hxa]
    · intro x hx
      have hxys : x ∉ ys := by
        intro hxy
        exact (List.nodup_append.mp hnodup).2.2 x hx x (by simp [hxy]) rfl
      unfold Links.insertAfter
      rw [Links.setPrevOf_prev_of_ne (hnotBehind x hxys)]
      simp [Links.setNext, Links.setPrev, Function.update_of_ne (htx x hx).1]
  refine ⟨last', segment_append.mpr ⟨m, p, hfront, hp, ?_, ?_, ?_, ?_⟩⟩
  · unfold Links.insertAfter
    rw [Links.setPrevOf_prev_of_ne (hnotBehind a haNotin)]
    simpa [Links.setNext, Links.setPrev, Function.update_of_ne hta.symm] using hprev
  · unfold Links.insertAfter
    rw [Links.setPrevOf_next]
    simp [Links.setNext, Links.setPrev, Function.update_of_ne hta.symm]
  · unfold Links.insertAfter
    rw [Links.setPrevOf_prev_of_ne (hnotBehind t htNotin)]
    simp [Links.setNext, Links.setPrev]
  · have hnext : (links.insertAfter a t (links.next a)).next t = links.next a := by
      unfold Links.insertAfter
      rw [Links.setPrevOf_next]
      simp [Links.setNext]
    rw [hnext]
    exact hbehind

/-- Head and pointers after `t` has been taken out. -/
def Links.unlink (links : Links α) (head : Option α) (t : α) : Links α × Option α :=
  match links.prev t with
  | none => (links.setPrevOf (links.next t) none, links.next t)
  | some a => ((links.setNext a (links.next t)).setPrevOf (links.next t) (some a), head)

theorem Linked.unlink
    {t : α} (h : Linked links head (xs ++ t :: ys)) (hnodup : (xs ++ t :: ys).Nodup) :
    Linked (links.unlink head t).1 (links.unlink head t).2 (xs ++ ys) := by
  obtain ⟨last, hsegment⟩ := h
  obtain ⟨m, p, hxs, hp, hprev, hys⟩ := segment_append.mp hsegment
  have hnodupYs : ys.Nodup := (List.nodup_cons.mp (List.nodup_append.mp hnodup).2.1).2
  have hdisjoint : ∀ x ∈ xs, x ∉ ys := by
    intro x hx hy
    exact (List.nodup_append.mp hnodup).2.2 x hx x (by simp [hy]) rfl
  have hnotBehind : ∀ x ∈ xs, links.next t ≠ some x := by
    intro x hx hsome
    rcases hys.first_cases with ⟨-, hnone⟩ | ⟨y, l, rfl, hfirst⟩
    · rw [hnone] at hsome
      cases hsome
    · rw [hfirst] at hsome
      cases hsome
      exact hdisjoint x hx (by simp)
  rcases hxs.last_cases with ⟨rfl, rfl⟩ | ⟨l, a, rfl, rfl⟩
  · obtain ⟨last', hrest⟩ := hys.setPrevOf hnodupYs none
    refine ⟨last', ?_⟩
    unfold Links.unlink
    rw [hprev]
    exact hrest
  · have hnodupXs : (l ++ [a]).Nodup := (List.nodup_append.mp hnodup).1
    have hredirected := hxs.redirect_next hnodupXs (links.next t)
    have hsame : Segment (links.setNext a (links.next t)) (some t) (links.next t) ys last none := by
      apply hys.congr
      · intro y hy
        have hya : y ≠ a := by
          rintro rfl
          exact hdisjoint y (by simp) hy
        simp [Links.setNext, Function.update_of_ne hya]
      · intro y _
        rfl
    obtain ⟨last', hrest⟩ := hsame.setPrevOf hnodupYs (some a)
    have hfront : Segment ((links.setNext a (links.next t)).setPrevOf (links.next t) (some a))
        none head (l ++ [a]) (some a) (links.next t) := by
      apply hredirected.congr
      · intro x _
        rw [Links.setPrevOf_next]
        rfl
      · intro x hx
        rw [Links.setPrevOf_prev_of_ne (hnotBehind x hx)]
        rfl
    unfold Links.unlink
    rw [hprev]
    exact Linked.of_segments hfront hrest

end Lists

/-! ## Lists with one pointer -/

/-- A list that is linked in one direction only. -/
def Chained (next : α → Option α) : Option α → List α → Prop
  | head, [] => head = none
  | head, a :: l => head = some a ∧ Chained next (next a) l

theorem Chained.congr
    {next next' : α → Option α} {head : Option α} {l : List α}
    (h : Chained next head l) (hnext : ∀ a ∈ l, next' a = next a) : Chained next' head l := by
  induction l generalizing head with
  | nil => exact h
  | cons a l ih =>
      refine ⟨h.1, ?_⟩
      rw [hnext a (by simp)]
      exact ih h.2 (fun x hx => hnext x (by simp [hx]))

/-! ## Sorted lists -/

section Sorted

variable {κ : Type*} [LinearOrder κ] {key key' : α → κ} {l : List α} {t : α}

def SortedBy (key : α → κ) (l : List α) : Prop :=
  l.Pairwise (fun a b => key a ≤ key b)

/-- Insertion in front of the first larger key. -/
def insertBy (key : α → κ) (t : α) (l : List α) : List α :=
  l.orderedInsert (fun a b => key a < key b) t

theorem insertBy_perm : (insertBy key t l).Perm (t :: l) :=
  List.perm_orderedInsert _ t l

theorem SortedBy.insertBy (h : SortedBy key l) : SortedBy key (insertBy key t l) := by
  induction l with
  | nil => simp [SortedBy, LinkedList.insertBy]
  | cons a l ih =>
      obtain ⟨hhead, htail⟩ := List.pairwise_cons.mp h
      unfold LinkedList.insertBy
      rw [List.orderedInsert_cons]
      split_ifs with hlt
      · apply List.pairwise_cons.mpr
        refine ⟨?_, h⟩
        intro b hb
        rcases List.mem_cons.mp hb with rfl | hb
        · exact hlt.le
        · exact hlt.le.trans (hhead b hb)
      · apply List.pairwise_cons.mpr
        refine ⟨?_, ih htail⟩
        intro b hb
        rcases List.mem_cons.mp (insertBy_perm.mem_iff.mp hb) with rfl | hb
        · exact not_lt.mp hlt
        · exact hhead b hb

/-- Among equal keys the inserted element is the last one. -/
theorem SortedBy.filter_insertBy (h : SortedBy key l) (k : κ) :
    (LinkedList.insertBy key t l).filter (fun a => key a = k) =
      (l ++ [t]).filter (fun a => key a = k) := by
  induction l with
  | nil => rfl
  | cons a l ih =>
      obtain ⟨hhead, htail⟩ := List.pairwise_cons.mp h
      unfold LinkedList.insertBy
      rw [List.orderedInsert_cons]
      split_ifs with hlt
      · -- every key from here on is larger than the inserted one
        have hlarger : ∀ b ∈ a :: l, key t < key b := by
          intro b hb
          rcases List.mem_cons.mp hb with rfl | hb
          · exact hlt
          · exact hlt.trans_le (hhead b hb)
        by_cases hk : key t = k
        · have hnone : (a :: l).filter (fun a => key a = k) = [] := by
            rw [List.filter_eq_nil_iff]
            intro b hb
            simpa [← hk] using (hlarger b hb).ne'
          rw [List.filter_append, hnone, List.filter_cons, hnone]
          simp [hk]
        · simp [List.filter_append, List.filter_cons, hk]
      · have hrest := ih htail
        unfold LinkedList.insertBy at hrest
        rw [List.cons_append, List.filter_cons, List.filter_cons, hrest]

/-- Insertion into a list of two parts: the second part still begins with the
same element, and has lost none. -/
theorem insertBy_append (key : α → κ) (t : α) (xs ys : List α) :
    ∃ front back, insertBy key t (xs ++ ys) = front ++ back ∧ back.head? = ys.head? ∧
      ys ⊆ back ∧ back ⊆ t :: ys := by
  induction xs with
  | nil =>
      cases ys with
      | nil => exact ⟨[t], [], rfl, rfl, fun _ h => h, List.nil_subset _⟩
      | cons y ys =>
          rw [List.nil_append]
          unfold insertBy
          rw [List.orderedInsert_cons]
          split_ifs
          · exact ⟨[t], y :: ys, rfl, rfl, fun _ h => h, List.subset_cons_self _ _⟩
          · refine ⟨[], y :: insertBy key t ys, rfl, rfl, ?_, ?_⟩
            · intro a ha
              rcases List.mem_cons.mp ha with rfl | ha
              · exact List.mem_cons_self
              · exact List.mem_cons_of_mem _ (insertBy_perm.mem_iff.mpr (List.mem_cons_of_mem _ ha))
            · intro a ha
              rcases List.mem_cons.mp ha with rfl | ha
              · simp
              · have hmem := insertBy_perm.mem_iff.mp ha
                rw [List.mem_cons] at hmem
                rw [List.mem_cons, List.mem_cons]
                tauto
  | cons x xs ih =>
      obtain ⟨front, back, hsplit, hhead, hkept, hnew⟩ := ih
      unfold insertBy at hsplit ⊢
      rw [List.cons_append, List.orderedInsert_cons]
      split_ifs
      · exact ⟨t :: x :: xs, ys, rfl, rfl, fun _ h => h, List.subset_cons_self _ _⟩
      · exact ⟨x :: front, back, by rw [hsplit, List.cons_append], hhead, hkept, hnew⟩

theorem SortedBy.congr (h : SortedBy key l) (hkey : ∀ a ∈ l, key' a = key a) :
    SortedBy key' l := by
  apply List.Pairwise.imp_of_mem ?_ h
  intro a b ha hb hab
  rw [hkey a ha, hkey b hb]
  exact hab

end Sorted

end LinkedList
