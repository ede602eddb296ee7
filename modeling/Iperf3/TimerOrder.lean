import Iperf3.TimerQueue
import Mathlib.Tactic

/-!
# The timer queue is in order

In every state that calls of the timer package reach, the active list is
doubly linked, sorted by expiry time with equal times in the order of
insertion, and apart from the free list, and its members are the live timers.
Moving a timer takes two steps: it is taken out, whatever its time is then,
and put back in its new place.
-/

namespace Iperf3

namespace TimerQueue

open LinkedList

variable {κ : Type*} {q : TimerQueue κ}

/-- The pointers of all nodes. -/
def links (q : TimerQueue κ) : Links ℕ :=
  ⟨fun t => (q.memory t).next, fun t => (q.memory t).prev⟩

/-- The expiry time of a node, as the list is ordered by it. -/
def time (q : TimerQueue κ) (t : ℕ) : ℕ ×ₗ ℕ :=
  (q.memory t).time.key

theorem expiresBefore_iff (t t2 : ℕ) : q.expiresBefore t t2 = true ↔ q.time t < q.time t2 := by
  simp [expiresBefore, time, IperfTime.compare_eq_lt_iff]

/-! ## Frames -/

/-- A node apart from its pointers. -/
def content (timer : Timer κ) : Timer κ :=
  { timer with prev := none, next := none }

/-- Only pointers of these nodes, and the head of the active list, may have
changed. -/
structure Relinked (nodes : List ℕ) (q q' : TimerQueue κ) : Prop where
  freeTimers : q'.freeTimers = q.freeTimers
  allocated : q'.allocated = q.allocated
  live : q'.live = q.live
  content : ∀ t, content (q'.memory t) = content (q.memory t)
  outside : ∀ t ∉ nodes, q'.memory t = q.memory t

section Relinked

variable {nodes : List ℕ} {q' q'' : TimerQueue κ} {t : ℕ} {target : Option ℕ}

theorem Relinked.refl (nodes : List ℕ) (q : TimerQueue κ) : Relinked nodes q q :=
  ⟨rfl, rfl, rfl, fun _ => rfl, fun _ _ => rfl⟩

theorem Relinked.setNext (h : Relinked nodes q q') (ht : t ∈ nodes) (target : Option ℕ) :
    Relinked nodes q (q'.setNext t target) := by
  refine { h with content := ?_, outside := ?_ }
  · intro u
    by_cases hut : u = t
    · subst hut
      simpa [TimerQueue.setNext, write, TimerQueue.content] using h.content u
    · simpa [TimerQueue.setNext, write, Function.update_of_ne hut] using h.content u
  · intro u hu
    have hut : u ≠ t := fun heq => hu (heq ▸ ht)
    simpa [TimerQueue.setNext, write, Function.update_of_ne hut] using h.outside u hu

theorem Relinked.setPrev (h : Relinked nodes q q') (ht : t ∈ nodes) (target : Option ℕ) :
    Relinked nodes q (q'.setPrev t target) := by
  refine { h with content := ?_, outside := ?_ }
  · intro u
    by_cases hut : u = t
    · subst hut
      simpa [TimerQueue.setPrev, write, TimerQueue.content] using h.content u
    · simpa [TimerQueue.setPrev, write, Function.update_of_ne hut] using h.content u
  · intro u hu
    have hut : u ≠ t := fun heq => hu (heq ▸ ht)
    simpa [TimerQueue.setPrev, write, Function.update_of_ne hut] using h.outside u hu

theorem Relinked.withTimers (h : Relinked nodes q q') (timers : Option ℕ) :
    Relinked nodes q { q' with timers := timers } :=
  { h with }

theorem Relinked.time_eq (h : Relinked nodes q q') (t : ℕ) : q'.time t = q.time t := by
  have htime := congrArg Timer.time (h.content t)
  exact congrArg IperfTime.key htime

end Relinked

@[simp] theorem links_setNext (t : ℕ) (target : Option ℕ) :
    (q.setNext t target).links = q.links.setNext t target := by
  unfold links Links.setNext setNext write
  congr 1
  · funext u
    by_cases hut : u = t
    · subst hut
      simp
    · simp [Function.update_of_ne hut]
  · funext u
    by_cases hut : u = t
    · subst hut
      simp
    · simp [Function.update_of_ne hut]

@[simp] theorem links_setPrev (t : ℕ) (target : Option ℕ) :
    (q.setPrev t target).links = q.links.setPrev t target := by
  unfold links Links.setPrev setPrev write
  congr 1
  · funext u
    by_cases hut : u = t
    · subst hut
      simp
    · simp [Function.update_of_ne hut]
  · funext u
    by_cases hut : u = t
    · subst hut
      simp
    · simp [Function.update_of_ne hut]

/-! ## Insertion and removal -/

section List

variable {t : ℕ} {l : List ℕ}

theorem mem_of_linked_head (h : Linked q.links q.timers l) {head : ℕ}
    (hhead : q.timers = some head) : ∃ rest, l = head :: rest := by
  obtain ⟨last, hsegment⟩ := h
  rcases hsegment.first_cases with ⟨-, hnone⟩ | ⟨a, rest, rfl, hsome⟩
  · rw [hhead] at hnone
    cases hnone
  · rw [hhead] at hsome
    cases hsome
    exact ⟨rest, rfl⟩

theorem next_cases {xs ys : List ℕ} {a : ℕ} {head : Option ℕ}
    (h : Linked q.links head (xs ++ a :: ys)) :
    (ys = [] ∧ (q.memory a).next = none) ∨
      ∃ b rest, ys = b :: rest ∧ (q.memory a).next = some b := by
  obtain ⟨last, hsegment⟩ := h
  obtain ⟨m, p, -, -, -, hys⟩ := segment_append.mp hsegment
  exact hys.first_cases

/-- The walk starts behind `a` and puts `t` in its place. -/
theorem walk_spec {bound : ℕ} {xs ys : List ℕ} {a : ℕ}
    (h : Linked q.links q.timers (xs ++ a :: ys)) (hnodup : (xs ++ a :: ys).Nodup)
    (ht : t ∉ xs ++ a :: ys) (hbound : ys.length < bound) :
    Linked (q.walk t bound a (q.memory a).next).links q.timers
        (xs ++ a :: insertBy q.time t ys) ∧
      (q.walk t bound a (q.memory a).next).timers = q.timers ∧
      Relinked (t :: (xs ++ a :: ys)) q (q.walk t bound a (q.memory a).next) := by
  induction ys generalizing xs a bound with
  | nil =>
      obtain ⟨bound, rfl⟩ := Nat.exists_eq_succ_of_ne_zero (Nat.ne_zero_of_lt hbound)
      have hnext : (q.memory a).next = none := by
        rcases next_cases h with ⟨-, hnext⟩ | ⟨b, rest, hrest, -⟩
        · exact hnext
        · cases hrest
      have hlinked := h.insert_after hnodup ht
      have hlinks : q.links.next a = none := hnext
      rw [hnext]
      refine ⟨?_, rfl, ?_⟩
      · simpa [walk, insertBy, Links.insertAfter, Links.setPrevOf, hlinks] using hlinked
      · exact (((Relinked.refl _ q).setNext (by simp) _).setPrev (by simp) _).setNext (by simp) _
  | cons b ys ih =>
      obtain ⟨bound, rfl⟩ := Nat.exists_eq_succ_of_ne_zero (Nat.ne_zero_of_lt hbound)
      have hnext : (q.memory a).next = some b := by
        rcases next_cases h with ⟨hnil, -⟩ | ⟨c, rest, hrest, hnext⟩
        · cases hnil
        · cases hrest
          exact hnext
      have hlinks : q.links.next a = some b := hnext
      rw [hnext]
      unfold walk insertBy
      rw [List.orderedInsert_cons]
      by_cases hlt : q.time t < q.time b
      · rw [if_pos ((expiresBefore_iff t b).mpr hlt), if_pos hlt]
        have hlinked := h.insert_after hnodup ht
        refine ⟨?_, rfl, ?_⟩
        · simpa [Links.insertAfter, Links.setPrevOf, hlinks] using hlinked
        · exact ((((Relinked.refl _ q).setNext (by simp) _).setPrev (by simp) _).setNext
            (by simp) _).setPrev (by simp) _
      · rw [if_neg (mt (expiresBefore_iff t b).mp hlt), if_neg hlt]
        have hassoc : xs ++ a :: b :: ys = (xs ++ [a]) ++ b :: ys := by simp
        rw [hassoc] at h hnodup ht
        have hrest := ih h hnodup ht (by simpa using hbound)
        simpa [insertBy] using hrest

theorem listAdd_spec
    (h : Linked q.links q.timers l) (hnodup : l.Nodup) (ht : t ∉ l)
    (hbound : l.length ≤ q.allocated.length) :
    Linked (q.listAdd t).links (q.listAdd t).timers (insertBy q.time t l) ∧
      Relinked (t :: l) q (q.listAdd t) := by
  unfold listAdd
  cases htimers : q.timers with
  | none =>
      have hnil : l = [] := by
        obtain ⟨last, hsegment⟩ := h
        rcases hsegment.first_cases with ⟨hnil, -⟩ | ⟨a, rest, -, hsome⟩
        · exact hnil
        · rw [htimers] at hsome
          cases hsome
      subst hnil
      have hpushed := h.push_front ht hnodup
      rw [htimers] at hpushed
      have hlinked : Linked ((q.setPrev t none).setNext t none).links (some t)
          (insertBy q.time t []) := by
        simpa [Links.setPrevOf, insertBy] using hpushed
      constructor
      · exact hlinked
      · exact (((Relinked.refl _ q).setPrev (by simp) _).setNext (by simp) _).withTimers _
  | some head =>
      obtain ⟨rest, rfl⟩ := mem_of_linked_head h htimers
      dsimp only
      by_cases hlt : q.time t < q.time head
      · rw [if_pos ((expiresBefore_iff t head).mpr hlt)]
        have hpushed := h.push_front ht hnodup
        rw [htimers] at hpushed
        have hlinked : Linked
            (((q.setPrev t none).setNext t (some head)).setPrev head (some t)).links (some t)
            (insertBy q.time t (head :: rest)) := by
          simpa [Links.setPrevOf, insertBy, List.orderedInsert_cons, hlt] using hpushed
        constructor
        · exact hlinked
        · exact ((((Relinked.refl _ q).setPrev (by simp) _).setNext (by simp) _).setPrev
            (by simp) _).withTimers _
      · rw [if_neg (mt (expiresBefore_iff t head).mp hlt)]
        have hfront : Linked q.links q.timers ([] ++ head :: rest) := h
        obtain ⟨hlinked, hhead, hframe⟩ :=
          walk_spec hfront hnodup ht (by simpa using hbound)
        constructor
        · rw [hhead]
          simpa [insertBy, List.orderedInsert_cons, hlt] using hlinked
        · exact hframe

theorem listRemove_spec
    (h : Linked q.links q.timers l) (hnodup : l.Nodup) (ht : t ∈ l) :
    Linked (q.listRemove t).links (q.listRemove t).timers (l.erase t) ∧
      Relinked l q (q.listRemove t) := by
  obtain ⟨xs, ys, rfl⟩ := List.append_of_mem ht
  have hxs : t ∉ xs := by
    intro hx
    exact (List.nodup_append.mp hnodup).2.2 t hx t (by simp) rfl
  have herase : (xs ++ t :: ys).erase t = xs ++ ys := by
    rw [List.erase_append_right _ hxs, List.erase_cons_head]
  have hunlinked := h.unlink hnodup
  have hheap : (q.listRemove t).links = (q.links.unlink q.timers t).1 ∧
      (q.listRemove t).timers = (q.links.unlink q.timers t).2 := by
    unfold listRemove Links.unlink
    have hprev : q.links.prev t = (q.memory t).prev := rfl
    have hnext : q.links.next t = (q.memory t).next := rfl
    rw [hprev, hnext]
    cases (q.memory t).prev <;> cases (q.memory t).next <;>
      simp [Links.setPrevOf] <;> constructor <;> rfl
  rw [herase, hheap.1, hheap.2]
  refine ⟨hunlinked, ?_⟩
  -- the two pointers that change belong to the neighbours
  have hbehind := next_cases h
  have hfront : (q.memory t).prev = none ∨ ∃ a ∈ xs, (q.memory t).prev = some a := by
    obtain ⟨last, hsegment⟩ := h
    obtain ⟨m, p, hsegmentXs, -, hprev, -⟩ := segment_append.mp hsegment
    rcases hsegmentXs.last_cases with ⟨-, rfl⟩ | ⟨front, a, rfl, rfl⟩
    · exact Or.inl hprev
    · exact Or.inr ⟨a, by simp, hprev⟩
  unfold listRemove
  rcases hfront with hprev | ⟨a, ha, hprev⟩
  · rcases hbehind with ⟨-, hnext⟩ | ⟨b, rest, rfl, hnext⟩
    · simp only [hprev, hnext]
      exact (Relinked.refl _ q).withTimers _
    · simp only [hprev, hnext]
      exact ((Relinked.refl _ q).withTimers _).setPrev (by simp) _
  · rcases hbehind with ⟨-, hnext⟩ | ⟨b, rest, rfl, hnext⟩
    · simp only [hprev, hnext]
      exact (Relinked.refl _ q).setNext (by simp [ha]) _
    · simp only [hprev, hnext]
      exact ((Relinked.refl _ q).setNext (by simp [ha]) _).setPrev (by simp) _

end List

/-! ## The invariant -/

/-- The two lists, and how they stand to the live timers. -/
structure Represents (q : TimerQueue κ) (live active free : List ℕ) : Prop where
  linked : Linked q.links q.timers active
  sorted : SortedBy q.time active
  inserted : ∀ time, active.filter (fun t => q.time t = time) =
    live.filter (fun t => q.time t = time)
  chained : Chained q.links.next q.freeTimers free
  nodup : (active ++ free).Nodup
  members : active.Perm live
  allocated : (active ++ free).Perm q.allocated

/-- One timer is on neither list; the rest is in order. -/
structure Detached (q : TimerQueue κ) (t : ℕ) (live active free : List ℕ) : Prop where
  linked : Linked q.links q.timers active
  sorted : SortedBy q.time active
  inserted : ∀ time, active.filter (fun t => q.time t = time) =
    live.filter (fun t => q.time t = time)
  chained : Chained q.links.next q.freeTimers free
  nodup : (t :: active ++ free).Nodup
  members : active.Perm live
  allocated : (t :: active ++ free).Perm q.allocated

section Moves

variable {t : ℕ} {live active free : List ℕ}

theorem Represents.live_nodup (h : Represents q live active free) : live.Nodup :=
  h.members.nodup_iff.mp (List.nodup_append.mp h.nodup).1

theorem filter_erase_of_nodup {l : List ℕ} (hnodup : l.Nodup) (p : ℕ → Bool) :
    (l.erase t).filter p = (l.filter p).erase t := by
  rw [hnodup.erase_eq_filter, (hnodup.filter p).erase_eq_filter, List.filter_filter,
    List.filter_filter]
  congr 1
  funext a
  exact Bool.and_comm _ _

/-- Taking a live timer out.  Its own time does not matter any more, so it may
have been changed before. -/
theorem Represents.listRemove
    (h : Represents q live active free) (ht : t ∈ live) (time : IperfTime) :
    Detached ((q.setTime t time).listRemove t) t (live.erase t) (active.erase t) free := by
  have hnodup := (List.nodup_append.mp h.nodup).1
  have hactive : t ∈ active := h.members.mem_iff.mpr ht
  have hother : ∀ a ∈ active.erase t, (q.setTime t time).memory a = q.memory a := by
    intro a ha
    have hne : a ≠ t := (hnodup.mem_erase_iff.mp ha).1
    simp [setTime, write, Function.update_of_ne hne]
  have hlinks : (q.setTime t time).links = q.links := by
    unfold links setTime write
    congr 1 <;> funext a <;> by_cases hat : a = t <;>
      first | (subst hat; simp) | simp [Function.update_of_ne hat]
  have hlinked : Linked (q.setTime t time).links (q.setTime t time).timers active := by
    rw [hlinks]
    exact h.linked
  obtain ⟨hremoved, hframe⟩ := listRemove_spec hlinked hnodup hactive
  have htimes : ∀ a ∈ active.erase t, ((q.setTime t time).listRemove t).time a = q.time a := by
    intro a ha
    rw [hframe.time_eq]
    unfold TimerQueue.time
    rw [hother a ha]
  have hfilter : ∀ k, (active.erase t).filter (fun a => q.time a = k) =
      (live.erase t).filter (fun a => q.time a = k) := by
    intro k
    rw [filter_erase_of_nodup hnodup, filter_erase_of_nodup h.live_nodup, h.inserted k]
  have hmembers : (active.erase t).Perm (live.erase t) := h.members.erase t
  have hperm : (t :: active.erase t ++ free).Perm (active ++ free) :=
    (List.perm_cons_erase hactive).symm.append_right free
  constructor
  · exact hremoved
  · exact SortedBy.congr (h.sorted.sublist List.erase_sublist) htimes
  · intro k
    have hleft : (active.erase t).filter
        (fun a => ((q.setTime t time).listRemove t).time a = k) =
        (active.erase t).filter (fun a => q.time a = k) :=
      List.filter_congr fun a ha => by rw [htimes a ha]
    have hright : (live.erase t).filter
        (fun a => ((q.setTime t time).listRemove t).time a = k) =
        (live.erase t).filter (fun a => q.time a = k) :=
      List.filter_congr fun a ha => by rw [htimes a (hmembers.mem_iff.mpr ha)]
    rw [hleft, hright, hfilter k]
  · rw [hframe.freeTimers]
    apply h.chained.congr
    intro a ha
    have hne : a ∉ active := fun hact => (List.nodup_append.mp h.nodup).2.2 a hact a ha rfl
    have hnext := congrArg Timer.next (hframe.outside a hne)
    rw [← hlinks]
    exact hnext
  · exact hperm.nodup_iff.mpr h.nodup
  · exact hmembers
  · rw [hframe.allocated]
    exact hperm.trans h.allocated

theorem Detached.listAdd (h : Detached q t live active free) :
    Represents (q.listAdd t) (live ++ [t]) (insertBy q.time t active) free := by
  have hcons := List.nodup_cons.mp (show (t :: (active ++ free)).Nodup from h.nodup)
  have hnodup := (List.nodup_append.mp hcons.2).1
  have ht : t ∉ active := fun hact => hcons.1 (List.mem_append_left free hact)
  have hbound : active.length ≤ q.allocated.length := by
    have hlength := h.allocated.length_eq
    simp only [List.length_append, List.length_cons] at hlength
    omega
  obtain ⟨hadded, hframe⟩ := listAdd_spec h.linked hnodup ht hbound
  have htime : (q.listAdd t).time = q.time := funext hframe.time_eq
  have hperm : (insertBy q.time t active ++ free).Perm (t :: active ++ free) :=
    insertBy_perm.append_right free
  constructor
  · exact hadded
  · rw [htime]
    exact h.sorted.insertBy
  · intro k
    rw [htime, h.sorted.filter_insertBy, List.filter_append, List.filter_append, h.inserted k]
  · rw [hframe.freeTimers]
    apply h.chained.congr
    intro a ha
    have hne : a ∉ t :: active := by
      intro hmem
      rcases List.mem_cons.mp hmem with rfl | hact
      · exact hcons.1 (List.mem_append_right active ha)
      · exact (List.nodup_append.mp hcons.2).2.2 a hact a ha rfl
    exact congrArg Timer.next (hframe.outside a hne)
  · exact hperm.nodup_iff.mpr h.nodup
  · exact insertBy_perm.trans ((h.members.cons t).trans (List.perm_append_singleton t live).symm)
  · rw [hframe.allocated]
    exact hperm.trans h.allocated

theorem Detached.write (h : Detached q t live active free) (timer : Timer κ) :
    Detached (q.write t timer) t live active free := by
  have hcons := List.nodup_cons.mp (show (t :: (active ++ free)).Nodup from h.nodup)
  have hsame : ∀ a, a ≠ t → (q.write t timer).memory a = q.memory a := by
    intro a ha
    simp [TimerQueue.write, Function.update_of_ne ha]
  have hactive : ∀ a ∈ active, a ≠ t := by
    rintro a ha rfl
    exact hcons.1 (List.mem_append_left free ha)
  have htimes : ∀ a ∈ active, (q.write t timer).time a = q.time a := by
    intro a ha
    unfold TimerQueue.time
    rw [hsame a (hactive a ha)]
  obtain ⟨last, hsegment⟩ := h.linked
  constructor
  · refine ⟨last, hsegment.congr ?_ ?_⟩
    · intro a ha
      exact congrArg Timer.next (hsame a (hactive a ha))
    · intro a ha
      exact congrArg Timer.prev (hsame a (hactive a ha))
  · exact h.sorted.congr htimes
  · intro k
    have hleft : active.filter (fun a => (q.write t timer).time a = k) =
        active.filter (fun a => q.time a = k) :=
      List.filter_congr fun a ha => by rw [htimes a ha]
    have hright : live.filter (fun a => (q.write t timer).time a = k) =
        live.filter (fun a => q.time a = k) :=
      List.filter_congr fun a ha => by rw [htimes a (h.members.mem_iff.mpr ha)]
    rw [hleft, hright, h.inserted k]
  · apply h.chained.congr
    intro a ha
    have hne : a ≠ t := by
      rintro rfl
      exact hcons.1 (List.mem_append_right active ha)
    exact congrArg Timer.next (hsame a hne)
  · exact h.nodup
  · exact h.members
  · exact h.allocated

theorem Detached.release (h : Detached q t live active free) :
    Represents
      { ((q.setNext t q.freeTimers).setPrev t none) with freeTimers := some t }
      live active (t :: free) := by
  have hwritten := (h.write { q.memory t with next := q.freeTimers }).write
    { (q.setNext t q.freeTimers).memory t with prev := none }
  have hperm : (active ++ t :: free).Perm (t :: active ++ free) := List.perm_middle
  refine { hwritten with chained := ?_, nodup := ?_, allocated := ?_ }
  · refine ⟨rfl, ?_⟩
    have hnext : ((q.setNext t q.freeTimers).setPrev t none).links.next t = q.freeTimers := by
      simp [links, TimerQueue.setNext, TimerQueue.setPrev, TimerQueue.write]
    have hchained := hwritten.chained
    show Chained ((q.setNext t q.freeTimers).setPrev t none).links.next
      (((q.setNext t q.freeTimers).setPrev t none).links.next t) free
    rw [hnext]
    exact hchained
  · exact hperm.nodup_iff.mpr h.nodup
  · exact hperm.trans h.allocated

/-! ### The functions of the package -/

theorem Represents.move
    (h : Represents q live active free) (ht : t ∈ live) (time : IperfTime) :
    ∃ active', Represents ((q.setTime t time).listResort t) (live.erase t ++ [t]) active' free :=
  ⟨_, (h.listRemove ht time).listAdd⟩

theorem setTime_self (t : ℕ) : q.setTime t (q.memory t).time = q := by
  simp [setTime, TimerQueue.write]

theorem Represents.cancel (h : Represents q live active free) (ht : t ∈ live) :
    Represents (q.tmrCancel t) (live.erase t) (active.erase t) (t :: free) := by
  have hdetached := h.listRemove ht (q.memory t).time
  rw [setTime_self] at hdetached
  exact { hdetached.release with }

theorem Represents.takeNode
    (h : Represents q live active free) {memory : Option ℕ} {q' : TimerQueue κ}
    (htaken : q.takeNode memory = (q', some t)) :
    ∃ free', Detached q' t live active free' := by
  unfold TimerQueue.takeNode at htaken
  split at htaken
  · rename_i node hfree
    cases htaken
    cases free with
    | nil =>
        have hnone : q.freeTimers = none := h.chained
        rw [hfree] at hnone
        cases hnone
    | cons a rest =>
        have hhead : some t = some a := hfree.symm.trans h.chained.1
        cases hhead
        have hperm : (t :: active ++ rest).Perm (active ++ t :: rest) := List.perm_middle.symm
        exact ⟨rest, { h with
          chained := h.chained.2
          nodup := hperm.nodup_iff.mpr h.nodup
          allocated := hperm.trans h.allocated }⟩
  · rename_i node hfree
    split_ifs at htaken with hallocated
    · cases htaken
    · cases htaken
      have hnew : t ∉ active ++ free := fun hmem => hallocated (h.allocated.mem_iff.mp hmem)
      exact ⟨free, { h with
        nodup := List.nodup_cons.mpr ⟨hnew, h.nodup⟩
        allocated := h.allocated.cons t }⟩
  · cases htaken

end Moves

/-- The invariant of the package. -/
def InOrder (q : TimerQueue κ) : Prop :=
  ∃ active free, Represents q q.live active free

theorem inOrder_initial (memory : ℕ → Timer κ) : (initial memory).InOrder := by
  refine ⟨[], [], ⟨none, rfl, rfl⟩, List.Pairwise.nil, fun _ => rfl, rfl, ?_, ?_, ?_⟩
  · exact List.nodup_nil
  · exact List.Perm.nil
  · exact List.Perm.nil

section Calls

variable {t : ℕ}

theorem listRemove_live (q : TimerQueue κ) (t : ℕ) : (q.listRemove t).live = q.live := by
  unfold listRemove
  cases (q.memory t).prev <;> cases (q.memory t).next <;> rfl

theorem takeNode_live {memory : Option ℕ} {q' : TimerQueue κ} {node : Option ℕ}
    (h : q.takeNode memory = (q', node)) : q'.live = q.live := by
  unfold takeNode at h
  split at h
  · cases h
    rfl
  · split_ifs at h <;> cases h <;> rfl
  · cases h
    rfl

theorem InOrder.tmrCreate (h : q.InOrder) (now : IperfTime) (timerProc : κ) (usecs : ℤ)
    (periodic : Bool) (memory : Option ℕ) :
    (q.tmrCreate now timerProc usecs periodic memory).1.InOrder := by
  obtain ⟨active, free, hrep⟩ := h
  unfold TimerQueue.tmrCreate
  split
  · rename_i q' htaken
    unfold takeNode at htaken
    split at htaken
    · cases htaken
    · split_ifs at htaken
      · cases htaken
        exact ⟨active, free, hrep⟩
      · cases htaken
    · cases htaken
      exact ⟨active, free, hrep⟩
  · rename_i q' t htaken
    obtain ⟨free', hdetached⟩ := hrep.takeNode htaken
    have hadded := (hdetached.write
      { q'.memory t with
        timerProc := timerProc
        usecs := usecs
        periodic := periodic
        time := schedule now usecs }).listAdd
    have hlive := takeNode_live htaken
    rw [← hlive] at hadded
    exact ⟨_, free', { hadded with }⟩

theorem InOrder.tmrReset (h : q.InOrder) (ht : t ∈ q.live) (now : IperfTime) :
    (q.tmrReset now t).InOrder := by
  obtain ⟨active, free, hrep⟩ := h
  obtain ⟨active', hmoved⟩ := hrep.move ht (schedule now (q.memory t).usecs)
  exact ⟨active', free, { hmoved with }⟩

theorem InOrder.reschedule (h : q.InOrder) (ht : t ∈ q.live) : (q.reschedule t).InOrder := by
  obtain ⟨active, free, hrep⟩ := h
  obtain ⟨active', hmoved⟩ := hrep.move ht (schedule (q.memory t).time (q.memory t).usecs)
  exact ⟨active', free, { hmoved with }⟩

theorem tmrCancel_live (q : TimerQueue κ) (t : ℕ) : (q.tmrCancel t).live = q.live.erase t := by
  show (q.listRemove t).live.erase t = q.live.erase t
  rw [listRemove_live]

theorem InOrder.tmrCancel (h : q.InOrder) (ht : t ∈ q.live) : (q.tmrCancel t).InOrder := by
  obtain ⟨active, free, hrep⟩ := h
  refine ⟨active.erase t, t :: free, ?_⟩
  rw [tmrCancel_live]
  exact hrep.cancel ht

theorem callback_spec (resets : List (IperfTime × ℕ)) (h : q.InOrder) :
    (q.callback resets).InOrder ∧ (q.callback resets).live.Perm q.live := by
  induction resets generalizing q with
  | nil => exact ⟨h, List.Perm.refl _⟩
  | cons reset resets ih =>
      obtain ⟨now, u⟩ := reset
      show (TimerQueue.callback resets (if u ∈ q.live then q.tmrReset now u else q)).InOrder ∧ _
      by_cases hu : u ∈ q.live
      · obtain ⟨hordered, hlive⟩ := ih (h.tmrReset hu now)
        have hperm : (q.live.erase u ++ [u]).Perm q.live :=
          (List.perm_append_singleton u _).trans (List.perm_cons_erase hu).symm
        have hsame : q.callback ((now, u) :: resets) = (q.tmrReset now u).callback resets := by
          simp [callback, hu]
        rw [if_pos hu, hsame]
        exact ⟨hordered, hlive.trans hperm⟩
      · have hsame : q.callback ((now, u) :: resets) = q.callback resets := by
          simp [callback, hu]
        rw [if_neg hu, hsame]
        exact ih h

/-- An expired timer is moved or cancelled, and every other one stays. -/
theorem fire_spec (h : q.InOrder) (ht : t ∈ q.live) (resets : List (IperfTime × ℕ)) :
    (q.fire t resets).InOrder ∧ ∀ u ∈ q.live, u ≠ t → u ∈ (q.fire t resets).live := by
  obtain ⟨hordered, hlive⟩ := callback_spec resets h
  have hmem : t ∈ (q.callback resets).live := hlive.mem_iff.mpr ht
  unfold fire
  dsimp only
  split_ifs with hperiodic
  · refine ⟨hordered.reschedule hmem, ?_⟩
    intro u hu hut
    have hstays : u ∈ (q.callback resets).live.erase t :=
      (List.mem_erase_of_ne hut).mpr (hlive.mem_iff.mpr hu)
    exact List.mem_append_left [t] hstays
  · refine ⟨hordered.tmrCancel hmem, ?_⟩
    intro u hu hut
    rw [tmrCancel_live]
    exact (List.mem_erase_of_ne hut).mpr (hlive.mem_iff.mpr hu)

theorem InOrder.next_live (h : q.InOrder) (ht : t ∈ q.live) {u : ℕ}
    (hnext : (q.memory t).next = some u) : u ∈ q.live ∧ u ≠ t := by
  obtain ⟨active, free, hrep⟩ := h
  have hactive : t ∈ active := hrep.members.mem_iff.mpr ht
  obtain ⟨xs, ys, rfl⟩ := List.append_of_mem hactive
  rcases next_cases hrep.linked with ⟨-, hnone⟩ | ⟨b, rest, rfl, hsome⟩
  · rw [hnext] at hnone
    cases hnone
  · rw [hnext] at hsome
    cases hsome
    have hnodup := (List.nodup_append.mp (List.nodup_append.mp hrep.nodup).1).2.1
    constructor
    · exact hrep.members.mem_iff.mp (by simp)
    · rintro rfl
      exact (List.nodup_cons.mp hnodup).1 (by simp)

/-- The saved pointer stays on the list while the current timer is handled. -/
theorem InOrder.runLoop
    (now : IperfTime) (callbacks : List (List (IperfTime × ℕ))) {current : Option ℕ}
    (h : q.InOrder) (hcurrent : ∀ t, current = some t → t ∈ q.live) :
    (q.runLoop now callbacks current).InOrder := by
  induction callbacks generalizing q current with
  | nil =>
      unfold TimerQueue.runLoop
      exact h
  | cons resets callbacks ih =>
      cases current with
      | none =>
          unfold TimerQueue.runLoop
          exact h
      | some t =>
          have ht := hcurrent t rfl
          unfold TimerQueue.runLoop
          split_ifs
          · exact h
          · obtain ⟨hordered, hstay⟩ := fire_spec h ht resets
            apply ih hordered
            intro u hu
            obtain ⟨hlive, hne⟩ := h.next_live ht hu
            exact hstay u hlive hne

theorem InOrder.head_live (h : q.InOrder) (t : ℕ) (ht : q.timers = some t) : t ∈ q.live := by
  obtain ⟨active, free, hrep⟩ := h
  obtain ⟨rest, rfl⟩ := mem_of_linked_head hrep.linked ht
  exact hrep.members.mem_iff.mp (by simp)

theorem Represents.freeLoop {bound : ℕ} {live active free : List ℕ}
    (h : Represents q live active free) (hbound : free.length ≤ bound) :
    Represents (q.freeLoop bound) live active [] := by
  induction free generalizing q bound with
  | nil =>
      have hnone : q.freeTimers = none := h.chained
      cases bound with
      | zero => exact h
      | succ bound =>
          unfold TimerQueue.freeLoop
          rw [hnone]
          exact h
  | cons t free ih =>
      obtain ⟨bound, rfl⟩ := Nat.exists_eq_succ_of_ne_zero
        (Nat.ne_zero_of_lt (Nat.lt_of_lt_of_le (Nat.succ_pos _) hbound))
      obtain ⟨hhead, hchained⟩ := h.chained
      unfold TimerQueue.freeLoop
      rw [hhead]
      have hperm : (t :: (active ++ free)).Perm (active ++ t :: free) := List.perm_middle.symm
      apply ih
      · exact { h with
          chained := hchained
          nodup := (List.nodup_cons.mp (hperm.nodup_iff.mpr h.nodup)).2
          allocated := by
            have herased := (hperm.trans h.allocated).erase t
            simpa using herased }
      · simpa using hbound

theorem freeLoop_live (bound : ℕ) (q : TimerQueue κ) : (q.freeLoop bound).live = q.live := by
  induction bound generalizing q with
  | zero => rfl
  | succ bound ih =>
      unfold freeLoop
      split
      · rfl
      · exact ih _

theorem InOrder.tmrCleanup (h : q.InOrder) : q.tmrCleanup.InOrder := by
  obtain ⟨active, free, hrep⟩ := h
  have hbound : free.length ≤ q.allocated.length := by
    have hlength := hrep.allocated.length_eq
    simp only [List.length_append] at hlength
    omega
  have hfreed := hrep.freeLoop hbound
  refine ⟨active, [], ?_⟩
  unfold TimerQueue.tmrCleanup
  rw [freeLoop_live]
  exact hfreed

theorem InOrder.cancelLoop (h : q.InOrder) (bound : ℕ) : (q.cancelLoop bound).InOrder := by
  induction bound generalizing q with
  | zero => exact h
  | succ bound ih =>
      unfold TimerQueue.cancelLoop
      split
      · exact h
      · rename_i t ht
        exact ih (h.tmrCancel (h.head_live t ht))

theorem InOrder.call (h : q.InOrder) (call : Call κ) : (q.call call).InOrder := by
  cases call with
  | create now timerProc usecs periodic memory =>
      exact h.tmrCreate now timerProc usecs periodic memory
  | reset now t =>
      show (if t ∈ q.live then q.tmrReset now t else q).InOrder
      split_ifs with ht
      · exact h.tmrReset ht now
      · exact h
  | cancel t =>
      show (if t ∈ q.live then q.tmrCancel t else q).InOrder
      split_ifs with ht
      · exact h.tmrCancel ht
      · exact h
  | run now callbacks => exact InOrder.runLoop now callbacks h h.head_live
  | cleanup => exact h.tmrCleanup
  | destroy => exact (h.cancelLoop _).tmrCleanup

end Calls

/-- After any calls the active list is doubly linked, sorted, in the order of
insertion among equal times, apart from the free list, and made of the live
timers, each once. -/
theorem timers_in_order (memory : ℕ → Timer κ) (calls : List (Call κ)) :
    InOrder (calls.foldl TimerQueue.call (initial memory)) := by
  have hrun : ∀ q : TimerQueue κ, q.InOrder → InOrder (calls.foldl TimerQueue.call q) := by
    induction calls with
    | nil => exact fun q h => h
    | cons call calls ih => exact fun q h => ih (q.call call) (h.call call)
  exact hrun _ (inOrder_initial memory)

end TimerQueue

end Iperf3
