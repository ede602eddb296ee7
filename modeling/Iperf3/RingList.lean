import Iperf3.LinkedList

/-!
# Lists with a way to their end

The `prev` of the first node of such a list is its last node, and the `next`
of the last node is null.  A node is added at the end through two nodes that
are known, and any node can be taken out.
-/

namespace LinkedList

variable {α : Type*}

def Ring (links : Links α) (l : List α) : Prop :=
  Segment links l.getLast? l.head? l l.getLast? none

variable {links links' : Links α} {l xs ys : List α} {first last t : α}

theorem Ring.congr (h : Ring links l) (hnext : ∀ a ∈ l, links'.next a = links.next a)
    (hprev : ∀ a ∈ l, links'.prev a = links.prev a) : Ring links' l :=
  Segment.congr h hnext hprev

theorem Segment.chained {before after last : Option α}
    (h : Segment links before after l last none) : Chained links.next after l := by
  induction l generalizing before after with
  | nil => exact h.2
  | cons a l ih => exact ⟨h.1, ih h.2.2⟩

theorem Ring.chained (h : Ring links l) : Chained links.next l.head? l :=
  Segment.chained h

theorem Ring.prev_first (h : Ring links l) (hfirst : l.head? = some first) :
    links.prev first = l.getLast? := by
  obtain ⟨rest, rfl⟩ := List.head?_eq_some_iff.mp hfirst
  exact h.2.1

/-- What stands around a node. -/
theorem Ring.around (h : Ring links (xs ++ t :: ys)) :
    links.next t = ys.head? ∧ (xs ≠ [] → links.prev t = xs.getLast?) := by
  obtain ⟨m, p, hxs, hp, hprev, hys⟩ := segment_append.mp h
  constructor
  · cases ys with
    | nil => exact hys.2
    | cons b ys => exact hys.1
  · intro hne
    obtain ⟨l, a, rfl⟩ := (List.eq_nil_or_concat' xs).resolve_left hne
    obtain ⟨m', p', -, -, -, hlast, -⟩ := segment_append.mp hxs
    rw [hprev, ← hlast, List.getLast?_concat]

section Change

variable [DecidableEq α]

theorem ring_single (links : Links α) (t : α) :
    Ring ((links.setPrev t (some t)).setNext t none) [t] := by
  refine ⟨rfl, ?_, rfl, ?_⟩
  · simp [Links.setPrev, Links.setNext]
  · simp [Links.setNext]

/-- `t` comes behind the last node. -/
def Links.pushBack (links : Links α) (first last t : α) : Links α :=
  ((links.setNext last (some t)).setPrev t (some last)).setPrev first (some t)

theorem Ring.push_back (h : Ring links l) (hnodup : (l ++ [t]).Nodup)
    (hfirst : l.head? = some first) (hlast : l.getLast? = some last)
    (ht : links.next t = none) : Ring (links.pushBack first last t) (l ++ [t]) := by
  obtain ⟨hl, -, hapart⟩ := List.nodup_append.mp hnodup
  have hnot : ∀ a ∈ l, a ≠ t := fun a ha => hapart a ha t List.mem_cons_self
  have hfirstNe : t ≠ first := (hnot first (List.mem_of_head? hfirst)).symm
  have hlastNe : t ≠ last := (hnot last (List.mem_of_getLast? hlast)).symm
  have hnext : Segment (links.setNext last (some t)) (some last) (some first) l (some last)
      (some t) := by
    obtain ⟨front, rfl⟩ := List.getLast?_eq_some_iff.mp hlast
    rw [Ring, hfirst, hlast] at h
    exact h.redirect_next hl (some t)
  have hprev : Segment ((links.setNext last (some t)).setPrev t (some last)) (some last)
      (some first) l (some last) (some t) := by
    apply hnext.congr
    · exact fun _ _ => rfl
    · exact fun a ha => Function.update_of_ne (hnot a ha) _ _
  have hring : Segment (links.pushBack first last t) (some t) (some first) l (some last)
      (some t) := by
    obtain ⟨rest, rfl⟩ := List.head?_eq_some_iff.mp hfirst
    exact hprev.redirect_prev hl (some t)
  have hhead : (l ++ [t]).head? = some first := by
    rw [List.head?_append, hfirst]
    rfl
  rw [Ring, List.getLast?_concat, hhead]
  refine segment_append.mpr ⟨some last, some t, hring, rfl, ?_, rfl, ?_⟩
  · simp [Links.pushBack, Links.setPrev, Links.setNext, Function.update_of_ne hfirstNe]
  · simp [Links.pushBack, Links.setPrev, Links.setNext, Function.update_of_ne hlastNe, ht]

/-- `t` is skipped by the nodes around it, and by the first node if `t` is the
last one. -/
def Links.takeOut (links : Links α) (first t : α) : Links α :=
  match links.prev t with
  | none => links
  | some a =>
      let ahead := if first = t then links else links.setNext a (links.next t)
      let behind := ahead.setPrevOf (links.next t) (some a)
      if first ≠ t ∧ links.next t = none then behind.setPrev first (some a) else behind

theorem Ring.takeOut_first (h : Ring links (t :: ys)) (hnodup : (t :: ys).Nodup) :
    Ring (links.takeOut t t) ys := by
  have hnext : links.next t = ys.head? :=
    (Ring.around (show Ring links ([] ++ t :: ys) from h)).1
  obtain ⟨-, hprev, hys⟩ := h
  obtain ⟨-, hnodupYs⟩ := List.nodup_cons.mp hnodup
  rcases List.eq_nil_or_concat' ys with rfl | ⟨ys', last, rfl⟩
  · exact ⟨rfl, rfl⟩
  · have hlast : (t :: (ys' ++ [last])).getLast? = some last := by
      rw [← List.cons_append, List.getLast?_concat]
    obtain ⟨b, rest, hb⟩ := List.exists_cons_of_ne_nil (l := ys' ++ [last]) (by simp)
    have hbehind : links.takeOut t t = links.setPrev b (some last) := by
      have hm : links.prev t = some last := hprev.trans hlast
      rw [Links.takeOut, hm, hnext, hb]
      simp [Links.setPrevOf]
    rw [hbehind, Ring, List.getLast?_concat]
    rw [hlast, hnext, hb] at hys
    rw [hb] at hnodupYs ⊢
    exact hys.redirect_prev hnodupYs (some last)

/-- The nodes ahead of `t` once the last of them skips it. -/
theorem Ring.skip (h : Ring links (xs ++ [a] ++ t :: ys)) (hnodup : (xs ++ [a] ++ t :: ys).Nodup)
    (hfirst : (xs ++ [a] ++ t :: ys).head? = some first) :
    Segment (links.setNext a (links.next t)) (xs ++ [a] ++ t :: ys).getLast? (some first)
      (xs ++ [a]) (some a) (links.next t) := by
  obtain ⟨m, p, hxs, -, hprev, -⟩ := segment_append.mp h
  obtain ⟨hnodupXs, -, -⟩ := List.nodup_append.mp hnodup
  have hm : links.prev t = some a := by
    rw [(Ring.around h).2 (by simp), List.getLast?_concat]
  have hma : m = some a := hprev.symm.trans hm
  rw [hma, hfirst] at hxs
  exact hxs.redirect_next hnodupXs (links.next t)

theorem Ring.takeOut_last (h : Ring links (xs ++ [a] ++ [t])) (hnodup : (xs ++ [a] ++ [t]).Nodup)
    (hfirst : (xs ++ [a]).head? = some first) (hne : first ≠ t) :
    Ring (links.takeOut first t) (xs ++ [a]) := by
  have hm : links.prev t = some a := by
    rw [(Ring.around h).2 (by simp), List.getLast?_concat]
  have hnext : links.next t = none := (Ring.around h).1
  have hahead := h.skip hnodup ((List.head?_append_of_ne_nil _ (by simp)).trans hfirst)
  obtain ⟨hnodupXs, -, -⟩ := List.nodup_append.mp hnodup
  have hchange : links.takeOut first t =
      (links.setNext a (links.next t)).setPrev first (some a) := by
    rw [Links.takeOut, hm]
    simp [hne, hnext, Links.setPrevOf]
  rw [hchange, Ring, List.getLast?_concat, hfirst]
  rw [hnext] at hahead ⊢
  obtain ⟨rest, hrest⟩ := List.head?_eq_some_iff.mp hfirst
  rw [hrest] at hahead hnodupXs ⊢
  exact hahead.redirect_prev hnodupXs (some a)

theorem Ring.takeOut_middle (h : Ring links (xs ++ [a] ++ t :: b :: ys))
    (hnodup : (xs ++ [a] ++ t :: b :: ys).Nodup) (hfirst : (xs ++ [a]).head? = some first)
    (hne : first ≠ t) : Ring (links.takeOut first t) (xs ++ [a] ++ b :: ys) := by
  have hm : links.prev t = some a := by
    rw [(Ring.around h).2 (by simp), List.getLast?_concat]
  have hnext : links.next t = some b := (Ring.around h).1
  have hahead := h.skip hnodup ((List.head?_append_of_ne_nil _ (by simp)).trans hfirst)
  obtain ⟨m, p, -, hp, -, hys⟩ := segment_append.mp h
  obtain ⟨-, hnodupRest, hapart⟩ := List.nodup_append.mp hnodup
  obtain ⟨-, hnodupYs⟩ := List.nodup_cons.mp hnodupRest
  have hchange : links.takeOut first t =
      (links.setNext a (links.next t)).setPrev b (some a) := by
    rw [Links.takeOut, hm]
    simp [hne, hnext, Links.setPrevOf]
  have hbNot : ∀ x ∈ xs ++ [a], x ≠ b := fun x hx =>
    hapart x hx b (List.mem_cons_of_mem _ List.mem_cons_self)
  have haNot : ∀ y ∈ b :: ys, y ≠ a := fun y hy hya =>
    hapart a (by simp) y (List.mem_cons_of_mem _ hy) hya.symm
  have hfront : Segment ((links.setNext a (links.next t)).setPrev b (some a))
      (xs ++ [a] ++ t :: b :: ys).getLast? (some first) (xs ++ [a]) (some a)
      (links.next t) := by
    apply hahead.congr
    · exact fun _ _ => rfl
    · exact fun x hx => Function.update_of_ne (hbNot x hx) _ _
  have hback : Segment (links.setNext a (links.next t)) (some t) (links.next t) (b :: ys)
      (xs ++ [a] ++ t :: b :: ys).getLast? none := by
    apply hys.congr
    · exact fun y hy => Function.update_of_ne (haNot y hy) _ _
    · exact fun _ _ => rfl
  have hlast : (xs ++ [a] ++ b :: ys).getLast? = (xs ++ [a] ++ t :: b :: ys).getLast? := by
    have hend : ∀ zs, (xs ++ [a] ++ zs).getLast? = zs.getLast?.or (xs ++ [a]).getLast? :=
      fun _ => List.getLast?_append
    rw [hend, hend, List.getLast?_cons_cons]
  rw [hchange, Ring, hlast, List.head?_append_of_ne_nil _ (by simp), hfirst]
  exact segment_append.mpr
    ⟨some a, links.next t, hfront, hback.redirect_prev hnodupYs (some a)⟩

theorem Ring.takeOut (h : Ring links (xs ++ t :: ys)) (hnodup : (xs ++ t :: ys).Nodup)
    (hfirst : (xs ++ t :: ys).head? = some first) :
    Ring (links.takeOut first t) (xs ++ ys) := by
  rcases List.eq_nil_or_concat' xs with rfl | ⟨front, a, rfl⟩
  · obtain rfl : t = first := Option.some.inj hfirst
    exact h.takeOut_first hnodup
  · have hfirst' : (front ++ [a]).head? = some first := by
      rw [List.head?_append_of_ne_nil _ (by simp)] at hfirst
      exact hfirst
    have hne : first ≠ t :=
      (List.nodup_append.mp hnodup).2.2 first (List.mem_of_head? hfirst') t List.mem_cons_self
    cases ys with
    | nil =>
        rw [List.append_nil]
        exact h.takeOut_last hnodup hfirst' hne
    | cons b ys => exact h.takeOut_middle hnodup hfirst' hne

end Change

end LinkedList
