import Mathlib.Tactic

/-!
# Cyclic buffers

Slots are overwritten in a circle, each store at the slot behind the last
one.  Read from the slot behind the last store on, the slots are a queue of
fixed length: a store drops the oldest element and appends the new one.
-/

namespace CyclicBuffer

variable {α : Type*} {size index : ℕ} {slots : List α}

/-- The slot behind `index` in a circle of `size` slots. -/
def advance (size index : ℕ) : ℕ :=
  if size ≤ index + 1 then 0 else index + 1

/-- The elements from the oldest to the one stored last, at `index`. -/
def window (index : ℕ) (slots : List α) : List α :=
  slots.rotate (index + 1)

theorem advance_lt (hindex : index < size) : advance size index < size := by
  unfold advance
  split_ifs <;> omega

theorem window_perm (index : ℕ) (slots : List α) : (window index slots).Perm slots :=
  List.rotate_perm slots (index + 1)

@[simp] theorem length_window (index : ℕ) (slots : List α) :
    (window index slots).length = slots.length :=
  List.length_rotate slots (index + 1)

theorem rotate_set {i : ℕ} (hi : i < slots.length) (a : α) :
    (slots.set i a).rotate (i + 1) = (slots.rotate i).tail ++ [a] := by
  obtain ⟨xs, old, ys, rfl, hlength⟩ : ∃ xs old ys, slots = xs ++ old :: ys ∧ xs.length = i := by
    refine ⟨slots.take i, slots[i], slots.drop (i + 1), ?_, by simp [hi.le]⟩
    rw [← List.drop_eq_getElem_cons hi, List.take_append_drop]
  have hset : (xs ++ old :: ys).set i a = (xs ++ [a]) ++ ys := by
    rw [List.set_append_right _ _ hlength.le, hlength, Nat.sub_self, List.set_cons_zero,
      List.append_assoc, List.singleton_append]
  have hnew : i + 1 = (xs ++ [a]).length := by simp [hlength]
  rw [hset, hnew, List.rotate_append_length_eq, ← hlength, List.rotate_append_length_eq,
    List.cons_append, List.tail_cons, List.append_assoc]

theorem window_store (hslots : slots.length = size) (hindex : index < size) (a : α) :
    window (advance size index) (slots.set (advance size index) a) =
      (window index slots).tail ++ [a] := by
  have hlt : advance size index < slots.length := by
    rw [hslots]
    exact advance_lt hindex
  unfold window
  rw [rotate_set hlt]
  congr 2
  unfold advance
  split_ifs with hwrap
  · have hlast : index + 1 = slots.length := by omega
    rw [hlast, List.rotate_length, List.rotate_zero]
  · rfl

/-! ## Elements that have gone through the window -/

/-- The last `size` of the elements in front of place `m`. -/
def lastBefore (size m : ℕ) (stored : List α) : List α :=
  (stored.take m).drop (m - size)

theorem drop_append_singleton {old stored : List α} (hold : old ≠ []) (a : α) :
    ((old ++ stored).drop stored.length).tail ++ [a] =
      (old ++ (stored ++ [a])).drop (stored ++ [a]).length := by
  have hpos := List.length_pos_of_ne_nil hold
  have hle : stored.length + 1 ≤ (old ++ stored).length := by
    rw [List.length_append]
    omega
  rw [List.tail_drop, List.length_append, List.length_singleton, ← List.append_assoc,
    List.drop_append_of_le_length hle]

theorem drop_append_of_full {old stored : List α} (hfull : old.length ≤ stored.length) :
    (old ++ stored).drop stored.length = lastBefore old.length stored.length stored := by
  unfold lastBefore
  rw [List.take_length, List.drop_append, List.drop_eq_nil_of_le hfull, List.nil_append]

theorem lastBefore_append {m : ℕ} {stored : List α} (hm : m ≤ stored.length) (later : List α) :
    lastBefore size m (stored ++ later) = lastBefore size m stored := by
  unfold lastBefore
  rw [List.take_append_of_le_length hm]

end CyclicBuffer
