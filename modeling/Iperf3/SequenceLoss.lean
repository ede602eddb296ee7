import Mathlib.Data.List.Nodup
import Mathlib.Order.Interval.Finset.Nat
import Mathlib.Tactic

/-!
# Counting losses by sequence numbers

A receiver that keeps three counters (the highest number seen, the number of
losses and the number of late arrivals) counts a gap as lost when it is
passed and takes a loss back when a number arrives late.  As long as no
number arrives twice, the counters are exact: the numbers still missing below
the highest one are as many as the losses.
-/

namespace SequenceLoss

structure Counters where
  highest : ℕ
  lost : ℕ
  late : ℕ
  deriving DecidableEq, Repr

/-- The counters after one more arrival. -/
def arrive (c : Counters) (number : ℕ) : Counters :=
  if c.highest + 1 ≤ number then
    { c with highest := number, lost := c.lost + (number - 1 - c.highest) }
  else
    { c with late := c.late + 1, lost := c.lost - 1 }

/-- The largest number of a list, zero if there is none. -/
def highest (numbers : List ℕ) : ℕ :=
  numbers.foldl max 0

/-- Arrivals after which some larger number had been seen. -/
def lateFrom (seen : List ℕ) : List ℕ → ℕ
  | [] => 0
  | number :: rest =>
      (if seen.any (fun earlier => number < earlier) then 1 else 0) +
        lateFrom (number :: seen) rest

def lateArrivals (numbers : List ℕ) : ℕ :=
  lateFrom [] numbers

/-- The counters say exactly what happened to `numbers`. -/
structure Exact (c : Counters) (numbers : List ℕ) : Prop where
  highest_eq : c.highest = highest numbers
  lost_eq : c.lost + numbers.length = c.highest
  late_eq : c.late = lateArrivals numbers

theorem highest_concat (numbers : List ℕ) (number : ℕ) :
    highest (numbers ++ [number]) = max (highest numbers) number := by
  simp [highest]

theorem le_highest {numbers : List ℕ} {number : ℕ} (h : number ∈ numbers) :
    number ≤ highest numbers := by
  induction numbers using List.reverseRecOn with
  | nil => cases h
  | append_singleton numbers last ih =>
      rw [highest_concat]
      rcases List.mem_append.mp h with hold | hlast
      · exact (ih hold).trans (le_max_left _ _)
      · rw [List.mem_singleton.mp hlast]
        exact le_max_right _ _

theorem highest_mem {numbers : List ℕ} (h : highest numbers ≠ 0) :
    highest numbers ∈ numbers := by
  induction numbers using List.reverseRecOn with
  | nil => exact absurd rfl h
  | append_singleton numbers last ih =>
      rw [highest_concat] at h ⊢
      rw [List.mem_append, List.mem_singleton]
      rcases le_total (highest numbers) last with hle | hle
      · right
        exact max_eq_right hle
      · left
        rw [max_eq_left hle] at h ⊢
        exact ih h

theorem lateFrom_concat (seen numbers : List ℕ) (number : ℕ) :
    lateFrom seen (numbers ++ [number]) =
      lateFrom seen numbers +
        if (numbers ++ seen).any (fun earlier => number < earlier) then 1 else 0 := by
  induction numbers generalizing seen with
  | nil => simp [lateFrom]
  | cons first rest ih =>
      have hany : (rest ++ first :: seen).any (fun earlier => number < earlier) =
          (first :: rest ++ seen).any (fun earlier => number < earlier) := by
        simp only [List.any_append, List.any_cons, List.cons_append]
        cases decide (number < first) <;> simp
      simp only [List.cons_append, lateFrom]
      rw [ih, hany]
      simp only [List.cons_append]
      omega

theorem lateArrivals_concat (numbers : List ℕ) (number : ℕ) :
    lateArrivals (numbers ++ [number]) =
      lateArrivals numbers + if number < highest numbers then 1 else 0 := by
  have hany : (numbers ++ []).any (fun earlier => number < earlier) = true ↔
      number < highest numbers := by
    rw [List.append_nil, List.any_eq_true]
    constructor
    · rintro ⟨earlier, hmem, hlt⟩
      exact (of_decide_eq_true hlt).trans_le (le_highest hmem)
    · intro hlt
      exact ⟨highest numbers, highest_mem (by omega), decide_eq_true hlt⟩
  unfold lateArrivals
  rw [lateFrom_concat]
  by_cases hlt : number < highest numbers
  · rw [if_pos (hany.mpr hlt), if_pos hlt]
  · rw [if_neg (fun h => hlt (hany.mp h)), if_neg hlt]

/-- Distinct positive numbers up to `bound` that miss one number are fewer than
`bound`. -/
theorem length_lt_of_missing
    {numbers : List ℕ} {bound missing : ℕ} (hnodup : numbers.Nodup)
    (hpos : ∀ number ∈ numbers, 0 < number)
    (hle : ∀ number ∈ numbers, number ≤ bound)
    (hmissing : missing ∉ numbers) (hmissingPos : 0 < missing)
    (hmissingLe : missing ≤ bound) :
    numbers.length < bound := by
  have hsubset : (missing :: numbers).toFinset ⊆ Finset.Icc 1 bound := by
    intro number hnumber
    rw [List.mem_toFinset, List.mem_cons] at hnumber
    rw [Finset.mem_Icc]
    rcases hnumber with rfl | hmem
    · exact ⟨hmissingPos, hmissingLe⟩
    · exact ⟨hpos number hmem, hle number hmem⟩
  have hcard := Finset.card_le_card hsubset
  rw [List.toFinset_card_of_nodup (List.nodup_cons.mpr ⟨hmissing, hnodup⟩),
    Nat.card_Icc, List.length_cons] at hcard
  omega

theorem exact_nil : Exact ⟨0, 0, 0⟩ [] :=
  ⟨rfl, rfl, rfl⟩

theorem Exact.arrive
    {c : Counters} {numbers : List ℕ} {number : ℕ} (h : Exact c numbers)
    (hnodup : (numbers ++ [number]).Nodup)
    (hpos : ∀ n ∈ numbers ++ [number], 0 < n) :
    Exact (arrive c number) (numbers ++ [number]) := by
  have hnew : number ∉ numbers := by
    intro hmem
    exact List.disjoint_of_nodup_append hnodup hmem (List.mem_singleton.mpr rfl)
  have hhighest := h.highest_eq
  have hlost := h.lost_eq
  have hlate := h.late_eq
  unfold SequenceLoss.arrive
  split_ifs with hforward
  · -- The number is ahead of everything seen: the gap before it is lost.
    refine ⟨?_, ?_, ?_⟩
    · rw [highest_concat, ← hhighest]
      simp only
      omega
    · rw [List.length_append, List.length_singleton]
      simp only
      omega
    · rw [lateArrivals_concat, ← hhighest]
      simp only
      rw [if_neg (by omega), hlate, Nat.add_zero]
  · -- The number fills a gap, so at least one loss has been counted for it.
    have hnumberPos : 0 < number := hpos number (by simp)
    have hlt : number < highest numbers := by
      have hle : number ≤ highest numbers := by omega
      have hne : number ≠ highest numbers := by
        intro heq
        exact hnew (heq ▸ highest_mem (by omega))
      omega
    have hshort : numbers.length < highest numbers :=
      length_lt_of_missing (List.Nodup.of_append_left hnodup)
        (fun n hn => hpos n (List.mem_append_left _ hn))
        (fun n hn => le_highest hn) hnew hnumberPos hlt.le
    refine ⟨?_, ?_, ?_⟩
    · rw [highest_concat, ← hhighest]
      simp only
      omega
    · rw [List.length_append, List.length_singleton]
      simp only
      omega
    · rw [lateArrivals_concat, if_pos hlt, hlate]

theorem lateFrom_le_length (seen numbers : List ℕ) :
    lateFrom seen numbers ≤ numbers.length := by
  induction numbers generalizing seen with
  | nil => exact le_rfl
  | cons number rest ih =>
      have hrest := ih (number :: seen)
      rw [lateFrom, List.length_cons]
      split_ifs <;> omega

theorem Exact.late_le_length
    {c : Counters} {numbers : List ℕ} (h : Exact c numbers) :
    c.late ≤ numbers.length := by
  rw [h.late_eq]
  exact lateFrom_le_length [] numbers

end SequenceLoss
