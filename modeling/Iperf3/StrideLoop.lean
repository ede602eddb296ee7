import Mathlib.Tactic

/-!
# Loops in steps of one size

A loop keeps a position in a region and the number of bytes left of it, and
moves both by a stride as long as a guard allows it.  The result is the list
of the positions it visits.
-/

namespace StrideLoop

variable {guard : ℤ → ℤ → Bool} {stride pos left : ℤ} {fuel : ℕ} {ps : List ℤ}

/-- There is no result when the guard is tested more than `fuel` times. -/
def visits (guard : ℤ → ℤ → Bool) (stride : ℤ) : ℕ → ℤ → ℤ → Option (List ℤ)
  | 0, _, _ => none
  | fuel + 1, pos, left =>
      if guard pos left then
        (visits guard stride fuel (pos + stride) (left - stride)).map (pos :: ·)
      else some []

theorem visits_stop (h : guard pos left = false) :
    visits guard stride (fuel + 1) pos left = some [] := by
  simp [visits, h]

theorem visits_step (h : guard pos left = true) :
    visits guard stride (fuel + 1) pos left =
      (visits guard stride fuel (pos + stride) (left - stride)).map (pos :: ·) := by
  simp [visits, h]

theorem exists_of_mem_visits (h : visits guard stride fuel pos left = some ps)
    {p : ℤ} (hp : p ∈ ps) :
    ∃ i : ℕ, p = pos + i * stride ∧ guard p (left - i * stride) = true := by
  induction fuel generalizing pos left ps with
  | zero => cases h
  | succ fuel ih =>
      cases hguard : guard pos left with
      | false =>
          rw [visits_stop hguard] at h
          cases h
          cases hp
      | true =>
          rw [visits_step hguard] at h
          obtain ⟨rest, hrest, rfl⟩ := Option.map_eq_some_iff.mp h
          rcases List.mem_cons.mp hp with rfl | hmem
          · exact ⟨0, by simp, by simpa using hguard⟩
          · obtain ⟨i, hposition, hi⟩ := ih hrest hmem
            refine ⟨i + 1, ?_, ?_⟩
            · rw [hposition]
              push_cast
              ring
            · have hleft : left - ((i + 1 : ℕ) : ℤ) * stride = left - stride - i * stride := by
                push_cast
                ring
              rw [hleft]
              exact hi

/-- A position is visited if the guard holds there and on the way. -/
theorem mem_visits (h : visits guard stride fuel pos left = some ps) (i : ℕ)
    (hguard : ∀ k : ℕ, k ≤ i → guard (pos + k * stride) (left - k * stride) = true) :
    pos + i * stride ∈ ps := by
  induction fuel generalizing pos left ps i with
  | zero => cases h
  | succ fuel ih =>
      have hfirst : guard pos left = true := by simpa using hguard 0 (Nat.zero_le i)
      rw [visits_step hfirst] at h
      obtain ⟨rest, hrest, rfl⟩ := Option.map_eq_some_iff.mp h
      cases i with
      | zero => simp
      | succ i =>
          have hrestGuard : ∀ k : ℕ, k ≤ i →
              guard (pos + stride + k * stride) (left - stride - k * stride) = true := by
            intro k hk
            have hnext := hguard (k + 1) (Nat.succ_le_succ hk)
            push_cast at hnext
            convert hnext using 2 <;> ring
          have hmem := ih hrest i hrestGuard
          apply List.mem_cons_of_mem
          convert hmem using 1
          push_cast
          ring

theorem visits_isSome (hguard : ∀ p l, guard p l = true → 0 < l) (hstride : 0 < stride)
    (pos : ℤ) (hfuel : left.toNat < fuel) :
    ∃ ps, visits guard stride fuel pos left = some ps := by
  induction fuel generalizing pos left with
  | zero => omega
  | succ fuel ih =>
      cases hfirst : guard pos left with
      | false => exact ⟨[], visits_stop hfirst⟩
      | true =>
          have hleft := hguard pos left hfirst
          have hshorter : (left - stride).toNat < fuel := by omega
          obtain ⟨rest, hrest⟩ := ih (pos + stride) hshorter
          exact ⟨pos :: rest, by rw [visits_step hfirst, hrest]; rfl⟩

/-- A loop whose guard never fails does not end. -/
theorem visits_eq_none
    (hguard : ∀ k : ℕ, guard (pos + k * stride) (left - k * stride) = true) :
    visits guard stride fuel pos left = none := by
  induction fuel generalizing pos left with
  | zero => rfl
  | succ fuel ih =>
      have hfirst : guard pos left = true := by simpa using hguard 0
      have hrest : ∀ k : ℕ,
          guard (pos + stride + k * stride) (left - stride - k * stride) = true := by
        intro k
        have hnext := hguard (k + 1)
        push_cast at hnext
        convert hnext using 2 <;> ring
      rw [visits_step hfirst, ih hrest]
      rfl

end StrideLoop
