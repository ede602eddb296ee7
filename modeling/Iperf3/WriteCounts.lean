import Iperf3.ClientStart
import Iperf3.SocketLoops
import Mathlib.Tactic

/-!
# What a call of `Nwrite` has written

`Nwrite` may have written a part of its buffer when it fails or returns a
short count.  The return value is compared with the bytes that the writes have
accepted.
-/

namespace Iperf3

open MachineInt

/-- Bytes taken by the writes that are made for `nleft` bytes. -/
def acceptedBytes : ℕ → List CallResult → ℕ
  | 0, _ | _ + 1, [] | _ + 1, .failed _ :: _ => 0
  | nleft + 1, .transferred n :: results =>
      if n = 0 then 0 else min n (nleft + 1) + acceptedBytes (nleft + 1 - n) results

/-- The writes end with a failure that gives up the count. -/
def GivesUp : ℕ → List CallResult → Prop
  | 0, _ | _ + 1, [] => False
  | _ + 1, .failed errno :: _ => errno.interrupts = false
  | nleft + 1, .transferred n :: results => n = 0 ∨ GivesUp (nleft + 1 - n) results

instance decidableGivesUp : ∀ nleft results, Decidable (GivesUp nleft results)
  | 0, _ => isFalse (by simp [GivesUp])
  | _ + 1, [] => isFalse (by simp [GivesUp])
  | _ + 1, .failed errno :: _ => inferInstanceAs (Decidable (errno.interrupts = false))
  | nleft + 1, .transferred n :: results =>
      have := decidableGivesUp (nleft + 1 - n) results
      inferInstanceAs (Decidable (n = 0 ∨ GivesUp (nleft + 1 - n) results))

theorem acceptedBytes_le (nleft : ℕ) (results : List CallResult) :
    acceptedBytes nleft results ≤ nleft := by
  induction results generalizing nleft with
  | nil => cases nleft <;> simp [acceptedBytes]
  | cons result results ih =>
      cases nleft with
      | zero => simp [acceptedBytes]
      | succ nleft =>
          cases result with
          | failed errno => simp [acceptedBytes]
          | transferred n =>
              have hrest := ih (nleft + 1 - n)
              unfold acceptedBytes
              split_ifs <;> omega

/-- What a call returns that has written `sent` bytes and has not given up. -/
def returnedCount (count sent : ℕ) : ℤ :=
  if sent = 0 ∧ 0 < count then netSofterror else int32 sent

theorem nwriteLoop_spec
    {count nleft : ℕ} (hleft : nleft ≤ count) {results : List CallResult} {r : ℤ} {used : ℕ}
    (h : nwriteLoop count nleft results = some (r, used)) :
    (GivesUp nleft results ∧ r < 0) ∨
      (¬ GivesUp nleft results ∧
        r = returnedCount count (count - nleft + acceptedBytes nleft results)) := by
  have hfinished : ∀ results used, nwriteLoop count 0 results = some (r, used) →
      ¬ GivesUp 0 results ∧ r = returnedCount count (count - 0 + acceptedBytes 0 results) := by
    intro results used h
    obtain ⟨rfl, -⟩ : int32 count = r ∧ 0 = used := by simpa [nwriteLoop] using h
    refine ⟨by simp [GivesUp], ?_⟩
    rw [returnedCount, acceptedBytes, add_zero, Nat.sub_zero, if_neg (by omega)]
  induction results generalizing nleft used with
  | nil =>
      cases nleft with
      | zero => exact Or.inr (hfinished _ _ h)
      | succ nleft => simp [nwriteLoop] at h
  | cons result results ih =>
      cases nleft with
      | zero => exact Or.inr (hfinished _ _ h)
      | succ nleft =>
          cases result with
          | failed errno =>
              unfold nwriteLoop at h
              split_ifs at h with hsoft hnone hbuffers
              · obtain ⟨rfl, -⟩ : netSofterror = r ∧ 1 = used := by simpa using h
                refine Or.inr ⟨by simp [GivesUp, hsoft], ?_⟩
                rw [returnedCount, if_pos ⟨by simp [acceptedBytes, hnone], by omega⟩]
              · obtain ⟨rfl, -⟩ : int32 (count - (nleft + 1 : ℕ) : ℤ) = r ∧ 1 = used := by
                  simpa using h
                refine Or.inr ⟨by simp [GivesUp, hsoft], ?_⟩
                have hsub : (count : ℤ) - (nleft + 1 : ℕ) = ((count - (nleft + 1) : ℕ) : ℤ) := by
                  omega
                rw [returnedCount, acceptedBytes, add_zero, if_neg (by omega), hsub]
              · obtain ⟨rfl, -⟩ : netSofterror = r ∧ 1 = used := by simpa using h
                exact Or.inl ⟨by simpa [GivesUp] using hsoft, by decide⟩
              · obtain ⟨rfl, -⟩ : netHarderror = r ∧ 1 = used := by simpa using h
                exact Or.inl ⟨by simpa [GivesUp] using hsoft, by decide⟩
          | transferred n =>
              by_cases hzero : n = 0
              · obtain ⟨rfl, -⟩ : netSofterror = r ∧ 1 = used := by
                  simpa [nwriteLoop, hzero] using h
                exact Or.inl ⟨Or.inl hzero, by decide⟩
              · simp only [nwriteLoop, if_neg hzero, Option.map_eq_some_iff] at h
                obtain ⟨⟨r', used'⟩, hrest, hmap⟩ := h
                obtain ⟨rfl, -⟩ := Prod.mk.inj hmap
                have hbytes := acceptedBytes_le (nleft + 1 - n) results
                have hsent :
                    count - (nleft + 1) + acceptedBytes (nleft + 1) (.transferred n :: results) =
                      count - (nleft + 1 - n) + acceptedBytes (nleft + 1 - n) results := by
                  simp only [acceptedBytes, if_neg hzero]
                  omega
                have hgives : GivesUp (nleft + 1) (.transferred n :: results) ↔
                    GivesUp (nleft + 1 - n) results := by
                  simp [GivesUp, hzero]
                rw [hgives, hsent]
                exact ih (by omega) hrest

theorem nwrite_returns
    {count : ℕ} {results : List CallResult} {r : ℤ} {used : ℕ}
    (h : nwrite count results = some (r, used)) :
    (GivesUp count results ∧ r < 0) ∨
      (¬ GivesUp count results ∧ r = returnedCount count (acceptedBytes count results)) := by
  have hloop := nwriteLoop_spec le_rfl h
  rwa [Nat.sub_self, Nat.zero_add] at hloop

theorem nwriteLoop_accepted
    {count nleft : ℕ} {results : List CallResult} (h : acceptedBytes nleft results = nleft) :
    ∃ used, nwriteLoop count nleft results = some (int32 count, used) := by
  induction results generalizing nleft with
  | nil =>
      cases nleft with
      | zero => exact ⟨0, by simp only [nwriteLoop]⟩
      | succ nleft => simp [acceptedBytes] at h
  | cons result results ih =>
      cases nleft with
      | zero => exact ⟨0, by simp only [nwriteLoop]⟩
      | succ nleft =>
          cases result with
          | failed errno => simp [acceptedBytes] at h
          | transferred n =>
              have hrest := acceptedBytes_le (nleft + 1 - n) results
              simp only [acceptedBytes] at h
              split_ifs at h with hzero
              obtain ⟨used, hused⟩ := @ih (nleft + 1 - n) (by omega)
              refine ⟨used + 1, ?_⟩
              simp only [nwriteLoop]
              rw [if_neg hzero, hused, Option.map_some, Prod.map_apply, id_eq]

/-- A call whose bytes are all accepted returns their number. -/
theorem nwrite_accepted
    {count : ℕ} {results : List CallResult} (h : acceptedBytes count results = count) :
    ∃ used, nwrite count results = some (int32 count, used) :=
  nwriteLoop_accepted h

end Iperf3
