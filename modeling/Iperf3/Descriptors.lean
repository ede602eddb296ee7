import Mathlib.Data.Multiset.AddSub
import Mathlib.Data.Multiset.UnionInter
import Mathlib.Tactic

/-!
# Numbered descriptors

The system hands out numbers for what is open.  A program that closes a
number it no longer has may close something that has been opened since, so
the table remembers whether a number that was not open has been closed.
-/

namespace Iperf3

structure Descriptors where
  opened : Finset ℕ
  closedTwice : Bool
  deriving DecidableEq

namespace Descriptors

def obtain (n : ℕ) (d : Descriptors) : Descriptors :=
  { d with opened := insert n d.opened }

def close (d : Descriptors) (n : ℕ) : Descriptors where
  opened := d.opened.erase n
  closedTwice := d.closedTwice || decide (n ∉ d.opened)

def closeAll (ns : List ℕ) (d : Descriptors) : Descriptors :=
  ns.foldl close d

/-- The holder of these numbers may close each of them once, and no number
has been closed twice. -/
structure Owns (d : Descriptors) (held : Multiset ℕ) : Prop where
  nodup : held.Nodup
  opened : ∀ n ∈ held, n ∈ d.opened
  once : d.closedTwice = false

variable {d : Descriptors} {held kept : Multiset ℕ} {n : ℕ}

theorem Owns.forget (h : Owns d held) (hkept : kept ≤ held) : Owns d kept where
  nodup := Multiset.nodup_of_le hkept h.nodup
  opened n hn := h.opened n (Multiset.mem_of_le hkept hn)
  once := h.once

theorem Owns.obtain (h : Owns d held) (hn : n ∉ d.opened) : Owns (d.obtain n) (n ::ₘ held) where
  nodup := Multiset.nodup_cons.mpr ⟨fun hmem => hn (h.opened n hmem), h.nodup⟩
  opened m hm := by
    rcases Multiset.mem_cons.mp hm with rfl | hm
    · exact Finset.mem_insert_self ..
    · exact Finset.mem_insert_of_mem (h.opened m hm)
  once := h.once

theorem Owns.close (h : Owns d (n ::ₘ held)) : Owns (d.close n) held where
  nodup := (Multiset.nodup_cons.mp h.nodup).2
  opened m hm := by
    have hne : m ≠ n := by
      rintro rfl
      exact (Multiset.nodup_cons.mp h.nodup).1 hm
    exact Finset.mem_erase.mpr ⟨hne, h.opened m (Multiset.mem_cons_of_mem hm)⟩
  once := by
    have hn : n ∈ d.opened := h.opened n (Multiset.mem_cons_self n held)
    simp [Descriptors.close, h.once, hn]

theorem Owns.closeAll {ns : List ℕ} (h : Owns d (ns + held)) : Owns (d.closeAll ns) held := by
  induction ns generalizing d with
  | nil =>
      rw [Multiset.coe_nil, zero_add] at h
      exact h
  | cons n ns ih =>
      apply ih
      apply Owns.close
      rw [← Multiset.cons_add]
      exact h

/-- With nothing held, only the past matters. -/
theorem owns_zero (h : d.closedTwice = false) : Owns d 0 :=
  ⟨Multiset.nodup_zero, fun _ hn => absurd hn (Multiset.notMem_zero _), h⟩

/-! ## What has been added -/

/-- Exactly these numbers have been opened since, each of them once, and
nothing else has been closed. -/
structure Adds (before : Descriptors) (held : Multiset ℕ) (d : Descriptors) : Prop where
  nodup : held.Nodup
  apart : ∀ n ∈ held, n ∉ before.opened
  opened : ∀ n, n ∈ d.opened ↔ n ∈ before.opened ∨ n ∈ held
  once : d.closedTwice = before.closedTwice

variable {before : Descriptors}

theorem Adds.refl (before : Descriptors) : before.Adds 0 before where
  nodup := Multiset.nodup_zero
  apart n hn := absurd hn (Multiset.notMem_zero n)
  opened n := by simp
  once := rfl

theorem adds_zero_iff : before.Adds 0 d ↔ d = before := by
  constructor
  · intro h
    have hopened : d.opened = before.opened := by
      ext n
      simp [h.opened n]
    cases d
    cases before
    exact Descriptors.mk.injEq .. |>.mpr ⟨hopened, h.once⟩
  · intro h
    rw [h]
    exact Adds.refl before

theorem Adds.mem (h : before.Adds held d) (hn : n ∈ held) : n ∈ d.opened :=
  (h.opened n).mpr (.inr hn)

theorem Adds.subset (h : before.Adds held d) (hkept : kept ≤ held) :
    kept.toFinset ⊆ d.opened := by
  intro n hn
  exact h.mem (Multiset.mem_of_le hkept (Multiset.mem_toFinset.mp hn))

theorem Adds.obtain (h : before.Adds held d) (hn : n ∉ d.opened) :
    before.Adds (n ::ₘ held) (d.obtain n) where
  nodup := Multiset.nodup_cons.mpr ⟨fun hmem => hn (h.mem hmem), h.nodup⟩
  apart m hm := by
    rcases Multiset.mem_cons.mp hm with rfl | hm
    · exact fun hmem => hn ((h.opened _).mpr (.inl hmem))
    · exact h.apart m hm
  opened m := by
    simp only [Descriptors.obtain, Finset.mem_insert, Multiset.mem_cons, h.opened m]
    tauto
  once := h.once

theorem Adds.close (h : before.Adds (n ::ₘ held) d) : before.Adds held (d.close n) where
  nodup := (Multiset.nodup_cons.mp h.nodup).2
  apart m hm := h.apart m (Multiset.mem_cons_of_mem hm)
  opened m := by
    have hn := h.apart n (Multiset.mem_cons_self n held)
    have hheld := (Multiset.nodup_cons.mp h.nodup).1
    simp only [Descriptors.close, Finset.mem_erase, h.opened m, Multiset.mem_cons]
    by_cases hm : m = n
    · subst hm
      simp [hn, hheld]
    · simp [hm]
  once := by
    have hn : n ∈ d.opened := h.mem (Multiset.mem_cons_self n held)
    simp [Descriptors.close, h.once, hn]

theorem Adds.obtained (h : before.Adds {n} d) : n ∉ before.opened ∧ d = before.obtain n := by
  have hn := h.apart n (Multiset.mem_singleton_self n)
  refine ⟨hn, ?_⟩
  have hopened : d.opened = insert n before.opened := by
    ext m
    rw [h.opened m, Finset.mem_insert, Multiset.mem_singleton, or_comm]
  cases d
  cases before
  exact Descriptors.mk.injEq .. |>.mpr ⟨hopened, h.once⟩

theorem obtain_close (h : n ∈ d.opened) : (d.close n).obtain n = d := by
  simp [Descriptors.obtain, Descriptors.close, h, Finset.insert_erase h]

theorem adds_of_close (h : n ∈ d.opened) : (d.close n).Adds {n} d where
  nodup := Multiset.nodup_singleton n
  apart m hm := by
    rw [Multiset.mem_singleton.mp hm]
    exact Finset.notMem_erase n d.opened
  opened m := by
    simp only [Descriptors.close, Finset.mem_erase, Multiset.mem_singleton]
    by_cases hm : m = n
    · simp [hm, h]
    · simp [hm]
  once := by
    simp [Descriptors.close, h]

end Descriptors

end Iperf3
