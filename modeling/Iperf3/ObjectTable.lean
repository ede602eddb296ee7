import Mathlib.Data.Multiset.AddSub
import Mathlib.Data.Multiset.MapFold
import Mathlib.Tactic

/-!
# Tables of open objects

A table says which object is open under a number.  A holder remembers for
each of its numbers the object that it named when it was handed out.
-/

namespace Iperf3

universe u

abbrev ObjectTable (α : Type u) : Type u := ℕ → Option α

namespace ObjectTable

variable {α : Type u}

def opens (n : ℕ) (o : α) (t : ObjectTable α) : ObjectTable α :=
  Function.update t n (some o)

def closes (n : ℕ) (t : ObjectTable α) : ObjectTable α :=
  Function.update t n none

/-- The numbers are different, and each still names its object. -/
structure Owns (t : ObjectTable α) (held : Multiset (ℕ × α)) : Prop where
  nodup : (held.map Prod.fst).Nodup
  names : ∀ x ∈ held, t x.1 = some x.2

/-- Every open object that satisfies `P` is held. -/
def Covers (t : ObjectTable α) (P : α → Prop) (held : Multiset (ℕ × α)) : Prop :=
  ∀ n o, t n = some o → P o → (n, o) ∈ held

variable {t : ObjectTable α} {held : Multiset (ℕ × α)} {n : ℕ} {o : α} {P : α → Prop}

theorem owns_zero (t : ObjectTable α) : t.Owns 0 :=
  ⟨Multiset.nodup_zero, fun _ hx => absurd hx (Multiset.notMem_zero _)⟩

theorem Owns.ne_of_free (h : t.Owns held) (hfree : t n = none) :
    ∀ x ∈ held, x.1 ≠ n := by
  rintro x hx rfl
  rw [h.names x hx] at hfree
  simp at hfree

theorem Owns.opens_other (h : t.Owns held) (hfree : t n = none) (o : α) :
    (t.opens n o).Owns held where
  nodup := h.nodup
  names x hx := by
    rw [opens, Function.update_of_ne (h.ne_of_free hfree x hx)]
    exact h.names x hx

theorem Owns.opens (h : t.Owns held) (hfree : t n = none) (o : α) :
    (t.opens n o).Owns ((n, o) ::ₘ held) where
  nodup := by
    rw [Multiset.map_cons, Multiset.nodup_cons]
    refine ⟨fun hmem => ?_, h.nodup⟩
    obtain ⟨x, hx, heq⟩ := Multiset.mem_map.mp hmem
    exact h.ne_of_free hfree x hx heq
  names x hx := by
    rcases Multiset.mem_cons.mp hx with rfl | hx
    · exact Function.update_self ..
    · exact (h.opens_other hfree o).names x hx

theorem Owns.closes_other (h : t.Owns held) (hn : ∀ x ∈ held, x.1 ≠ n) :
    (t.closes n).Owns held where
  nodup := h.nodup
  names x hx := by
    rw [closes, Function.update_of_ne (hn x hx)]
    exact h.names x hx

theorem Owns.closes {x : ℕ × α} (h : t.Owns (x ::ₘ held)) : (t.closes x.1).Owns held := by
  have hnodup := h.nodup
  rw [Multiset.map_cons, Multiset.nodup_cons] at hnodup
  have hheld : t.Owns held := ⟨hnodup.2, fun y hy => h.names y (Multiset.mem_cons_of_mem hy)⟩
  apply hheld.closes_other
  intro y hy heq
  exact hnodup.1 (heq ▸ Multiset.mem_map_of_mem Prod.fst hy)

theorem Covers.opens (h : t.Covers P held) (n : ℕ) (o : α) :
    (t.opens n o).Covers P ((n, o) ::ₘ held) := by
  intro m p hm hp
  by_cases heq : m = n
  · subst heq
    rw [ObjectTable.opens, Function.update_self] at hm
    rw [Option.some.inj hm]
    exact Multiset.mem_cons_self _ _
  · rw [ObjectTable.opens, Function.update_of_ne heq] at hm
    exact Multiset.mem_cons_of_mem (h m p hm hp)

/-- Objects without the property do not have to be held. -/
theorem Covers.opens_other (h : t.Covers P held) (n : ℕ) (ho : ¬ P o) :
    (t.opens n o).Covers P held := by
  intro m p hm hp
  rcases Multiset.mem_cons.mp (h.opens n o m p hm hp) with heq | hmem
  · cases heq
    exact absurd hp ho
  · exact hmem

theorem Covers.closes_other (h : t.Covers P held) (n : ℕ) : (t.closes n).Covers P held := by
  intro m p hm hp
  by_cases heq : m = n
  · subst heq
    rw [closes, Function.update_self] at hm
    simp at hm
  · rw [closes, Function.update_of_ne heq] at hm
    exact h m p hm hp

theorem Covers.closes {x : ℕ × α} (h : t.Covers P (x ::ₘ held)) :
    (t.closes x.1).Covers P held := by
  intro m p hm hp
  rcases Multiset.mem_cons.mp (h.closes_other x.1 m p hm hp) with heq | hmem
  · subst heq
    have hnone : t.closes m m = none := Function.update_self ..
    exact absurd (hm.symm.trans hnone) (by simp)
  · exact hmem

theorem Covers.mono {Q : α → Prop} (h : t.Covers P held)
    (hQP : ∀ n o, t n = some o → Q o → P o) : t.Covers Q held :=
  fun n o hn ho => h n o hn (hQP n o hn ho)

end ObjectTable

end Iperf3
