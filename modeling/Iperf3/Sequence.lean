import Mathlib.Tactic

/-!
# Sequences of calls that may fail, and histories

A call changes a state and says whether it has succeeded.  In a sequence a
failure ends the rest.  What a call keeps, and what holds after its success
and after its failure, is composed along the sequence.  A history is the list
of what has happened, in its order.  A property of every step, seen with what
came before it, is proved step by step.
-/

namespace Iperf3

universe u

variable {σ : Type u}

/-- The next call of a sequence, unless an earlier one has failed. -/
def andThen (f : σ → σ × Bool) (r : σ × Bool) : σ × Bool :=
  if r.2 then f r.1 else r

/-- The call keeps `P`, whether it succeeds or not. -/
def Keeps (P : σ → Prop) (f : σ → σ × Bool) : Prop :=
  ∀ s, P s → P (f s).1

/-- From `P`, a call that succeeds leads to `Q` and one that fails to `E`. -/
def Triple (P : σ → Prop) (f : σ → σ × Bool) (Q E : σ → Prop) : Prop :=
  ∀ s, P s → ((f s).2 = true → Q (f s).1) ∧ ((f s).2 = false → E (f s).1)

section Rules

variable {P Q R E : σ → Prop} {f g : σ → σ × Bool}

theorem Keeps.apply
    (hf : Keeps P f) {r : σ × Bool} (hr : P r.1) : P (Iperf3.andThen f r).1 := by
  unfold Iperf3.andThen
  split_ifs
  · exact hf _ hr
  · exact hr

theorem Keeps.andThen (hf : Keeps P f) (hg : Keeps P g) : Keeps P (fun s => andThen g (f s)) :=
  fun s hs => hg.apply (hf s hs)

theorem Triple.apply
    (hf : Triple P f Q E) {r : σ × Bool}
    (hr : (r.2 = true → P r.1) ∧ (r.2 = false → E r.1)) :
    ((Iperf3.andThen f r).2 = true → Q (Iperf3.andThen f r).1) ∧
      ((Iperf3.andThen f r).2 = false → E (Iperf3.andThen f r).1) := by
  unfold Iperf3.andThen
  split_ifs with hok
  · exact hf _ (hr.1 hok)
  · exact ⟨fun h => absurd h hok, hr.2⟩

theorem Triple.andThen (hf : Triple P f Q E) (hg : Triple Q g R E) :
    Triple P (fun s => andThen g (f s)) R E :=
  fun s hs => hg.apply (hf s hs)

theorem Triple.of_update {u : σ → σ} (h : ∀ s, P s → Q (u s)) :
    Triple P (fun s => (u s, true)) Q E :=
  fun s hs => ⟨fun _ => h s hs, nofun⟩

theorem Triple.before {u : σ → σ} (h : ∀ s, P s → Q (u s)) (hf : Triple Q f R E) :
    Triple P (fun s => f (u s)) R E :=
  fun s hs => hf (u s) (h s hs)

theorem Triple.weaken {P' Q' E' : σ → Prop}
    (hf : Triple P f Q E) (hP : ∀ s, P' s → P s) (hQ : ∀ s, Q s → Q' s)
    (hE : ∀ s, E s → E' s) : Triple P' f Q' E' :=
  fun s hs => ⟨fun h => hQ _ ((hf s (hP s hs)).1 h), fun h => hE _ ((hf s (hP s hs)).2 h)⟩

theorem Triple.of_keeps (hf : Keeps P f) : Triple P f P P :=
  fun s hs => ⟨fun _ => hf s hs, fun _ => hf s hs⟩

end Rules

/-! ## Histories -/

section Histories

variable {α : Type u}

/-- Every step of the history meets `R` after the steps before it. -/
def Always (R : List α → α → Prop) (history : List α) : Prop :=
  ∀ before step, before ++ [step] <+: history → R before step

@[simp] theorem always_nil (R : List α → α → Prop) : Always R [] := by
  intro before step hstep
  simp at hstep

theorem always_append {R : List α → α → Prop} {history : List α} {step : α} :
    Always R (history ++ [step]) ↔ Always R history ∧ R history step := by
  constructor
  · intro h
    constructor
    · intro before x hstep
      exact h before x (hstep.trans (List.prefix_append _ _))
    · exact h history step (List.prefix_refl _)
  · rintro ⟨hbefore, hlast⟩ before x hstep
    rcases List.prefix_concat_iff.mp hstep with heq | hstep
    · obtain ⟨rfl, hlist⟩ := List.append_inj' heq rfl
      rw [List.singleton_inj.mp hlist]
      exact hlast
    · exact hbefore before x hstep

end Histories

end Iperf3
