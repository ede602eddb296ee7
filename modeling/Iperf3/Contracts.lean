import Mathlib.Tactic

/-!
# Contracts of programs that may give up

A program changes a state and returns a value or gives up.  Its contract says
what must hold before, what holds when it returns, and what holds when it has
given up.  Contracts are composed along the program.
-/

namespace Iperf3

def Fallible (σ α : Type) : Type :=
  σ → Option α × σ

namespace Fallible

variable {σ α β : Type}

instance : Monad (Fallible σ) where
  pure a := fun s => (some a, s)
  bind x f := fun s =>
    match x s with
    | (some a, s') => f a s'
    | (none, s') => (none, s')

def giveUp : Fallible σ α :=
  fun s => (none, s)

def update (u : σ → σ) : Fallible σ Unit :=
  fun s => (some (), u s)

def reading (x : σ → Fallible σ α) : Fallible σ α :=
  fun s => x s s

/-- The handler decides whether the program goes on. -/
def otherwise (x handler : Fallible σ α) : Fallible σ α :=
  fun s =>
    match x s with
    | (some a, s') => (some a, s')
    | (none, s') => handler s'

def provided (c : Prop) [Decidable c] (x : Fallible σ Unit) : Fallible σ Unit :=
  if c then x else pure ()

def whenGiven (o : Option β) (x : β → Fallible σ Unit) : Fallible σ Unit :=
  match o with
  | none => pure ()
  | some a => x a

theorem bind_of {x : Fallible σ α} {f : α → Fallible σ β} {s t : σ} {a : α}
    (hx : x s = (some a, t)) : (x >>= f) s = f a t := by
  simp [Bind.bind, hx]

theorem provided_of {c : Prop} [Decidable c] {x : Fallible σ Unit} {s t : σ} (hc : c)
    (hx : x s = (some (), t)) : provided c x s = (some (), t) := by
  rw [provided, if_pos hc]
  exact hx

theorem provided_of_not {c : Prop} [Decidable c] {x : Fallible σ Unit} {s : σ} (hc : ¬ c) :
    provided c x s = (some (), s) := by
  rw [provided, if_neg hc]
  rfl

end Fallible

variable {σ α β : Type}

/-- From `P`, the program returns with `Q` or gives up with `E`. -/
structure Contract (P : σ → Prop) (x : Fallible σ α) (Q : α → σ → Prop) (E : σ → Prop) :
    Prop where
  returns : ∀ s a s', P s → x s = (some a, s') → Q a s'
  givesUp : ∀ s s', P s → x s = (none, s') → E s'

namespace Contract

variable {P P' : σ → Prop} {Q Q' : α → σ → Prop} {R : β → σ → Prop} {E F : σ → Prop}
  {x handler : Fallible σ α} {f : α → Fallible σ β}

theorem pure {a : α} (h : ∀ s, P s → Q a s) : Contract P (pure a) Q E where
  returns s b s' hs hrun := by
    cases hrun
    exact h s hs
  givesUp s s' hs hrun := by
    cases hrun

theorem giveUp (h : ∀ s, P s → E s) : Contract P (Fallible.giveUp : Fallible σ α) Q E where
  returns s a s' hs hrun := by
    cases hrun
  givesUp s s' hs hrun := by
    cases hrun
    exact h s hs

theorem update {u : σ → σ} {Q : Unit → σ → Prop} (h : ∀ s, P s → Q () (u s)) :
    Contract P (Fallible.update u) Q E where
  returns s a s' hs hrun := by
    cases hrun
    exact h s hs
  givesUp s s' hs hrun := by
    cases hrun

theorem bind (hx : Contract P x Q E) (hf : ∀ a, Contract (Q a) (f a) R E) :
    Contract P (x >>= f) R E where
  returns s b t hs hrun := by
    rcases hstep : x s with ⟨_ | a, s'⟩
    · simp [Bind.bind, hstep] at hrun
    · have hrest : f a s' = (some b, t) := by simpa [Bind.bind, hstep] using hrun
      exact (hf a).returns s' b t (hx.returns s a s' hs hstep) hrest
  givesUp s t hs hrun := by
    rcases hstep : x s with ⟨_ | a, s'⟩
    · have hsame : s' = t := by simpa [Bind.bind, hstep] using hrun
      exact hsame ▸ hx.givesUp s s' hs hstep
    · have hrest : f a s' = (none, t) := by simpa [Bind.bind, hstep] using hrun
      exact (hf a).givesUp s' t (hx.returns s a s' hs hstep) hrest

/-- A program whose value is not used. -/
theorem seq {x : Fallible σ Unit} {y : Fallible σ β} {Q : Unit → σ → Prop}
    (hx : Contract P x Q E) (hy : Contract (Q ()) y R E) : Contract P (x >>= fun _ => y) R E :=
  hx.bind fun _ => hy

theorem otherwise (hx : Contract P x Q F) (hhandler : Contract F handler Q E) :
    Contract P (x.otherwise handler) Q E where
  returns s a t hs hrun := by
    rcases hstep : x s with ⟨_ | a', s'⟩
    · have hrest : handler s' = (some a, t) := by simpa [Fallible.otherwise, hstep] using hrun
      exact hhandler.returns s' a t (hx.givesUp s s' hs hstep) hrest
    · have hsame : a' = a ∧ s' = t := by simpa [Fallible.otherwise, hstep] using hrun
      obtain ⟨rfl, rfl⟩ := hsame
      exact hx.returns s a' s' hs hstep
  givesUp s t hs hrun := by
    rcases hstep : x s with ⟨_ | a', s'⟩
    · have hrest : handler s' = (none, t) := by simpa [Fallible.otherwise, hstep] using hrun
      exact hhandler.givesUp s' t (hx.givesUp s s' hs hstep) hrest
    · simp [Fallible.otherwise, hstep] at hrun

theorem provided {c : Prop} [Decidable c] {x : Fallible σ Unit} {Q : Unit → σ → Prop}
    (hx : c → Contract P x Q E) (hskip : ¬ c → ∀ s, P s → Q () s) :
    Contract P (Fallible.provided c x) Q E := by
  unfold Fallible.provided
  split_ifs with hc
  · exact hx hc
  · exact Contract.pure (hskip hc)

theorem whenGiven {o : Option β} {x : β → Fallible σ Unit} {Q : Unit → σ → Prop}
    (hx : ∀ a, Contract P (x a) Q E) (hskip : ∀ s, P s → Q () s) :
    Contract P (Fallible.whenGiven o x) Q E := by
  cases o with
  | none => exact Contract.pure hskip
  | some a => exact hx a

theorem reading {y : σ → Fallible σ α}
    (h : ∀ s, Contract (fun t => t = s ∧ P t) (y s) Q E) :
    Contract P (Fallible.reading y) Q E where
  returns s a t hs hrun := (h s).returns s a t ⟨rfl, hs⟩ hrun
  givesUp s t hs hrun := (h s).givesUp s t ⟨rfl, hs⟩ hrun

theorem trivial : Contract P x (fun _ _ => True) fun _ => True where
  returns _ _ _ _ _ := True.intro
  givesUp _ _ _ _ := True.intro

theorem of_ends (hx : ∀ s, P s →
    (∃ a t, x s = (some a, t) ∧ Q a t) ∨ ∃ t, x s = (none, t) ∧ E t) : Contract P x Q E where
  returns s a s' hs hrun := by
    rcases hx s hs with ⟨b, t, hx, hq⟩ | ⟨t, hx, -⟩
    · rw [hx] at hrun
      cases hrun
      exact hq
    · rw [hx] at hrun
      cases hrun
  givesUp s s' hs hrun := by
    rcases hx s hs with ⟨b, t, hx, -⟩ | ⟨t, hx, he⟩
    · rw [hx] at hrun
      cases hrun
    · rw [hx] at hrun
      cases hrun
      exact he

theorem of_runs (hx : ∀ s, P s → ∃ a t, x s = (some a, t) ∧ Q a t) : Contract P x Q E :=
  of_ends fun s hs => .inl (hx s hs)

theorem ends {s : σ} (hx : Contract P x Q E) (hs : P s) :
    (∃ a t, x s = (some a, t) ∧ Q a t) ∨ ∃ t, x s = (none, t) ∧ E t := by
  rcases hrun : x s with ⟨_ | a, t⟩
  · exact .inr ⟨t, rfl, hx.givesUp s t hs hrun⟩
  · exact .inl ⟨a, t, rfl, hx.returns s a t hs hrun⟩

/-- What is read is known, and reading it changes nothing. -/
theorem reads {a : α} (hx : ∀ s, P s → x s = (some a, s)) (hf : Contract P (f a) R E) :
    Contract P (x >>= f) R E := by
  apply of_ends
  intro s hs
  rw [Fallible.bind_of (hx s hs)]
  exact hf.ends hs

theorem of_exists {ι : Type} {Q' : ι → σ → Prop} (hx : ∀ i, Contract (Q' i) x Q E) :
    Contract (fun s => ∃ i, Q' i s) x Q E where
  returns s a s' hs hrun := by
    obtain ⟨i, hi⟩ := hs
    exact (hx i).returns s a s' hi hrun
  givesUp s s' hs hrun := by
    obtain ⟨i, hi⟩ := hs
    exact (hx i).givesUp s s' hi hrun

theorem runs {s : σ} (hx : Contract P x Q fun _ => False) (hs : P s) :
    ∃ a t, x s = (some a, t) ∧ Q a t :=
  (hx.ends hs).resolve_right fun ⟨_, _, h⟩ => h

theorem weaken (hx : Contract P x Q E) (hP : ∀ s, P' s → P s) (hQ : ∀ a s, Q a s → Q' a s)
    (hE : ∀ s, E s → F s) : Contract P' x Q' F where
  returns s a s' hs hrun := hQ a s' (hx.returns s a s' (hP s hs) hrun)
  givesUp s s' hs hrun := hE s' (hx.givesUp s s' (hP s hs) hrun)

end Contract

end Iperf3
