import Mathlib.Tactic

/-!
# Channels that carry items of several kinds

A writer puts items on a queue of bytes.  A reader takes a number of bytes off
it, for an item of the kind that it expects, and does not see where one item
ends and the next one begins.  Both lists of items are kept, so that it can be
said that the reader has taken the items as they were written.
-/

namespace Channels

structure Item (κ : Type) where
  kind : κ
  bytes : List UInt8
  deriving DecidableEq, Repr

structure Channel (κ : Type) where
  bytes : List UInt8
  closed : Bool
  written : List (Item κ)
  taken : List (Item κ)
  deriving DecidableEq, Repr

namespace Channel

variable {κ : Type} {c : Channel κ}

def empty : Channel κ where
  bytes := []
  closed := false
  written := []
  taken := []

def write (items : List (Item κ)) (c : Channel κ) : Channel κ :=
  { c with
    bytes := c.bytes ++ items.flatMap Item.bytes
    written := c.written ++ items }

def close (c : Channel κ) : Channel κ :=
  { c with closed := true }

/-- The next `n` bytes are taken for an item of this kind. -/
def take (kind : κ) (n : ℕ) (c : Channel κ) : Channel κ :=
  { c with
    bytes := c.bytes.drop n
    taken := c.taken ++ [⟨kind, c.bytes.take n⟩] }

/-- A blocking read.  There is no result while it blocks, and no bytes in it
when the writer has closed before it has written enough. -/
def read (kind : κ) (n : ℕ) (c : Channel κ) : Option (Option (List UInt8) × Channel κ) :=
  if n ≤ c.bytes.length then some (some (c.bytes.take n), c.take kind n)
  else if c.closed then some (none, { c with bytes := [] })
  else none

/-- What `select` says about the reading end. -/
def readable (c : Channel κ) : Bool :=
  !c.bytes.isEmpty || c.closed

/-- The items have been taken as they were written, up to the `pending`
ones. -/
structure Agrees (c : Channel κ) (pending : List (Item κ)) : Prop where
  written : c.written = c.taken ++ pending
  bytes : c.bytes = pending.flatMap Item.bytes

theorem agrees_empty : (empty : Channel κ).Agrees [] :=
  ⟨rfl, rfl⟩

theorem Agrees.taken_prefix {pending : List (Item κ)} (h : c.Agrees pending) :
    c.taken <+: c.written :=
  ⟨pending, h.written.symm⟩

theorem Agrees.write {pending : List (Item κ)} (h : c.Agrees pending) (items : List (Item κ)) :
    (c.write items).Agrees (pending ++ items) where
  written := by rw [Channel.write, h.written, List.append_assoc]
  bytes := by rw [Channel.write, h.bytes, List.flatMap_append]

theorem Agrees.close {pending : List (Item κ)} (h : c.Agrees pending) :
    c.close.Agrees pending :=
  ⟨h.written, h.bytes⟩

/-- Taking the bytes of the next item, with its kind, takes this item. -/
theorem Agrees.take {item : Item κ} {pending : List (Item κ)} (h : c.Agrees (item :: pending)) :
    (c.take item.kind item.bytes.length).Agrees pending ∧
      (c.take item.kind item.bytes.length).taken = c.taken ++ [item] := by
  have hbytes : c.bytes = item.bytes ++ pending.flatMap Item.bytes := by
    rw [h.bytes, List.flatMap_cons]
  have htaken : (c.take item.kind item.bytes.length).taken = c.taken ++ [item] := by
    rw [Channel.take, hbytes, List.take_left]
  refine ⟨⟨?_, ?_⟩, htaken⟩
  · rw [htaken, List.append_assoc, List.singleton_append]
    exact h.written
  · rw [Channel.take, hbytes, List.drop_left]

/-- Reading as much as the next item has takes it. -/
theorem Agrees.read {item : Item κ} {pending : List (Item κ)} (h : c.Agrees (item :: pending))
    (kind : κ) (n : ℕ) (hkind : item.kind = kind) (hlength : item.bytes.length = n) :
    ∃ c', c.read kind n = some (some item.bytes, c') ∧ c'.Agrees pending ∧
      c'.taken = c.taken ++ [item] ∧ c'.written = c.written ∧ c'.closed = c.closed := by
  subst hkind hlength
  have hbytes : c.bytes = item.bytes ++ pending.flatMap Item.bytes := by
    rw [h.bytes, List.flatMap_cons]
  refine ⟨c.take item.kind item.bytes.length, ?_, h.take.1, h.take.2, rfl, rfl⟩
  rw [Channel.read, if_pos (by simp [hbytes]), hbytes, List.take_left]

theorem Agrees.read_nil (h : c.Agrees []) (kind : κ) {n : ℕ} (hn : 0 < n) :
    c.read kind n = if c.closed then some (none, c) else none := by
  have hbytes : c.bytes = [] := h.bytes
  rw [Channel.read, if_neg (by simp [hbytes]; omega), ← hbytes]

end Channel

/-! ## Scripts -/

/-- Every element is one that `P` allows at its place. -/
def Line {α : Type} (P : ℕ → α → Prop) (l : List α) : Prop :=
  ∀ i x, l[i]? = some x → P i x

section Line

variable {α : Type} {P : ℕ → α → Prop} {l : List α} {x : α}

theorem line_nil : Line P [] :=
  nofun

theorem Line.concat (h : Line P l) (hx : P l.length x) : Line P (l ++ [x]) := by
  intro i y hy
  rcases lt_trichotomy i l.length with hi | rfl | hi
  · rw [List.getElem?_append_left hi] at hy
    exact h i y hy
  · simp only [List.getElem?_concat_length, Option.some.injEq] at hy
    exact hy ▸ hx
  · rw [List.getElem?_eq_none (by simp; omega)] at hy
    cases hy

theorem line_append_left {l' : List α} (h : Line P (l ++ l')) : Line P l := by
  intro i y hy
  have hlt : i < l.length := (List.getElem?_eq_some_iff.mp hy).1
  exact h i y (by rw [List.getElem?_append_left hlt, hy])

/-- What comes after the first part of a script is the next of the script. -/
theorem Line.next {l' : List α} (h : Line P (l ++ x :: l')) : P l.length x := by
  apply h
  rw [List.getElem?_append_right (le_refl _), Nat.sub_self, List.getElem?_cons_zero]

/-- What has been taken of a script with something else after it is a part of
the script, if nothing else is taken. -/
theorem Line.split {taken pending late : List α} (h : Line P taken)
    (heq : taken ++ pending = l ++ late) (hlate : ∀ x, late.head? = some x → ¬ P l.length x) :
    ∃ rest, l = taken ++ rest ∧ pending = rest ++ late := by
  rcases List.append_eq_append_iff.mp heq with ⟨rest, hl, hpending⟩ | ⟨rest, htaken, hl⟩
  · exact ⟨rest, hl, hpending⟩
  · cases rest with
    | nil => exact ⟨[], by simpa using htaken.symm, by simpa using hl.symm⟩
    | cons x rest =>
        rw [htaken] at h
        exact absurd h.next (hlate x (by rw [hl]; rfl))

end Line

end Channels
