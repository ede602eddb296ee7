import Mathlib.Tactic

/-!
# Workers on sockets

A worker is a thread that reads from or writes to one socket.  The thread
that waits for it in a join waits for ever if the worker is inside a blocking
call on a socket that is open: closing the socket, or shutting it down, ends
the call.
-/

namespace Iperf3

structure Worker where
  created : Bool
  returned : Bool
  socketOpen : Bool
  deriving DecidableEq, Repr

/-- The worker may be inside a blocking call. -/
def Worker.blocked (w : Worker) : Bool :=
  w.created && !w.returned && w.socketOpen

abbrev Workers : Type := List Worker

namespace Workers

/-- No worker has to be waited for. -/
def Safe (ws : Workers) : Prop :=
  ∀ w ∈ ws, w.blocked = false

instance (ws : Workers) : Decidable ws.Safe := by
  unfold Safe
  infer_instance

/-- A new socket, whose worker is still to be created. -/
def add (ws : Workers) : Workers :=
  ws ++ [⟨false, false, true⟩]

/-- The first workers are created. -/
def spawn (count : ℕ) (ws : Workers) : Workers :=
  ws.mapIdx fun i w => if i < count then { w with created := true, returned := false } else w

def returns (i : ℕ) (ws : Workers) : Workers :=
  ws.modify i fun w => { w with returned := true }

def close (i : ℕ) (ws : Workers) : Workers :=
  ws.modify i fun w => { w with socketOpen := false }

def closeAll (ws : Workers) : Workers :=
  ws.map fun w => { w with socketOpen := false }

/-- Workers that are joined are gone. -/
def join (i : ℕ) (ws : Workers) : Workers :=
  ws.modify i fun w => { w with created := false }

def joinAll (ws : Workers) : Workers :=
  ws.map fun w => { w with created := false }

variable {ws : Workers}

@[simp] theorem safe_nil : Safe [] := by
  intro w hw
  cases hw

theorem Safe.add (h : ws.Safe) : ws.add.Safe := by
  intro w hw
  rcases List.mem_append.mp hw with hw | hw
  · exact h w hw
  · rw [List.mem_singleton.mp hw]
    rfl

theorem Safe.modify (h : ws.Safe) {f : Worker → Worker} (i : ℕ)
    (hf : ∀ w, w.blocked = false → (f w).blocked = false) : Safe (ws.modify i f) := by
  induction ws generalizing i with
  | nil => simp
  | cons w ws ih =>
      have htail : Safe ws := fun u hu => h u (List.mem_cons_of_mem w hu)
      have hhead := h w List.mem_cons_self
      intro u hu
      cases i with
      | zero =>
          rw [List.modify_zero_cons] at hu
          rcases List.mem_cons.mp hu with rfl | hu
          · exact hf w hhead
          · exact htail u hu
      | succ i =>
          rw [List.modify_succ_cons] at hu
          rcases List.mem_cons.mp hu with rfl | hu
          · exact hhead
          · exact ih htail i u hu

theorem Safe.returns (h : ws.Safe) (i : ℕ) : (ws.returns i).Safe :=
  h.modify i fun w hw => by simp_all [Worker.blocked]

theorem Safe.close (h : ws.Safe) (i : ℕ) : (ws.close i).Safe :=
  h.modify i fun w hw => by simp_all [Worker.blocked]

theorem Safe.join (h : ws.Safe) (i : ℕ) : (ws.join i).Safe :=
  h.modify i fun w hw => by simp_all [Worker.blocked]

/-- No worker of these numbers has to be waited for. -/
def Joinable (ws : Workers) (numbers : List ℕ) : Prop :=
  ∀ i ∈ numbers, ∀ w, ws[i]? = some w → w.blocked = false

theorem Safe.joinable (h : ws.Safe) (numbers : List ℕ) : ws.Joinable numbers :=
  fun _ _ w hw => h w (List.mem_of_getElem? hw)

theorem Joinable.returns {numbers : List ℕ} (h : ws.Joinable numbers) (j : ℕ) :
    (ws.returns j).Joinable numbers := by
  intro i hi w hw
  unfold Workers.returns at hw
  rw [List.getElem?_modify] at hw
  cases hold : ws[i]? with
  | none => simp [hold] at hw
  | some old =>
      have hblocked := h i hi old hold
      rw [hold, Option.map_eq_map, Option.map_some] at hw
      obtain rfl := Option.some.inj hw
      split_ifs
      · simp [Worker.blocked]
      · exact hblocked

theorem safe_closeAll (ws : Workers) : ws.closeAll.Safe := by
  intro w hw
  obtain ⟨old, -, rfl⟩ := List.mem_map.mp hw
  simp [Worker.blocked]

/-- Every socket is closed. -/
def Closed (ws : Workers) : Prop :=
  ∀ w ∈ ws, w.socketOpen = false

theorem closed_closeAll (ws : Workers) : ws.closeAll.Closed := by
  intro w hw
  obtain ⟨old, -, rfl⟩ := List.mem_map.mp hw
  rfl

theorem Closed.safe (h : ws.Closed) : ws.Safe := by
  intro w hw
  simp [Worker.blocked, h w hw]

theorem Closed.spawn (h : ws.Closed) (count : ℕ) : (ws.spawn count).Closed := by
  intro w hw
  obtain ⟨i, hi, rfl⟩ := List.mem_mapIdx.mp hw
  have hclosed := h ws[i] (List.getElem_mem hi)
  split_ifs <;> exact hclosed

@[simp] theorem spawn_zero (ws : Workers) : ws.spawn 0 = ws := by
  apply List.ext_getElem
  · simp [spawn]
  · simp [spawn]

end Workers

end Iperf3
