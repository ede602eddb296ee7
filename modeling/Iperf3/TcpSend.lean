import Iperf3.EndCondition
import Iperf3.SocketLoops
import Iperf3.TestModel
import Mathlib.Tactic

/-!
# A sending worker on TCP

The loop of `iperf_send_mt` around the send function of the stream, and
`iperf_tcp_send` around the function that writes to the socket.  What lies
behind the socket is a world of any kind: the write function takes the
buffer, the number of bytes and the world, and there is no result as long as
it blocks.
-/

namespace Iperf3

open MachineInt

universe u

structure TcpSender (ω : Type u) where
  test : Test
  stream : Stream
  traffic : Traffic
  pendingSize : ℤ
  world : ω

/-- Writes a number of bytes from the front of a buffer. -/
abbrev WriteFunction (ω : Type u) : Type u := List UInt8 → ℕ → ω → Option (ω × ℤ)

abbrev SendFunction (ω : Type u) : Type u := TcpSender ω → Option (TcpSender ω × ℤ)

variable {ω : Type u}

namespace TcpSender

/-- A block that is finished is followed by a whole one. -/
def refill (s : TcpSender ω) : TcpSender ω :=
  if s.pendingSize = 0 then { s with pendingSize := s.test.settings.blksize } else s

@[simp] theorem refill_test (s : TcpSender ω) : s.refill.test = s.test := by
  unfold refill
  split_ifs <;> rfl

@[simp] theorem refill_stream (s : TcpSender ω) : s.refill.stream = s.stream := by
  unfold refill
  split_ifs <;> rfl

@[simp] theorem refill_traffic (s : TcpSender ω) : s.refill.traffic = s.traffic := by
  unfold refill
  split_ifs <;> rfl

def countBytes (r : ℤ) (s : TcpSender ω) : TcpSender ω :=
  { s with
    pendingSize := s.pendingSize - r
    stream := { s.stream with result := { s.stream.result with
      bytesSent := s.stream.result.bytesSent + r.toNat
      bytesSentThisInterval := s.stream.result.bytesSentThisInterval + r.toNat } } }

/-- The write function is `Nwrite`, or `Nsendfile` with zero copy. -/
def iperfTcpSend (write : WriteFunction ω) (s : TcpSender ω) : Option (TcpSender ω × ℤ) :=
  (write s.stream.buffer (uint64 s.refill.pendingSize) s.world).map fun (world, r) =>
    if r < 0 then ({ s.refill with world := world }, r)
    else ({ s.refill.countBytes r with world := world }, r)

/-- Sends of one call; ten if neither a burst nor a rate is set. -/
def multisend (s : TcpSender ω) : ℕ :=
  if s.test.settings.burst ≠ 0 then s.test.settings.burst.toNat
  else if s.test.settings.rate = 0 then 10
  else 1

def limitReached (s : TcpSender ω) : Bool :=
  (s.test.settings.bytes ≠ 0 && s.test.settings.bytes ≤ s.traffic.bytesSent) ||
    (s.test.settings.blocks ≠ 0 && s.test.settings.blocks ≤ s.traffic.blocksSent)

def countBlock (r : ℤ) (s : TcpSender ω) : TcpSender ω :=
  { s with traffic := s.traffic.iperfSendMt r.toNat (s.pendingSize = 0) }

def writeFails (s : TcpSender ω) : TcpSender ω :=
  { s with test := { s.test with iErrno := .ieStreamWrite } }

/-- The loop with the number of sends that are left; `green` is what it finds
in the stream's green light then. -/
def sendLoop (snd : SendFunction ω) (green : ℕ → Bool) :
    ℕ → TcpSender ω → Option (TcpSender ω × ℤ)
  | 0, s => some (s, 0)
  | left + 1, s =>
      if green (left + 1) = false ∨ (0 < left ∧ s.limitReached = true) then some (s, 0)
      else
        match snd s with
        | none => none
        | some (s, r) =>
            if r < 0 then if r = netSofterror then some (s, 0) else some (s.writeFails, r)
            else sendLoop snd green left (s.countBlock r)

def iperfSendMt (snd : SendFunction ω) (green : ℕ → Bool) (s : TcpSender ω) :
    Option (TcpSender ω × ℤ) :=
  sendLoop snd green s.multisend s

/-- The states at the end of the worker's calls, up to one that fails or does
not return. -/
def calls (snd : SendFunction ω) : List (ℕ → Bool) → TcpSender ω → List (TcpSender ω)
  | [], _ => []
  | green :: greens, s =>
      match iperfSendMt snd green s with
      | none => []
      | some (s, r) => s :: if r < 0 then [] else calls snd greens s

/-! ## What the loop keeps -/

section Keeps

variable {P : TcpSender ω → Prop} {snd : SendFunction ω}

/-- What every send keeps, whether it is counted or fails. -/
structure Keeps (P : TcpSender ω → Prop) (snd : SendFunction ω) : Prop where
  counted : ∀ s s' r, P s → snd s = some (s', r) → 0 ≤ r → P (s'.countBlock r)
  soft : ∀ s s' r, P s → snd s = some (s', r) → r < 0 → P s'
  fails : ∀ s, P s → P s.writeFails

theorem Keeps.sendLoop (h : Keeps P snd) (green : ℕ → Bool) {left : ℕ} {s s' : TcpSender ω}
    {r : ℤ} (hs : P s) (hloop : sendLoop snd green left s = some (s', r)) : P s' := by
  induction left generalizing s with
  | zero =>
      obtain ⟨rfl, -⟩ : s = s' ∧ 0 = r := by simpa [TcpSender.sendLoop] using hloop
      exact hs
  | succ left ih =>
      unfold TcpSender.sendLoop at hloop
      split_ifs at hloop with hstops
      · obtain ⟨rfl, -⟩ : s = s' ∧ 0 = r := by simpa using hloop
        exact hs
      · cases hsnd : snd s with
        | none => simp [hsnd] at hloop
        | some sent =>
            obtain ⟨s₁, r₁⟩ := sent
            simp only [hsnd] at hloop
            split_ifs at hloop with hneg hsoft
            · obtain ⟨rfl, -⟩ : s₁ = s' ∧ 0 = r := by simpa using hloop
              exact h.soft s s₁ r₁ hs hsnd hneg
            · obtain ⟨rfl, -⟩ : s₁.writeFails = s' ∧ r₁ = r := by simpa using hloop
              exact h.fails s₁ (h.soft s s₁ r₁ hs hsnd hneg)
            · exact ih (h.counted s s₁ r₁ hs hsnd (not_lt.mp hneg)) hloop

theorem Keeps.calls (h : Keeps P snd) (greens : List (ℕ → Bool)) {s : TcpSender ω} (hs : P s) :
    ∀ s' ∈ calls snd greens s, P s' := by
  induction greens generalizing s with
  | nil => simp [TcpSender.calls]
  | cons green greens ih =>
      intro s' hs'
      unfold TcpSender.calls at hs'
      cases hcall : iperfSendMt snd green s with
      | none => simp [hcall] at hs'
      | some result =>
          obtain ⟨s₁, r⟩ := result
          have hfirst : P s₁ := h.sendLoop green hs hcall
          simp only [hcall, List.mem_cons] at hs'
          rcases hs' with rfl | hlater
          · exact hfirst
          · split_ifs at hlater
            · exact absurd hlater List.not_mem_nil
            · exact ih hfirst s' hlater

end Keeps

end TcpSender

end Iperf3
