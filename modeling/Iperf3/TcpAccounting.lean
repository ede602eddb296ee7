import Iperf3.ServerStart
import Iperf3.TcpSend
import Iperf3.WriteCounts
import Mathlib.Tactic

/-!
# Bytes that the kernel has accepted

When `Nwrite` fails after a part of its buffer has been written, its caller
counts none of it.  The counters of the stream and of the test are compared
with what the kernel has taken.
-/

namespace Iperf3

open MachineInt

/-! ## One call of `Nwrite` -/

/-- The call fails after a part of its bytes has been accepted. -/
def StopsPartWay (count : ℕ) (results : List CallResult) : Prop :=
  GivesUp count results ∧ 0 < acceptedBytes count results

instance (count : ℕ) (results : List CallResult) : Decidable (StopsPartWay count results) := by
  unfold StopsPartWay
  infer_instance

theorem nwrite_spec
    {count : ℕ} (hcount : IsInt count) {results : List CallResult} {r : ℤ} {used : ℕ}
    (h : nwrite count results = some (r, used)) :
    (r < 0 ∧ (StopsPartWay count results ∨ acceptedBytes count results = 0)) ∨
      (0 ≤ r ∧ ¬ StopsPartWay count results ∧ r = acceptedBytes count results) := by
  have hbound := (int32_bounds (count : ℤ)).2
  rw [hcount] at hbound
  have hle := acceptedBytes_le count results
  rcases nwrite_returns h with ⟨hup, hneg⟩ | ⟨hup, rfl⟩
  · rcases Nat.eq_zero_or_pos (acceptedBytes count results) with hnone | hsome
    · exact Or.inl ⟨hneg, Or.inr hnone⟩
    · exact Or.inl ⟨hneg, Or.inl ⟨hup, hsome⟩⟩
  · have hexact : int32 (acceptedBytes count results : ℤ) = acceptedBytes count results :=
      IsInt.of_bounds (by omega) (by omega)
    unfold returnedCount
    split_ifs with hnone
    · exact Or.inl ⟨by decide, Or.inr hnone.1⟩
    · rw [hexact]
      exact Or.inr ⟨Int.natCast_nonneg _, fun h => hup h.1, rfl⟩

/-! ## The counters of a worker -/

/-- The results of the writes to come, and for every call of `Nwrite` so far
its count and the results that lay before it. -/
structure KernelWrites where
  results : List CallResult
  writes : List (ℕ × List CallResult)

def kernelWrite : WriteFunction KernelWrites := fun _ count world =>
  (nwrite count world.results).map fun (r, used) =>
    (⟨world.results.drop used, world.writes ++ [(count, world.results)]⟩, r)

def KernelWrites.accepted (world : KernelWrites) : ℕ :=
  (world.writes.map fun write => acceptedBytes write.1 write.2).sum

def KernelWrites.NoneStopsPartWay (world : KernelWrites) : Prop :=
  ∀ write ∈ world.writes, ¬ StopsPartWay write.1 write.2

instance (world : KernelWrites) : Decidable world.NoneStopsPartWay := by
  unfold KernelWrites.NoneStopsPartWay
  infer_instance

namespace TcpSender

/-- The counters agree with the kernel and with each other. -/
structure Accounted (s : TcpSender KernelWrites) : Prop where
  stream_bytes : s.stream.result.bytesSent = s.world.accepted
  test_bytes : s.traffic.bytesSent = s.world.accepted
  blocks : (s.stream.result.bytesSent : ℤ) =
    s.traffic.blocksSent * s.test.settings.blksize +
      (s.test.settings.blksize - s.pendingSize) % s.test.settings.blksize
  pending_nonneg : 0 ≤ s.pendingSize
  pending_le : s.pendingSize ≤ s.test.settings.blksize

def blockSent (s : TcpSender KernelWrites) : ℤ :=
  if s.pendingSize = 0 then 0 else s.test.settings.blksize - s.pendingSize

/-- What the counters are worth whatever the writes come to. -/
structure Counted (s : TcpSender KernelWrites) : Prop where
  blksize_pos : 1 ≤ s.test.settings.blksize
  blksize_int : IsInt s.test.settings.blksize
  pending_nonneg : 0 ≤ s.pendingSize
  pending_le : s.pendingSize ≤ s.test.settings.blksize
  test_bytes : s.traffic.bytesSent = s.stream.result.bytesSent
  blocks : (s.stream.result.bytesSent : ℤ) =
    s.traffic.blocksSent * s.test.settings.blksize + s.blockSent
  bytes_le : s.stream.result.bytesSent ≤ s.world.accepted
  bytes_eq_iff : s.stream.result.bytesSent = s.world.accepted ↔ s.world.NoneStopsPartWay

theorem Counted.accounted_iff {s : TcpSender KernelWrites} (h : s.Counted) :
    s.Accounted ↔ s.world.NoneStopsPartWay := by
  have hpos := h.blksize_pos
  constructor
  · exact fun haccounted => h.bytes_eq_iff.mp haccounted.stream_bytes
  · intro hnone
    have hbytes := h.bytes_eq_iff.mpr hnone
    refine ⟨hbytes, h.test_bytes.trans hbytes, ?_, h.pending_nonneg, h.pending_le⟩
    rw [h.blocks, blockSent]
    split_ifs with hpending
    · rw [hpending, sub_zero, Int.emod_self]
    · have hnonneg := h.pending_nonneg
      have hle := h.pending_le
      rw [Int.emod_eq_of_lt (by omega) (by omega)]

theorem accepted_append (world : KernelWrites) (results : List CallResult) (count : ℕ)
    (before : List CallResult) :
    (KernelWrites.mk results (world.writes ++ [(count, before)])).accepted =
      world.accepted + acceptedBytes count before := by
  simp [KernelWrites.accepted]

theorem noneStopsPartWay_append (world : KernelWrites) (results : List CallResult) (count : ℕ)
    (before : List CallResult) :
    (KernelWrites.mk results (world.writes ++ [(count, before)])).NoneStopsPartWay ↔
      world.NoneStopsPartWay ∧ ¬ StopsPartWay count before := by
  simp only [KernelWrites.NoneStopsPartWay, List.mem_append, List.mem_singleton]
  constructor
  · exact fun h => ⟨fun write hwrite => h write (Or.inl hwrite), h _ (Or.inr rfl)⟩
  · rintro ⟨hold, hnew⟩ write (hwrite | rfl)
    · exact hold write hwrite
    · exact hnew

theorem Counted.request {s : TcpSender KernelWrites} (h : s.Counted) :
    1 ≤ s.refill.pendingSize ∧ s.refill.pendingSize ≤ s.test.settings.blksize ∧
      (uint64 s.refill.pendingSize : ℤ) = s.refill.pendingSize ∧
      IsInt (uint64 s.refill.pendingSize : ℕ) := by
  have hpos := h.blksize_pos
  have hnonneg := h.pending_nonneg
  have hle := h.pending_le
  have hbound := (int32_bounds s.test.settings.blksize).2
  rw [h.blksize_int] at hbound
  have hpending : 1 ≤ s.refill.pendingSize ∧ s.refill.pendingSize ≤ s.test.settings.blksize := by
    unfold refill
    split_ifs
    · exact ⟨hpos, le_rfl⟩
    · exact ⟨by omega, hle⟩
  have hcount : (uint64 s.refill.pendingSize : ℤ) = s.refill.pendingSize :=
    uint64_of_mem (by omega) (by omega)
  have hint : IsInt (uint64 s.refill.pendingSize : ℕ) := by
    rw [hcount]
    exact IsInt.of_bounds (by omega) (by omega)
  exact ⟨hpending.1, hpending.2, hcount, hint⟩

theorem blockSent_refill (s : TcpSender KernelWrites) :
    s.test.settings.blksize - s.refill.pendingSize = s.blockSent := by
  unfold refill blockSent
  split_ifs with hpending
  · exact sub_self _
  · rfl

/-- The world after a call of `Nwrite` that has made `used` writes. -/
def afterWrite (used : ℕ) (s : TcpSender KernelWrites) : KernelWrites :=
  ⟨s.world.results.drop used,
    s.world.writes ++ [(uint64 s.refill.pendingSize, s.world.results)]⟩

theorem iperfTcpSend_cases
    {s s' : TcpSender KernelWrites} {r : ℤ}
    (hsend : s.iperfTcpSend kernelWrite = some (s', r)) :
    ∃ used, nwrite (uint64 s.refill.pendingSize) s.world.results = some (r, used) ∧
      ((r < 0 ∧ s' = { s.refill with world := s.afterWrite used }) ∨
        (0 ≤ r ∧ s' = { s.refill.countBytes r with world := s.afterWrite used })) := by
  simp only [iperfTcpSend, kernelWrite, Option.map_map, Option.map_eq_some_iff] at hsend
  obtain ⟨⟨r₁, used⟩, hwrite, hresult⟩ := hsend
  simp only [Function.comp] at hresult
  split_ifs at hresult with hneg
  · obtain ⟨rfl, rfl⟩ := Prod.mk.inj hresult
    exact ⟨used, hwrite, Or.inl ⟨hneg, rfl⟩⟩
  · obtain ⟨rfl, rfl⟩ := Prod.mk.inj hresult
    exact ⟨used, hwrite, Or.inr ⟨not_lt.mp hneg, rfl⟩⟩

/-- A send that fails counts nothing, and the kernel has taken nothing unless
the send has stopped part way. -/
theorem Counted.send_fails
    {s s' : TcpSender KernelWrites} {r : ℤ} (h : s.Counted)
    (hsend : s.iperfTcpSend kernelWrite = some (s', r)) (hneg : r < 0) : s'.Counted := by
  obtain ⟨hlow, hhigh, -, hint⟩ := h.request
  obtain ⟨used, hwrite, ⟨-, rfl⟩ | ⟨hnonneg, -⟩⟩ := iperfTcpSend_cases hsend
  · have hbytes := h.bytes_le
    have hiff := h.bytes_eq_iff
    have hblock :
        ({ s.refill with world := s.afterWrite used } : TcpSender KernelWrites).blockSent =
          s.blockSent := by
      rw [← blockSent_refill s, blockSent, if_neg (show s.refill.pendingSize ≠ 0 by omega)]
      simp
    refine ⟨by simpa using h.blksize_pos, by simpa using h.blksize_int,
      le_trans zero_le_one hlow, by simpa using hhigh, by simpa using h.test_bytes, ?_, ?_, ?_⟩
    · rw [hblock]
      simpa using h.blocks
    · rw [afterWrite, accepted_append, refill_stream]
      omega
    · rw [afterWrite, accepted_append, noneStopsPartWay_append, refill_stream, ← hiff]
      rcases nwrite_spec hint hwrite with ⟨-, hstops | hnothing⟩ | ⟨hnonneg, -⟩
      · have hsome := hstops.2
        constructor
        · omega
        · exact fun hno => absurd hstops hno.2
      · have hno : ¬ StopsPartWay (uint64 s.refill.pendingSize) s.world.results :=
          fun hstops => absurd hnothing hstops.2.ne'
        simp [hnothing, hno]
      · omega
  · omega

/-- A send that is counted advances the block by what the kernel has taken. -/
theorem Counted.send_counts
    {s s' : TcpSender KernelWrites} {r : ℤ} (h : s.Counted)
    (hsend : s.iperfTcpSend kernelWrite = some (s', r)) (hnonneg : 0 ≤ r) :
    (s'.countBlock r).Counted := by
  obtain ⟨hlow, hhigh, hcount, hint⟩ := h.request
  obtain ⟨used, hwrite, ⟨hneg, -⟩ | ⟨-, rfl⟩⟩ := iperfTcpSend_cases hsend
  · omega
  · obtain ⟨hno, haccepted⟩ : ¬ StopsPartWay (uint64 s.refill.pendingSize) s.world.results ∧
        r = acceptedBytes (uint64 s.refill.pendingSize) s.world.results := by
      rcases nwrite_spec hint hwrite with ⟨hneg, -⟩ | ⟨-, hspec⟩
      · omega
      · exact hspec
    have hle := acceptedBytes_le (uint64 s.refill.pendingSize) s.world.results
    have hbytes := h.bytes_le
    have hiff := h.bytes_eq_iff
    have htest := h.test_bytes
    have hblocks := h.blocks
    rw [← blockSent_refill] at hblocks
    refine ⟨by simpa [countBlock, countBytes] using h.blksize_pos,
      by simpa [countBlock, countBytes] using h.blksize_int, ?_, ?_, ?_, ?_, ?_, ?_⟩
    · simp only [countBlock, countBytes]
      omega
    · simp only [countBlock, countBytes, refill_test]
      omega
    · simp only [countBlock, countBytes, Traffic.iperfSendMt, refill_traffic, refill_stream]
      omega
    · simp only [countBlock, countBytes, Traffic.iperfSendMt, refill_traffic, refill_stream,
        refill_test, blockSent, decide_eq_true_eq]
      push_cast [Int.toNat_of_nonneg hnonneg]
      split_ifs with hdone
      · linarith
      · linarith
    · simp only [countBlock, countBytes, afterWrite, accepted_append, refill_stream]
      omega
    · simp only [countBlock, countBytes, afterWrite, accepted_append, noneStopsPartWay_append,
        refill_stream]
      rw [← hiff]
      simp only [hno, not_false_eq_true, and_true]
      omega

theorem Counted.keeps : Keeps Counted (iperfTcpSend kernelWrite) where
  counted _ _ _ h hsend hnonneg := h.send_counts hsend hnonneg
  soft _ _ _ h hsend hneg := h.send_fails hsend hneg
  fails _ h := ⟨h.blksize_pos, h.blksize_int, h.pending_nonneg, h.pending_le, h.test_bytes,
    h.blocks, h.bytes_le, h.bytes_eq_iff⟩

def start (t : Test) (buffer : List UInt8) (results : List CallResult) :
    TcpSender KernelWrites where
  test := t
  stream := iperfNewStream true buffer
  traffic := Traffic.initial t
  pendingSize := 0
  world := ⟨results, []⟩

/-- At the end of every call the counters are right exactly when no call of
`Nwrite` has stopped part way so far. -/
theorem sender_accounted_iff
    {t : Test} (hpos : 1 ≤ t.settings.blksize) (hint : IsInt t.settings.blksize)
    (buffer : List UInt8) (results : List CallResult) (greens : List (ℕ → Bool)) :
    ∀ s ∈ calls (iperfTcpSend kernelWrite) greens (start t buffer results),
      s.Accounted ↔ s.world.NoneStopsPartWay := by
  have hstart : (start t buffer results).Counted := by
    refine ⟨hpos, hint, le_rfl, le_trans zero_le_one hpos, rfl, ?_, le_rfl, ?_⟩
    · simp [start, blockSent, iperfNewStream, Traffic.initial]
    · simp [start, iperfNewStream, KernelWrites.accepted, KernelWrites.NoneStopsPartWay]
  exact fun s hs => (Counted.keeps.calls greens hstart s hs).accounted_iff

/-- The worker of a TCP test with the default block size, which makes two
calls. -/
def defaultCalls (results : List CallResult) : List (TcpSender KernelWrites) :=
  calls (iperfTcpSend kernelWrite) [fun _ => true, fun _ => true]
    (start (serverStart Build.linux ServerArgs.default) [] results)

/-- A block is interrupted after 100000 of its 131072 bytes and goes on. -/
def interruptedWrites : List CallResult :=
  [.transferred 100000, .failed (.code .intr), .transferred 31072, .failed .again,
    .transferred 131072, .failed (.code .nobufs)]

theorem sender_accounted_interrupted :
    (defaultCalls interruptedWrites).length = 2 ∧
      ∀ s ∈ defaultCalls interruptedWrites, s.Accounted := by
  have hnone : ∀ s ∈ defaultCalls interruptedWrites, s.world.NoneStopsPartWay := by
    decide +kernel
  refine ⟨by decide +kernel, fun s hs => ?_⟩
  exact (sender_accounted_iff (by decide) (IsInt.of_bounds (by decide) (by decide)) [] _ _ s hs).mpr
    (hnone s hs)

/-- When buffers run out after a first write, that write is counted nowhere. -/
theorem nobufs_loses_bytes :
    ¬ ∀ s ∈ defaultCalls [.transferred 4096, .failed (.code .nobufs), .transferred 0],
      s.Accounted := by
  intro h
  obtain ⟨s, hs, hsent, haccepted⟩ :
      ∃ s ∈ defaultCalls [.transferred 4096, .failed (.code .nobufs), .transferred 0],
        s.stream.result.bytesSent = 0 ∧ s.world.accepted = 4096 := by
    decide +kernel
  have hbytes := (h s hs).stream_bytes
  omega

end TcpSender

end Iperf3
