import Iperf3.ClientStart
import Iperf3.ParameterFields
import Iperf3.StrideLoop
import Iperf3.UdpAccounting
import Mathlib.Tactic

/-!
# Bounds of the UDP data path

The size of a stream's buffer, the step between two datagrams in it and the
length of a system call come from different members of the client's message.
Both data loops are run here on offsets alone, and their accesses compared
with the buffer that `iperf_new_stream` has allocated.
-/

namespace Iperf3

open MachineInt

/-! ## The buffer -/

/-- `iperf_udp_accept` turns off what the socket does not take. -/
def Test.udpAccept (gsoSet groSet : Bool) (t : Test) : Test :=
  { t with settings := { t.settings with
      gso := if gsoSet then t.settings.gso else 0
      gro := if groSet then t.settings.gro else 0 } }

/-- The size that `iperf_new_stream` gives to the buffer. -/
def Test.bufferSize (t : Test) : ℤ :=
  let size := t.settings.blksize
  let size :=
    if t.protocol = .udp ∧ t.settings.gso ≠ 0 ∧ size < t.settings.gsoBfSize then
      t.settings.gsoBfSize
    else size
  if t.protocol = .udp ∧ t.settings.gro ≠ 0 ∧ size < t.settings.groBfSize then
    t.settings.groBfSize
  else size

/-- A file cannot be cut to a negative size, and `mmap` fails on an empty
range, but on Windows it is `calloc`. -/
def Test.allocates (b : Build) (t : Test) : Bool :=
  0 ≤ t.bufferSize && (b.windows || t.bufferSize ≠ 0)

/-- One of the settings gives the buffer `x` bytes. -/
def Test.Room (t : Test) (x : ℤ) : Prop :=
  x ≤ t.settings.blksize ∨
    t.settings.gso ≠ 0 ∧ x ≤ t.settings.gsoBfSize ∨
    t.settings.gro ≠ 0 ∧ x ≤ t.settings.groBfSize

instance (t : Test) (x : ℤ) : Decidable (t.Room x) :=
  inferInstanceAs (Decidable (_ ∨ _))

theorem le_bufferSize_iff {t : Test} (hudp : t.protocol = .udp) (x : ℤ) :
    x ≤ t.bufferSize ↔ t.Room x := by
  unfold Test.bufferSize Test.Room
  by_cases hgso : t.settings.gso = 0 <;> by_cases hgro : t.settings.gro = 0 <;>
    simp only [hudp, hgso, hgro, ne_eq, not_true, not_false_iff, true_and, false_and, or_false,
      false_or, if_false] <;>
    split_ifs <;> omega

/-- Settings with which a stream gets its buffer. -/
def Test.Mapped (b : Build) (t : Test) : Prop :=
  t.Room (if b.windows then 0 else 1)

theorem allocates_iff {b : Build} {t : Test} (hudp : t.protocol = .udp) :
    t.allocates b = true ↔ t.Mapped b := by
  rw [Test.Mapped, ← le_bufferSize_iff hudp]
  cases hwindows : b.windows <;> simp [Test.allocates, hwindows]
  omega

/-! ## Ranges of the sizes -/

/-- The sizes are values of C integers. -/
structure Settings.SizesAreInts (s : Settings) : Prop where
  blksize : IsInt s.blksize
  gsoBfSize : IsInt s.gsoBfSize
  groBfSize : IsInt s.groBfSize

theorem IsInt.bounds {n : ℤ} (h : IsInt n) : -2147483648 ≤ n ∧ n < 2147483648 := by
  have hbounds := int32_bounds n
  rwa [show int32 n = n from h] at hbounds

theorem IsInt.tdiv_mul {n m : ℤ} (hm : 0 < m) (h : IsInt n) : IsInt (n.tdiv m * m) := by
  have hbounds := h.bounds
  rcases le_total 0 n with hn | hn
  · have hproduct := tdiv_mul_bounds hm ⟨hn, le_refl n⟩
    exact IsInt.of_bounds (by omega) (by omega)
  · have hproduct := tdiv_mul_bounds hm ⟨neg_nonneg.mpr hn, le_refl (-n)⟩
    rw [Int.neg_tdiv, neg_mul] at hproduct
    exact IsInt.of_bounds (by omega) (by omega)

theorem isInt_readInt {old : ℤ} (h : IsInt old) (j : Json) (key : Key) :
    IsInt (readInt j key old) := by
  unfold readInt
  cases j.numberItem key with
  | none => exact h
  | some n => exact isInt_int32 n

theorem Settings.SizesAreInts.getParameters {t : Test} (h : t.settings.SizesAreInts)
    (b : Build) (j : Json) : (getParameters b (some j) t).1.settings.SizesAreInts := by
  obtain ⟨r, e, heq⟩ := getParameters_eq b j t
  rw [heq]
  refine ⟨isInt_readInt h.blksize j .len, ?_, isInt_readInt h.groBfSize j .groBfSize⟩
  have hbfSize := isInt_readInt h.gsoBfSize j .gsoBfSize
  show IsInt (assignedGsoSizes b j t).2
  unfold assignedGsoSizes selectGsoSizes
  split_ifs with _ hpos
  · exact hbfSize.tdiv_mul hpos
  · exact hbfSize
  · exact hbfSize

/-! ## Sending -/

def Test.headerWidth (t : Test) : ℕ :=
  if t.udpCounters64bit ≠ 0 then maxPktSize else minPktSize

/-- There is another datagram in the write. -/
def sendGuard (dgramSz bufSz pos left : ℤ) : Bool :=
  0 < left ∧ pos + dgramSz ≤ bufSz ∧ dgramSz ≤ left

/-- The offsets of the headers that one call of `iperf_udp_send` writes. -/
def Settings.headerOffsets (s : Settings) : Option (List ℤ) :=
  let (dgramSz, bufSz, _) := s.sendSizes
  StrideLoop.visits (sendGuard dgramSz bufSz) dgramSz (bufSz.toNat + 1) 0 bufSz

/-- The length for `Nwrite_gso` or for `Nwrite`. -/
def Settings.sendLength (s : Settings) : ℕ :=
  if s.sendSizes.2.2 ≠ 0 then uint64 s.gsoBfSize else uint64 s.blksize

theorem sendSizes_le_bufferSize {t : Test} (hudp : t.protocol = .udp) :
    t.settings.sendSizes.2.1 ≤ t.bufferSize := by
  rw [le_bufferSize_iff hudp]
  unfold Settings.sendSizes
  split_ifs with hgso hvalid
  · exact Or.inr (Or.inl ⟨hgso, le_refl _⟩)
  · exact Or.inl (le_refl _)
  · exact Or.inl (le_refl _)

/-- The header bytes and the length of one call are within the buffer. -/
structure SendInBounds (t : Test) (capacity : ℤ) : Prop where
  headers : ∃ offsets, t.settings.headerOffsets = some offsets ∧
    ∀ pos ∈ offsets, ∀ k < t.headerWidth, 0 ≤ pos + k ∧ pos + k < capacity
  length : 1 ≤ t.settings.sendLength ∧ (t.settings.sendLength : ℤ) ≤ capacity

/-- The last header of an offloaded write, or the only one of another, is
within the buffer. -/
def Test.SendFits (t : Test) : Prop :=
  if t.settings.gso ≠ 0 ∧ t.settings.gsoValid then
    t.Room ((t.settings.gsoBfSize / t.settings.gsoDgSize - 1) * t.settings.gsoDgSize +
      t.headerWidth)
  else 1 ≤ t.settings.blksize ∧ t.Room t.headerWidth

instance (t : Test) : Decidable t.SendFits := by
  unfold Test.SendFits
  infer_instance

theorem headerWidth_bounds (t : Test) : 12 ≤ t.headerWidth ∧ t.headerWidth ≤ 16 := by
  unfold Test.headerWidth minPktSize maxPktSize
  split_ifs <;> omega

/-- With datagrams of a positive size that fit into the write, the headers
stand at the multiples of that size. -/
theorem headerOffsets_spec {s : Settings} {d size gso : ℤ}
    (hsizes : s.sendSizes = (d, size, gso)) (hd : 0 < d) (hfits : d ≤ size) :
    ∃ offsets, s.headerOffsets = some offsets ∧
      (∀ pos ∈ offsets, 0 ≤ pos ∧ pos ≤ (size / d - 1) * d) ∧
      (size / d - 1) * d ∈ offsets := by
  have hguard : ∀ pos left, sendGuard d size pos left = true →
      0 < left ∧ pos + d ≤ size ∧ d ≤ left := fun _ _ h => of_decide_eq_true h
  obtain ⟨offsets, hoffsets⟩ := StrideLoop.visits_isSome (fun p l h => (hguard p l h).1) hd 0
    (Nat.lt_succ_self size.toNat)
  have hquot : 1 ≤ size / d := by
    rw [Int.le_ediv_iff_mul_le hd]
    omega
  have hround : size / d * d ≤ size := Int.ediv_mul_le size hd.ne'
  refine ⟨offsets, ?_, ?_, ?_⟩
  · rw [Settings.headerOffsets, hsizes]
    exact hoffsets
  · intro pos hpos
    obtain ⟨i, rfl, hi⟩ := StrideLoop.exists_of_mem_visits hoffsets hpos
    have hle : (i : ℤ) + 1 ≤ size / d := by
      rw [Int.le_ediv_iff_mul_le hd]
      nlinarith [(hguard _ _ hi).2.1]
    constructor
    · positivity
    · rw [zero_add]
      exact mul_le_mul_of_nonneg_right (by omega) hd.le
  · have hcast : ((size / d - 1).toNat : ℤ) = size / d - 1 := by omega
    have hmem := StrideLoop.mem_visits hoffsets (size / d - 1).toNat ?_
    · rwa [zero_add, hcast] at hmem
    · intro k hk
      have hstep : ((k : ℤ) + 1) * d ≤ size / d * d :=
        mul_le_mul_of_nonneg_right (by omega) hd.le
      have hexpand : ((k : ℤ) + 1) * d = k * d + d := by ring
      rw [sendGuard, decide_eq_true_eq]
      omega

theorem bufferSize_lt {t : Test} (hudp : t.protocol = .udp)
    (hints : t.settings.SizesAreInts) : t.bufferSize < 2147483648 := by
  by_contra hlarge
  have hroom := (le_bufferSize_iff hudp _).mp (not_lt.mp hlarge)
  have hblksize := hints.blksize.bounds
  have hgso := hints.gsoBfSize.bounds
  have hgro := hints.groBfSize.bounds
  unfold Test.Room at hroom
  omega

theorem sendInBounds_iff {t : Test} (hudp : t.protocol = .udp)
    (hints : t.settings.SizesAreInts) :
    SendInBounds t t.bufferSize ↔ t.SendFits := by
  have hcapacity := bufferSize_lt hudp hints
  have hwidth := headerWidth_bounds t
  have hroom := le_bufferSize_iff hudp
  unfold Test.SendFits
  by_cases hoffload : t.settings.gso ≠ 0 ∧ t.settings.gsoValid = true
  · have hsizes : t.settings.sendSizes =
        (t.settings.gsoDgSize, t.settings.gsoBfSize, t.settings.gso) := by
      rw [Settings.sendSizes, if_pos hoffload.1, if_pos hoffload.2]
    have hvalid := hoffload.2
    simp only [Settings.gsoValid, minPktSize, Bool.and_eq_true, decide_eq_true_eq] at hvalid
    have hbounds := hints.gsoBfSize.bounds
    have hlength : (t.settings.sendLength : ℤ) = t.settings.gsoBfSize := by
      rw [Settings.sendLength, hsizes, if_pos hoffload.1]
      exact uint64_of_mem (by omega) (by omega)
    have hbuffer : t.settings.gsoBfSize ≤ t.bufferSize :=
      (hroom _).mpr (Or.inr (Or.inl ⟨hoffload.1, le_refl _⟩))
    obtain ⟨offsets, hoffsets, hall, hlast⟩ :=
      headerOffsets_spec hsizes hvalid.1.1 hvalid.2
    rw [if_pos hoffload, ← hroom]
    constructor
    · rintro ⟨⟨offsets', hoffsets', hbytes⟩, -⟩
      obtain rfl : offsets = offsets' := Option.some_injective _ (hoffsets.symm.trans hoffsets')
      have hend := (hbytes _ hlast (t.headerWidth - 1) (by omega)).2
      omega
    · intro hfits
      refine ⟨⟨offsets, hoffsets, fun pos hpos k hk => ?_⟩, by omega, by omega⟩
      have hpos' := hall pos hpos
      omega
  · have hsizes : t.settings.sendSizes = (t.settings.blksize, t.settings.blksize, 0) := by
      rw [not_and] at hoffload
      unfold Settings.sendSizes
      split_ifs with hgso hvalid
      · exact absurd hvalid (hoffload hgso)
      · rfl
      · rfl
    have hbounds := hints.blksize.bounds
    have hlength : t.settings.sendLength = uint64 t.settings.blksize := by
      rw [Settings.sendLength, hsizes, if_neg (not_not.mpr rfl)]
    have hbuffer : t.settings.blksize ≤ t.bufferSize := (hroom _).mpr (Or.inl (le_refl _))
    rw [if_neg hoffload, ← hroom]
    by_cases hpos : 1 ≤ t.settings.blksize
    · obtain ⟨offsets, hoffsets, hall, hlast⟩ :=
        headerOffsets_spec hsizes (by omega) (le_refl _)
      rw [Int.ediv_self (by omega), sub_self, zero_mul] at hall hlast
      rw [uint64_eq] at hlength
      constructor
      · rintro ⟨⟨offsets', hoffsets', hbytes⟩, -⟩
        obtain rfl : offsets = offsets' :=
          Option.some_injective _ (hoffsets.symm.trans hoffsets')
        have hend := (hbytes _ hlast (t.headerWidth - 1) (by omega)).2
        omega
      · rintro ⟨-, hfits⟩
        refine ⟨⟨offsets, hoffsets, fun pos hpos k hk => ?_⟩, by omega, by omega⟩
        have hpos' := hall pos hpos
        omega
    · rw [uint64_eq] at hlength
      constructor
      · rintro ⟨-, hlow, hhigh⟩
        omega
      · rintro ⟨hlow, -⟩
        exact absurd hlow hpos

theorem sendInBounds_afterSend (t : Test) (capacity : ℤ) :
    SendInBounds t.afterSend capacity ↔ SendInBounds t capacity := by
  have hsizes : t.afterSend.settings.sendSizes = t.settings.sendSizes :=
    sendSizes_gso t.settings
  have hheaders : t.afterSend.settings.headerOffsets = t.settings.headerOffsets := by
    rw [Settings.headerOffsets, hsizes]
    rfl
  have hlength : t.afterSend.settings.sendLength = t.settings.sendLength := by
    rw [Settings.sendLength, hsizes]
    rfl
  constructor
  · rintro ⟨hbytes, hlen⟩
    exact ⟨hheaders ▸ hbytes, hlength ▸ hlen⟩
  · rintro ⟨hbytes, hlen⟩
    exact ⟨hheaders.symm ▸ hbytes, hlength.symm ▸ hlen⟩

theorem sendInBounds_iterate (n : ℕ) (t : Test) (capacity : ℤ) :
    SendInBounds (Test.afterSend^[n] t) capacity ↔ SendInBounds t capacity := by
  induction n generalizing t with
  | zero => rfl
  | succ n ih => rw [Function.iterate_succ_apply, ih, sendInBounds_afterSend]

theorem SizesAreInts_udpAccept {t : Test} (h : t.settings.SizesAreInts) (gsoSet groSet : Bool) :
    (t.udpAccept gsoSet groSet).settings.SizesAreInts :=
  ⟨h.blksize, h.gsoBfSize, h.groBfSize⟩

/-- All sends of a stream stay in its buffer exactly when a header fits where
the last one of a write is put. -/
theorem udp_send_in_bounds_iff
    {b : Build} {j : Json} {t₀ t : Test} (hints : t₀.settings.SizesAreInts)
    (haccept : getParameters b (some j) t₀ = (t, true)) (hudp : t.protocol = .udp)
    (gsoSet groSet : Bool) :
    ((t.udpAccept gsoSet groSet).allocates b = true → ∀ n,
        SendInBounds (Test.afterSend^[n] (t.udpAccept gsoSet groSet))
          (t.udpAccept gsoSet groSet).bufferSize) ↔
      ((t.udpAccept gsoSet groSet).Mapped b → (t.udpAccept gsoSet groSet).SendFits) := by
  have hread := hints.getParameters b j
  rw [haccept] at hread
  have hudp' : (t.udpAccept gsoSet groSet).protocol = .udp := hudp
  simp only [sendInBounds_iterate, forall_const]
  rw [allocates_iff hudp', sendInBounds_iff hudp' (SizesAreInts_udpAccept hread gsoSet groSet)]

/-- What a Linux server with default settings makes of a request. -/
def requestedTest (request : Json) : Test :=
  (getParameters Build.linux (some request)
    (serverStart Build.linux ServerArgs.default)).1

/-- A reversed UDP test with `len` bytes in a datagram. -/
def reverseRequest (len : ℤ) : Json :=
  .object [(.udp, .bool true), (.reverse, .bool true), (.len, .ofInt len)]

theorem defaultServer_sizes :
    (serverStart Build.linux ServerArgs.default).settings.SizesAreInts :=
  ⟨IsInt.of_bounds (by decide) (by decide), IsInt.of_bounds (by decide) (by decide),
    IsInt.of_bounds (by decide) (by decide)⟩

theorem udp_send_in_bounds_usual :
    (requestedTest (reverseRequest 1460)).mode = .sender ∧
      ∀ n, SendInBounds
        (Test.afterSend^[n] ((requestedTest (reverseRequest 1460)).udpAccept true true))
        ((requestedTest (reverseRequest 1460)).udpAccept true true).bufferSize := by
  have haccept : getParameters Build.linux (some (reverseRequest 1460))
      (serverStart Build.linux ServerArgs.default) =
        (requestedTest (reverseRequest 1460), true) := by decide +kernel
  exact ⟨by decide +kernel,
    (udp_send_in_bounds_iff defaultServer_sizes haccept (by decide +kernel) true true).mpr
      (fun _ => by decide +kernel) (by decide +kernel)⟩

/-- The header of a one-byte datagram does not fit into the one-byte buffer. -/
theorem udp_send_out_of_bounds :
    getParameters Build.linux (some (reverseRequest 1))
        (serverStart Build.linux ServerArgs.default) =
          (requestedTest (reverseRequest 1), true) ∧
      (requestedTest (reverseRequest 1)).protocol = .udp ∧
      (requestedTest (reverseRequest 1)).mode = .sender ∧
      (requestedTest (reverseRequest 1)).allocates Build.linux = true ∧
      ¬ SendInBounds (requestedTest (reverseRequest 1))
        (requestedTest (reverseRequest 1)).bufferSize := by
  refine ⟨by decide +kernel, by decide +kernel, by decide +kernel, by decide +kernel, ?_⟩
  rintro ⟨⟨offsets, hoffsets, hbytes⟩, -⟩
  have hzero : (requestedTest (reverseRequest 1)).settings.headerOffsets = some [0] := by
    decide +kernel
  obtain rfl : [0] = offsets := Option.some_injective _ (hzero.symm.trans hoffsets)
  have hbyte := (hbytes 0 (List.mem_singleton.mpr rfl) 1 (by decide +kernel)).2
  have hsize : (requestedTest (reverseRequest 1)).bufferSize = 1 := by decide +kernel
  omega

/-! ## Receiving -/

/-- The length for the receive call; there is no call with length zero. -/
def Test.receiveLength (b : Build) (t : Test) : ℕ :=
  if t.settings.gro ≠ 0 then min (uint64 t.settings.groBfSize) maxUdpBlocksize.toNat
  else if b.haveMsgTrunc ∧ t.settings.skipRxCopy ≠ 0 then maxPktSize
  else uint64 t.settings.blksize

/-- There is another datagram with its header in what has been received. -/
def Test.receiveGuard (t : Test) (received pos left : ℤ) : Bool :=
  t.settings.blksize ≤ left ∧ pos + t.settings.blksize ≤ received ∧
    minPktSize ≤ left ∧ (t.udpCounters64bit ≠ 0 → maxPktSize ≤ left)

/-- The offsets of the headers that one call of `iperf_udp_recv` reads out of
`received` bytes. -/
def Test.parsedOffsets (t : Test) (received fuel : ℕ) : Option (List ℤ) :=
  StrideLoop.visits (t.receiveGuard received) t.settings.blksize fuel 0 received

/-- The length is within the buffer, and whatever number of bytes comes, the
loop ends and reads only these. -/
structure ReceiveInBounds (b : Build) (t : Test) (capacity : ℤ) : Prop where
  length : (t.receiveLength b : ℤ) ≤ capacity
  headers : ∀ received, 0 < received → received ≤ t.receiveLength b →
    ∃ fuel offsets, t.parsedOffsets received fuel = some offsets ∧
      ∀ pos ∈ offsets, ∀ k < t.headerWidth, 0 ≤ pos + k ∧ pos + k < received

/-- A positive step, or too few bytes for a header. -/
def Test.ReceiveFits (b : Build) (t : Test) : Prop :=
  if t.settings.gro ≠ 0 then
    t.settings.groBfSize = 0 ∨
      0 < t.settings.groBfSize ∧
        (0 < t.settings.blksize ∨ t.settings.groBfSize < t.headerWidth) ∨
      t.settings.groBfSize < 0 ∧ 0 < t.settings.blksize ∧ t.Room maxUdpBlocksize
  else if b.haveMsgTrunc ∧ t.settings.skipRxCopy ≠ 0 then
    0 < t.settings.blksize ∧ t.Room maxPktSize
  else 0 ≤ t.settings.blksize

instance (b : Build) (t : Test) : Decidable (t.ReceiveFits b) := by
  unfold Test.ReceiveFits
  infer_instance

theorem receiveGuard_iff (t : Test) (received pos left : ℤ) :
    t.receiveGuard received pos left = true ↔
      t.settings.blksize ≤ left ∧ pos + t.settings.blksize ≤ received ∧
        (t.headerWidth : ℤ) ≤ left := by
  have hheader : (minPktSize ≤ left ∧ (t.udpCounters64bit ≠ 0 → maxPktSize ≤ left)) ↔
      (t.headerWidth : ℤ) ≤ left := by
    unfold Test.headerWidth minPktSize maxPktSize
    split_ifs with hwide
    · exact ⟨fun h => h.2 hwide, fun h => ⟨by omega, fun _ => h⟩⟩
    · exact ⟨And.left, fun h => ⟨h, fun hset => absurd hset hwide⟩⟩
  rw [Test.receiveGuard, decide_eq_true_eq, hheader]

/-- The loop ends on `received` bytes and reads only these exactly when its
step is positive or it reads nothing. -/
theorem parsedOffsets_iff (t : Test) {received : ℕ} (hreceived : 0 < received) :
    (∃ fuel offsets, t.parsedOffsets received fuel = some offsets ∧
        ∀ pos ∈ offsets, ∀ k < t.headerWidth, 0 ≤ pos + k ∧ pos + k < received) ↔
      0 < t.settings.blksize ∨ received < t.headerWidth := by
  have hwidth := headerWidth_bounds t
  have hguard := receiveGuard_iff t received
  unfold Test.parsedOffsets
  constructor
  · rintro ⟨fuel, offsets, hoffsets, -⟩
    by_contra hneither
    rw [not_or, not_lt, not_lt] at hneither
    have hforever : ∀ k : ℕ, t.receiveGuard received (0 + k * t.settings.blksize)
        (received - k * t.settings.blksize) = true := by
      intro k
      have hback : (k : ℤ) * t.settings.blksize ≤ 0 :=
        mul_nonpos_of_nonneg_of_nonpos (by omega) hneither.1
      rw [hguard]
      omega
    rw [StrideLoop.visits_eq_none hforever] at hoffsets
    cases hoffsets
  · rintro (hpos | hshort)
    · have hleft : ∀ p l, t.receiveGuard received p l = true → 0 < l := by
        intro p l h
        have hthree := (hguard p l).mp h
        omega
      obtain ⟨offsets, hoffsets⟩ := StrideLoop.visits_isSome hleft hpos 0
        (Nat.lt_succ_self (received : ℤ).toNat)
      refine ⟨(received : ℤ).toNat + 1, offsets, hoffsets, fun pos hmem k hk => ?_⟩
      obtain ⟨i, rfl, hi⟩ := StrideLoop.exists_of_mem_visits hoffsets hmem
      have hforward : 0 ≤ (i : ℤ) * t.settings.blksize := by positivity
      have hthree := (hguard _ _).mp hi
      omega
    · have hstop : t.receiveGuard received 0 received = false := by
        rw [Bool.eq_false_iff, ne_eq, hguard]
        omega
      exact ⟨1, [], StrideLoop.visits_stop hstop, by simp⟩

theorem receiveInBounds_iff {b : Build} {t : Test} (hudp : t.protocol = .udp)
    (hints : t.settings.SizesAreInts) (hcapacity : 0 ≤ t.bufferSize) :
    ReceiveInBounds b t t.bufferSize ↔ t.ReceiveFits b := by
  have hsmall := bufferSize_lt hudp hints
  have hwidth := headerWidth_bounds t
  have hroom := le_bufferSize_iff hudp
  -- The loop is judged by the largest number of bytes that can come.
  have hloop : (∀ received, 0 < received → received ≤ t.receiveLength b →
      ∃ fuel offsets, t.parsedOffsets received fuel = some offsets ∧
        ∀ pos ∈ offsets, ∀ k < t.headerWidth, 0 ≤ pos + k ∧ pos + k < received) ↔
      0 < t.settings.blksize ∨ t.receiveLength b < t.headerWidth := by
    constructor
    · intro hall
      by_cases hcall : t.receiveLength b = 0
      · exact Or.inr (by omega)
      · exact (parsedOffsets_iff t (by omega)).mp (hall _ (by omega) (le_refl _))
    · intro hany received hreceived hle
      exact (parsedOffsets_iff t hreceived).mpr (hany.imp_right (by omega))
  have hiff : ReceiveInBounds b t t.bufferSize ↔
      (t.receiveLength b : ℤ) ≤ t.bufferSize ∧
        (0 < t.settings.blksize ∨ t.receiveLength b < t.headerWidth) :=
    ⟨fun h => ⟨h.length, hloop.mp h.headers⟩, fun h => ⟨h.1, hloop.mpr h.2⟩⟩
  have hmax : (maxUdpBlocksize : ℤ) = 65507 := rfl
  have hblksize := hints.blksize.bounds
  have hblkroom : t.settings.blksize ≤ t.bufferSize := (hroom _).mpr (Or.inl (le_refl _))
  rw [hiff]
  unfold Test.ReceiveFits Test.receiveLength
  by_cases hgro : t.settings.gro ≠ 0
  · have hgroBounds := hints.groBfSize.bounds
    have hgroRoom : t.settings.groBfSize ≤ t.bufferSize :=
      (hroom _).mpr (Or.inr (Or.inr ⟨hgro, le_refl _⟩))
    rw [if_pos hgro, if_pos hgro, ← hroom, uint64_eq, hmax]
    omega
  · rw [if_neg hgro, if_neg hgro]
    by_cases hskip : b.haveMsgTrunc = true ∧ t.settings.skipRxCopy ≠ 0
    · rw [if_pos hskip, if_pos hskip, ← hroom]
      have hsize : maxPktSize = 16 := rfl
      omega
    · rw [if_neg hskip, if_neg hskip, uint64_eq]
      omega

/-- The receive loop ends and stays in bounds exactly when its step is
positive or too little for a header comes, and the length is not that of a
negative number. -/
theorem udp_receive_in_bounds_iff
    {b : Build} {j : Json} {t₀ t : Test} (hints : t₀.settings.SizesAreInts)
    (haccept : getParameters b (some j) t₀ = (t, true)) (hudp : t.protocol = .udp)
    (gsoSet groSet : Bool) :
    ((t.udpAccept gsoSet groSet).allocates b = true →
        ReceiveInBounds b (t.udpAccept gsoSet groSet) (t.udpAccept gsoSet groSet).bufferSize) ↔
      ((t.udpAccept gsoSet groSet).Mapped b → (t.udpAccept gsoSet groSet).ReceiveFits b) := by
  have hread := hints.getParameters b j
  rw [haccept] at hread
  have hudp' : (t.udpAccept gsoSet groSet).protocol = .udp := hudp
  have hinbounds : (t.udpAccept gsoSet groSet).allocates b = true →
      (ReceiveInBounds b (t.udpAccept gsoSet groSet) (t.udpAccept gsoSet groSet).bufferSize ↔
        (t.udpAccept gsoSet groSet).ReceiveFits b) := by
    intro hallocates
    have hcapacity : 0 ≤ (t.udpAccept gsoSet groSet).bufferSize := by
      simp only [Test.allocates, Bool.and_eq_true, decide_eq_true_eq] at hallocates
      exact hallocates.1
    exact receiveInBounds_iff hudp' (SizesAreInts_udpAccept hread gsoSet groSet) hcapacity
  rw [← allocates_iff hudp']
  exact ⟨fun h ha => (hinbounds ha).mp (h ha), fun h ha => (hinbounds ha).mpr (h ha)⟩

/-- A UDP test with `len` bytes in a datagram and receive offload. -/
def offloadRequest (len : ℤ) : Json :=
  .object [(.udp, .bool true), (.len, .ofInt len), (.gro, .ofInt 1)]

theorem udp_receive_in_bounds_usual :
    (requestedTest (offloadRequest 1460)).mode = .receiver ∧
      ReceiveInBounds Build.linux ((requestedTest (offloadRequest 1460)).udpAccept true true)
        ((requestedTest (offloadRequest 1460)).udpAccept true true).bufferSize := by
  have haccept : getParameters Build.linux (some (offloadRequest 1460))
      (serverStart Build.linux ServerArgs.default) =
        (requestedTest (offloadRequest 1460), true) := by decide +kernel
  exact ⟨by decide +kernel,
    (udp_receive_in_bounds_iff defaultServer_sizes haccept (by decide +kernel) true true).mpr
      (fun _ => by decide +kernel) (by decide +kernel)⟩

/-- With a block size of zero the loop does not end on a hundred bytes. -/
theorem udp_receive_does_not_end :
    getParameters Build.linux (some (offloadRequest 0))
        (serverStart Build.linux ServerArgs.default) =
          (requestedTest (offloadRequest 0), true) ∧
      (requestedTest (offloadRequest 0)).protocol = .udp ∧
      (requestedTest (offloadRequest 0)).mode = .receiver ∧
      (requestedTest (offloadRequest 0)).allocates Build.linux = true ∧
      100 ≤ (requestedTest (offloadRequest 0)).receiveLength Build.linux ∧
      (∀ fuel, (requestedTest (offloadRequest 0)).parsedOffsets 100 fuel = none) ∧
      ¬ ReceiveInBounds Build.linux (requestedTest (offloadRequest 0))
        (requestedTest (offloadRequest 0)).bufferSize := by
  have hnone : ∀ fuel, (requestedTest (offloadRequest 0)).parsedOffsets 100 fuel = none := by
    intro fuel
    apply StrideLoop.visits_eq_none
    have hblksize : (requestedTest (offloadRequest 0)).settings.blksize = 0 := by decide +kernel
    have hnarrow : (requestedTest (offloadRequest 0)).udpCounters64bit = 0 := by decide +kernel
    simp [Test.receiveGuard, hblksize, hnarrow, minPktSize]
  have hlength : 100 ≤ (requestedTest (offloadRequest 0)).receiveLength Build.linux := by
    decide +kernel
  refine ⟨by decide +kernel, by decide +kernel, by decide +kernel, by decide +kernel, hlength,
    hnone, fun h => ?_⟩
  obtain ⟨fuel, offsets, hoffsets, -⟩ := h.headers 100 (by decide) hlength
  rw [hnone fuel] at hoffsets
  cases hoffsets

end Iperf3
