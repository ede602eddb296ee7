import Iperf3.ClientStart
import Iperf3.ServerStart
import Iperf3.TcpSend
import Mathlib.Tactic

/-!
# Sending a file

With `-F` the buffer is filled from a file before every send.  What a short
send leaves over is slid to the front, and the next read starts at the front
too.  The Windows port opens the file without `O_BINARY`, so that it is read as
text there.
-/

namespace Iperf3

open MachineInt

/-! ## The buffer -/

def overwriteFront (data buffer : List UInt8) : List UInt8 :=
  data ++ buffer.drop data.length

/-- `memcpy` to the front of the buffer.  What it makes of regions that overlap
is undefined. -/
def memcpyFront (undefinedCopy : ℕ → ℕ → List UInt8 → List UInt8) (source count : ℕ)
    (buffer : List UInt8) : List UInt8 :=
  if count ≤ source then overwriteFront ((buffer.drop source).take count) buffer
  else undefinedCopy source count buffer

@[simp] theorem take_overwriteFront (data buffer : List UInt8) :
    (overwriteFront data buffer).take data.length = data := by
  simp [overwriteFront]

theorem drop_overwriteFront {data : List UInt8} {n : ℕ} (h : data.length ≤ n)
    (buffer : List UInt8) : (overwriteFront data buffer).drop n = buffer.drop n := by
  obtain ⟨k, rfl⟩ := Nat.exists_eq_add_of_le h
  rw [overwriteFront, List.drop_length_add_append, List.drop_drop]

theorem length_overwriteFront {data buffer : List UInt8} (h : data.length ≤ buffer.length) :
    (overwriteFront data buffer).length = buffer.length := by
  simp only [overwriteFront, List.length_append, List.length_drop]
  omega

/-- The end of a buffer that is copied to its front is at both places. -/
theorem memcpyFront_end
    (undefinedCopy : ℕ → ℕ → List UInt8 → List UInt8) {buffer : List UInt8} {count : ℕ}
    (h : 2 * count ≤ buffer.length) :
    (memcpyFront undefinedCopy (buffer.length - count) count buffer).length = buffer.length ∧
      (memcpyFront undefinedCopy (buffer.length - count) count buffer).take count =
        buffer.drop (buffer.length - count) ∧
      (memcpyFront undefinedCopy (buffer.length - count) count buffer).drop
        (buffer.length - count) = buffer.drop (buffer.length - count) := by
  have hend : ((buffer.drop (buffer.length - count)).take count).length = count := by
    simp only [List.length_take, List.length_drop]
    omega
  have hall : (buffer.drop (buffer.length - count)).take count =
      buffer.drop (buffer.length - count) := by
    rw [List.take_of_length_le]
    simp only [List.length_drop]
    omega
  unfold memcpyFront
  rw [if_pos (by omega)]
  refine ⟨length_overwriteFront (by omega), ?_, drop_overwriteFront (by omega) _⟩
  have hfront := take_overwriteFront ((buffer.drop (buffer.length - count)).take count) buffer
  rw [hend] at hfront
  rw [hfront, hall]

/-! ## The file -/

/-- The byte that ends a text file. -/
def ctrlZ : UInt8 := 0x1a

def cr : UInt8 := 0x0d

def lf : UInt8 := 0x0a

/-- A chunk of a text file in the buffer, and what is then left of the file.
A pair of `CR` and `LF` becomes `LF`.  When the chunk ends between the two, the
`LF` is left for the next read, unless nothing has been stored yet. -/
def translateText (stored : Bool) : List UInt8 → List UInt8 → List UInt8 × List UInt8
  | [], rest => ([], rest)
  | [c], rest =>
      if c = ctrlZ then ([], [])
      else if c = cr ∧ rest.head? = some lf then
        if stored then ([], rest) else ([lf], rest.tail)
      else ([c], rest)
  | c :: d :: chunk, rest =>
      if c = ctrlZ then ([], [])
      else if c = cr ∧ d = lf then
        let (data, rest) := translateText true chunk rest
        (lf :: data, rest)
      else
        let (data, rest) := translateText true (d :: chunk) rest
        (c :: data, rest)

/-- `read` on the file: the bytes it stores and what is left. -/
def readFile (b : Build) (count : ℕ) (file : List UInt8) : List UInt8 × List UInt8 :=
  if b.windows then translateText false (file.take count) (file.drop count)
  else (file.take count, file.drop count)

/-- Reading as text changes nothing in the file. -/
def Plain (file : List UInt8) : Prop :=
  ctrlZ ∉ file ∧ ¬ [cr, lf] <:+: file

theorem Plain.of_suffix {file rest : List UInt8} (h : Plain file) (hrest : rest <:+ file) :
    Plain rest :=
  ⟨fun hmem => h.1 (hrest.mem hmem), fun hpair => h.2 (hpair.trans hrest.isInfix)⟩

theorem Plain.tail {c : UInt8} {file : List UInt8} (h : Plain (c :: file)) : Plain file :=
  h.of_suffix (List.suffix_cons c file)

theorem Plain.head_ne {c : UInt8} {file : List UInt8} (h : Plain (c :: file)) : c ≠ ctrlZ := by
  rintro rfl
  exact h.1 List.mem_cons_self

theorem Plain.pair_ne {c d : UInt8} {file : List UInt8} (h : Plain (c :: d :: file)) :
    ¬ (c = cr ∧ d = lf) := by
  rintro ⟨rfl, rfl⟩
  exact h.2 ⟨[], file, rfl⟩

theorem translateText_plain (stored : Bool) {chunk rest : List UInt8}
    (h : Plain (chunk ++ rest)) : translateText stored chunk rest = (chunk, rest) := by
  induction chunk generalizing stored with
  | nil => rw [translateText]
  | cons c chunk ih =>
      have hpair : ∀ d tail, chunk ++ rest = d :: tail → ¬ (c = cr ∧ d = lf) := by
        intro d tail heq
        rw [List.cons_append, heq] at h
        exact h.pair_ne
      cases chunk with
      | nil =>
          have hlast : ¬ (c = cr ∧ rest.head? = some lf) := by
            rintro ⟨hc, hrest⟩
            obtain ⟨tail, rfl⟩ := List.head?_eq_some_iff.mp hrest
            exact hpair lf tail rfl ⟨hc, rfl⟩
          rw [translateText, if_neg h.head_ne, if_neg hlast]
      | cons d chunk =>
          rw [translateText, if_neg h.head_ne, if_neg (hpair d _ rfl), ih true h.tail]

theorem readFile_plain {b : Build} {file : List UInt8} (h : b.windows = true → Plain file)
    (count : ℕ) : readFile b count file = (file.take count, file.drop count) := by
  unfold readFile
  split_ifs with hwindows
  · apply translateText_plain
    rw [List.take_append_drop]
    exact h hwindows
  · rfl

theorem readFile_nil (b : Build) (count : ℕ) : readFile b count [] = ([], []) := by
  rw [readFile_plain fun _ => ⟨List.not_mem_nil, by simp⟩, List.take_nil, List.drop_nil]

/-! ## The worker -/

/-- What a send on TCP comes to: it accepts so many bytes, if it is asked for
more than that, or nothing can be sent now. -/
inductive TcpOutcome where
  | accepts (n : ℕ) (pos : 0 < n)
  | softError

/-- A send from the file: what was left over before, what was read for it,
what was then left of the file, and what the send came to. -/
structure DiskSend where
  left : ℤ
  read : ℕ
  remaining : ℕ
  outcome : Option TcpOutcome

structure DiskSide where
  file : List UInt8
  diskfileLeft : ℤ
  outcomes : List TcpOutcome
  socket : List UInt8
  sends : List DiskSend

def socketWrite : WriteFunction DiskSide := fun buffer count world =>
  match world.outcomes with
  | [] => none
  | .softError :: outcomes => some ({ world with outcomes := outcomes }, netSofterror)
  | .accepts n _ :: outcomes =>
      some ({ world with
        outcomes := outcomes
        socket := world.socket ++ buffer.take (min n count) }, (min n count : ℕ))

namespace TcpSender

/-- The buffer is filled up from the file.  The second component is the number
of bytes in it that are to be sent. -/
def fillBuffer (b : Build) (s : TcpSender DiskSide) : TcpSender DiskSide × ℤ :=
  if s.world.diskfileLeft < s.test.settings.blksize ∧ s.traffic.done = false then
    let (data, file) :=
      readFile b (s.test.settings.blksize - s.world.diskfileLeft).toNat s.world.file
    let bufferLeft := s.world.diskfileLeft + data.length
    ({ s with
        stream := { s.stream with buffer := overwriteFront data s.stream.buffer }
        traffic := { s.traffic with done := bufferLeft = 0 }
        pendingSize :=
          if bufferLeft ≠ s.test.settings.blksize then bufferLeft else s.pendingSize
        world := { s.world with file := file } }, bufferLeft)
  else (s, s.world.diskfileLeft)

/-- What was not sent is slid to the front. -/
def keepLeftover (undefinedCopy : ℕ → ℕ → List UInt8 → List UInt8) (left : ℤ)
    (s : TcpSender DiskSide) : TcpSender DiskSide :=
  { s with
    world := { s.world with diskfileLeft := left }
    stream :=
      if left ≠ 0 ∧ left < s.test.settings.blksize then
        { s.stream with
          buffer := memcpyFront undefinedCopy (s.test.settings.blksize - left).toNat left.toNat
            s.stream.buffer }
      else s.stream }

def finishFile (s : TcpSender DiskSide) : TcpSender DiskSide :=
  { s with traffic := { s.traffic with done := true } }

def noteSend (bufferLeft : ℤ) (s : TcpSender DiskSide) : TcpSender DiskSide :=
  { s with world := { s.world with
      sends := s.world.sends ++
        [⟨s.world.diskfileLeft, (bufferLeft - s.world.diskfileLeft).toNat, s.world.file.length,
          s.world.outcomes.head?⟩] } }

def diskfileSend (b : Build) (undefinedCopy : ℕ → ℕ → List UInt8 → List UInt8)
    (s : TcpSender DiskSide) : Option (TcpSender DiskSide × ℤ) :=
  let (filled, bufferLeft) := s.fillBuffer b
  if filled.traffic.done = true ∨ bufferLeft = 0 then some (filled.finishFile, 0)
  else
    ((filled.noteSend bufferLeft).iperfTcpSend socketWrite).map fun (sent, r) =>
      if r < 0 then (sent, r) else (sent.keepLeftover undefinedCopy (bufferLeft - r), r)

end TcpSender

/-! ## Sends that lose nothing -/

/-- All of the buffer is accepted; or the file has been read to its end, what
was asked for was a whole block or a leftover, and at most half a block is left
over; or nothing is accepted of a leftover. -/
def DiskSend.Clean (blksize : ℤ) (send : DiskSend) : Prop :=
  match send.outcome with
  | some (.accepts n _) =>
      send.left + send.read ≤ n ∨
        (send.remaining = 0 ∧ (send.read = 0 ∨ send.read = blksize) ∧
          2 * (send.left + send.read - n) ≤ blksize)
  | some .softError => send.read = 0
  | none => True

instance (blksize : ℤ) (send : DiskSend) : Decidable (send.Clean blksize) := by
  unfold DiskSend.Clean
  split <;> infer_instance

namespace TcpSender

variable {b : Build}

/-- Between two calls: what was sent, what is left over and what was not yet
read make up the file. -/
structure Delivers (file : List UInt8) (s : TcpSender DiskSide) : Prop where
  blksize_pos : 1 ≤ s.test.settings.blksize
  blksize_int : IsInt s.test.settings.blksize
  buffer_length : (s.stream.buffer.length : ℤ) = s.test.settings.blksize
  left_nonneg : 0 ≤ s.world.diskfileLeft
  pending_eq : s.pendingSize = s.world.diskfileLeft
  whole : s.world.socket ++ s.stream.buffer.take s.world.diskfileLeft.toNat ++ s.world.file = file
  leftover : 0 < s.world.diskfileLeft →
    s.world.file = [] ∧ 2 * s.world.diskfileLeft ≤ s.test.settings.blksize ∧
      s.stream.buffer.drop (s.stream.buffer.length - s.world.diskfileLeft.toNat) =
        s.stream.buffer.take s.world.diskfileLeft.toNat
  finished : s.traffic.done = true → s.world.diskfileLeft = 0 ∧ s.world.file = []

/-- Before a send of `n` bytes, for which `read` bytes have been read. -/
structure Filled (file : List UInt8) (n : ℕ) (read : ℕ) (s : TcpSender DiskSide) : Prop where
  blksize_pos : 1 ≤ s.test.settings.blksize
  blksize_int : IsInt s.test.settings.blksize
  buffer_length : (s.stream.buffer.length : ℤ) = s.test.settings.blksize
  size_pos : 0 < n
  size_le : n ≤ s.stream.buffer.length
  pending_eq : s.refill.pendingSize = n
  whole : s.world.socket ++ s.stream.buffer.take n ++ s.world.file = file
  unfinished : s.traffic.done = false
  ends : s.world.file = [] → read = 0 ∨ (read : ℤ) = s.test.settings.blksize →
    ∀ count ≤ n, 2 * count ≤ s.stream.buffer.length →
      s.stream.buffer.drop (s.stream.buffer.length - count) =
        (s.stream.buffer.take n).drop (n - count)

theorem Filled.request {file : List UInt8} {n read : ℕ} {s : TcpSender DiskSide}
    (h : Filled file n read s) : uint64 s.refill.pendingSize = n := by
  have hbound := (int32_bounds s.test.settings.blksize).2
  rw [h.blksize_int, ← h.buffer_length] at hbound
  have hle := h.size_le
  have hcount : (uint64 s.refill.pendingSize : ℤ) = s.refill.pendingSize := by
    rw [h.pending_eq]
    exact uint64_of_mem (by omega) (by omega)
  rw [h.pending_eq] at hcount
  rw [h.pending_eq]
  exact_mod_cast hcount

theorem iperfTcpSend_socket
    {file : List UInt8} {n read : ℕ} {s s' : TcpSender DiskSide} {r : ℤ} (h : Filled file n read s)
    (hsend : s.iperfTcpSend socketWrite = some (s', r)) :
    (∃ outcomes, s.world.outcomes = .softError :: outcomes ∧ r < 0 ∧
        s' = { s.refill with world := { s.world with outcomes := outcomes } }) ∨
      ∃ k hk outcomes, s.world.outcomes = .accepts k hk :: outcomes ∧ r = (min k n : ℕ) ∧
        s' = { s.refill.countBytes r with
          world := { s.world with
            outcomes := outcomes
            socket := s.world.socket ++ s.stream.buffer.take (min k n) } } := by
  simp only [iperfTcpSend, h.request, Option.map_eq_some_iff] at hsend
  obtain ⟨⟨world, r₁⟩, hwrite, hresult⟩ := hsend
  unfold socketWrite at hwrite
  cases houtcomes : s.world.outcomes with
  | nil => simp [houtcomes] at hwrite
  | cons outcome outcomes =>
      cases outcome with
      | softError =>
          simp only [houtcomes, Option.some.injEq, Prod.mk.injEq] at hwrite
          obtain ⟨rfl, rfl⟩ := hwrite
          simp only [if_pos (show netSofterror < 0 by decide), Prod.mk.injEq] at hresult
          obtain ⟨rfl, rfl⟩ := hresult
          exact Or.inl ⟨outcomes, rfl, by decide, rfl⟩
      | accepts k hk =>
          simp only [houtcomes, Option.some.injEq, Prod.mk.injEq] at hwrite
          obtain ⟨rfl, rfl⟩ := hwrite
          rw [if_neg (by omega)] at hresult
          obtain ⟨rfl, rfl⟩ := Prod.mk.inj hresult
          exact Or.inr ⟨k, hk, outcomes, rfl, rfl, rfl⟩

theorem Filled.sends_all
    {undefinedCopy : ℕ → ℕ → List UInt8 → List UInt8} {file : List UInt8} {n read : ℕ}
    {s : TcpSender DiskSide} (h : Filled file n read s) (world : DiskSide)
    (hsocket : world.socket = s.world.socket ++ s.stream.buffer.take n)
    (hfile : world.file = s.world.file) :
    Delivers file
      ({ s.refill.countBytes n with world := world }.keepLeftover undefinedCopy 0) := by
  refine ⟨by simpa [keepLeftover, countBytes] using h.blksize_pos,
    by simpa [keepLeftover, countBytes] using h.blksize_int,
    by simpa [keepLeftover, countBytes] using h.buffer_length, le_rfl, ?_, ?_, nofun, ?_⟩
  · simp [keepLeftover, countBytes, h.pending_eq]
  · simpa [keepLeftover, countBytes, hsocket, hfile] using h.whole
  · simp [keepLeftover, countBytes, h.unfinished]

/-- A part of the buffer has been accepted at the end of the file, and the rest
is slid to the front. -/
theorem Filled.sends_part
    {undefinedCopy : ℕ → ℕ → List UInt8 → List UInt8} {file : List UInt8} {n read k : ℕ}
    {s : TcpSender DiskSide} (h : Filled file n read s) (hk : k < n) (world : DiskSide)
    (hsocket : world.socket = s.world.socket ++ s.stream.buffer.take k)
    (hfile : world.file = s.world.file) (hend : s.world.file = [])
    (hread : read = 0 ∨ (read : ℤ) = s.test.settings.blksize)
    (hhalf : 2 * ((n : ℤ) - k) ≤ s.test.settings.blksize) :
    Delivers file
      ({ s.refill.countBytes k with world := world }.keepLeftover undefinedCopy (n - k)) := by
  have hlength := h.buffer_length
  have hle := h.size_le
  obtain ⟨c, rfl⟩ := Nat.exists_eq_add_of_lt hk
  have hleft : ((k + c + 1 : ℕ) : ℤ) - k = (c + 1 : ℕ) := by
    push_cast
    ring
  rw [hleft] at hhalf ⊢
  have hhalfBuffer : 2 * (c + 1) ≤ s.stream.buffer.length := by omega
  obtain ⟨hcopyLength, hfront, hback⟩ :=
    memcpyFront_end undefinedCopy hhalfBuffer
  have hcut : s.stream.buffer.drop (s.stream.buffer.length - (c + 1)) =
      (s.stream.buffer.take (k + c + 1)).drop k := by
    have hends := h.ends hend hread (c + 1) (by omega) hhalfBuffer
    rwa [show k + c + 1 - (c + 1) = k by omega] at hends
  have hslides : ((c + 1 : ℕ) : ℤ) ≠ 0 ∧ ((c + 1 : ℕ) : ℤ) < s.test.settings.blksize := by omega
  have hsource : (s.test.settings.blksize - ((c + 1 : ℕ) : ℤ)).toNat =
      s.stream.buffer.length - (c + 1) := by omega
  have hbuffer : (({ s.refill.countBytes k with world := world } :
      TcpSender DiskSide).keepLeftover undefinedCopy (c + 1 : ℕ)).stream.buffer =
        memcpyFront undefinedCopy (s.stream.buffer.length - (c + 1)) (c + 1) s.stream.buffer := by
    simp only [keepLeftover, countBytes, refill_test, refill_stream, if_pos hslides, hsource,
      Int.toNat_natCast]
  refine ⟨by simpa [keepLeftover, countBytes] using h.blksize_pos,
    by simpa [keepLeftover, countBytes] using h.blksize_int, ?_,
    Int.natCast_nonneg _, ?_, ?_, ?_, ?_⟩
  · rw [hbuffer, hcopyLength, hlength]
    simp [keepLeftover, countBytes]
  · simp only [keepLeftover, countBytes, h.pending_eq]
    omega
  · have hwhole := h.whole
    have hjoin : s.stream.buffer.take k ++ (s.stream.buffer.take (k + c + 1)).drop k =
        s.stream.buffer.take (k + c + 1) := by
      have htake : (s.stream.buffer.take (k + c + 1)).take k = s.stream.buffer.take k := by
        rw [List.take_take, min_eq_left (by omega)]
      rw [← htake]
      exact List.take_append_drop k _
    rw [hbuffer]
    simp only [keepLeftover, Int.toNat_natCast]
    rw [hfront, hcut, hsocket, hfile, List.append_assoc, List.append_assoc,
      ← List.append_assoc (s.stream.buffer.take k), hjoin, ← List.append_assoc]
    exact hwhole
  · intro _
    rw [hbuffer, hcopyLength]
    refine ⟨hfile.trans hend, by simpa [keepLeftover, countBytes] using hhalf, ?_⟩
    simp only [keepLeftover, Int.toNat_natCast]
    rw [hback, hfront]
  · simp [keepLeftover, countBytes, h.unfinished]

theorem Filled.sends_nothing
    {file : List UInt8} {n : ℕ} {s t : TcpSender DiskSide} (h : Filled file n 0 t)
    (hbefore : s.Delivers file) (htest : t.test = s.test)
    (hbuffer : t.stream.buffer = s.stream.buffer) {world : DiskSide}
    (hleft : s.world.diskfileLeft = n) (hworldLeft : world.diskfileLeft = n)
    (hsocket : world.socket = s.world.socket) (hfile : world.file = s.world.file) :
    Delivers file { t.refill with world := world } := by
  have hwhole := hbefore.whole
  have hleftover := hbefore.leftover
  rw [hleft] at hwhole hleftover
  refine ⟨by simpa using h.blksize_pos, by simpa using h.blksize_int,
    by simpa using h.buffer_length, ?_, ?_, ?_, ?_, ?_⟩
  · rw [hworldLeft]
    exact Int.natCast_nonneg n
  · rw [hworldLeft]
    exact h.pending_eq
  · rw [hworldLeft, hsocket, hfile, refill_stream, hbuffer]
    exact hwhole
  · rw [hworldLeft, hfile, refill_stream, refill_test, hbuffer, htest]
    exact hleftover
  · simp [h.unfinished]

/-- What filling the buffer comes to, if something is to be sent: the number
of bytes, and how many of them were read. -/
structure Fills (file : List UInt8) (s t : TcpSender DiskSide) (n read : ℕ) : Prop where
  filled : Filled file n read t
  size_eq : s.world.diskfileLeft + read = n
  same : read = 0 → t.stream.buffer = s.stream.buffer ∧ t.world.file = s.world.file
  test_eq : t.test = s.test
  world_eq : t.world = { s.world with file := t.world.file }

/-- A leftover remains only at the end of the file, and nothing is added. -/
theorem Delivers.fillBuffer_leftover
    {file : List UInt8} {s : TcpSender DiskSide} (h : s.Delivers file)
    (hdone : s.traffic.done = false) (hsome : 0 < s.world.diskfileLeft) :
    ∃ n, (s.fillBuffer b).2 = (n : ℕ) ∧ (s.fillBuffer b).1.traffic.done = false ∧
      Fills file s (s.fillBuffer b).1 n 0 := by
  obtain ⟨hfile, hhalf, hback⟩ := h.leftover hsome
  have hlength := h.buffer_length
  obtain ⟨n, hn⟩ := Int.eq_ofNat_of_zero_le h.left_nonneg
  have hpending : s.world.diskfileLeft ≠ s.test.settings.blksize := by omega
  have hfill : s.fillBuffer b =
      ({ s with
          traffic := { s.traffic with done := false }
          pendingSize := s.world.diskfileLeft }, s.world.diskfileLeft) := by
    rw [fillBuffer, if_pos ⟨by omega, hdone⟩, hfile, readFile_nil]
    simp only [List.length_nil, Nat.cast_zero, add_zero, List.drop_zero, overwriteFront,
      List.nil_append, if_pos hpending, hsome.ne', decide_false]
    rw [← hfile]
  rw [hfill]
  refine ⟨n, hn, rfl, ⟨?_, by simpa using hn, fun _ => ⟨rfl, rfl⟩, rfl, rfl⟩⟩
  rw [hn, Int.toNat_natCast] at hback
  have hwhole := h.whole
  rw [hn] at hwhole
  have hfits : n ≤ s.stream.buffer.length := by omega
  refine ⟨h.blksize_pos, h.blksize_int, hlength, by omega, hfits, ?_, hwhole, rfl, ?_⟩
  · rw [refill, if_neg hsome.ne']
    exact hn
  · intro _ _ count hcount _
    have hdrop : s.stream.buffer.drop (s.stream.buffer.length - count) =
        (s.stream.buffer.drop (s.stream.buffer.length - n)).drop (n - count) := by
      rw [List.drop_drop]
      congr 1
      omega
    rw [hdrop, hback]

/-- Without a leftover the buffer is filled from its front. -/
theorem Delivers.fillBuffer_read
    {file : List UInt8} {s : TcpSender DiskSide} (h : s.Delivers file)
    (hplain : b.windows = true → Plain file) (hdone : s.traffic.done = false)
    (hnone : s.world.diskfileLeft = 0) (hmore : s.world.file ≠ []) :
    ∃ n, (s.fillBuffer b).2 = (n : ℕ) ∧ (s.fillBuffer b).1.traffic.done = false ∧
      Fills file s (s.fillBuffer b).1 n n := by
  have hpos := h.blksize_pos
  have hlength := h.buffer_length
  generalize hdata : s.world.file.take s.stream.buffer.length = data
  have hcount : data.length = min s.stream.buffer.length s.world.file.length := by
    rw [← hdata, List.length_take]
  have hfilePos : 0 < s.world.file.length := List.length_pos_of_ne_nil hmore
  have hsplit : data ++ s.world.file.drop data.length = s.world.file := by
    have htake : s.world.file.take data.length = data := by
      rw [hcount, ← hdata, List.take_eq_take_iff]
      omega
    conv_rhs => rw [← List.take_append_drop data.length s.world.file, htake]
  have hfill : s.fillBuffer b =
      ({ s with
          stream := { s.stream with buffer := overwriteFront data s.stream.buffer }
          traffic := { s.traffic with done := false }
          pendingSize := if (data.length : ℤ) ≠ s.test.settings.blksize then data.length else 0
          world := { s.world with file := s.world.file.drop data.length } },
        (data.length : ℤ)) := by
    have hsize : (s.test.settings.blksize - s.world.diskfileLeft).toNat =
        s.stream.buffer.length := by omega
    have hsome : ¬ (data.length : ℤ) = 0 := by omega
    have hrest : s.world.file.drop s.stream.buffer.length = s.world.file.drop data.length := by
      rw [hcount]
      rcases Nat.le_total s.stream.buffer.length s.world.file.length with hle | hle
      · rw [min_eq_left hle]
      · rw [min_eq_right hle, List.drop_length, List.drop_of_length_le hle]
    have hread := readFile_plain (fun hwindows => (hplain hwindows).of_suffix ⟨_, h.whole⟩)
      s.stream.buffer.length
    rw [fillBuffer, if_pos ⟨by omega, hdone⟩, hsize, hread, hdata, hrest]
    simp only [hnone, zero_add, hsome, decide_false, h.pending_eq]
  rw [hfill]
  refine ⟨data.length, rfl, rfl, ⟨?_, by simp [hnone], ?_, rfl, rfl⟩⟩
  · have hbuffer : (overwriteFront data s.stream.buffer).length = s.stream.buffer.length :=
      length_overwriteFront (by omega)
    refine ⟨hpos, h.blksize_int, ?_, by omega, ?_, ?_, ?_, rfl, ?_⟩
    · rw [hbuffer]
      exact hlength
    · rw [hbuffer]
      omega
    · by_cases hblock : (data.length : ℤ) = s.test.settings.blksize
      · simp [refill, hblock]
      · have hsome : ¬ (data.length : ℤ) = 0 := by omega
        simp only [refill, ne_eq, hblock, not_false_eq_true, if_true, if_neg hsome]
    · have hwhole := h.whole
      simp only [hnone, Int.toNat_zero, List.take_zero, List.append_nil] at hwhole
      rw [take_overwriteFront, List.append_assoc, hsplit]
      exact hwhole
    · intro _ hread count hcount' _
      dsimp only at hread
      have hblock : data.length = s.stream.buffer.length := by omega
      have hall : overwriteFront data s.stream.buffer = data := by
        simp [overwriteFront, hblock]
      rw [hall, List.take_length]
  · omega

theorem Delivers.fillBuffer_finished
    {file : List UInt8} {s : TcpSender DiskSide} (h : s.Delivers file)
    (hleft : s.world.diskfileLeft = 0) (hfile : s.world.file = []) :
    ((s.fillBuffer b).1.traffic.done = true ∨ (s.fillBuffer b).2 = 0) ∧
      Delivers file (s.fillBuffer b).1.finishFile ∧
      (s.fillBuffer b).1.world.sends = s.world.sends := by
  have hpos := h.blksize_pos
  have hfinished : Delivers file s.finishFile :=
    ⟨h.blksize_pos, h.blksize_int, h.buffer_length, h.left_nonneg, h.pending_eq, h.whole,
      h.leftover, fun _ => ⟨hleft, hfile⟩⟩
  by_cases hdone : s.traffic.done = true
  · have hfill : s.fillBuffer b = (s, 0) := by
      rw [fillBuffer, if_neg (by simp [hdone]), hleft]
    rw [hfill]
    exact ⟨Or.inr rfl, hfinished, rfl⟩
  · have hempty : (0 : ℤ) ≠ s.test.settings.blksize := by omega
    have hpending := h.pending_eq
    rw [hleft] at hpending
    have hreads : 0 < s.test.settings.blksize ∧ s.traffic.done = false :=
      ⟨by omega, by simpa using hdone⟩
    have hfill : s.fillBuffer b = (s.finishFile, 0) := by
      obtain ⟨test, stream, traffic, pendingSize, world⟩ := s
      obtain ⟨remaining, left, outcomes, socket, sends⟩ := world
      dsimp only at hleft hfile hpending
      subst hleft hfile hpending
      rw [fillBuffer, if_pos hreads, readFile_nil]
      simp [overwriteFront, finishFile]
    rw [hfill]
    exact ⟨Or.inr rfl, hfinished, rfl⟩

/-! ## Runs -/

theorem diskfileSend_cases
    {undefinedCopy : ℕ → ℕ → List UInt8 → List UInt8} {s s' : TcpSender DiskSide} {r : ℤ}
    (hsend : s.diskfileSend b undefinedCopy = some (s', r)) :
    (((s.fillBuffer b).1.traffic.done = true ∨ (s.fillBuffer b).2 = 0) ∧
        s' = (s.fillBuffer b).1.finishFile) ∨
      ∃ sent,
        ((s.fillBuffer b).1.noteSend (s.fillBuffer b).2).iperfTcpSend socketWrite = some (sent, r) ∧
        ¬ ((s.fillBuffer b).1.traffic.done = true ∨ (s.fillBuffer b).2 = 0) ∧
        s' = if r < 0 then sent else sent.keepLeftover undefinedCopy ((s.fillBuffer b).2 - r) := by
  unfold diskfileSend at hsend
  dsimp only at hsend
  split_ifs at hsend with hdone
  · obtain ⟨rfl, -⟩ := Prod.mk.inj (Option.some.inj hsend)
    exact Or.inl ⟨hdone, rfl⟩
  · obtain ⟨⟨sent, r₁⟩, hsent, hresult⟩ := Option.map_eq_some_iff.mp hsend
    dsimp only at hresult
    split_ifs at hresult with hneg
    · obtain ⟨rfl, rfl⟩ := Prod.mk.inj hresult
      exact Or.inr ⟨sent, hsent, hdone, (if_pos hneg).symm⟩
    · obtain ⟨rfl, rfl⟩ := Prod.mk.inj hresult
      exact Or.inr ⟨sent, hsent, hdone, (if_neg hneg).symm⟩

theorem Filled.noteSend {file : List UInt8} {n read : ℕ} {s : TcpSender DiskSide}
    (h : Filled file n read s) (bufferLeft : ℤ) :
    Filled file n read (s.noteSend bufferLeft) := by
  have hpending := h.pending_eq
  refine ⟨h.blksize_pos, h.blksize_int, h.buffer_length, h.size_pos, h.size_le, ?_, h.whole,
    h.unfinished, h.ends⟩
  unfold refill at hpending ⊢
  unfold TcpSender.noteSend
  dsimp only
  split_ifs at hpending ⊢ <;> exact hpending

theorem Delivers.fillBuffer_unfinished
    {file : List UInt8} {s : TcpSender DiskSide} (h : s.Delivers file)
    (hplain : b.windows = true → Plain file)
    (hunfinished : ¬ (s.world.diskfileLeft = 0 ∧ s.world.file = [])) :
    ∃ n read : ℕ, (s.fillBuffer b).2 = n ∧ (s.fillBuffer b).1.traffic.done = false ∧
      Fills file s (s.fillBuffer b).1 n read := by
  have hdone : s.traffic.done = false := by
    by_contra hdone
    exact hunfinished (h.finished (by simpa using hdone))
  rcases h.left_nonneg.lt_or_eq with hsome | hnone
  · obtain ⟨n, hfill⟩ := h.fillBuffer_leftover hdone hsome
    exact ⟨n, 0, hfill⟩
  · obtain ⟨n, hfill⟩ := h.fillBuffer_read hplain hdone hnone.symm
      (fun hfile => hunfinished ⟨hnone.symm, hfile⟩)
    exact ⟨n, n, hfill⟩

theorem Delivers.send_clean
    {undefinedCopy : ℕ → ℕ → List UInt8 → List UInt8} {file : List UInt8}
    {s s' : TcpSender DiskSide} {r : ℤ} (h : s.Delivers file)
    (hplain : b.windows = true → Plain file)
    (hsend : s.diskfileSend b undefinedCopy = some (s', r))
    (hclean : ∀ send ∈ s'.world.sends, send.Clean s.test.settings.blksize) :
    s'.Delivers file := by
  by_cases hfinished : s.world.diskfileLeft = 0 ∧ s.world.file = []
  · obtain ⟨hdone, hdelivers, -⟩ := h.fillBuffer_finished hfinished.1 hfinished.2
    rcases diskfileSend_cases hsend with ⟨-, rfl⟩ | ⟨-, -, hnot, -⟩
    · exact hdelivers
    · exact absurd hdone hnot
  · obtain ⟨n, read, hsize, hdoneAfter, hfills⟩ := h.fillBuffer_unfinished hplain hfinished
    have hpos := hfills.filled.size_pos
    rcases diskfileSend_cases hsend with ⟨hends | hends, -⟩ | ⟨sent, hsent, -, rfl⟩
    · simp [hdoneAfter] at hends
    · omega
    · rw [hsize] at hclean ⊢
      generalize (s.fillBuffer b).1 = t at hsent hfills
      have hnoted := hfills.filled.noteSend (s.fillBuffer b).2
      have hworld := hfills.world_eq
      have hleft := hfills.size_eq
      have hleftBefore : t.world.diskfileLeft = s.world.diskfileLeft := by rw [hworld]
      have houtcomes : (t.noteSend (s.fillBuffer b).2).world.outcomes = t.world.outcomes := rfl
      have hsends : (t.noteSend (s.fillBuffer b).2).world.sends = t.world.sends ++
          [⟨s.world.diskfileLeft, read, t.world.file.length, t.world.outcomes.head?⟩] := by
        rw [TcpSender.noteSend]
        dsimp only
        rw [hleftBefore, hsize, ← hleft, add_sub_cancel_left, Int.toNat_natCast]
      have hsocketBefore : t.world.socket = s.world.socket := by rw [hworld]
      rcases iperfTcpSend_socket hnoted hsent with
        ⟨outcomes, hsoft, hneg, rfl⟩ | ⟨k, hk, outcomes, haccepts, rfl, rfl⟩
      · rw [if_pos hneg] at hclean ⊢
        have hthis := hclean ⟨s.world.diskfileLeft, read, t.world.file.length,
          t.world.outcomes.head?⟩ (by simp [hsends])
        rw [houtcomes] at hsoft
        have hread : read = 0 := by simpa [DiskSend.Clean, hsoft] using hthis
        subst hread
        obtain ⟨hbuffer, hfile⟩ := hfills.same rfl
        have hleftAll : s.world.diskfileLeft = n := by simpa using hleft
        exact hnoted.sends_nothing h hfills.test_eq hbuffer hleftAll
          (hleftBefore.trans hleftAll) hsocketBefore hfile
      · rw [if_neg (by omega)] at hclean ⊢
        have hthis := hclean ⟨s.world.diskfileLeft, read, t.world.file.length,
          t.world.outcomes.head?⟩ (by simp [keepLeftover, hsends])
        rw [houtcomes] at haccepts
        simp only [DiskSend.Clean, haccepts, List.head?_cons] at hthis
        by_cases hall : n ≤ k
        · rw [min_eq_right hall, sub_self]
          exact hnoted.sends_all _ rfl rfl
        · rcases hthis with hwhole | ⟨hremaining, hread, hhalf⟩
          · omega
          · rw [min_eq_left (by omega)]
            have hend : t.world.file = [] := List.length_eq_zero_iff.mp hremaining
            refine hnoted.sends_part (by omega) _ rfl rfl hend ?_ ?_
            · change read = 0 ∨ (read : ℤ) = t.test.settings.blksize
              rw [hfills.test_eq]
              exact hread
            · change 2 * ((n : ℤ) - k) ≤ t.test.settings.blksize
              rw [hfills.test_eq]
              omega

theorem iperfTcpSend_frame
    {s s' : TcpSender DiskSide} {r : ℤ} (hsend : s.iperfTcpSend socketWrite = some (s', r)) :
    s'.test = s.test ∧ s'.world.sends = s.world.sends := by
  simp only [iperfTcpSend, Option.map_eq_some_iff] at hsend
  obtain ⟨⟨world, r₁⟩, hwrite, hresult⟩ := hsend
  have hsends : world.sends = s.world.sends := by
    unfold socketWrite at hwrite
    split at hwrite
    · cases hwrite
    · obtain ⟨rfl, -⟩ := Prod.mk.inj (Option.some.inj hwrite)
      rfl
    · obtain ⟨rfl, -⟩ := Prod.mk.inj (Option.some.inj hwrite)
      rfl
  dsimp only at hresult
  split_ifs at hresult
  · obtain ⟨rfl, -⟩ := Prod.mk.inj hresult
    exact ⟨refill_test s, hsends⟩
  · obtain ⟨rfl, -⟩ := Prod.mk.inj hresult
    exact ⟨refill_test s, hsends⟩

/-- A send keeps the parameters and what has been recorded, whatever it comes
to. -/
theorem diskfileSend_frame
    {undefinedCopy : ℕ → ℕ → List UInt8 → List UInt8} {s s' : TcpSender DiskSide} {r : ℤ}
    (hsend : s.diskfileSend b undefinedCopy = some (s', r)) :
    s'.test = s.test ∧ s.world.sends ⊆ s'.world.sends := by
  have hfill : (s.fillBuffer b).1.test = s.test ∧
      (s.fillBuffer b).1.world.sends = s.world.sends := by
    unfold fillBuffer
    split_ifs <;> exact ⟨rfl, rfl⟩
  rcases diskfileSend_cases hsend with ⟨-, rfl⟩ | ⟨sent, hsent, -, rfl⟩
  · exact ⟨hfill.1, fun send hmem => hfill.2.symm ▸ hmem⟩
  · obtain ⟨htest, hsends⟩ := iperfTcpSend_frame hsent
    have hrecorded : s.world.sends ⊆ sent.world.sends := by
      rw [hsends, TcpSender.noteSend, ← hfill.2]
      exact List.subset_append_left _ _
    split_ifs
    · exact ⟨htest.trans hfill.1, hrecorded⟩
    · exact ⟨htest.trans hfill.1, hrecorded⟩

/-- As long as no send has lost anything, the file is delivered. -/
def DeliversCleanly (blksize : ℤ) (file : List UInt8) (s : TcpSender DiskSide) : Prop :=
  s.test.settings.blksize = blksize ∧
    ((∀ send ∈ s.world.sends, send.Clean blksize) → s.Delivers file)

theorem DeliversCleanly.send
    {undefinedCopy : ℕ → ℕ → List UInt8 → List UInt8} {blksize : ℤ} {file : List UInt8}
    {s s' : TcpSender DiskSide} {r : ℤ} (h : s.DeliversCleanly blksize file)
    (hplain : b.windows = true → Plain file)
    (hsend : s.diskfileSend b undefinedCopy = some (s', r)) : s'.DeliversCleanly blksize file := by
  obtain ⟨hblksize, hdelivers⟩ := h
  obtain ⟨htest, hsends⟩ := diskfileSend_frame hsend
  refine ⟨by rw [htest, hblksize], fun hclean => ?_⟩
  have hbefore := hdelivers fun send hmem => hclean send (hsends hmem)
  exact hbefore.send_clean hplain hsend (by rwa [hblksize])

theorem DeliversCleanly.keeps
    (undefinedCopy : ℕ → ℕ → List UInt8 → List UInt8) (blksize : ℤ) {file : List UInt8}
    (hplain : b.windows = true → Plain file) :
    Keeps (DeliversCleanly blksize file) (diskfileSend b undefinedCopy) where
  counted _ _ _ h hsend _ := by
    obtain ⟨hblksize, hdelivers⟩ := h.send hplain hsend
    refine ⟨hblksize, fun hclean => ?_⟩
    have hsent := hdelivers hclean
    exact ⟨hsent.blksize_pos, hsent.blksize_int, hsent.buffer_length, hsent.left_nonneg,
      hsent.pending_eq, hsent.whole, hsent.leftover, hsent.finished⟩
  soft _ _ _ h hsend _ := h.send hplain hsend
  fails _ h := by
    refine ⟨h.1, fun hclean => ?_⟩
    have hsent := h.2 hclean
    exact ⟨hsent.blksize_pos, hsent.blksize_int, hsent.buffer_length, hsent.left_nonneg,
      hsent.pending_eq, hsent.whole, hsent.leftover, hsent.finished⟩

def startFile (t : Test) (buffer file : List UInt8) (outcomes : List TcpOutcome) :
    TcpSender DiskSide where
  test := t
  stream := iperfNewStream true buffer
  traffic := Traffic.initial t
  pendingSize := 0
  world := ⟨file, 0, outcomes, [], []⟩

/-- If no send loses anything, and on Windows the file is the same as text, the
bytes on the socket are always a front part of the file, and they are the whole
file once the test is done. -/
theorem diskfile_delivered
    (b : Build) (undefinedCopy : ℕ → ℕ → List UInt8 → List UInt8) {t : Test}
    (hpos : 1 ≤ t.settings.blksize) (hint : IsInt t.settings.blksize) {buffer : List UInt8}
    (hbuffer : (buffer.length : ℤ) = t.settings.blksize) {file : List UInt8}
    (hplain : b.windows = true → Plain file)
    (outcomes : List TcpOutcome) (greens : List (ℕ → Bool)) :
    ∀ s ∈ calls (diskfileSend b undefinedCopy) greens (startFile t buffer file outcomes),
      (∀ send ∈ s.world.sends, send.Clean t.settings.blksize) →
        s.world.socket <+: file ∧ (s.traffic.done = true → s.world.socket = file) := by
  have hstart : (startFile t buffer file outcomes).DeliversCleanly t.settings.blksize file := by
    refine ⟨rfl, fun _ => ⟨hpos, hint, hbuffer, le_rfl, rfl, ?_, nofun, nofun⟩⟩
    simp [startFile]
  intro s hs hclean
  have hdelivers :=
    ((DeliversCleanly.keeps undefinedCopy _ hplain).calls greens hstart s hs).2 hclean
  have hwhole := hdelivers.whole
  constructor
  · exact ⟨_, by rw [← List.append_assoc]; exact hwhole⟩
  · intro hdone
    obtain ⟨hleft, hfile⟩ := hdelivers.finished hdone
    simpa [hleft, hfile] using hwhole

/-- Two calls for a file, in blocks of four bytes. -/
def twoBlockCalls (b : Build) (file : List UInt8) (outcomes : List TcpOutcome) :
    List (TcpSender DiskSide) :=
  let t := serverStart b ServerArgs.default
  calls (diskfileSend b fun _ _ buffer => buffer) [fun _ => true, fun _ => true]
    (startFile { t with settings := { t.settings with blksize := 4 } } [0, 0, 0, 0] file outcomes)

/-- The last byte of the second block is left over and has to wait. -/
theorem diskfile_delivered_two_blocks :
    (twoBlockCalls Build.msvc [1, 2, 3, 4, 5, 6, 7, 8] [.accepts 4 (by decide),
        .accepts 3 (by decide), .softError, .accepts 1 (by decide)]).map
          (fun s => s.traffic.done) = [false, true] ∧
      ∀ s ∈ twoBlockCalls Build.msvc [1, 2, 3, 4, 5, 6, 7, 8] [.accepts 4 (by decide),
          .accepts 3 (by decide), .softError, .accepts 1 (by decide)],
        s.world.socket <+: [1, 2, 3, 4, 5, 6, 7, 8] ∧
          (s.traffic.done = true → s.world.socket = [1, 2, 3, 4, 5, 6, 7, 8]) := by
  have hclean : ∀ s ∈ twoBlockCalls Build.msvc [1, 2, 3, 4, 5, 6, 7, 8] [.accepts 4 (by decide),
      .accepts 3 (by decide), .softError, .accepts 1 (by decide)],
        ∀ send ∈ s.world.sends, send.Clean 4 := by
    decide +kernel
  refine ⟨by decide +kernel, fun s hs => ?_⟩
  exact diskfile_delivered Build.msvc _ (by decide) (IsInt.of_bounds (by decide) (by decide)) rfl
    (fun _ => ⟨by decide, by decide⟩) _ _ s hs (hclean s hs)

/-- When a byte of the first block is left over, the next read overwrites it. -/
theorem short_send_corrupts_file :
    ∃ s ∈ twoBlockCalls Build.linux [1, 2, 3, 4, 5, 6, 7, 8]
        [.accepts 3 (by decide), .accepts 4 (by decide), .softError],
      s.world.socket = [1, 2, 3, 5] ∧ ¬ s.world.socket <+: [1, 2, 3, 4, 5, 6, 7, 8] := by
  decide +kernel

/-- On Windows a byte is missing from the end of every line. -/
example : ∃ s ∈ twoBlockCalls Build.msvc [1, cr, lf, 2] [.accepts 3 (by decide)],
    s.traffic.done = true ∧ s.world.socket = [1, lf, 2] := by
  decide +kernel

end TcpSender

end Iperf3
