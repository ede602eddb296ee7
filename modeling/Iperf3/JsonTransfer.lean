import Iperf3.JsonFrame
import Iperf3.WriteCounts
import Mathlib.Tactic

/-!
# JSON frames through writes and reads

A frame passes through `Nwrite` on one side and `Nread` on the other.  Both
may return a short count in place of an error.  The reader compares the count
with the length; the writer looks only at the sign.
-/

namespace Iperf3

open MachineInt

/-! ## Writing -/

/-- Outcomes of the writes for the length and of those for the text. -/
structure FrameWrites where
  length : List CallResult
  text : List CallResult

def uint32Length (text : List UInt8) : ℕ := uint32 text.length

/-- `JSON_write` on a text without zero bytes, or on none if there is no
memory for it: the result and the bytes that are written. -/
def jsonWriteCalls (text : Option (List UInt8)) (writes : FrameWrites) :
    Option (ℤ × List UInt8) :=
  match text with
  | none => some (-1, [])
  | some text =>
      match nwrite 4 writes.length with
      | none => none
      | some (r, _) =>
          let nsize := (BigEndian.encode 4 (uint32Length text)).take
            (acceptedBytes 4 writes.length)
          if r < 0 then some (-1, nsize)
          else
            (nwrite (uint32Length text) writes.text).map fun (r, _) =>
              (if r < 0 then -1 else 0,
                nsize ++ text.take (acceptedBytes (uint32Length text) writes.text))

def jsonFrame (text : List UInt8) : List UInt8 :=
  BigEndian.encode 4 text.length ++ text

/-- The call for `count` bytes returns an error: the writes give up, or they
are interrupted before the first byte, or the count is no `int`. -/
def Refused (count : ℕ) (results : List CallResult) : Prop :=
  GivesUp count results ∨ returnedCount count (acceptedBytes count results) < 0

def WrittenWhole (text : List UInt8) (writes : FrameWrites) : Prop :=
  text.length < 4294967296 ∧ acceptedBytes 4 writes.length = 4 ∧
    acceptedBytes (uint32Length text) writes.text = text.length

instance (count : ℕ) (results : List CallResult) : Decidable (Refused count results) := by
  unfold Refused
  infer_instance

instance (text : List UInt8) (writes : FrameWrites) : Decidable (WrittenWhole text writes) := by
  unfold WrittenWhole
  infer_instance

theorem nwrite_refused_iff
    {count : ℕ} {results : List CallResult} {r : ℤ} {used : ℕ}
    (h : nwrite count results = some (r, used)) : Refused count results ↔ r < 0 := by
  unfold Refused
  rcases nwrite_returns h with ⟨hup, hneg⟩ | ⟨hup, rfl⟩
  · exact ⟨fun _ => hneg, fun _ => Or.inl hup⟩
  · simp [hup]

theorem uint32Length_eq (text : List UInt8) : uint32Length text = text.length % 4294967296 := by
  rw [uint32Length, uint32_eq]
  omega

theorem encode_uint32Length (text : List UInt8) :
    BigEndian.encode 4 (uint32Length text) = BigEndian.encode 4 text.length := by
  rw [uint32Length_eq]
  exact BigEndian.encode_mod 4 text.length

/-- What is written is the frame exactly when nothing is cut short. -/
theorem written_eq_jsonFrame_iff (text : List UInt8) (writes : FrameWrites) :
    (BigEndian.encode 4 (uint32Length text)).take (acceptedBytes 4 writes.length) ++
        text.take (acceptedBytes (uint32Length text) writes.text) = jsonFrame text ↔
      WrittenWhole text writes := by
  have hheader := acceptedBytes_le 4 writes.length
  have htext := acceptedBytes_le (uint32Length text) writes.text
  have hmod := uint32Length_eq text
  rw [encode_uint32Length, jsonFrame]
  constructor
  · intro h
    have hlength := congrArg List.length h
    simp only [List.length_append, List.length_take, BigEndian.length_encode] at hlength
    unfold WrittenWhole
    omega
  · rintro ⟨hsmall, hfour, hall⟩
    rw [hfour, hall, List.take_of_length_le (by simp), List.take_length]

theorem jsonWriteCalls_iff
    {text : List UInt8} {writes : FrameWrites} {r : ℤ} {sent : List UInt8}
    (h : jsonWriteCalls (some text) writes = some (r, sent)) :
    (r = 0 → sent = jsonFrame text) ↔
      Refused 4 writes.length ∨ Refused (uint32Length text) writes.text ∨
        WrittenWhole text writes := by
  simp only [jsonWriteCalls] at h
  cases hfirst : nwrite 4 writes.length with
  | none => simp [hfirst] at h
  | some result =>
      obtain ⟨r₁, used₁⟩ := result
      have hrefused := nwrite_refused_iff hfirst
      simp only [hfirst] at h
      split_ifs at h with hneg
      · obtain ⟨rfl, -⟩ := Prod.mk.inj (Option.some.inj h)
        simp [hrefused, hneg]
      · obtain ⟨⟨r₂, used₂⟩, hsecond, hresult⟩ := Option.map_eq_some_iff.mp h
        have hrefused' := nwrite_refused_iff hsecond
        obtain ⟨rfl, rfl⟩ := Prod.mk.inj hresult
        rw [hrefused, hrefused', written_eq_jsonFrame_iff]
        by_cases hneg' : r₂ < 0
        · simp [hneg, hneg']
        · simp [hneg, hneg']

/-! ## Reading -/

/-- How a wait for more bytes ends.  When the overall timeout has passed there
is no wait, and the loop ends as on a timeout. -/
inductive Wait where
  | ready
  | timesOut
  | fails
  deriving DecidableEq, Repr

/-- Outcomes of one call of `Nread`: of its first wait, and of each read with
the wait after it. -/
structure ReadCalls where
  first : Wait
  reads : List (CallResult × Wait)

/-- The result and the number of bytes taken from the stream. -/
def nreadLoop (count : ℕ) : ℕ → List UInt8 → List (CallResult × Wait) → Option (ℤ × ℕ)
  | 0, _, _ => some (int32 count, 0)
  | _ + 1, _, [] => none
  | nleft + 1, _, (.failed errno, _) :: _ =>
      if errno.interrupts then some (int32 (count - (nleft + 1) : ℤ), 0)
      else some (netHarderror, 0)
  | nleft + 1, stream, (.transferred n, wait) :: reads =>
      let r := min (min n (nleft + 1)) stream.length
      if r = 0 then some (int32 (count - (nleft + 1) : ℤ), 0)
      else if nleft + 1 - r = 0 then some (int32 count, r)
      else
        match wait with
        | .fails => some (netHarderror, r)
        | .timesOut => some (int32 (count - (nleft + 1 - r : ℕ) : ℤ), r)
        | .ready =>
            (nreadLoop count (nleft + 1 - r) (stream.drop r) reads).map (Prod.map id (· + r))

def nread (count : ℕ) (stream : List UInt8) (calls : ReadCalls) : Option (ℤ × ℕ) :=
  match calls.first with
  | .fails => some (netHarderror, 0)
  | .timesOut => some (0, 0)
  | .ready => nreadLoop count count stream calls.reads

/-- One call of `JSON_read`: its limit, whether there is memory for the text,
and the outcomes for the length and for the text. -/
structure FrameReads where
  maxSize : ℕ
  allocated : Bool
  length : ReadCalls
  text : ReadCalls

/-- `JSON_read`: the tree, if there is one, and what is left of the stream. -/
def jsonReadCalls (codec : Codec) (calls : FrameReads) (stream : List UInt8) :
    Option (Option Json × List UInt8) :=
  match nread 4 stream calls.length with
  | none => none
  | some (rc, taken) =>
      let hsize := BigEndian.decode (stream.take taken)
      if rc = 4 ∧ 0 < hsize ∧ (calls.maxSize = 0 ∨ hsize ≤ calls.maxSize) ∧
          uint32 (hsize + 1) ≠ 0 ∧ calls.allocated = true then
        (nread hsize (stream.drop taken) calls.text).map fun (rc, read) =>
          (if rc = hsize then codec.parse ((stream.drop taken).take read) else none,
            (stream.drop taken).drop read)
      else some (none, stream.drop taken)

/-- A count is the number of bytes taken, and an error is negative. -/
theorem nreadLoop_spec
    {count nleft : ℕ} (hleft : nleft ≤ count) {stream : List UInt8}
    {reads : List (CallResult × Wait)} {r : ℤ} {taken : ℕ}
    (h : nreadLoop count nleft stream reads = some (r, taken)) :
    taken ≤ nleft ∧ taken ≤ stream.length ∧
      (r < 0 ∨ r = int32 (count - nleft + taken : ℤ)) := by
  induction reads generalizing nleft stream taken with
  | nil =>
      cases nleft with
      | zero =>
          obtain ⟨rfl, rfl⟩ : int32 count = r ∧ 0 = taken := by simpa [nreadLoop] using h
          simp
      | succ nleft => simp [nreadLoop] at h
  | cons read reads ih =>
      cases nleft with
      | zero =>
          obtain ⟨rfl, rfl⟩ : int32 count = r ∧ 0 = taken := by simpa [nreadLoop] using h
          simp
      | succ nleft =>
          obtain ⟨result, wait⟩ := read
          cases result with
          | failed errno =>
              unfold nreadLoop at h
              split_ifs at h
              · obtain ⟨rfl, rfl⟩ := Prod.mk.inj (Option.some.inj h)
                simp
              · obtain ⟨rfl, rfl⟩ := Prod.mk.inj (Option.some.inj h)
                exact ⟨Nat.zero_le _, Nat.zero_le _, Or.inl (by decide)⟩
          | transferred n =>
              unfold nreadLoop at h
              dsimp only at h
              generalize hk : min (min n (nleft + 1)) stream.length = k at h
              have hlow : k ≤ nleft + 1 := by omega
              have hstream : k ≤ stream.length := by omega
              split_ifs at h with hnone hdone
              · obtain ⟨rfl, rfl⟩ := Prod.mk.inj (Option.some.inj h)
                simp
              · obtain ⟨rfl, rfl⟩ := Prod.mk.inj (Option.some.inj h)
                have hall : (count : ℤ) - (nleft + 1 : ℕ) + k = count := by omega
                exact ⟨hlow, hstream, Or.inr (by rw [hall])⟩
              · cases wait with
                | fails =>
                    obtain ⟨rfl, rfl⟩ := Prod.mk.inj (Option.some.inj h)
                    exact ⟨hlow, hstream, Or.inl (by decide)⟩
                | timesOut =>
                    obtain ⟨rfl, rfl⟩ := Prod.mk.inj (Option.some.inj h)
                    have hcount : (count : ℤ) - (nleft + 1 - k : ℕ) =
                        count - (nleft + 1 : ℕ) + k := by omega
                    exact ⟨hlow, hstream, Or.inr (by rw [hcount])⟩
                | ready =>
                    obtain ⟨⟨r', taken'⟩, hrest, hmap⟩ := Option.map_eq_some_iff.mp h
                    simp only [Prod.map_apply, id_eq, Prod.mk.injEq] at hmap
                    obtain ⟨rfl, rfl⟩ := hmap
                    obtain ⟨hle, hlength, hr⟩ := ih (by omega) hrest
                    rw [List.length_drop] at hlength
                    have hcount : (count : ℤ) - (nleft + 1 - k : ℕ) + taken' =
                        count - (nleft + 1 : ℕ) + (taken' + k : ℕ) := by omega
                    exact ⟨by omega, by omega, hcount ▸ hr⟩

theorem nread_full
    {count : ℕ} {stream : List UInt8} {calls : ReadCalls} {taken : ℕ} (hpos : 0 < count)
    (h : nread count stream calls = some ((count : ℤ), taken)) :
    taken = count ∧ count ≤ stream.length := by
  unfold nread at h
  split at h
  · have hr : netHarderror = (count : ℤ) := (Prod.mk.inj (Option.some.inj h)).1
    have hneg : netHarderror < 0 := by decide
    omega
  · have hr : (0 : ℤ) = (count : ℤ) := (Prod.mk.inj (Option.some.inj h)).1
    omega
  · obtain ⟨hle, hlength, hneg | hr⟩ := nreadLoop_spec le_rfl h
    · omega
    · rw [sub_self, zero_add] at hr
      have hbounds := int32_bounds (taken : ℤ)
      rw [← hr] at hbounds
      have hexact : int32 (taken : ℤ) = taken := int32_of_mem (by omega) (by omega)
      omega

/-- A tree has used up its frame and nothing else, and it is the parse of the
text. -/
structure ReadsFrame (codec : Codec) (stream : List UInt8) (tree : Json)
    (rest : List UInt8) : Prop where
  long : 4 + BigEndian.decode (stream.take 4) ≤ stream.length
  rest_eq : rest = stream.drop (4 + BigEndian.decode (stream.take 4))
  parsed :
    codec.parse ((stream.drop 4).take (BigEndian.decode (stream.take 4))) = some tree

theorem jsonReadCalls_readsFrame
    {codec : Codec} {calls : FrameReads} {stream rest : List UInt8} {tree : Json}
    (h : jsonReadCalls codec calls stream = some (some tree, rest)) :
    ReadsFrame codec stream tree rest := by
  unfold jsonReadCalls at h
  cases hlength : nread 4 stream calls.length with
  | none => simp [hlength] at h
  | some result =>
      obtain ⟨rc, taken⟩ := result
      simp only [hlength] at h
      split_ifs at h with hgood
      · obtain ⟨rfl, hpos, -⟩ := hgood
        obtain ⟨rfl, hfour⟩ := nread_full (by norm_num) hlength
        obtain ⟨⟨rc', read⟩, htext, hresult⟩ := Option.map_eq_some_iff.mp h
        dsimp only at hresult
        obtain ⟨htree, rfl⟩ := Prod.mk.inj hresult
        split_ifs at htree with hfull
        obtain rfl : rc' = (BigEndian.decode (stream.take 4) : ℤ) := hfull
        obtain ⟨rfl, hlong⟩ := nread_full hpos htext
        rw [List.length_drop] at hlong
        exact ⟨by omega, by rw [List.drop_drop], htree⟩
      · simp at h

/-- A tree comes from a frame within the limit. -/
theorem jsonReadCalls_within
    {codec : Codec} {calls : FrameReads} {stream rest : List UInt8} {tree : Json}
    (h : jsonReadCalls codec calls stream = some (some tree, rest)) :
    calls.maxSize = 0 ∨ BigEndian.decode (stream.take 4) ≤ calls.maxSize := by
  unfold jsonReadCalls at h
  cases hlength : nread 4 stream calls.length with
  | none => simp [hlength] at h
  | some result =>
      obtain ⟨rc, taken⟩ := result
      simp only [hlength] at h
      split_ifs at h with hgood
      · obtain ⟨rfl, -, hlimit, -⟩ := hgood
        obtain ⟨rfl, -⟩ := nread_full (by norm_num) hlength
        exact hlimit
      · simp at h

/-! ## Frames in a row -/

/-- The trees of as many frames as there are calls, if every call returns
one. -/
def readFrames (codec : Codec) : List FrameReads → List UInt8 → Option (List Json × List UInt8)
  | [], stream => some ([], stream)
  | calls :: later, stream =>
      match jsonReadCalls codec calls stream with
      | some (some tree, rest) =>
          (readFrames codec later rest).map fun (trees, rest) => (tree :: trees, rest)
      | _ => none

structure SentFrame where
  message : Json
  writes : FrameWrites

/-- The message was written without a failure and without being cut short. -/
structure SentFrame.Arrives (codec : Codec) (frame : SentFrame) : Prop where
  parses : codec.parse (codec.print frame.message) = some frame.message
  succeeds : ∃ sent, jsonWriteCalls (some (codec.print frame.message)) frame.writes = some (0, sent)
  whole : WrittenWhole (codec.print frame.message) frame.writes

/-- The bytes that `JSON_write` puts on the connection. -/
def SentFrame.bytes (codec : Codec) (frame : SentFrame) : List UInt8 :=
  ((jsonWriteCalls (some (codec.print frame.message)) frame.writes).map Prod.snd).getD []

theorem SentFrame.Arrives.bytes_eq
    {codec : Codec} {frame : SentFrame} (h : frame.Arrives codec) :
    frame.bytes codec = jsonFrame (codec.print frame.message) := by
  obtain ⟨sent, hsent⟩ := h.succeeds
  have hframe := (jsonWriteCalls_iff hsent).mpr (Or.inr (Or.inr h.whole)) rfl
  rw [bytes, hsent]
  exact hframe

theorem decode_jsonFrame {text : List UInt8} (hsmall : text.length < 4294967296)
    (later : List UInt8) :
    (jsonFrame text ++ later).take 4 = BigEndian.encode 4 text.length ∧
      BigEndian.decode ((jsonFrame text ++ later).take 4) = text.length ∧
      (jsonFrame text ++ later).drop 4 = text ++ later := by
  have hhead : (jsonFrame text ++ later).take 4 = BigEndian.encode 4 text.length := by
    rw [jsonFrame, List.append_assoc, List.take_left' (by simp)]
  refine ⟨hhead, ?_, ?_⟩
  · rw [hhead]
    apply BigEndian.decode_encode
    norm_num
    omega
  · rw [jsonFrame, List.append_assoc, List.drop_left' (by simp)]

theorem readFrames_sent
    {codec : Codec} {calls : List FrameReads} {frames : List SentFrame} {later rest : List UInt8}
    {trees : List Json} (hframes : ∀ frame ∈ frames, frame.Arrives codec)
    (hcalls : calls.length = frames.length)
    (h : readFrames codec calls (frames.flatMap (SentFrame.bytes codec) ++ later) =
      some (trees, rest)) :
    trees = frames.map (·.message) ∧ rest = later := by
  induction frames generalizing calls trees with
  | nil =>
      obtain rfl : calls = [] := List.length_eq_zero_iff.mp hcalls
      obtain ⟨rfl, rfl⟩ : [] = trees ∧ later = rest := by simpa [readFrames] using h
      exact ⟨rfl, rfl⟩
  | cons frame frames ih =>
      obtain ⟨first, calls, rfl⟩ : ∃ first rest, calls = first :: rest :=
        List.exists_cons_of_length_eq_add_one hcalls
      have harrives := hframes frame List.mem_cons_self
      rw [List.flatMap_cons, List.append_assoc, harrives.bytes_eq] at h
      unfold readFrames at h
      split at h
      · rename_i tree remaining hread
        obtain ⟨⟨trees', rest'⟩, hrest, hresult⟩ := Option.map_eq_some_iff.mp h
        obtain ⟨rfl, rfl⟩ := Prod.mk.inj hresult
        obtain ⟨-, hremaining, hparsed⟩ := jsonReadCalls_readsFrame hread
        obtain ⟨-, hsize, htail⟩ := decode_jsonFrame harrives.whole.1
          (frames.flatMap (SentFrame.bytes codec) ++ later)
        rw [hsize, htail, List.take_left] at hparsed
        rw [hsize, ← List.drop_drop, htail, List.drop_left] at hremaining
        subst hremaining
        obtain ⟨htrees, hlater⟩ :=
          ih (fun frame hframe => hframes frame (List.mem_cons_of_mem _ hframe))
          (by simpa using hcalls) hrest
        have htree : tree = frame.message :=
          Option.some.inj (hparsed.symm.trans harrives.parses)
        exact ⟨by rw [htree, htrees, List.map_cons], hlater⟩
      · cases h

/-! ## Reads that are not cut short -/

/-- The reads supply `nleft` bytes without an error or a timeout. -/
def ReadsAll : ℕ → List (CallResult × Wait) → Prop
  | 0, _ => True
  | _ + 1, [] | _ + 1, (.failed _, _) :: _ => False
  | nleft + 1, (.transferred n, wait) :: reads =>
      n ≠ 0 ∧ (nleft + 1 ≤ n ∨ wait = .ready ∧ ReadsAll (nleft + 1 - n) reads)

theorem nreadLoop_all
    {count nleft : ℕ} {stream : List UInt8} {reads : List (CallResult × Wait)}
    (hlong : nleft ≤ stream.length) (h : ReadsAll nleft reads) :
    nreadLoop count nleft stream reads = some (int32 count, nleft) := by
  induction reads generalizing nleft stream with
  | nil =>
      cases nleft with
      | zero => simp only [nreadLoop]
      | succ nleft => simp only [ReadsAll] at h
  | cons read reads ih =>
      cases nleft with
      | zero => simp only [nreadLoop]
      | succ nleft =>
          obtain ⟨result, wait⟩ := read
          cases result with
          | failed errno => simp only [ReadsAll] at h
          | transferred n =>
              simp only [ReadsAll] at h
              obtain ⟨hsome, hmore⟩ := h
              by_cases hlast : nleft + 1 ≤ n
              · have hr : min (min n (nleft + 1)) stream.length = nleft + 1 := by omega
                simp only [nreadLoop, hr]
                rw [if_neg (Nat.succ_ne_zero nleft), if_pos (Nat.sub_self _)]
              · obtain ⟨hready, hall⟩ := hmore.resolve_left hlast
                have hr : min (min n (nleft + 1)) stream.length = n := by omega
                have hrest : nreadLoop count (nleft + 1 - n) (stream.drop n) reads =
                    some (int32 count, nleft + 1 - n) :=
                  ih (by rw [List.length_drop]; omega) hall
                simp only [nreadLoop, hr, hready]
                rw [if_neg hsome, if_neg (show nleft + 1 - n ≠ 0 by omega), hrest,
                  Option.map_some, Prod.map_apply, id_eq, Nat.sub_add_cancel (by omega)]

/-- The call has memory, time and bytes for this text. -/
structure FrameReads.Completes (text : List UInt8) (calls : FrameReads) : Prop where
  nonempty : 0 < text.length
  isInt : text.length < 2147483648
  limit : calls.maxSize = 0 ∨ text.length ≤ calls.maxSize
  allocated : calls.allocated = true
  length_ready : calls.length.first = .ready
  length_reads : ReadsAll 4 calls.length.reads
  text_ready : calls.text.first = .ready
  text_reads : ReadsAll text.length calls.text.reads

theorem jsonReadCalls_completes
    {codec : Codec} {calls : FrameReads} {text : List UInt8} (h : calls.Completes text)
    (later : List UInt8) :
    jsonReadCalls codec calls (jsonFrame text ++ later) = some (codec.parse text, later) := by
  have hpos := h.nonempty
  have hint := h.isInt
  have hsmall : text.length < 4294967296 := by omega
  obtain ⟨-, hsize, htail⟩ := decode_jsonFrame hsmall later
  have hlong : 4 ≤ (jsonFrame text ++ later).length := by
    simp [jsonFrame]
  have hfour : nread 4 (jsonFrame text ++ later) calls.length = some (4, 4) := by
    have hexact : int32 ((4 : ℕ) : ℤ) = 4 := int32_of_mem (by norm_num) (by norm_num)
    rw [nread, h.length_ready]
    dsimp only
    rw [nreadLoop_all hlong h.length_reads, hexact]
  have hexact : int32 (text.length : ℤ) = text.length := int32_of_mem (by omega) (by omega)
  have hall : nread text.length (text ++ later) calls.text =
      some ((text.length : ℤ), text.length) := by
    rw [nread, h.text_ready]
    dsimp only
    rw [nreadLoop_all (by simp) h.text_reads, hexact]
  have hfits : uint32 ((text.length : ℤ) + 1) ≠ 0 := by
    rw [uint32_eq]
    omega
  unfold jsonReadCalls
  rw [hfour]
  dsimp only
  rw [hsize, htail, if_pos ⟨rfl, hpos, h.limit, hfits, h.allocated⟩, hall]
  simp

/-- Nothing cuts a frame short, and there is memory for its text. -/
structure Unhindered (text : List UInt8) (writes : FrameWrites) (calls : FrameReads) : Prop where
  written : WrittenWhole text writes
  allocated : calls.allocated = true
  length_ready : calls.length.first = .ready
  length_reads : ReadsAll 4 calls.length.reads
  text_ready : calls.text.first = .ready
  text_reads : ReadsAll text.length calls.text.reads

/-- `JSON_write` succeeds, and from what it has written `JSON_read` returns the
message, with its numbers re-read, and leaves what comes later. -/
def Transfers (codec : Codec) (writes : FrameWrites) (calls : FrameReads) (j : Json) : Prop :=
  ∃ sent, jsonWriteCalls (some (codec.print j)) writes = some (0, sent) ∧
    ∃ f, CJson.KeepsIntegers f ∧
      ∀ later, jsonReadCalls codec calls (sent ++ later) = some (some (j.mapNumbers f), later)

/-- The text is written, but its length returned as a negative number if it is
no `int`. -/
theorem jsonWriteCalls_whole
    {text : List UInt8} {writes : FrameWrites} (h : WrittenWhole text writes) :
    jsonWriteCalls (some text) writes =
      some (if text.length < 2147483648 then 0 else -1, jsonFrame text) := by
  obtain ⟨hsmall, hfour, hall⟩ := id h
  have hlength : uint32Length text = text.length := by
    rw [uint32Length_eq]
    omega
  have hframe := (written_eq_jsonFrame_iff text writes).mpr h
  obtain ⟨used, hfirst⟩ := nwrite_accepted hfour
  obtain ⟨used', hsecond⟩ := nwrite_accepted (hlength ▸ hall :
    acceptedBytes text.length writes.text = text.length)
  have hexact : int32 ((4 : ℕ) : ℤ) = 4 := int32_of_mem (by norm_num) (by norm_num)
  have hsign : int32 (text.length : ℤ) < 0 ↔ ¬ text.length < 2147483648 := by
    rw [int32_eq]
    omega
  simp only [jsonWriteCalls, hfirst, hexact]
  rw [if_neg (by norm_num), hframe, hlength, hsecond, Option.map_some]
  by_cases hint : text.length < 2147483648
  · rw [if_neg (fun hneg => hsign.mp hneg hint), if_pos hint]
  · rw [if_pos (hsign.mpr hint), if_neg hint]

/-- A message that the codec is faithful to goes over exactly when the length
of its text is an `int` and within the limit of the reader. -/
theorem transfers_iff
    {codec : Codec} {writes : FrameWrites} {calls : FrameReads} {j : Json}
    (hfaithful : codec.Faithful j) (hpos : 0 < (codec.print j).length)
    (h : Unhindered (codec.print j) writes calls) :
    Transfers codec writes calls j ↔
      (codec.print j).length < 2147483648 ∧
        (calls.maxSize = 0 ∨ (codec.print j).length ≤ calls.maxSize) := by
  have hwrite := jsonWriteCalls_whole h.written
  constructor
  · rintro ⟨sent, hsent, f, -, hread⟩
    rw [hwrite] at hsent
    obtain ⟨hr, rfl⟩ := Prod.mk.inj (Option.some.inj hsent)
    have hint : (codec.print j).length < 2147483648 := by
      by_contra hlong
      rw [if_neg hlong] at hr
      cases hr
    refine ⟨hint, ?_⟩
    obtain ⟨-, hsize, -⟩ := decode_jsonFrame h.written.1 []
    exact hsize ▸ jsonReadCalls_within (hread [])
  · rintro ⟨hint, hlimit⟩
    obtain ⟨f, hf, hparse⟩ := hfaithful
    rw [if_pos hint] at hwrite
    refine ⟨_, hwrite, f, hf, fun later => ?_⟩
    rw [jsonReadCalls_completes
      ⟨hpos, hint, hlimit, h.allocated, h.length_ready, h.length_reads, h.text_ready,
        h.text_reads⟩, hparse]

theorem readFrames_complete
    {codec : Codec} {calls : List FrameReads} {frames : List SentFrame} (later : List UInt8)
    (hframes : ∀ frame ∈ frames, frame.Arrives codec)
    (hcalls : List.Forall₂
      (fun calls frame => calls.Completes (codec.print frame.message)) calls frames) :
    readFrames codec calls (frames.flatMap (SentFrame.bytes codec) ++ later) =
      some (frames.map (·.message), later) := by
  induction hcalls with
  | nil => rfl
  | @cons first frame calls frames hfirst _ ih =>
      have harrives := hframes frame List.mem_cons_self
      have hread : jsonReadCalls codec first
          (jsonFrame (codec.print frame.message) ++
            (frames.flatMap (SentFrame.bytes codec) ++ later)) =
          some (codec.parse (codec.print frame.message),
            frames.flatMap (SentFrame.bytes codec) ++ later) :=
        jsonReadCalls_completes hfirst _
      have hrest := ih fun frame hframe => hframes frame (List.mem_cons_of_mem _ hframe)
      rw [List.flatMap_cons, List.append_assoc, harrives.bytes_eq, readFrames, hread,
        harrives.parses]
      dsimp only
      rw [hrest]
      rfl

/-- A success of `JSON_write` means a whole frame exactly when a call of
`Nwrite` has failed or nothing was cut short; a tree of `JSON_read` is always
that of one whole frame; and whole frames in a row are read back one by one,
by any calls that return trees, and by calls that are not cut short. -/
theorem json_framing_iff (codec : Codec) :
    (∀ text writes r sent, jsonWriteCalls (some text) writes = some (r, sent) →
      ((r = 0 → sent = jsonFrame text) ↔
        Refused 4 writes.length ∨ Refused (uint32Length text) writes.text ∨
          WrittenWhole text writes)) ∧
    (∀ calls stream tree rest, jsonReadCalls codec calls stream = some (some tree, rest) →
      ReadsFrame codec stream tree rest) ∧
    (∀ frames : List SentFrame, (∀ frame ∈ frames, frame.Arrives codec) →
      (∀ calls later trees rest, calls.length = frames.length →
        readFrames codec calls (frames.flatMap (SentFrame.bytes codec) ++ later) =
          some (trees, rest) → trees = frames.map (·.message) ∧ rest = later) ∧
      (∀ calls later,
        List.Forall₂ (fun calls frame => calls.Completes (codec.print frame.message))
          calls frames →
        readFrames codec calls (frames.flatMap (SentFrame.bytes codec) ++ later) =
          some (frames.map (·.message), later))) :=
  ⟨fun _ _ _ _ => jsonWriteCalls_iff, fun _ _ _ _ => jsonReadCalls_readsFrame,
    fun _ hframes => ⟨fun _ _ _ _ => readFrames_sent hframes,
      fun _ later => readFrames_complete later hframes⟩⟩

/-! ## Two short frames -/

def emptyObject : List UInt8 × Json := (asciiBytes "\x7b\x7d", .object [])

def emptyArray : List UInt8 × Json := (asciiBytes "[]", .array [])

def isObject : Json → Bool
  | .object _ => true
  | _ => false

def bracketCodec : Codec := Codec.ofTexts isObject emptyObject emptyArray

theorem bracketCodec_object :
    bracketCodec.print (.object []) = emptyObject.1 ∧
      bracketCodec.parse emptyObject.1 = some (.object []) :=
  Codec.ofTexts_first rfl

theorem bracketCodec_array :
    bracketCodec.print (.array []) = emptyArray.1 ∧
      bracketCodec.parse emptyArray.1 = some (.array []) :=
  Codec.ofTexts_second rfl (by decide)

def objectWrites : FrameWrites := ⟨[.transferred 1, .transferred 3], [.transferred 2]⟩

def arrayWrites : FrameWrites := ⟨[.transferred 4], [.transferred 1, .transferred 1]⟩

def bracketReads : FrameReads where
  maxSize := maxParamsJsonString
  allocated := true
  length := ⟨.ready, [(.transferred 3, .ready), (.transferred 3, .timesOut)]⟩
  text := ⟨.ready, [(.transferred 1, .ready), (.transferred 1, .timesOut)]⟩

theorem bracketReads_completes {text : List UInt8} (h : text.length = 2) :
    bracketReads.Completes text := by
  refine ⟨by omega, by omega, Or.inr ?_, rfl, rfl, ?_, rfl, ?_⟩
  · rw [h]
    decide
  · simp [bracketReads, ReadsAll]
  · rw [h]
    simp [bracketReads, ReadsAll]

theorem json_framing_brackets :
    [0, 0, 0, 2, 123, 125] = jsonFrame emptyObject.1 ∧
      readFrames bracketCodec [bracketReads, bracketReads]
        (([⟨.object [], objectWrites⟩, ⟨.array [], arrayWrites⟩] : List SentFrame).flatMap
          (SentFrame.bytes bracketCodec) ++ [9]) = some ([.object [], .array []], [9]) := by
  obtain ⟨hprint, hparse⟩ := bracketCodec_object
  obtain ⟨hprint', hparse'⟩ := bracketCodec_array
  have hobject : SentFrame.Arrives bracketCodec ⟨.object [], objectWrites⟩ := by
    refine ⟨?_, ⟨[0, 0, 0, 2, 123, 125], ?_⟩, ?_⟩
    · rw [hprint, hparse]
    · rw [hprint]
      decide
    · rw [hprint]
      decide
  have harray : SentFrame.Arrives bracketCodec ⟨.array [], arrayWrites⟩ := by
    refine ⟨?_, ⟨[0, 0, 0, 2, 91, 93], ?_⟩, ?_⟩
    · rw [hprint', hparse']
    · rw [hprint']
      decide
    · rw [hprint']
      decide
  have hframes : ∀ frame ∈
      ([⟨.object [], objectWrites⟩, ⟨.array [], arrayWrites⟩] : List SentFrame),
      frame.Arrives bracketCodec := by
    intro frame hframe
    simp only [List.mem_cons, List.not_mem_nil, or_false] at hframe
    rcases hframe with rfl | rfl
    · exact hobject
    · exact harray
  obtain ⟨hwrites, -, hreads⟩ := json_framing_iff bracketCodec
  constructor
  · exact (hwrites emptyObject.1 objectWrites 0 _ (by decide)).mpr (Or.inr (Or.inr (by decide))) rfl
  · refine (hreads _ hframes).2 _ _ (.cons ?_ (.cons ?_ .nil))
    · exact bracketReads_completes (by rw [hprint]; rfl)
    · exact bracketReads_completes (by rw [hprint']; rfl)

/-- The writing of a text that is interrupted after one of its bytes. -/
theorem json_write_short_frame :
    jsonWriteCalls (some emptyObject.1)
      ⟨[.transferred 4], [.transferred 1, .failed (.code .intr)]⟩ =
        some (0, [0, 0, 0, 2, 123]) ∧
      [0, 0, 0, 2, 123] ≠ jsonFrame emptyObject.1 := by
  decide

end Iperf3
