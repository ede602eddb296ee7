import Iperf3.TestModel
import Mathlib.Data.Fintype.Pi
import Mathlib.Data.List.OfFn
import Mathlib.Tactic

/-!
# Waiting for the reply of a UDP server

The loop of `iperf_udp_connect` on the datagrams that arrive.  The word that
is compared is kept as its four bytes in memory.  The header has words for
either byte order and thereby the same bytes; but the compiler of the Windows
build knows neither `BYTE_ORDER` nor `BIG_ENDIAN`, finds them equal, and takes
the words of a big-endian machine for one that is not.
-/

namespace Iperf3

namespace UdpConnect

abbrev Datagram : Type :=
  List UInt8

abbrev Word : Type :=
  Fin 4 → UInt8

/-- An `unsigned int` in the memory of a little-endian machine. -/
def littleEndian (n : ℕ) : Word :=
  fun j => UInt8.ofNat (n / 256 ^ j.val)

def connectMsg (b : Build) : Word :=
  littleEndian (if b.windows then 0x39383736 else 0x36373839)

def connectReply (b : Build) : Word :=
  littleEndian (if b.windows then 0x36373839 else 0x39383736)

def legacyConnectReply (b : Build) : Word :=
  littleEndian (if b.windows then 0xb168de3a else 987654321)

def maxReverseOutOfOrderPackets : ℕ := 2

def IsReply (b : Build) (buf : Word) : Prop :=
  buf = connectReply b ∨ buf = legacyConnectReply b

instance (b : Build) (buf : Word) : Decidable (IsReply b buf) :=
  inferInstanceAs (Decidable (_ ∨ _))

/-- What the build for Windows takes for the message is the reply of the
others. -/
example : connectMsg .msvc = connectReply .linux ∧ connectReply .msvc = connectMsg .linux := by
  decide

/-- `recv` overwrites the front of the word. -/
def overlay (d : Datagram) (buf : Word) : Word :=
  fun j => d[j.val]?.getD (buf j)

/-- Winsock fails on a datagram that does not fit; otherwise the rest of it is
dropped. -/
def refused (b : Build) (d : Datagram) : Bool :=
  b.windows && 4 < d.length

inductive Outcome where
  -- Every datagram has been read, and there is no reply.
  | waiting
  | failed
  | connected
  deriving DecidableEq, Repr

structure Run where
  consumed : List Datagram
  outcome : Outcome
  deriving DecidableEq, Repr

def maxLenWaitForReply (reverse : Bool) (blksize : ℤ) : ℤ :=
  if reverse then 4 + maxReverseOutOfOrderPackets * blksize else 4

/-- The loop from a word and a count on; `none` is a `recv` that fails. -/
def replyLoop (b : Build) (maxLen : ℤ) : Word → ℤ → List (Option Datagram) → Run
  | _, _, [] => ⟨[], .waiting⟩
  | _, _, none :: _ => ⟨[], .failed⟩
  | buf, i, some d :: rest =>
      if refused b d then ⟨[d], .failed⟩
      else
        let buf := overlay d buf
        let i := i + min 4 d.length
        if IsReply b buf then ⟨[d], .connected⟩
        else if i < maxLen then
          let run := replyLoop b maxLen buf i rest
          ⟨d :: run.consumed, run.outcome⟩
        else ⟨[d], .failed⟩

def waitForReply (b : Build) (reverse : Bool) (blksize : ℤ) (arriving : List (Option Datagram)) :
    Run :=
  replyLoop b (maxLenWaitForReply reverse blksize) (connectMsg b) 0 arriving

/-! ## What is expected -/

/-- The first four bytes of the datagram are a reply. -/
def Carries (b : Build) (d : Datagram) : Prop :=
  ∃ reply : Word, IsReply b reply ∧ ∀ j : Fin 4, d[j.val]? = some (reply j)

def allowed (reverse : Bool) : ℕ :=
  if reverse then 1 + maxReverseOutOfOrderPackets else 1

/-- No more datagrams than allowed are consumed, and the loop succeeds exactly
if one of them carries a reply. -/
structure Bounded (b : Build) (reverse : Bool) (run : Run) : Prop where
  consumed : run.consumed.length ≤ allowed reverse
  connected : run.outcome = .connected ↔ ∃ d ∈ run.consumed, Carries b d

/-- Byte `j` of the last of these datagrams that has one. -/
def latestByte (b : Build) (j : Fin 4) (ds : List Datagram) : UInt8 :=
  ((ds.filterMap fun d => d[j.val]?).getLast?).getD (connectMsg b j)

/-- The latest bytes together are a reply. -/
def Completes (b : Build) (ds : List Datagram) : Prop :=
  IsReply b fun j => latestByte b j ds

/-- A datagram behind which the loop does not wait: one that carries a reply,
one that `recv` refuses, and outside of reverse mode any of four bytes. -/
def Ends (b : Build) (reverse : Bool) (d : Datagram) : Prop :=
  Carries b d ∨ refused b d = true ∨ reverse = false ∧ 4 ≤ d.length

/-- A datagram that is not one too many behind those before it, does not
complete a reply that it does not carry, and is taken if it carries one. -/
structure Sound (b : Build) (reverse : Bool) (before : List Datagram) (d : Datagram) : Prop where
  inTime : before.length < allowed reverse
  genuine : Completes b (before ++ [d]) → Carries b d
  taken : refused b d = true → ¬ Carries b d

/-- Every datagram that arrives before the first failure of `recv` is sound,
or stands behind one that ends the loop. -/
def Answered (b : Build) (reverse : Bool) (earlier : List Datagram)
    (arriving : List (Option Datagram)) : Prop :=
  ∀ more d later, arriving = more.map some ++ some d :: later →
    (∃ e ∈ more, Ends b reverse e) ∨ Sound b reverse (earlier ++ more) d

/-! ## The word -/

variable {b : Build} {reverse : Bool} {earlier : List Datagram}

theorem latestByte_append (j : Fin 4) (ds : List Datagram) (d : Datagram) :
    latestByte b j (ds ++ [d]) = d[j.val]?.getD (latestByte b j ds) := by
  unfold latestByte
  rw [List.filterMap_append]
  cases hbyte : d[j.val]? with
  | none => simp [hbyte]
  | some byte => simp [hbyte]

theorem overlay_latestByte (ds : List Datagram) (d : Datagram) :
    overlay d (fun j => latestByte b j ds) = fun j => latestByte b j (ds ++ [d]) := by
  funext j
  exact (latestByte_append j ds d).symm

/-- Of a datagram of four bytes nothing older is left. -/
theorem completes_append_iff (ds : List Datagram) {d : Datagram} (hd : 4 ≤ d.length) :
    Completes b (ds ++ [d]) ↔ Carries b d := by
  have hbyte : ∀ j : Fin 4, d[j.val]? = some (latestByte b j (ds ++ [d])) := by
    intro j
    rw [latestByte_append, List.getElem?_eq_getElem (by omega)]
    rfl
  constructor
  · exact fun h => ⟨_, h, hbyte⟩
  · rintro ⟨reply, hreply, hcarried⟩
    have hsame : (fun j => latestByte b j (ds ++ [d])) = reply := by
      funext j
      exact Option.some.inj ((hbyte j).symm.trans (hcarried j))
    unfold Completes
    rwa [hsame]

theorem length_of_carries {d : Datagram} (h : Carries b d) : 4 ≤ d.length := by
  obtain ⟨reply, -, hcarried⟩ := h
  have hlast := hcarried 3
  by_contra hshort
  rw [List.getElem?_eq_none (by simp; omega)] at hlast
  cases hlast

/-! ## One datagram -/

theorem answered_nil : Answered b reverse earlier [] := by
  intro more d later hsplit
  simp at hsplit

theorem answered_failure (rest : List (Option Datagram)) :
    Answered b reverse earlier (none :: rest) := by
  intro more d later hsplit
  cases more <;> simp at hsplit

theorem answered_cons {d : Datagram} {rest : List (Option Datagram)} :
    Answered b reverse earlier (some d :: rest) ↔
      Sound b reverse earlier d ∧
        (Ends b reverse d ∨ Answered b reverse (earlier ++ [d]) rest) := by
  constructor
  · intro h
    have hfirst := h [] d rest rfl
    rw [List.append_nil] at hfirst
    refine ⟨hfirst.resolve_left (by simp), ?_⟩
    by_cases hends : Ends b reverse d
    · exact Or.inl hends
    · refine Or.inr fun more d' later hsplit => ?_
      rw [← List.append_cons]
      refine (h (d :: more) d' later (by rw [hsplit]; rfl)).imp_left ?_
      rintro ⟨e, he, hend⟩
      rcases List.mem_cons.mp he with rfl | he
      · exact absurd hend hends
      · exact ⟨e, he, hend⟩
  · rintro ⟨hsound, hlater⟩ more d' later hsplit
    cases more with
    | nil =>
        obtain ⟨hfirst, -⟩ := List.cons.inj hsplit
        obtain rfl := Option.some.inj hfirst
        rw [List.append_nil]
        exact Or.inr hsound
    | cons first more =>
        obtain ⟨hfirst, htail⟩ := List.cons.inj hsplit
        obtain rfl := Option.some.inj hfirst
        rcases hlater with hends | hrest
        · exact Or.inl ⟨d, List.mem_cons_self, hends⟩
        · rw [List.append_cons]
          refine (hrest more d' later htail).imp_left ?_
          rintro ⟨e, he, hend⟩
          exact ⟨e, List.mem_cons_of_mem d he, hend⟩

/-! ## The loop -/

theorem length_of_refused {d : Datagram} (h : refused b d = true) : 4 ≤ d.length := by
  unfold refused at h
  simp only [Bool.and_eq_true, decide_eq_true_eq] at h
  omega

/-- The run of the loop from here on is within the bound that is left, and
succeeds exactly if it consumes a datagram that carries a reply. -/
def BoundedFrom (b : Build) (reverse : Bool) (earlier : List Datagram) (run : Run) : Prop :=
  (run.consumed = [] ∨ earlier.length + run.consumed.length ≤ allowed reverse) ∧
    (run.outcome = .connected ↔ ∃ d ∈ run.consumed, Carries b d)

theorem boundedFrom_single {d : Datagram} (outcome : Outcome) :
    BoundedFrom b reverse earlier ⟨[d], outcome⟩ ↔
      earlier.length < allowed reverse ∧ (outcome = .connected ↔ Carries b d) := by
  simp [BoundedFrom]

theorem boundedFrom_cons {d : Datagram} (hd : ¬ Carries b d) (run : Run) :
    BoundedFrom b reverse earlier ⟨d :: run.consumed, run.outcome⟩ ↔
      earlier.length < allowed reverse ∧ BoundedFrom b reverse (earlier ++ [d]) run := by
  unfold BoundedFrom
  simp only [List.mem_cons, exists_eq_or_imp, hd, false_or, List.length_cons, List.length_append,
    List.length_nil, reduceCtorEq]
  constructor
  · rintro ⟨hlength, hconnected⟩
    exact ⟨by omega, Or.inr (by omega), hconnected⟩
  · rintro ⟨hlength, hempty | hmore, hconnected⟩
    · refine ⟨?_, hconnected⟩
      rw [hempty, List.length_nil]
      omega
    · exact ⟨by omega, hconnected⟩

/-- Where the count of bytes ends the loop, the datagram was one to end it. -/
theorem ends_of_count
    {blksize : ℤ} (hblksize : 16 ≤ blksize) {i : ℤ} (hcount : 0 ≤ i ∧ i ≤ 4 * earlier.length)
    {d : Datagram} (hroom : earlier.length < allowed reverse)
    (hend : maxLenWaitForReply reverse blksize ≤ i + min 4 d.length) : Ends b reverse d := by
  cases reverse with
  | true =>
      have hsize : maxLenWaitForReply true blksize = 4 + 2 * blksize := rfl
      have hthree : allowed true = 3 := rfl
      omega
  | false =>
      have hsize : maxLenWaitForReply false blksize = 4 := rfl
      have hone : allowed false = 1 := rfl
      exact Or.inr (Or.inr ⟨rfl, by omega⟩)

/-- A datagram that `recv` refuses has four bytes, so it completes only what it
carries. -/
theorem boundedFrom_refused
    {d : Datagram} (hrefused : refused b d = true) (rest : List (Option Datagram)) :
    BoundedFrom b reverse earlier ⟨[d], .failed⟩ ↔ Answered b reverse earlier (some d :: rest) := by
  have hcompletes := completes_append_iff (b := b) earlier (length_of_refused hrefused)
  rw [boundedFrom_single, answered_cons]
  constructor
  · rintro ⟨hroom, hcarries⟩
    have hnone : ¬ Carries b d := fun h => by simpa using hcarries.mpr h
    exact ⟨⟨hroom, hcompletes.mp, fun _ => hnone⟩, Or.inl (Or.inr (Or.inl hrefused))⟩
  · rintro ⟨hsound, -⟩
    exact ⟨hsound.inTime, by simp [hsound.taken hrefused]⟩

theorem boundedFrom_reply
    {d : Datagram} (hrefused : refused b d = false) (hreply : Completes b (earlier ++ [d]))
    (rest : List (Option Datagram)) :
    BoundedFrom b reverse earlier ⟨[d], .connected⟩ ↔
      Answered b reverse earlier (some d :: rest) := by
  rw [boundedFrom_single, answered_cons]
  constructor
  · rintro ⟨hroom, hcarries⟩
    have hcarried : Carries b d := hcarries.mp rfl
    exact ⟨⟨hroom, fun _ => hcarried, by simp [hrefused]⟩, Or.inl (Or.inl hcarried)⟩
  · rintro ⟨hsound, -⟩
    exact ⟨hsound.inTime, by simp [hsound.genuine hreply]⟩

theorem replyLoop_iff
    {blksize : ℤ} (hblksize : 16 ≤ blksize) {i : ℤ} {arriving : List (Option Datagram)}
    (hcount : 0 ≤ i ∧ i ≤ 4 * earlier.length) :
    BoundedFrom b reverse earlier (replyLoop b (maxLenWaitForReply reverse blksize)
        (fun j => latestByte b j earlier) i arriving) ↔
      Answered b reverse earlier arriving := by
  induction arriving generalizing earlier i with
  | nil => exact iff_of_true (by simp [BoundedFrom, replyLoop]) answered_nil
  | cons event rest ih =>
      cases event with
      | none => exact iff_of_true (by simp [BoundedFrom, replyLoop]) (answered_failure rest)
      | some d =>
          unfold replyLoop
          dsimp only
          rw [overlay_latestByte]
          cases hrefused : refused b d with
          | true =>
              rw [if_pos rfl]
              exact boundedFrom_refused hrefused rest
          | false =>
              rw [if_neg Bool.false_ne_true]
              by_cases hreply : IsReply b fun j => latestByte b j (earlier ++ [d])
              · rw [if_pos hreply]
                exact boundedFrom_reply hrefused hreply rest
              · have htaken : refused b d = true → ¬ Carries b d := by simp [hrefused]
                have hnone : ¬ Carries b d := by
                  intro hcarries
                  have hlength := length_of_carries hcarries
                  exact hreply ((completes_append_iff earlier hlength).mpr hcarries)
                have hsound : Sound b reverse earlier d ↔ earlier.length < allowed reverse :=
                  ⟨Sound.inTime, fun hroom => ⟨hroom, fun h => absurd h hreply, htaken⟩⟩
                rw [if_neg hreply, answered_cons, hsound]
                by_cases hwaits : i + min 4 d.length < maxLenWaitForReply reverse blksize
                · have hopen : ¬ Ends b reverse d := by
                    rintro (hcarries | hrefuses | ⟨rfl, hlength⟩)
                    · exact hnone hcarries
                    · rw [hrefused] at hrefuses
                      cases hrefuses
                    · have hsize : maxLenWaitForReply false blksize = 4 := rfl
                      omega
                  have hnext := @ih (earlier ++ [d]) (i + min 4 d.length) (by
                    rw [List.length_append, List.length_singleton]
                    omega)
                  rw [if_pos hwaits, boundedFrom_cons hnone, hnext, or_iff_right hopen]
                · rw [if_neg hwaits, boundedFrom_single]
                  constructor
                  · rintro ⟨hroom, -⟩
                    exact ⟨hroom, Or.inl (ends_of_count hblksize hcount hroom (by omega))⟩
                  · rintro ⟨hroom, -⟩
                    exact ⟨hroom, by simp [hnone]⟩

/-- The loop keeps its bound in datagrams, and succeeds exactly on a reply
that a datagram carries, exactly when what arrives is answered. -/
theorem wait_for_reply_bounded_iff
    (b : Build) (reverse : Bool) {blksize : ℤ} (hblksize : 16 ≤ blksize)
    (arriving : List (Option Datagram)) :
    Bounded b reverse (waitForReply b reverse blksize arriving) ↔
      Answered b reverse [] arriving := by
  have hstart : (fun j => latestByte b j []) = connectMsg b := rfl
  rw [← replyLoop_iff (b := b) (i := 0) hblksize (by simp), hstart]
  unfold BoundedFrom
  change Bounded b reverse (replyLoop b _ (connectMsg b) 0 arriving) ↔ _
  constructor
  · exact fun h => ⟨Or.inr (by simpa using h.consumed), h.connected⟩
  · rintro ⟨hempty | hlength, hconnected⟩
    · exact ⟨by rw [hempty]; exact Nat.zero_le _, hconnected⟩
    · exact ⟨by simpa using hlength, hconnected⟩

/-- A data packet that comes before the reply. -/
theorem wait_for_reply_out_of_order :
    Bounded .linux true (waitForReply .linux true 16
      [some (List.replicate 16 0), some [0x36, 0x37, 0x38, 0x39]]) := by
  refine (wait_for_reply_bounded_iff .linux true (by decide) _).mpr ?_
  have hcarries : Carries .linux [0x36, 0x37, 0x38, 0x39] :=
    ⟨connectReply .linux, Or.inl rfl, by decide⟩
  have hrefused : ∀ d, refused .linux d ≠ true := fun d => Bool.false_ne_true
  rw [answered_cons, answered_cons]
  refine ⟨⟨by decide, fun hcompletes => ?_, fun h => absurd h (hrefused _)⟩, Or.inr
    ⟨⟨by decide, fun _ => hcarries, fun h => absurd h (hrefused _)⟩, Or.inl (Or.inl hcarries)⟩⟩
  exact absurd hcompletes (by unfold Completes; decide)

/-- Four data packets in reverse mode, two empty datagrams outside of it, a
short datagram behind a data packet that ends in the last byte of a reply, and
on Windows a reply with one byte too many. -/
theorem wait_for_reply_overruns :
    waitForReply .linux true 1460 (List.replicate 4 (some [0, 0, 0, 0]) ++
        [some [0x36, 0x37, 0x38, 0x39]]) =
      ⟨List.replicate 4 [0, 0, 0, 0] ++ [[0x36, 0x37, 0x38, 0x39]], .connected⟩ ∧
    ¬ Bounded .linux true (waitForReply .linux true 1460 (List.replicate 4 (some [0, 0, 0, 0]) ++
        [some [0x36, 0x37, 0x38, 0x39]])) ∧
    ¬ Bounded .linux false (waitForReply .linux false 1460
        [some [], some [], some [0x36, 0x37, 0x38, 0x39]]) ∧
    waitForReply .linux true 1460 [some [0, 0, 0, 0x39], some [0x36, 0x37, 0x38]] =
      ⟨[[0, 0, 0, 0x39], [0x36, 0x37, 0x38]], .connected⟩ ∧
    waitForReply .msvc false 1460 [some [0x39, 0x38, 0x37, 0x36, 0]] =
      ⟨[[0x39, 0x38, 0x37, 0x36, 0]], .failed⟩ := by
  have hrun : waitForReply .linux true 1460 (List.replicate 4 (some [0, 0, 0, 0]) ++
      [some [0x36, 0x37, 0x38, 0x39]]) =
      ⟨List.replicate 4 [0, 0, 0, 0] ++ [[0x36, 0x37, 0x38, 0x39]], .connected⟩ := by
    decide
  refine ⟨hrun, fun h => ?_, fun h => ?_, by decide, by decide⟩
  · rw [hrun] at h
    exact absurd h.consumed (by decide)
  · exact absurd h.consumed (by decide)

end UdpConnect

end Iperf3
