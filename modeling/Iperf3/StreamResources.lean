import Iperf3.UdpBuffers
import Iperf3.Win32Dispatch

/-!
# What a stream holds

`newStream` follows `iperf_new_stream` on the descriptors and on the mapped
memory, and `freeStream` follows `iperf_free_stream`.  A mapping is a run of
pages, on Windows one block of the heap.  What each step of the system gives
is an input.  The file of random bytes that `readentropy` opens at its first
call is the process's and stays open; it is in none of the tables.
-/

namespace Iperf3

structure BufferedStream where
  bufferFd : ℕ
  -- The first page.
  buffer : ℕ
  diskfileFd : Option ℕ
  deriving DecidableEq, Repr

def BufferedStream.fds (sp : BufferedStream) : List ℕ :=
  sp.bufferFd :: sp.diskfileFd.toList

structure Resources extends Win32 where
  mapped : Finset ℕ
  streams : List BufferedStream

/-- What `iperf_new_stream` is given by the system, step by step. -/
structure StreamSteps where
  -- Both calls of `malloc`.
  allocated : Bool
  mkstemp : Option ℕ
  unlinked : Bool
  truncated : Bool
  mapped : Option ℕ
  diskfile : Option ℕ
  entropy : Bool
  initialized : Bool
  closesocket : Bool

/-- The pages of a mapping of this length.  A length that is not positive is
refused, and on Windows the length is not looked at. -/
def pageCount (b : Build) (page : ℕ) (length : ℤ) : ℕ :=
  if b.windows then 1 else (length.toNat + page - 1) / page

def pageRange (first count : ℕ) : Finset ℕ := Finset.Ico first (first + count)

namespace Resources

/-- Only on Windows are files numbered apart from sockets. -/
def granted (b : Build) (number : Option ℕ) (p : Resources) : Option ℕ :=
  number.filter fun n => p.files n = none ∧ (b.windows = true ∨ p.sockets n = none)

def openFile (n : ℕ) (p : Resources) : Resources :=
  { p with files := p.files.opens n p.next, next := p.next + 1 }

def close (b : Build) (closesocket : Bool) (fd : ℕ) (p : Resources) : Resources :=
  if b.windows then { p with toWin32 := (p.iperfWin32Close closesocket fd).1 }
  else { p with sockets := p.sockets.closes fd, files := p.files.closes fd }

/-- A mapping does not take pages that are in use. -/
def grantedPages (count : ℕ) (first : Option ℕ) (p : Resources) : Option ℕ :=
  first.filter fun n => count ≠ 0 ∧ Disjoint p.mapped (pageRange n count)

def mmap (first count : ℕ) (p : Resources) : Resources :=
  { p with mapped := p.mapped ∪ pageRange first count }

def munmap (first count : ℕ) (p : Resources) : Resources :=
  { p with mapped := p.mapped \ pageRange first count }

variable (b : Build) (page : ℕ) (t : Test) (steps : StreamSteps)

/-- From the filling of the buffer on. -/
def initStream (sp : BufferedStream) (p : Resources) : Resources × Option BufferedStream :=
  if (t.repeatingPayload ≠ 0 || steps.entropy) && steps.initialized then
    ({ p with streams := p.streams ++ [sp] }, some sp)
  else
    ((p.close b steps.closesocket sp.bufferFd).munmap sp.buffer
      (pageCount b page t.settings.blksize), none)

/-- From the `-F` file on. -/
def openDiskfile (bufferFd buffer : ℕ) (p : Resources) : Resources × Option BufferedStream :=
  if t.diskfileName.isSome then
    match p.granted b steps.diskfile with
    | none => (p.munmap buffer (pageCount b page t.settings.blksize), none)
    | some fd => (p.openFile fd).initStream b page t steps ⟨bufferFd, buffer, some fd⟩
  else p.initStream b page t steps ⟨bufferFd, buffer, none⟩

/-- From `unlink` on; on Windows its result is dropped. -/
def mapBuffer (bufferFd : ℕ) (p : Resources) : Resources × Option BufferedStream :=
  let size := t.bufferSize
  if (b.windows || steps.unlinked) && (steps.truncated && 0 ≤ size) then
    match p.grantedPages (pageCount b page size) steps.mapped with
    | none => (p, none)
    | some buffer =>
        (p.mmap buffer (pageCount b page size)).openDiskfile b page t steps bufferFd buffer
  else (p, none)

def newStream (p : Resources) : Resources × Option BufferedStream :=
  if steps.allocated then
    match p.granted b steps.mkstemp with
    | none => (p, none)
    | some bufferFd => (p.openFile bufferFd).mapBuffer b page t steps bufferFd
  else (p, none)

def freeStream (closesocket : Bool) (sp : BufferedStream) (p : Resources) : Resources :=
  let p := (p.munmap sp.buffer (pageCount b page t.settings.blksize)).close b closesocket
    sp.bufferFd
  match sp.diskfileFd with
  | some fd => p.close b closesocket fd
  | none => p

/-! ## All or nothing -/

/-- Nothing is open, mapped or listed that was not before. -/
structure Same (p q : Resources) : Prop where
  files : q.files = p.files
  sockets : q.sockets = p.sockets
  mapped : q.mapped = p.mapped
  streams : q.streams = p.streams

/-- What the stream was given is still there and still its own. -/
structure Keeps (sp : BufferedStream) (count : ℕ) (p q : Resources) : Prop where
  files : ∀ fd ∈ sp.fds, q.files fd = p.files fd
  sockets : ∀ fd ∈ sp.fds, q.sockets fd = p.sockets fd
  mapped : pageRange sp.buffer count ⊆ q.mapped

/-- Freeing closes the descriptors of the stream and unmaps its pages, and
does nothing else. -/
structure Frees (closesocket : Bool) (sp : BufferedStream) (q : Resources) : Prop where
  files : (q.freeStream b page t closesocket sp).files =
    sp.fds.foldl (fun files fd => files.closes fd) q.files
  sockets : (q.freeStream b page t closesocket sp).sockets = q.sockets
  mapped : (q.freeStream b page t closesocket sp).mapped =
    q.mapped \ pageRange sp.buffer (pageCount b page t.bufferSize)

/-- A call that gives no stream leaves nothing behind, and a stream that it
gives is freed exactly, now or later. -/
def AllOrNothing (p : Resources) (r : Resources × Option BufferedStream) : Prop :=
  match r.2 with
  | none => p.Same r.1
  | some sp =>
      ∀ (closesocket : Bool) (q : Resources), Keeps sp (pageCount b page t.bufferSize) r.1 q →
        Frees b page t closesocket sp q

def Closable (fd : ℕ) (p : Resources) : Prop :=
  b.windows = true → p.sockets fd = none ∧ fd < 64

instance (fd : ℕ) (p : Resources) : Decidable (p.Closable b fd) :=
  inferInstanceAs (Decidable (_ → _))

/-- Behind `mkstemp` every step succeeds up to the initialization, and that
does too where there is an `-F` file; the buffer takes no more pages than the
block size; and `close` reaches both files. -/
structure Smooth (n : ℕ) (p : Resources) : Prop where
  unlinked : b.windows = false → steps.unlinked = true
  truncated : steps.truncated = true ∧ 0 ≤ t.bufferSize
  mapped : p.grantedPages (pageCount b page t.bufferSize) steps.mapped ≠ none
  pages : pageCount b page t.settings.blksize = pageCount b page t.bufferSize
  buffer : p.Closable b n
  diskfile : t.diskfileName.isSome = true →
    ((t.repeatingPayload ≠ 0 || steps.entropy) && steps.initialized) = true ∧
      ∃ m, (p.openFile n).granted b steps.diskfile = some m ∧ p.Closable b m

/-! ## Single calls -/

variable {b page t steps}

theorem closes_opens {files : ObjectTable ℕ} {n : ℕ} (hn : files n = none) (o : ℕ) :
    (files.opens n o).closes n = files := by
  unfold ObjectTable.closes ObjectTable.opens
  rw [Function.update_idem, ← hn, Function.update_eq_self]

theorem closes_of_none {files : ObjectTable ℕ} {n : ℕ} (hn : files n = none) :
    files.closes n = files := by
  unfold ObjectTable.closes
  rw [← hn, Function.update_eq_self]

theorem win32Close_files (closesocket : Bool) (fd : ℕ) (w : Win32) :
    (w.iperfWin32Close closesocket fd).1.files =
      if w.sockets fd = none ∧ fd < 64 then w.files.closes fd else w.files := by
  cases hsocket : w.sockets fd with
  | some o =>
      rw [Win32.close_socket hsocket]
      cases closesocket <;> simp
  | none =>
      by_cases hsmall : fd < 64
      · cases hfile : w.files fd with
        | some o =>
            rw [Win32.close_file hsocket hfile hsmall]
            simp [hsmall]
        | none =>
            simp [Win32.iperfWin32Close, hsocket, hfile, hsmall, closes_of_none hfile]
      · simp [Win32.iperfWin32Close, hsocket, hsmall]

theorem win32Close_sockets
    (closesocket : Bool) {fd : ℕ} {w : Win32} (hsocket : w.sockets fd = none) :
    (w.iperfWin32Close closesocket fd).1.sockets = w.sockets := by
  by_cases hsmall : fd < 64
  · cases hfile : w.files fd with
    | some o => rw [Win32.close_file hsocket hfile hsmall]
    | none => simp [Win32.iperfWin32Close, hsocket, hfile, hsmall]
  · simp [Win32.iperfWin32Close, hsocket, hsmall]

theorem close_files (closesocket : Bool) (fd : ℕ) (p : Resources) :
    (p.close b closesocket fd).files =
      if p.Closable b fd then p.files.closes fd else p.files := by
  unfold close
  by_cases hwindows : b.windows = true
  · have hclosable : p.Closable b fd ↔ p.sockets fd = none ∧ fd < 64 := by
      simp [Closable, hwindows]
    rw [if_pos hwindows, win32Close_files]
    simp only [hclosable]
  · have hclosable : p.Closable b fd := fun h => absurd h hwindows
    rw [if_neg hwindows, if_pos hclosable]

theorem close_sockets
    {closesocket : Bool} {fd : ℕ} {p : Resources} (hsocket : p.sockets fd = none) :
    (p.close b closesocket fd).sockets = p.sockets := by
  unfold close
  by_cases hwindows : b.windows = true
  · rw [if_pos hwindows]
    exact win32Close_sockets closesocket hsocket
  · rw [if_neg hwindows]
    exact closes_of_none hsocket

theorem close_files_ne_none
    {closesocket : Bool} {fd n : ℕ} {p : Resources} (hopen : p.files n ≠ none)
    (hreach : n = fd → ¬ p.Closable b fd) : (p.close b closesocket fd).files n ≠ none := by
  rw [close_files]
  split_ifs with hclosable
  · have hne : n ≠ fd := fun heq => hreach heq hclosable
    unfold ObjectTable.closes
    rwa [Function.update_of_ne hne]
  · exact hopen

@[simp]
theorem close_mapped (closesocket : Bool) (fd : ℕ) (p : Resources) :
    (p.close b closesocket fd).mapped = p.mapped := by
  unfold close
  split_ifs <;> rfl

@[simp]
theorem close_streams (closesocket : Bool) (fd : ℕ) (p : Resources) :
    (p.close b closesocket fd).streams = p.streams := by
  unfold close
  split_ifs <;> rfl

theorem granted_spec {number : Option ℕ} {p : Resources} {n : ℕ}
    (h : p.granted b number = some n) :
    p.files n = none ∧ (b.windows = false → p.sockets n = none) := by
  have hfree := (Option.filter_eq_some_iff.mp h).2
  simp only [decide_eq_true_eq] at hfree
  refine ⟨hfree.1, fun hwindows => ?_⟩
  simpa [hwindows] using hfree.2

theorem grantedPages_spec {count n : ℕ} {first : Option ℕ} {p : Resources}
    (h : p.grantedPages count first = some n) :
    count ≠ 0 ∧ Disjoint p.mapped (pageRange n count) := by
  simpa using (Option.filter_eq_some_iff.mp h).2

theorem blksize_le_bufferSize (t : Test) : t.settings.blksize ≤ t.bufferSize := by
  simp only [Test.bufferSize]
  split_ifs <;> omega

theorem pageCount_mono (b : Build) (page : ℕ) {length length' : ℤ} (h : length ≤ length') :
    pageCount b page length ≤ pageCount b page length' := by
  unfold pageCount
  split_ifs
  · exact le_refl 1
  · exact Nat.div_le_div_right (by omega)

theorem sdiff_pageRange_eq_iff
    {pages : Finset ℕ} {first count less : ℕ} (hpages : pageRange first count ⊆ pages)
    (hless : less ≤ count) :
    pages \ pageRange first less = pages \ pageRange first count ↔ less = count := by
  refine ⟨fun h => ?_, fun h => by rw [h]⟩
  by_contra hne
  have hmem : first + less ∈ pageRange first count :=
    Finset.mem_Ico.mpr ⟨by omega, by omega⟩
  have hkept : first + less ∈ pages \ pageRange first less := by
    refine Finset.mem_sdiff.mpr ⟨hpages hmem, fun hin => ?_⟩
    have hlast := (Finset.mem_Ico.mp hin).2
    omega
  rw [h] at hkept
  exact (Finset.mem_sdiff.mp hkept).2 hmem

/-! ## Closing what has been opened -/

def closeAll (b : Build) (closesocket : Bool) (fds : List ℕ) (p : Resources) : Resources :=
  fds.foldl (fun p fd => p.close b closesocket fd) p

theorem closeAll_mapped (closesocket : Bool) (fds : List ℕ) (p : Resources) :
    (p.closeAll b closesocket fds).mapped = p.mapped := by
  induction fds generalizing p with
  | nil => rfl
  | cons fd fds ih => exact (ih _).trans (close_mapped closesocket fd p)

theorem closeAll_files_ne_none
    {closesocket : Bool} {fds : List ℕ} {n : ℕ} {p : Resources} (hopen : p.files n ≠ none)
    (hn : n ∉ fds) : (p.closeAll b closesocket fds).files n ≠ none := by
  induction fds generalizing p with
  | nil => exact hopen
  | cons fd fds ih =>
      have hne : n ≠ fd := List.ne_of_not_mem_cons hn
      exact ih (close_files_ne_none hopen fun h => absurd h hne) (List.not_mem_of_not_mem_cons hn)

theorem foldl_closes_eq_none
    {fds : List ℕ} {n : ℕ} {files : ObjectTable ℕ} (h : n ∈ fds ∨ files n = none) :
    fds.foldl (fun files fd => files.closes fd) files n = none := by
  induction fds generalizing files with
  | nil => exact h.resolve_left List.not_mem_nil
  | cons fd fds ih =>
      refine ih ?_
      by_cases hfd : n = fd
      · subst hfd
        exact Or.inr (Function.update_self ..)
      · refine (h.imp_left fun hmem => ?_).imp_right fun hnone => ?_
        · exact (List.mem_cons.mp hmem).resolve_left hfd
        · exact (Function.update_of_ne hfd none files).trans hnone

/-- Open files are closed, and nothing but them, exactly when `close` reaches
each of them. -/
theorem closeAll_exact_iff
    (closesocket : Bool) {fds : List ℕ} {p : Resources} (hnodup : fds.Nodup)
    (hopen : ∀ fd ∈ fds, p.files fd ≠ none)
    (hsockets : b.windows = false → ∀ fd ∈ fds, p.sockets fd = none) :
    (p.closeAll b closesocket fds).files =
        fds.foldl (fun files fd => files.closes fd) p.files ∧
        (p.closeAll b closesocket fds).sockets = p.sockets ↔
      ∀ fd ∈ fds, p.Closable b fd := by
  induction fds generalizing p with
  | nil => exact ⟨fun _ _ h => absurd h List.not_mem_nil, fun _ => ⟨rfl, rfl⟩⟩
  | cons fd fds ih =>
      obtain ⟨hfd, hrest⟩ := List.nodup_cons.mp hnodup
      rw [List.forall_mem_cons]
      by_cases hclosable : p.Closable b fd
      · have hsocket : p.sockets fd = none := by
          cases hwindows : b.windows with
          | true => exact (hclosable hwindows).1
          | false => exact hsockets hwindows fd List.mem_cons_self
        have hfiles : (p.close b closesocket fd).files = p.files.closes fd := by
          rw [close_files, if_pos hclosable]
        have hsame : (p.close b closesocket fd).sockets = p.sockets := close_sockets hsocket
        have hnext : ∀ n ∈ fds, (p.close b closesocket fd).files n ≠ none := by
          intro n hn
          have hne : n ≠ fd := fun heq => hfd (heq ▸ hn)
          exact close_files_ne_none (hopen n (List.mem_cons_of_mem _ hn))
            fun h => absurd h hne
        have hrun := ih hrest hnext (by
          intro hwindows n hn
          rw [hsame]
          exact hsockets hwindows n (List.mem_cons_of_mem _ hn))
        rw [hfiles, hsame] at hrun
        have hsame' : ∀ n, (p.close b closesocket fd).Closable b n ↔ p.Closable b n := by
          intro n
          unfold Closable
          rw [hsame]
        simp only [hsame'] at hrun
        exact hrun.trans (and_iff_right hclosable).symm
      · refine iff_of_false (fun h => ?_) fun h => hclosable h.1
        -- The file stays open, while the table that is meant has nothing there.
        have hkept : (p.close b closesocket fd).files fd ≠ none :=
          close_files_ne_none (hopen fd List.mem_cons_self) fun _ => hclosable
        have hleft : ((p.close b closesocket fd).closeAll b closesocket fds).files fd ≠ none :=
          closeAll_files_ne_none hkept hfd
        have hfiles : ((p.close b closesocket fd).closeAll b closesocket fds).files fd = _ :=
          congrFun h.1 fd
        rw [foldl_closes_eq_none (Or.inl List.mem_cons_self)] at hfiles
        exact hleft hfiles

theorem freeStream_eq
    (b : Build) (page : ℕ) (t : Test) (closesocket : Bool) (sp : BufferedStream)
    (p : Resources) :
    p.freeStream b page t closesocket sp =
      (p.munmap sp.buffer (pageCount b page t.settings.blksize)).closeAll b closesocket
        sp.fds := by
  obtain ⟨bufferFd, buffer, diskfileFd⟩ := sp
  cases diskfileFd <;> rfl

/-! ## A stream under construction -/

/-- `q` is `p` with what the stream has been given. -/
structure Acquired (b : Build) (sp : BufferedStream) (count : ℕ) (p q : Resources) : Prop where
  files : sp.fds.foldl (fun files fd => files.closes fd) q.files = p.files
  opened : ∀ fd ∈ sp.fds, q.files fd ≠ none
  nodup : sp.fds.Nodup
  free : b.windows = false → ∀ fd ∈ sp.fds, p.sockets fd = none
  sockets : q.sockets = p.sockets
  streams : q.streams = p.streams
  mapped : q.mapped = p.mapped ∪ pageRange sp.buffer count
  disjoint : Disjoint p.mapped (pageRange sp.buffer count)

variable {sp : BufferedStream} {p q : Resources}

theorem Acquired.not_same (h : Acquired b sp (pageCount b page t.bufferSize) p q) {r : Resources}
    {fd : ℕ} (hfd : fd ∈ sp.fds) (hopen : r.files fd ≠ none) : ¬ p.Same r := by
  intro hsame
  have hnone : p.files fd = none := by
    rw [← h.files]
    exact foldl_closes_eq_none (Or.inl hfd)
  rw [hsame.files] at hopen
  exact hopen hnone

/-- Freeing is exact when the unmapped length has the pages of the mapping and
`close` reaches the descriptors. -/
theorem Acquired.frees_iff
    (h : Acquired b sp (pageCount b page t.bufferSize) p q) (closesocket : Bool) {r : Resources}
    (hkeeps : Keeps sp (pageCount b page t.bufferSize) q r) :
    Frees b page t closesocket sp r ↔
      pageCount b page t.settings.blksize = pageCount b page t.bufferSize ∧
        ∀ fd ∈ sp.fds, p.Closable b fd := by
  have hsockets : ∀ fd ∈ sp.fds, r.sockets fd = p.sockets fd := by
    intro fd hfd
    rw [hkeeps.sockets fd hfd, h.sockets]
  have hclosable : (∀ fd ∈ sp.fds, r.Closable b fd) ↔ ∀ fd ∈ sp.fds, p.Closable b fd := by
    refine forall₂_congr fun fd hfd => ?_
    unfold Closable
    rw [hsockets fd hfd]
  let unmapped := r.munmap sp.buffer (pageCount b page t.settings.blksize)
  have hexact := closeAll_exact_iff (b := b) (p := unmapped) closesocket h.nodup
    (fun fd hfd => by
      change r.files fd ≠ none
      rw [hkeeps.files fd hfd]
      exact h.opened fd hfd)
    (fun hwindows fd hfd => by
      change r.sockets fd = none
      rw [hsockets fd hfd]
      exact h.free hwindows fd hfd)
  have hpages := sdiff_pageRange_eq_iff hkeeps.mapped
    (pageCount_mono b page (blksize_le_bufferSize t))
  have hfree := freeStream_eq b page t closesocket sp r
  constructor
  · intro hfrees
    refine ⟨hpages.mp ?_, hclosable.mp (hexact.mp ⟨?_, ?_⟩)⟩
    · rw [← hfrees.mapped, hfree, closeAll_mapped]
      rfl
    · have hfiles := hfrees.files
      rw [hfree] at hfiles
      exact hfiles
    · have hsame := hfrees.sockets
      rw [hfree] at hsame
      exact hsame
  · rintro ⟨hcount, hreached⟩
    obtain ⟨hfiles, hsame⟩ := hexact.mpr (hclosable.mpr hreached)
    refine ⟨?_, ?_, ?_⟩
    · rw [hfree]
      exact hfiles
    · rw [hfree]
      exact hsame
    · rw [hfree, closeAll_mapped, ← hpages.mpr hcount]
      rfl

/-- A stream that is given can be freed exactly. -/
theorem Acquired.listed_iff (h : Acquired b sp (pageCount b page t.bufferSize) p q) :
    AllOrNothing b page t p ({ q with streams := q.streams ++ [sp] }, some sp) ↔
      pageCount b page t.settings.blksize = pageCount b page t.bufferSize ∧
        ∀ fd ∈ sp.fds, p.Closable b fd := by
  have hpages : pageRange sp.buffer (pageCount b page t.bufferSize) ⊆ q.mapped := by
    rw [h.mapped]
    exact Finset.subset_union_right
  have hkeeps : Keeps sp (pageCount b page t.bufferSize) q
      { q with streams := q.streams ++ [sp] } :=
    ⟨fun _ _ => rfl, fun _ _ => rfl, hpages⟩
  constructor
  · intro hall
    exact (h.frees_iff true hkeeps).mp (hall true _ ⟨fun _ _ => rfl, fun _ _ => rfl, hpages⟩)
  · intro hgood closesocket r hr
    exact (h.frees_iff closesocket ⟨hr.files, hr.sockets, hr.mapped⟩).mpr hgood

/-- What the failing initialization of a stream without an `-F` file undoes. -/
theorem Acquired.undone_iff
    (h : Acquired b sp (pageCount b page t.bufferSize) p q) (hdisk : sp.diskfileFd = none)
    (closesocket : Bool) :
    p.Same ((q.close b closesocket sp.bufferFd).munmap sp.buffer
        (pageCount b page t.settings.blksize)) ↔
      pageCount b page t.settings.blksize = pageCount b page t.bufferSize ∧
        p.Closable b sp.bufferFd := by
  have hone : sp.fds = [sp.bufferFd] := by simp [BufferedStream.fds, hdisk]
  have hfiles := h.files
  have hopened := h.opened
  have hfree := h.free
  rw [hone] at hfiles hopened hfree
  have hexact := closeAll_exact_iff (b := b) (p := q) closesocket
    (List.nodup_singleton sp.bufferFd) hopened (by rwa [h.sockets])
  have hclosable : q.Closable b sp.bufferFd ↔ p.Closable b sp.bufferFd := by
    unfold Closable
    rw [h.sockets]
  rw [hfiles, h.sockets, List.forall_mem_singleton, hclosable] at hexact
  have hpages := sdiff_pageRange_eq_iff
    (h.mapped ▸ Finset.subset_union_right : pageRange sp.buffer _ ⊆ q.mapped)
    (pageCount_mono b page (blksize_le_bufferSize t))
  have hback : q.mapped \ pageRange sp.buffer (pageCount b page t.bufferSize) = p.mapped := by
    rw [h.mapped, Finset.union_sdiff_cancel_right h.disjoint]
  rw [hback] at hpages
  constructor
  · intro hsame
    refine ⟨hpages.mp ?_, hexact.mp ⟨hsame.files, hsame.sockets⟩⟩
    have hmapped := hsame.mapped
    change (q.close b closesocket sp.bufferFd).mapped \ _ = _ at hmapped
    rwa [close_mapped] at hmapped
  · rintro ⟨hcount, hcloses⟩
    obtain ⟨hbuffer, hsockets⟩ := hexact.mpr hcloses
    refine ⟨hbuffer, hsockets, ?_, ?_⟩
    · change (q.close b closesocket sp.bufferFd).mapped \ _ = _
      rw [close_mapped]
      exact hpages.mpr hcount
    · change (q.close b closesocket sp.bufferFd).streams = _
      rw [close_streams, h.streams]

theorem Acquired.initStream_iff
    (h : Acquired b sp (pageCount b page t.bufferSize) p q) :
    AllOrNothing b page t p (q.initStream b page t steps sp) ↔
      pageCount b page t.settings.blksize = pageCount b page t.bufferSize ∧
        p.Closable b sp.bufferFd ∧
        ∀ m, sp.diskfileFd = some m →
          ((t.repeatingPayload ≠ 0 || steps.entropy) && steps.initialized) = true ∧
            p.Closable b m := by
  unfold initStream
  cases hinit : (t.repeatingPayload ≠ 0 || steps.entropy) && steps.initialized with
  | true =>
      rw [if_pos rfl, h.listed_iff]
      simp [BufferedStream.fds]
  | false =>
      rw [if_neg Bool.false_ne_true]
      cases hdisk : sp.diskfileFd with
      | some m =>
          -- The descriptor of the `-F` file is not closed.
          have hm : m ∈ sp.fds := by simp [BufferedStream.fds, hdisk]
          have hne : m ≠ sp.bufferFd := by
            rintro rfl
            have hnodup := h.nodup
            simp [BufferedStream.fds, hdisk] at hnodup
          refine iff_of_false (h.not_same hm ?_) fun hgood => ?_
          · exact close_files_ne_none (h.opened m hm) fun heq => absurd heq hne
          · exact Bool.false_ne_true (hgood.2.2 m rfl).1
      | none =>
          refine (h.undone_iff hdisk steps.closesocket).trans ?_
          refine and_congr_right fun _ => (and_iff_left ?_).symm
          intro m hm
          cases hm

/-! ## The whole call -/

/-- What `mkstemp` and `mmap` leave behind. -/
theorem acquired_buffer
    {n buffer : ℕ} (hn : p.granted b steps.mkstemp = some n)
    (hbuffer : (p.openFile n).grantedPages (pageCount b page t.bufferSize) steps.mapped =
      some buffer) :
    Acquired b ⟨n, buffer, none⟩ (pageCount b page t.bufferSize) p
      ((p.openFile n).mmap buffer (pageCount b page t.bufferSize)) := by
  obtain ⟨hfree, hsocket⟩ := granted_spec hn
  exact
    { files := closes_opens hfree p.next
      opened := by
        intro fd hfd
        obtain rfl := List.mem_singleton.mp hfd
        change p.files.opens fd p.next fd ≠ none
        unfold ObjectTable.opens
        simp
      nodup := List.nodup_singleton n
      free := by
        intro hwindows fd hfd
        obtain rfl := List.mem_singleton.mp hfd
        exact hsocket hwindows
      sockets := rfl
      streams := rfl
      mapped := rfl
      disjoint := (grantedPages_spec hbuffer).2 }

theorem Acquired.diskfile
    {n buffer m count : ℕ} (h : Acquired b ⟨n, buffer, none⟩ count p q)
    (hm : q.granted b steps.diskfile = some m) :
    Acquired b ⟨n, buffer, some m⟩ count p (q.openFile m) := by
  obtain ⟨hfree, hsocket⟩ := granted_spec hm
  have hne : m ≠ n := by
    rintro rfl
    exact h.opened m (List.mem_singleton_self m) hfree
  exact
    { files := by
        change ((q.files.opens m q.next).closes n).closes m = p.files
        have hfiles := h.files
        change q.files.closes n = p.files at hfiles
        unfold ObjectTable.opens ObjectTable.closes at *
        rw [Function.update_comm hne, Function.update_idem, ← hfiles]
        rw [Function.update_eq_self_iff, Function.update_of_ne hne, hfree]
      opened := by
        intro fd hfd
        change Function.update q.files m (some q.next) fd ≠ none
        by_cases heq : fd = m
        · subst heq
          simp
        · rw [Function.update_of_ne heq]
          refine h.opened fd ?_
          simpa [BufferedStream.fds, heq] using hfd
      nodup := by
        change [n, m].Nodup
        simpa using hne.symm
      free := by
        intro hwindows fd hfd
        rcases List.mem_cons.mp hfd with rfl | hfd
        · exact h.free hwindows fd (List.mem_singleton_self fd)
        · obtain rfl := List.mem_singleton.mp hfd
          rw [← h.sockets]
          exact hsocket hwindows
      sockets := h.sockets
      streams := h.streams
      mapped := h.mapped
      disjoint := h.disjoint }

theorem Acquired.openDiskfile_iff
    {n buffer : ℕ} (h : Acquired b ⟨n, buffer, none⟩ (pageCount b page t.bufferSize) p q) :
    AllOrNothing b page t p (q.openDiskfile b page t steps n buffer) ↔
      pageCount b page t.settings.blksize = pageCount b page t.bufferSize ∧
        p.Closable b n ∧
        (t.diskfileName.isSome = true →
          ((t.repeatingPayload ≠ 0 || steps.entropy) && steps.initialized) = true ∧
            ∃ m, q.granted b steps.diskfile = some m ∧ p.Closable b m) := by
  unfold openDiskfile
  cases t.diskfileName.isSome with
  | false =>
      rw [if_neg Bool.false_ne_true, h.initStream_iff]
      simp
  | true =>
      rw [if_pos rfl]
      cases hm : q.granted b steps.diskfile with
      | none =>
          refine iff_of_false (h.not_same (List.mem_singleton_self n) ?_) fun hgood => ?_
          · exact h.opened n (List.mem_singleton_self n)
          · obtain ⟨-, m, hnone, -⟩ := hgood.2.2 rfl
            cases hnone
      | some m =>
          rw [(h.diskfile hm).initStream_iff]
          simp

theorem mapBuffer_iff {n : ℕ} (hn : p.granted b steps.mkstemp = some n) :
    AllOrNothing b page t p ((p.openFile n).mapBuffer b page t steps n) ↔
      Smooth b page t steps n p := by
  have hleft : ¬ p.Same (p.openFile n) := by
    intro hsame
    have hfiles : (p.openFile n).files n = p.files n := congrFun hsame.files n
    rw [(granted_spec hn).1] at hfiles
    change Function.update p.files n (some p.next) n = none at hfiles
    rw [Function.update_self] at hfiles
    cases hfiles
  simp only [mapBuffer]
  by_cases hearly : ((b.windows || steps.unlinked) &&
      (steps.truncated && decide (0 ≤ t.bufferSize))) = true
  · rw [if_pos hearly]
    simp only [Bool.and_eq_true, Bool.or_eq_true, decide_eq_true_eq] at hearly
    obtain ⟨hunlinked, htruncated⟩ := hearly
    cases hbuffer : (p.openFile n).grantedPages (pageCount b page t.bufferSize) steps.mapped with
    | none => exact iff_of_false hleft fun h => h.mapped hbuffer
    | some buffer =>
        rw [(acquired_buffer hn hbuffer).openDiskfile_iff]
        constructor
        · rintro ⟨hpages, hclosable, hdiskfile⟩
          exact
            { unlinked := fun hwindows => hunlinked.resolve_left (by simp [hwindows])
              truncated := htruncated
              mapped := fun hnone => by
                change (p.openFile n).grantedPages _ _ = _ at hnone
                rw [hbuffer] at hnone
                cases hnone
              pages := hpages
              buffer := hclosable
              diskfile := hdiskfile }
        · exact fun h => ⟨h.pages, h.buffer, h.diskfile⟩
  · rw [if_neg hearly]
    refine iff_of_false hleft fun h => hearly ?_
    have htruncated := h.truncated
    have hunlinked := h.unlinked
    cases hwindows : b.windows <;> simp_all

def fresh : Resources := ⟨⟨fun _ => none, fun _ => none, 0⟩, ∅, []⟩

/-- Every step succeeds but the opening of an `-F` file. -/
def withoutDiskfile : StreamSteps where
  allocated := true
  mkstemp := some 3
  unlinked := true
  truncated := true
  mapped := some 0
  diskfile := none
  entropy := true
  initialized := true
  closesocket := true

/-- `iperf3 -c host -F missing.bin`. -/
def missingFileTest : Test :=
  match parseArguments .msvc none [.client, .file "missing.bin"] (iperfStart .msvc) with
  | .ok t => t
  | .error _ => iperfStart .msvc

/-- `iperf3 -c host -u -l 1460 --gsro`. -/
def gsoTest : Test :=
  match parseArguments .linux none [.client, .udp, .length 1460, .gsro] (iperfStart .linux) with
  | .ok t => t
  | .error _ => iperfStart .linux

end Resources

end Iperf3
