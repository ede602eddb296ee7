import Iperf3.ObjectTable
import Mathlib.Data.Multiset.Bind
import Mathlib.Tactic

/-!
# Numbers of sockets and of files on Windows

Winsock and the C runtime number what they open independently of each other.
A call on a number first tries Winsock; only if the number is not a socket,
the C runtime is called.
-/

namespace Iperf3

/-- Objects are numbered in the order in which they are opened. -/
structure Win32 where
  sockets : ObjectTable ℕ
  files : ObjectTable ℕ
  next : ℕ

inductive NumberSpace where
  | winsock
  | crt
  deriving DecidableEq, Repr

/-- A number with the object that it was obtained for. -/
structure Handle where
  space : NumberSpace
  number : ℕ
  object : ℕ
  deriving DecidableEq, Repr

namespace Win32

def lookup (table : ObjectTable ℕ) (fd : ℤ) : Option ℕ :=
  if fd < 0 then none else table fd.toNat

@[simp] theorem lookup_natCast (table : ObjectTable ℕ) (n : ℕ) :
    lookup table (n : ℤ) = table n := by
  simp [lookup]

/-- The object that is closed, or that `closesocket` fails to close for a
reason other than `WSAENOTSOCK`. -/
def iperfWin32Close (closesocket : Bool) (fd : ℤ) (w : Win32) : Win32 × Option ℕ :=
  if fd < 0 then (w, none)
  else
    match lookup w.sockets fd with
    | some o =>
        (if closesocket then { w with sockets := w.sockets.closes fd.toNat } else w, some o)
    | none =>
        if 0 ≤ fd ∧ fd < 64 then
          match lookup w.files fd with
          | some o => ({ w with files := w.files.closes fd.toNat }, some o)
          | none => (w, none)
        else (w, none)

/-- The object that a transfer reaches; unlike `close`, it has no bound. -/
def transfer (fd : ℤ) (w : Win32) : Option ℕ :=
  match lookup w.sockets fd with
  | some o => some o
  | none => lookup w.files fd

/-- `recv`, and `_read` if the number is not a socket. -/
def iperfWin32Read (fd : ℤ) (w : Win32) : Option ℕ := w.transfer fd

/-- `send`, and `_write` if the number is not a socket. -/
def iperfWin32Write (fd : ℤ) (w : Win32) : Option ℕ := w.transfer fd

def table (w : Win32) : NumberSpace → ObjectTable ℕ
  | .winsock => w.sockets
  | .crt => w.files

/-- The object of the handle has not been closed. -/
def Open (w : Win32) (h : Handle) : Prop :=
  w.table h.space h.number = some h.object

/-- The number of a file is not at the same time the number of a socket. -/
def Reaches (w : Win32) (h : Handle) : Prop :=
  h.space = .crt → w.sockets h.number = none

/-- In addition the number of a file is small enough. -/
def Closes (w : Win32) (h : Handle) : Prop :=
  w.Reaches h ∧ (h.space = .crt → h.number < 64)

theorem transfer_of_reaches {w : Win32} {h : Handle} (hopen : w.Open h) (hreaches : w.Reaches h) :
    w.transfer h.number = some h.object := by
  unfold transfer
  rw [lookup_natCast, lookup_natCast]
  cases hspace : h.space with
  | winsock =>
      have hsocket : w.sockets h.number = some h.object := by
        simpa [Open, table, hspace] using hopen
      rw [hsocket]
  | crt =>
      have hfile : w.files h.number = some h.object := by
        simpa [Open, table, hspace] using hopen
      rw [hreaches hspace]
      exact hfile

theorem close_socket {w : Win32} {n o : ℕ} (hsocket : w.sockets n = some o) (closesocket : Bool) :
    w.iperfWin32Close closesocket n =
      (if closesocket then { w with sockets := w.sockets.closes n } else w, some o) := by
  simp [iperfWin32Close, hsocket]

theorem close_file {w : Win32} {n o : ℕ} (hsocket : w.sockets n = none)
    (hfile : w.files n = some o) (hsmall : n < 64) (closesocket : Bool) :
    w.iperfWin32Close closesocket n = ({ w with files := w.files.closes n }, some o) := by
  have hbound : (n : ℤ) < 64 := by exact_mod_cast hsmall
  simp [iperfWin32Close, hsocket, hfile, hbound]

theorem close_reaches_iff {w : Win32} {n o : ℕ} (closesocket : Bool) :
    (w.iperfWin32Close closesocket n).2 = some o ↔
      w.sockets n = some o ∨ w.sockets n = none ∧ w.files n = some o ∧ n < 64 := by
  cases hsocket : w.sockets n with
  | some p => simp [close_socket hsocket]
  | none =>
      cases hfile : w.files n with
      | none => simp [iperfWin32Close, hsocket, hfile]
      | some p =>
          by_cases hsmall : n < 64
          · simp [close_file hsocket hfile hsmall, hsmall]
          · have hbound : ¬ (n : ℤ) < 64 := by exact_mod_cast hsmall
            simp [iperfWin32Close, hsocket, hbound, hsmall]

end Win32

/-! ## The core -/

/-- The files of a stream, each a number and an object. -/
structure StreamFiles where
  buffer : ℕ × ℕ
  diskfile : Option (ℕ × ℕ)
  deriving DecidableEq, Repr

def fileHandle (file : ℕ × ℕ) : Handle := ⟨.crt, file.1, file.2⟩

inductive DispatchCall where
  | read
  | write
  | close
  deriving DecidableEq, Repr

/-- A call with the handle that the caller means and the object it reaches. -/
structure Dispatch where
  call : DispatchCall
  handle : Handle
  reached : Option ℕ
  deriving DecidableEq, Repr

/-- What the process has open, and what it has done. -/
structure Core extends Win32 where
  held : List Handle
  streams : List StreamFiles
  created : List ℕ
  calls : List Dispatch

namespace Core

def log (call : DispatchCall) (h : Handle) (reached : Option ℕ) (p : Core) : Core :=
  { p with calls := p.calls ++ [⟨call, h, reached⟩] }

def read (h : Handle) (p : Core) : Core := p.log .read h (p.iperfWin32Read h.number)

def write (h : Handle) (p : Core) : Core := p.log .write h (p.iperfWin32Write h.number)

def close (closesocket : Bool) (h : Handle) (p : Core) : Core :=
  let r := p.iperfWin32Close closesocket h.number
  { p with toWin32 := r.1 }.log .close h r.2

/-- A number that is in use is not handed out; the call fails instead. -/
def granted (table : ObjectTable ℕ) (number : Option ℕ) : Option ℕ :=
  number.filter fun n => table n = none

/-- `socket` and `accept`. -/
def openSocket (number : Option ℕ) (p : Core) : Core :=
  match granted p.sockets number with
  | some n =>
      { p with
        sockets := p.sockets.opens n p.next
        next := p.next + 1
        held := p.held ++ [⟨.winsock, n, p.next⟩] }
  | none => p

def openFile (n : ℕ) (p : Core) : Core :=
  { p with files := p.files.opens n p.next, next := p.next + 1 }

/-- `open` outside of `iperf_new_stream`. -/
def openHeld (number : Option ℕ) (p : Core) : Core :=
  match granted p.files number with
  | some n => { p.openFile n with held := p.held ++ [⟨.crt, n, p.next⟩] }
  | none => p

/-- `mkstemp` and `open` in `iperf_new_stream`. -/
def openCreated (n : ℕ) (p : Core) : Core :=
  { p.openFile n with created := p.created ++ [p.next] }

end Core

structure NewStreamEnv where
  mkstemp : Option ℕ
  truncated : Bool
  mapped : Bool
  diskfile : Option ℕ
  initialized : Bool
  closesocket : Bool

/-- A stream that fails to initialize closes its buffer and leaves its disk
file open. -/
def initStream (env : NewStreamEnv) (sp : StreamFiles) (p : Core) : Core :=
  if env.initialized then { p with streams := p.streams ++ [sp] }
  else p.close env.closesocket (fileHandle sp.buffer)

/-- After `mkstemp` the failures before the initialization close nothing. -/
def iperfNewStreamFiles (diskfileName : Bool) (env : NewStreamEnv) (p : Core) : Core :=
  match Core.granted p.files env.mkstemp with
  | none => p
  | some n =>
      let buffer := (n, p.next)
      let p := p.openCreated n
      if env.truncated && env.mapped then
        if diskfileName then
          match Core.granted p.files env.diskfile with
          | none => p
          | some m => initStream env ⟨buffer, some (m, p.next)⟩ (p.openCreated m)
        else initStream env ⟨buffer, none⟩ p
      else p

/-- The streams are freed from the head of the list. -/
def iperfFreeStream (closesocket : Bool) (p : Core) : Core :=
  match p.streams with
  | [] => p
  | sp :: streams =>
      let p := Core.close closesocket (fileHandle sp.buffer) { p with streams := streams }
      match sp.diskfile with
      | some file => p.close closesocket (fileHandle file)
      | none => p

inductive CoreEvent where
  | socket (number : Option ℕ)
  | openFile (number : Option ℕ)
  | read (h : Handle)
  | write (h : Handle)
  | close (closesocket : Bool) (h : Handle)
  | newStream (env : NewStreamEnv)
  | readDiskfile (i : ℕ)
  | writeDiskfile (i : ℕ)
  | freeStream (closesocket : Bool)

namespace Core

def diskfile (i : ℕ) (p : Core) : Option (ℕ × ℕ) :=
  p.streams[i]?.bind StreamFiles.diskfile

/-- Only handles that have been obtained are used. -/
def step (diskfileName : Bool) (p : Core) : CoreEvent → Core
  | .socket number => p.openSocket number
  | .openFile number => p.openHeld number
  | .read h => if h ∈ p.held then p.read h else p
  | .write h => if h ∈ p.held then p.write h else p
  | .close closesocket h => if h ∈ p.held then p.close closesocket h else p
  | .newStream env => iperfNewStreamFiles diskfileName env p
  | .readDiskfile i =>
      match p.diskfile i with
      | some file => p.read (fileHandle file)
      | none => p
  | .writeDiskfile i =>
      match p.diskfile i with
      | some file => p.write (fileHandle file)
      | none => p
  | .freeStream closesocket => iperfFreeStream closesocket p

def run (diskfileName : Bool) (p : Core) (events : List CoreEvent) : Core :=
  events.foldl (step diskfileName) p

/-- The three standard files are open. -/
def initial : Core where
  sockets := fun _ => none
  files := fun n => if n < 3 then some n else none
  next := 3
  held := []
  streams := []
  created := []
  calls := []

/-- Every call has reached the object that its caller meant. -/
def RightObjects (p : Core) : Prop :=
  ∀ d ∈ p.calls, d.reached = some d.handle.object

/-- No file that was opened for a stream is open. -/
def NothingLeft (p : Core) : Prop :=
  ∀ n o, p.files n = some o → o ∉ p.created

end Core

/-! ## Steps -/

def StreamFiles.files (sp : StreamFiles) : Multiset (ℕ × ℕ) :=
  sp.buffer ::ₘ (sp.diskfile.toList : Multiset (ℕ × ℕ))

def Core.streamFiles (p : Core) : Multiset (ℕ × ℕ) :=
  (p.streams : Multiset StreamFiles).bind StreamFiles.files

/-- The files that were opened for streams and are open are `files`, and
whatever else is open is something else. -/
structure Core.Sound (p : Core) (files : Multiset (ℕ × ℕ)) : Prop where
  right : p.RightObjects
  numbered : ∀ n o, p.files n = some o → o < p.next
  created : ∀ o ∈ p.created, o < p.next
  held : ∀ h ∈ p.held, h.object < p.next ∧ h.object ∉ p.created
  owns : p.files.Owns files
  covers : p.files.Covers (· ∈ p.created) files
  forStreams : ∀ x ∈ files, x.2 ∈ p.created

namespace Core

variable {p : Core} {files : Multiset (ℕ × ℕ)}

theorem granted_free {table : ObjectTable ℕ} {number : Option ℕ} {n : ℕ}
    (h : granted table number = some n) : table n = none := by
  unfold granted at h
  simpa using (Option.filter_eq_some_iff.mp h).2

theorem Sound.log (hp : p.Sound files) {call : DispatchCall} {h : Handle} {reached : Option ℕ}
    (hreached : reached = some h.object) : (p.log call h reached).Sound files where
  right d hd := by
    rcases List.mem_append.mp hd with hd | hd
    · exact hp.right d hd
    · rw [List.mem_singleton.mp hd]
      exact hreached
  numbered := hp.numbered
  created := hp.created
  held := hp.held
  owns := hp.owns
  covers := hp.covers
  forStreams := hp.forStreams

theorem Sound.streams (hp : p.Sound files) (streams : List StreamFiles) :
    { p with streams := streams }.Sound files :=
  ⟨hp.right, hp.numbered, hp.created, hp.held, hp.owns, hp.covers, hp.forStreams⟩

theorem Sound.openSocket (hp : p.Sound files) (number : Option ℕ) :
    (p.openSocket number).Sound files := by
  unfold Core.openSocket
  split
  · refine ⟨hp.right, fun n o hn => Nat.lt_succ_of_lt (hp.numbered n o hn),
      fun o ho => Nat.lt_succ_of_lt (hp.created o ho), fun h hh => ?_, hp.owns, hp.covers,
      hp.forStreams⟩
    rcases List.mem_append.mp hh with hh | hh
    · exact ⟨Nat.lt_succ_of_lt (hp.held h hh).1, (hp.held h hh).2⟩
    · rw [List.mem_singleton.mp hh]
      exact ⟨Nat.lt_succ_self _, fun hcreated => Nat.lt_irrefl _ (hp.created _ hcreated)⟩
  · exact hp

theorem numbered_opens {t : ObjectTable ℕ} {next n : ℕ}
    (h : ∀ m o, t m = some o → o < next) :
    ∀ m o, t.opens n next m = some o → o < next + 1 := by
  intro m o hm
  by_cases heq : m = n
  · subst heq
    rw [ObjectTable.opens, Function.update_self] at hm
    exact (Option.some.inj hm) ▸ Nat.lt_succ_self _
  · rw [ObjectTable.opens, Function.update_of_ne heq] at hm
    exact Nat.lt_succ_of_lt (h m o hm)

theorem numbered_closes {t : ObjectTable ℕ} {next n : ℕ}
    (h : ∀ m o, t m = some o → o < next) :
    ∀ m o, t.closes n m = some o → o < next := by
  intro m o hm
  by_cases heq : m = n
  · subst heq
    rw [ObjectTable.closes, Function.update_self] at hm
    exact absurd hm (by simp)
  · rw [ObjectTable.closes, Function.update_of_ne heq] at hm
    exact h m o hm

theorem Sound.openHeld (hp : p.Sound files) (number : Option ℕ) :
    (p.openHeld number).Sound files := by
  unfold Core.openHeld
  split
  · rename_i n hgranted
    have hnew : p.next ∉ p.created := fun hcreated => Nat.lt_irrefl _ (hp.created _ hcreated)
    refine ⟨hp.right, numbered_opens hp.numbered,
      fun o ho => Nat.lt_succ_of_lt (hp.created o ho), fun h hh => ?_,
      hp.owns.opens_other (granted_free hgranted) _, hp.covers.opens_other n hnew, hp.forStreams⟩
    rcases List.mem_append.mp hh with hh | hh
    · exact ⟨Nat.lt_succ_of_lt (hp.held h hh).1, (hp.held h hh).2⟩
    · rw [List.mem_singleton.mp hh]
      exact ⟨Nat.lt_succ_self _, hnew⟩
  · exact hp

theorem Sound.openCreated (hp : p.Sound files) {n : ℕ} (hfree : p.files n = none) :
    (p.openCreated n).Sound ((n, p.next) ::ₘ files) where
  right := hp.right
  numbered := numbered_opens hp.numbered
  created o ho := by
    rcases List.mem_append.mp ho with ho | ho
    · exact Nat.lt_succ_of_lt (hp.created o ho)
    · rw [List.mem_singleton.mp ho]
      exact Nat.lt_succ_self _
  held h hh := by
    refine ⟨Nat.lt_succ_of_lt (hp.held h hh).1, fun hcreated => ?_⟩
    rcases List.mem_append.mp hcreated with hold | hnew
    · exact (hp.held h hh).2 hold
    · exact Nat.ne_of_lt (hp.held h hh).1 (List.mem_singleton.mp hnew)
  owns := hp.owns.opens hfree _
  covers := by
    have hbefore : p.files.Covers (· ∈ p.created ++ [p.next]) files := by
      refine hp.covers.mono fun m o hm ho => ?_
      rcases List.mem_append.mp ho with hold | hnew
      · exact hold
      · exact absurd (List.mem_singleton.mp hnew) (Nat.ne_of_lt (hp.numbered m o hm))
    exact hbefore.opens n _
  forStreams x hx := by
    rcases Multiset.mem_cons.mp hx with rfl | hx
    · exact List.mem_append_right _ (List.mem_singleton_self _)
    · exact List.mem_append_left _ (hp.forStreams x hx)

theorem Sound.closeFile {x : ℕ × ℕ} (hp : p.Sound (x ::ₘ files)) (hsocket : p.sockets x.1 = none)
    (hsmall : x.1 < 64) (closesocket : Bool) :
    (p.close closesocket (fileHandle x)).Sound files := by
  have hfile : p.files x.1 = some x.2 := hp.owns.names x (Multiset.mem_cons_self _ _)
  have hclosed : p.iperfWin32Close closesocket (fileHandle x).number =
      ({ p.toWin32 with files := p.files.closes x.1 }, some x.2) :=
    Win32.close_file hsocket hfile hsmall closesocket
  unfold Core.close
  rw [hclosed]
  have hsound : Sound { p with files := p.files.closes x.1 } files :=
    ⟨hp.right, numbered_closes hp.numbered, hp.created, hp.held, hp.owns.closes, hp.covers.closes,
      fun y hy => hp.forStreams y (Multiset.mem_cons_of_mem hy)⟩
  exact hsound.log rfl

theorem Sound.closeHeld (hp : p.Sound files) {h : Handle} (hheld : h ∈ p.held)
    (hopen : p.Open h) (hcloses : p.Closes h) (closesocket : Bool) :
    (p.close closesocket h).Sound files := by
  obtain ⟨space, n, o⟩ := h
  unfold Core.close
  cases space with
  | winsock =>
      rw [Win32.close_socket hopen]
      refine Sound.log ?_ rfl
      split_ifs
      · exact ⟨hp.right, hp.numbered, hp.created, hp.held, hp.owns, hp.covers, hp.forStreams⟩
      · exact hp
  | crt =>
      have hfile : p.files n = some o := hopen
      rw [Win32.close_file (hcloses.1 rfl) hfile (hcloses.2 rfl)]
      have hother : ∀ x ∈ files, x.1 ≠ n := by
        rintro x hx rfl
        have hsame : o = x.2 := Option.some.inj (hfile.symm.trans (hp.owns.names x hx))
        exact (hp.held _ hheld).2 (hsame ▸ hp.forStreams x hx)
      have hsound : Sound { p with files := p.files.closes n } files :=
        ⟨hp.right, numbered_closes hp.numbered, hp.created, hp.held,
          hp.owns.closes_other hother, hp.covers.closes_other n, hp.forStreams⟩
      exact hsound.log rfl

/-! ## Runs -/

/-- Handles are used while they are open, no number of a file is at the same
time one of a socket, files that are closed have small numbers, and no
failure leaves a file of a stream behind. -/
def Apart (diskfileName : Bool) (p : Core) : CoreEvent → Prop
  | .read h | .write h => h ∈ p.held → p.Open h ∧ p.Reaches h
  | .close _ h => h ∈ p.held → p.Open h ∧ p.Closes h
  | .newStream env => ∀ n, granted p.files env.mkstemp = some n →
      env.truncated = true ∧ env.mapped = true ∧
        if diskfileName then
          env.initialized = true ∧ ∃ m, granted (p.openCreated n).files env.diskfile = some m
        else env.initialized = true ∨ p.Closes (fileHandle (n, p.next))
  | .readDiskfile i | .writeDiskfile i =>
      ∀ file, p.diskfile i = some file → p.Reaches (fileHandle file)
  | .freeStream _ =>
      ∀ sp, p.streams.head? = some sp → ∀ file ∈ sp.files, p.Closes (fileHandle file)
  | _ => True

theorem streamFiles_append (p : Core) (sp : StreamFiles) :
    { p with streams := p.streams ++ [sp] }.streamFiles = sp.files + p.streamFiles := by
  have hsplit : ((p.streams ++ [sp] : List StreamFiles) : Multiset StreamFiles) =
      sp ::ₘ (p.streams : Multiset StreamFiles) := by
    rw [← Multiset.coe_add, Multiset.coe_singleton, Multiset.add_comm, Multiset.singleton_add]
  rw [streamFiles, hsplit, Multiset.cons_bind]
  rfl

theorem close_sockets {x : ℕ × ℕ} (hsocket : p.sockets x.1 = none) (closesocket : Bool) :
    (p.close closesocket (fileHandle x)).sockets = p.sockets := by
  change (p.iperfWin32Close closesocket (x.1 : ℤ)).1.sockets = p.sockets
  cases hfile : p.files x.1 with
  | none => simp [Win32.iperfWin32Close, hsocket, hfile]
  | some o =>
      by_cases hsmall : x.1 < 64
      · rw [Win32.close_file hsocket hfile hsmall]
      · have hbound : ¬ (x.1 : ℤ) < 64 := by exact_mod_cast hsmall
        simp [Win32.iperfWin32Close, hsocket, hbound]

theorem diskfile_mem {file : ℕ × ℕ} {i : ℕ} (h : p.diskfile i = some file) :
    file ∈ p.streamFiles := by
  obtain ⟨sp, hsp, hfile⟩ := Option.bind_eq_some_iff.mp h
  refine Multiset.mem_bind.mpr ⟨sp, Multiset.mem_coe.mpr (List.mem_of_getElem? hsp), ?_⟩
  rw [StreamFiles.files, show sp.diskfile = some file from hfile]
  simp

theorem newStream_sound {diskfileName : Bool} {env : NewStreamEnv} (hp : p.Sound p.streamFiles)
    (hevent : Apart diskfileName p (.newStream env)) :
    (iperfNewStreamFiles diskfileName env p).Sound
      (iperfNewStreamFiles diskfileName env p).streamFiles := by
  unfold iperfNewStreamFiles
  cases hbuffer : granted p.files env.mkstemp with
  | none => exact hp
  | some n =>
      obtain ⟨htruncated, hmapped, hrest⟩ := hevent n hbuffer
      have hopened := hp.openCreated (granted_free hbuffer)
      have hadded : ∀ (u : Core) (sp : StreamFiles), u.Sound (sp.files + u.streamFiles) →
          { u with streams := u.streams ++ [sp] }.Sound
            { u with streams := u.streams ++ [sp] }.streamFiles := by
        intro u sp hu
        rw [streamFiles_append]
        exact hu.streams _
      dsimp only
      rw [htruncated, hmapped, Bool.and_true, if_pos rfl]
      split_ifs with hname
      · rw [if_pos hname] at hrest
        obtain ⟨hinit, m, hfile⟩ := hrest
        rw [hfile]
        dsimp only
        unfold initStream
        rw [if_pos hinit]
        apply hadded
        have hboth := hopened.openCreated (granted_free hfile)
        have hfiles : StreamFiles.files ⟨(n, p.next), some (m, (p.openCreated n).next)⟩ +
            p.streamFiles = (m, (p.openCreated n).next) ::ₘ (n, p.next) ::ₘ p.streamFiles := by
          simp [StreamFiles.files, Multiset.cons_swap]
        exact hfiles ▸ hboth
      · rw [if_neg hname] at hrest
        unfold initStream
        split_ifs with hinit
        · apply hadded
          exact hopened
        · have hcloses := hrest.resolve_left hinit
          exact hopened.closeFile (hcloses.1 rfl) (hcloses.2 rfl) env.closesocket

theorem freeStream_sound {diskfileName closesocket : Bool} (hp : p.Sound p.streamFiles)
    (hevent : Apart diskfileName p (.freeStream closesocket)) :
    (iperfFreeStream closesocket p).Sound (iperfFreeStream closesocket p).streamFiles := by
  unfold iperfFreeStream
  cases hstreams : p.streams with
  | nil => exact hp
  | cons sp streams =>
      have hcloses := hevent sp (by rw [hstreams]; rfl)
      have hfiles : p.streamFiles = sp.buffer ::ₘ ((sp.diskfile.toList : Multiset (ℕ × ℕ)) +
          (streams : Multiset StreamFiles).bind StreamFiles.files) := by
        rw [streamFiles, hstreams, ← Multiset.cons_coe, Multiset.cons_bind, StreamFiles.files,
          Multiset.cons_add]
      rw [hfiles] at hp
      have hbuffer := hcloses sp.buffer (Multiset.mem_cons_self _ _)
      have hclosed := (hp.streams streams).closeFile (hbuffer.1 rfl) (hbuffer.2 rfl) closesocket
      dsimp only
      cases hdisk : sp.diskfile with
      | none =>
          rw [hdisk, Option.toList_none, Multiset.coe_nil, zero_add] at hclosed
          exact hclosed
      | some file =>
          rw [hdisk, Option.toList_some, Multiset.coe_singleton, Multiset.singleton_add] at hclosed
          have hfile := hcloses file (by simp [StreamFiles.files, hdisk])
          have hsocket : (close closesocket (fileHandle sp.buffer)
              { p with streams := streams }).sockets file.1 = none := by
            rw [close_sockets (p := { p with streams := streams }) (hbuffer.1 rfl)]
            exact hfile.1 rfl
          exact hclosed.closeFile hsocket (hfile.2 rfl) closesocket

theorem step_sound {diskfileName : Bool} {event : CoreEvent} (hp : p.Sound p.streamFiles)
    (hevent : Apart diskfileName p event) :
    (p.step diskfileName event).Sound (p.step diskfileName event).streamFiles := by
  have hreads : ∀ file i, p.diskfile i = some file → p.Reaches (fileHandle file) →
      p.transfer (fileHandle file).number = some (fileHandle file).object := by
    intro file i hfile hreaches
    refine Win32.transfer_of_reaches ?_ hreaches
    exact hp.owns.names file (diskfile_mem hfile)
  cases event with
  | socket number =>
      have hopened := hp.openSocket number
      have hsame : (p.openSocket number).streamFiles = p.streamFiles := by
        unfold Core.openSocket
        split <;> rfl
      exact hsame.symm ▸ hopened
  | openFile number =>
      have hopened := hp.openHeld number
      have hsame : (p.openHeld number).streamFiles = p.streamFiles := by
        unfold Core.openHeld
        split <;> rfl
      exact hsame.symm ▸ hopened
  | read h =>
      unfold Core.step
      dsimp only
      split_ifs with hheld
      · obtain ⟨hopen, hreaches⟩ := hevent hheld
        exact hp.log (Win32.transfer_of_reaches hopen hreaches)
      · exact hp
  | write h =>
      unfold Core.step
      dsimp only
      split_ifs with hheld
      · obtain ⟨hopen, hreaches⟩ := hevent hheld
        exact hp.log (Win32.transfer_of_reaches hopen hreaches)
      · exact hp
  | close closesocket h =>
      unfold Core.step
      dsimp only
      split_ifs with hheld
      · obtain ⟨hopen, hcloses⟩ := hevent hheld
        exact hp.closeHeld hheld hopen hcloses closesocket
      · exact hp
  | newStream env => exact newStream_sound hp hevent
  | readDiskfile i =>
      unfold Core.step
      dsimp only
      cases hfile : p.diskfile i with
      | some file => exact hp.log (hreads file i hfile (hevent file hfile))
      | none => exact hp
  | writeDiskfile i =>
      unfold Core.step
      dsimp only
      cases hfile : p.diskfile i with
      | some file => exact hp.log (hreads file i hfile (hevent file hfile))
      | none => exact hp
  | freeStream closesocket => exact freeStream_sound hp hevent

/-- Every event of the run meets the condition in the state it finds. -/
def Meets (diskfileName : Bool) : Core → List CoreEvent → Prop
  | _, [] => True
  | p, event :: events =>
      Apart diskfileName p event ∧ Meets diskfileName (p.step diskfileName event) events

theorem run_sound {diskfileName : Bool} {events : List CoreEvent} {p : Core}
    (hp : p.Sound p.streamFiles) (hrun : p.Meets diskfileName events) :
    (p.run diskfileName events).Sound (p.run diskfileName events).streamFiles := by
  induction events generalizing p with
  | nil => exact hp
  | cons event events ih => exact ih (step_sound hp hrun.1) hrun.2

theorem initial_sound : initial.Sound initial.streamFiles where
  right d hd := by cases hd
  numbered n o hn := by
    unfold initial at hn
    dsimp only at hn ⊢
    split_ifs at hn with hsmall
    exact (Option.some.inj hn) ▸ hsmall
  created o ho := by cases ho
  held h hh := by cases hh
  owns := ObjectTable.owns_zero _
  covers n o hn ho := by cases ho
  forStreams x hx := absurd hx (Multiset.notMem_zero _)

/-- In a run that keeps the numbers apart every call reaches the object that
its caller means, and freed streams leave no file open. -/
theorem dispatch_reaches_the_right_object
    (diskfileName : Bool) {events : List CoreEvent}
    (hrun : initial.Meets diskfileName events) :
    (initial.run diskfileName events).RightObjects ∧
      ((initial.run diskfileName events).streams = [] →
        (initial.run diskfileName events).NothingLeft) := by
  have hsound := run_sound initial_sound hrun
  refine ⟨hsound.right, fun hempty n o hn hcreated => ?_⟩
  have hmem := hsound.covers n o hn hcreated
  rw [streamFiles, hempty] at hmem
  exact absurd hmem (Multiset.notMem_zero _)

/-- Two tests, each with one stream and a disk file that is sent. -/
def servedTwice : List CoreEvent :=
  [.socket (some 400), .newStream ⟨some 3, true, true, some 4, true, true⟩, .readDiskfile 0,
    .write ⟨.winsock, 400, 3⟩, .close true ⟨.winsock, 400, 3⟩, .freeStream true,
    .socket (some 400), .newStream ⟨some 3, true, true, some 4, true, true⟩, .freeStream true]

theorem dispatch_reaches_the_right_object_twice :
    (initial.run true servedTwice).RightObjects ∧
      ((initial.run true servedTwice).streams = [] →
        (initial.run true servedTwice).NothingLeft) := by
  apply dispatch_reaches_the_right_object
  have hfrees : ∀ (p : Core) (closesocket : Bool) (sp : StreamFiles), p.streams.head? = some sp →
      (∀ file ∈ sp.files, p.sockets file.1 = none ∧ file.1 < 64) →
        Apart true p (.freeStream closesocket) := by
    intro p closesocket sp hhead hfiles other hother file hfile
    obtain rfl := Option.some.inj (hhead.symm.trans hother)
    exact ⟨fun _ => (hfiles file hfile).1, fun _ => (hfiles file hfile).2⟩
  have hreads : ∀ (p : Core) (i : ℕ) (file : ℕ × ℕ), p.diskfile i = some file →
      p.sockets file.1 = none → Apart true p (.readDiskfile i) := by
    intro p i file hfile hsocket other hother
    obtain rfl := Option.some.inj (hfile.symm.trans hother)
    exact fun _ => hsocket
  have hnews : ∀ (p : Core) (n m : ℕ), granted p.files (some n) = some n →
      granted (p.openCreated n).files (some m) = some m →
        Apart true p (.newStream ⟨some n, true, true, some m, true, true⟩) := by
    intro p n m hn hm other hother
    obtain rfl := Option.some.inj (hn.symm.trans hother)
    exact ⟨rfl, rfl, rfl, m, hm⟩
  refine ⟨trivial, hnews _ 3 4 ?_ ?_, hreads _ 0 (4, 5) ?_ ?_,
    fun _ => ⟨?_, nofun⟩, fun _ => ⟨?_, nofun, nofun⟩, hfrees _ true ⟨(3, 4), some (4, 5)⟩ ?_ ?_,
    trivial, hnews _ 3 4 ?_ ?_, hfrees _ true ⟨(3, 7), some (4, 8)⟩ ?_ ?_, trivial⟩
  all_goals first | rfl | decide +kernel

/-- 62 streams: the last buffer has the number 64. -/
def crowdedTest : List CoreEvent :=
  (List.range 62).map (fun i => .newStream ⟨some (i + 3), true, true, none, true, true⟩) ++
    List.replicate 62 (.freeStream true)

/-- 58 streams while a socket has the number 60, as has the last buffer. -/
def collidingTest : List CoreEvent :=
  .socket (some 60) ::
    (List.range 58).map (fun i => .newStream ⟨some (i + 3), true, true, none, true, true⟩) ++
      List.replicate 58 (.freeStream true)

/-- With many streams a buffer stays open, or a socket is closed in its place. -/
theorem dispatch_misses :
    ((initial.run false crowdedTest).streams = [] ∧
        ¬ (initial.run false crowdedTest).NothingLeft) ∧
      ¬ (initial.run false collidingTest).RightObjects := by
  refine ⟨⟨by decide +kernel, fun hleft => ?_⟩, fun hright => ?_⟩
  · exact hleft 64 64 (by decide +kernel) (by decide +kernel)
  · have hlast := hright ⟨.close, ⟨.crt, 60, 61⟩, some 3⟩ (by decide +kernel)
    exact absurd hlast (by decide)

end Core

end Iperf3
