import Iperf3.MachineInt
import Mathlib.Tactic

/-!
# Error codes of sockets on Windows

The loops around `write` and `read` decide by `errno` whether a failure is
soft.  On Windows the code is translated from that of Winsock.  The loops run
here on the outcomes of the system calls, once with the code that POSIX gives
and once with the translation.
-/

namespace Iperf3

open MachineInt

/-- The codes that both systems know, by the name of POSIX. -/
inductive SocketError where
  | intr | badf | acces | fault | inval | mfile | wouldblock | inprogress | already | notsock
  | destaddrreq | msgsize | prototype | noprotoopt | protonosupport | socktnosupport | opnotsupp
  | pfnosupport | afnosupport | addrinuse | addrnotavail | netdown | netunreach | netreset
  | connaborted | connreset | nobufs | isconn | notconn | shutdown | toomanyrefs | timedout
  | connrefused | loop | nametoolong | hostdown | hostunreach | notempty | users | dquot | stale
  | remote
  deriving DecidableEq, Repr

inductive Errno where
  | again
  | io
  | code (e : SocketError)
  deriving DecidableEq, Repr

/-- A failure on a number that is a socket. -/
structure SocketFailure where
  code : SocketError
  socket : code ≠ .notsock
  deriving DecidableEq

/-- `win32_wsa_to_errno` on the Winsock code of the same name. -/
def win32WsaToErrno : SocketError → Errno
  | .wouldblock => .code .wouldblock
  | .inprogress => .code .inprogress
  | .connreset => .code .connreset
  | .timedout => .code .timedout
  | .msgsize => .code .msgsize
  | .intr => .code .intr
  | .inval => .code .inval
  | .notsock => .code .badf
  | _ => .io

/-- How `send` or `recv` comes out. -/
inductive SocketOutcome where
  | transferred (n : ℕ)
  | failed (failure : SocketFailure)
  deriving DecidableEq

/-- What the loops see of a call: its result, or that it is negative and what
`errno` is then. -/
inductive CallResult where
  | transferred (n : ℕ)
  | failed (errno : Errno)
  deriving DecidableEq

def posixCall : SocketOutcome → CallResult
  | .transferred n => .transferred n
  | .failed failure => .failed (.code failure.code)

/-- `iperf_win32_read` and `iperf_win32_write` on a socket. -/
def iperfWin32Call : SocketOutcome → CallResult
  | .transferred n => .transferred n
  | .failed failure => .failed (win32WsaToErrno failure.code)

def netSofterror : ℤ := -1
def netHarderror : ℤ := -2

/-- Interrupted, or nothing can be done without blocking. -/
def Errno.interrupts (errno : Errno) : Bool :=
  errno = .code .intr || errno = .again || errno = .code .wouldblock

/-- The result of the loop and the number of calls that it has made.  There is
none if it would make more calls than there are outcomes. -/
def nwriteLoop (count : ℕ) : ℕ → List CallResult → Option (ℤ × ℕ)
  | 0, _ => some (int32 count, 0)
  | _ + 1, [] => none
  | nleft + 1, .failed errno :: _ =>
      if errno.interrupts then
        if count = nleft + 1 then some (netSofterror, 1)
        else some (int32 (count - (nleft + 1) : ℤ), 1)
      else if errno = .code .nobufs then some (netSofterror, 1)
      else some (netHarderror, 1)
  | nleft + 1, .transferred n :: results =>
      if n = 0 then some (netSofterror, 1)
      else (nwriteLoop count (nleft + 1 - n) results).map (Prod.map id (· + 1))

def nwrite (count : ℕ) (results : List CallResult) : Option (ℤ × ℕ) :=
  nwriteLoop count count results

def nrecvLoop (count : ℕ) : ℕ → List CallResult → Option (ℤ × ℕ)
  | 0, _ => some (int32 count, 0)
  | _ + 1, [] => none
  | nleft + 1, .failed errno :: _ =>
      if errno.interrupts then some (int32 (count - (nleft + 1) : ℤ), 1)
      else some (netHarderror, 1)
  | nleft + 1, .transferred n :: results =>
      if n = 0 then some (int32 (count - (nleft + 1) : ℤ), 1)
      else (nrecvLoop count (nleft + 1 - n) results).map (Prod.map id (· + 1))

/-- `Nrecv_no_select` without socket options. -/
def nrecvNoSelectResult (count : ℕ) (results : List CallResult) : Option (ℤ × ℕ) :=
  nrecvLoop count count results

/-! ## The translation -/

theorem interrupts_win32 (e : SocketError) :
    (win32WsaToErrno e).interrupts = (Errno.code e).interrupts := by
  cases e <;> rfl

theorem nobufs_win32 (e : SocketError) : win32WsaToErrno e ≠ .code .nobufs := by
  cases e <;> simp [win32WsaToErrno]

/-- Buffers run out before all of `nleft` bytes are written. -/
def BuffersRunOut : ℕ → List SocketOutcome → Prop
  | 0, _ | _ + 1, [] => False
  | _ + 1, .failed failure :: _ => failure.code = .nobufs
  | nleft + 1, .transferred n :: outcomes => n ≠ 0 ∧ BuffersRunOut (nleft + 1 - n) outcomes

theorem nrecvLoop_agrees (count nleft : ℕ) (outcomes : List SocketOutcome) :
    nrecvLoop count nleft (outcomes.map iperfWin32Call) =
      nrecvLoop count nleft (outcomes.map posixCall) := by
  induction outcomes generalizing nleft with
  | nil => rfl
  | cons outcome outcomes ih =>
      cases nleft with
      | zero => rfl
      | succ nleft =>
          cases outcome with
          | failed failure =>
              simp only [List.map_cons, iperfWin32Call, posixCall, nrecvLoop, interrupts_win32]
          | transferred n =>
              simp only [List.map_cons, iperfWin32Call, posixCall, nrecvLoop, ih]

theorem nwriteLoop_agrees_iff (count nleft : ℕ) (outcomes : List SocketOutcome) :
    nwriteLoop count nleft (outcomes.map iperfWin32Call) =
        nwriteLoop count nleft (outcomes.map posixCall) ↔
      ¬ BuffersRunOut nleft outcomes := by
  have hsucc : Function.Injective (Prod.map (id : ℤ → ℤ) (· + 1 : ℕ → ℕ)) :=
    Function.injective_id.prodMap (add_left_injective 1)
  induction outcomes generalizing nleft with
  | nil => cases nleft <;> simp [nwriteLoop, BuffersRunOut]
  | cons outcome outcomes ih =>
      cases nleft with
      | zero => simp [nwriteLoop, BuffersRunOut]
      | succ nleft =>
          cases outcome with
          | transferred n =>
              simp only [List.map_cons, iperfWin32Call, posixCall, nwriteLoop, BuffersRunOut]
              by_cases hzero : n = 0
              · simp [hzero]
              · rw [if_neg hzero, if_neg hzero, (Option.map_injective hsucc).eq_iff]
                refine (ih (nleft + 1 - n)).trans (not_congr ?_)
                simp [hzero]
          | failed failure =>
              simp only [List.map_cons, iperfWin32Call, posixCall, nwriteLoop, BuffersRunOut,
                interrupts_win32, if_neg (nobufs_win32 failure.code)]
              by_cases hnobufs : failure.code = .nobufs
              · simp [hnobufs, Errno.interrupts, netSofterror, netHarderror]
              · simp [hnobufs]

/-- The loops come to the same result after the same number of calls as on
POSIX, exactly if no write ends because buffers have run out. -/
theorem socket_loops_agree_iff (count : ℕ) (outcomes : List SocketOutcome) :
    nwrite count (outcomes.map iperfWin32Call) = nwrite count (outcomes.map posixCall) ∧
        nrecvNoSelectResult count (outcomes.map iperfWin32Call) =
          nrecvNoSelectResult count (outcomes.map posixCall) ↔
      ¬ BuffersRunOut count outcomes :=
  ⟨fun h => (nwriteLoop_agrees_iff count count outcomes).mp h.1,
    fun h => ⟨(nwriteLoop_agrees_iff count count outcomes).mpr h,
      nrecvLoop_agrees count count outcomes⟩⟩

/-- A write that runs out of buffers is a soft error on POSIX and a hard one on
Windows. -/
theorem nobufs_hard_on_windows :
    nwrite 1460 ([.failed ⟨.nobufs, by decide⟩].map posixCall) = some (netSofterror, 1) ∧
      nwrite 1460 ([.failed ⟨.nobufs, by decide⟩].map iperfWin32Call) = some (netHarderror, 1) ∧
      netHarderror ≠ netSofterror := by
  decide

end Iperf3
