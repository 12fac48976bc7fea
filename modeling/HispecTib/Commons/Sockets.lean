import HispecTib.Base.Prog
import HispecTib.Commons.Network
import Mathlib.Data.Finset.Basic

/-!
# Socket utilities (`network.c`)

* `SocketCall`: one call into the socket layer. A call that fails returns -1 and sets `errno`.
* `SocketLayer`: how the layer answers in a given state. Its laws are what the utilities rely on: an
  error number is positive, a new descriptor is not in use, and a `close` that succeeds leaves
  `errno` alone, which is read only after it. What another call that succeeds leaves there is open.
* `Sockets`: the open descriptors, `errno`, and the record of the calls and sleeps.

A `close` that fails leaves its descriptor open.
-/

namespace Tib

/-! ## The socket layer -/

/-- A `struct timeval`: seconds and microseconds. -/
structure Timeval where
  sec : Int
  usec : Int
deriving DecidableEq

inductive SocketOption where
  | reuseaddr
  | rcvtimeo (timeout : Timeval)
  | sndtimeo (timeout : Timeval)
deriving DecidableEq

/-- The calls, with the descriptor as it is passed; `bind` takes the port in host order. -/
inductive SocketCall where
  | socket (stream : Bool)
  | setsockopt (fd : Int) (opt : SocketOption)
  | bind (fd : Int) (port : UInt16)
  | listen (fd : Int) (backlog : Nat)
  | connect (fd : Int) (addr : Nat)
  | send (fd : Int) (buf : List UInt8)
  | recv (fd : Int) (len : Nat)
  | close (fd : Int)
deriving DecidableEq

/-- A call with its result, or with the error that it sets; or a sleep. -/
inductive SocketEvent where
  | ok (c : SocketCall) (n : Nat)
  | error (c : SocketCall) (errno : Nat)
  | sleep (ms : Nat)
deriving DecidableEq

structure Sockets where
  opened : Finset Int
  errno : Nat
  trace : List SocketEvent

/-- What a call that returned `n` does to the descriptors. -/
def Sockets.apply (s : Sockets) (c : SocketCall) (n : Nat) : Sockets :=
  match c with
  | .socket _ => { s with opened := insert (n : Int) s.opened }
  | .close fd => { s with opened := s.opened.erase fd }
  | _ => s

def Sockets.record (s : Sockets) (e : SocketEvent) : Sockets := { s with trace := s.trace ++ [e] }

structure SocketLayer where
  answer : Sockets → SocketCall → Except Nat Nat
  /-- `errno` after a call that succeeds. -/
  errnoAfter : Sockets → SocketCall → Nat
  errno_pos : ∀ s c e, answer s c = .error e → 0 < e
  fresh : ∀ s stream n, answer s (.socket stream) = .ok n → (n : Int) ∉ s.opened
  close_errno : ∀ s fd n, answer s (.close fd) = .ok n → errnoAfter s (.close fd) = s.errno

variable (net : SocketLayer)

def socketCall (c : SocketCall) : Prog Sockets Int :=
  Prog.act fun s => match net.answer s c with
    | .ok n => (n, { s.apply c n with errno := net.errnoAfter s c }.record (.ok c n))
    | .error e => (-1, { s with errno := e }.record (.error c e))

/-- `return -errno`. -/
def negErrno : Prog Sockets Int := do
  let s ← Prog.get
  return -s.errno

def sleepMsec (ms : Nat) : Prog Sockets Unit := Prog.act fun s => ((), s.record (.sleep ms))

/-! ## The utilities -/

/-- The timeout of `coo_net_tcp_connect` and `coo_net_recv_timeout`, by C division. -/
def timeval (timeoutMs : Int) : Timeval := ⟨timeoutMs.tdiv 1000, timeoutMs.tmod 1000 * 1000⟩

/-- `close(sock); return -errno`. -/
def closeFailed (sock : Int) : Prog Sockets Int := do
  let _ ← socketCall net (.close sock)
  negErrno

def cooNetTcpSocketCreate (port : UInt16) (isServer : Bool) : Prog Sockets Int := do
  let sock ← socketCall net (.socket true)
  if sock < 0 then negErrno
  else
    let _ ← socketCall net (.setsockopt sock .reuseaddr)
    if isServer then
      let rc ← socketCall net (.bind sock port)
      if rc < 0 then closeFailed net sock
      else
        let rc ← socketCall net (.listen sock 5)
        if rc < 0 then closeFailed net sock else return sock
    else return sock

def cooNetUdpSocketCreate (port : UInt16) : Prog Sockets Int := do
  let sock ← socketCall net (.socket false)
  if sock < 0 then negErrno
  else
    let _ ← socketCall net (.setsockopt sock .reuseaddr)
    let rc ← socketCall net (.bind sock port)
    if rc < 0 then closeFailed net sock else return sock

def cooNetTcpConnect (sockfd : Int) (addr : Nat) (timeoutMs : Int) : Prog Sockets Int := do
  let _ ← socketCall net (.setsockopt sockfd (.rcvtimeo (timeval timeoutMs)))
  let _ ← socketCall net (.setsockopt sockfd (.sndtimeo (timeval timeoutMs)))
  let rc ← socketCall net (.connect sockfd addr)
  if rc < 0 then negErrno else return 0

/-- `EAGAIN`, which is also `EWOULDBLOCK`. -/
abbrev eagain : Nat := 11

/-- The loop of `coo_net_send_retry`, by the number of retries that are left. -/
def sendRetryLoop (sockfd : Int) (buf : List UInt8) : Nat → Prog Sockets Int
  | 0 => return negEtimedout
  | left + 1 => do
    let ret ← socketCall net (.send sockfd buf)
    if ret ≥ 0 then return ret
    else
      let s ← Prog.get
      if s.errno ≠ eagain then return -s.errno
      else
        sleepMsec 100
        sendRetryLoop sockfd buf left

def cooNetSendRetry (sockfd : Int) (buf : List UInt8) (maxRetries : Int) : Prog Sockets Int :=
  sendRetryLoop net sockfd buf maxRetries.toNat

/-- The result of `recv`, which is -1 for a failure: no utility but this one returns it as it is. -/
def cooNetRecvTimeout (sockfd : Int) (len : Nat) (timeoutMs : Int) : Prog Sockets Int := do
  let _ ← socketCall net (.setsockopt sockfd (.rcvtimeo (timeval timeoutMs)))
  socketCall net (.recv sockfd len)

end Tib
