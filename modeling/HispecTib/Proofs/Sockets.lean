import HispecTib.Commons.Sockets

/-!
# Descriptors and errors of the socket utilities

* `descriptors_balanced`: over any use of the utilities, with calls to `close`, the open descriptors
  are those that the caller was given and has not closed. A creation that fails closes what it
  opened, and reports the error of a call that failed.
* `send_retry_outcomes`: the calls of `coo_net_send_retry` and what it returns after them.

`coo_net_recv_timeout` is the exception to the documented error codes (`recv_failed`). A timeout is
split without loss, and its parts are those of a proper `struct timeval` unless it is negative.
-/

namespace Tib

variable {net : SocketLayer}

/-! ## Single calls -/

/-- `errno` is the error of a call that failed, after the first `start` events. -/
structure Sockets.Failed (start : Nat) (s : Sockets) : Prop where
  errno_pos : 0 < s.errno
  recorded : ∃ c, SocketEvent.error c s.errno ∈ s.trace.drop start

theorem socketCall_ok {s : Sockets} {c : SocketCall} {n : Nat} (h : net.answer s c = .ok n) :
    socketCall net c s =
      ⟨n, { s.apply c n with errno := net.errnoAfter s c }.record (.ok c n), [s]⟩ := by
  simp only [socketCall, Prog.act_run, h]

theorem socketCall_error {s : Sockets} {c : SocketCall} {e : Nat}
    (h : net.answer s c = .error e) :
    socketCall net c s = ⟨-1, { s with errno := e }.record (.error c e), [s]⟩ := by
  simp only [socketCall, Prog.act_run, h]

/-- The calls that neither open nor close a descriptor. -/
def SocketCall.Plain (c : SocketCall) : Prop := ∀ (s : Sockets) (n : Nat), s.apply c n = s

section Events

variable {start : Nat} {es : List SocketEvent} {e e' : SocketEvent}

theorem start_le_append (h : start ≤ es.length) : start ≤ (es ++ [e]).length := by
  rw [List.length_append]
  exact h.trans (Nat.le_add_right _ _)

theorem mem_drop_append (h : start ≤ es.length) :
    e' ∈ (es ++ [e]).drop start ↔ e' ∈ es.drop start ∨ e' = e := by
  rw [List.drop_append_of_le_length h, List.mem_append, List.mem_singleton]

end Events

/-- An `errno` that a call has set. -/
theorem failed_of_error {start : Nat} {s : Sockets} {c : SocketCall} {e : Nat}
    (hs : start ≤ s.trace.length) (h : net.answer s c = .error e) :
    ({ s with errno := e }.record (.error c e)).Failed start :=
  ⟨net.errno_pos s c e h, c, (mem_drop_append hs).mpr (Or.inr rfl)⟩

section Rules

variable {fds : Finset Int} {start : Nat} {sock : Int} {c : SocketCall}

/-- The open descriptors, after at least `start` events. -/
structure Sockets.Has (start : Nat) (fds : Finset Int) (s : Sockets) : Prop where
  opened_eq : s.opened = fds
  start_le : start ≤ s.trace.length

theorem plain_rule (hc : c.Plain) : Triple (Sockets.Has start fds) (fun _ => True)
    (socketCall net c) fun r s => s.Has start fds ∧ (r < 0 → s.Failed start) := by
  intro s hs
  refine ⟨fun _ _ => trivial, ?_⟩
  cases h : net.answer s c with
  | ok n =>
    rw [socketCall_ok h, hc]
    exact ⟨⟨hs.opened_eq, start_le_append hs.start_le⟩,
      fun hneg => absurd hneg (Int.natCast_nonneg n).not_gt⟩
  | error e =>
    rw [socketCall_error h]
    exact ⟨⟨hs.opened_eq, start_le_append hs.start_le⟩, fun _ => failed_of_error hs.start_le h⟩

theorem socket_rule (stream : Bool) : Triple (Sockets.Has start fds) (fun _ => True)
    (socketCall net (.socket stream)) fun r s =>
      (0 ≤ r ∧ r ∉ fds ∧ s.Has start (insert r fds)) ∨
        (r < 0 ∧ s.Has start fds ∧ s.Failed start) := by
  intro s hs
  refine ⟨fun _ _ => trivial, ?_⟩
  cases h : net.answer s (.socket stream) with
  | ok n =>
    rw [socketCall_ok h]
    refine Or.inl ⟨Int.natCast_nonneg n, hs.opened_eq ▸ net.fresh s stream n h, ?_⟩
    exact ⟨congrArg (insert (n : Int)) hs.opened_eq, start_le_append hs.start_le⟩
  | error e =>
    rw [socketCall_error h]
    exact Or.inr ⟨Int.negSucc_lt_zero 0, ⟨hs.opened_eq, start_le_append hs.start_le⟩,
      failed_of_error hs.start_le h⟩

/-- What a creation leaves: a new descriptor, or the old ones and an error code. The creation starts
after `start` events. -/
def Created (fds : Finset Int) (start : Nat) (r : Int) (s : Sockets) : Prop :=
  (0 ≤ r ∧ r ∉ fds ∧ s.opened = insert r fds) ∨ (s.opened = fds ∧ r = -s.errno ∧ s.Failed start)

theorem negErrno_rule : Triple (fun s => s.Has start fds ∧ s.Failed start) (fun _ => True)
    negErrno (Created fds start) := by
  refine Triple.getBind fun s hs => Triple.pure ?_
  rintro _ rfl
  exact Or.inr ⟨hs.1.opened_eq, rfl, hs.2⟩

/-- An open descriptor can be closed. -/
def SocketLayer.Closes (net : SocketLayer) : Prop :=
  ∀ s, ∀ fd ∈ s.opened, ∃ n, net.answer s (.close fd) = .ok n

theorem closeFailed_rule (hclose : net.Closes) (hsock : sock ∉ fds) :
    Triple (fun s => s.Has start (insert sock fds) ∧ s.Failed start) (fun _ => True)
      (closeFailed net sock) (Created fds start) := by
  refine Triple.bind (Q := fun _ s => s.Has start fds ∧ s.Failed start) ?_ fun _ => negErrno_rule
  rintro s ⟨hs, hpos, c, hc⟩
  refine ⟨fun _ _ => trivial, ?_⟩
  obtain ⟨n, hn⟩ := hclose s sock (hs.opened_eq ▸ Finset.mem_insert_self sock fds)
  have hopen : s.opened.erase sock = fds := by rw [hs.opened_eq, Finset.erase_insert hsock]
  rw [socketCall_ok hn, net.close_errno s sock n hn]
  exact ⟨⟨hopen, start_le_append hs.start_le⟩, hpos, c,
    (mem_drop_append hs.start_le).mpr (Or.inl hc)⟩

/-- The part that the two creations share: from a new descriptor, a call that must succeed. -/
theorem created_or_closed (hclose : net.Closes) (hc : c.Plain) (hsock : sock ∉ fds)
    {next : Prog Sockets Int}
    (hnext : Triple (Sockets.Has start (insert sock fds)) (fun _ => True) next
      (Created fds start)) :
    Triple (Sockets.Has start (insert sock fds)) (fun _ => True)
      (do
        let rc ← socketCall net c
        if rc < 0 then closeFailed net sock else next) (Created fds start) := by
  refine (plain_rule hc).bind fun rc => Triple.ite (fun hrc => ?_) fun _ => ?_
  · exact (closeFailed_rule hclose hsock).pre fun s hs => ⟨hs.1, hs.2 hrc⟩
  · exact hnext.pre fun s hs => hs.1

theorem created_pure (h0 : 0 ≤ sock) (hsock : sock ∉ fds) :
    Triple (Sockets.Has start (insert sock fds)) (fun _ => True) (pure sock)
      (Created fds start) :=
  Triple.pure fun _ hs => Or.inl ⟨h0, hsock, hs.opened_eq⟩

/-- A creation: a descriptor, and then what is done with it. -/
theorem creation_rule (stream : Bool) {next : Int → Prog Sockets Int}
    (hnext : ∀ sock, 0 ≤ sock → sock ∉ fds → Triple (Sockets.Has start (insert sock fds))
      (fun _ => True) (next sock) (Created fds start)) :
    Triple (Sockets.Has start fds) (fun _ => True)
      (do
        let sock ← socketCall net (.socket stream)
        if sock < 0 then negErrno
        else
          let _ ← socketCall net (.setsockopt sock .reuseaddr)
          next sock) (Created fds start) := by
  refine (socket_rule stream).bind fun sock => Triple.ite (fun hneg => ?_) fun hneg => ?_
  · refine negErrno_rule.pre fun s hs => ?_
    rcases hs with ⟨h0, -, -⟩ | ⟨-, hopen, hfailed⟩
    · exact absurd hneg h0.not_gt
    · exact ⟨hopen, hfailed⟩
  · by_cases hsock : sock ∉ fds
    · refine Triple.pre (P := Sockets.Has start (insert sock fds)) ?_ fun s hs => ?_
      · refine (plain_rule fun _ _ => rfl).bind fun _ => ?_
        exact (hnext sock (not_lt.mp hneg) hsock).pre fun s hs => hs.1
      · rcases hs with ⟨-, -, hopen⟩ | ⟨hneg', -, -⟩
        · exact hopen
        · exact absurd hneg' hneg
    · rintro s (⟨-, hnot, -⟩ | ⟨hneg', -, -⟩)
      · exact absurd hnot hsock
      · exact absurd hneg' hneg

theorem tcpSocketCreate_rule (hclose : net.Closes) (port : UInt16) (isServer : Bool) :
    Triple (Sockets.Has start fds) (fun _ => True) (cooNetTcpSocketCreate net port isServer)
      (Created fds start) := by
  refine creation_rule true fun sock h0 hsock => Triple.ite (fun _ => ?_) fun _ => ?_
  · refine created_or_closed hclose (fun _ _ => rfl) hsock ?_
    exact created_or_closed hclose (fun _ _ => rfl) hsock (created_pure h0 hsock)
  · exact created_pure h0 hsock

theorem udpSocketCreate_rule (hclose : net.Closes) (port : UInt16) :
    Triple (Sockets.Has start fds) (fun _ => True) (cooNetUdpSocketCreate net port)
      (Created fds start) :=
  creation_rule false fun _ h0 hsock =>
    created_or_closed hclose (fun _ _ => rfl) hsock (created_pure h0 hsock)

end Rules

/-! ## Use -/

/-- What a caller does with the utilities. -/
inductive SocketUse where
  | tcpCreate (port : UInt16) (isServer : Bool)
  | udpCreate (port : UInt16)
  | connect (sockfd : Int) (addr : Nat) (timeoutMs : Int)
  | sendRetry (sockfd : Int) (buf : List UInt8) (maxRetries : Int)
  | recvTimeout (sockfd : Int) (len : Nat) (timeoutMs : Int)
  | close (sockfd : Int)

namespace SocketUse

def run (net : SocketLayer) : SocketUse → Prog Sockets Int
  | .tcpCreate port isServer => cooNetTcpSocketCreate net port isServer
  | .udpCreate port => cooNetUdpSocketCreate net port
  | .connect sockfd addr timeoutMs => cooNetTcpConnect net sockfd addr timeoutMs
  | .sendRetry sockfd buf maxRetries => cooNetSendRetry net sockfd buf maxRetries
  | .recvTimeout sockfd len timeoutMs => cooNetRecvTimeout net sockfd len timeoutMs
  | .close sockfd => socketCall net (.close sockfd)

/-- The descriptors that the caller holds after a use that returned `r`. -/
def held (fds : Finset Int) (r : Int) : SocketUse → Finset Int
  | .tcpCreate _ _ | .udpCreate _ => if r < 0 then fds else insert r fds
  | .close sockfd => fds.erase sockfd
  | _ => fds

end SocketUse

section Uses

variable {fds : Finset Int}

theorem plain_keeps {c : SocketCall} (hc : c.Plain) : Keeps Sockets.opened (socketCall net c) :=
  fun s => (plain_rule hc s ⟨rfl, Nat.zero_le _⟩).2.1.opened_eq

theorem negErrno_keeps : Keeps Sockets.opened negErrno :=
  Keeps.bind Keeps.get fun _ => Keeps.pure _

theorem sendRetryLoop_keeps (sockfd : Int) (buf : List UInt8) (left : Nat) :
    Keeps Sockets.opened (sendRetryLoop net sockfd buf left) := by
  induction left with
  | zero => exact Keeps.pure _
  | succ left ih =>
    refine (plain_keeps fun _ _ => rfl).bind fun ret => ?_
    refine Keeps.ite (fun _ => Keeps.pure _) fun _ => ?_
    refine Keeps.get.bind fun s => Keeps.ite (fun _ => Keeps.pure _) fun _ => ?_
    exact (Keeps.act fun _ => rfl).bind fun _ => ih

/-- **One use.** -/
theorem SocketUse.balanced (hclose : net.Closes) (u : SocketUse) (s : Sockets) :
    (u.run net s).post.opened = u.held s.opened (u.run net s).val := by
  have hstart : s.Has s.trace.length s.opened := ⟨rfl, Nat.le_refl _⟩
  have hcreated {r : Int} {t : Sockets} (h : Created s.opened s.trace.length r t) :
      t.opened = if r < 0 then s.opened else insert r s.opened := by
    rcases h with ⟨h0, -, hopen⟩ | ⟨hopen, hr, hpos, -⟩
    · rw [if_neg h0.not_gt, hopen]
    · rw [if_pos (by omega), hopen]
  cases u with
  | tcpCreate port isServer =>
    exact hcreated (tcpSocketCreate_rule hclose port isServer s hstart).2
  | udpCreate port => exact hcreated (udpSocketCreate_rule hclose port s hstart).2
  | connect sockfd addr timeoutMs =>
    have hkeeps : Keeps Sockets.opened (cooNetTcpConnect net sockfd addr timeoutMs) := by
      refine (plain_keeps fun _ _ => rfl).bind fun _ => ?_
      refine (plain_keeps fun _ _ => rfl).bind fun _ => ?_
      refine (plain_keeps fun _ _ => rfl).bind fun rc => ?_
      exact Keeps.ite (fun _ => negErrno_keeps) fun _ => Keeps.pure _
    exact hkeeps s
  | sendRetry sockfd buf maxRetries => exact sendRetryLoop_keeps sockfd buf _ s
  | recvTimeout sockfd len timeoutMs =>
    have hkeeps : Keeps Sockets.opened (cooNetRecvTimeout net sockfd len timeoutMs) :=
      (plain_keeps fun _ _ => rfl).bind fun _ => plain_keeps fun _ _ => rfl
    exact hkeeps s
  | close sockfd =>
    change (socketCall net (.close sockfd) s).post.opened = s.opened.erase sockfd
    cases h : net.answer s (.close sockfd) with
    | ok n =>
      rw [socketCall_ok h]
      rfl
    | error e =>
      have hnot : sockfd ∉ s.opened := by
        intro hmem
        obtain ⟨n, hn⟩ := hclose s sockfd hmem
        rw [h] at hn
        cases hn
      rw [socketCall_error h, Finset.erase_eq_of_notMem hnot]
      rfl

/-- The uses one after the other, with the descriptors that the caller holds. -/
def runUses (net : SocketLayer) (uses : List SocketUse) (x : Finset Int × Sockets) :
    Finset Int × Sockets :=
  uses.foldl (fun x u => (u.held x.1 (u.run net x.2).val, (u.run net x.2).post)) x

/-- A use that creates a socket. -/
def SocketUse.Creates : SocketUse → Prop
  | .tcpCreate _ _ | .udpCreate _ => True
  | _ => False

/-- **Descriptors are balanced.** If open descriptors can be closed, then after any uses the open
descriptors are those that the caller holds. A further creation then gives a descriptor that is not
held yet, or leaves none open and returns the error of one of its own calls, which failed. -/
theorem descriptors_balanced (hclose : net.Closes) (uses : List SocketUse) (s : Sockets) :
    (runUses net uses (s.opened, s)).2.opened = (runUses net uses (s.opened, s)).1 ∧
      ∀ u : SocketUse, u.Creates →
        Created (runUses net uses (s.opened, s)).1
          (runUses net uses (s.opened, s)).2.trace.length
          (u.run net (runUses net uses (s.opened, s)).2).val
          (u.run net (runUses net uses (s.opened, s)).2).post := by
  have hbalanced : (runUses net uses (s.opened, s)).2.opened =
      (runUses net uses (s.opened, s)).1 := by
    induction uses using List.reverseRecOn with
    | nil => rfl
    | append_singleton uses u ih =>
      rw [runUses, List.foldl_append]
      rw [runUses] at ih
      simp only [List.foldl_cons, List.foldl_nil]
      rw [u.balanced hclose, ih]
  refine ⟨hbalanced, fun u hu => ?_⟩
  rw [← hbalanced]
  cases u with
  | tcpCreate port isServer =>
    exact (tcpSocketCreate_rule hclose port isServer _ ⟨rfl, Nat.le_refl _⟩).2
  | udpCreate port => exact (udpSocketCreate_rule hclose port _ ⟨rfl, Nat.le_refl _⟩).2
  | _ => exact hu.elim

/-- A layer with one descriptor, on which every port is in use: `bind` fails with `EADDRINUSE`. -/
def busyLayer : SocketLayer where
  answer s
    | .socket _ => if 1 ∈ s.opened then .error 23 else .ok 1
    | .bind _ _ => .error 112
    | _ => .ok 0
  errnoAfter s _ := s.errno
  close_errno _ _ _ _ := rfl
  errno_pos s c e h := by
    cases c with
    | socket stream =>
      dsimp only at h
      split at h
      · obtain rfl : 23 = e := Except.error.inj h
        decide
      · cases h
    | bind fd port =>
      obtain rfl : 112 = e := Except.error.inj h
      decide
    | _ => cases h
  fresh s stream n h hmem := by
    dsimp only at h
    split at h
    · cases h
    · obtain rfl : 1 = n := Except.ok.inj h
      contradiction

/-- Two sockets that cannot be bound are closed, and a client socket is kept. -/
theorem busy_balanced :
    let uses : List SocketUse := [.tcpCreate 1883 true, .udpCreate 53, .tcpCreate 0 false]
    (runUses busyLayer uses (∅, ⟨∅, 0, []⟩)).2.opened =
        (runUses busyLayer uses (∅, ⟨∅, 0, []⟩)).1 ∧
      (runUses busyLayer uses (∅, ⟨∅, 0, []⟩)).1 = {1} := by
  have hclose : busyLayer.Closes := fun _ _ _ => ⟨0, rfl⟩
  exact ⟨(descriptors_balanced hclose _ ⟨∅, 0, []⟩).1, by decide⟩

end Uses

/-! ## Retries -/

section Retries

variable {sockfd : Int} {buf : List UInt8}

/-- `k` sends that would have blocked, each with the pause after it. -/
def blockedSends (sockfd : Int) (buf : List UInt8) : Nat → List SocketEvent
  | 0 => []
  | k + 1 => .error (.send sockfd buf) eagain :: .sleep 100 :: blockedSends sockfd buf k

/-- The ways in which `coo_net_send_retry` ends after `k` sends that would have blocked, by what it
returns and what it records. -/
inductive SendOutcome (sockfd : Int) (buf : List UInt8) (left k : Nat) :
    Int → List SocketEvent → Prop
  | exhausted : k = left → SendOutcome sockfd buf left k negEtimedout (blockedSends sockfd buf k)
  | sent (n : Nat) : k < left → SendOutcome sockfd buf left k n
      (blockedSends sockfd buf k ++ [.ok (.send sockfd buf) n])
  | failed (e : Nat) : k < left → 0 < e → e ≠ eagain → SendOutcome sockfd buf left k (-e)
      (blockedSends sockfd buf k ++ [.error (.send sockfd buf) e])

/-- One more send that would have blocked comes first. -/
theorem SendOutcome.blocked {left k : Nat} {r : Int} {es : List SocketEvent}
    (h : SendOutcome sockfd buf left k r es) : SendOutcome sockfd buf (left + 1) (k + 1) r
      (.error (.send sockfd buf) eagain :: .sleep 100 :: es) := by
  cases h with
  | exhausted hk => exact .exhausted (congrArg Nat.succ hk)
  | sent n hk => exact .sent n (Nat.succ_lt_succ hk)
  | failed e hk hpos he => exact .failed e (Nat.succ_lt_succ hk) hpos he

section Rounds

variable {left n e : Nat} {s : Sockets}

theorem sendRetryLoop_sent (h : net.answer s (.send sockfd buf) = .ok n) :
    (sendRetryLoop net sockfd buf (left + 1) s).val = n ∧
      (sendRetryLoop net sockfd buf (left + 1) s).post.trace =
        s.trace ++ [.ok (.send sockfd buf) n] := by
  rw [sendRetryLoop, Prog.bind_run, socketCall_ok h]
  simp [Sockets.apply, Sockets.record]

theorem sendRetryLoop_failed (h : net.answer s (.send sockfd buf) = .error e) (he : e ≠ eagain) :
    (sendRetryLoop net sockfd buf (left + 1) s).val = -e ∧
      (sendRetryLoop net sockfd buf (left + 1) s).post.trace =
        s.trace ++ [.error (.send sockfd buf) e] := by
  rw [sendRetryLoop, Prog.bind_run, socketCall_error h]
  simp [he, Sockets.record]

/-- The state after a send that would have blocked and the pause. -/
def Sockets.paused (s : Sockets) (sockfd : Int) (buf : List UInt8) : Sockets :=
  { s with
    errno := eagain
    trace := s.trace ++ [.error (.send sockfd buf) eagain, .sleep 100] }

theorem sendRetryLoop_blocked (h : net.answer s (.send sockfd buf) = .error eagain) :
    (sendRetryLoop net sockfd buf (left + 1) s).val =
        (sendRetryLoop net sockfd buf left (s.paused sockfd buf)).val ∧
      (sendRetryLoop net sockfd buf (left + 1) s).post =
        (sendRetryLoop net sockfd buf left (s.paused sockfd buf)).post := by
  rw [sendRetryLoop, Prog.bind_run, socketCall_error h]
  simp [Sockets.record, Sockets.paused, sleepMsec]

end Rounds

theorem sendRetryLoop_outcome (net : SocketLayer) (sockfd : Int) (buf : List UInt8) (left : Nat)
    (s : Sockets) : ∃ k es,
      SendOutcome sockfd buf left k (sendRetryLoop net sockfd buf left s).val es ∧
      (sendRetryLoop net sockfd buf left s).post.trace = s.trace ++ es := by
  induction left generalizing s with
  | zero => exact ⟨0, [], .exhausted rfl, (List.append_nil _).symm⟩
  | succ left ih =>
    cases h : net.answer s (.send sockfd buf) with
    | ok n =>
      obtain ⟨hval, htrace⟩ := sendRetryLoop_sent h
      exact ⟨0, _, hval ▸ .sent n (Nat.succ_pos left), htrace⟩
    | error e =>
      by_cases he : e = eagain
      · subst he
        obtain ⟨hval, hpost⟩ := sendRetryLoop_blocked h
        obtain ⟨k, es, hout, htrace⟩ := ih (s.paused sockfd buf)
        refine ⟨k + 1, _, hval ▸ hout.blocked, ?_⟩
        rw [hpost, htrace, Sockets.paused, List.append_assoc]
        rfl
      · obtain ⟨hval, htrace⟩ := sendRetryLoop_failed h he
        exact ⟨0, _, hval ▸ .failed e (Nat.succ_pos left) (net.errno_pos _ _ _ h) he, htrace⟩

/-- **Retries.** Whatever the layer answers, `coo_net_send_retry` makes `k` sends that would have
blocked, each followed by 100 ms of sleep, and then returns: after `max_retries` of them, if that is
positive, `-ETIMEDOUT`; before, the number of bytes of a send, or the error of one. It keeps the
descriptors. -/
theorem send_retry_outcomes (net : SocketLayer) (sockfd : Int) (buf : List UInt8)
    (maxRetries : Int) (s : Sockets) :
    ∃ k es, SendOutcome sockfd buf maxRetries.toNat k
        (cooNetSendRetry net sockfd buf maxRetries s).val es ∧
      (cooNetSendRetry net sockfd buf maxRetries s).post.trace = s.trace ++ es ∧
      (cooNetSendRetry net sockfd buf maxRetries s).post.opened = s.opened := by
  obtain ⟨k, es, hout, htrace⟩ := sendRetryLoop_outcome net sockfd buf maxRetries.toNat s
  exact ⟨k, es, hout, htrace, sendRetryLoop_keeps sockfd buf _ s⟩

end Retries

/-! ## Timeouts and receiving -/

/-- The two parts of a timeout give it back. -/
theorem timeval_total (timeoutMs : Int) :
    (timeval timeoutMs).sec * 1000000 + (timeval timeoutMs).usec = timeoutMs * 1000 := by
  have hdiv := Int.mul_tdiv_add_tmod timeoutMs 1000
  simp only [timeval]
  omega

/-- They are a proper `struct timeval` exactly if the timeout is not negative. -/
theorem timeval_proper_iff (timeoutMs : Int) :
    (0 ≤ (timeval timeoutMs).sec ∧ 0 ≤ (timeval timeoutMs).usec ∧
      (timeval timeoutMs).usec < 1000000) ↔ 0 ≤ timeoutMs := by
  have hdiv := Int.mul_tdiv_add_tmod timeoutMs 1000
  simp only [timeval]
  constructor
  · rintro ⟨hsec, husec, -⟩
    omega
  · intro h
    have hmod := Int.tmod_nonneg 1000 h
    have hlt := Int.tmod_lt_of_pos timeoutMs (show (0 : Int) < 1000 by decide)
    have hsec := Int.tdiv_nonneg h (show (0 : Int) ≤ 1000 by decide)
    omega

/-- A failure of `coo_net_recv_timeout` is -1, whatever the error is. -/
theorem recv_failed (net : SocketLayer) (sockfd : Int) (len : Nat) (timeoutMs : Int) (s : Sockets)
    (h : (cooNetRecvTimeout net sockfd len timeoutMs s).val < 0) :
    (cooNetRecvTimeout net sockfd len timeoutMs s).val = -1 := by
  rw [cooNetRecvTimeout, Prog.bind_run] at h ⊢
  generalize (socketCall net (.setsockopt sockfd (.rcvtimeo (timeval timeoutMs))) s).post = t at *
  cases hrecv : net.answer t (.recv sockfd len) with
  | ok n =>
    rw [socketCall_ok hrecv] at h
    exact absurd h (Int.natCast_nonneg n).not_gt
  | error e => rw [socketCall_error hrecv]

end Tib
