import BunLoop.LowPriority

/-!
# Dispatching a ready TCP socket

The `POLL_TYPE_SOCKET` branch of `us_internal_dispatch_ready_poll`, phase by phase. What the
dispatch cannot see coming is an `Env`; a `Dispatch` records every call it makes on a socket,
with the socket passed (`none` for NULL) and whether it was closed then.
-/

namespace BunLoop

open Function

/-- The result of one `bsd_recv` / `bsd_recvmsg`: the length it returns (`LIBUS_SOCKET_ERROR` is
-1), whether `bsd_would_block` holds after it, and the descriptor of an `SCM_RIGHTS` message. -/
structure Recv where
  length : Int
  wouldBlock : Bool
  fd : Option Int
  deriving DecidableEq, Repr

inductive Returned
  | given
  | other (s : Nat)
  | null
  deriving DecidableEq, Repr

/-- What a user callback does before it returns: the sockets it closes, in order, whether a write
it makes fails (`last_write_failed`), and the socket it returns. -/
structure Reply where
  closes : List Nat
  writeFailed : Bool
  ret : Returned
  deriving DecidableEq, Repr

/-- The functions the dispatch calls on a socket (`recv` is `bsd_recv` or `bsd_recvmsg` on its
descriptor). -/
inductive Fn
  | isClosed | isShutDown | pollChange | close | isLowPrio | recv | onWritable | onData | onFd
  | onEnd | onOpen
  deriving DecidableEq, Repr

structure Call where
  fn : Fn
  socket : Option Nat
  closed : Bool
  deriving DecidableEq, Repr

/-- Everything a TCP dispatch cannot see coming: `LIBUS_RECV_BUFFER_LENGTH` (a build constant
defined outside the sources), the results of the receive calls (once they run out, a receive
would block), each callback's replies in order (once they run out, it returns its socket), and
the answer of `context->is_low_prio(s)`. -/
structure Env where
  recvBufferLength : Int
  recvs : List Recv
  replies : Fn → List Reply
  lowPrio : Bool

structure Dispatch where
  loop : Loop
  calls : List Call
  replies : Fn → List Reply
  /-- The socket the readable phase tested, and how it admitted it, once it has run. -/
  admitted : Option (Nat × Admission)

namespace Dispatch

def record (d : Dispatch) (fn : Fn) (s : Option Nat) : Dispatch :=
  { d with calls := d.calls ++ [⟨fn, s, s.elim false d.loop.closed⟩] }

/-- `us_socket_is_closed(0, s)`. On NULL the C call faults; the model answers closed. -/
def isClosed (d : Dispatch) (s : Option Nat) : Dispatch × Bool :=
  (d.record .isClosed s, s.elim true d.loop.closed)

def isShutDown (d : Dispatch) (s : Option Nat) : Dispatch × Bool :=
  (d.record .isShutDown s, s.elim false d.loop.shutDown)

def pollChange (d : Dispatch) (s : Option Nat) (f : Events → Events) : Dispatch :=
  let d := d.record .pollChange s
  match s with
  | some x => { d with loop := d.loop.pollChange x (f (d.loop.events x)) }
  | none => d

def close (d : Dispatch) (s : Option Nat) : Dispatch :=
  let d := d.record .close s
  match s with
  | some x => { d with loop := d.loop.socketClose x }
  | none => d

/-- A user callback `fn` on `s`: it does what its next reply says and returns the socket the
reply names. -/
def callback (d : Dispatch) (fn : Fn) (s : Option Nat) : Dispatch × Option Nat :=
  let d := d.record fn s
  match d.replies fn with
  | [] => (d, s)
  | r :: rest =>
    let loop := r.closes.foldl Loop.socketClose d.loop
    ({ d with
        loop := { loop with lastWriteFailed := loop.lastWriteFailed || r.writeFailed }
        replies := update d.replies fn rest },
      match r.ret with
      | .given => s
      | .other x => some x
      | .null => none)

end Dispatch

/-- Where a phase leaves the dispatch: returned, or going on with a socket (NULL possible) and
the `eof` flag. -/
inductive Phase
  | done (d : Dispatch)
  | next (d : Dispatch) (s : Option Nat) (eof : Bool)

def Phase.dispatch : Phase → Dispatch
  | .done d => d
  | .next d _ _ => d

open Dispatch

/-- The writable phase: `on_writable`, then stop polling for writable unless a write failed on a
socket that is not shut down. -/
def writablePhase (d : Dispatch) (s : Nat) (error : Int) (eof : Bool) (events : Events) :
    Phase :=
  if events.writable ∧ error = 0 then
    let d := { d with loop := { d.loop with lastWriteFailed := false } }
    match d.callback .onWritable (some s) with
    | (d, none) => .done d
    | (d, some s) =>
      match d.isClosed (some s) with
      | (d, true) => .done d
      | (d, false) =>
        if d.loop.lastWriteFailed then
          match d.isShutDown (some s) with
          | (d, true) => .next (d.pollChange (some s) Events.onlyReadable) (some s) eof
          | (d, false) => .next d (some s) eof
        else .next (d.pollChange (some s) Events.onlyReadable) (some s) eof
  else .next d (some s) eof

/-- `length >= LIBUS_RECV_BUFFER_LENGTH - 24 * 1024 && length <= LIBUS_RECV_BUFFER_LENGTH`. -/
def BigRead (recvBufferLength length : Int) : Prop :=
  recvBufferLength - 24 * 1024 ≤ length ∧ length ≤ recvBufferLength

instance (r l : Int) : Decidable (BigRead r l) := inferInstanceAs (Decidable (_ ∧ _))

def loopIsntVeryBusyThreshold : Nat := 25

/-- After `bsd_recvmsg` on an IPC socket: a descriptor that came with the data goes to `on_fd`,
and the loop breaks (the flag) when the socket `on_fd` returns is closed. -/
def receiveFd (d : Dispatch) (s : Nat) (r : Recv) : Dispatch × Option Nat × Bool :=
  if d.loop.isIpc s ∧ 0 < r.length ∧ r.fd.isSome then
    let c := d.callback .onFd (some s)
    let k := c.1.isClosed c.2
    (k.1, c.2, k.2)
  else (d, some s, false)

/-- The `do { ... } while (s)` receive loop, from an iteration on the open socket `s`, with
`repeat_recv_count` at `count`. -/
def recvLoop (recvBufferLength error : Int) : List Recv → Dispatch → Nat → Nat → Bool → Phase
  | [], d, s, _, eof => .next (d.record .recv (some s)) (some s) eof
  | r :: rs, d, s, count, eof =>
    match receiveFd (d.record .recv (some s)) s r with
    | (d, s, true) => .next d s eof
    | (d, s, false) =>
      if 0 < r.length then
        match d.callback .onData s with
        | (d, none) => .next d none eof
        | (d, some s) =>
          if BigRead recvBufferLength r.length ∧
              (error ≠ 0 ∨ d.loop.numReadyPolls < loopIsntVeryBusyThreshold) then
            match d.isClosed (some s) with
            | (d, true) => .next d (some s) eof
            | (d, false) =>
              let count := count + if error = 0 then 1 else 0
              if 10 < count ∧ 2 < d.loop.numReadyPolls then .next d (some s) eof
              else recvLoop recvBufferLength error rs d s count eof
          else .next d (some s) eof
      else if r.length = 0 then .next d s true
      else if r.length = -1 ∧ r.wouldBlock = false then .done (d.close s)
      else .next d s eof

/-- The readable phase: the low-priority admission, then the receive loop. A parked socket ends
the dispatch (`break` out of the switch). -/
def readablePhase (env : Env) (d : Dispatch) (s : Nat) (error : Int) (eof : Bool) : Phase :=
  let d := d.record .isLowPrio (some s)
  match admission d.loop s env.lowPrio with
  | (loop, .parked) =>
    .done ({ d with loop := loop, admitted := some (s, .parked) }.record .pollChange (some s))
  | (loop, a) =>
    recvLoop env.recvBufferLength error env.recvs { d with loop := loop, admitted := some (s, a) }
      s 0 eof

def eofPhase (d : Dispatch) (s : Option Nat) (eof : Bool) : Phase :=
  match eof, s with
  | true, some s =>
    match d.isClosed (some s) with
    | (d, true) => .done d
    | (d, false) =>
      match d.isShutDown (some s) with
      | (d, true) => .done (d.close (some s))
      | (d, false) =>
        if d.loop.allowHalfOpen s then
          match (d.pollChange (some s) Events.onlyWritable).callback .onEnd (some s) with
          | (d, s) => .next d s true
        else
          match d.callback .onEnd (some s) with
          | (d, s) => .done (d.close s)
  | eof, s => .next d s eof

def errorPhase (d : Dispatch) (s : Option Nat) (error : Int) : Dispatch :=
  match s with
  | some s => if error ≠ 0 then d.close (some s) else d
  | none => d

def finishDispatch (p : Phase) (error : Int) : Dispatch :=
  match p with
  | .done d => d
  | .next d s eof =>
    match eofPhase d s eof with
    | .done d => d
    | .next d s _ => errorPhase d s error

def dispatchSocket (env : Env) (st : Loop) (s : Nat) (error : Int) (eof : Bool)
    (events : Events) : Dispatch :=
  let afterReadable : Phase :=
    match writablePhase ⟨st, [], env.replies, none⟩ s error eof events with
    | .done d => .done d
    | .next d (some s) eof =>
      if events.readable then readablePhase env d s error eof else .next d (some s) eof
    | .next d none eof => .next d none eof
  finishDispatch afterReadable error

/-- Two callbacks the dispatch does not check for NULL. An `on_end` that returns NULL, on a
socket that does not allow half-open, makes the dispatch close NULL; an `on_fd` that returns NULL
makes it ask whether NULL is closed. -/
theorem dispatchSocket_passes_null :
    (dispatchSocket ⟨524288, [], fun f => if f = .onEnd then [⟨[], false, .null⟩] else [], false⟩
        (Loop.init.linkSocket 0 1) 1 0 true ⟨false, false⟩).calls =
      [⟨.isClosed, some 1, false⟩, ⟨.isShutDown, some 1, false⟩, ⟨.onEnd, some 1, false⟩,
        ⟨.close, none, false⟩] ∧
    (dispatchSocket ⟨524288, [⟨100, false, some 7⟩],
        fun f => if f = .onFd then [⟨[], false, .null⟩] else [], false⟩
        { Loop.init.linkSocket 0 1 with isIpc := fun _ => true } 1 0 false ⟨true, false⟩).calls =
      [⟨.isLowPrio, some 1, false⟩, ⟨.recv, some 1, false⟩, ⟨.onFd, some 1, false⟩,
        ⟨.isClosed, none, false⟩] :=
  ⟨rfl, rfl⟩

/-! ## The accept loop -/

namespace Loop

/-- The socket for a connection the accept loop took, at the address `s` that `us_create_poll`
returned: polled for readable, timers disarmed (255), `low_prio_state` 0, `allow_half_open` from
the listen socket, `is_ipc` 0, and linked into the listen socket's context `c`. -/
def acceptSocket (st : Loop) (c : Nat) (halfOpen : Bool) (s : Nat) : Loop :=
  { st with
    events := update st.events s ⟨true, false⟩
    closed := update st.closed s false
    shutDown := update st.shutDown s false
    timeout := update st.timeout s 255
    longTimeout := update st.longTimeout s 255
    lowPrioState := update st.lowPrioState s 0
    allowHalfOpen := update st.allowHalfOpen s halfOpen
    isIpc := update st.isIpc s false }.linkSocket c s

@[simp] theorem acceptSocket_lowPrioBudget (st : Loop) (c : Nat) (halfOpen : Bool) (s : Nat) :
    (st.acceptSocket c halfOpen s).lowPrioBudget = st.lowPrioBudget := rfl

theorem acceptSocket_lowPrioState (st : Loop) (c : Nat) (halfOpen : Bool) (s : Nat) :
    (st.acceptSocket c halfOpen s).lowPrioState = update st.lowPrioState s 0 := rfl

theorem acceptSocket_closed (st : Loop) (c : Nat) (halfOpen : Bool) (s : Nat) :
    (st.acceptSocket c halfOpen s).closed = update st.closed s false := rfl

theorem acceptSocket_context (st : Loop) (c : Nat) (halfOpen : Bool) (s : Nat) :
    (st.acceptSocket c halfOpen s).context = update st.context s c := rfl

theorem acceptSocket_events (st : Loop) (c : Nat) (halfOpen : Bool) (s : Nat) :
    (st.acceptSocket c halfOpen s).events = update st.events s ⟨true, false⟩ := rfl

end Loop

/-- The accept loop of a listen socket of the context `c`. A connection is the address of its new
socket and whether the listen socket is closed once `on_open` has run on it (only `on_open` can
close it). The loop ends when `bsd_accept_socket` has no connection left, and breaks once the
listen socket is closed. -/
def acceptLoop (c : Nat) (halfOpen : Bool) : List (Nat × Bool) → Dispatch → Dispatch
  | [], d => d
  | (s, listenClosed) :: conns, d =>
    let d := ({ d with loop := d.loop.acceptSocket c halfOpen s }.callback .onOpen (some s)).1
    if listenClosed then d else acceptLoop c halfOpen conns d

end BunLoop
