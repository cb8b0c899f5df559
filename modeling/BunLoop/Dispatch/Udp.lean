import BunLoop.Loop

/-!
# Dispatching a ready UDP socket

The `POLL_TYPE_UDP` branch of `us_internal_dispatch_ready_poll`. What it cannot see coming, the
receives and what `on_data` and `on_drain` do to `u`, is a `UdpEnv` (`dispatchUdp_safe`).
-/

namespace BunLoop

/-- The result of one `bsd_recvmmsg`: the number of datagrams (`LIBUS_SOCKET_ERROR` is -1), and
whether `bsd_would_block` holds after it. -/
structure UdpRecv where
  packets : Int
  wouldBlock : Bool
  deriving DecidableEq, Repr

/-- What `on_data` or `on_drain` does to `u` before it returns: whether a send it makes would
block, which arms `u`'s writable interest, and whether it closes `u`. -/
structure UdpReply where
  armsWritable : Bool
  closes : Bool
  deriving DecidableEq, Repr

inductive UdpFn
  | recvmmsg | onData | onDrain | pollChange | close
  deriving DecidableEq, Repr

structure UdpCall where
  fn : UdpFn
  closed : Bool
  deriving DecidableEq, Repr

/-- What the branch reads of a `us_udp_socket_t`: `u->closed` and `us_poll_events(&u->p)`. -/
structure Udp where
  closed : Bool
  events : Events
  deriving DecidableEq, Repr

/-- Modelled from the spec: `us_udp_socket_close` (in `udp.c`, not in the sources) stops the
poll and marks the socket closed; its memory is freed at the post-hook. -/
def Udp.close (_ : Udp) : Udp := ⟨true, ⟨false, false⟩⟩

def Udp.armWritable (u : Udp) : Udp := { u with events := ⟨u.events.readable, true⟩ }

/-- Everything the UDP branch cannot see coming: the results of `bsd_recvmmsg` (once they run
out, no datagram is pending and it returns 0), the replies of `on_data` in order (once they run
out, it leaves `u` alone), and the reply of `on_drain`. -/
structure UdpEnv where
  recvs : List UdpRecv
  dataReplies : List UdpReply
  drainReply : UdpReply

/-- A UDP dispatch under way: the socket, the trace, the `on_data` replies left, and `error`,
which a hard receive error sets. -/
structure UdpDispatch where
  udp : Udp
  calls : List UdpCall
  dataReplies : List UdpReply
  error : Int

namespace UdpDispatch

def record (d : UdpDispatch) (fn : UdpFn) : UdpDispatch :=
  { d with calls := d.calls ++ [⟨fn, d.udp.closed⟩] }

def close (d : UdpDispatch) : UdpDispatch :=
  let d := d.record .close
  { d with udp := d.udp.close }

def pollChange (d : UdpDispatch) : UdpDispatch :=
  let d := d.record .pollChange
  { d with udp := { d.udp with events := d.udp.events.onlyReadable } }

def callback (d : UdpDispatch) (fn : UdpFn) (r : UdpReply) : UdpDispatch :=
  let d := d.record fn
  let u := if r.armsWritable then d.udp.armWritable else d.udp
  { d with udp := if r.closes then u.close else u }

def onData (d : UdpDispatch) : UdpDispatch :=
  match d.dataReplies with
  | [] => d.record .onData
  | r :: rest => { d.callback .onData r with dataReplies := rest }

/-- The `do { ... } while (!u->closed)` receive loop: a batch goes to `on_data`; a hard error
sets `error`; a batch of none, or a receive that would block, ends it. -/
def recvLoop : List UdpRecv → UdpDispatch → UdpDispatch
  | [], d => d.record .recvmmsg
  | r :: rs, d =>
    let d := d.record .recvmmsg
    if 0 < r.packets then
      let d := d.onData
      if d.udp.closed then d else recvLoop rs d
    else if r.packets = -1 ∧ r.wouldBlock = false then { d with error := 1 }
    else d

def drain (d : UdpDispatch) (r : UdpReply) : UdpDispatch :=
  let d := d.callback .onDrain r
  if d.udp.closed then d else d.pollChange

def readPhase (d : UdpDispatch) (events : Events) (recvs : List UdpRecv) : UdpDispatch :=
  if events.readable then recvLoop recvs d else d

/-- The writable part: the drain, when the poller reported `u` writable, no hard error came up
and `u` is still open. -/
def writePhase (d : UdpDispatch) (events : Events) (r : UdpReply) : UdpDispatch :=
  if events.writable ∧ d.error = 0 ∧ d.udp.closed = false then d.drain r else d

def errorPhase (d : UdpDispatch) : UdpDispatch :=
  if d.error ≠ 0 ∧ d.udp.closed = false then d.close else d

end UdpDispatch

open UdpDispatch

/-- The `POLL_TYPE_UDP` branch of `us_internal_dispatch_ready_poll` on `u`, with the poller's
`error` and `events`. The `break` after a close in `on_drain` skips only the error close, which a
closed `u` skips anyway. -/
def dispatchUdp (env : UdpEnv) (u : Udp) (error : Int) (events : Events) : UdpDispatch :=
  let d : UdpDispatch := ⟨u, [], env.dataReplies, error⟩
  if u.closed then d
  else ((d.readPhase events env.recvs).writePhase events env.drainReply).errorPhase

namespace UdpDispatch

variable {d : UdpDispatch}

@[simp] theorem record_udp (fn : UdpFn) : (d.record fn).udp = d.udp := rfl
@[simp] theorem record_error (fn : UdpFn) : (d.record fn).error = d.error := rfl
@[simp] theorem close_error : d.close.error = d.error := rfl
@[simp] theorem close_closed : d.close.udp.closed = true := rfl
@[simp] theorem pollChange_error : d.pollChange.error = d.error := rfl
@[simp] theorem callback_error (fn : UdpFn) (r : UdpReply) : (d.callback fn r).error = d.error :=
  rfl

@[simp] theorem onData_error : d.onData.error = d.error := by
  unfold onData
  split <;> rfl

@[simp] theorem drain_error (r : UdpReply) : (d.drain r).error = d.error := by
  dsimp only [drain]
  split <;> rfl

@[simp] theorem writePhase_error (events : Events) (r : UdpReply) :
    (d.writePhase events r).error = d.error := by
  unfold writePhase
  split <;> simp

@[simp] theorem errorPhase_error : d.errorPhase.error = d.error := by
  unfold errorPhase
  split <;> rfl

theorem errorPhase_of_error (e : d.error = 0) : d.errorPhase = d := by
  simp [errorPhase, e]

theorem errorPhase_open (o : d.errorPhase.udp.closed = false) :
    d.error = 0 ∧ d.udp.closed = false := by
  unfold errorPhase at o
  split at o
  · simp at o
  · rename_i h
    exact ⟨by_contra fun e => h ⟨e, o⟩, o⟩

theorem recvLoop_error : ∀ (rs : List UdpRecv) (d : UdpDispatch),
    (recvLoop rs d).error = d.error ∨ (recvLoop rs d).error = 1
  | [], _ => .inl rfl
  | r :: rs, d => by
    simp only [recvLoop]
    split
    · split
      · exact .inl onData_error
      · rcases recvLoop_error rs (d.record .recvmmsg).onData with e | e <;> simp [e]
    · split
      · exact .inr rfl
      · exact .inl rfl

theorem readPhase_error (events : Events) (recvs : List UdpRecv) (e : d.error ≠ 0) :
    (d.readPhase events recvs).error ≠ 0 := by
  unfold readPhase
  split
  · rcases recvLoop_error recvs d with h | h <;> simp [h, e]
  · exact e

theorem writePhase_writable {events : Events} (r : UdpReply) (wr : events.writable = true)
    (e : d.error = 0) (o : (d.writePhase events r).udp.closed = false) :
    (d.writePhase events r).udp.events.writable = false := by
  unfold writePhase at o ⊢
  by_cases go : events.writable ∧ d.error = 0 ∧ d.udp.closed = false
  · rw [if_pos go] at o ⊢
    dsimp only [drain] at o ⊢
    split
    · simp_all
    · rfl
  · rw [if_neg go] at o
    exact absurd ⟨wr, e, o⟩ go

/-! ## The trace -/

/-- A trace in which every call found `u` open and at most one call closed it, none while `u` is
still open. -/
structure Good (d : UdpDispatch) : Prop where
  calls_open : ∀ c ∈ d.calls, c.closed = false
  closes_le : d.calls.countP (·.fn = .close) ≤ 1
  unclosed : d.udp.closed = false → d.calls.countP (·.fn = .close) = 0

theorem Good.append (h : d.Good) (o : d.udp.closed = false) {f : UdpFn} (f_ne : f ≠ .close)
    (u : Udp) (replies : List UdpReply) (error : Int) :
    Good ⟨u, d.calls ++ [⟨f, d.udp.closed⟩], replies, error⟩ := by
  have none : (d.calls ++ [UdpCall.mk f d.udp.closed]).countP (·.fn = .close) = 0 := by
    simp [List.countP_append, h.unclosed o, f_ne]
  refine ⟨fun c hc => ?_, (Nat.le_of_eq none).trans (Nat.zero_le 1), fun _ => none⟩
  rcases List.mem_append.mp hc with hc | hc
  · exact h.calls_open c hc
  · rw [List.mem_singleton.mp hc]
    exact o

theorem Good.record (h : d.Good) (o : d.udp.closed = false) {f : UdpFn} (f_ne : f ≠ .close) :
    (d.record f).Good :=
  h.append o f_ne d.udp d.dataReplies d.error

theorem Good.close (h : d.Good) (o : d.udp.closed = false) : d.close.Good := by
  refine ⟨fun c hc => ?_, ?_, fun e => absurd e (by simp)⟩
  · rcases List.mem_append.mp hc with hc | hc
    · exact h.calls_open c hc
    · rw [List.mem_singleton.mp hc]
      exact o
  · simp [UdpDispatch.close, UdpDispatch.record, List.countP_append, h.unclosed o]

theorem Good.callback (h : d.Good) (o : d.udp.closed = false) {f : UdpFn} (f_ne : f ≠ .close)
    (r : UdpReply) : (d.callback f r).Good :=
  h.append o f_ne (d.callback f r).udp d.dataReplies d.error

theorem Good.pollChange (h : d.Good) (o : d.udp.closed = false) : d.pollChange.Good :=
  h.append o (f := .pollChange) (by decide) d.pollChange.udp d.dataReplies d.error

theorem Good.onData (h : d.Good) (o : d.udp.closed = false) : d.onData.Good := by
  unfold UdpDispatch.onData
  split
  · exact h.record o (by decide)
  · exact h.append o (f := .onData) (by decide) _ _ _

theorem Good.recvLoop : ∀ (rs : List UdpRecv) (d : UdpDispatch), d.Good →
    d.udp.closed = false → (UdpDispatch.recvLoop rs d).Good
  | [], _, h, o => h.record o (by decide)
  | r :: rs, d, h, o => by
    have recorded := h.record o (f := .recvmmsg) (by decide)
    simp only [UdpDispatch.recvLoop]
    split
    · have data := recorded.onData o
      split
      · exact data
      · exact Good.recvLoop rs _ data (Bool.eq_false_iff.mpr ‹_›)
    · split
      · exact h.append o (f := .recvmmsg) (by decide) _ _ _
      · exact recorded

theorem Good.readPhase (h : d.Good) (o : d.udp.closed = false) (events : Events)
    (recvs : List UdpRecv) : (d.readPhase events recvs).Good := by
  unfold UdpDispatch.readPhase
  split
  · exact h.recvLoop recvs d o
  · exact h

theorem Good.writePhase (h : d.Good) (events : Events) (r : UdpReply) :
    (d.writePhase events r).Good := by
  unfold UdpDispatch.writePhase
  split
  · rename_i go
    have called := h.callback go.2.2 (f := .onDrain) (by decide) r
    dsimp only [UdpDispatch.drain]
    split
    · exact called
    · exact called.pollChange (Bool.eq_false_iff.mpr ‹_›)
  · exact h

theorem Good.errorPhase (h : d.Good) : d.errorPhase.Good := by
  unfold UdpDispatch.errorPhase
  split
  · exact h.close ‹_ ∧ _›.2
  · exact h

end UdpDispatch

/-- The UDP branch, whatever its receives return and its callbacks do: every call it makes on
`u` finds `u` open, so `on_data`, `on_drain` and `us_udp_socket_close` never run on a closed
socket; it closes `u` at most once; an error from the poller, or a hard receive error, leaves `u`
closed; and an open `u` reported writable ends without writable interest. -/
theorem dispatchUdp_safe (env : UdpEnv) (u : Udp) (error : Int) (events : Events) :
    (∀ c ∈ (dispatchUdp env u error events).calls, c.closed = false) ∧
      (dispatchUdp env u error events).calls.countP (·.fn = .close) ≤ 1 ∧
      (error ≠ 0 → (dispatchUdp env u error events).error ≠ 0) ∧
      ((dispatchUdp env u error events).error ≠ 0 →
        (dispatchUdp env u error events).udp.closed = true) ∧
      (events.writable = true → (dispatchUdp env u error events).udp.closed = false →
        (dispatchUdp env u error events).udp.events.writable = false) := by
  dsimp only [dispatchUdp]
  split
  · rename_i closed
    exact ⟨fun _ hc => absurd hc (List.not_mem_nil _), by simp, id, fun _ => closed,
      fun _ o => by simp [closed] at o⟩
  · rename_i o
    have start : UdpDispatch.Good ⟨u, [], env.dataReplies, error⟩ :=
      ⟨fun _ hc => absurd hc (List.not_mem_nil _), by simp, fun _ => rfl⟩
    have good := ((start.readPhase (by simpa using o) events env.recvs).writePhase events
      env.drainReply).errorPhase
    refine ⟨good.calls_open, good.closes_le, fun e => ?_, fun e => ?_, fun wr o' => ?_⟩
    · simpa using readPhase_error events env.recvs e
    · by_contra o'
      exact e (by simpa using (errorPhase_open (Bool.eq_false_iff.mpr o')).1)
    · obtain ⟨e, o''⟩ := errorPhase_open o'
      rw [errorPhase_of_error e]
      exact writePhase_writable _ wr (by simpa using e) o''

/-- A hard error on the second receive closes `u`, and the drain it was reported for is skipped. -/
example : (dispatchUdp ⟨[⟨3, false⟩, ⟨-1, false⟩], [], ⟨false, false⟩⟩ ⟨false, ⟨true, true⟩⟩ 0
    ⟨true, true⟩).calls.map (·.fn) = [.recvmmsg, .onData, .recvmmsg, .close] := by decide

end BunLoop
