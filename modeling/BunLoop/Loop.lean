import BunLoop.Links

/-!
# The loop's data

The heap `loop.c` reads and writes, one map per field from addresses to values. `linkSocket`,
`unlinkSocket`, `contextRef` and `socketClose` live in `context.c` and `socket.c`, which are not
in the sources; they are modelled from the spec.
-/

namespace BunLoop

open Function

/-- A poll's interest mask, or the events the poller reports for it: the two bits
`LIBUS_SOCKET_READABLE` and `LIBUS_SOCKET_WRITABLE`. -/
structure Events where
  readable : Bool
  writable : Bool
  deriving DecidableEq, Repr

namespace Events

def onlyReadable (e : Events) : Events := ⟨e.readable, false⟩

def onlyWritable (e : Events) : Events := ⟨false, e.writable⟩

def withReadable (e : Events) : Events := ⟨true, e.writable⟩

@[simp] theorem onlyReadable_readable (e : Events) : e.onlyReadable.readable = e.readable := rfl
@[simp] theorem onlyWritable_readable (e : Events) : e.onlyWritable.readable = false := rfl
@[simp] theorem withReadable_readable (e : Events) : e.withReadable.readable = true := rfl

end Events

/-- The heap seen by `loop.c`. Socket fields (`s->…`), context fields (`context->…`) and loop
fields (`loop->data.…`) keep their C names. `sockets` holds `s->next` and `s->prev`, one pair of
fields for a context's list, the low-priority queue and the closed list; `contexts` holds
`context->next` and `context->prev`, for the loop's list and (through `next` only) the
closed-context list. `timeout` and `longTimeout` are 255 when disarmed; `events` is
`us_poll_events(&s->p)`. `linkRef` is how much linking a socket into a context changes the
context's refcount: `context.c` is not in the sources, so the amount is left open. -/
structure Loop where
  sockets : Links
  context : Nat → Nat
  timeout : Nat → UInt8
  longTimeout : Nat → UInt8
  lowPrioState : Nat → Nat
  events : Nat → Events
  closed : Nat → Bool
  shutDown : Nat → Bool
  allowHalfOpen : Nat → Bool
  isIpc : Nat → Bool
  contexts : Links
  headSockets : Nat → Option Nat
  iterator : Nat → Option Nat
  globalTick : Nat → UInt32
  timestamp : Nat → UInt8
  longTimestamp : Nat → UInt8
  refCount : Nat → Int
  linkRef : Int
  head : Option Nat
  loopIterator : Option Nat
  lowPrioHead : Option Nat
  lowPrioBudget : Int
  closedHead : Option Nat
  closedContextHead : Option Nat
  lastWriteFailed : Bool
  numReadyPolls : Nat

namespace Loop

/-- The heap of a loop that `us_internal_loop_data_init` has just set up: the loop was allocated
with `calloc`, so every pointer is NULL and every count and flag 0; no context and no socket is
linked yet. -/
def init : Loop where
  sockets := ⟨fun _ => none, fun _ => none⟩
  context _ := 0
  timeout _ := 0
  longTimeout _ := 0
  lowPrioState _ := 0
  events _ := ⟨false, false⟩
  closed _ := false
  shutDown _ := false
  allowHalfOpen _ := false
  isIpc _ := false
  contexts := ⟨fun _ => none, fun _ => none⟩
  headSockets _ := none
  iterator _ := none
  globalTick _ := 0
  timestamp _ := 0
  longTimestamp _ := 0
  refCount _ := 0
  linkRef := 1
  head := none
  loopIterator := none
  lowPrioHead := none
  lowPrioBudget := 0
  closedHead := none
  closedContextHead := none
  lastWriteFailed := false
  numReadyPolls := 0

def pollChange (st : Loop) (s : Nat) (e : Events) : Loop :=
  { st with events := update st.events s e }

def contextRef (st : Loop) (c : Nat) : Loop :=
  { st with refCount := update st.refCount c (st.refCount c + 1) }

/-- Modelled from the spec: `us_internal_socket_context_link_socket` (in `context.c`, not in the
sources) links the socket at the head of the context's socket list and makes the context its
own; it changes the context's refcount by `linkRef`. -/
def linkSocket (st : Loop) (c s : Nat) : Loop :=
  { st with
    sockets := st.sockets.pushFront (st.headSockets c) s
    headSockets := update st.headSockets c (some s)
    context := update st.context s c
    refCount := update st.refCount c (st.refCount c + st.linkRef) }

/-- Modelled from the spec: `us_internal_socket_context_unlink_socket` (in `context.c`, not in
the sources) unlinks the socket from the context's socket list, first moving the context's
sweep iterator on when it holds that socket ("re-entrancy-safe with iteration"); it changes the
context's refcount by `-linkRef`. -/
def unlinkSocket (st : Loop) (c s : Nat) : Loop :=
  let r := st.sockets.unlink (st.headSockets c) s
  { st with
    iterator := if st.iterator c = some s then update st.iterator c (st.sockets.next s)
      else st.iterator
    sockets := r.1
    headSockets := update st.headSockets c r.2
    refCount := update st.refCount c (st.refCount c - st.linkRef) }

/-- Modelled from the spec: `us_socket_close` (in `socket.c`, not in the sources). Closing a
closed socket does nothing. Otherwise the socket is unlinked from the list it is in (the
low-priority queue when `low_prio_state` is 1, its context's list otherwise), its poll is
stopped, and it is pushed on the loop's closed list, to be freed at the post-hook. -/
def socketClose (st : Loop) (s : Nat) : Loop :=
  if st.closed s then st
  else
    let st := if st.lowPrioState s = 1 then
        let r := st.sockets.unlink st.lowPrioHead s
        { st with sockets := r.1, lowPrioHead := r.2 }
      else st.unlinkSocket (st.context s) s
    { st with
      events := update st.events s ⟨false, false⟩
      closed := update st.closed s true
      sockets := { st.sockets with next := update st.sockets.next s st.closedHead }
      closedHead := some s }

theorem socketClose_closed (st : Loop) (s : Nat) :
    (st.socketClose s).closed = update st.closed s true := by
  unfold socketClose
  split_ifs with h
  · funext y
    by_cases e : y = s
    · subst e; simpa using h
    · simp [update_noteq e]
  all_goals rfl

end Loop

end BunLoop
