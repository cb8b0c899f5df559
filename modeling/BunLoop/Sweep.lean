import BunLoop.ContextLists

/-!
# `us_internal_timer_sweep`

The sweep walks every context of the loop (`sweepContexts`), ticks it (`tick`), and walks its
sockets (`sweepSockets`): a fast seek past sockets whose timeout bytes both miss, and a slow path
(`slowPath`) at a due socket that parks it in `context->iterator`, fires the callbacks and goes
on from wherever the iterator then points. The walks run on fuel, one unit per node visited.
-/

namespace BunLoop

open Function

/-- A context's `on_socket_timeout` and `on_socket_long_timeout`; `none` is NULL. -/
structure TimeoutCallbacks where
  onSocketTimeout : Option (Loop → Nat → Loop)
  onSocketLongTimeout : Option (Loop → Nat → Loop)

/-- One callback invocation of the sweep: which callback, on which socket, the heap in which the
walk examined the socket's timeout byte, and the heap the callback was called on. -/
structure Fired where
  long : Bool
  socket : Nat
  seen : Loop
  given : Loop

def Fired.key (f : Fired) : Bool × Nat := (f.long, f.socket)

namespace Loop

def setTimeout (st : Loop) (s : Nat) (v : UInt8) : Loop :=
  { st with timeout := update st.timeout s v }

def setLongTimeout (st : Loop) (s : Nat) (v : UInt8) : Loop :=
  { st with longTimeout := update st.longTimeout s v }

def setIterator (st : Loop) (c : Nat) (p : Option Nat) : Loop :=
  { st with iterator := update st.iterator c p }

end Loop

/-- Call the callback `f` unless it is NULL: `seen` is the heap in which the walk found the socket
due, `given` the heap after the walk disarmed the timeout. -/
def fire (f : Option (Loop → Nat → Loop)) (long : Bool) (seen given : Loop) (s : Nat) :
    Loop × List Fired :=
  match f with
  | some g => (g given s, [⟨long, s, seen, given⟩])
  | none => (given, [])

/-- The slow path at the due socket `s`: `context->iterator = s`, fire the short timeout if it
matches, then the long one if it matches and the iterator still holds `s`; the third component is
where the walk continues (`s->next` when the iterator still holds `s`, else the iterator). -/
def slowPath (cb : TimeoutCallbacks) (c : Nat) (shortTicks longTicks : UInt8) (st : Loop)
    (s : Nat) : Loop × List Fired × Option Nat :=
  let st₁ := st.setIterator c (some s)
  let r₂ := if shortTicks = st₁.timeout s then
      fire cb.onSocketTimeout false st₁ (st₁.setTimeout s 255) s
    else (st₁, [])
  let r₃ := if r₂.1.iterator c = some s ∧ longTicks = r₂.1.longTimeout s then
      fire cb.onSocketLongTimeout true r₂.1 (r₂.1.setLongTimeout s 255) s
    else (r₂.1, [])
  (r₃.1, r₂.2 ++ r₃.2,
    if some s = r₃.1.iterator c then r₃.1.sockets.next s else r₃.1.iterator c)

/-- The walk over the sockets of context `c` from `s` on. A socket whose two timeout bytes miss is
passed by the fast seek (`s = s->next`); reaching NULL, by the seek (`goto next_context`) or by the
slow path, stores 0 in `context->iterator`. `none` when the fuel runs out. -/
def sweepSockets (cb : TimeoutCallbacks) (c : Nat) (shortTicks longTicks : UInt8) :
    Nat → Loop → Option Nat → Option (Loop × List Fired)
  | 0, _, _ => none
  | _ + 1, st, none => some (st.setIterator c none, [])
  | fuel + 1, st, some s =>
    if shortTicks = st.timeout s ∨ longTicks = st.longTimeout s then
      let r := slowPath cb c shortTicks longTicks st s
      (sweepSockets cb c shortTicks longTicks fuel r.1 r.2.2).map fun w => (w.1, r.2.1 ++ w.2)
    else sweepSockets cb c shortTicks longTicks fuel st (st.sockets.next s)

/-- `short_ticks` for a tick value: `global_tick % 240` stored in an `unsigned char`. -/
def shortTicksOf (g : UInt32) : UInt8 := (g % 240).toUInt8

/-- `long_ticks` for a tick value: `(global_tick / 15) % 240` stored in an `unsigned char`. -/
def longTicksOf (g : UInt32) : UInt8 := (g / 15 % 240).toUInt8

/-- `context->global_tick++`, and the two timestamps computed from the new tick. -/
def Loop.tick (st : Loop) (c : Nat) : Loop :=
  let g := st.globalTick c + 1
  { st with
    globalTick := update st.globalTick c g
    timestamp := update st.timestamp c (shortTicksOf g)
    longTimestamp := update st.longTimestamp c (longTicksOf g) }

def sweepContext (cb : TimeoutCallbacks) (c fuel : Nat) (st : Loop) :
    Option (Loop × List Fired) :=
  let st₁ := st.tick c
  sweepSockets cb c (shortTicksOf (st₁.globalTick c)) (longTicksOf (st₁.globalTick c)) fuel st₁
    (st₁.headSockets c)

/-- The outer loop of the sweep from `loop->data.iterator` on: sweep the context, then
`loop_data->iterator = loop_data->iterator->next`, both fields read after the context's walk
(`none` also when the iterator is then NULL, where the code would fault). -/
def sweepContexts (cb : Nat → TimeoutCallbacks) : Nat → Loop → Option (Loop × List Fired)
  | 0, _ => none
  | fuel + 1, st =>
    match st.loopIterator with
    | none => some (st, [])
    | some c =>
      match sweepContext (cb c) c fuel st with
      | none => none
      | some (st₂, fs) =>
        match st₂.loopIterator with
        | none => none
        | some c₂ =>
          (sweepContexts cb fuel { st₂ with loopIterator := st₂.contexts.next c₂ }).map
            fun w => (w.1, fs ++ w.2)

def timerSweep (cb : Nat → TimeoutCallbacks) (fuel : Nat) (st : Loop) :
    Option (Loop × List Fired) :=
  sweepContexts cb fuel { st with loopIterator := st.head }

def disarmNext (st : Loop) (s : Nat) : Loop := st.setTimeout (s + 1) 255

namespace Loop

variable {st : Loop} {c c' s : Nat} {v : UInt8} {p : Option Nat}

@[simp] theorem setTimeout_sockets : (st.setTimeout s v).sockets = st.sockets := rfl
@[simp] theorem setTimeout_headSockets : (st.setTimeout s v).headSockets = st.headSockets := rfl
@[simp] theorem setTimeout_iterator : (st.setTimeout s v).iterator = st.iterator := rfl
@[simp] theorem setTimeout_longTimeout : (st.setTimeout s v).longTimeout = st.longTimeout := rfl
@[simp] theorem setLongTimeout_sockets : (st.setLongTimeout s v).sockets = st.sockets := rfl
@[simp] theorem setLongTimeout_headSockets :
    (st.setLongTimeout s v).headSockets = st.headSockets := rfl
@[simp] theorem setLongTimeout_iterator : (st.setLongTimeout s v).iterator = st.iterator := rfl
@[simp] theorem setLongTimeout_timeout : (st.setLongTimeout s v).timeout = st.timeout := rfl
@[simp] theorem setIterator_sockets : (st.setIterator c p).sockets = st.sockets := rfl
@[simp] theorem setIterator_headSockets : (st.setIterator c p).headSockets = st.headSockets := rfl
@[simp] theorem setIterator_timeout : (st.setIterator c p).timeout = st.timeout := rfl
@[simp] theorem setIterator_longTimeout : (st.setIterator c p).longTimeout = st.longTimeout := rfl

theorem setIterator_iterator :
    (st.setIterator c p).iterator c' = if c' = c then p else st.iterator c' := by
  by_cases h : c' = c <;> simp [setIterator, h, update_noteq]

@[simp] theorem setIterator_iterator_self : (st.setIterator c p).iterator c = p := by
  simp [setIterator]

theorem Lists.setTimeout {L} (h : st.Lists L) : (st.setTimeout s v).Lists L :=
  ⟨h.holds, h.disjoint⟩
theorem Lists.setLongTimeout {L} (h : st.Lists L) : (st.setLongTimeout s v).Lists L :=
  ⟨h.holds, h.disjoint⟩
theorem Lists.setIterator {L} (h : st.Lists L) : (st.setIterator c p).Lists L :=
  ⟨h.holds, h.disjoint⟩

end Loop

end BunLoop
