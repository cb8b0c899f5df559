import BunLoop.Links

/-!
# Handing DNS results to the loop

Resolver threads push connecting sockets on `loop->data.dns_ready_head` under the loop's mutex;
at each hook the loop thread takes the whole list under the mutex and, with it released, walks
what it took, calling `us_internal_socket_after_resolve` on each socket, which may push again. A
push's locked section is one step, taken only while the mutex is free, and may come between any
two steps of the loop thread. `dns_handoff_exactly_once` holds on every reachable state.
-/

namespace BunLoop

open Function

inductive Hook
  | pre
  | post
  deriving DecidableEq, Repr

/-- The log of a run: pushes, calls of `after_resolve`, and the hooks' `pre_cb` / `post_cb`. -/
inductive DnsEvent
  | pushed (c req : Nat)
  /-- `us_internal_socket_after_resolve(c)`, which reads `c->addrinfo_req = req`. -/
  | resolved (c req : Nat)
  | callback (hook : Hook)
  deriving DecidableEq, Repr

/-- Where the loop thread is: outside `us_internal_handle_dns_results`; in it, in a hook, holding
the mutex before it takes the list; or walking the list it took, at `s`, where `since` is the
log's length when it took the list. -/
inductive LoopThread
  | running
  | locked (hook : Hook)
  | draining (hook : Hook) (s : Option Nat) (since : Nat)
  deriving DecidableEq, Repr

def LoopThread.cursor : LoopThread → Option Nat
  | .draining _ s _ => s
  | _ => none

/-- The DNS hand-off's state: `loop->data.dns_ready_head`, each connecting socket's `next` and
`addrinfo_req`, whether `loop->data.mutex` is held, the loop thread, and the log. -/
structure Dns where
  dnsReadyHead : Option Nat
  next : Nat → Option Nat
  addrinfoReq : Nat → Nat
  mutex : Bool
  loopThread : LoopThread
  log : List DnsEvent

def pushesOf (c : Nat) : List DnsEvent → List Nat :=
  List.filterMap fun
    | .pushed c' req => if c' = c then some req else none
    | _ => none

def resolvesOf (c : Nat) : List DnsEvent → List Nat :=
  List.filterMap fun
    | .resolved c' req => if c' = c then some req else none
    | _ => none

namespace Dns

def init : Dns := ⟨none, fun _ => none, fun _ => 0, false, .running, []⟩

/-- `us_internal_dns_callback(c, req)`, its locked section. -/
def dnsCallback (st : Dns) (c req : Nat) : Dns :=
  { st with
    addrinfoReq := update st.addrinfoReq c req
    next := update st.next c st.dnsReadyHead
    dnsReadyHead := some c
    log := st.log ++ [.pushed c req] }

/-- `Bun__lock(&loop->data.mutex)` at the start of `us_internal_handle_dns_results` in a hook. -/
def lockDnsResults (st : Dns) (hook : Hook) : Dns :=
  { st with mutex := true, loopThread := .locked hook }

/-- The rest of its locked section: take the list, leave none, and `Bun__unlock`. -/
def handleDnsResults (st : Dns) (hook : Hook) : Dns :=
  { st with
    dnsReadyHead := none
    mutex := false
    loopThread := .draining hook st.dnsReadyHead st.log.length }

/-- One pass of `us_internal_drain_pending_dns_resolve`: `next = s->next`, then
`us_internal_socket_after_resolve(s)`, then `s = next`. -/
def drainPendingDnsResolve (st : Dns) : Dns :=
  match st.loopThread with
  | .draining hook (some s) since =>
    { st with
      loopThread := .draining hook (st.next s) since
      log := st.log ++ [.resolved s (st.addrinfoReq s)] }
  | _ => st

def finishHook (st : Dns) : Dns :=
  match st.loopThread with
  | .draining hook none _ => { st with loopThread := .running, log := st.log ++ [.callback hook] }
  | _ => st

/-- One step: a push, under a free mutex, of a socket whose previous push has had its
`after_resolve`; the loop thread taking the mutex in a hook, then the list; one pass of its walk;
or the end of the hook. -/
inductive Step : Dns → Dns → Prop
  | push {st} (c req : Nat) (free : st.mutex = false)
      (resolved : (resolvesOf c st.log).length = (pushesOf c st.log).length) :
      Step st (st.dnsCallback c req)
  | lock {st} (hook : Hook) (idle : st.loopThread = .running) (free : st.mutex = false) :
      Step st (st.lockDnsResults hook)
  | hook {st hook} (locked : st.loopThread = .locked hook) : Step st (st.handleDnsResults hook)
  | drain {st hook s since} (busy : st.loopThread = .draining hook (some s) since) :
      Step st st.drainPendingDnsResolve
  | finish {st hook since} (done : st.loopThread = .draining hook none since) :
      Step st st.finishHook

def Reachable (st : Dns) : Prop := Relation.ReflTransGen Step init st

end Dns

/-! ## The log -/

section Log

variable (c : Nat) (l l' : List DnsEvent)

@[simp] theorem pushesOf_append : pushesOf c (l ++ l') = pushesOf c l ++ pushesOf c l' :=
  List.filterMap_append _ _ _
@[simp] theorem resolvesOf_append : resolvesOf c (l ++ l') = resolvesOf c l ++ resolvesOf c l' :=
  List.filterMap_append _ _ _

@[simp] theorem pushesOf_pushed (c' req : Nat) :
    pushesOf c [.pushed c' req] = if c' = c then [req] else [] := by
  by_cases e : c' = c <;> simp [pushesOf, e]
@[simp] theorem resolvesOf_resolved (c' req : Nat) :
    resolvesOf c [.resolved c' req] = if c' = c then [req] else [] := by
  by_cases e : c' = c <;> simp [resolvesOf, e]
@[simp] theorem pushesOf_resolved (c' req : Nat) : pushesOf c [.resolved c' req] = [] := rfl
@[simp] theorem resolvesOf_pushed (c' req : Nat) : resolvesOf c [.pushed c' req] = [] := rfl
@[simp] theorem pushesOf_callback (h : Hook) : pushesOf c [.callback h] = [] := rfl
@[simp] theorem resolvesOf_callback (h : Hook) : resolvesOf c [.callback h] = [] := rfl

end Log

theorem eq_append_of_prefix {r p : List Nat} {x : Nat} (pre : r.IsPrefix p)
    (len : p.length = r.length + 1) (last : p.getLast? = some x) : p = r ++ [x] := by
  obtain ⟨t, rfl⟩ := pre
  obtain ⟨y, rfl⟩ := List.length_eq_one.mp (by simpa using len)
  simp_all

/-! ## The invariant -/

namespace Dns

variable {st : Dns} {shared rest : List Nat}

/-- The ready list holds `shared`, and the part of the taken list still to walk holds `rest`:
the sockets whose last push has had no `after_resolve` yet. Only the loop thread holds the mutex,
between its lock and its take. -/
structure Inv (st : Dns) (shared rest : List Nat) : Prop where
  ready : Path st.next none st.dnsReadyHead shared
  taken : Path st.next none st.loopThread.cursor rest
  nodup : (shared ++ rest).Nodup
  matched : ∀ c, (resolvesOf c st.log).IsPrefix (pushesOf c st.log)
  outstanding : ∀ c, (pushesOf c st.log).length =
    (resolvesOf c st.log).length + if c ∈ shared ++ rest then 1 else 0
  stored : ∀ c ∈ shared ++ rest, (pushesOf c st.log).getLast? = some (st.addrinfoReq c)
  held : st.mutex = true → ∃ hook, st.loopThread = .locked hook
  /-- What was pushed before the walk's list was taken is called, or still to walk. -/
  detached : ∀ hook s since, st.loopThread = .draining hook s since → since ≤ st.log.length ∧
    ∀ c, (pushesOf c (st.log.take since)).length ≤
      (resolvesOf c st.log).length + if c ∈ rest then 1 else 0

theorem init_inv : init.Inv [] [] where
  ready := .nil
  taken := .nil
  nodup := List.nodup_nil
  matched _ := List.nil_prefix
  outstanding _ := rfl
  stored _ h := (List.not_mem_nil _ h).elim
  held h := Bool.noConfusion h
  detached _ _ _ h := LoopThread.noConfusion h

theorem Inv.free (inv : st.Inv shared rest) (out : ∀ hook, st.loopThread ≠ .locked hook) :
    st.mutex = false :=
  Bool.eq_false_iff.mpr fun h => (inv.held h).elim out

theorem Inv.walked (inv : st.Inv shared rest) (h : st.loopThread.cursor = none) : rest = [] :=
  List.head?_eq_none_iff.mp (inv.taken.start_eq_head.symm.trans h)

theorem Inv.all_resolved (inv : st.Inv [] []) (c : Nat) : resolvesOf c st.log = pushesOf c st.log :=
  (inv.matched c).eq_of_length (by simpa using (inv.outstanding c).symm)

/-! ## One step -/

theorem Inv.push (inv : st.Inv shared rest) {c req : Nat}
    (resolved : (resolvesOf c st.log).length = (pushesOf c st.log).length) :
    (st.dnsCallback c req).Inv (c :: shared) rest := by
  have out : c ∉ shared ++ rest := fun hc => by
    have := inv.outstanding c
    simp only [hc, if_true] at this
    omega
  have agree : ∀ y ∈ shared ++ rest, (st.dnsCallback c req).next y = st.next y :=
    fun y hy => update_noteq (fun (e : y = c) => out (e ▸ hy)) _ _
  refine ⟨.cons ?_, inv.taken.congr fun y hy => agree y (List.mem_append_right _ hy),
    List.nodup_cons.mpr ⟨out, inv.nodup⟩, fun d => ?_, fun d => ?_, fun d hd => ?_, inv.held, ?_⟩
  · rw [show (st.dnsCallback c req).next c = st.dnsReadyHead from update_same _ _ _]
    exact inv.ready.congr fun y hy => agree y (List.mem_append_left _ hy)
  · by_cases e : c = d
    · subst e
      simpa [dnsCallback] using (inv.matched c).trans (List.prefix_append _ _)
    · simpa [dnsCallback, e] using inv.matched d
  · by_cases e : c = d
    · subst e
      simp [dnsCallback, resolved]
    · simpa [dnsCallback, e, Ne.symm e] using inv.outstanding d
  · by_cases e : c = d
    · subst e
      simp [dnsCallback]
    · have hd' : d ∈ shared ++ rest := by simpa [Ne.symm e] using hd
      simpa [dnsCallback, e, Ne.symm e] using inv.stored d hd'
  · intro hook s since busy
    obtain ⟨le, bound⟩ := inv.detached hook s since busy
    refine ⟨by simp only [dnsCallback, List.length_append]; omega, fun d => ?_⟩
    simpa [dnsCallback, List.take_append_of_le_length le] using bound d

theorem Inv.lock (inv : st.Inv shared rest) (hook : Hook) (idle : st.loopThread = .running) :
    (st.lockDnsResults hook).Inv shared rest := by
  have taken := inv.taken
  rw [idle] at taken
  exact ⟨inv.ready, taken, inv.nodup, inv.matched, inv.outstanding, inv.stored,
    fun _ => ⟨hook, rfl⟩, fun _ _ _ h => LoopThread.noConfusion h⟩

theorem Inv.hook (inv : st.Inv shared rest) {hook : Hook} (locked : st.loopThread = .locked hook) :
    (st.handleDnsResults hook).Inv [] shared := by
  obtain rfl := inv.walked (by rw [locked]; rfl)
  refine ⟨.nil, inv.ready, by simpa using inv.nodup, inv.matched, fun d => ?_,
    fun d hd => inv.stored d (by simpa using hd), nofun, ?_⟩
  · simpa using inv.outstanding d
  · rintro _ _ _ ⟨⟩
    refine ⟨le_refl _, fun d => ?_⟩
    simpa [handleDnsResults] using (inv.outstanding d).le

/-- One pass of the walk calls `after_resolve` on the socket it is at, which reads what that
socket's outstanding push stored, and moves to the next socket taken. -/
theorem Inv.drain (inv : st.Inv shared rest) {hook : Hook} {s : Nat} {since : Nat}
    (busy : st.loopThread = .draining hook (some s) since) :
    ∃ rest', rest = s :: rest' ∧ st.drainPendingDnsResolve.Inv shared rest' := by
  have taken := inv.taken
  rw [busy] at taken
  cases taken with
  | @cons _ rest' tail =>
  refine ⟨rest', rfl, ?_⟩
  have nodup : (shared ++ rest').Nodup := inv.nodup.sublist (by simp)
  have sOut : s ∉ shared ++ rest' := by
    have := List.nodup_middle.mp inv.nodup
    exact (List.nodup_cons.mp this).1
  have hs : s ∈ shared ++ s :: rest' := by simp
  have calls : pushesOf s st.log = resolvesOf s st.log ++ [st.addrinfoReq s] :=
    eq_append_of_prefix (inv.matched s) (by simpa [hs] using inv.outstanding s) (inv.stored s hs)
  have mem : ∀ d, d ≠ s → (d ∈ shared ++ s :: rest' ↔ d ∈ shared ++ rest') := by
    intro d e
    simp [e]
  simp only [drainPendingDnsResolve, busy]
  refine ⟨inv.ready, tail, nodup, fun d => ?_, fun d => ?_, fun d hd => ?_, fun h => ?_, ?_⟩
  · by_cases e : s = d
    · subst e
      simp [calls]
    · simpa [e] using inv.matched d
  · by_cases e : s = d
    · subst e
      simp [calls, sOut]
    · simpa [e, mem d (Ne.symm e)] using inv.outstanding d
  · have e : s ≠ d := fun e => sOut (e ▸ hd)
    simpa using inv.stored d ((mem d (Ne.symm e)).mpr hd)
  · exact Bool.noConfusion (h.symm.trans (inv.free (by simp [busy])))
  · rintro _ _ _ ⟨⟩
    obtain ⟨le, bound⟩ := inv.detached hook (some s) since busy
    refine ⟨by simp only [List.length_append]; omega, fun d => ?_⟩
    have out : s ∉ rest' := fun h => sOut (List.mem_append_right _ h)
    by_cases e : s = d
    · subst e
      simpa [List.take_append_of_le_length le, out] using bound s
    · simpa [List.take_append_of_le_length le, e, Ne.symm e] using bound d

theorem Inv.finish (inv : st.Inv shared rest) {hook : Hook} {since : Nat}
    (done : st.loopThread = .draining hook none since) : st.finishHook.Inv shared [] := by
  obtain rfl := inv.walked (by rw [done]; rfl)
  simp only [finishHook, done]
  exact ⟨inv.ready, .nil, inv.nodup, fun d => by simpa using inv.matched d,
    fun d => by simpa using inv.outstanding d, fun d hd => by simpa using inv.stored d hd,
    fun h => Bool.noConfusion (h.symm.trans (inv.free (by simp [done]))),
    fun _ _ _ h => LoopThread.noConfusion h⟩

theorem Step.inv {st st' : Dns} (step : Step st st') (inv : st.Inv shared rest) :
    ∃ shared' rest', st'.Inv shared' rest' := by
  cases step with
  | push c req _ resolved => exact ⟨_, _, inv.push resolved⟩
  | lock hook idle _ => exact ⟨_, _, inv.lock hook idle⟩
  | hook locked => exact ⟨_, _, inv.hook locked⟩
  | drain busy =>
    obtain ⟨rest', -, inv'⟩ := inv.drain busy
    exact ⟨_, _, inv'⟩
  | finish done => exact ⟨_, _, inv.finish done⟩

/-! ## Every run -/

theorem reachable_inv (reach : st.Reachable) : ∃ shared rest, st.Inv shared rest := by
  induction reach with
  | refl => exact ⟨[], [], init_inv⟩
  | tail _ step ih =>
    obtain ⟨shared, rest, inv⟩ := ih
    exact step.inv inv

/-- The loop thread alone ends the walk, one pass per socket still to walk. -/
theorem Inv.drain_run : ∀ (rest : List Nat) {st : Dns} {hook : Hook} {s : Option Nat}
    {since : Nat}, st.Inv shared rest → st.loopThread = .draining hook s since →
    ∃ n, Relation.ReflTransGen Step st (drainPendingDnsResolve^[n] st) ∧
      (drainPendingDnsResolve^[n] st).loopThread = .draining hook none since ∧
      (drainPendingDnsResolve^[n] st).Inv shared []
  | [], st, _, _, _, inv, busy => by
    have taken := inv.taken
    rw [busy] at taken
    cases taken
    exact ⟨0, .refl, busy, inv⟩
  | x :: rest, st, hook, _, since, inv, busy => by
    have taken := inv.taken
    rw [busy] at taken
    cases taken with
    | cons tail => ?_
    obtain ⟨rest', e, inv'⟩ := inv.drain busy
    obtain rfl := (List.cons.inj e).2
    have busy' : st.drainPendingDnsResolve.loopThread = .draining hook (st.next x) since := by
      simp [drainPendingDnsResolve, busy]
    obtain ⟨n, run, done, inv''⟩ := Inv.drain_run rest inv' busy'
    exact ⟨n + 1, .head (.drain busy) run, done, inv''⟩

theorem Inv.resolve_running (inv : st.Inv shared rest) (idle : st.loopThread = .running) :
    ∃ st', Relation.ReflTransGen Step st st' ∧ ∀ c, resolvesOf c st'.log = pushesOf c st'.log := by
  have locked := inv.lock .pre idle
  have taken := locked.hook rfl
  obtain ⟨n, run, -, walked⟩ := Inv.drain_run shared taken rfl
  exact ⟨_, (((Relation.ReflTransGen.single (.lock .pre idle (inv.free (by simp [idle])))).tail
    (.hook rfl)).trans run), walked.all_resolved⟩

/-- From any state with the invariant, the loop thread alone brings every push to its call. -/
theorem Inv.resolve_all (inv : st.Inv shared rest) :
    ∃ st', Relation.ReflTransGen Step st st' ∧ ∀ c, resolvesOf c st'.log = pushesOf c st'.log := by
  cases e : st.loopThread with
  | running => exact inv.resolve_running e
  | locked hook =>
    obtain ⟨n, run, -, walked⟩ := Inv.drain_run shared (inv.hook e) rfl
    exact ⟨_, (Relation.ReflTransGen.single (.hook e)).trans run, walked.all_resolved⟩
  | draining hook s since =>
    obtain ⟨n, run, done, walked⟩ := Inv.drain_run rest inv e
    obtain ⟨st', run', all⟩ := (walked.finish done).resolve_running (by simp [finishHook, done])
    exact ⟨st', (run.tail (.finish done)).trans run', all⟩

/-- Over every interleaving of pushes, from any thread and from `after_resolve` itself, with the
loop thread's hooks: the calls of `after_resolve` on a socket read, in order, the values its pushes
stored, never outnumber them, and leave at most one push outstanding; the outstanding pushes are
the sockets on the ready list and on the part of the taken list not yet walked, so none is lost;
while the walk is under way the mutex is free, so `after_resolve` runs without it; the walk ends
after one pass per socket it took; when a pre-hook's walk is over, right before `pre_cb`, every
push made before the hook took the list has had its `after_resolve`; and the loop thread alone,
hooking and walking, brings every push to its call. -/
theorem dns_handoff_exactly_once (reach : st.Reachable) :
    (∀ c, (resolvesOf c st.log).IsPrefix (pushesOf c st.log) ∧
        (pushesOf c st.log).length ≤ (resolvesOf c st.log).length + 1) ∧
      (∃ shared rest, Path st.next none st.dnsReadyHead shared ∧
        Path st.next none st.loopThread.cursor rest ∧
        ∀ c, (resolvesOf c st.log).length < (pushesOf c st.log).length ↔ c ∈ shared ++ rest) ∧
      (∀ hook s since, st.loopThread = .draining hook s since → st.mutex = false ∧
        ∃ n, Relation.ReflTransGen Step st (drainPendingDnsResolve^[n] st) ∧
          (drainPendingDnsResolve^[n] st).loopThread = .draining hook none since) ∧
      (∀ since, st.loopThread = .draining .pre none since →
        ∀ c, (pushesOf c (st.log.take since)).length ≤ (resolvesOf c st.log).length) ∧
      ∃ st', Relation.ReflTransGen Step st st' ∧
        ∀ c, resolvesOf c st'.log = pushesOf c st'.log := by
  obtain ⟨shared, rest, inv⟩ := reachable_inv reach
  refine ⟨fun c => ⟨inv.matched c, ?_⟩, ⟨shared, rest, inv.ready, inv.taken, fun c => ?_⟩,
    fun hook s since busy => ⟨inv.free (by simp [busy]), ?_⟩,
    fun since done c => ?_, inv.resolve_all⟩
  · have := inv.outstanding c
    split at this <;> omega
  · have := inv.outstanding c
    by_cases hc : c ∈ shared ++ rest
    · simp only [hc, if_true] at this
      exact iff_of_true (by omega) hc
    · simp only [hc, if_false] at this
      exact iff_of_false (by omega) hc
  · obtain ⟨n, run, done, -⟩ := Inv.drain_run rest inv busy
    exact ⟨n, run, done⟩
  · simpa [inv.walked (by rw [done]; rfl)] using (inv.detached _ _ _ done).2 c

/-- Socket 1 is pushed and the pre-hook takes the list; while it walks, another thread pushes
socket 2, and `after_resolve` on socket 1 pushes socket 1 again. -/
def repush : Dns :=
  (((init.dnsCallback 1 5).lockDnsResults .pre |>.handleDnsResults .pre |>.dnsCallback 2 6)
    |>.drainPendingDnsResolve).dnsCallback 1 7

theorem reachable_repush : repush.Reachable :=
  .tail (.tail (.tail (.tail (.tail (.single (.push 1 5 rfl rfl)) (.lock .pre rfl rfl)) (.hook rfl))
    (.push 2 6 rfl rfl)) (.drain rfl)) (.push 1 7 rfl rfl)

theorem dns_handoff_exactly_once_repush :
    repush.Reachable ∧
    (∀ c, (resolvesOf c repush.log).IsPrefix (pushesOf c repush.log) ∧
        (pushesOf c repush.log).length ≤ (resolvesOf c repush.log).length + 1) ∧
      (∃ shared rest, Path repush.next none repush.dnsReadyHead shared ∧
        Path repush.next none repush.loopThread.cursor rest ∧
        ∀ c, (resolvesOf c repush.log).length < (pushesOf c repush.log).length ↔
          c ∈ shared ++ rest) ∧
      (∀ hook s since, repush.loopThread = .draining hook s since → repush.mutex = false ∧
        ∃ n, Relation.ReflTransGen Step repush (drainPendingDnsResolve^[n] repush) ∧
          (drainPendingDnsResolve^[n] repush).loopThread = .draining hook none since) ∧
      (∀ since, repush.loopThread = .draining .pre none since →
        ∀ c, (pushesOf c (repush.log.take since)).length ≤ (resolvesOf c repush.log).length) ∧
      ∃ st', Relation.ReflTransGen Step repush st' ∧
        ∀ c, resolvesOf c st'.log = pushesOf c st'.log :=
  ⟨reachable_repush, dns_handoff_exactly_once reachable_repush⟩

/-- The walk is over, socket 1's first push has had its call, and both new pushes wait on the
ready list. -/
example : repush.loopThread = .draining .pre none 1 ∧ repush.dnsReadyHead = some 1 ∧
    repush.next 1 = some 2 ∧ resolvesOf 1 repush.log = [5] := by
  decide

end Dns

end BunLoop
