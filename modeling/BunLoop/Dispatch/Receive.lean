import BunLoop.Dispatch.Frame

/-!
# How long the receive loop runs

With `error == 0` and more than two polls ready, the receive loop receives and calls `on_data` at
most 11 times, and once at most when 25 or more polls are ready (`recvLoop_bounded`).
-/

namespace BunLoop

open Function

theorem DispatchEdits.numReadyPolls {a b : Loop} (h : DispatchEdits a b) :
    b.numReadyPolls = a.numReadyPolls := by
  induction h with
  | refl => rfl
  | tail _ e ih =>
    rw [← ih]
    cases e with
    | close x => unfold Loop.socketClose; split_ifs <;> rfl
    | _ => rfl

namespace Dispatch

def count (d : Dispatch) (f : Fn) : Nat := d.calls.countP (·.fn = f)

variable {d : Dispatch} {f g : Fn} {s : Option Nat}

@[simp] theorem count_record : (d.record g s).count f = d.count f + if g = f then 1 else 0 := by
  by_cases h : g = f <;> simp [count, record, List.countP_append, h]

theorem callback_calls : (d.callback g s).1.calls = (d.record g s).calls := by
  dsimp only [callback]
  split <;> rfl

theorem close_calls : (d.close s).calls = (d.record .close s).calls := by
  cases s <;> rfl

@[simp] theorem callback_count : (d.callback g s).1.count f = d.count f + if g = f then 1 else 0 :=
  (congrArg (List.countP _) callback_calls).trans count_record

@[simp] theorem isClosed_count :
    (d.isClosed s).1.count f = d.count f + if .isClosed = f then 1 else 0 :=
  count_record

@[simp] theorem close_count : (d.close s).count f = d.count f + if .close = f then 1 else 0 :=
  (congrArg (List.countP _) close_calls).trans count_record

theorem Follows.numReadyPolls {P : Call → Prop} {d' : Dispatch} (h : Follows P d d') :
    d'.loop.numReadyPolls = d.loop.numReadyPolls :=
  h.edits.numReadyPolls

end Dispatch

open Dispatch

variable {d : Dispatch} {f : Fn}

theorem receiveFd_keeps (s : Nat) (r : Recv) (hf : f = .recv ∨ f = .onData) :
    (receiveFd d s r).1.count f = d.count f ∧
      (receiveFd d s r).1.loop.numReadyPolls = d.loop.numReadyPolls := by
  refine ⟨?_, (receiveFd_follows d s r False False.elim).numReadyPolls⟩
  unfold receiveFd
  split
  · rcases hf with rfl | rfl <;> simp
  · rfl

/-- One round of the receive loop, whatever the receive returns and `on_data` and `on_fd` do: it
makes one receive and at most one `on_data` call, and then either ends the loop, whatever the
receive results left, or goes round again with `repeat_recv_count` one higher, still at most 10,
with `num_ready_polls` unchanged and below `LOOP_ISNT_VERY_BUSY_THRESHOLD`. -/
theorem recvLoop_round (R : Int) (r : Recv) (d : Dispatch) (s count : Nat) (eof : Bool)
    (hp : 2 < d.loop.numReadyPolls) :
    ∃ d' : Dispatch, (∀ f, f = .recv ∨ f = .onData → d'.count f ≤ d.count f + 1) ∧
      ((∃ p : Phase, p.dispatch = d' ∧ ∀ rs, recvLoop R 0 (r :: rs) d s count eof = p) ∨
        ∃ x, d'.loop.numReadyPolls = d.loop.numReadyPolls ∧
          d.loop.numReadyPolls < loopIsntVeryBusyThreshold ∧ count + 1 ≤ 10 ∧
          ∀ rs, recvLoop R 0 (r :: rs) d s count eof = recvLoop R 0 rs d' x (count + 1) eof) := by
  rcases h₁ : receiveFd (d.record .recv (some s)) s r with ⟨d₁, s₁, broke⟩
  have keep := fun (f : Fn) (hf : f = .recv ∨ f = .onData) =>
    receiveFd_keeps (d := d.record .recv (some s)) s r hf
  simp only [h₁, record_loop] at keep
  have c₁ : ∀ f, f = .recv ∨ f = .onData →
      d₁.count f + (if .onData = f then 1 else 0) ≤ d.count f + 1 := fun f hf => by
    rw [(keep f hf).1, count_record]
    rcases hf with rfl | rfl <;> simp
  have p₁ : d₁.loop.numReadyPolls = d.loop.numReadyPolls := (keep .recv (.inl rfl)).2
  have stays : ∀ f, f = .recv ∨ f = .onData → d₁.count f ≤ d.count f + 1 := fun f hf => by
    have := c₁ f hf
    omega
  cases broke with
  | true => exact ⟨d₁, stays, .inl ⟨.next d₁ s₁ eof, rfl, fun _ => by simp only [recvLoop, h₁]⟩⟩
  | false =>
    by_cases len : 0 < r.length
    · have c₂ : ∀ f, f = .recv ∨ f = .onData →
          (d₁.callback .onData s₁).1.count f ≤ d.count f + 1 := fun f hf =>
        callback_count.trans_le (c₁ f hf)
      rcases h₂ : d₁.callback .onData s₁ with ⟨d₂, _ | x⟩ <;> rw [h₂] at c₂
      · exact ⟨d₂, c₂, .inl ⟨.next d₂ none eof, rfl, fun _ => by
          simp only [recvLoop, h₁, if_pos len, h₂]⟩⟩
      · have p₂ : d₂.loop.numReadyPolls = d.loop.numReadyPolls := by
          have e₂ : (d₁.callback .onData s₁).1 = d₂ := congrArg Prod.fst h₂
          rw [← e₂, (callback_follows (P := fun _ => True) trivial).numReadyPolls, p₁]
        by_cases big : BigRead R r.length ∧
            ((0 : Int) ≠ 0 ∨ d₂.loop.numReadyPolls < loopIsntVeryBusyThreshold)
        · rcases h₃ : d₂.isClosed (some x) with ⟨d₃, closed⟩
          have c₃ : ∀ f, f = .recv ∨ f = .onData → d₃.count f ≤ d.count f + 1 := fun f hf => by
            have e₃ : (d₂.isClosed (some x)).1 = d₃ := congrArg Prod.fst h₃
            rw [← e₃, isClosed_count]
            rcases hf with rfl | rfl <;> simpa using c₂ _ (by simp)
          cases closed with
          | true => exact ⟨d₃, c₃, .inl ⟨.next d₃ (some x) eof, rfl, fun _ => by
              simp only [recvLoop, h₁, if_pos len, h₂, if_pos big, h₃]⟩⟩
          | false =>
            obtain ⟨same, -⟩ := isClosed_false h₃
            by_cases stop : 10 < count + 1 ∧ 2 < d₃.loop.numReadyPolls
            · exact ⟨d₃, c₃, .inl ⟨.next d₃ (some x) eof, rfl, fun _ => by
                simp only [recvLoop, h₁, if_pos len, h₂, if_pos big, h₃, if_pos trivial,
                  if_pos stop]⟩⟩
            · refine ⟨d₃, c₃, .inr ⟨x, by rw [same, p₂], p₂ ▸ big.2.resolve_left (· rfl), ?_,
                fun _ => by simp only [recvLoop, h₁, if_pos len, h₂, if_pos big, h₃,
                  if_pos trivial, if_neg stop]⟩⟩
              rw [same, p₂] at stop
              omega
        · exact ⟨d₂, c₂, .inl ⟨.next d₂ (some x) eof, rfl, fun _ => by
            simp only [recvLoop, h₁, if_pos len, h₂, if_neg big]⟩⟩
    · by_cases zero : r.length = 0
      · exact ⟨d₁, stays, .inl ⟨.next d₁ s₁ true, rfl, fun _ => by
          simp only [recvLoop, h₁, if_neg len, if_pos zero]⟩⟩
      · by_cases err : r.length = -1 ∧ r.wouldBlock = false
        · refine ⟨d₁.close s₁, fun f hf => ?_, .inl ⟨.done (d₁.close s₁), rfl, fun _ => by
            simp only [recvLoop, h₁, if_neg len, if_neg zero, if_pos err]⟩⟩
          rw [close_count]
          rcases hf with rfl | rfl <;> simpa using stays _ (by simp)
        · exact ⟨d₁, stays, .inl ⟨.next d₁ s₁ eof, rfl, fun _ => by
            simp only [recvLoop, h₁, if_neg len, if_neg zero, if_neg err]⟩⟩

/-- With `error == 0`, `repeat_recv_count` at `count ≤ 10` and more than two polls ready, the rest
of the loop makes at most `11 - count` receives and as many `on_data` calls, and at most one of
each when `LOOP_ISNT_VERY_BUSY_THRESHOLD` or more polls are ready. -/
theorem recvLoop_count (R : Int) (rs : List Recv) :
    ∀ (d : Dispatch) (s count : Nat) (eof : Bool), count ≤ 10 → 2 < d.loop.numReadyPolls →
    f = .recv ∨ f = .onData →
    (recvLoop R 0 rs d s count eof).dispatch.count f ≤ d.count f +
      if loopIsntVeryBusyThreshold ≤ d.loop.numReadyPolls then 1 else 11 - count := by
  induction rs with
  | nil =>
    intro d s count eof hc _ hf
    show (d.record .recv (some s)).count f ≤ _
    rw [count_record]
    split <;> split <;> omega
  | cons r rs ih =>
    intro d s count eof hc hp hf
    obtain ⟨d', within, ⟨p, rfl, ends⟩ | ⟨x, polls, quiet, hc', again⟩⟩ :=
      recvLoop_round R r d s count eof hp
    · have := within f hf
      rw [ends rs]
      split <;> omega
    · have rest := ih d' x (count + 1) eof hc' (polls ▸ hp) hf
      have := within f hf
      rw [polls, if_neg (Nat.not_le_of_lt quiet)] at rest
      rw [again rs, if_neg (Nat.not_le_of_lt quiet)]
      omega

/-- With `error == 0` and more than two polls ready, the loop never reads past the receive result
`11 - count` places on. -/
theorem recvLoop_take (R : Int) (rs : List Recv) :
    ∀ (d : Dispatch) (s count : Nat) (eof : Bool), count ≤ 10 → 2 < d.loop.numReadyPolls →
    recvLoop R 0 rs d s count eof = recvLoop R 0 (rs.take (11 - count)) d s count eof := by
  induction rs with
  | nil => intros; rw [List.take_nil]
  | cons r rs ih =>
    intro d s count eof hc hp
    rw [show 11 - count = 10 - count + 1 by omega, List.take_succ_cons]
    obtain ⟨d', -, ⟨p, -, ends⟩ | ⟨x, polls, -, hc', again⟩⟩ := recvLoop_round R r d s count eof hp
    · rw [ends, ends]
    · rw [again, again, ih d' x (count + 1) eof hc' (polls ▸ hp),
        show 11 - (count + 1) = 10 - count by omega]

/-- The receive loop of `us_internal_dispatch_ready_poll`, entered with `repeat_recv_count` 0 and
`error == 0` when more than two polls are ready, whatever the receives return and whatever
`on_data` and `on_fd` do: it receives at most 11 times and calls `on_data` at most 11 times, at
most once each when `LOOP_ISNT_VERY_BUSY_THRESHOLD` or more polls are ready, and it never reads
past the 11th receive result, so it ends on any supply of them. -/
theorem recvLoop_bounded (R : Int) (rs : List Recv) (d : Dispatch) (s : Nat) (eof : Bool)
    (busy : 2 < d.loop.numReadyPolls) :
    (recvLoop R 0 rs d s 0 eof).dispatch.count .recv ≤ d.count .recv + 11 ∧
      (recvLoop R 0 rs d s 0 eof).dispatch.count .onData ≤ d.count .onData + 11 ∧
      (loopIsntVeryBusyThreshold ≤ d.loop.numReadyPolls →
        (recvLoop R 0 rs d s 0 eof).dispatch.count .recv ≤ d.count .recv + 1 ∧
          (recvLoop R 0 rs d s 0 eof).dispatch.count .onData ≤ d.count .onData + 1) ∧
      recvLoop R 0 rs d s 0 eof = recvLoop R 0 (rs.take 11) d s 0 eof := by
  have recv := recvLoop_count (f := .recv) R rs d s 0 eof (Nat.zero_le _) busy (.inl rfl)
  have data := recvLoop_count (f := .onData) R rs d s 0 eof (Nat.zero_le _) busy (.inr rfl)
  refine ⟨?_, ?_, fun very => ?_, recvLoop_take R rs d s 0 eof (Nat.zero_le _) busy⟩
  · split at recv <;> omega
  · split at data <;> omega
  · rw [if_pos very] at recv data
    exact ⟨recv, data⟩

def busyLoop : Loop := { Loop.init.linkSocket 0 1 with numReadyPolls := 3 }

def busyDispatch : Dispatch := ⟨busyLoop, [], fun _ => [], none⟩

def fullRead : Recv := ⟨524288, false, none⟩

theorem recvLoop_bounded_fullReads :
    2 < busyDispatch.loop.numReadyPolls ∧
      (recvLoop 524288 0 (List.replicate 12 fullRead) busyDispatch 1 0 false).dispatch.count
          .recv ≤ busyDispatch.count .recv + 11 ∧
      (recvLoop 524288 0 (List.replicate 12 fullRead) busyDispatch 1 0 false).dispatch.count
          .onData ≤ busyDispatch.count .onData + 11 ∧
      (loopIsntVeryBusyThreshold ≤ busyDispatch.loop.numReadyPolls →
        (recvLoop 524288 0 (List.replicate 12 fullRead) busyDispatch 1 0 false).dispatch.count
            .recv ≤ busyDispatch.count .recv + 1 ∧
          (recvLoop 524288 0 (List.replicate 12 fullRead) busyDispatch 1 0 false).dispatch.count
            .onData ≤ busyDispatch.count .onData + 1) ∧
      recvLoop 524288 0 (List.replicate 12 fullRead) busyDispatch 1 0 false =
        recvLoop 524288 0 ((List.replicate 12 fullRead).take 11) busyDispatch 1 0 false :=
  ⟨by decide, recvLoop_bounded _ _ _ 1 false (by decide)⟩

/-- Twelve full reads in a row: the loop stops after the eleventh. -/
example :
    (recvLoop 524288 0 (List.replicate 12 fullRead) busyDispatch 1 0 false).dispatch.count .recv =
      11 := rfl

theorem admission_numReadyPolls (st : Loop) (s : Nat) (lowPrio : Bool) :
    (admission st s lowPrio).1.numReadyPolls = st.numReadyPolls := by
  unfold admission
  split_ifs <;> rfl

theorem readablePhase_take (env : Env) (d : Dispatch) (s : Nat) (eof : Bool)
    (busy : 2 < d.loop.numReadyPolls) :
    readablePhase env d s 0 eof =
      readablePhase { env with recvs := env.recvs.take 11 } d s 0 eof := by
  have kept := admission_numReadyPolls d.loop s env.lowPrio
  unfold readablePhase
  dsimp only
  split
  · rfl
  · rename_i loop a _ heq
    rw [record_loop] at heq
    rw [heq] at kept
    exact recvLoop_take _ env.recvs _ s 0 eof (Nat.zero_le _) (kept ▸ busy)

/-- A dispatch of a TCP socket with `error == 0` while more than two polls are ready never reads
past the 11th receive result. -/
theorem dispatchSocket_reads_first_eleven (env : Env) (st : Loop) (s : Nat) (eof : Bool)
    (events : Events) (busy : 2 < st.numReadyPolls) :
    dispatchSocket env st s 0 eof events =
      dispatchSocket { env with recvs := env.recvs.take 11 } st s 0 eof events := by
  have w := (writablePhase_follows ⟨st, [], env.replies, none⟩ s 0 eof events False
    False.elim).numReadyPolls
  unfold dispatchSocket
  dsimp only
  split
  · rfl
  · rename_i d x eof' heq
    rw [heq] at w
    split
    · rw [readablePhase_take env d x eof' (w ▸ busy)]
    · rfl
  · rfl

theorem dispatchSocket_reads_first_eleven_busyLoop :
    2 < busyLoop.numReadyPolls ∧
      dispatchSocket ⟨524288, List.replicate 12 fullRead, fun _ => [], false⟩ busyLoop 1 0 false
          ⟨true, false⟩ =
        dispatchSocket { (⟨524288, List.replicate 12 fullRead, fun _ => [], false⟩ : Env) with
            recvs := (List.replicate 12 fullRead).take 11 } busyLoop 1 0 false ⟨true, false⟩ :=
  ⟨by decide, dispatchSocket_reads_first_eleven _ _ 1 false _ (by decide)⟩

end BunLoop
