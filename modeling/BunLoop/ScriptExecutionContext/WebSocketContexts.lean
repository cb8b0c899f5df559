import Mathlib.Data.List.Nodup

/-!
# The WebSocket client contexts of a script execution context

`webSocketContextSSL` and `webSocketContextNoSSL` create and register their kind's upgrade
context on first use and keep it; `connectedWebSocketKindClient(SSL)` creates a child of the kept
context on every call. Along any sequence of the four calls, each upgrade context is created once
and every client context is its child (`webSocketContexts_once`).
-/

namespace BunLoop

/-- A socket context the script execution context creates: the client context of WebSocket
upgrades, or a WebSocket client context, the child of one. -/
inductive WebSocketContextKind
  | httpClient
  | webSocketClient
  deriving DecidableEq, Repr

/-- One creation, with its registration: the context's kind, whether it is an SSL context, its
address, and its parent. -/
structure CreatedContext where
  kind : WebSocketContextKind
  ssl : Bool
  address : Nat
  parent : Option Nat
  deriving DecidableEq, Repr

/-- The WebSocket part of a script execution context: the two kept contexts, the contexts
created and registered, in order, and the address the loop gives the next context it creates. -/
structure WebSocketContexts where
  sslClientWebsocketsCtx : Option Nat
  clientWebsocketsCtx : Option Nat
  created : List CreatedContext
  nextAddress : Nat

inductive WebSocketCall
  | webSocketContextSSL
  | webSocketContextNoSSL
  | connectedWebSocketKindClient
  | connectedWebSocketKindClientSSL
  deriving DecidableEq, Repr

namespace WebSocketContexts

def init (nextAddress : Nat) : WebSocketContexts := ⟨none, none, [], nextAddress⟩

def kept (w : WebSocketContexts) : Bool → Option Nat
  | true => w.sslClientWebsocketsCtx
  | false => w.clientWebsocketsCtx

def keep (w : WebSocketContexts) : Bool → Nat → WebSocketContexts
  | true, c => { w with sslClientWebsocketsCtx := some c }
  | false, c => { w with clientWebsocketsCtx := some c }

def createContext (w : WebSocketContexts) (kind : WebSocketContextKind) (ssl : Bool)
    (parent : Option Nat) : WebSocketContexts × Nat :=
  ({ w with
      created := w.created ++ [⟨kind, ssl, w.nextAddress, parent⟩]
      nextAddress := w.nextAddress + 1 },
    w.nextAddress)

/-- `webSocketContextSSL` / `webSocketContextNoSSL`: the kept context, created, registered and
kept on first use. -/
def webSocketContext (ssl : Bool) (w : WebSocketContexts) : WebSocketContexts × Nat :=
  match w.kept ssl with
  | some c => (w, c)
  | none =>
    let r := w.createContext .httpClient ssl none
    (r.1.keep ssl r.2, r.2)

def webSocketContextSSL (w : WebSocketContexts) : WebSocketContexts × Nat :=
  webSocketContext true w

def webSocketContextNoSSL (w : WebSocketContexts) : WebSocketContexts × Nat :=
  webSocketContext false w

/-- `registerWebSocketClientContext<SSL>(this, parent)`: a child of `parent`, registered as a
WebSocket client context. -/
def registerWebSocketClientContext (ssl : Bool) (w : WebSocketContexts) (parent : Nat) :
    WebSocketContexts × Nat :=
  w.createContext .webSocketClient ssl (some parent)

/-- `connectedWebSocketKindClient` / `connectedWebSocketKindClientSSL`: a new child of the kept
context of the kind. -/
def connectedWebSocketKind (ssl : Bool) (w : WebSocketContexts) : WebSocketContexts × Nat :=
  let p := w.webSocketContext ssl
  registerWebSocketClientContext ssl p.1 p.2

def connectedWebSocketKindClient (w : WebSocketContexts) : WebSocketContexts × Nat :=
  connectedWebSocketKind false w

def connectedWebSocketKindClientSSL (w : WebSocketContexts) : WebSocketContexts × Nat :=
  connectedWebSocketKind true w

def call (w : WebSocketContexts) : WebSocketCall → WebSocketContexts × Nat
  | .webSocketContextSSL => w.webSocketContextSSL
  | .webSocketContextNoSSL => w.webSocketContextNoSSL
  | .connectedWebSocketKindClient => w.connectedWebSocketKindClient
  | .connectedWebSocketKindClientSSL => w.connectedWebSocketKindClientSSL

def run (w : WebSocketContexts) (calls : List WebSocketCall) : WebSocketContexts :=
  calls.foldl (fun w c => (w.call c).1) w

def upgradeContexts (w : WebSocketContexts) (ssl : Bool) : List Nat :=
  (w.created.filter fun e => e.kind = .httpClient ∧ e.ssl = ssl).map (·.address)

/-- What every state reached keeps: the upgrade contexts created of each kind are the kept one,
or none; every WebSocket client context is a child of the kept upgrade context of its kind; and
the addresses given are distinct and below the next one. -/
structure Kept (w : WebSocketContexts) : Prop where
  upgrade : ∀ ssl, w.upgradeContexts ssl = (w.kept ssl).toList
  children : ∀ e ∈ w.created, e.kind = .webSocketClient → e.parent.isSome ∧ e.parent = w.kept e.ssl
  fresh : (w.created.map (·.address)).Nodup
  below : ∀ e ∈ w.created, e.address < w.nextAddress

variable {w : WebSocketContexts} {kind : WebSocketContextKind} {ssl ssl' : Bool}
  {parent : Option Nat} {c : Nat}

@[simp] theorem keep_created : (w.keep ssl c).created = w.created := by cases ssl <;> rfl
@[simp] theorem keep_nextAddress : (w.keep ssl c).nextAddress = w.nextAddress := by
  cases ssl <;> rfl
@[simp] theorem keep_kept : (w.keep ssl c).kept ssl' = if ssl' = ssl then some c else w.kept ssl' :=
  by cases ssl <;> cases ssl' <;> rfl
@[simp] theorem createContext_snd : (w.createContext kind ssl parent).2 = w.nextAddress := rfl
@[simp] theorem createContext_kept : (w.createContext kind ssl parent).1.kept ssl' = w.kept ssl' :=
  by cases ssl' <;> rfl

theorem upgradeContexts_keep : (w.keep ssl c).upgradeContexts ssl' = w.upgradeContexts ssl' := by
  simp [upgradeContexts]

theorem upgradeContexts_createContext :
    (w.createContext kind ssl parent).1.upgradeContexts ssl' =
      w.upgradeContexts ssl' ++
        if kind = .httpClient ∧ ssl = ssl' then [w.nextAddress] else [] := by
  by_cases hk : kind = .httpClient ∧ ssl = ssl' <;> simp [upgradeContexts, createContext, hk]

theorem kept_init (n : Nat) : (init n).Kept :=
  ⟨fun ssl => by cases ssl <;> rfl, nofun, List.nodup_nil, nofun⟩

theorem Kept.createContext_fresh (h : w.Kept) (kind : WebSocketContextKind) (ssl : Bool)
    (parent : Option Nat) :
    ((w.createContext kind ssl parent).1.created.map (·.address)).Nodup ∧
      ∀ e ∈ (w.createContext kind ssl parent).1.created,
        e.address < (w.createContext kind ssl parent).1.nextAddress := by
  simp only [createContext, List.map_append, List.map_cons, List.map_nil, List.mem_append,
    List.mem_singleton]
  refine ⟨List.nodup_append.mpr ⟨h.fresh, List.nodup_singleton _, ?_⟩, ?_⟩
  · simp only [List.disjoint_singleton, List.mem_map, not_exists, not_and]
    exact fun e he ha => (Nat.ne_of_lt (h.below e he)) ha
  · rintro e (he | rfl)
    · exact Nat.lt_succ_of_lt (h.below e he)
    · exact Nat.lt_succ_self _

theorem Kept.webSocketContext (h : w.Kept) (ssl : Bool) :
    (w.webSocketContext ssl).1.Kept ∧
      (w.webSocketContext ssl).1.kept ssl = some (w.webSocketContext ssl).2 ∧
      ∀ ssl' c, w.kept ssl' = some c → (w.webSocketContext ssl).1.kept ssl' = some c := by
  unfold WebSocketContexts.webSocketContext
  split
  · rename_i c hc
    exact ⟨h, hc, fun _ _ h => h⟩
  · rename_i none_
    obtain ⟨fresh, below⟩ := h.createContext_fresh .httpClient ssl none
    refine ⟨⟨fun ssl' => ?_, fun e he kind => ?_, by simpa using fresh, by simpa using below⟩,
      by simp, fun ssl' c hc => ?_⟩
    · rw [upgradeContexts_keep, upgradeContexts_createContext, h.upgrade, keep_kept]
      by_cases e : ssl' = ssl
      · subst e
        simp [none_]
      · simp [e, Ne.symm e]
    · simp only [keep_created, createContext, List.mem_append, List.mem_singleton] at he
      rcases he with he | rfl
      · obtain ⟨some_, hp⟩ := h.children e he kind
        have ne : e.ssl ≠ ssl := fun e' => by rw [hp, e', none_] at some_; cases some_
        simpa [ne] using ⟨some_, hp⟩
      · cases kind
    · have ne : ssl' ≠ ssl := fun e => by rw [e, none_] at hc; cases hc
      simpa [ne] using hc

theorem Kept.registerWebSocketClientContext (h : w.Kept) (hp : w.kept ssl = some c) :
    (registerWebSocketClientContext ssl w c).1.Kept := by
  change (w.createContext .webSocketClient ssl (some c)).1.Kept
  obtain ⟨fresh, below⟩ := h.createContext_fresh .webSocketClient ssl (some c)
  refine ⟨fun ssl' => ?_, fun e he kind => ?_, fresh, below⟩
  · simp [upgradeContexts_createContext, h.upgrade]
  · change e ∈ w.created ++ _ at he
    rcases List.mem_append.mp he with he | he
    · simpa using h.children e he kind
    obtain rfl := List.mem_singleton.mp he
    simpa using hp.symm

theorem Kept.connectedWebSocketKind (h : w.Kept) (ssl : Bool) :
    (w.connectedWebSocketKind ssl).1.Kept ∧
      ∀ ssl' c, w.kept ssl' = some c → (w.connectedWebSocketKind ssl).1.kept ssl' = some c :=
  let ⟨h₁, kept₁, same⟩ := h.webSocketContext ssl
  ⟨h₁.registerWebSocketClientContext kept₁, same⟩

theorem Kept.call (h : w.Kept) (call : WebSocketCall) :
    (w.call call).1.Kept ∧ ∀ ssl c, w.kept ssl = some c → (w.call call).1.kept ssl = some c := by
  cases call with
  | webSocketContextSSL => exact ⟨(h.webSocketContext true).1, (h.webSocketContext true).2.2⟩
  | webSocketContextNoSSL => exact ⟨(h.webSocketContext false).1, (h.webSocketContext false).2.2⟩
  | connectedWebSocketKindClient => exact h.connectedWebSocketKind false
  | connectedWebSocketKindClientSSL => exact h.connectedWebSocketKind true

theorem Kept.run (calls : List WebSocketCall) :
    ∀ {w : WebSocketContexts}, w.Kept → (w.run calls).Kept := by
  induction calls with
  | nil => exact fun h => h
  | cons call calls ih => exact fun h => ih (h.call call).1

end WebSocketContexts

open WebSocketContexts

/-- Along any sequence of `webSocketContextSSL`, `webSocketContextNoSSL`,
`connectedWebSocketKindClient` and `connectedWebSocketKindClientSSL` calls: at most one upgrade
context of each kind is created and registered, and it is the one kept; every WebSocket client
context created is a child of the kept upgrade context of its kind; no address is given twice;
the next call of `webSocketContextSSL` or `webSocketContextNoSSL` returns the kept context of its
kind; and no call changes a context once kept. -/
theorem webSocketContexts_once (n : Nat) (calls : List WebSocketCall) :
    (∀ ssl, ((init n).run calls).upgradeContexts ssl = (((init n).run calls).kept ssl).toList) ∧
      (∀ e ∈ ((init n).run calls).created, e.kind = .webSocketClient →
        e.parent.isSome ∧ e.parent = ((init n).run calls).kept e.ssl) ∧
      (((init n).run calls).created.map (·.address)).Nodup ∧
      (∀ ssl, (((init n).run calls).webSocketContext ssl).1.kept ssl =
        some (((init n).run calls).webSocketContext ssl).2) ∧
      ∀ ssl c call, ((init n).run calls).kept ssl = some c →
        (((init n).run calls).call call).1.kept ssl = some c := by
  have h := (kept_init n).run calls
  exact ⟨h.upgrade, h.children, h.fresh, fun ssl => (h.webSocketContext ssl).2.1,
    fun ssl c call hc => (h.call call).2 ssl c hc⟩

/-- Two plain clients and an SSL client: one upgrade context of each kind, three children. -/
example : ((init 10).run [.connectedWebSocketKindClient, .connectedWebSocketKindClientSSL,
    .connectedWebSocketKindClient]).created.map (fun e => (e.address, e.parent)) =
      [(10, none), (11, some 10), (12, none), (13, some 12), (14, some 10)] := by
  decide

end BunLoop
