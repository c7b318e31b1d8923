import Suika.CacheThreads
import Suika.UdpThreads

/-!
# The whole program as threads

The application and the interrupt thread share three objects, each under mutexes of its own: the
table of control blocks, the ARP cache, and the counter of `ip_gen_id`. The interrupt thread carries
out the handlers of the packets under a further one, that of the protocol queues; the application
makes its calls one after the other. The mutex of the protocol queues is `static` in a header: the
device that queues a frame locks one copy, and the interrupt thread that empties the queues another,
so that these two do not exclude each other. What a handler or a call does besides is not shared,
and is left out, as are the log and its mutex, under which nothing else is called.

* `stackThreadsRun_noDeadlock`: no two threads, and no ring of threads, wait for each other.
* `stackThreadsRun_objects`: what one of the objects sees of a run is a run of its own threads.
* `stackThreadsRun_cache`, `stackThreadsRun_numbers`: through the handlers too, cache and counter
  answer each call at once.
* `stackThreadsRun_found`: whoever creates, what was found in the cache is found ever after.
-/

namespace Suika

open Threads

/-! ## The shared objects -/

/-- The translation units that lock `protocolQueuesMutex`, each its own copy: that of
`EtherDevice::handler`, and that of `main` and `handleProtocolSignal`. -/
inductive QueuesUnit : Type where
  | etherDevice
  | main
  deriving DecidableEq

/-- The mutexes of the program: the copies of `protocolQueuesMutex`, those of the UDP layer,
`arpCacheMutex`, and that of `ip_gen_id`. -/
inductive StackMutex : Type where
  | protocolQueues (unit : QueuesUnit)
  | udp (m : UdpMutex)
  | arpCache
  | ipGenId
  deriving DecidableEq

/-- What the threads share. -/
structure StackShared : Type where
  udpPcbMgr : UdpPcbManager
  arpCache : List CacheData
  ipId : UInt16

def udpObject : Embedding UdpMutex ℕ UdpPcbManager StackMutex ℕ StackShared where
  mutex := .udp
  cond := id
  get := StackShared.udpPcbMgr
  put m d := { d with udpPcbMgr := m }
  mutex_inj _ _ h := StackMutex.udp.inj h
  cond_inj _ _ h := h
  get_put _ _ := rfl

def cacheObject : Embedding CacheMutex Empty (List CacheData) StackMutex ℕ StackShared where
  mutex _ := .arpCache
  cond := Empty.elim
  get := StackShared.arpCache
  put cache d := { d with arpCache := cache }
  mutex_inj m n _ := by cases m; cases n; rfl
  cond_inj c _ _ := c.elim
  get_put _ _ := rfl

def idObject : Embedding IdMutex Empty UInt16 StackMutex ℕ StackShared where
  mutex _ := .ipGenId
  cond := Empty.elim
  get := StackShared.ipId
  put ipId d := { d with ipId := ipId }
  mutex_inj m n _ := by cases m; cases n; rfl
  cond_inj c _ _ := c.elim
  get_put _ _ := rfl

/-! ## The calls -/

/-- A call of one of the objects. -/
inductive ObjectCall : Type where
  | udp (c : UdpCall)
  | cache (c : CacheCall)
  | ipGenId

/-- What the handlers of packets call: `UdpHandler::handle` its table, `ArpProtocolHandler::handle`
the cache, and `replyIcmp`, by `ipv4_output`, the counter and the cache. -/
inductive HandlerCall : Type where
  | udp (dst : UInt32) (port : UInt16) (pcbPayload : UdpPcbPayload)
  | create (c : CacheData)
  | ipGenId
  | select (protocolAddress : UInt32)
  deriving DecidableEq

def HandlerCall.toCall : HandlerCall → ObjectCall
  | .udp dst port pcbPayload => .udp (.handle dst port pcbPayload)
  | .create c => .cache (.create c)
  | .ipGenId => .ipGenId
  | .select protocolAddress => .cache (.select protocolAddress)

/-- What a thread does: a call of an object, or the work under a copy of `protocolQueuesMutex`. Of
`handleProtocolSignal` the work is that of the handlers; `EtherDevice::handler` calls none. -/
inductive StackCall : Type where
  | object (c : ObjectCall)
  | handleProtocolSignal (calls : List HandlerCall)
  | deviceHandler

inductive ObjectPoint : Type where
  | udp (p : UdpPoint)
  | cache (p : CachePoint)
  | ipGenId (p : IdPoint)
  deriving DecidableEq

inductive StackPoint : Type where
  | object (p : ObjectPoint)
  | lockQueues (unit : QueuesUnit) (calls : List HandlerCall)
  | queues (unit : QueuesUnit) (calls : List HandlerCall)
  | handler (unit : QueuesUnit) (p : ObjectPoint) (calls : List HandlerCall)
  | ret
  deriving DecidableEq

def ObjectCall.entry : ObjectCall → ObjectPoint
  | .udp c => .udp c.entry
  | .cache c => .cache c.entry
  | .ipGenId => .ipGenId .lock

def ObjectPoint.code (cfg : Config) : ObjectPoint → Instr StackMutex ℕ StackShared ObjectPoint
  | .udp p => ((p.code cfg).lift udpObject).map .udp
  | .cache p => (p.code.lift cacheObject).map .cache
  | .ipGenId p => (p.code.lift idObject).map .ipGenId

def StackCall.entry : StackCall → StackPoint
  | .object c => .object c.entry
  | .handleProtocolSignal calls => .lockQueues .main calls
  | .deviceHandler => .lockQueues .etherDevice []

def StackPoint.code (cfg : Config) : StackPoint → Instr StackMutex ℕ StackShared StackPoint
  | .object p => (p.code cfg).map .object
  | .lockQueues unit calls => .lock (.protocolQueues unit) (.queues unit calls)
  | .queues unit [] => .unlock (.protocolQueues unit) .ret
  | .queues unit (c :: calls) =>
    .access fun d => some (d, .handler unit c.toCall.entry calls)
  | .handler unit p calls => (p.code cfg).andThen (.handler unit · calls) (.queues unit calls)
  | .ret => .ret

/-- The program. -/
def stackProgram (cfg : Config) : Program StackMutex ℕ StackShared StackCall StackPoint :=
  ⟨StackCall.entry, StackPoint.code cfg⟩

abbrev StackThreads (T : Type) : Type := State T StackMutex ℕ StackShared StackPoint

/-- The runs of any threads that make any calls, with their trace. -/
abbrev StackThreadsRun {T : Type} [DecidableEq T] (cfg : Config) :=
  Runs.Run (Step (T := T) (stackProgram cfg))

/-! ## No deadlock -/

/-- What a point of an object is reached with, under the mutexes of the call around it. -/
def ObjectPoint.held (outer : Set StackMutex) : ObjectPoint → Set StackMutex
  | .udp p => udpObject.held outer p.held
  | .cache p => cacheObject.held outer p.held
  | .ipGenId p => idObject.held outer p.held

def StackPoint.held : StackPoint → Set StackMutex
  | .object p => p.held ∅
  | .lockQueues _ _ | .ret => ∅
  | .queues unit _ => {.protocolQueues unit}
  | .handler unit p _ => p.held {.protocolQueues unit}

/-- Every object is entered with none of its mutexes. -/
theorem ObjectCall.held_entry (outer : Set StackMutex) (c : ObjectCall) :
    c.entry.held outer = outer := by
  have hnone : ∀ {M₁ C₁ D₁ : Type} (e : Embedding M₁ C₁ D₁ StackMutex ℕ StackShared),
      e.held outer ∅ = outer := fun e => by ext n; simp [Embedding.held]
  cases c with
  | udp c => cases c <;> exact hnone _
  | cache c => cases c <;> exact hnone _
  | ipGenId => exact hnone _

/-- `at` are the points of one of the objects. -/
structure ObjectPoints {M₁ C₁ D₁ O₁ P₁ : Type} (cfg : Config) (part : Program M₁ C₁ D₁ O₁ P₁)
    (e : Embedding M₁ C₁ D₁ StackMutex ℕ StackShared) (held : P₁ → Set M₁)
    (point : P₁ → ObjectPoint) : Prop where
  code : ∀ p, (point p).code cfg = ((part.code p).lift e).map point
  held : ∀ outer p, (point p).held outer = e.held outer (held p)
  apart : ∀ m unit, e.mutex m ≠ .protocolQueues unit

theorem udpPoints (cfg : Config) :
    ObjectPoints cfg (udpProgram cfg) udpObject UdpPoint.held .udp :=
  ⟨fun _ => rfl, fun _ _ => rfl, fun _ _ h => by cases h⟩

theorem cachePoints (cfg : Config) :
    ObjectPoints cfg cacheProgram cacheObject CachePoint.held .cache :=
  ⟨fun _ => rfl, fun _ _ => rfl, fun _ _ h => by cases h⟩

theorem idPoints (cfg : Config) : ObjectPoints cfg idProgram idObject IdPoint.held .ipGenId :=
  ⟨fun _ => rfl, fun _ _ => rfl, fun _ _ h => by cases h⟩

/-- The queues come first, then the UDP layer, then cache and counter. -/
def StackMutex.rank : StackMutex → Fin 4
  | .protocolQueues _ => 0
  | .udp .pcbMgr => 1
  | .udp (.pcb _) => 2
  | .arpCache | .ipGenId => 3

namespace ObjectPoints

variable {M₁ C₁ D₁ O₁ P₁ : Type} {cfg : Config} {part : Program M₁ C₁ D₁ O₁ P₁}
  {e : Embedding M₁ C₁ D₁ StackMutex ℕ StackShared} {held : P₁ → Set M₁}
  {point : P₁ → ObjectPoint} (h : ObjectPoints cfg part e held point)

include h

theorem code_object (p : P₁) : StackPoint.code cfg (.object (point p)) =
    ((part.code p).lift e).map fun q => .object (point q) := by
  rw [StackPoint.code, h.code, Instr.map_map]

theorem code_handler (unit : QueuesUnit) (p : P₁) (calls : List HandlerCall) :
    StackPoint.code cfg (.handler unit (point p) calls) =
      ((part.code p).lift e).andThen (fun q => .handler unit (point q) calls)
        (.queues unit calls) := by
  rw [StackPoint.code, h.code, Instr.andThen_map]

theorem notMem_queues (unit : QueuesUnit) (m : M₁) :
    e.mutex m ∉ ({.protocolQueues unit} : Set StackMutex) := h.apart m unit

theorem respects_object (hr : Respects part held) (p : P₁) :
    (StackPoint.code cfg (.object (point p))).Respects StackPoint.held
      (StackPoint.held (.object (point p))) := by
  rw [h.code_object, StackPoint.held, h.held]
  exact (hr.code p).lift (fun _ hm => hm) (fun q => h.held ∅ q) fun _ => rfl

theorem respects_handler (hr : Respects part held) (unit : QueuesUnit) (p : P₁)
    (calls : List HandlerCall) :
    (StackPoint.code cfg (.handler unit (point p) calls)).Respects StackPoint.held
      (StackPoint.held (.handler unit (point p) calls)) := by
  rw [h.code_handler, StackPoint.held, h.held]
  exact (hr.code p).lift_andThen (h.notMem_queues unit) (fun q => h.held _ q) rfl

variable {R : Type} [LT R] {rank : M₁ → R}

theorem ascends_object (ha : Ascends part held rank)
    (hrank : ∀ m n, rank m < rank n → (e.mutex m).rank < (e.mutex n).rank) (p : P₁) :
    (StackPoint.code cfg (.object (point p))).Ascends StackMutex.rank
      (StackPoint.held (.object (point p))) := by
  rw [h.code_object, StackPoint.held, h.held]
  exact Instr.ascends_map.mpr ((ha p).lift hrank fun _ hm => hm.elim)

theorem ascends_handler (ha : Ascends part held rank)
    (hrank : ∀ m n, rank m < rank n → (e.mutex m).rank < (e.mutex n).rank) (unit : QueuesUnit)
    (p : P₁) (calls : List HandlerCall) :
    (StackPoint.code cfg (.handler unit (point p) calls)).Ascends StackMutex.rank
      (StackPoint.held (.handler unit (point p) calls)) := by
  rw [h.code_handler, StackPoint.held, h.held]
  refine Instr.Ascends.andThen ((ha p).lift hrank ?_)
  rintro m rfl n
  cases hm : e.mutex n with
  | protocolQueues unit' => exact absurd hm (h.apart n unit')
  | udp m => cases m <;> simp [StackMutex.rank]
  | arpCache | ipGenId => simp [StackMutex.rank]

end ObjectPoints

/-- **Every call takes and gives back its mutexes as the points say.** -/
theorem stackProgram_respects (cfg : Config) : Respects (stackProgram cfg) StackPoint.held where
  entry op := by
    cases op with
    | object c => exact c.held_entry ∅
    | handleProtocolSignal | deviceHandler => rfl
  code p := by
    cases p with
    | object p =>
      cases p with
      | udp p => exact (udpPoints cfg).respects_object (udpProgram_respects cfg) p
      | cache p => exact (cachePoints cfg).respects_object cacheProgram_respects p
      | ipGenId p => exact (idPoints cfg).respects_object idProgram_respects p
    | handler unit p calls =>
      cases p with
      | udp p => exact (udpPoints cfg).respects_handler (udpProgram_respects cfg) unit p calls
      | cache p => exact (cachePoints cfg).respects_handler cacheProgram_respects unit p calls
      | ipGenId p => exact (idPoints cfg).respects_handler idProgram_respects unit p calls
    | lockQueues unit calls => exact fun n => by simp [StackPoint.held]
    | queues unit calls =>
      cases calls with
      | nil => exact ⟨rfl, fun n => by simp [StackPoint.held]⟩
      | cons c calls =>
        intro d d' q hq
        cases hq
        exact c.toCall.held_entry _
    | ret => rfl

/-- **No call takes a mutex with one in hand that comes behind it.** -/
theorem stackProgram_ascends (cfg : Config) :
    Ascends (stackProgram cfg) StackPoint.held StackMutex.rank := by
  have hudp : ∀ m n : UdpMutex, m.rank < n.rank →
      (udpObject.mutex m).rank < (udpObject.mutex n).rank := by
    intro m n h
    cases m <;> cases n <;> simp_all [UdpMutex.rank, StackMutex.rank, udpObject]
  -- cache and counter have one mutex each, and take it with none in hand
  have hcache : Ascends cacheProgram CachePoint.held (fun _ => (0 : ℕ)) := by
    intro p
    cases p with
    | select a p | createSelect c p =>
      cases p <;>
        simp [cacheProgram, CachePoint.code, findCode, Instr.Ascends, CachePoint.held]
    | _ => simp [cacheProgram, CachePoint.code, Instr.Ascends, CachePoint.held]
  have hid : Ascends idProgram IdPoint.held (fun _ => (0 : ℕ)) := by
    intro p
    cases p <;> simp [idProgram, IdPoint.code, Instr.Ascends, IdPoint.held]
  have hnone : ∀ {M₁ : Type} {Q : M₁ → M₁ → Prop} (m n : M₁), (0 : ℕ) < 0 → Q m n :=
    fun _ _ h => absurd h (Nat.lt_irrefl 0)
  intro p
  cases p with
  | object p =>
    cases p with
    | udp p => exact (udpPoints cfg).ascends_object (udpProgram_ascends cfg) hudp p
    | cache p => exact (cachePoints cfg).ascends_object hcache hnone p
    | ipGenId p => exact (idPoints cfg).ascends_object hid hnone p
  | handler unit p calls =>
    cases p with
    | udp p => exact (udpPoints cfg).ascends_handler (udpProgram_ascends cfg) hudp unit p calls
    | cache p => exact (cachePoints cfg).ascends_handler hcache hnone unit p calls
    | ipGenId p => exact (idPoints cfg).ascends_handler hid hnone unit p calls
  | lockQueues unit calls => exact fun n hn => hn.elim
  | queues unit calls => cases calls <;> trivial
  | ret => trivial

section Runs

variable {T : Type} [DecidableEq T] {cfg : Config} {d : StackShared}
  {tr : List (Runs.Record (StackThreads T) T)} {s : StackThreads T}

/-- **The program cannot deadlock**: whatever its threads call, no set of them waits for mutexes of
its own; a thread waits only for mutexes that come behind all those it has. -/
theorem stackThreadsRun_noDeadlock (h : StackThreadsRun cfg (State.start d) tr s) :
    (∀ S : Set T, ¬ CircularWait (stackProgram cfg) s S) ∧
      ∀ t m n, s.owner n = some t → Wants (stackProgram cfg) s t m → n.rank < m.rank := by
  have hs := Disciplined.run (stackProgram_respects cfg) h
  refine ⟨hs.not_circularWait (stackProgram_respects cfg) (stackProgram_ascends cfg), ?_⟩
  intro t m n howner hwants
  exact hs.wants_above (stackProgram_respects cfg) (stackProgram_ascends cfg) hwants howner

end Runs

/-- Nothing was opened, learned or sent. -/
def sharedInit : StackShared := ⟨UdpPcbManager.init, [], 128⟩

/-- The application opens a socket; the handler of a datagram waits for the mutex of the manager,
with its copy of that of the queues in hand; a device has the other copy at the same time. -/
theorem stackThreadsRun_noDeadlock_waiting :
    ∃ (tr : List (Runs.Record (StackThreads (Fin 3)) (Fin 3))) (s : StackThreads (Fin 3)),
      StackThreadsRun ⟨exampleAddress, [], []⟩ (State.start sharedInit) tr s ∧
      s.owner (.protocolQueues .main) = some 1 ∧ s.owner (.protocolQueues .etherDevice) = some 2 ∧
      s.owner (.udp .pcbMgr) = some 0 ∧
      s.status 1 = .running (.handler .main (.udp (.handle 0 0 ⟨[], ⟨0, 0⟩⟩ .lockMgr)) []) ∧
      (∀ S : Set (Fin 3), ¬ CircularWait (stackProgram ⟨exampleAddress, [], []⟩) s S) ∧
      ∀ t m n, s.owner n = some t → Wants (stackProgram ⟨exampleAddress, [], []⟩) s t m →
        n.rank < m.rank := by
  obtain ⟨tr, s, hrun, htest⟩ := exists_run_of_schedule (stackProgram ⟨exampleAddress, [], []⟩)
    (State.start sharedInit)
    [((0 : Fin 3), .call (.object (.udp .open))), (0, .go),
      (1, .call (.handleProtocolSignal [.udp 0 0 ⟨[], ⟨0, 0⟩⟩])), (1, .go), (1, .go),
      (2, .call .deviceHandler), (2, .go)]
    (fun r => decide (r.2.owner (.protocolQueues .main) = some 1 ∧
      r.2.owner (.protocolQueues .etherDevice) = some 2 ∧
      r.2.owner (.udp .pcbMgr) = some 0 ∧
      r.2.status 1 =
        .running (.handler .main (.udp (.handle 0 0 ⟨[], ⟨0, 0⟩⟩ .lockMgr)) [])))
    (by decide +kernel)
  obtain ⟨hqueues, hdevice, hmgr, hhandler⟩ := of_decide_eq_true htest
  exact ⟨tr, s, hrun, hqueues, hdevice, hmgr, hhandler, stackThreadsRun_noDeadlock hrun⟩

/-! ## What the objects see -/

/-- The object a thread is in, and where. -/
def StackPoint.inside : StackPoint → Option ObjectPoint
  | .object p | .handler _ p _ => some p
  | _ => none

namespace ObjectPoint

def udp? : ObjectPoint → Option UdpPoint
  | .udp p => some p
  | _ => none

def cache? : ObjectPoint → Option CachePoint
  | .cache p => some p
  | _ => none

def ipGenId? : ObjectPoint → Option IdPoint
  | .ipGenId p => some p
  | _ => none

end ObjectPoint

namespace ObjectPoints

variable {M₁ C₁ D₁ O₁ P₁ M₂ C₂ D₂ O₂ P₂ : Type} {cfg : Config} {part : Program M₁ C₁ D₁ O₁ P₁}
  {e : Embedding M₁ C₁ D₁ StackMutex ℕ StackShared} {held : P₁ → Set M₁}
  {point : P₁ → ObjectPoint} {own : ObjectPoint → Option P₁} {part₂ : Program M₂ C₂ D₂ O₂ P₂}
  {e₂ : Embedding M₂ C₂ D₂ StackMutex ℕ StackShared} {held₂ : P₂ → Set M₂}
  {point₂ : P₂ → ObjectPoint}

/-- Nothing at `q` has to do with the object. -/
def Avoided (cfg : Config) (part : Program M₁ C₁ D₁ O₁ P₁)
    (e : Embedding M₁ C₁ D₁ StackMutex ℕ StackShared) (own : ObjectPoint → Option P₁)
    (q : ObjectPoint) : Prop :=
  (StackPoint.code cfg (.object q)).Avoids e (fun p => p.inside.bind own) part.Enters ∧
    ∀ unit calls, (StackPoint.code cfg (.handler unit q calls)).Avoids e
      (fun p => p.inside.bind own) part.Enters

theorem avoided (h : ObjectPoints cfg part₂ e₂ held₂ point₂) (hapart : e.Apart e₂)
    (hown : ∀ q, own (point₂ q) = none) (q : P₂) : Avoided cfg part e own (point₂ q) := by
  refine ⟨?_, fun unit calls => ?_⟩
  · rw [h.code_object]
    exact (part₂.code q).avoids_lift hapart hown (Or.inl rfl)
  · rw [h.code_handler]
    exact (part₂.code q).avoids_andThen hapart hown rfl (Or.inl rfl)

/-- **An object is a component of the program**, if nothing outside of its points has to do with
it. -/
theorem component (h : ObjectPoints cfg part e held point) (hown : ∀ p, own (point p) = some p)
    (hpoint : ∀ q p, own q = some p → q = point p)
    (hentry : ∀ c : ObjectCall, part.Enters (own c.entry))
    (hothers : ∀ q, own q = none → Avoided cfg part e own q) :
    Component (stackProgram cfg) part e fun p => p.inside.bind own where
  entry op := by
    cases op with
    | object c => exact hentry c
    | handleProtocolSignal | deviceHandler => exact Or.inl rfl
  inside {p p₁} hp := by
    obtain ⟨q, hq, hp⟩ := Option.bind_eq_some_iff.mp hp
    obtain rfl := hpoint q p₁ hp
    cases p with
    | object p =>
      obtain rfl := Option.some.inj hq
      exact ⟨fun q => .object (point q), hown, Or.inl (h.code_object p₁)⟩
    | handler unit p calls =>
      obtain rfl := Option.some.inj hq
      exact ⟨fun q => .handler unit (point q) calls, hown,
        Or.inr ⟨_, rfl, h.code_handler unit p₁ calls⟩⟩
    | lockQueues | queues | ret => cases hq
  outside {p} hp := by
    cases p with
    | object q => exact (hothers q hp).1
    | handler unit q calls => exact (hothers q hp).2 unit calls
    | lockQueues unit calls => exact ⟨fun m hm => h.apart m unit hm, Or.inl rfl⟩
    | queues unit calls =>
      cases calls with
      | nil => exact ⟨fun m hm => h.apart m unit hm, Or.inl rfl⟩
      | cons c calls =>
        intro d d' q hq
        cases hq
        exact ⟨rfl, hentry c.toCall⟩
    | ret => trivial

end ObjectPoints

theorem udpComponent (cfg : Config) :
    Component (stackProgram cfg) (udpProgram cfg) udpObject fun p =>
      p.inside.bind ObjectPoint.udp? := by
  refine (udpPoints cfg).component (fun _ => rfl) (fun q p hq => ?_) (fun c => ?_) fun q hq => ?_
  · cases q <;> cases hq
    rfl
  · cases c with
    | udp c => exact Or.inr ⟨c, rfl⟩
    | cache c => exact Or.inl rfl
    | ipGenId => exact Or.inl rfl
  · cases q with
    | udp p => cases hq
    | cache p =>
      exact (cachePoints cfg).avoided ⟨fun _ _ h => (by cases h), fun _ c => c.elim, fun _ _ => rfl⟩
        (fun _ => rfl) p
    | ipGenId p =>
      exact (idPoints cfg).avoided ⟨fun _ _ h => (by cases h), fun _ c => c.elim, fun _ _ => rfl⟩
        (fun _ => rfl) p

theorem cacheComponent (cfg : Config) :
    Component (stackProgram cfg) cacheProgram cacheObject fun p =>
      p.inside.bind ObjectPoint.cache? := by
  refine (cachePoints cfg).component (fun _ => rfl) (fun q p hq => ?_) (fun c => ?_) fun q hq => ?_
  · cases q <;> cases hq
    rfl
  · cases c with
    | cache c => exact Or.inr ⟨c, rfl⟩
    | udp c => exact Or.inl rfl
    | ipGenId => exact Or.inl rfl
  · cases q with
    | cache p => cases hq
    | udp p =>
      exact (udpPoints cfg).avoided ⟨fun _ _ h => (by cases h), fun c => c.elim, fun _ _ => rfl⟩
        (fun _ => rfl) p
    | ipGenId p =>
      exact (idPoints cfg).avoided ⟨fun _ _ h => (by cases h), fun c => c.elim, fun _ _ => rfl⟩
        (fun _ => rfl) p

theorem idComponent (cfg : Config) :
    Component (stackProgram cfg) idProgram idObject fun p =>
      p.inside.bind ObjectPoint.ipGenId? := by
  refine (idPoints cfg).component (fun _ => rfl) (fun q p hq => ?_) (fun c => ?_) fun q hq => ?_
  · cases q <;> cases hq
    rfl
  · cases c with
    | ipGenId => exact Or.inr ⟨(), rfl⟩
    | udp c => exact Or.inl rfl
    | cache c => exact Or.inl rfl
  · cases q with
    | ipGenId p => cases hq
    | udp p =>
      exact (udpPoints cfg).avoided ⟨fun _ _ h => (by cases h), fun c => c.elim, fun _ _ => rfl⟩
        (fun _ => rfl) p
    | cache p =>
      exact (cachePoints cfg).avoided ⟨fun _ _ h => (by cases h), fun c => c.elim, fun _ _ => rfl⟩
        (fun _ => rfl) p

/-! ## Runs -/

/-- What a thread has done to the cache, and not returned from. -/
def StackPoint.cacheEffect (p : StackPoint) : Option (CacheCall × Option CacheData) :=
  (p.inside.bind ObjectPoint.cache?).bind (effectOf CachePoint.call CachePoint.answer)

/-- The number a thread has taken, and not returned. -/
def StackPoint.idEffect (p : StackPoint) : Option (Unit × UInt16) :=
  (p.inside.bind ObjectPoint.ipGenId?).bind (effectOf (fun _ => ()) IdPoint.answer)

/-- Only `w`, the interrupt thread, carries out instructions of `create`. -/
def StackCreatesAlone {T : Type} (w : T) (s : StackThreads T) (t : T) : Prop :=
  ∀ p q, s.status t = .running p → p.inside.bind ObjectPoint.cache? = some q → q.Creates → t = w

/-- The calls of the cache take effect at once. -/
structure CacheAtOnce {T : Type} [DecidableEq T] (cache : List CacheData)
    (tr : List (Runs.Record (StackThreads T) T)) (s : StackThreads T) : Prop where
  /-- in the order in which they do, they are calls one after the other -/
  sequential : ∃ tr', Runs.Run (fun a (l : T × CacheCall × Option CacheData) b =>
      l.2.1.Does a l.2.2 b) cache tr' s.data.arpCache ∧
    tr'.map Runs.Record.label = tr.flatMap (takesEffect StackPoint.cacheEffect)
  /-- each thread returns what they took effect with, in this order -/
  answers : ∀ u, (tr.flatMap (handedBack StackPoint.cacheEffect)).filter (fun x => x.1 = u) ++
      pending StackPoint.cacheEffect s u =
    (tr.flatMap (takesEffect StackPoint.cacheEffect)).filter (fun x => x.1 = u)
  /-- no address is there twice -/
  unique : ArpCache.Unique s.data.arpCache

/-- The calls of `ip_gen_id` take effect at once. -/
structure NumbersAtOnce {T : Type} [DecidableEq T] (ipId : UInt16)
    (tr : List (Runs.Record (StackThreads T) T)) (s : StackThreads T) : Prop where
  /-- the numbers they take are consecutive -/
  consecutive : (tr.flatMap (takesEffect StackPoint.idEffect)).map (fun x => x.2.2) =
    (List.range (tr.flatMap (takesEffect StackPoint.idEffect)).length).map
      (fun k => ipId + UInt16.ofNat k)
  /-- as many as the counter went on by -/
  counter : s.data.ipId =
    ipId + UInt16.ofNat (tr.flatMap (takesEffect StackPoint.idEffect)).length
  /-- each thread returns the numbers it took, in this order -/
  answers : ∀ u, (tr.flatMap (handedBack StackPoint.idEffect)).filter (fun x => x.1 = u) ++
      pending StackPoint.idEffect s u =
    (tr.flatMap (takesEffect StackPoint.idEffect)).filter (fun x => x.1 = u)

/-! ### A packet and a call -/

/-- The interrupt thread handles an ARP packet and an echo request while the application sends:
the application looks into the cache between the search and the `push_back` of the handler, and
asks for a number while the handler has the counter. In the end the handler has found the address
and not returned it. -/
def packetAndCall : List (Bool × Move StackCall) :=
  (true, .call (.handleProtocolSignal [.create ⟨0xC0000201, []⟩, .ipGenId, .select 0xC0000201])) ::
    List.replicate 5 (true, .go) ++
    (false, .call (.object (.cache (.select 0xC0000201)))) :: List.replicate 4 (false, .go) ++
    List.replicate 7 (true, .go) ++
    (false, .call (.object .ipGenId)) :: List.replicate 4 (true, .go) ++
    List.replicate 5 (false, .go) ++ List.replicate 3 (true, .go)

/-- The point of the cache a thread stands at. -/
def cachePoint {T : Type} (s : StackThreads T) (t : T) : Option CachePoint :=
  match s.status t with
  | .running p => p.inside.bind ObjectPoint.cache?
  | .idle | .asleep _ _ _ | .woken _ _ => none

instance : DecidablePred CachePoint.Creates
  | .select _ _ | .selected _ _ => isFalse id
  | .createSelect _ _ | .createLock _ | .pushBack _ | .createUnlock _ | .created _ => isTrue trivial

theorem packetAndCall_run :
    ∃ (tr : List (Runs.Record (StackThreads Bool) Bool)) (s : StackThreads Bool),
      StackThreadsRun ⟨exampleAddress, [], []⟩ (State.start sharedInit) tr s ∧
      (∀ r ∈ tr, StackCreatesAlone true r.pre r.label) ∧
      s.data.arpCache = [⟨0xC0000201, []⟩] ∧ cachePoint s true =
        some (.selected 0xC0000201 (some ⟨0xC0000201, []⟩)) ∧
      tr.flatMap (takesEffect StackPoint.cacheEffect) =
        [(false, .select 0xC0000201, none), (true, .create ⟨0xC0000201, []⟩, none),
          (true, .select 0xC0000201, some ⟨0xC0000201, []⟩)] ∧
      tr.flatMap (takesEffect StackPoint.idEffect) = [(true, (), 128), (false, (), 129)] := by
  obtain ⟨tr, s, hrun, htest⟩ := exists_run_of_schedule (stackProgram ⟨exampleAddress, [], []⟩)
    (State.start sharedInit) packetAndCall
    (fun r => decide ((∀ x ∈ r.1, ∀ p ∈ (cachePoint x.pre x.label).toList,
        p.Creates → x.label = true) ∧
      r.2.data.arpCache = [⟨0xC0000201, []⟩] ∧ cachePoint r.2 true =
        some (.selected 0xC0000201 (some ⟨0xC0000201, []⟩)) ∧
      r.1.flatMap (takesEffect StackPoint.cacheEffect) =
        [(false, .select 0xC0000201, none), (true, .create ⟨0xC0000201, []⟩, none),
          (true, .select 0xC0000201, some ⟨0xC0000201, []⟩)] ∧
      r.1.flatMap (takesEffect StackPoint.idEffect) = [(true, (), 128), (false, (), 129)]))
    (by decide +kernel)
  obtain ⟨halone, hrest⟩ := of_decide_eq_true htest
  refine ⟨tr, s, hrun, fun x hx p q hst hp => ?_, hrest⟩
  refine halone x hx q ?_
  rw [cachePoint, hst]
  exact Option.mem_toList.mpr hp

section Runs

variable {T : Type} [DecidableEq T] {cfg : Config} {d : StackShared}
  {tr : List (Runs.Record (StackThreads T) T)} {s : StackThreads T} {w : T}

/-- **What the objects see of a run** are runs of their own threads: the UDP layer, the cache and
the counter behave in the program as they do alone. -/
theorem stackThreadsRun_objects (h : StackThreadsRun cfg (State.start d) tr s) :
    (∃ tr₁ s₁, UdpThreadsRun cfg (State.start d.udpPcbMgr) tr₁ s₁ ∧
      Projects udpObject (fun p => p.inside.bind ObjectPoint.udp?) s s₁) ∧
    (∃ tr₁ s₁, CacheThreadsRun (State.start d.arpCache) tr₁ s₁ ∧
      Projects cacheObject (fun p => p.inside.bind ObjectPoint.cache?) s s₁) ∧
    ∃ tr₁ s₁, Runs.Run (Step idProgram) (State.start d.ipId) tr₁ s₁ ∧
      Projects idObject (fun p => p.inside.bind ObjectPoint.ipGenId?) s s₁ := by
  refine ⟨?_, ?_, ?_⟩
  · obtain ⟨tr₁, s₁, hrun, hs, -⟩ := (udpComponent cfg).run h (Projects.start rfl)
    exact ⟨tr₁, s₁, hrun, hs⟩
  · obtain ⟨tr₁, s₁, hrun, hs, -⟩ := (cacheComponent cfg).run h (Projects.start rfl)
    exact ⟨tr₁, s₁, hrun, hs⟩
  · obtain ⟨tr₁, s₁, hrun, hs, -⟩ := (idComponent cfg).run h (Projects.start rfl)
    exact ⟨tr₁, s₁, hrun, hs⟩

theorem stackThreadsRun_objects_packet :
    ∃ (tr : List (Runs.Record (StackThreads Bool) Bool)) (s : StackThreads Bool),
      StackThreadsRun ⟨exampleAddress, [], []⟩ (State.start sharedInit) tr s ∧
      s.data.arpCache = [⟨0xC0000201, []⟩] ∧
      (∃ tr₁ s₁, UdpThreadsRun ⟨exampleAddress, [], []⟩ (State.start sharedInit.udpPcbMgr) tr₁ s₁ ∧
        Projects udpObject (fun p => p.inside.bind ObjectPoint.udp?) s s₁) ∧
      (∃ tr₁ s₁, CacheThreadsRun (State.start sharedInit.arpCache) tr₁ s₁ ∧
        Projects cacheObject (fun p => p.inside.bind ObjectPoint.cache?) s s₁) ∧
      ∃ tr₁ s₁, Runs.Run (Step idProgram) (State.start sharedInit.ipId) tr₁ s₁ ∧
        Projects idObject (fun p => p.inside.bind ObjectPoint.ipGenId?) s s₁ := by
  obtain ⟨tr, s, hrun, -, hcache, -⟩ := packetAndCall_run
  exact ⟨tr, s, hrun, hcache, stackThreadsRun_objects hrun⟩

/-- **The cache answers at once**, if one thread alone creates. -/
theorem stackThreadsRun_cache (h : StackThreadsRun cfg (State.start d) tr s)
    (hd : ArpCache.Unique d.arpCache) (hw : ∀ r ∈ tr, StackCreatesAlone w r.pre r.label) :
    CacheAtOnce d.arpCache tr s := by
  have hstart : CacheInvariantAlone w (State.start d.arpCache : CacheThreads T) :=
    ⟨CacheInvariant.start d.arpCache, fun _ h => by cases h⟩
  have hK : ∀ r ∈ tr, ∀ s₁, Projects cacheObject (fun p => p.inside.bind ObjectPoint.cache?)
      r.pre s₁ → CreatesAlone w s₁ r.label := by
    intro r hr s₁ hs₁ q hq hcreates
    have hshows := hs₁.status r.label
    rw [hq] at hshows
    generalize hst : r.pre.status r.label = st at hshows
    cases hshows with
    | running hp => exact hw r hr _ _ hst hp hcreates
  obtain ⟨⟨tr', hseq, hlabels⟩, hanswers⟩ := (cacheThreads_linearizes w).inside
    (cacheComponent cfg) (fun hs hw hl => hs.step hw hl) h (Projects.start rfl) hstart hK
  exact ⟨⟨tr', hseq, hlabels⟩, hanswers, CacheCall.unique_of_run hseq hd⟩

theorem stackThreadsRun_cache_packet :
    ∃ (tr : List (Runs.Record (StackThreads Bool) Bool)) (s : StackThreads Bool),
      StackThreadsRun ⟨exampleAddress, [], []⟩ (State.start sharedInit) tr s ∧
      tr.flatMap (takesEffect StackPoint.cacheEffect) =
        [(false, .select 0xC0000201, none), (true, .create ⟨0xC0000201, []⟩, none),
          (true, .select 0xC0000201, some ⟨0xC0000201, []⟩)] ∧
      CacheAtOnce sharedInit.arpCache tr s := by
  obtain ⟨tr, s, hrun, halone, -, -, hcalls, -⟩ := packetAndCall_run
  exact ⟨tr, s, hrun, hcalls, stackThreadsRun_cache hrun List.Pairwise.nil halone⟩

/-- **What was found stays found**, whoever creates: entries are only added, at the end, and
whoever has been told an address by `select`, and not returned from it yet, would be told the
same. -/
theorem stackThreadsRun_found (h : StackThreadsRun cfg (State.start d) tr s) :
    d.arpCache <+: s.data.arpCache ∧
      ∀ t a c, (s.status t).effect StackPoint.cacheEffect = some (.select a, some c) →
        ArpCache.select s.data.arpCache a = some c := by
  obtain ⟨tr₁, s₁, hrun, hs, -⟩ := (cacheComponent cfg).run h (Projects.start rfl)
  have hinv := hrun.invariant (I := fun s => CacheInvariant s ∧ d.arpCache <+: s.data)
    (fun hs hl => ⟨hs.1.step hl, hs.2.trans (cacheStep_grows hl)⟩)
    ⟨CacheInvariant.start d.arpCache, List.prefix_refl _⟩
  have hdata : s₁.data = s.data.arpCache := hs.data
  refine ⟨hdata ▸ hinv.2, fun t a c hst => ?_⟩
  have hst₁ : (s₁.status t).effect (effectOf CachePoint.call CachePoint.answer) =
      some (.select a, some c) := (hs.status t).effect.symm.trans hst
  rw [← hdata]
  cases hst' : s₁.status t with
  | running p =>
    rw [hst'] at hst₁
    exact CachePoint.select_of_effect (hinv.1.knows t p hst') hst₁
  | idle =>
    rw [hst'] at hst₁
    cases hst₁
  | asleep e => exact e.elim
  | woken m q =>
    have hwait := hinv.1.disciplined.fromWait t
    rw [hst'] at hwait
    obtain ⟨-, e, -⟩ := hwait
    exact e.elim

theorem stackThreadsRun_found_packet :
    ∃ (tr : List (Runs.Record (StackThreads Bool) Bool)) (s : StackThreads Bool),
      StackThreadsRun ⟨exampleAddress, [], []⟩ (State.start sharedInit) tr s ∧
      cachePoint s true = some (.selected 0xC0000201 (some ⟨0xC0000201, []⟩)) ∧
      sharedInit.arpCache <+: s.data.arpCache ∧
      ∀ t a c, (s.status t).effect StackPoint.cacheEffect = some (.select a, some c) →
        ArpCache.select s.data.arpCache a = some c := by
  obtain ⟨tr, s, hrun, -, -, hpoint, -⟩ := packetAndCall_run
  exact ⟨tr, s, hrun, hpoint, stackThreadsRun_found hrun⟩

/-- **No number is lost or given twice**, whatever threads call `ip_gen_id`. -/
theorem stackThreadsRun_numbers (h : StackThreadsRun cfg (State.start d) tr s) :
    NumbersAtOnce d.ipId tr s := by
  obtain ⟨⟨tr', hseq, hlabels⟩, hanswers⟩ := (idThreads_linearizes (T := T)).inside
    (idComponent cfg) (fun hs _ hl => hs.step hl) h (Projects.start rfl)
    (IdInvariant.start d.ipId) fun _ _ _ _ => trivial
  have hnumbers : tr'.map (fun r => r.label.2.2) =
      (List.range tr'.length).map (fun k => d.ipId + UInt16.ofNat k) :=
    (IdDoes.numbers_of_run hseq).1
  have hid : s.data.ipId = d.ipId + UInt16.ofNat tr'.length := (IdDoes.numbers_of_run hseq).2
  have hlen : tr'.length = (tr.flatMap (takesEffect StackPoint.idEffect)).length := by
    rw [← List.length_map, hlabels]
    rfl
  refine ⟨?_, ?_, hanswers⟩
  · rw [← hlen, ← hnumbers]
    change _ = tr'.map ((fun x : T × Unit × UInt16 => x.2.2) ∘ Runs.Record.label)
    rw [← List.map_map, hlabels]
    rfl
  · rw [← hlen, hid]

theorem stackThreadsRun_numbers_packet :
    ∃ (tr : List (Runs.Record (StackThreads Bool) Bool)) (s : StackThreads Bool),
      StackThreadsRun ⟨exampleAddress, [], []⟩ (State.start sharedInit) tr s ∧
      tr.flatMap (takesEffect StackPoint.idEffect) = [(true, (), 128), (false, (), 129)] ∧
      NumbersAtOnce sharedInit.ipId tr s := by
  obtain ⟨tr, s, hrun, -, -, -, -, hnumbers⟩ := packetAndCall_run
  exact ⟨tr, s, hrun, hnumbers, stackThreadsRun_numbers hrun⟩

end Runs

end Suika
