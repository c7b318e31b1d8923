import Mathlib.Data.Set.Basic
import Mathlib.Order.WellFounded
import Suika.Lib.Runs

/-!
# Threads over mutexes and condition variables

Any number of threads run one program over shared data. A program gives each of its points an
instruction: take a mutex, give one back, one access to the data, the wait of a condition variable,
a notification, or the end of the call. The scheduler picks a thread; a `Step` is one instruction of
it. A wait gives its mutex back and falls asleep in one step; behind it stand a wake-up (by a
notification, or a spurious one) and taking the mutex again.

Four rules about runs:

* `Disciplined.run`: if `held` says which mutexes each point is reached with, and every instruction
  agrees with it, then a mutex has an owner exactly if its owner stands at a point that holds it;
* `Outline.step`: if every instruction leads from the assertion of its point to that of the next and
  disturbs no assertion of another thread, every thread stands at a point whose assertion holds;
* `Disciplined.not_circularWait`: if every thread takes its mutexes in ascending order, no set of
  threads waits for its own mutexes;
* `Announced.step`: if whoever makes a condition true has a notification ahead, nobody sleeps
  through it, provided that no notification falls between the test of a thread and its sleep.

A program point that has no instruction for the data it finds (undefined behaviour) has no step.
-/

namespace Threads

open Runs

variable {T M C D O P : Type}

/-! ## Programs -/

/-- What a thread does at a point of its program. -/
inductive Instr (M C D P : Type) : Type where
  /-- take a mutex, as soon as it is free -/
  | lock (m : M) (next : P)
  /-- give a mutex back -/
  | unlock (m : M) (next : P)
  /-- one access to the data, which decides where to go on -/
  | access (f : D → Option (D × P))
  /-- give the mutex back and fall asleep; once awake, take it again -/
  | wait (c : C) (m : M) (next : P)
  /-- wake everyone who is asleep on `c` -/
  | notifyAll (c : C) (next : P)
  /-- the call ends -/
  | ret

/-- The same instruction over other points. -/
def Instr.map {Q : Type} (g : P → Q) : Instr M C D P → Instr M C D Q
  | .lock m q => .lock m (g q)
  | .unlock m q => .unlock m (g q)
  | .access f => .access fun d => (f d).map fun r => (r.1, g r.2)
  | .wait c m q => .wait c m (g q)
  | .notifyAll c q => .notifyAll c (g q)
  | .ret => .ret

/-- Locks and accesses: the thread goes on, and wakes nobody. -/
def Instr.Plain : Instr M C D P → Prop
  | .wait _ _ _ | .notifyAll _ _ | .ret => False
  | _ => True

/-- Wherever the instruction goes on, `R` relates the data before to the data behind it and the
point it goes on at. -/
def Instr.Next (R : D → D → P → Prop) : Instr M C D P → Prop
  | .lock _ q | .unlock _ q | .wait _ _ q | .notifyAll _ q => ∀ d, R d d q
  | .access f => ∀ d d' q, f d = some (d', q) → R d d' q
  | .ret => True

@[simp] theorem Instr.next_map {Q : Type} {R : D → D → Q → Prop} {g : P → Q}
    {i : Instr M C D P} : (i.map g).Next R ↔ i.Next fun d d' q => R d d' (g q) := by
  cases i with
  | access f =>
    refine ⟨fun hi d d' q hf => hi d d' (g q) (by simp [hf]), fun hi d d' q hf => ?_⟩
    obtain ⟨⟨d₁, q₁⟩, hf₁, hq⟩ := Option.map_eq_some_iff.mp hf
    cases hq
    exact hi d d₁ q₁ hf₁
  | _ => exact Iff.rfl

theorem Instr.Next.mono {R R' : D → D → P → Prop} {i : Instr M C D P} (h : i.Next R)
    (hR : ∀ d d' q, R d d' q → R' d d' q) : i.Next R' := by
  cases i with
  | access f => exact fun d d' q hf => hR d d' q (h d d' q hf)
  | ret => trivial
  | _ => exact fun d => hR d d _ (h d)

/-- A program: where each call starts, and the instruction of each point. -/
structure Program (M C D O P : Type) : Type where
  entry : O → P
  code : P → Instr M C D P

/-! ## States -/

/-- Where a thread is. -/
inductive Status (M C P : Type) : Type where
  /-- in no call -/
  | idle
  /-- about to carry out the instruction at `p` -/
  | running (p : P)
  /-- asleep on `c`, with `m` to take again -/
  | asleep (c : C) (m : M) (next : P)
  /-- awake, with `m` to take again -/
  | woken (m : M) (next : P)
  deriving DecidableEq

/-- What a notification on `c` does to a thread. -/
def Status.wake [DecidableEq C] (c : C) : Status M C P → Status M C P
  | .asleep c' m q => if c' = c then .woken m q else .asleep c' m q
  | st => st

/-- The shared data, who owns which mutex, and where each thread is. -/
structure State (T M C D P : Type) : Type where
  data : D
  owner : M → Option T
  status : T → Status M C P

namespace State

/-- Nobody runs, nobody owns a mutex. -/
def start (d : D) : State T M C D P := ⟨d, fun _ => none, fun _ => .idle⟩

variable {s : State T M C D P} {t u : T} {st : Status M C P} {m n : M} {o : Option T} {c : C}

section Goto

variable [DecidableEq T]

/-- Thread `t` moves on. -/
def goto (s : State T M C D P) (t : T) (st : Status M C P) : State T M C D P :=
  { s with status := Function.update s.status t st }

@[simp] theorem goto_data : (s.goto t st).data = s.data := rfl
@[simp] theorem goto_owner : (s.goto t st).owner = s.owner := rfl
@[simp] theorem goto_status_self : (s.goto t st).status t = st := by simp [goto]

theorem goto_status_ne (h : u ≠ t) : (s.goto t st).status u = s.status u := by simp [goto, h]

end Goto

section Own

variable [DecidableEq M]

/-- Mutex `m` changes its owner. -/
def own (s : State T M C D P) (m : M) (o : Option T) : State T M C D P :=
  { s with owner := Function.update s.owner m o }

@[simp] theorem own_data : (s.own m o).data = s.data := rfl
@[simp] theorem own_status : (s.own m o).status = s.status := rfl
@[simp] theorem own_owner_self : (s.own m o).owner m = o := by simp [own]

theorem own_owner_ne (h : n ≠ m) : (s.own m o).owner n = s.owner n := by simp [own, h]

end Own

section WakeAll

variable [DecidableEq C]

/-- Everyone asleep on `c` wakes up. -/
def wakeAll (s : State T M C D P) (c : C) : State T M C D P :=
  { s with status := fun t => (s.status t).wake c }

@[simp] theorem wakeAll_data : (s.wakeAll c).data = s.data := rfl
@[simp] theorem wakeAll_owner : (s.wakeAll c).owner = s.owner := rfl

end WakeAll

end State

/-! ## Steps -/

section Steps

variable [DecidableEq T] [DecidableEq M] [DecidableEq C]

/-- One step of thread `t`. -/
inductive Step (prog : Program M C D O P) :
    State T M C D P → T → State T M C D P → Prop where
  | call {s : State T M C D P} {t : T} (op : O) (h : s.status t = .idle) :
      Step prog s t (s.goto t (.running (prog.entry op)))
  | lock {s : State T M C D P} {t : T} {p q : P} {m : M} (h : s.status t = .running p)
      (hp : prog.code p = .lock m q) (hm : s.owner m = none) :
      Step prog s t ((s.own m (some t)).goto t (.running q))
  | unlock {s : State T M C D P} {t : T} {p q : P} {m : M} (h : s.status t = .running p)
      (hp : prog.code p = .unlock m q) : Step prog s t ((s.own m none).goto t (.running q))
  | access {s : State T M C D P} {t : T} {p q : P} {f : D → Option (D × P)} {d : D}
      (h : s.status t = .running p) (hp : prog.code p = .access f)
      (hf : f s.data = some (d, q)) :
      Step prog s t ({ s with data := d }.goto t (.running q))
  | wait {s : State T M C D P} {t : T} {p q : P} {c : C} {m : M} (h : s.status t = .running p)
      (hp : prog.code p = .wait c m q) : Step prog s t ((s.own m none).goto t (.asleep c m q))
  | notifyAll {s : State T M C D P} {t : T} {p q : P} {c : C} (h : s.status t = .running p)
      (hp : prog.code p = .notifyAll c q) : Step prog s t ((s.wakeAll c).goto t (.running q))
  | ret {s : State T M C D P} {t : T} {p : P} (h : s.status t = .running p)
      (hp : prog.code p = .ret) : Step prog s t (s.goto t .idle)
  | spurious {s : State T M C D P} {t : T} {q : P} {c : C} {m : M}
      (h : s.status t = .asleep c m q) : Step prog s t (s.goto t (.woken m q))
  | reacquire {s : State T M C D P} {t : T} {q : P} {m : M} (h : s.status t = .woken m q)
      (hm : s.owner m = none) : Step prog s t ((s.own m (some t)).goto t (.running q))

variable {prog : Program M C D O P} {s s' : State T M C D P} {t u : T}

/-- **Nobody moves another thread**, except that a notification wakes it. -/
theorem Step.status_ne (h : Step prog s t s') (hu : u ≠ t) :
    s'.status u = s.status u ∨ ∃ p q c, s.status t = .running p ∧
      prog.code p = .notifyAll c q ∧ s'.status u = (s.status u).wake c := by
  cases h with
  | notifyAll h hp => exact Or.inr ⟨_, _, _, h, hp, State.goto_status_ne hu⟩
  | _ => exact Or.inl (State.goto_status_ne hu)

/-- A thread that runs is not moved by others. -/
theorem Step.running_ne {p : P} (h : Step prog s t s') (hu : u ≠ t) :
    s'.status u = .running p ↔ s.status u = .running p := by
  obtain hsame | ⟨-, -, c, -, -, hwake⟩ := h.status_ne hu
  · rw [hsame]
  · rw [hwake]
    cases s.status u with
    | asleep c' m q =>
      rw [Status.wake]
      split <;> simp
    | _ => exact Iff.rfl

/-- **What a step does to its own thread and to the data.** -/
theorem Step.thread_cases {R : P → D → D → P → Prop} (hR : ∀ p, (prog.code p).Next (R p))
    (h : Step prog s t s') :
    (∃ p q, s.status t = .running p ∧ s'.status t = .running q ∧ R p s.data s'.data q) ∨
      s'.data = s.data ∧
        ((∃ op, s.status t = .idle ∧ s'.status t = .running (prog.entry op)) ∨
          (∃ m q, s.status t = .woken m q ∧ s'.status t = .running q) ∨
          (∃ p c m q, s.status t = .running p ∧ prog.code p = .wait c m q ∧
            s'.status t = .asleep c m q) ∨
          (∃ p, s.status t = .running p ∧ prog.code p = .ret ∧ s'.status t = .idle) ∨
          ∃ c m q, s.status t = .asleep c m q ∧ s'.status t = .woken m q) := by
  cases h with
  | call op h => exact Or.inr ⟨rfl, Or.inl ⟨op, h, State.goto_status_self⟩⟩
  | @lock p q m h hp | @unlock p q m h hp | @notifyAll p q m h hp =>
    have hnext := hR p
    rw [hp] at hnext
    exact Or.inl ⟨p, q, h, State.goto_status_self, hnext s.data⟩
  | @access p q f d h hp hf =>
    have hnext := hR p
    rw [hp] at hnext
    exact Or.inl ⟨p, q, h, State.goto_status_self, hnext s.data d q hf⟩
  | wait h hp =>
    exact Or.inr ⟨rfl, Or.inr (Or.inr (Or.inl ⟨_, _, _, _, h, hp, State.goto_status_self⟩))⟩
  | ret h hp =>
    exact Or.inr ⟨rfl, Or.inr (Or.inr (Or.inr (Or.inl ⟨_, h, hp, State.goto_status_self⟩)))⟩
  | spurious h =>
    exact Or.inr ⟨rfl, Or.inr (Or.inr (Or.inr (Or.inr ⟨_, _, _, h, State.goto_status_self⟩)))⟩
  | reacquire h hm => exact Or.inr ⟨rfl, Or.inr (Or.inl ⟨_, _, h, State.goto_status_self⟩)⟩

/-- The data changes by accesses only. -/
theorem Step.data_cases (h : Step prog s t s') :
    s'.data = s.data ∨ ∃ p q f, s.status t = .running p ∧ prog.code p = .access f ∧
      f s.data = some (s'.data, q) ∧ s'.status t = .running q := by
  cases h with
  | access h hp hf => exact Or.inr ⟨_, _, _, h, hp, hf, State.goto_status_self⟩
  | _ => exact Or.inl rfl

end Steps

/-! ## Who owns a mutex -/

/-- The instruction of a point reached with the mutexes `h` leads to points reached with what is
left of them and what it took. -/
def Instr.Respects (held : P → Set M) (h : Set M) : Instr M C D P → Prop
  | .lock m q => ∀ n, n ∈ held q ↔ n = m ∨ n ∈ h
  | .unlock m q => m ∈ h ∧ ∀ n, n ∈ held q ↔ n ∈ h ∧ n ≠ m
  | .access f => ∀ d d' q, f d = some (d', q) → held q = h
  | .wait _ m q => m ∈ h ∧ held q = h
  | .notifyAll _ q => held q = h
  | .ret => h = ∅

@[simp] theorem Instr.respects_map {Q : Type} {held : Q → Set M} {h : Set M} {g : P → Q}
    {i : Instr M C D P} : (i.map g).Respects held h ↔ i.Respects (fun q => held (g q)) h := by
  cases i with
  | access f =>
    refine ⟨fun hi d d' q hf => hi d d' (g q) (by simp [hf]), fun hi d d' q hf => ?_⟩
    obtain ⟨⟨d₁, q₁⟩, hf₁, hq⟩ := Option.map_eq_some_iff.mp hf
    cases hq
    exact hi d d₁ q₁ hf₁
  | _ => exact Iff.rfl

/-- `held` tells for each point which mutexes it is reached with. -/
structure Respects (prog : Program M C D O P) (held : P → Set M) : Prop where
  entry : ∀ op, held (prog.entry op) = ∅
  code : ∀ p, (prog.code p).Respects held (held p)

/-- The mutexes a thread holds. In a wait that is all but the one it gave back. -/
def Status.held (held : P → Set M) : Status M C P → Set M
  | .idle => ∅
  | .running p => held p
  | .asleep _ m q => held q \ {m}
  | .woken m q => held q \ {m}

/-- Threads fall asleep, and wake up, in waits. -/
def Status.FromWait (prog : Program M C D O P) : Status M C P → Prop
  | .asleep c m q => ∃ p, prog.code p = .wait c m q
  | .woken m q => ∃ p c, prog.code p = .wait c m q
  | _ => True

/-- A mutex is owned by the thread that holds it where it stands. -/
structure Disciplined (prog : Program M C D O P) (held : P → Set M) (s : State T M C D P) :
    Prop where
  fromWait : ∀ t, (s.status t).FromWait prog
  owns : ∀ m t, s.owner m = some t ↔ m ∈ (s.status t).held held

variable {prog : Program M C D O P} {held : P → Set M} {s s' : State T M C D P} {t u : T}
  {m n : M} {c : C}

theorem Respects.of_code (hr : Respects prog held) {p : P} {i : Instr M C D P}
    (hp : prog.code p = i) : i.Respects held (held p) := hp ▸ hr.code p

/-- Waking up changes neither what a thread holds nor where it came from. -/
theorem Status.held_wake [DecidableEq C] (st : Status M C P) :
    (st.wake c).held held = st.held held := by
  cases st with
  | asleep c' m q =>
    rw [wake]
    split <;> rfl
  | _ => rfl

theorem Status.of_wake_asleep [DecidableEq C] {st : Status M C P} {c' : C} {q : P}
    (h : st.wake c' = .asleep c m q) : st = .asleep c m q := by
  cases st with
  | asleep c₀ m₀ q₀ =>
    rw [wake] at h
    split at h
    · cases h
    · exact h
  | _ => exact h

theorem Status.wake_ne_asleep [DecidableEq C] {st : Status M C P} {q : P} :
    st.wake c ≠ .asleep c m q := by
  intro h
  rw [of_wake_asleep h, wake, if_pos rfl] at h
  cases h

theorem Status.FromWait.wake [DecidableEq C] {st : Status M C P} (h : st.FromWait prog) :
    (st.wake c).FromWait prog := by
  cases st with
  | asleep c' m q =>
    obtain ⟨p, hp⟩ := h
    rw [Status.wake]
    split
    · exact ⟨p, c', hp⟩
    · exact ⟨p, hp⟩
  | _ => exact h

namespace Disciplined

theorem start (d : D) : Disciplined prog held (State.start d : State T M C D P) :=
  ⟨fun _ => trivial, fun m t => by simp [State.start, Status.held]⟩

/-- Two threads do not hold one mutex. -/
theorem eq_of_held (hs : Disciplined prog held s) (ht : m ∈ (s.status t).held held)
    (hu : m ∈ (s.status u).held held) : t = u := by
  have howner := (hs.owns m t).mpr ht
  rw [(hs.owns m u).mpr hu] at howner
  exact (Option.some.inj howner).symm

variable [DecidableEq T] [DecidableEq M] [DecidableEq C]

theorem fromWait_step (hs : Disciplined prog held s) (h : Step prog s t s') (u : T) :
    (s'.status u).FromWait prog := by
  by_cases hu : u = t
  · subst hu
    have hpre := hs.fromWait u
    cases h with
    | wait h hp =>
      rw [State.goto_status_self]
      exact ⟨_, hp⟩
    | spurious h =>
      rw [h] at hpre
      obtain ⟨p, hp⟩ := hpre
      rw [State.goto_status_self]
      exact ⟨p, _, hp⟩
    | _ =>
      rw [State.goto_status_self]
      trivial
  · obtain hsame | ⟨-, -, c, -, -, hwake⟩ := h.status_ne hu
    · rw [hsame]
      exact hs.fromWait u
    · rw [hwake]
      exact (hs.fromWait u).wake

end Disciplined

section Owns

variable [DecidableEq T] {st : Status M C P}
  (hs : ∀ m t, s.owner m = some t ↔ m ∈ (s.status t).held held)

include hs

/-- A step that takes no mutex and gives none back. -/
theorem owns_goto (hst : st.held held = (s.status t).held held) (m : M) (u : T) :
    (s.goto t st).owner m = some u ↔ m ∈ ((s.goto t st).status u).held held := by
  by_cases hu : u = t
  · rw [hu, State.goto_status_self, hst]
    exact hs m t
  · rw [State.goto_status_ne hu]
    exact hs m u

variable [DecidableEq M]

/-- A step that takes a free mutex. -/
theorem owns_take (hm : s.owner m = none)
    (hst : ∀ n, n ∈ st.held held ↔ n = m ∨ n ∈ (s.status t).held held) (n : M) (u : T) :
    ((s.own m (some t)).goto t st).owner n = some u ↔
      n ∈ (((s.own m (some t)).goto t st).status u).held held := by
  -- nobody else holds the mutex that was free
  have hfree : m ∉ (s.status u).held held := by
    intro hmem
    rw [(hs m u).mpr hmem] at hm
    cases hm
  by_cases hn : n = m <;> by_cases hu : u = t
  · simp [hn, hu, hst]
  · simp [hn, Ne.symm hu, State.goto_status_ne hu, hfree]
  · simp [hn, hu, hst, State.own_owner_ne hn, hs]
  · simp [State.own_owner_ne hn, State.goto_status_ne hu, hs]

/-- A step that gives back a mutex the thread holds. -/
theorem owns_release (hm : m ∈ (s.status t).held held)
    (hst : ∀ n, n ∈ st.held held ↔ n ∈ (s.status t).held held ∧ n ≠ m) (n : M) (u : T) :
    ((s.own m none).goto t st).owner n = some u ↔
      n ∈ (((s.own m none).goto t st).status u).held held := by
  by_cases hn : n = m <;> by_cases hu : u = t
  · simp [hn, hu, hst]
  · -- the mutex was the thread's, so it was nobody else's
    have hother : m ∉ (s.status u).held held := by
      intro hmem
      have howner := (hs m u).mpr hmem
      rw [(hs m t).mpr hm] at howner
      exact hu (Option.some.inj howner).symm
    simp [hn, State.goto_status_ne hu, hother]
  · simp [hn, hu, hst, State.own_owner_ne hn, hs]
  · simp [State.own_owner_ne hn, State.goto_status_ne hu, hs]

end Owns

namespace Disciplined

variable [DecidableEq T] [DecidableEq M] [DecidableEq C]

/-- **A step keeps the discipline.** -/
theorem step (hr : Respects prog held) (hs : Disciplined prog held s) (h : Step prog s t s') :
    Disciplined prog held s' := by
  refine ⟨hs.fromWait_step h, ?_⟩
  cases h with
  | call op h => exact owns_goto hs.owns (by rw [h]; exact hr.entry op)
  | lock h hp hm => exact owns_take hs.owns hm (by rw [h]; exact hr.of_code hp)
  | unlock h hp =>
    obtain ⟨hmem, hleft⟩ := hr.of_code hp
    exact owns_release hs.owns (by rw [h]; exact hmem) (by rw [h]; exact hleft)
  | @access p q f d h hp hf =>
    refine owns_goto (s := { s with data := d }) hs.owns ?_
    change Status.held held (.running q) = (s.status t).held held
    rw [h]
    exact hr.of_code hp _ _ _ hf
  | wait h hp =>
    obtain ⟨hmem, hnext⟩ := hr.of_code hp
    refine owns_release hs.owns (by rw [h]; exact hmem) fun n => ?_
    rw [h, Status.held, Status.held, hnext]
    exact Iff.rfl
  | @notifyAll p q c h hp =>
    refine owns_goto (s := s.wakeAll c) (fun m u => ?_) ?_
    · rw [State.wakeAll, Status.held_wake]
      exact hs.owns m u
    · rw [State.wakeAll, Status.held_wake, h]
      exact hr.of_code hp
  | ret h hp => exact owns_goto hs.owns (by rw [h]; exact (hr.of_code hp).symm)
  | spurious h => exact owns_goto hs.owns (by rw [h]; rfl)
  | @reacquire q m h hm =>
    have hpre := hs.fromWait t
    rw [h] at hpre
    obtain ⟨p, c, hp⟩ := hpre
    obtain ⟨hmem, hnext⟩ := hr.of_code hp
    refine owns_take hs.owns hm fun n => ?_
    rw [h]
    by_cases hn : n = m
    · simp [hn, Status.held, hnext, hmem]
    · simp [hn, Status.held]

/-- Every run keeps the discipline. -/
theorem run (hr : Respects prog held) {d : D} {tr : List (Record (State T M C D P) T)}
    (h : Run (Step prog) (State.start d) tr s) : Disciplined prog held s :=
  h.invariant (fun ht hl => ht.step hr hl) (start d)

end Disciplined

/-! ## Proof outlines -/

/-- Every thread stands at a point whose assertion holds. -/
def Outline (K : P → D → Prop) (s : State T M C D P) : Prop :=
  ∀ t p, s.status t = .running p → K p s.data

/-- **A step keeps the outline**, if it leads from assertion to assertion and disturbs none of the
others. -/
theorem Outline.step [DecidableEq T] [DecidableEq M] [DecidableEq C]
    {R : P → D → D → P → Prop} (hR : ∀ p, (prog.code p).Next (R p)) {K : P → D → Prop}
    (hs : Disciplined prog held s) (hK : Outline K s) (h : Step prog s t s')
    (hentry : ∀ op, K (prog.entry op) s.data)
    (hown : ∀ {p d d' q}, R p d d' q → K p d → K q d')
    (hresume : ∀ {p c m q}, prog.code p = .wait c m q → K q s.data)
    (hstable : ∀ {p q u r d'}, s.status t = .running p → R p s.data d' q → u ≠ t →
      s.status u = .running r → K r s.data → K r d') : Outline K s' := by
  intro u r hu
  by_cases hut : u = t
  · rw [hut] at hu
    obtain ⟨p, q, hst, hst', hstep⟩ | ⟨hdata, ⟨op, -, hst'⟩ | ⟨m, q, hst, hst'⟩ |
      ⟨_, _, _, _, -, -, hst'⟩ | ⟨_, -, -, hst'⟩ | ⟨_, _, _, -, hst'⟩⟩ := h.thread_cases hR <;>
      rw [hst'] at hu
    · obtain rfl := Status.running.inj hu
      exact hown hstep (hK t p hst)
    · obtain rfl := Status.running.inj hu
      rw [hdata]
      exact hentry op
    · -- it woke up, and goes on behind its wait
      obtain rfl := Status.running.inj hu
      have hwait := hs.fromWait t
      rw [hst] at hwait
      obtain ⟨p, c, hp⟩ := hwait
      rw [hdata]
      exact hresume hp
    · cases hu
    · cases hu
    · cases hu
  · have hu' := (h.running_ne hut).mp hu
    obtain ⟨p, q, hst, -, hstep⟩ | ⟨hdata, -⟩ := h.thread_cases hR
    · exact hstable hst hstep hut hu' (hK u r hu')
    · rw [hdata]
      exact hK u r hu'

/-! ## Deadlock -/

/-- The thread cannot go on before it gets the mutex. -/
def Wants (prog : Program M C D O P) (s : State T M C D P) (t : T) (m : M) : Prop :=
  (∃ p q, s.status t = .running p ∧ prog.code p = .lock m q) ∨ ∃ q, s.status t = .woken m q

/-- A set of threads each of which waits for a mutex that a thread of the set owns. -/
def CircularWait (prog : Program M C D O P) (s : State T M C D P) (S : Set T) : Prop :=
  S.Nonempty ∧ ∀ t ∈ S, ∃ m, Wants prog s t m ∧ ∃ u ∈ S, s.owner m = some u

/-- An instruction reached with the mutexes `h` takes mutexes that rank above them only. -/
def Instr.Ascends {R : Type} [LT R] (rank : M → R) (h : Set M) : Instr M C D P → Prop
  | .lock m _ => ∀ n ∈ h, rank n < rank m
  | .wait _ m _ => ∀ n ∈ h, n ≠ m → rank n < rank m
  | _ => True

@[simp] theorem Instr.ascends_map {R Q : Type} [LT R] {rank : M → R} {h : Set M} {g : P → Q}
    {i : Instr M C D P} : (i.map g).Ascends rank h ↔ i.Ascends rank h := by
  cases i <;> exact Iff.rfl

/-- Mutexes are taken in ascending order. -/
def Ascends {R : Type} [LT R] (prog : Program M C D O P) (held : P → Set M) (rank : M → R) :
    Prop :=
  ∀ p, (prog.code p).Ascends rank (held p)

namespace Disciplined

variable {R : Type} {rank : M → R}

/-- **A thread wants no mutex below one it owns.** -/
theorem wants_above [LT R] (hr : Respects prog held) (ha : Ascends prog held rank)
    (hs : Disciplined prog held s) (hm : Wants prog s t m) (hn : s.owner n = some t) :
    rank n < rank m := by
  have hheld := (hs.owns n t).mp hn
  rcases hm with ⟨p, q, hst, hp⟩ | ⟨q, hst⟩
  · rw [hst] at hheld
    have hcode := ha p
    rw [hp] at hcode
    exact hcode n hheld
  · have hpre := hs.fromWait t
    rw [hst] at hheld hpre
    obtain ⟨p, c, hp⟩ := hpre
    have hcode := ha p
    have hkeep := hr.code p
    rw [hp] at hcode hkeep
    refine hcode n ?_ hheld.2
    rw [← hkeep.2]
    exact hheld.1

/-- **No deadlock**: of the mutexes a set of threads waits for, its owner waits for none above the
highest. -/
theorem not_circularWait [Preorder R] [WellFoundedGT R] (hr : Respects prog held)
    (ha : Ascends prog held rank) (hs : Disciplined prog held s) (S : Set T) :
    ¬ CircularWait prog s S := by
  rintro ⟨⟨t₀, ht₀⟩, hwait⟩
  let awaited : Set R :=
    {r | ∃ t ∈ S, ∃ m, Wants prog s t m ∧ (∃ u ∈ S, s.owner m = some u) ∧ rank m = r}
  have hne : awaited.Nonempty := by
    obtain ⟨m, hm, howner⟩ := hwait t₀ ht₀
    exact ⟨rank m, t₀, ht₀, m, hm, howner, rfl⟩
  obtain ⟨-, ⟨t, -, m, -, ⟨u, hu, howner⟩, rfl⟩, hmax⟩ := wellFounded_gt.has_min awaited hne
  -- the owner of the highest mutex waits for a higher one
  obtain ⟨m', hm', howner'⟩ := hwait u hu
  exact hmax (rank m') ⟨u, hu, m', hm', howner', rfl⟩ (hs.wants_above hr ha hm' howner)

end Disciplined

/-! ## Calls that run alone -/

/-- A call that goes on from `p` over `d` with nobody beside it ends, and leaves `d'`. -/
inductive Solo (prog : Program M C D O P) : D → P → D → Prop where
  | lock {d d' : D} {p q : P} {m : M} (hp : prog.code p = .lock m q) (h : Solo prog d q d') :
      Solo prog d p d'
  | unlock {d d' : D} {p q : P} {m : M} (hp : prog.code p = .unlock m q) (h : Solo prog d q d') :
      Solo prog d p d'
  | access {d d₁ d' : D} {p q : P} {f : D → Option (D × P)} (hp : prog.code p = .access f)
      (hf : f d = some (d₁, q)) (h : Solo prog d₁ q d') : Solo prog d p d'
  | notifyAll {d d' : D} {p q : P} {c : C} (hp : prog.code p = .notifyAll c q)
      (h : Solo prog d q d') : Solo prog d p d'
  | ret {d : D} {p : P} (hp : prog.code p = .ret) : Solo prog d p d

/-- Where nobody is in a call, nobody owns a mutex. -/
theorem Disciplined.eq_start (hs : Disciplined prog held s) (hidle : ∀ u, s.status u = .idle) :
    s = State.start s.data := by
  obtain ⟨d, owner, status⟩ := s
  have hstatus : status = fun _ => .idle := funext hidle
  have howner : owner = fun _ => none := by
    funext m
    cases ho : owner m with
    | none => rfl
    | some u =>
      have hmem := (hs.owns m u).mp ho
      rw [hidle u] at hmem
      exact hmem.elim
  rw [hstatus, howner]
  rfl

/-- Thread `t` is at `p`, over `d`, and everyone else is idle. -/
structure Alone (prog : Program M C D O P) (held : P → Set M) (t : T) (p : P) (d : D)
    (s : State T M C D P) : Prop where
  disciplined : Disciplined prog held s
  status : s.status t = .running p
  data : s.data = d
  idle : ∀ u, u ≠ t → s.status u = .idle

/-- The mutexes above those a thread holds are free. -/
theorem Alone.owner_eq_none {R : Type} [Preorder R] {rank : M → R} {d : D} {p : P}
    (hs : Alone prog held t p d s)
    (ha : ∀ n ∈ held p, rank n < rank m) : s.owner m = none := by
  cases ho : s.owner m with
  | none => rfl
  | some u =>
    have hmem := (hs.disciplined.owns m u).mp ho
    by_cases hu : u = t
    · rw [hu, hs.status] at hmem
      exact absurd (ha m hmem) (lt_irrefl _)
    · rw [hs.idle u hu] at hmem
      exact hmem.elim

section Alone

variable [DecidableEq T] [DecidableEq M] [DecidableEq C] {d d' : D} {p q : P}

/-- A step of a thread does not get the others into a call. -/
theorem Step.idle_ne (h : Step prog s t s') (hu : u ≠ t) (hidle : s.status u = .idle) :
    s'.status u = .idle := by
  obtain hsame | ⟨-, -, c, -, -, hwake⟩ := h.status_ne hu
  · rw [hsame, hidle]
  · rw [hwake, hidle]
    rfl

theorem Alone.step (hr : Respects prog held) (hs : Alone prog held t p d s)
    (h : Step prog s t s') (hst : s'.status t = .running q) (hd : s'.data = d') :
    Alone prog held t q d' s' :=
  ⟨hs.disciplined.step hr h, hst, hd, fun u hu => h.idle_ne hu (hs.idle u hu)⟩

variable {R : Type} [Preorder R] {rank : M → R}

/-- **Such a call is a run of its thread**, from the state where it stands to the one where everyone
is idle: the mutexes it takes are free. -/
theorem Solo.exists_run (hr : Respects prog held) (ha : Ascends prog held rank)
    (h : Solo prog d p d') (hs : Alone prog held t p d s) :
    ∃ tr, Run (Step prog) s tr (State.start d') := by
  induction h generalizing s with
  | @lock d d' p q m hp h ih =>
    have hcode := ha p
    rw [hp] at hcode
    have hl := Step.lock hs.status hp (hs.owner_eq_none hcode)
    obtain ⟨tr, htr⟩ := ih (hs.step hr hl State.goto_status_self hs.data)
    exact ⟨_, htr.cons hl⟩
  | unlock hp h ih =>
    have hl := Step.unlock hs.status hp
    obtain ⟨tr, htr⟩ := ih (hs.step hr hl State.goto_status_self hs.data)
    exact ⟨_, htr.cons hl⟩
  | access hp hf h ih =>
    have hl := Step.access hs.status hp (hs.data ▸ hf)
    obtain ⟨tr, htr⟩ := ih (hs.step hr hl State.goto_status_self rfl)
    exact ⟨_, htr.cons hl⟩
  | notifyAll hp h ih =>
    have hl := Step.notifyAll hs.status hp
    obtain ⟨tr, htr⟩ := ih (hs.step hr hl State.goto_status_self hs.data)
    exact ⟨_, htr.cons hl⟩
  | ret hp =>
    have hl := Step.ret hs.status hp
    have hidle : ∀ u, (s.goto t .idle).status u = .idle := by
      intro u
      by_cases hu : u = t
      · rw [hu, State.goto_status_self]
      · exact hl.idle_ne hu (hs.idle u hu)
    have hstart := (hs.disciplined.step hr hl).eq_start hidle
    rw [State.goto_data, hs.data] at hstart
    rw [hstart] at hl
    exact ⟨_, Run.nil.cons hl⟩

/-- A whole call of a thread, with nobody beside it. -/
theorem Solo.exists_run_call {op : O} (hr : Respects prog held) (ha : Ascends prog held rank)
    (h : Solo prog d (prog.entry op) d') (t : T) :
    ∃ tr, Run (Step prog) (State.start d : State T M C D P) tr (State.start d') := by
  have hl : Step prog (State.start d : State T M C D P) t _ := Step.call op rfl
  have hs : Alone prog held t (prog.entry op) d _ :=
    ⟨(Disciplined.start d).step hr hl, State.goto_status_self, rfl, fun u hu => hl.idle_ne hu rfl⟩
  obtain ⟨tr, htr⟩ := h.exists_run hr ha hs
  exact ⟨_, htr.cons hl⟩

end Alone

/-! ## Lost wake-ups -/

/-- The thread is about to fall asleep on `c`. -/
def AtWait (prog : Program M C D O P) (s : State T M C D P) (c : C) (t : T) : Prop :=
  ∃ p m q, s.status t = .running p ∧ prog.code p = .wait c m q

def Asleep (s : State T M C D P) (c : C) (t : T) : Prop := ∃ m q, s.status t = .asleep c m q

/-- The thread is about to notify `c`. -/
def AtNotify (prog : Program M C D O P) (s : State T M C D P) (c : C) (t : T) : Prop :=
  ∃ p q, s.status t = .running p ∧ prog.code p = .notifyAll c q

/-- The thread stands at a point that is ahead of a notification on `c`. -/
def Ahead (ahead : C → D → P → Prop) (s : State T M C D P) (c : C) (t : T) : Prop :=
  ∃ p, s.status t = .running p ∧ ahead c s.data p

/-- Whoever makes the condition of `c` true goes on to notify `c`. -/
structure Announces (T : Type) [DecidableEq T] [DecidableEq M] [DecidableEq C]
    (prog : Program M C D O P) (I : State T M C D P → Prop) (ready : C → D → Prop)
    (ahead : C → D → P → Prop) : Prop where
  /-- a thread comes to its wait while the condition is false -/
  arrive : ∀ {s s' t c}, I s → Step prog s t s' → AtWait prog s' c t → ¬ ready c s'.data
  /-- an access that makes the condition true leaves its thread ahead of a notification -/
  access : ∀ {s : State T M C D P} {t p q f d c}, I s → s.status t = .running p →
    prog.code p = .access f → f s.data = some (d, q) → ready c d → ready c s.data ∨ ahead c d q
  /-- the thread stays ahead of it until it notifies -/
  keep : ∀ {s s' t c}, I s → Step prog s t s' → Ahead ahead s c t → ¬ AtNotify prog s c t →
    Ahead ahead s' c t
  /-- whatever others do to the data -/
  stable : ∀ {s s' t c p}, I s → Step prog s t s' → ahead c s.data p → ahead c s'.data p

/-- While the condition of `c` is true, nobody sleeps on `c`, or is about to, unless a notification
is still to come. -/
def Announced (prog : Program M C D O P) (ready : C → D → Prop) (ahead : C → D → P → Prop) (c : C)
    (s : State T M C D P) : Prop :=
  ready c s.data → ∀ t, AtWait prog s c t ∨ Asleep s c t → ∃ u, Ahead ahead s c u

section Wakeup

variable [DecidableEq T] [DecidableEq M] [DecidableEq C]

/-- What a thread does that is about to notify. -/
theorem Step.of_notifyAll {p q : P} (h : Step prog s t s') (hst : s.status t = .running p)
    (hp : prog.code p = .notifyAll c q) : s' = (s.wakeAll c).goto t (.running q) := by
  cases h with
  | notifyAll h' hp' =>
    rw [hst] at h'
    cases h'
    rw [hp] at hp'
    cases hp'
    rfl
  | call _ h' | spurious h' | reacquire h' =>
    rw [hst] at h'
    cases h'
  | lock h' hp' | unlock h' hp' | access h' hp' | wait h' hp' | ret h' hp' =>
    rw [hst] at h'
    cases h'
    rw [hp] at hp'
    cases hp'

/-- Who sleeps after a step slept before, or has just fallen asleep; a notification on `c` leaves
nobody asleep. -/
theorem Step.asleep (h : Step prog s t s') (hu : Asleep s' c u) :
    ¬ AtNotify prog s c t ∧ (Asleep s c u ∨ u = t ∧ AtWait prog s c t) := by
  obtain ⟨m, q, hst⟩ := hu
  refine ⟨fun hn => ?_, ?_⟩
  · obtain ⟨p, q', hp, hcode⟩ := hn
    obtain rfl := h.of_notifyAll hp hcode
    by_cases hut : u = t
    · rw [hut, State.goto_status_self] at hst
      cases hst
    · rw [State.goto_status_ne hut] at hst
      exact Status.wake_ne_asleep hst
  · by_cases hut : u = t
    · subst hut
      cases h with
      | wait h hp =>
        rw [State.goto_status_self] at hst
        cases hst
        exact Or.inr ⟨rfl, _, _, _, h, hp⟩
      | _ =>
        rw [State.goto_status_self] at hst
        cases hst
    · obtain hsame | ⟨-, -, c', -, -, hwake⟩ := h.status_ne hut
      · exact Or.inl ⟨m, q, hsame.symm.trans hst⟩
      · exact Or.inl ⟨m, q, Status.of_wake_asleep (hwake.symm.trans hst)⟩

variable {I : State T M C D P → Prop} {ready : C → D → Prop} {ahead : C → D → P → Prop}

/-- **No wake-up is lost** in a step, unless it is a last notification that falls between the test
of a thread and its sleep. -/
theorem Announced.step (hA : Announces T prog I ready ahead) (hI : I s)
    (hs : Announced prog ready ahead c s) (h : Step prog s t s')
    (hlast : AtNotify prog s c t → ∀ w, AtWait prog s c w → ∃ u, u ≠ t ∧ Ahead ahead s c u) :
    Announced prog ready ahead c s' := by
  intro hready w hw
  -- what others have ahead of them stays ahead
  have hother : ∀ u, u ≠ t → Ahead ahead s c u → Ahead ahead s' c u := by
    rintro u hu ⟨p, hst, hp⟩
    exact ⟨p, (h.running_ne hu).mpr hst, hA.stable hI h hp⟩
  -- a thread at its wait was there before: it does not come there while the condition is true
  have hwait : AtWait prog s' c w → w ≠ t ∧ AtWait prog s c w := by
    rintro ⟨p, m, q, hst, hp⟩
    have hne : w ≠ t := by
      rintro rfl
      exact hA.arrive hI h ⟨p, m, q, hst, hp⟩ hready
    exact ⟨hne, p, m, q, (h.running_ne hne).mp hst, hp⟩
  by_cases hn : AtNotify prog s c t
  · rcases hw with hw | hw
    · obtain ⟨u, hu, hahead⟩ := hlast hn w (hwait hw).2
      exact ⟨u, hother u hu hahead⟩
    · exact absurd hn (h.asleep hw).1
  · have hw' : ∃ v, AtWait prog s c v ∨ Asleep s c v := by
      rcases hw with hw | hw
      · exact ⟨w, Or.inl (hwait hw).2⟩
      · rcases (h.asleep hw).2 with hw | ⟨-, hw⟩
        · exact ⟨w, Or.inr hw⟩
        · exact ⟨t, Or.inl hw⟩
    obtain ⟨v, hv⟩ := hw'
    -- who made the condition true, now or before, has a notification ahead
    have hbefore : ready c s.data → ∃ u, Ahead ahead s' c u := by
      intro hr
      obtain ⟨u, hu⟩ := hs hr v hv
      by_cases hut : u = t
      · exact ⟨t, hA.keep hI h (hut ▸ hu) hn⟩
      · exact ⟨u, hother u hut hu⟩
    obtain hdata | ⟨p, q, f, hst, hp, hf, hst'⟩ := h.data_cases
    · exact hbefore (hdata ▸ hready)
    · rcases hA.access hI hst hp hf hready with hr | hahead
      · exact hbefore hr
      · exact ⟨t, q, hst', hahead⟩

end Wakeup

/-! ## Schedules -/

/-- What the scheduler lets a thread do: begin a call, go on, or wake up for no reason. -/
inductive Move (O : Type) : Type where
  | call (op : O)
  | go
  | wake

section Schedule

variable [DecidableEq T] [DecidableEq M] [DecidableEq C]

/-- Carry out an instruction. -/
def State.exec (s : State T M C D P) (t : T) : Instr M C D P → Option (State T M C D P)
  | .lock m q => if (s.owner m).isNone then some ((s.own m (some t)).goto t (.running q)) else none
  | .unlock m q => some ((s.own m none).goto t (.running q))
  | .access f => (f s.data).map fun r => { s with data := r.1 }.goto t (.running r.2)
  | .wait c m q => some ((s.own m none).goto t (.asleep c m q))
  | .notifyAll c q => some ((s.wakeAll c).goto t (.running q))
  | .ret => some (s.goto t .idle)

/-- Let a thread do something, if it can. -/
def State.move (prog : Program M C D O P) (s : State T M C D P) (t : T) :
    Move O → Option (State T M C D P)
  | .call op =>
    match s.status t with
    | .idle => some (s.goto t (.running (prog.entry op)))
    | _ => none
  | .go =>
    match s.status t with
    | .running p => s.exec t (prog.code p)
    | .woken m q =>
      if (s.owner m).isNone then some ((s.own m (some t)).goto t (.running q)) else none
    | _ => none
  | .wake =>
    match s.status t with
    | .asleep _ m q => some (s.goto t (.woken m q))
    | _ => none

/-- Follow a schedule, with the trace so far. -/
def schedule (prog : Program M C D O P) (tr : List (Record (State T M C D P) T))
    (s : State T M C D P) :
    List (T × Move O) → Option (List (Record (State T M C D P) T) × State T M C D P)
  | [] => some (tr, s)
  | (t, move) :: rest =>
    match s.move prog t move with
    | some s' => schedule prog (tr ++ [⟨s, t, s'⟩]) s' rest
    | none => none

theorem Step.of_exec {p : P} (hst : s.status t = .running p)
    (h : s.exec t (prog.code p) = some s') : Step prog s t s' := by
  cases hp : prog.code p with
  | lock m q =>
    rw [hp, State.exec] at h
    split at h
    · rename_i hm
      cases h
      exact .lock hst hp (Option.isNone_iff_eq_none.mp hm)
    · cases h
  | unlock m q =>
    rw [hp] at h
    cases h
    exact .unlock hst hp
  | access f =>
    rw [hp, State.exec] at h
    obtain ⟨⟨d, q⟩, hf, rfl⟩ := Option.map_eq_some_iff.mp h
    exact .access hst hp hf
  | wait c m q =>
    rw [hp] at h
    cases h
    exact .wait hst hp
  | notifyAll c q =>
    rw [hp] at h
    cases h
    exact .notifyAll hst hp
  | ret =>
    rw [hp] at h
    cases h
    exact .ret hst hp

theorem Step.of_move {move : Move O} (h : s.move prog t move = some s') : Step prog s t s' := by
  cases move with
  | call op =>
    rw [State.move] at h
    split at h
    · rename_i hst
      cases h
      exact .call op hst
    · cases h
  | go =>
    rw [State.move] at h
    split at h
    · rename_i p hst
      exact .of_exec hst h
    · rename_i m q hst
      split at h
      · rename_i hm
        cases h
        exact .reacquire hst (Option.isNone_iff_eq_none.mp hm)
      · cases h
    · cases h
  | wake =>
    rw [State.move] at h
    split at h
    · rename_i hst
      cases h
      exact .spurious hst
    · cases h

/-- **A schedule that can be followed is a run.** -/
theorem run_of_schedule {s₀ : State T M C D P} {tr tr' : List (Record (State T M C D P) T)}
    {moves : List (T × Move O)} (hrun : Run (Step prog) s₀ tr s)
    (h : schedule prog tr s moves = some (tr', s')) : Run (Step prog) s₀ tr' s' := by
  induction moves generalizing tr s with
  | nil =>
    cases h
    exact hrun
  | cons m moves ih =>
    obtain ⟨t, move⟩ := m
    rw [schedule] at h
    split at h
    · rename_i s₁ hs₁
      exact ih (hrun.snoc (.of_move hs₁)) h
    · cases h

/-- A schedule whose outcome passes a test is a run whose outcome passes it. -/
theorem exists_run_of_schedule (prog : Program M C D O P) (s : State T M C D P)
    (moves : List (T × Move O)) (test : List (Record (State T M C D P) T) × State T M C D P → Bool)
    (h : (schedule prog [] s moves).any test = true) :
    ∃ tr s', Run (Step prog) s tr s' ∧ test (tr, s') = true := by
  rw [Option.any_eq_true] at h
  obtain ⟨⟨tr, s'⟩, hmoves, htest⟩ := h
  exact ⟨tr, s', run_of_schedule .nil hmoves, htest⟩

end Schedule

end Threads
