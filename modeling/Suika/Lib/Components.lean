import Suika.Lib.Threads

/-!
# Programs made of programs

A program over several shared objects, each with mutexes, condition variables and data of its own,
carries out calls of a smaller program for each of them: as calls of its threads, or inside of other
calls and under further mutexes.

* `Instr.Respects.lift`, `Instr.Ascends.lift`: the discipline of the smaller programs is that of the
  large one.
* `Component.run`: a run of the large program, seen from one of its objects, is a run of the smaller
  program with the same threads. What is observed of the two is the same.
-/

namespace Threads

open Runs

variable {T M C D O P M₁ C₁ D₁ O₁ P₁ Q : Type}

/-! ## Instructions over more -/

/-- An object among others: its mutexes, its condition variables and its data. -/
structure Embedding (M₁ C₁ D₁ M C D : Type) : Type where
  mutex : M₁ → M
  cond : C₁ → C
  get : D → D₁
  put : D₁ → D → D
  /-- two mutexes stay two -/
  mutex_inj : Function.Injective mutex
  /-- two condition variables stay two -/
  cond_inj : Function.Injective cond
  /-- what was put there is there -/
  get_put : ∀ x d, get (put x d) = x

/-- The same instruction, among the others. -/
def Instr.lift (e : Embedding M₁ C₁ D₁ M C D) : Instr M₁ C₁ D₁ P → Instr M C D P
  | .lock m q => .lock (e.mutex m) q
  | .unlock m q => .unlock (e.mutex m) q
  | .access f => .access fun d => (f (e.get d)).map fun r => (e.put r.1 d, r.2)
  | .wait c m q => .wait (e.cond c) (e.mutex m) q
  | .notifyAll c q => .notifyAll (e.cond c) q
  | .ret => .ret

/-- The same instruction inside of another call, which goes on at `next`. -/
def Instr.andThen (g : P → Q) (next : Q) : Instr M C D P → Instr M C D Q
  | .ret => .access fun d => some (d, next)
  | i => i.map g

theorem Instr.map_map {R : Type} (f : P → Q) (g : Q → R) (i : Instr M C D P) :
    (i.map f).map g = i.map fun p => g (f p) := by
  cases i with
  | access f => simp [map, Function.comp_def]
  | _ => rfl

theorem Instr.andThen_map {R : Type} (f : P → Q) (g : Q → R) (next : R) (i : Instr M C D P) :
    (i.map f).andThen g next = i.andThen (fun p => g (f p)) next := by
  cases i with
  | access f => simp [map, andThen, Function.comp_def]
  | _ => rfl

/-! ### The discipline -/

/-- What is held among the others: the own mutexes, and those the call was made under. -/
def Embedding.held (e : Embedding M₁ C₁ D₁ M C D) (outer : Set M) (h : Set M₁) : Set M :=
  {m | m ∈ outer ∨ ∃ m₁ ∈ h, e.mutex m₁ = m}

section Discipline

variable {e : Embedding M₁ C₁ D₁ M C D} {i : Instr M₁ C₁ D₁ P} {held : P → Set M₁} {h : Set M₁}
  {held' : Q → Set M} {outer : Set M} {g : P → Q} {next : Q}

theorem Embedding.mutex_mem_held {m : M₁} (houter : ∀ m, e.mutex m ∉ outer) :
    e.mutex m ∈ e.held outer h ↔ m ∈ h := by
  refine ⟨?_, fun hm => Or.inr ⟨m, hm, rfl⟩⟩
  rintro (hm | ⟨m₁, hm₁, heq⟩)
  · exact absurd hm (houter m)
  · exact e.mutex_inj heq ▸ hm₁

/-- **An instruction that agrees with its mutexes does so among the others**, also under some of
theirs. -/
theorem Instr.Respects.lift (hi : i.Respects held h) (houter : ∀ m, e.mutex m ∉ outer)
    (hg : ∀ q, held' (g q) = e.held outer (held q)) (hret : i = .ret → outer = ∅) :
    ((i.lift e).map g).Respects held' (e.held outer h) := by
  cases i with
  | lock m q =>
    intro n
    rw [hg]
    refine ⟨?_, ?_⟩
    · rintro (hn | ⟨n₁, hn₁, rfl⟩)
      · exact Or.inr (Or.inl hn)
      · rcases (hi n₁).mp hn₁ with rfl | hmem
        · exact Or.inl rfl
        · exact Or.inr (Or.inr ⟨n₁, hmem, rfl⟩)
    · rintro (rfl | hn | ⟨n₁, hn₁, rfl⟩)
      · exact Or.inr ⟨m, (hi m).mpr (Or.inl rfl), rfl⟩
      · exact Or.inl hn
      · exact Or.inr ⟨n₁, (hi n₁).mpr (Or.inr hn₁), rfl⟩
  | unlock m q =>
    refine ⟨(e.mutex_mem_held houter).mpr hi.1, fun n => ?_⟩
    rw [hg]
    refine ⟨?_, ?_⟩
    · rintro (hn | ⟨n₁, hn₁, rfl⟩)
      · exact ⟨Or.inl hn, fun heq => houter m (heq ▸ hn)⟩
      · obtain ⟨hmem, hne⟩ := (hi.2 n₁).mp hn₁
        exact ⟨Or.inr ⟨n₁, hmem, rfl⟩, fun heq => hne (e.mutex_inj heq)⟩
    · rintro ⟨hn | ⟨n₁, hn₁, rfl⟩, hne⟩
      · exact Or.inl hn
      · exact Or.inr ⟨n₁, (hi.2 n₁).mpr ⟨hn₁, fun heq => hne (congrArg e.mutex heq)⟩, rfl⟩
  | access f =>
    intro d d' q hq
    obtain ⟨⟨d₁, q₁⟩, hf, heq⟩ := Option.map_eq_some_iff.mp hq
    obtain ⟨⟨d₂, q₂⟩, hf₂, heq₂⟩ := Option.map_eq_some_iff.mp hf
    cases heq₂
    cases heq
    rw [hg, hi _ _ _ hf₂]
  | wait c m q =>
    refine ⟨(e.mutex_mem_held houter).mpr hi.1, ?_⟩
    rw [hg, hi.2]
  | notifyAll c q =>
    change held' (g q) = _
    rw [hg, show held q = h from hi]
  | ret =>
    rw [hret rfl, show h = ∅ from hi]
    ext n
    simp [Embedding.held]

/-- The same inside of another call. -/
theorem Instr.Respects.lift_andThen (hi : i.Respects held h) (houter : ∀ m, e.mutex m ∉ outer)
    (hg : ∀ q, held' (g q) = e.held outer (held q)) (hnext : held' next = outer) :
    ((i.lift e).andThen g next).Respects held' (e.held outer h) := by
  cases i with
  | ret =>
    intro d d' q hq
    cases hq
    rw [hnext, show h = ∅ from hi]
    ext n
    simp [Embedding.held]
  | _ => exact Instr.Respects.lift hi houter hg fun hret => by cases hret

variable {R₁ R : Type} [LT R₁] [LT R] {rank₁ : M₁ → R₁} {rank : M → R}

/-- **And it takes its mutexes in ascending order.** -/
theorem Instr.Ascends.lift (hi : i.Ascends rank₁ h)
    (hrank : ∀ m n, rank₁ m < rank₁ n → rank (e.mutex m) < rank (e.mutex n))
    (houter : ∀ m ∈ outer, ∀ n, rank m < rank (e.mutex n)) :
    (i.lift e).Ascends rank (e.held outer h) := by
  cases i with
  | lock m q =>
    rintro n (hn | ⟨n₁, hn₁, rfl⟩)
    · exact houter n hn m
    · exact hrank n₁ m (hi n₁ hn₁)
  | wait c m q =>
    rintro n (hn | ⟨n₁, hn₁, rfl⟩) hne
    · exact houter n hn m
    · exact hrank n₁ m (hi n₁ hn₁ fun heq => hne (congrArg e.mutex heq))
  | _ => trivial

theorem Instr.Ascends.andThen {j : Instr M C D P} {h : Set M} (hj : j.Ascends rank h) :
    (j.andThen g next).Ascends rank h := by
  cases j with
  | ret => trivial
  | _ => exact Instr.ascends_map.mpr hj

end Discipline

/-! ## Components -/

/-- An instruction that has nothing to do with the object, and goes on at a point `enters` allows.
A thread that falls asleep in it wakes up outside. -/
def Instr.Avoids (e : Embedding M₁ C₁ D₁ M C D) (inner : P → Option P₁)
    (enters : Option P₁ → Prop) : Instr M C D P → Prop
  | .lock m q | .unlock m q => (∀ m₁, e.mutex m₁ ≠ m) ∧ enters (inner q)
  | .access f => ∀ d d' q, f d = some (d', q) → e.get d' = e.get d ∧ enters (inner q)
  | .wait c m q => (∀ c₁, e.cond c₁ ≠ c) ∧ (∀ m₁, e.mutex m₁ ≠ m) ∧ inner q = none
  | .notifyAll c q => (∀ c₁, e.cond c₁ ≠ c) ∧ enters (inner q)
  | .ret => True

/-- The point of the smaller program at a place where it is entered, if it is. -/
def Program.Enters (part : Program M₁ C₁ D₁ O₁ P₁) (o : Option P₁) : Prop :=
  o = none ∨ ∃ op, o = some (part.entry op)

/-- `prog` carries out calls of `part`: `inner` says which of its points stand for points of these
calls. -/
structure Component (prog : Program M C D O P) (part : Program M₁ C₁ D₁ O₁ P₁)
    (e : Embedding M₁ C₁ D₁ M C D) (inner : P → Option P₁) : Prop where
  entry : ∀ op, part.Enters (inner (prog.entry op))
  inside : ∀ {p p₁}, inner p = some p₁ → ∃ g : P₁ → P, (∀ q, inner (g q) = some q) ∧
    (prog.code p = ((part.code p₁).lift e).map g ∨
      ∃ next, inner next = none ∧ prog.code p = ((part.code p₁).lift e).andThen g next)
  outside : ∀ {p}, inner p = none → (prog.code p).Avoids e inner part.Enters

/-- Two objects that share nothing. -/
structure Embedding.Apart {M₂ C₂ D₂ : Type} (e : Embedding M₁ C₁ D₁ M C D)
    (e₂ : Embedding M₂ C₂ D₂ M C D) : Prop where
  mutex : ∀ m₁ m₂, e.mutex m₁ ≠ e₂.mutex m₂
  cond : ∀ c₁ c₂, e.cond c₁ ≠ e₂.cond c₂
  data : ∀ x d, e.get (e₂.put x d) = e.get d

/-- **What belongs to another object avoids this one.** -/
theorem Instr.avoids_lift {M₂ C₂ D₂ P₂ : Type} {e : Embedding M₁ C₁ D₁ M C D}
    {e₂ : Embedding M₂ C₂ D₂ M C D} {inner : P → Option P₁} {enters : Option P₁ → Prop}
    {g : P₂ → P} (i : Instr M₂ C₂ D₂ P₂) (h : e.Apart e₂) (hg : ∀ q, inner (g q) = none)
    (henters : enters none) : ((i.lift e₂).map g).Avoids e inner enters := by
  cases i with
  | lock m q | unlock m q => exact ⟨fun m₁ => h.mutex m₁ m, (hg q).symm ▸ henters⟩
  | access f =>
    intro d d' q hq
    obtain ⟨⟨d₁, q₁⟩, hf, heq⟩ := Option.map_eq_some_iff.mp hq
    obtain ⟨⟨d₂, q₂⟩, -, heq₂⟩ := Option.map_eq_some_iff.mp hf
    cases heq₂
    cases heq
    exact ⟨h.data _ _, (hg q₂).symm ▸ henters⟩
  | wait c m q => exact ⟨fun c₁ => h.cond c₁ c, fun m₁ => h.mutex m₁ m, hg q⟩
  | notifyAll c q => exact ⟨fun c₁ => h.cond c₁ c, (hg q).symm ▸ henters⟩
  | ret => trivial

theorem Instr.avoids_andThen {M₂ C₂ D₂ P₂ : Type} {e : Embedding M₁ C₁ D₁ M C D}
    {e₂ : Embedding M₂ C₂ D₂ M C D} {inner : P → Option P₁} {enters : Option P₁ → Prop}
    {g : P₂ → P} {next : P} (i : Instr M₂ C₂ D₂ P₂) (h : e.Apart e₂)
    (hg : ∀ q, inner (g q) = none) (hnext : inner next = none) (henters : enters none) :
    ((i.lift e₂).andThen g next).Avoids e inner enters := by
  by_cases hi : i = .ret
  · rw [hi]
    intro d d' q hq
    cases hq
    exact ⟨rfl, hnext.symm ▸ henters⟩
  · have hmap : (i.lift e₂).andThen g next = (i.lift e₂).map g := by
      cases i <;> first | rfl | exact absurd rfl hi
    rw [hmap]
    exact i.avoids_lift h hg henters

/-- What the object sees of a thread. -/
inductive Status.Shows (e : Embedding M₁ C₁ D₁ M C D) (inner : P → Option P₁) :
    Status M C P → Status M₁ C₁ P₁ → Prop where
  | idle : Shows e inner .idle .idle
  | running {p : P} {p₁ : P₁} (h : inner p = some p₁) :
      Shows e inner (.running p) (.running p₁)
  | asleep {c : C₁} {m : M₁} {q : P} {q₁ : P₁} (h : inner q = some q₁) :
      Shows e inner (.asleep (e.cond c) (e.mutex m) q) (.asleep c m q₁)
  | woken {m : M₁} {q : P} {q₁ : P₁} (h : inner q = some q₁) :
      Shows e inner (.woken (e.mutex m) q) (.woken m q₁)
  | outside {p : P} (h : inner p = none) : Shows e inner (.running p) .idle
  | asleepOutside {c : C} {m : M} {q : P} (h : inner q = none) (hm : ∀ m₁, e.mutex m₁ ≠ m) :
      Shows e inner (.asleep c m q) .idle
  | wokenOutside {m : M} {q : P} (h : inner q = none) (hm : ∀ m₁, e.mutex m₁ ≠ m) :
      Shows e inner (.woken m q) .idle

/-- What the object sees of a state. -/
structure Projects (e : Embedding M₁ C₁ D₁ M C D) (inner : P → Option P₁) (s : State T M C D P)
    (s₁ : State T M₁ C₁ D₁ P₁) : Prop where
  data : s₁.data = e.get s.data
  owner : ∀ m, s₁.owner m = s.owner (e.mutex m)
  status : ∀ t, (s.status t).Shows e inner (s₁.status t)

variable {e : Embedding M₁ C₁ D₁ M C D} {inner : P → Option P₁}

namespace Projects

variable {s : State T M C D P} {s₁ : State T M₁ C₁ D₁ P₁}

theorem start {d : D} {d₁ : D₁} (hd : d₁ = e.get d) :
    Projects e inner (State.start d : State T M C D P) (State.start d₁) :=
  ⟨hd, fun _ => rfl, fun _ => .idle⟩

variable [DecidableEq T]

theorem goto {t : T} {st : Status M C P} {st₁ : Status M₁ C₁ P₁} (h : Projects e inner s s₁)
    (hst : st.Shows e inner st₁) : Projects e inner (s.goto t st) (s₁.goto t st₁) where
  data := h.data
  owner := h.owner
  status u := by
    by_cases hu : u = t
    · rw [hu, State.goto_status_self, State.goto_status_self]
      exact hst
    · rw [State.goto_status_ne hu, State.goto_status_ne hu]
      exact h.status u

/-- The object does not see that the thread moves on. -/
theorem goto_hidden {t : T} {st : Status M C P} (h : Projects e inner s s₁)
    (hst : st.Shows e inner (s₁.status t)) : Projects e inner (s.goto t st) s₁ where
  data := h.data
  owner := h.owner
  status u := by
    by_cases hu : u = t
    · rw [hu, State.goto_status_self]
      exact hst
    · rw [State.goto_status_ne hu]
      exact h.status u

omit [DecidableEq T]

theorem withData {d : D} {d₁ : D₁} (h : Projects e inner s s₁) (hd : d₁ = e.get d) :
    Projects e inner { s with data := d } { s₁ with data := d₁ } := ⟨hd, h.owner, h.status⟩

theorem withData_hidden {d : D} (h : Projects e inner s s₁) (hd : e.get d = e.get s.data) :
    Projects e inner { s with data := d } s₁ := ⟨h.data.trans hd.symm, h.owner, h.status⟩

section Own

variable [DecidableEq M] [DecidableEq M₁] {o : Option T}

theorem own (h : Projects e inner s s₁) (m : M₁) :
    Projects e inner (s.own (e.mutex m) o) (s₁.own m o) where
  data := h.data
  owner n := by
    by_cases hn : n = m
    · rw [hn, State.own_owner_self, State.own_owner_self]
    · rw [State.own_owner_ne hn, State.own_owner_ne fun heq => hn (e.mutex_inj heq)]
      exact h.owner n
  status := h.status

omit [DecidableEq M₁] in
theorem own_hidden {m : M} (h : Projects e inner s s₁) (hm : ∀ m₁, e.mutex m₁ ≠ m) :
    Projects e inner (s.own m o) s₁ where
  data := h.data
  owner n := by
    rw [State.own_owner_ne (hm n)]
    exact h.owner n
  status := h.status

end Own

section WakeAll

variable [DecidableEq C] [DecidableEq C₁]

theorem wakeAll (h : Projects e inner s s₁) (c : C₁) :
    Projects e inner (s.wakeAll (e.cond c)) (s₁.wakeAll c) where
  data := h.data
  owner := h.owner
  status t := by
    change ((s.status t).wake (e.cond c)).Shows e inner ((s₁.status t).wake c)
    have hst := h.status t
    generalize s.status t = st at hst ⊢
    generalize s₁.status t = st₁ at hst ⊢
    cases hst with
    | @asleep c' m q q₁ hq =>
      rw [Status.wake, Status.wake]
      by_cases hc : c' = c
      · rw [if_pos hc, if_pos (congrArg e.cond hc)]
        exact .woken hq
      · rw [if_neg hc, if_neg fun heq => hc (e.cond_inj heq)]
        exact .asleep hq
    | @asleepOutside c' m q hq hm =>
      rw [Status.wake]
      split
      · exact .wokenOutside hq hm
      · exact .asleepOutside hq hm
    | idle => exact .idle
    | running hp => exact .running hp
    | woken hq => exact .woken hq
    | outside hp => exact .outside hp
    | wokenOutside hq hm => exact .wokenOutside hq hm

omit [DecidableEq C₁] in
theorem wakeAll_hidden {c : C} (h : Projects e inner s s₁) (hc : ∀ c₁, e.cond c₁ ≠ c) :
    Projects e inner (s.wakeAll c) s₁ where
  data := h.data
  owner := h.owner
  status t := by
    change ((s.status t).wake c).Shows e inner (s₁.status t)
    have hst := h.status t
    generalize s.status t = st at hst ⊢
    generalize s₁.status t = st₁ at hst ⊢
    cases hst with
    | @asleep c' m q q₁ hq =>
      rw [Status.wake, if_neg (hc c')]
      exact .asleep hq
    | @asleepOutside c' m q hq hm =>
      rw [Status.wake]
      split
      · exact .wokenOutside hq hm
      · exact .asleepOutside hq hm
    | idle => exact .idle
    | running hp => exact .running hp
    | woken hq => exact .woken hq
    | outside hp => exact .outside hp
    | wokenOutside hq hm => exact .wokenOutside hq hm

end WakeAll

end Projects

/-! ## Runs -/

section

variable [DecidableEq T] [DecidableEq M] [DecidableEq C] [DecidableEq M₁] [DecidableEq C₁]
  {prog : Program M C D O P} {part : Program M₁ C₁ D₁ O₁ P₁} {s s' : State T M C D P}
  {s₁ : State T M₁ C₁ D₁ P₁} {t : T}

omit [DecidableEq M] [DecidableEq C] in
/-- A thread that enters the object, or stays outside. -/
theorem Projects.enter {q : P} (h : Projects e inner s s₁) (hst : s₁.status t = .idle)
    (hq : part.Enters (inner q)) :
    ∃ s₁', Projects e inner (s.goto t (.running q)) s₁' ∧ (Step part s₁ t s₁' ∨ s₁' = s₁) := by
  obtain hnone | ⟨op, hop⟩ := hq
  · refine ⟨s₁, h.goto_hidden ?_, Or.inr rfl⟩
    rw [hst]
    exact .outside hnone
  · exact ⟨_, h.goto (.running hop), Or.inl (.call op hst)⟩

/-- What a thread that runs does is its instruction. -/
theorem Step.exec_eq {p : P} (h : Step prog s t s') (hst : s.status t = .running p) :
    s.exec t (prog.code p) = some s' := by
  cases h with
  | call _ h' | spurious h' | reacquire h' =>
    rw [hst] at h'
    cases h'
  | lock h' hp hm =>
    rw [hst] at h'
    cases h'
    rw [hp, State.exec, hm]
    rfl
  | access h' hp hf =>
    rw [hst] at h'
    cases h'
    rw [hp, State.exec, hf]
    rfl
  | unlock h' hp | wait h' hp | notifyAll h' hp | ret h' hp =>
    rw [hst] at h'
    cases h'
    rw [hp]
    rfl

/-- **An instruction of the object does the same among the others.** -/
theorem Projects.exec_lift {i : Instr M₁ C₁ D₁ P₁} {g : P₁ → P} (hs : Projects e inner s s₁)
    (hg : ∀ q, inner (g q) = some q) (h : s.exec t ((i.lift e).map g) = some s') :
    ∃ s₁', s₁.exec t i = some s₁' ∧ Projects e inner s' s₁' := by
  cases i with
  | lock m q =>
    rw [Instr.lift, Instr.map, State.exec, ← hs.owner m] at h
    rw [State.exec]
    split at h
    · rename_i hm
      cases h
      exact ⟨_, if_pos hm, (hs.own m).goto (.running (hg q))⟩
    · cases h
  | unlock m q =>
    cases h
    exact ⟨_, rfl, (hs.own m).goto (.running (hg q))⟩
  | access f =>
    obtain ⟨⟨d, p⟩, hf, rfl⟩ := Option.map_eq_some_iff.mp h
    obtain ⟨⟨d', q⟩, hf', heq⟩ := Option.map_eq_some_iff.mp hf
    obtain ⟨⟨d₁, q₁⟩, hf₁, heq₁⟩ := Option.map_eq_some_iff.mp hf'
    cases heq₁
    cases heq
    refine ⟨_, ?_, (hs.withData (e.get_put d₁ s.data).symm).goto (.running (hg q₁))⟩
    rw [State.exec, hs.data, hf₁]
    rfl
  | wait c m q =>
    cases h
    exact ⟨_, rfl, (hs.own m).goto (.asleep (hg q))⟩
  | notifyAll c q =>
    cases h
    exact ⟨_, rfl, (hs.wakeAll c).goto (.running (hg q))⟩
  | ret =>
    cases h
    exact ⟨_, rfl, hs.goto .idle⟩

/-- The same inside of another call: where the call of the object ends, the other goes on. -/
theorem Projects.exec_andThen {i : Instr M₁ C₁ D₁ P₁} {g : P₁ → P} {next : P}
    (hs : Projects e inner s s₁) (hg : ∀ q, inner (g q) = some q) (hnext : inner next = none)
    (h : s.exec t ((i.lift e).andThen g next) = some s') :
    ∃ s₁', s₁.exec t i = some s₁' ∧ Projects e inner s' s₁' := by
  cases i with
  | ret =>
    cases h
    exact ⟨_, rfl, hs.goto (.outside hnext)⟩
  | _ => exact hs.exec_lift hg h

/-- **An instruction that avoids the object** is not seen by it, unless the thread enters. -/
theorem Projects.exec_avoids {i : Instr M C D P} (hs : Projects e inner s s₁)
    (hst : s₁.status t = .idle) (hi : i.Avoids e inner part.Enters)
    (h : s.exec t i = some s') :
    ∃ s₁', Projects e inner s' s₁' ∧ (Step part s₁ t s₁' ∨ s₁' = s₁) := by
  cases i with
  | lock m q =>
    rw [State.exec] at h
    split at h
    · cases h
      exact (hs.own_hidden hi.1).enter hst hi.2
    · cases h
  | unlock m q =>
    cases h
    exact (hs.own_hidden hi.1).enter hst hi.2
  | access f =>
    obtain ⟨⟨d, q⟩, hf, rfl⟩ := Option.map_eq_some_iff.mp h
    obtain ⟨hd, hq⟩ := hi _ _ _ hf
    exact (hs.withData_hidden hd).enter hst hq
  | wait c m q =>
    cases h
    obtain ⟨-, hm, hq⟩ := hi
    refine ⟨s₁, (hs.own_hidden hm).goto_hidden ?_, Or.inr rfl⟩
    rw [hst]
    exact .asleepOutside hq hm
  | notifyAll c q =>
    cases h
    exact (hs.wakeAll_hidden hi.1).enter hst hi.2
  | ret =>
    cases h
    refine ⟨s₁, hs.goto_hidden ?_, Or.inr rfl⟩
    rw [hst]
    exact .idle

/-- **One step**, seen from the object: a step of the smaller program, or nothing. -/
theorem Component.step (hc : Component prog part e inner) (hs : Projects e inner s s₁)
    (h : Step prog s t s') :
    ∃ s₁', Projects e inner s' s₁' ∧ (Step part s₁ t s₁' ∨ s₁' = s₁) := by
  have hshows := hs.status t
  cases hst : s.status t with
  | idle =>
    rw [hst] at hshows
    generalize hst₁ : s₁.status t = st₁ at hshows
    cases hshows
    cases h with
    | call op _ => exact hs.enter hst₁ (hc.entry op)
    | lock h' | unlock h' | access h' | wait h' | notifyAll h' | ret h' | spurious h'
    | reacquire h' =>
      rw [hst] at h'
      cases h'
  | running p =>
    rw [hst] at hshows
    have hexec := h.exec_eq hst
    generalize hst₁ : s₁.status t = st₁ at hshows
    cases hshows with
    | @running _ p₁ hp =>
      obtain ⟨g, hg, hcode | ⟨next, hnext, hcode⟩⟩ := hc.inside hp
      · rw [hcode] at hexec
        obtain ⟨s₁', hexec₁, hs'⟩ := hs.exec_lift hg hexec
        exact ⟨s₁', hs', Or.inl (.of_exec hst₁ hexec₁)⟩
      · rw [hcode] at hexec
        obtain ⟨s₁', hexec₁, hs'⟩ := hs.exec_andThen hg hnext hexec
        exact ⟨s₁', hs', Or.inl (.of_exec hst₁ hexec₁)⟩
    | outside hp => exact hs.exec_avoids hst₁ (hc.outside hp) hexec
  | asleep c m q =>
    rw [hst] at hshows
    cases h with
    | spurious h' =>
      rw [hst] at h'
      cases h'
      generalize hst₁ : s₁.status t = st₁ at hshows
      cases hshows with
      | asleep hq => exact ⟨_, hs.goto (.woken hq), Or.inl (.spurious hst₁)⟩
      | asleepOutside hq hm =>
        refine ⟨s₁, hs.goto_hidden ?_, Or.inr rfl⟩
        rw [hst₁]
        exact .wokenOutside hq hm
    | call _ h' | lock h' | unlock h' | access h' | wait h' | notifyAll h' | ret h'
    | reacquire h' =>
      rw [hst] at h'
      cases h'
  | woken m q =>
    rw [hst] at hshows
    cases h with
    | reacquire h' hfree =>
      rw [hst] at h'
      cases h'
      generalize hst₁ : s₁.status t = st₁ at hshows
      cases hshows with
      | @woken m₁ _ q₁ hq =>
        refine ⟨_, (hs.own m₁).goto (.running hq), Or.inl (.reacquire hst₁ ?_)⟩
        rw [hs.owner, hfree]
      | wokenOutside hq hm =>
        refine ⟨s₁, (hs.own_hidden hm).goto_hidden ?_, Or.inr rfl⟩
        rw [hst₁]
        exact .outside hq
    | call _ h' | lock h' | unlock h' | access h' | wait h' | notifyAll h' | ret h'
    | spurious h' =>
      rw [hst] at h'
      cases h'

/-- The object sees `r` as `r₁`. -/
structure Mirrors (e : Embedding M₁ C₁ D₁ M C D) (inner : P → Option P₁)
    (r : Record (State T M C D P) T) (r₁ : Record (State T M₁ C₁ D₁ P₁) T) : Prop where
  label : r₁.label = r.label
  pre : Projects e inner r.pre r₁.pre
  post : Projects e inner r.post r₁.post

/-- **Projection**: what the object sees of a run is a run of the smaller program. An observer who
sees the same in steps that mirror each other, and nothing in the others, sees the same in both. -/
theorem Component.run (hc : Component prog part e inner)
    {tr : List (Record (State T M C D P) T)} (h : Run (Step prog) s tr s')
    (hs : Projects e inner s s₁) :
    ∃ tr₁ s₁', Run (Step part) s₁ tr₁ s₁' ∧ Projects e inner s' s₁' ∧
      (∀ r₁ ∈ tr₁, ∃ r ∈ tr, Mirrors e inner r r₁) ∧
      ∀ (α : Type) (obs : Record (State T M C D P) T → List α)
        (obs₁ : Record (State T M₁ C₁ D₁ P₁) T → List α),
        (∀ r r₁, Mirrors e inner r r₁ → obs r = obs₁ r₁) →
        (∀ r s₁, Projects e inner r.pre s₁ → Projects e inner r.post s₁ → obs r = []) →
          tr.flatMap obs = tr₁.flatMap obs₁ := by
  induction h with
  | nil => exact ⟨[], s₁, .nil, hs, fun _ h => absurd h List.not_mem_nil, fun _ _ _ _ _ => rfl⟩
  | @snoc tr u s' t _ hl ih =>
    obtain ⟨tr₁, u₁, hrun, hu, hmirror, hobs⟩ := ih
    have hbefore : ∀ r₁ ∈ tr₁, ∃ r ∈ tr ++ [⟨u, t, s'⟩], Mirrors e inner r r₁ := by
      intro r₁ hr₁
      obtain ⟨r, hr, hm⟩ := hmirror r₁ hr₁
      exact ⟨r, List.mem_append_left _ hr, hm⟩
    obtain ⟨s₁', hs', hstep | rfl⟩ := hc.step hu hl
    · refine ⟨tr₁ ++ [⟨u₁, t, s₁'⟩], s₁', hrun.snoc hstep, hs', ?_, ?_⟩
      · intro r₁ hr₁
        rcases List.mem_append.mp hr₁ with hr₁ | hr₁
        · exact hbefore r₁ hr₁
        · rw [List.mem_singleton.mp hr₁]
          exact ⟨_, List.mem_append_right _ (List.mem_singleton_self _), rfl, hu, hs'⟩
      · intro α obs obs₁ hsame hhidden
        rw [List.flatMap_append, List.flatMap_append, hobs α obs obs₁ hsame hhidden,
          List.flatMap_singleton, List.flatMap_singleton,
          hsame ⟨u, t, s'⟩ ⟨u₁, t, s₁'⟩ ⟨rfl, hu, hs'⟩]
    · refine ⟨tr₁, s₁', hrun, hs', hbefore, fun α obs obs₁ hsame hhidden => ?_⟩
      rw [List.flatMap_append, List.flatMap_singleton, hobs α obs obs₁ hsame hhidden,
        hhidden ⟨u, t, s'⟩ s₁' hu hs', List.append_nil]

end

end Threads
