import Suika.Lib.Components

/-!
# Calls that take effect at once

An object answers each call in one step; a program carries the calls out in many, by threads that
get in each other's way. The program linearizes the object if every point knows whether its call has
taken effect, and with which answer: a call has not when it starts, it has when it ends, and in the
step where it does the object makes a step.

* `Linearizes.sequential`: the calls, in the order in which they take effect, are a run of the
  object.
* `Linearizes.answers`: each thread returns from its calls in the order in which they took effect,
  with the answers they took effect with.
* `Linearizes.inside`: both for the calls of a program inside of a larger one.
-/

namespace Threads

open Runs

variable {T M C D O P A Q : Type}

/-! ## Where an instruction leads -/

/-- The instruction goes on at `q`, and leaves `d'` of `d`. -/
def Instr.Leads : Instr M C D P → D → D → P → Prop
  | .lock _ q', d, d', q | .unlock _ q', d, d', q | .wait _ _ q', d, d', q
  | .notifyAll _ q', d, d', q => d' = d ∧ q = q'
  | .access f, d, d', q => f d = some (d', q)
  | .ret, _, _, _ => False

theorem Instr.next_leads (i : Instr M C D P) : i.Next i.Leads := by
  cases i with
  | access f => exact fun _ _ _ h => h
  | ret => trivial
  | _ => exact fun _ => ⟨rfl, rfl⟩

/-! ## What a thread has done -/

/-- The call of a thread and its answer, from where it takes effect to where it returns. -/
def Status.effect (effect : P → Option (O × Q)) : Status M C P → Option (O × Q)
  | .idle => none
  | .running p => effect p
  | .asleep _ _ q => effect q
  | .woken _ q => effect q

theorem Status.effect_wake [DecidableEq C] {effect : P → Option (O × Q)} {c : C}
    (st : Status M C P) : (st.wake c).effect effect = st.effect effect := by
  cases st with
  | asleep c' m q =>
    rw [wake]
    split <;> rfl
  | _ => rfl

section

variable (effect : P → Option (O × Q))

/-- The call that takes effect in a step. -/
def takesEffect (r : Record (State T M C D P) T) : List (T × O × Q) :=
  if ((r.pre.status r.label).effect effect).isNone then
    ((r.post.status r.label).effect effect).toList.map fun e => (r.label, e)
  else []

/-- The call that returns in a step. -/
def handedBack (r : Record (State T M C D P) T) : List (T × O × Q) :=
  if ((r.post.status r.label).effect effect).isNone then
    ((r.pre.status r.label).effect effect).toList.map fun e => (r.label, e)
  else []

/-- The call of a thread that has taken effect and not returned. -/
def pending (s : State T M C D P) (t : T) : List (T × O × Q) :=
  ((s.status t).effect effect).toList.map fun e => (t, e)

end

/-! ## Linearizations -/

/-- `prog` linearizes the object that goes from `a` to `b`, and answers `q`, in a call `op` with
`spec op a q b`. The state of the object is read off the data by `abs`; `call` is the call of a
point, and `answer` what it was answered. The states of the threads meet `I`, and their steps
`K`. -/
structure Linearizes (prog : Program M C D O P) (I : State T M C D P → Prop)
    (K : State T M C D P → T → Prop) (abs : D → A) (spec : O → A → Q → A → Prop) (call : P → O)
    (answer : P → Option Q) : Prop where
  entry : ∀ op, call (prog.entry op) = op ∧ answer (prog.entry op) = none
  code : ∀ {s t p d q}, I s → K s t → s.status t = .running p → (prog.code p).Leads s.data d q →
    call q = call p ∧ (answer q = answer p ∧ abs d = abs s.data ∨
      answer p = none ∧ ∃ a, answer q = some a ∧ spec (call p) (abs s.data) a (abs d))
  ret : ∀ {p}, prog.code p = .ret → (answer p).isSome

/-- The call of a point with its answer. -/
def effectOf (call : P → O) (answer : P → Option Q) (p : P) : Option (O × Q) :=
  (answer p).map fun a => (call p, a)

namespace Linearizes

variable [DecidableEq T] [DecidableEq M] [DecidableEq C] {prog : Program M C D O P}
  {I : State T M C D P → Prop} {K : State T M C D P → T → Prop} {abs : D → A}
  {spec : O → A → Q → A → Prop} {call : P → O} {answer : P → Option Q} {s s' : State T M C D P}
  {t u : T} {tr : List (Record (State T M C D P) T)}

/-- **One step of a thread**: nothing takes effect, or a call does, or one returns. -/
theorem step_cases (hl : Linearizes prog I K abs spec call answer) (hI : I s) (hK : K s t)
    (h : Step prog s t s') :
    (s'.status t).effect (effectOf call answer) = (s.status t).effect (effectOf call answer) ∧
        abs s'.data = abs s.data ∨
      (∃ op a, (s.status t).effect (effectOf call answer) = none ∧
        (s'.status t).effect (effectOf call answer) = some (op, a) ∧
        spec op (abs s.data) a (abs s'.data)) ∨
      ∃ e, (s.status t).effect (effectOf call answer) = some e ∧
        (s'.status t).effect (effectOf call answer) = none ∧ abs s'.data = abs s.data := by
  -- what an instruction does that goes on at `q`
  have hgo : ∀ {p d q st}, s.status t = .running p → (prog.code p).Leads s.data d q →
      Status.effect (effectOf call answer) st = effectOf call answer q →
        s'.status t = st → s'.data = d →
      (s'.status t).effect (effectOf call answer) = (s.status t).effect (effectOf call answer) ∧
          abs s'.data = abs s.data ∨
        ∃ op a, (s.status t).effect (effectOf call answer) = none ∧
          (s'.status t).effect (effectOf call answer) = some (op, a) ∧
          spec op (abs s.data) a (abs s'.data) := by
    intro p d q st hp hleads hst hst' hd
    obtain ⟨hcall, hsame | ⟨hnone, a, ha, hspec⟩⟩ := hl.code hI hK hp hleads
    · refine Or.inl ⟨?_, hd ▸ hsame.2⟩
      rw [hst', hst, hp, Status.effect, effectOf, effectOf, hsame.1, hcall]
    · refine Or.inr ⟨call p, a, ?_, ?_, hd ▸ hspec⟩
      · rw [hp, Status.effect, effectOf, hnone]
        rfl
      · rw [hst', hst, effectOf, ha, hcall]
        rfl
  obtain ⟨p, q, hp, hq, hleads⟩ | ⟨hdata, ⟨op, hp, hq⟩ | ⟨m, q, hp, hq⟩ |
    ⟨p, c, m, q, hp, hcode, hq⟩ | ⟨p, hp, hcode, hq⟩ | ⟨c, m, q, hp, hq⟩⟩ :=
      h.thread_cases fun p => (prog.code p).next_leads
  · rcases hgo hp hleads rfl hq rfl with hsame | htakes
    · exact Or.inl hsame
    · exact Or.inr (Or.inl htakes)
  · refine Or.inl ⟨?_, congrArg abs hdata⟩
    rw [hq, hp, Status.effect, Status.effect, effectOf, (hl.entry op).2]
    rfl
  · refine Or.inl ⟨?_, congrArg abs hdata⟩
    rw [hq, hp, Status.effect, Status.effect]
  · -- what it goes on with once it is awake
    have hleads : (prog.code p).Leads s.data s.data q := by
      rw [hcode]
      exact ⟨rfl, rfl⟩
    rcases hgo hp hleads rfl hq hdata with hsame | htakes
    · exact Or.inl hsame
    · exact Or.inr (Or.inl htakes)
  · obtain ⟨a, ha⟩ := Option.isSome_iff_exists.mp (hl.ret hcode)
    refine Or.inr (Or.inr ⟨(call p, a), ?_, by rw [hq]; rfl, congrArg abs hdata⟩)
    rw [hp, Status.effect, effectOf, ha]
    rfl
  · refine Or.inl ⟨?_, congrArg abs hdata⟩
    rw [hq, hp, Status.effect, Status.effect]

/-- **In the order in which they take effect, the calls are a run of the object.** -/
theorem sequential (hl : Linearizes prog I K abs spec call answer)
    (hinv : ∀ {s t s'}, I s → K s t → Step prog s t s' → I s') (h : Run (Step prog) s tr s')
    (hI : I s) (hK : ∀ r ∈ tr, K r.pre r.label) :
    ∃ tr', Run (fun a (l : T × O × Q) b => spec l.2.1 a l.2.2 b) (abs s.data) tr' (abs s'.data) ∧
      tr'.map Record.label = tr.flatMap (takesEffect (effectOf call answer)) := by
  -- a step of the threads is a step of the object, or none
  have hstep : ∀ {s s' : State T M C D P} {a : A} {t : T}, (I s ∧ a = abs s.data) → K s t →
      Step prog s t s' → ∃ tr' b,
        Run (fun a (l : T × O × Q) b => spec l.2.1 a l.2.2 b) a tr' b ∧
          (I s' ∧ b = abs s'.data) ∧
          tr'.map Record.label = takesEffect (effectOf call answer) ⟨s, t, s'⟩ := by
    rintro s s' a t ⟨hI, rfl⟩ hK h
    have hI' := hinv hI hK h
    obtain ⟨heff, habs⟩ | ⟨op, q, hpre, hpost, hspec⟩ | ⟨e, hpre, hpost, habs⟩ :=
      hl.step_cases hI hK h
    · refine ⟨[], _, .nil, ⟨hI', habs.symm⟩, ?_⟩
      dsimp only [takesEffect]
      rw [heff]
      cases (s.status t).effect (effectOf call answer) <;> rfl
    · have hone : Run (fun a (l : T × O × Q) b => spec l.2.1 a l.2.2 b) (abs s.data)
          [⟨abs s.data, (t, op, q), abs s'.data⟩] (abs s'.data) := Run.nil.snoc hspec
      refine ⟨_, _, hone, ⟨hI', rfl⟩, ?_⟩
      dsimp only [takesEffect]
      rw [hpre, hpost]
      rfl
    · refine ⟨[], _, .nil, ⟨hI', habs.symm⟩, ?_⟩
      dsimp only [takesEffect]
      rw [hpre]
      rfl
  obtain ⟨tr', a, hrun, ⟨-, rfl⟩, hobs⟩ := Run.simulates hstep h ⟨hI, rfl⟩ hK
  exact ⟨tr', hrun, hobs⟩

/-- What takes effect, what returns and what is pending of one thread, in one step of any. -/
theorem balance (hl : Linearizes prog I K abs spec call answer) (hI : I s) (hK : K s t)
    (h : Step prog s t s') (u : T) :
    (handedBack (effectOf call answer) ⟨s, t, s'⟩).filter (fun e => e.1 = u) ++
        pending (effectOf call answer) s' u =
      pending (effectOf call answer) s u ++
        (takesEffect (effectOf call answer) ⟨s, t, s'⟩).filter (fun e => e.1 = u) := by
  by_cases hu : u = t
  · subst hu
    have hall : ∀ o : Option (O × Q), (o.toList.map fun e => (u, e)).filter (fun e => e.1 = u) =
        o.toList.map fun e => (u, e) := by
      intro o
      cases o <;> simp
    dsimp only [handedBack, takesEffect, pending]
    obtain ⟨heff, -⟩ | ⟨op, q, hpre, hpost, -⟩ | ⟨e, hpre, hpost, -⟩ := hl.step_cases hI hK h
    · rw [heff]
      cases (s.status u).effect (effectOf call answer) <;> simp
    · rw [hpre, hpost]
      simp
    · rw [hpre, hpost]
      simp
  · have hne : t ≠ u := fun h => hu h.symm
    have hnone : ∀ o : Option (O × Q), (o.toList.map fun e => (t, e)).filter
        (fun e => e.1 = u) = [] := by
      intro o
      cases o <;> simp [hne]
    have hsame : (s'.status u).effect (effectOf call answer) =
        (s.status u).effect (effectOf call answer) := by
      obtain hsame | ⟨-, -, c, -, -, hwake⟩ := h.status_ne hu
      · rw [hsame]
      · rw [hwake, Status.effect_wake]
    have hback : (handedBack (effectOf call answer) ⟨s, t, s'⟩).filter
        (fun e => e.1 = u) = [] := by
      dsimp only [handedBack]
      split
      · exact hnone _
      · rfl
    have htakes : (takesEffect (effectOf call answer) ⟨s, t, s'⟩).filter
        (fun e => e.1 = u) = [] := by
      dsimp only [takesEffect]
      split
      · exact hnone _
      · rfl
    rw [hback, htakes, pending, pending, hsame, List.nil_append, List.append_nil]

/-- **Each thread returns what its calls took effect with, in this order.** -/
theorem answers (hl : Linearizes prog I K abs spec call answer)
    (hinv : ∀ {s t s'}, I s → K s t → Step prog s t s' → I s') (h : Run (Step prog) s tr s')
    (hI : I s) (hK : ∀ r ∈ tr, K r.pre r.label) (u : T) :
    (tr.flatMap (handedBack (effectOf call answer))).filter (fun e => e.1 = u) ++
        pending (effectOf call answer) s' u =
      pending (effectOf call answer) s u ++
        (tr.flatMap (takesEffect (effectOf call answer))).filter (fun e => e.1 = u) := by
  rw [List.filter_flatMap, List.filter_flatMap]
  exact Run.conserve_of (I := I) (C := K) (q := fun s => pending (effectOf call answer) s u) hinv
    (fun r hI hK hstep => hl.balance hI hK hstep u) h hI hK

end Linearizes

/-! ## Inside of a larger program -/

section

variable {M₁ C₁ D₁ O₁ P₁ : Type} {e : Embedding M₁ C₁ D₁ M C D} {inner : P → Option P₁}
  {f : P₁ → Option (O₁ × Q)} {s s' : State T M C D P} {s₁ : State T M₁ C₁ D₁ P₁} {t : T}
  {r : Record (State T M C D P) T} {r₁ : Record (State T M₁ C₁ D₁ P₁) T}

theorem Status.Shows.effect {st : Status M C P} {st₁ : Status M₁ C₁ P₁}
    (h : st.Shows e inner st₁) :
    st.effect (fun p => (inner p).bind f) = st₁.effect f := by
  cases h <;> simp_all [Status.effect]

theorem Mirrors.takesEffect (h : Mirrors e inner r r₁) :
    takesEffect (fun p => (inner p).bind f) r = Threads.takesEffect f r₁ := by
  rw [Threads.takesEffect, Threads.takesEffect, h.label, (h.pre.status r.label).effect,
    (h.post.status r.label).effect]

theorem Mirrors.handedBack (h : Mirrors e inner r r₁) :
    handedBack (fun p => (inner p).bind f) r = Threads.handedBack f r₁ := by
  rw [Threads.handedBack, Threads.handedBack, h.label, (h.pre.status r.label).effect,
    (h.post.status r.label).effect]

theorem Projects.pending (h : Projects e inner s s₁) (u : T) :
    pending (fun p => (inner p).bind f) s u = Threads.pending f s₁ u := by
  rw [Threads.pending, Threads.pending, (h.status u).effect]

/-- In a step the object does not see, nothing takes effect. -/
theorem takesEffect_hidden (hpre : Projects e inner r.pre s₁)
    (hpost : Projects e inner r.post s₁) :
    takesEffect (fun p => (inner p).bind f) r = [] := by
  rw [takesEffect, (hpre.status r.label).effect, (hpost.status r.label).effect]
  cases (s₁.status r.label).effect f <;> rfl

theorem handedBack_hidden (hpre : Projects e inner r.pre s₁) (hpost : Projects e inner r.post s₁) :
    handedBack (fun p => (inner p).bind f) r = [] := by
  rw [handedBack, (hpre.status r.label).effect, (hpost.status r.label).effect]
  cases (s₁.status r.label).effect f <;> rfl

variable [DecidableEq T] [DecidableEq M] [DecidableEq C] [DecidableEq M₁] [DecidableEq C₁]
  {prog : Program M C D O P} {part : Program M₁ C₁ D₁ O₁ P₁} {I : State T M₁ C₁ D₁ P₁ → Prop}
  {K : State T M₁ C₁ D₁ P₁ → T → Prop} {abs : D₁ → A} {spec : O₁ → A → Q → A → Prop}
  {call : P₁ → O₁} {answer : P₁ → Option Q} {tr : List (Record (State T M C D P) T)}

/-- **Calls inside of a larger program** take effect at once, too. -/
theorem Linearizes.inside (hl : Linearizes part I K abs spec call answer)
    (hc : Component prog part e inner)
    (hinv : ∀ {s t s'}, I s → K s t → Step part s t s' → I s') (h : Run (Step prog) s tr s')
    (hs : Projects e inner s s₁) (hI : I s₁)
    (hK : ∀ r ∈ tr, ∀ s₁, Projects e inner r.pre s₁ → K s₁ r.label) :
    (∃ tr', Run (fun a (l : T × O₁ × Q) b => spec l.2.1 a l.2.2 b) (abs (e.get s.data)) tr'
        (abs (e.get s'.data)) ∧
      tr'.map Record.label =
        tr.flatMap (takesEffect fun p => (inner p).bind (effectOf call answer))) ∧
    ∀ u, (tr.flatMap (handedBack fun p => (inner p).bind (effectOf call answer))).filter
          (fun x => x.1 = u) ++
        pending (fun p => (inner p).bind (effectOf call answer)) s' u =
      pending (fun p => (inner p).bind (effectOf call answer)) s u ++
        (tr.flatMap (takesEffect fun p => (inner p).bind (effectOf call answer))).filter
          (fun x => x.1 = u) := by
  obtain ⟨tr₁, s₁', hrun, hs', hmirror, hobs⟩ := hc.run h hs
  have hK₁ : ∀ r₁ ∈ tr₁, K r₁.pre r₁.label := by
    intro r₁ hr₁
    obtain ⟨r, hr, hm⟩ := hmirror r₁ hr₁
    rw [hm.label]
    exact hK r hr _ hm.pre
  have htakes := hobs _ (takesEffect fun p => (inner p).bind (effectOf call answer)) _
    (fun _ _ hm => hm.takesEffect) fun _ _ hpre hpost => takesEffect_hidden hpre hpost
  have hback := hobs _ (Threads.handedBack fun p => (inner p).bind (effectOf call answer)) _
    (fun _ _ hm => hm.handedBack) fun _ _ hpre hpost => handedBack_hidden hpre hpost
  refine ⟨?_, fun u => ?_⟩
  · obtain ⟨tr', hseq, hlabels⟩ := hl.sequential hinv hrun hI hK₁
    rw [← hs.data, ← hs'.data, htakes]
    exact ⟨tr', hseq, hlabels⟩
  · rw [hback, htakes, hs.pending, hs'.pending]
    exact hl.answers hinv hrun hI hK₁ u

end

end Threads
