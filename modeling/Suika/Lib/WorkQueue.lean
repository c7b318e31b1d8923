import Suika.Lib.Outcome

/-!
# Work queues

A dispatcher takes items from queues and calls a handler for each of them. An item is taken off its
queue before it is handled, and an exception of the handler leaves the dispatcher: the items behind
it stay where they are, and nobody looks at the queues after it.

* `drain_done_iff`: if the handlers keep an invariant under which an item is handled exactly when it
  meets a condition, a queue is emptied exactly when all its items meet it.
* `drain_keeps`, `drainAll_keeps`: what every handler keeps, the dispatcher keeps.
* `drainAll_logged`: a dispatch that ends has handed out each item once, queue by queue and in the
  order of the queues.
-/

namespace Cpp

variable {ε σ τ κ ι α : Type}

/-- The end of a call, seen from another state. -/
def Outcome.mapState (f : σ → τ) (o : Outcome ε σ α) : Outcome ε τ α :=
  match o with
  | .done t a => .done (f t) a
  | .threw t e => .threw (f t) e
  | .undef => .undef
  | .hangs => .hangs

theorem Outcome.mapState_eq_done {f : σ → τ} {o : Outcome ε σ α} {u : τ} {a : α} :
    o.mapState f = .done u a ↔ ∃ t, o = .done t a ∧ f t = u := by
  refine ⟨?_, ?_⟩
  · intro h
    rcases o with ⟨t, b⟩ | ⟨t, e⟩ | _ | _
    · cases h
      exact ⟨t, rfl, rfl⟩
    all_goals cases h
  · rintro ⟨t, rfl, rfl⟩
    rfl

theorem Outcome.mapState_eq_threw {f : σ → τ} {o : Outcome ε σ α} {u : τ} {e : ε} :
    o.mapState f = .threw u e ↔ ∃ t, o = .threw t e ∧ f t = u := by
  refine ⟨?_, ?_⟩
  · intro h
    rcases o with ⟨t, b⟩ | ⟨t, e'⟩ | _ | _
    · cases h
    · cases h
      exact ⟨t, rfl, rfl⟩
    all_goals cases h
  · rintro ⟨t, rfl, rfl⟩
    rfl

/-- Take the items of one queue and handle each of them. -/
def drain (handle : ι → Comp ε σ α) : List ι → σ → Outcome ε (List ι × σ) Unit
  | [], s => .done ([], s) ()
  | d :: rest, s =>
    match (handle d).run s with
    | .done t _ => drain handle rest t
    | .threw t e => .threw (rest, t) e
    | .undef => .undef
    | .hangs => .hangs

/-- Drain queue after queue. -/
def drainAll (handle : κ → ι → Comp ε σ α) :
    List (κ × List ι) → σ → Outcome ε (List (κ × List ι) × σ) Unit
  | [], s => .done ([], s) ()
  | (key, q) :: queues, s =>
    match drain (handle key) q s with
    | .done (q, t) _ =>
      (drainAll handle queues t).mapState fun (queues, u) => ((key, q) :: queues, u)
    | .threw (q, t) e => .threw ((key, q) :: queues, t) e
    | .undef => .undef
    | .hangs => .hangs

section

variable {handle : ι → Comp ε σ α} {d : ι} {q q' : List ι} {s t : σ}

/-- The first item has to be handled before the others are. -/
theorem drain_cons_eq_done :
    drain handle (d :: q) s = .done (q', t) () ↔
      ∃ u v, (handle d).run s = .done u v ∧ drain handle q u = .done (q', t) () := by
  rw [drain]
  refine ⟨?_, ?_⟩
  · intro h
    rcases hr : (handle d).run s with ⟨u, v⟩ | ⟨u, e⟩ | _ | _ <;> rw [hr] at h
    · exact ⟨u, v, rfl, h⟩
    all_goals cases h
  · rintro ⟨u, v, hr, h⟩
    rw [hr]
    exact h

/-- A drain throws where the handler of the first item does, or behind it. -/
theorem drain_cons_eq_threw {e : ε} (h : drain handle (d :: q) s = .threw (q', t) e) :
    (handle d).run s = .threw t e ∨
      ∃ u v, (handle d).run s = .done u v ∧ drain handle q u = .threw (q', t) e := by
  rw [drain] at h
  rcases hr : (handle d).run s with ⟨u, v⟩ | ⟨u, e'⟩ | _ | _ <;> rw [hr] at h
  · exact Or.inr ⟨u, v, rfl, h⟩
  · cases h
    exact Or.inl rfl
  all_goals cases h

/-- A drain that ends has emptied its queue. -/
theorem drain_eq_done (h : drain handle q s = .done (q', t) ()) : q' = [] := by
  induction q generalizing s with
  | nil =>
    cases h
    rfl
  | cons d q ih =>
    obtain ⟨u, v, -, h⟩ := drain_cons_eq_done.mp h
    exact ih h

/-- What every handler keeps, a drain keeps. -/
theorem drain_keeps {Q : σ → Prop} (hkeep : ∀ d ∈ q, (handle d).Keeps Q) (hs : Q s)
    (h : drain handle q s = .done (q', t) ()) : Q t := by
  induction q generalizing s with
  | nil =>
    cases h
    exact hs
  | cons d q ih =>
    obtain ⟨u, v, hd, h⟩ := drain_cons_eq_done.mp h
    have hu : Q u := (hkeep d List.mem_cons_self).of_done hs hd
    exact ih (fun d hd => hkeep d (List.mem_cons_of_mem _ hd)) hu h

/-- **When a queue is emptied.** `Q` is what the handlers rely on and keep. -/
theorem drain_done_iff {Q : σ → Prop} {P : ι → Prop} (hkeep : ∀ d ∈ q, (handle d).Keeps Q)
    (hdone : ∀ d ∈ q, ∀ s, Q s → ((∃ t v, (handle d).run s = .done t v) ↔ P d)) (hs : Q s) :
    (∃ t, drain handle q s = .done ([], t) ()) ↔ ∀ d ∈ q, P d := by
  induction q generalizing s with
  | nil => exact ⟨fun _ d hd => absurd hd List.not_mem_nil, fun _ => ⟨s, rfl⟩⟩
  | cons d q ih =>
    have hrest : ∀ {u}, Q u → ((∃ t, drain handle q u = .done ([], t) ()) ↔ ∀ d ∈ q, P d) :=
      ih (fun d hd => hkeep d (List.mem_cons_of_mem _ hd))
        (fun d hd => hdone d (List.mem_cons_of_mem _ hd))
    -- the first item is judged here; the state it leaves meets `Q` again, and judges the rest
    have hfirst := hdone d List.mem_cons_self s hs
    rw [List.forall_mem_cons]
    refine ⟨?_, ?_⟩
    · rintro ⟨t, h⟩
      obtain ⟨u, v, hd, h⟩ := drain_cons_eq_done.mp h
      exact ⟨hfirst.mp ⟨u, v, hd⟩, (hrest ((hkeep d List.mem_cons_self).of_done hs hd)).mp ⟨t, h⟩⟩
    · rintro ⟨hP, hall⟩
      obtain ⟨u, v, hd⟩ := hfirst.mpr hP
      obtain ⟨t, h⟩ := (hrest ((hkeep d List.mem_cons_self).of_done hs hd)).mpr hall
      exact ⟨t, drain_cons_eq_done.mpr ⟨u, v, hd, h⟩⟩

end

section

variable {handle : κ → ι → Comp ε σ α} {key : κ} {q : List ι} {queues queues' : List (κ × List ι)}
  {s t : σ}

/-- The first queue has to be emptied before the others are. -/
theorem drainAll_cons_eq_done :
    drainAll handle ((key, q) :: queues) s = .done (queues', t) () ↔
      ∃ u rest, drain (handle key) q s = .done ([], u) () ∧
        drainAll handle queues u = .done (rest, t) () ∧ queues' = (key, []) :: rest := by
  rw [drainAll]
  refine ⟨?_, ?_⟩
  · intro h
    rcases hr : drain (handle key) q s with ⟨⟨q', u⟩, _⟩ | ⟨⟨q', u⟩, e⟩ | _ | _ <;> rw [hr] at h
    · obtain rfl := drain_eq_done hr
      obtain ⟨⟨rest, w⟩, hrest, heq⟩ := Outcome.mapState_eq_done.mp h
      obtain ⟨rfl, rfl⟩ := Prod.mk.inj heq
      exact ⟨u, rest, rfl, hrest, rfl⟩
    all_goals cases h
  · rintro ⟨u, rest, hr, hrest, rfl⟩
    rw [hr]
    exact Outcome.mapState_eq_done.mpr ⟨(rest, t), hrest, rfl⟩

/-- A dispatch throws in the first queue, or behind it. -/
theorem drainAll_cons_eq_threw {e : ε}
    (h : drainAll handle ((key, q) :: queues) s = .threw (queues', t) e) :
    (∃ q', drain (handle key) q s = .threw (q', t) e) ∨
      ∃ u rest, drain (handle key) q s = .done ([], u) () ∧
        drainAll handle queues u = .threw (rest, t) e := by
  rw [drainAll] at h
  rcases hr : drain (handle key) q s with ⟨⟨q', u⟩, _⟩ | ⟨⟨q', u⟩, e'⟩ | _ | _ <;> rw [hr] at h
  · obtain rfl := drain_eq_done hr
    obtain ⟨⟨rest, w⟩, hrest, heq⟩ := Outcome.mapState_eq_threw.mp h
    obtain ⟨-, rfl⟩ := Prod.mk.inj heq
    exact Or.inr ⟨u, rest, rfl, hrest⟩
  · cases h
    exact Or.inl ⟨q', rfl⟩
  all_goals cases h

/-- A dispatch that ends has emptied all queues. -/
theorem drainAll_eq_done (h : drainAll handle queues s = .done (queues', t) ()) :
    queues' = queues.map fun p => (p.1, []) := by
  induction queues generalizing s queues' with
  | nil =>
    cases h
    rfl
  | cons p queues ih =>
    obtain ⟨u, rest, -, hrest, rfl⟩ := drainAll_cons_eq_done.mp h
    rw [List.map_cons, ih hrest]

/-- What every handler keeps, a dispatch keeps. -/
theorem drainAll_keeps {Q : σ → Prop} (hkeep : ∀ key d, (handle key d).Keeps Q) (hs : Q s)
    (h : drainAll handle queues s = .done (queues', t) ()) : Q t := by
  induction queues generalizing s queues' with
  | nil =>
    cases h
    exact hs
  | cons p queues ih =>
    obtain ⟨u, rest, hp, hrest, -⟩ := drainAll_cons_eq_done.mp h
    exact ih (drain_keeps (fun d _ => hkeep p.1 d) hs hp) hrest

end

/-! ## What is handed out -/

/-- A handler that leaves a record of what it was given. -/
def logged (handle : κ → ι → Comp ε σ α) (key : κ) (d : ι) : Comp ε (σ × List (κ × ι)) α :=
  ⟨fun s => ((handle key d).run s.1).mapState fun t => (t, s.2 ++ [(key, d)])⟩

section

variable {handle : κ → ι → Comp ε σ α} {key : κ} {q q' : List ι}
  {queues queues' : List (κ × List ι)} {s t : σ} {log log' : List (κ × ι)}

theorem logged_eq_done {d : ι} {a : α} :
    (logged handle key d).run (s, log) = .done (t, log') a ↔
      (handle key d).run s = .done t a ∧ log' = log ++ [(key, d)] := by
  rw [logged, Outcome.mapState_eq_done]
  refine ⟨?_, ?_⟩
  · rintro ⟨u, h, heq⟩
    obtain ⟨rfl, rfl⟩ := Prod.mk.inj heq
    exact ⟨h, rfl⟩
  · rintro ⟨h, rfl⟩
    exact ⟨t, h, rfl⟩

/-- The records of one queue: its items, in order. -/
theorem drain_logged :
    drain (logged handle key) q (s, log) = .done (q', t, log') () ↔
      drain (handle key) q s = .done (q', t) () ∧ log' = log ++ q.map fun d => (key, d) := by
  induction q generalizing s log with
  | nil =>
    rw [drain, drain, List.map_nil, List.append_nil]
    refine ⟨?_, ?_⟩
    · intro h
      cases h
      exact ⟨rfl, rfl⟩
    · rintro ⟨h, rfl⟩
      cases h
      rfl
  | cons d q ih =>
    rw [drain_cons_eq_done, drain_cons_eq_done, List.map_cons]
    refine ⟨?_, ?_⟩
    · rintro ⟨⟨u, logu⟩, v, hfirst, hrest⟩
      obtain ⟨hd, rfl⟩ := logged_eq_done.mp hfirst
      obtain ⟨h, rfl⟩ := ih.mp hrest
      exact ⟨⟨u, v, hd, h⟩, by rw [List.append_assoc]; rfl⟩
    · rintro ⟨⟨u, v, hd, h⟩, rfl⟩
      refine ⟨(u, log ++ [(key, d)]), v, logged_eq_done.mpr ⟨hd, rfl⟩, ih.mpr ⟨h, ?_⟩⟩
      rw [List.append_assoc]
      rfl

/-- **Each item once**: the records of a dispatch are the items of all queues, in order. -/
theorem drainAll_logged :
    drainAll (logged handle) queues (s, log) = .done (queues', t, log') () ↔
      drainAll handle queues s = .done (queues', t) () ∧
        log' = log ++ queues.flatMap fun p => p.2.map fun d => (p.1, d) := by
  induction queues generalizing s log queues' with
  | nil =>
    rw [drainAll, drainAll, List.flatMap_nil, List.append_nil]
    refine ⟨?_, ?_⟩
    · intro h
      cases h
      exact ⟨rfl, rfl⟩
    · rintro ⟨h, rfl⟩
      cases h
      rfl
  | cons p queues ih =>
    rw [drainAll_cons_eq_done, drainAll_cons_eq_done, List.flatMap_cons]
    refine ⟨?_, ?_⟩
    · rintro ⟨⟨u, logu⟩, rest, hfirst, hothers, rfl⟩
      obtain ⟨hq, rfl⟩ := drain_logged.mp hfirst
      obtain ⟨hrest, rfl⟩ := ih.mp hothers
      exact ⟨⟨u, rest, hq, hrest, rfl⟩, List.append_assoc _ _ _⟩
    · rintro ⟨⟨u, rest, hq, hrest, rfl⟩, rfl⟩
      refine ⟨(u, _), rest, drain_logged.mpr ⟨hq, rfl⟩, ih.mpr ⟨hrest, ?_⟩, rfl⟩
      rw [List.append_assoc]

end

end Cpp
