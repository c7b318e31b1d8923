import Suika.Lib.WorkQueue

/-!
# Histories

Part of a state is often a record of what a program has done so far: the frames it wrote, the
numbers it gave out. `R s log` says that `s` is a state to be in when exactly `log` was done. A call
`Emits R P Q` if it has extended that history by entries that meet `P` whenever it returns, and by
entries that meet `Q` whenever it throws: what was done before an exception stays done.

The rules follow those of `Comp.Keeps`; a call that leaves every history as it is emits nothing
(`Emits.of_keeps`), and a dispatcher emits what its handlers emit for the items that wait
(`drainAll_emits`, `drainAll_emits_threw`).

Where it is known what a call adds, `Adds R out` says so. A dispatcher adds what its handlers add,
queue by queue and in order (`drainAll_adds`).
-/

namespace Cpp

variable {ε σ α β ω κ ι : Type}

/-- A call has extended the history of its state, by entries that meet `P` when it returns and by
entries that meet `Q` when it throws. -/
structure Comp.Emits (R : σ → List ω → Prop) (P Q : ω → Prop) (m : Comp ε σ α) : Prop where
  of_done : ∀ {s t a log}, R s log → m.run s = .done t a →
    ∃ out, R t (log ++ out) ∧ ∀ o ∈ out, P o
  of_threw : ∀ {s t e log}, R s log → m.run s = .threw t e →
    ∃ out, R t (log ++ out) ∧ ∀ o ∈ out, Q o

/-- No entries at all. -/
theorem emits_nil {R : σ → List ω → Prop} {P : ω → Prop} {s : σ} {log : List ω} (h : R s log) :
    ∃ out, R s (log ++ out) ∧ ∀ o ∈ out, P o :=
  ⟨[], by rw [List.append_nil]; exact h, fun o ho => absurd ho List.not_mem_nil⟩

/-- Entries behind entries. -/
theorem emits_append {R : σ → List ω → Prop} {P : ω → Prop} {s : σ} {log out : List ω}
    (hout : ∀ o ∈ out, P o) (h : ∃ out', R s (log ++ out ++ out') ∧ ∀ o ∈ out', P o) :
    ∃ out, R s (log ++ out) ∧ ∀ o ∈ out, P o := by
  obtain ⟨out', hs, hout'⟩ := h
  refine ⟨out ++ out', ?_, fun o ho => (List.mem_append.mp ho).elim (hout o) (hout' o)⟩
  rw [← List.append_assoc]
  exact hs

namespace Comp.Emits

variable {R : σ → List ω → Prop} {P Q : ω → Prop} {m : Comp ε σ α}

/-- A call that keeps every history emits nothing. -/
theorem of_keeps (hm : ∀ log, Keeps (fun s => R s log) m) : Emits R P Q m where
  of_done hs h := emits_nil ((hm _).of_done hs h)
  of_threw hs h := emits_nil ((hm _).of_threw hs h)

theorem pure (a : α) : Emits R P Q (Pure.pure a : Comp ε σ α) := of_keeps fun _ => Keeps.pure a

theorem throw (e : ε) : Emits R P Q (Comp.throw e : Comp ε σ α) := of_keeps fun _ => Keeps.throw e

theorem undefined : Emits R P Q (Comp.undefined : Comp ε σ α) := of_keeps fun _ => Keeps.undefined

/-- Sequencing: the second part adds to what the first one did. -/
theorem bind {f : α → Comp ε σ β} (hPQ : ∀ o, P o → Q o) (hm : Emits R P Q m)
    (hf : ∀ a, Emits R P Q (f a)) : Emits R P Q (m >>= f) where
  of_done hs h := by
    obtain ⟨u, a, hr, h⟩ := bind_eq_done h
    obtain ⟨out, hu, hout⟩ := hm.of_done hs hr
    exact emits_append hout ((hf a).of_done hu h)
  of_threw hs h := by
    obtain hr | ⟨u, a, hr, h⟩ := bind_eq_threw h
    · exact hm.of_threw hs hr
    · obtain ⟨out, hu, hout⟩ := hm.of_done hs hr
      exact emits_append (fun o ho => hPQ o (hout o ho)) ((hf a).of_threw hu h)

/-- A sequence that starts with an evaluation goes on only when it yields a value, and an evaluation
emits nothing. -/
theorem lift_bind {x : Eval ε α} {f : α → Comp ε σ β} (hf : ∀ a, x = .ok a → Emits R P Q (f a)) :
    Emits R P Q (liftM x >>= f : Comp ε σ β) where
  of_done hs h := by
    obtain ⟨a, ha, h⟩ := lift_bind_eq_done h
    exact (hf a ha).of_done hs h
  of_threw hs h := by
    obtain rfl | ⟨a, ha, h⟩ := lift_bind_eq_threw h
    · exact emits_nil hs
    · exact (hf a ha).of_threw hs h

end Comp.Emits

section

variable {R : σ → List ω → Prop} {P Q : ω → Prop} {s t : σ} {log : List ω}

/-- What the handlers emit for the items of a queue, a drain emits. -/
theorem drain_emits {handle : ι → Comp ε σ α} {q q' : List ι}
    (hemit : ∀ d ∈ q, (handle d).Emits R P Q) (hs : R s log)
    (h : drain handle q s = .done (q', t) ()) : ∃ out, R t (log ++ out) ∧ ∀ o ∈ out, P o := by
  induction q generalizing s log with
  | nil =>
    cases h
    exact emits_nil hs
  | cons d q ih =>
    obtain ⟨u, v, hd, h⟩ := drain_cons_eq_done.mp h
    obtain ⟨out, hu, hout⟩ := (hemit d List.mem_cons_self).of_done hs hd
    exact emits_append hout (ih (fun d hd => hemit d (List.mem_cons_of_mem _ hd)) hu h)

theorem drain_emits_threw {handle : ι → Comp ε σ α} {q q' : List ι} {e : ε}
    (hPQ : ∀ o, P o → Q o) (hemit : ∀ d ∈ q, (handle d).Emits R P Q) (hs : R s log)
    (h : drain handle q s = .threw (q', t) e) : ∃ out, R t (log ++ out) ∧ ∀ o ∈ out, Q o := by
  induction q generalizing s log with
  | nil => cases h
  | cons d q ih =>
    obtain hd | ⟨u, v, hd, h⟩ := drain_cons_eq_threw h
    · exact (hemit d List.mem_cons_self).of_threw hs hd
    · obtain ⟨out, hu, hout⟩ := (hemit d List.mem_cons_self).of_done hs hd
      exact emits_append (fun o ho => hPQ o (hout o ho))
        (ih (fun d hd => hemit d (List.mem_cons_of_mem _ hd)) hu h)

/-- And so does a dispatch. -/
theorem drainAll_emits {handle : κ → ι → Comp ε σ α} {queues queues' : List (κ × List ι)}
    (hemit : ∀ p ∈ queues, ∀ d ∈ p.2, (handle p.1 d).Emits R P Q) (hs : R s log)
    (h : drainAll handle queues s = .done (queues', t) ()) :
    ∃ out, R t (log ++ out) ∧ ∀ o ∈ out, P o := by
  induction queues generalizing s log queues' with
  | nil =>
    cases h
    exact emits_nil hs
  | cons p queues ih =>
    obtain ⟨u, rest, hp, hrest, -⟩ := drainAll_cons_eq_done.mp h
    obtain ⟨out, hu, hout⟩ := drain_emits (hemit p List.mem_cons_self) hs hp
    exact emits_append hout (ih (fun q hq => hemit q (List.mem_cons_of_mem _ hq)) hu hrest)

theorem drainAll_emits_threw {handle : κ → ι → Comp ε σ α} {queues queues' : List (κ × List ι)}
    {e : ε} (hPQ : ∀ o, P o → Q o)
    (hemit : ∀ p ∈ queues, ∀ d ∈ p.2, (handle p.1 d).Emits R P Q) (hs : R s log)
    (h : drainAll handle queues s = .threw (queues', t) e) :
    ∃ out, R t (log ++ out) ∧ ∀ o ∈ out, Q o := by
  induction queues generalizing s log queues' with
  | nil => cases h
  | cons p queues ih =>
    obtain ⟨q', hp⟩ | ⟨u, rest, hp, hrest⟩ := drainAll_cons_eq_threw h
    · exact drain_emits_threw hPQ (hemit p List.mem_cons_self) hs hp
    · obtain ⟨out, hu, hout⟩ := drain_emits (hemit p List.mem_cons_self) hs hp
      exact emits_append (fun o ho => hPQ o (hout o ho))
        (ih (fun q hq => hemit q (List.mem_cons_of_mem _ hq)) hu hrest)

end

/-! ## Exactly what is added -/

/-- A call that returns has added `out` to the history of its state. -/
def Comp.Adds (R : σ → List ω → Prop) (out : List ω) (m : Comp ε σ α) : Prop :=
  ∀ s t a log, R s log → m.run s = .done t a → R t (log ++ out)

section

variable {R : σ → List ω → Prop} {s t : σ} {log : List ω}

/-- What the handlers add for the items of a queue, a drain adds in order. -/
theorem drain_adds {handle : ι → Comp ε σ α} {q q' : List ι} (out : ι → List ω)
    (hadd : ∀ d ∈ q, (handle d).Adds R (out d)) (hs : R s log)
    (h : drain handle q s = .done (q', t) ()) : R t (log ++ q.flatMap out) := by
  induction q generalizing s log with
  | nil =>
    cases h
    rw [List.flatMap_nil, List.append_nil]
    exact hs
  | cons d q ih =>
    obtain ⟨u, v, hd, h⟩ := drain_cons_eq_done.mp h
    have hu : R u (log ++ out d) := hadd d List.mem_cons_self s u v log hs hd
    rw [List.flatMap_cons, ← List.append_assoc]
    exact ih (fun d hd => hadd d (List.mem_cons_of_mem _ hd)) hu h

/-- And a dispatch queue by queue. -/
theorem drainAll_adds {handle : κ → ι → Comp ε σ α} {queues queues' : List (κ × List ι)}
    (out : κ → ι → List ω)
    (hadd : ∀ p ∈ queues, ∀ d ∈ p.2, (handle p.1 d).Adds R (out p.1 d)) (hs : R s log)
    (h : drainAll handle queues s = .done (queues', t) ()) :
    R t (log ++ queues.flatMap fun p => p.2.flatMap (out p.1)) := by
  induction queues generalizing s log queues' with
  | nil =>
    cases h
    rw [List.flatMap_nil, List.append_nil]
    exact hs
  | cons p queues ih =>
    obtain ⟨u, rest, hp, hrest, -⟩ := drainAll_cons_eq_done.mp h
    have hu : R u (log ++ p.2.flatMap (out p.1)) :=
      drain_adds (out p.1) (hadd p List.mem_cons_self) hs hp
    rw [List.flatMap_cons, ← List.append_assoc]
    exact ih (fun q hq => hadd q (List.mem_cons_of_mem _ hq)) hu hrest

/-- What every handler that returns keeps, a dispatch that returns keeps. -/
theorem drainAll_keeps_done {Q : σ → Prop} {handle : κ → ι → Comp ε σ α}
    {queues queues' : List (κ × List ι)}
    (hkeep : ∀ key d s t v, Q s → (handle key d).run s = .done t v → Q t) (hs : Q s)
    (h : drainAll handle queues s = .done (queues', t) ()) : Q t := by
  have hadd : ∀ p ∈ queues, ∀ d ∈ p.2, (handle p.1 d).Adds
      (fun s log => log = ([] : List Unit) ∧ Q s) [] := by
    rintro p - d - s t v log ⟨rfl, hs⟩ hd
    exact ⟨rfl, hkeep p.1 d s t v hs hd⟩
  exact (drainAll_adds (fun _ _ => []) hadd ⟨rfl, hs⟩ h).2

end

end Cpp
