import Mathlib.Data.List.Basic

/-!
# Runs of a labelled transition system

A system is a relation `step : S → L → S → Prop`: in state `t` the labelled event `l` may lead to
`u`. A `Run` is a finite sequence of steps together with its trace, one `Record` for each step, so
that a property of histories ("everything taken out was put in before") is a statement about the
trace. The rules below are the inductions every such property needs, packaged once:

* `Run.invariant`: what each step keeps, a run keeps;
* `Run.invariant_of`: the same when the steps of the run all meet a condition;
* `Run.conserve`: what each step balances between a queue and its in- and outputs, a run balances;
* `Run.countP_add_le`: if each step of a kind lowers a rank, a run has no more of them than the
  rank allows;
* `Run.simulates`: if every step is matched by a run of another system, every run is, and what is
  observed of the two is the same;
* `Run.part`: what one part sees of a run of a system of parts is a run of that part.
-/

namespace Runs

variable {S L α : Type}

/-- One step of a run, with the states around it. -/
structure Record (S L : Type) : Type where
  /-- the state before the step -/
  pre : S
  /-- the event -/
  label : L
  /-- the state after the step -/
  post : S

/-- Finite runs, with the trace of their steps. -/
inductive Run (step : S → L → S → Prop) (s : S) : List (Record S L) → S → Prop where
  /-- no step -/
  | nil : Run step s [] s
  /-- one more step -/
  | snoc {tr : List (Record S L)} {t u : S} {l : L} :
      Run step s tr t → step t l u → Run step s (tr ++ [⟨t, l, u⟩]) u

namespace Run

variable {step : S → L → S → Prop} {s t : S} {tr : List (Record S L)}

/-- An invariant kept by every step whose event meets `C` holds after every run whose events all
meet `C`. -/
theorem invariant_of {I : S → Prop} {C : S → L → Prop}
    (hstep : ∀ {t l u}, I t → C t l → step t l u → I u) (h : Run step s tr t) (hs : I s)
    (hC : ∀ r ∈ tr, C r.pre r.label) : I t := by
  induction h with
  | nil => exact hs
  | @snoc tr t u l _ hl ih =>
    have ht : I t := ih fun r hr => hC r (List.mem_append_left _ hr)
    exact hstep ht (hC ⟨t, l, u⟩ (List.mem_append_right _ (List.mem_singleton_self _))) hl

/-- An invariant kept by every step holds after every run. -/
theorem invariant {I : S → Prop} (hstep : ∀ {t l u}, I t → step t l u → I u)
    (h : Run step s tr t) (hs : I s) : I t :=
  invariant_of (C := fun _ _ => True) (fun ht _ hl => hstep ht hl) h hs fun _ _ => trivial

/-- Runs compose. -/
theorem append {u : S} {tr' : List (Record S L)} (h : Run step s tr t) (h' : Run step t tr' u) :
    Run step s (tr ++ tr') u := by
  induction h' with
  | nil =>
    rw [List.append_nil]
    exact h
  | snoc _ hl ih =>
    rw [← List.append_assoc]
    exact ih.snoc hl

/-- A step before a run. -/
theorem cons {u : S} {l : L} (hl : step s l t) (h : Run step t tr u) :
    Run step s (⟨s, l, t⟩ :: tr) u := (Run.nil.snoc hl).append h

/-- Every recorded step is a step of the system, and the run up to it is a run. -/
theorem record (h : Run step s tr t) :
    ∀ r ∈ tr, step r.pre r.label r.post ∧
      ∃ before after, tr = before ++ r :: after ∧ Run step s before r.pre := by
  induction h with
  | nil => exact fun r hr => absurd hr List.not_mem_nil
  | @snoc tr t u l hrun hl ih =>
    intro r hr
    rcases List.mem_append.mp hr with hr | hr
    · obtain ⟨hstep, before, after, htr, hbefore⟩ := ih r hr
      refine ⟨hstep, before, after ++ [⟨t, l, u⟩], ?_, hbefore⟩
      rw [htr, List.append_assoc, List.cons_append]
    · obtain rfl := List.mem_singleton.mp hr
      exact ⟨hl, tr, [], rfl, hrun⟩

/-- A run whose last recorded step is known ends behind that step. -/
theorem of_snoc {r : Record S L} (h : Run step s (tr ++ [r]) t) :
    Run step s tr r.pre ∧ step r.pre r.label r.post ∧ r.post = t := by
  generalize htr : tr ++ [r] = tr' at h
  cases h with
  | nil => exact absurd htr (by simp)
  | snoc hrun hl =>
    obtain ⟨rfl, hr⟩ := List.append_inj' htr rfl
    obtain rfl := List.singleton_inj.mp hr
    exact ⟨hrun, hl, rfl⟩

/-- A run can be cut anywhere. -/
theorem of_append {tr' : List (Record S L)} (h : Run step s (tr ++ tr') t) :
    ∃ u, Run step s tr u ∧ Run step u tr' t := by
  generalize htr : tr ++ tr' = full at h
  induction h generalizing tr' with
  | nil =>
    obtain ⟨rfl, rfl⟩ := List.append_eq_nil_iff.mp htr
    exact ⟨s, .nil, .nil⟩
  | @snoc full v w l hrun hl ih =>
    rcases List.eq_nil_or_concat tr' with rfl | ⟨init, last, rfl⟩
    · rw [List.append_nil] at htr
      rw [htr]
      exact ⟨w, hrun.snoc hl, .nil⟩
    · rw [List.concat_eq_append, ← List.append_assoc] at htr
      obtain ⟨hinit, hlast⟩ := List.append_inj' htr rfl
      obtain ⟨u, hu, hv⟩ := ih hinit
      obtain rfl := List.singleton_inj.mp hlast
      rw [List.concat_eq_append]
      exact ⟨u, hu, hv.snoc hl⟩

/-- Conservation: if every step balances what it takes out of a queue and what it puts in, so does
the run. The left-hand side is what was taken out followed by what is still there. The steps may
rely on an invariant, and on what their events meet. -/
theorem conserve_of {I : S → Prop} {C : S → L → Prop} {q : S → List α}
    {ins outs : Record S L → List α} (hinv : ∀ {t l u}, I t → C t l → step t l u → I u)
    (hstep : ∀ r : Record S L, I r.pre → C r.pre r.label → step r.pre r.label r.post →
      outs r ++ q r.post = q r.pre ++ ins r)
    (h : Run step s tr t) (hs : I s) (hC : ∀ r ∈ tr, C r.pre r.label) :
    tr.flatMap outs ++ q t = q s ++ tr.flatMap ins := by
  -- by induction on the run: the balance of its last step extends the balance so far
  induction h with
  | nil => simp
  | @snoc tr t u l hrun hl ih =>
    have hbefore : ∀ r ∈ tr, C r.pre r.label := fun r hr => hC r (List.mem_append_left _ hr)
    have hlast : C t l := hC ⟨t, l, u⟩ (List.mem_append_right _ (List.mem_singleton_self _))
    have hbal := hstep ⟨t, l, u⟩ (invariant_of hinv hrun hs hbefore) hlast hl
    rw [List.flatMap_append, List.flatMap_append, List.flatMap_singleton, List.flatMap_singleton,
      List.append_assoc, hbal, ← List.append_assoc, ih hbefore, List.append_assoc]

/-- The same for steps that rely on nothing. -/
theorem conserve {q : S → List α} {ins outs : Record S L → List α}
    (hstep : ∀ r : Record S L, step r.pre r.label r.post →
      outs r ++ q r.post = q r.pre ++ ins r)
    (h : Run step s tr t) : tr.flatMap outs ++ q t = q s ++ tr.flatMap ins :=
  conserve_of (I := fun _ => True) (C := fun _ _ => True) (fun _ _ _ => trivial)
    (fun r _ _ => hstep r) h trivial fun _ _ => trivial

/-- Simulation: each step that meets `C`, from related states, is matched by a run to related
states in which `obs'` shows what `obs` shows of the step. Then so is each run of such steps. -/
theorem simulates {T M : Type} {step' : T → M → T → Prop} {R : S → T → Prop} {C : S → L → Prop}
    {obs : Record S L → List α} {obs' : Record T M → α} {u : T}
    (hstep : ∀ {s t u l}, R s u → C s l → step s l t →
      ∃ tr' v, Run step' u tr' v ∧ R t v ∧ tr'.map obs' = obs ⟨s, l, t⟩)
    (h : Run step s tr t) (hs : R s u) (hC : ∀ r ∈ tr, C r.pre r.label) :
    ∃ tr' v, Run step' u tr' v ∧ R t v ∧ tr'.map obs' = tr.flatMap obs := by
  induction h with
  | nil => exact ⟨[], u, .nil, hs, rfl⟩
  | @snoc tr t w l _ hl ih =>
    obtain ⟨before, v, hbefore, hv, hobs⟩ := ih fun r hr => hC r (List.mem_append_left _ hr)
    have hlast : C t l := hC ⟨t, l, w⟩ (List.mem_append_right _ (List.mem_singleton_self _))
    obtain ⟨after, x, hafter, hx, hobs'⟩ := hstep hv hlast hl
    refine ⟨before ++ after, x, hbefore.append hafter, hx, ?_⟩
    rw [List.map_append, List.flatMap_append, List.flatMap_singleton, hobs, hobs']

/-- Ranking: if no step raises the rank and each counted one lowers it, a run counts no more than
the rank it starts with. The steps may rely on an invariant. -/
theorem countP_add_le {I : S → Prop} (rank : S → ℕ) (counted : Record S L → Bool)
    (hinv : ∀ {t l u}, I t → step t l u → I u)
    (hstep : ∀ r : Record S L, I r.pre → step r.pre r.label r.post →
      (if counted r then 1 else 0) + rank r.post ≤ rank r.pre)
    (h : Run step s tr t) (hs : I s) : tr.countP counted + rank t ≤ rank s := by
  induction h with
  | nil => simp
  | @snoc tr t u l hrun hl ih =>
    have hlast := hstep ⟨t, l, u⟩ (invariant hinv hrun hs) hl
    rw [List.countP_append, List.countP_singleton]
    dsimp only at hlast
    omega

end Run

/-! ## Systems of parts -/

/-- A step of a system of parts: a step of one part, the others stay as they are. -/
def AtPart {ι : Type} (step : ι → S → L → S → Prop) (s : ι → S) (ev : ι × L) (t : ι → S) : Prop :=
  step ev.1 (s ev.1) ev.2 (t ev.1) ∧ ∀ j, j ≠ ev.1 → t j = s j

/-- What part `i` sees of a step. -/
def Record.part {ι : Type} [DecidableEq ι] (i : ι) (r : Record (ι → S) (ι × L)) :
    Option (Record S L) :=
  if r.label.1 = i then some ⟨r.pre i, r.label.2, r.post i⟩ else none

/-- **Projection**: what a part sees of a run is a run of the part. -/
theorem Run.part {ι : Type} [DecidableEq ι] {step : ι → S → L → S → Prop}
    {whole : (ι → S) → ι × L → (ι → S) → Prop} {s t : ι → S} {tr : List (Record (ι → S) (ι × L))}
    (hwhole : ∀ {s ev t}, whole s ev t → AtPart step s ev t) (h : Run whole s tr t) (i : ι) :
    Run (step i) (s i) (tr.filterMap (Record.part i)) (t i) := by
  induction h with
  | nil => exact .nil
  | @snoc tr t u ev _ hl ih =>
    obtain ⟨hstep, hothers⟩ := hwhole hl
    rw [List.filterMap_append, List.filterMap_cons, List.filterMap_nil, Record.part]
    by_cases hi : ev.1 = i
    · subst hi
      rw [if_pos rfl]
      exact ih.snoc hstep
    · rw [if_neg hi, List.append_nil, hothers i (Ne.symm hi)]
      exact ih

/-- And what it sees happened. -/
theorem Record.mem_part {ι : Type} [DecidableEq ι] {i : ι} {r : Record S L}
    {tr : List (Record (ι → S) (ι × L))} (h : r ∈ tr.filterMap (Record.part i)) :
    ∃ q ∈ tr, q.label = (i, r.label) ∧ q.pre i = r.pre ∧ q.post i = r.post := by
  obtain ⟨⟨pre, ⟨j, l⟩, post⟩, hq, hpart⟩ := List.mem_filterMap.mp h
  simp only [Record.part, Option.ite_none_right_eq_some, Option.some.injEq] at hpart
  obtain ⟨rfl, rfl⟩ := hpart
  exact ⟨_, hq, rfl, rfl, rfl⟩

end Runs
