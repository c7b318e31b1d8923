import Mathlib.Logic.Function.Basic
import Suika.Lib.Outcome

/-!
# Families of setters

A value that is written one field at a time, by a setter for each field. What a sequence of setter
calls is expected to leave behind does not depend on the representation: for each field the value
it was given last (`lastGiven`), and whatever was there before for a field that was given none.

`run_encode` reduces this to one call. A representation `encode` of partial records for which every
setter replaces the entry of its own field, and only that one, represents the last values after any
sequence of calls. Where a setter returns for some values only, so does the sequence
(`run_encode_iff`).
-/

namespace Fields

open Cpp

variable {ε σ ι : Type} {V : ι → Type}

/-- A call of the setter of a field, with its argument. -/
abbrev Write (V : ι → Type) : Type := Sigma V

/-- The calls of setters, one after the other. -/
def run (set : ∀ i, σ → V i → Eval ε σ) : List (Write V) → σ → Eval ε σ
  | [], s => .ok s
  | w :: ws, s => do run set ws (← set w.1 s w.2)

variable [DecidableEq ι]

/-- The value of the last call for `i`. -/
def lastGiven (i : ι) : List (Write V) → Option (V i)
  | [] => none
  | w :: ws => (lastGiven i ws).or (if h : w.1 = i then some (h ▸ w.2) else none)

@[simp] theorem lastGiven_nil (i : ι) : lastGiven i ([] : List (Write V)) = none := rfl

/-- The last value was given. -/
theorem mem_of_lastGiven {i : ι} {ws : List (Write V)} {v : V i}
    (h : lastGiven i ws = some v) : ⟨i, v⟩ ∈ ws := by
  induction ws with
  | nil => cases h
  | cons w ws ih =>
    rw [lastGiven, Option.or_eq_some_iff] at h
    rcases h with h | ⟨-, h⟩
    · exact List.mem_cons_of_mem w (ih h)
    · obtain ⟨j, u⟩ := w
      by_cases hj : j = i
      · subst hj
        rw [dif_pos rfl, Option.some.injEq] at h
        exact h ▸ List.mem_cons_self
      · rw [dif_neg hj] at h
        cases h

/-- An earlier call counts where no later one is for the same field. -/
theorem lastGiven_cons (i : ι) (w : Write V) (ws : List (Write V)) (x : ∀ i, Option (V i)) :
    (lastGiven i (w :: ws)).or (x i) =
      (lastGiven i ws).or (Function.update x w.1 (some w.2) i) := by
  obtain ⟨j, v⟩ := w
  rw [lastGiven, Option.or_assoc]
  by_cases h : j = i
  · subst h
    simp
  · simp [h, Ne.symm h]

/-- **The last values stay**: if each setter replaces the entry of its field in the record that is
encoded, for the values that fit it, and does not return for any other, a run of setters returns
where all its values fit, and leaves the record of the last ones. -/
theorem run_encode_iff {set : ∀ i, σ → V i → Eval ε σ} {encode : (∀ i, Option (V i)) → σ}
    {Fits : ∀ i, V i → Prop}
    (hset : ∀ i x v, Fits i v → set i (encode x) v = .ok (encode (Function.update x i (some v))))
    (hfits : ∀ i x v t, set i (encode x) v = .ok t → Fits i v)
    (ws : List (Write V)) (x : ∀ i, Option (V i)) (t : σ) :
    run set ws (encode x) = .ok t ↔
      (∀ w ∈ ws, Fits w.1 w.2) ∧ t = encode fun i => (lastGiven i ws).or (x i) := by
  induction ws generalizing x with
  | nil => simp [run, eq_comm]
  | cons w ws ih =>
    by_cases hw : Fits w.1 w.2
    · rw [run, hset _ _ _ hw, Eval.ok_bind, ih, List.forall_mem_cons]
      simp only [lastGiven_cons, hw, true_and]
    · refine iff_of_false (fun hrun => ?_) fun h => hw (h.1 w List.mem_cons_self)
      obtain ⟨s, hs, -⟩ := Eval.bind_eq_ok hrun
      exact hw (hfits _ _ _ _ hs)

/-- Every value fits a setter that always returns. -/
theorem run_encode {set : ∀ i, σ → V i → Eval ε σ} {encode : (∀ i, Option (V i)) → σ}
    (hset : ∀ i x v, set i (encode x) v = .ok (encode (Function.update x i (some v))))
    (ws : List (Write V)) (x : ∀ i, Option (V i)) :
    run set ws (encode x) = .ok (encode fun i => (lastGiven i ws).or (x i)) :=
  (run_encode_iff (fun i x v (_ : True) => hset i x v) (fun _ _ _ _ _ => trivial) ws x _).mpr
    ⟨fun _ _ => trivial, rfl⟩

/-- The same where every field has a value from the beginning. -/
theorem run_encode_getD {set : ∀ i, σ → V i → Eval ε σ} {encode : (∀ i, V i) → σ}
    (hset : ∀ i x v, set i (encode x) v = .ok (encode (Function.update x i v)))
    (ws : List (Write V)) (x : ∀ i, V i) :
    run set ws (encode x) = .ok (encode fun i => (lastGiven i ws).getD (x i)) := by
  have hover : ∀ i (y : ∀ i, Option (V i)) v,
      set i (encode fun j => (y j).getD (x j)) v =
        .ok (encode fun j => (Function.update y i (some v) j).getD (x j)) := by
    intro i y v
    rw [hset]
    refine congrArg _ (congrArg encode (funext fun j => ?_))
    by_cases h : j = i
    · subst h
      simp
    · simp [h]
  have hrun := run_encode hover ws fun _ => none
  simp only [Option.or_none, Option.getD_none] at hrun
  exact hrun

end Fields
