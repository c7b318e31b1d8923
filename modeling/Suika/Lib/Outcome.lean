import Mathlib.Logic.Basic

/-!
# Outcomes of calls

A call of a program in the C++ family ends in one of four ways: it returns, it throws, it leaves
the behaviour the language defines, or it never comes back. Two layers:

* `Eval ε α`: an evaluation that only looks at its arguments. It yields a value or a `Fault`:
  an exception of type `ε`, or undefined behaviour (an index outside a vector, a variable read
  before it is set).
* `Comp ε σ α`: a computation over a state `σ`. A throw *keeps the state reached so far*: nothing
  is rolled back, which is what makes partial effects visible. After undefined behaviour there is
  no state at all, so nothing can be concluded from such a call.

`MonadLift` runs the first layer inside the second. Proofs work with the inversion lemmas
(`bind_eq_ok`, `bind_eq_done`), one for each way a sequence can end.
-/

namespace Cpp

/-- What stops an evaluation. -/
inductive Fault (ε : Type) : Type where
  /-- behaviour the language leaves undefined -/
  | undefined : Fault ε
  /-- an exception was thrown -/
  | exception : ε → Fault ε
  deriving DecidableEq

/-- An evaluation that reads its arguments only. -/
abbrev Eval (ε α : Type) : Type := Except (Fault ε) α

variable {ε σ α β : Type}

namespace Eval

/-- Leave defined behaviour. -/
def undefined : Eval ε α := .error .undefined

/-- Throw an exception. -/
def throwing (e : ε) : Eval ε α := .error (.exception e)

@[simp] theorem pure_eq (a : α) : (pure a : Eval ε α) = .ok a := rfl

@[simp] theorem ok_bind (a : α) (f : α → Eval ε β) : (Except.ok a >>= f : Eval ε β) = f a := rfl

/-- Inversion for `bind`. -/
theorem bind_eq_ok {x : Eval ε α} {f : α → Eval ε β} {b : β} (h : x >>= f = .ok b) :
    ∃ a, x = .ok a ∧ f a = .ok b := by
  cases x with
  | error e => cases h
  | ok a => exact ⟨a, rfl, h⟩

/-- Inversion for `bind`, when the sequence throws. -/
theorem bind_eq_throwing {x : Eval ε α} {f : α → Eval ε β} {e : ε} (h : x >>= f = throwing e) :
    x = throwing e ∨ ∃ a, x = .ok a ∧ f a = throwing e := by
  rcases x with (_ | e') | a
  · cases h
  · cases h
    exact Or.inl rfl
  · exact Or.inr ⟨a, rfl, h⟩

/-- The evaluation throws nothing: it yields a value, or it leaves defined behaviour. -/
def Quiet (x : Eval ε α) : Prop := ∀ e, x ≠ throwing e

namespace Quiet

theorem ok (a : α) : Quiet (.ok a : Eval ε α) := fun _ h => nomatch h

theorem undefined : Quiet (undefined : Eval ε α) := fun _ h => nomatch h

theorem bind {x : Eval ε α} {f : α → Eval ε β} (hx : Quiet x) (hf : ∀ a, Quiet (f a)) :
    Quiet (x >>= f) := by
  rcases x with (_ | e) | a
  · exact Quiet.undefined
  · exact absurd rfl (hx e)
  · exact hf a

/-- What throws comes after. -/
theorem of_bind_eq_throwing {x : Eval ε α} {f : α → Eval ε β} {e : ε} (hx : Quiet x)
    (h : x >>= f = throwing e) : ∃ a, x = .ok a ∧ f a = throwing e := by
  rcases bind_eq_throwing h with h | h
  · exact absurd h (hx e)
  · exact h

/-- What comes after cannot be kept from leaving defined behaviour. -/
theorem bind_undefined {x : Eval ε α} {f : α → Eval ε β} (hx : Quiet x)
    (hf : ∀ a, f a = Eval.undefined) : x >>= f = Eval.undefined := by
  rcases x with (_ | e) | a
  · rfl
  · exact absurd rfl (hx e)
  · exact hf a

end Quiet

end Eval

/-- How a call that runs over a state ends. -/
inductive Outcome (ε σ α : Type) : Type where
  /-- it returned `val` -/
  | done (next : σ) (val : α) : Outcome ε σ α
  /-- it threw `err`; the effects made so far stay -/
  | threw (next : σ) (err : ε) : Outcome ε σ α
  /-- it left defined behaviour -/
  | undef : Outcome ε σ α
  /-- it never returns from this state -/
  | hangs : Outcome ε σ α

/-- Continue a call that returned; every other end stays what it is. -/
def Outcome.andThen (o : Outcome ε σ α) (f : σ → α → Outcome ε σ β) : Outcome ε σ β :=
  match o with
  | .done t a => f t a
  | .threw t e => .threw t e
  | .undef => .undef
  | .hangs => .hangs

/-- A call over the state `σ`. -/
structure Comp (ε σ α : Type) : Type where
  /-- run the call from a state -/
  run : σ → Outcome ε σ α

namespace Comp

/-- Return a value, leave the state alone. -/
protected def pure (a : α) : Comp ε σ α := ⟨fun s => .done s a⟩

/-- Sequencing: only a call that returned is continued. -/
protected def bind (m : Comp ε σ α) (f : α → Comp ε σ β) : Comp ε σ β :=
  ⟨fun s => (m.run s).andThen fun t a => (f a).run t⟩

instance : Monad (Comp ε σ) where
  pure := Comp.pure
  bind := Comp.bind

/-- Run an evaluation inside a computation. -/
def lift : Eval ε α → Comp ε σ α
  | .ok a => Comp.pure a
  | .error .undefined => ⟨fun _ => .undef⟩
  | .error (.exception e) => ⟨fun s => .threw s e⟩

instance : MonadLift (Eval ε) (Comp ε σ) := ⟨lift⟩

/-- Throw, keeping the state. -/
def throw (e : ε) : Comp ε σ α := ⟨fun s => .threw s e⟩

/-- Leave defined behaviour. -/
def undefined : Comp ε σ α := ⟨fun _ => .undef⟩

/-- Never return. -/
def hang : Comp ε σ α := ⟨fun _ => .hangs⟩

/-- A `try` block: an exception the handler names is handled from the state it left behind, any
other one passes through. -/
def catching (m : Comp ε σ α) (handler : ε → Option (Comp ε σ α)) : Comp ε σ α :=
  ⟨fun s =>
    match m.run s with
    | .threw t e =>
      match handler e with
      | some h => h.run t
      | none => .threw t e
    | o => o⟩

/-- Read the state. -/
def get : Comp ε σ σ := ⟨fun s => .done s s⟩

/-- Replace the state. -/
def set (t : σ) : Comp ε σ Unit := ⟨fun _ => .done t ()⟩

@[simp] theorem pure_bind (a : α) (f : α → Comp ε σ β) : (pure a >>= f) = f a := rfl

@[simp] theorem lift_ok_bind (a : α) (f : α → Comp ε σ β) :
    (liftM (Except.ok a : Eval ε α) >>= f) = f a := rfl

@[simp] theorem run_get_bind (f : σ → Comp ε σ β) (s : σ) :
    (get >>= f).run s = (f s).run s := rfl

@[simp] theorem run_set_bind (t : σ) (f : Unit → Comp ε σ β) (s : σ) :
    (set t >>= f).run s = (f ()).run t := rfl

theorem run_bind (m : Comp ε σ α) (f : α → Comp ε σ β) (s : σ) :
    (m >>= f).run s = (m.run s).andThen fun t a => (f a).run t := rfl

theorem bind_assoc {γ : Type} (m : Comp ε σ α) (f : α → Comp ε σ β) (g : β → Comp ε σ γ) :
    m >>= f >>= g = m >>= fun a => f a >>= g := by
  refine congrArg Comp.mk (funext fun s => ?_)
  rw [run_bind]
  rcases m.run s with ⟨t, a⟩ | ⟨t, e⟩ | _ | _ <;> rfl

/-- Introduction for `bind`: continue a call that returned. -/
theorem bind_done {m : Comp ε σ α} {f : α → Comp ε σ β} {s t : σ} {a : α}
    (h : m.run s = .done t a) : (m >>= f).run s = (f a).run t := by
  rw [run_bind, h]
  rfl

/-- A throw ends the sequence. -/
theorem bind_threw {m : Comp ε σ α} {f : α → Comp ε σ β} {s t : σ} {e : ε}
    (h : m.run s = .threw t e) : (m >>= f).run s = .threw t e := by
  rw [run_bind, h]
  rfl

/-- Inversion for `bind`. -/
theorem bind_eq_done {m : Comp ε σ α} {f : α → Comp ε σ β} {s u : σ} {b : β}
    (h : (m >>= f).run s = .done u b) :
    ∃ t a, m.run s = .done t a ∧ (f a).run t = .done u b := by
  rw [run_bind] at h
  rcases hm : m.run s with ⟨t, a⟩ | ⟨t, e⟩ | _ | _ <;> rw [hm] at h
  · exact ⟨t, a, rfl, h⟩
  all_goals cases h

/-- A sequence that ends with a constant returns exactly when its front does. -/
theorem bind_pure_done_iff {m : Comp ε σ α} {b : β} {s : σ} :
    (∃ t c, (m >>= fun _ => pure b).run s = .done t c) ↔ ∃ t a, m.run s = .done t a := by
  refine ⟨?_, ?_⟩
  · rintro ⟨t, c, h⟩
    obtain ⟨u, a, hm, -⟩ := bind_eq_done h
    exact ⟨u, a, hm⟩
  · rintro ⟨t, a, h⟩
    exact ⟨t, b, by rw [bind_done h]; rfl⟩

/-- Inversion for `bind`, when the sequence throws. -/
theorem bind_eq_threw {m : Comp ε σ α} {f : α → Comp ε σ β} {s u : σ} {e : ε}
    (h : (m >>= f).run s = .threw u e) :
    m.run s = .threw u e ∨ ∃ t a, m.run s = .done t a ∧ (f a).run t = .threw u e := by
  rw [run_bind] at h
  rcases hm : m.run s with ⟨t, a⟩ | ⟨t, e'⟩ | _ | _ <;> rw [hm] at h
  · exact Or.inr ⟨t, a, rfl, h⟩
  · cases h
    exact Or.inl rfl
  all_goals cases h

/-- Inversion for a lifted evaluation: it throws from the state it started in, or it is passed. -/
theorem lift_bind_eq_threw {x : Eval ε α} {f : α → Comp ε σ β} {s t : σ} {e : ε}
    (h : (liftM x >>= f : Comp ε σ β).run s = .threw t e) :
    t = s ∨ ∃ a, x = .ok a ∧ (f a).run s = .threw t e := by
  rcases x with (_ | e') | a
  · cases h
  · cases h
    exact Or.inl rfl
  · exact Or.inr ⟨a, rfl, h⟩

/-- Inversion for a `try` block that returns: the block returned, or the handler of what it threw
did. -/
theorem catching_eq_done {m : Comp ε σ α} {handler : ε → Option (Comp ε σ α)} {s t : σ} {a : α}
    (h : (m.catching handler).run s = .done t a) :
    m.run s = .done t a ∨
      ∃ u e k, m.run s = .threw u e ∧ handler e = some k ∧ k.run u = .done t a := by
  simp only [catching] at h
  rcases hm : m.run s with ⟨u, b⟩ | ⟨u, e⟩ | _ | _ <;> rw [hm] at h
  · exact Or.inl h
  · dsimp only at h
    split at h
    · rename_i k hk
      exact Or.inr ⟨u, e, k, rfl, hk, h⟩
    · cases h
  all_goals cases h

/-- A lifted evaluation that throws nothing does not keep what comes after from leaving defined
behaviour. -/
theorem lift_bind_undef {x : Eval ε α} {f : α → Comp ε σ β} {s : σ} (hx : x.Quiet)
    (hf : ∀ a, (f a).run s = .undef) : (liftM x >>= f : Comp ε σ β).run s = .undef := by
  rcases x with (_ | e) | a
  · rfl
  · exact absurd rfl (hx e)
  · exact hf a

/-- Inversion for a lifted evaluation in a sequence that returns: it yields a value, and leaves the
state alone. -/
theorem lift_bind_eq_done {x : Eval ε α} {f : α → Comp ε σ β} {s t : σ} {b : β}
    (h : (liftM x >>= f : Comp ε σ β).run s = .done t b) :
    ∃ a, x = .ok a ∧ (f a).run s = .done t b := by
  rcases x with (_ | e) | a
  · cases h
  · cases h
  · exact ⟨a, rfl, h⟩

end Comp

/-! ## What a call keeps -/

/-- The state a call ends in, if it ends in one. -/
def Outcome.next? : Outcome ε σ α → Option σ
  | .done t _ => some t
  | .threw t _ => some t
  | .undef => none
  | .hangs => none

/-- The call keeps `Q`, whether it returns or throws. -/
def Comp.Keeps (Q : σ → Prop) (m : Comp ε σ α) : Prop :=
  ∀ s t, Q s → (m.run s).next? = some t → Q t

/-- A lifted evaluation that yields no value ends where it started. -/
theorem Comp.next?_lift_bind {x : Eval ε α} {f : α → Comp ε σ β} {s t : σ}
    (h : ((liftM x >>= f : Comp ε σ β).run s).next? = some t) :
    t = s ∨ ∃ a, x = .ok a ∧ ((f a).run s).next? = some t := by
  rcases x with (_ | e) | a
  · cases h
  · cases h
    exact Or.inl rfl
  · exact Or.inr ⟨a, rfl, h⟩

/-- Wrapping the result does not change where a call ends. -/
theorem Comp.next?_bind_pure (m : Comp ε σ α) (g : α → β) (s : σ) :
    ((m >>= fun a => pure (g a) : Comp ε σ β).run s).next? = (m.run s).next? := by
  rw [run_bind]
  rcases m.run s with ⟨t, a⟩ | ⟨t, e⟩ | _ | _ <;> rfl

namespace Comp.Keeps

variable {Q : σ → Prop} {m : Comp ε σ α} {s t : σ}

theorem of_done {a : α} (hm : Keeps Q m) (hs : Q s) (h : m.run s = .done t a) : Q t :=
  hm s t hs (by rw [h]; rfl)

theorem of_threw {e : ε} (hm : Keeps Q m) (hs : Q s) (h : m.run s = .threw t e) : Q t :=
  hm s t hs (by rw [h]; rfl)

theorem pure (a : α) : Keeps Q (Pure.pure a : Comp ε σ α) := by
  intro s t hs ht
  cases ht
  exact hs

theorem throw (e : ε) : Keeps Q (Comp.throw e : Comp ε σ α) := by
  intro s t hs ht
  cases ht
  exact hs

theorem undefined : Keeps Q (Comp.undefined : Comp ε σ α) := fun _ _ _ ht => nomatch ht

theorem hang : Keeps Q (Comp.hang : Comp ε σ α) := fun _ _ _ ht => nomatch ht

theorem lift (x : Eval ε α) : Keeps Q (liftM x : Comp ε σ α) := by
  rcases x with (_ | e) | a
  · exact fun _ _ _ ht => nomatch ht
  · exact Keeps.throw e
  · exact Keeps.pure a

theorem set (ht : Q t) : Keeps Q (Comp.set t : Comp ε σ Unit) := by
  intro s u _ hu
  cases hu
  exact ht

/-- Sequencing: the second part starts where the first one ended, unless that threw. -/
theorem bind {f : α → Comp ε σ β} (hm : Keeps Q m) (hf : ∀ a, Keeps Q (f a)) :
    Keeps Q (m >>= f) := by
  intro s t hs ht
  rw [run_bind] at ht
  rcases hr : m.run s with ⟨u, a⟩ | ⟨u, e⟩ | _ | _ <;> rw [hr] at ht
  · exact hf a u t (hm.of_done hs hr) ht
  · cases ht
    exact hm.of_threw hs hr
  all_goals cases ht

/-- A sequence that starts with an evaluation goes on only when it yields a value. -/
theorem lift_bind {x : Eval ε α} {f : α → Comp ε σ β} (hf : ∀ a, x = .ok a → Keeps Q (f a)) :
    Keeps Q (liftM x >>= f : Comp ε σ β) := by
  intro s t hs ht
  obtain rfl | ⟨a, ha, ht⟩ := next?_lift_bind ht
  · exact hs
  · exact hf a ha s t hs ht

theorem catching {handler : ε → Option (Comp ε σ α)} (hm : Keeps Q m)
    (hh : ∀ e h, handler e = some h → Keeps Q h) : Keeps Q (m.catching handler) := by
  intro s t hs ht
  simp only [Comp.catching] at ht
  rcases hr : m.run s with ⟨u, a⟩ | ⟨u, e⟩ | _ | _ <;> rw [hr] at ht
  · cases ht
    exact hm.of_done hs hr
  · have hu := hm.of_threw hs hr
    simp only at ht
    split at ht
    · rename_i h heq
      exact hh e h heq u t hu ht
    · cases ht
      exact hu
  all_goals cases ht

/-- A computation that reads the state may use that `Q` holds of it. -/
theorem read {f : σ → Comp ε σ β} (hf : ∀ s, Q s → Keeps Q (f s)) : Keeps Q (get >>= f) :=
  fun s t hs ht => hf s hs s t hs ht

end Comp.Keeps

end Cpp
