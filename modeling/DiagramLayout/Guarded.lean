import DiagramLayout.Scalar

/-!
# Guarded values

Pushing a number into an interval needs an interval: with an end that is not a number, or with ends
that are reversed, no answer is right. `clamp` returns a number even then and records the fault, and
a computation that clamps many times carries one record along. A `Guarded` value is therefore always
there, and `defined` tells whether every interval on the way to it was one.

`value` commutes with `pure`, `bind` and folds, so the guarded functions are reasoned about as
ordinary ones.
-/

namespace DiagramLayout

/-- A value together with a record whether every clamp on the way to it had an interval. -/
structure Guarded (β : Type) where
  value : β
  defined : Bool
deriving DecidableEq, Repr

namespace Guarded

variable {β γ : Type}

instance : Monad Guarded where
  pure b := ⟨b, true⟩
  bind x f := ⟨(f x.value).value, x.defined && (f x.value).defined⟩

@[simp] theorem value_pure (b : β) : (pure b : Guarded β).value = b := rfl

@[simp] theorem defined_pure (b : β) : (pure b : Guarded β).defined = true := rfl

@[simp] theorem value_bind (x : Guarded β) (f : β → Guarded γ) :
    (x >>= f).value = (f x.value).value := rfl

@[simp] theorem defined_bind (x : Guarded β) (f : β → Guarded γ) :
    (x >>= f).defined = (x.defined && (f x.value).defined) := rfl

@[simp] theorem value_map (f : β → γ) (x : Guarded β) : (f <$> x).value = f x.value := rfl

theorem ext_parts {x y : Guarded β} (value : x.value = y.value) (defined : x.defined = y.defined) :
    x = y := by
  cases x; cases y; simp_all

instance : LawfulMonad Guarded :=
  LawfulMonad.mk' Guarded
    (fun _ => ext_parts rfl (by simp [Functor.map]))
    (fun _ _ => ext_parts rfl (by simp))
    (fun _ _ _ => ext_parts rfl (by simp [Bool.and_assoc]))

/-- A fold of guarded steps has the value of the fold of their values. -/
@[simp] theorem value_foldlM (step : γ → β → Guarded γ) (start : γ) (xs : List β) :
    (xs.foldlM step start).value = xs.foldl (fun state x => (step state x).value) start := by
  induction xs generalizing start with
  | nil => rfl
  | cons x xs ih => simp [ih]

end Guarded

/-- The number of the interval from `low` to `high` nearest to `x`. It is defined only if the ends
are in order; what is not a number passes through. -/
def clamp {α : Type} [Scalar α] (low high x : α) : Guarded α where
  value := if x < low then low else if high < x then high else x
  defined := decide (low ≤ high)

end DiagramLayout
