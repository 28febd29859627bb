-- SUMMARY: Go error values: sentinels, `fmt.Errorf` wrapping, typed wrappers, and the chain walks `errors.Is` and `errors.As`.
import Mathlib.Tactic.Basic

/-!
# Go errors

An error is a tree. `errors.New` builds a leaf, `fmt.Errorf` with one or two
`%w` verbs builds an inner node, and a type with an `Unwrap` method builds a
node that carries the name of that type. The two walks of package `errors` are
recursions on that tree.
-/

namespace Go42

/-- An error value. The strings around the wrapped errors are the literal parts
of the format, so that `text` is what `Error()` returns. -/
inductive GoError where
  | leaf (text : String)
  | wrap (before : String) (err : GoError) (after : String)
  | wrap2 (before : String) (err₁ : GoError) (between : String) (err₂ : GoError)
  | typed (type : String) (err : GoError)
deriving DecidableEq, Repr

namespace GoError

/-- `Error()`. -/
def text : GoError → String
  | leaf s => s
  | wrap b e a => b ++ e.text ++ a
  | wrap2 b e₁ m e₂ => b ++ e₁.text ++ m ++ e₂.text
  | typed _ e => e.text

/-- `errors.Is(err, target)`: some node of the chain is the target. -/
def is (err target : GoError) : Bool :=
  decide (err = target) ||
    match err with
    | leaf _ => false
    | wrap _ e _ => e.is target
    | wrap2 _ e₁ _ e₂ => e₁.is target || e₂.is target
    | typed _ e => e.is target

/-- `errors.As` with a target of the wrapper type `type`. -/
def as (type : String) : GoError → Bool
  | leaf _ => false
  | wrap _ e _ => e.as type
  | wrap2 _ e₁ _ e₂ => e₁.as type || e₂.as type
  | typed t e => decide (t = type) || e.as type

@[simp] theorem is_self (e : GoError) : e.is e = true := by
  cases e <;> simp [is]

@[simp] theorem is_wrap {e t : GoError} {b a : String} (h : e.is t = true) :
    (wrap b e a).is t = true := by
  simp [is, h]

@[simp] theorem is_wrap2_left {e₁ e₂ t : GoError} {b m : String} (h : e₁.is t = true) :
    (wrap2 b e₁ m e₂).is t = true := by
  simp [is, h]

@[simp] theorem is_wrap2_right {e₁ e₂ t : GoError} {b m : String} (h : e₂.is t = true) :
    (wrap2 b e₁ m e₂).is t = true := by
  simp [is, h]

/-- Whatever `errors.Is` finds in `e`, it finds in `e'`. -/
def Within (e e' : GoError) : Prop := ∀ t, e.is t = true → e'.is t = true

theorem within_refl (e : GoError) : e.Within e := fun _ h => h

theorem within_wrap2_right {e e' : GoError} (h : e.Within e') (b m : String) (e₁ : GoError) :
    e.Within (wrap2 b e₁ m e') :=
  fun t ht => is_wrap2_right (h t ht)

end GoError
end Go42
