import Mathlib.Data.List.Forall2
import ShaderReflection.Table

/-! Results of two runs that agree: values are related by one relation, errors by another. -/
namespace ShaderReflection

inductive Agree (E : ε → ε' → Prop) (P : α → β → Prop) : Except ε α → Except ε' β → Prop where
  | ok {a : α} {b : β} (h : P a b) : Agree E P (.ok a) (.ok b)
  | error {e : ε} {e' : ε'} (h : E e e') : Agree E P (.error e) (.error e')

namespace Agree

variable {E : ε → ε' → Prop} {P : α → β → Prop} {Q : γ → δ → Prop}

theorem isOk_eq {x : Except ε α} {y : Except ε' β} (h : Agree E P x y) : x.isOk = y.isOk := by
  cases h <;> rfl

/-- Results that agree, with what is known of each of them. -/
theorem imp {Q : α → β → Prop} {x : Except ε α} {y : Except ε' β} (h : Agree E P x y)
    (hPQ : ∀ a b, x = .ok a → y = .ok b → P a b → Q a b) : Agree E Q x y := by
  cases h with
  | ok hab => exact .ok (hPQ _ _ rfl rfl hab)
  | error he => exact .error he

theorem refl {E : ε → ε → Prop} (hE : ∀ e, E e e) (x : Except ε α) : Agree E Eq x x := by
  cases x with
  | ok a => exact .ok rfl
  | error e => exact .error (hE e)

theorem bind {x : Except ε α} {y : Except ε' β} (h : Agree E P x y) {f : α → Except ε γ}
    {g : β → Except ε' δ} (hf : ∀ a b, P a b → Agree E Q (f a) (g b)) :
    Agree E Q (x >>= f) (y >>= g) := by
  cases h with
  | ok h => exact hf _ _ h
  | error h => exact .error h

theorem ofBool {b b' : Bool} (hb : b = b') {x : α} {y : β} (h : P x y) {e : ε} {e' : ε'}
    (he : E e e') : Agree E P (if b then .ok x else .error e) (if b' then .ok y else .error e') := by
  subst hb
  cases b with
  | true => exact .ok h
  | false => exact .error he

theorem mapM {f : γ → Except ε α} {g : γ → Except ε' β} (hf : ∀ c, Agree E P (f c) (g c))
    (cs : List γ) : Agree E (List.Forall₂ P) (cs.mapM f) (cs.mapM g) := by
  induction cs with
  | nil => exact .ok .nil
  | cons c cs ih =>
    rw [List.mapM_cons, List.mapM_cons]
    exact (hf c).bind fun a b hab => ih.bind fun as bs habs => .ok (.cons hab habs)

end Agree
end ShaderReflection
