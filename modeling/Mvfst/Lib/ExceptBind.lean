import Mathlib

/-!
Reading a chain of `Except` binds: a bind succeeds exactly when both steps do, and fails when the
first step fails or the second fails on what the first returned. Through `toOption` a chain of
binds becomes a chain of `Option.bind`s, which forgets the messages; `ErrorsSatisfy` keeps what
every message of a chain has in common.
-/

namespace Except

variable {ε α β : Type} {x : Except ε α} {f : α → Except ε β}

@[simp] theorem ok_bind (a : α) (f : α → Except ε β) : (Except.ok a >>= f) = f a := rfl

@[simp] theorem error_bind (e : ε) (f : α → Except ε β) : (Except.error e >>= f) = .error e := rfl

@[simp] theorem pure_eq_ok (a : α) : (pure a : Except ε α) = .ok a := rfl

@[simp] theorem throw_eq_error (e : ε) : (throw e : Except ε α) = .error e := rfl

@[simp] theorem ok_map (a : α) (f : α → β) : (Except.ok a : Except ε α).map f = .ok (f a) := rfl

@[simp] theorem error_map (e : ε) (f : α → β) : (Except.error e : Except ε α).map f = .error e := rfl

theorem bind_eq_ok {b : β} : x >>= f = .ok b ↔ ∃ a, x = .ok a ∧ f a = .ok b := by
  cases x with
  | error e => simp
  | ok a => simp

theorem bind_eq_error {e : ε} : x >>= f = .error e ↔ x = .error e ∨ ∃ a, x = .ok a ∧ f a = .error e := by
  cases x with
  | error e' => simp
  | ok a => simp

@[simp] theorem toOption_ok (a : α) : (Except.ok a : Except ε α).toOption = some a := rfl

@[simp] theorem toOption_error (e : ε) : (Except.error e : Except ε α).toOption = none := rfl

theorem toOption_bind : (x >>= f).toOption = x.toOption.bind fun a => (f a).toOption := by
  cases x <;> rfl

theorem toOption_eq_none_iff : x.toOption = none ↔ ∃ e, x = .error e := by
  cases x <;> simp

/-- Every error that `x` can return satisfies `p`. -/
def ErrorsSatisfy (p : ε → Prop) (x : Except ε α) : Prop := ∀ e, x = .error e → p e

theorem errorsSatisfy_ok (p : ε → Prop) (a : α) : ErrorsSatisfy p (Except.ok a) := by
  intro e failed
  cases failed

theorem errorsSatisfy_error {p : ε → Prop} {e : ε} (holds : p e) :
    ErrorsSatisfy p (Except.error e : Except ε α) := by
  intro e' failed
  cases failed
  exact holds

theorem ErrorsSatisfy.bind {p : ε → Prop} (first : ErrorsSatisfy p x)
    (rest : ∀ a, ErrorsSatisfy p (f a)) : ErrorsSatisfy p (x >>= f) := by
  intro e failed
  rcases bind_eq_error.mp failed with failedFirst | ⟨a, ran, failedRest⟩
  · exact first e failedFirst
  · exact rest a e failedRest

end Except
