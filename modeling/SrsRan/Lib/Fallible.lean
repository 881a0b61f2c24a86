import Mathlib

/-!
Computations that may fail, as `Except`: the rules by which a sequence of
fallible steps is taken apart, and a postcondition `Post Q P` that says
what holds of the result of a success and of the error of a failure, with
its rule of sequencing.
-/

namespace Fallible

variable {ε ε' α β : Type}

@[simp] theorem ok_bind (a : α) (f : α → Except ε β) : (Except.ok a >>= f) = f a := rfl

@[simp] theorem error_bind (err : ε) (f : α → Except ε β) :
    (Except.error err >>= f) = Except.error err := rfl

@[simp] theorem pure_eq_ok (a : α) : (pure a : Except ε α) = Except.ok a := rfl

@[simp] theorem mapError_ok (a : α) (f : ε → ε') :
    (Except.ok a : Except ε α).mapError f = .ok a := rfl

@[simp] theorem mapError_error (err : ε) (f : ε → ε') :
    (Except.error err : Except ε α).mapError f = .error (f err) := rfl

@[simp] theorem mapError_eq_ok {x : Except ε α} {f : ε → ε'} {a : α} : x.mapError f = .ok a ↔ x = .ok a := by
  cases x <;> simp [Except.mapError]

@[simp] theorem map_ok (a : α) (f : α → β) : (Except.ok a : Except ε α).map f = .ok (f a) := rfl

@[simp] theorem map_error (err : ε) (f : α → β) :
    (Except.error err : Except ε α).map f = .error err := rfl

theorem bind_pure_eq_map (x : Except ε α) (f : α → β) :
    (x >>= fun a => pure (f a)) = x.map f := by
  cases x <;> rfl

/-- A computation whose result, read through `f`, is `b` succeeds, with a
result that `f` takes to `b`: how an outcome found by evaluation is taken
apart. -/
theorem exists_ok_of_toOption_map {x : Except ε α} {f : α → β} {b : β}
    (h : x.toOption.map f = some b) : ∃ a, x = .ok a ∧ f a = b := by
  cases x with
  | error err => cases h
  | ok a => exact ⟨a, rfl, Option.some.inj h⟩

/-- A computation that, its result forgotten, fails with `err`, fails with
`err`. -/
theorem eq_error_of_map_const {x : Except ε α} {err : ε} (h : x.map (fun _ => ()) = .error err) :
    x = .error err := by
  cases x with
  | error e =>
    cases h
    rfl
  | ok a => cases h

/-- What a computation guarantees: `Q` of its result when it succeeds, `P`
of its error when it fails. -/
def Post (Q : α → Prop) (P : ε → Prop) : Except ε α → Prop
  | .ok a => Q a
  | .error err => P err

variable {Q : α → Prop} {R : β → Prop} {P : ε → Prop}

@[simp] theorem post_ok (a : α) : Post Q P (.ok a) ↔ Q a := Iff.rfl

@[simp] theorem post_error (err : ε) : Post Q P (.error err : Except ε α) ↔ P err := Iff.rfl

@[simp] theorem post_pure (a : α) : Post Q P (pure a : Except ε α) ↔ Q a := Iff.rfl

/-- The rule of sequencing. -/
theorem Post.bind {x : Except ε α} {f : α → Except ε β} (hx : Post Q P x)
    (hf : ∀ a, Q a → Post R P (f a)) : Post R P (x >>= f) := by
  cases x with
  | error err => exact hx
  | ok a => exact hf a hx

theorem Post.mono {Q' : α → Prop} {P' : ε → Prop} {x : Except ε α} (h : Post Q P x)
    (hQ : ∀ a, Q a → Q' a) (hP : ∀ err, P err → P' err) : Post Q' P' x := by
  cases x with
  | error err => exact hP err h
  | ok a => exact hQ a h

theorem Post.map {x : Except ε α} {f : α → β} (h : Post (fun a => R (f a)) P x) :
    Post R P (x.map f) := by
  cases x with
  | error err => exact h
  | ok a => exact h

theorem Post.mapError {P' : ε' → Prop} {x : Except ε α} {f : ε → ε'}
    (h : Post Q (fun err => P' (f err)) x) : Post Q P' (x.mapError f) := by
  cases x with
  | error err => exact h
  | ok a => exact h

/-- A branch between two computations guarantees what both do. -/
theorem post_ite {c : Prop} [Decidable c] {x y : Except ε α} (hx : Post Q P x) (hy : Post Q P y) :
    Post Q P (if c then x else y) := by
  split
  · exact hx
  · exact hy

/-- A branch whose arms both go on with `f`: the shape `do` notation gives
`let x ← if c then a else b` once its join point is inlined. -/
theorem post_ite_bind {c : Prop} [Decidable c] {x y : Except ε α} {f : α → Except ε β}
    (hx : Post Q P x) (hy : Post Q P y) (hf : ∀ a, Q a → Post R P (f a)) :
    Post R P (if c then x >>= f else y >>= f) := by
  split
  · exact hx.bind hf
  · exact hy.bind hf

/-- A computation that cannot fail succeeds, with its result's guarantee. -/
theorem Post.exists_ok {x : Except ε α} (h : Post Q (fun _ => False) x) : ∃ a, x = .ok a ∧ Q a := by
  cases x with
  | error err => exact h.elim
  | ok a => exact ⟨a, rfl, h⟩

/-- Any computation guarantees `True` of its result and of its error. -/
theorem post_true (x : Except ε α) : Post (fun _ => True) (fun _ => True) x := by
  cases x <;> trivial

/-- Any computation guarantees that its result is the one it returns. -/
theorem post_eq (x : Except ε α) : Post (fun a => x = .ok a) (fun _ => True) x := by
  cases x with
  | error err => trivial
  | ok a => exact rfl

end Fallible
