/-! Steps that may fail, with any kind of error: what it says that a chain of them succeeds or fails,
and differences that fail below zero. -/
namespace TemplateLint

variable {ε ε' α β : Type} {x : Except ε α} {f : α → Except ε β}

instance decidableEqExcept [DecidableEq ε] [DecidableEq α] : DecidableEq (Except ε α)
  | .ok a, .ok a' => decidable_of_decidable_of_iff (p := a = a') (by simp)
  | .error e, .error e' => decidable_of_decidable_of_iff (p := e = e') (by simp)
  | .ok _, .error _ | .error _, .ok _ => isFalse nofun

theorem bind_ok (a : α) (f : α → Except ε β) : Except.ok a >>= f = f a := rfl

theorem bind_eq_ok_iff {b : β} : x >>= f = .ok b ↔ ∃ a, x = .ok a ∧ f a = .ok b := by
  cases x <;> simp [bind, Except.bind]

theorem bind_eq_error_iff {e : ε} :
    x >>= f = .error e ↔ x = .error e ∨ ∃ a, x = .ok a ∧ f a = .error e := by
  cases x <;> simp [bind, Except.bind]

theorem map_eq_ok_iff {g : α → β} {b : β} : x.map g = .ok b ↔ ∃ a, x = .ok a ∧ g a = b := by
  cases x <;> simp [Except.map]

theorem map_eq_error_iff {g : α → β} {e : ε} : x.map g = .error e ↔ x = .error e := by
  cases x <;> simp [Except.map]

theorem exists_mapError_eq_error_iff {g : ε → ε'} :
    (∃ e, x.mapError g = .error e) ↔ ∃ e, x = .error e := by
  cases x with
  | ok a => exact ⟨fun ⟨_, h⟩ => absurd h nofun, fun ⟨_, h⟩ => absurd h nofun⟩
  | error e => exact ⟨fun _ => ⟨e, rfl⟩, fun _ => ⟨g e, rfl⟩⟩

theorem toOption_eq_some_iff {a : α} : x.toOption = some a ↔ x = .ok a := by
  cases x <;> simp [Except.toOption]

@[simp] theorem pure_eq_ok_iff {a a' : α} : (pure a : Except ε α) = .ok a' ↔ a = a' :=
  Except.ok.injEq a a' ▸ Iff.rfl

@[simp] theorem throw_ne_ok {a : α} {e : ε} : (throw e : Except ε α) ≠ .ok a := nofun

@[simp] theorem throw_eq_error_iff {e e' : ε} : (throw e : Except ε α) = .error e' ↔ e = e' :=
  Except.error.injEq e e' ▸ Iff.rfl

/-- The difference, which fails if it is below zero. -/
def checkedSub (below : ε) (a b : Nat) : Except ε Nat :=
  if b ≤ a then .ok (a - b) else .error below

theorem checkedSub_ok {below : ε} {a b : Nat} (h : b ≤ a) : checkedSub below a b = .ok (a - b) :=
  if_pos h

end TemplateLint
