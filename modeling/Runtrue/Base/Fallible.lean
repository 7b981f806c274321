import Mathlib

/-!
# Fallible code

A fallible function returns `Except ε α` and stops at its first error. The lemmas say when each way of
writing such a function succeeds, so that a proof takes a successful call apart check by check
(`bind_eq_ok`), and rebuilds one from its checks.

A fallible update of a value works on a copy that replaces the value as the last step: `commit s x` keeps
`s` when `x` failed.
-/

namespace Fallible

variable {ε α β σ : Type}

/-- Return the error `e` if `bad` holds. -/
def rejectIf (bad : Prop) [Decidable bad] (e : ε) : Except ε Unit := if bad then .error e else .ok ()

/-- The value, or the error `e` if there is none. -/
def okOr (x : Option α) (e : ε) : Except ε α :=
  match x with
  | some a => .ok a
  | none => .error e

/-- Run a check on every element, in order. -/
def forEach (l : List α) (f : α → Except ε Unit) : Except ε Unit :=
  match l with
  | [] => .ok ()
  | a :: l => do
    f a
    forEach l f

/-- Run an update on every element, in order. -/
def foldEach (f : σ → α → Except ε σ) (s : σ) : List α → Except ε σ
  | [] => .ok s
  | a :: l => do
    let s ← f s a
    foldEach f s l

/-- The outcome of a staged update of `s`, which is kept on an error. -/
def commit (s : σ) (x : Except ε (α × σ)) : Except ε α × σ :=
  match x with
  | .ok (a, t) => (.ok a, t)
  | .error e => (.error e, s)

theorem ok_bind {a : α} {f : α → Except ε β} : (.ok a >>= f) = f a := rfl

theorem error_bind {e : ε} {f : α → Except ε β} : (.error e >>= f) = .error e := rfl

theorem bind_eq_ok {x : Except ε α} {f : α → Except ε β} {b : β} :
    (x >>= f) = .ok b ↔ ∃ a, x = .ok a ∧ f a = .ok b := by
  cases x with
  | error =>
    constructor
    · intro h
      cases h
    · rintro ⟨_, hx, _⟩
      cases hx
  | ok a =>
    constructor
    · exact fun h => ⟨a, rfl, h⟩
    · rintro ⟨_, hx, h⟩
      cases hx
      exact h

theorem exists_unit {p : Unit → Prop} : (∃ u, p u) ↔ p () := ⟨fun ⟨_, h⟩ => h, fun h => ⟨(), h⟩⟩

theorem pure_eq_ok {a b : α} : (pure a : Except ε α) = .ok b ↔ a = b := Except.ok.injEq a b ▸ Iff.rfl

theorem rejectIf_eq_ok {bad : Prop} [Decidable bad] {e : ε} : rejectIf bad e = .ok () ↔ ¬bad := by
  unfold rejectIf
  split <;> simp [*]

theorem okOr_eq_ok {x : Option α} {e : ε} {a : α} : okOr x e = .ok a ↔ x = some a := by
  cases x <;> simp [okOr]

theorem forEach_eq_ok {l : List α} {f : α → Except ε Unit} : forEach l f = .ok () ↔ ∀ a ∈ l, f a = .ok () := by
  induction l with
  | nil => simp [forEach]
  | cons a l ih => rw [forEach, bind_eq_ok, exists_unit, ih, List.forall_mem_cons]

theorem foldEach_cons_eq_ok {f : σ → α → Except ε σ} {s t : σ} {a : α} {l : List α} :
    foldEach f s (a :: l) = .ok t ↔ ∃ u, f s a = .ok u ∧ foldEach f u l = .ok t := bind_eq_ok

theorem commit_ok {s t : σ} {a : α} : commit s (.ok (a, t) : Except ε (α × σ)) = (.ok a, t) := rfl

/-- A committed update succeeded on the copy, or it failed and changed nothing. -/
theorem commit_cases (s : σ) (x : Except ε (α × σ)) :
    (∃ a t, x = .ok (a, t) ∧ commit s x = (.ok a, t)) ∨ ∃ e, x = .error e ∧ commit s x = (.error e, s) := by
  cases x with
  | ok p => exact .inl ⟨p.1, p.2, rfl, rfl⟩
  | error e => exact .inr ⟨e, rfl, rfl⟩

/-- A committed update keeps `s` if it fails, or if it returns one of the results that change nothing. -/
theorem commit_kept {s : σ} {x : Except ε (α × σ)} {idle : α → Prop} (hidle : ∀ a t, x = .ok (a, t) → idle a → t = s)
    (h : (∃ e, (commit s x).1 = .error e) ∨ ∃ a, (commit s x).1 = .ok a ∧ idle a) : (commit s x).2 = s := by
  rcases commit_cases s x with ⟨_, _, hx, hcommit⟩ | ⟨e, -, hcommit⟩
  · rw [hcommit] at h ⊢
    rcases h with ⟨_, he⟩ | ⟨_, hb, hib⟩
    · cases he
    · cases hb
      exact hidle _ _ hx hib
  · rw [hcommit]

end Fallible
