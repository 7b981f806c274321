import Runtrue.Base.Fallible

/-!
# Loops that run until nothing changes

`settle round fuel s` repeats `round` until it reports that there is nothing left to do, at most `fuel`
times. What every round keeps holds at the end (`settle_keeps`).
-/

namespace Loop

open Fallible

variable {ε σ : Type} {round : σ → Except ε (Option σ)}

/-- Repeat `round` until it returns `none`. -/
def settle (round : σ → Except ε (Option σ)) : Nat → σ → Except ε σ
  | 0, s => .ok s
  | fuel + 1, s => do
    match ← round s with
    | none => return s
    | some t => settle round fuel t

theorem settle_cases {fuel : Nat} {s t : σ} (h : settle round (fuel + 1) s = .ok t) :
    (round s = .ok none ∧ t = s) ∨ ∃ u, round s = .ok (some u) ∧ settle round fuel u = .ok t := by
  simp only [settle, bind_eq_ok] at h
  obtain ⟨next, hround, h⟩ := h
  cases next with
  | none => exact .inl ⟨hround, (pure_eq_ok.mp h).symm⟩
  | some u => exact .inr ⟨u, hround, h⟩

theorem settle_keeps {P : σ → Prop} (hround : ∀ s t, round s = .ok (some t) → P s → P t) {fuel : Nat}
    {s t : σ} (h : settle round fuel s = .ok t) (hs : P s) : P t := by
  induction fuel generalizing s with
  | zero =>
    cases h
    exact hs
  | succ _ ih =>
    rcases settle_cases h with ⟨-, rfl⟩ | ⟨u, hu, hrest⟩
    · exact hs
    · exact ih hrest (hround s u hu hs)

end Loop
