import Mathlib

/-!
# Runs of a deterministic machine, with their history

A machine is a function `step : σ → α → ρ × σ`: every operation returns a result and a next state, also when
the result is an error. `Reaches step s₀ h s` says that the operations of `h`, newest first, lead from `s₀` to
`s`; each is recorded with the state it was applied to and what it returned.

One operation may change the state several times: `Trace does s p t` says that the changes `p` lead from `s`
to `t` under a labelled relation `does`.
-/

namespace Run

open List Prod

variable {σ α ρ : Type}

/-- One call: the state before it, the operation and its result. -/
structure Event (σ α ρ : Type) where
  before : σ
  op : α
  result : ρ

/-- `s` is reached from `s₀` by the calls of `h`, newest first. -/
inductive Reaches (step : σ → α → ρ × σ) (s₀ : σ) : List (Event σ α ρ) → σ → Prop
  | start : Reaches step s₀ [] s₀
  | call {h : List (Event σ α ρ)} {s : σ} (hrun : Reaches step s₀ h s) (a : α) :
      Reaches step s₀ (⟨s, a, (step s a).1⟩ :: h) (step s a).2

variable {step : σ → α → ρ × σ} {s₀ s : σ} {h : List (Event σ α ρ)}

/-- Every call of a history meets `C`, which may look at the history before the call. -/
def AllCalls (C : Event σ α ρ → List (Event σ α ρ) → Prop) : List (Event σ α ρ) → Prop
  | [] => True
  | e :: h => C e h ∧ AllCalls C h

instance AllCalls.decidable (C : Event σ α ρ → List (Event σ α ρ) → Prop)
    [∀ e h, Decidable (C e h)] : ∀ h, Decidable (AllCalls C h)
  | [] => instDecidableTrue
  | e :: h => @instDecidableAnd (C e h) (AllCalls C h) _ (AllCalls.decidable C h)

/-- An invariant of the history and the state: true at the start and kept by every call that meets
`C`. -/
theorem Reaches.invariant {C : Event σ α ρ → List (Event σ α ρ) → Prop}
    {P : List (Event σ α ρ) → σ → Prop} (hstart : P [] s₀)
    (hcall : ∀ h s a, Reaches step s₀ h s → C ⟨s, a, (step s a).1⟩ h → P h s →
      P (⟨s, a, (step s a).1⟩ :: h) (step s a).2) (hrun : Reaches step s₀ h s) (hall : AllCalls C h) : P h s := by
  induction hrun with
  | start => exact hstart
  | call hrun a ih => exact hcall _ _ a hrun hall.1 (ih hall.2)

theorem Reaches.trans {s₁ : σ} {h₁ h₂ : List (Event σ α ρ)} (hfirst : Reaches step s₀ h₁ s₁)
    (hthen : Reaches step s₁ h₂ s) : Reaches step s₀ (h₂ ++ h₁) s := by
  induction hthen with
  | start => exact hfirst
  | call _ a ih => exact Reaches.call ih a

/-- A run is cut at any of its calls: the calls before it, the call, and the run from its next state. -/
theorem Reaches.split {later earlier : List (Event σ α ρ)} {e : Event σ α ρ}
    (hrun : Reaches step s₀ (later ++ e :: earlier) s) :
    Reaches step s₀ earlier e.before ∧ e.result = (step e.before e.op).1 ∧
      Reaches step (step e.before e.op).2 later s := by
  induction later generalizing s with
  | nil =>
    cases hrun with
    | call hrun => exact ⟨hrun, rfl, Reaches.start⟩
  | cons _ _ ih =>
    cases hrun with
    | call hrun a =>
      obtain ⟨hbefore, hresult, hlater⟩ := ih hrun
      exact ⟨hbefore, hresult, Reaches.call hlater a⟩

/-- The calls `ops`, oldest first, made from `s₀`: the history and the last state. -/
def exec (step : σ → α → ρ × σ) (s₀ : σ) (ops : List α) : List (Event σ α ρ) × σ :=
  ops.foldl (fun r a => (⟨r.2, a, (step r.2 a).1⟩ :: r.1, (step r.2 a).2)) ([], s₀)

theorem reaches_exec (step : σ → α → ρ × σ) (s₀ : σ) (ops : List α) :
    Reaches step s₀ (exec step s₀ ops).1 (exec step s₀ ops).2 := by
  have hfold : ∀ r : List (Event σ α ρ) × σ, Reaches step s₀ r.1 r.2 →
      Reaches step s₀ (ops.foldl (fun r a => (⟨r.2, a, (step r.2 a).1⟩ :: r.1, (step r.2 a).2)) r).1
        (ops.foldl (fun r a => (⟨r.2, a, (step r.2 a).1⟩ :: r.1, (step r.2 a).2)) r).2 := by
    induction ops with
    | nil => exact fun _ hr => hr
    | cons a _ ih => exact fun r hr => ih _ (Reaches.call hr a)
  exact hfold ([], s₀) Reaches.start

/-! ### Traces of a labelled relation -/

section
variable {β γ : Type} {does : σ → β → σ → Prop}

/-- The changes `p` lead from the first state to the second, oldest first. -/
inductive Trace (does : σ → β → σ → Prop) : σ → List (σ × β) → σ → Prop
  | nil (s : σ) : Trace does s [] s
  | cons {s t u : σ} {a : β} {p : List (σ × β)} (hdoes : does s a t) (hrest : Trace does t p u) :
      Trace does s ((s, a) :: p) u

variable {a : β}

theorem Trace.single {s t : σ} (hdoes : does s a t) : Trace does s [(s, a)] t :=
  Trace.cons hdoes (Trace.nil t)

theorem Trace.append {s t u : σ} {p q : List (σ × β)} (hp : Trace does s p t) (hq : Trace does t q u) :
    Trace does s (p ++ q) u := by
  induction hp with
  | nil => exact hq
  | cons hdoes _ ih => exact Trace.cons hdoes (ih hq)

variable {p : List (σ × β)}

theorem Trace.eq_single {s t : σ} (ht : Trace does s p t) (hp : p.map snd = [a]) : p = [(s, a)] ∧ does s a t := by
  cases ht with
  | nil => cases hp
  | cons hdoes hrest =>
    obtain ⟨rfl, hnil⟩ := List.cons.inj hp
    obtain rfl := map_eq_nil_iff.mp hnil
    cases hrest
    exact ⟨rfl, hdoes⟩

theorem Trace.split_last {s t : σ} {as : List β} (ht : Trace does s p t)
    (hp : p.map snd = as ++ [a]) : ∃ u q, Trace does s q u ∧ does u a t := by
  induction ht generalizing as with
  | nil => simp at hp
  | @cons s _ _ b p hdoes hrest ih =>
    cases as with
    | nil =>
      obtain ⟨rfl, hnil⟩ := List.cons.inj hp
      obtain rfl := map_eq_nil_iff.mp hnil
      cases hrest
      exact ⟨s, [], .nil s, hdoes⟩
    | cons =>
      obtain ⟨u, _, hfirst, hlast⟩ := ih (List.cons.inj hp).2
      exact ⟨u, _, .cons hdoes hfirst, hlast⟩

theorem Trace.keeps {C : σ → β → Prop} {P : σ → Prop}
    (hstep : ∀ s a t, does s a t → C s a → P s → P t) {s t : σ} (ht : Trace does s p t)
    (hall : ∀ x ∈ p, C x.1 x.2) (hP : P s) : P t := by
  induction ht with
  | nil => exact hP
  | cons hdoes _ ih =>
    obtain ⟨hhead, htail⟩ := forall_mem_cons.mp hall
    exact ih htail (hstep _ _ _ hdoes hhead hP)

/-- An invariant of the state and of a ghost value that every change updates. -/
theorem Trace.invariant {upd : γ → β → γ} {C : σ → β → Prop} {P : γ → σ → Prop}
    (hstep : ∀ g s a t, does s a t → C s a → P g s → P (upd g a) t) {s t : σ}
    (ht : Trace does s p t) (hall : ∀ x ∈ p, C x.1 x.2) {g : γ} (hP : P g s) : P ((p.map snd).foldl upd g) t := by
  induction ht generalizing g with
  | nil => exact hP
  | cons hdoes _ ih =>
    obtain ⟨hhead, htail⟩ := forall_mem_cons.mp hall
    exact ih htail (hstep _ _ _ _ hdoes hhead hP)

end

end Run
