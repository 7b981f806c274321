import Runtrue.Expression.Parser

/-!
# Taint is sound

The labels of a result say what it depends on: an observer who sees only the results without a label cannot
tell two contexts apart that differ in the values with that label. Errors are part of what is seen: when
one context gives a visible result, so does the other.
-/

namespace Runtrue.Expression

/-- **A result without a label depends on the paths without it only**: in every context that defines the same
paths with the same labels and agrees on the data of the unlabelled ones, it is the same result, with the
same labels, and from the same sources if those agree too. -/
theorem taint_sound (label : Label) (expression : Runtrue.Expression) (resolver other : Resolver)
    (hagree : Agree label resolver other) (v : Value) (hv : expression.evaluate resolver = .ok v)
    (hlow : v.provenance.taint.carries label = false) :
    ∃ w, expression.evaluate other = .ok w ∧ w.kind = v.kind ∧
      w.provenance.taint.carries label = false ∧ w.provenance.taint = v.provenance.taint ∧
      (AgreeOnSources label resolver other → w = v) := by
  obtain ⟨w, hw, hvw⟩ := hagree.evaluateNode expression.root 0 v hv hlow
  refine ⟨w, hw, hvw.kind, by rw [hvw.taint, hlow], hvw.taint, fun hsources => ?_⟩
  obtain ⟨kind, taint, sources⟩ := w
  obtain ⟨kind', taint', sources'⟩ := v
  obtain rfl : kind = kind' := hvw.kind
  obtain rfl : taint = taint' := hvw.taint
  obtain rfl : sources = sources' := hvw.sources hsources
  rfl

/-- A context with a visible flag and a token that carries `label`. -/
def flagAndToken (label : Label) (token : String) : Resolver := fun path =>
  if path = ["flags", "on"] then some (.boolean true)
  else if path = ["token"] then
    some ⟨.string token, ⟨⟨label = .untrusted, label = .secret⟩, ["vault"]⟩⟩
  else none

theorem agree_flagAndToken (label : Label) (token other : String) :
    Agree label (flagAndToken label token) (flagAndToken label other) where
  defined path := by
    unfold flagAndToken
    split
    · rfl
    · split <;> rfl
  taint path v w hv hw := by
    unfold flagAndToken at hv hw
    split at hv
    · cases hv
      simp_all
    · split at hv
      · cases hv
        simp_all
        cases hw
        rfl
      · cases hv
  kind path v w hv hw hlow := by
    unfold flagAndToken at hv hw
    split at hv
    · cases hv
      simp_all
    · split at hv
      · cases hv
        cases label <;> cases hlow
      · cases hv

def flagOrToken : Runtrue.Expression where
  source := "flags.on || token"
  root := .binary .or ⟨9, 11⟩ (.lookup ["flags", "on"] ⟨0, 8⟩) (.lookup ["token"] ⟨12, 17⟩) ⟨0, 17⟩

theorem taint_sound_flagOrToken :
    ∃ w, flagOrToken.evaluate (flagAndToken .secret "b") = .ok w ∧ w.kind = .boolean true ∧
      w.provenance.taint.carries .secret = false := by
  obtain ⟨w, hw, hkind, hlow, -⟩ := taint_sound .secret flagOrToken (flagAndToken .secret "a")
    (flagAndToken .secret "b") (agree_flagAndToken .secret "a" "b")
    ⟨.boolean true, ⟨.trusted, ["flags.on"]⟩⟩ (by decide) (by decide)
  exact ⟨w, hw, hkind, hlow⟩

end Runtrue.Expression
