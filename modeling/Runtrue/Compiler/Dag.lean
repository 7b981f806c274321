import Runtrue.Base.Substitution
import Runtrue.Compiler.Validation

/-!
# What the dependency check guarantees

The depth-first search marks a job as visited after all it needs, so the visited jobs, newest first, are in
topological order. A workflow that passes has a graph of known jobs that is well-founded in both directions.
-/

namespace Runtrue.Compiler

open Fallible Digraph Relation List

variable {jobs : BTreeMap String Ast.Job}

/-- `a` needs `b`. -/
def Depends (jobs : BTreeMap String Ast.Job) (a b : String) : Prop := b ∈ needsOf jobs a

theorem depends_iff {a b : String} : Depends jobs a b ↔ ∃ job, jobs[a]? = some job ∧ b ∈ job.needs := by
  unfold Depends needsOf
  cases hjob : jobs[a]? with
  | none => simp
  | some => simp

/-- A search that keeps the order, loses no visited job and visits the one it starts from. -/
def KeepsOrder (jobs : BTreeMap String Ast.Job) (search : Marks → String → Compiled Marks) : Prop :=
  ∀ marks marks' id, search marks id = .ok marks' → TopoSorted (needsOf jobs) marks.2 →
    TopoSorted (needsOf jobs) marks'.2 ∧ marks.2 ⊆ marks'.2 ∧ id ∈ marks'.2

theorem KeepsOrder.foldEach {search : Marks → String → Compiled Marks} (hsearch : KeepsOrder jobs search)
    {ids : List String} {marks marks' : Marks} (h : foldEach search marks ids = .ok marks')
    (hmarks : TopoSorted (needsOf jobs) marks.2) :
    TopoSorted (needsOf jobs) marks'.2 ∧ marks.2 ⊆ marks'.2 ∧ ∀ id ∈ ids, id ∈ marks'.2 := by
  induction ids generalizing marks with
  | nil =>
    cases h
    exact ⟨hmarks, List.Subset.refl _, fun _ h => absurd h not_mem_nil⟩
  | cons _ _ ih =>
    obtain ⟨_, hmiddle, hrest⟩ := foldEach_cons_eq_ok.mp h
    obtain ⟨hsorted, hsub, hid⟩ := hsearch _ _ _ hmiddle hmarks
    obtain ⟨hsorted', hsub', hids⟩ := ih hrest hsorted
    exact ⟨hsorted', List.Subset.trans hsub hsub', forall_mem_cons.mpr ⟨hsub' hid, hids⟩⟩

theorem keepsOrder_visit (depth : Nat) : KeepsOrder jobs (visit jobs depth) := by
  induction depth with
  | zero =>
    intro _ _ _ h
    cases h
  | succ depth ih =>
    rintro ⟨_, _⟩ _ _ h hmarks
    rw [visit] at h
    split at h
    · rename_i hvisited
      cases h
      exact ⟨hmarks, List.Subset.refl _, hvisited⟩
    · split at h
      · cases h
      · obtain ⟨⟨_, _⟩, hfold, hreturn⟩ := bind_eq_ok.mp h
        cases hreturn
        obtain ⟨hsorted, hsub, hneeds⟩ := ih.foldEach hfold hmarks
        exact ⟨⟨hneeds, hsorted⟩, subset_cons_of_subset _ hsub, mem_cons_self⟩

theorem mem_of_foldEach_checkDependency {jobId : String} {seen seen' needs : List String}
    (h : foldEach (checkDependency jobs jobId) seen needs = .ok seen') : ∀ d ∈ needs, d ∈ jobs := by
  induction needs generalizing seen with
  | nil => exact fun _ h => absurd h not_mem_nil
  | cons _ _ ih =>
    obtain ⟨_, hmiddle, hrest⟩ := foldEach_cons_eq_ok.mp h
    simp only [checkDependency, bind_eq_ok, exists_unit, rejectIf_eq_ok, not_not] at hmiddle
    exact forall_mem_cons.mpr ⟨hmiddle.1, ih hrest⟩

/-- A graph of known jobs, well-founded from the top and from the bottom. -/
structure Acyclic (jobs : BTreeMap String Ast.Job) : Prop where
  known : ∀ {a b}, Depends jobs a b → a ∈ jobs ∧ b ∈ jobs
  down : WellFounded fun b a => Depends jobs a b
  up : WellFounded (Depends jobs)

theorem validateDag_acyclic {workflow : Ast.Workflow} (h : validateDag workflow = .ok ()) : Acyclic workflow.jobs := by
  simp only [validateDag, bind_eq_ok, exists_unit, forEach_eq_ok] at h
  obtain ⟨hneeds, _, hvisit, -⟩ := h
  obtain ⟨hsorted, -, hkeys⟩ := (keepsOrder_visit _).foldEach hvisit trivial
  obtain ⟨height, hbound, hheight⟩ := hsorted.exists_height
  have hknown : ∀ {a b}, Depends workflow.jobs a b → a ∈ workflow.jobs ∧ b ∈ workflow.jobs := by
    intro a b hab
    obtain ⟨job, hjob, hb⟩ := depends_iff.mp hab
    obtain ⟨_, hseen, -⟩ := hneeds (a, job) (BTreeMap.mem_toList.mpr hjob)
    exact ⟨Std.ExtTreeMap.mem_iff_isSome_getElem?.mpr (hjob ▸ rfl),
      mem_of_foldEach_checkDependency hseen b hb⟩
  have hlower : ∀ a b, Depends workflow.jobs a b → height b < height a := by
    intro a b hab
    exact hheight a (hkeys a (Std.ExtTreeMap.mem_keys.mpr (hknown hab).1)) b hab
  obtain ⟨hdown, hup⟩ := wellFounded_of_height hbound hlower
  exact ⟨hknown, hdown, hup⟩

end Runtrue.Compiler
