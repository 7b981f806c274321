import Runtrue.Compiler.Authority
import Runtrue.Compiler.Order
import Runtrue.Compiler.Planned

/-!
# Permissions only shrink

A job that comes from a reusable call holds at most what every definition around it was granted, a planned
job at most what the workflow has, and a step at most what its job has.

The permissions of a definition are intersected with those it inherits and handed down, as definitions, to
its jobs and to the definitions it calls (`Confined`); a planned job converts what arrives.
-/

namespace Runtrue.Compiler

open Fallible Relation List Ast Ir

variable {ext : Externals} {context : CompileContext} {settings : CompilerSettings}

/-- The job `id`, expanded from `workflow` inside `scope`, lies inside a call of `definition`. -/
inductive EnclosedBy (ext : Externals) (context : CompileContext) :
    Ast.Workflow → Option String → String → Ast.Workflow → Prop
  | called {workflow called : Ast.Workflow} {scope : Option String} {jobId reference inner id : String}
      {job : Ast.Job} (hjob : workflow.jobs[jobId]? = some job) (huses : job.uses = some reference)
      (hcalled : bundledDefinition ext context reference = some called)
      (hinner : ExpandsTo ext context called (some (qualifiedJobId scope jobId)) inner id) :
      EnclosedBy ext context workflow scope id called
  | nested {workflow called definition : Ast.Workflow} {scope : Option String} {jobId reference id : String}
      {job : Ast.Job} (hjob : workflow.jobs[jobId]? = some job) (huses : job.uses = some reference)
      (hcalled : bundledDefinition ext context reference = some called)
      (hinner : EnclosedBy ext context called (some (qualifiedJobId scope jobId)) id definition) :
      EnclosedBy ext context workflow scope id definition

variable {workflow definition : Ast.Workflow} {id : String}

theorem EnclosedBy.expandsTo {scope : Option String} (h : EnclosedBy ext context workflow scope id definition) :
    ∃ jobId, ExpandsTo ext context workflow scope jobId id := by
  induction h with
  | called hjob huses hcalled hinner => exact ⟨_, .call hjob huses hcalled hinner⟩
  | nested hjob huses hcalled _ ih =>
    obtain ⟨_, hinner⟩ := ih
    exact ⟨_, .call hjob huses hcalled hinner⟩

/-! ### Source jobs -/

/-- The permissions of a source job are given, and convert to something within the conversion of `bound`. -/
def BoundedBy (ext : Externals) (bound : Ast.Permissions) (permissions : Option Ast.Permissions) : Prop :=
  ∃ own, permissions = some own ∧ ∀ converted, convertPermissions ext.sha256 own = .ok converted →
    ∃ maximum, convertPermissions ext.sha256 bound = .ok maximum ∧ PermissionsWithin converted maximum

theorem BoundedBy.trans {effective maximum requested : Permissions}
    {permissions : Option Permissions} (h : BoundedBy ext effective permissions)
    (heffective : intersectAstPermissions ext.sha256 maximum requested = .ok effective) :
    BoundedBy ext maximum permissions ∧ BoundedBy ext requested permissions := by
  obtain ⟨own, hown, hbound⟩ := h
  have hboth : ∀ converted, convertPermissions ext.sha256 own = .ok converted → ∃ m r,
      convertPermissions ext.sha256 maximum = .ok m ∧ convertPermissions ext.sha256 requested = .ok r ∧
      PermissionsWithin converted m ∧ PermissionsWithin converted r := by
    intro converted hconverted
    obtain ⟨_, he, hwithin⟩ := hbound converted hconverted
    obtain ⟨m, r, hm, hr, hwithinm, hwithinr⟩ := convertPermissions_intersectAst heffective he
    exact ⟨m, r, hm, hr, hwithin.trans hwithinm, hwithin.trans hwithinr⟩
  constructor
  · refine ⟨own, hown, fun converted hconverted => ?_⟩
    obtain ⟨m, _, hm, -, hwithin, -⟩ := hboth converted hconverted
    exact ⟨m, hm, hwithin⟩
  · refine ⟨own, hown, fun converted hconverted => ?_⟩
    obtain ⟨_, r, -, hr, -, hwithin⟩ := hboth converted hconverted
    exact ⟨r, hr, hwithin⟩

variable {effective : Ast.Permissions}

theorem permissions_of_inheritJob {definition : Definition} {job inherited : Job}
    (hreusable : definition.reusable = true) (h : inheritJob ext definition effective job = .ok inherited) :
    BoundedBy ext effective inherited.permissions := by
  simp only [inheritJob, hreusable, if_true, bind_eq_ok, pure_eq_ok] at h
  obtain ⟨permissions, hpermissions, rfl⟩ := h
  refine ⟨permissions, rfl, fun _ hconverted => ?_⟩
  obtain ⟨m, _, hm, -, hwithin, -⟩ := convertPermissions_intersectAst hpermissions hconverted
  exact ⟨m, hm, hwithin⟩

/-! ### Fragments -/

/-- The jobs of a definition that was handed `inherited` are bounded by it, by the definition and by every
definition around them. -/
structure Confined (ext : Externals) (context : CompileContext) (workflow : Ast.Workflow)
    (scope : Option String) (inherited : Ast.Permissions) (fragment : ReusableFragment) : Prop where
  ordered : Ordered ext context workflow scope fragment
  inherited : ∀ {id : String} {job : Ast.Job}, fragment.jobs[id]? = some job →
    BoundedBy ext inherited job.permissions
  own : ∀ {id : String} {job : Ast.Job}, fragment.jobs[id]? = some job →
    BoundedBy ext workflow.permissions job.permissions
  enclosed : ∀ {id : String} {job : Ast.Job}, fragment.jobs[id]? = some job → ∀ definition,
    EnclosedBy ext context workflow scope id definition → BoundedBy ext definition.permissions job.permissions

/-- A definition under inherited permissions is confined. -/
def CallsConfined (ext : Externals) (context : CompileContext) : Expander Call → Prop :=
  CallsAll ext context fun definition fragment => ∀ inherited, definition.reusable = true →
    definition.inherited = some inherited →
      Confined ext context definition.workflow definition.scope inherited fragment

theorem CallsConfined.ordered {call : Expander Call} (h : CallsConfined ext context call) :
    CallsOrdered ext context call := by
  intro identities c child identities' hcall
  obtain ⟨called, hcalled, hconfined⟩ := h identities c child identities' hcall
  exact ⟨called, hcalled, (hconfined _ rfl rfl).ordered⟩

section
variable {call : Expander Call} {definition : Definition} {inputs : Option (BTreeMap String Ast.Scalar)}
  {effective : Ast.Permissions} {pieces wired : BTreeMap String ReusableFragment}
  {fragment : ReusableFragment}

theorem FragmentJob.confined {k id reference : String} {job source : Job} {called : Workflow}
    (h : FragmentJob ext call definition inputs effective pieces k id job)
    (hcalls : CallsConfined ext context call) (hsource : definition.workflow.jobs[k]? = some source)
    (huses : source.uses = some reference) (hcalled : bundledDefinition ext context reference = some called) :
    ∃ child inner, Confined ext context called (some (qualifiedJobId definition.scope k)) effective child ∧
      child.jobs[id]? = some inner ∧ job.permissions = inner.permissions := by
  cases h with
  | own hsource' huses' =>
    rw [hsource] at hsource'
    cases hsource'
    rw [huses] at huses'
    cases huses'
  | called hsource' huses' hcall hinner _ hguarded =>
    obtain ⟨_, hcalled', hconfined⟩ := hcalls _ _ _ _ hcall
    rw [hsource] at hsource'
    cases hsource'
    rw [huses] at huses'
    cases huses'
    rw [hcalled] at hcalled'
    cases hcalled'
    obtain ⟨_, _, rfl⟩ := hguarded.eq
    exact ⟨_, _, hconfined _ rfl rfl, hinner, rfl⟩

variable (h : Expanded ext settings call definition inputs effective pieces wired fragment)
include h

variable {id : String} {job : Ast.Job}

section
variable (hcalls : CallsConfined ext context call)
include hcalls

theorem Expanded.enclosed (hjob : fragment.jobs[id]? = some job) {enclosing : Workflow}
    (henclosed : EnclosedBy ext context definition.workflow definition.scope id enclosing) :
    BoundedBy ext enclosing.permissions job.permissions := by
  obtain ⟨_, _, hk, hid, hfrom⟩ := h.fragmentJob hjob
  cases henclosed with
  | called hsource huses hcalled hinner =>
    obtain rfl := h.origin_unique hcalls.ordered hk hid (.call hsource huses hcalled hinner)
    obtain ⟨child, inner, hconfined, hinner, hpermissions⟩ := hfrom.confined hcalls hsource huses hcalled
    exact hpermissions ▸ hconfined.own hinner
  | nested hsource huses hcalled hnested =>
    obtain ⟨inner, hinner⟩ := hnested.expandsTo
    obtain rfl := h.origin_unique hcalls.ordered hk hid (.call hsource huses hcalled hinner)
    obtain ⟨_, _, hconfined, hinner, hpermissions⟩ := hfrom.confined hcalls hsource huses hcalled
    exact hpermissions ▸ hconfined.enclosed hinner _ hnested

theorem Expanded.bounded (hreusable : definition.reusable = true) (hjob : fragment.jobs[id]? = some job) :
    BoundedBy ext effective job.permissions := by
  obtain ⟨_, _, -, -, hfrom⟩ := h.fragmentJob hjob
  cases hfrom with
  | own _ _ _ _ hinherit => exact permissions_of_inheritJob hreusable hinherit
  | called _ _ hcall hinner _ hguarded =>
    obtain ⟨_, -, hconfined⟩ := hcalls _ _ _ _ hcall
    have hbounded := (hconfined _ rfl rfl).inherited hinner
    obtain ⟨_, _, rfl⟩ := hguarded.eq
    exact hbounded

theorem Expanded.confined (inherited : Permissions)
    (hreusable : definition.reusable = true) (hinherited : definition.inherited = some inherited) :
    Confined ext context definition.workflow definition.scope inherited fragment := by
  have heffective := h.effective_eq
  simp only [effectivePermissions, hinherited] at heffective
  exact ⟨h.ordered hcalls.ordered, fun hjob => ((h.bounded hcalls hreusable hjob).trans heffective).1,
    fun hjob => ((h.bounded hcalls hreusable hjob).trans heffective).2,
    fun hjob _ henclosed => h.enclosed hcalls hjob henclosed⟩

end

end

theorem enclosed_of_expandReusableWorkflows {expanded : ExpandedReusableWorkflows}
    (h : expandReusableWorkflows ext context settings workflow = .ok expanded)
    (hjob : expanded.workflow.jobs[id]? = some job) (henclosed : EnclosedBy ext context workflow none id definition) :
    BoundedBy ext definition.permissions job.permissions := by
  obtain ⟨_, _, _, _, _, _, hexpanded, hcalls, hjobs⟩ := exists_expanded_workflow Expanded.confined h
  exact hexpanded.enclosed hcalls (hjobs ▸ hjob) henclosed

/-! ### Steps -/

variable {permissions : Ir.PermissionSet} {path : String}

theorem compileStepCapabilities_within {sha256 : List UInt8 → ContentDigest}
    {requested : StepCapabilities} {capabilities : StepCapabilitySet}
    (h : compileStepCapabilities sha256 requested permissions path = .ok capabilities) :
    CapabilitiesWithin capabilities permissions := by
  simp only [compileStepCapabilities, bind_eq_ok, exists_unit, rejectIf_eq_ok, not_not, forEach_eq_ok,
    pure_eq_ok] at h
  obtain ⟨_, -, _, -, _, -, hsecrets, haudiences, -, hsigning, rfl⟩ := h
  refine ⟨(intersectNetwork_within _ _).1, ?_, minAccess_within_left _ _, minAccess_within_left _ _, ?_, ?_,
    haudiences, ?_⟩
  · intro _ hsecret
    rw [mem_dedupAdjacent, mem_sort, mem_map] at hsecret
    obtain ⟨request, hrequest, rfl⟩ := hsecret
    exact hsecrets request hrequest
  · cases requested.cache with
    | none => exact .inl rfl
    | some => exact (minCacheRead_within _ _).1
  · cases requested.cache with
    | none => exact .inl rfl
    | some => exact (minCacheWrite_within _ _).1
  · intro _ hcapability
    exact hsigning (mem_sort.mp hcapability)

variable {risks : List RiskFinding} {step : Ir.PlannedStep}

theorem StepFrom.within {source : Step} (h : StepFrom ext settings path permissions risks source step) :
    CapabilitiesWithin step.capabilities permissions := by
  obtain ⟨_, _, _, hstep, -⟩ := h
  simp only [compileStep, bind_eq_ok, exists_unit, pure_eq_ok, Prod.mk.injEq, Prod.exists] at hstep
  obtain ⟨-, -, _, -, -, _, -, _, -, _, _, _, -, _, -, _, hcapabilities, _, -, _, -, rfl, -⟩ := hstep
  exact compileStepCapabilities_within hcapabilities

theorem StepKept.capabilities {step kept : PlannedStep} (h : StepKept step kept) :
    kept.capabilities = step.capabilities := by
  cases h <;> rfl

/-! ### Capsules -/

theorem JobFrom.within {maximum : PermissionSet} {needs : List String} {base : String}
    {source : Job} {matrix : MatrixExpansion} {job kept : PlannedJob}
    (h : JobFrom ext settings maximum needs risks base source matrix job) (hkept : JobKept job kept) :
    PermissionsWithin kept.permissions maximum ∧ (∀ bound, BoundedBy ext bound source.permissions → ∃ converted,
        convertPermissions ext.sha256 bound = .ok converted ∧ PermissionsWithin kept.permissions converted) ∧
      ∀ step ∈ kept.allSteps, CapabilitiesWithin step.capabilities kept.permissions := by
  obtain ⟨requested, hrequested, hpermissions⟩ := h.permissions
  rw [hkept.permissions, hpermissions]
  refine ⟨intersectPermissions_within_maximum _ _, ?_, ?_⟩
  · rintro _ ⟨_, hown, hbound⟩
    simp only [requestedPermissions, hown] at hrequested
    obtain ⟨converted, hconverted, hwithin⟩ := hbound requested hrequested
    exact ⟨converted, hconverted, (intersectPermissions_within_requested _ _).trans hwithin⟩
  · intro step hstep
    rw [← hpermissions]
    rcases mem_append.mp hstep with hstep | hstep
    · obtain ⟨origin, horigin, hsame⟩ := hkept.steps step hstep
      obtain ⟨_, -, hfrom⟩ := h.steps origin horigin
      exact hsame.capabilities ▸ hfrom.within
    · obtain ⟨finalizer, hfinalizer, rfl⟩ := mem_map.mp hstep
      obtain ⟨origin, horigin, hsame⟩ := hkept.finalizers finalizer hfinalizer
      obtain ⟨_, -, hfrom⟩ := h.finalizers origin horigin
      exact hsame.capabilities ▸ hfrom.within

/-- **Permissions only shrink: those of a job or a template are within the workflow's and within those of
every definition around it, and those of a step or a finalizer within its job's.** -/
theorem permissions_only_shrink {canonical : Canonical} {workflow : Ast.Workflow}
    {snapshot : Option ContentDigest} {compilation : Compilation}
    (h : compileInner ext canonical settings workflow context snapshot = .ok compilation) :
    convertPermissions ext.sha256 workflow.permissions = .ok compilation.capsule.permissions ∧
    ∀ job ∈ compilation.capsule.allJobs,
      (∃ jobId, ExpandsTo ext context workflow none jobId job.baseId) ∧
      PermissionsWithin job.permissions compilation.capsule.permissions ∧
      (∀ definition, EnclosedBy ext context workflow none job.baseId definition → ∃ bound,
        convertPermissions ext.sha256 definition.permissions = .ok bound ∧
        PermissionsWithin job.permissions bound) ∧
      ∀ step ∈ job.allSteps, CapabilitiesWithin step.capabilities job.permissions := by
  obtain ⟨_, _, _, _, hcompiled⟩ := exists_compiled h
  refine ⟨hcompiled.permissions, fun _ hjob => ?_⟩
  obtain ⟨base, source, _, _, _, hsource, hfrom, hkept⟩ := hcompiled.jobFrom hjob
  obtain ⟨hmaximum, hbounds, hsteps⟩ := hfrom.within hkept
  rw [hkept.baseId, hfrom.baseId]
  refine ⟨?_, hmaximum, fun _ hdefinition => ?_, hsteps⟩
  · obtain ⟨_, hordered, hsame⟩ := ordered_of_expandReusableWorkflows hcompiled.expands
    exact (hordered.origin base).mp (mem_iff_get.mpr ⟨source, hsame ▸ hsource⟩)
  · exact hbounds _ (enclosed_of_expandReusableWorkflows hcompiled.expands hsource hdefinition)

/-! ### A release with a narrower build -/

/-- Texts that tell nothing apart. -/
def blankCanonical : Canonical where
  scalar := fun _ => []
  event := fun _ => "null"
  semantic := fun _ => []
  capsule := fun _ => []
  permissions := fun _ => []
  vars := fun _ => []
  network := fun _ => []
  cache := fun _ => []
  artifacts := fun _ => []
  approval := fun _ => []
  lock := fun _ => .ok ⟨0⟩

def readingBuild : Ast.Workflow where
  version := 1
  permissions := { repository := .read }
  jobs := mapOf [("build", { steps := [noop], permissions := some { repository := .write } })]

def writingRelease : Ast.Workflow where
  version := 1
  permissions := { repository := .write }
  jobs := mapOf [("ci", { uses := some "git+https://host/repo//build.yaml@v1" })]

/-- The build asks for write access, and its definition may only read. -/
theorem permissions_only_shrink_release : ∃ compilation,
    compileInner (bundleExternals readingBuild) blankCanonical {} writingRelease
      (bundleContext "git+https://host/repo//build.yaml@v1") none = .ok compilation ∧
    ∃ job ∈ compilation.capsule.allJobs, job.baseId = "ci__build" ∧
      AccessWithin job.permissions.repository .read := by
  have hok : ((compileInner (bundleExternals readingBuild) blankCanonical {} writingRelease
      (bundleContext "git+https://host/repo//build.yaml@v1") none).toOption.any fun compilation =>
        compilation.capsule.allJobs.any (·.baseId = "ci__build")) = true := by
    decide +kernel
  obtain ⟨compilation, hcompilation, hany⟩ := exists_eq_ok_of_any hok
  obtain ⟨job, hjob, hbase⟩ := any_eq_true.mp hany
  have hbase := of_decide_eq_true hbase
  obtain ⟨-, hall⟩ := permissions_only_shrink hcompilation
  obtain ⟨-, -, henclosed, -⟩ := hall job hjob
  have hinner : ExpandsTo (bundleExternals readingBuild) (bundleContext "git+https://host/repo//build.yaml@v1")
      readingBuild (some "ci") "build" "ci__build" := .executable rfl rfl
  have hbuild : EnclosedBy (bundleExternals readingBuild)
      (bundleContext "git+https://host/repo//build.yaml@v1") writingRelease none job.baseId readingBuild := by
    rw [hbase]
    exact .called rfl rfl rfl hinner
  obtain ⟨bound, hbound, hwithin⟩ := henclosed readingBuild hbuild
  have hread : bound.repository = .read := by
    cases hbound
    rfl
  exact ⟨compilation, hcompilation, job, hjob, hbase, hread ▸ hwithin.repository⟩

end Runtrue.Compiler
