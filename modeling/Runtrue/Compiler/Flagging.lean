import Runtrue.Compiler.Confinement

/-!
# Privilege is flagged

`Privilege job code`: the job holds something that an approval has to know about, and `code` is the code of
the finding about it. Planning a job reports every privilege it holds under the path of its source job
(`JobFrom.flagged`), and nothing else.

A selection drops the findings about source jobs without a static job in the capsule, while all templates
stay (`selectedProducer_not_flagged`).
-/

namespace Runtrue.Compiler

open Fallible Relation List Text Ir Ast

variable {ext : Externals} {context : CompileContext} {settings : CompilerSettings}

/-! ### Privileges -/

inductive PermissionPrivilege (permissions : Ir.PermissionSet) : String → Prop
  | secrets (h : permissions.secrets ≠ []) : PermissionPrivilege permissions "secret-access"
  | oidc (h : permissions.oidcAudiences ≠ []) : PermissionPrivilege permissions "oidc-access"
  | signing (h : permissions.signing ≠ []) : PermissionPrivilege permissions "signing-access"
  | repository (h : permissions.repository = .write) : PermissionPrivilege permissions "repository-write"
  | checks (h : permissions.checks = .write) : PermissionPrivilege permissions "checks-write"
  | artifacts (h : permissions.artifacts = .write) : PermissionPrivilege permissions "artifacts-write"
  | registry (h : permissions.registry = .write) : PermissionPrivilege permissions "registry-write"
  | scmContents (h : permissions.scm.contents = .write) : PermissionPrivilege permissions "scm-contents-write"
  | scmIssues (h : permissions.scm.issues = .write) : PermissionPrivilege permissions "scm-issues-write"
  | scmPullRequests (h : permissions.scm.pullRequests = .write) :
      PermissionPrivilege permissions "scm-pull-requests-write"
  | scmChecks (h : permissions.scm.checks = .write) : PermissionPrivilege permissions "scm-checks-write"
  | scmStatuses (h : permissions.scm.statuses = .write) : PermissionPrivilege permissions "scm-statuses-write"
  | wildcardEgress {dns denyPrivate destinations listen}
      (h : permissions.network = .allow dns denyPrivate destinations listen)
      (hwildcard : ∃ destination ∈ destinations, isWildcard destination = true) :
      PermissionPrivilege permissions "wildcard-network-egress"
  | egress {dns denyPrivate destinations listen}
      (h : permissions.network = .allow dns denyPrivate destinations listen) (hsome : destinations ≠ [])
      (hplain : ∀ destination ∈ destinations, isWildcard destination = false) :
      PermissionPrivilege permissions "network-egress"
  | dns {dns denyPrivate destinations listen}
      (h : permissions.network = .allow dns denyPrivate destinations listen) (hdns : dns ≠ .deny) :
      PermissionPrivilege permissions "network-dns-access"
  | listen {dns denyPrivate destinations listen}
      (h : permissions.network = .allow dns denyPrivate destinations listen) (hlisten : listen ≠ []) :
      PermissionPrivilege permissions "network-listen"
  | cacheWrite (h : permissions.cacheWrite = .verified) : PermissionPrivilege permissions "verified-cache-write"

inductive StepPrivilege (capabilities : Ir.StepCapabilitySet) : String → Prop
  | secrets (h : capabilities.secrets ≠ []) : StepPrivilege capabilities "step-secret-access"
  | oidc (h : capabilities.oidcAudiences ≠ []) : StepPrivilege capabilities "step-oidc-access"
  | signing (h : capabilities.signing ≠ []) : StepPrivilege capabilities "step-signing-access"
  | network {dns denyPrivate destinations listen}
      (h : capabilities.network = .allow dns denyPrivate destinations listen)
      (hsome : dns ≠ .deny ∨ destinations ≠ [] ∨ listen ≠ []) :
      StepPrivilege capabilities "step-network-access"
  | write (h : capabilities.checks = .write ∨ capabilities.artifacts = .write) :
      StepPrivilege capabilities "step-control-plane-write"
  | cacheWrite (h : capabilities.cacheWrite = .verified) :
      StepPrivilege capabilities "step-verified-cache-write"

/-- A privilege that a job, a step or a finalizer of it holds, and the code of the finding about it. -/
inductive Privilege (job : Ir.PlannedJob) : String → Prop
  | permissions {code : String} (h : PermissionPrivilege job.permissions code) : Privilege job code
  | step {code : String} {step : Ir.PlannedStep} (hstep : step ∈ job.allSteps)
      (h : StepPrivilege step.capabilities code) : Privilege job code
  | native (h : job.runner.isolation = .native) : Privilege job "native-execution"
  | environment (h : job.environment.isSome) : Privilege job "protected-environment"
  | runner (h : job.runner.capabilities ≠ []) : Privilege job "runner-capability-request"

/-! ### Findings -/

/-- A finding with the code, at or below `path`. -/
def Flags (risks : List RiskFinding) (path code : String) : Prop :=
  ∃ finding ∈ risks, finding.code = code ∧ Text.startsWith path finding.path = true

variable {path code : String}

theorem Flags.mono {risks risks' : List RiskFinding} (h : Flags risks path code)
    (hrisks : risks ⊆ risks') : Flags risks' path code := by
  obtain ⟨finding, hfinding, hcode, hpath⟩ := h
  exact ⟨finding, hrisks hfinding, hcode, hpath⟩

@[simp] theorem flags_append {risks risks' : List RiskFinding} :
    Flags (risks ++ risks') path code ↔ Flags risks path code ∨ Flags risks' path code := by
  simp only [Flags, mem_append, or_and_right, exists_or]

variable {finding : RiskFinding}

@[simp] theorem flags_flag {condition : Prop} [Decidable condition] : Flags (flag condition finding) path code ↔
      condition ∧ finding.code = code ∧ startsWith path finding.path = true := by
  simp [Flags, and_assoc]

variable {permissions : Ir.PermissionSet}

theorem flags_permissions (h : PermissionPrivilege permissions code) (path : String) :
    Flags (collectPermissionRisks permissions path) (path ++ ".") code := by
  simp only [collectPermissionRisks, accessRisk, scmRisk, flags_append, flags_flag, RiskFinding.high,
    toString, String.append_assoc, startsWith_append_left]
  cases h with
  | secrets h | oidc h | signing h | repository h | checks h | artifacts h | registry h | scmContents h
  | scmIssues h | scmPullRequests h | scmChecks h | scmStatuses h | cacheWrite h => simp +decide [h]
  | wildcardEgress h hwildcard =>
    obtain ⟨destination, hdestination, hwild⟩ := hwildcard
    have hsome := ne_nil_of_mem hdestination
    have hany := any_eq_true.mpr ⟨destination, hdestination, hwild⟩
    simp +decide [networkRisks, h, hsome, egressRisk, hany, RiskFinding.high, toString]
  | egress h hsome hplain =>
    have hany := any_eq_false.mpr fun destination hdestination =>
      Bool.eq_false_iff.mp (hplain destination hdestination)
    simp +decide [networkRisks, h, hsome, egressRisk, hany, RiskFinding.medium, toString]
  | dns h hdns => simp +decide [networkRisks, h, hdns, RiskFinding.medium, toString]
  | listen h hlisten => simp +decide [networkRisks, h, hlisten, RiskFinding.high, toString]

theorem flags_step {capabilities : StepCapabilitySet} (h : StepPrivilege capabilities code)
    (path : String) : Flags (collectStepRisks capabilities path) path code := by
  have hpath : ∀ rest, startsWith path (path ++ rest) = true := fun rest =>
    startsWith_append_right ( isPrefixOf_iff_prefix.mpr (prefix_refl _)) rest
  simp only [collectStepRisks, flags_append, flags_flag, RiskFinding.high, toString, hpath]
  cases h with
  | secrets h | oidc h | signing h | write h | cacheWrite h => simp +decide [h]
  | network h hsome => simp +decide [stepNetworkRisks, h, hsome, RiskFinding.medium, toString, hpath]

/-! ### Planned jobs -/

variable {risks : List RiskFinding}

theorem StepFrom.flagged {source : Step} {step : PlannedStep}
    (h : StepFrom ext settings path permissions risks source step)
    (hprivilege : StepPrivilege step.capabilities code) : Flags risks (path ++ ".") code := by
  obtain ⟨_, index, _, hstep, hfound⟩ := h
  simp only [compileStep, bind_eq_ok, exists_unit, pure_eq_ok, Prod.mk.injEq, Prod.exists] at hstep
  obtain ⟨-, -, _, -, -, _, -, _, -, _, _, _, -, _, -, _, -, _, -, _, -, rfl, rfl⟩ := hstep
  obtain ⟨finding, hfinding, hcode, hpath⟩ := flags_step hprivilege s!"{path}.steps[{index}]"
  refine ⟨finding, hfound (mem_append_right _ hfinding), hcode, startsWith_trans ?_ hpath⟩
  have hstart : startsWith (path ++ ".") (path ++ ".steps[") = true := by
    rw [startsWith_append_left]
    rfl
  exact startsWith_append_right (startsWith_append_right hstart _) _

theorem isolation_of_compileRunner {runner : Runner} {compiled : RunnerRequirements}
    (h : compileRunner runner path = .ok compiled) (hnative : compiled.isolation = .native) :
    runner.isolation = .native := by
  simp only [compileRunner, bind_eq_ok, exists_unit, pure_eq_ok] at h
  obtain ⟨_, -, -, _, -, -, -, rfl⟩ := h
  cases hisolation : runner.isolation with
  | native => rfl
  | wasm | oci | microvm =>
    rw [hisolation] at hnative
    cases hnative

variable {base : String}

theorem JobFrom.flagged {maximum : PermissionSet} {needs : List String} {source : Job}
    {matrix : MatrixExpansion} {job kept : PlannedJob}
    (h : JobFrom ext settings maximum needs risks base source matrix job) (hkept : JobKept job kept)
    (hprivilege : Privilege kept code) : Flags risks s!"jobs.{base}." code := by
  have hjob : Flags (Compiler.jobRisks source job.runner.capabilities s!"jobs.{base}") (s!"jobs.{base}" ++ ".") code →
      Flags risks s!"jobs.{base}." code := fun hflags => hflags.mono h.jobRisks
  cases hprivilege with
  | permissions hprivilege =>
    rw [hkept.permissions] at hprivilege
    exact (flags_permissions hprivilege s!"jobs.{base}").mono h.permissionRisks
  | step hstep hprivilege =>
    rcases mem_append.mp hstep with hstep | hstep
    · obtain ⟨origin, horigin, hsame⟩ := hkept.steps _ hstep
      obtain ⟨_, -, hfrom⟩ := h.steps origin horigin
      exact hfrom.flagged (hsame.capabilities ▸ hprivilege)
    · obtain ⟨finalizer, hfinalizer, rfl⟩ := mem_map.mp hstep
      obtain ⟨origin, horigin, hsame⟩ := hkept.finalizers finalizer hfinalizer
      obtain ⟨_, -, hfrom⟩ := h.finalizers origin horigin
      obtain ⟨finding, hfinding, hcode, hpath⟩ := hfrom.flagged (hsame.capabilities ▸ hprivilege)
      refine ⟨finding, hfinding, hcode, startsWith_trans ?_ hpath⟩
      refine startsWith_append_right ?_ "."
      rw [startsWith_append_left]
      rfl
  | native hnative =>
    have hsource : source.runner.isolation = .native := isolation_of_compileRunner h.runner (hkept.isolation ▸ hnative)
    exact hjob (by simp +decide [Compiler.jobRisks, hsource, RiskFinding.high, toString])
  | environment henvironment =>
    rw [hkept.environment, h.environment] at henvironment
    exact hjob (by simp +decide [Compiler.jobRisks, henvironment, RiskFinding.high, toString])
  | runner hrunner =>
    rw [hkept.capabilities] at hrunner
    exact hjob (by simp +decide [Compiler.jobRisks, hrunner, RiskFinding.high, toString])

/-! ### Capsules -/

theorem flags_selectPlan {aliases : BTreeMap String (List String)} {plan selected : Plan}
    (h : selectPlan context aliases plan = .ok selected) {base code : String}
    (hflags : Flags plan.risks s!"jobs.{base}." code)
    (hkept : context.selectedJob = none ∨ base ∈ selected.jobs.map (·.baseId)) :
    ∃ finding ∈ selected.risks, finding.code = code := by
  obtain ⟨finding, hfinding, hcode, hpath⟩ := hflags
  unfold selectPlan at h
  split at h
  · cases h
    exact ⟨finding, hfinding, hcode⟩
  · rename_i name hname
    simp only [bind_eq_ok, pure_eq_ok] at h
    obtain ⟨jobs, -, rfl⟩ := h
    rw [hname] at hkept
    have hbase := hkept.resolve_left (Option.some_ne_none _)
    have habout : isAbout (jobs.map (·.baseId)) finding = true := any_eq_true.mpr ⟨base, hbase, hpath⟩
    exact ⟨finding, mem_filter.mpr ⟨hfinding, habout⟩, hcode⟩

/-- The reasons are the codes of the findings, and a finding makes the execution privileged unless it is
brokered. -/
theorem approvalRequirements_spec (context : CompileContext) (plan : Plan) (code : String) :
    (code ∈ (approvalRequirements context plan).reasons ↔ ∃ finding ∈ plan.risks, finding.code = code) ∧
      ((∃ finding ∈ plan.risks, finding.code = code) →
        brokeredScmAutomation context plan.risks (plan.jobs ++ plan.dynamicJobs.map (·.template)) = false →
        (approvalRequirements context plan).privilegedExecution = true) := by
  constructor
  · rw [approvalRequirements, mem_dedupAdjacent, mem_sort, mem_map]
  · rintro ⟨_, hfinding, -⟩ hbrokered
    have hsome : plan.risks.isEmpty = false := isEmpty_eq_false_iff.mpr (ne_nil_of_mem hfinding)
    simp only [approvalRequirements, hsome, hbrokered, Bool.not_false, Bool.and_self]

variable {canonical : Canonical} {workflow : Ast.Workflow} {compilation : Compilation}
  {expanded : ExpandedReusableWorkflows} {planned selected : Plan} {resolved : Resolved}

theorem CompiledFrom.exists_finding {job : PlannedJob}
    (h : CompiledFrom ext canonical settings workflow context compilation expanded planned resolved selected)
    (hjob : job ∈ compilation.capsule.allJobs) (hprivilege : Privilege job code)
    (hstays : context.selectedJob = none ∨ job ∈ compilation.capsule.jobs) :
    ∃ finding ∈ compilation.riskReport.findings, finding.code = code := by
  obtain ⟨base, _, _, _, _, -, hfrom, hkept⟩ := h.jobFrom hjob
  have hbase : context.selectedJob = none ∨ base ∈ selected.jobs.map (·.baseId) :=
    hstays.imp_right fun hstatic => mem_map.mpr ⟨job, h.jobs ▸ hstatic, hkept.baseId.trans hfrom.baseId⟩
  obtain ⟨finding, hfinding, hcode⟩ := flags_selectPlan h.selects (hfrom.flagged hkept hprivilege) hbase
  refine ⟨finding, ?_, hcode⟩
  rw [h.findings, mem_dedupAdjacent, mem_sort]
  exact hfinding

/-- **Every privilege in a capsule is a reason for an approval, and makes the execution privileged unless it is
brokered automation, exactly if the findings that stay report every privilege of a template.** Without a
selection they do. -/
theorem compiled_privilege_flagged {snapshot : Option ContentDigest}
    (h : compileInner ext canonical settings workflow context snapshot = .ok compilation) :
    ((∀ job ∈ compilation.capsule.allJobs, ∀ code, Privilege job code →
        code ∈ compilation.capsule.approval.reasons ∧
        (brokeredScmAutomation context compilation.riskReport.findings compilation.capsule.allJobs = false →
          compilation.capsule.approval.privilegedExecution = true)) ↔
      ∀ template ∈ compilation.capsule.dynamicJobs, ∀ code, Privilege template.template code →
        ∃ finding ∈ compilation.riskReport.findings, finding.code = code) ∧
    (context.selectedJob = none →
      ∀ template ∈ compilation.capsule.dynamicJobs, ∀ code, Privilege template.template code →
        ∃ finding ∈ compilation.riskReport.findings, finding.code = code) := by
  obtain ⟨_, _, _, selected, hcompiled⟩ := exists_compiled h
  have htemplate : ∀ template ∈ compilation.capsule.dynamicJobs,
      template.template ∈ compilation.capsule.allJobs :=
    fun template hmem => mem_append_right _ (mem_map_of_mem hmem)
  have hspec : ∀ code, (code ∈ compilation.capsule.approval.reasons ↔
        ∃ finding ∈ compilation.riskReport.findings, finding.code = code) ∧
      ((∃ finding ∈ compilation.riskReport.findings, finding.code = code) →
        brokeredScmAutomation context compilation.riskReport.findings compilation.capsule.allJobs = false →
        compilation.capsule.approval.privilegedExecution = true) := by
    rw [hcompiled.approval, hcompiled.findings, ExecutionCapsule.allJobs, hcompiled.jobs, hcompiled.dynamicJobs]
    exact approvalRequirements_spec context _
  refine ⟨⟨fun hall template hmem code hprivilege => ?_, fun hall job hjob code hprivilege => ?_⟩,
    fun hnone template hmem code hprivilege => ?_⟩
  · exact (hspec code).1.mp (hall _ (htemplate template hmem) code hprivilege).1
  · have hfinding : ∃ finding ∈ compilation.riskReport.findings, finding.code = code := by
      rcases mem_append.mp hjob with hstatic | hdynamic
      · exact hcompiled.exists_finding hjob hprivilege (.inr hstatic)
      · obtain ⟨template, hmem, rfl⟩ := mem_map.mp hdynamic
        exact hall template hmem code hprivilege
    exact ⟨(hspec code).1.mpr hfinding, (hspec code).2 hfinding⟩
  · exact hcompiled.exists_finding (htemplate template hmem) hprivilege (.inl hnone)

/-! ### A fan-out with write access -/

/-- The step that computes the matrix. -/
def listItems : Ast.Step :=
  { noop with id := some "list", outputs := mapOf [("items", ⟨.json, true⟩)] }

def fanOut : Ast.Workflow where
  version := 1
  permissions := { repository := .write }
  jobs := mapOf [
    ("produce", { steps := [listItems], permissions := some {},
                  valueOutputs := mapOf [("items", "steps.list.outputs.items")] }),
    ("publish", { needs := ["produce"], steps := [noop],
                  dynamicMatrix := some ⟨"needs.produce.outputs.items", 4⟩ })]

theorem compiled_privilege_flagged_fanOut : ∃ compilation,
    compileInner (bundleExternals fanOut) blankCanonical {} fanOut {} none = .ok compilation ∧
    "repository-write" ∈ compilation.capsule.approval.reasons := by
  have hok : ((compileInner (bundleExternals fanOut) blankCanonical {} fanOut {} none).toOption.any
      fun compilation => compilation.capsule.allJobs.any (·.permissions.repository = .write)) = true := by
    decide +kernel
  obtain ⟨compilation, hcompilation, hany⟩ := exists_eq_ok_of_any hok
  obtain ⟨job, hjob, hwrite⟩ := any_eq_true.mp hany
  have hprivilege : Privilege job "repository-write" := .permissions (.repository (of_decide_eq_true hwrite))
  obtain ⟨hexact, hnone⟩ := compiled_privilege_flagged hcompilation
  exact ⟨compilation, hcompilation, (hexact.mpr (hnone rfl) job hjob _ hprivilege).1⟩

/-- With the producer selected the template stays, and the finding about it is dropped. -/
theorem selectedProducer_not_flagged : ∃ compilation,
    compileInner (bundleExternals fanOut) blankCanonical {} fanOut { selectedJob := some "produce" } none =
      .ok compilation ∧
    (∃ job ∈ compilation.capsule.allJobs, Privilege job "repository-write") ∧
    brokeredScmAutomation { selectedJob := some "produce" } compilation.riskReport.findings
      compilation.capsule.allJobs = false ∧
    compilation.capsule.approval.privilegedExecution = false ∧
    "repository-write" ∉ compilation.capsule.approval.reasons := by
  have hok : ((compileInner (bundleExternals fanOut) blankCanonical {} fanOut
      { selectedJob := some "produce" } none).toOption.any fun compilation =>
        compilation.capsule.allJobs.any (·.permissions.repository = .write) &&
        !brokeredScmAutomation { selectedJob := some "produce" } compilation.riskReport.findings
          compilation.capsule.allJobs &&
        !compilation.capsule.approval.privilegedExecution &&
        "repository-write" ∉ compilation.capsule.approval.reasons) = true := by
    decide +kernel
  obtain ⟨compilation, hcompilation, hall⟩ := exists_eq_ok_of_any hok
  simp only [Bool.and_eq_true, Bool.not_eq_true', decide_eq_true_eq] at hall
  obtain ⟨⟨⟨hany, hbrokered⟩, hprivileged⟩, hreason⟩ := hall
  obtain ⟨job, hjob, hwrite⟩ := any_eq_true.mp hany
  exact ⟨compilation, hcompilation, ⟨job, hjob, .permissions (.repository (of_decide_eq_true hwrite))⟩,
    hbrokered, hprivileged, hreason⟩

end Runtrue.Compiler
