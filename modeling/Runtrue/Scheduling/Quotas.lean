import Runtrue.Scheduling.Accounting

/-!
# Tenant quotas

The quota of a tenant is tested when an offer is made, and the running count moves when an offer is accepted,
without another test. Two outstanding offers of a tenant have both passed the test, and accepting both may go
over the quota (`quota_exceeded_by_two_offers`).
-/

namespace Runtrue.Scheduling

open Scheduler BTreeMap

variable {A A' : String → Bool} {s t : Scheduler} {a : Action} {id tenantId : String} {lease lease' : Lease}

def WithinQuota (A : String → Bool) (s : Scheduler) (tenantId : String) : Prop :=
  total A s (ofTenant tenantId) ≤ (s.quotaOf tenantId).maximumRunningJobs.toNat

/-- The quota test of `offer_for_runner`. -/
def Scheduler.hasCapacity (s : Scheduler) (tenantId : String) : Bool :=
  (s.quotaOf tenantId).hasCapacity (s.runningOf tenantId)

/-- What a change must meet. -/
def KeepsQuota (A : String → Bool) (s : Scheduler) : Action → Prop
  | .quota => False
  | .accept _ lease => s.hasCapacity lease.tenantId
  | a => ReleasesAccepted A a

/-! ### What a change does to the quota -/

theorem Does.quotas (hdoes : Does s a t) (ha : a ≠ .quota) : t.quotas = s.quotas := by
  cases hdoes with
  | quota => exact absurd rfl ha
  | giveBack => rw [returnOffer_eq]
  | finish => rw [completeLease_eq]
  | expire => rw [expireLease_eq]
  | @restore newEpoch =>
    obtain ⟨_, _, heq⟩ := (s.fenceAll newEpoch).requeueLoop_eq s.liveLeases
    rw [restored, heq]
    rfl
  | _ => rfl

theorem Closes.total_le (hcl : Closes s id lease lease' t) (hended : A id → lease'.state.unfinished = false) :
    total A t (ofTenant tenantId) ≤ total A s (ofTenant tenantId) :=
  Nat.le_of_add_right_le (total_closes hcl hended).le

/-- The step lemma: the running count of every tenant is exact, and within the quota. -/
theorem Does.withinQuota (hdoes : Does s a t) (hc : Consistent s) (hb : Books A s) (hkeeps : KeepsQuota A s a)
    (hs : TenantsExact A s ∧ ∀ tenantId, WithinQuota A s tenantId) :
    TenantsExact (acceptedAfter A a) t ∧ ∀ tenantId, WithinQuota (acceptedAfter A a) t tenantId := by
  obtain ⟨hexact, hwithin⟩ := hs
  have hquotas : t.quotas = s.quotas := hdoes.quotas fun h => by
    rw [h] at hkeeps
    exact hkeeps
  have hfits : KeepsTenants A s a := by
    cases hdoes with
    | accept =>
      -- below a quota that is itself a 32-bit number
      exact (Nat.succ_le_of_lt (BitVec.lt_def.mp (of_decide_eq_true hkeeps))).trans_lt (BitVec.isLt _)
    | quota => exact hkeeps.elim
    | _ => exact hkeeps
  refine ⟨hdoes.tenantsExact hc hb hfits hexact, fun tenantId => ?_⟩
  have hheld := hwithin tenantId
  rw [WithinQuota, quotaOf, hquotas, ← quotaOf]
  cases hdoes with
  | quota => exact hkeeps.elim
  | register | status | enqueue | lose => exact hheld
  | issue => exact (total_issued hc (hb.fresh hc)).le.trans hheld
  | @accept _ lease runner job hgot hoffered _ _ =>
    have htotal := @total_accepted _ _ _ _ _ runner job hb hgot hoffered (byIssue_ofTenant tenantId)
    by_cases htenant : lease.tenantId = tenantId
    · subst htenant
      rw [ofTenant, if_pos rfl] at htotal
      have hlt := BitVec.lt_def.mp (of_decide_eq_true hkeeps)
      rw [hexact] at hlt
      exact htotal.le.trans hlt
    · rw [ofTenant, if_neg htenant, add_zero] at htotal
      exact htotal.le.trans hheld
  | giveBack hgot hoffered hended =>
    refine ((returnOffer_closes hgot hoffered hended).total_le fun hA => ?_).trans hheld
    exact absurd hA (Bool.eq_false_iff.mp (hb.not_accepted hgot hoffered))
  | renew hgot hrunning _ _ expires =>
    exact (total_touches (renewed_touches hgot hrunning expires) (byIssue_ofTenant tenantId)).le.trans hheld
  | cancel hgot hstate =>
    exact (total_touches (cancelled_touches hgot hstate) (byIssue_ofTenant tenantId)).le.trans hheld
  | finish hgot hrunning digest =>
    exact ((completeLease_closes hgot hrunning digest).total_le fun _ => rfl).trans hheld
  | expire hgot hlive => exact ((expireLease_closes hgot hlive).total_le fun _ => rfl).trans hheld
  | @restore newEpoch =>
    have htotal : total A (s.restored newEpoch) (ofTenant tenantId) = 0 :=
      total_restored fun _ _ hgot hA => (hb.state_ne hgot hA).2
    exact htotal.le.trans (Nat.zero_le _)

/-! ### Runs -/

/-- A quota is set before the tenant has a lease. -/
def SetsQuotaFirst (e : Event) : Prop :=
  match e.op with
  | .setQuota tenantId _ => ∀ p ∈ e.before.leases.toList, p.2.tenantId ≠ tenantId
  | _ => True

/-- An offer is accepted while the quota of its tenant has room. -/
def AcceptsWithinQuota (e : Event) : Prop :=
  ∀ p ∈ e.before.accepting e.op, e.before.hasCapacity p.2.tenantId = true

instance SetsQuotaFirst.decidable (e : Event) : Decidable (SetsQuotaFirst e) := by
  obtain ⟨_, op, _⟩ := e
  cases op with
  | setQuota => exact List.decidableBAll _ _
  | _ => exact instDecidableTrue

instance AcceptsWithinQuota.decidable (e : Event) : Decidable (AcceptsWithinQuota e) := by
  unfold AcceptsWithinQuota
  infer_instance

theorem keepsQuota_of_causes {op : Op} {out : Outcome} {h : History}
    (hop : ∀ tenantId quota, op ≠ .setQuota tenantId quota) (haccepts : AcceptsWithinQuota ⟨s, op, out⟩)
    (hreleases : ReleasesOnlyAccepted ⟨s, op, out⟩ h) (hA : ∀ id, acceptedIn h id → A id)
    {x : Scheduler × Action} (hcauses : Causes s op out x) : KeepsQuota A x.1 x.2 := by
  have hrel := releasesAccepted_of_causes hreleases hA hcauses
  cases hcauses with
  | quota hquota => exact hop _ _ hquota
  | accept haccepting => exact haccepts _ haccepting
  | _ => exact hrel

theorem withinQuota_of_no_lease (h : ∀ {id : String} {lease : Lease}, s.leases[id]? = some lease →
    lease.tenantId ≠ tenantId) : WithinQuota A s tenantId := by
  have hzero : total A s (ofTenant tenantId) = 0 := by
    refine sumBy_eq_zero fun _ _ hlease => ?_
    rw [charge, ofTenant, if_neg (h hlease), ite_self]
  exact hzero.le.trans (Nat.zero_le _)

def QuotasHold (h : History) (s : Scheduler) : Prop :=
  Books (acceptedIn h) s ∧ TenantsExact (acceptedIn h) s ∧ ∀ tenantId, WithinQuota (acceptedIn h) s tenantId

theorem QuotasHold.setQuota {h : History} (hs : QuotasHold h s) {quota : TenantQuota}
    (hfirst : SetsQuotaFirst ⟨s, .setQuota tenantId quota, (step s (.setQuota tenantId quota)).1⟩) :
    QuotasHold (⟨s, .setQuota tenantId quota, (step s (.setQuota tenantId quota)).1⟩ :: h)
      (step s (.setQuota tenantId quota)).2 := by
  have hsame : acceptedIn (⟨s, .setQuota tenantId quota, (step s (.setQuota tenantId quota)).1⟩ :: h) =
      acceptedIn h := rfl
  rw [QuotasHold, hsame]
  simp only [step, Scheduler.setQuota]
  cases quota.validate with
  | error => exact hs
  | ok _ =>
    obtain ⟨hb, hexact, hwithin⟩ := hs
    refine ⟨⟨hb.known, hb.active⟩, hexact, fun tenantId' => ?_⟩
    by_cases htenant : tenantId = tenantId'
    · subst htenant
      exact withinQuota_of_no_lease fun {id lease} hlease => hfirst (id, lease) (mem_toList.mpr hlease)
    · have hquota : quotaOf { s with quotas := s.quotas.insert tenantId quota } tenantId' =
          s.quotaOf tenantId' := by
        rw [quotaOf, get_insert, if_neg htenant, quotaOf]
      have hheld : _ ≤ _ := hwithin tenantId'
      exact hheld.trans_eq (congrArg (·.maximumRunningJobs.toNat) hquota.symm)

theorem quotasHold_of_reaches {epoch : U64} {h : History} (hrun : Reaches epoch h s)
    (hall : Run.AllCalls
      (fun e earlier => SetsQuotaFirst e ∧ AcceptsWithinQuota e ∧ ReleasesOnlyAccepted e earlier) h) :
    QuotasHold h s := by
  induction hrun with
  | start =>
    refine ⟨books_new epoch, tenantsExact_new epoch, fun tenantId => withinQuota_of_no_lease fun hlease => ?_⟩
    rw [new, Std.ExtTreeMap.getElem?_empty] at hlease
    cases hlease
  | call hrun op ih =>
    obtain ⟨⟨hfirst, haccepts, hreleases⟩, hrest⟩ := hall
    have hs := ih hrest
    by_cases hop : ∀ tenantId quota, op ≠ .setQuota tenantId quota
    · exact accounting_call (K := KeepsQuota) (fun _ _ _ _ hd hc hb hK hx => hd.withinQuota hc hb hK hx)
        (Reaches.consistent hrun) op (fun _ _ hA hx => keepsQuota_of_causes hop haccepts hreleases hA hx) hs.1 hs.2
    · push Not at hop
      obtain ⟨_, _, rfl⟩ := hop
      exact hs.setQuota hfirst

/-- **Tenant quotas hold.** In every run in which the quota of a tenant is set before it has a lease, an offer is
accepted while the quota has room, and a `CancelRequested` lease is completed or expired only if it was accepted, a
tenant holds no more leases than its quota. -/
theorem tenant_quotas_hold {epoch : U64} {h : History} (hrun : Reaches epoch h s)
    (hall : Run.AllCalls
      (fun e earlier => SetsQuotaFirst e ∧ AcceptsWithinQuota e ∧ ReleasesOnlyAccepted e earlier) h)
    (tenantId : String) : ((heldLeases h s).filter fun p => p.2.tenantId == tenantId).length ≤
      (s.quotaOf tenantId).maximumRunningJobs.toNat := by
  rw [← total_ofTenant]
  exact (quotasHold_of_reaches hrun hall).2.2 tenantId

/-- Two runners are offered a job each, and both accept. -/
def twoAccepted (quota : U32) : List Op :=
  [.setQuota "tenant" ⟨quota, 1⟩, .registerRunner (Fixture.runner "first"), .registerRunner (Fixture.runner "second"),
    .enqueue (Fixture.job "a" true), .enqueue (Fixture.job "b" true), .offerForRunner "first" 2,
    .offerForRunner "second" 2, .decideOffer "lease-1" "first" 1 true 3, .decideOffer "lease-2" "second" 1 true 3]

theorem tenant_quotas_hold_twoOffers :
    (∃ p q, heldLeases (exec 1 (twoAccepted 2)).1 (exec 1 (twoAccepted 2)).2 = [p, q]) ∧
    ((heldLeases (exec 1 (twoAccepted 2)).1 (exec 1 (twoAccepted 2)).2).filter
      fun p => p.2.tenantId == "tenant").length ≤
      ((exec 1 (twoAccepted 2)).2.quotaOf "tenant").maximumRunningJobs.toNat := by
  refine ⟨List.length_eq_two.mp (by decide), tenant_quotas_hold (reaches_exec 1 (twoAccepted 2)) ?_ "tenant"⟩
  decide

theorem quota_exceeded_by_two_offers :
    (∀ e ∈ (exec 1 (twoAccepted 1)).1, SetsQuotaFirst e) ∧
      ((exec 1 (twoAccepted 1)).2.quotaOf "tenant").maximumRunningJobs.toNat <
        ((heldLeases (exec 1 (twoAccepted 1)).1 (exec 1 (twoAccepted 1)).2).filter
          fun p => p.2.tenantId == "tenant").length := by
  decide

end Runtrue.Scheduling
