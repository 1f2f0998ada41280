import BrokeTurnkey.PolicyMeaning

/-!
# Policies nobody is subject to

A policy can be created about anything: `appliesTo` is any text and the target may be
missing.  The engine knows two values of it.  A policy that is not about all wallets is
enforced somewhere exactly if it says `wallet` and its target is a wallet of the org.
-/

namespace BrokeTurnkey

open Interaction

/-- Some wallet of its org is subject to the policy. -/
def Enforced (t : Tables) (policy : Policy) : Prop :=
  ∃ wallet ∈ t.wallets, wallet.orgId = policy.orgId ∧ ∃ policies,
    coverage t policy.orgId.toText wallet.id.toText = .ok policies ∧ policy ∈ policies

/-- The body is about one wallet of the org. -/
def AboutWallet (t : Tables) (org : Uuid) (body : CreatePolicyDto) : Prop :=
  body.appliesTo = some .wallet ∧ ∃ wallet ∈ t.wallets, wallet.orgId = org ∧
    body.targetId.bind Uuid.ofText = some wallet.id

namespace PolicyTargets

open PolicyMeaning

theorem parseOptionUuid_ok {s : Option Text} {u : Option Uuid} (h : parseOptionUuid s = .ok u) :
    u = s.bind Uuid.ofText := by
  cases s with
  | none =>
    rw [parseOptionUuid, Except.ok.injEq] at h
    rw [← h]
    rfl
  | some s =>
    rw [parseOptionUuid] at h
    cases hs : Uuid.ofText s with
    | none => simp [parseUuid, hs, Except.map] at h
    | some v =>
      simp only [parseUuid, hs, Except.map, Except.ok.injEq] at h
      simp [← h, hs]

theorem enforced_iff {t : Tables} {policy : Policy} :
    Enforced t policy ↔ ∃ wallet ∈ t.wallets, wallet.orgId = policy.orgId ∧
      Applies t policy.orgId.toText wallet.id.toText policy := by
  constructor
  · rintro ⟨wallet, hwallet, horg, policies, hcoverage, hmem⟩
    exact ⟨wallet, hwallet, horg, (mem_coverage hcoverage).mp hmem⟩
  · rintro ⟨wallet, hwallet, horg, happlies⟩
    refine ⟨wallet, hwallet, horg, ?_⟩
    obtain ⟨policies, hcoverage⟩ : ∃ policies,
        coverage t policy.orgId.toText wallet.id.toText = .ok policies := by
      simp [coverage, PolicyRepository.findByOrgId, withUuid, Except.map]
    exact ⟨policies, hcoverage, (mem_coverage hcoverage).mpr happlies⟩

end PolicyTargets

open PolicyTargets PolicyMeaning in
/-- **When a policy is enforced somewhere.**  An accepted active policy that is not about all
    wallets applies to some wallet of its org exactly if it is about one of them. -/
theorem enforced_iff_aboutWallet {cfg : ApiConfig} {body : CreatePolicyDto} {policy : Policy}
    (haccepts : Accepts cfg body policy) (hsome : body.appliesTo.getD .all ≠ .all) {t : Tables}
    (hmem : policy ∈ t.policies) (hactive : policy.status = .active) :
    Enforced t policy ↔ AboutWallet t policy.orgId body := by
  have hstores := accepts_stores haccepts
  have htarget := parseOptionUuid_ok hstores.targetId
  rw [enforced_iff]
  constructor
  · rintro ⟨wallet, hwallet, horg, _, _, _, hall | ⟨hkind, hprinted⟩⟩
    · exact absurd (hstores.appliesTo.symm.trans hall) hsome
    · refine ⟨?_, wallet, hwallet, horg, ?_⟩
      · rw [hstores.appliesTo] at hkind
        cases hbody : body.appliesTo with
        | none => simp [hbody] at hkind
        | some kind => simpa [hbody] using hkind
      · rw [Option.map_eq_some_iff] at hprinted
        obtain ⟨target, hsome, htext⟩ := hprinted
        rw [← htarget, hsome, Uuid.toText_injective htext]
  · rintro ⟨hkind, wallet, hwallet, horg, hid⟩
    refine ⟨wallet, hwallet, horg, hmem, Uuid.ofText_toText _, hactive, .inr ⟨?_, ?_⟩⟩
    · rw [hstores.appliesTo, hkind]
      rfl
    · rw [htarget, hid]
      rfl

namespace PolicyTargets

open Sample

def user : Uuid := freshId 7

/-- A limit for the wallets of a user. -/
def userBody : CreatePolicyDto where
  name := "no spending".toList
  ruleType := .spendLimit
  ruleConfig := .obj [("max_amount_wei".toList, .str "0".toList)]
  appliesTo := some (.other "user".toList)
  targetId := some user.toText
  priority := none

def userRow : Policy where
  id := freshId 9
  orgId := org
  name := "no spending".toList
  ruleType := .spendLimit
  ruleConfig := .obj [("max_amount_wei".toList, .str "0".toList)]
  appliesTo := .other "user".toList
  targetId := some user
  priority := 0
  status := .active

/-- The user has the one wallet of the org. -/
def owned : Tables :=
  { world.tables with
    users := [⟨user, org⟩]
    wallets := [{ walletRow with userId := some user }]
    policies := [userRow] }

theorem accepts_user : Accepts ApiSample.config userBody userRow := by
  have hrun := @Completes.of_complete _ _ _ _ _ _ _ (api ApiSample.config) .any _ _
    [.done (freshId 9)] (PolicyService.createPolicy ApiSample.config org.toText userBody)
    (ApiWorld.empty 0 wrappedViolation) [] _ rfl
  exact ⟨org.toText, _, _, _, hrun⟩

end PolicyTargets

open PolicyTargets in
/-- A limit about a user who has a wallet applies to no wallet of the org. -/
theorem user_policy_inert :
    Accepts ApiSample.config userBody userRow ∧ userBody.appliesTo.getD .all ≠ .all ∧
      userRow ∈ owned.policies ∧ userRow.status = .active ∧
      (∃ wallet ∈ owned.wallets, wallet.userId = some user ∧ wallet.orgId = userRow.orgId) ∧
      ¬Enforced owned userRow := by
  refine ⟨accepts_user, by decide, List.mem_cons_self, rfl,
    ⟨_, List.mem_cons_self, rfl, rfl⟩, ?_⟩
  rw [enforced_iff]
  rintro ⟨wallet, _, _, _, _, _, hall | ⟨hkind, _⟩⟩
  · exact absurd hall (by decide)
  · exact absurd hkind (by decide)

open PolicyTargets in
theorem enforced_iff_aboutWallet_user :
    Enforced owned userRow ↔ AboutWallet owned userRow.orgId userBody :=
  enforced_iff_aboutWallet accepts_user (by decide) List.mem_cons_self rfl

end BrokeTurnkey
