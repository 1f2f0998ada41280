import BrokeTurnkey.PolicyMeaning

/-!
# Calldata without a selector

The engine is shown a selector where the calldata has four bytes, and takes a request
without a selector for a plain transfer.  So one to three bytes of calldata pass every
calldata allowlist, and only the other policies can stop them.
-/

namespace BrokeTurnkey

open Interaction

/-- The entries of a configuration: an address and a selector. -/
def CreatePolicyDto.entries (body : CreatePolicyDto) : List (Text × Text) :=
  match body.ruleConfig.get? "entries".toList with
  | some (.arr items) => items.filterMap fun entry => do
      let toAddr ← (← entry.get? "to".toList).str?
      let selector ← (← entry.get? "selector".toList).str?
      return (toAddr, selector)
  | _ => []

/-- The number of bytes after `0x`. -/
def SignRequest.calldataBytes (req : SignRequest) : Nat := (req.data.length - 2) / 2

/-- The calldata has a selector, and an entry lists it for the recipient. -/
def Listed (body : CreatePolicyDto) (req : SignRequest) : Prop :=
  4 ≤ req.calldataBytes ∧ ∃ entry ∈ body.entries, Text.lower entry.1 = Text.lower req.toAddr ∧
    Text.lower entry.2 = Text.lower (req.data.take 10)

/-- The policy does not let the request pass. -/
def Refuses (cfg : Config) (req : SignRequest) (now : Int) (policy : Policy) : Prop :=
  ∀ result, PolicyService.evaluateRule cfg policy (WalletService.policyPayload cfg req) now =
    .ok result → result.decision = .deny

/-- The policy lets the request pass. -/
def Passes (cfg : Config) (req : SignRequest) (now : Int) (policy : Policy) : Prop :=
  ∃ result, PolicyService.evaluateRule cfg policy (WalletService.policyPayload cfg req) now =
    .ok result ∧ result.decision = .allow

theorem passes_iff {cfg : Config} {req : SignRequest} {now : Int} {policy : Policy} :
    Passes cfg req now policy ↔ ¬Refuses cfg req now policy := by
  simp only [Passes, Refuses, not_forall]
  constructor
  · rintro ⟨result, hresult, hallow⟩
    exact ⟨result, hresult, by simp [hallow]⟩
  · rintro ⟨result, hresult, hallow⟩
    refine ⟨result, hresult, ?_⟩
    cases hdecision : result.decision with
    | allow => rfl
    | deny => exact absurd hdecision hallow

namespace CalldataPolicies

open PolicyService PolicyMeaning

/-! ### What the rule checks -/

section Rule

variable {cfg : ApiConfig} {body : CreatePolicyDto} {row : Policy} {req : SignRequest}

theorem entries_of_isCalldataAllowlist {entries : List (Text × Text)}
    (h : isCalldataAllowlist (body.ruleConfig.get? "entries".toList) = some entries) :
    body.entries = entries := by
  unfold CreatePolicyDto.entries
  cases hfield : body.ruleConfig.get? "entries".toList with
  | none =>
    rw [hfield] at h
    simp [isCalldataAllowlist] at h
  | some field =>
    rw [hfield] at h
    cases field with
    | arr items => exact filterMap_of_mapM h
    | _ => simp [isCalldataAllowlist] at h

/-- The stored entries are the submitted ones in lower case. -/
theorem stored_entries (h : validateEntries cfg body.ruleConfig = .ok row.ruleConfig) :
    isCalldataAllowlist (row.ruleConfig.get? "entries".toList) =
      some (body.entries.map fun entry => (Text.lower entry.1, Text.lower entry.2)) := by
  unfold validateEntries at h
  split at h
  · rename_i entries hlist
    split at h
    · rw [Except.ok.injEq] at h
      rw [← h, entries_of_isCalldataAllowlist hlist]
      exact mapM_map (g := normaliseEntry)
        (h := fun entry => (Text.lower entry.1, Text.lower entry.2)) (fun _ => rfl) entries
    · simp at h
  · simp at h

theorem passes_if {c : Prop} [Decidable c] {reason : Text} :
    (∃ result, (.ok (if c then allowed else denied reason) :
      Except JsError PolicyEvaluationResult) = .ok result ∧ result.decision = .allow) ↔ c := by
  by_cases hc : c
  · simp [hc, allowed]
  · simp only [if_neg hc, denied]
    simp [hc]

/-- The rule passes a request with a selector exactly if it is listed, and any other. -/
theorem calldata_passes (haccepts : Accepts cfg body row)
    (htype : body.ruleType = .calldataAllowlist) (hlength : 2 ≤ req.data.length) (now : Int) :
    Passes cfg.services req now row ↔ req.calldataBytes < 4 ∨ Listed body req := by
  have hstores := accepts_stores haccepts
  have hconfig := hstores.config
  unfold validateRuleConfig at hconfig
  split at hconfig
  · rw [htype] at hconfig
    have hentries := stored_entries hconfig
    simp only [Passes, evaluateRule, hstores.ruleType, htype, calldataAllowlist, hentries,
      WalletService.policyPayload, Listed, SignRequest.calldataBytes]
    by_cases hselector : req.data.length ≥ 10
    · have hbytes : 4 ≤ (req.data.length - 2) / 2 := by omega
      have hany : ((body.entries.map fun entry => (Text.lower entry.1, Text.lower entry.2)).any
          fun entry => entry.1 = Text.lower req.toAddr ∧
            entry.2 = Text.lower (Text.lower (req.data.take 10))) = true ↔
          ∃ entry ∈ body.entries, Text.lower entry.1 = Text.lower req.toAddr ∧
            Text.lower entry.2 = Text.lower (req.data.take 10) := by
        simp only [List.any_map, List.any_eq_true, Function.comp_apply, decide_eq_true_eq,
          Text.lower_lower]
      rw [← hany, or_iff_right (by omega), and_iff_right hbytes]
      simp only [if_pos hselector]
      exact passes_if
    · have hbytes : (req.data.length - 2) / 2 < 4 := by omega
      simp only [if_neg hselector]
      simp [hbytes, allowed]
  · simp at hconfig

end Rule

/-! ### What the engine lets pass -/

section Engine

variable {cfg : Config} {orgId walletId : Text} {req : SignRequest} {now : Int}

theorem firstDenial_allows_iff {policies : List Policy} :
    (∃ result, firstDenial cfg (WalletService.policyPayload cfg req) now policies = .ok result ∧
      result.decision = .allow) ↔ ∀ policy ∈ policies, Passes cfg req now policy := by
  induction policies with
  | nil => simp [firstDenial, allowed]
  | cons policy rest ih =>
    rw [List.forall_mem_cons, ← ih, firstDenial, Passes]
    cases hrule : evaluateRule cfg policy (WalletService.policyPayload cfg req) now with
    | error error => simp
    | ok result =>
      cases hdecision : result.decision with
      | allow => simp [hdecision]
      | deny => simp [hdecision]

theorem ruling_allows_iff {policies : List Policy} :
    (∃ result, ruling cfg (WalletService.policyPayload cfg req) now policies = .ok result ∧
      result.decision = .allow) ↔
      (∃ policy, policy ∈ policies) ∧ ∀ policy ∈ policies, Passes cfg req now policy := by
  cases policies with
  | nil => simp [ruling, denied]
  | cons policy rest =>
    rw [and_iff_right ⟨policy, List.mem_cons_self⟩]
    exact firstDenial_allows_iff

/-- A request that passes the engine passes every policy that applies. -/
theorem evaluatePolicy_meets (w : World) :
    Meets (services cfg) .any (fun outcome _ _ => outcome = .ok () →
        ∀ policy, Applies w.tables orgId walletId policy → Passes cfg req w.clock policy)
      (WalletService.evaluatePolicy cfg orgId walletId req) w [] := by
  refine Meets.bind (evaluate_returns w []) (fun result w' history' h => ?_) (by simp)
  rcases h with ⟨error, herror, _⟩ | ⟨policies, hcoverage, hruling⟩
  · simp at herror
  · cases hdecision : result.decision with
    | deny =>
      rintro ⟨⟩
    | allow =>
      intro _ policy happlies
      exact (ruling_allows_iff.mp ⟨result, hruling.symm, hdecision⟩).2 policy
        ((mem_coverage hcoverage).mpr happlies)

section Answered

variable {w : World} {org wallet : Uuid} (horg : Uuid.ofText orgId = some org)
  (hwallet : Uuid.ofText walletId = some wallet)
include horg hwallet

/-- The audit row of an evaluation can be written. -/
theorem audit_attains (status : AuditStatus) (metadata : AuditMetadata) :
    ∃ w', Attains (services cfg) .any (auditEvaluation orgId walletId status metadata) w
      (.ok ()) w' := by
  have hcreate : ∃ t, AuditLogRepository.create
      { orgId, walletId := some walletId, event := .policyEvaluation, status, metadata } w.clock
        w.tables = (.ok (), t) := by
    simp [AuditLogRepository.create, withUuid, withOptionUuid, horg, hwallet]
  obtain ⟨t, hcreate⟩ := hcreate
  exact ⟨_, attains_sql (Sample.freshId 0) rfl hcreate⟩

theorem evaluatePolicies_attains (policiesChecked : Nat) {policies : List Policy}
    (h : ∀ policy ∈ policies, Passes cfg req w.clock policy) :
    ∃ w', Attains (services cfg) .any (evaluatePolicies cfg orgId walletId
      (WalletService.policyPayload cfg req) policiesChecked policies) w (.ok allowed) w' := by
  induction policies with
  | nil =>
    obtain ⟨w', hattains⟩ := audit_attains horg hwallet .allowed
      (.allowedBy policiesChecked (WalletService.policyPayload cfg req))
    exact ⟨w', hattains.bind (.ret allowed w')⟩
  | cons policy rest ih =>
    obtain ⟨w', hrest⟩ := ih fun policy hpolicy => h policy (List.mem_cons_of_mem _ hpolicy)
    obtain ⟨result, hresult, hallow⟩ := h policy List.mem_cons_self
    refine ⟨w', Attains.bind attains_now ?_⟩
    simp only [hresult, hallow]
    exact hrest

/-- Some run lets a request pass that every policy that applies lets pass. -/
theorem evaluatePolicy_attains (hsome : ∃ policy, Applies w.tables orgId walletId policy)
    (hall : ∀ policy, Applies w.tables orgId walletId policy → Passes cfg req w.clock policy) :
    ∃ w', Attains (services cfg) .any (WalletService.evaluatePolicy cfg orgId walletId req) w
      (.ok ()) w' := by
  obtain ⟨found, hfound⟩ : ∃ found,
      PolicyRepository.findByOrgId orgId .active w.tables = (.ok found, w.tables) := by
    simp [PolicyRepository.findByOrgId, withUuid, horg]
  have hcoverage : coverage w.tables orgId walletId = .ok (applicable found walletId) := by
    rw [coverage, hfound]
    rfl
  have hpasses : ∀ policy ∈ applicable found walletId, Passes cfg req w.clock policy :=
    fun policy hpolicy => hall policy ((mem_coverage hcoverage).mp hpolicy)
  obtain ⟨policy, happlies⟩ := hsome
  have hmem := (mem_coverage hcoverage).mpr happlies
  have hread : Attains (services cfg) .any (Js.sql (.policyFindByOrgId orgId .active)) w
      (.ok found) w := attains_sql (Sample.freshId 0) rfl hfound
  have hevaluate : ∃ w', Attains (services cfg) .any
      (evaluate cfg orgId walletId (WalletService.policyPayload cfg req)) w (.ok allowed) w' := by
    cases hlist : applicable found walletId with
    | nil => simp [hlist] at hmem
    | cons first rest =>
      rw [hlist] at hpasses
      obtain ⟨w', hattains⟩ := evaluatePolicies_attains horg hwallet (rest.length + 1) hpasses
      refine ⟨w', hread.bind ?_⟩
      simp only [hlist]
      exact hattains
  obtain ⟨w', hevaluate⟩ := hevaluate
  exact ⟨w', hevaluate.bind (.ret () w')⟩

end Answered

end Engine

end CalldataPolicies

open CalldataPolicies PolicyMeaning in
/-- **When a calldata allowlist covers a request.**  Whatever other policies there are, a
    request with calldata gets through only if it is listed, exactly when it has no calldata
    or at least four bytes of it, or another policy that applies refuses it. -/
theorem evaluatePolicy_listed_iff {cfg : ApiConfig} {w : World} {orgId walletId : Text}
    {wallet : Wallet} (hwallet : Resolves w.tables walletId wallet) {policy : Policy}
    {body : CreatePolicyDto} (haccepts : Accepts cfg body policy)
    (htype : body.ruleType = .calldataAllowlist)
    (happlies : Applies w.tables orgId walletId policy) (dto : SignTransactionDto) :
    (0 < dto.txFields.calldataBytes → ∀ w' history,
      Completes (services cfg.services) .any
        (WalletService.evaluatePolicy cfg.services orgId walletId dto.txFields) w [] (.ok ())
        w' history → Listed body dto.txFields) ↔
      dto.txFields.calldataBytes = 0 ∨ 4 ≤ dto.txFields.calldataBytes ∨
        ∃ other, Applies w.tables orgId walletId other ∧
          Refuses cfg.services dto.txFields w.clock other := by
  have hlength : 2 ≤ dto.txFields.data.length := by
    obtain ⟨digits, hdata, _⟩ := isCalldata_eq_true dto.data_calldata
    simp [hdata]
  have hrule := @calldata_passes cfg body policy dto.txFields haccepts htype hlength w.clock
  constructor
  · intro hcovers
    by_contra hcond
    simp only [not_or, not_exists, not_and] at hcond
    obtain ⟨hsome, hshort, hnone⟩ := hcond
    have hall : ∀ policy, Applies w.tables orgId walletId policy →
        Passes cfg.services dto.txFields w.clock policy :=
      fun policy happlies => passes_iff.mpr (hnone policy happlies)
    obtain ⟨w', hattains⟩ := evaluatePolicy_attains happlies.2.1
      (PolicyCoverage.uuid_of_resolves hwallet) ⟨policy, happlies⟩ hall
    obtain ⟨history, hrun⟩ := hattains []
    exact hshort (hcovers (by omega) w' history hrun).1
  · rintro hcond hsome w' history hrun
    have hall := hrun.meets (evaluatePolicy_meets w) rfl
    rcases hcond with hnone | hselector | ⟨other, hother, hrefuses⟩
    · omega
    · exact (hrule.mp (hall policy happlies)).resolve_left (by omega)
    · exact absurd hrefuses (passes_iff.mp (hall other hother))

namespace CalldataPolicies

open Sample

/-- Only transfers of one token. -/
def transfersBody : CreatePolicyDto where
  name := "token transfers".toList
  ruleType := .calldataAllowlist
  ruleConfig := .obj [("entries".toList, .arr [.obj
    [("to".toList, .str "0x5aAeb6053F3E94C9b9A09f33669435E7Ef1BeAed".toList),
      ("selector".toList, .str "0xA9059CBB".toList)]])]
  appliesTo := none
  targetId := none
  priority := none

def transfersRow : Policy where
  id := freshId 8
  orgId := org
  name := "token transfers".toList
  ruleType := .calldataAllowlist
  ruleConfig := .obj [("entries".toList, .arr [.obj
    [("to".toList, .str "0x5aaeb6053f3e94c9b9a09f33669435e7ef1beaed".toList),
      ("selector".toList, .str "0xa9059cbb".toList)]])]
  appliesTo := .all
  targetId := none
  priority := 0
  status := .active

def transfersOnly : World :=
  { world with tables := { world.tables with policies := [transfersRow] } }

/-- A call of another contract with three bytes of calldata. -/
def threeBytes : SignTransactionDto where
  txFields :=
    { chainId := 1, toAddr := "0xd8dA6BF26964aF9D7eEd9e03E53415D37aA96045".toList,
      value := "0".toList, data := "0xa9059c".toList }
  chainId_range := by decide
  toAddr_address := by decide
  value_decimal := by decide
  value_length := by decide
  data_calldata := by decide
  data_length := by decide

theorem accepts_transfers : Accepts ApiSample.config transfersBody transfersRow := by
  have hrun := @Completes.of_complete _ _ _ _ _ _ _ (api ApiSample.config) .any _ _
    [.done (freshId 8)] (PolicyService.createPolicy ApiSample.config org.toText transfersBody)
    (ApiWorld.empty 0 wrappedViolation) [] _ rfl
  exact ⟨org.toText, _, _, _, hrun⟩

theorem applies_transfers :
    Applies transfersOnly.tables org.toText wallet.toText transfersRow :=
  ⟨List.mem_cons_self, by rw [Uuid.ofText_toText]; rfl, rfl, .inl rfl⟩

end CalldataPolicies

open CalldataPolicies Sample in
/-- Three bytes of calldata for an unlisted contract get through. -/
theorem evaluatePolicy_passes_three_bytes :
    ∃ w' history, Accepts ApiSample.config transfersBody transfersRow ∧
      transfersBody.ruleType = .calldataAllowlist ∧
      Applies transfersOnly.tables org.toText wallet.toText transfersRow ∧
      0 < threeBytes.txFields.calldataBytes ∧
      Completes (services ApiSample.config.services) .any
        (WalletService.evaluatePolicy ApiSample.config.services org.toText wallet.toText
          threeBytes.txFields) transfersOnly [] (.ok ()) w' history ∧
      ¬Listed transfersBody threeBytes.txFields := by
  have hshort : ¬Listed transfersBody threeBytes.txFields :=
    fun hlisted => absurd hlisted.1 (by decide)
  have hrun := @Completes.of_complete _ _ _ _ _ _ _ (services ApiSample.config.services) .any _ _
    [run, run, run] (WalletService.evaluatePolicy ApiSample.config.services org.toText
      wallet.toText threeBytes.txFields) transfersOnly [] _ rfl
  exact ⟨_, _, accepts_transfers, rfl, applies_transfers, by decide, hrun, hshort⟩

open CalldataPolicies Sample in
/-- Neither a selector nor another policy stands in the way of the three bytes. -/
theorem evaluatePolicy_listed_iff_three_bytes :
    (0 < threeBytes.txFields.calldataBytes → ∀ w' history,
      Completes (services ApiSample.config.services) .any
        (WalletService.evaluatePolicy ApiSample.config.services org.toText wallet.toText
          threeBytes.txFields) transfersOnly [] (.ok ()) w' history →
        Listed transfersBody threeBytes.txFields) ↔
      threeBytes.txFields.calldataBytes = 0 ∨ 4 ≤ threeBytes.txFields.calldataBytes ∨
        ∃ other, Applies transfersOnly.tables org.toText wallet.toText other ∧
          Refuses ApiSample.config.services threeBytes.txFields transfersOnly.clock other :=
  have hwallet : Resolves transfersOnly.tables wallet.toText walletRow := rfl
  evaluatePolicy_listed_iff hwallet accepts_transfers rfl applies_transfers threeBytes

end BrokeTurnkey
