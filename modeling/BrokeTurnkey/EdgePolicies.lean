import BrokeTurnkey.CalldataPolicies
import BrokeTurnkey.EdgeKeys

/-!
# Policies of a run

A policy is inserted by a request to create it and is later only made inactive.  So in
every state that is reached from empty tables each policy was submitted under a key of
its org with `policy:write`, and what the engine reads in its row is what was submitted.
-/

namespace BrokeTurnkey

open Interaction

/-! ### Commands -/

/-- What a command can do to the policies. -/
inductive ApiCmd.OnPolicies (w w' : ApiWorld) : ApiCmd → Prop where
  | kept {command : ApiCmd} : w'.tables.base.policies = w.tables.base.policies →
      OnPolicies w w' command
  | inserted {data : NewPolicy} {id : Uuid} {row : Policy} {t : ApiTables} :
      (ApiSql.policyCreate data).isFresh id w.drawn w.tables = true →
      PolicyRowRepository.create data id w.tables = .ok (row, t) →
      w'.tables.base.policies = w.tables.base.policies ++ [row] →
      OnPolicies w w' (.sql (.policyCreate data))
  | updated {policyId : Text} {status : PolicyStatus} {id : Uuid} :
      w'.tables.base.policies = w.tables.base.policies.map (PolicyRowRepository.updateRow id status) →
      OnPolicies w w' (.sql (.policyUpdate policyId status))

theorem ApiCmd.exec_policies {command : ApiCmd} {choice : Choice} {w w' : ApiWorld}
    {reply : Except JsError command.Reply} (hexec : command.exec choice w = some (reply, w')) :
    command.OnPolicies w w' := by
  cases command with
  | base command =>
    obtain ⟨base, hbase, rfl⟩ := exec_base hexec
    exact .kept (exec_agree hbase).policies
  | sql statement =>
    rcases exec_sql hexec with ⟨id, hfresh, rfl, _⟩ | ⟨error, _, _, _, rfl⟩
    · have hagree := statement.exec_agree id w.clock w.tables
      cases statement with
      | policyCreate data =>
        cases hcreate : PolicyRowRepository.create data id w.tables with
        | error error => exact .kept (by simp [ApiSql.exec, hcreate, ApiTables.write])
        | ok result =>
          obtain ⟨row, t'⟩ := result
          obtain ⟨org, target, _, _, rfl, rfl⟩ := PolicyRowRepository.create_eq_ok hcreate
          refine .inserted hfresh hcreate ?_
          simp [ApiSql.exec, hcreate, ApiTables.write, ApiTables.setPolicies]
      | policyUpdate policyId status =>
        cases hupdate : PolicyRowRepository.update policyId status w.tables with
        | error error => exact .kept (by simp [ApiSql.exec, hupdate, ApiTables.write])
        | ok result =>
          have hresult := hupdate
          obtain ⟨u, _, rfl⟩ := map_eq_ok.mp hupdate
          have hpolicies :
            (ApiSql.exec id w.clock w.tables (.policyUpdate policyId status)).2.base.policies =
              w.tables.base.policies.map (PolicyRowRepository.updateRow u status) := by
            simp [ApiSql.exec, hresult, ApiTables.write, ApiTables.setPolicies]
          exact .updated hpolicies
      | _ => exact .kept (hagree.policies (by simp [ApiSql.writes]))
    · exact .kept rfl
  | randomUUID =>
    obtain ⟨id, rfl⟩ := exec_randomUUID hexec
    exact .kept rfl
  | signHash wallet key hash => exact exec_query rfl hexec ▸ .kept rfl
  | fork job => exact exec_query rfl hexec ▸ .kept rfl

/-! ### What was submitted -/

/-- The row that `createPolicy` inserts. -/
def CreatePolicyDto.newPolicy (body : CreatePolicyDto) (orgId : Text) (ruleConfig : Json) :
    NewPolicy where
  orgId := orgId
  name := body.name
  ruleType := body.ruleType
  ruleConfig := ruleConfig
  appliesTo := body.appliesTo.getD .all
  targetId := body.targetId
  priority := body.priority.getD 0
  status := .active

/-- What an insert of the body stores, a call of `createPolicy` may be answered with. -/
theorem accepts_of_create {cfg : ApiConfig} {body : CreatePolicyDto} {orgId : Text}
    {ruleConfig : Json}
    (hconfig : PolicyService.validateRuleConfig cfg body.ruleType body.ruleConfig = .ok ruleConfig)
    {w : ApiWorld} {id : Uuid} {row : Policy} {t : ApiTables}
    (hfresh : (ApiSql.policyCreate (body.newPolicy orgId ruleConfig)).isFresh
      id w.drawn w.tables = true)
    (hcreate : PolicyRowRepository.create (body.newPolicy orgId ruleConfig) id w.tables =
      .ok (row, t)) : Accepts cfg body row := by
  have hexec : (api cfg).exec (.sql (.policyCreate (body.newPolicy orgId ruleConfig))) (.done id) w =
      some (.ok row, { w with tables := t }) := by
    change (if (ApiSql.policyCreate (body.newPolicy orgId ruleConfig)).isFresh id w.drawn w.tables
      then _ else none) = _
    rw [if_pos hfresh]
    simp only [ApiSql.exec, hcreate, ApiTables.write]
    rfl
  have hperform : Attains (api cfg) .any
      (Api.sql (.policyCreate (body.newPolicy orgId ruleConfig))) w (.ok row) { w with tables := t } :=
    .perform trivial hexec
  have hrun : Attains (api cfg) .any (PolicyService.createPolicy cfg orgId body) w (.ok row)
      { w with tables := t } := by
    rw [PolicyService.createPolicy, hconfig]
    exact hperform
  obtain ⟨history, hcompletes⟩ := hrun []
  exact ⟨orgId, w, _, history, hcompletes⟩

/-- The engine does not look at the status of a policy. -/
theorem PolicyService.evaluateRule_advance {cfg : Config} {row row' : Policy}
    (h : row.Advance row') (txPayload : TxPayload) (now : Int) :
    evaluateRule cfg row' txPayload now = evaluateRule cfg row txPayload now := by
  rw [h.same]
  rfl

/-- The policy was submitted by a request that arrived, with the stamp of a key of its org
    that has `policy:write`. -/
structure Submitted (cfg : ApiConfig) (run : ApiWorld → Prop) (arrivals : List Arrival)
    (policy : Policy) (incoming : Incoming) (body : CreatePolicyDto)
    (stamp : StampVerifierGuard.Parsed) (key : ApiKey) : Prop where
  arrived : .request incoming ∈ arrivals
  endpoint : incoming.endpoint = .createPolicy body
  admitted : StampVerifierGuard.Admitted cfg run incoming.request stamp key
  scope : Endpoint.policyWrite ∈ key.scopes
  own : policy.orgId = key.orgId
  accepted : ∃ row, Accepts cfg body row ∧ row.Advance policy

/-- A policy that was made inactive is the one that was submitted. -/
theorem Submitted.advance {cfg : ApiConfig} {run : ApiWorld → Prop} {arrivals : List Arrival}
    {policy policy' : Policy} {incoming : Incoming} {body : CreatePolicyDto}
    {stamp : StampVerifierGuard.Parsed} {key : ApiKey}
    (h : Submitted cfg run arrivals policy incoming body stamp key)
    (hadvance : policy.Advance policy') :
    Submitted cfg run arrivals policy' incoming body stamp key := by
  obtain ⟨row, haccepts, hrow⟩ := h.accepted
  have horg : policy'.orgId = policy.orgId := (congrArg Policy.orgId hadvance.same :)
  exact { h with own := horg.trans h.own, accepted := ⟨row, haccepts, hrow.trans hadvance⟩ }

/-! ### Runs -/

section Runs

variable {cfg : ApiConfig} {arrivals : List Arrival} {w : ApiWorld} {q : EdgePool}

/-- A deletion inserts no policy. -/
theorem PolicyService.deletePolicy_inserts_none (orgId policyId : Text) :
    (deletePolicy orgId policyId).All fun command => ∀ data, command ≠ .sql (.policyCreate data) := by
  refine Prog.All.bind (Prog.All.perform (by rintro _ ⟨⟩)) fun policy => ?_
  split
  · trivial
  · refine Prog.All.unless (Prog.All.bind (Prog.All.perform (by rintro _ ⟨⟩)) fun _ => ?_)
    exact Prog.All.perform (by rintro _ ⟨⟩)

/-- A policy is about to be inserted by a request that submits it. -/
theorem submitted_of_pending (hreach : Reach (edge cfg) .any (edgePool cfg arrivals w) q)
    {i : Nat} {data : NewPolicy} {next : Except JsError Policy → Api Response}
    (hcall : q.threads[i]? = some (.call (.sql (.policyCreate data)) next)) :
    ∃ incoming body stamp key ruleConfig, .request incoming ∈ arrivals ∧
      incoming.endpoint = .createPolicy body ∧
      StampVerifierGuard.Admitted cfg (EdgeRun cfg arrivals w q) incoming.request stamp key ∧
      (ScopesGuard.wildcard ∈ key.scopes ∨ Endpoint.policyWrite ∈ key.scopes) ∧
      PolicyService.validateRuleConfig cfg body.ruleType body.ruleConfig = .ok ruleConfig ∧
      data = body.newPolicy key.orgId.toText ruleConfig := by
  obtain ⟨incoming, hat, hlicensed⟩ := licensed_of_pending hreach hcall rfl (by decide)
  have hthread : (edgePool cfg arrivals w).threads[i]? = some (incoming.handle cfg) :=
    edgePool_thread hat
  have heffects := hlicensed.mem
  cases hendpoint : incoming.endpoint with
  | createPolicy body =>
    have hgiven : (incoming.handle cfg).Given (Answered (edge cfg) .any (edgePool cfg arrivals w) q i)
        (fun command => ∀ data, command = .sql (.policyCreate data) → ∃ stamp key ruleConfig,
          StampVerifierGuard.Admitted cfg (EdgeRun cfg arrivals w q) incoming.request stamp key ∧
          (ScopesGuard.wildcard ∈ key.scopes ∨ Endpoint.policyWrite ∈ key.scopes) ∧
          PolicyService.validateRuleConfig cfg body.ruleType body.ruleConfig = .ok ruleConfig ∧
          data = body.newPolicy key.orgId.toText ruleConfig) (fun _ => True) := by
      refine Incoming.handle_given tells_of_answered (fun command hissued => ?_)
        (fun user hthrough => ?_) fun _ => trivial
      · rintro _ rfl
        cases hissued
      · obtain ⟨stamp, key, rfl, hadmitted, hholds⟩ := hthrough.holder (by rw [hendpoint]; rfl)
        rw [hendpoint]
        refine given_ofExcept_bind (fun orgId horg => ?_) fun _ _ => trivial
        cases horg
        refine .of_all (all_map (all_map (all_ofExcept_bind fun ruleConfig hconfig => ?_)))
        refine Prog.All.perform ?_
        rintro _ ⟨⟩
        exact ⟨stamp, key, ruleConfig, hadmitted, hholds, hconfig, rfl⟩
    obtain ⟨stamp, key, ruleConfig, hadmitted, hholds, hconfig, hdata⟩ :=
      Reach.pending rfl hreach hthread hgiven hcall data rfl
    exact ⟨incoming, body, stamp, key, ruleConfig, List.mem_of_getElem? hat, hendpoint, hadmitted,
      hholds, hconfig, hdata⟩
  | deletePolicy policyId =>
    have hnone := Reach.pending (P := fun command => ∀ data, command ≠ .sql (.policyCreate data)) rfl
      hreach hthread (Q := fun _ => True) ?_ hcall
    · exact absurd rfl (hnone data)
    · refine Incoming.handle_given tells_of_answered (fun command hissued => ?_)
        (fun user _ => ?_) fun _ => trivial
      · rintro _ rfl
        cases hissued
      · rw [hendpoint]
        refine given_ofExcept_bind (fun orgId _ => .of_all (all_map (all_map ?_))) fun _ _ => trivial
        exact PolicyService.deletePolicy_inserts_none orgId policyId
  | _ =>
    rw [hendpoint] at heffects
    simp [Endpoint.effects] at heffects

/-- In every state that is reached from empty tables every policy was submitted. -/
theorem policies_submitted {clock : Int} {violation : JsError} {p : EdgePool}
    (hreach : Reach (edge cfg) .any (edgePool cfg arrivals (ApiWorld.empty clock violation)) p) :
    ∀ policy ∈ p.state.tables.base.policies, ∃ incoming body stamp key,
      Submitted cfg (EdgeRun cfg arrivals (ApiWorld.empty clock violation) p)
        arrivals policy incoming body stamp key := by
  refine Reach.forward (J := fun q => ∀ policy ∈ q.state.tables.base.policies,
    ∃ incoming body stamp key, Submitted cfg
      (EdgeRun cfg arrivals (ApiWorld.empty clock violation) p) arrivals policy incoming body
      stamp key) ?_ ?_ ?_ hreach
  · exact fun _ h => absurd h List.not_mem_nil
  · rintro q q' i choice command next reply hq hsubmitted hcall hadm hstep hexec _ hhistory hq'
    have hrest : Reach (edge cfg) .any q p := Reach.trans (.move .refl hadm hstep) hq'
    have hlawful : command.Lawful cfg := by
      have hmove : Reach (edge cfg) .any
        (edgePool cfg arrivals (ApiWorld.empty clock violation)) q' :=
        .move hq hadm hstep
      exact edge_lawful hmove (entryOf i command choice reply) (hhistory ▸ .head _)
    cases ApiCmd.exec_policies hexec with
    | kept hpolicies => exact hpolicies ▸ hsubmitted
    | @updated policyId status id hpolicies =>
      have hinactive : status = .inactive := hlawful
      intro policy hpolicy
      obtain ⟨row, hrow, rfl⟩ := List.mem_map.mp (hpolicies ▸ hpolicy)
      obtain ⟨incoming, body, stamp, key, h⟩ := hsubmitted row hrow
      exact ⟨incoming, body, stamp, key, h.advance (hinactive ▸ advance_updatePolicy id row)⟩
    | @inserted data id row t hfresh hcreate hpolicies =>
      intro policy hpolicy
      rcases List.mem_append.mp (hpolicies ▸ hpolicy) with hold | hnew
      · exact hsubmitted policy hold
      · obtain ⟨incoming, body, stamp, key, ruleConfig, harrived, hendpoint, hadmitted, hholds,
          hconfig, rfl⟩ := submitted_of_pending hq hcall
        obtain ⟨_, ⟨r, hr, rfl, _⟩, hfound⟩ := hadmitted.found
        have hsound := keys_sound hr key (List.mem_of_find?_eq_some hfound)
        have hown : row.orgId = key.orgId := by
          obtain ⟨org, target, horg, _, rfl, _⟩ := PolicyRowRepository.create_eq_ok hcreate
          rw [CreatePolicyDto.newPolicy, Uuid.ofText_toText, Option.some.injEq] at horg
          exact horg.symm
        rw [List.mem_singleton.mp hnew]
        exact ⟨incoming, body, stamp, key,
          { arrived := harrived
            endpoint := hendpoint
            admitted := hadmitted.mono fun _ hvisits => hvisits.mono hrest
            scope := hholds.resolve_left hsound.no_wildcard
            own := hown
            accepted := ⟨row, accepts_of_create hconfig hfresh hcreate, .refl row⟩ }⟩
  · rintro q q' event _ hsubmitted _ hexec _ _ _
    rw [← Option.some.inj hexec]
    cases event with
    | tick duration => exact hsubmitted
    | evict keep => exact hsubmitted

end Runs

/-! ### Enforcement -/

/-- The request is within the policy that was submitted; calldata without a selector is
    within any list. -/
def CreatePolicyDto.Admits (cfg : Config) (body : CreatePolicyDto) (req : SignRequest)
    (now : Int) : Prop :=
  match body.ruleType with
  | .calldataAllowlist => req.calldataBytes < 4 ∨ Listed body req
  | _ => Satisfied cfg body req.toAddr req.value now

namespace PolicyMeaning

open PolicyService CalldataPolicies

theorem calldata_decides {cfg : ApiConfig} {body : CreatePolicyDto} {row : Policy}
    {req : SignRequest} (haccepts : Accepts cfg body row)
    (htype : body.ruleType = .calldataAllowlist) (hlength : 2 ≤ req.data.length) (now : Int) :
    Decides (evaluateRule cfg.services row (WalletService.policyPayload cfg.services req) now)
      (req.calldataBytes < 4 ∨ Listed body req) := by
  have hstores := accepts_stores haccepts
  have hpasses := calldata_passes haccepts htype hlength now
  have hrule : evaluateRule cfg.services row (WalletService.policyPayload cfg.services req) now =
      .ok (calldataAllowlist row (WalletService.policyPayload cfg.services req)) := by
    simp only [evaluateRule, hstores.ruleType, htype]
  refine ⟨_, hrule, ?_, ?_⟩
  · rw [← hpasses, Passes, hrule]
    simp
  · have hconfig := hstores.config
    unfold validateRuleConfig at hconfig
    split at hconfig
    · rw [htype] at hconfig
      simp only [calldataAllowlist, stored_entries hconfig]
      split
      · exact legible_allowed
      · split
        · exact legible_allowed
        · exact legible_denied (by simp)
    · simp at hconfig

/-- A policy is enforced as it was submitted, also after it was updated. -/
theorem submitted_decides {cfg : ApiConfig} {body : CreatePolicyDto} {policy : Policy}
    (haccepted : ∃ row, Accepts cfg body row ∧ row.Advance policy) (dto : SignTransactionDto)
    (now : Int) :
    Decides (evaluateRule cfg.services policy
      (WalletService.policyPayload cfg.services dto.txFields) now)
      (body.Admits cfg.services dto.txFields now) := by
  obtain ⟨row, haccepts, hadvance⟩ := haccepted
  rw [evaluateRule_advance hadvance]
  by_cases htype : body.ruleType = .calldataAllowlist
  · have hlength : 2 ≤ dto.txFields.data.length := by
      obtain ⟨digits, hdata, _⟩ := isCalldata_eq_true dto.data_calldata
      simp [hdata]
    have hadmits : body.Admits cfg.services dto.txFields now ↔
        (dto.txFields.calldataBytes < 4 ∨ Listed body dto.txFields) := by
      rw [CreatePolicyDto.Admits, htype]
    rw [hadmits]
    exact calldata_decides haccepts htype hlength now
  · have hadmits : body.Admits cfg.services dto.txFields now ↔
        Satisfied cfg.services body dto.txFields.toAddr dto.txFields.value now := by
      rw [CreatePolicyDto.Admits]
      split
      · rename_i hcalldata
        exact absurd hcalldata htype
      · exact Iff.rfl
    rw [hadmits]
    exact rule_decides haccepts htype dto.value_decimal now

end PolicyMeaning

open PolicyMeaning in
/-- **The engine enforces what was submitted, and nothing else.**  In every state that the
    API reaches from empty tables each policy was submitted by a request that was stamped
    by a key of its org with `policy:write`; and an evaluation there returns a result unless
    a statement was not answered or an id is no uuid, and allows a validated request
    exactly if some active policy applies to the wallet and what was submitted for each
    that does admits the request. -/
theorem evaluate_allow_iff_submitted {cfg : ApiConfig} {arrivals : List Arrival}
    {clock : Int} {violation : JsError} {p : EdgePool}
    (hreach : Reach (edge cfg) .any (edgePool cfg arrivals (ApiWorld.empty clock violation)) p)
    {orgId walletId : Text} {dto : SignTransactionDto}
    {outcome : Except JsError PolicyEvaluationResult} {w' : World} {history : List ServiceEntry}
    (hrun : Completes (services cfg.services) .any
      (PolicyService.evaluate cfg.services orgId walletId
        (WalletService.policyPayload cfg.services dto.txFields)) p.state.view [] outcome w' history) :
    ∃ submitted : Policy → CreatePolicyDto,
      (∀ policy ∈ p.state.tables.base.policies, ∃ incoming stamp key,
        Submitted cfg (EdgeRun cfg arrivals (ApiWorld.empty clock violation) p)
          arrivals policy incoming (submitted policy) stamp key) ∧
      (Failed orgId walletId outcome history ∨ ∃ result, outcome = .ok result ∧
        (result.decision = .allow ↔
          (∃ policy, Applies p.state.view.tables orgId walletId policy) ∧
          ∀ policy, Applies p.state.view.tables orgId walletId policy →
            (submitted policy).Admits cfg.services dto.txFields p.state.clock) ∧
        ∀ policy, result ≠ PolicyService.invalidConfig policy) := by
  have hsubmitted : ∀ policy : Policy, ∃ body, policy ∈ p.state.tables.base.policies →
      ∃ incoming stamp key, Submitted cfg
        (EdgeRun cfg arrivals (ApiWorld.empty clock violation) p) arrivals
        policy incoming body stamp key := by
    intro policy
    by_cases hpolicy : policy ∈ p.state.tables.base.policies
    · obtain ⟨incoming, body, stamp, key, h⟩ := policies_submitted hreach policy hpolicy
      exact ⟨body, fun _ => ⟨incoming, stamp, key, h⟩⟩
    · exact ⟨⟨[], .spendLimit, .null, none, none, none⟩, fun hmem => absurd hmem hpolicy⟩
  choose submitted hsubmitted using hsubmitted
  refine ⟨submitted, fun policy hpolicy => hsubmitted policy hpolicy, ?_⟩
  rcases hrun.meets (evaluate_returns p.state.view []) with hfailed | ⟨policies, hcoverage, hreturned⟩
  · exact .inl hfailed
  · apply Or.inr
    have hrules : ∀ policy ∈ policies, Decides (PolicyService.evaluateRule cfg.services policy
        (WalletService.policyPayload cfg.services dto.txFields) p.state.clock)
        ((submitted policy).Admits cfg.services dto.txFields p.state.clock) := by
      intro policy hpolicy
      have happlies := (mem_coverage hcoverage).mp hpolicy
      obtain ⟨incoming, stamp, key, h⟩ := hsubmitted policy happlies.1
      exact submitted_decides h.accepted dto p.state.clock
    obtain ⟨result, hresult, hallow, hlegible⟩ := ruling_decides hrules
    simp only [mem_coverage hcoverage] at hallow
    exact ⟨result, hreturned.trans hresult, hallow, hlegible⟩

/-- The first key submits a calldata allowlist. -/
def ApiSample.submission : Incoming :=
  firstUse "/policies".toList (.createPolicy CalldataPolicies.transfersBody)

open ApiSample in
/-- A request without calldata is admitted by the allowlist that was submitted. -/
theorem evaluate_allow_iff_submitted_allowlist : ∃ p outcome w' history,
    Reach (edge config) .any
      (edgePool config (founding submission) (ApiWorld.empty 0 wrappedViolation)) p ∧
      Completes (services config.services) .any
        (PolicyService.evaluate config.services org.toText Sample.wallet.toText
          (WalletService.policyPayload config.services PolicyMeaning.nothing.txFields))
        p.state.view [] outcome w' history ∧
      p.state.tables.base.policies ≠ [] ∧ outcome = .ok PolicyService.allowed ∧
      ∃ submitted : Policy → CreatePolicyDto,
        (∀ policy ∈ p.state.tables.base.policies, ∃ incoming stamp key,
          Submitted config
            (EdgeRun config (founding submission) (ApiWorld.empty 0 wrappedViolation) p)
            (founding submission) policy incoming (submitted policy) stamp key) ∧
        (Failed org.toText Sample.wallet.toText outcome history ∨ ∃ result, outcome = .ok result ∧
          (result.decision = .allow ↔
            (∃ policy, Applies p.state.view.tables org.toText Sample.wallet.toText policy) ∧
            ∀ policy, Applies p.state.view.tables org.toText Sample.wallet.toText policy →
              (submitted policy).Admits config.services PolicyMeaning.nothing.txFields
                p.state.clock) ∧
          ∀ policy, result ≠ PolicyService.invalidConfig policy) := by
  obtain ⟨p, hreach, hp⟩ := Reach.exists_of_run (edge config) .any
    (edgePool config (founding submission) (ApiWorld.empty 0 wrappedViolation)) foundingMoves
    (fun p => !p.state.tables.base.policies.isEmpty &&
      ((services config.services).complete .any [Sample.run, Sample.run, Sample.run]
        (PolicyService.evaluate config.services org.toText Sample.wallet.toText
          (WalletService.policyPayload config.services PolicyMeaning.nothing.txFields))
        p.state.view []).any
          fun final : Except JsError PolicyEvaluationResult × World × List ServiceEntry =>
            decide (final.1.toOption = some PolicyService.allowed)) (by decide)
  obtain ⟨hsome, hcompletes⟩ := Bool.and_eq_true_iff.mp hp
  obtain ⟨outcome, w', history, hrun, hallowed⟩ := Completes.exists_of_complete _ _ _ _ _ _ hcompletes
  have hpolicies : p.state.tables.base.policies ≠ [] := by
    intro hnone
    rw [hnone] at hsome
    cases hsome
  have houtcome : outcome = .ok PolicyService.allowed := by
    cases outcome with
    | ok result => exact congrArg Except.ok (Option.some.inj (of_decide_eq_true hallowed))
    | error error => cases of_decide_eq_true hallowed
  exact ⟨p, outcome, w', history, hreach, hrun, hpolicies, houtcome,
    evaluate_allow_iff_submitted hreach hrun⟩

end BrokeTurnkey
