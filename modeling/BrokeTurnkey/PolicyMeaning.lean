import BrokeTurnkey.Api.SignTransactionDto
import BrokeTurnkey.Api.Footprint
import BrokeTurnkey.PolicyCoverage

/-!
# Policies mean what was submitted

A configuration is checked and normalised when its policy is created, and read again
with other code when a request is evaluated.  The two agree: what the evaluation
decides from the stored configuration is what the submitted one says, no stored
configuration is invalid, and the order of the policies does not matter.
-/

namespace BrokeTurnkey

open Interaction

/-! ### What was submitted -/

/-- A call of `createPolicy` was answered with the row. -/
def Accepts (cfg : ApiConfig) (body : CreatePolicyDto) (row : Policy) : Prop :=
  ∃ orgId w w' history, Completes (api cfg) .any (PolicyService.createPolicy cfg orgId body)
    w [] (.ok row) w' history

/-- The addresses of a configuration. -/
def CreatePolicyDto.addresses (body : CreatePolicyDto) : List Text :=
  match body.ruleConfig.get? "addresses".toList with
  | some (.arr items) => items.filterMap Json.str?
  | _ => []

/-- A text of a configuration. -/
def CreatePolicyDto.text (body : CreatePolicyDto) (field : String) : Option Text :=
  (body.ruleConfig.get? field.toList).bind Json.str?

/-- The transaction is within the policy, for the four rules that do not look at calldata. -/
def Satisfied (cfg : Config) (body : CreatePolicyDto) (toAddr value : Text) (now : Int) : Prop :=
  match body.ruleType with
  | .addressBlocklist => ∀ address ∈ body.addresses, Text.lower address ≠ Text.lower toAddr
  | .addressAllowlist =>
    body.addresses = [] ∨ ∃ address ∈ body.addresses, Text.lower address = Text.lower toAddr
  | .spendLimit => ∃ limit maxAmount amount, body.text "max_amount_wei" = some limit ∧
      Text.parseDecimal limit = some maxAmount ∧ Text.parseDecimal value = some amount ∧
      amount ≤ maxAmount
  | .timeLock => ∃ start finish startTime endTime, body.text "start_time" = some start ∧
      body.text "end_time" = some finish ∧ cfg.parseDate start = some startTime ∧
      cfg.parseDate finish = some endTime ∧ startTime ≤ now ∧ now ≤ endTime
  | .calldataAllowlist | .other _ => True

/-- An active policy of the org that is about all wallets or about this one. -/
def Applies (t : Tables) (orgId walletId : Text) (policy : Policy) : Prop :=
  policy ∈ t.policies ∧ Uuid.ofText orgId = some policy.orgId ∧ policy.status = .active ∧
    (policy.appliesTo = .all ∨
      policy.appliesTo = .wallet ∧ policy.targetId.map Uuid.toText = some walletId)

/-- A call failed on a statement that was not run, or whose answer was lost, or that was
    given an id that is no uuid. -/
def Failed {α : Type} (orgId walletId : Text) (outcome : Except JsError α)
    (history : List ServiceEntry) : Prop :=
  ∃ error, outcome = .error error ∧ ∃ entry ∈ history, entry.answered = false ∧
    (entry.choice.ran = false ∨ entry.choice.isLost = true ∨ Uuid.ofText orgId = none ∨
      Uuid.ofText walletId = none)

namespace PolicyMeaning

open PolicyService

/-! ### What is stored -/

/-- The row holds what was submitted, the configuration normalised. -/
structure Stores (cfg : ApiConfig) (body : CreatePolicyDto) (row : Policy) : Prop where
  config : validateRuleConfig cfg body.ruleType body.ruleConfig = .ok row.ruleConfig
  ruleType : row.ruleType = body.ruleType
  appliesTo : row.appliesTo = body.appliesTo.getD .all
  targetId : parseOptionUuid body.targetId = .ok row.targetId

theorem policyCreate_stores {cfg : ApiConfig} {body : CreatePolicyDto} {orgId : Text}
    {ruleConfig : Json} (hconfig : validateRuleConfig cfg body.ruleType body.ruleConfig =
      .ok ruleConfig) {id : Uuid} {t t' : ApiTables} {row : Policy}
    (h : PolicyRowRepository.create
      { orgId, name := body.name, ruleType := body.ruleType, ruleConfig,
        appliesTo := body.appliesTo.getD .all, targetId := body.targetId,
        priority := body.priority.getD 0, status := .active } id t = .ok (row, t')) :
    Stores cfg body row := by
  obtain ⟨org, target, _, htarget, rfl, _⟩ := PolicyRowRepository.create_eq_ok h
  exact ⟨hconfig, rfl, rfl, htarget⟩

theorem accepts_stores {cfg : ApiConfig} {body : CreatePolicyDto} {row : Policy}
    (h : Accepts cfg body row) : Stores cfg body row := by
  obtain ⟨orgId, w, w', history, hrun⟩ := h
  refine hrun.meets (Q := fun outcome _ _ => ∀ row, outcome = .ok row → Stores cfg body row)
    (meets_ofExcept_bind (fun ruleConfig hconfig => ?_) fun error _ => by simp) row rfl
  refine Meets.perform fun choice reply w' _ hexec => ?_
  rcases ApiCmd.exec_sql hexec with ⟨id, _, _, ⟨_, heq⟩ | ⟨_, _, _, heq⟩⟩ | ⟨_, _, _, heq, _⟩
  · intro row hrow
    rw [hrow] at heq
    simp only [ApiSql.exec, ApiTables.write] at heq
    split at heq
    · rename_i value t' hcreate
      have hvalue : row = value := Except.ok.inj heq
      rw [hvalue]
      exact policyCreate_stores hconfig hcreate
    · simp at heq
  · simp [heq]
  · simp [heq]

/-! ### Reading it back -/

theorem mapM_map {α β γ : Type} {f : β → Option γ} {g : α → β} {h : α → γ}
    (hf : ∀ x, f (g x) = some (h x)) (l : List α) : (l.map g).mapM f = some (l.map h) := by
  induction l with
  | nil => rfl
  | cons x rest ih => simp [List.mapM_cons, hf, ih]

theorem filterMap_of_mapM {α β : Type} {f : α → Option β} {l : List α} : ∀ {l' : List β},
    l.mapM f = some l' → l.filterMap f = l' := by
  induction l with
  | nil => simp
  | cons x rest ih =>
    intro l' h
    rw [List.mapM_cons] at h
    cases hx : f x with
    | none => simp [hx] at h
    | some y =>
      cases hrest : rest.mapM f with
      | none => simp [hx, hrest] at h
      | some ys =>
        simp only [hx, hrest, Option.bind_eq_bind, Option.bind_some, Option.pure_def,
          Option.some.injEq] at h
        rw [List.filterMap_cons_some hx, ih hrest, h]

theorem addresses_of_isAddressList {body : CreatePolicyDto} {addresses : List Text}
    (h : isAddressList (body.ruleConfig.get? "addresses".toList) = some addresses) :
    body.addresses = addresses := by
  unfold CreatePolicyDto.addresses
  cases hfield : body.ruleConfig.get? "addresses".toList with
  | none =>
    rw [hfield] at h
    simp [isAddressList] at h
  | some field =>
    rw [hfield] at h
    cases field with
    | arr items => exact filterMap_of_mapM h
    | _ => simp [isAddressList] at h

/-- The result is not the one for an invalid configuration. -/
def Legible (result : PolicyEvaluationResult) : Prop := ∀ policy, result ≠ invalidConfig policy

theorem legible_allowed : Legible allowed := by simp [Legible, allowed, invalidConfig, denied]

theorem legible_denied {reason : Text} (h : reason.head? ≠ some 'P') : Legible (denied reason) := by
  intro policy heq
  simp only [invalidConfig, denied, PolicyEvaluationResult.mk.injEq, Option.some.injEq,
    true_and] at heq
  rw [heq] at h
  exact h (by simp)

/-- The rule is evaluated to an allowance exactly if `P`, and never found invalid. -/
def Decides (result : Except JsError PolicyEvaluationResult) (P : Prop) : Prop :=
  ∃ value, result = .ok value ∧ (value.decision = .allow ↔ P) ∧ Legible value

theorem decides_if {c P : Prop} [Decidable c] {reason : Text} (hreason : reason.head? ≠ some 'P')
    (h : ¬c ↔ P) : Decides (.ok (if c then denied reason else allowed)) P := by
  by_cases hc : c
  · refine ⟨denied reason, by rw [if_pos hc], ?_, legible_denied hreason⟩
    simp [denied, ← h, hc]
  · refine ⟨allowed, by rw [if_neg hc], ?_, legible_allowed⟩
    simp [allowed, ← h, hc]

section Rules

variable {cfg : ApiConfig} {body : CreatePolicyDto} {row : Policy} {txPayload : TxPayload}

/-- The stored addresses are the submitted ones in lower case. -/
theorem stored_addresses (h : validateAddresses cfg body.ruleConfig = .ok row.ruleConfig) :
    isAddressList (row.ruleConfig.get? "addresses".toList) =
      some (body.addresses.map Text.lower) := by
  unfold validateAddresses at h
  split at h
  · rename_i addresses hlist
    split at h
    · rw [Except.ok.injEq] at h
      rw [← h, addresses_of_isAddressList hlist]
      exact mapM_map (f := Json.str?) (h := Text.lower) (fun _ => rfl) addresses
    · simp at h
  · simp at h

theorem blocklist_decides (h : validateAddresses cfg body.ruleConfig = .ok row.ruleConfig) :
    Decides (.ok (addressBlocklist row txPayload))
      (∀ address ∈ body.addresses, Text.lower address ≠ Text.lower txPayload.toAddr) := by
  simp only [addressBlocklist, addressRule, stored_addresses h]
  apply decides_if (by simp)
  simp

theorem allowlist_decides (h : validateAddresses cfg body.ruleConfig = .ok row.ruleConfig) :
    Decides (.ok (addressAllowlist row txPayload))
      (body.addresses = [] ∨
        ∃ address ∈ body.addresses, Text.lower address = Text.lower txPayload.toAddr) := by
  simp only [addressAllowlist, addressRule, stored_addresses h]
  apply decides_if (by simp)
  have hmem : (body.addresses.map Text.lower).contains (Text.lower txPayload.toAddr) = true ↔
      ∃ address ∈ body.addresses, Text.lower address = Text.lower txPayload.toAddr := by
    rw [List.contains_iff_mem, List.mem_map]
  rw [hmem, List.length_map, List.length_pos_iff, ne_eq, not_and_or, not_not, not_not]

theorem spendLimit_decides (h : validateSpendLimit body.ruleConfig = .ok row.ruleConfig)
    (hvalue : isDecimalString txPayload.value = true) :
    Decides (spendLimit row txPayload)
      (∃ limit maxAmount amount, body.text "max_amount_wei" = some limit ∧
        Text.parseDecimal limit = some maxAmount ∧
        Text.parseDecimal txPayload.value = some amount ∧ amount ≤ maxAmount) := by
  unfold validateSpendLimit at h
  split at h
  · rename_i limit hlimit
    split at h
    · rename_i hdecimal
      rw [Except.ok.injEq] at h
      obtain ⟨maxAmount, hread, hmax⟩ := bigInt_of_isDecimalString hdecimal
      obtain ⟨amount, hreadAmount, hamount⟩ := bigInt_of_isDecimalString hvalue
      have hstored : (row.ruleConfig.get? "max_amount_wei".toList).bind Json.str? = some limit := by
        rw [← h]
        rfl
      have hresult : spendLimit row txPayload = .ok (if (amount : Int) > maxAmount then
          denied ("Transaction value ".toList ++ Text.decimalInt amount ++
            " exceeds limit ".toList ++ Text.decimalInt maxAmount) else allowed) := by
        rw [spendLimit, hstored]
        simp only [hdecimal, hmax, hamount]
        by_cases hgt : (amount : Int) > maxAmount
        · rw [if_neg (by simp), if_pos hgt, if_pos hgt]
        · rw [if_neg (by simp), if_neg hgt, if_neg hgt]
      have hwithin : ¬(amount : Int) > maxAmount ↔
          ∃ limit maxAmount amount, body.text "max_amount_wei" = some limit ∧
            Text.parseDecimal limit = some maxAmount ∧
            Text.parseDecimal txPayload.value = some amount ∧ amount ≤ maxAmount := by
        have htext : body.text "max_amount_wei" = some limit := hlimit
        constructor
        · intro hle
          exact ⟨limit, maxAmount, amount, htext, hread, hreadAmount, by omega⟩
        · rintro ⟨limit', maxAmount', amount', htext', hread', hreadAmount', hle⟩
          rw [htext, Option.some.injEq] at htext'
          subst htext'
          rw [hread, Option.some.injEq] at hread'
          rw [hreadAmount, Option.some.injEq] at hreadAmount'
          omega
      rw [hresult]
      exact decides_if (by simp) hwithin
    · simp at h
  · simp at h

theorem timeLock_decides (h : validateTimeLock cfg body.ruleConfig = .ok row.ruleConfig)
    (now : Int) :
    Decides (.ok (timeLock cfg.services row now))
      (∃ start finish startTime endTime, body.text "start_time" = some start ∧
        body.text "end_time" = some finish ∧ cfg.services.parseDate start = some startTime ∧
        cfg.services.parseDate finish = some endTime ∧ startTime ≤ now ∧ now ≤ endTime) := by
  unfold validateTimeLock at h
  split at h
  · rename_i start finish hstart hfinish
    split at h
    · rename_i startTime endTime hstartTime hendTime
      split at h
      · simp at h
      · rename_i hbefore
        rw [Except.ok.injEq] at h
        have hstoredStart : (row.ruleConfig.get? "start_time".toList).bind Json.str? =
            some start := by
          rw [← h]
          rfl
        have hstoredEnd : (row.ruleConfig.get? "end_time".toList).bind Json.str? =
            some finish := by
          rw [← h]
          rfl
        have hresult : timeLock cfg.services row now =
            if now < startTime ∨ now > endTime then
              denied "Current time is outside the allowed signing window".toList
            else allowed := by
          rw [timeLock, hstoredStart, hstoredEnd]
          simp only [hstartTime, hendTime, if_neg hbefore]
        have htextStart : body.text "start_time" = some start := hstart
        have htextEnd : body.text "end_time" = some finish := hfinish
        rw [hresult]
        apply decides_if (by decide)
        constructor
        · intro hinside
          exact ⟨start, finish, startTime, endTime, htextStart, htextEnd, hstartTime, hendTime,
            by omega, by omega⟩
        · rintro ⟨start', finish', startTime', endTime', htext, htext', hread, hread', hle, hle'⟩
          rw [htextStart, Option.some.injEq] at htext
          rw [htextEnd, Option.some.injEq] at htext'
          subst htext htext'
          rw [hstartTime, Option.some.injEq] at hread
          rw [hendTime, Option.some.injEq] at hread'
          omega
    · simp at h
  · simp at h

end Rules

theorem rule_decides {cfg : ApiConfig} {body : CreatePolicyDto} {row : Policy}
    {txPayload : TxPayload} (haccepts : Accepts cfg body row)
    (htype : body.ruleType ≠ .calldataAllowlist)
    (hvalue : isDecimalString txPayload.value = true) (now : Int) :
    Decides (evaluateRule cfg.services row txPayload now)
      (Satisfied cfg.services body txPayload.toAddr txPayload.value now) := by
  have hstores := accepts_stores haccepts
  have hconfig := hstores.config
  unfold validateRuleConfig at hconfig
  split at hconfig
  · rename_i fields hobj
    simp only [evaluateRule, hstores.ruleType, Satisfied]
    cases hrule : body.ruleType with
    | addressBlocklist =>
      rw [hrule] at hconfig
      exact blocklist_decides hconfig
    | addressAllowlist =>
      rw [hrule] at hconfig
      exact allowlist_decides hconfig
    | spendLimit =>
      rw [hrule] at hconfig
      exact spendLimit_decides hconfig hvalue
    | timeLock =>
      rw [hrule] at hconfig
      exact timeLock_decides hconfig now
    | calldataAllowlist => exact absurd hrule htype
    | other name => simp [hrule] at hconfig
  · simp at hconfig

/-! ### What an evaluation returns -/

section Evaluation

variable {cfg : Config} {orgId walletId : Text} {txPayload : TxPayload}

/-- The first denial of the policies in order, or an allowance. -/
def firstDenial (cfg : Config) (txPayload : TxPayload) (now : Int) :
    List Policy → Except JsError PolicyEvaluationResult
  | [] => .ok allowed
  | policy :: rest =>
    match evaluateRule cfg policy txPayload now with
    | .error error => .error error
    | .ok result =>
      if result.decision = .deny then .ok result else firstDenial cfg txPayload now rest

/-- What the policies that apply come to. -/
def ruling (cfg : Config) (txPayload : TxPayload) (now : Int) :
    List Policy → Except JsError PolicyEvaluationResult
  | [] => .ok (denied noPolicyReason)
  | policy :: rest => firstDenial cfg txPayload now (policy :: rest)

/-- A call returned this, or failed because a statement did. -/
def Returns {α : Type} (orgId walletId : Text) (expected : Except JsError α)
    (outcome : Except JsError α) (_ : World) (history : List ServiceEntry) : Prop :=
  outcome = expected ∨ Failed orgId walletId outcome history

/-- The error of a statement that answers uuids. -/
theorem Failed.of_sql {α : Type} {statement : Sql} {choice : Choice} {w w' : World}
    {error : JsError} {history : List ServiceEntry}
    (hexec : exec (.sql statement) choice w = some (.error error, w'))
    (hok : Uuid.ofText orgId ≠ none → Uuid.ofText walletId ≠ none →
      ∀ id, (statement.exec id w.clock w.tables).1.isOk = true) :
    Failed (α := α) orgId walletId (.error error)
      (@entryOf Cmd Cmd.Reply JsError Choice 0 (.sql statement) choice (.error error) ::
        history) := by
  refine ⟨error, rfl, _, List.mem_cons_self, rfl, ?_⟩
  rcases exec_sql hexec with ⟨id, _, _, ⟨_, heq⟩ | ⟨_, rfl, _, _⟩⟩ | ⟨_, rfl, _, _, _⟩
  · by_cases horg : Uuid.ofText orgId = none
    · exact .inr (.inr (.inl horg))
    · by_cases hwallet : Uuid.ofText walletId = none
      · exact .inr (.inr (.inr hwallet))
      · have hanswered := hok horg hwallet id
        rw [← heq] at hanswered
        cases hanswered
  · exact .inr (.inl rfl)
  · exact .inl rfl

theorem audit_returns {status : AuditStatus} {metadata : AuditMetadata}
    {result : PolicyEvaluationResult} {w : World} {history : List ServiceEntry} :
    Meets (services cfg) .any (Returns orgId walletId (.ok result))
      (do
        auditEvaluation orgId walletId status metadata
        return result) w history := by
  intro choice reply w' _ hexec
  cases reply with
  | ok value => exact .inl rfl
  | error error =>
    refine .inr (Failed.of_sql hexec fun horg hwallet id => ?_)
    obtain ⟨org, horg⟩ := Option.ne_none_iff_exists'.mp horg
    obtain ⟨wallet, hwallet⟩ := Option.ne_none_iff_exists'.mp hwallet
    simp only [Sql.exec, AuditLogRepository.create, withOptionUuid, withUuid, horg, hwallet]
    rfl

theorem evaluatePolicies_returns {w : World} (policiesChecked : Nat) (policies : List Policy) :
    ∀ history, Meets (services cfg) .any
      (Returns orgId walletId (firstDenial cfg txPayload w.clock policies))
      (evaluatePolicies cfg orgId walletId txPayload policiesChecked policies) w history := by
  induction policies with
  | nil => exact fun history => audit_returns
  | cons policy rest ih =>
    intro history
    refine Meets.bind (P := fun outcome w' _ => outcome = .ok w.clock ∧ w' = w)
      (Meets.perform fun choice reply w' _ hexec => exec_now hexec) ?_ ?_
    · rintro now w' history' ⟨hnow, rfl⟩
      rw [Except.ok.inj hnow, firstDenial]
      cases evaluateRule cfg policy txPayload w'.clock with
      | error error => exact .inl rfl
      | ok result =>
        by_cases hdeny : result.decision = .deny
        · simp only [hdeny, if_true]
          exact audit_returns
        · simp only [hdeny, if_false]
          exact ih history'
    · rintro error w' history' ⟨hnow, _⟩
      simp at hnow

/-- **An evaluation returns the ruling on the policies that apply.** -/
theorem evaluate_returns (w : World) (history : List ServiceEntry) :
    Meets (services cfg) .any
      (fun outcome _ history' => Failed orgId walletId outcome history' ∨ ∃ policies,
        coverage w.tables orgId walletId = .ok policies ∧
          outcome = ruling cfg txPayload w.clock policies)
      (evaluate cfg orgId walletId txPayload) w history := by
  refine Meets.bind (P := fun outcome w' history' => w' = w ∧
    (Failed orgId walletId outcome history' ∨ ∃ policies, outcome = .ok policies ∧
      (PolicyRepository.findByOrgId orgId .active w.tables).1 = .ok policies))
    (Meets.perform fun choice reply w' _ hexec => ?_) ?_ ?_
  · refine ⟨exec_query rfl hexec, ?_⟩
    cases hreply : reply with
    | error error =>
      rw [hreply] at hexec
      refine .inl (Failed.of_sql hexec fun horg _ id => ?_)
      obtain ⟨org, horg⟩ := Option.ne_none_iff_exists'.mp horg
      simp only [Sql.exec, PolicyRepository.findByOrgId, withUuid, horg]
      rfl
    | ok policies =>
      refine .inr ⟨policies, rfl, ?_⟩
      rcases exec_sql hexec with ⟨id, _, _, ⟨_, heq⟩ | ⟨_, _, _, heq⟩⟩ | ⟨_, _, _, heq, _⟩
      · exact heq.symm.trans hreply
      · simp [hreply] at heq
      · simp [hreply] at heq
  · rintro policies w' history' ⟨rfl, ⟨error, herror, _⟩ | ⟨_, hpolicies, hfound⟩⟩
    · simp at herror
    · rw [Except.ok.injEq] at hpolicies
      subst hpolicies
      have hcoverage : coverage w'.tables orgId walletId = .ok (applicable policies walletId) := by
        rw [coverage, hfound]
        rfl
      apply Meets.mono (P := Returns orgId walletId
        (ruling cfg txPayload w'.clock (applicable policies walletId)))
      · rintro outcome w'' history'' (hreturned | hfailed)
        · exact .inr ⟨_, hcoverage, hreturned⟩
        · exact .inl hfailed
      · split
        · rename_i hnone
          rw [hnone]
          exact audit_returns
        · rename_i policy rest happlicable
          rw [happlicable]
          exact evaluatePolicies_returns _ _ history'
  · rintro error w' history' ⟨rfl, ⟨_, _, hfailed⟩ | ⟨_, hpolicies, _⟩⟩
    · exact .inl ⟨error, rfl, hfailed⟩
    · simp at hpolicies

/-- The policies that are checked are those that apply. -/
theorem mem_coverage {t : Tables} {policies : List Policy}
    (h : coverage t orgId walletId = .ok policies) {policy : Policy} :
    policy ∈ policies ↔ Applies t orgId walletId policy := by
  simp only [coverage, PolicyRepository.findByOrgId, withUuid] at h
  split at h
  · rename_i org horg
    simp only [Except.map, Except.ok.injEq] at h
    rw [← h, applicable, List.mem_filter, PolicyCoverage.mem_active, Applies, horg]
    simp only [appliesToWallet, Option.some.injEq, Bool.or_eq_true, Bool.and_eq_true,
      decide_eq_true_eq, and_assoc, eq_comm (a := org)]
  · simp [Except.map] at h

/-- Each rule of a list decides `P`, so the list decides them all. -/
theorem firstDenial_decides {now : Int} {P : Policy → Prop} {policies : List Policy}
    (h : ∀ policy ∈ policies, Decides (evaluateRule cfg policy txPayload now) (P policy)) :
    Decides (firstDenial cfg txPayload now policies) (∀ policy ∈ policies, P policy) := by
  induction policies with
  | nil => exact ⟨allowed, rfl, by simp [allowed], legible_allowed⟩
  | cons policy rest ih =>
    obtain ⟨result, hresult, hallow, hlegible⟩ := h policy List.mem_cons_self
    have hrest := ih fun policy hpolicy => h policy (List.mem_cons_of_mem _ hpolicy)
    rw [firstDenial, hresult]
    by_cases hdeny : result.decision = .deny
    · simp only [hdeny, if_true]
      refine ⟨result, rfl, ?_, hlegible⟩
      rw [hallow, List.forall_mem_cons]
      constructor
      · intro hp
        rw [hallow.mpr hp] at hdeny
        cases hdeny
      · exact fun hall => hall.1
    · simp only [hdeny, if_false]
      have hp : P policy := by
        apply hallow.mp
        cases hdecision : result.decision with
        | allow => rfl
        | deny => exact absurd hdecision hdeny
      obtain ⟨value, hvalue, hiff, hlegible⟩ := hrest
      refine ⟨value, hvalue, ?_, hlegible⟩
      rw [hiff, List.forall_mem_cons, and_iff_right hp]

theorem ruling_decides {now : Int} {P : Policy → Prop} {policies : List Policy}
    (h : ∀ policy ∈ policies, Decides (evaluateRule cfg policy txPayload now) (P policy)) :
    Decides (ruling cfg txPayload now policies)
      ((∃ policy, policy ∈ policies) ∧ ∀ policy ∈ policies, P policy) := by
  cases policies with
  | nil =>
    refine ⟨denied noPolicyReason, rfl, ?_, legible_denied (by decide)⟩
    simp [denied]
  | cons policy rest =>
    obtain ⟨value, hvalue, hiff, hlegible⟩ := firstDenial_decides h
    refine ⟨value, hvalue, ?_, hlegible⟩
    rw [hiff, and_iff_right ⟨policy, List.mem_cons_self⟩]

end Evaluation

end PolicyMeaning

open PolicyMeaning in
/-- **Policies are enforced as they were submitted.**  An evaluation returns a result unless
    a statement of it was not answered or an id in it is no uuid.  It allows a validated
    request exactly if some active policy applies to the wallet and the request satisfies
    every one that does, and it reports no configuration as invalid. -/
theorem evaluate_allow_iff_satisfied {cfg : ApiConfig} {w w' : World} {orgId walletId : Text}
    {dto : SignTransactionDto} {submitted : Policy → CreatePolicyDto}
    (haccepted : ∀ policy, Applies w.tables orgId walletId policy →
      Accepts cfg (submitted policy) policy ∧
        (submitted policy).ruleType ≠ .calldataAllowlist)
    {outcome : Except JsError PolicyEvaluationResult} {history : List ServiceEntry}
    (hrun : Completes (services cfg.services) .any
      (PolicyService.evaluate cfg.services orgId walletId
        (WalletService.policyPayload cfg.services dto.txFields)) w [] outcome w' history) :
    Failed orgId walletId outcome history ∨ ∃ result, outcome = .ok result ∧
      (result.decision = .allow ↔ (∃ policy, Applies w.tables orgId walletId policy) ∧
        ∀ policy, Applies w.tables orgId walletId policy →
          Satisfied cfg.services (submitted policy) dto.txFields.toAddr dto.txFields.value
            w.clock) ∧
      ∀ policy, result ≠ PolicyService.invalidConfig policy := by
  rcases hrun.meets (evaluate_returns w []) with hfailed | ⟨policies, hcoverage, hreturned⟩
  · exact .inl hfailed
  · apply Or.inr
    rw [hreturned]
    obtain ⟨result, hresult, hallow, hlegible⟩ := @ruling_decides cfg.services
      (WalletService.policyPayload cfg.services dto.txFields) w.clock
      (fun policy => Satisfied cfg.services (submitted policy) dto.txFields.toAddr
        dto.txFields.value w.clock) policies fun policy hpolicy => by
          obtain ⟨haccepts, htype⟩ := haccepted policy ((mem_coverage hcoverage).mp hpolicy)
          exact rule_decides haccepts htype dto.value_decimal w.clock
    simp only [mem_coverage hcoverage] at hallow
    exact ⟨result, hresult, hallow, hlegible⟩

namespace PolicyMeaning

open Sample

/-- A request with no value and no calldata. -/
def nothing : SignTransactionDto where
  txFields :=
    { chainId := 1, toAddr := "0x5aAeb6053F3E94C9b9A09f33669435E7Ef1BeAed".toList,
      value := "0".toList, data := "0x".toList }
  chainId_range := by decide
  toAddr_address := by decide
  value_decimal := by decide
  value_length := by decide
  data_calldata := by decide
  data_length := by decide

/-- The body of `limitRow`. -/
def limitBody : CreatePolicyDto where
  name := "no spending".toList
  ruleType := .spendLimit
  ruleConfig := .obj [("max_amount_wei".toList, .str "0".toList)]
  appliesTo := some .wallet
  targetId := some wallet.toText
  priority := some 1

def onlyLimited : World :=
  { world with tables := { world.tables with policies := [PolicyCoverage.limitRow] } }

theorem accepts_limit : Accepts ApiSample.config limitBody PolicyCoverage.limitRow := by
  have hrun := @Completes.of_complete _ _ _ _ _ _ _ (api ApiSample.config) .any _ _
    [.done (freshId 9)] (PolicyService.createPolicy ApiSample.config org.toText limitBody)
    (ApiWorld.empty 0 wrappedViolation) [] _ rfl
  exact ⟨org.toText, _, _, _, hrun⟩

end PolicyMeaning

open PolicyMeaning Sample in
/-- A request without value is within a limit of zero, and is allowed. -/
theorem evaluate_allow_iff_satisfied_limit :
    ∃ w' history, Completes (services ApiSample.config.services) .any
        (PolicyService.evaluate ApiSample.config.services org.toText wallet.toText
          (WalletService.policyPayload ApiSample.config.services nothing.txFields))
        onlyLimited [] (.ok PolicyService.allowed) w' history ∧
      (∃ policy, Applies onlyLimited.tables org.toText wallet.toText policy) ∧
      ∀ policy, Applies onlyLimited.tables org.toText wallet.toText policy →
        Satisfied ApiSample.config.services limitBody nothing.txFields.toAddr
          nothing.txFields.value onlyLimited.clock := by
  obtain ⟨outcome, w', history, hrun, hallowed⟩ := Completes.exists_of_complete
    (services ApiSample.config.services) .any
    (PolicyService.evaluate ApiSample.config.services org.toText wallet.toText
      (WalletService.policyPayload ApiSample.config.services nothing.txFields))
    onlyLimited [run, run, run]
    (fun final => decide (final.1.toOption = some PolicyService.allowed)) (by decide)
  have houtcome : outcome = .ok PolicyService.allowed := by
    cases outcome with
    | ok result => exact congrArg Except.ok (Option.some.inj (of_decide_eq_true hallowed))
    | error error => cases of_decide_eq_true hallowed
  subst houtcome
  have haccepted : ∀ policy, Applies onlyLimited.tables org.toText wallet.toText policy →
      Accepts ApiSample.config limitBody policy ∧ limitBody.ruleType ≠ .calldataAllowlist := by
    rintro policy ⟨hmem, _⟩
    have hpolicy : policy = PolicyCoverage.limitRow := by simpa [onlyLimited] using hmem
    rw [hpolicy]
    have htype : limitBody.ruleType = .spendLimit := rfl
    exact ⟨accepts_limit, by rw [htype]; simp⟩
  refine ⟨w', history, hrun, ?_⟩
  rcases @evaluate_allow_iff_satisfied ApiSample.config onlyLimited w' org.toText wallet.toText
    nothing (fun _ => limitBody) haccepted (.ok PolicyService.allowed) history hrun with
    ⟨_, herror, _⟩ | ⟨result, hresult, hallow, _⟩
  · cases herror
  · cases hresult
    exact hallow.mp rfl

end BrokeTurnkey
