import BrokeTurnkey.Growth
import BrokeTurnkey.Interaction.Sequential

/-!
# Spellings of a wallet id

The database reads the wallet id of a request as a uuid, so it finds the wallet
under every spelling.  The policy engine compares the same text with the spelling
the database prints for `target_id`.  Two spellings of one wallet are covered by
the same policies exactly if both are that printed spelling, or neither is, or no
active policy of the org is about this wallet alone.
-/

namespace BrokeTurnkey

open Interaction

/-! ### What is being claimed -/

/-- The policies that `evaluate` checks for a wallet id as it was given. -/
def coverage (t : Tables) (orgId walletId : Text) : Except JsError (List Policy) :=
  (PolicyRepository.findByOrgId orgId .active t).1.map fun policies =>
    PolicyService.applicable policies walletId

/-- The decision that an evaluation returned in this step. -/
def decision (entry : ServiceEntry) : Option Decision :=
  match entry.command with
  | .sql (.auditCreate data) =>
    if data.event = .policyEvaluation ∧ entry.answered = true then
      if data.status = .allowed then some .allow else some .deny
    else none
  | _ => none

/-- The decision a call reached, if it reached one. -/
def decided (history : List ServiceEntry) : Option Decision := history.findSome? decision

/-- The runs of two calls from one world, the second with another wallet id, are
    covered by the same policies and do not reach different decisions. -/
def TreatedAlike (cfg : Config) (w : World) (orgId : Text) (req : SignRequest)
    (walletId walletId' : Text) : Prop :=
  coverage w.tables orgId walletId = coverage w.tables orgId walletId' ∧
    ∀ outcome outcome' s s' history history' verdict verdict',
      Completes (services cfg) Guard.any (WalletService.requestSign cfg orgId walletId req)
        w [] outcome s history →
      Completes (services cfg) Guard.any (WalletService.requestSign cfg orgId walletId' req)
        w [] outcome' s' history' →
      decided history = some verdict → decided history' = some verdict' → verdict = verdict'

/-- `findById` resolves the text to this row. -/
def Resolves (t : Tables) (walletId : Text) (row : Wallet) : Prop :=
  (WalletRepository.findById walletId t).1 = .ok (some row)

/-- An active policy of the org is about this wallet alone. -/
def Targeted (t : Tables) (orgId : Text) (wallet : Uuid) : Prop :=
  ∃ policy ∈ t.policies, Uuid.ofText orgId = some policy.orgId ∧ policy.status = .active ∧
    policy.appliesTo = .wallet ∧ policy.targetId = some wallet

namespace PolicyCoverage

open PolicyService

variable {cfg : Config} {t : Tables} {orgId walletId walletId' : Text}

/-! ### The policies that apply -/

theorem uuid_of_resolves {row : Wallet} (h : Resolves t walletId row) :
    Uuid.ofText walletId = some row.id := by
  simp only [Resolves, WalletRepository.findById, withUuid] at h
  split at h
  · rename_i id hid
    have hrow : t.wallet? id = some row := Except.ok.inj h
    rw [hid, Tables.wallet?_id hrow]
  · simp at h

/-- Only a policy about the wallet can tell two of its spellings apart. -/
theorem appliesToWallet_eq {wallet : Uuid} (hid : Uuid.ofText walletId = some wallet)
    (hid' : Uuid.ofText walletId' = some wallet) {policy : Policy}
    (h : policy.appliesTo = .wallet → policy.targetId = some wallet →
      (walletId = wallet.toText ↔ walletId' = wallet.toText)) :
    appliesToWallet policy walletId = appliesToWallet policy walletId' := by
  simp only [appliesToWallet]
  by_cases hwallet : policy.appliesTo = .wallet
  · cases htarget : policy.targetId with
    | none => simp
    | some target =>
      by_cases heq : target = wallet
      · have hiff := h hwallet (by rw [htarget, heq])
        rw [heq]
        simp [eq_comm (a := wallet.toText), hiff]
      · have hne : ∀ {s : Text}, Uuid.ofText s = some wallet → target.toText ≠ s := by
          intro s hs htext
          rw [← htext, Uuid.ofText_toText] at hs
          exact heq (Option.some.inj hs)
        simp [hne hid, hne hid']
  · simp [hwallet]

theorem filter_eq_iff {α : Type} {l : List α} {p q : α → Bool} :
    l.filter p = l.filter q ↔ ∀ x ∈ l, p x = q x := by
  constructor
  · intro heq x hx
    have hmem : x ∈ l.filter p ↔ x ∈ l.filter q := by rw [heq]
    simp only [List.mem_filter, hx, true_and] at hmem
    exact Bool.eq_iff_iff.mpr hmem
  · exact List.filter_congr

theorem mem_active {org : Uuid} {policy : Policy} :
    policy ∈ (t.policies.filter fun row => row.orgId = org ∧ row.status = .active).insertionSort
      (fun a b => b.priority ≤ a.priority) ↔
    policy ∈ t.policies ∧ policy.orgId = org ∧ policy.status = .active := by
  simp

/-- The covering policies are the same exactly under the condition. -/
theorem coverage_eq_iff (t : Tables) (orgId : Text) {wallet : Uuid}
    (hid : Uuid.ofText walletId = some wallet)
    (hid' : Uuid.ofText walletId' = some wallet) :
    coverage t orgId walletId = coverage t orgId walletId' ↔
      (walletId = wallet.toText ↔ walletId' = wallet.toText) ∨ ¬ Targeted t orgId wallet := by
  simp only [coverage, PolicyRepository.findByOrgId, withUuid]
  cases horg : Uuid.ofText orgId with
  | none =>
    constructor
    · rintro -
      apply Or.inr
      rintro ⟨policy, -, hpolicy, -⟩
      rw [horg] at hpolicy
      cases hpolicy
    · intro _
      rfl
  | some org =>
    simp only [Except.map, Except.ok.injEq, applicable, filter_eq_iff, mem_active]
    constructor
    · intro hsame
      by_cases htargeted : Targeted t orgId wallet
      · apply Or.inl
        obtain ⟨policy, hmem, hpolicy, hactive, hwallet, htarget⟩ := htargeted
        rw [horg] at hpolicy
        have happlies := hsame policy ⟨hmem, (Option.some.inj hpolicy).symm, hactive⟩
        simp only [appliesToWallet, hwallet, htarget] at happlies
        simp at happlies
        simpa [eq_comm] using happlies
      · exact Or.inr htargeted
    · rintro hcond policy ⟨hmem, hpolicy, hactive⟩
      apply appliesToWallet_eq hid hid'
      intro hwallet htarget
      apply hcond.resolve_right
      exact fun hnot => hnot ⟨policy, hmem, by rw [horg, hpolicy], hactive, hwallet, htarget⟩

/-! ### The decision is a function of the policies that apply -/

/-- The first denial, or an allowance, or none where a rule cannot be evaluated. -/
def verdict (cfg : Config) (txPayload : TxPayload) (now : Int) : List Policy → Option Decision
  | [] => some .allow
  | policy :: rest =>
    match evaluateRule cfg policy txPayload now with
    | .error _ => none
    | .ok result => if result.decision = .deny then some .deny else verdict cfg txPayload now rest

/-- What an evaluation of these policies returns. -/
def judgement (cfg : Config) (txPayload : TxPayload) (now : Int) :
    Except JsError (List Policy) → Option Decision
  | .error _ => none
  | .ok [] => some .deny
  | .ok (policy :: rest) => verdict cfg txPayload now (policy :: rest)

/-- If a decision was reached, it is this one. -/
def Judged (expected : Option Decision) (history : List ServiceEntry) : Prop :=
  ∀ reached, decided history = some reached → expected = some reached

theorem judged_of_undecided {expected : Option Decision} {history : List ServiceEntry}
    (h : decided history = none) : Judged expected history := by
  intro reached hreached
  rw [h] at hreached
  cases hreached

theorem decided_cons (entry : ServiceEntry) (history : List ServiceEntry) :
    decided (entry :: history) = (decision entry).or (decided history) := by
  simp only [decided, List.findSome?_cons]
  cases decision entry <;> rfl

/-- Commands that are no evaluation's audit row. -/
def Silent : Cmd → Prop
  | .sql (.auditCreate data) => data.event ≠ .policyEvaluation
  | _ => True

theorem decision_silent {command : Cmd} (h : Silent command) (i : Nat) (choice : Choice)
    (reply : Except JsError command.Reply) : decision (entryOf i command choice reply) = none := by
  cases command with
  | sql statement =>
    cases statement with
    | auditCreate data =>
      have hevent : ¬ (data.event = .policyEvaluation ∧ reply.isOk = true) := fun hboth => h hboth.1
      exact if_neg hevent
    | _ => rfl
  | _ => rfl

theorem silent_of_query {command : Cmd} (h : command.isQuery = true) : Silent command := by
  cases command with
  | sql statement =>
    cases statement with
    | auditCreate data => cases h
    | _ => trivial
  | _ => trivial

theorem undecided_cons {command : Cmd} (hsilent : Silent command) {history : List ServiceEntry}
    (h : decided history = none) (i : Nat) (choice : Choice)
    (reply : Except JsError command.Reply) :
    decided (entryOf i command choice reply :: history) = none := by
  rw [decided_cons, decision_silent hsilent, Option.none_or]
  exact h

section Run

variable {w : World} {history : List ServiceEntry} {expected : Option Decision}

theorem silent_meets {α : Type} {p : Js α} (hp : p.All Silent) (h : Judged expected history) :
    Meets (services cfg) Guard.any (fun _ _ history' => Judged expected history') p w history := by
  refine Meets.of_all (J := fun _ history' => Judged expected history') ?_ h
  refine hp.mono ?_
  intro command hsilent choice reply s s' history' hjudged _ _ reached hreached
  rw [decided_cons, decision_silent hsilent, Option.none_or] at hreached
  exact hjudged reached hreached

theorem queries_meets {α β : Type} {p : Js α} {f : α → Js β} (hp : Queries p)
    (h : decided history = none)
    (hf : ∀ value history', decided history' = none →
      Meets (services cfg) Guard.any (fun _ _ history' => Judged expected history') (f value)
        w history') :
    Meets (services cfg) Guard.any (fun _ _ history' => Judged expected history') (p >>= f)
      w history := by
  refine Meets.keep_bind (J := fun w' history' => w' = w ∧ decided history' = none) ?_ ⟨rfl, h⟩
    ?_ ?_
  · refine hp.mono ?_
    rintro command hquery choice reply s s' history' ⟨rfl, hnone⟩ _ hexec
    constructor
    · exact exec_query hquery hexec
    · exact undecided_cons (silent_of_query hquery) hnone 0 choice reply
  · rintro value s history' ⟨rfl, hnone⟩
    exact hf value history' hnone
  · rintro error s history' ⟨-, hnone⟩
    exact judged_of_undecided hnone

/-- The audit row of the evaluation records its decision. -/
theorem audit_meets {status : AuditStatus} {metadata : AuditMetadata}
    {result : PolicyEvaluationResult}
    (hstatus : expected = if status = .allowed then some .allow else some .deny)
    (h : decided history = none) :
    Meets (services cfg) Guard.any (fun _ _ history' => Judged expected history')
      (do
        auditEvaluation orgId walletId status metadata
        return result) w history := by
  have hjudged : ∀ (data : NewAuditLog) (entry : ServiceEntry),
      entry.command = .sql (.auditCreate data) → data.event = .policyEvaluation →
      data.status = status → Judged expected (entry :: history) := by
    intro data entry hcommand hevent hdata reached hreached
    rw [decided_cons, h, Option.or_none] at hreached
    simp only [decision, hcommand, hevent, hdata, true_and] at hreached
    split at hreached
    · rw [hstatus, hreached]
    · cases hreached
  intro choice reply s _ _
  cases reply with
  | ok value => exact hjudged _ _ rfl rfl rfl
  | error error => exact hjudged _ _ rfl rfl rfl

theorem evaluatePolicies_meets {txPayload : TxPayload} (policiesChecked : Nat)
    (policies : List Policy) : ∀ history, decided history = none →
      Meets (services cfg) Guard.any
        (fun _ _ history' => Judged (verdict cfg txPayload w.clock policies) history')
        (evaluatePolicies cfg orgId walletId txPayload policiesChecked policies) w history := by
  induction policies with
  | nil =>
    intro history h
    exact audit_meets rfl h
  | cons policy rest ih =>
    intro history h
    refine Meets.bind (P := fun outcome w' history' =>
      outcome = .ok w.clock ∧ w' = w ∧ decided history' = none) (Meets.perform ?_) ?_ ?_
    · intro choice reply s _ hexec
      obtain ⟨rfl, rfl⟩ := exec_now hexec
      exact ⟨rfl, rfl, undecided_cons (by exact trivial) h 0 choice _⟩
    · rintro now s history' ⟨hnow, rfl, hnone⟩
      cases hnow
      cases hrule : evaluateRule cfg policy txPayload s.clock with
      | error error => exact judged_of_undecided hnone
      | ok result =>
        dsimp only
        rw [verdict, hrule]
        by_cases hdeny : result.decision = .deny
        · simp only [hdeny, if_true]
          exact audit_meets rfl hnone
        · simp only [hdeny, if_false]
          exact ih history' hnone
    · rintro error s history' ⟨hnow, _⟩
      cases hnow

theorem evaluate_meets {txPayload : TxPayload} (h : decided history = none) :
    Meets (services cfg) Guard.any
      (fun _ _ history' =>
        Judged (judgement cfg txPayload w.clock (coverage w.tables orgId walletId)) history')
      (evaluate cfg orgId walletId txPayload) w history := by
  refine Meets.bind (P := fun (outcome : Except JsError (List Policy)) w' history' => w' = w ∧
    decided history' = none ∧
    ∀ policies, outcome = .ok policies →
      coverage w.tables orgId walletId = .ok (applicable policies walletId))
    (Meets.perform ?_) ?_ ?_
  · intro choice reply s _ hexec
    refine ⟨exec_query rfl hexec, undecided_cons (by exact trivial) h 0 choice reply, ?_⟩
    · rintro policies rfl
      rcases exec_sql hexec with ⟨id, _, _, ⟨_, heq⟩ | ⟨_, _, _, heq⟩⟩ | ⟨_, _, _, heq, _⟩
      · simp only [Sql.exec] at heq
        rw [coverage, ← heq]
        rfl
      · cases heq
      · cases heq
  · rintro policies s history' ⟨rfl, hnone, hcoverage⟩
    rw [hcoverage policies rfl]
    split
    · rename_i happlicable
      rw [happlicable]
      exact audit_meets rfl hnone
    · rename_i policy rest happlicable
      rw [happlicable]
      exact evaluatePolicies_meets _ _ history' hnone
  · rintro error s history' ⟨rfl, hnone, _⟩
    exact judged_of_undecided hnone

/-! ### The rest of the call -/

theorem createOrReuse_silent (req : SignRequest) (idempotencyKey : Text) :
    (WalletService.createOrReuse orgId walletId req idempotencyKey).All Silent := by
  refine Prog.All.tryCatch ?_ ?_
  · exact Prog.All.bind (Prog.All.perform trivial) fun _ => trivial
  · intro error
    split
    · trivial
    · refine Prog.All.bind (Prog.All.perform trivial) ?_
      intro raced
      split
      · trivial
      · cases raced with
        | none => trivial
        | some row => exact Prog.All.bind (Prog.All.perform trivial) fun _ => trivial

theorem submit_silent (req : SignRequest) (seedRow : OrganizationSeed) (wallet : Wallet)
    (idempotencyKey : Text) (fees : FeeEstimate) (id : Uuid) :
    (WalletService.submit cfg orgId walletId req seedRow wallet idempotencyKey fees id).All
      Silent := by
  refine Prog.All.bind ?_ fun txFields => Prog.All.bind ?_ fun signResult =>
    Prog.All.bind ?_ fun _ => Prog.All.bind ?_ fun _ => Prog.All.bind ?_ fun _ => ?_
  · refine Prog.All.bind (Prog.All.perform trivial) fun nonce => ?_
    exact Prog.All.bind (Prog.All.perform trivial) fun _ => trivial
  · refine Prog.All.tryCatch (Prog.All.perform trivial) fun error => ?_
    refine Prog.All.bind (Prog.All.perform trivial) fun _ => ?_
    exact Prog.All.bind (Prog.All.perform trivial) fun _ => trivial
  · exact Prog.All.bind (Prog.All.perform trivial) fun _ => Prog.All.perform trivial
  · refine Prog.All.tryCatch ?_ fun error => ?_
    · refine Prog.All.bind (Prog.All.bind (Prog.All.perform trivial) fun _ => ?_) fun _ => ?_
      · exact rpcCallWithRetry_all (fun _ => trivial) cfg req.chainId
      · exact Prog.All.bind (Prog.All.perform trivial) fun _ => Prog.All.perform trivial
    · refine Prog.All.bind (Prog.All.perform trivial) fun _ => ?_
      exact Prog.All.bind (Prog.All.perform trivial) fun _ => trivial
  · exact Prog.All.perform (by nofun)
  · trivial

/-- A call reaches no decision but the judgement of the policies that apply. -/
theorem requestSign_meets (req : SignRequest) :
    Meets (services cfg) Guard.any
      (fun _ _ history' => Judged (judgement cfg (WalletService.policyPayload cfg req) w.clock
        (coverage w.tables orgId walletId)) history')
      (WalletService.requestSign cfg orgId walletId req) w [] := by
  refine queries_meets (WalletService.loadPrerequisites_queries orgId walletId) rfl ?_
  rintro ⟨seedRow, wallet⟩ history₁ hnone₁
  refine queries_meets (sql_queries rfl) hnone₁ ?_
  intro existing history₂ hnone₂
  split
  · exact judged_of_undecided hnone₂
  · refine Meets.bind (P := fun _ _ history' => Judged (judgement cfg
      (WalletService.policyPayload cfg req) w.clock (coverage w.tables orgId walletId)) history')
      ?_ ?_ fun _ _ _ h => h
    · refine Meets.bind (evaluate_meets hnone₂) ?_ fun _ _ _ h => h
      intro result s history₃ hjudged
      split
      · exact hjudged
      · exact hjudged
    · intro value s history₃ hjudged
      refine silent_meets (Prog.All.bind ?_ fun fees => Prog.All.bind ?_ fun claimed => ?_) hjudged
      · exact Prog.All.mono (fun _ => silent_of_query) (estimateFees_queries ..)
      · exact createOrReuse_silent req _
      · cases claimed with
        | existing result => trivial
        | own id => exact submit_silent req seedRow wallet _ fees id

end Run

end PolicyCoverage

open PolicyCoverage in
/-- **Two spellings of a wallet id are treated alike exactly if both are the one the
    database prints, or neither is, or no policy is about the wallet alone.** -/
theorem requestSign_treated_alike_iff {cfg : Config} {w : World} {orgId : Text}
    {req : SignRequest} {walletId walletId' : Text} {row : Wallet}
    (hrow : Resolves w.tables walletId row) (hrow' : Resolves w.tables walletId' row) :
    TreatedAlike cfg w orgId req walletId walletId' ↔
      (walletId = row.id.toText ↔ walletId' = row.id.toText) ∨
        ¬ Targeted w.tables orgId row.id := by
  have hcoverage := coverage_eq_iff w.tables orgId (uuid_of_resolves hrow)
    (uuid_of_resolves hrow')
  constructor
  · intro halike
    exact hcoverage.mp halike.1
  · intro hcond
    refine ⟨hcoverage.mpr hcond, ?_⟩
    intro outcome outcome' s s' history history' reached reached' hrun hrun' hreached hreached'
    have hjudged := hrun.meets (requestSign_meets req) reached hreached
    have hjudged' := hrun'.meets (requestSign_meets req) reached' hreached'
    rw [hcoverage.mpr hcond, hjudged'] at hjudged
    exact (Option.some.inj hjudged).symm

namespace PolicyCoverage

open Sample

/-- The wallet may not spend anything. -/
def limitRow : Policy where
  id := freshId 9
  orgId := org
  name := "no spending".toList
  ruleType := .spendLimit
  ruleConfig := .obj [("max_amount_wei".toList, .str "0".toList)]
  appliesTo := .wallet
  targetId := some wallet
  priority := 1
  status := .active

def limited : World :=
  { world with tables := { world.tables with policies := [policyRow, limitRow] } }

def upperCase : Text := "BBBBBBBB-BBBB-BBBB-BBBB-BBBBBBBBBBBB".toList

def withoutHyphens : Text := "bbbbbbbbbbbbbbbbbbbbbbbbbbbbbbbb".toList

/-- A call that goes through. -/
def goesThrough : List Choice :=
  untilFees ++ .done (freshId 1) :: signs "signature".toList "hash".toList ++
    [run, accepts, run, run, run]

end PolicyCoverage

open Sample PolicyCoverage in
/-- The limit denies a payment, and the same payment goes through with the wallet id
    in upper case. -/
theorem requestSign_upper_case_unlimited :
    Resolves limited.tables wallet.toText walletRow ∧
    Resolves limited.tables upperCase walletRow ∧
    (∃ outcome w history, Completes (services config) .any
      (WalletService.requestSign config org.toText upperCase (transfer "1".toList).req) limited []
      outcome w history ∧ w.live = [sent 1 "1" 0 "signature"]) ∧
    ¬ TreatedAlike config limited org.toText (transfer "1".toList).req wallet.toText upperCase := by
  obtain ⟨outcome, w, history, hrun, hdenied⟩ :=
    Completes.exists_of_complete (services config) .any
      (WalletService.requestSign config org.toText wallet.toText (transfer "1".toList).req)
      limited (List.replicate 6 run) (fun final => decided final.2.2 = some .deny)
      (by decide)
  obtain ⟨outcome', w', history', hrun', hP⟩ :=
    Completes.exists_of_complete (services config) .any
      (WalletService.requestSign config org.toText upperCase (transfer "1".toList).req)
      limited goesThrough (fun final => decided final.2.2 = some .allow &&
        final.2.1.live = [sent 1 "1" 0 "signature"]) (by decide)
  simp only [Bool.and_eq_true, decide_eq_true_eq] at hdenied hP
  refine ⟨rfl, rfl, ⟨outcome', w', history', hrun', hP.2⟩, ?_⟩
  intro halike
  cases halike.2 _ _ _ _ _ _ _ _ hrun hrun' hdenied hP.1

open Sample PolicyCoverage in
/-- Two spellings that both escape the limit. -/
theorem requestSign_treated_alike_iff_unprinted :
    TreatedAlike config limited org.toText (transfer "1".toList).req upperCase withoutHyphens :=
  have hupper : Resolves limited.tables upperCase walletRow := rfl
  have hbare : Resolves limited.tables withoutHyphens walletRow := rfl
  (requestSign_treated_alike_iff hupper hbare).mpr
    (.inl (iff_of_false (by decide) (by decide)))

end BrokeTurnkey
