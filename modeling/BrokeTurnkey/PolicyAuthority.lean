import BrokeTurnkey.Growth
import BrokeTurnkey.Interaction.Executions

/-!
# Every signature has been allowed

The sidecar signs for two callers.  `requestSign` asks the policy engine first, and
`speedUp` never does: it rebuilds the transaction from the stored row.  So what is
signed is allowed only because every stored payload was written by an execution
whose evaluation allowed it, for the wallet and chain of the row, and this must hold
too of a failed row that another execution takes over.  The idempotency key sees to
that, since the digest of wallet id, chain and transaction picks the row.

The invariant finds the evaluation by the audit row that is its last command.  Only a
call writes such a row, and what the call has executed up to there is the evaluation,
which then returns `allow`.
-/

namespace BrokeTurnkey

open Interaction

/-! ### What is being claimed -/

/-- What of a transaction the policies are about. -/
def TxFields.request (fields : TxFields) : SignRequest :=
  ⟨fields.chainId, fields.toAddr, fields.value, fields.data⟩

/-- Any number of calls and of monitors on one world. -/
def signing (cfg : Config) (calls : List SignCall) (monitors : List Nat) (w : World) :
    ServicePool where
  state := w
  threads := calls.map (SignCall.start cfg) ++ monitors.map (monitor cfg)
  history := []

/-- In the course of the run the policies were evaluated for this transaction, for the org
    of the wallet and for the wallet, whose id may have been spelled in any way, and the
    evaluation returned `allow`. -/
def Authorised (cfg : Config) (start p : ServicePool) (wallet : Uuid) (req : SignRequest) : Prop :=
  ∃ row walletId result, p.state.tables.wallet? wallet = some row ∧
    Uuid.ofText walletId = some wallet ∧
    Executed (services cfg) .any start p
      (PolicyService.evaluate cfg row.orgId.toText walletId (WalletService.policyPayload cfg req))
      (.ok result) ∧
    result.decision = .allow

/-! ### When an evaluation allows -/

/-- The audit row of an evaluation that allows. -/
def allowedAudit (orgId walletId : Text) (policiesChecked : Nat) (txPayload : TxPayload) : Cmd :=
  .sql (.auditCreate { orgId, walletId := some walletId, event := .policyEvaluation,
                       status := .allowed, metadata := .allowedBy policiesChecked txPayload })

/-- The command is not the last one of an evaluation that allows. -/
def NeverAllows (command : Cmd) : Prop :=
  ∀ orgId walletId policiesChecked txPayload,
    command ≠ allowedAudit orgId walletId policiesChecked txPayload

theorem neverAllows_of_insertsNone {command : Cmd} (h : command.InsertsNone) :
    NeverAllows command := by
  rintro orgId walletId policiesChecked txPayload rfl
  exact h

theorem neverAllows_of_query {command : Cmd} (h : command.isQuery = true) : NeverAllows command :=
  neverAllows_of_insertsNone (Cmd.insertsNone_of_query h)

namespace PolicyService

/-- An `allowed` audit row holds these values, and once it is written `allow` is returned. -/
def EndsAllowed (orgId walletId : Text) (txPayload : TxPayload) :
    Js PolicyEvaluationResult → Prop
  | .ret _ => True
  | .throw _ => True
  | .call command next =>
    (∀ orgId' walletId' policiesChecked txPayload',
      command = allowedAudit orgId' walletId' policiesChecked txPayload' →
        (orgId' = orgId ∧ walletId' = walletId ∧ txPayload' = txPayload) ∧
        ∀ value, ∃ result, next (.ok value) = .ret result ∧ result.decision = .allow) ∧
    ∀ reply, EndsAllowed orgId walletId txPayload (next reply)

section EndsAllowed

variable {cfg : Config} {orgId walletId : Text} {txPayload : TxPayload}

theorem EndsAllowed.bind {α : Type} {p : Js α} {f : α → Js PolicyEvaluationResult}
    (hp : p.All NeverAllows) (hf : ∀ value, EndsAllowed orgId walletId txPayload (f value)) :
    EndsAllowed orgId walletId txPayload (p >>= f) := by
  induction p with
  | ret value => exact hf value
  | throw error => trivial
  | call command next ih =>
    refine ⟨?_, fun reply => ih reply (hp.2 reply)⟩
    intro orgId' walletId' policiesChecked txPayload' hcommand
    exact absurd hcommand (hp.1 _ _ _ _)

theorem auditDenied_never (metadata : AuditMetadata) :
    (auditEvaluation orgId walletId .denied metadata).All NeverAllows := by
  apply Prog.All.perform
  rintro _ _ _ _ ⟨⟩

theorem evaluatePolicies_endsAllowed (policiesChecked : Nat) (policies : List Policy) :
    EndsAllowed orgId walletId txPayload
      (evaluatePolicies cfg orgId walletId txPayload policiesChecked policies) := by
  induction policies with
  | nil =>
    refine ⟨?_, fun reply => ?_⟩
    · rintro _ _ _ _ ⟨⟩
      exact ⟨⟨rfl, rfl, rfl⟩, fun value => ⟨allowed, rfl, rfl⟩⟩
    · cases reply with
      | ok value => trivial
      | error error => trivial
  | cons policy rest ih =>
    refine EndsAllowed.bind (Prog.All.perform (neverAllows_of_query rfl)) fun now => ?_
    split
    · trivial
    · split
      · exact EndsAllowed.bind (auditDenied_never _) fun _ => trivial
      · exact ih

/-- **The `allowed` audit row is the last command of an evaluation that allows.** -/
theorem evaluate_endsAllowed :
    EndsAllowed orgId walletId txPayload (evaluate cfg orgId walletId txPayload) := by
  refine EndsAllowed.bind (Prog.All.perform (neverAllows_of_query rfl)) fun policies => ?_
  split
  · exact EndsAllowed.bind (auditDenied_never _) fun _ => trivial
  · exact evaluatePolicies_endsAllowed _ _

end EndsAllowed

end PolicyService

/-- The entry is the last command of an evaluation that returns `allow`. -/
def Allows (orgId walletId : Text) (txPayload : TxPayload) (entry : ServiceEntry) : Prop :=
  entry.answered = true ∧
    ∃ policiesChecked, entry.command = allowedAudit orgId walletId policiesChecked txPayload

namespace PolicyAuthority

open WalletService

variable {cfg : Config} {guard : Guard Cmd Choice Event World} {w w' : World}
  {history history' : List ServiceEntry}

/-! ### What is known stays known -/

/-- The policy engine has allowed the transaction for the wallet, as the history shows. -/
def AllowedBefore (cfg : Config) (w : World) (history : List ServiceEntry) (wallet : Uuid)
    (req : SignRequest) : Prop :=
  ∃ row walletId, w.tables.wallet? wallet = some row ∧ Uuid.ofText walletId = some wallet ∧
    ∃ entry ∈ history, Allows row.orgId.toText walletId (WalletService.policyPayload cfg req) entry

theorem AllowedBefore.grow {wallet : Uuid} {req : SignRequest}
    (h : AllowedBefore cfg w history wallet req) (htables : w.tables.Grows w'.tables)
    (hhistory : history <:+ history') : AllowedBefore cfg w' history' wallet req := by
  obtain ⟨row, walletId, hrow, hid, entry, hmem, hallows⟩ := h
  exact ⟨row, walletId, htables.wallets wallet row hrow, hid, entry, hhistory.subset hmem, hallows⟩

/-- The key of a row was computed by a call for its wallet and chain. -/
def Keyed (cfg : Config) (row : SigningRequest) : Prop :=
  ∃ walletId req, Uuid.ofText walletId = some row.walletId ∧ req.chainId = row.chainId ∧
    row.idempotencyKey = computeIdempotencyKey cfg walletId req

/-- The transaction that a replacement of the row would be about. -/
def replayed (row : SigningRequest) (txPayload : TxFields) : SignRequest :=
  ⟨row.chainId, txPayload.toAddr, txPayload.value, txPayload.data⟩

/-- What the row holds was allowed for its wallet. -/
def Covered (cfg : Config) (w : World) (history : List ServiceEntry) (row : SigningRequest) :
    Prop :=
  ∀ txPayload, row.txPayload = some txPayload →
    AllowedBefore cfg w history row.walletId (replayed row txPayload)

theorem Covered.grow {row : SigningRequest} (h : Covered cfg w history row)
    (htables : w.tables.Grows w'.tables) (hhistory : history <:+ history') :
    Covered cfg w' history' row :=
  fun txPayload hpayload => AllowedBefore.grow (h txPayload hpayload) htables hhistory

/-- The wallet and the transaction of an entry that signs. -/
def signed (entry : ServiceEntry) : Option (Uuid × TxFields) :=
  match entry.command with
  | .sidecar (.signTransaction wallet _ _ txFields) => some (wallet, txFields)
  | _ => none

/-- Every signature was allowed when it was asked for. -/
def Signatures (cfg : Config) (w : World) (history : List ServiceEntry) : Prop :=
  ∀ later entry earlier, history = later ++ entry :: earlier → ∀ wallet txFields,
    signed entry = some (wallet, txFields) → AllowedBefore cfg w earlier wallet txFields.request

theorem Signatures.cons {entry : ServiceEntry} (h : Signatures cfg w history)
    (htables : w.tables.Grows w'.tables)
    (hentry : ∀ wallet txFields, signed entry = some (wallet, txFields) →
      AllowedBefore cfg w' history wallet txFields.request) :
    Signatures cfg w' (entry :: history) := by
  rintro (_ | ⟨first, later⟩) entry' earlier heq wallet txFields hsigns
  · obtain ⟨rfl, rfl⟩ := List.cons.inj heq
    exact hentry wallet txFields hsigns
  · obtain ⟨rfl, hrest⟩ := List.cons.inj heq
    exact AllowedBefore.grow (h later entry' earlier hrest wallet txFields hsigns) htables
      (List.suffix_refl _)

/-- The invariant of all calls and monitors. -/
structure Inv (cfg : Config) (w : World) (history : List ServiceEntry) : Prop where
  ids : UniqueIds w.tables
  keyed : ∀ row ∈ w.tables.requests, Keyed cfg row
  covered : ∀ row ∈ w.tables.requests, Covered cfg w history row
  signatures : Signatures cfg w history

/-! ### Keys -/

/-- A key determines the wallet and the chain. -/
theorem key_injective (hsha : Function.Injective cfg.sha256) {walletId walletId' : Text}
    {wallet wallet' : Uuid} {req req' : SignRequest} (hid : Uuid.ofText walletId = some wallet)
    (hid' : Uuid.ofText walletId' = some wallet')
    (hkey : computeIdempotencyKey cfg walletId req = computeIdempotencyKey cfg walletId' req') :
    wallet = wallet' ∧ req.chainId = req'.chainId := by
  obtain ⟨rfl, hrest⟩ := Text.append_cons_inj (Uuid.colon_notMem_of_ofText hid)
    (Uuid.colon_notMem_of_ofText hid') (hsha hkey)
  obtain ⟨hchain, _⟩ :=
    Text.append_cons_inj (Text.not_mem_decimal (by decide) _) (Text.not_mem_decimal (by decide) _)
      hrest
  rw [hid] at hid'
  exact ⟨Option.some.inj hid', Text.decimal_injective hchain⟩

/-! ### What one command keeps -/

theorem keyed_updateRow {row : SigningRequest} (h : Keyed cfg row) (id : Uuid)
    (fields : SigningRequestUpdate) :
    Keyed cfg (SigningRequestRepository.updateRow id fields row) := by
  simp only [SigningRequestRepository.updateRow]
  split
  · exact h
  · exact h

theorem covered_updateRow {row : SigningRequest} (h : Covered cfg w history row) (id : Uuid)
    {fields : SigningRequestUpdate} (hpayload : fields.txPayload = none) :
    Covered cfg w history (SigningRequestRepository.updateRow id fields row) := by
  simp only [SigningRequestRepository.updateRow]
  split
  · intro txPayload heq
    rw [SigningRequestUpdate.apply, hpayload, Option.none_or] at heq
    exact h txPayload heq
  · exact h

/-- Every command keeps the invariant if its insert is keyed, its update covers the
    row and its signature was allowed. -/
theorem Inv.step (h : Inv cfg w history) {command : Cmd} {choice : Choice}
    {reply : Except JsError command.Reply} (hexec : exec command choice w = some (reply, w'))
    (i : Nat)
    (hcreate : ∀ data, command = .sql (.requestCreate data) → ∃ req, data.chainId = req.chainId ∧
      data.idempotencyKey = computeIdempotencyKey cfg data.walletId req)
    (hupdate : ∀ id fields, command = .sql (.requestUpdate id fields) →
      ∀ row ∈ w.tables.requests, Covered cfg w history row →
        Covered cfg w history (SigningRequestRepository.updateRow id fields row))
    (hsign : ∀ wallet origin key txFields,
      command = .sidecar (.signTransaction wallet origin key txFields) →
        AllowedBefore cfg w history wallet txFields.request) :
    Inv cfg w' (entryOf i command choice reply :: history) := by
  have hgrows := exec_grows hexec
  refine ⟨h.ids.exec hexec, ?_, ?_, ?_⟩
  · refine rows_exec hexec h.keyed (fun id fields _ row _ hrow => keyed_updateRow hrow id fields) ?_
    intro data id org wallet hcommand _ hwallet
    obtain ⟨req, hchain, hkey⟩ := hcreate data hcommand
    exact ⟨data.walletId, req, hwallet, hchain.symm, hkey⟩
  · have hcovered : ∀ row ∈ w'.tables.requests, Covered cfg w history row := by
      refine rows_exec hexec h.covered hupdate ?_
      intro data id org wallet _ _ _ txPayload hpayload
      cases hpayload
    exact fun row hrow => Covered.grow (hcovered row hrow) hgrows (List.suffix_cons _ _)
  · refine Signatures.cons h.signatures hgrows fun wallet txFields hsigns => ?_
    cases command with
    | sidecar request =>
      cases request with
      | signTransaction wallet' origin key txFields' =>
        cases hsigns
        exact AllowedBefore.grow (hsign _ _ _ _ rfl) hgrows (List.suffix_refl _)
      | _ => cases hsigns
    | _ => cases hsigns

/-- Commands that insert no signing request, store no payload and sign nothing. -/
def Plain : Cmd → Prop
  | .sql (.requestCreate _) => False
  | .sql (.requestUpdate _ fields) => fields.txPayload = none
  | .sidecar (.signTransaction _ _ _ _) => False
  | _ => True

theorem plain_of_query {command : Cmd} (h : command.isQuery = true) : Plain command := by
  cases command with
  | sql statement =>
    cases statement with
    | requestCreate data => cases h
    | requestUpdate id fields => cases h
    | _ => trivial
  | sidecar request => cases h
  | _ => trivial

theorem plain_harmless {command : Cmd} (h : Plain command) :
    Harmless guard (services cfg) (Inv cfg) command := by
  intro i choice reply s s' history hinv _ hexec
  refine hinv.step hexec i ?_ ?_ ?_
  · rintro data rfl
    exact absurd h id
  · rintro id fields rfl row _ hrow
    exact covered_updateRow hrow id h
  · rintro wallet origin key txFields rfl
    exact absurd h id

theorem plain_all {α : Type} {p : Js α} (h : p.All Plain) :
    p.All (Harmless guard (services cfg) (Inv cfg)) :=
  Prog.All.mono (fun _ => plain_harmless) h

theorem queries_all {α : Type} {p : Js α} (h : Queries p) :
    p.All (Harmless guard (services cfg) (Inv cfg)) :=
  plain_all (Prog.All.mono (fun _ => plain_of_query) h)

/-- A plain command, and what its answer tells. -/
theorem plain_keeps {command : Cmd} (h : Plain command)
    {Q : Except JsError command.Reply → World → List ServiceEntry → Prop}
    (hpost : ∀ i choice reply s t history', Inv cfg s history' →
      exec command choice s = some (reply, t) →
      Q reply t (entryOf i command choice reply :: history')) :
    Keeps (growth cfg guard) (Inv cfg) Q (Prog.perform command) w history := by
  refine Keeps.perform fun i choice reply s t history' _ hinv hguard hexec => ?_
  exact ⟨plain_harmless h i choice reply s t history' hinv hguard hexec,
    hpost i choice reply s t history' hinv hexec⟩

/-! ### The steps before the signature -/

section Steps

variable {orgId walletId : Text} {txPayload : TxPayload}

theorem deny_keeps {metadata : AuditMetadata} {result : PolicyEvaluationResult}
    (hdeny : result.decision = .deny) :
    Keeps (growth cfg guard) (Inv cfg)
      (fun outcome _ history' => ∀ result, outcome = .ok result → result.decision = .allow →
        ∃ entry ∈ history', Allows orgId walletId txPayload entry)
      (do
        PolicyService.auditEvaluation orgId walletId .denied metadata
        return result) w history := by
  refine Keeps.harmless_bind (Prog.All.perform (plain_harmless trivial)) ?_ ?_
  · rintro value s' history' _ result' heq hallow
    cases heq
    cases hdeny.symm.trans hallow
  · rintro error s' history' _ result' heq
    cases heq

theorem evaluatePolicies_keeps (policiesChecked : Nat) (policies : List Policy) :
    ∀ (w : World) (history : List ServiceEntry),
      Keeps (growth cfg guard) (Inv cfg)
        (fun outcome _ history' => ∀ result, outcome = .ok result → result.decision = .allow →
          ∃ entry ∈ history', Allows orgId walletId txPayload entry)
        (PolicyService.evaluatePolicies cfg orgId walletId txPayload policiesChecked policies)
        w history := by
  induction policies with
  | nil =>
    intro w history
    refine Keeps.bind (P := fun outcome _ history' => outcome.isOk = true →
      ∃ entry ∈ history', Allows orgId walletId txPayload entry)
      (plain_keeps (by exact trivial) ?_) ?_ ?_
    · intro i choice reply s' t history' _ _ hok
      exact ⟨_, List.mem_cons_self, hok, policiesChecked, rfl⟩
    · rintro value s' history' _ hallows result heq _
      exact hallows rfl
    · rintro error s' history' _ result heq
      cases heq
  | cons policy rest ih =>
    intro w history
    refine Keeps.harmless_bind (queries_all now_queries) ?_ ?_
    · intro now s' history' _
      split
      · rintro result heq
        cases heq
      · split
        · rename_i hdeny
          exact deny_keeps hdeny
        · exact ih s' history'
    · rintro error s' history' _ result heq
      cases heq

theorem evaluate_keeps :
    Keeps (growth cfg guard) (Inv cfg)
      (fun outcome _ history' => ∀ result, outcome = .ok result → result.decision = .allow →
        ∃ entry ∈ history', Allows orgId walletId txPayload entry)
      (PolicyService.evaluate cfg orgId walletId txPayload) w history := by
  refine Keeps.harmless_bind (queries_all (sql_queries rfl)) ?_ ?_
  · intro policies s' history' _
    split
    · exact deny_keeps rfl
    · exact evaluatePolicies_keeps _ _ s' history'
  · rintro error s' history' _ result heq
    cases heq

theorem evaluatePolicy_keeps (req : SignRequest) :
    Keeps (growth cfg guard) (Inv cfg)
      (fun outcome _ history' => outcome.isOk = true →
        ∃ entry ∈ history', Allows orgId walletId (policyPayload cfg req) entry)
      (evaluatePolicy cfg orgId walletId req) w history := by
  refine Keeps.bind evaluate_keeps ?_ ?_
  · intro result s' history' _ hallow
    split
    · exact nofun
    · rename_i hdecision
      exact fun _ => hallow result rfl hdecision
  · exact fun error s' history' _ hok => nomatch hok

/-- The wallet that step 1 loaded. -/
def Loaded (orgId walletId : Text) (wallet : Wallet) (w : World) : Prop :=
  Uuid.ofText walletId = some wallet.id ∧ w.tables.wallet? wallet.id = some wallet ∧
    wallet.orgId.toText = orgId

theorem loadPrerequisites_keeps :
    Keeps (growth cfg guard) (Inv cfg)
      (fun outcome w' _ => ∀ seedRow wallet, outcome = .ok (seedRow, wallet) →
        Loaded orgId walletId wallet w')
      (loadPrerequisites orgId walletId) w history := by
  refine Keeps.harmless_bind (queries_all (sql_queries rfl)) ?_ ?_
  · intro seedRow s' history' _
    refine Keeps.bind (P := fun outcome w' _ => ∀ wallet, outcome = .ok (some wallet) →
      Uuid.ofText walletId = some wallet.id ∧ w'.tables.wallet? wallet.id = some wallet)
      (plain_keeps (by exact trivial) ?_) ?_ ?_
    · rintro i choice reply s t history'' _ hexec wallet rfl
      exact exec_walletFindById hexec
    · intro wallet s history'' _ hwallet
      cases seedRow with
      | none => exact fun _ _ heq => nomatch heq
      | some seedRow =>
        cases wallet with
        | none => exact fun _ _ heq => nomatch heq
        | some wallet =>
          dsimp only
          split
          · exact fun _ _ heq => nomatch heq
          · rename_i horg
            rintro seedRow' wallet' heq
            cases heq
            obtain ⟨hid, hrow⟩ := hwallet wallet rfl
            exact ⟨hid, hrow, not_not.mp horg⟩
    · exact fun error s history'' _ _ _ heq => nomatch heq
  · exact fun error s' history' _ _ _ heq => nomatch heq

/-- The row is for this wallet and chain. -/
def IsFor (wallet : Uuid) (chainId : Nat) (id : Uuid) (w : World) : Prop :=
  Stored id (fun row => row.walletId = wallet ∧ row.chainId = chainId) w.tables

variable {wallet : Uuid}

/-- A row with the key of the call is for the wallet and chain of the call. -/
theorem isFor_of_key (hsha : Function.Injective cfg.sha256)
    (hid : Uuid.ofText walletId = some wallet) {req : SignRequest} {row : SigningRequest}
    (hinv : Inv cfg w history) (hrow : row ∈ w.tables.requests)
    (hkey : row.idempotencyKey = computeIdempotencyKey cfg walletId req) :
    IsFor wallet req.chainId row.id w := by
  obtain ⟨walletId', req', hid', hchain, hkey'⟩ := hinv.keyed row hrow
  obtain ⟨hwallet, hchain'⟩ := key_injective hsha hid hid' (hkey.symm.trans hkey')
  refine (hinv.ids.stored hrow).mono ?_
  rintro _ rfl
  exact ⟨hwallet.symm, hchain.symm.trans hchain'.symm⟩

theorem create_keeps (hid : Uuid.ofText walletId = some wallet) (req : SignRequest) :
    Keeps (growth cfg guard) (Inv cfg)
      (fun outcome w' _ => ∀ row, outcome = .ok row → IsFor wallet req.chainId row.id w')
      (Js.sql (.requestCreate
        { orgId, walletId, chainId := req.chainId, status := .pending,
          idempotencyKey := computeIdempotencyKey cfg walletId req })) w history := by
  refine Keeps.perform fun i choice reply s t history' _ hinv _ hexec => ⟨?_, ?_⟩
  · refine hinv.step hexec i ?_ ?_ ?_
    · rintro data heq
      cases heq
      exact ⟨req, rfl, rfl⟩
    · rintro id fields heq
      cases heq
    · rintro wallet origin key txFields heq
      cases heq
  · rintro row rfl
    obtain ⟨⟨id, org, wallet', hwallet, hrow⟩, hstored⟩ := exec_create hexec
    rw [hid] at hwallet
    refine hstored.mono ?_
    rintro _ rfl
    rw [hrow]
    exact ⟨(Option.some.inj hwallet).symm, rfl⟩

theorem reuseRow_keeps (hsha : Function.Injective cfg.sha256)
    (hid : Uuid.ofText walletId = some wallet) (req : SignRequest) (conflict : JsError) :
    Keeps (growth cfg guard) (Inv cfg)
      (fun outcome w' _ => ∀ id, outcome = .ok (.own id) → IsFor wallet req.chainId id w')
      (reuseRow (computeIdempotencyKey cfg walletId req) conflict) w history := by
  refine Keeps.bind (P := fun outcome w' _ => ∀ row, outcome = .ok (some row) →
    IsFor wallet req.chainId row.id w') (plain_keeps (by exact trivial) ?_) ?_ ?_
  · rintro i choice reply s t history' hinv hexec row rfl
    obtain ⟨rfl, hrow, hkey⟩ := exec_find hexec
    exact isFor_of_key hsha hid hinv hrow hkey
  · intro raced s' history' _ hraced
    split
    · exact fun id heq => nomatch heq
    · cases raced with
      | none => exact fun id heq => nomatch heq
      | some row =>
        refine Keeps.harmless_bind (plain_all (Prog.All.perform rfl)) ?_ ?_
        · rintro value t history'' hgrows id heq
          cases heq
          exact hgrows.1.requests _ _ _ (hraced row rfl)
        · exact fun error t history'' _ id heq => nomatch heq
  · exact fun error s' history' _ id heq => nomatch heq

theorem createOrReuse_keeps (hsha : Function.Injective cfg.sha256)
    (hid : Uuid.ofText walletId = some wallet) (req : SignRequest) :
    Keeps (growth cfg guard) (Inv cfg)
      (fun outcome w' _ => ∀ id, outcome = .ok (.own id) → IsFor wallet req.chainId id w')
      (createOrReuse orgId walletId req (computeIdempotencyKey cfg walletId req)) w history := by
  refine Keeps.tryCatch (P := fun outcome w' _ => ∀ id, outcome = .ok (.own id) →
    IsFor wallet req.chainId id w') ?_ (fun _ _ _ h => h) ?_
  · refine Keeps.bind (create_keeps hid req) ?_ ?_
    · rintro row s' history' _ hrow id heq
      cases heq
      exact hrow row rfl
    · exact fun error s' history' _ id heq => nomatch heq
  · intro error s' history' _ _
    split
    · exact fun id heq => nomatch heq
    · exact reuseRow_keeps hsha hid req error

/-! ### Storing the payload and signing it -/

theorem covered_apply {row : SigningRequest} {txFields : TxFields}
    (hchain : txFields.chainId = row.chainId)
    (hallowed : AllowedBefore cfg w history row.walletId txFields.request) :
    Covered cfg w history (SigningRequestUpdate.apply { txPayload := some txFields } row) := by
  rintro txPayload heq
  cases heq
  have hreplayed : replayed row txFields = txFields.request := by
    rw [replayed, ← hchain, TxFields.request]
  exact hreplayed ▸ hallowed

theorem storePayload_keeps {txFields : TxFields} {id : Uuid}
    (hfor : IsFor wallet txFields.chainId id w)
    (hallowed : AllowedBefore cfg w history wallet txFields.request) :
    Keeps (growth cfg guard) (Inv cfg) (fun _ _ _ => True)
      (Js.sql (.requestUpdate id { txPayload := some txFields })) w history := by
  refine Keeps.perform fun i choice reply s t history' hgrows hinv _ hexec => ⟨?_, trivial⟩
  refine hinv.step hexec i ?_ ?_ ?_
  · rintro data heq
    cases heq
  · rintro id' fields heq row hrow hcovered
    cases heq
    by_cases hid : row.id = id
    · obtain ⟨hwallet, hchain⟩ := (hgrows.1.requests _ _ _ hfor).2 row hrow hid
      rw [updateRow_of_id hid]
      exact covered_apply hchain.symm (hwallet ▸ AllowedBefore.grow hallowed hgrows.1 hgrows.2)
    · rw [updateRow_of_ne hid]
      exact hcovered
  · rintro wallet' origin key txFields' heq
    cases heq

theorem prepareFields_keeps {req : SignRequest} {id : Uuid}
    (hfor : IsFor wallet req.chainId id w) (hallowed : AllowedBefore cfg w history wallet req)
    (walletId : Text) (fees : FeeEstimate) :
    Keeps (growth cfg guard) (Inv cfg)
      (fun outcome _ _ => ∀ txFields, outcome = .ok txFields → txFields.request = req)
      (prepareFields walletId req fees id) w history := by
  refine Keeps.harmless_bind (plain_all (Prog.All.perform trivial)) ?_ ?_
  · intro nonce s' history' hgrows
    refine Keeps.bind (storePayload_keeps (hgrows.1.requests _ _ _ hfor)
      (AllowedBefore.grow hallowed hgrows.1 hgrows.2)) ?_ ?_
    · rintro value s'' history'' _ _ txFields heq
      cases heq
      rfl
    · exact fun error s'' history'' _ txFields heq => nomatch heq
  · exact fun error s' history' _ txFields heq => nomatch heq

/-- A signature that was allowed. -/
theorem sign_keeps {origin : Uuid} {key : KeyMaterial} {txFields : TxFields}
    (hallowed : AllowedBefore cfg w history wallet txFields.request) :
    Keeps (growth cfg guard) (Inv cfg) (fun _ _ _ => True)
      (Js.sidecar (.signTransaction wallet origin key txFields)) w history := by
  refine Keeps.perform fun i choice reply s t history' hgrows hinv _ hexec => ⟨?_, trivial⟩
  change exec (.sidecar (.signTransaction wallet origin key txFields)) choice s = _ at hexec
  refine hinv.step hexec i ?_ ?_ ?_
  · rintro data heq
    cases heq
  · rintro id fields heq
    cases heq
  · rintro wallet' origin' key' txFields' heq
    cases heq
    exact AllowedBefore.grow hallowed hgrows.1 hgrows.2

/-! ### The calls -/

theorem update_plain {id : Uuid} {fields : SigningRequestUpdate} (h : fields.txPayload = none) :
    (Js.sql (.requestUpdate id fields)).All (Harmless guard (services cfg) (Inv cfg)) :=
  plain_all (Prog.All.perform h)

theorem signStep_keeps {seedRow : OrganizationSeed} {walletRow : Wallet} {walletId : Text}
    {txFields : TxFields} {id : Uuid}
    (hallowed : AllowedBefore cfg w history walletRow.id txFields.request) :
    Keeps (growth cfg guard) (Inv cfg) (fun _ _ _ => True)
      (signStep seedRow walletRow walletId txFields id) w history := by
  refine Keeps.tryCatch (sign_keeps hallowed) (fun _ _ _ h => h) ?_
  intro error s' history' _ _
  refine Keeps.of_harmless (Prog.All.bind (update_plain rfl) fun _ => ?_) s' history'
  exact Prog.All.bind (plain_all (Prog.All.perform trivial)) fun _ => trivial

theorem broadcastStep_plain (walletRow : Wallet) (walletId : Text) (chainId : Nat)
    (signResult : SignTransactionResult) (id : Uuid) :
    (broadcastStep cfg walletRow walletId chainId signResult id).All Plain := by
  refine Prog.All.tryCatch ?_ fun error => ?_
  · refine Prog.All.bind (Prog.All.bind (Prog.All.perform trivial) fun _ => ?_) fun _ => ?_
    · exact rpcCallWithRetry_all (fun _ => trivial) cfg chainId
    · exact Prog.All.bind (Prog.All.perform trivial) fun _ => Prog.All.perform rfl
  · refine Prog.All.bind (Prog.All.perform rfl) fun _ => ?_
    exact Prog.All.bind (Prog.All.perform trivial) fun _ => trivial

theorem submit_keeps {req : SignRequest} {id : Uuid} {walletRow : Wallet}
    (hfor : IsFor walletRow.id req.chainId id w)
    (hallowed : AllowedBefore cfg w history walletRow.id req) (orgId walletId : Text)
    (seedRow : OrganizationSeed) (idempotencyKey : Text) (fees : FeeEstimate) :
    Keeps (growth cfg guard) (Inv cfg) (fun _ _ _ => True)
      (submit cfg orgId walletId req seedRow walletRow idempotencyKey fees id) w history := by
  refine Keeps.bind (prepareFields_keeps hfor hallowed walletId fees) ?_ fun _ _ _ _ => trivial
  intro txFields s' history' hgrows hfields
  have hallowed' : AllowedBefore cfg s' history' walletRow.id txFields.request := by
    rw [hfields txFields rfl]
    exact AllowedBefore.grow hallowed hgrows.1 hgrows.2
  refine Keeps.bind (signStep_keeps hallowed') ?_ fun _ _ _ _ => trivial
  intro signResult s'' history'' _ _
  refine Keeps.of_harmless (Prog.All.bind ?_ fun _ => ?_) s'' history''
  · exact Prog.All.bind (plain_all (Prog.All.perform trivial)) fun _ => update_plain rfl
  · refine Prog.All.bind (plain_all (broadcastStep_plain ..)) fun _ => ?_
    exact Prog.All.bind (plain_all (Prog.All.perform trivial)) fun _ => trivial

theorem requestSign_keeps (hsha : Function.Injective cfg.sha256) (orgId walletId : Text)
    (req : SignRequest) :
    Keeps (growth cfg guard) (Inv cfg) (fun _ _ _ => True)
      (requestSign cfg orgId walletId req) w history := by
  refine Keeps.bind loadPrerequisites_keeps ?_ fun _ _ _ _ => trivial
  rintro ⟨seedRow, walletRow⟩ s₁ history₁ _ hloaded
  obtain ⟨hid, hrow, horg⟩ := hloaded seedRow walletRow rfl
  refine Keeps.harmless_bind (queries_all (sql_queries rfl)) ?_ fun _ _ _ _ => trivial
  intro existing s₂ history₂ hgrows₂
  split
  · trivial
  refine Keeps.bind (evaluatePolicy_keeps req) ?_ fun _ _ _ _ => trivial
  intro value s₃ history₃ hgrows₃ hallowed
  have hauthorised : AllowedBefore cfg s₃ history₃ walletRow.id req := by
    obtain ⟨entry, hmem, hallows⟩ := hallowed rfl
    refine ⟨walletRow, walletId, ?_, hid, entry, hmem, horg ▸ hallows⟩
    exact hgrows₃.1.wallets _ _ (hgrows₂.1.wallets _ _ hrow)
  refine Keeps.harmless_bind (queries_all (estimateFees_queries ..)) ?_ fun _ _ _ _ => trivial
  intro fees s₄ history₄ hgrows₄
  refine Keeps.bind (createOrReuse_keeps hsha hid req) ?_ fun _ _ _ _ => trivial
  intro claimed s₅ history₅ hgrows₅ hown
  cases claimed with
  | existing result => trivial
  | own id =>
    refine submit_keeps (hown id rfl) ?_ orgId walletId seedRow _ fees
    exact AllowedBefore.grow (AllowedBefore.grow hauthorised hgrows₄.1 hgrows₄.2)
      hgrows₅.1 hgrows₅.2

end Steps

/-! ### The monitor -/

section Monitor

variable {row : SigningRequest}

open Monitor

theorem updateRow_plain {fields : SigningRequestUpdate} (h : fields.txPayload = none) :
    (updateRow row fields).All Plain := Prog.All.perform h

theorem markFailed_plain (errorType : ErrorType) (failureReason : Text) :
    (markFailed row errorType failureReason).All Plain := updateRow_plain rfl

theorem sendReplacement_plain (result : SignTransactionResult) :
    (sendReplacement cfg row result).All Plain := by
  refine Prog.All.bind (Prog.All.tryCatch ?_ fun error => ?_) fun sent => ?_
  · refine Prog.All.bind (Prog.All.bind (Prog.All.perform trivial) fun _ => ?_) fun value => ?_
    · exact rpcCallWithRetry_all (fun _ => trivial) cfg row.chainId
    · split <;> trivial
  · exact Prog.All.bind (markFailed_plain _ _) fun _ => trivial
  · split
    · refine Prog.All.bind (Prog.All.perform trivial) fun _ => ?_
      exact Prog.All.bind (Prog.All.perform trivial) fun _ => updateRow_plain rfl
    · trivial

theorem signReplacement_keeps {walletRow : Wallet} {txFields : TxFields}
    (hallowed : AllowedBefore cfg w history walletRow.id txFields.request)
    (seedRow : OrganizationSeed) :
    Keeps (growth cfg guard) (Inv cfg) (fun _ _ _ => True)
      (signReplacement cfg row walletRow seedRow txFields) w history := by
  refine Keeps.bind (P := fun _ _ _ => True) ?_ ?_ fun _ _ _ _ => trivial
  · refine Keeps.tryCatch (P := fun _ _ _ => True) ?_ (fun _ _ _ h => h) ?_
    · exact Keeps.bind (sign_keeps hallowed) (fun _ _ _ _ _ => trivial) fun _ _ _ _ => trivial
    · intro error s' history' _ _
      refine Keeps.of_harmless (plain_all ?_) s' history'
      exact Prog.All.bind (markFailed_plain _ _) fun _ => trivial
  · intro result s' history' _ _
    cases result with
    | none => trivial
    | some result => exact Keeps.of_harmless (plain_all (sendReplacement_plain result)) s' history'

/-- The replacement is about what the row holds. -/
theorem rebuild_keeps (txPayload : TxFields) :
    Keeps (growth cfg guard) (Inv cfg)
      (fun outcome _ _ => ∀ txFields, outcome = .ok txFields →
        txFields.request = replayed row txPayload)
      (rebuild cfg row txPayload) w history := by
  refine Keeps.harmless_bind (queries_all (estimateFees_queries ..)) ?_ ?_
  · intro fees s' history' _
    split
    · rintro txFields heq
      cases heq
      rfl
    · exact fun txFields heq => nomatch heq
  · exact fun error s' history' _ txFields heq => nomatch heq

theorem speedUp_keeps (hcovered : Covered cfg w history row) :
    Keeps (growth cfg guard) (Inv cfg) (fun _ _ _ => True) (speedUp cfg row) w history := by
  rw [speedUp]
  split
  · exact Keeps.of_harmless (plain_all (markFailed_plain _ _)) w history
  · split
    · exact Keeps.of_harmless (plain_all (markFailed_plain _ _)) w history
    · rename_i txPayload hpayload
      refine Keeps.bind (P := fun outcome _ _ => ∀ walletRow, outcome = .ok (some walletRow) →
        walletRow.id = row.walletId) (plain_keeps (by exact trivial) ?_) ?_ fun _ _ _ _ => trivial
      · rintro i choice reply s t history' _ hexec walletRow rfl
        have hid := (exec_walletFindById hexec).1
        rw [Uuid.ofText_toText] at hid
        exact (Option.some.inj hid).symm
      · intro found s₁ history₁ hgrows₁ hwallet
        cases found with
        | none => exact Keeps.of_harmless (plain_all (markFailed_plain _ _)) s₁ history₁
        | some walletRow =>
          refine Keeps.harmless_bind (queries_all (sql_queries rfl)) ?_ fun _ _ _ _ => trivial
          intro seed s₂ history₂ hgrows₂
          cases seed with
          | none => exact Keeps.of_harmless (plain_all (markFailed_plain _ _)) s₂ history₂
          | some seedRow =>
            refine Keeps.bind (rebuild_keeps txPayload) ?_ fun _ _ _ _ => trivial
            intro txFields s₃ history₃ hgrows₃ hfields
            have hlater := (hgrows₁.1.trans hgrows₂.1).trans hgrows₃.1
            have hpast := (hgrows₁.2.trans hgrows₂.2).trans hgrows₃.2
            refine signReplacement_keeps ?_ seedRow
            rw [hwallet walletRow rfl, hfields txFields rfl]
            exact AllowedBefore.grow (hcovered txPayload hpayload) hlater hpast

theorem settle_plain (receipt : TransactionReceipt) : (settle row receipt).All Plain := by
  rw [settle]
  split
  · exact Prog.All.bind (Prog.All.perform trivial) fun now => updateRow_plain rfl
  · exact markFailed_plain _ _

theorem checkStuck_keeps (hcovered : Covered cfg w history row) (txHash : Text) :
    Keeps (growth cfg guard) (Inv cfg) (fun _ _ _ => True) (checkStuck cfg row txHash)
      w history := by
  refine Keeps.harmless_bind (queries_all now_queries) ?_ fun _ _ _ _ => trivial
  intro now s₁ history₁ hgrows₁
  dsimp only
  split
  · trivial
  · refine Keeps.harmless_bind (queries_all (getTransactionByHash_queries ..)) ?_
      fun _ _ _ _ => trivial
    intro txData s₂ history₂ hgrows₂
    split
    · exact Keeps.of_harmless (plain_all (updateRow_plain rfl)) s₂ history₂
    · exact speedUp_keeps (Covered.grow (Covered.grow hcovered hgrows₁.1 hgrows₁.2)
        hgrows₂.1 hgrows₂.2)

theorem processRow_keeps (hcovered : Covered cfg w history row) :
    Keeps (growth cfg guard) (Inv cfg) (fun _ _ _ => True) (processRow cfg row) w history := by
  rw [processRow]
  split
  · exact Keeps.of_harmless (plain_all (markFailed_plain _ _)) w history
  · refine Keeps.harmless_bind (queries_all (Prog.All.tryCatch ?_ fun _ => trivial)) ?_
      fun _ _ _ _ => trivial
    · exact Prog.All.bind (getTransactionReceipt_queries ..) fun _ => trivial
    · intro receipt s' history' hgrows
      split
      · trivial
      · exact Keeps.of_harmless (plain_all (settle_plain _)) s' history'
      · exact checkStuck_keeps (Covered.grow hcovered hgrows.1 hgrows.2) _

theorem processRows_keeps (rows : List SigningRequest) :
    ∀ (w : World) (history : List ServiceEntry), (∀ row ∈ rows, Covered cfg w history row) →
      Keeps (growth cfg guard) (Inv cfg) (fun _ _ _ => True) (processRows cfg rows) w history := by
  induction rows with
  | nil => exact fun _ _ _ => trivial
  | cons row rest ih =>
    intro w history hcovered
    obtain ⟨hrow, hrest⟩ := List.forall_mem_cons.mp hcovered
    refine Keeps.bind (P := fun _ _ _ => True) ?_ ?_ fun _ _ _ _ => trivial
    · exact Keeps.tryCatch (processRow_keeps hrow) (fun _ _ _ h => h) fun _ _ _ _ _ => trivial
    · intro value s' history' hgrows _
      exact ih s' history' fun other hother => Covered.grow (hrest other hother) hgrows.1 hgrows.2

theorem poll_keeps :
    Keeps (growth cfg guard) (Inv cfg) (fun _ _ _ => True) (poll cfg) w history := by
  refine Keeps.bind (P := fun (outcome : Except JsError (List SigningRequest)) w' history' =>
    ∀ rows, outcome = .ok rows → ∀ row ∈ rows, Covered cfg w' history' row) ?_
    (fun rows s' history' _ hrows => processRows_keeps rows s' history' (hrows rows rfl))
    fun _ _ _ _ => trivial
  · refine Keeps.tryCatch (P := fun (outcome : Except JsError (List SigningRequest)) w' history' =>
      ∀ rows, outcome = .ok rows → ∀ row ∈ rows, Covered cfg w' history' row)
      (plain_keeps (by exact trivial) ?_) (fun _ _ _ h => h) ?_
    · rintro i choice reply s t history' hinv hexec rows rfl row hrow
      obtain ⟨rfl, hmem⟩ := exec_findBroadcasted hexec
      exact Covered.grow (hinv.covered row (hmem row hrow)) (.refl _) (List.suffix_cons _ _)
    · rintro error s' history' _ _ rows heq
      cases heq
      exact fun row hrow => absurd hrow List.not_mem_nil

theorem monitor_keeps (cycles : Nat) : ∀ (w : World) (history : List ServiceEntry),
    Keeps (growth cfg guard) (Inv cfg) (fun _ _ _ => True) (monitor cfg cycles) w history := by
  induction cycles with
  | zero => exact fun _ _ => trivial
  | succ cycles ih =>
    intro w history
    exact Keeps.bind poll_keeps (fun _ s' history' _ _ => ih s' history') fun _ _ _ _ => trivial

end Monitor

/-! ### All threads -/

theorem spawned_harmless (command : Cmd) (thread : Js Outcome)
    (h : thread ∈ (services cfg).spawns command) :
    thread.All (Harmless guard (services cfg) (Inv cfg)) := by
  cases command with
  | fork job =>
    cases job with
    | syncNonce walletId chainId walletAddress =>
      rw [List.mem_singleton.mp h]
      refine Prog.All.bind (Prog.All.bind ?_ fun _ => ?_) fun _ => trivial
      · exact queries_all (rpcCallWithRetry_queries rfl cfg chainId)
      · exact plain_all (Prog.All.perform trivial)
  | _ => cases h

theorem event_inv {event : Event} (h : Inv cfg w history) (hevent : w.event event = some w') :
    Inv cfg w' history := by
  have hrequests := (World.event_tables hevent).1
  have hgrows := event_grows hevent
  refine ⟨?_, ?_, ?_, ?_⟩
  · rw [UniqueIds, hrequests]
    exact h.ids
  · rw [hrequests]
    exact h.keyed
  · rw [hrequests]
    exact fun row hrow => Covered.grow (h.covered row hrow) hgrows (List.suffix_refl _)
  · intro later entry earlier heq wallet txFields hsigns
    exact AllowedBefore.grow (h.signatures later entry earlier heq wallet txFields hsigns) hgrows
      (List.suffix_refl _)

theorem reach_inv (hsha : Function.Injective cfg.sha256) {calls : List SignCall}
    {monitors : List Nat} {p : ServicePool} (hrows : w.tables.requests = [])
    (hreach : Reach (services cfg) guard (signing cfg calls monitors w) p) :
    Inv cfg p.state p.history := by
  have hstart : Inv cfg w [] := by
    refine ⟨?_, ?_, ?_, ?_⟩
    · rw [UniqueIds, hrows]
      exact List.nodup_nil
    · rw [hrows]
      exact fun row hrow => absurd hrow List.not_mem_nil
    · rw [hrows]
      exact fun row hrow => absurd hrow List.not_mem_nil
    · intro later entry earlier heq
      cases later <;> cases heq
  refine (Reach.keeps (growth cfg guard) hreach hstart ?_ spawned_harmless ?_).1
  · intro thread hthread
    rcases List.mem_append.mp hthread with hcall | hmonitor
    · obtain ⟨call, _, rfl⟩ := List.mem_map.mp hcall
      exact Keeps.bind (requestSign_keeps hsha _ _ _) (fun _ _ _ _ _ => trivial)
        fun _ _ _ _ => trivial
    · obtain ⟨cycles, _, rfl⟩ := List.mem_map.mp hmonitor
      exact monitor_keeps cycles w []
  · exact fun event s s' history hinv _ hevent => event_inv hinv hevent

/-! ### The evaluation that an audit row ends -/

section Evaluations

variable {start p p' q : ServicePool} {j : Nat}

/-- After the evaluation a call writes no `allowed` audit row. -/
theorem process_eq (cfg : Config) (orgId walletId : Text) (req : SignRequest)
    (seedRow : OrganizationSeed) (walletRow : Wallet) (idempotencyKey : Text) :
    ∃ k : Except JsError PolicyEvaluationResult → Js Outcome,
      (∀ outcome, (k outcome).All NeverAllows) ∧
      (process cfg orgId walletId req seedRow walletRow idempotencyKey >>= fun result =>
        pure (Outcome.signResult result)) =
      (PolicyService.evaluate cfg orgId walletId (policyPayload cfg req)).andThen k := by
  refine ⟨_, fun outcome => ?_,
    ((congrArg (Prog.andThen · _) (Prog.andThen_assoc ..)).trans (Prog.andThen_assoc ..))⟩
  refine Prog.All.bind (Prog.All.bind (p := Prog.onValue _ outcome) ?_ fun _ => ?_) fun _ => trivial
  · cases outcome with
    | error error => trivial
    | ok result => dsimp only [Prog.onValue]; split <;> trivial
  refine Prog.All.bind (Prog.All.mono (fun _ => neverAllows_of_query) (estimateFees_queries ..))
    fun fees => ?_
  refine Prog.All.bind (createOrReuse_all (fun _ => neverAllows_of_query) ?_ ?_ ..)
    fun claimed => ?_
  · rintro data _ _ _ _ ⟨⟩
  · rintro id fields _ _ _ _ ⟨⟩
  · cases claimed with
    | existing result => trivial
    | own id => apply submit_all <;> (intros; rintro _ _ _ _ ⟨⟩)

/-- A call that writes the `allowed` audit row ends an evaluation with it. -/
theorem executed_of_allowed {call : SignCall} (hthread : start.threads[j]? = some (call.start cfg))
    (hreach : Reach (services cfg) .any start p) {orgId walletId : Text} {policiesChecked : Nat}
    {txPayload : TxPayload} {next : Except JsError Unit → Js Outcome} {choice : Choice}
    (hcall : p.threads[j]? =
      some (.call (allowedAudit orgId walletId policiesChecked txPayload) next))
    (hstep : (services cfg).step p (.thread j choice) = some p')
    (hexec : exec (allowedAudit orgId walletId policiesChecked txPayload) choice p.state =
      some (.ok (), p'.state)) :
    ∃ result, Executed (services cfg) .any start p'
      (PolicyService.evaluate cfg orgId walletId txPayload) (.ok result) ∧
      result.decision = .allow := by
  have hallowed : ¬NeverAllows (allowedAudit orgId walletId policiesChecked txPayload) :=
    fun h => h _ _ _ _ rfl
  have hqueries : ∀ {α : Type} {p : Js α}, Queries p → p.All NeverAllows :=
    fun h => Prog.All.mono (fun _ => neverAllows_of_query) h
  rw [SignCall.start, requestSign, Prog.bind_assoc] at hthread
  obtain ⟨⟨seedRow, walletRow⟩, q₁, hthread₁, hloads, hq₁⟩ :=
    Reach.past_bind hthread (hqueries (loadPrerequisites_queries ..)) hreach hcall hallowed
  rw [Prog.bind_assoc] at hthread₁
  obtain ⟨existing, q₂, hthread₂, hfinds, hq₂⟩ :=
    Reach.past_bind hthread₁ (hqueries (sql_queries rfl)) hq₁ hcall hallowed
  cases hfound : unlessFailed existing with
  | some row =>
    rw [hfound] at hthread₂
    exact absurd (Reach.at_command hthread₂ trivial hq₂ hcall) hallowed
  | none =>
    obtain ⟨k, hk, heq⟩ := process_eq cfg call.orgId call.walletId call.req seedRow
      walletRow (computeIdempotencyKey cfg call.walletId call.req)
    simp only [hfound] at hthread₂
    rw [heq] at hthread₂
    rcases Reach.executes hthread₂ hq₂ with ⟨command, next', h⟩ | ⟨outcome, q₃, h, hq₃⟩
    · have hat := h.thread
      rw [hcall] at hat
      cases hat
      obtain ⟨hends, _⟩ := h.residual (J := PolicyService.EndsAllowed _ _ _)
        (fun _ _ reply hends => hends.2 reply) PolicyService.evaluate_endsAllowed
      obtain ⟨⟨rfl, rfl, rfl⟩, hreturns⟩ := hends _ _ _ _ rfl
      obtain ⟨result, hreturn, hdecision⟩ := hreturns ()
      have hended := Executes.own h (fun _ _ _ => trivial) hstep hexec
      rw [hreturn] at hended
      exact ⟨result, ⟨j, k, q₂, p', hloads.reach.trans hfinds.reach, hended, .refl⟩, hdecision⟩
    · have hat := h.thread
      rw [Prog.ended_andThen] at hat
      exact absurd (Reach.at_command hat (hk outcome) hq₃ hcall) hallowed

end Evaluations

section Pending

variable {cfg : Config} {w : World} {calls : List SignCall} {monitors : List Nat}
  {p q : ServicePool}

theorem spawned_never (command : Cmd) (thread : Js Outcome)
    (h : thread ∈ (services cfg).spawns command) : thread.All NeverAllows := by
  cases command with
  | fork job =>
    cases job with
    | syncNonce walletId chainId walletAddress =>
      rw [List.mem_singleton.mp h]
      refine Prog.All.bind (Prog.All.bind ?_ fun _ => ?_) fun _ => trivial
      · exact rpcCallWithRetry_all (fun _ => neverAllows_of_query rfl) cfg chainId
      · apply Prog.All.perform
        rintro _ _ _ _ ⟨⟩
  | _ => cases h

/-- Only a call writes an `allowed` audit row. -/
theorem call_of_allowed (hreach : Reach (services cfg) .any (signing cfg calls monitors w) q)
    {i : Nat} {orgId walletId : Text} {policiesChecked : Nat} {txPayload : TxPayload}
    {next : Except JsError (allowedAudit orgId walletId policiesChecked txPayload).Reply →
      Js Outcome}
    (hcall : q.threads[i]? =
      some (.call (allowedAudit orgId walletId policiesChecked txPayload) next)) :
    ∃ call, (signing cfg calls monitors w).threads[i]? = some (SignCall.start cfg call) := by
  have hallowed : ¬NeverAllows (allowedAudit orgId walletId policiesChecked txPayload) :=
    fun h => h _ _ _ _ rfl
  rcases (Reach.origin rfl hreach).2 i _ hcall with hlt | ⟨_, _, thread, hspawned, hissues⟩
  · have hthread := List.getElem?_eq_getElem hlt
    rcases List.mem_append.mp (List.mem_of_getElem? hthread) with hstart | hmonitor
    · obtain ⟨call, _, heq⟩ := List.mem_map.mp hstart
      exact ⟨call, heq ▸ hthread⟩
    · obtain ⟨cycles, _, heq⟩ := List.mem_map.mp hmonitor
      rw [← heq] at hthread
      have hall : (monitor cfg cycles).All NeverAllows :=
        Prog.All.mono (fun _ => neverAllows_of_insertsNone) (Monitor.monitor_insertsNone cycles)
      exact absurd (Reach.at_command hthread hall hreach hcall) hallowed
  · have hissued := hissues (allowedAudit orgId walletId policiesChecked txPayload)
      (.here _ next)
    exact absurd (Prog.All.of_issues hissued (spawned_never _ thread hspawned)) hallowed

/-- What the history shows has been evaluated. -/
theorem AllowedBefore.authorised
    (hreach : Reach (services cfg) .any (signing cfg calls monitors w) q) {wallet : Uuid}
    {req : SignRequest} (h : AllowedBefore cfg q.state q.history wallet req) :
    Authorised cfg (signing cfg calls monitors w) q wallet req := by
  obtain ⟨row, walletId, hrow, hid, entry, hmem, hanswered, policiesChecked, hcommand⟩ := h
  obtain ⟨later, earlier, hhistory⟩ := List.append_of_mem hmem
  obtain ⟨r, r', choice, command, next, reply, hr, _, hcall, _, hstep, hexec, heq, hr'⟩ :=
    Reach.entered rfl hreach hhistory
  rw [heq] at hanswered hcommand
  change command = _ at hcommand
  subst hcommand
  change reply.isOk = true at hanswered
  cases reply with
  | error error => cases hanswered
  | ok value =>
    obtain ⟨call, hthread⟩ := call_of_allowed hr hcall
    obtain ⟨result, ⟨i, k, s, s', hs, hexecutes, hs'⟩, hdecision⟩ :=
      executed_of_allowed hthread hr hcall hstep hexec
    exact ⟨row, walletId, result, hrow, hid, ⟨i, k, s, s', hs, hexecutes, hs'.trans hr'⟩, hdecision⟩

/-- The sidecar can always refuse. -/
theorem refused (hreach : Reach (services cfg) .any (signing cfg calls monitors w) p) {i : Nat}
    {request : SidecarRequest} {next : Except JsError request.Reply → Js Outcome}
    (hcall : p.threads[i]? = some (.call (.sidecar request) next)) :
    ∃ p' entry, Reach (services cfg) .any (signing cfg calls monitors w) p' ∧
      p'.state = p.state ∧ p'.history = entry :: p.history ∧
      entry.command = .sidecar request := by
  have hexec : (services cfg).exec (.sidecar request) (.reject typeError) p.state =
      some (.error typeError, p.state) := by
    cases request <;> rfl
  have hstep : (services cfg).step p (.thread i (.reject typeError)) = some
      { state := p.state
        threads := p.threads.set i (next (.error typeError)) ++
          (services cfg).spawns (.sidecar request)
        history := ⟨i, .sidecar request, .reject typeError, false⟩ :: p.history } := by
    simp only [System.step, hcall, hexec, Option.map_some]
    rfl
  have hadmits : Guard.any.Admits p (Move.thread (E := Event) i (.reject typeError)) :=
    fun _ _ _ => trivial
  exact ⟨_, _, hreach.move hadmits hstep, rfl, rfl, rfl⟩

end Pending

end PolicyAuthority

/-- **Every signature is asked for with authority.**  In every interleaving of calls and
    monitors, while policies, wallets and seeds change, a thread that is at a call of the
    sidecar asks it to sign what an evaluation has allowed. -/
theorem signTransaction_authorised {cfg : Config} {calls : List SignCall} {monitors : List Nat}
    {w : World} {p : ServicePool} (hsha : Function.Injective cfg.sha256)
    (hrows : w.tables.requests = [])
    (hreach : Reach (services cfg) .any (signing cfg calls monitors w) p) {i : Nat}
    {wallet origin : Uuid} {key : KeyMaterial} {txFields : TxFields}
    {next : Except JsError SignTransactionResult → Js Outcome}
    (hcall : p.threads[i]? =
      some (.call (.sidecar (.signTransaction wallet origin key txFields)) next)) :
    Authorised cfg (signing cfg calls monitors w) p wallet txFields.request := by
  obtain ⟨p', entry, hreach', hstate, hhistory, hcommand⟩ := PolicyAuthority.refused hreach hcall
  have hallowed := (PolicyAuthority.reach_inv hsha hrows hreach').signatures [] entry p.history
    hhistory wallet txFields (by simp only [PolicyAuthority.signed, hcommand])
  rw [hstate] at hallowed
  exact hallowed.authorised hreach

namespace PolicyAuthority

open Sample

/-- What a thread is about to have signed. -/
def toSign : Js Outcome → Option (Uuid × TxFields)
  | .call (.sidecar (.signTransaction wallet _ _ txFields)) _ => some (wallet, txFields)
  | _ => none

theorem call_of_toSign {thread : Js Outcome} {wallet : Uuid} {txFields : TxFields}
    (h : toSign thread = some (wallet, txFields)) :
    ∃ origin key next,
      thread = .call (.sidecar (.signTransaction wallet origin key txFields)) next := by
  cases thread with
  | call command next =>
    cases command with
    | sidecar request =>
      cases request with
      | signTransaction wallet' origin key txFields' =>
        cases h
        exact ⟨origin, key, next, rfl⟩
      | _ => cases h
    | _ => cases h
  | _ => cases h

/-- A call goes through, and a poll cycle later its transaction is about to be replaced. -/
def untilReplaced : List (Move Choice Event) :=
  moves 0 (untilFees ++ .done (freshId 1) :: signs "first".toList "hash1".toList ++
    [run, accepts, run, run, run]) ++
  .env (.tick 2000) ::
  moves 1 [run, answer .null, run, answer .transaction, run, run, answer (.quantity 21000),
    answer (.feeHistory [7] [[1]])]

end PolicyAuthority

open Sample PolicyAuthority in
/-- A replacement, which its own thread never asked the policies about. -/
theorem signTransaction_authorised_replacement :
    ∃ p thread txFields, Reach (services config) .any
        (signing config [transfer "1".toList] [1] world) p ∧
      p.threads[1]? = some thread ∧ toSign thread = some (wallet, txFields) ∧
      Authorised config (signing config [transfer "1".toList] [1] world) p wallet
        txFields.request := by
  obtain ⟨p, hreach, hp⟩ := Reach.exists_of_run (services config) .any
    (signing config [transfer "1".toList] [1] world) untilReplaced
    (fun p => p.threads[1]?.any fun thread => (toSign thread).any fun pair => pair.1 = wallet)
    (by decide)
  simp only [Option.any_eq_true, decide_eq_true_eq] at hp
  obtain ⟨thread, hthread, ⟨_, txFields⟩, hsigns, rfl⟩ := hp
  obtain ⟨origin, key, next, rfl⟩ := call_of_toSign hsigns
  exact ⟨p, _, txFields, hreach, hthread, hsigns,
    signTransaction_authorised Function.injective_id rfl hreach hthread⟩

end BrokeTurnkey
