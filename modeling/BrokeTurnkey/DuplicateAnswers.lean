import BrokeTurnkey.Rows
import BrokeTurnkey.Interaction.Automaton

/-!
# What duplicate calls report

The row of a key is visible from the moment it is inserted, its payload from step 6 on.  A
duplicate builds its result from the columns that are there, and reports nonce 0 where there
is no payload yet.  If every lookup that is answered finds the payload, all calls report the
row and the nonce of the call that created it.
-/

namespace BrokeTurnkey

open Interaction

/-- The command gives an attempt up. -/
def Cmd.fails : Cmd → Bool
  | .sql (.requestUpdate _ fields) => fields.status = some .failed
  | _ => false

/-- The key a command looks up. -/
def Cmd.looksUp : Cmd → Option Text
  | .sql (.requestFindByIdempotencyKey key) => some key
  | _ => none

/-- No attempt fails. -/
def unfailing : Guard Cmd Choice Event World where
  command := fun command _ _ => command.fails = false
  event := fun _ _ => True

/-- No attempt fails, and no lookup is answered with a row without a payload. -/
def preparedLookups : Guard Cmd Choice Event World where
  command := fun command choice w => command.fails = false ∧
    (choice.ran = true → choice.isLost = false → ∀ key ∈ command.looksUp,
      ((keyRow key w.tables).all fun row => row.txPayload.isSome) = true)
  event := fun _ _ => True

instance : unfailing.Decides where
  command := fun command _ _ => inferInstanceAs (Decidable (command.fails = false))
  event := fun _ _ => isTrue trivial

instance : preparedLookups.Decides where
  command := fun command choice w => inferInstanceAs (Decidable (command.fails = false ∧
    (choice.ran = true → choice.isLost = false → ∀ key ∈ command.looksUp,
      ((keyRow key w.tables).all fun row => row.txPayload.isSome) = true)))
  event := fun _ _ => isTrue trivial

/-- The call returned this result. -/
def Returned (p : ServicePool) (i : Nat) (result : SignResult) : Prop :=
  p.threads[i]? = some (.ret (.signResult result))

/-- Whoever returns reports the row that one call created, and the nonce it reserved. -/
def AnswersAgree (cfg : Config) (guard : Guard Cmd Choice Event World)
    (start p : ServicePool) : Prop :=
  ∃ creator, ∀ i result, Returned p i result →
    (∃ data row, Answered (services cfg) guard start p creator (.sql (.requestCreate data))
        (.ok row) ∧ result.signingRequestId = row.id.toText) ∧
      (∃ walletId chainId, Answered (services cfg) guard start p creator
        (.sql (.nonceReserve walletId chainId)) (.ok result.nonce)) ∧
      ∀ j other, Returned p j other →
        other.signingRequestId = result.signingRequestId ∧ other.nonce = result.nonce

namespace DuplicateAnswers

/-! ### The stages of a call -/

inductive Stage where
  | start
  /-- the row whose columns the call returns -/
  | found (row : SigningRequest)
  | owner (id : Uuid)
  | held (id : Uuid) (nonce : Int)
  /-- the call has read a failed row -/
  | retrying

/-- The row the call created. -/
def Stage.created : Stage → Option Uuid
  | .owner id | .held id _ => some id
  | _ => none

/-- Neither a write of a signing request nor a reservation. -/
def Quiet : Cmd → Bool
  | .sql (.requestCreate _) | .sql (.requestUpdate _ _) | .sql (.nonceReserve _ _) => false
  | _ => true

inductive Step (key : Text) : Automaton Cmd Cmd.Reply JsError Stage where
  | quiet {stage : Stage} {command : Cmd} {reply : Except JsError command.Reply}
      (hquiet : Quiet command = true) : Step key stage command reply stage
  | finds {row : SigningRequest} (hlive : row.status ≠ .failed) :
      Step key .start (.sql (.requestFindByIdempotencyKey key)) (.ok (some row)) (.found row)
  | findsFailed {row : SigningRequest} (hfailed : row.status = .failed) :
      Step key .start (.sql (.requestFindByIdempotencyKey key)) (.ok (some row)) .retrying
  | creates {data : NewSigningRequest} {row : SigningRequest} (hkey : data.idempotencyKey = key)
      (hpending : data.status = .pending) :
      Step key .start (.sql (.requestCreate data)) (.ok row) (.owner row.id)
  | notCreates {data : NewSigningRequest} {error : JsError} (hkey : data.idempotencyKey = key)
      (hpending : data.status = .pending) :
      Step key .start (.sql (.requestCreate data)) (.error error) .start
  | reserves {id : Uuid} {walletId : Text} {chainId : Nat} {nonce : Int} :
      Step key (.owner id) (.sql (.nonceReserve walletId chainId)) (.ok nonce) (.held id nonce)
  | notReserves {id : Uuid} {walletId : Text} {chainId : Nat} {error : JsError} :
      Step key (.owner id) (.sql (.nonceReserve walletId chainId)) (.error error) (.owner id)
  | writes {id : Uuid} {nonce : Int} {fields : SigningRequestUpdate} {reply : Except JsError Unit}
      (hpayload : ∀ txFields ∈ fields.txPayload, txFields.nonce = nonce) :
      Step key (.held id nonce) (.sql (.requestUpdate id fields)) reply (.held id nonce)
  | retries {command : Cmd} {reply : Except JsError command.Reply} :
      Step key .retrying command reply .retrying

/-- What a call that ends at a stage may return. -/
def Answers (stage : Stage) : Except JsError SignResult → Prop
  | .ok result => stage = .retrying ∨
      (∃ row, stage = .found row ∧ result = WalletService.buildSignResultFromRequest row) ∨
      ∃ id, stage = .held id result.nonce ∧ result.signingRequestId = id.toText
  | .error _ => True

/-! ### The calls follow them -/

section Follows

variable {key : Text} {stage : Stage}

theorem quiet_of_query {command : Cmd} (h : command.isQuery = true) : Quiet command = true := by
  cases command with
  | sql statement =>
    cases statement with
    | requestCreate data => simp [Cmd.isQuery, Sql.writes] at h
    | requestUpdate id fields => simp [Cmd.isQuery, Sql.writes] at h
    | nonceReserve walletId chainId => simp [Cmd.isQuery, Sql.writes] at h
    | _ => rfl
  | _ => rfl

theorem quiet_all {α : Type} {p : Js α} (h : p.All fun command => Quiet command = true) :
    p.All fun command => ∀ reply, Step key stage command reply stage :=
  h.mono fun _ hquiet _ => .quiet hquiet

theorem queries_quiet {α : Type} {p : Js α} (h : Queries p) :
    p.All fun command => ∀ reply, Step key stage command reply stage :=
  quiet_all (h.mono fun _ => quiet_of_query)

/-- Nothing is said of a call that has read a failed row. -/
theorem retrying_follows (p : Js SignResult) : Follows (Step key) Answers .retrying p := by
  have hstays : p.All fun command => ∀ reply, Step key .retrying command reply .retrying :=
    (Prog.all_true p).mono fun _ _ _ => .retries
  apply (Follows.stay hstays).mono
  intro stage outcome hstage
  cases outcome with
  | ok result => exact .inl hstage
  | error error => trivial

/-- Where a lookup leads. -/
def lookedUp : Option SigningRequest → Stage
  | none => .start
  | some row => if row.status = .failed then .retrying else .found row

theorem lookup_follows :
    Follows (Step key) (LeadsOr lookedUp .start) .start
      (Js.sql (.requestFindByIdempotencyKey key)) := by
  apply Follows.perform_leadsOr
  · intro found
    cases found with
    | none => exact .quiet rfl
    | some row =>
      by_cases hfailed : row.status = .failed
      · simp only [lookedUp, hfailed, if_true]
        exact .findsFailed hfailed
      · simp only [lookedUp, hfailed, if_false]
        exact .finds hfailed
  · intro error
    exact .quiet rfl

/-- A call that has claimed its row owns it, or has its answer. -/
def Claims (stage : Stage) : Except JsError WalletService.Claimed → Prop
  | .ok (.own id) => stage = .owner id ∨ stage = .retrying
  | .ok (.existing result) => Answers stage (.ok result)
  | .error _ => True

theorem reuseRow_follows (conflict : JsError) :
    Follows (Step key) Claims .start (WalletService.reuseRow key conflict) := by
  apply Follows.leadsOr_bind lookup_follows
  · intro raced
    cases raced with
    | none => trivial
    | some row =>
      by_cases hfailed : row.status = .failed
      · simp only [lookedUp, WalletService.unlessFailed, Option.filter, hfailed, if_true, ne_eq,
          not_true_eq_false, decide_false]
        apply Follows.stay_bind (Prog.All.perform fun _ => .retries)
        · intro _
          exact .inr rfl
        · intro error
          trivial
      · simp only [lookedUp, WalletService.unlessFailed, Option.filter, hfailed, if_false, ne_eq,
          not_false_eq_true, decide_true, if_true]
        exact .inr (.inl ⟨row, rfl, rfl⟩)
  · intro error
    trivial

theorem createOrReuse_follows (orgId walletId : Text) (req : SignRequest) :
    Follows (Step key) Claims .start (WalletService.createOrReuse orgId walletId req key) := by
  apply Follows.tryCatch (P := fun stage outcome => match outcome with
    | .ok claimed => Claims stage (.ok claimed)
    | .error _ => stage = .start)
  · apply Follows.leadsOr_bind (Follows.perform_leadsOr (fun _ => .creates rfl rfl)
      fun _ => .notCreates rfl rfl)
    · intro row
      exact .inl rfl
    · intro error
      rfl
  · intro stage claimed h
    exact h
  · intro stage error hstage
    subst hstage
    split
    · trivial
    · exact reuseRow_follows error

theorem prepareFields_follows (walletId : Text) (req : SignRequest) (fees : FeeEstimate)
    (id : Uuid) :
    Follows (Step key) (Leads (fun txFields => .held id txFields.nonce) fun _ => True)
      (.owner id) (WalletService.prepareFields walletId req fees id) := by
  apply Follows.leadsOr_bind (Follows.perform_leadsOr (fun _ => .reserves) fun _ => .notReserves)
  · intro nonce
    apply Follows.stay_bind (Prog.All.perform fun _ => .writes (by rintro _ ⟨⟩; rfl))
    · intro _
      rfl
    · intro error
      trivial
  · intro error
    trivial

section Held

variable {cfg : Config} {id : Uuid} {nonce : Int}

theorem signStep_stays (seedRow : OrganizationSeed) (wallet : Wallet) (walletId : Text)
    (txFields : TxFields) :
    (WalletService.signStep seedRow wallet walletId txFields id).All fun command =>
      ∀ reply, Step key (.held id nonce) command reply (.held id nonce) := by
  refine Prog.All.tryCatch (Prog.All.perform fun _ => .quiet rfl) fun error => ?_
  refine Prog.All.bind (Prog.All.perform fun _ => .writes (by rintro _ ⟨⟩)) fun _ => ?_
  exact Prog.All.bind (Prog.All.perform fun _ => .quiet rfl) fun _ => trivial

theorem storeSigned_stays (signResult : SignTransactionResult) :
    (WalletService.storeSigned id signResult).All fun command =>
      ∀ reply, Step key (.held id nonce) command reply (.held id nonce) := by
  refine Prog.All.bind (Prog.All.perform fun _ => .quiet rfl) fun _ => ?_
  exact Prog.All.perform fun _ => .writes (by rintro _ ⟨⟩)

theorem broadcastStep_stays (wallet : Wallet) (walletId : Text) (chainId : Nat)
    (signResult : SignTransactionResult) :
    (WalletService.broadcastStep cfg wallet walletId chainId signResult id).All fun command =>
      ∀ reply, Step key (.held id nonce) command reply (.held id nonce) := by
  refine Prog.All.tryCatch ?_ fun error => ?_
  · refine Prog.All.bind ?_ fun _ => Prog.All.bind (Prog.All.perform fun _ => .quiet rfl) fun _ =>
      Prog.All.perform fun _ => .writes (by rintro _ ⟨⟩)
    refine Prog.All.bind (Prog.All.perform fun _ => .quiet rfl) fun _ => ?_
    exact rpcCallWithRetry_all (fun _ _ => .quiet rfl) cfg chainId
  · refine Prog.All.bind (Prog.All.perform fun _ => .writes (by rintro _ ⟨⟩)) fun _ => ?_
    exact Prog.All.bind (Prog.All.perform fun _ => .quiet rfl) fun _ => trivial

/-- The owner of a row reports it with the nonce that was reserved. -/
theorem submit_follows (orgId walletId : Text) (req : SignRequest) (seedRow : OrganizationSeed)
    (wallet : Wallet) (idempotencyKey : Text) (fees : FeeEstimate) :
    Follows (Step key) Answers (.owner id)
      (WalletService.submit cfg orgId walletId req seedRow wallet idempotencyKey fees id) := by
  apply Follows.leads_bind (prepareFields_follows walletId req fees id)
  · intro txFields
    apply Follows.stay_bind (signStep_stays seedRow wallet walletId txFields)
    · intro signResult
      apply Follows.stay_bind (storeSigned_stays signResult)
      · intro _
        apply Follows.stay_bind (broadcastStep_stays wallet walletId req.chainId signResult)
        · intro _
          apply Follows.stay_bind (Prog.All.perform fun _ => .quiet rfl)
          · intro _
            exact .inr (.inr ⟨id, rfl, rfl⟩)
          · intro error
            trivial
        · intro error
          trivial
      · intro error
        trivial
    · intro error
      trivial
  · intro stage error _
    trivial

end Held

theorem requestSign_follows {cfg : Config} (orgId walletId : Text) (req : SignRequest) :
    Follows (Step (WalletService.computeIdempotencyKey cfg walletId req)) Answers .start
      (WalletService.requestSign cfg orgId walletId req) := by
  apply Follows.stay_bind (queries_quiet (WalletService.loadPrerequisites_queries orgId walletId))
  · rintro ⟨seedRow, wallet⟩
    apply Follows.leadsOr_bind lookup_follows
    · intro existing
      split
      · rename_i row hexisting
        obtain ⟨rfl, hlive⟩ := Option.filter_eq_some_iff.mp hexisting
        have hfailed : row.status ≠ .failed := of_decide_eq_true hlive
        simp only [lookedUp, hfailed, if_false]
        exact .inr (.inl ⟨row, rfl, rfl⟩)
      · rename_i hexisting
        cases existing with
        | none =>
          apply Follows.stay_bind (quiet_all (WalletService.evaluatePolicy_all
            (fun _ => quiet_of_query) (fun _ _ => rfl) cfg req))
          · intro _
            apply Follows.stay_bind (queries_quiet (estimateFees_queries ..))
            · intro fees
              apply Follows.bind (createOrReuse_follows orgId walletId req)
              · intro stage claimed hclaims
                cases claimed with
                | existing result => exact hclaims
                | own id =>
                  rcases hclaims with rfl | rfl
                  · exact submit_follows orgId walletId req seedRow wallet _ fees
                  · exact retrying_follows _
              · intro stage error _
                trivial
            · intro error
              trivial
          · intro error
            trivial
        | some row =>
          have hfailed : row.status = .failed := by
            simpa [WalletService.unlessFailed, Option.filter] using hexisting
          simp only [lookedUp, hfailed, if_true]
          exact retrying_follows _
    · intro error
      trivial
  · intro error
    trivial

end Follows

/-! ### The invariant -/

/-- Some call holds the nonce that the row carries. -/
def Held (stage : Nat → Stage) (row : SigningRequest) (txFields : TxFields) : Prop :=
  ∃ i, stage i = .held row.id txFields.nonce

structure Inv (key : Text) (w : World) (stage : Nat → Stage) : Prop where
  live : ∀ row, keyRow key w.tables = some row → row.status ≠ .failed
  whole : ∀ i, stage i ≠ .retrying
  sole : ∀ i j, (stage i).created.isSome = true → (stage j).created.isSome = true → i = j
  known : ∀ i id, (stage i).created = some id → ∃ row, keyRow key w.tables = some row ∧ row.id = id
  payload : ∀ row, keyRow key w.tables = some row → ∀ txFields, row.txPayload = some txFields →
    Held stage row txFields
  seen : ∀ i row, stage i = .found row → ∃ txFields, row.txPayload = some txFields ∧
    Held stage row txFields

section Keeps

variable {key : Text} {w w' : World} {stage : Nat → Stage} {i : Nat} {s : Stage} {command : Cmd}
  {choice : Choice} {reply : Except JsError command.Reply}

theorem Inv.of_eq (h : Inv key w stage) (heq : keyRow key w'.tables = keyRow key w.tables) :
    Inv key w' stage := by
  constructor
  · rw [heq]
    exact h.live
  · exact h.whole
  · exact h.sole
  · rw [heq]
    exact h.known
  · rw [heq]
    exact h.payload
  · exact h.seen

/-- A call that holds a nonce holds it ever after. -/
theorem Held.update {row : SigningRequest} {txFields : TxFields} (h : Held stage row txFields)
    (hstays : ∀ id nonce, stage i = .held id nonce → s = .held id nonce) :
    Held (Function.update stage i s) row txFields := by
  obtain ⟨j, hj⟩ := h
  refine ⟨j, ?_⟩
  by_cases hji : j = i
  · subst hji
    rw [Function.update_self]
    exact hstays _ _ hj
  · rw [Function.update_of_ne hji]
    exact hj

/-- No call has created a row while there is none. -/
theorem Inv.no_creator (h : Inv key w stage) (hnone : keyRow key w.tables = none) (j : Nat) :
    (stage j).created = none := by
  cases hcreated : (stage j).created with
  | none => rfl
  | some id =>
    obtain ⟨row, hrow, _⟩ := h.known j id hcreated
    rw [hnone] at hrow
    cases hrow

/-- The row of an owner has no payload yet. -/
theorem Inv.no_payload (h : Inv key w stage) {id : Uuid} (howner : stage i = .owner id)
    {row : SigningRequest} (hrow : keyRow key w.tables = some row) : row.txPayload = none := by
  cases hpayload : row.txPayload with
  | none => rfl
  | some txFields =>
    obtain ⟨j, hj⟩ := h.payload row hrow txFields hpayload
    have hij := h.sole i j (by rw [howner]; rfl) (by rw [hj]; rfl)
    rw [hij, hj] at howner
    cases howner

/-- A call that owns nothing learns of the row. -/
theorem Inv.finds (h : Inv key w stage) (hstart : stage i = .start) {row : SigningRequest}
    (hrow : keyRow key w.tables = some row) (hpayload : row.txPayload.isSome = true) :
    Inv key w (Function.update stage i (.found row)) := by
  have hstays : ∀ id nonce, stage i = .held id nonce → Stage.found row = .held id nonce := by
    intro id nonce hheld
    rw [hstart] at hheld
    cases hheld
  have hcreated : ∀ j, (Function.update stage i (.found row) j).created = (stage j).created := by
    intro j
    by_cases hji : j = i
    · rw [hji, Function.update_self, hstart]
      rfl
    · rw [Function.update_of_ne hji]
  constructor
  · exact h.live
  · intro j
    by_cases hji : j = i
    · rw [hji, Function.update_self]
      simp
    · rw [Function.update_of_ne hji]
      exact h.whole j
  · intro j k hj hk
    rw [hcreated] at hj hk
    exact h.sole j k hj hk
  · intro j id hj
    rw [hcreated] at hj
    exact h.known j id hj
  · intro row' hrow' txFields htx
    exact (h.payload row' hrow' txFields htx).update hstays
  · intro j row' hj
    by_cases hji : j = i
    · rw [hji, Function.update_self] at hj
      cases hj
      obtain ⟨txFields, htx⟩ := Option.isSome_iff_exists.mp hpayload
      exact ⟨txFields, htx, (h.payload row hrow txFields htx).update hstays⟩
    · rw [Function.update_of_ne hji] at hj
      obtain ⟨txFields, htx, hheld⟩ := h.seen j row' hj
      exact ⟨txFields, htx, hheld.update hstays⟩

/-- The row of a key that has none is inserted, by a call that owns it if it is told. -/
theorem Inv.inserts (h : Inv key w stage) (hnone : keyRow key w.tables = none)
    {row : SigningRequest} (hrow : keyRow key w'.tables = some row) (hlive : row.status ≠ .failed)
    (hpayload : row.txPayload = none) (hs : s = .start ∨ s = .owner row.id) :
    Inv key w' (Function.update stage i s) := by
  have hnobody := h.no_creator hnone
  have honly : ∀ j, (Function.update stage i s j).created.isSome = true →
      j = i ∧ s = .owner row.id := by
    intro j hj
    by_cases hji : j = i
    · refine ⟨hji, hs.resolve_left fun hstart => ?_⟩
      rw [hji, Function.update_self, hstart] at hj
      cases hj
    · rw [Function.update_of_ne hji, hnobody j] at hj
      cases hj
  constructor
  · intro row' hrow'
    cases hrow.symm.trans hrow'
    exact hlive
  · intro j
    by_cases hji : j = i
    · rw [hji, Function.update_self]
      rcases hs with rfl | rfl
      · simp
      · simp
    · rw [Function.update_of_ne hji]
      exact h.whole j
  · intro j k hj hk
    rw [(honly j hj).1, (honly k hk).1]
  · intro j id hj
    obtain ⟨hji, howner⟩ := honly j (by rw [hj]; rfl)
    rw [hji, Function.update_self, howner] at hj
    cases hj
    exact ⟨row, hrow, rfl⟩
  · intro row' hrow' txFields htx
    cases hrow.symm.trans hrow'
    rw [hpayload] at htx
    cases htx
  · intro j row' hj
    by_cases hji : j = i
    · rw [hji, Function.update_self] at hj
      rcases hs with rfl | rfl
      · cases hj
      · cases hj
    · rw [Function.update_of_ne hji] at hj
      obtain ⟨txFields, _, k, hk⟩ := h.seen j row' hj
      have hcreated := hnobody k
      rw [hk] at hcreated
      cases hcreated

/-- The owner reserves its nonce. -/
theorem Inv.reserves (h : Inv key w stage) {id : Uuid} (howner : stage i = .owner id)
    (nonce : Int) : Inv key w (Function.update stage i (.held id nonce)) := by
  have hstays : ∀ id' nonce', stage i = .held id' nonce' →
      Stage.held id nonce = .held id' nonce' := by
    intro id' nonce' hheld
    rw [howner] at hheld
    cases hheld
  have hcreated : ∀ j,
      (Function.update stage i (.held id nonce) j).created = (stage j).created := by
    intro j
    by_cases hji : j = i
    · rw [hji, Function.update_self, howner]
      rfl
    · rw [Function.update_of_ne hji]
  constructor
  · exact h.live
  · intro j
    by_cases hji : j = i
    · rw [hji, Function.update_self]
      simp
    · rw [Function.update_of_ne hji]
      exact h.whole j
  · intro j k hj hk
    rw [hcreated] at hj hk
    exact h.sole j k hj hk
  · intro j id' hj
    rw [hcreated] at hj
    exact h.known j id' hj
  · intro row hrow txFields htx
    rw [h.no_payload howner hrow] at htx
    cases htx
  · intro j row hj
    by_cases hji : j = i
    · rw [hji, Function.update_self] at hj
      cases hj
    · rw [Function.update_of_ne hji] at hj
      obtain ⟨txFields, htx, hheld⟩ := h.seen j row hj
      exact ⟨txFields, htx, hheld.update hstays⟩

/-- The owner writes its row, and no other nonce into it. -/
theorem Inv.writes (h : Inv key w stage) {id : Uuid} {nonce : Int}
    (hheld : stage i = .held id nonce) {fields : SigningRequestUpdate}
    (hpayload : ∀ txFields ∈ fields.txPayload, txFields.nonce = nonce)
    (hfailed : fields.status ≠ some .failed)
    (hrow : keyRow key w'.tables =
      (keyRow key w.tables).map (SigningRequestRepository.updateRow id fields)) :
    Inv key w' stage := by
  obtain ⟨row, hold, hid⟩ := h.known i id (by rw [hheld]; rfl)
  have hnew : keyRow key w'.tables = some (fields.apply row) := by
    rw [hrow, hold, Option.map_some, updateRow_of_id hid]
  constructor
  · intro row' hrow'
    cases hnew.symm.trans hrow'
    simp only [SigningRequestUpdate.apply]
    cases hstatus : fields.status with
    | none => exact h.live row hold
    | some status =>
      intro heq
      exact hfailed (hstatus.trans (congrArg some heq))
  · exact h.whole
  · exact h.sole
  · intro j id' hj
    obtain ⟨row', hrow', hid'⟩ := h.known j id' hj
    cases hold.symm.trans hrow'
    exact ⟨_, hnew, hid'⟩
  · intro row' hrow' txFields htx
    cases hnew.symm.trans hrow'
    simp only [SigningRequestUpdate.apply] at htx ⊢
    cases hfields : fields.txPayload with
    | none =>
      rw [hfields, Option.none_or] at htx
      exact h.payload row hold txFields htx
    | some txFields' =>
      rw [hfields, Option.some_or, Option.some.injEq] at htx
      subst htx
      refine ⟨i, ?_⟩
      rw [hheld, ← hpayload txFields' hfields, ← hid]
  · exact h.seen

theorem writes_of_quiet (h : Quiet command = true) : command.writes ≠ some .requests := by
  cases command with
  | sql statement =>
    cases statement with
    | requestCreate data => cases h
    | requestUpdate id fields => cases h
    | _ => simp [Cmd.writes, Sql.writes]
  | _ => simp [Cmd.writes]

/-- **Every transition of a run without failures and with prepared lookups keeps the
    invariant.** -/
theorem Inv.step (h : Inv key w stage) (hstep : Step key (stage i) command reply s)
    (hguard : preparedLookups.command command choice w)
    (hexec : exec command choice w = some (reply, w')) :
    Inv key w' (Function.update stage i s) := by
  generalize hs : stage i = s₀ at hstep
  cases hstep with
  | quiet hquiet =>
    rw [← hs, Function.update_eq_self]
    apply h.of_eq
    rw [keyRow, (exec_agree hexec).requests (writes_of_quiet hquiet), keyRow]
  | @finds row hlive =>
    obtain ⟨rfl, hrow, hran, hlost⟩ := exec_lookup hexec
    have hpayload := hguard.2 hran hlost key rfl
    rw [hrow] at hpayload
    exact h.finds hs hrow (by simpa using hpayload)
  | @findsFailed row hfailed =>
    obtain ⟨_, hrow, _, _⟩ := exec_lookup hexec
    exact absurd hfailed (h.live row hrow)
  | @creates data row hkey hpending =>
    subst hkey
    rcases exec_insert hexec with ⟨id, org, wallet, _, _, _, hfree, rfl, hok | herror⟩ | ⟨_, herror⟩
    · cases hok
      have hnone := keyRow_eq_none hfree
      have hlive : (SigningRequestRepository.newRow data id org wallet w.clock).status ≠
          .failed := by
        intro hfailed
        cases hpending.symm.trans hfailed
      exact h.inserts hnone (keyRow_append hnone rfl) hlive rfl (.inr rfl)
    · cases herror
    · cases herror
  | @notCreates data error hkey hpending =>
    subst hkey
    rcases exec_insert hexec with ⟨id, org, wallet, _, _, _, hfree, rfl, _⟩ | ⟨rfl, _⟩
    · -- the answer to the insert was lost
      have hnone := keyRow_eq_none hfree
      have hlive : (SigningRequestRepository.newRow data id org wallet w.clock).status ≠
          .failed := by
        intro hfailed
        cases hpending.symm.trans hfailed
      exact h.inserts hnone (keyRow_append hnone rfl) hlive rfl (.inl rfl)
    · rw [← hs, Function.update_eq_self]
      exact h
  | @reserves id walletId chainId nonce =>
    have hsame : keyRow key w'.tables = keyRow key w.tables := by
      rw [keyRow, (exec_agree hexec).requests (by simp [Cmd.writes, Sql.writes]), keyRow]
    exact (h.of_eq hsame).reserves hs nonce
  | notReserves =>
    rw [← hs, Function.update_eq_self]
    apply h.of_eq
    rw [keyRow, (exec_agree hexec).requests (by simp [Cmd.writes, Sql.writes]), keyRow]
  | @writes id nonce fields reply hpayload =>
    rw [← hs, Function.update_eq_self]
    rcases exec_update hexec with ⟨_, _, rfl, _⟩ | ⟨_, rfl, _⟩
    · have hfailed : fields.status ≠ some .failed := by
        have hfails := hguard.1
        simpa [Cmd.fails] using hfails
      exact h.writes hs hpayload hfailed (keyRow_update key id fields w.tables)
    · exact h
  | retries => exact absurd hs (h.whole i)

end Keeps

/-! ### Every run -/

section Runs

variable {cfg : Config} {guard : Guard Cmd Choice Event World} {key : Text}
  {start p p' : ServicePool} {stage : Nat → Stage}

/-- What a thread may return from a stage. -/
def Ends (stage : Stage) : Except JsError Outcome → Prop
  | .ok (.signResult result) => Answers stage (.ok result)
  | _ => True

/-- What the calls created and reserved, they did in the course of the run. -/
structure Traced (cfg : Config) (guard : Guard Cmd Choice Event World) (start p : ServicePool)
    (stage : Nat → Stage) : Prop where
  created : ∀ i id, (stage i).created = some id → ∃ data row, row.id = id ∧
    Answered (services cfg) guard start p i (.sql (.requestCreate data)) (.ok row)
  reserved : ∀ i id nonce, stage i = .held id nonce → ∃ walletId chainId,
    Answered (services cfg) guard start p i (.sql (.nonceReserve walletId chainId)) (.ok nonce)

theorem Traced.trans (h : Traced cfg guard start p stage)
    (hreach : Reach (services cfg) guard p p') : Traced cfg guard start p' stage := by
  constructor
  · intro i id hi
    obtain ⟨data, row, hid, hreplied⟩ := h.created i id hi
    exact ⟨data, row, hid, hreplied.trans hreach⟩
  · intro i id nonce hi
    obtain ⟨walletId, chainId, hreplied⟩ := h.reserved i id nonce hi
    exact ⟨walletId, chainId, hreplied.trans hreach⟩

/-- What is said of the stages after a move holds of the threads that did not move. -/
theorem Traced.update (h : Traced cfg guard start p stage) {i : Nat} {s : Stage}
    (hcreated : ∀ id, s.created = some id → ∃ data row, row.id = id ∧
      Answered (services cfg) guard start p i (.sql (.requestCreate data)) (.ok row))
    (hreserved : ∀ id nonce, s = .held id nonce → ∃ walletId chainId,
      Answered (services cfg) guard start p i (.sql (.nonceReserve walletId chainId))
        (.ok nonce)) : Traced cfg guard start p (Function.update stage i s) := by
  constructor
  · intro j id hj
    by_cases hji : j = i
    · subst hji
      rw [Function.update_self] at hj
      exact hcreated id hj
    · rw [Function.update_of_ne hji] at hj
      exact h.created j id hj
  · intro j id nonce hj
    by_cases hji : j = i
    · subst hji
      rw [Function.update_self] at hj
      exact hreserved id nonce hj
    · rw [Function.update_of_ne hji] at hj
      exact h.reserved j id nonce hj

theorem Traced.step (h : Traced cfg guard start p' stage) {i : Nat} {s : Stage} {command : Cmd}
    {reply : Except JsError command.Reply} (hstep : Step key (stage i) command reply s)
    (hreplied : Answered (services cfg) guard start p' i command reply) :
    Traced cfg guard start p' (Function.update stage i s) := by
  generalize hs : stage i = s₀ at hstep
  have hstays : s = stage i → Traced cfg guard start p' (Function.update stage i s) := by
    intro heq
    rw [heq, Function.update_eq_self]
    exact h
  cases hstep with
  | quiet => exact hstays hs.symm
  | notCreates => exact hstays hs.symm
  | notReserves => exact hstays hs.symm
  | writes => exact hstays hs.symm
  | retries => exact hstays hs.symm
  | finds => exact h.update (by rintro id ⟨⟩) (by rintro id nonce ⟨⟩)
  | findsFailed => exact h.update (by rintro id ⟨⟩) (by rintro id nonce ⟨⟩)
  | @creates data row =>
    apply h.update
    · rintro id ⟨⟩
      exact ⟨data, row, rfl, hreplied⟩
    · rintro id nonce ⟨⟩
  | @reserves id walletId chainId nonce =>
    apply h.update
    · rintro id ⟨⟩
      exact h.created i _ (by rw [hs]; rfl)
    · rintro id nonce ⟨⟩
      exact ⟨walletId, chainId, hreplied⟩

theorem start_follows {call : SignCall}
    (hkey : WalletService.computeIdempotencyKey cfg call.walletId call.req = key) :
    Follows (Step key) Ends .start (call.start cfg) := by
  subst hkey
  apply Follows.bind (requestSign_follows call.orgId call.walletId call.req)
  · intro stage result hanswers
    exact hanswers
  · intro stage error _
    trivial

theorem spawned_follows (command : Cmd) (thread : Js Outcome)
    (hmem : thread ∈ (services cfg).spawns command) :
    Follows (Step key) Ends .start thread := by
  cases command with
  | fork job =>
    simp only [services, spawns, List.mem_singleton] at hmem
    rw [hmem]
    cases job with
    | syncNonce walletId chainId walletAddress =>
      have hquiet : (syncNonce cfg walletId chainId walletAddress).All
          fun command => Quiet command = true := by
        refine Prog.All.bind ?_ fun _ => Prog.All.perform rfl
        exact rpcCallWithRetry_all (fun _ => rfl) cfg chainId
      apply Follows.stay_bind (quiet_all hquiet)
      · intro _
        trivial
      · intro error
        trivial
  | _ => cases hmem

/-- The threads of a run follow the stages, the invariant holds of them, and what they own
    they created and reserved in the course of it. -/
theorem reach_inv {calls : List SignCall} {w : World}
    (hsame : ∀ call ∈ calls,
      WalletService.computeIdempotencyKey cfg call.walletId call.req = key)
    (hnone : keyRow key w.tables = none)
    (hreach : Reach (services cfg) preparedLookups (SignCall.pool cfg calls w) p) :
    ∃ stage, Staged (Step key) Ends .start p stage ∧ Inv key p.state stage ∧
      Traced cfg preparedLookups (SignCall.pool cfg calls w) p stage := by
  apply @Reach.staged_pool _ _ _ _ _ _ _ _ _ _ _ _ _ (fun _ => .start) _
    (fun p stage => Inv key p.state stage ∧
      Traced cfg preparedLookups (SignCall.pool cfg calls w) p stage)
    _ _ _ _ spawned_follows _ hreach
  · rintro p p' stage i command next choice reply stage' hp ⟨hinv, htraced⟩ hthread hadm hstep
      hexec _ htransition
    have hreached : Reach (services cfg) preparedLookups p p' := .move .refl hadm hstep
    refine ⟨hinv.step htransition (hadm command next hthread) hexec, ?_⟩
    exact (htraced.trans hreached).step htransition
      ⟨p, p', choice, next, hp, hadm, hthread, hstep, hexec, .refl⟩
  · constructor
    · intro i thread hi
      rw [SignCall.pool, List.getElem?_map, Option.map_eq_some_iff] at hi
      obtain ⟨call, hcall, rfl⟩ := hi
      exact start_follows (hsame call (List.mem_of_getElem? hcall))
    · intro i _
      rfl
  · refine ⟨⟨?_, ?_, ?_, ?_, ?_, ?_⟩, ?_, ?_⟩
    · intro row hrow
      cases hnone.symm.trans hrow
    · simp
    · rintro i j ⟨⟩
    · rintro i id ⟨⟩
    · intro row hrow
      cases hnone.symm.trans hrow
    · rintro i row ⟨⟩
    · rintro i id ⟨⟩
    · rintro i id nonce ⟨⟩
  · rintro p p' stage event _ ⟨hinv, htraced⟩ hadm hstep hevent _
    have hsame : keyRow key p'.state.tables = keyRow key p.state.tables := by
      rw [keyRow, (World.event_tables hevent).1, keyRow]
    exact ⟨hinv.of_eq hsame, htraced.trans (.move .refl hadm hstep)⟩

/-- A result is that of a call that holds a nonce. -/
theorem held_of_answers (hinv : Inv key p.state stage) {i : Nat} {result : SignResult}
    (hanswers : Answers (stage i) (.ok result)) :
    ∃ j id, stage j = .held id result.nonce ∧ result.signingRequestId = id.toText := by
  rcases hanswers with hretrying | ⟨row, hfound, rfl⟩ | ⟨id, hheld, hid⟩
  · exact absurd hretrying (hinv.whole i)
  · obtain ⟨txFields, htx, j, hj⟩ := hinv.seen i row hfound
    refine ⟨j, row.id, ?_, rfl⟩
    simpa [WalletService.buildSignResultFromRequest, htx] using hj
  · exact ⟨i, id, hheld, hid⟩

end Runs

end DuplicateAnswers

open DuplicateAnswers in
/-- **Duplicates report the real nonce, where lookups find the payload.**  Take any calls of
    one key on a world without a row for it.  In every run without failures whose answered
    lookups find the payload of the row stored, all calls that return report the row that
    one call created and the nonce that this call reserved. -/
theorem requestSign_answers_agree {cfg : Config} {key : Text} {calls : List SignCall} {w : World}
    {p : ServicePool}
    (hsame : ∀ call ∈ calls,
      WalletService.computeIdempotencyKey cfg call.walletId call.req = key)
    (hnone : ∀ row ∈ w.tables.requests, row.idempotencyKey ≠ key)
    (hreach : Reach (services cfg) preparedLookups (SignCall.pool cfg calls w) p) :
    AnswersAgree cfg preparedLookups (SignCall.pool cfg calls w) p := by
  obtain ⟨stage, hstaged, hinv, htraced⟩ := reach_inv hsame (keyRow_eq_none hnone) hreach
  have hheld : ∀ i result, Returned p i result → ∃ j id, stage j = .held id result.nonce ∧
      result.signingRequestId = id.toText :=
    fun i result hreturned => held_of_answers hinv (hstaged.returned hreturned)
  by_cases hsome : ∃ i result, Returned p i result
  · obtain ⟨i₀, result₀, hreturned₀⟩ := hsome
    obtain ⟨creator, id, hcreator, hid₀⟩ := hheld i₀ result₀ hreturned₀
    -- every result is that of the one call that holds a nonce
    have hall : ∀ i result, Returned p i result →
        result.signingRequestId = id.toText ∧ result.nonce = result₀.nonce := by
      intro i result hreturned
      obtain ⟨j, id', hj, hid⟩ := hheld i result hreturned
      have hij := hinv.sole j creator (by rw [hj]; rfl) (by rw [hcreator]; rfl)
      rw [hij, hcreator] at hj
      injection hj with hids hnonces
      exact ⟨by rw [hid, hids], hnonces.symm⟩
    refine ⟨creator, fun i result hreturned => ?_⟩
    obtain ⟨hid, hnonce⟩ := hall i result hreturned
    obtain ⟨data, row, hrow, hcreated⟩ := htraced.created creator id (by rw [hcreator]; rfl)
    obtain ⟨walletId, chainId, hreserved⟩ := htraced.reserved creator id _ hcreator
    refine ⟨⟨data, row, hcreated, by rw [hid, hrow]⟩, ⟨walletId, chainId, hnonce ▸ hreserved⟩, ?_⟩
    intro j other hother
    obtain ⟨hid', hnonce'⟩ := hall j other hother
    exact ⟨hid'.trans hid.symm, hnonce'.trans hnonce.symm⟩
  · exact ⟨0, fun i result hreturned => absurd ⟨i, result, hreturned⟩ hsome⟩

namespace DuplicateAnswers

open Sample

/-- The wallet has sent five transactions. -/
def usedWallet : World :=
  { world with tables := world.tables.setNonce wallet 1 5 }

def twice : List SignCall := [transfer "1".toList, transfer "1".toList]

def returnedNonce (p : ServicePool) (i : Nat) : Option Int :=
  match p.threads[i]? with
  | some (.ret (.signResult result)) => some result.nonce
  | _ => none

theorem returned_of_nonce {p : ServicePool} {i : Nat} {nonce : Int}
    (h : returnedNonce p i = some nonce) :
    ∃ result, Returned p i result ∧ result.nonce = nonce := by
  unfold returnedNonce at h
  split at h
  · rename_i result hthread
    exact ⟨result, hthread, Option.some.inj h⟩
  · cases h

/-- The rest of the call that creates the row, from step 7 on. -/
def completes : List Choice := [.signed "s".toList "0x1".toList, run, run, run, accepts, run, run, run]

theorem twice_same : ∀ call ∈ twice,
    WalletService.computeIdempotencyKey config call.walletId call.req =
      WalletService.computeIdempotencyKey config wallet.toText (transfer "1".toList).req := by
  simp [twice, transfer]

theorem usedWallet_free : ∀ row ∈ usedWallet.tables.requests, row.idempotencyKey ≠
    WalletService.computeIdempotencyKey config wallet.toText (transfer "1".toList).req := by
  rintro row ⟨⟩

end DuplicateAnswers

open DuplicateAnswers Sample in
/-- A duplicate that finds the row just created reports nonce 0 for a transaction that is
    sent with nonce 5. -/
theorem requestSign_duplicate_reports_zero :
    (∀ call ∈ twice, WalletService.computeIdempotencyKey config call.walletId call.req =
      WalletService.computeIdempotencyKey config wallet.toText (transfer "1".toList).req) ∧
    (∀ row ∈ usedWallet.tables.requests, row.idempotencyKey ≠
      WalletService.computeIdempotencyKey config wallet.toText (transfer "1".toList).req) ∧
    ∃ p, Reach (services config) unfailing (SignCall.pool config twice usedWallet) p ∧
      (∃ result, Returned p 0 result ∧ result.nonce = 5) ∧
      (∃ result, Returned p 1 result ∧ result.nonce = 0) ∧
      ¬AnswersAgree config unfailing (SignCall.pool config twice usedWallet) p := by
  obtain ⟨p, hreach, hp⟩ := Reach.exists_of_run (services config) unfailing
    (SignCall.pool config twice usedWallet)
    (moves 0 (untilFees ++ [.done (freshId 1)]) ++ moves 1 [run, run, run] ++
      moves 0 (run :: run :: completes))
    (fun p => returnedNonce p 0 = some 5 && returnedNonce p 1 = some 0) (by decide)
  simp only [Bool.and_eq_true, decide_eq_true_eq] at hp
  obtain ⟨first, hfirst, hfive⟩ := returned_of_nonce hp.1
  obtain ⟨second, hsecond, hzero⟩ := returned_of_nonce hp.2
  refine ⟨twice_same, usedWallet_free, p, hreach, ⟨first, hfirst, hfive⟩,
    ⟨second, hsecond, hzero⟩, ?_⟩
  rintro ⟨creator, hagree⟩
  have hsame := ((hagree 0 first hfirst).2.2 1 second hsecond).2
  rw [hfive, hzero] at hsame
  exact absurd hsame (by decide)

open DuplicateAnswers Sample in
/-- A duplicate that finds the payload reports the nonce of the transaction. -/
theorem requestSign_answers_agree_prepared :
    ∃ p, Reach (services config) preparedLookups (SignCall.pool config twice usedWallet) p ∧
      (∃ result, Returned p 0 result ∧ result.nonce = 5) ∧
      (∃ result, Returned p 1 result ∧ result.nonce = 5) ∧
      AnswersAgree config preparedLookups (SignCall.pool config twice usedWallet) p := by
  obtain ⟨p, hreach, hp⟩ := Reach.exists_of_run (services config) preparedLookups
    (SignCall.pool config twice usedWallet)
    (moves 0 (untilFees ++ [.done (freshId 1), run, run]) ++ moves 1 [run, run, run] ++
      moves 0 completes)
    (fun p => returnedNonce p 0 = some 5 && returnedNonce p 1 = some 5) (by decide)
  simp only [Bool.and_eq_true, decide_eq_true_eq] at hp
  exact ⟨p, hreach, returned_of_nonce hp.1, returned_of_nonce hp.2,
    requestSign_answers_agree twice_same usedWallet_free hreach⟩

end BrokeTurnkey
