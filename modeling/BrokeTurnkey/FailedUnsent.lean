import BrokeTurnkey.Rows
import BrokeTurnkey.Interaction.Sequential

/-!
# What a failed row says about the chain

A row that is left `failed` may be signed again with a new nonce, which is right
only if the failed transaction was never sent.  The broadcast goes through
providers that may take a transaction and still not answer, or answer `already
known` to a retry, and the `catch` block that writes `failed` also covers the
write that follows a successful broadcast.

For one execution against any providers and any database, the row tells the
truth exactly in the runs described by `SubmissionSettled`, a condition on what
the providers and the database did.
-/

namespace BrokeTurnkey

open Interaction

/-! ### What the environment did -/

/-- The transaction a provider took in this step, whatever it answered. -/
def acceptedBy (entry : ServiceEntry) : Option RawTx :=
  match entry.command, entry.choice with
  | .fetch _ (.sendRawTransaction rawTx), .fetched _ true => some rawTx
  | _, _ => none

/-- A provider answered a submission with a result. -/
def answersSubmission (entry : ServiceEntry) : Bool :=
  match entry.command, entry.choice with
  | .fetch _ (.sendRawTransaction _), .fetched (.ok (.result _)) _ => true
  | _, _ => false

/-- The `broadcasted` write went through and was answered. -/
def recordsBroadcast (entry : ServiceEntry) : Bool :=
  match entry.command with
  | .sql (.requestUpdate _ fields) => fields.status = some .broadcasted && entry.answered
  | _ => false

/-- The database turned the statement away. -/
def refusesStatement (entry : ServiceEntry) : Bool :=
  match entry.command, entry.choice with
  | .sql _, .reject _ => true
  | _, _ => false

/-- If a provider took the transaction, then some provider answered with a result
    and the `broadcasted` write was answered, or the database turned away the last
    statement of the execution. -/
def SubmissionSettled (history : List ServiceEntry) : Prop :=
  (∃ entry ∈ history, (acceptedBy entry).isSome = true) →
    (history.any answersSubmission = true ∧ history.any recordsBroadcast = true) ∨
      history.head?.any refusesStatement = true

/-- No row is failed whose transaction a provider took. -/
def FailedMeansUnsent (w : World) (history : List ServiceEntry) : Prop :=
  ∀ rawTx, (∃ entry ∈ history, acceptedBy entry = some rawTx) →
    ∀ row ∈ w.tables.requests, row.id = rawTx.origin → row.status ≠ .failed

namespace FailedUnsent

/-! ### The ways an execution can end -/

section Ends

variable {w : World} {history : List ServiceEntry} {id : Uuid}

/-- Every transaction taken so far was signed for this row. -/
def OnlyFor (id : Uuid) (history : List ServiceEntry) : Prop :=
  ∀ entry ∈ history, ∀ rawTx, acceptedBy entry = some rawTx → rawTx.origin = id

theorem iff_of_unsubmitted (h : ∀ entry ∈ history, acceptedBy entry = none) :
    FailedMeansUnsent w history ↔ SubmissionSettled history := by
  refine ⟨fun _ => ?_, fun _ => ?_⟩
  · rintro ⟨entry, hmem, haccepted⟩
    rw [h entry hmem] at haccepted
    cases haccepted
  · rintro rawTx ⟨entry, hmem, haccepted⟩
    cases (h entry hmem).symm.trans haccepted

theorem iff_of_live (honly : OnlyFor id history)
    (hrows : ∀ row ∈ w.tables.requests, row.id = id → row.status ≠ .failed)
    (hsettled : SubmissionSettled history) :
    FailedMeansUnsent w history ↔ SubmissionSettled history := by
  refine ⟨fun _ => hsettled, fun _ => ?_⟩
  rintro rawTx ⟨entry, hmem, haccepted⟩ row hrow hid
  exact hrows row hrow (hid.trans (honly entry hmem rawTx haccepted))

theorem iff_of_failed (honly : OnlyFor id history)
    (hrow : ∃ row ∈ w.tables.requests, row.id = id ∧ row.status = .failed)
    (hunsettled : ¬ (history.any answersSubmission = true ∧ history.any recordsBroadcast = true))
    (hlast : history.head?.any refusesStatement = false) :
    FailedMeansUnsent w history ↔ SubmissionSettled history := by
  obtain ⟨row, hmem, hid, hstatus⟩ := hrow
  refine ⟨fun hunsent haccepted => ?_, fun hsettled => ?_⟩
  · obtain ⟨entry, hentry, hsome⟩ := haccepted
    obtain ⟨rawTx, hraw⟩ := Option.isSome_iff_exists.mp hsome
    have horigin := honly entry hentry rawTx hraw
    exact absurd hstatus (hunsent rawTx ⟨entry, hentry, hraw⟩ row hmem (hid.trans horigin.symm))
  · rintro rawTx ⟨entry, hentry, hraw⟩
    rcases hsettled ⟨entry, hentry, by rw [hraw]; rfl⟩ with hanswered | hrefused
    · exact absurd hanswered hunsettled
    · cases hlast.symm.trans hrefused

end Ends

/-! ### Before the broadcast -/

/-- Commands that submit nothing and write no final status. -/
def IsPrelude (command : Cmd) : Prop :=
  match command with
  | .fetch _ request => request.isQuery = true
  | .sql (.requestUpdate _ fields) =>
    fields.status ≠ some .broadcasted ∧ fields.status ≠ some .failed
  | _ => True

theorem isPrelude_of_query {command : Cmd} (h : command.isQuery = true) : IsPrelude command := by
  cases command with
  | sql statement =>
    cases statement with
    | requestUpdate id fields => cases h
    | _ => trivial
  | fetch rpcUrl request => exact h
  | _ => trivial

/-- What a prelude entry is not. -/
structure Plain (entry : ServiceEntry) : Prop where
  acceptedBy : acceptedBy entry = none
  answersSubmission : answersSubmission entry = false
  recordsBroadcast : recordsBroadcast entry = false

theorem plain_of_prelude {command : Cmd} (h : IsPrelude command) (i : Nat) (choice : Choice)
    (reply : Except JsError command.Reply) : Plain (entryOf i command choice reply) := by
  cases command with
  | sql statement =>
    cases statement with
    | requestUpdate id fields =>
      exact ⟨rfl, rfl, by simp [recordsBroadcast, entryOf, h.1]⟩
    | _ => exact ⟨rfl, rfl, rfl⟩
  | fetch rpcUrl request =>
    cases request with
    | sendRawTransaction rawTx => cases h
    | _ => exact ⟨rfl, rfl, rfl⟩
  | _ => exact ⟨rfl, rfl, rfl⟩

/-- No row with the id is failed. -/
abbrev Unfailed (id : Uuid) (t : Tables) : Prop := EveryRow id (fun row => row.status ≠ .failed) t

theorem unfailed_update {id : Uuid} {fields : SigningRequestUpdate}
    (h : ∃ status, fields.status = some status ∧ status ≠ .failed) (t : Tables) :
    Unfailed id (SigningRequestRepository.updated id fields t) := by
  obtain ⟨status, hstatus, hne⟩ := h
  refine (everyRow_true id t).update fun row _ => ?_
  simp only [SigningRequestUpdate.apply, hstatus, Option.getD_some]
  exact hne

/-- Nothing is submitted and no final status is written so far. -/
def Before (id : Uuid) (w : World) (history : List ServiceEntry) : Prop :=
  HasRow id w.tables ∧ ∀ entry ∈ history, Plain entry

theorem plain_cons {entry : ServiceEntry} {history : List ServiceEntry} (h : Plain entry)
    (hrest : ∀ entry ∈ history, Plain entry) : ∀ other ∈ entry :: history, Plain other := by
  intro other hmem
  rcases List.mem_cons.mp hmem with rfl | hmem
  · exact h
  · exact hrest other hmem

section Prelude

variable {cfg : Config} {id : Uuid}

theorem plain_all {α : Type} {p : Js α} (h : p.All IsPrelude) :
    p.All fun command => ∀ choice reply s s' history, (∀ entry ∈ history, Plain entry) →
      (Guard.any : Guard Cmd Choice Event World).command command choice s →
      (services cfg).exec command choice s = some (reply, s') →
      ∀ entry ∈ entryOf 0 command choice reply :: history, Plain entry :=
  h.mono fun _ hprelude choice reply _ _ _ hplain _ _ =>
    plain_cons (plain_of_prelude hprelude 0 choice reply) hplain

theorem Before.step {w w' : World} {history : List ServiceEntry} {command : Cmd} {choice : Choice}
    {reply : Except JsError command.Reply} (h : Before id w history)
    (hexec : (services cfg).exec command choice w = some (reply, w')) (hprelude : IsPrelude command) :
    Before id w' (entryOf 0 command choice reply :: history) :=
  ⟨hasRow_exec hexec h.1, plain_cons (plain_of_prelude hprelude 0 choice reply) h.2⟩

theorem before_all {α : Type} {p : Js α} (h : p.All IsPrelude) :
    p.All fun command => ∀ choice reply s s' history, Before id s history →
      (Guard.any : Guard Cmd Choice Event World).command command choice s →
      (services cfg).exec command choice s = some (reply, s') →
      Before id s' (entryOf 0 command choice reply :: history) :=
  h.mono fun _ hprelude _ _ _ _ _ hbefore _ hexec => hbefore.step hexec hprelude

end Prelude

/-! ### The submission -/

/-- While the transaction of a row is being submitted: nothing but the world's
    mempool changes, and `answered` says whether a provider gave a result. -/
structure Submitting (id : Uuid) (t : Tables) (answered : Bool) (w : World)
    (history : List ServiceEntry) : Prop where
  tables : w.tables = t
  only : OnlyFor id history
  answered : history.any answersSubmission = answered
  unrecorded : history.any recordsBroadcast = false

section Submission

variable {cfg : Config} {rawTx : RawTx} {t : Tables} {w : World} {history : List ServiceEntry}

theorem Submitting.fetched (h : Submitting rawTx.origin t false w history) (rpcUrl : Text)
    (reply : Except JsError (Cmd.fetch rpcUrl (.sendRawTransaction rawTx)).Reply)
    (accepted : Bool) {answered : Bool}
    (hanswered : answersSubmission
      (entryOf 0 (.fetch rpcUrl (.sendRawTransaction rawTx)) (.fetched reply accepted) reply) =
        answered) :
    Submitting rawTx.origin t answered (w.accept accepted (.sendRawTransaction rawTx))
      (entryOf 0 (.fetch rpcUrl (.sendRawTransaction rawTx)) (.fetched reply accepted) reply ::
        history) := by
  refine ⟨?_, ?_, ?_, ?_⟩
  · rw [World.accept_tables, h.tables]
  · intro entry hmem rawTx' haccepted
    rcases List.mem_cons.mp hmem with rfl | hmem
    · cases accepted with
      | true => cases haccepted; rfl
      | false => cases haccepted
    · exact h.only entry hmem rawTx' haccepted
  · rw [List.any_cons, hanswered, h.answered, Bool.or_false]
  · rw [List.any_cons, h.unrecorded]
    rfl

theorem callProvider_meets (h : Submitting rawTx.origin t false w history) (rpcUrl : Text) :
    Meets (services cfg) .any (fun outcome => Submitting rawTx.origin t outcome.isOk)
      (callProvider (.sendRawTransaction rawTx) rpcUrl) w history := by
  intro choice reply w' _ hexec
  obtain ⟨accepted, rfl, rfl⟩ := exec_fetch hexec
  cases reply with
  | error error => exact h.fetched rpcUrl (.error error) accepted rfl
  | ok response =>
    cases response with
    | notOk status statusText => exact h.fetched rpcUrl (.ok (.notOk status statusText)) accepted rfl
    | rpcError message => exact h.fetched rpcUrl (.ok (.rpcError message)) accepted rfl
    | result value => exact h.fetched rpcUrl (.ok (.result value)) accepted rfl

theorem tryProviders_meets (h : Submitting rawTx.origin t false w history) (rpcUrls : List Text) :
    Meets (services cfg) .any (fun outcome => Submitting rawTx.origin t outcome.isOk)
      (tryProviders (.sendRawTransaction rawTx) rpcUrls) w history := by
  induction rpcUrls generalizing w history with
  | nil => exact h
  | cons rpcUrl rest ih =>
    cases rest with
    | nil => exact callProvider_meets h rpcUrl
    | cons next rest =>
      exact Meets.tryCatch (callProvider_meets h rpcUrl) (fun _ _ _ hok => hok)
        fun _ _ _ herr => ih herr

theorem rpcAttempts_meets (h : Submitting rawTx.origin t false w history) (chainId attempts : Nat)
    (lastError : JsError) :
    Meets (services cfg) .any (fun outcome => Submitting rawTx.origin t outcome.isOk)
      (rpcAttempts cfg (.sendRawTransaction rawTx) chainId attempts lastError) w history := by
  induction attempts generalizing w history lastError with
  | zero => exact h
  | succ attempts ih =>
    refine Meets.tryCatch (P := fun outcome => Submitting rawTx.origin t outcome.isOk) ?_
      (fun _ _ _ hok => hok) fun error _ _ herr => ?_
    · simp only [rpcCall]
      split
      · exact h
      · exact tryProviders_meets h _
    · split
      · exact herr
      · exact ih herr error

theorem Submitting.plain {answered : Bool} (h : Submitting rawTx.origin t answered w history)
    {w' : World} (hw : w' = w) {entry : ServiceEntry} (hplain : Plain entry) :
    Submitting rawTx.origin t answered w' (entry :: history) := by
  subst hw
  refine ⟨h.tables, fun other hmem rawTx' haccepted => ?_, ?_, ?_⟩
  · rcases List.mem_cons.mp hmem with rfl | hmem
    · cases hplain.acceptedBy.symm.trans haccepted
    · exact h.only other hmem rawTx' haccepted
  · rw [List.any_cons, hplain.answersSubmission, Bool.false_or, h.answered]
  · rw [List.any_cons, hplain.recordsBroadcast, Bool.false_or, h.unrecorded]

theorem submitting_of_plain (hplain : ∀ entry ∈ history, Plain entry) (id : Uuid) :
    Submitting id w.tables false w history := by
  refine ⟨rfl, fun entry hmem rawTx' haccepted => ?_, ?_, ?_⟩
  · cases (hplain entry hmem).acceptedBy.symm.trans haccepted
  · exact List.any_eq_false.mpr fun entry hmem => by simp [(hplain entry hmem).answersSubmission]
  · exact List.any_eq_false.mpr fun entry hmem => by simp [(hplain entry hmem).recordsBroadcast]

end Submission

/-! ### Recording the outcome -/

/-- The broadcast went through and is recorded. -/
structure Recorded (id : Uuid) (w : World) (history : List ServiceEntry) : Prop where
  only : OnlyFor id history
  rows : Unfailed id w.tables
  answered : history.any answersSubmission = true
  recorded : history.any recordsBroadcast = true

/-- The broadcast or its record went wrong, and `failed` is not written yet. -/
structure Unrecorded (id : Uuid) (w : World) (history : List ServiceEntry) : Prop where
  row : HasRow id w.tables
  rows : Unfailed id w.tables
  only : OnlyFor id history
  unsettled : ¬ (history.any answersSubmission = true ∧ history.any recordsBroadcast = true)

/-- The condition of `requestSign_failed_unsent_iff` at the end of an execution. -/
def Told (w : World) (history : List ServiceEntry) : Prop :=
  FailedMeansUnsent w history ↔ SubmissionSettled history

theorem Recorded.told {id : Uuid} {w : World} {history : List ServiceEntry}
    (h : Recorded id w history) : Told w history :=
  iff_of_live h.only h.rows fun _ => .inl ⟨h.answered, h.recorded⟩

theorem onlyFor_cons {id : Uuid} {entry : ServiceEntry} {history : List ServiceEntry}
    (h : OnlyFor id history) (hplain : acceptedBy entry = none) : OnlyFor id (entry :: history) := by
  intro other hmem rawTx haccepted
  rcases List.mem_cons.mp hmem with rfl | hmem
  · cases hplain.symm.trans haccepted
  · exact h other hmem rawTx haccepted

theorem Recorded.plain {id : Uuid} {w w' : World} {history : List ServiceEntry}
    (h : Recorded id w history) (hrequests : w'.tables.requests = w.tables.requests)
    {entry : ServiceEntry} (hplain : Plain entry) : Recorded id w' (entry :: history) := by
  refine ⟨onlyFor_cons h.only hplain.acceptedBy, ?_, ?_, ?_⟩
  · rw [Unfailed, EveryRow, hrequests]
    exact h.rows
  · rw [List.any_cons, h.answered, Bool.or_true]
  · rw [List.any_cons, h.recorded, Bool.or_true]

/-- What the body of the `try` block leaves. -/
def Tried (id : Uuid) : Except JsError Unit → World → List ServiceEntry → Prop
  | .ok _, w, history => Recorded id w history
  | .error _, w, history => Unrecorded id w history

/-- What the whole step leaves. -/
def Stepped (id : Uuid) : Except JsError Unit → World → List ServiceEntry → Prop
  | .ok _, w, history => Recorded id w history
  | .error _, w, history => Told w history

/-- The `failed` write reached the row, and nothing was turned away since. -/
structure Failed (id : Uuid) (w : World) (history : List ServiceEntry) : Prop where
  only : OnlyFor id history
  row : ∃ row ∈ w.tables.requests, row.id = id ∧ row.status = .failed
  unsettled : ¬ (history.any answersSubmission = true ∧ history.any recordsBroadcast = true)
  last : history.head?.any refusesStatement = false

theorem Failed.told {id : Uuid} {w : World} {history : List ServiceEntry}
    (h : Failed id w history) : Told w history :=
  iff_of_failed h.only h.row h.unsettled h.last

theorem Failed.plain {id : Uuid} {w w' : World} {history : List ServiceEntry}
    (h : Failed id w history) (hrequests : w'.tables.requests = w.tables.requests)
    {entry : ServiceEntry} (hplain : Plain entry) (hlast : refusesStatement entry = false) :
    Failed id w' (entry :: history) := by
  refine ⟨onlyFor_cons h.only hplain.acceptedBy, ?_, ?_, hlast⟩
  · rw [hrequests]
    exact h.row
  · rw [List.any_cons, hplain.answersSubmission, List.any_cons, hplain.recordsBroadcast]
    exact h.unsettled

/-- What the `failed` write leaves. -/
def Marked (id : Uuid) : Except JsError Unit → World → List ServiceEntry → Prop
  | .ok _, w, history => Failed id w history
  | .error _, w, history => Told w history

section Broadcast

variable {cfg : Config} {id : Uuid} {w : World} {history : List ServiceEntry}

/-- The write that follows a successful broadcast. -/
theorem record_meets {fields : SigningRequestUpdate} (hstatus : fields.status = some .broadcasted)
    (hfits : fields.Fits) {t : Tables} (hrow : HasRow id t) (hrows : Unfailed id t)
    (h : Submitting id t true w history) :
    Meets (services cfg) .any (Tried id) (Js.sql (.requestUpdate id fields)) w history := by
  obtain ⟨rfl, honly, hanswered, hunrecorded⟩ := h
  refine Meets.perform fun choice reply w' _ hexec => ?_
  have honly' : OnlyFor id (entryOf 0 (.sql (.requestUpdate id fields)) choice reply :: history) :=
    onlyFor_cons honly rfl
  have hrecord : (entryOf 0 (.sql (.requestUpdate id fields)) choice reply :: history).any
      recordsBroadcast = reply.isOk := by
    rw [List.any_cons, hunrecorded, Bool.or_false]
    simp [recordsBroadcast, entryOf, hstatus]
  have hlive : Unfailed id (SigningRequestRepository.updated id fields w.tables) :=
    unfailed_update ⟨_, hstatus, nofun⟩ w.tables
  have hunrecorded' : ∀ {w' : World}, reply.isOk = false → HasRow id w'.tables →
      Unfailed id w'.tables → Tried id reply w'
        (entryOf 0 (.sql (.requestUpdate id fields)) choice reply :: history) := by
    intro w' hreply hrow' hrows'
    cases reply with
    | ok value => cases hreply
    | error error =>
      exact ⟨hrow', hrows', honly', fun hboth => by cases hrecord.symm.trans hboth.2⟩
  rcases exec_update_of_fits hfits hexec with ⟨_, rfl, rfl | ⟨_, hreply⟩⟩ | ⟨_, rfl, hreply⟩
  · exact ⟨honly', hlive, by rw [List.any_cons, hanswered, Bool.or_true], hrecord⟩
  · exact hunrecorded' hreply (hrow.update id fields) hlive
  · exact hunrecorded' hreply hrow hrows

theorem broadcast_meets {rawTx : RawTx} (hplain : ∀ entry ∈ history, Plain entry)
    (chainId : Nat) :
    Meets (services cfg) .any
      (fun outcome => Submitting rawTx.origin w.tables outcome.isOk)
      (broadcastTransaction cfg rawTx chainId) w history := by
  refine Meets.bind (P := fun _ => Submitting rawTx.origin w.tables false)
    (Meets.perform fun choice reply w' _ hexec => ?_) (fun _ w' history' h => ?_) fun _ _ _ h => h
  · exact (submitting_of_plain hplain _).plain (exec_local rfl hexec).2 ⟨rfl, rfl, rfl⟩
  · exact rpcAttempts_meets h chainId maxRetries typeError

theorem unrecorded_of_submitting {t : Tables} (hrow : HasRow id t) (hrows : Unfailed id t)
    (h : Submitting id t false w history) : Unrecorded id w history := by
  obtain ⟨rfl, honly, hanswered, _⟩ := h
  exact ⟨hrow, hrows, honly, fun hboth => by cases hanswered.symm.trans hboth.1⟩

/-- The `failed` write, whether it reaches the row or not. -/
theorem fail_meets {fields : SigningRequestUpdate} (hstatus : fields.status = some .failed)
    (hfits : fields.Fits) (h : Unrecorded id w history) :
    Meets (services cfg) .any (Marked id) (Js.sql (.requestUpdate id fields)) w history := by
  refine Meets.perform fun choice reply w' _ hexec => ?_
  have honly : OnlyFor id (entryOf 0 (.sql (.requestUpdate id fields)) choice reply :: history) :=
    onlyFor_cons h.only rfl
  have hunsettled : ¬ ((entryOf 0 (.sql (.requestUpdate id fields)) choice reply ::
      history).any answersSubmission = true ∧ (entryOf 0 (.sql (.requestUpdate id fields)) choice
        reply :: history).any recordsBroadcast = true) := by
    rw [List.any_cons, List.any_cons]
    have hrecord : recordsBroadcast
        (entryOf 0 (.sql (.requestUpdate id fields)) choice reply) = false := by
      simp [recordsBroadcast, entryOf, hstatus]
    rw [hrecord]
    exact h.unsettled
  have hrow : ∃ row ∈ (SigningRequestRepository.updated id fields w.tables).requests,
      row.id = id ∧ row.status = .failed := by
    obtain ⟨row, hmem, hid⟩ := h.row.update id fields
    have hfailed : EveryRow id (fun row => row.status = .failed)
        (SigningRequestRepository.updated id fields w.tables) := by
      refine (everyRow_true id w.tables).update fun row _ => ?_
      simp only [SigningRequestUpdate.apply, hstatus, Option.getD_some]
    exact ⟨row, hmem, hid, hfailed row hmem hid⟩
  rcases exec_update_of_fits hfits hexec with ⟨hran, rfl, hreply⟩ | ⟨hran, rfl, hreply⟩
  · have hlast : refusesStatement
        (entryOf 0 (.sql (.requestUpdate id fields)) choice reply) = false := by
      cases choice with
      | reject error => cases hran
      | _ => rfl
    rcases hreply with rfl | ⟨_, hreply⟩
    · exact ⟨honly, hrow, hunsettled, hlast⟩
    · cases reply with
      | ok value => cases hreply
      | error error => exact iff_of_failed honly hrow hunsettled hlast
  · have hlast : refusesStatement
        (entryOf 0 (.sql (.requestUpdate id fields)) choice reply) = true := by
      cases choice with
      | reject error => rfl
      | _ => cases hran
    cases reply with
    | ok value => cases hreply
    | error error => exact iff_of_live honly h.rows fun _ => .inr hlast

theorem broadcastStep_meets {signResult : SignTransactionResult} (hid : signResult.rawTx.origin = id)
    (hrow : HasRow id w.tables) (hrows : Unfailed id w.tables)
    (hplain : ∀ entry ∈ history, Plain entry) (wallet : Wallet) (walletId : Text) (chainId : Nat) :
    Meets (services cfg) .any (Stepped id)
      (WalletService.broadcastStep cfg wallet walletId chainId signResult id) w history := by
  subst hid
  refine Meets.tryCatch (P := Tried signResult.rawTx.origin) ?_ (fun _ _ _ h => h)
    fun error w' history' h => ?_
  · refine Meets.bind (broadcast_meets hplain chainId) (fun _ w' history' h => ?_)
      fun _ _ _ h => unrecorded_of_submitting hrow hrows h
    refine Meets.bind (P := fun outcome w'' history'' => outcome.isOk = true ∧
        Submitting signResult.rawTx.origin w.tables true w'' history'')
      (Meets.perform fun choice reply w'' _ hexec => ?_) (fun now w'' history'' h => ?_)
      fun _ _ _ h => by cases h.1
    · exact ⟨(exec_local rfl hexec).1, h.plain (exec_local rfl hexec).2 ⟨rfl, rfl, rfl⟩⟩
    · exact record_meets rfl ⟨rfl, rfl⟩ hrow hrows h.2
  · refine Meets.bind (fail_meets rfl ⟨rfl, rfl⟩ h) (fun _ w'' history'' h => ?_) fun _ _ _ h => h
    refine Meets.bind (P := fun _ => Failed signResult.rawTx.origin)
      (Meets.perform fun choice reply w'' _ hexec => ?_) (fun _ _ _ h => h.told)
      fun _ _ _ h => h.told
    refine h.plain ?_ ⟨rfl, rfl, rfl⟩ rfl
    rw [(exec_local rfl hexec).2]

end Broadcast

/-! ### The signing pipeline -/

theorem told_of_plain {w : World} {history : List ServiceEntry}
    (h : ∀ entry ∈ history, Plain entry) : Told w history :=
  iff_of_unsubmitted fun entry hmem => (h entry hmem).acceptedBy

section Pipeline

variable {cfg : Config} {id : Uuid} {w : World} {history : List ServiceEntry}

theorem all_prelude {α : Type} {p : Js α} (h : Queries p) : p.All IsPrelude :=
  h.mono fun _ => isPrelude_of_query

theorem createOrReuse_meets (h : ∀ entry ∈ history, Plain entry) (orgId walletId : Text)
    (req : SignRequest) (key : Text) :
    Meets (services cfg) .any
      (fun outcome w' history' => (∀ entry ∈ history', Plain entry) ∧
        ∀ id, outcome = .ok (.own id) → HasRow id w'.tables)
      (WalletService.createOrReuse orgId walletId req key) w history := by
  refine Meets.tryCatch (P := fun outcome w' history' => (∀ entry ∈ history', Plain entry) ∧
    ∀ id, outcome = .ok (.own id) → HasRow id w'.tables) ?_ (fun _ _ _ h => h)
    fun error w' history' h => ?_
  · refine Meets.bind (P := fun outcome w' history' => (∀ entry ∈ history', Plain entry) ∧
      ∀ row, outcome = .ok row → HasRow row.id w'.tables)
      (Meets.perform fun choice reply w' _ hexec => ⟨?_, fun row hrow => ?_⟩)
      (fun row w' history' h => ⟨h.1, fun id heq => ?_⟩) fun _ _ _ h => ⟨h.1, nofun⟩
    · exact plain_cons (plain_of_prelude (by exact trivial) 0 choice reply) h
    · subst hrow
      exact (exec_create hexec).2.1
    · cases heq
      exact h.2 row rfl
  · split
    · exact ⟨h.1, nofun⟩
    · refine Meets.bind (P := fun outcome w' history' => (∀ entry ∈ history', Plain entry) ∧
        ∀ row, outcome = .ok (some row) → HasRow row.id w'.tables)
        (Meets.perform fun choice reply w' _ hexec => ⟨?_, fun row hrow => ?_⟩)
        (fun raced w' history' h => ?_) fun _ _ _ h => ⟨h.1, nofun⟩
      · exact plain_cons (plain_of_prelude (by exact trivial) 0 choice reply) h.1
      · subst hrow
        obtain ⟨rfl, hmem, _⟩ := exec_find hexec
        exact ⟨row, hmem, rfl⟩
      · split
        · exact ⟨h.1, nofun⟩
        · cases raced with
          | none => exact ⟨h.1, nofun⟩
          | some row =>
            refine Meets.keep_bind (J := Before row.id)
              (before_all (Prog.All.perform ⟨nofun, nofun⟩)) ⟨h.2 row rfl, h.1⟩
              (fun _ w' history' h => ⟨h.2, fun id heq => ?_⟩) fun _ _ _ h => ⟨h.2, nofun⟩
            cases heq
            exact h.1

theorem prepareFields_meets (h : Before id w history) (walletId : Text) (req : SignRequest)
    (fees : FeeEstimate) :
    Meets (services cfg) .any (fun _ => Before id)
      (WalletService.prepareFields walletId req fees id) w history := by
  refine Meets.keep_bind (before_all (Prog.All.perform trivial)) h (fun nonce w' history' h => ?_)
    fun _ _ _ h => h
  exact Meets.keep_bind (before_all (Prog.All.perform ⟨nofun, nofun⟩)) h (fun _ _ _ h => h)
    fun _ _ _ h => h

theorem unsent_all {α : Type} {p : Js α} (h : p.All fun command => command.submits = none) :
    p.All fun command => ∀ choice reply s s' history,
      (∀ entry ∈ history, acceptedBy entry = none) →
      (Guard.any : Guard Cmd Choice Event World).command command choice s →
      (services cfg).exec command choice s = some (reply, s') →
      ∀ entry ∈ entryOf 0 command choice reply :: history, acceptedBy entry = none := by
  refine h.mono fun command hsubmission choice reply _ _ _ hunsent _ _ entry hmem => ?_
  rcases List.mem_cons.mp hmem with rfl | hmem
  · cases command with
    | fetch rpcUrl request =>
      cases request with
      | sendRawTransaction rawTx => cases hsubmission
      | _ => rfl
    | _ => rfl
  · exact hunsent entry hmem

/-- What signing leaves. -/
def Signed (id : Uuid) : Except JsError SignTransactionResult → World → List ServiceEntry → Prop
  | .ok result, w, history => Before id w history ∧ result.rawTx.origin = id
  | .error _, w, history => Told w history

theorem signStep_meets (h : Before id w history) (seedRow : OrganizationSeed) (wallet : Wallet)
    (walletId : Text) (txFields : TxFields) :
    Meets (services cfg) .any (Signed id)
      (WalletService.signStep seedRow wallet walletId txFields id) w history := by
  refine Meets.tryCatch (P := fun outcome w' history' => Before id w' history' ∧
    ∀ result, outcome = .ok result → result.rawTx.origin = id)
    (Meets.perform fun choice reply w' _ hexec => ⟨?_, fun result hresult => ?_⟩)
    (fun result _ _ h => ⟨h.1, h.2 result rfl⟩) fun error w' history' h => ?_
  · exact h.step hexec trivial
  · subst hresult
    exact (exec_signTransaction hexec).1
  · -- the row is failed from here on, and nothing was submitted
    have hunsent : ∀ entry ∈ history', acceptedBy entry = none :=
      fun entry hmem => (h.1.2 entry hmem).acceptedBy
    refine Meets.keep_bind (unsent_all (Prog.All.perform rfl)) hunsent (fun _ _ _ h => ?_)
      fun _ _ _ h => iff_of_unsubmitted h
    exact Meets.keep_bind (unsent_all (Prog.All.perform rfl)) h
      (fun _ _ _ h => iff_of_unsubmitted h) fun _ _ _ h => iff_of_unsubmitted h

/-- What storing the signature leaves. -/
def Stored (id : Uuid) : Except JsError Unit → World → List ServiceEntry → Prop
  | .ok _, w, history => Before id w history ∧ Unfailed id w.tables
  | .error _, w, history => Told w history

theorem storeSigned_meets (h : Before id w history) (signResult : SignTransactionResult) :
    Meets (services cfg) .any (Stored id) (WalletService.storeSigned id signResult) w history := by
  refine Meets.keep_bind (before_all (all_prelude now_queries)) h (fun now w' history' h => ?_)
    fun _ _ _ h => told_of_plain h.2
  refine Meets.perform fun choice reply w'' _ hexec => ?_
  have hbefore := h.step hexec ⟨nofun, nofun⟩
  cases reply with
  | error error => exact told_of_plain hbefore.2
  | ok value =>
    refine ⟨hbefore, ?_⟩
    rcases exec_update hexec with ⟨_, _, rfl, _⟩ | ⟨_, _, hreply⟩
    · exact unfailed_update ⟨.signed, rfl, nofun⟩ w'.tables
    · cases hreply

theorem submit_meets (h : Before id w history) (orgId walletId : Text) (req : SignRequest)
    (seedRow : OrganizationSeed) (wallet : Wallet) (key : Text) (fees : FeeEstimate) :
    Meets (services cfg) .any (fun _ => Told)
      (WalletService.submit cfg orgId walletId req seedRow wallet key fees id) w history := by
  refine Meets.bind (prepareFields_meets h walletId req fees) (fun txFields w' history' h => ?_)
    fun _ _ _ h => told_of_plain h.2
  refine Meets.bind (signStep_meets h seedRow wallet walletId txFields)
    (fun signResult w' history' h => ?_) fun _ _ _ h => h
  obtain ⟨h, horigin⟩ := h
  refine Meets.bind (storeSigned_meets h signResult) (fun _ w' history' h => ?_) fun _ _ _ h => h
  obtain ⟨h, hrows⟩ := h
  refine Meets.bind (broadcastStep_meets horigin h.1 hrows h.2 wallet walletId req.chainId)
    (fun _ w' history' h => ?_) fun _ _ _ h => h
  refine Meets.bind (P := fun _ => Recorded id)
    (Meets.perform fun choice reply w'' _ hexec => ?_) (fun _ _ _ h => h.told) fun _ _ _ h => h.told
  exact h.plain ((exec_agree hexec).requests nofun) ⟨rfl, rfl, rfl⟩

theorem requestSign_meets (orgId walletId : Text) (req : SignRequest) :
    Meets (services cfg) .any (fun _ => Told)
      (WalletService.requestSign cfg orgId walletId req) w [] := by
  have hnil : ∀ entry ∈ ([] : List ServiceEntry), Plain entry := by
    intro entry hmem
    cases hmem
  refine Meets.keep_bind
    (plain_all (all_prelude (WalletService.loadPrerequisites_queries orgId walletId))) hnil
    (fun prerequisites w' history' h => ?_) fun _ _ _ h => told_of_plain h
  refine Meets.keep_bind (plain_all (all_prelude (sql_queries rfl))) h
    (fun existing w' history' h => ?_) fun _ _ _ h => told_of_plain h
  split
  · exact told_of_plain h
  · refine Meets.keep_bind (plain_all (WalletService.evaluatePolicy_all
      (fun _ => isPrelude_of_query) (fun _ _ => trivial) cfg req)) h (fun _ w' history' h => ?_)
      fun _ _ _ h => told_of_plain h
    refine Meets.keep_bind (plain_all (all_prelude (estimateFees_queries ..))) h
      (fun fees w' history' h => ?_) fun _ _ _ h => told_of_plain h
    refine Meets.bind (createOrReuse_meets h orgId walletId req _) (fun claimed w' history' h => ?_)
      fun _ _ _ h => told_of_plain h.1
    cases claimed with
    | existing result => exact told_of_plain h.1
    | own id => exact submit_meets ⟨h.2 id rfl, h.1⟩ orgId walletId req _ _ _ fees

end Pipeline

end FailedUnsent

/-- **When a failed row means an unsent transaction.**  For every execution of
    `requestSign` against any providers and any database: no row is left failed
    whose transaction a provider took if and only if, in case one was taken, some
    provider answered with a result and the `broadcasted` write was answered, or the
    database turned the last statement away. -/
theorem requestSign_failed_unsent_iff {cfg : Config} {orgId walletId : Text} {req : SignRequest}
    {w w' : World} {history : List ServiceEntry} {outcome : Except JsError SignResult}
    (hrun : Completes (services cfg) .any (WalletService.requestSign cfg orgId walletId req)
      w [] outcome w' history) :
    FailedMeansUnsent w' history ↔ SubmissionSettled history :=
  hrun.meets (FailedUnsent.requestSign_meets orgId walletId req)

namespace FailedUnsent

open Sample

/-- The transaction of the runs below. -/
def payment : RawTx := sent 1 "1" 0 "signature"

/-- A call up to the submission of `payment`. -/
def untilSubmission : List Choice :=
  untilFees ++ .done (freshId 1) :: signs "signature".toList "hash".toList ++ [run]

/-- The provider takes the transaction, but its answer does not arrive; the retry
    is told that the transaction is known. -/
def lostAnswer : List Choice :=
  [.fetched (.error (.error "The operation was aborted due to timeout".toList)) true,
    .fetched (.ok (.rpcError "already known".toList)) false]

end FailedUnsent

open Sample FailedUnsent in
/-- A provider takes the transaction and times out, its retry is a permanent error,
    and the row is left failed. -/
theorem requestSign_failed_but_sent :
    ∃ outcome w' history, Completes (services config) .any
        (WalletService.requestSign config org.toText wallet.toText (transfer "1".toList).req)
        world [] outcome w' history ∧
      (∃ entry ∈ history, acceptedBy entry = some payment) ∧
      ∃ row ∈ w'.tables.requests, row.id = payment.origin ∧ row.status = .failed := by
  obtain ⟨outcome, w', history, hrun, hP⟩ := Completes.exists_of_complete (services config) .any
    (WalletService.requestSign config org.toText wallet.toText (transfer "1".toList).req) world
    (untilSubmission ++ lostAnswer ++ [run, run])
    (fun final => (∃ entry ∈ final.2.2, acceptedBy entry = some payment) ∧
      ∃ row ∈ final.2.1.tables.requests, row.id = payment.origin ∧ row.status = .failed)
    (by decide)
  exact ⟨outcome, w', history, hrun, of_decide_eq_true hP⟩

open Sample FailedUnsent in
/-- The same call where the provider takes the transaction and answers. -/
theorem requestSign_failed_unsent_iff_answered :
    ∃ outcome w' history, Completes (services config) .any
        (WalletService.requestSign config org.toText wallet.toText (transfer "1".toList).req)
        world [] outcome w' history ∧
      (∃ entry ∈ history, acceptedBy entry = some payment) ∧ FailedMeansUnsent w' history := by
  obtain ⟨outcome, w', history, hrun, hP⟩ := Completes.exists_of_complete (services config) .any
    (WalletService.requestSign config org.toText wallet.toText (transfer "1".toList).req) world
    (untilSubmission ++ [accepts, run, run, run])
    (fun final => (∃ entry ∈ final.2.2, acceptedBy entry = some payment) ∧
      final.2.2.any answersSubmission = true ∧ final.2.2.any recordsBroadcast = true)
    (by decide)
  obtain ⟨haccepted, hanswered⟩ := of_decide_eq_true hP
  exact ⟨outcome, w', history, hrun, haccepted,
    (requestSign_failed_unsent_iff hrun).mpr fun _ => .inl hanswered⟩

end BrokeTurnkey
