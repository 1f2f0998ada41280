import BrokeTurnkey.Retry
import BrokeTurnkey.FailedUnsent

/-!
# Rows that a rejected request leaves behind

A row that a rejected `requestSign` leaves `pending` or `signed` answers every later
identical request, and the monitor does not look at it.  The calls to the sidecar and
to the providers are wrapped in `catch` blocks that write `failed`; the reservation of
the nonce and the writes between these blocks are not.

For one execution in which at most one awaited call rejects, the row is left so
exactly if the call that rejects is one of those `unrepaired` lists.
-/

namespace BrokeTurnkey

open Interaction

/-! ### What went wrong -/

/-- An awaited call to the database or the sidecar rejected.  An insert that reports
    an existing key has done what it is for. -/
def rejects (entry : ServiceEntry) : Bool :=
  match entry.command, entry.choice with
  | .sql (.requestCreate _), .done _ => false
  | .sql _, _ => !entry.answered
  | .sidecar _, _ => !entry.answered
  | _, _ => false

/-- `broadcastTransaction` was called. -/
def entersBroadcast (entry : ServiceEntry) : Bool := entry.command.handed.isSome

/-- `broadcastTransaction` was called and rejected: no provider answered with a result. -/
def broadcastRejects (history : List ServiceEntry) : Bool :=
  history.any entersBroadcast && !history.any answersSubmission

/-- The number of awaited calls that rejected. -/
def rejections (history : List ServiceEntry) : Nat :=
  history.countP rejects + (broadcastRejects history).toNat

/-- An insert of this row would go through. -/
def insertsInto (t : Tables) (data : NewSigningRequest) : Bool :=
  (Uuid.ofText data.orgId).isSome && (Uuid.ofText data.walletId).isSome &&
    t.requests.all fun row => row.idempotencyKey ≠ data.idempotencyKey

/-- A rejection, in a call started in `w`, that no `catch` block turns into `failed`:
    of the reservation, of the payload write and of the `signed` write, and the lost
    answer of an insert or a reset that took effect. -/
def unrepaired (w : World) (entry : ServiceEntry) : Bool :=
  match entry.command with
  | .sql (.nonceReserve _ _) => !entry.answered
  | .sql (.requestUpdate _ fields) =>
    (fields.txPayload.isSome || decide (fields.status = some .signed)) && !entry.answered ||
      decide (fields.status = some .pending) && entry.choice.isLost
  | .sql (.requestCreate data) => entry.choice.isLost && insertsInto w.tables data
  | _ => false

/-- The row is neither failed, so that it can be retried, nor sent. -/
def IsOpen (row : SigningRequest) : Prop := row.status ≠ .failed ∧ row.status ≠ .broadcasted

instance : DecidablePred IsOpen :=
  fun row => inferInstanceAs (Decidable (row.status ≠ .failed ∧ row.status ≠ .broadcasted))

/-- A row that the execution inserted or took over, and left open. -/
def Wedged (w w' : World) : Prop :=
  ∃ row ∈ w'.tables.requests, IsOpen row ∧
    ∀ old ∈ w.tables.requests, old.id = row.id → old.status = .failed

instance (w w' : World) : Decidable (Wedged w w') :=
  inferInstanceAs (Decidable (∃ row ∈ w'.tables.requests, IsOpen row ∧
    ∀ old ∈ w.tables.requests, old.id = row.id → old.status = .failed))

/-- Every rejection so far leads to a final status. -/
def Repaired (w : World) (history : List ServiceEntry) : Prop :=
  ∀ entry ∈ history, unrepaired w entry = false

instance (w : World) (history : List ServiceEntry) : Decidable (Repaired w history) :=
  inferInstanceAs (Decidable (∀ entry ∈ history, unrepaired w entry = false))

namespace WedgedRows

/-! ### What is known along an execution -/

/-- The equivalence of `requestSign_wedged_iff` at the end of an execution. -/
def Verdict (w₀ w : World) (history : List ServiceEntry) : Prop :=
  ¬ Wedged w₀ w ↔ Repaired w₀ history

/-- No rejection is unrepaired, and nothing was submitted. -/
def Quiet (w₀ : World) (history : List ServiceEntry) : Prop :=
  ∀ entry ∈ history, unrepaired w₀ entry = false ∧ answersSubmission entry = false

/-- The rows are those of the start. -/
structure Before (w₀ w : World) (history : List ServiceEntry) : Prop where
  requests : w.tables.requests = w₀.tables.requests
  quiet : Quiet w₀ history

/-- The call works on the row with this id, which it inserted or found failed. -/
structure Owns (w₀ : World) (id : Uuid) (P : SigningRequest → Prop) (w : World) : Prop where
  stored : Stored id P w.tables
  mine : ∀ old ∈ w₀.tables.requests, old.id = id → old.status = .failed
  others : ∀ row ∈ w.tables.requests, row.id ≠ id → row ∈ w₀.tables.requests

variable {w₀ w w' : World} {id : Uuid} {P Q : SigningRequest → Prop}
  {history : List ServiceEntry}

theorem Quiet.repaired (h : Quiet w₀ history) : Repaired w₀ history := by
  intro entry hmem
  exact (h entry hmem).1

theorem repaired_cons {entry : ServiceEntry} (hentry : unrepaired w₀ entry = false)
    (h : Repaired w₀ history) : Repaired w₀ (entry :: history) :=
  List.forall_mem_cons.mpr ⟨hentry, h⟩

theorem quiet_cons {entry : ServiceEntry} (hentry : unrepaired w₀ entry = false)
    (hanswer : answersSubmission entry = false) (h : Quiet w₀ history) :
    Quiet w₀ (entry :: history) :=
  List.forall_mem_cons.mpr ⟨⟨hentry, hanswer⟩, h⟩

theorem not_isOpen_of_failed {row : SigningRequest} (h : row.status = .failed) : ¬ IsOpen row :=
  fun hopen => hopen.1 h

theorem isOpen_of_pending {row : SigningRequest} (h : row.status = .pending) : IsOpen row := by
  rw [IsOpen, h]
  decide

theorem Before.verdict (h : Before w₀ w history) : Verdict w₀ w history := by
  constructor
  · intro _
    exact h.quiet.repaired
  · rintro _ ⟨row, hrow, hopen, hold⟩
    rw [h.requests] at hrow
    exact not_isOpen_of_failed (hold row hrow rfl) hopen

theorem Owns.mono (h : Owns w₀ id P w) (himp : ∀ row, P row → Q row) : Owns w₀ id Q w :=
  ⟨h.stored.mono himp, h.mine, h.others⟩

theorem Owns.wedged (h : Owns w₀ id IsOpen w) : Wedged w₀ w := by
  obtain ⟨⟨⟨row, hrow, hid⟩, hevery⟩, hmine, _⟩ := h
  refine ⟨row, hrow, hevery row hrow hid, ?_⟩
  intro old hold heq
  exact hmine old hold (heq.trans hid)

theorem Owns.not_wedged (h : Owns w₀ id (fun row => ¬ IsOpen row) w) : ¬ Wedged w₀ w := by
  rintro ⟨row, hrow, hopen, hold⟩
  by_cases hid : row.id = id
  · exact h.stored.2 row hrow hid hopen
  · -- a row the execution did not touch
    exact not_isOpen_of_failed (hold row (h.others row hrow hid) rfl) hopen

/-- A row that is left open by an unrepaired rejection. -/
theorem Owns.verdict_open {entry : ServiceEntry} (h : Owns w₀ id IsOpen w)
    (hentry : unrepaired w₀ entry = true) : Verdict w₀ w (entry :: history) := by
  constructor
  · intro hnot
    exact absurd h.wedged hnot
  · intro hrepaired
    have hfalse := hrepaired entry List.mem_cons_self
    rw [hentry] at hfalse
    cases hfalse

theorem Owns.verdict_final (h : Owns w₀ id (fun row => ¬ IsOpen row) w)
    (hrepaired : Repaired w₀ history) : Verdict w₀ w history := by
  constructor
  · intro _
    exact hrepaired
  · intro _
    exact h.not_wedged

theorem Owns.of_requests (h : Owns w₀ id P w)
    (hrequests : w'.tables.requests = w.tables.requests) : Owns w₀ id P w' := by
  obtain ⟨⟨⟨row, hrow, hid⟩, hevery⟩, hmine, hothers⟩ := h
  refine ⟨⟨⟨row, hrequests ▸ hrow, hid⟩, ?_⟩, hmine, ?_⟩
  · intro other hother
    rw [hrequests] at hother
    exact hevery other hother
  · intro other hother
    rw [hrequests] at hother
    exact hothers other hother

theorem Owns.update (h : Owns w₀ id P w) {fields : SigningRequestUpdate}
    (himp : ∀ row, P row → Q (fields.apply row)) :
    Owns w₀ id Q { w with tables := (SigningRequestRepository.updated id fields w.tables) } := by
  refine ⟨h.stored.update himp, h.mine, ?_⟩
  intro row hrow hid
  obtain ⟨old, hold, rfl⟩ := mem_update hrow
  rw [updateRow_id] at hid
  rw [updateRow_of_ne hid]
  exact h.others old hold hid

/-- A write of the owned row took effect, or did not. -/
theorem Owns.exec_update (h : Owns w₀ id P w) {fields : SigningRequestUpdate}
    (himp : ∀ row, P row → Q (fields.apply row)) {choice : Choice}
    {reply : Except JsError (Cmd.sql (.requestUpdate id fields)).Reply}
    (hexec : exec (.sql (.requestUpdate id fields)) choice w = some (reply, w')) :
    (reply.isOk = true ∧ Owns w₀ id Q w') ∨
      (reply.isOk = false ∧ Owns w₀ id (fun row => P row ∨ Q row) w') := by
  rcases BrokeTurnkey.exec_update hexec with ⟨_, _, rfl, rfl | ⟨_, hreply⟩⟩ | ⟨_, rfl, hreply⟩
  · exact .inl ⟨rfl, h.update himp⟩
  · exact .inr ⟨hreply, (h.update himp).mono fun _ hrow => .inr hrow⟩
  · exact .inr ⟨hreply, h.mono fun _ hrow => .inl hrow⟩

/-! ### Counting rejections -/

theorem rejections_cons (entry : ServiceEntry) (history : List ServiceEntry)
    (henters : entersBroadcast entry = false) (hanswers : answersSubmission entry = false) :
    rejections (entry :: history) = rejections history + (rejects entry).toNat := by
  have hbroadcast : broadcastRejects (entry :: history) = broadcastRejects history := by
    simp only [broadcastRejects, List.any_cons, henters, hanswers, Bool.false_or]
  simp only [rejections, hbroadcast, List.countP_cons]
  cases rejects entry
  · simp
  · simp
    omega

theorem rejected_cons {entry : ServiceEntry} {n : Nat} (henters : entersBroadcast entry = false)
    (hanswers : answersSubmission entry = false) (hrejects : rejects entry = true)
    (h : n ≤ rejections history) : n + 1 ≤ rejections (entry :: history) := by
  rw [rejections_cons entry history henters hanswers, hrejects]
  exact Nat.succ_le_succ h

/-- The postcondition of a whole execution: with at most one rejection the verdict holds. -/
def Judged {α : Type} (w₀ : World) (outcome : Except JsError α) (w : World)
    (history : List ServiceEntry) : Prop :=
  outcome.isOk = false → rejections history ≤ 1 → Verdict w₀ w history

/-! ### Steps that leave the rows alone -/

/-- Commands that write neither the rows nor the nonces, and submit nothing. -/
structure IsAside (command : Cmd) : Prop where
  requests : command.writes ≠ some .requests
  nonces : command.writes ≠ some .nonces
  submits : command.submits = none

theorem isAside_of_query {command : Cmd} (h : command.isQuery = true) : IsAside command := by
  have hwrites := Cmd.writes_of_query h
  constructor
  · rw [hwrites]
    rintro ⟨⟩
  · rw [hwrites]
    rintro ⟨⟩
  · exact Cmd.submits_of_query h

theorem unrepaired_of_aside {command : Cmd} (h : IsAside command) (choice : Choice)
    (answered : Bool) : unrepaired w₀ ⟨0, command, choice, answered⟩ = false := by
  cases command with
  | sql statement =>
    cases statement with
    | nonceReserve walletId chainId => exact absurd rfl h.nonces
    | requestUpdate id fields => exact absurd rfl h.requests
    | requestCreate data => exact absurd rfl h.requests
    | _ => rfl
  | _ => rfl

theorem answersSubmission_of_submits {command : Cmd} (h : command.submits = none)
    (choice : Choice) (answered : Bool) :
    answersSubmission ⟨0, command, choice, answered⟩ = false := by
  cases command with
  | fetch rpcUrl request =>
    cases request with
    | sendRawTransaction rawTx => cases h
    | _ => rfl
  | _ => rfl

theorem Before.step {cfg : Config} {command : Cmd} {choice : Choice}
    {reply : Except JsError command.Reply} (h : Before w₀ w history) (haside : IsAside command)
    (hexec : (services cfg).exec command choice w = some (reply, w')) :
    Before w₀ w' (entryOf 0 command choice reply :: history) := by
  constructor
  · rw [(exec_agree hexec).requests haside.requests]
    exact h.requests
  · exact quiet_cons (unrepaired_of_aside haside choice _)
      (answersSubmission_of_submits haside.submits choice _) h.quiet

theorem before_all {cfg : Config} {α : Type} {p : Js α} (h : p.All IsAside) :
    p.All fun command => ∀ choice reply s s' history, Before w₀ s history →
      (Guard.any : Guard Cmd Choice Event World).command command choice s →
      (services cfg).exec command choice s = some (reply, s') →
      Before w₀ s' (entryOf 0 command choice reply :: history) :=
  h.mono fun _ haside _ _ _ _ _ hbefore _ hexec => hbefore.step haside hexec

theorem aside_of_queries {α : Type} {p : Js α} (h : Queries p) : p.All IsAside :=
  h.mono fun _ => isAside_of_query

/-! ### Inserting or resetting the row -/

/-- An insert goes through, or changes nothing. -/
theorem create_cases (data : NewSigningRequest) (id : Uuid) (now : Int) (t : Tables) :
    (insertsInto t data = true ∧ ∃ org wallet, SigningRequestRepository.create data id now t =
      (.ok (SigningRequestRepository.newRow data id org wallet now),
        { t with requests :=
            t.requests ++ [SigningRequestRepository.newRow data id org wallet now] })) ∨
    (insertsInto t data = false ∧
      ∃ error, SigningRequestRepository.create data id now t = (.error error, t)) := by
  rcases requestCreate_cases data id now t with ⟨org, wallet, horg, hwallet, hnone, heq⟩ | hfails
  · refine .inl ⟨?_, org, wallet, heq⟩
    rw [insertsInto, horg, hwallet]
    simpa using hnone
  · refine .inr ⟨?_, hfails⟩
    obtain ⟨error, herror⟩ := hfails
    by_contra hinserts
    simp only [insertsInto, Bool.not_eq_false, Bool.and_eq_true, Option.isSome_iff_exists]
      at hinserts
    obtain ⟨⟨⟨org, horg⟩, wallet, hwallet⟩, hnone⟩ := hinserts
    have hany : ¬ (t.requests.any fun row => row.idempotencyKey = data.idempotencyKey) = true := by
      simpa using hnone
    simp only [SigningRequestRepository.create, withUuid, horg, hwallet, if_neg hany] at herror
    cases herror

theorem insertsInto_of_requests {t t' : Tables} (h : t.requests = t'.requests)
    (data : NewSigningRequest) : insertsInto t data = insertsInto t' data := by
  rw [insertsInto, insertsInto, h]

/-- A row inserted under a fresh id is owned. -/
theorem owns_append {row : SigningRequest} (hrequests : w.tables.requests = w₀.tables.requests)
    (hfresh : ∀ other ∈ w.tables.requests, other.id ≠ row.id) :
    Owns w₀ row.id (· = row)
      { w with tables := { w.tables with requests := w.tables.requests ++ [row] } } := by
  refine ⟨stored_append hfresh, ?_, ?_⟩
  · intro old hold hid
    rw [← hrequests] at hold
    exact absurd hid (hfresh old hold)
  · intro other hother hid
    rcases List.mem_append.mp hother with hother | hother
    · exact hrequests ▸ hother
    · rw [List.mem_singleton.mp hother] at hid
      exact absurd rfl hid

/-- What the insert leaves. -/
def Created (w₀ : World) :
    Except JsError SigningRequest → World → List ServiceEntry → Prop
  | .ok row, w, history => Owns w₀ row.id (·.status = .pending) w ∧ Quiet w₀ history
  | .error error, w, history => Verdict w₀ w history ∧
      (error.code = some uniqueViolation → Before w₀ w history)

theorem create_meets {cfg : Config} (h : Before w₀ w history) {data : NewSigningRequest}
    (hpending : data.status = .pending) :
    Meets (services cfg) .any (Created w₀) (Js.sql (.requestCreate data)) w history := by
  apply Meets.perform
  intro choice reply w' _ hexec
  have hsame : ∀ choice : Choice, (choice.isLost && insertsInto w₀.tables data) = false →
      ∀ answered, Before w₀ w (⟨0, .sql (.requestCreate data), choice, answered⟩ :: history) :=
    fun choice hcond answered => ⟨h.requests, quiet_cons hcond rfl h.quiet⟩
  rcases exec_sql hexec with ⟨id, hfresh, rfl, hreply⟩ | ⟨error, rfl, hcode, rfl, rfl⟩
  · have hunused : ∀ other ∈ w.tables.requests, other.id ≠ id := by
      intro other hother
      exact of_decide_eq_true (List.all_eq_true.mp hfresh other hother)
    simp only [Sql.exec] at hreply ⊢
    rcases create_cases data id w.clock w.tables with
      ⟨hinserts, org, wallet, heq⟩ | ⟨hinserts, failure, heq⟩
    · rw [heq] at hreply ⊢
      let row := SigningRequestRepository.newRow data id org wallet w.clock
      have hunusedRow : ∀ other ∈ w.tables.requests, other.id ≠ row.id := hunused
      have howns := owns_append h.requests hunusedRow
      rcases hreply with ⟨rfl, rfl⟩ | ⟨error, rfl, hcode, rfl⟩
      · refine ⟨howns.mono ?_, quiet_cons rfl rfl h.quiet⟩
        rintro row rfl
        exact hpending
      · -- the row is there, and the call does not know
        refine ⟨Owns.verdict_open (howns.mono ?_) ?_, fun hunique => absurd hunique hcode⟩
        · rintro row rfl
          exact isOpen_of_pending hpending
        · rw [insertsInto_of_requests h.requests] at hinserts
          exact hinserts
    · rw [heq] at hreply ⊢
      rw [insertsInto_of_requests h.requests] at hinserts
      rcases hreply with ⟨rfl, rfl⟩ | ⟨error, rfl, hcode, rfl⟩
      · have hbefore := hsame (.done id) rfl false
        exact ⟨hbefore.verdict, fun _ => hbefore⟩
      · have hbefore := hsame (.lost id error) hinserts false
        exact ⟨hbefore.verdict, fun _ => hbefore⟩
  · have hbefore := hsame (.reject error) rfl false
    exact ⟨hbefore.verdict, fun _ => hbefore⟩

/-- What step 5 leaves. -/
def Settled (w₀ : World) :
    Except JsError WalletService.Claimed → World → List ServiceEntry → Prop
  | .ok (.own id), w, history => Owns w₀ id (·.status = .pending) w ∧ Quiet w₀ history
  | .ok (.existing _), _, _ => True
  | .error _, w, history => Verdict w₀ w history

theorem resetFields_status (row : SigningRequest) :
    (WalletService.resetFields.apply row).status = .pending := rfl

/-- The reset of a failed row takes effect, or leaves it failed. -/
theorem reset_meets {cfg : Config} (hids : UniqueIds w₀.tables) (h : Before w₀ w history)
    {row : SigningRequest} (hrow : row ∈ w.tables.requests) (hfailed : row.status = .failed) :
    Meets (services cfg) .any
      (fun outcome w' history' => (outcome.isOk = true →
          Owns w₀ row.id (·.status = .pending) w' ∧ Quiet w₀ history') ∧
        (outcome.isOk = false → Verdict w₀ w' history'))
      (Js.sql (.requestUpdate row.id WalletService.resetFields)) w history := by
  apply Meets.perform
  intro choice reply w' _ hexec
  rw [h.requests] at hrow
  have howns : Owns w₀ row.id (fun _ => True) w := by
    refine ⟨⟨⟨row, h.requests ▸ hrow, rfl⟩, fun _ _ _ => trivial⟩, ?_, ?_⟩
    · intro old hold hid
      rw [hids.eq hold hrow hid]
      exact hfailed
    · intro other hother _
      exact h.requests ▸ hother
  have hreset : Owns w₀ row.id (·.status = .pending)
      { w with tables :=
          (SigningRequestRepository.updated row.id WalletService.resetFields w.tables) } :=
    howns.update fun old _ => resetFields_status old
  rcases exec_sql hexec with ⟨_, _, rfl, ⟨rfl, rfl⟩ | ⟨error, rfl, _, rfl⟩⟩ |
      ⟨error, rfl, _, rfl, rfl⟩
  · refine ⟨fun _ => ⟨hreset, quiet_cons rfl rfl h.quiet⟩, ?_⟩
    rintro ⟨⟩
  · refine ⟨?_, fun _ => ?_⟩
    · rintro ⟨⟩
    · apply Owns.verdict_open (hreset.mono fun _ => isOpen_of_pending)
      rfl
  · refine ⟨?_, fun _ => ?_⟩
    · rintro ⟨⟩
    · exact Before.verdict ⟨h.requests, quiet_cons rfl rfl h.quiet⟩

theorem reuseRow_meets {cfg : Config} (hids : UniqueIds w₀.tables) (h : Before w₀ w history)
    (key : Text) (conflict : JsError) :
    Meets (services cfg) .any (Settled w₀) (WalletService.reuseRow key conflict) w history := by
  apply Meets.bind (P := fun outcome w' history' => Before w₀ w' history' ∧
    ∀ row, outcome = .ok (some row) → row ∈ w'.tables.requests)
  · apply Meets.perform
    intro choice reply w' _ hexec
    refine ⟨h.step (isAside_of_query rfl) hexec, ?_⟩
    rintro row rfl
    obtain ⟨rfl, hmem, _⟩ := exec_find hexec
    exact hmem
  · rintro raced w' history' ⟨hbefore, hraced⟩
    split
    · trivial
    · rename_i hunless
      cases raced with
      | none => exact hbefore.verdict
      | some row =>
        have hfailed : row.status = .failed := by
          simpa [WalletService.unlessFailed, Option.filter] using hunless
        apply Meets.bind (reset_meets hids hbefore (hraced row rfl) hfailed)
        · rintro ⟨⟩ w'' history'' hreset
          exact hreset.1 rfl
        · intro error w'' history'' hreset
          exact hreset.2 rfl
  · intro error w' history' hfind
    exact hfind.1.verdict

theorem createOrReuse_meets {cfg : Config} (hids : UniqueIds w₀.tables)
    (h : Before w₀ w history) (orgId walletId : Text) (req : SignRequest) (key : Text) :
    Meets (services cfg) .any (Settled w₀)
      (WalletService.createOrReuse orgId walletId req key) w history := by
  apply Meets.tryCatch (P := fun (outcome : Except JsError WalletService.Claimed) w' history' =>
    Settled w₀ outcome w' history' ∧ ∀ error, outcome = .error error →
      error.code = some uniqueViolation → Before w₀ w' history')
  · apply Meets.bind (create_meets h rfl)
    · intro row w' history' hcreated
      refine ⟨hcreated, ?_⟩
      rintro error ⟨⟩
    · intro error w' history' hcreated
      refine ⟨hcreated.1, ?_⟩
      rintro error ⟨⟩ hunique
      exact hcreated.2 hunique
  · intro claimed w' history' hclaimed
    exact hclaimed.1
  · rintro error w' history' ⟨hsettled, hconflict⟩
    split
    · exact hsettled
    · rename_i hunique
      exact reuseRow_meets hids (hconflict error rfl (not_not.mp hunique)) key error

/-! ### From the reservation to the signature -/

section Pipeline

variable {cfg : Config}

/-- The call owns the row, and no rejection is unrepaired. -/
structure Working (w₀ : World) (id : Uuid) (status : Status) (w : World)
    (history : List ServiceEntry) : Prop where
  owns : Owns w₀ id (·.status = status) w
  quiet : Quiet w₀ history

/-- What a step that no `catch` block covers leaves. -/
def OrVerdict {α : Type} (w₀ : World) (P : World → List ServiceEntry → Prop) :
    Except JsError α → World → List ServiceEntry → Prop
  | .ok _ => P
  | .error _ => Verdict w₀

/-- A write that no `catch` block covers. -/
theorem write_meets {before : Status} (after : Status) (h : Working w₀ id before w history)
    {fields : SigningRequestUpdate}
    (hbefore : before ≠ .failed ∧ before ≠ .broadcasted)
    (hafter : after ≠ .failed ∧ after ≠ .broadcasted)
    (hstatus : fields.status.getD before = after)
    (hquiet : fields.status ≠ some .pending)
    (hunrepaired : fields.txPayload.isSome = true ∨ fields.status = some .signed) :
    Meets (services cfg) .any (OrVerdict w₀ (Working w₀ id after))
      (Js.sql (.requestUpdate id fields)) w history := by
  apply Meets.perform
  intro choice reply w' _ hexec
  have hwrite := h.owns.exec_update (Q := fun row => row.status = after)
    (fun row hrow => by simpa [SigningRequestUpdate.apply, hrow] using hstatus) hexec
  cases reply with
  | ok value =>
    rcases hwrite with ⟨_, howns⟩ | ⟨hreply, _⟩
    · refine ⟨howns, quiet_cons ?_ rfl h.quiet⟩
      simp [unrepaired, entryOf, hquiet, Except.isOk, Except.toBool]
    · cases hreply
  | error error =>
    rcases hwrite with ⟨hreply, _⟩ | ⟨_, howns⟩
    · cases hreply
    · apply Owns.verdict_open (howns.mono ?_)
      · rcases hunrepaired with hpayload | hsigned
        · simp [unrepaired, entryOf, hpayload, Except.isOk, Except.toBool]
        · simp [unrepaired, entryOf, hsigned, Except.isOk, Except.toBool]
      · rintro row (hrow | hrow) <;> rw [IsOpen, hrow] <;> assumption

theorem reserve_meets (h : Working w₀ id .pending w history) (walletId : Text) (chainId : Nat) :
    Meets (services cfg) .any (OrVerdict w₀ (Working w₀ id .pending))
      (reserveNonce walletId chainId) w history := by
  apply Meets.perform
  intro choice reply w' _ hexec
  have howns := h.owns.of_requests ((exec_agree hexec).requests (by rintro ⟨⟩))
  cases reply with
  | ok nonce => exact ⟨howns, quiet_cons rfl rfl h.quiet⟩
  | error error =>
    apply Owns.verdict_open (howns.mono fun _ => isOpen_of_pending)
    rfl

theorem prepareFields_meets (h : Working w₀ id .pending w history) (walletId : Text)
    (req : SignRequest) (fees : FeeEstimate) :
    Meets (services cfg) .any (OrVerdict w₀ (Working w₀ id .pending))
      (WalletService.prepareFields walletId req fees id) w history := by
  apply Meets.bind (reserve_meets h walletId req.chainId)
  · intro nonce w' history' hreserved
    apply Meets.bind (write_meets .pending hreserved (by decide) (by decide) rfl (by rintro ⟨⟩)
      (.inl rfl))
    · intro _ w'' history'' hwritten
      exact hwritten
    · intro error w'' history'' hwritten
      exact hwritten
  · intro error w' history' hreserved
    exact hreserved

/-- What the `catch` blocks leave: the row is failed, or a second call rejected. -/
def Closed (w₀ : World) (id : Uuid) : Except JsError Unit → World → List ServiceEntry → Prop
  | .ok _, w, history => Owns w₀ id (·.status = .failed) w ∧ Repaired w₀ history
  | .error _, _, history => 2 ≤ rejections history

theorem fail_meets {P : SigningRequest → Prop} (h : Owns w₀ id P w)
    (hrepaired : Repaired w₀ history) (hrejected : 1 ≤ rejections history)
    {fields : SigningRequestUpdate} (hstatus : fields.status = some .failed)
    (hpayload : fields.txPayload = none) :
    Meets (services cfg) .any (Closed w₀ id) (Js.sql (.requestUpdate id fields)) w history := by
  apply Meets.perform
  intro choice reply w' _ hexec
  have hwrite := h.exec_update (Q := fun row => row.status = .failed)
    (fun row _ => by simp [SigningRequestUpdate.apply, hstatus]) hexec
  rcases hwrite with ⟨hreply, howns⟩ | ⟨hreply, _⟩
  · cases reply with
    | ok value =>
      refine ⟨howns, repaired_cons ?_ hrepaired⟩
      simp [unrepaired, entryOf, hstatus, hpayload]
    | error error => cases hreply
  · cases reply with
    | ok value => cases hreply
    | error error => exact rejected_cons rfl rfl rfl hrejected

theorem judged_of_verdict {α : Type} {outcome : Except JsError α} (h : Verdict w₀ w history) :
    Judged w₀ outcome w history := fun _ _ => h

theorem judged_of_rejections {α : Type} {outcome : Except JsError α}
    (h : 2 ≤ rejections history) : Judged w₀ outcome w history := by
  intro _ hle
  omega

theorem verdict_of_failed (h : Owns w₀ id (·.status = .failed) w)
    (hrepaired : Repaired w₀ history) : Verdict w₀ w history :=
  Owns.verdict_final (h.mono fun _ hrow => not_isOpen_of_failed hrow) hrepaired

/-- A step after the last write of the row. -/
theorem aside_meets {command : Cmd} (hrequests : command.writes ≠ some .requests)
    (hentry : ∀ choice answered, unrepaired w₀ ⟨0, command, choice, answered⟩ = false)
    {P : SigningRequest → Prop} (h : Owns w₀ id P w) (hrepaired : Repaired w₀ history) :
    Meets (services cfg) .any
      (fun _ w' history' => Owns w₀ id P w' ∧ Repaired w₀ history')
      (Prog.perform command) w history := by
  apply Meets.perform
  intro choice reply w' _ hexec
  exact ⟨h.of_requests ((exec_agree hexec).requests hrequests),
    repaired_cons (hentry choice _) hrepaired⟩

/-- What signing leaves. -/
def Signed (w₀ : World) (id : Uuid) :
    Except JsError SignTransactionResult → World → List ServiceEntry → Prop
  | .ok _, w, history => Working w₀ id .pending w history
  | .error error, w, history => Judged (α := SignResult) w₀ (.error error) w history

theorem signStep_meets (h : Working w₀ id .pending w history) (seedRow : OrganizationSeed)
    (wallet : Wallet) (walletId : Text) (txFields : TxFields) :
    Meets (services cfg) .any (Signed w₀ id)
      (WalletService.signStep seedRow wallet walletId txFields id) w history := by
  apply Meets.tryCatch (P := fun (outcome : Except JsError SignTransactionResult) w' history' =>
    Working w₀ id .pending w' history' ∧ (outcome.isOk = false → 1 ≤ rejections history'))
  · apply Meets.perform
    intro choice reply w' _ hexec
    obtain ⟨_, rfl⟩ := exec_sidecar hexec
    refine ⟨⟨h.owns, quiet_cons rfl rfl h.quiet⟩, fun hfails => ?_⟩
    cases reply with
    | ok result => cases hfails
    | error error => exact rejected_cons rfl rfl rfl (Nat.zero_le _)
  · intro result w' history' hsigned
    exact hsigned.1
  · rintro error w' history' ⟨hworking, hrejected⟩
    apply Meets.bind
      (fail_meets hworking.owns hworking.quiet.repaired (hrejected rfl) rfl rfl)
    · rintro ⟨⟩ w'' history'' ⟨howns, hrepaired⟩
      apply Meets.bind (aside_meets (by rintro ⟨⟩) (fun _ _ => rfl) howns hrepaired)
      · intro released w₃ history₃ hreleased
        exact judged_of_verdict (verdict_of_failed hreleased.1 hreleased.2)
      · intro error' w₃ history₃ hreleased
        exact judged_of_verdict (verdict_of_failed hreleased.1 hreleased.2)
    · intro error' w'' history'' hclosed
      exact judged_of_rejections hclosed

theorem storeSigned_meets (h : Working w₀ id .pending w history)
    (signResult : SignTransactionResult) :
    Meets (services cfg) .any (OrVerdict w₀ (Working w₀ id .signed))
      (WalletService.storeSigned id signResult) w history := by
  apply Meets.bind (P := fun (outcome : Except JsError Int) w' history' =>
    outcome.isOk = true ∧ Working w₀ id .pending w' history')
  · apply Meets.perform
    intro choice reply w' _ hexec
    obtain ⟨hok, rfl⟩ := exec_local rfl hexec
    exact ⟨hok, h.owns, quiet_cons rfl rfl h.quiet⟩
  · rintro now w' history' ⟨_, hworking⟩
    exact write_meets .signed hworking (by decide) (by decide) rfl (by rintro ⟨⟩) (.inr rfl)
  · rintro error w' history' ⟨hok, _⟩
    cases hok

/-! ### The broadcast -/

/-- While `broadcastTransaction` runs. -/
structure Entered (w₀ : World) (id : Uuid) (w : World) (history : List ServiceEntry) : Prop where
  working : Working w₀ id .signed w history
  entered : history.any entersBroadcast = true

theorem Entered.rejections (h : Entered w₀ id w history) : 1 ≤ rejections history := by
  have hnone : history.any answersSubmission = false :=
    List.any_eq_false.mpr fun entry hmem => by simp [(h.working.quiet entry hmem).2]
  have hrejects : broadcastRejects history = true := by
    rw [broadcastRejects, h.entered, hnone]
    rfl
  rw [BrokeTurnkey.rejections, hrejects]
  exact Nat.le_add_left 1 _

theorem submission_rule (rawTx : RawTx) :
    ReplyRule (.sendRawTransaction rawTx) (Entered w₀ id)
      (fun _ w history => Owns w₀ id (·.status = .signed) w ∧ Repaired w₀ history) := by
  constructor
  · intro rpcUrl value accepted w history h
    refine ⟨h.working.owns.of_requests ?_, repaired_cons rfl h.working.quiet.repaired⟩
    rw [World.accept_tables]
  · intro rpcUrl reply accepted w history hreply h
    refine ⟨⟨h.working.owns.of_requests ?_, quiet_cons rfl ?_ h.working.quiet⟩, ?_⟩
    · rw [World.accept_tables]
    · cases reply with
      | error error => rfl
      | ok response =>
        cases response with
        | result value => exact absurd rfl (hreply value)
        | _ => rfl
    · rw [List.any_cons, h.entered, Bool.or_true]

theorem broadcast_meets (h : Working w₀ id .signed w history) (rawTx : RawTx) (chainId : Nat) :
    Meets (services cfg) .any
      (Replied (Entered w₀ id)
        (fun _ w history => Owns w₀ id (·.status = .signed) w ∧ Repaired w₀ history))
      (broadcastTransaction cfg rawTx chainId) w history := by
  apply Meets.bind (P := fun (outcome : Except JsError Unit) w' history' =>
    outcome.isOk = true ∧ Entered w₀ id w' history')
  · apply Meets.perform
    intro choice reply w' _ hexec
    obtain ⟨hok, rfl⟩ := exec_local rfl hexec
    exact ⟨hok, ⟨h.owns, quiet_cons rfl rfl h.quiet⟩, rfl⟩
  · rintro ⟨⟩ w' history' ⟨_, hentered⟩
    exact (submission_rule rawTx).rpcCallWithRetry hentered chainId
  · rintro error w' history' ⟨hok, _⟩
    cases hok

/-- What broadcasting and recording it leaves, before the `catch` block. -/
def Recorded (w₀ : World) (id : Uuid) :
    Except JsError Unit → World → List ServiceEntry → Prop
  | .ok _, w, history => Owns w₀ id (·.status = .broadcasted) w ∧ Repaired w₀ history
  | .error _, w, history =>
    Owns w₀ id (fun _ => True) w ∧ Repaired w₀ history ∧ 1 ≤ rejections history

theorem record_meets (h : Owns w₀ id (·.status = .signed) w) (hrepaired : Repaired w₀ history)
    {fields : SigningRequestUpdate} (hstatus : fields.status = some .broadcasted)
    (hpayload : fields.txPayload = none) :
    Meets (services cfg) .any (Recorded w₀ id) (Js.sql (.requestUpdate id fields)) w history := by
  apply Meets.perform
  intro choice reply w' _ hexec
  have hentry : unrepaired w₀ (entryOf 0 (.sql (.requestUpdate id fields)) choice reply) = false := by
    simp [unrepaired, entryOf, hstatus, hpayload]
  have hwrite := h.exec_update (Q := fun row => row.status = .broadcasted)
    (fun row _ => by simp [SigningRequestUpdate.apply, hstatus]) hexec
  cases reply with
  | ok value =>
    rcases hwrite with ⟨_, howns⟩ | ⟨hreply, _⟩
    · exact ⟨howns, repaired_cons hentry hrepaired⟩
    · cases hreply
  | error error =>
    rcases hwrite with ⟨hreply, _⟩ | ⟨_, howns⟩
    · cases hreply
    · exact ⟨howns.mono fun _ _ => trivial, repaired_cons hentry hrepaired,
        rejected_cons rfl rfl rfl (Nat.zero_le _)⟩

/-- What step 9 leaves. -/
def Sent (w₀ : World) (id : Uuid) : Except JsError Unit → World → List ServiceEntry → Prop
  | .ok _, w, history => Owns w₀ id (·.status = .broadcasted) w ∧ Repaired w₀ history
  | .error error, w, history => Judged (α := SignResult) w₀ (.error error) w history

theorem broadcastStep_meets (h : Working w₀ id .signed w history) (wallet : Wallet)
    (walletId : Text) (chainId : Nat) (signResult : SignTransactionResult) :
    Meets (services cfg) .any (Sent w₀ id)
      (WalletService.broadcastStep cfg wallet walletId chainId signResult id) w history := by
  apply Meets.tryCatch (P := Recorded w₀ id)
  · apply Meets.bind (broadcast_meets h signResult.rawTx chainId)
    · rintro result w' history' ⟨howns, hrepaired⟩
      apply Meets.bind (P := fun (outcome : Except JsError Int) w'' history'' =>
        outcome.isOk = true ∧ Owns w₀ id (·.status = .signed) w'' ∧ Repaired w₀ history'')
      · apply Meets.perform
        intro choice reply w'' _ hexec
        obtain ⟨hok, rfl⟩ := exec_local rfl hexec
        exact ⟨hok, howns, repaired_cons rfl hrepaired⟩
      · rintro now w'' history'' ⟨_, howns', hrepaired'⟩
        exact record_meets howns' hrepaired' rfl rfl
      · rintro error w'' history'' ⟨hok, _⟩
        cases hok
    · intro error w' history' hentered
      exact ⟨hentered.working.owns.mono fun _ _ => trivial, hentered.working.quiet.repaired,
        hentered.rejections⟩
  · intro value w' history' hrecorded
    exact hrecorded
  · rintro error w' history' ⟨howns, hrepaired, hrejected⟩
    apply Meets.bind (fail_meets howns hrepaired hrejected rfl rfl)
    · rintro ⟨⟩ w'' history'' ⟨howns', hrepaired'⟩
      apply Meets.bind (aside_meets (by rintro ⟨⟩) (fun _ _ => rfl) howns' hrepaired')
      · intro _ w₃ history₃ hforked
        exact judged_of_verdict (verdict_of_failed hforked.1 hforked.2)
      · intro error' w₃ history₃ hforked
        exact judged_of_verdict (verdict_of_failed hforked.1 hforked.2)
    · intro error' w'' history'' hclosed
      exact judged_of_rejections hclosed

/-! ### The whole execution -/

theorem judged_ok {α : Type} (value : α) : Judged w₀ (.ok value) w history := by
  rintro ⟨⟩

theorem submit_meets (h : Working w₀ id .pending w history) (orgId walletId : Text)
    (req : SignRequest) (seedRow : OrganizationSeed) (wallet : Wallet) (key : Text)
    (fees : FeeEstimate) :
    Meets (services cfg) .any (Judged w₀)
      (WalletService.submit cfg orgId walletId req seedRow wallet key fees id) w history := by
  apply Meets.bind (prepareFields_meets h walletId req fees)
  · intro txFields w₁ history₁ hprepared
    apply Meets.bind (signStep_meets hprepared seedRow wallet walletId txFields)
    · intro signResult w₂ history₂ hsigned
      apply Meets.bind (storeSigned_meets hsigned signResult)
      · intro _ w₃ history₃ hstored
        apply Meets.bind (broadcastStep_meets hstored wallet walletId req.chainId signResult)
        · rintro _ w₄ history₄ ⟨howns, hrepaired⟩
          apply Meets.bind (aside_meets (by rintro ⟨⟩) (fun _ _ => rfl) howns hrepaired)
          · intro _ w₅ history₅ _
            exact judged_ok _
          · -- the audit row is missing, the transaction is sent
            rintro error w₅ history₅ ⟨howns', hrepaired'⟩
            refine judged_of_verdict (Owns.verdict_final (howns'.mono ?_) hrepaired')
            intro row hrow
            rintro ⟨_, hne⟩
            exact hne hrow
        · intro error w₄ history₄ hsent
          exact hsent
      · intro error w₃ history₃ hstored
        exact judged_of_verdict hstored
    · intro error w₂ history₂ hsigned
      exact hsigned
  · intro error w₁ history₁ hprepared
    exact judged_of_verdict hprepared

theorem requestSign_meets (hids : UniqueIds w₀.tables) (orgId walletId : Text)
    (req : SignRequest) :
    Meets (services cfg) .any (Judged w₀)
      (WalletService.requestSign cfg orgId walletId req) w₀ [] := by
  have hstart : Before w₀ w₀ [] := ⟨rfl, fun entry hmem => by cases hmem⟩
  apply Meets.keep_bind (before_all
    (aside_of_queries (WalletService.loadPrerequisites_queries orgId walletId))) hstart
  · intro prerequisites w₁ history₁ h₁
    apply Meets.keep_bind (before_all (aside_of_queries (sql_queries rfl))) h₁
    · intro existing w₂ history₂ h₂
      split
      · exact judged_ok _
      · apply Meets.keep_bind (before_all (WalletService.evaluatePolicy_all
          (fun _ => isAside_of_query) (fun _ _ => ⟨by rintro ⟨⟩, by rintro ⟨⟩, rfl⟩) cfg req)) h₂
        · intro _ w₃ history₃ h₃
          apply Meets.keep_bind (before_all (aside_of_queries (estimateFees_queries ..))) h₃
          · intro fees w₄ history₄ h₄
            apply Meets.bind (createOrReuse_meets hids h₄ orgId walletId req _)
            · intro claimed w₅ history₅ hsettled
              cases claimed with
              | existing result => exact judged_ok _
              | own id => exact submit_meets ⟨hsettled.1, hsettled.2⟩ orgId walletId req _ _ _ fees
            · intro error w₅ history₅ hsettled
              exact judged_of_verdict hsettled
          · intro error w₄ history₄ h₄
            exact judged_of_verdict h₄.verdict
        · intro error w₃ history₃ h₃
          exact judged_of_verdict h₃.verdict
    · intro error w₂ history₂ h₂
      exact judged_of_verdict h₂.verdict
  · intro error w₁ history₁ h₁
    exact judged_of_verdict h₁.verdict

end Pipeline

end WedgedRows

/-- **When a rejected request is wedged.**  For every execution of `requestSign` in
    which at most one awaited call rejects: if the execution rejects, then no row it
    inserted or took over is left neither failed nor broadcasted if and only if no rejection is one
    that no `catch` block turns into `failed`. -/
theorem requestSign_wedged_iff {cfg : Config} {orgId walletId : Text} {req : SignRequest}
    {w w' : World} {history : List ServiceEntry} {outcome : Except JsError SignResult}
    (hids : UniqueIds w.tables)
    (hrun : Completes (services cfg) .any (WalletService.requestSign cfg orgId walletId req)
      w [] outcome w' history)
    (hrejects : outcome.isOk = false) (hsingle : rejections history ≤ 1) :
    ¬ Wedged w w' ↔ Repaired w history :=
  hrun.meets (WedgedRows.requestSign_meets hids orgId walletId req) hrejects hsingle

namespace WedgedRows

open Sample

/-- A call up to the reservation of the nonce, which the database does not answer. -/
def unreserved : List Choice :=
  untilFees ++ [.done (freshId 1), .reject (.error "Connection terminated".toList)]

/-- The rows that answer an identical request. -/
def duplicate : List Choice := [run, run, run]

/-- The call is answered with a row that is pending. -/
def answersPending (final : Except JsError SignResult × World × List ServiceEntry) : Bool :=
  match final.1 with
  | .ok result => result.status = .pending
  | .error _ => false

/-- A call up to the signature, which the sidecar does not answer. -/
def unsigned : List Choice :=
  untilFees ++ [.done (freshId 1), run, run, .reject (.error "timeout".toList), run, run]

theorem unique_world : UniqueIds world.tables := List.nodup_nil

end WedgedRows

open Sample WedgedRows in
/-- The reservation is the one call that rejects.  The row stays pending, and the
    identical request that follows is answered with it. -/
theorem requestSign_wedged_unreserved :
    ∃ outcome w' history, Completes (services config) .any
        (WalletService.requestSign config org.toText wallet.toText (transfer "1".toList).req)
        world [] outcome w' history ∧
      outcome.isOk = false ∧ rejections history = 1 ∧ Wedged world w' ∧
      ∃ result w'' history', Completes (services config) .any
          (WalletService.requestSign config org.toText wallet.toText (transfer "1".toList).req)
          w' [] (.ok result) w'' history' ∧ result.status = .pending := by
  obtain ⟨outcome, w', history, hrun, hP⟩ := Completes.exists_of_complete (services config) .any
    (WalletService.requestSign config org.toText wallet.toText (transfer "1".toList).req) world
    unreserved
    (fun final => decide (final.1.isOk = false ∧ rejections final.2.2 = 1 ∧ Wedged world final.2.1)
      && ((services config).complete .any duplicate (WalletService.requestSign config org.toText
        wallet.toText (transfer "1".toList).req) final.2.1 []).any answersPending)
    (by decide)
  rw [Bool.and_eq_true] at hP
  obtain ⟨hrejects, hone, hwedged⟩ := of_decide_eq_true hP.1
  obtain ⟨outcome', w'', history', hagain, hpending⟩ := Completes.exists_of_complete
    (services config) .any _ w' duplicate answersPending hP.2
  refine ⟨outcome, w', history, hrun, hrejects, hone, hwedged, ?_⟩
  cases outcome' with
  | ok result => exact ⟨result, w'', history', hagain, of_decide_eq_true hpending⟩
  | error error => cases hpending

open Sample WedgedRows in
/-- The sidecar is the one that rejects, and the row is failed. -/
theorem requestSign_wedged_iff_unsigned :
    ∃ outcome w' history, Completes (services config) .any
        (WalletService.requestSign config org.toText wallet.toText (transfer "1".toList).req)
        world [] outcome w' history ∧
      outcome.isOk = false ∧ rejections history = 1 ∧ ¬ Wedged world w' := by
  obtain ⟨outcome, w', history, hrun, hP⟩ := Completes.exists_of_complete (services config) .any
    (WalletService.requestSign config org.toText wallet.toText (transfer "1".toList).req) world
    unsigned
    (fun final => final.1.isOk = false ∧ rejections final.2.2 = 1 ∧ Repaired world final.2.2)
    (by decide)
  obtain ⟨hrejects, hone, hrepaired⟩ := of_decide_eq_true hP
  exact ⟨outcome, w', history, hrun, hrejects, hone, (requestSign_wedged_iff unique_world hrun
    hrejects hone.le).mpr hrepaired⟩

end BrokeTurnkey
