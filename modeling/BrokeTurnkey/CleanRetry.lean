import BrokeTurnkey.Rows
import BrokeTurnkey.Stages

/-!
# A retry does not start from a clean row

A failed row is reset by an update that names its status alone: the columns it means
to clear are undefined, and an undefined column keeps its value.  Every row that
becomes failed is given a failure reason and an error type by the same write, no
write takes them away, and a reset is only issued for a row that was read as failed.
So no row is ever clean after a reset, whatever call and monitor do in between.

Whether a retry gets as far as the reset is up to the driver.  Where drizzle-orm wraps
the error of the index, the retry is turned away at its insert, and the row stays as
the failed attempt left it.
-/

namespace BrokeTurnkey

open Interaction

namespace CleanRetry

/-- No column tells of an earlier attempt. -/
structure Clean (row : SigningRequest) : Prop where
  txHash : row.txHash = none
  signature : row.signature = none
  txPayload : row.txPayload = none
  failureReason : row.failureReason = none
  errorType : row.errorType = none
  originalTxHash : row.originalTxHash = none
  lastSpeedUpAt : row.lastSpeedUpAt = none
  speedUpAttempts : row.speedUpAttempts = 0

/-- The row names the failure of an attempt. -/
structure Blamed (row : SigningRequest) : Prop where
  failureReason : row.failureReason.isSome = true
  errorType : row.errorType.isSome = true

theorem Blamed.not_clean {row : SigningRequest} (h : Blamed row) : ¬ Clean row := by
  intro hclean
  have hsome := h.failureReason
  rw [hclean.failureReason] at hsome
  cases hsome

/-- No write takes the blame away. -/
theorem Blamed.apply {row : SigningRequest} (h : Blamed row) (fields : SigningRequestUpdate) :
    Blamed (fields.apply row) := by
  constructor
  · simp only [SigningRequestUpdate.apply, Option.isSome_or, h.failureReason, Bool.or_true]
  · simp only [SigningRequestUpdate.apply, Option.isSome_or, h.errorType, Bool.or_true]

theorem blamed_failed (reason : Text) (errorType : ErrorType) (row : SigningRequest) :
    Blamed ((failedFields reason errorType).apply row) := ⟨rfl, rfl⟩

/-- A write of the status `failed` gives the reason. -/
theorem fields_of_step {cfg : Config} {stage stage' : Stage} {id : Uuid}
    {fields : SigningRequestUpdate} {reply : Except JsError Unit}
    (hstep : Step cfg stage (.sql (.requestUpdate id fields)) reply stage')
    (hfailed : fields.status = some .failed) :
    ∃ reason errorType, fields = failedFields reason errorType := by
  cases hstep with
  | query hquery => cases hquery
  | never hlocal => cases hlocal
  | client h =>
    cases h with
    | unsigned => exact ⟨_, _, rfl⟩
    | notUnsigned => exact ⟨_, _, rfl⟩
    | unsent => exact ⟨_, _, rfl⟩
    | disowned => exact ⟨_, _, rfl⟩
    | _ => cases hfailed
  | monitor h =>
    cases h with
    | settles hrow hfields =>
      cases hfields with
      | failed reason errorType => exact ⟨reason, errorType, rfl⟩
      | confirmed => cases hfailed
      | dropped => cases hfailed
    | unsent => exact ⟨_, _, rfl⟩
    | records => cases hfailed

/-- A row is inserted as pending. -/
theorem create_of_step {cfg : Config} {stage stage' : Stage} {data : NewSigningRequest}
    {reply : Except JsError SigningRequest}
    (hstep : Step cfg stage (.sql (.requestCreate data)) reply stage') :
    data.status = .pending := by
  cases hstep with
  | query hquery => cases hquery
  | never hlocal => cases hlocal
  | client h =>
    cases h with
    | created hpending => exact hpending
    | notCreated hpending => exact hpending
    | conflicts hpending => exact hpending
  | monitor h => cases h

/-- What holds throughout a run: failed rows are blamed, and so are the rows that calls
    have read as failed and the rows that were reset. -/
structure Inv (w : World) (history : List ServiceEntry) (stage : Nat → Stage) : Prop where
  unique : UniqueIds w.tables
  failed : ∀ row ∈ w.tables.requests, row.status = .failed → Blamed row
  seen : ∀ i call id, stage i = .client call (.seen id) → Stored id Blamed w.tables
  reset : ∀ entry ∈ history, ∀ id, entry.command.resets = some id → entry.choice.ran = true →
    Stored id Blamed w.tables

variable {cfg : Config}

/-- Stored blame outlives every command. -/
theorem blamed_exec {w w' : World} {command : Cmd} {choice : Choice}
    {reply : Except JsError command.Reply} (hexec : exec command choice w = some (reply, w'))
    {id : Uuid} (h : Stored id Blamed w.tables) : Stored id Blamed w'.tables := by
  apply stored_exec hexec h
  intro fields _ row hblamed
  exact hblamed.apply fields

theorem keeps : Automaton.Keeps (Step cfg) (services cfg) .any Inv := by
  intro i command choice w w' history stage stage' reply hstep hinv _ hexec
  constructor
  · exact hinv.unique.exec hexec
  · apply rows_exec hexec hinv.failed
    · intro id fields hcommand row hrow hblamed
      subst hcommand
      by_cases hid : row.id = id
      · rw [updateRow_of_id hid]
        intro hfailed
        cases hstatus : fields.status with
        | none =>
          -- the row was failed before
          simp only [SigningRequestUpdate.apply, hstatus, Option.getD_none] at hfailed
          exact (hblamed hfailed).apply fields
        | some status =>
          simp only [SigningRequestUpdate.apply, hstatus, Option.getD_some] at hfailed
          rw [hfailed] at hstatus
          obtain ⟨reason, errorType, rfl⟩ := fields_of_step hstep hstatus
          exact blamed_failed reason errorType row
      · rw [updateRow_of_ne hid]
        exact hblamed
    · intro data id org wallet hcommand _ _ hfailed
      subst hcommand
      have hpending := create_of_step hstep
      rw [SigningRequestRepository.newRow, hpending] at hfailed
      cases hfailed
  · intro j call id hj
    by_cases hji : j = i
    · subst hji
      rw [Function.update_self] at hj
      subst hj
      rcases read_of_step hstep hexec with hseen | ⟨rfl, row, hrow, rfl, hfailed⟩
      · exact blamed_exec hexec (hinv.seen j call id hseen)
      · apply (hinv.unique.stored hrow).mono
        rintro _ rfl
        exact hinv.failed _ hrow hfailed
    · rw [Function.update_of_ne hji] at hj
      exact blamed_exec hexec (hinv.seen j call id hj)
  · intro entry hentry id hresets hran
    rcases List.mem_cons.mp hentry with rfl | hentry
    · obtain ⟨call, hseen⟩ := seen_of_step hstep hresets
      exact blamed_exec hexec (hinv.seen i call id hseen)
    · exact blamed_exec hexec (hinv.reset entry hentry id hresets hran)

theorem start_inv {calls : List SignCall} {polls : List Nat} {w : World}
    (hempty : w.tables.requests = []) : Inv w [] (startStage calls polls) := by
  constructor
  · rw [UniqueIds, hempty]
    exact List.nodup_nil
  · intro row hrow
    rw [hempty] at hrow
    cases hrow
  · intro i call id hseen
    simp only [startStage] at hseen
    split at hseen
    · cases hseen
    · split at hseen <;> cases hseen
  · intro entry hentry
    cases hentry

theorem Inv.event {w w' : World} {event : Event} {history : List ServiceEntry}
    {stage : Nat → Stage} (h : Inv w history stage) (hevent : w.event event = some w') :
    Inv w' history stage := by
  have heq := (World.event_tables hevent).1
  constructor
  · exact h.unique.of_eq heq
  · rw [heq]
    exact h.failed
  · intro i call id hseen
    exact (h.seen i call id hseen).of_eq heq
  · intro entry hentry id hresets hran
    exact (h.reset entry hentry id hresets hran).of_eq heq

end CleanRetry

namespace CleanRetry

/-- No call has reset a row. -/
structure Unreset (w : World) (history : List ServiceEntry) (stage : Nat → Stage) : Prop
    extends Unconflicted w stage where
  unreset : ∀ entry ∈ history, entry.command.resets = none

theorem keeps_unreset : Automaton.Keeps (Step cfg) (services cfg) .any Unreset := by
  intro i command choice w w' history stage stage' reply hstep hinv _ hexec
  refine ⟨hinv.toUnconflicted.step hstep hexec, fun entry hentry => ?_⟩
  rcases List.mem_cons.mp hentry with rfl | hentry
  · cases hresets : command.resets with
    | none => exact hresets
    | some id =>
      obtain ⟨call, hseen⟩ := seen_of_step hstep hresets
      exact absurd hseen (hinv.seen i call id)
  · exact hinv.unreset entry hentry

end CleanRetry

open CleanRetry in
/-- With a driver that wraps the error of the index no row is ever reset. -/
theorem requestSign_never_resets {cfg : Config} {calls : List SignCall} {polls : List Nat}
    {w : World} (hwraps : w.tables.Wraps) {p : ServicePool}
    (hreach : Reach (services cfg) .any (deployment cfg calls polls w) p) :
    ∀ entry ∈ p.history, entry.command.resets = none := by
  obtain ⟨stage, _, hinv⟩ := services_invariant keeps_unreset
    (fun event w w' history stage hinv _ hevent => ⟨hinv.toUnconflicted.event hevent, hinv.unreset⟩)
    (deployment_staged cfg calls polls w)
    ⟨start_unconflicted hwraps, fun _ hentry => absurd hentry List.not_mem_nil⟩ hreach
  exact hinv.unreset

namespace CleanRetry

open Sample

/-- The sidecar does not answer, and the row is given up as failed. -/
def fails : List Choice :=
  untilFees ++ [.done (freshId 1), run, run, .reject (.error "timeout".toList), run, run]

/-- The identical request comes as far as its insert. -/
def retries : List Choice := untilFees ++ [.done (freshId 2)]

/-- It finds the row and resets it. -/
def resets : List Choice := retries ++ [run, run]

/-- The retry goes through. -/
def succeeds : List Choice := signs "s".toList "0x1".toList ++ [run, accepts, run, run]

instance (row : SigningRequest) : Decidable (Clean row) :=
  decidable_of_iff (row.txHash = none ∧ row.signature = none ∧ row.txPayload = none ∧
      row.failureReason = none ∧ row.errorType = none ∧ row.originalTxHash = none ∧
      row.lastSpeedUpAt = none ∧ row.speedUpAttempts = 0)
    ⟨fun ⟨h1, h2, h3, h4, h5, h6, h7, h8⟩ => ⟨h1, h2, h3, h4, h5, h6, h7, h8⟩,
      fun ⟨h1, h2, h3, h4, h5, h6, h7, h8⟩ => ⟨h1, h2, h3, h4, h5, h6, h7, h8⟩⟩

end CleanRetry

end BrokeTurnkey
