import BrokeTurnkey.Footprint
import BrokeTurnkey.Interaction.Tenants

/-!
# The rows of signing_requests

Rows are inserted and updated, never removed, and an update keeps the id and the
idempotency key.  What the later arguments say about a row is `Stored`: there is a
row with this id, and every row with this id is so.
-/

namespace BrokeTurnkey

open Interaction

/-! ### Updates -/

section Update

variable {id : Uuid} {fields : SigningRequestUpdate} {row : SigningRequest} {t : Tables}

theorem updateRow_id (id : Uuid) (fields : SigningRequestUpdate) (row : SigningRequest) :
    (SigningRequestRepository.updateRow id fields row).id = row.id := by
  simp only [SigningRequestRepository.updateRow]
  split <;> rfl

theorem updateRow_of_id (h : row.id = id) :
    SigningRequestRepository.updateRow id fields row = fields.apply row := if_pos h

theorem updateRow_of_ne (h : row.id ≠ id) :
    SigningRequestRepository.updateRow id fields row = row := if_neg h

theorem mem_update (h : row ∈ (SigningRequestRepository.updated id fields t).requests) :
    ∃ old ∈ t.requests, SigningRequestRepository.updateRow id fields old = row :=
  List.mem_map.mp h

/-- An insert either adds a row whose key had none, or changes nothing. -/
theorem requestCreate_cases (data : NewSigningRequest) (id : Uuid) (now : Int) (t : Tables) :
    (∃ org wallet, Uuid.ofText data.orgId = some org ∧ Uuid.ofText data.walletId = some wallet ∧
      (∀ row ∈ t.requests, row.idempotencyKey ≠ data.idempotencyKey) ∧
      SigningRequestRepository.create data id now t =
        (.ok (SigningRequestRepository.newRow data id org wallet now),
          { t with requests :=
              t.requests ++ [SigningRequestRepository.newRow data id org wallet now] })) ∨
    ∃ error, SigningRequestRepository.create data id now t = (.error error, t) := by
  simp only [SigningRequestRepository.create, withUuid]
  split
  · rename_i org horg
    split
    · rename_i wallet hwallet
      split
      · exact .inr ⟨_, rfl⟩
      · rename_i hnone
        refine .inl ⟨org, wallet, horg, hwallet, fun row hrow hkey => ?_, rfl⟩
        exact hnone (List.any_eq_true.mpr ⟨row, hrow, decide_eq_true hkey⟩)
    · exact .inr ⟨_, rfl⟩
  · exact .inr ⟨_, rfl⟩

end Update

/-! ### Rows by id -/

def HasRow (id : Uuid) (t : Tables) : Prop := ∃ row ∈ t.requests, row.id = id

def EveryRow (id : Uuid) (P : SigningRequest → Prop) (t : Tables) : Prop :=
  ∀ row ∈ t.requests, row.id = id → P row

/-- The row with this id is stored, and it is so. -/
def Stored (id : Uuid) (P : SigningRequest → Prop) (t : Tables) : Prop :=
  HasRow id t ∧ EveryRow id P t

section Stored

variable {id : Uuid} {P Q : SigningRequest → Prop} {fields : SigningRequestUpdate}
  {t : Tables}

theorem HasRow.update (h : HasRow id t) (id' : Uuid) (fields : SigningRequestUpdate) :
    HasRow id (SigningRequestRepository.updated id' fields t) := by
  obtain ⟨row, hmem, hid⟩ := h
  exact ⟨_, List.mem_map_of_mem hmem, (updateRow_id id' fields row).trans hid⟩

/-- What an update makes of the rows it is for. -/
theorem EveryRow.update (h : EveryRow id P t) (himp : ∀ row, P row → Q (fields.apply row)) :
    EveryRow id Q (SigningRequestRepository.updated id fields t) := by
  intro row hrow hid
  obtain ⟨old, hold, rfl⟩ := mem_update hrow
  rw [updateRow_id] at hid
  rw [updateRow_of_id hid]
  exact himp old (h old hold hid)

theorem EveryRow.mono (h : EveryRow id P t) (himp : ∀ row, P row → Q row) : EveryRow id Q t :=
  fun row hrow hid => himp row (h row hrow hid)

theorem everyRow_true (id : Uuid) (t : Tables) : EveryRow id (fun _ => True) t :=
  fun _ _ _ => trivial

theorem Stored.update (h : Stored id P t) (himp : ∀ row, P row → Q (fields.apply row)) :
    Stored id Q (SigningRequestRepository.updated id fields t) :=
  ⟨h.1.update id fields, h.2.update himp⟩

/-- Two descriptions of one row agree on it. -/
theorem Stored.and (h : Stored id P t) (h' : EveryRow id Q t) : ∃ row, P row ∧ Q row := by
  obtain ⟨⟨row, hrow, hid⟩, hP⟩ := h
  exact ⟨row, hP row hrow hid, h' row hrow hid⟩

theorem Stored.mono (h : Stored id P t) (himp : ∀ row, P row → Q row) : Stored id Q t :=
  ⟨h.1, h.2.mono himp⟩

theorem HasRow.of_eq {t' : Tables} (h : HasRow id t) (heq : t'.requests = t.requests) :
    HasRow id t' := by
  rw [HasRow, heq]
  exact h

/-- Only the rows matter. -/
theorem Stored.of_eq {t' : Tables} (h : Stored id P t) (heq : t'.requests = t.requests) :
    Stored id P t' := by
  rw [Stored, HasRow, EveryRow, heq]
  exact h

/-- An inserted row is stored. -/
theorem stored_append {row : SigningRequest} (hfresh : ∀ other ∈ t.requests, other.id ≠ row.id) :
    Stored row.id (· = row) { t with requests := t.requests ++ [row] } := by
  refine ⟨⟨row, List.mem_append_right _ (List.mem_singleton_self row), rfl⟩,
    fun other hother hotherid => ?_⟩
  rcases List.mem_append.mp hother with hother | hother
  · exact absurd hotherid (hfresh other hother)
  · exact List.mem_singleton.mp hother

end Stored

/-- Every value fits its column. -/
def SigningRequestUpdate.Fits (fields : SigningRequestUpdate) : Prop :=
  SigningRequestRepository.outOfRange fields = false ∧
    SigningRequestRepository.tooLong fields = false

instance (fields : SigningRequestUpdate) : Decidable fields.Fits :=
  inferInstanceAs (Decidable (SigningRequestRepository.outOfRange fields = false ∧
    SigningRequestRepository.tooLong fields = false))

/-- The values a command writes fit their columns. -/
def Cmd.fits : Cmd → Bool
  | .sql (.requestUpdate _ fields) => decide fields.Fits
  | _ => true

/-- An update is made and answered, or a value does not fit its column. -/
theorem requestUpdate_cases (id : Uuid) (fields : SigningRequestUpdate) (t : Tables) :
    (fields.Fits ∧ SigningRequestRepository.update id fields t =
      (.ok (), SigningRequestRepository.updated id fields t)) ∨
    (¬fields.Fits ∧ ∃ error, SigningRequestRepository.update id fields t = (.error error, t)) := by
  simp only [SigningRequestRepository.update]
  split
  · rename_i hrange
    exact .inr ⟨fun hfits => by simp [hfits.1] at hrange, _, rfl⟩
  · rename_i hrange
    split
    · rename_i hlong
      exact .inr ⟨fun hfits => by simp [hfits.2] at hlong, _, rfl⟩
    · rename_i hlong
      exact .inl ⟨⟨eq_false_of_ne_true hrange, eq_false_of_ne_true hlong⟩, rfl⟩

/-- An update is made and answered, made without an answer, or leaves no trace. -/
theorem exec_update {id : Uuid} {fields : SigningRequestUpdate} {choice : Choice} {w w' : World}
    {reply : Except JsError (Cmd.sql (.requestUpdate id fields)).Reply}
    (h : exec (.sql (.requestUpdate id fields)) choice w = some (reply, w')) :
    (choice.ran = true ∧ fields.Fits ∧
      w' = { w with tables := SigningRequestRepository.updated id fields w.tables } ∧
      (reply = .ok () ∨ choice.isLost = true ∧ reply.isOk = false)) ∨
    ((choice.ran = true → ¬fields.Fits) ∧ w' = w ∧ reply.isOk = false) := by
  rcases exec_sql h with ⟨_, _, rfl, hreply⟩ | ⟨error, rfl, _, rfl, rfl⟩
  · simp only [Sql.exec] at hreply ⊢
    rcases requestUpdate_cases id fields w.tables with ⟨hfits, heq⟩ | ⟨hnot, error, heq⟩
    · rw [heq] at hreply ⊢
      rcases hreply with ⟨rfl, rfl⟩ | ⟨_, rfl, _, rfl⟩
      · exact .inl ⟨rfl, hfits, rfl, .inl rfl⟩
      · exact .inl ⟨rfl, hfits, rfl, .inr ⟨rfl, rfl⟩⟩
    · rw [heq] at hreply ⊢
      rcases hreply with ⟨rfl, rfl⟩ | ⟨_, rfl, _, rfl⟩
      · exact .inr ⟨fun _ => hnot, rfl, rfl⟩
      · exact .inr ⟨fun _ => hnot, rfl, rfl⟩
  · exact .inr ⟨fun hran => absurd hran Bool.false_ne_true, rfl, rfl⟩

/-- Where the values fit, only what does not reach the database leaves no trace. -/
theorem exec_update_of_fits {id : Uuid} {fields : SigningRequestUpdate} (hfits : fields.Fits)
    {choice : Choice} {w w' : World}
    {reply : Except JsError (Cmd.sql (.requestUpdate id fields)).Reply}
    (h : exec (.sql (.requestUpdate id fields)) choice w = some (reply, w')) :
    (choice.ran = true ∧
      w' = { w with tables := SigningRequestRepository.updated id fields w.tables } ∧
      (reply = .ok () ∨ choice.isLost = true ∧ reply.isOk = false)) ∨
    (choice.ran = false ∧ w' = w ∧ reply.isOk = false) := by
  rcases exec_update h with ⟨hran, _, hupdate⟩ | ⟨hran, hnone⟩
  · exact .inl ⟨hran, hupdate⟩
  · exact .inr ⟨eq_false_of_ne_true fun htrue => hran htrue hfits, hnone⟩

/-- An insert adds the row of a new id and a new key, or leaves no trace and no answer. -/
theorem exec_insert {data : NewSigningRequest} {choice : Choice} {w w' : World}
    {reply : Except JsError (Cmd.sql (.requestCreate data)).Reply}
    (h : exec (.sql (.requestCreate data)) choice w = some (reply, w')) :
    (∃ id org wallet, Uuid.ofText data.orgId = some org ∧ Uuid.ofText data.walletId = some wallet ∧
      (∀ row ∈ w.tables.requests, row.id ≠ id) ∧
      (∀ row ∈ w.tables.requests, row.idempotencyKey ≠ data.idempotencyKey) ∧
      w' = { w with tables := { w.tables with requests := w.tables.requests ++
        [SigningRequestRepository.newRow data id org wallet w.clock] } } ∧
      (reply = .ok (SigningRequestRepository.newRow data id org wallet w.clock) ∨
        reply.isOk = false)) ∨
    (w' = w ∧ reply.isOk = false) := by
  rcases exec_sql h with ⟨id, hisfresh, rfl, hreply⟩ | ⟨error, _, _, rfl, rfl⟩
  · simp only [Sql.exec] at hreply ⊢
    rcases requestCreate_cases data id w.clock w.tables with
      ⟨org, wallet, horg, hwallet, hfree, heq⟩ | ⟨error, heq⟩
    · rw [heq] at hreply ⊢
      have hfresh : ∀ row ∈ w.tables.requests, row.id ≠ id := fun row hrow =>
        of_decide_eq_true (List.all_eq_true.mp hisfresh row hrow)
      refine .inl ⟨id, org, wallet, horg, hwallet, hfresh, hfree, rfl, ?_⟩
      rcases hreply with ⟨_, rfl⟩ | ⟨_, _, _, rfl⟩
      · exact .inl rfl
      · exact .inr rfl
    · rw [heq] at hreply ⊢
      rcases hreply with ⟨_, rfl⟩ | ⟨_, _, _, rfl⟩
      · exact .inr ⟨rfl, rfl⟩
      · exact .inr ⟨rfl, rfl⟩
  · exact .inr ⟨rfl, rfl⟩

/-! ### What a command does to the rows -/

/-- A command leaves the rows alone, updates them, or inserts a fresh one. -/
theorem exec_requests {command : Cmd} {choice : Choice} {w w' : World}
    {reply : Except JsError command.Reply} (hexec : exec command choice w = some (reply, w')) :
    w'.tables.requests = w.tables.requests ∨
    (∃ id fields, command = .sql (.requestUpdate id fields) ∧
      w'.tables.requests = w.tables.requests.map (SigningRequestRepository.updateRow id fields)) ∨
    ∃ data id org wallet, command = .sql (.requestCreate data) ∧
      Uuid.ofText data.orgId = some org ∧ Uuid.ofText data.walletId = some wallet ∧
      (∀ row ∈ w.tables.requests, row.id ≠ id) ∧
      w'.tables.requests = w.tables.requests ++
        [SigningRequestRepository.newRow data id org wallet w.clock] := by
  by_cases hwrites : command.writes = some .requests
  · cases command with
    | sql statement =>
      cases statement with
      | requestCreate data =>
        rcases exec_insert hexec with ⟨id, org, wallet, horg, hwallet, hfresh, _, rfl, _⟩ | ⟨rfl, _⟩
        · exact .inr (.inr ⟨data, id, org, wallet, rfl, horg, hwallet, hfresh, rfl⟩)
        · exact .inl rfl
      | requestUpdate requestId fields =>
        rcases exec_update hexec with ⟨_, _, rfl, _⟩ | ⟨_, rfl, _⟩
        · exact .inr (.inl ⟨requestId, fields, rfl, rfl⟩)
        · exact .inl rfl
      | _ => cases hwrites
    | _ => cases hwrites
  · exact .inl ((exec_agree hexec).requests hwrites)

section Exec

variable {id : Uuid} {P : SigningRequest → Prop} {command : Cmd} {choice : Choice} {w w' : World}
  {reply : Except JsError command.Reply} (hexec : exec command choice w = some (reply, w'))
include hexec

/-- Rows are never removed. -/
theorem hasRow_exec (h : HasRow id w.tables) : HasRow id w'.tables := by
  obtain ⟨row, hmem, hid⟩ := h
  rcases exec_requests hexec with heq | ⟨id', fields, _, heq⟩ | ⟨data, id', org, wallet, _, _, _, _, heq⟩
  · exact ⟨row, heq ▸ hmem, hid⟩
  · exact ⟨_, heq ▸ List.mem_map_of_mem hmem, (updateRow_id id' fields row).trans hid⟩
  · exact ⟨row, heq ▸ List.mem_append_left _ hmem, hid⟩

/-- What the updates of a row keep, every command keeps. -/
theorem stored_exec (h : Stored id P w.tables)
    (hkeep : ∀ fields, command = .sql (.requestUpdate id fields) →
      ∀ row, P row → P (fields.apply row)) : Stored id P w'.tables := by
  refine ⟨hasRow_exec hexec h.1, fun row hrow hid => ?_⟩
  rcases exec_requests hexec with heq | ⟨id', fields, hcommand, heq⟩ |
      ⟨data, id', org, wallet, _, _, _, hfresh, heq⟩
  · exact h.2 row (heq ▸ hrow) hid
  · rw [heq] at hrow
    obtain ⟨old, hold, rfl⟩ := List.mem_map.mp hrow
    rw [updateRow_id] at hid
    by_cases hid' : old.id = id'
    · rw [updateRow_of_id hid']
      exact hkeep fields (by rw [hcommand, ← hid', hid]) old (h.2 old hold hid)
    · rw [updateRow_of_ne hid']
      exact h.2 old hold hid
  · rw [heq] at hrow
    rcases List.mem_append.mp hrow with hrow | hrow
    · exact h.2 row hrow hid
    · obtain ⟨old, hold, holdid⟩ := h.1
      rw [List.mem_singleton.mp hrow] at hid
      exact absurd (holdid.trans hid.symm) (hfresh old hold)

/-- What was rejected leaves the world alone. -/
theorem exec_of_not_ran (hran : choice.ran = false) : w' = w := by
  cases choice with
  | reject error =>
    cases command with
    | sql statement =>
      rcases exec_sql hexec with ⟨_, _, _, ⟨hdone, _⟩ | ⟨_, hlost, _, _⟩⟩ | ⟨_, _, _, _, hw⟩
      · cases hdone
      · cases hlost
      · exact hw
    | sidecar request => exact (exec_sidecar hexec).2
    | fetch rpcUrl request => cases hexec
    | now => cases hexec
    | log line => cases hexec
    | fork job => cases hexec
  | _ => cases hran

/-- The same for the updates that run. -/
theorem stored_exec_of_ran (h : Stored id P w.tables)
    (hkeep : choice.ran = true → ∀ fields, command = .sql (.requestUpdate id fields) →
      ∀ row, P row → P (fields.apply row)) : Stored id P w'.tables := by
  cases hran : choice.ran with
  | true => exact stored_exec hexec h (hkeep hran)
  | false =>
    rw [exec_of_not_ran hexec hran]
    exact h

/-- A property of all rows that updates keep and inserts establish. -/
theorem rows_exec (h : ∀ row ∈ w.tables.requests, P row)
    (hupdate : ∀ id fields, command = .sql (.requestUpdate id fields) →
      ∀ row ∈ w.tables.requests, P row → P (SigningRequestRepository.updateRow id fields row))
    (hcreate : ∀ data id org wallet, command = .sql (.requestCreate data) →
      Uuid.ofText data.orgId = some org → Uuid.ofText data.walletId = some wallet →
      P (SigningRequestRepository.newRow data id org wallet w.clock)) :
    ∀ row ∈ w'.tables.requests, P row := by
  intro row hrow
  rcases exec_requests hexec with heq | ⟨id', fields, hcommand, heq⟩ |
      ⟨data, id', org, wallet, hcommand, horg, hwallet, _, heq⟩
  · exact h row (heq ▸ hrow)
  · rw [heq] at hrow
    obtain ⟨old, hold, rfl⟩ := List.mem_map.mp hrow
    exact hupdate id' fields hcommand old hold (h old hold)
  · rw [heq] at hrow
    rcases List.mem_append.mp hrow with hrow | hrow
    · exact h row hrow
    · rw [List.mem_singleton.mp hrow]
      exact hcreate data id' org wallet hcommand horg hwallet

end Exec

/-! ### Unique ids -/

/-- The primary key. -/
def UniqueIds (t : Tables) : Prop := (t.requests.map SigningRequest.id).Nodup

theorem UniqueIds.of_eq {t t' : Tables} (h : UniqueIds t) (heq : t'.requests = t.requests) :
    UniqueIds t' := by
  rw [UniqueIds, heq]
  exact h

theorem UniqueIds.eq {t : Tables} (h : UniqueIds t) {row row' : SigningRequest}
    (hrow : row ∈ t.requests) (hrow' : row' ∈ t.requests) (hid : row.id = row'.id) : row = row' :=
  UniqueBy.eq h hrow hrow' hid

theorem UniqueIds.stored {t : Tables} (h : UniqueIds t) {row : SigningRequest}
    (hrow : row ∈ t.requests) : Stored row.id (· = row) t :=
  ⟨⟨row, hrow, rfl⟩, fun _ hother hid => h.eq hother hrow hid⟩

theorem UniqueIds.update {t : Tables} (h : UniqueIds t) (id : Uuid)
    (fields : SigningRequestUpdate) :
    UniqueIds (SigningRequestRepository.updated id fields t) :=
  UniqueBy.map h (updateRow_id id fields)

theorem UniqueIds.append {t : Tables} (h : UniqueIds t) {row : SigningRequest}
    (hfresh : ∀ other ∈ t.requests, other.id ≠ row.id) :
    UniqueIds { t with requests := t.requests ++ [row] } :=
  UniqueBy.append h hfresh

theorem UniqueIds.exec {command : Cmd} {choice : Choice} {w w' : World}
    {reply : Except JsError command.Reply} (hexec : exec command choice w = some (reply, w'))
    (h : UniqueIds w.tables) : UniqueIds w'.tables := by
  rcases exec_requests hexec with heq | ⟨id, fields, _, heq⟩ |
      ⟨data, id, org, wallet, _, _, _, hfresh, heq⟩
  · rw [UniqueIds, heq]
    exact h
  · rw [UniqueIds, heq]
    exact h.update id fields
  · rw [UniqueIds, heq]
    exact UniqueIds.append h hfresh

/-! ### The row of a key -/

/-- What `findByIdempotencyKey` answers. -/
def keyRow (key : Text) (t : Tables) : Option SigningRequest :=
  t.requests.find? fun row => row.idempotencyKey = key

theorem keyRow_update (key : Text) (id : Uuid) (fields : SigningRequestUpdate) (t : Tables) :
    keyRow key (SigningRequestRepository.updated id fields t) =
      (keyRow key t).map (SigningRequestRepository.updateRow id fields) := by
  have hkey : (fun row : SigningRequest => decide (row.idempotencyKey = key)) ∘
      SigningRequestRepository.updateRow id fields =
        fun row : SigningRequest => decide (row.idempotencyKey = key) := by
    funext row
    simp only [Function.comp, SigningRequestRepository.updateRow]
    split <;> rfl
  simp only [keyRow, SigningRequestRepository.updated, List.find?_map, hkey]

theorem keyRow_eq_none {key : Text} {t : Tables}
    (h : ∀ row ∈ t.requests, row.idempotencyKey ≠ key) : keyRow key t = none :=
  List.find?_eq_none.mpr fun row hrow hkey => h row hrow (of_decide_eq_true hkey)

theorem keyRow_append {key : Text} {t : Tables} {row : SigningRequest}
    (hnone : keyRow key t = none) (hkey : row.idempotencyKey = key) :
    keyRow key { t with requests := t.requests ++ [row] } = some row := by
  rw [keyRow] at hnone ⊢
  rw [List.find?_append, hnone, Option.none_or, List.find?_singleton, hkey]
  simp

/-! ### The error of a taken key -/

/-- The driver does not change. -/
theorem exec_wraps {command : Cmd} {choice : Choice} {w w' : World}
    {reply : Except JsError command.Reply} (hexec : exec command choice w = some (reply, w'))
    (h : w.tables.Wraps) : w'.tables.Wraps := by
  rw [Tables.Wraps, (exec_agree hexec).uniqueViolationError]
  exact h

theorem World.event_wraps {w w' : World} {event : Event} (hevent : w.event event = some w')
    (h : w.tables.Wraps) : w'.tables.Wraps := by
  cases event with
  | newWallet row =>
    simp only [World.event] at hevent
    split at hevent
    · cases hevent
      exact h
    · cases hevent
  | newSeed row =>
    simp only [World.event] at hevent
    split at hevent
    · cases hevent
      exact h
    · cases hevent
  | _ =>
    cases hevent
    exact h

/-- With a driver that wraps the error, an insert that fails never shows the code by which
    the services tell a taken key. -/
theorem exec_create_wrapped {data : NewSigningRequest} {choice : Choice} {w w' : World}
    {error : JsError} (hwraps : w.tables.Wraps)
    (hexec : exec (.sql (.requestCreate data)) choice w = some (.error error, w')) :
    error.code ≠ some uniqueViolation := by
  rcases exec_sql hexec with ⟨id, _, _, ⟨_, hreply⟩ | ⟨_, _, hcode, hreply⟩⟩ |
    ⟨_, _, hcode, hreply, _⟩
  · simp only [Sql.exec, SigningRequestRepository.create, withUuid] at hreply
    split at hreply
    · split at hreply
      · split at hreply
        · cases hreply
          rw [hwraps]
          intro hcode
          cases hcode
        · cases hreply
      · cases hreply
        decide
    · cases hreply
      decide
  · cases hreply
    exact hcode
  · cases hreply
    exact hcode

/-! ### Answers -/

/-- An answered lookup reads the row of the key. -/
theorem exec_lookup {key : Text} {choice : Choice} {w w' : World}
    {found : Option SigningRequest}
    (hexec : exec (.sql (.requestFindByIdempotencyKey key)) choice w = some (.ok found, w')) :
    w' = w ∧ keyRow key w.tables = found ∧ choice.ran = true ∧ choice.isLost = false := by
  refine ⟨exec_query rfl hexec, ?_⟩
  rcases exec_sql hexec with ⟨_, _, _, ⟨rfl, heq⟩ | ⟨_, _, _, heq⟩⟩ | ⟨_, _, _, heq, _⟩
  · exact ⟨(Except.ok.inj heq).symm, rfl, rfl⟩
  · cases heq
  · cases heq

/-- A row that was found is stored under the key. -/
theorem exec_find {key : Text} {choice : Choice} {w w' : World} {row : SigningRequest}
    (hexec : exec (.sql (.requestFindByIdempotencyKey key)) choice w = some (.ok (some row), w')) :
    w' = w ∧ row ∈ w.tables.requests ∧ row.idempotencyKey = key := by
  obtain ⟨hw, hfind, _, _⟩ := exec_lookup hexec
  have hkey := List.find?_some hfind
  exact ⟨hw, List.mem_of_find?_eq_some hfind, of_decide_eq_true hkey⟩

/-- A row that was created is stored as it was answered. -/
theorem exec_create {data : NewSigningRequest} {choice : Choice} {w w' : World}
    {row : SigningRequest}
    (hexec : exec (.sql (.requestCreate data)) choice w = some (.ok row, w')) :
    (∃ id org wallet, Uuid.ofText data.walletId = some wallet ∧
      row = SigningRequestRepository.newRow data id org wallet w.clock) ∧
      Stored row.id (· = row) w'.tables := by
  rcases exec_insert hexec with ⟨id, org, wallet, _, hwallet, hfresh, _, rfl, hok | herror⟩ |
    ⟨_, herror⟩
  · cases hok
    exact ⟨⟨id, org, wallet, hwallet, rfl⟩, stored_append hfresh⟩
  · cases herror
  · cases herror

/-- The id of a row that was created was not in use. -/
theorem exec_create_fresh {data : NewSigningRequest} {choice : Choice} {w w' : World}
    {row : SigningRequest}
    (hexec : exec (.sql (.requestCreate data)) choice w = some (.ok row, w')) :
    ¬ HasRow row.id w.tables := by
  rintro ⟨other, hother, hid⟩
  rcases exec_insert hexec with ⟨id, org, wallet, _, _, hfresh, _, _, hok | herror⟩ | ⟨_, herror⟩
  · cases hok
    exact hfresh other hother hid
  · cases herror
  · cases herror

/-- A poll reads the broadcasted rows, in some order. -/
theorem exec_findBroadcasted_perm {choice : Choice} {w w' : World} {rows : List SigningRequest}
    (hexec : exec (.sql .requestFindBroadcasted) choice w = some (.ok rows, w')) :
    w' = w ∧ rows.Perm (w.tables.requests.filter fun row => row.status = .broadcasted) := by
  refine ⟨exec_query rfl hexec, ?_⟩
  rcases exec_sql hexec with ⟨_, _, _, ⟨_, heq⟩ | ⟨_, _, _, heq⟩⟩ | ⟨_, _, _, heq, _⟩
  · have hrows : rows = _ := Except.ok.inj heq
    rw [hrows]
    exact List.perm_insertionSort _ _
  · cases heq
  · cases heq

/-- The rows of a poll are stored. -/
theorem exec_findBroadcasted {choice : Choice} {w w' : World} {rows : List SigningRequest}
    (hexec : exec (.sql .requestFindBroadcasted) choice w = some (.ok rows, w')) :
    w' = w ∧ ∀ row ∈ rows, row ∈ w.tables.requests := by
  obtain ⟨hw, hperm⟩ := exec_findBroadcasted_perm hexec
  refine ⟨hw, fun row hrow => ?_⟩
  exact (List.mem_filter.mp (hperm.mem_iff.mp hrow)).1

/-- The rows of a poll have different ids. -/
theorem UniqueIds.poll {t : Tables} (h : UniqueIds t) {rows : List SigningRequest}
    (hperm : rows.Perm (t.requests.filter fun row => row.status = .broadcasted)) :
    (rows.map SigningRequest.id).Nodup := by
  have hsub : (t.requests.filter fun row => row.status = .broadcasted).Sublist t.requests :=
    List.filter_sublist
  exact (hperm.map SigningRequest.id).nodup_iff.mpr (List.Nodup.sublist (hsub.map _) h)

end BrokeTurnkey
