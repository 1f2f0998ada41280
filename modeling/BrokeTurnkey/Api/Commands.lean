import BrokeTurnkey.Api.Repositories
import BrokeTurnkey.Commands
import BrokeTurnkey.Interaction.Embedding

/-!
# What the management API does to the outside

The API process runs the management services next to the signing services, so its
commands are theirs and a few more: the statements of the management repositories, a
random uuid, a hash sent to the signing sidecar, and the one update that is started
and not awaited.  A method of the signing services is a method of the API by renaming
its commands.
-/

namespace BrokeTurnkey

open Interaction

/-- A promise the guard starts and does not await. -/
inductive ApiJob where
  | touch (apiKeyId : Uuid) (lastUsedAt : Int)

inductive ApiCmd where
  | base (command : Cmd)
  | sql (statement : ApiSql)
  | randomUUID
  /-- `CryptoClientService.signHash`; `wallet` says on whose behalf -/
  | signHash (wallet : Uuid) (key : KeyMaterial) (hash : Text)
  | fork (job : ApiJob)

def ApiCmd.Reply : ApiCmd → Type
  | .base command => command.Reply
  | .sql statement => statement.Reply
  | .randomUUID => Uuid
  | .signHash _ _ _ => Text
  | .fork _ => Unit

/-- An asynchronous method of the API. -/
abbrev Api (α : Type) := Prog ApiCmd ApiCmd.Reply JsError α

/-- A method of the signing services. -/
def Js.api {α : Type} (p : Js α) : Api α := p.lift ApiCmd.base fun _ reply => reply

namespace Api

def sql (statement : ApiSql) : Api statement.Reply := Prog.perform (ApiCmd.sql statement)

/-- `new Date()`. -/
def now : Api Int := Prog.perform (ApiCmd.base .now)

def randomUUID : Api Uuid := Prog.perform ApiCmd.randomUUID

def signHash (wallet : Uuid) (key : KeyMaterial) (hash : Text) : Api Text :=
  Prog.perform (ApiCmd.signHash wallet key hash)

def fork (job : ApiJob) : Api Unit := Prog.perform (ApiCmd.fork job)

end Api

/-! ### The world -/

/-- The database, what providers hold, the clock, and the values `randomUUID` returned. -/
structure ApiWorld where
  tables : ApiTables
  live : List RawTx
  clock : Int
  drawn : List Uuid

namespace ApiWorld

/-- The world of the signing services. -/
def view (w : ApiWorld) : World := ⟨w.tables.view, w.live, w.clock⟩

/-- The world after the signing services changed theirs; `users` is not theirs to
    change. -/
def put (w : ApiWorld) (base : World) : ApiWorld :=
  { w with
    tables := { w.tables with base := { base.tables with users := w.tables.base.users } }
    live := base.live
    clock := base.clock }

@[simp] theorem put_view (w : ApiWorld) : w.put w.view = w := rfl

end ApiWorld

namespace ApiCmd

def exec : (command : ApiCmd) → Choice → ApiWorld →
    Option (Except JsError command.Reply × ApiWorld)
  | .base command, choice, w =>
    (BrokeTurnkey.exec command choice w.view).map fun answer => (answer.1, w.put answer.2)
  | .sql statement, .done id, w =>
    if statement.isFresh id w.drawn w.tables then
      some ((statement.exec id w.clock w.tables).1,
        { w with tables := (statement.exec id w.clock w.tables).2 })
    else none
  | .sql statement, .lost id error, w =>
    if statement.isFresh id w.drawn w.tables ∧ error.code ≠ some uniqueViolation then
      some (.error error, { w with tables := (statement.exec id w.clock w.tables).2 })
    else none
  | .sql _, .reject error, w =>
    if error.code ≠ some uniqueViolation then some (.error error, w) else none
  | .randomUUID, .done id, w =>
    if (w.tables.apiKeys.all fun row => row.id ≠ id) && !w.drawn.contains id then
      some (.ok id, { w with drawn := id :: w.drawn })
    else none
  | .signHash _ _ _, .signed signature _, w => some (.ok signature, w)
  | .signHash _ _ _, .reject error, w => some (.error error, w)
  | .fork _, .done _, w => some (.ok (), w)
  | _, _, _ => none

end ApiCmd

/-- What else happens: time passes and transactions leave the mempool. -/
inductive ApiEvent where
  | tick (duration : Nat)
  | evict (keep : RawTx → Bool)

def ApiWorld.event (w : ApiWorld) : ApiEvent → ApiWorld
  | .tick duration => { w with clock := w.clock + duration }
  | .evict keep => { w with live := w.live.filter keep }

/-! ### What an answered command did -/

/-- A statement runs and answers, runs and loses its answer, or leaves no trace. -/
theorem ApiCmd.exec_sql {statement : ApiSql} {choice : Choice} {w w' : ApiWorld}
    {reply : Except JsError statement.Reply}
    (h : ApiCmd.exec (.sql statement) choice w = some (reply, w')) :
    (∃ id, statement.isFresh id w.drawn w.tables = true ∧
      w' = { w with tables := (statement.exec id w.clock w.tables).2 } ∧
      ((choice = .done id ∧ reply = (statement.exec id w.clock w.tables).1) ∨
        ∃ error, choice = .lost id error ∧ error.code ≠ some uniqueViolation ∧
          reply = .error error)) ∨
    (∃ error, choice = .reject error ∧ error.code ≠ some uniqueViolation ∧
      reply = .error error ∧ w' = w) := by
  cases choice with
  | done id =>
    simp only [ApiCmd.exec] at h
    split at h
    · rename_i hfresh
      cases h
      exact .inl ⟨id, hfresh, rfl, .inl ⟨rfl, rfl⟩⟩
    · cases h
  | lost id error =>
    simp only [ApiCmd.exec] at h
    split at h
    · rename_i hcond
      cases h
      exact .inl ⟨id, hcond.1, rfl, .inr ⟨error, rfl, hcond.2, rfl⟩⟩
    · cases h
  | reject error =>
    simp only [ApiCmd.exec] at h
    split at h
    · rename_i hcode
      cases h
      exact .inr ⟨error, rfl, hcode, rfl, rfl⟩
    · cases h
  | fetched outcome accepted => cases h
  | created response => cases h
  | derived response => cases h
  | signed signature txHash => cases h

end BrokeTurnkey
