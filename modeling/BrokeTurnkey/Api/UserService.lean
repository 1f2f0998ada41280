import BrokeTurnkey.Api.AuthService

/-!
# Users

`libs/users/src/user.service.ts`.
-/

namespace BrokeTurnkey.UserService

open Interaction

def viewOf (user : UserRow) (orgId : Option Text) : UserView where
  id := user.id.toText
  orgId := orgId
  externalId := user.externalId
  email := user.email
  role := user.role
  status := user.status
  createdAt := user.createdAt

def createUser (orgId : Text) (data : CreateUserDto) : Api UserView := do
  match ← Api.sql (.userFindByOrgAndExternalId orgId data.externalId) with
  | some _ =>
    throw (.ofKind .badRequest ("User with external_id ".toList ++ data.externalId ++
      " already exists in this organization".toList))
  | none => do
    let user ← Api.sql (.userCreate
      { orgId, externalId := data.externalId, email := truthy data.email,
        role := (truthy data.role).getD "member".toList, status := .active })
    Api.sql (.auditCreate
      { orgId, userId := some user.id.toText,
        event := .userCreated user.id.toText user.externalId user.email user.role })
    return viewOf user none

def listUsers (orgId : Text) : Api (List UserView) := do
  let users ← Api.sql (.userFindByOrgId orgId)
  return users.map fun user => viewOf user none

/-- The named user exists and belongs to the org. -/
def ownUser (orgId userId : Text) : Api UserRow := do
  match ← Api.sql (.userFindById userId) with
  | none => throw (.ofKind .notFound ("User ".toList ++ userId ++ " not found".toList))
  | some user =>
    if user.orgId.toText ≠ orgId then throw (badRequest "User does not belong to this organization")
    else return user

def getUser (orgId userId : Text) : Api UserView := do
  let user ← ownUser orgId userId
  return viewOf user (some user.orgId.toText)

def deleteUser (orgId userId : Text) : Api Unit := do
  let user ← ownUser orgId userId
  Api.sql (.userUpdate userId .deleted)
  Api.sql (.auditCreate
    { orgId, userId := some userId, event := .userDeleted userId user.externalId })

end BrokeTurnkey.UserService
