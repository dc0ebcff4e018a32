import WeftId.Users.Accounts

/-!
Outbound provisioning: which users an application is granted, what a push of a resource sends, and the queue
of pushes, with one row for each resource of an application.
-/

namespace WeftId

namespace Db

def hasMember (db : Db) (groupId userId : Id) : Bool :=
  db.memberships.any fun m => m.groupId = groupId ∧ m.userId = userId

/-- The application is assigned to a group that the user belongs to, directly or through descendants. -/
def grantedByGroup (db : Db) (spId userId : Id) : Bool :=
  db.spGroupAssignments.any fun a => a.spId = spId ∧
    db.lineage.any fun row => row.ancestor = a.groupId ∧ db.hasMember row.descendant userId

def scimSpsGrantingUser (db : Db) (userId : Id) : List ServiceProvider :=
  db.serviceProviders.filter fun sp => sp.scimEnabled ∧ (sp.availableToAll ∨ db.grantedByGroup sp.id userId)

def getScimTarget (db : Db) (spId : Id) : Option ServiceProvider := db.serviceProviders.find? (·.id = spId)

def effectiveMembers (db : Db) (groupId : Id) (direct : Bool) : List Id :=
  (db.users.map (·.id)).filter fun userId => db.lineage.any fun row =>
    row.ancestor = groupId ∧ (direct → row.depth = 0) ∧ db.hasMember row.descendant userId

def upsertEntry (db : Db) (key : PushKey) : Db :=
  if db.scimPushQueue.any (·.key = key) then
    { db with scimPushQueue := db.scimPushQueue.map fun e =>
        if e.key = key then { e with enqueuedAt := db.now, attempts := 0, nextAttemptAt := none, lastError := none }
        else e }
  else { db with
    nextId := db.nextId + 1
    scimPushQueue := db.scimPushQueue ++ [{ id := db.nextId, key, enqueuedAt := db.now }] }

def listReadyEntries (db : Db) (limit : Nat) : List PushEntry :=
  ((db.scimPushQueue.filter fun e => e.deadLetterAt = none ∧ (e.nextAttemptAt.all (· ≤ db.now))).insertionSort
    fun a b => a.enqueuedAt ≤ b.enqueuedAt).take limit

def updateEntry (db : Db) (entryId : Id) (f : PushEntry → PushEntry) : Db :=
  { db with scimPushQueue := db.scimPushQueue.map fun e => if e.id = entryId then f e else e }

def markAttemptFailed (db : Db) (entryId : Id) (error : Text) (nextAttemptAt : Nat) : Db :=
  db.updateEntry entryId fun e =>
    { e with attempts := e.attempts + 1, nextAttemptAt := some nextAttemptAt, lastError := some error }

def markDeadLetter (db : Db) (entryId : Id) (error : Text) : Db :=
  db.updateEntry entryId fun e => { e with deadLetterAt := some db.now, lastError := some error }

def deleteEntry (db : Db) (entryId : Id) : Db :=
  { db with scimPushQueue := db.scimPushQueue.filter (·.id ≠ entryId) }

def Queued (db : Db) (key : PushKey) : Prop := ∃ e ∈ db.scimPushQueue, e.key = key
  deriving Decidable

end Db

namespace Scim

inductive Resource
  | user (userName firstName lastName : Text) (active : Bool)
  | group (displayName : Text) (members : List Id)
  deriving DecidableEq

def userInScopeForSp (db : Db) (userId spId : Id) : Bool := (db.scimSpsGrantingUser userId).any (·.id = spId)

/-- The state of a resource in the directory; `none` is pushed as a deletion. -/
def currentResource (db : Db) (key : PushKey) : Option Resource :=
  match key.resourceType with
  | .user => do
    let user ← db.getUserById key.resourceId
    let email ← db.getPrimaryEmail key.resourceId
    if userInScopeForSp db key.resourceId key.spId then
      some (.user email user.firstName user.lastName (¬ user.isInactivated))
    else none
  | .group => do
    let group ← db.getGroupById key.resourceId
    let mode := ((db.getScimTarget key.spId).map (·.scimMembershipMode)).getD .effective
    some (.group group.name (db.effectiveMembers key.resourceId (mode = .direct)))

end Scim

end WeftId
