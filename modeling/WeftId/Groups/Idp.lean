import WeftId.Groups.Hierarchy
import WeftId.Lib.Check

/-!
Groups owned by an upstream provider: the base group of a provider, the groups discovered in its
assertions, and the memberships that sign-ins and assignments maintain.  Audit events are not
modelled, so arguments that only feed them are left out.
-/

namespace WeftId

open Proc

namespace Db

def getUserById (db : Db) (userId : Id) : Option User := db.users.find? (·.id = userId)

def isGroupMember (db : Db) (groupId userId : Id) : Bool := ⟨groupId, userId⟩ ∈ db.memberships

def getUserIdpGroupIds (db : Db) (userId idpId : Id) (source : Source) : List Id :=
  (db.memberships.filter fun m => m.userId = userId ∧
    db.groups.any fun g => g.id = m.groupId ∧ g.sourceId source = some idpId ∧ g.isValid).map (·.groupId)

def insertMembership (db : Db) (groupId userId : Id) : Except DbError (Nat × Db) :=
  if db.isGroupMember groupId userId then .ok (0, db)
  else if db.getGroupById groupId = none then .error (.foreignKeyViolation "fk_group_memberships_group")
  else if db.getUserById userId = none then .error (.foreignKeyViolation "fk_group_memberships_user")
  else .ok (1, { db with memberships := db.memberships ++ [⟨groupId, userId⟩] })

/-- Rows that are there already are skipped; the number of new rows is returned. -/
def insertMemberships (db : Db) : List Membership → Except DbError (Nat × Db)
  | [] => .ok (0, db)
  | row :: rest => do
    let (added, db) ← db.insertMembership row.groupId row.userId
    let (total, db) ← db.insertMemberships rest
    return (added + total, db)

def bulkAddUserToGroups (db : Db) (userId : Id) (groupIds : List Id) : Except DbError (Nat × Db) :=
  db.insertMemberships (groupIds.map (⟨·, userId⟩))

variable {db db' : Db} {g u : Id} {n : Nat}

theorem insertMembership_eq_ok (h : db.insertMembership g u = .ok (n, db')) :
    db' = { db with memberships := db'.memberships } ∧
      ∀ m, m ∈ db'.memberships ↔ m ∈ db.memberships ∨ m = ⟨g, u⟩ := by
  unfold insertMembership at h
  split_ifs at h with hmem hgroup huser
  · obtain rfl := Except.ok_snd h
    have hin : ⟨g, u⟩ ∈ db.memberships := by simpa [isGroupMember] using hmem
    refine ⟨rfl, fun m => ⟨.inl, ?_⟩⟩
    rintro (hm | rfl)
    · exact hm
    · exact hin
  · obtain rfl := Except.ok_snd h
    exact ⟨rfl, fun m => by simp⟩

theorem insertMembership_eq_zero (h : db.insertMembership g u = .ok (0, db')) : db' = db := by
  unfold insertMembership at h
  split_ifs at h
  · exact (Except.ok_snd h).symm
  · cases (Prod.mk.inj (Except.ok.inj h)).1

theorem insertMemberships_eq_ok {rows : List Membership}
    (h : db.insertMemberships rows = .ok (n, db')) : db' = { db with memberships := db'.memberships } ∧
      (n = 0 → db' = db) ∧ ∀ m, m ∈ db'.memberships ↔ m ∈ db.memberships ∨ m ∈ rows := by
  induction rows generalizing db n with
  | nil =>
    obtain rfl := Except.ok_snd h
    exact ⟨rfl, fun _ => rfl, fun m => by simp⟩
  | cons row rows ih =>
    obtain ⟨⟨added, db₁⟩, hins, h⟩ := Check.bind_eq_ok.mp h
    obtain ⟨⟨total, db₂⟩, hrest, h⟩ := Check.bind_eq_ok.mp h
    obtain ⟨rfl, rfl⟩ := Prod.mk.inj (Except.ok.inj h)
    obtain ⟨hframe, hadd⟩ := insertMembership_eq_ok hins
    obtain ⟨hframe', hzero, hadd'⟩ := ih hrest
    refine ⟨by rw [hframe', hframe], fun hsum => ?_, fun m => ?_⟩
    · have hadded : added = 0 := by omega
      subst hadded
      rw [hzero (by omega), insertMembership_eq_zero hins]
    · rw [hadd', hadd, List.mem_cons, or_assoc]

theorem bulkAddUserToGroups_eq_ok {gs : List Id}
    (h : db.bulkAddUserToGroups u gs = .ok (n, db')) : db' = { db with memberships := db'.memberships } ∧
      ∀ m, m ∈ db'.memberships ↔ m ∈ db.memberships ∨ (m.userId = u ∧ m.groupId ∈ gs) := by
  obtain ⟨hframe, -, hadd⟩ := insertMemberships_eq_ok h
  refine ⟨hframe, fun ⟨g, v⟩ => ?_⟩
  simp [hadd, and_comm, eq_comm]

def bulkRemoveUserFromGroups (db : Db) (userId : Id) (groupIds : List Id) : Db :=
  { db with memberships := db.memberships.filter fun m => ¬ (m.userId = userId ∧ m.groupId ∈ groupIds) }

end Db

def ensureUmbrellaRelationship (idpId assertionGroupId : Id) (source : Source) : Service Unit := do
  let base ← read (·.getIdpBaseGroupId idpId source)
  match base with
  | none => pure ()
  | some baseGroupId => do
    let linked ← read (·.relationshipExists baseGroupId assertionGroupId)
    whenever (¬ linked) do
      let _ ← tx (·.addGroupRelationship baseGroupId assertionGroupId)

def getOrCreateIdpGroup (idpId : Id) (groupName : Text) (source : Source) : Service (Id × Bool) := do
  let existing ← read (·.getGroupByIdpAndName idpId groupName source)
  match existing with
  | some group => do
    ensureUmbrellaRelationship idpId group.id source
    pure (group.id, false)
  | none => do
    let groupId ← tx (·.createIdpGroup idpId groupName source)
    ensureUmbrellaRelationship idpId groupId source
    pure (groupId, true)

def groupNames (db : Db) (groupIds : List Id) : List Text :=
  groupIds.map fun groupId => ((db.getGroupById groupId).map (·.name)).getD "Unknown"

def applyMembershipAdditions (userId : Id) (groupIds : List Id) : Service (List Text) := do
  let _ ← tx (·.bulkAddUserToGroups userId groupIds)
  read (groupNames · groupIds)

def applyMembershipRemovals (userId : Id) (groupIds : List Id) : Service (List Text) := do
  let names ← read (groupNames · groupIds)
  write (·.bulkRemoveUserFromGroups userId groupIds)
  pure names

def resolveGroupNames (idpId : Id) (source : Source) : List Text → Service (List (Id × Text × Bool))
  | [] => pure []
  | groupName :: rest => do
    let (groupId, created) ← getOrCreateIdpGroup idpId groupName source
    let others ← resolveGroupNames idpId source rest
    pure ((groupId, groupName, created) :: others)

structure SyncResult where
  added : List Text
  removed : List Text
  created : List Text

/-- The full sync of a sign-in: claimed groups are joined, other groups of the provider are left,
except its base group. -/
def syncUserIdpGroups (userId idpId : Id) (groupNames : List Text) (source : Source) : Service SyncResult := do
  let current ← read (·.getUserIdpGroupIds userId idpId source)
  let resolved ← resolveGroupNames idpId source groupNames
  let target := (resolved.map (·.1)).dedup
  let base ← read (·.getIdpBaseGroupId idpId source)
  let current := current.filter (some · ≠ base)
  let added ← applyMembershipAdditions userId (target.filter (· ∉ current))
  let removed ← applyMembershipRemovals userId (current.filter (· ∉ target))
  pure { added, removed, created := (resolved.filter (·.2.2)).map (·.2.1) }

def invalidateIdpGroups (idpId : Id) (source : Source) : Service Nat := do
  let groups ← read (·.getGroupsByIdp idpId source)
  if groups = [] then pure 0
  else do
    let count ← read fun db => (db.deleteGroupsByIdp idpId source).1
    write fun db => (db.deleteGroupsByIdp idpId source).2
    pure count

def getOrCreateBaseGroupId (idpId : Id) (idpName : Text) (source : Source) : Service Id := do
  let base ← read (·.getIdpBaseGroupId idpId source)
  match base with
  | some baseGroupId => pure baseGroupId
  | none => rescue (createIdpBaseGroup idpId idpName source) fun
    | .conflict _ _ => orRaise (·.getIdpBaseGroupId idpId source)
        (.validation ("Failed to create or find base group for IdP " ++ String.ofList idpName)
          "base_group_creation_failed")
    | e => raise e

def ensureUserInBaseGroup (userId idpId : Id) (idpName : Text) (source : Source) : Service Unit := do
  let baseGroupId ← getOrCreateBaseGroupId idpId idpName source
  let isMember ← read (·.isGroupMember baseGroupId userId)
  whenever (¬ isMember) do
    let _ ← tx (·.bulkAddUserToGroups userId [baseGroupId])

def removeUserFromAllIdpGroups (userId idpId : Id) : Service Unit := do
  let groupIds ← read (·.getUserIdpGroupIds userId idpId .saml)
  write (·.bulkRemoveUserFromGroups userId groupIds)

end WeftId
