import WeftId.Groups.Idp
import WeftId.Groups.Lineage

/-!
What the group calls of one user can change: the group tables, and in the memberships only the rows of that
user.  Lineage rows are added and never taken away.
-/

namespace WeftId

open Proc ClosureTable

def Db.outsideGroups (db : Db) : Db :=
  { db with nextId := 0, groups := [], relationships := [], lineage := [], memberships := [] }

structure Regroups (userId : Id) (db db' : Db) : Prop where
  outside : db'.outsideGroups = db.outsideGroups
  nextId_le : db.nextId ≤ db'.nextId
  memberships : ∀ m ∈ db.memberships, m.userId ≠ userId → m ∈ db'.memberships
  lineage : ∀ a d, (depthOf db.lineage a d).isSome → (depthOf db'.lineage a d).isSome

instance (userId : Id) : Std.Refl (Regroups userId) :=
  ⟨fun _ => ⟨rfl, Nat.le_refl _, fun _ h _ => h, fun _ _ h => h⟩⟩

instance (userId : Id) : IsTrans Db (Regroups userId) :=
  ⟨fun _ _ _ h h' => ⟨h'.outside.trans h.outside, Nat.le_trans h.nextId_le h'.nextId_le,
    fun m hm hne => h'.memberships m (h.memberships m hm hne) hne, fun a d had => h'.lineage a d (h.lineage a d had)⟩⟩

variable {userId idpId : Id} {source : Source} {names : List Text}

theorem regroups_of_memberships {db : Db} {memberships : List Membership}
    (h : ∀ m ∈ db.memberships, m.userId ≠ userId → m ∈ memberships) : Regroups userId db { db with memberships } :=
  ⟨rfl, Nat.le_refl _, h, fun _ _ had => had⟩

theorem within_insertGroup (group : Id → Group) : (tx (·.insertGroup group)).Within (Regroups userId) := by
  apply within_tx
  intro db id db' hok
  obtain ⟨-, -, rfl⟩ := Db.insertGroup_eq_ok hok
  refine ⟨rfl, Nat.le_succ _, fun m hm _ => hm, fun a d had => ?_⟩
  rw [depthOf_append, Option.isSome_or, had, Bool.true_or]

theorem within_createIdpGroup {name : Text} : (tx (·.createIdpGroup idpId name source)).Within (Regroups userId) := by
  cases source with
  | saml => exact within_insertGroup fun id => { id, name, groupType := .idp, idpId := some idpId }
  | oidc => exact within_insertGroup fun id => { id, name, groupType := .idp, oidcConnectionId := some idpId }

theorem within_addGroupRelationship {parent child : Id} :
    (tx (·.addGroupRelationship parent child)).Within (Regroups userId) := by
  apply within_tx
  intro db added db' hok
  unfold Db.addGroupRelationship at hok
  split_ifs at hok with hself hlinked hparent hchild
  · obtain rfl := Except.ok_snd hok
    exact refl_of (Regroups userId) db
  · dsimp only at hok
    split_ifs at hok
    obtain rfl := Except.ok_snd hok
    refine ⟨rfl, Nat.le_refl _, fun m hm _ => hm, fun a d had => ?_⟩
    rw [depthOf_upsertLeast]
    cases hdepth : depthOf db.lineage a d with
    | none => simp [hdepth] at had
    | some n => cases depthOf (Db.crossLineage db.lineage parent child) a d <;> simp

theorem within_ensureUmbrellaRelationship {groupId : Id} :
    (ensureUmbrellaRelationship idpId groupId source).Within (Regroups userId) := by
  refine .read fun base => ?_
  cases base with
  | none => exact within_pure ()
  | some =>
    refine .read fun linked => ?_
    exact within_whenever fun _ => within_bind within_addGroupRelationship fun _ => within_pure ()

theorem within_getOrCreateIdpGroup {name : Text} :
    (getOrCreateIdpGroup idpId name source).Within (Regroups userId) := by
  refine .read fun existing => ?_
  cases existing with
  | some group => exact within_bind within_ensureUmbrellaRelationship fun _ => within_pure _
  | none =>
    refine within_bind within_createIdpGroup fun groupId => ?_
    exact within_bind within_ensureUmbrellaRelationship fun _ => within_pure _

theorem within_bulkAddUserToGroups (groupIds : List Id) :
    (tx (·.bulkAddUserToGroups userId groupIds)).Within (Regroups userId) := by
  apply within_tx
  intro db n db' hok
  obtain ⟨hframe, hadd⟩ := Db.bulkAddUserToGroups_eq_ok hok
  rw [hframe]
  exact regroups_of_memberships fun m hm _ => (hadd m).mpr (.inl hm)

theorem regroups_bulkRemove (db : Db) (groupIds : List Id) :
    Regroups userId db (db.bulkRemoveUserFromGroups userId groupIds) := by
  apply regroups_of_memberships
  intro m hm hne
  simp [hm, hne]

theorem within_getOrCreateBaseGroupId {idpName : Text} :
    (getOrCreateBaseGroupId idpId idpName source).Within (Regroups userId) := by
  refine .read fun base => ?_
  cases base with
  | some => exact within_pure _
  | none =>
    refine within_rescue ?_ fun e => ?_
    · refine .read fun existing => ?_
      exact .require fun _ => within_createIdpGroup
    · cases e with
      | conflict => exact within_orRaise
      | _ => exact within_raise

theorem within_ensureUserInBaseGroup {idpName : Text} :
    (ensureUserInBaseGroup userId idpId idpName source).Within (Regroups userId) := by
  refine within_bind within_getOrCreateBaseGroupId fun baseGroupId => ?_
  refine .read fun isMember => ?_
  exact within_whenever fun _ => within_bind (within_bulkAddUserToGroups _) fun _ => within_pure ()

theorem within_resolveGroupNames : (resolveGroupNames idpId source names).Within (Regroups userId) := by
  induction names with
  | nil => exact within_pure _
  | cons name names ih =>
    exact within_bind within_getOrCreateIdpGroup fun _ => within_bind ih fun _ => within_pure _

theorem within_syncUserIdpGroups : (syncUserIdpGroups userId idpId names source).Within (Regroups userId) := by
  refine .read fun current => within_bind within_resolveGroupNames fun resolved => ?_
  refine .read fun base => within_bind ?_ fun added => within_bind ?_ fun removed => within_pure _
  · exact within_bind (within_bulkAddUserToGroups _) fun _ => within_read
  · exact .read fun names => within_bind (within_write fun db => regroups_bulkRemove db _)
      fun _ => within_pure _

theorem within_removeUserFromAllIdpGroups : (removeUserFromAllIdpGroups userId idpId).Within (Regroups userId) := by
  refine .read fun groupIds => ?_
  exact within_write fun db => regroups_bulkRemove db groupIds

end WeftId
