import WeftId.Scim.Outbound

/-!
From events to pushes.  Every service logs what it has done; the types of some events carry a trigger, which
looks up in the tables as they are by then whom to push to which application.
-/

namespace WeftId

namespace Scim

inductive EventType
  | userCreated
  | userCreatedJit
  | scimUserReceived
  | scimUserUpdated
  | scimUserDeactivated
  | scimUserReactivated
  | userUpdated
  | userProfileUpdated
  | userAttributesSynced
  | userInactivated
  | userReactivated
  | userAutoInactivated
  | userReactivatedCli
  | superAdminSelfReactivated
  | userAnonymized
  | userDeleted
  | primaryEmailChanged
  | emailAdded
  | emailDeleted
  | emailVerified
  | groupCreated
  | groupUpdated
  | groupDeleted
  | scimGroupReceived
  | scimGroupUpdated
  | scimGroupDeleted
  | groupMemberAdded
  | groupMemberRemoved
  | groupMembersBulkAdded
  | groupMembersBulkRemoved
  | idpGroupMemberAdded
  | idpGroupMemberRemoved
  | spGroupAssigned
  | spGroupUnassigned
  | spGroupsBulkAssigned
  | spAccessModeUpdated
  | serviceProviderUpdated
  | userGroupsBulkAdded
  | domainGroupAutoAssigned
  | groupRelationshipCreated
  | groupRelationshipDeleted
  | idpGroupInvalidated
  | samlIdpDeleted
  | oidcIdpConnectionDeleted

inductive Trigger
  | enqueueUserSelf
  | enqueueGroupSelf
  | enqueueMembershipChange
  | enqueueGrantFanOut
  | enqueueSpTenantFanOut

def eventTypeScimTriggers : EventType → Option Trigger
  | .userCreated | .userCreatedJit | .scimUserReceived | .scimUserUpdated | .scimUserDeactivated
  | .scimUserReactivated | .userUpdated | .userProfileUpdated | .userAttributesSynced | .userInactivated
  | .userReactivated | .userAutoInactivated | .userReactivatedCli | .superAdminSelfReactivated | .userAnonymized
  | .userDeleted | .primaryEmailChanged | .emailAdded | .emailDeleted | .emailVerified => some .enqueueUserSelf
  | .groupCreated | .groupUpdated | .groupDeleted | .scimGroupReceived | .scimGroupUpdated
  | .scimGroupDeleted => some .enqueueGroupSelf
  | .groupMemberAdded | .groupMemberRemoved | .groupMembersBulkAdded | .groupMembersBulkRemoved
  | .idpGroupMemberAdded | .idpGroupMemberRemoved => some .enqueueMembershipChange
  | .spGroupAssigned | .spGroupUnassigned | .spGroupsBulkAssigned => some .enqueueGrantFanOut
  | .spAccessModeUpdated => some .enqueueSpTenantFanOut
  | .serviceProviderUpdated | .userGroupsBulkAdded | .domainGroupAutoAssigned | .groupRelationshipCreated
  | .groupRelationshipDeleted | .idpGroupInvalidated | .samlIdpDeleted | .oidcIdpConnectionDeleted => none

structure EventMetadata where
  userId : Option Id := none
  userIds : List Id := []
  groupId : Option Id := none
  groupIds : List Id := []
  availableToAll : Option Bool := none
  previousAvailableToAll : Option Bool := none
  scimPreResolvedSps : Option (List Id) := none

structure Event where
  eventType : EventType
  artifactId : Id
  metadata : EventMetadata := {}

def resolveIds (single : Option Id) (multi : List Id) : List Id := if multi ≠ [] then multi else single.toList

theorem mem_resolveIds {multi : List Id} {id : Id} (h : id ∈ multi) : id ∈ resolveIds none multi := by
  rwa [resolveIds, if_pos (List.ne_nil_of_mem h)]

end Scim

namespace Db

def scimSpsGrantingViaGroup (db : Db) (groupId : Id) : List ServiceProvider :=
  db.serviceProviders.filter fun sp => sp.scimEnabled ∧ db.spGroupAssignments.any fun a => a.spId = sp.id ∧
    db.lineage.any fun row => row.ancestor = a.groupId ∧ row.descendant = groupId

def transitiveUserIdsForGroup (db : Db) (groupId : Id) : List Id :=
  ((db.memberships.filter fun m => db.lineage.any fun row =>
    row.descendant = m.groupId ∧ row.ancestor = groupId).map (·.userId)).dedup

def tenantUserIds (db : Db) : List Id := (db.users.map (·.id)).filter (· ∉ db.serviceUsers)

def isScimEnabledSp (db : Db) (spId : Id) : Bool := db.serviceProviders.any fun sp => sp.id = spId ∧ sp.scimEnabled

def enqueueUser (db : Db) (spId userId : Id) : Db := db.upsertEntry ⟨spId, .user, userId⟩

def enqueueGroup (db : Db) (spId groupId : Id) : Db := db.upsertEntry ⟨spId, .group, groupId⟩

end Db

namespace Scim

def enqueueUserSelf (db : Db) (userId : Id) (metadata : EventMetadata) : Db :=
  let spIds := metadata.scimPreResolvedSps.getD ((db.scimSpsGrantingUser userId).map (·.id))
  spIds.foldl (fun db spId => db.enqueueUser spId userId) db

def enqueueGroupSelf (db : Db) (groupId : Id) : Db :=
  (db.scimSpsGrantingViaGroup groupId).foldl (fun db sp => db.enqueueGroup sp.id groupId) db

def enqueueMembershipChange (db : Db) (groupId : Id) (metadata : EventMetadata) : Db :=
  let userIds := resolveIds metadata.userId metadata.userIds
  if userIds = [] then db
  else (db.scimSpsGrantingViaGroup groupId).foldl (fun db sp =>
    let db := userIds.foldl (fun db userId => db.enqueueUser sp.id userId) db
    if sp.scimMembershipMode = .direct then db.enqueueGroup sp.id groupId else db) db

def enqueueGrantFanOut (db : Db) (spId : Id) (metadata : EventMetadata) : Db :=
  let groupIds := resolveIds metadata.groupId metadata.groupIds
  if ¬ db.isScimEnabledSp spId then db
  else groupIds.foldl (fun db groupId =>
    ((db.transitiveUserIdsForGroup groupId).foldl (fun db userId => db.enqueueUser spId userId) db).enqueueGroup
      spId groupId) db

def enqueueSpTenantFanOut (db : Db) (spId : Id) (metadata : EventMetadata) : Db :=
  match metadata.availableToAll with
  | none => db
  | some newValue =>
    if metadata.previousAvailableToAll = some newValue then db
    else if ¬ db.isScimEnabledSp spId then db
    else db.tenantUserIds.foldl (fun db userId => db.enqueueUser spId userId) db

def scimDispatch (db : Db) (event : Event) : Db :=
  match eventTypeScimTriggers event.eventType with
  | none => db
  | some .enqueueUserSelf => enqueueUserSelf db event.artifactId event.metadata
  | some .enqueueGroupSelf => enqueueGroupSelf db event.artifactId
  | some .enqueueMembershipChange => enqueueMembershipChange db event.artifactId event.metadata
  | some .enqueueGrantFanOut => enqueueGrantFanOut db event.artifactId event.metadata
  | some .enqueueSpTenantFanOut => enqueueSpTenantFanOut db event.artifactId event.metadata

/-- The part of `log_event` that writes to the modelled tables. -/
def logEvent (event : Event) : Service Unit := Proc.write (scimDispatch · event)

section Queue

variable {db db₁ db₂ : Db} {added added₁ added₂ : PushKey → Prop} {metadata : EventMetadata}

/-- Only the queue has changed, and holds `added` besides what it has held. -/
structure Enqueues (added : PushKey → Prop) (db db' : Db) : Prop where
  frame : db' = { db with nextId := db'.nextId, scimPushQueue := db'.scimPushQueue }
  queued : ∀ key, db'.Queued key ↔ db.Queued key ∨ added key

theorem Enqueues.refl (db : Db) : Enqueues (fun _ => False) db db := ⟨rfl, fun key => by simp⟩

theorem Enqueues.trans (h : Enqueues added₁ db db₁) (h' : Enqueues added₂ db₁ db₂) :
    Enqueues (fun key => added₁ key ∨ added₂ key) db db₂ := by
  refine ⟨?_, fun key => ?_⟩
  · rw [h'.frame, h.frame]
  · rw [h'.queued, h.queued, or_assoc]

theorem enqueues_upsertEntry (db : Db) (key : PushKey) : Enqueues (· = key) db (db.upsertEntry key) := by
  unfold Db.upsertEntry
  split_ifs with hqueued
  · refine ⟨rfl, fun k => ?_⟩
    have hkey : ∀ e : PushEntry, (if e.key = key then { e with
        enqueuedAt := db.now
        attempts := 0
        nextAttemptAt := none
        lastError := none } else e).key = e.key := by
      intro e
      split_ifs <;> rfl
    have hmap : Db.Queued { db with scimPushQueue := db.scimPushQueue.map fun e => if e.key = key then { e with
        enqueuedAt := db.now
        attempts := 0
        nextAttemptAt := none
        lastError := none } else e } k ↔ db.Queued k := by
      simp only [Db.Queued, List.mem_map, exists_exists_and_eq_and, hkey]
    have hold : k = key → db.Queued k := by
      rintro rfl
      simpa [Db.Queued] using hqueued
    rw [hmap]
    exact ⟨.inl, fun h => h.elim id hold⟩
  · refine ⟨rfl, fun k => ?_⟩
    simp [Db.Queued, eq_comm]

theorem enqueues_foldl {β : Type} {f : Db → β → Db} {xs : List β} {step : β → PushKey → Prop}
    (hf : ∀ x ∈ xs, ∀ db₁, db₁ = { db with nextId := db₁.nextId, scimPushQueue := db₁.scimPushQueue } →
      Enqueues (step x) db₁ (f db₁ x)) :
    Enqueues (fun key => ∃ x ∈ xs, step x key) db (xs.foldl f db) := by
  -- the induction is on the list, from any state that the earlier steps may have left
  have hloop : ∀ db₁, db₁ = { db with nextId := db₁.nextId, scimPushQueue := db₁.scimPushQueue } →
      Enqueues (fun key => ∃ x ∈ xs, step x key) db₁ (xs.foldl f db₁) := by
    induction xs with
    | nil =>
      intro db₁ _
      simpa using Enqueues.refl db₁
    | cons x xs ih =>
      intro db₁ hframe
      have hstep := hf x List.mem_cons_self db₁ hframe
      have hrest := ih (fun y hy => hf y (List.mem_cons_of_mem x hy)) (f db₁ x) (by rw [hstep.frame, hframe])
      have hboth := hstep.trans hrest
      simpa only [List.mem_cons, exists_eq_or_imp, List.foldl_cons] using hboth
  exact hloop db rfl

theorem enqueues_users (db : Db) (spId : Id) (userIds : List Id) :
    Enqueues (fun key => ∃ userId ∈ userIds, key = ⟨spId, .user, userId⟩) db
      (userIds.foldl (fun db userId => db.enqueueUser spId userId) db) :=
  enqueues_foldl fun _ _ db₁ _ => enqueues_upsertEntry db₁ _

theorem enqueues_enqueueMembershipChange {groupId : Id} :
    Enqueues (fun key => resolveIds metadata.userId metadata.userIds ≠ [] ∧ ∃ sp ∈ db.scimSpsGrantingViaGroup groupId,
        (∃ userId ∈ resolveIds metadata.userId metadata.userIds, key = ⟨sp.id, .user, userId⟩) ∨
          sp.scimMembershipMode = .direct ∧ key = ⟨sp.id, .group, groupId⟩) db
      (enqueueMembershipChange db groupId metadata) := by
  unfold enqueueMembershipChange
  by_cases hnone : resolveIds metadata.userId metadata.userIds = []
  · simpa only [hnone, ne_eq, not_true, false_and, if_true] using Enqueues.refl db
  · simp only [hnone, ne_eq, not_false_eq_true, true_and]
    refine enqueues_foldl fun sp _ db₁ _ => ?_
    have husers := enqueues_users db₁ sp.id (resolveIds metadata.userId metadata.userIds)
    by_cases hdirect : sp.scimMembershipMode = .direct
    · simp only [hdirect, true_and]
      exact husers.trans (enqueues_upsertEntry _ _)
    · simpa only [hdirect, if_false, false_and, or_false] using husers

theorem enqueues_enqueueGrantFanOut {spId : Id} :
    Enqueues (fun key => db.isScimEnabledSp spId ∧ ∃ groupId ∈ resolveIds metadata.groupId metadata.groupIds,
      (∃ userId ∈ db.transitiveUserIdsForGroup groupId, key = ⟨spId, .user, userId⟩) ∨ key = ⟨spId, .group, groupId⟩)
      db (enqueueGrantFanOut db spId metadata) := by
  unfold enqueueGrantFanOut
  by_cases henabled : db.isScimEnabledSp spId
  · simp only [henabled, true_and]
    refine enqueues_foldl fun groupId _ db₁ hframe => ?_
    have hmembers : db₁.transitiveUserIdsForGroup groupId = db.transitiveUserIdsForGroup groupId := by
      rw [hframe]
      rfl
    rw [hmembers]
    exact (enqueues_users db₁ spId _).trans (enqueues_upsertEntry _ _)
  · simpa only [henabled, Bool.false_eq_true, not_false_eq_true, if_true, false_and] using Enqueues.refl db

theorem enqueues_enqueueSpTenantFanOut {spId : Id} :
    Enqueues (fun key => (metadata.availableToAll.isSome ∧ metadata.previousAvailableToAll ≠ metadata.availableToAll) ∧
      db.isScimEnabledSp spId ∧ ∃ userId ∈ db.tenantUserIds, key = ⟨spId, .user, userId⟩)
      db (enqueueSpTenantFanOut db spId metadata) := by
  unfold enqueueSpTenantFanOut
  cases hnew : metadata.availableToAll with
  | none => simpa using Enqueues.refl db
  | some newValue =>
    by_cases hsame : metadata.previousAvailableToAll = some newValue
    · simpa [hsame] using Enqueues.refl db
    by_cases henabled : db.isScimEnabledSp spId
    · simpa [hsame, henabled] using enqueues_users db spId db.tenantUserIds
    · simpa [henabled] using Enqueues.refl db

def pushes (db : Db) (event : Event) (key : PushKey) : Prop :=
  match eventTypeScimTriggers event.eventType with
  | none => False
  | some .enqueueUserSelf =>
    ∃ spId ∈ event.metadata.scimPreResolvedSps.getD ((db.scimSpsGrantingUser event.artifactId).map (·.id)),
      key = ⟨spId, .user, event.artifactId⟩
  | some .enqueueGroupSelf =>
    ∃ sp ∈ db.scimSpsGrantingViaGroup event.artifactId, key = ⟨sp.id, .group, event.artifactId⟩
  | some .enqueueMembershipChange =>
    resolveIds event.metadata.userId event.metadata.userIds ≠ [] ∧
      ∃ sp ∈ db.scimSpsGrantingViaGroup event.artifactId,
        (∃ userId ∈ resolveIds event.metadata.userId event.metadata.userIds, key = ⟨sp.id, .user, userId⟩) ∨
          sp.scimMembershipMode = .direct ∧ key = ⟨sp.id, .group, event.artifactId⟩
  | some .enqueueGrantFanOut =>
    db.isScimEnabledSp event.artifactId ∧ ∃ groupId ∈ resolveIds event.metadata.groupId event.metadata.groupIds,
      (∃ userId ∈ db.transitiveUserIdsForGroup groupId, key = ⟨event.artifactId, .user, userId⟩) ∨
        key = ⟨event.artifactId, .group, groupId⟩
  | some .enqueueSpTenantFanOut =>
    (event.metadata.availableToAll.isSome ∧ event.metadata.previousAvailableToAll ≠ event.metadata.availableToAll) ∧
      db.isScimEnabledSp event.artifactId ∧ ∃ userId ∈ db.tenantUserIds, key = ⟨event.artifactId, .user, userId⟩

theorem enqueues_scimDispatch (db : Db) (event : Event) : Enqueues (pushes db event) db (scimDispatch db event) := by
  unfold scimDispatch pushes
  cases eventTypeScimTriggers event.eventType with
  | none => exact .refl db
  | some trigger =>
    cases trigger with
    | enqueueUserSelf | enqueueGroupSelf => exact enqueues_foldl fun _ _ db₁ _ => enqueues_upsertEntry db₁ _
    | enqueueMembershipChange => exact enqueues_enqueueMembershipChange
    | enqueueGrantFanOut => exact enqueues_enqueueGrantFanOut
    | enqueueSpTenantFanOut => exact enqueues_enqueueSpTenantFanOut

theorem scimDispatch_of_none {event : Event} (h : eventTypeScimTriggers event.eventType = none) (db : Db) :
    scimDispatch db event = db := by
  rw [scimDispatch, h]

theorem enqueues_forEach_logEvent {β : Type} (db : Db) {event : β → Event} (xs : List β) :
    (Proc.forEach xs fun x => logEvent (event x)).Ensures db fun r db' =>
      r = .ok () ∧ Enqueues (fun key => ∃ x ∈ xs, pushes db (event x) key) db db' := by
  have hfold : (Proc.forEach xs fun x => logEvent (event x)) db =
      (.ok (), xs.foldl (fun db x => scimDispatch db (event x)) db) := by
    induction xs generalizing db with
    | nil => rfl
    | cons x xs ih => exact ih (scimDispatch db (event x))
  unfold Proc.Ensures
  rw [hfold]
  refine ⟨rfl, enqueues_foldl fun x _ db₁ hframe => ?_⟩
  have hpushes : pushes db₁ (event x) = pushes db (event x) := by
    rw [hframe]
    rfl
  rw [← hpushes]
  exact enqueues_scimDispatch db₁ (event x)

end Queue

end Scim

end WeftId
