import WeftId.Groups.Cascade
import WeftId.Scim.Coverage

/-!
Changes of scope that nobody is told of.  A link of the hierarchy, the deletion of groups and automatic
assignments change whom an application is granted to, and their events carry no trigger that looks for the
users; what they miss is known from the tables before the call.
-/

namespace WeftId

open List Proc Scim ClosureTable Relation

def ScopeCall.Misses (env : Env) (db : Db) (spId userId : Id) : ScopeCall → Prop
  | .bulkAddUserToGroups _ target groupIds => db.Gated spId ∧ ¬ db.Routes spId userId ∧ userId = target ∧
      ∃ g, (g ∈ groupIds ∧ (db.getGroupById g).any (·.groupType ≠ .idp)) ∧ db.Reaches spId g
  | .autoAssign target email => db.Gated spId ∧ ¬ db.Routes spId userId ∧ userId = target ∧
      ∃ g, (email.contains '@' ∧ g ∈ db.getGroupIdsForDomain env (env.lower (Text.afterFirst '@' email))) ∧
        db.Reaches spId g
  | .updateServiceProvider _ target data => spId = target ∧ userId ∈ db.serviceUsers ∧ ¬ db.Routes spId userId ∧
      ∃ sp, db.getServiceProvider spId = some sp ∧ sp.scimEnabled ∧ data.availableToAll = some (!sp.availableToAll)
  | .addChild _ parentGroupId childGroupId => db.Gated spId ∧ ¬ db.Routes spId userId ∧ db.Reaches spId parentGroupId ∧
      ∃ d, db.Linked childGroupId d ∧ (⟨d, userId⟩ : Membership) ∈ db.memberships
  | .removeChild _ parentGroupId childGroupId => db.Gated spId ∧ ¬ (db.Routes spId userId ↔ ∃ a d,
      (⟨spId, a⟩ : SpGroupAssignment) ∈ db.spGroupAssignments ∧ db.LinkedWithout parentGroupId childGroupId a d ∧
        (⟨d, userId⟩ : Membership) ∈ db.memberships)
  | .deleteGroup _ groupId => db.Gated spId ∧ db.OnlyThrough (db.Selected (·.id = groupId)) spId userId
  | .deleteIdentityProvider _ idpId _ => db.Gated spId ∧
      db.OnlyThrough (db.Selected (·.sourceId .saml = some idpId)) spId userId
  | .deleteConnection _ connectionId => db.Gated spId ∧
      db.OnlyThrough (db.Selected (·.sourceId .oidc = some connectionId)) spId userId ∧
        ∀ ua ∈ db.userAttributes, ua.userId = userId → ¬ db.matchesMirror .oidc connectionId ua
  | .addMember .. | .removeMember .. | .bulkAddMembers .. | .bulkRemoveMembers .. | .bulkGroupAssignment ..
  | .addProviderMemberships .. | .removeProviderMemberships .. | .assignSpToGroup .. | .removeSpGroupAssignment ..
  | .bulkAssignSpToGroups .. => False

abbrev Db.QueuesMissed (db : Db) (misses : Id → Id → Prop) : Prop :=
  ∀ user ∈ db.users, ∀ spId, misses spId user.id → db.Queued ⟨spId, .user, user.id⟩

section AccessMode

variable {env : Env} {db : Db} {user : RequestingUser} {spId userId target : Id} {availableToAll : Bool}

theorem userInScopeForSp_iff_of_nodup (hkeys : (db.serviceProviders.map (·.id)).Nodup) :
    userInScopeForSp db userId spId = true ↔ ∃ sp, db.getServiceProvider spId = some sp ∧ sp.scimEnabled ∧
      (sp.availableToAll ∨ db.Routes spId userId) := by
  have hfind : ∀ sp, db.getServiceProvider spId = some sp ↔ sp ∈ db.serviceProviders ∧ sp.id = spId := by
    intro sp
    constructor
    · intro h
      exact ⟨mem_of_find?_eq_some h, by simpa using find?_some h⟩
    · rintro ⟨hsp, rfl⟩
      cases hfound : db.getServiceProvider sp.id with
      | none =>
        have hnone := find?_eq_none.mp hfound sp hsp
        simp at hnone
      | some other =>
        have hid : other.id = sp.id := by simpa using find?_some hfound
        rw [inj_on_of_nodup_map hkeys (mem_of_find?_eq_some hfound) hsp hid]
  simp only [userInScopeForSp, Db.scimSpsGrantingUser, any_eq_true, mem_filter, decide_eq_true_eq,
    Db.grantedByGroup_iff, hfind]
  constructor
  · rintro ⟨sp, ⟨hsp, henabled, hgrant⟩, rfl⟩
    exact ⟨sp, ⟨hsp, rfl⟩, henabled, hgrant⟩
  · rintro ⟨sp, ⟨hsp, rfl⟩, henabled, hgrant⟩
    exact ⟨sp, ⟨hsp, henabled, hgrant⟩, rfl⟩

theorem getServiceProvider_setAvailableToAll (target : Id) (availableToAll : Bool) :
    (db.setAvailableToAll target availableToAll).getServiceProvider spId = (db.getServiceProvider spId).map fun sp =>
      if sp.id = target then { sp with availableToAll } else sp := by
  have hid : ∀ sp : ServiceProvider, (if sp.id = target then { sp with availableToAll } else sp).id = sp.id := by
    intro sp
    split_ifs <;> rfl
  rw [Db.getServiceProvider, Db.setAvailableToAll, find?_map]
  simp only [Function.comp_def, hid]
  rfl

theorem nodup_setAvailableToAll (hkeys : (db.serviceProviders.map (·.id)).Nodup) :
    ((db.setAvailableToAll target availableToAll).serviceProviders.map (·.id)).Nodup := by
  have hids : (db.setAvailableToAll target availableToAll).serviceProviders.map (·.id) =
      db.serviceProviders.map (·.id) := by
    rw [Db.setAvailableToAll, List.map_map]
    refine map_congr_left fun sp _ => ?_
    simp only [Function.comp_apply]
    split_ifs <;> rfl
  rwa [hids]

theorem scope_setAvailableToAll (hkeys : (db.serviceProviders.map (·.id)).Nodup) (target : Id) (availableToAll : Bool) :
    ¬ (userInScopeForSp db userId spId ↔ userInScopeForSp (db.setAvailableToAll target availableToAll) userId spId) ↔
      spId = target ∧ ¬ db.Routes spId userId ∧
        ∃ sp, db.getServiceProvider spId = some sp ∧ sp.scimEnabled ∧ sp.availableToAll ≠ availableToAll := by
  have hroutes : (db.setAvailableToAll target availableToAll).Routes = db.Routes := rfl
  rw [userInScopeForSp_iff_of_nodup hkeys, userInScopeForSp_iff_of_nodup (nodup_setAvailableToAll hkeys),
    getServiceProvider_setAvailableToAll, hroutes]
  cases hsp : db.getServiceProvider spId with
  | none => simp
  | some sp =>
    have hid : sp.id = spId := by simpa using find?_some hsp
    by_cases htarget : spId = target
    · subst htarget
      simp only [Option.map_some, Option.some.injEq, exists_eq_left', hid]
      cases sp.availableToAll <;> cases availableToAll <;> simp <;> tauto
    · simp [hid, htarget]

theorem pushes_accessModeEvent {previous : Bool} :
    pushes db (accessModeEvent target (some availableToAll) previous) ⟨spId, .user, userId⟩ ↔
      availableToAll ≠ previous ∧ db.isScimEnabledSp target ∧ spId = target ∧ userId ∈ db.tenantUserIds := by
  constructor
  · rintro ⟨⟨-, hne⟩, henabled, _, huser, hkey⟩
    obtain ⟨rfl, -, rfl⟩ := PushKey.mk.inj hkey
    exact ⟨fun h => hne (congrArg some h.symm), henabled, rfl, huser⟩
  · rintro ⟨hne, henabled, rfl, huser⟩
    exact ⟨⟨rfl, fun h => hne (Option.some.inj h).symm⟩, henabled, userId, huser, rfl⟩

theorem enqueuesChanges_accessModeEvent_iff (hkeys : (db.serviceProviders.map (·.id)).Nodup)
    {existing : ServiceProvider} (hnew : availableToAll ≠ existing.availableToAll) :
    let changed := db.setAvailableToAll target availableToAll
    let event := accessModeEvent target (some availableToAll) existing.availableToAll
    db.EnqueuesChanges (scimDispatch changed event) ↔ db.QueuesMissed fun spId userId =>
      spId = target ∧ userId ∈ db.serviceUsers ∧ ¬ db.Routes spId userId ∧
        ∃ sp, db.getServiceProvider spId = some sp ∧ sp.scimEnabled ∧
          some availableToAll = some (!sp.availableToAll) := by
  intro changed event
  have hevent := enqueues_scimDispatch changed event
  generalize hafter : scimDispatch changed event = db' at hevent ⊢
  have hscope : ∀ userId spId, userInScopeForSp db' userId spId = userInScopeForSp changed userId spId := by
    rw [hevent.frame]
    exact fun _ _ => rfl
  have hqueued : ∀ spId userId, db'.Queued ⟨spId, .user, userId⟩ ↔ db.Queued ⟨spId, .user, userId⟩ ∨
      changed.isScimEnabledSp target ∧ spId = target ∧ userId ∈ db.tenantUserIds := by
    intro spId userId
    rw [hevent.queued, pushes_accessModeEvent]
    exact or_congr Iff.rfl (and_iff_right hnew)
  constructor
  · rintro h user huser spId ⟨rfl, hservice, hroutes, sp, hsp, henabled, hflag⟩
    have hchanged : ¬ (userInScopeForSp db user.id spId ↔ userInScopeForSp db' user.id spId) := by
      rw [hscope, scope_setAvailableToAll hkeys]
      refine ⟨rfl, hroutes, sp, hsp, henabled, ?_⟩
      rw [Option.some.inj hflag]
      cases sp.availableToAll <;> simp
    refine ((hqueued _ _).mp (h user huser spId hchanged)).resolve_right fun hpush => ?_
    have htenant := (mem_filter.mp hpush.2.2).2
    simp [hservice] at htenant
  · intro h user huser spId hchanged
    rw [hscope, scope_setAvailableToAll hkeys] at hchanged
    obtain ⟨rfl, hroutes, sp, hsp, henabled, hne⟩ := hchanged
    rw [hqueued]
    by_cases hservice : user.id ∈ db.serviceUsers
    · refine .inl (h user huser spId ⟨rfl, hservice, hroutes, sp, hsp, henabled, ?_⟩)
      cases hold : sp.availableToAll <;> cases hvalue : availableToAll <;> simp [hold, hvalue] at hne ⊢
    · refine .inr ⟨?_, rfl, mem_filter.mpr ⟨mem_map_of_mem huser, by simpa using hservice⟩⟩
      have hrow := @getServiceProvider_setAvailableToAll db spId spId availableToAll
      rw [hsp] at hrow
      refine any_eq_true.mpr ⟨_, mem_of_find?_eq_some hrow, ?_⟩
      have hid : sp.id = spId := by simpa using find?_some hsp
      simp [hid, henabled]

theorem updateServiceProvider_enqueues_iff (hkeys : (db.serviceProviders.map (·.id)).Nodup) {data : SPUpdate} :
    (updateServiceProvider user target data).Ensures db (Completing fun db' => db.EnqueuesChanges db' ↔
      db.QueuesMissed ((ScopeCall.updateServiceProvider user target data).Misses env db)) := by
  refine .require completing_error fun _ => ?_
  refine .orRaise completing_error fun existing hexisting => ?_
  refine .require completing_error fun _ => ?_
  simp only [ScopeCall.Misses]
  cases hdata : data.availableToAll with
  | none =>
    intro _
    refine iff_of_true (.refl db) ?_
    rintro _ _ _ ⟨-, -, -, _, -, -, hsome⟩
    cases hsome
  | some availableToAll =>
    refine ensures_whenever.mpr ⟨fun hdiffers _ => ?_, fun hsame _ => ?_⟩
    · have hnew := of_decide_eq_true hdiffers
      exact enqueuesChanges_accessModeEvent_iff hkeys hnew
    · have hold : availableToAll = existing.availableToAll := by simpa using hsame
      have hkept : ∀ sp, db.getServiceProvider target = some sp → sp.availableToAll = availableToAll := by
        intro sp hsp
        rw [hold, Option.some.inj (hexisting.symm.trans hsp)]
      refine iff_of_true ?_ ?_
      · intro user _ spId hchanged
        obtain ⟨rfl, -, sp, hsp, -, hne⟩ := (scope_setAvailableToAll hkeys target availableToAll).mp hchanged
        exact absurd (hkept sp hsp) hne
      · rintro user _ spId ⟨rfl, -, -, sp, hsp, -, hflag⟩
        have hflip := hkept sp hsp
        rw [Option.some.inj hflag] at hflip
        cases hvalue : sp.availableToAll <;> simp at hflip

end AccessMode

section Silent

variable {env : Env} {db db₁ db' : Db} {user : RequestingUser} {userId : Id}

/-- A user has joined the groups of `joined`. -/
structure Joins (userId : Id) (joined : Id → Prop) (db db' : Db) : Prop where
  frame : db' = { db with memberships := db'.memberships }
  mem : ∀ m, m ∈ db'.memberships ↔ m ∈ db.memberships ∨ (m.userId = userId ∧ joined m.groupId)

theorem joins_forEach {f : Id → Service Unit} {joined : Id → Id → Prop} {groupIds : List Id}
    (hf : ∀ g ∈ groupIds, ∀ db₁, db₁ = { db with memberships := db₁.memberships } →
      (f g).Ensures db₁ (Completing (Joins userId (joined g) db₁))) :
    (forEach groupIds f).Ensures db (Completing (Joins userId (fun x => ∃ g ∈ groupIds, joined g x) db)) := by
  -- by induction on the list, from any state that differs from the first in memberships only
  have hloop : ∀ db₁, db₁ = { db with memberships := db₁.memberships } → (forEach groupIds f).Ensures db₁
      (Completing (Joins userId (fun x => ∃ g ∈ groupIds, joined g x) db₁)) := by
    induction groupIds with
    | nil =>
      refine fun db₁ _ _ => ⟨rfl, fun m => ?_⟩
      simp only [not_mem_nil, false_and, exists_false, and_false, or_false]
      exact Iff.rfl
    | cons g gs ih =>
      intro db₁ hframe
      refine (hf g mem_cons_self db₁ hframe).bind (fun _ db₂ h => ?_) fun e _ _ => completing_error
      obtain ⟨hframe', hmem⟩ := h rfl
      have hrest := ih (fun x hx => hf x (mem_cons_of_mem g hx)) db₂ (by rw [hframe', hframe])
      refine hrest.mono fun r db₃ h hok => ?_
      obtain ⟨hframe'', hmem'⟩ := h hok
      refine ⟨by rw [hframe'', hframe'], fun m => ?_⟩
      simp only [hmem', hmem, mem_cons, exists_eq_or_imp]
      tauto
  exact hloop db rfl

theorem joins_insertMembership {groupId : Id} : (do let _ ← tx (·.insertMembership groupId userId)).Ensures db
    (Completing (Joins userId (· = groupId) db)) := by
  refine ensures_bind.mpr (ensures_tx.mpr ⟨fun n db₁ hinsert => fun _ => ?_, fun _ _ => completing_error⟩)
  obtain ⟨hframe, hmem⟩ := Db.insertMembership_eq_ok hinsert
  refine ⟨hframe, fun m => ?_⟩
  change m ∈ db₁.memberships ↔ _
  rw [hmem]
  obtain ⟨g, u⟩ := m
  simp only [Membership.mk.injEq]
  tauto

theorem Joins.enqueuesChanges_iff {joined : Id → Prop} (h : Joins userId joined db db') :
    db.EnqueuesChanges db' ↔ db.QueuesMissed fun spId u => db.Gated spId ∧ ¬ db.Routes spId u ∧ u = userId ∧
      ∃ g, joined g ∧ db.Reaches spId g := by
  have hsps : db'.serviceProviders = db.serviceProviders := by
    rw [h.frame]
  have hqueue : db'.scimPushQueue = db.scimPushQueue := by
    rw [h.frame]
  have hroutes : ∀ spId u, ¬ (db.Routes spId u ↔ db'.Routes spId u) ↔
      ¬ db.Routes spId u ∧ u = userId ∧ ∃ g, joined g ∧ db.Reaches spId g := by
    intro spId u
    have hafter : db'.Routes spId u ↔ db.Routes spId u ∨ u = userId ∧ ∃ g, joined g ∧ db.Reaches spId g := by
      rw [Db.routes_of_memberships h.frame]
      simp only [h.mem]
      constructor
      · rintro ⟨g, hreach, hold | ⟨rfl, hnew⟩⟩
        · exact .inl ⟨g, hreach, hold⟩
        · exact .inr ⟨rfl, g, hnew, hreach⟩
      · rintro (⟨g, hreach, hold⟩ | ⟨rfl, g, hnew, hreach⟩)
        · exact ⟨g, hreach, .inl hold⟩
        · exact ⟨g, hreach, .inr ⟨rfl, hnew⟩⟩
    rw [hafter]
    by_cases hold : db.Routes spId u
    · simp [hold]
    · simp [hold]
  rw [Db.enqueuesChanges_iff_of_enqueues hsps hqueue (.refl db')]
  simp only [Db.QueuesMissed, hroutes, or_false, and_imp]

theorem bulkAddUserToGroups_enqueues_iff {groupIds : List Id} :
    (bulkAddUserToGroups user userId groupIds).Ensures db (Completing fun db' => db.EnqueuesChanges db' ↔
      db.QueuesMissed ((ScopeCall.bulkAddUserToGroups user userId groupIds).Misses env db)) := by
  refine .require completing_error fun _ => ?_
  refine .orRaise completing_error fun _ _ => ?_
  have hloop : (forEach groupIds (addUserToGroup userId)).Ensures db (Completing (Joins userId (fun x =>
      ∃ g ∈ groupIds, x = g ∧ (db.getGroupById g).any (·.groupType ≠ .idp)) db)) := by
    refine joins_forEach fun g _ db₁ hframe => ?_
    have hgroup : db₁.getGroupById g = db.getGroupById g := by
      rw [hframe]
      rfl
    refine .read (.read ?_)
    rw [hgroup]
    refine ensures_whenever.mpr ⟨fun hadd => ?_, fun hskip _ => ?_⟩
    · refine joins_insertMembership.mono fun r db₂ h hok => ?_
      simpa only [hadd.1, and_true] using h hok
    · refine ⟨rfl, fun m => ⟨.inl, ?_⟩⟩
      rintro (hm | ⟨huser, hid, hcond⟩)
      · exact hm
      · have hmember : db₁.isGroupMember g userId = true := by
          by_contra hno
          exact hskip ⟨hcond, hno⟩
        have hm : m = ⟨g, userId⟩ := by
          rw [← hid, ← huser]
        rw [hm]
        exact of_decide_eq_true hmember
  refine hloop.bind (fun _ db₁ h => ?_) fun e _ _ => completing_error
  have hjoins := (h rfl).enqueuesChanges_iff
  have hgroups : ∀ spId, (∃ x, (∃ g ∈ groupIds, x = g ∧ (db.getGroupById g).any (·.groupType ≠ .idp) = true) ∧
      db.Reaches spId x) ↔ ∃ g, (g ∈ groupIds ∧ (db.getGroupById g).any (·.groupType ≠ .idp) = true) ∧
        db.Reaches spId g := by
    intro spId
    constructor
    · rintro ⟨_, ⟨g, hg, rfl, hcond⟩, hreach⟩
      exact ⟨_, ⟨hg, hcond⟩, hreach⟩
    · rintro ⟨g, ⟨hg, hcond⟩, hreach⟩
      exact ⟨g, ⟨g, hg, rfl, hcond⟩, hreach⟩
  simp only [hgroups] at hjoins
  refine .read (ensures_whenever.mpr ⟨fun _ _ => ?_, fun _ _ => hjoins⟩)
  exact hjoins

theorem logAutoAssignment_enqueues_iff {email : Text} :
    (logAutoAssignment env userId email).Ensures db (Completing fun db' => db.EnqueuesChanges db' ↔
      db.QueuesMissed ((ScopeCall.autoAssign userId email).Misses env db)) := by
  have hassign : (autoAssignUserToDomainGroups env userId email).Ensures db (Completing (Joins userId (fun x =>
      email.contains '@' ∧ x ∈ db.getGroupIdsForDomain env (env.lower (Text.afterFirst '@' email))) db)) := by
    refine ensures_whenever.mpr ⟨fun hat => ?_, fun hno _ => ⟨rfl, fun m => ?_⟩⟩
    · have hloop := @joins_forEach db userId (fun groupId => do let _ ← tx (·.insertMembership groupId userId))
        (fun g x => x = g) (db.getGroupIdsForDomain env (env.lower (Text.afterFirst '@' email)))
        fun g _ db₁ _ => joins_insertMembership
      refine hloop.mono fun r db₁ h hok => ?_
      simpa only [hat, true_and, exists_eq_right'] using h hok
    · simp only [hno, Bool.false_eq_true, false_and, and_false, or_false]
  refine hassign.bind (fun _ db₁ h => ?_) fun e _ _ => completing_error
  have hjoins := (h rfl).enqueuesChanges_iff
  refine .read (ensures_whenever.mpr ⟨fun _ _ => ?_, fun _ _ => hjoins⟩)
  exact hjoins

theorem enqueuesChanges_iff_of_lineage (hframe : ∃ relationships lineage, db₁ = { db with relationships, lineage }) :
    db.EnqueuesChanges db₁ ↔ ∀ user ∈ db.users, ∀ spId, db.Gated spId →
      ¬ (db.Routes spId user.id ↔ ∃ a d, ⟨spId, a⟩ ∈ db.spGroupAssignments ∧ db₁.Linked a d ∧
        ⟨d, user.id⟩ ∈ db.memberships) → db.Queued ⟨spId, .user, user.id⟩ := by
  obtain ⟨relationships, lineage, hframe⟩ := hframe
  have hsps : db₁.serviceProviders = db.serviceProviders := by
    rw [hframe]
  have hqueue : db₁.scimPushQueue = db.scimPushQueue := by
    rw [hframe]
  have hroutes : ∀ spId userId, db₁.Routes spId userId ↔ ∃ a d,
      ⟨spId, a⟩ ∈ db.spGroupAssignments ∧ db₁.Linked a d ∧
        ⟨d, userId⟩ ∈ db.memberships := by
    intro spId userId
    rw [Db.routes_iff, hframe]
  rw [Db.enqueuesChanges_iff_of_enqueues hsps hqueue (.refl db₁)]
  simp only [hroutes, or_false]

theorem Db.relationshipExists_of_eq_false {p c : Id} (h : db.addGroupRelationship p c = .ok (false, db')) :
    db.relationshipExists p c = true := by
  unfold addGroupRelationship at h
  dsimp only at h
  split_ifs at h with hself hlinked
  · exact hlinked
  · cases (Prod.mk.inj (Except.ok.inj h)).1

theorem logAddChild_enqueues_iff {p c : Id} : (logAddChild user p c).Ensures db (Completing fun db' =>
    db.EnqueuesChanges db' ↔ db.QueuesMissed ((ScopeCall.addChild user p c).Misses env db)) := by
  have hadd : (addChild user p c).Ensures db (Completing fun db₁ => db.addGroupRelationship p c = .ok (true, db₁)) := by
    refine .require completing_error fun _ => ?_
    refine .require completing_error fun _ => ?_
    refine .orRaise completing_error fun _ _ => ?_
    refine .orRaise completing_error fun _ _ => ?_
    refine .read (.require completing_error fun _ => ?_)
    refine .read (.require completing_error fun hunlinked => ?_)
    refine .read (.require completing_error fun _ => ?_)
    refine ensures_bind.mpr (ensures_tx.mpr ⟨fun b db₁ hinsert _ => ?_, fun _ _ => completing_error⟩)
    cases b with
    | false => exact absurd (Db.relationshipExists_of_eq_false hinsert) hunlinked
    | true => exact hinsert
  refine hadd.bind (fun _ db₁ h _ => ?_) fun e _ _ => completing_error
  have hinsert := h rfl
  have hframe := (Db.linked_addGroupRelationship hinsert rfl (a := p) (d := c)).1
  have hlinked : ∀ a d, db₁.Linked a d ↔ db.Linked a d ∨ db.Linked a p ∧ db.Linked c d :=
    fun a d => (Db.linked_addGroupRelationship hinsert rfl).2
  change db.EnqueuesChanges (scimDispatch db₁ _) ↔ _
  rw [scimDispatch_of_none rfl, enqueuesChanges_iff_of_lineage hframe]
  refine forall₂_congr fun user _ => forall_congr' fun spId => ?_
  have hafter : (∃ a d, ⟨spId, a⟩ ∈ db.spGroupAssignments ∧ db₁.Linked a d ∧
      ⟨d, user.id⟩ ∈ db.memberships) ↔ db.Routes spId user.id ∨ db.Reaches spId p ∧
        ∃ d, db.Linked c d ∧ ⟨d, user.id⟩ ∈ db.memberships := by
    rw [Db.routes_iff]
    simp only [hlinked]
    constructor
    · rintro ⟨a, d, ha, hold | ⟨hap, hcd⟩, hm⟩
      · exact .inl ⟨a, d, ha, hold, hm⟩
      · exact .inr ⟨⟨a, ha, hap⟩, d, hcd, hm⟩
    · rintro (⟨a, d, ha, hold, hm⟩ | ⟨⟨a, ha, hap⟩, d, hcd, hm⟩)
      · exact ⟨a, d, ha, .inl hold, hm⟩
      · exact ⟨a, d, ha, .inr ⟨hap, hcd⟩, hm⟩
  simp only [hafter, ScopeCall.Misses]
  by_cases hold : db.Routes spId user.id
  · simp [hold]
  · simp only [hold, false_or, false_iff, not_not, not_false_eq_true, true_and, and_imp]

theorem logRemoveChild_enqueues_iff {p c : Id} : (logRemoveChild user p c).Ensures db (Completing fun db' =>
    db.EnqueuesChanges db' ↔ db.QueuesMissed ((ScopeCall.removeChild user p c).Misses env db)) := by
  have hremove : (removeChild user p c).Ensures db (Completing fun db₁ =>
      ∃ rowsAffected ≠ 0, db.removeGroupRelationship p c = .ok (rowsAffected, db₁)) := by
    refine .require completing_error fun _ => ?_
    refine .read (.read (.read ?_))
    refine .require completing_error fun _ => ?_
    refine ensures_bind.mpr (ensures_tx.mpr ⟨fun rowsAffected db₁ hdelete => ?_, fun _ _ => completing_error⟩)
    refine ensures_require.mpr ⟨fun hrows _ => ⟨rowsAffected, hrows, hdelete⟩, fun _ => completing_error⟩
  refine hremove.bind (fun _ db₁ h _ => ?_) fun e _ _ => completing_error
  obtain ⟨rowsAffected, hrows, hdelete⟩ := h rfl
  have hframe := (Db.linked_removeGroupRelationship hdelete hrows (a := p) (d := c)).1
  have hlinked : ∀ a d, db₁.Linked a d ↔ db.LinkedWithout p c a d :=
    fun a d => (Db.linked_removeGroupRelationship hdelete hrows).2
  change db.EnqueuesChanges (scimDispatch db₁ _) ↔ _
  rw [scimDispatch_of_none rfl, enqueuesChanges_iff_of_lineage hframe]
  simp only [Db.QueuesMissed, hlinked, ScopeCall.Misses, and_imp]

theorem logDeleteGroup_enqueues_iff {groupId : Id} : (logDeleteGroup user groupId).Ensures db (Completing fun db' =>
    db.EnqueuesChanges db' ↔ db.QueuesMissed ((ScopeCall.deleteGroup user groupId).Misses env db)) := by
  have hdelete : (deleteGroup user groupId).Ensures db (Completing fun db₁ =>
      db₁ = (db.deleteGroupsWhere (·.id = groupId)).2) := by
    refine .require completing_error fun _ => ?_
    refine .orRaise completing_error fun _ _ => ?_
    refine .require completing_error fun _ => ?_
    refine .require completing_error fun _ => ?_
    exact fun _ => rfl
  refine hdelete.bind (fun _ db₁ h _ => ?_) fun e _ _ => completing_error
  obtain rfl := h rfl
  have hevent := enqueues_scimDispatch (db.deleteGroupsWhere (·.id = groupId)).2
    { eventType := .groupDeleted, artifactId := groupId }
  have hsps : (db.deleteGroupsWhere (·.id = groupId)).2.serviceProviders = db.serviceProviders := rfl
  refine (Db.enqueuesChanges_iff_of_enqueues hsps rfl hevent).trans ?_
  refine forall₂_congr fun user _ => forall_congr' fun spId => ?_
  -- the event is about the group, not about its members
  have hgroup : ¬ pushes (db.deleteGroupsWhere (·.id = groupId)).2 { eventType := .groupDeleted, artifactId := groupId }
      ⟨spId, .user, user.id⟩ := by
    rintro ⟨sp, -, hkey⟩
    cases (PushKey.mk.inj hkey).2.1
  simp only [hgroup, or_false, Db.routes_deleteGroupsWhere, ScopeCall.Misses, and_imp]

end Silent

section Providers

variable {env : Env} {db db₁ db₂ db' : Db} {user : RequestingUser} {added : PushKey → Prop} {idpId : Id}

/-- The tables that decide about scope are as they were; the queue holds `added` besides. -/
structure KeepsScope (added : PushKey → Prop) (db db' : Db) : Prop where
  serviceProviders : db'.serviceProviders = db.serviceProviders
  spGroupAssignments : db'.spGroupAssignments = db.spGroupAssignments
  groups : db'.groups = db.groups
  lineage : db'.lineage = db.lineage
  memberships : db'.memberships = db.memberships
  queued : ∀ key, db'.Queued key ↔ db.Queued key ∨ added key

theorem keepsScope_of_enqueues (h : Enqueues added db db') : KeepsScope added db db' := by
  refine ⟨?_, ?_, ?_, ?_, ?_, h.queued⟩ <;> rw [h.frame]

theorem KeepsScope.routes (h : KeepsScope added db db') : db'.Routes = db.Routes := by
  funext spId userId
  rw [Db.Routes, Db.Routes]
  simp only [Db.Reaches, Db.Linked, h.spGroupAssignments, h.lineage, h.memberships]

/-- Those whose values are scrubbed are pushed to the applications that are granted to them at that time. -/
def scrubPushes (source : Source) (idpId : Id) (db : Db) (key : PushKey) : Prop :=
  ∃ ua ∈ db.userAttributes, db.matchesMirror source idpId ua ∧
    ∃ spId, userInScopeForSp db ua.userId spId ∧ key = ⟨spId, .user, ua.userId⟩

theorem scrubAll_keepsScope {source : Source} : (scrubAllCanonicalMatchesMirror idpId source).Ensures db fun r db' =>
      r = .ok () ∧ KeepsScope (scrubPushes source idpId db) db db' := by
  refine .read (.write ?_)
  refine (enqueues_forEach_logEvent _ _).mono
    fun r db' h => ⟨h.1, ?_⟩
  have hscope := keepsScope_of_enqueues h.2
  refine ⟨hscope.serviceProviders, hscope.spGroupAssignments, hscope.groups, hscope.lineage, hscope.memberships,
    fun key => (hscope.queued key).trans (or_congr Iff.rfl ?_)⟩
  have hpushes : ∀ userAttributes userId,
      pushes { db with userAttributes } { eventType := .userProfileUpdated, artifactId := userId } key ↔
        ∃ spId, userInScopeForSp db userId spId ∧ key = ⟨spId, .user, userId⟩ := by
    intro userAttributes userId
    change (∃ spId ∈ (db.scimSpsGrantingUser userId).map (·.id), key = ⟨spId, .user, userId⟩) ↔ _
    simp only [userInScopeForSp, any_eq_true, decide_eq_true_eq, mem_map]
  simp only [hpushes, mem_dedup, mem_map, mem_filter]
  constructor
  · rintro ⟨_, ⟨ua, ⟨hua, hmatch⟩, rfl⟩, hpush⟩
    exact ⟨ua, hua, hmatch, hpush⟩
  · rintro ⟨ua, hua, hmatch, hpush⟩
    exact ⟨ua.userId, ⟨ua, ⟨hua, hmatch⟩, rfl⟩, hpush⟩

theorem logInvalidateIdpGroups_spec {source : Source} : (logInvalidateIdpGroups idpId source).Ensures db fun _ db' =>
      db' = (db.deleteGroupsWhere (·.sourceId source = some idpId)).2 := by
  refine .read ?_
  have hlogs : (forEach (db.getGroupsByIdp idpId source) fun group =>
      logEvent { eventType := .idpGroupInvalidated, artifactId := group.id }).Ensures db fun r db' =>
        r = .ok () ∧ db' = db :=
    Ensures.forEach (fun _ _ db₁ h => ⟨rfl, h⟩) rfl
  refine hlogs.bind (fun _ db₁ h => ?_) fun e _ h => by cases h.1
  obtain rfl := h.2
  have hdelete : (invalidateIdpGroups idpId source).Ensures db₁ fun _ db' =>
      db' = (db₁.deleteGroupsWhere (·.sourceId source = some idpId)).2 := exec_invalidateIdpGroups db₁ idpId source
  exact hdelete.bind (fun _ _ h => h) fun _ _ h => h

theorem enqueuesChanges_iff_of_deletedGroups {selected : Group → Bool}
    (hsps : db'.serviceProviders = db.serviceProviders)
    (hroutes : db'.Routes = (db.deleteGroupsWhere selected).2.Routes)
    (hqueued : ∀ key, db'.Queued key ↔ db.Queued key ∨ added key) :
    db.EnqueuesChanges db' ↔ ∀ user ∈ db.users, ∀ spId, db.Gated spId →
      db.OnlyThrough (db.Selected selected) spId user.id →
        db.Queued ⟨spId, .user, user.id⟩ ∨ added ⟨spId, .user, user.id⟩ := by
  rw [Db.enqueuesChanges_iff hsps hqueued, hroutes]
  simp only [Db.routes_deleteGroupsWhere]

theorem deleteIdentityProvider_enqueues_iff {scrub : Bool} :
    (deleteIdentityProvider user idpId scrub).Ensures db (Completing fun db' => db.EnqueuesChanges db' ↔
      db.QueuesMissed ((ScopeCall.deleteIdentityProvider user idpId scrub).Misses env db)) := by
  refine .require completing_error fun _ => ?_
  refine .orRaise completing_error fun _ _ => ?_
  refine .require completing_error fun _ => ?_
  refine .read (.require completing_error fun _ => ?_)
  refine .read (.require completing_error fun _ => ?_)
  refine logInvalidateIdpGroups_spec.bind (fun _ db₁ h => ?_) fun e _ _ => completing_error
  have hscrub : (whenever scrub (scrubAllCanonicalMatchesMirror idpId .saml)).Ensures db₁ fun r db₂ =>
      KeepsScope (fun key => scrub ∧ scrubPushes .saml idpId db₁ key) db₁ db₂ := by
    refine ensures_whenever.mpr ⟨fun hscrub => ?_, fun hno => ?_⟩
    · simpa only [hscrub, true_and] using scrubAll_keepsScope.mono fun _ _ h => h.2
    · simpa only [hno, Bool.false_eq_true, false_and] using keepsScope_of_enqueues (.refl db₁)
  refine hscrub.bind (fun _ db₂ hkeeps _ => ?_) fun e _ _ => completing_error
  change db.EnqueuesChanges (scimDispatch (db₂.deleteIdentityProvider idpId) _) ↔ _
  rw [scimDispatch_of_none rfl]
  have hsps : (db₂.deleteIdentityProvider idpId).serviceProviders = db.serviceProviders :=
    hkeeps.serviceProviders.trans (h ▸ rfl)
  have hroutes : (db₂.deleteIdentityProvider idpId).Routes =
      (db.deleteGroupsWhere (·.sourceId .saml = some idpId)).2.Routes := hkeeps.routes.trans (h ▸ rfl)
  have hqueued : ∀ key, (db₂.deleteIdentityProvider idpId).Queued key ↔
      db.Queued key ∨ scrub ∧ scrubPushes .saml idpId db₁ key := by
    intro key
    refine (hkeeps.queued key).trans (or_congr ?_ Iff.rfl)
    rw [h]
    exact Iff.rfl
  rw [enqueuesChanges_iff_of_deletedGroups hsps hroutes hqueued]
  refine forall₂_congr fun user _ => forall_congr' fun spId => ?_
  simp only [ScopeCall.Misses, and_imp]
  refine forall₂_congr fun hgated honly => or_iff_left ?_
  -- by the time of the scrub the routes are gone, so its events do not ask for these pushes
  rintro ⟨-, ua, -, -, _, hscope, hkey⟩
  obtain ⟨rfl, -, hid⟩ := PushKey.mk.inj hkey
  have hgated₁ : db₁.Gated spId := by
    rw [h]
    exact hgated
  have hremaining := (Db.userInScopeForSp_iff.mp hscope).2 hgated₁
  rw [← hid, h] at hremaining
  exact Db.routes_deleteGroupsWhere.mpr honly (iff_of_true honly.1 hremaining)

theorem deleteConnection_enqueues_iff {connectionId : Id} :
    (deleteConnection user connectionId).Ensures db (Completing fun db' => db.EnqueuesChanges db' ↔
      db.QueuesMissed ((ScopeCall.deleteConnection user connectionId).Misses env db)) := by
  refine .require completing_error fun _ => ?_
  refine .orRaise completing_error fun _ _ => ?_
  refine .require completing_error fun _ => ?_
  refine .read (.require completing_error fun _ => ?_)
  refine scrubAll_keepsScope.bind (fun _ db₁ h => ?_) fun e _ _ => completing_error
  obtain ⟨-, hkeeps⟩ := h
  refine logInvalidateIdpGroups_spec.bind (fun _ db₂ h _ => ?_) fun e _ _ => completing_error
  change db.EnqueuesChanges (scimDispatch (db₂.deleteConnection connectionId) _) ↔ _
  rw [scimDispatch_of_none rfl]
  have hsps : (db₂.deleteConnection connectionId).serviceProviders = db.serviceProviders :=
    Eq.trans (h ▸ rfl) hkeeps.serviceProviders
  have hdeleted : KeepsScope (scrubPushes .oidc connectionId db)
      (db.deleteGroupsWhere (·.sourceId .oidc = some connectionId)).2 (db₂.deleteConnection connectionId) := by
    subst h
    refine ⟨hkeeps.serviceProviders, ?_, ?_, ?_, ?_, hkeeps.queued⟩ <;>
      simp only [Db.deleteConnection, Db.deleteGroupsWhere, hkeeps.groups, hkeeps.spGroupAssignments, hkeeps.lineage,
        hkeeps.memberships]
  rw [enqueuesChanges_iff_of_deletedGroups hsps hdeleted.routes hdeleted.queued]
  refine forall₂_congr fun user _ => forall_congr' fun spId => ?_
  constructor
  · rintro hdue ⟨hgated, honly, hunmatched⟩
    refine (hdue hgated honly).resolve_right ?_
    rintro ⟨ua, hua, hmatch, _, -, hkey⟩
    exact hunmatched ua hua (PushKey.mk.inj hkey).2.2.symm hmatch
  · intro hdue hgated honly
    by_cases hunmatched : ∀ ua ∈ db.userAttributes, ua.userId = user.id → ¬ db.matchesMirror .oidc connectionId ua
    · exact .inl (hdue ⟨hgated, honly, hunmatched⟩)
    · push Not at hunmatched
      obtain ⟨ua, hua, hid, hmatch⟩ := hunmatched
      have hscope := Db.userInScopeForSp_iff.mpr ⟨hgated.1, fun _ => honly.1⟩
      exact .inr ⟨ua, hua, hmatch, spId, hid ▸ hscope, by rw [hid]⟩

end Providers

/-- After a completed call every user whose scope has changed is in the queue, exactly when those whom the call
misses were there before. -/
theorem scope_changes_enqueued_iff (env : Env) (db : Db) (call : ScopeCall)
    (hkeys : (db.serviceProviders.map (·.id)).Nodup) (hok : (call.run env db).1 = .ok ()) :
    (∀ user ∈ db.users, ∀ spId, ¬ (userInScopeForSp db user.id spId ↔
        userInScopeForSp (call.run env db).2 user.id spId) → (call.run env db).2.Queued ⟨spId, .user, user.id⟩) ↔
      ∀ user ∈ db.users, ∀ spId, call.Misses env db spId user.id → db.Queued ⟨spId, .user, user.id⟩ := by
  have htold : ∀ {x : Service Unit}, x.Ensures db (Completing db.EnqueuesChanges) → (x db).1 = .ok () →
      (db.EnqueuesChanges (x db).2 ↔ ∀ user ∈ db.users, ∀ spId, False → db.Queued ⟨spId, .user, user.id⟩) :=
    fun h hx => iff_of_true (h hx) fun _ _ _ hno => hno.elim
  cases call with
  | addMember => exact htold addMember_enqueues hok
  | removeMember => exact htold removeMember_enqueues hok
  | bulkAddMembers => exact htold bulkAddMembers_enqueues hok
  | bulkRemoveMembers => exact htold bulkRemoveMembers_enqueues hok
  | bulkGroupAssignment groupId userIds =>
    have hcovers := bulkGroupAssignment_covers groupId userIds db
    exact htold (fun _ => hcovers.changes) hok
  | addProviderMemberships userId groupIds => exact htold (logMembershipAdditions_enqueues userId groupIds) hok
  | removeProviderMemberships userId groupIds => exact htold (logMembershipRemovals_enqueues userId groupIds) hok
  | bulkAddUserToGroups => exact bulkAddUserToGroups_enqueues_iff hok
  | autoAssign => exact logAutoAssignment_enqueues_iff hok
  | assignSpToGroup => exact htold assignSpToGroup_enqueues hok
  | removeSpGroupAssignment => exact htold removeSpGroupAssignment_enqueues hok
  | bulkAssignSpToGroups => exact htold bulkAssignSpToGroups_enqueues hok
  | updateServiceProvider => exact updateServiceProvider_enqueues_iff hkeys hok
  | addChild => exact logAddChild_enqueues_iff hok
  | removeChild => exact logRemoveChild_enqueues_iff hok
  | deleteGroup => exact logDeleteGroup_enqueues_iff hok
  | deleteIdentityProvider => exact deleteIdentityProvider_enqueues_iff hok
  | deleteConnection => exact deleteConnection_enqueues_iff hok

def twoTeams : Db where
  nextId := 100
  users := [{ id := 5 }]
  groups := [{ id := 10, name := "Staff" }, { id := 11, name := "Sales" }]
  lineage := [⟨10, 10, 0⟩, ⟨11, 11, 0⟩]
  memberships := [⟨11, 5⟩]
  serviceProviders := [{ id := 1, scimEnabled := true }]
  spGroupAssignments := [⟨1, 10⟩]

def groupAdmin : RequestingUser := ⟨0, .admin⟩

/-- The group becomes a child of the other and is taken out again: the user gains and loses the application, and
neither is pushed. -/
theorem relationships_enqueue_nothing :
    let linked := (logAddChild groupAdmin 10 11 twoTeams).2
    let unlinked := (logRemoveChild groupAdmin 10 11 linked).2
    (logAddChild groupAdmin 10 11 twoTeams).1 = .ok () ∧ (logRemoveChild groupAdmin 10 11 linked).1 = .ok () ∧
      userInScopeForSp twoTeams 5 1 = false ∧ userInScopeForSp linked 5 1 = true ∧
      userInScopeForSp unlinked 5 1 = false ∧ linked.scimPushQueue = [] ∧ unlinked.scimPushQueue = [] := by
  decide +kernel

/-- A membership in the group that the application is for is pushed. -/
theorem new_member_enqueued : ((ScopeCall.addMember groupAdmin 10 5).run .ascii twoTeams).2.Queued ⟨1, .user, 5⟩ := by
  have hiff := scope_changes_enqueued_iff .ascii twoTeams (.addMember groupAdmin 10 5) (by decide) (by decide +kernel)
  have hqueued := hiff.mpr fun _ _ _ hmissed => hmissed.elim
  exact hqueued { id := 5 } (by decide) 1 (by decide +kernel)

end WeftId
