import WeftId.Scim.GroupPatch

/-!
What a rejected SCIM write of a group leaves behind.  The operations of a PATCH are planned as edits of the
set of members; those before the one that is rejected have been applied when it is.  A PUT renames the group
before its members are resolved.
-/

namespace WeftId

open List hiding lookup

open Proc

/-- The error is a `ScimWriteError`. -/
def Error.IsScim : Error → Prop
  | .scim _ _ _ => True
  | _ => False

instance : DecidablePred Error.IsScim := fun e => by
  unfold Error.IsScim
  split <;> infer_instance

namespace Scim

/-- Groups, memberships, names, active flags and the attribute tables, which also hold the `externalId`. -/
structure SameDirectory (db db' : Db) : Prop where
  groups : db'.groups = db.groups
  memberships : ∀ m, m ∈ db'.memberships ↔ m ∈ db.memberships
  users : db'.users.map (fun u => (u.id, u.firstName, u.lastName, u.isInactivated)) =
    db.users.map fun u => (u.id, u.firstName, u.lastName, u.isInactivated)
  userIdpAttributes : db'.userIdpAttributes = db.userIdpAttributes
  userAttributes : db'.userAttributes = db.userAttributes

theorem SameDirectory.refl (db : Db) : SameDirectory db db := ⟨rfl, fun _ => Iff.rfl, rfl, rfl, rfl⟩

def CleanRejection {α : Type} (db : Db) (outcome : Except Error α × Db) : Prop :=
  ∀ e, outcome.1 = .error e → e.IsScim → SameDirectory db outcome.2

variable {α : Type} {db : Db}

theorem cleanRejection_of_unchanged {r : Except Error α} : CleanRejection db (r, db) :=
  fun _ _ _ => .refl db

variable {db' : Db}

theorem cleanRejection_ok {a : α} : CleanRejection db ((.ok a, db') : Except Error α × Db) :=
  fun _ h => by cases h

theorem cleanRejection_error_iff {e : Error} (he : e.IsScim) :
    CleanRejection db ((.error e, db') : Except Error α × Db) ↔ SameDirectory db db' := by
  refine ⟨fun h => h e rfl he, fun h e' he' _ => h⟩

theorem cleanRejection_of_not_isScim {e : Error} (he : ¬ e.IsScim) :
    CleanRejection db ((.error e, db') : Except Error α × Db) := by
  intro e' he' hscim
  obtain rfl : e = e' := by simpa using he'
  exact absurd hscim he

section Members

inductive MemberEdit
  | replace (ids : List Id)
  | add (ids : List Id)
  | remove (ids : List Id)
  | clear

def MemberEdit.apply : MemberEdit → List Id → List Id
  | replace ids, _ => ids
  | add ids, current => current ++ ids.filter (· ∉ current)
  | remove ids, current => current.filter (· ∉ ids)
  | clear, _ => []

def applyEdits (edits : List MemberEdit) (current : List Id) : List Id :=
  edits.foldl (fun members edit => edit.apply members) current

variable {edits : List MemberEdit} {edit : MemberEdit}

theorem mem_applyEdits_congr {current current' : List Id}
    (h : ∀ userId, userId ∈ current ↔ userId ∈ current') {userId : Id} :
    userId ∈ applyEdits edits current ↔ userId ∈ applyEdits edits current' := by
  induction edits generalizing current current' with
  | nil => exact h userId
  | cons edit edits ih => exact ih fun u => by cases edit <;> simp [MemberEdit.apply, h]

variable (env : Env)

def memberEdit (db : Db) (idpId : Id) (op : PatchOp) (value : Json) (filter : Option (Text × Text)) :
    Except Error MemberEdit :=
  match op with
  | .replace => (resolveMembers env db idpId value).map .replace
  | .add => (resolveMembers env db idpId value).map .add
  | .remove =>
    match filter, value with
    | none, .null | none, .arr [] => .ok .clear
    | _, _ => (removedMembers env db idpId value filter []).map .remove

theorem memberTarget_eq_map (db : Db) (idpId : Id) (op : PatchOp) (value : Json) (filter : Option (Text × Text))
    (current : List Id) : memberTarget env db idpId op value filter current =
      (memberEdit env db idpId op value filter).map (·.apply current) := by
  cases op with
  | replace =>
    cases h : resolveMembers env db idpId value <;> simp [memberTarget, memberEdit, h, Except.map, MemberEdit.apply]
  | add =>
    cases h : resolveMembers env db idpId value <;>
      simp [memberTarget, memberEdit, h, Except.map, MemberEdit.apply]
  | remove =>
    have hmap : ∀ removed : Except Error (List Id),
        removed.map (fun removed => current.filter (· ∉ removed)) =
          (removed.map MemberEdit.remove).map (·.apply current) := by
      intro removed
      cases removed <;> rfl
    rw [memberTarget_remove]
    cases filter with
    | some kv => exact hmap _
    | none =>
      cases value with
      | null => simp [removedMembers, memberEdit, Except.map, MemberEdit.apply]
      | arr items =>
        cases items with
        | nil => simp [removedMembers, memberEdit, Except.map, MemberEdit.apply]
        | cons => exact hmap _
      | _ => exact hmap _

/-- The edits of the operations before the first rejected one, and how the loop over them ends. -/
def planOperations (edit : PatchOp → Json → Option (Text × Text) → Except Error MemberEdit) :
    List Json → Option Text → List MemberEdit × Except Error (Option Text)
  | [], newName => ([], .ok newName)
  | rawOp :: ops, newName =>
    match groupOperation env rawOp with
    | .error e => ([], .error e)
    | .ok (.rename name) => planOperations edit ops (some name)
    | .ok .ignore => planOperations edit ops newName
    | .ok (.members op value filter) =>
      match edit op value filter with
      | .error e => ([], .error e)
      | .ok done =>
        let (edits, result) := planOperations edit ops newName
        (done :: edits, result)

/-- The memberships after edits of the members of one group. -/
structure Edited (db : Db) (groupId : Id) (edits : List MemberEdit) (memberships : List Membership) : Prop where
  known : ∀ userId ∈ applyEdits edits (db.listGroupMembersForScim groupId), (db.getUserById userId).isSome
  inside : ∀ m, m.groupId = groupId → (db.getUserById m.userId).isSome →
    (m ∈ memberships ↔ m.userId ∈ applyEdits edits (db.listGroupMembersForScim groupId))
  outside : ∀ m, ¬ (m.groupId = groupId ∧ (db.getUserById m.userId).isSome) → (m ∈ memberships ↔ m ∈ db.memberships)

variable {env} {db : Db} {idpId groupId : Id} {newName : Text} {memberships : List Membership}

theorem mem_listGroupMembersForScim {userId : Id} : userId ∈ db.listGroupMembersForScim groupId ↔
    ⟨groupId, userId⟩ ∈ db.memberships ∧ (db.getUserById userId).isSome := by
  refine ⟨fun h => ⟨mem_memberships_of_listed h, isSome_of_mem_listGroupMembersForScim h⟩, ?_⟩
  rintro ⟨hmem, huser⟩
  rw [Db.listGroupMembersForScim, mem_dedup, mem_map]
  exact ⟨_, mem_filter.mpr ⟨hmem, by simpa using huser⟩, rfl⟩

theorem edited_nil : Edited db groupId [] db.memberships where
  known _ h := isSome_of_mem_listGroupMembersForScim h
  inside := by
    rintro m rfl huser
    exact ⟨fun h => mem_listGroupMembersForScim.mpr ⟨h, huser⟩, mem_memberships_of_listed⟩
  outside _ _ := Iff.rfl

theorem Edited.mem_listed (h : Edited db groupId edits memberships)
    (userId : Id) : userId ∈ ({ db with memberships } : Db).listGroupMembersForScim groupId ↔
      userId ∈ applyEdits edits (db.listGroupMembersForScim groupId) := by
  rw [mem_listGroupMembersForScim]
  constructor
  · exact fun ⟨hmem, huser⟩ => (h.inside ⟨groupId, userId⟩ rfl huser).mp hmem
  · exact fun hmem => ⟨(h.inside _ rfl (h.known userId hmem)).mpr hmem, h.known userId hmem⟩

theorem Edited.cons {between : List Membership} (hbetween : Edited db groupId [edit] between)
    (h : Edited { db with memberships := between } groupId edits memberships) :
    Edited db groupId (edit :: edits) memberships := by
  have hlisted : ∀ userId,
      userId ∈ applyEdits edits (({ db with memberships := between } : Db).listGroupMembersForScim groupId) ↔
      userId ∈ applyEdits (edit :: edits) (db.listGroupMembersForScim groupId) :=
    fun userId => mem_applyEdits_congr hbetween.mem_listed
  refine ⟨fun userId hmem => h.known userId ((hlisted userId).mpr hmem), fun m hgroup huser => ?_, fun m hm => ?_⟩
  · exact (h.inside m hgroup huser).trans (hlisted m.userId)
  · exact (h.outside m hm).trans (hbetween.outside m hm)

theorem patchOpMembers_edited {op : PatchOp} {value : Json} {filter : Option (Text × Text)}
    (hgroup : (db.getGroupForIdp idpId groupId).isSome) (h : memberEdit env db idpId op value filter = .ok edit) :
    ∃ memberships, patchOpMembers env idpId groupId op value filter db = (.ok (), { db with memberships }) ∧
      Edited db groupId [edit] memberships := by
  have htarget : memberTarget env db idpId op value filter (db.listGroupMembersForScim groupId) =
      .ok (edit.apply (db.listGroupMembersForScim groupId)) := by
    rw [memberTarget_eq_map, h]
    rfl
  have hknown : ∀ userId ∈ edit.apply (db.listGroupMembersForScim groupId), (db.getUserById userId).isSome :=
    fun userId hmem => isSome_of_memberTarget htarget hmem
  obtain ⟨memberships, happly, hmem⟩ := patchOpMembers_of_ok hgroup htarget
  refine ⟨memberships, happly, hknown, ?_, fun m houtside => ?_⟩
  · rintro m rfl huser
    rw [hmem m]
    constructor
    · rintro (⟨-, htarget⟩ | ⟨hm, hnot⟩)
      · exact htarget
      · exact absurd ⟨rfl, mem_listGroupMembersForScim.mpr ⟨hm, huser⟩⟩ hnot
    · exact fun htarget => .inl ⟨rfl, htarget⟩
  · rw [hmem m]
    constructor
    · rintro (⟨hg, htarget⟩ | ⟨hm, -⟩)
      · exact absurd ⟨hg, hknown _ htarget⟩ houtside
      · exact hm
    · exact fun hm => .inr ⟨hm, fun h => houtside ⟨h.1, isSome_of_mem_listGroupMembersForScim h.2⟩⟩

/-- The loop does what is planned in the store before the request: it touches memberships only, and users
and provider attributes decide which operation is rejected. -/
theorem applyGroupOperations_apply (env : Env) (ops : List Json) (newName : Option Text)
    (hgroup : (db.getGroupForIdp idpId groupId).isSome) :
    ∃ memberships, applyGroupOperations env idpId groupId ops newName db =
        ((planOperations env (memberEdit env db idpId) ops newName).2, { db with memberships }) ∧
      Edited db groupId (planOperations env (memberEdit env db idpId) ops newName).1 memberships := by
  induction ops generalizing newName db with
  | nil => exact ⟨db.memberships, rfl, edited_nil⟩
  | cons rawOp ops ih =>
    unfold applyGroupOperations planOperations
    cases hop : groupOperation env rawOp with
    | error e => exact ⟨db.memberships, rfl, edited_nil⟩
    | ok operation =>
      rw [lookup_bind_apply]
      cases operation with
      | rename name => exact ih (some name) hgroup
      | ignore => exact ih newName hgroup
      | members op value filter =>
        dsimp only
        cases hedit : memberEdit env db idpId op value filter with
        | error e =>
          have herror : patchOpMembers env idpId groupId op value filter db = (.error e, db) := by
            apply patchOpMembers_of_error
            rw [memberTarget_eq_map, hedit]
            rfl
          rw [bind_apply_of_error herror]
          exact ⟨db.memberships, rfl, edited_nil⟩
        | ok edit =>
          obtain ⟨between, hfirst, hbetween⟩ := patchOpMembers_edited hgroup hedit
          rw [bind_apply_of_ok hfirst]
          obtain ⟨memberships, hrest, hedited⟩ := @ih { db with memberships := between } newName hgroup
          exact ⟨memberships, hrest, hbetween.cons hedited⟩

def NoNetEdit (db : Db) (groupId : Id) (edits : List MemberEdit) : Prop :=
  ∀ userId, userId ∈ applyEdits edits (db.listGroupMembersForScim groupId) ↔
    userId ∈ db.listGroupMembersForScim groupId

theorem Edited.sameDirectory_iff (h : Edited db groupId edits memberships) :
    SameDirectory db { db with memberships } ↔ NoNetEdit db groupId edits := by
  constructor
  · intro hsame userId
    rw [← h.mem_listed, mem_listGroupMembersForScim, mem_listGroupMembersForScim, ← hsame.memberships]
    rfl
  · refine fun hnet => ⟨rfl, fun m => ?_, rfl, rfl, rfl⟩
    by_cases hm : m.groupId = groupId ∧ (db.getUserById m.userId).isSome
    · obtain ⟨rfl, huser⟩ := hm
      exact (h.inside m rfl huser).trans ((hnet m.userId).trans (edited_nil.inside m rfl huser).symm)
    · exact h.outside m hm

/-- Another group of the provider has the name, or the index of names speaks for a group of another kind. -/
def NameRefused (db : Db) (idpId groupId : Id) (newName : Text) : Prop :=
  (∃ other ∈ db.getGroupByIdpAndName idpId newName .saml, other.id ≠ groupId) ∨
    db.updateGroup groupId newName = .error (.uniqueViolation "idx_groups_idp_name_unique")

theorem updateGroup_eq_error {e : DbError} (h : db.updateGroup groupId newName = .error e) :
    e = .checkViolation "groups_name_check" ∨ e = .uniqueViolation "idx_groups_idp_name_unique" := by
  unfold Db.updateGroup at h
  dsimp only at h
  split_ifs at h
  · exact .inl (Except.error.inj h).symm
  · exact .inr (Except.error.inj h).symm

theorem renameGroup_cases :
    NameRefused db idpId groupId newName ∧ renameGroup idpId groupId newName db = (.error (nameTaken newName), db) ∨
      ¬ NameRefused db idpId groupId newName ∧
        ((∃ e, ¬ e.IsScim ∧ (∀ db', db.updateGroup groupId newName ≠ .ok ((), db')) ∧
            renameGroup idpId groupId newName db = (.error e, db)) ∨
          ∃ db', db.updateGroup groupId newName = .ok ((), db') ∧
            renameGroup idpId groupId newName db = (.ok (), db')) := by
  unfold renameGroup
  by_cases hother : ∀ group ∈ db.getGroupByIdpAndName idpId newName .saml, some groupId = some group.id
  · have hnone : ¬ ∃ other ∈ db.getGroupByIdpAndName idpId newName .saml, other.id ≠ groupId := by
      rintro ⟨other, hmem, hne⟩
      exact hne (Option.some.inj (hother other hmem)).symm
    have hcheck : checkDisplayNameUnique idpId newName (some groupId) db = (.ok (), db) := by
      rw [checkDisplayNameUnique, read_bind_apply, require, if_pos hother, pure_apply]
    rw [bind_apply_of_ok hcheck]
    cases hupdate : db.updateGroup groupId newName with
    | ok r =>
      refine .inr ⟨fun h => h.elim hnone (by simp [hupdate]), .inr ⟨r.2, rfl, ?_⟩⟩
      simp [onNameTaken, rescue, tx, transaction, hupdate, Except.mapError]
    | error e =>
      rcases updateGroup_eq_error hupdate with rfl | rfl
      · refine .inr ⟨fun h => h.elim hnone (by simp [hupdate]),
          .inl ⟨.database (.checkViolation "groups_name_check"), fun h => h, by simp, ?_⟩⟩
        simp [onNameTaken, rescue, tx, transaction, hupdate, Except.mapError]
      · refine .inl ⟨.inr hupdate, ?_⟩
        simp [onNameTaken, rescue, tx, transaction, hupdate, Except.mapError]
  · refine .inl ⟨.inl ?_, ?_⟩
    · push Not at hother
      obtain ⟨other, hmem, hne⟩ := hother
      exact ⟨other, hmem, fun h => hne (by rw [h])⟩
    · refine bind_apply_of_error ?_ _
      rw [checkDisplayNameUnique, read_bind_apply, require, if_neg hother, raise_apply]

theorem updateGroup_eq_ok (h : db.updateGroup groupId newName = .ok ((), db')) :
    db' = { db with groups := db.groups.map fun g => if g.id = groupId then { g with name := newName } else g } := by
  unfold Db.updateGroup at h
  dsimp only at h
  split_ifs at h
  exact (Except.ok_snd h).symm

theorem getGroupForIdp_of_updateGroup
    (h : db.updateGroup groupId newName = .ok ((), db')) (hgroup : (db.getGroupForIdp idpId groupId).isSome) :
    (db'.getGroupForIdp idpId groupId).isSome := by
  obtain ⟨g, hg⟩ := Option.isSome_iff_exists.mp hgroup
  have hmem := mem_of_find?_eq_some hg
  have hid := by simpa using find?_some hg
  rw [updateGroup_eq_ok h, Db.getGroupForIdp, find?_isSome]
  refine ⟨{ g with name := newName }, mem_map.mpr ⟨g, hmem, by rw [if_pos hid.1]⟩, by simpa using hid⟩

def PatchRejected (db : Db) (idpId groupId : Id) : Except Error (Option Text) → Prop
  | .error e => e.IsScim
  | .ok none => False
  | .ok (some newName) =>
    (∃ group ∈ db.getGroupForIdp idpId groupId, newName ≠ group.name) ∧ NameRefused db idpId groupId newName

/-- Whatever the operations before the rejection did to the members, together they did nothing. -/
def PatchGroupAllOrNothing (env : Env) (db : Db) (idpId groupId : Id) (patchBody : Json) : Prop :=
  (db.getGroupForIdp idpId groupId).isSome → ∀ ops, patchOperations patchBody = .ok ops →
    let (edits, result) := planOperations env (memberEdit env db idpId) ops none
    PatchRejected db idpId groupId result → NoNetEdit db groupId edits

theorem patchRejected_memberships {result : Except Error (Option Text)} :
    PatchRejected { db with memberships } idpId groupId result ↔ PatchRejected db idpId groupId result := by
  have hupdate : ∀ newName e, ({ db with memberships } : Db).updateGroup groupId newName = .error e ↔
      db.updateGroup groupId newName = .error e := by
    intro newName e
    unfold Db.updateGroup
    dsimp only
    split_ifs <;> simp
  cases result with
  | error e => exact Iff.rfl
  | ok newName =>
    cases newName with
    | none => exact Iff.rfl
    | some newName => exact and_congr Iff.rfl (or_congr Iff.rfl (hupdate newName _))

theorem applyNewName_cases (newName : Option Text) (hgroup : (db.getGroupForIdp idpId groupId).isSome) :
    PatchRejected db idpId groupId (.ok newName) ∧
        (∃ e, e.IsScim ∧ applyNewName idpId groupId newName db = (.error e, db)) ∨
      ¬ PatchRejected db idpId groupId (.ok newName) ∧
        ((∃ e, ¬ e.IsScim ∧ applyNewName idpId groupId newName db = (.error e, db)) ∨
          ∃ db', applyNewName idpId groupId newName db = (.ok (), db') ∧
            (db'.getGroupForIdp idpId groupId).isSome) := by
  cases newName with
  | none => exact .inr ⟨id, .inr ⟨db, rfl, hgroup⟩⟩
  | some newName =>
    by_cases hdiffers : ∃ group ∈ db.getGroupForIdp idpId groupId, newName ≠ group.name
    · have happly : applyNewName idpId groupId (some newName) db = renameGroup idpId groupId newName db := by
        rw [applyNewName, read_bind_apply, whenever, if_pos hdiffers]
      rw [happly]
      rcases renameGroup_cases with ⟨hrefused, hrename⟩ | ⟨hfree, hrename⟩
      · exact .inl ⟨⟨hdiffers, hrefused⟩, nameTaken newName, trivial, hrename⟩
      · refine .inr ⟨fun h => hfree h.2, hrename.imp ?_ ?_⟩
        · exact fun ⟨e, he, _, hrename⟩ => ⟨e, he, hrename⟩
        · exact fun ⟨db', hupdate, hrename⟩ => ⟨db', hrename, getGroupForIdp_of_updateGroup hupdate hgroup⟩
    · refine .inr ⟨fun h => hdiffers h.1, .inr ⟨db, ?_, hgroup⟩⟩
      rw [applyNewName, read_bind_apply, whenever, if_neg hdiffers, pure_apply]

theorem patchGroup_cleanRejection_iff (env : Env) (db : Db) (idpId groupId : Id) (patchBody : Json) :
    CleanRejection db (patchGroup env idpId groupId patchBody db) ↔
      PatchGroupAllOrNothing env db idpId groupId patchBody := by
  unfold patchGroup PatchGroupAllOrNothing
  by_cases hgroup : (db.getGroupForIdp idpId groupId).isSome
  swap
  · have hnone : db.getGroupForIdp idpId groupId = none := by simpa using hgroup
    simp only [ensureGroupForIdp, orRaise_bind_apply, hnone]
    exact iff_of_true cleanRejection_of_unchanged (by simp)
  obtain ⟨group, hsome⟩ := Option.isSome_iff_exists.mp hgroup
  simp only [ensureGroupForIdp, orRaise_bind_apply, hsome]
  cases hops : patchOperations patchBody with
  | error e =>
    exact iff_of_true cleanRejection_of_unchanged (by simp)
  | ok ops =>
    rw [lookup_bind_apply]
    obtain ⟨memberships, hloop, hedited⟩ := applyGroupOperations_apply env ops none hgroup
    simp only [Option.isSome_some, forall_const, Except.ok.injEq, forall_eq', ← hedited.sameDirectory_iff]
    cases hresult : (planOperations env (memberEdit env db idpId) ops none).2 with
    | error e =>
      rw [hresult] at hloop
      rw [bind_apply_of_error hloop]
      by_cases he : e.IsScim
      · rw [cleanRejection_error_iff he]
        exact ⟨fun h _ => h, fun h => h he⟩
      · exact iff_of_true (cleanRejection_of_not_isScim he) fun h => absurd h he
    | ok newName =>
      rw [hresult] at hloop
      rw [bind_apply_of_ok hloop]
      rcases @applyNewName_cases { db with memberships } idpId groupId newName hgroup with
        ⟨hrejected, e, he, hname⟩ | ⟨haccepted, ⟨e, he, hname⟩ | ⟨db', hname, hgroup'⟩⟩
      · rw [patchRejected_memberships] at hrejected
        rw [bind_apply_of_error hname, cleanRejection_error_iff he]
        exact ⟨fun h _ => h, fun h => h hrejected⟩
      · rw [patchRejected_memberships] at haccepted
        rw [bind_apply_of_error hname]
        exact iff_of_true (cleanRejection_of_not_isScim he) fun h => absurd h haccepted
      · rw [patchRejected_memberships] at haccepted
        obtain ⟨resource, hpayload⟩ := groupPayload_apply hgroup'
        rw [bind_apply_of_ok hname, hpayload]
        exact iff_of_true cleanRejection_ok fun h => absurd h haccepted

def replaceMembers (env : Env) (idpId groupId : Id) (rawMembers : Json) : Service GroupResource := do
  whenever (¬ rawMembers.isNull) do
    let targetIds ← lookup fun db => resolveMembers env db idpId rawMembers
    applyMembershipDiff groupId targetIds
  groupPayload idpId groupId

theorem replaceMembers_cases (env : Env) (rawMembers : Json) (hgroup : (db.getGroupForIdp idpId groupId).isSome) :
    (∃ e, ¬ rawMembers.isNull ∧ resolveMembers env db idpId rawMembers = .error e ∧
        replaceMembers env idpId groupId rawMembers db = (.error e, db)) ∨
      (rawMembers.isNull ∨ ∃ ids, resolveMembers env db idpId rawMembers = .ok ids) ∧
        ∃ resource db', replaceMembers env idpId groupId rawMembers db = (.ok resource, db') := by
  unfold replaceMembers
  by_cases hnull : rawMembers.isNull = true
  · obtain ⟨resource, hpayload⟩ := groupPayload_apply hgroup
    rw [whenever, if_neg (not_not.mpr hnull), pure_bind_apply, hpayload]
    exact .inr ⟨.inl hnull, resource, db, rfl⟩
  · rw [whenever, if_pos hnull]
    cases hresolve : resolveMembers env db idpId rawMembers with
    | error e =>
      refine .inl ⟨e, hnull, rfl, bind_apply_of_error (bind_apply_of_error ?_ _) _⟩
      rw [lookup, hresolve]
    | ok ids =>
      obtain ⟨memberships, hdiff, -⟩ := applyMembershipDiff_apply (isSome_getGroupById_of_getGroupForIdp hgroup)
        fun userId huser => isSome_of_resolveMembers hresolve huser
      obtain ⟨resource, hpayload⟩ := @groupPayload_apply { db with memberships } idpId groupId hgroup
      refine .inr ⟨.inr ⟨ids, rfl⟩, resource, _, (bind_apply_of_ok (a := ()) ?_ _).trans hpayload⟩
      rw [bind_apply_of_ok (show lookup _ db = (.ok ids, db) by rw [lookup, hresolve]), hdiff]

def ReplaceGroupAllOrNothing (env : Env) (db : Db) (idpId groupId : Id) (payload : Json.Dict) : Prop :=
  ∀ group newName db', db.getGroupForIdp idpId groupId = some group → extractDisplayName payload = .ok (some newName) →
    newName ≠ group.name → ¬ NameRefused db idpId groupId newName → db.updateGroup groupId newName = .ok ((), db') →
      (Json.field payload "members").isNull ∨
        ∀ e, resolveMembers env db idpId (Json.field payload "members") = .error e → ¬ e.IsScim

theorem not_sameDirectory_of_renamed {group : Group}
    (hgroup : db.getGroupForIdp idpId groupId = some group) (hname : newName ≠ group.name)
    (h : db.updateGroup groupId newName = .ok ((), db')) : ¬ SameDirectory db db' := by
  intro hsame
  have hgroups := hsame.groups
  rw [updateGroup_eq_ok h] at hgroups
  have hfixed := map_eq_map_iff.mp (hgroups.trans (map_id _).symm) group (mem_of_find?_eq_some hgroup)
  have hid := by simpa using find?_some hgroup
  rw [if_pos hid.1] at hfixed
  exact hname (congrArg Group.name hfixed)

theorem replaceMembers_cleanRejection_iff {group : Group} {rawMembers : Json}
    (hgroup : db.getGroupForIdp idpId groupId = some group) (hname : newName ≠ group.name)
    (hupdate : db.updateGroup groupId newName = .ok ((), db')) :
    CleanRejection db (replaceMembers env idpId groupId rawMembers db') ↔
      rawMembers.isNull ∨ ∀ e, resolveMembers env db idpId rawMembers = .error e → ¬ e.IsScim := by
  have hresolve : resolveMembers env db' idpId rawMembers = resolveMembers env db idpId rawMembers := by
    rw [updateGroup_eq_ok hupdate]
    rfl
  have hcases := replaceMembers_cases env rawMembers
    (getGroupForIdp_of_updateGroup hupdate (show (db.getGroupForIdp idpId groupId).isSome by rw [hgroup]; rfl))
  rw [hresolve] at hcases
  rcases hcases with ⟨e, hnull, hfailed, htail⟩ | ⟨hfound, resource, db'', htail⟩
  · rw [htail, hfailed]
    by_cases he : e.IsScim
    · rw [cleanRejection_error_iff he]
      refine iff_of_false (not_sameDirectory_of_renamed hgroup hname hupdate) fun h => ?_
      exact h.elim hnull fun h => h e rfl he
    · exact iff_of_true (cleanRejection_of_not_isScim he) (.inr fun e' he' => Except.error.inj he' ▸ he)
  · rw [htail]
    refine iff_of_true cleanRejection_ok (hfound.imp_right fun ⟨ids, hids⟩ e he => ?_)
    rw [hids] at he
    cases he

theorem replaceGroup_cleanRejection_iff (env : Env) (db : Db) (idpId groupId : Id) (payload : Json.Dict) :
    CleanRejection db (replaceGroup env idpId groupId payload db) ↔
      ReplaceGroupAllOrNothing env db idpId groupId payload := by
  unfold replaceGroup ReplaceGroupAllOrNothing
  cases hgroup : db.getGroupForIdp idpId groupId with
  | none =>
    simp only [ensureGroupForIdp, orRaise_bind_apply, hgroup]
    exact iff_of_true cleanRejection_of_unchanged (by simp)
  | some group =>
    simp only [ensureGroupForIdp, orRaise_bind_apply, hgroup]
    cases hdisplay : extractDisplayName payload with
    | error e =>
      exact iff_of_true cleanRejection_of_unchanged (by simp)
    | ok displayName =>
      change CleanRejection db ((whenever (displayName.getD group.name ≠ group.name)
        (renameGroup idpId groupId (displayName.getD group.name)) >>= fun _ =>
          replaceMembers env idpId groupId (Json.field payload "members")) db) ↔ _
      by_cases hrename : displayName.getD group.name = group.name
      · rw [whenever, if_neg (not_not.mpr hrename), pure_bind_apply]
        refine iff_of_true ?_ ?_
        · have hsome : (db.getGroupForIdp idpId groupId).isSome := by simp [hgroup]
          rcases replaceMembers_cases env (Json.field payload "members") hsome with
            ⟨e, -, -, htail⟩ | ⟨-, resource, db', htail⟩
          · rw [htail]
            exact cleanRejection_of_unchanged
          · rw [htail]
            exact cleanRejection_ok
        · rintro group' newName db' ⟨⟩ ⟨⟩ hne
          exact absurd hrename hne
      · rw [whenever, if_pos hrename]
        obtain ⟨newName, rfl⟩ : ∃ newName, displayName = some newName := by
          cases displayName with
          | none => exact absurd rfl hrename
          | some newName => exact ⟨newName, rfl⟩
        rcases renameGroup_cases with
          ⟨hrefused, happly⟩ | ⟨hfree, ⟨e, he, hnone, happly⟩ | ⟨db', hupdate, happly⟩⟩
        · rw [bind_apply_of_error happly]
          refine iff_of_true cleanRejection_of_unchanged ?_
          rintro group' newName' db' - ⟨⟩ - hfree
          exact absurd hrefused hfree
        · rw [bind_apply_of_error happly]
          refine iff_of_true cleanRejection_of_unchanged ?_
          rintro group' newName' db' - ⟨⟩ - - hupdate
          exact absurd hupdate (hnone db')
        · rw [bind_apply_of_ok happly, replaceMembers_cleanRejection_iff hgroup hrename hupdate]
          constructor
          · rintro h group' newName' db'' - - - - -
            exact h
          · exact fun h => h group newName db' rfl rfl hrename hfree hupdate

end Members

end Scim

end WeftId
