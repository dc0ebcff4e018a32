import WeftId.Scim.GroupPatch

/-!
One `remove` on `members[...]`.  A bracket that does not read as `attr eq "value"` is dropped, and the
operation then takes out what its value lists or, without a value, every member.
-/

namespace WeftId.Scim

open Proc

variable {env : Env} {db : Db} {idpId groupId : Id} {path refValue attr : Text} {filter : Option (Text × Text)}

def bracket (path : Text) : Option Text :=
  if '[' ∈ stripUrn path ∧ ']' ∈ (stripUrn path).afterFirst '[' then
    some (Text.strip (((stripUrn path).afterFirst '[').takeWhile (· ≠ ']')))
  else none

/-- The brackets hold the comparison `attr eq refValue`. -/
def EqFilter (env : Env) (path attr refValue : Text) : Prop :=
  ∃ body op raw, bracket path = some body ∧ Text.splitWords 2 body = [attr, op, raw] ∧
    env.lower op = "eq" ∧ refValue = unquote raw.strip

def NamesMembers (env : Env) (path : Text) : Prop :=
  (env.lower (enterpriseUserSchema ++ ":")).isPrefixOf (env.lower path.strip) = false ∧
    env.lower ((stripUrn path).takeWhile (· ≠ '[')) = "members"

theorem parseEqFilter_eq_some_iff {body : Text} : parseEqFilter env body = some (attr, refValue) ↔
      ∃ op raw, Text.splitWords 2 body = [attr, op, raw] ∧ env.lower op = "eq" ∧ refValue = unquote raw.strip := by
  unfold parseEqFilter
  split
  · rename_i attr' op raw hwords
    rw [hwords]
    by_cases hop : env.lower op = "eq"
    · rw [if_pos hop]
      constructor
      · intro h
        obtain ⟨rfl, rfl⟩ := Prod.mk.inj (Option.some.inj h)
        exact ⟨op, raw, rfl, hop, rfl⟩
      · rintro ⟨op', raw', hsame, -, rfl⟩
        obtain ⟨rfl, rfl, rfl⟩ := hsame
        rfl
    · rw [if_neg hop]
      refine ⟨nofun, ?_⟩
      rintro ⟨op', raw', hsame, hop', -⟩
      obtain ⟨rfl, rfl, rfl⟩ := hsame
      exact absurd hop' hop
  · rename_i hwords
    refine ⟨nofun, ?_⟩
    rintro ⟨op, raw, hsame, -⟩
    exact absurd hsame (hwords attr op raw)

theorem bind_bracket_eq_some_iff :
    (bracket path).bind (parseEqFilter env) = some (attr, refValue) ↔ EqFilter env path attr refValue := by
  rw [Option.bind_eq_some_iff]
  simp only [parseEqFilter_eq_some_iff]
  constructor
  · rintro ⟨body, hbody, op, raw, h⟩
    exact ⟨body, op, raw, hbody, h⟩
  · rintro ⟨body, op, raw, hbody, h⟩
    exact ⟨body, hbody, op, raw, h⟩

theorem normalise_of_not_enterprise
    (h : (env.lower (enterpriseUserSchema ++ ":")).isPrefixOf (env.lower path.strip) = false) :
    normalisePatchPathWithFilter env (some path) =
      (some (env.lower ((stripUrn path).takeWhile (· ≠ '['))), (bracket path).bind (parseEqFilter env)) := by
  simp only [normalisePatchPathWithFilter, h, Bool.false_eq_true, if_false, bracket]
  by_cases hopen : '[' ∈ stripUrn path
  · by_cases hclose : ']' ∈ (stripUrn path).afterFirst '['
    · simp only [hopen, hclose, and_self, if_true, Option.bind_some]
    · simp only [hopen, hclose, and_false, if_true, if_false, Option.bind_none]
  · have hwhole : (stripUrn path).takeWhile (· ≠ '[') = stripUrn path := by
      rw [List.takeWhile_eq_self_iff]
      intro c hc
      have hne : c ≠ '[' := fun hce => hopen (hce ▸ hc)
      simpa using hne
    simp only [hopen, false_and, if_false, Option.bind_none, hwhole]

theorem patchAssertPath_eq_members_iff : patchAssertPath env (some path) = .ok (.members filter) ↔
      NamesMembers env path ∧ filter = (bracket path).bind (parseEqFilter env) := by
  unfold patchAssertPath NamesMembers
  by_cases henterprise :
      (env.lower (enterpriseUserSchema ++ ":")).isPrefixOf (env.lower path.strip) = false
  · rw [normalise_of_not_enterprise henterprise]
    dsimp only
    by_cases hname : env.lower ((stripUrn path).takeWhile (· ≠ '[')) = "members"
    · rw [if_pos hname]
      simp only [Except.ok.injEq, GroupPath.members.injEq, henterprise, hname, true_and]
      exact eq_comm
    · have hno : ¬ (((env.lower (enterpriseUserSchema ++ ":")).isPrefixOf (env.lower path.strip) = false ∧
          env.lower ((stripUrn path).takeWhile (· ≠ '[')) = "members") ∧
            filter = (bracket path).bind (parseEqFilter env)) := fun h => hname h.1.2
      refine iff_of_false ?_ hno
      split_ifs <;> simp
  · refine iff_of_false ?_ fun h => henterprise h.1.1
    rw [Bool.not_eq_false] at henterprise
    simp only [normalisePatchPathWithFilter]
    split_ifs
    simp

def onlyOperation (rawOp : Json) : Json := .obj [("Operations", .arr [rawOp])]

section Remove

variable {rawOp value : Json} {fields : Json.Dict} {userId : Id}

theorem groupOperation_remove (hop : parsePatchOp env rawOp = .ok (.remove, some path, fields)) :
    groupOperation env rawOp =
      match patchAssertPath env (some path) with
      | .error e => .error e
      | .ok .displayName => .error (.scim 400 "`remove` on `displayName` is not supported." (some "invalidValue"))
      | .ok .externalId => .ok .ignore
      | .ok (.members filter) => .ok (.members .remove (Json.field fields "value") filter) := by
  simp only [groupOperation, hop, bind, Except.bind]
  rcases patchAssertPath env (some path) with e | (filter | _ | _) <;> rfl

theorem patchGroup_onlyOperation (hgroup : (db.getGroupForIdp idpId groupId).isSome) :
    patchGroup env idpId groupId (onlyOperation rawOp) db =
      (do
        let newName ← applyGroupOperations env idpId groupId [rawOp] none
        applyNewName idpId groupId newName
        groupPayload idpId groupId) db := by
  obtain ⟨g, hg⟩ := Option.isSome_iff_exists.mp hgroup
  simp only [patchGroup, ensureGroupForIdp, orRaise_bind_apply, hg]
  rfl

theorem applyGroupOperations_of_error {e : Error} (h : groupOperation env rawOp = .error e) :
    applyGroupOperations env idpId groupId [rawOp] none db = (.error e, db) :=
  bind_apply_of_error (show lookup _ db = (.error e, db) by rw [lookup, h]) _

theorem applyGroupOperations_of_members {op : PatchOp} (h : groupOperation env rawOp = .ok (.members op value filter)) :
    applyGroupOperations env idpId groupId [rawOp] none db =
      (do
        patchOpMembers env idpId groupId op value filter
        pure none : Service (Option Text)) db := by
  rw [applyGroupOperations, bind_apply_of_ok (show lookup _ db = (.ok (.members op value filter), db) by
    rw [lookup, h])]
  rfl

/-- What a `remove` takes out: members that are addressed or listed, and only if the path names the members. -/
def Removes (env : Env) (db : Db) (idpId groupId : Id) (path : Text) (value : Json) (userId : Id) : Prop :=
  NamesMembers env path ∧ userId ∈ db.listGroupMembersForScim groupId ∧
    ∃ removed, removedMembers env db idpId value ((bracket path).bind (parseEqFilter env))
      (db.listGroupMembersForScim groupId) = .ok removed ∧ userId ∈ removed

theorem applyGroupOperations_of_ignore (h : groupOperation env rawOp = .ok .ignore) :
    applyGroupOperations env idpId groupId [rawOp] none db = (.ok none, db) :=
  bind_apply_of_ok (show lookup _ db = (.ok GroupOperation.ignore, db) by rw [lookup, h]) _

/-- An operation whose path is not the members removes none. -/
theorem iff_and_not_removes {p q : Prop} (hpath : ∀ filter, patchAssertPath env (some path) ≠ .ok (.members filter)) :
    p ↔ p ∧ ¬ (q ∧ Removes env db idpId groupId path value userId) :=
  (and_iff_left fun h => hpath _ (patchAssertPath_eq_members_iff.mpr ⟨h.2.1, rfl⟩)).symm

theorem mem_memberships_patchGroup_remove (hop : parsePatchOp env rawOp = .ok (.remove, some path, fields))
    (hgroup : (db.getGroupForIdp idpId groupId).isSome) (m : Membership) :
    m ∈ ((patchGroup env idpId groupId (onlyOperation rawOp)).exec db).memberships ↔
      m ∈ db.memberships ∧
        ¬ (m.groupId = groupId ∧ Removes env db idpId groupId path (Json.field fields "value") m.userId) := by
  have hoperation := groupOperation_remove hop
  rw [exec, patchGroup_onlyOperation hgroup]
  cases hpath : patchAssertPath env (some path) with
  | error e =>
    rw [hpath] at hoperation
    rw [bind_apply_of_error (applyGroupOperations_of_error hoperation)]
    exact iff_and_not_removes (by simp [hpath])
  | ok groupPath =>
    cases groupPath with
    | displayName =>
      rw [hpath] at hoperation
      rw [bind_apply_of_error (applyGroupOperations_of_error hoperation)]
      exact iff_and_not_removes (by simp [hpath])
    | externalId =>
      rw [hpath] at hoperation
      obtain ⟨resource, hpayload⟩ := groupPayload_apply hgroup
      rw [bind_apply_of_ok (applyGroupOperations_of_ignore hoperation), applyNewName, pure_bind_apply, hpayload]
      exact iff_and_not_removes (by simp [hpath])
    | members filter =>
      rw [hpath] at hoperation
      obtain ⟨hnames, rfl⟩ := patchAssertPath_eq_members_iff.mp hpath
      have htarget := memberTarget_remove env db idpId (Json.field fields "value")
        ((bracket path).bind (parseEqFilter env)) (db.listGroupMembersForScim groupId)
      have happly : applyGroupOperations env idpId groupId [rawOp] none db = _ :=
        applyGroupOperations_of_members hoperation
      cases hremoved : removedMembers env db idpId (Json.field fields "value")
          ((bracket path).bind (parseEqFilter env)) (db.listGroupMembersForScim groupId) with
      | error e =>
        rw [hremoved] at htarget
        rw [bind_apply_of_error (happly.trans (bind_apply_of_error (patchOpMembers_of_error htarget) _))]
        refine (and_iff_left fun h => ?_).symm
        obtain ⟨-, -, removed, hok, -⟩ := h.2
        simp [hremoved] at hok
      | ok removed =>
        rw [hremoved] at htarget
        obtain ⟨memberships, hpatch, hmem⟩ := patchOpMembers_of_ok hgroup htarget
        have hgroup' : (({ db with memberships } : Db).getGroupForIdp idpId groupId).isSome := hgroup
        obtain ⟨resource, hpayload⟩ := groupPayload_apply hgroup'
        rw [bind_apply_of_ok (happly.trans (bind_apply_of_ok hpatch _)), applyNewName, pure_bind_apply, hpayload]
        have hremoves : Removes env db idpId groupId path (Json.field fields "value") m.userId ↔
            m.userId ∈ db.listGroupMembersForScim groupId ∧ m.userId ∈ removed := by
          simp [Removes, hnames, hremoved]
        have hlisted : m.userId ∈ db.listGroupMembersForScim groupId → _ := mem_memberships_of_listed
        rw [hmem, List.mem_filter, decide_eq_true_eq]
        obtain ⟨g, u⟩ := m
        by_cases hg : g = groupId
        · subst hg
          tauto
        · tauto

theorem patchGroup_of_group_none (hgroup : db.getGroupForIdp idpId groupId = none) (body : Json) :
    patchGroup env idpId groupId body db = (.error (.scim 404 "Group not found"), db) := by
  simp only [patchGroup, ensureGroupForIdp, orRaise_bind_apply, hgroup]

/-- The operation is rejected and the membership left alone, or every user it takes out of the group is the
one that the filter of the path addresses. -/
def RemovesOnlyAddressed (env : Env) (path : Text) (groupId : Id) (db : Db)
    (outcome : Except Error GroupResource × Db) : Prop :=
  (∃ statusCode detail scimType, outcome.1 = .error (.scim statusCode detail scimType)) ∧
      outcome.2.memberships = db.memberships ∨
    ∀ userId, ⟨groupId, userId⟩ ∈ db.memberships → ⟨groupId, userId⟩ ∉ outcome.2.memberships →
      ∃ attr refValue, EqFilter env path attr refValue ∧ Numeral.readUuid refValue.strip = some userId

/-- The value of an operation names a user, or has none and so names every member. -/
def ValueNames (env : Env) (db : Db) (idpId : Id) (value : Json) (userId : Id) : Prop :=
  value = .null ∨ value = .arr [] ∨
    ∃ items ids, value = .arr items ∧ resolveMembers env db idpId value = .ok ids ∧ userId ∈ ids

/-- The path reads as a filter that finds no member by its `externalId`, or as no filter while the value of
the operation names no member either. -/
def FilterSafe (env : Env) (db : Db) (idpId groupId : Id) (path : Text) (value : Json) : Prop :=
  (db.getGroupForIdp idpId groupId).isSome → NamesMembers env path →
    (∀ attr refValue, EqFilter env path attr refValue → env.lower attr = "value" →
      ∀ userId ∈ db.listGroupMembersForScim groupId, resolveMemberRef env db idpId refValue = .ok userId →
        Numeral.readUuid refValue.strip = some userId) ∧
    ((∀ attr refValue, ¬ EqFilter env path attr refValue) →
      ∀ userId ∈ db.listGroupMembersForScim groupId, ¬ ValueNames env db idpId value userId)

theorem valueNames_iff (hlisted : userId ∈ db.listGroupMembersForScim groupId) : ValueNames env db idpId value userId ↔
      ∃ removed, removedMembers env db idpId value none (db.listGroupMembersForScim groupId) = .ok removed ∧
        userId ∈ removed := by
  unfold ValueNames
  cases value with
  | null => simp [removedMembers, hlisted]
  | arr items =>
    cases items with
    | nil => simp [removedMembers, hlisted]
    | cons => simp [removedMembers]
  | _ => simp [removedMembers]

theorem exists_removedMembers_filter {currentIds : List Id} :
    (∃ removed, removedMembers env db idpId value (some (attr, refValue)) currentIds = .ok removed ∧ userId ∈ removed) ↔
      env.lower attr = "value" ∧ resolveMemberRef env db idpId refValue = .ok userId := by
  by_cases hattr : env.lower attr = "value"
  · cases hres : resolveMemberRef env db idpId refValue with
    | error e => simp [removedMembers, hattr, hres, Except.map]
    | ok found => simp [removedMembers, hattr, hres, Except.map, eq_comm]
  · refine iff_of_false ?_ fun h => hattr h.1
    simp only [removedMembers, if_neg hattr, reduceCtorEq, false_and, exists_false, not_false_eq_true]

theorem removesOnlyAddressed_iff (hop : parsePatchOp env rawOp = .ok (.remove, some path, fields))
    (hgroup : (db.getGroupForIdp idpId groupId).isSome) :
    RemovesOnlyAddressed env path groupId db (patchGroup env idpId groupId (onlyOperation rawOp) db) ↔
      ∀ userId, Removes env db idpId groupId path (Json.field fields "value") userId →
        ∃ attr refValue, EqFilter env path attr refValue ∧ Numeral.readUuid refValue.strip = some userId := by
  have hmem := mem_memberships_patchGroup_remove hop hgroup
  constructor
  · intro h userId hremoves
    have hbefore := mem_memberships_of_listed hremoves.2.1
    have hafter : ⟨groupId, userId⟩ ∉ (patchGroup env idpId groupId (onlyOperation rawOp) db).2.memberships :=
      fun hin => ((hmem _).mp hin).2 ⟨rfl, hremoves⟩
    rcases h with ⟨-, hsame⟩ | h
    · exact absurd (hsame ▸ hbefore) hafter
    · exact h userId hbefore hafter
  · intro h
    refine .inr fun userId hbefore hafter => h userId ?_
    by_contra hremoves
    exact hafter ((hmem _).mpr ⟨hbefore, fun hin => hremoves hin.2⟩)

end Remove

def staffTenant : Db :=
  { nextId := 20
    users := [{ id := 1, samlIdpId := some 10 }, { id := 2, samlIdpId := some 10 }]
    identityProviders := [{ id := 10, name := "Okta" }]
    groups := [{ id := 5, name := "Staff", groupType := .idp, idpId := some 10 }]
    memberships := [⟨5, 1⟩, ⟨5, 2⟩] }

def removeOperation (path : Text) : Json.Dict := [("op", .str "remove"), ("path", .str path)]

end WeftId.Scim
