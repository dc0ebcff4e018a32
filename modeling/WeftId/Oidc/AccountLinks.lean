import WeftId.Oidc.Provisioning

/-!
Sign-ins through OIDC connections never take over an account: an account that existed before is reached
through its link, or through an address that the rules of email linking accept.
-/

namespace WeftId

open List Proc Run

structure LeavesAccounts (db db' : Db) : Prop where
  users : db'.users = db.users
  userEmails : db'.userEmails = db.userEmails
  links : db'.oidcIdpUserLinks = db.oidcIdpUserLinks
  connections : db'.oidcConnections = db.oidcConnections
  nextId_le : db.nextId ≤ db'.nextId

theorem LeavesAccounts.refl (db : Db) : LeavesAccounts db db := ⟨rfl, rfl, rfl, rfl, le_refl _⟩

instance : Std.Refl LeavesAccounts := ⟨LeavesAccounts.refl⟩

instance : IsTrans Db LeavesAccounts :=
  ⟨fun _ _ _ h h' => ⟨h'.users.trans h.users, h'.userEmails.trans h.userEmails, h'.links.trans h.links,
    h'.connections.trans h.connections, Nat.le_trans h.nextId_le h'.nextId_le⟩⟩

variable {userId : Id} {db : Db}

theorem Regroups.leavesAccounts {db' : Db} (h : Regroups userId db db') : LeavesAccounts db db' where
  users := by simpa only [Db.outsideGroups] using congrArg Db.users h.outside
  userEmails := by simpa only [Db.outsideGroups] using congrArg Db.userEmails h.outside
  links := by simpa only [Db.outsideGroups] using congrArg Db.oidcIdpUserLinks h.outside
  connections := by simpa only [Db.outsideGroups] using congrArg Db.oidcConnections h.outside
  nextId_le := h.nextId_le

theorem within_leavesAccounts {α : Type} {x : Service α} (h : x.Within (Regroups userId)) :
    x.Within LeavesAccounts := h.mono fun _ _ => Regroups.leavesAccounts

theorem leavesAccounts_replaceOidcIdpAttributes {idpId : Id} {serialized : List (Text × Text)} :
    LeavesAccounts db (db.replaceOidcIdpAttributes userId idpId serialized) := by
  unfold Db.replaceOidcIdpAttributes
  rw [replaceIdpAttributes_eq]
  exact ⟨rfl, rfl, rfl, rfl, le_refl _⟩

variable {env : Env} {row : UserEmail} {user existing : User} {id : Id} {connection : UpstreamConnection}
  {claims : Json.Dict}
  {email sub : Text} {verifiedOnly unconfirmed : Bool}

theorem within_applyOidcIdpAttributesSafe :
    (applyOidcIdpAttributesSafe env userId connection claims).Within LeavesAccounts := by
  refine within_rescue (.orRaise fun _ => within_tx fun db _ db' hok => ?_) fun _ => within_pure ()
  split at hok
  · cases hok
  · obtain rfl := Except.ok_snd hok
    exact leavesAccounts_replaceOidcIdpAttributes

theorem within_syncGroupsFromClaims : (syncGroupsFromClaims userId connection claims).Within LeavesAccounts := by
  refine within_bind (within_leavesAccounts within_ensureUserInBaseGroup) fun _ => ?_
  dsimp only
  split
  · exact within_pure ()
  · split
    · exact within_pure ()
    · exact within_bind (within_leavesAccounts within_syncUserIdpGroups) fun _ => within_pure ()

theorem within_completeOidcSignIn : (completeOidcSignIn env userId connection claims).Within LeavesAccounts :=
  within_bind within_applyOidcIdpAttributesSafe fun _ =>
    within_syncGroupsFromClaims

theorem within_autoAssignUserToDomainGroups :
    (autoAssignUserToDomainGroups env userId email).Within LeavesAccounts := by
  refine within_whenever fun _ => .read fun linked => within_forEach fun groupId _ => ?_
  refine within_bind (within_tx fun db n db' hok => ?_) fun _ => within_pure ()
  rw [(Db.insertMembership_eq_ok hok).1]
  exact ⟨rfl, rfl, rfl, rfl, le_refl _⟩

namespace Db

structure LinkTable (db : Db) : Prop where
  one_user : ∀ l ∈ db.oidcIdpUserLinks, ∀ l' ∈ db.oidcIdpUserLinks, l.idpId = l'.idpId → l.sub = l'.sub →
    l.userId = l'.userId
  one_subject : ∀ l ∈ db.oidcIdpUserLinks, ∀ l' ∈ db.oidcIdpUserLinks, l.idpId = l'.idpId → l.userId = l'.userId →
    l.sub = l'.sub
  connected : ∀ l ∈ db.oidcIdpUserLinks, (db.getConnection l.idpId).isSome
  fresh : ∀ u ∈ db.users, u.id < db.nextId

variable {db db' : Db} {idpId userId : Id} {sub email : Text}

theorem LinkTable.leaves (h : db.LinkTable) (hleaves : LeavesAccounts db db') : db'.LinkTable := by
  obtain ⟨husers, -, hlinks, hconnections, hnext⟩ := hleaves
  refine ⟨?_, ?_, ?_, ?_⟩
  · rw [hlinks]
    exact h.one_user
  · rw [hlinks]
    exact h.one_subject
  · rw [hlinks]
    unfold getConnection
    rw [hconnections]
    exact h.connected
  · rw [husers]
    exact fun u hu => lt_of_lt_of_le (h.fresh u hu) hnext

theorem createLink_eq_ok (h : db.createLink idpId sub userId = .ok ((), db')) :
    (∀ l ∈ db.oidcIdpUserLinks, l.idpId = idpId → l.sub ≠ sub) ∧
      (∀ l ∈ db.oidcIdpUserLinks, l.idpId = idpId → l.userId ≠ userId) ∧ (db.getConnection idpId).isSome ∧
      db' = { db with oidcIdpUserLinks := db.oidcIdpUserLinks ++ [⟨idpId, sub, userId⟩] } := by
  unfold createLink at h
  split at h
  · cases h
  split at h
  · cases h
  split at h
  · cases h
  split at h
  · cases h
  split at h
  · cases h
  rename_i hlength hsub huser hconnection hexists
  refine ⟨?_, ?_, ?_, (Except.ok_snd h).symm⟩
  · simpa using hsub
  · simpa using huser
  · exact Option.isSome_iff_ne_none.mpr hconnection

theorem LinkTable.createLink (h : db.LinkTable) (hok : db.createLink idpId sub userId = .ok ((), db')) :
    db'.LinkTable := by
  obtain ⟨hsub, huser, hconnection, rfl⟩ := createLink_eq_ok hok
  have hmem : ∀ {l}, l ∈ db.oidcIdpUserLinks ++ [⟨idpId, sub, userId⟩] →
      l ∈ db.oidcIdpUserLinks ∨ l = ⟨idpId, sub, userId⟩ :=
    fun hl => (mem_append.mp hl).imp_right mem_singleton.mp
  refine ⟨fun l hl l' hl' hidp hsame => ?_, fun l hl l' hl' hidp hsame => ?_, fun l hl => ?_, h.fresh⟩
  · rcases hmem hl with hl | rfl <;> rcases hmem hl' with hl' | rfl
    · exact h.one_user l hl l' hl' hidp hsame
    · exact absurd hsame (hsub l hl hidp)
    · exact absurd hsame.symm (hsub l' hl' hidp.symm)
    · rfl
  · rcases hmem hl with hl | rfl <;> rcases hmem hl' with hl' | rfl
    · exact h.one_subject l hl l' hl' hidp hsame
    · exact absurd hsame (huser l hl hidp)
    · exact absurd hsame.symm (huser l' hl' hidp.symm)
    · rfl
  · rcases hmem hl with hl | rfl
    · exact h.connected l hl
    · exact hconnection

theorem LinkTable.createUser (h : db.LinkTable) {firstName lastName : Text} {role : Role}
    (hok : db.createUser firstName lastName role = .ok (id, db')) : db'.LinkTable := by
  obtain ⟨-, rfl⟩ := createUser_eq_ok hok
  refine ⟨h.one_user, h.one_subject, h.connected, fun u hu => ?_⟩
  rcases mem_concat_iff.mp hu with hu | rfl
  · exact Nat.lt_succ_of_lt (h.fresh u hu)
  · exact Nat.lt_succ_self _

theorem LinkTable.readdress (h : db.LinkTable) {userEmails : List UserEmail} {nextId : Id}
    (hnext : db.nextId ≤ nextId) :
    ({ db with userEmails, nextId } : Db).LinkTable :=
  ⟨h.one_user, h.one_subject, h.connected, fun u hu => lt_of_lt_of_le (h.fresh u hu) hnext⟩

theorem setPrimaryEmail_eq_ok {emailId : Id} (h : db.setPrimaryEmail emailId = .ok ((), db')) : db' = { db with
    userEmails := db.userEmails.map fun e => if e.id = emailId then { e with isPrimary := true } else e } := by
  unfold setPrimaryEmail at h
  split at h
  · cases h
  exact (Except.ok_snd h).symm

/-- The address can belong to this user only. -/
def OnlyAddress (env : Env) (email : Text) (userId : Id) (db : Db) : Prop :=
  ∀ e ∈ db.userEmails, sameEmail env e.email email → e.userId = userId

theorem OnlyAddress.leaves (h : OnlyAddress env email userId db) (hleaves : LeavesAccounts db db') :
    OnlyAddress env email userId db' := by
  unfold OnlyAddress
  rw [hleaves.userEmails]
  exact h

theorem onlyAddress_concat (h : db.emailExists env email = false) (hrow : row.userId = userId)
    (hemails : db'.userEmails = db.userEmails ++ [row]) : OnlyAddress env email userId db' := by
  intro e he hsame
  rw [hemails] at he
  rcases mem_concat_iff.mp he with he | rfl
  · have hany : db.emailExists env email = true := any_eq_true.mpr ⟨e, he, decide_eq_true hsame⟩
    rw [h] at hany
    cases hany
  · exact hrow

theorem OnlyAddress.id_eq (h : OnlyAddress env email userId db)
    (hfound : db.findByEmail env email verifiedOnly = some (row, user)) : user.id = userId := by
  obtain ⟨row', hrow, hfound⟩ := Option.bind_eq_some_iff.mp hfound
  obtain ⟨user', huser, hfound⟩ := Option.bind_eq_some_iff.mp hfound
  obtain ⟨-, rfl⟩ := Prod.mk.inj (Option.some.inj hfound)
  have hid : user'.id = row'.userId := by simpa using find?_some huser
  have hmatch := find?_some hrow
  rw [hid]
  exact h row' (mem_of_find?_eq_some hrow) (of_decide_eq_true hmatch).1

end Db

theorem within_storeProvisionedEmail :
    (storeProvisionedEmail env userId email unconfirmed).Within (Preserves Db.LinkTable) := by
  cases unconfirmed with
  | true =>
    refine within_bind (within_tx fun db id db' hok h => ?_) fun emailId => within_tx fun db _ db' hok h => ?_
    · rw [Db.insertEmailRow_eq_ok hok]
      exact h.readdress (Nat.le_succ _)
    · rw [Db.setPrimaryEmail_eq_ok hok]
      exact h.readdress (le_refl _)
  | false =>
    refine within_bind (within_tx fun db id db' hok h => ?_) fun _ => within_pure _
    rw [Db.insertEmailRow_eq_ok hok]
    exact h.readdress (Nat.le_succ _)

theorem storeProvisionedEmail_spec (h : db.emailExists env email = false) :
    (storeProvisionedEmail env userId email unconfirmed).Ensures db fun r db' =>
      r = .ok () → Db.OnlyAddress env email userId db' := by
  cases unconfirmed with
  | true =>
    refine ensures_bind.mpr (ensures_tx.mpr ⟨fun emailId db₁ hok => ensures_tx.mpr ⟨fun _ db₂ hok' _ => ?_, ?_⟩, ?_⟩)
    · have hemails := congrArg Db.userEmails (Db.insertEmailRow_eq_ok hok)
      have honly := Db.onlyAddress_concat h rfl hemails
      rw [Db.setPrimaryEmail_eq_ok hok']
      intro e he hsame
      obtain ⟨e', he', rfl⟩ := mem_map.mp he
      by_cases hid : e'.id = emailId
      · rw [if_pos hid] at hsame ⊢
        exact honly e' he' hsame
      · rw [if_neg hid] at hsame ⊢
        exact honly e' he' hsame
    · exact fun _ _ hr => by cases hr
    · exact fun _ _ hr => by cases hr
  | false =>
    refine ensures_bind.mpr (ensures_tx.mpr ⟨fun emailId db₁ hok _ => ?_, ?_⟩)
    · exact Db.onlyAddress_concat h rfl (congrArg Db.userEmails (Db.insertEmailRow_eq_ok hok))
    · exact fun _ _ hr => by cases hr

theorem within_preserves_linkTable {α : Type} {x : Service α} (h : x.Within LeavesAccounts) :
    x.Within (Preserves Db.LinkTable) := h.mono fun _ _ hleaves htable => htable.leaves hleaves

theorem within_createLink {idpId : Id} : (tx (·.createLink idpId sub userId)).Within (Preserves Db.LinkTable) :=
  within_tx fun _ _ _ hok h => h.createLink hok

theorem within_jitProvisionOidcUser :
    (jitProvisionOidcUser env connection sub claims).Within (Preserves Db.LinkTable) := by
  refine .require fun _ => .read fun taken => ?_
  refine .require fun _ => within_bind (within_tx fun _ _ _ hok h => h.createUser hok) fun userId => ?_
  refine within_bind within_storeProvisionedEmail fun _ => within_bind within_createLink fun _ => ?_
  refine within_bind (within_whenever fun _ => ?_) fun _ => within_orRaise
  exact within_preserves_linkTable within_autoAssignUserToDomainGroups

theorem within_refuseOidcSignIn : (refuseOidcSignIn user).Within (Preserves Db.LinkTable) :=
  .require fun _ => within_require

theorem within_linkByEmail : (linkByEmail env connection sub claims row existing).Within (Preserves Db.LinkTable) := by
  refine within_bind within_refuseOidcSignIn fun _ => .read fun link => ?_
  refine .require fun _ => within_bind (within_whenever fun _ => ?_) fun _ => ?_
  · refine .read fun links => .require fun _ => within_write fun db h => ?_
    exact h.readdress (le_refl _)
  · refine within_bind within_createLink fun _ => within_bind ?_ fun _ => within_pure _
    exact within_preserves_linkTable within_completeOidcSignIn

theorem within_authenticateViaOidc :
    (authenticateViaOidc env connection sub claims).Within (Preserves Db.LinkTable) := by
  refine .read fun linkedUserId => .read fun candidate => ?_
  cases linkedUserId with
  | some =>
    refine .orRaise fun user => within_bind within_refuseOidcSignIn fun _ => ?_
    exact within_bind (within_preserves_linkTable within_completeOidcSignIn) fun _ => within_pure _
  | none =>
    cases candidate with
    | some => exact within_linkByEmail
    | none =>
      refine .require fun _ => within_bind within_jitProvisionOidcUser fun user => ?_
      exact within_bind (within_preserves_linkTable within_completeOidcSignIn) fun _ => within_pure _

structure OidcSignIn where
  connection : UpstreamConnection
  sub : Text
  claims : Json.Dict

namespace OidcSignIn

def run (env : Env) (call : OidcSignIn) : Service User :=
  authenticateViaOidc env call.connection call.sub call.claims

def exec (env : Env) (db : Db) (call : OidcSignIn) : Db := (call.run env).exec db

structure LinksByEmail (env : Env) (db : Db) (call : OidcSignIn) (user : User) : Prop where
  allowed : call.connection.allowEmailLinking = true
  trusted : emailLinkingTrusted call.connection.providerType = true
  verified : getClaim call.claims "email_verified" = .bool true
  address : ∃ email, extractClaim call.claims call.connection.claimMapping "email" = some email ∧
    ∃ row ∈ db.userEmails, row.userId = user.id ∧ Db.sameEmail env row.email email ∧
      (row.verifiedAt.isSome ∨ ∀ l ∈ db.oidcIdpUserLinks, l.userId ≠ user.id)
  unlinked : ∀ l ∈ db.oidcIdpUserLinks, l.userId = user.id → l.idpId ≠ call.connection.id

/-- An account that existed before is reached only as the rules allow. -/
def TakesNoAccountOver (env : Env) (db : Db) (call : OidcSignIn) : Prop :=
  ∀ user, ((call.run env) db).1 = .ok user → ∀ u, db.getUserById user.id = some u →
    ((∃ l ∈ db.oidcIdpUserLinks, l.idpId = call.connection.id ∧ l.sub = call.sub ∧ l.userId = u.id) ∨
      LinksByEmail env db call u) ∧ u.inactivatedAt = none ∧ u.samlIdpId = none

variable {db : Db} {call : OidcSignIn} {userId : Id}

theorem getUserById_id (h : db.getUserById userId = some user) : user.id = userId := by
  simpa using find?_some h

theorem refuse_bind_ensures {x : Unit → Service User} {Q : Except Error User → Db → Prop}
    (herr : ∀ e, Q (.error e) db) (h : user.inactivatedAt = none → user.samlIdpId = none → (x ()).Ensures db Q) :
    (refuseOidcSignIn user >>= x).Ensures db Q := by
  refine Ensures.bind (Q := fun r db' => db' = db ∧
    (r = .ok () → user.inactivatedAt = none ∧ user.samlIdpId = none)) ?_ ?_ ?_
  · refine Ensures.require ⟨rfl, fun hr => by cases hr⟩ fun hactive =>
      ensures_require.mpr ⟨fun hsaml => ?_, fun _ => ?_⟩
    · exact ⟨rfl, fun _ => ⟨hactive, hsaml⟩⟩
    · exact ⟨rfl, fun hr => by cases hr⟩
  · rintro _ db' ⟨rfl, hok⟩
    exact h (hok rfl).1 (hok rfl).2
  · rintro e db' ⟨rfl, -⟩
    exact herr e

theorem returns_complete :
    (completeOidcSignIn env userId call.connection call.claims >>= fun _ => pure user).Returns (· = user) :=
  returns_bind fun _ => returns_pure rfl

theorem signInLinkedUser_answer : (signInLinkedUser env call.connection call.claims userId).Ensures db fun r _ =>
      ∀ user, r = .ok user → user.id = userId ∧ db.getUserById userId = some user ∧
        user.inactivatedAt = none ∧ user.samlIdpId = none := by
  refine Ensures.orRaise (fun _ hr => by cases hr) fun user huser => ?_
  refine refuse_bind_ensures (fun _ _ hr => by cases hr) fun hactive hsaml answer hr => ?_
  obtain rfl := returns_complete db answer hr
  exact ⟨getUserById_id huser, huser, hactive, hsaml⟩

theorem emailLinkCandidate_eq_some (h : db.emailLinkCandidate env call.connection call.claims = some (row, existing)) :
    call.connection.allowEmailLinking = true ∧ emailLinkingTrusted call.connection.providerType = true ∧
      getClaim call.claims "email_verified" = .bool true ∧
      ∃ email, extractClaim call.claims call.connection.claimMapping "email" = some email ∧
        db.getUserByEmailForSaml env email = some (row, existing) := by
  obtain ⟨email, hemail, h⟩ := Option.bind_eq_some_iff.mp h
  split at h
  · rename_i hverified
    split at h
    · rename_i hallowed
      exact ⟨hallowed.1, hallowed.2.1, hverified, email, hemail, h⟩
    · cases h
  · cases h

theorem row_of_findByEmail (h : db.findByEmail env email verifiedOnly = some (row, user)) :
    row ∈ db.userEmails ∧ row.userId = user.id ∧ Db.sameEmail env row.email email := by
  obtain ⟨row', hrow, h⟩ := Option.bind_eq_some_iff.mp h
  obtain ⟨user', huser, h⟩ := Option.bind_eq_some_iff.mp h
  obtain ⟨rfl, rfl⟩ := Prod.mk.inj (Option.some.inj h)
  have hmatch := find?_some hrow
  exact ⟨mem_of_find?_eq_some hrow, (getUserById_id huser).symm, (of_decide_eq_true hmatch).1⟩

theorem linkByEmail_answer (htable : db.LinkTable) :
    (linkByEmail env call.connection call.sub call.claims row existing).Ensures db fun r _ =>
      ∀ user, r = .ok user → user = existing ∧ existing.inactivatedAt = none ∧ existing.samlIdpId = none ∧
        (∀ l ∈ db.oidcIdpUserLinks, l.userId = existing.id → l.idpId ≠ call.connection.id) ∧
        (row.verifiedAt.isSome ∨ ∀ l ∈ db.oidcIdpUserLinks, l.userId ≠ existing.id) := by
  refine refuse_bind_ensures (fun _ _ hr => by cases hr) fun hactive hsaml => ?_
  refine .read (Ensures.require (fun _ hr => by cases hr) fun hlink => ?_)
  have hunlinked : ∀ l ∈ db.oidcIdpUserLinks, l.userId = existing.id → l.idpId ≠ call.connection.id := by
    intro l hl huser hidp
    have hnot := find?_eq_none.mp hlink l hl
    simp [huser, hidp] at hnot
  refine ensures_bind.mpr (ensures_whenever.mpr ⟨fun hunverified => ?_, fun hverified => ?_⟩)
  · refine .read (Ensures.require (fun _ hr => by cases hr) fun hlinks user hr => ?_)
    have hreturns := returns_bind (fun _ => returns_complete) _ user hr
    refine ⟨hreturns, hactive, hsaml, hunlinked, .inr fun l hl huser => ?_⟩
    have hnot := filter_eq_nil_iff.mp hlinks l hl
    simp [huser, htable.connected l hl] at hnot
  · intro user hr
    have hreturns := returns_bind (fun _ => returns_complete) db user hr
    exact ⟨hreturns, hactive, hsaml, hunlinked, .inl (Option.isSome_iff_ne_none.mpr hverified)⟩

theorem jitProvisionOidcUser_answer :
    (jitProvisionOidcUser env call.connection call.sub call.claims).Ensures db fun r _ =>
      ∀ user, r = .ok user → user.id = db.nextId := by
  refine Ensures.require (fun _ hr => by cases hr) fun _ => .read ?_
  refine Ensures.require (fun _ hr => by cases hr) fun htaken => ?_
  refine ensures_bind.mpr (ensures_tx.mpr ⟨fun userId db₁ hcreated => ?_, fun _ _ _ hr => by cases hr⟩)
  have hfree :
      db₁.emailExists env ((extractClaim call.claims call.connection.claimMapping "email").getD []) = false := by
    obtain ⟨-, rfl⟩ := Db.createUser_eq_ok hcreated
    exact Bool.eq_false_iff.mpr htaken
  obtain ⟨rfl, -⟩ := Db.createUser_eq_ok hcreated
  refine (storeProvisionedEmail_spec hfree).bind
    (fun _ db₂ hstored => ?_) fun e db₂ _ _ hr => by cases hr
  refine ensures_bind.mpr (ensures_tx.mpr ⟨fun _ db₃ hlinked => ?_, fun _ _ _ hr => by cases hr⟩)
  have honly : Db.OnlyAddress env ((extractClaim call.claims call.connection.claimMapping "email").getD [])
      db.nextId db₃ := by
    obtain ⟨-, -, -, rfl⟩ := Db.createLink_eq_ok hlinked
    exact hstored rfl
  refine Ensures.bind (Q := fun _ db₄ => LeavesAccounts db₃ db₄) ?_ (fun _ db₄ hleaves => ?_)
    fun e db₄ _ _ hr => by cases hr
  · exact within_whenever (fun _ => within_autoAssignUserToDomainGroups) db₃
  · refine ensures_orRaise.mpr ⟨fun user hfound answer hr => ?_, fun _ _ hr => by cases hr⟩
    obtain rfl := Except.ok.inj hr
    split at hfound
    · obtain ⟨⟨row, user'⟩, hrow, rfl⟩ := Option.map_eq_some_iff.mp hfound
      exact (honly.leaves hleaves).id_eq hrow
    · obtain ⟨⟨row, user'⟩, hrow, rfl⟩ := Option.map_eq_some_iff.mp hfound
      exact (honly.leaves hleaves).id_eq hrow

theorem provisionOidcUser_answer : (provisionOidcUser env call.connection call.sub call.claims).Ensures db fun r _ =>
      ∀ user, r = .ok user → user.id = db.nextId := by
  refine Ensures.require (fun _ hr => by cases hr) fun _ => ?_
  refine jitProvisionOidcUser_answer.bind (fun user db' hid answer hr => ?_) fun e _ _ _ hr => by cases hr
  obtain rfl := returns_complete db' answer hr
  exact hid answer rfl

theorem takesNoAccountOver (htable : db.LinkTable) : TakesNoAccountOver env db call := by
  intro user hok u hu
  change ((authenticateViaOidc env call.connection call.sub call.claims) db).1 = .ok user at hok
  unfold authenticateViaOidc at hok
  rw [read_bind_apply, read_bind_apply] at hok
  cases hlinked : db.getUserIdBySub call.connection.id call.sub with
  | some =>
    rw [hlinked] at hok
    obtain ⟨rfl, hfound, hactive, hsaml⟩ := signInLinkedUser_answer user hok
    obtain rfl : user = u := Option.some.inj (hfound.symm.trans hu)
    obtain ⟨l, hl, huser⟩ := Option.map_eq_some_iff.mp hlinked
    have hmatch := find?_some hl
    obtain ⟨hidp, hsub⟩ := of_decide_eq_true hmatch
    exact ⟨.inl ⟨l, mem_of_find?_eq_some hl, hidp, hsub, huser⟩, hactive, hsaml⟩
  | none =>
    rw [hlinked] at hok
    cases hcandidate : db.emailLinkCandidate env call.connection call.claims with
    | some candidate =>
      obtain ⟨row, existing⟩ := candidate
      rw [hcandidate] at hok
      obtain ⟨rfl, hactive, hsaml, hunlinked, haddress⟩ := linkByEmail_answer htable user hok
      obtain ⟨hallowed, htrusted, hverified, email, hemail, hfound⟩ := emailLinkCandidate_eq_some hcandidate
      obtain rfl : user = u := Option.some.inj ((Db.getUserById_of_findByEmail hfound).symm.trans hu)
      obtain ⟨hrow, howner, hsame⟩ := row_of_findByEmail hfound
      exact ⟨.inr ⟨hallowed, htrusted, hverified, ⟨email, hemail, row, hrow, howner, hsame, haddress⟩, hunlinked⟩,
        hactive, hsaml⟩
    | none =>
      rw [hcandidate] at hok
      have hnew := provisionOidcUser_answer user hok
      have hold := htable.fresh u (mem_of_find?_eq_some hu)
      rw [getUserById_id hu, hnew] at hold
      exact absurd hold (lt_irrefl _)

/-- No sign-in takes an account over, and the links stay unambiguous. -/
theorem sign_ins_take_no_account_over (env : Env) (db : Db) (htable : db.LinkTable) (calls : List OidcSignIn) :
    Along (exec env) (TakesNoAccountOver env) db calls ∧ ∀ before after, calls = before ++ after →
      (∀ l ∈ (Run.run (exec env) db before).oidcIdpUserLinks, ∀ l' ∈ (Run.run (exec env) db before).oidcIdpUserLinks,
        l.idpId = l'.idpId → (l.sub = l'.sub ↔ l.userId = l'.userId)) := by
  have hstep : ∀ db call, db.LinkTable → (exec env db call).LinkTable := fun db call =>
    within_authenticateViaOidc db
  refine ⟨?_, fun before after _ l hl l' hl' hidp => ?_⟩
  · exact along_of_invariant (P := fun _ _ => True) (fun db call h _ => hstep db call h)
      (fun _ _ h _ => takesNoAccountOver h)
      htable fun _ _ _ _ => trivial
  · have h : (Run.run (exec env) db before).LinkTable := invariant hstep htable
    exact ⟨h.one_user l hl l' hl' hidp, h.one_subject l hl l' hl' hidp⟩

/-- An invited user whose address is not confirmed yet, and a connection that links by email. -/
private def invited : Db where
  nextId := 10
  users := [{ id := 5 }]
  userEmails := [{ id := 6, userId := 5, email := "a@b.co", isPrimary := true }]
  oidcConnections := [{ id := 1, name := "Google" }]

private def firstSignIn : OidcSignIn where
  connection := { id := 1, name := "Google", providerType := "google", allowEmailLinking := true
                  claimMapping := [("email", "email")] }
  sub := "g-1"
  claims := [("email", .str "a@b.co"), ("email_verified", .bool true)]

theorem sign_ins_take_no_account_over_invited : invited.LinkTable ∧
    ((firstSignIn.run .ascii) invited).1.toOption.map (·.id) = some 5 ∧
    TakesNoAccountOver .ascii invited firstSignIn := by
  have htable : invited.LinkTable := by
    refine ⟨fun l hl => ?_, fun l hl => ?_, fun l hl => ?_, by decide⟩ <;> cases hl
  have hsafe := (sign_ins_take_no_account_over .ascii invited htable [firstSignIn]).1
  exact ⟨htable, by decide +kernel, hsafe [] firstSignIn [] rfl⟩

end OidcSignIn

end WeftId
