import WeftId.Groups.Regroup
import WeftId.Oidc.Links
import WeftId.Users.Crud

/-!
What a change of accounts can do to the users, to their groups and to the tables of the OAuth2 provider.
`Touches` says it once for all calls; each database operation on accounts is an instance.
-/

namespace WeftId

open List Proc ClosureTable

namespace Db

/-- The user exists and is not inactivated. -/
def Active (db : Db) (userId : Id) : Prop := ∃ u ∈ db.users, u.id = userId ∧ u.isInactivated = false
  deriving Decidable

structure UsersKeyed (db : Db) : Prop where
  nodup : (db.users.map User.id).Nodup
  fresh : ∀ u ∈ db.users, u.id < db.nextId

/-- No refresh token and no approved device request of the user is left. -/
structure NoGrants (db : Db) (userId : Id) : Prop where
  refresh : ∀ t ∈ db.oauth2Tokens, t.tokenType = .refresh → t.userId ≠ userId
  devices : ∀ d ∈ db.oauth2DeviceCodes, d.status = .approved → d.userId ≠ some userId

def directory (db : Db) : Db where
  users := db.users
  memberships := db.memberships
  lineage := db.lineage
  oauth2Clients := db.oauth2Clients
  clientGroupAssignments := db.clientGroupAssignments

def issued (db : Db) : Db where
  authorizationCodes := db.authorizationCodes
  oauth2Tokens := db.oauth2Tokens
  oauth2DeviceCodes := db.oauth2DeviceCodes
  oidcSessionClients := db.oidcSessionClients

end Db

/-- What a call can do that inactivates, deletes or demotes only users in `out` and regroups only users in
`moved`: nothing new is issued, and a user who stops being active keeps no grant. -/
structure Touches (out moved : Id → Prop) (db db' : Db) : Prop where
  now_le : db.now ≤ db'.now
  nextId_le : db.nextId ≤ db'.nextId
  clients : db'.oauth2Clients = db.oauth2Clients
  assignments : db'.clientGroupAssignments = db.clientGroupAssignments
  codes : db'.authorizationCodes ⊆ db.authorizationCodes
  tokens : db'.oauth2Tokens ⊆ db.oauth2Tokens
  devices : db'.oauth2DeviceCodes ⊆ db.oauth2DeviceCodes
  sessionClients : db'.oidcSessionClients ⊆ db.oidcSessionClients
  keyed : db.UsersKeyed → db'.UsersKeyed
  rows : ∀ u ∈ db.users, ¬ out u.id → ∃ u' ∈ db'.users, u'.id = u.id ∧
    (u.role = .superAdmin → u'.role = .superAdmin) ∧
    (u.isInactivated = false → u'.isInactivated = false)
  shut : ∀ v, db.Active v → ¬ db'.Active v → db'.NoGrants v
  memberships : ∀ m ∈ db.memberships, ¬ moved m.userId → m ∈ db'.memberships
  lineage : ∀ a d, (depthOf db.lineage a d).isSome → (depthOf db'.lineage a d).isSome

section Touches

variable {out moved : Id → Prop} {db db' db'' : Db} {userId : Id} {p : OAuth2Token → Bool}

theorem Db.NoGrants.of_subset (h : db.NoGrants userId) (ht : db'.oauth2Tokens ⊆ db.oauth2Tokens)
    (hd : db'.oauth2DeviceCodes ⊆ db.oauth2DeviceCodes) : db'.NoGrants userId :=
  ⟨fun t ht' => h.refresh t (ht ht'), fun d hd' => h.devices d (hd hd')⟩

theorem Touches.refl (out moved : Id → Prop) (db : Db) : Touches out moved db db where
  now_le := le_refl _
  nextId_le := le_refl _
  clients := rfl
  assignments := rfl
  codes := List.Subset.refl _
  tokens := List.Subset.refl _
  devices := List.Subset.refl _
  sessionClients := List.Subset.refl _
  keyed := id
  rows := fun u hu _ => ⟨u, hu, rfl, id, id⟩
  shut := fun _ h hn => absurd h hn
  memberships := fun _ h _ => h
  lineage := fun _ _ h => h

theorem Touches.trans (h : Touches out moved db db') (h' : Touches out moved db' db'') : Touches out moved db db'' where
  now_le := le_trans h.now_le h'.now_le
  nextId_le := le_trans h.nextId_le h'.nextId_le
  clients := h'.clients.trans h.clients
  assignments := h'.assignments.trans h.assignments
  codes := List.Subset.trans h'.codes h.codes
  tokens := List.Subset.trans h'.tokens h.tokens
  devices := List.Subset.trans h'.devices h.devices
  sessionClients := List.Subset.trans h'.sessionClients h.sessionClients
  keyed := h'.keyed ∘ h.keyed
  rows := by
    intro u hu hout
    obtain ⟨u', hu', hid, hrole, hactive⟩ := h.rows u hu hout
    obtain ⟨u'', hu'', hid', hrole', hactive'⟩ := h'.rows u' hu' (by rwa [hid])
    exact ⟨u'', hu'', hid'.trans hid, hrole' ∘ hrole, hactive' ∘ hactive⟩
  shut := by
    intro v hactive hgone
    by_cases hmid : db'.Active v
    · exact h'.shut v hmid hgone
    · exact (h.shut v hactive hmid).of_subset h'.tokens h'.devices
  memberships := fun m hm hmoved => h'.memberships m (h.memberships m hm hmoved) hmoved
  lineage := fun a d had => h'.lineage a d (h.lineage a d had)

instance : Std.Refl (Touches out moved) := ⟨Touches.refl out moved⟩

instance : IsTrans Db (Touches out moved) := ⟨fun _ _ _ => Touches.trans⟩

theorem Db.UsersKeyed.of_ids (h : db.UsersKeyed) (hids : db'.users.map User.id = db.users.map User.id)
    (hn : db.nextId ≤ db'.nextId) : db'.UsersKeyed := by
  refine ⟨by rw [hids]; exact h.nodup, fun u hu => ?_⟩
  have hmem : u.id ∈ db.users.map User.id := by
    rw [← hids]
    exact mem_map_of_mem hu
  obtain ⟨u', hu', hid⟩ := mem_map.mp hmem
  rw [← hid]
  exact lt_of_lt_of_le (h.fresh u' hu') hn

theorem touches_of_directory (hnow : db'.now = db.now) (hn : db.nextId ≤ db'.nextId)
    (h : db'.directory = db.directory) (hc : db'.authorizationCodes ⊆ db.authorizationCodes)
    (ht : db'.oauth2Tokens ⊆ db.oauth2Tokens) (hd : db'.oauth2DeviceCodes ⊆ db.oauth2DeviceCodes)
    (hs : db'.oidcSessionClients ⊆ db.oidcSessionClients) : Touches out moved db db' := by
  have husers : db'.users = db.users := (congrArg Db.users h :)
  have hmemberships : db'.memberships = db.memberships := (congrArg Db.memberships h :)
  have hlineage : db'.lineage = db.lineage := (congrArg Db.lineage h :)
  refine ⟨le_of_eq hnow.symm, hn, (congrArg Db.oauth2Clients h :),
    (congrArg Db.clientGroupAssignments h :), hc, ht, hd, hs,
    fun hk => hk.of_ids (by rw [husers]) hn, fun u hu _ => ⟨u, by rwa [husers], rfl, id, id⟩, ?_, ?_, ?_⟩
  · intro v hactive hgone
    unfold Db.Active at hgone
    rw [husers] at hgone
    exact absurd hactive hgone
  · intro m hm _
    rwa [hmemberships]
  · intro a d had
    rwa [hlineage]

theorem touches_of_issued (hnow : db'.now = db.now) (hn : db.nextId ≤ db'.nextId)
    (h : db'.directory = db.directory) (hi : db'.issued = db.issued) : Touches out moved db db' := by
  have hc := (congrArg Db.authorizationCodes hi :)
  have ht := (congrArg Db.oauth2Tokens hi :)
  have hd := (congrArg Db.oauth2DeviceCodes hi :)
  have hs := (congrArg Db.oidcSessionClients hi :)
  exact touches_of_directory hnow hn h (fun _ hx => hc ▸ hx) (fun _ hx => ht ▸ hx) (fun _ hx => hd ▸ hx)
    (fun _ hx => hs ▸ hx)

theorem touches_of_regroups (hmoved : moved userId) (h : Regroups userId db db') : Touches out moved db db' := by
  have husers : db'.users = db.users := (congrArg Db.users h.outside :)
  have hc := (congrArg Db.authorizationCodes h.outside :)
  have ht := (congrArg Db.oauth2Tokens h.outside :)
  have hd := (congrArg Db.oauth2DeviceCodes h.outside :)
  have hs := (congrArg Db.oidcSessionClients h.outside :)
  have hnow := (congrArg Db.now h.outside :)
  refine ⟨le_of_eq hnow.symm, h.nextId_le, (congrArg Db.oauth2Clients h.outside :),
    (congrArg Db.clientGroupAssignments h.outside :), fun _ hx => hc ▸ hx, fun _ hx => ht ▸ hx, fun _ hx => hd ▸ hx,
    fun _ hx => hs ▸ hx, fun hk => hk.of_ids (by rw [husers]) h.nextId_le,
    fun u hu _ => ⟨u, by rwa [husers], rfl, id, id⟩, ?_, ?_, h.lineage⟩
  · intro v hactive hgone
    unfold Db.Active at hgone
    rw [husers] at hgone
    exact absurd hactive hgone
  · intro m hm hm'
    apply h.memberships m hm
    rintro rfl
    exact hm' hmoved

theorem touches_updateUser {f : User → User} (hid : ∀ u, (f u).id = u.id)
    (hrow : out userId ∨ ∀ u, (u.role = .superAdmin → (f u).role = .superAdmin) ∧
      (u.isInactivated = false → (f u).isInactivated = false))
    (hgrants : db.NoGrants userId ∨ ∀ u, u.isInactivated = false → (f u).isInactivated = false) :
    Touches out moved db (db.updateUser userId f) := by
  have hmem : ∀ u ∈ db.users, (if u.id = userId then f u else u) ∈ (db.updateUser userId f).users :=
    fun u hu => mem_map_of_mem hu
  refine ⟨le_refl _, le_refl _, rfl, rfl, List.Subset.refl _, List.Subset.refl _, List.Subset.refl _,
    List.Subset.refl _, fun hk => hk.of_ids ?_ (le_refl _), ?_, ?_, fun _ h _ => h, fun _ _ h => h⟩
  · unfold Db.updateUser
    rw [map_map]
    apply map_congr_left
    intro u _
    by_cases hu : u.id = userId <;> simp [hu, hid]
  · intro u hu hout
    refine ⟨_, hmem u hu, ?_⟩
    by_cases hu' : u.id = userId
    · obtain ⟨hrole, hactive⟩ := hrow.resolve_left (fun ho => hout (hu' ▸ ho)) u
      rw [if_pos hu']
      exact ⟨hid u, hrole, hactive⟩
    · rw [if_neg hu']
      exact ⟨rfl, id, id⟩
  · rintro v ⟨u, hu, huid, hactive⟩ hgone
    by_cases hu' : u.id = userId
    · rcases hgrants with hnone | hkeep
      · rw [← huid, hu']
        exact ⟨hnone.refresh, hnone.devices⟩
      · refine absurd ⟨_, hmem u hu, ?_⟩ hgone
        rw [if_pos hu']
        exact ⟨(hid u).trans huid, hkeep u hactive⟩
    · refine absurd ⟨_, hmem u hu, ?_⟩ hgone
      rw [if_neg hu']
      exact ⟨huid, hactive⟩

theorem deleteTokens_subset : (db.deleteTokens p).oauth2Tokens ⊆ db.oauth2Tokens :=
  filter_subset_self _

theorem noGrants_revokeAllUserTokens (db : Db) (userId : Id) : (db.revokeAllUserTokens userId).NoGrants userId := by
  refine ⟨fun t ht _ => ?_, fun d hd hstatus => ?_⟩
  · have hmem := ht
    simpa using (Db.mem_deleteTokens hmem).2
  · have hkept := (mem_filter.mp hd).2
    simp only [not_and, decide_eq_true_eq] at hkept
    exact fun huser => hkept huser hstatus

theorem touches_revokeAllUserTokens (db : Db) (userId : Id) : Touches out moved db (db.revokeAllUserTokens userId) :=
  touches_of_directory rfl (le_refl _) rfl (List.Subset.refl _) deleteTokens_subset (filter_subset_self _)
    (List.Subset.refl _)

theorem touches_consumeUserSessionClients (db : Db) (userId : Id) :
    Touches out moved db (db.consumeUserSessionClients userId) :=
  touches_of_directory rfl (le_refl _) rfl (List.Subset.refl _) (List.Subset.refl _) (List.Subset.refl _)
    (filter_subset_self _)

theorem touches_inactivateUser (hout : out userId) (h : db.NoGrants userId) :
    Touches out moved db (db.inactivateUser userId) :=
  touches_updateUser (fun u => by split_ifs <;> rfl) (.inl hout) (.inl h)

theorem touches_anonymizeUser (hout : out userId) (h : db.NoGrants userId) :
    Touches out moved db (db.anonymizeUser userId) :=
  touches_updateUser (fun u => by split_ifs <;> rfl) (.inl hout) (.inl h)

theorem touches_reactivateUser (db : Db) (userId : Id) : Touches out moved db (db.reactivateUser userId) := by
  refine touches_updateUser (fun u => by split_ifs <;> rfl) (.inr fun u => ?_) (.inr fun u hu => ?_)
  · split_ifs
    · exact ⟨id, fun _ => rfl⟩
    · exact ⟨id, id⟩
  · split_ifs
    · rfl
    · exact hu

theorem touches_unverifyUserEmails (db : Db) (userId : Id) : Touches out moved db (db.unverifyUserEmails userId) :=
  touches_of_issued rfl (le_refl _) rfl rfl

theorem touches_consumeSessionClients {sid : Id} : Touches out moved db (db.consumeSessionClients sid) :=
  touches_of_directory rfl (le_refl _) rfl (List.Subset.refl _) (List.Subset.refl _) (List.Subset.refl _)
    (filter_subset_self _)

theorem touches_deleteTokens : Touches out moved db (db.deleteTokens p) :=
  touches_of_directory rfl (le_refl _) rfl (List.Subset.refl _) deleteTokens_subset (List.Subset.refl _)
    (List.Subset.refl _)

theorem touches_deactivate (hout : out userId) (db : Db) : Touches out moved db (db.deactivate userId) := by
  refine (touches_revokeAllUserTokens db userId).trans ?_
  refine (touches_inactivateUser hout (noGrants_revokeAllUserTokens db userId)).trans ?_
  exact touches_consumeUserSessionClients _ userId

theorem touches_createUser {first last : Text} {role : Role} {id : Id}
    (h : db.createUser first last role = .ok (id, db')) : Touches out moved db db' ∧ id = db.nextId := by
  unfold Db.createUser at h
  split_ifs at h
  obtain ⟨rfl, rfl⟩ := Prod.mk.inj (Except.ok.inj h)
  refine ⟨⟨le_refl _, Nat.le_succ _, rfl, rfl, List.Subset.refl _, List.Subset.refl _, List.Subset.refl _,
    List.Subset.refl _, ?_, fun u hu _ => ⟨u, mem_append_left _ hu, rfl, id, id⟩, ?_, fun _ h _ => h,
    fun _ _ h => h⟩, rfl⟩
  · intro hk
    refine ⟨?_, fun u hu => ?_⟩
    · rw [map_append]
      refine hk.nodup.append (nodup_singleton _) (disjoint_singleton.mpr fun hmem => ?_)
      obtain ⟨u, hu, hid⟩ := mem_map.mp hmem
      have hlt := hk.fresh u hu
      rw [hid] at hlt
      exact lt_irrefl _ hlt
    · rcases mem_concat_iff.mp hu with hu | rfl
      · exact Nat.lt_succ_of_lt (hk.fresh u hu)
      · exact Nat.lt_succ_self _
  · rintro v ⟨u, hu, hactive⟩ hgone
    exact absurd ⟨u, mem_append_left _ hu, hactive⟩ hgone

theorem touches_deleteUser (hout : out userId) (hmoved : moved userId) (h : db.deleteUser userId = .ok ((), db')) :
    Touches out moved db db' := by
  unfold Db.deleteUser at h
  split_ifs at h
  obtain rfl := Except.ok_snd h
  have hkept : ∀ u ∈ db.users, u.id ≠ userId → u ∈ db.users.filter (·.id ≠ userId) := by
    intro u hu hne
    simp [hu, hne]
  refine ⟨le_refl _, le_refl _, rfl, rfl, filter_subset_self _, deleteTokens_subset,
    filter_subset_self _, filter_subset_self _, fun hk => ⟨?_, ?_⟩, ?_, ?_, ?_, fun _ _ h => h⟩
  · exact hk.nodup.sublist (filter_sublist.map _)
  · exact fun u hu => hk.fresh u (mem_filter.mp hu).1
  · intro u hu hu'
    refine ⟨u, hkept u hu ?_, rfl, id, id⟩
    rintro rfl
    exact hu' hout
  · rintro v ⟨u, hu, hid, hactive⟩ hgone
    by_cases hv : v = userId
    · subst hv
      refine ⟨fun t ht _ => ?_, fun d hd _ => ?_⟩
      · have hmem := ht
        simpa using (Db.mem_deleteTokens hmem).2
      · simpa using (mem_filter.mp hd).2
    · exact absurd ⟨u, hkept u hu (by rwa [hid]), hid, hactive⟩ hgone
  · intro m hm hm'
    have hne : m.userId ≠ userId := by
      rintro rfl
      exact hm' hmoved
    simp [hm, hne]

end Touches

end WeftId
