import WeftId.Groups.Lineage
import WeftId.Users.Accounts

/-!
The wiring of claimed groups under the base group of their provider.  The base group is the one that bears
the provider's current name, so a rename makes another group the base, and the wiring has no cycle check.
-/

namespace WeftId

open List Proc ClosureTable Relation

structure IdPUpdate where
  name : Option Text := none
  jitProvisioning : Option Bool := none

def Db.updateIdentityProvider (db : Db) (idpId : Id) (data : IdPUpdate) : Except DbError (Unit × Db) :=
  if data.name.any (120 < ·.length) then .error (.checkViolation "chk_saml_idp_name_length")
  else .ok ((), { db with
    identityProviders := db.identityProviders.map fun idp =>
      if idp.id = idpId then
        { idp with name := data.name.getD idp.name, jitProvisioning := data.jitProvisioning.getD idp.jitProvisioning }
      else idp })

def updateIdentityProvider (user : RequestingUser) (idpId : Id) (data : IdPUpdate) : Service Unit := do
  requireSuperAdmin user
  let _ ← orRaise (·.getIdentityProvider idpId) (.notFound "Identity provider not found" "idp_not_found")
  whenever (data.name.isSome ∨ data.jitProvisioning.isSome) do
    tx (·.updateIdentityProvider idpId data)

inductive UmbrellaStep
  | signIn (userId idpId : Id) (groupNames : List Text) (source : Source)
  | update (user : RequestingUser) (idpId : Id) (data : IdPUpdate)
  | addChild (user : RequestingUser) (parentGroupId childGroupId : Id)

namespace UmbrellaStep

def exec (db : Db) : UmbrellaStep → Db
  | .signIn userId idpId groupNames source => (syncUserIdpGroups userId idpId groupNames source).exec db
  | .update user idpId data => (updateIdentityProvider user idpId data).exec db
  | .addChild user parent child => (WeftId.addChild user parent child).exec db

/-- Every edge that a sign-in adds leads to another group, from which its parent cannot be reached. -/
def WiresForward (db : Db) (step : UmbrellaStep) : Prop :=
  match step with
  | .signIn .. => ∀ base g, (exec db step).Edge base g → ¬ db.Edge base g →
      base ≠ g ∧ ¬ ReflTransGen (exec db step).Edge g base
  | _ => True

/-- A sign-in claims no group with children, except the base group and groups already below it. -/
def ClaimsLeaves (db : Db) : UmbrellaStep → Prop
  | .signIn _ idpId groupNames source => ∀ base ∈ db.getIdpBaseGroupId idpId source, ∀ name ∈ groupNames,
      ∀ g ∈ db.getGroupByIdpAndName idpId name source,
        g.id = base ∨ db.relationshipExists base g.id ∨ ∀ r ∈ db.relationships, r.parentGroupId ≠ g.id
  | _ => True

instance (db : Db) (step : UmbrellaStep) : Decidable (ClaimsLeaves db step) := by
  cases step <;> unfold ClaimsLeaves <;> infer_instance

end UmbrellaStep

section SignIn

variable {db₀ db db' : Db} {idpId g base : Id} {source : Source} {name : Text}

/-- What a sign-in may have done to the groups: new ones stand behind the old, and new edges lead from the
base group to groups that had no children. -/
structure Wired (db₀ : Db) (idpId : Id) (source : Source) (db : Db) : Prop where
  keys : db.GroupKeys
  nextId_le : db₀.nextId ≤ db.nextId
  providers : db.providerName source idpId = db₀.providerName source idpId
  groups : ∃ new, db.groups = db₀.groups ++ new ∧ ∀ g ∈ new, db₀.nextId ≤ g.id
  edges : ∀ a b, db.Edge a b →
    db₀.Edge a b ∨ (db₀.getIdpBaseGroupId idpId source = some a ∧ a ≠ b ∧ ∀ c, ¬ db₀.Edge b c)

theorem Wired.refl (h : db.GroupKeys) : Wired db idpId source db where
  keys := h
  nextId_le := le_refl _
  providers := rfl
  groups := ⟨[], by simp, by simp⟩
  edges := fun _ _ hab => .inl hab

theorem Db.GroupKeys.not_edge_of_le (h : db.GroupKeys) {a : Id} (ha : db.nextId ≤ a) (c : Id) : ¬ db.Edge a c := by
  intro hac
  obtain ⟨⟨g, hg, rfl⟩, -⟩ := h.endpoints a c hac
  have hlt := h.fresh g hg
  exact lt_irrefl _ (lt_of_lt_of_le hlt ha)

theorem Wired.existing (h : Wired db₀ idpId source db) {g : Group}
    (hg : db.getGroupByIdpAndName idpId name source = some g) :
    db₀.getGroupByIdpAndName idpId name source = some g ∨ db₀.nextId ≤ g.id := by
  obtain ⟨new, hgroups, hnew⟩ := h.groups
  rw [Db.getGroupByIdpAndName, hgroups, find?_append, Option.or_eq_some_iff] at hg
  rcases hg with hg | ⟨-, hg⟩
  · exact .inl hg
  · exact .inr (hnew g (mem_of_find?_eq_some hg))

def MayWire (db₀ : Db) (idpId : Id) (source : Source) (g : Id) : Prop :=
  ∀ base, db₀.getIdpBaseGroupId idpId source = some base → g = base ∨ db₀.Edge base g ∨ ∀ c, ¬ db₀.Edge g c

/-- A call that leaves the groups wired, and the base group the same unless it raises. -/
def Settles (db₀ : Db) (idpId : Id) (source : Source) {α : Type} (r : Except Error α) (db : Db) : Prop :=
  Wired db₀ idpId source db ∧
    ∀ a, r = .ok a → db.getIdpBaseGroupId idpId source = db₀.getIdpBaseGroupId idpId source

theorem Wired.addGroupRelationship (h : Wired db₀ idpId source db)
    (hbase : db₀.getIdpBaseGroupId idpId source = some base) (hg : MayWire db₀ idpId source g) {added : Bool}
    (hok : db.addGroupRelationship base g = .ok (added, db')) : Wired db₀ idpId source db' := by
  rcases Db.addGroupRelationship_eq_ok hok with ⟨-, rfl⟩ | ⟨-, hne, hp, hc, rfl⟩
  · exact h
  · refine ⟨h.keys.addGroupRelationship hp hc, h.nextId_le, h.providers, h.groups, fun a b hab => ?_⟩
    rw [Db.edge_addGroupRelationship] at hab
    rcases hab with hab | ⟨rfl, rfl⟩
    · exact h.edges a b hab
    · rcases hg a hbase with rfl | hold | hleaf
      · exact absurd rfl hne
      · exact .inl hold
      · exact .inr ⟨hbase, hne, hleaf⟩

theorem getIdpBaseGroupId_addGroupRelationship {added : Bool}
    (hok : db.addGroupRelationship base g = .ok (added, db')) :
    db'.getIdpBaseGroupId idpId source = db.getIdpBaseGroupId idpId source := by
  rcases Db.addGroupRelationship_eq_ok hok with ⟨-, rfl⟩ | ⟨-, -, -, -, rfl⟩
  · rfl
  · cases source <;> rfl

theorem ensureUmbrellaRelationship_settles (h : Wired db₀ idpId source db) (hg : MayWire db₀ idpId source g)
    (hbase : db.getIdpBaseGroupId idpId source = db₀.getIdpBaseGroupId idpId source) :
    (ensureUmbrellaRelationship idpId g source).Ensures db (Settles db₀ idpId source) := by
  refine .read ?_
  cases hfind : db.getIdpBaseGroupId idpId source with
  | none => exact ⟨h, fun _ _ => hbase⟩
  | some base =>
    refine .read (ensures_whenever.mpr ⟨fun _ => ?_, fun _ => ⟨h, fun _ _ => hbase⟩⟩)
    refine ensures_bind.mpr (ensures_tx.mpr ⟨fun added db' hok => ?_, fun e _ => ⟨h, fun _ _ => hbase⟩⟩)
    have hwired := h.addGroupRelationship (hbase.symm.trans hfind) hg hok
    exact ⟨hwired, fun _ _ => (getIdpBaseGroupId_addGroupRelationship hok).trans hbase⟩

theorem ensureUmbrellaRelationship_self (hbase : db.getIdpBaseGroupId idpId source = some g) (hself : ¬ db.Edge g g) :
    (ensureUmbrellaRelationship idpId g source).Ensures db fun r db' => (∃ e, r = .error e) ∧ db' = db := by
  have hlinked : db.relationshipExists g g = false := decide_eq_false hself
  have hrefused : db.addGroupRelationship g g = .error (.checkViolation "chk_no_self_relationship") := by
    simp [Db.addGroupRelationship]
  refine .read ?_
  rw [hbase]
  refine .read (ensures_whenever.mpr ⟨fun _ => ?_, fun hn => absurd (by simp [hlinked]) hn⟩)
  refine ensures_bind.mpr (ensures_tx.mpr ⟨fun added db' hok => ?_, fun e _ => ⟨⟨_, rfl⟩, rfl⟩⟩)
  rw [hrefused] at hok
  cases hok

theorem createIdpGroup_eq : ∃ group : Id → Group,
    (∀ i, (group i).id = i) ∧ db.createIdpGroup idpId name source = db.insertGroup group := by
  cases source with
  | saml => exact ⟨fun id => { id, name, groupType := .idp, idpId := some idpId }, fun _ => rfl, rfl⟩
  | oidc => exact ⟨fun id => { id, name, groupType := .idp, oidcConnectionId := some idpId }, fun _ => rfl, rfl⟩

theorem getIdpBaseGroupId_append {g : Group} (hgroups : db'.groups = db.groups ++ [g])
    (hprovider : db'.providerName source idpId = db.providerName source idpId) :
    db'.getIdpBaseGroupId idpId source = db.getIdpBaseGroupId idpId source ∨
      db'.getIdpBaseGroupId idpId source = some g.id := by
  rw [Db.getIdpBaseGroupId, Db.getIdpBaseGroupId, hprovider, hgroups, find?_append]
  cases db.groups.find? fun h =>
      h.sourceId source = some idpId ∧ db.providerName source idpId = some h.name ∧ h.isValid with
  | some k => exact .inl rfl
  | none =>
    cases hlast : [g].find? fun h =>
        h.sourceId source = some idpId ∧ db.providerName source idpId = some h.name ∧ h.isValid with
    | none => exact .inl rfl
    | some k =>
      rw [mem_singleton.mp (mem_of_find?_eq_some hlast)]
      exact .inr rfl

theorem Wired.createIdpGroup (h : Wired db₀ idpId source db) {id : Id}
    (hok : db.createIdpGroup idpId name source = .ok (id, db')) :
    Wired db₀ idpId source db' ∧ id = db.nextId ∧ (∀ c, ¬ db'.Edge id c) ∧
      (db'.getIdpBaseGroupId idpId source = db.getIdpBaseGroupId idpId source ∨
        db'.getIdpBaseGroupId idpId source = some id) := by
  obtain ⟨group, hgroup, heq⟩ := createIdpGroup_eq
  rw [heq] at hok
  have hkeys := h.keys.insertGroup hgroup hok
  obtain ⟨-, rfl, rfl⟩ := Db.insertGroup_eq_ok hok
  obtain ⟨new, hgroups, hnew⟩ := h.groups
  have hid := hgroup db.nextId
  refine ⟨⟨hkeys, Nat.le_succ_of_le h.nextId_le, ?_, ?_, h.edges⟩, hid, ?_, ?_⟩
  · rw [← h.providers]
    cases source <;> rfl
  · refine ⟨new ++ [group db.nextId], by simp [hgroups], fun g hg => ?_⟩
    rcases mem_concat_iff.mp hg with hg | rfl
    · exact hnew g hg
    · rw [hid]
      exact h.nextId_le
  · rw [hid]
    exact h.keys.not_edge_of_le (le_refl _)
  · exact getIdpBaseGroupId_append rfl (by cases source <;> rfl)

theorem getOrCreateIdpGroup_settles (h₀ : db₀.GroupKeys) (h : Wired db₀ idpId source db)
    (hname : ∀ g, db₀.getGroupByIdpAndName idpId name source = some g → MayWire db₀ idpId source g.id)
    (hbase : db.getIdpBaseGroupId idpId source = db₀.getIdpBaseGroupId idpId source) :
    (getOrCreateIdpGroup idpId name source).Ensures db (Settles db₀ idpId source) := by
  have hfresh : ∀ g, db₀.nextId ≤ g → MayWire db₀ idpId source g := fun g hg _ _ =>
    .inr (.inr (h₀.not_edge_of_le hg))
  refine .read ?_
  cases hfind : db.getGroupByIdpAndName idpId name source with
  | some g =>
    have hmay : MayWire db₀ idpId source g.id := by
      rcases h.existing hfind with hold | hnew
      · exact hname g hold
      · exact hfresh g.id hnew
    refine (ensureUmbrellaRelationship_settles h hmay hbase).bind ?_ ?_
    · rintro _ db' ⟨hwired, hbase'⟩
      exact ⟨hwired, fun _ _ => hbase' () rfl⟩
    · rintro e db' ⟨hwired, -⟩
      exact ⟨hwired, fun _ h => by cases h⟩
  | none =>
    refine ensures_bind.mpr (ensures_tx.mpr ⟨fun id db₁ hok => ?_, fun e _ => ⟨h, fun _ h => by cases h⟩⟩)
    obtain ⟨hwired, rfl, hleaf, hbase₁⟩ := h.createIdpGroup hok
    rcases hbase₁ with hsame | hself
    · refine (ensureUmbrellaRelationship_settles hwired (hfresh _ h.nextId_le) (hsame.trans hbase)).bind ?_ ?_
      · rintro _ db' ⟨hwired', hbase'⟩
        exact ⟨hwired', fun _ _ => hbase' () rfl⟩
      · rintro e db' ⟨hwired', -⟩
        exact ⟨hwired', fun _ h => by cases h⟩
    · -- the new group bears the provider's name, so it has become the base group itself
      refine (ensureUmbrellaRelationship_self hself (hleaf _)).bind ?_ ?_
      · rintro a db' ⟨⟨e, he⟩, -⟩
        cases he
      · rintro e db' ⟨-, rfl⟩
        exact ⟨hwired, fun _ h => by cases h⟩

variable {names : List Text}

theorem resolveGroupNames_settles (h₀ : db₀.GroupKeys)
    (hnames : ∀ name ∈ names, ∀ g, db₀.getGroupByIdpAndName idpId name source = some g →
      MayWire db₀ idpId source g.id) (h : Wired db₀ idpId source db)
    (hbase : db.getIdpBaseGroupId idpId source = db₀.getIdpBaseGroupId idpId source) :
    (resolveGroupNames idpId source names).Ensures db (Settles db₀ idpId source) := by
  induction names generalizing db with
  | nil => exact ⟨h, fun _ _ => hbase⟩
  | cons name names ih =>
    rw [forall_mem_cons] at hnames
    refine (getOrCreateIdpGroup_settles h₀ h hnames.1 hbase).bind ?_ ?_
    · rintro ⟨groupId, created⟩ db₁ ⟨hwired, hbase₁⟩
      refine (ih hnames.2 hwired (hbase₁ _ rfl)).bind ?_ ?_
      · rintro others db₂ ⟨hwired₂, hbase₂⟩
        exact ⟨hwired₂, fun _ _ => hbase₂ others rfl⟩
      · rintro e db₂ ⟨hwired₂, -⟩
        exact ⟨hwired₂, fun _ h => by cases h⟩
    · rintro e db₁ ⟨hwired, -⟩
      exact ⟨hwired, fun _ h => by cases h⟩

theorem Wired.setMemberships (h : Wired db₀ idpId source db) {memberships : List Membership} :
    Wired db₀ idpId source { db with memberships } where
  keys := ⟨h.keys.ids, h.keys.fresh, h.keys.endpoints, h.keys.keyed⟩
  nextId_le := h.nextId_le
  providers := by
    rw [← h.providers]
    cases source <;> rfl
  groups := h.groups
  edges := h.edges

theorem syncUserIdpGroups_wired (h₀ : db₀.GroupKeys) {userId : Id}
    (hnames : ∀ name ∈ names, ∀ g, db₀.getGroupByIdpAndName idpId name source = some g →
      MayWire db₀ idpId source g.id) :
    Wired db₀ idpId source ((syncUserIdpGroups userId idpId names source).exec db₀) := by
  change (syncUserIdpGroups userId idpId names source).Ensures db₀ fun _ db' => Wired db₀ idpId source db'
  refine .read ?_
  refine (resolveGroupNames_settles h₀ hnames (.refl h₀) rfl).bind ?_ fun e db' hs => hs.1
  rintro resolved db₁ ⟨h₁, -⟩
  refine .read ?_
  refine ensures_bind.mpr (ensures_bind.mpr (ensures_tx.mpr ⟨fun n db₂ hok => ?_, fun e _ => h₁⟩))
  obtain ⟨hframe, -⟩ := Db.bulkAddUserToGroups_eq_ok hok
  rw [hframe]
  exact h₁.setMemberships.setMemberships

theorem Wired.forward (h : Wired db₀ idpId source db) (hedge : db.Edge base g)
    (hnew : ¬ db₀.Edge base g) : base ≠ g ∧ ¬ ReflTransGen db.Edge g base := by
  obtain ⟨hbase, hne, hleaf⟩ := (h.edges base g hedge).resolve_left hnew
  refine ⟨hne, fun hreach => ?_⟩
  rcases ReflTransGen.cases_head hreach with heq | ⟨c, hgc, -⟩
  · exact hne heq.symm
  · rcases h.edges g c hgc with hold | ⟨hbase', -, -⟩
    · exact hleaf c hold
    · rw [hbase] at hbase'
      exact hne (Option.some.inj hbase')

end SignIn

namespace UmbrellaStep

variable {db : Db}

theorem mayWire_of_claimsLeaves {userId idpId : Id} {source : Source}
    (h : ClaimsLeaves db (.signIn userId idpId names source)) :
    ∀ name ∈ names, ∀ g, db.getGroupByIdpAndName idpId name source = some g → MayWire db idpId source g.id := by
  intro name hname g hg base hbase
  rcases h base hbase name hname g hg with hself | hbelow | hleaf
  · exact .inl hself
  · exact .inr (.inl (of_decide_eq_true hbelow))
  · exact .inr (.inr fun c hc => hleaf _ hc rfl)

variable {user : RequestingUser} {step : UmbrellaStep}

theorem groupKeys_update {idpId : Id} {data : IdPUpdate} :
    (updateIdentityProvider user idpId data).Within (Preserves Db.GroupKeys) := by
  refine .require fun _ => .orRaise fun _ => ?_
  refine within_whenever fun _ => within_tx fun db _ db' hok h => ?_
  unfold Db.updateIdentityProvider at hok
  split_ifs at hok
  obtain rfl := Except.ok_snd hok
  exact ⟨h.ids, h.fresh, h.endpoints, h.keyed⟩

theorem groupKeys_addChild {p c : Id} : (WeftId.addChild user p c).Within (Preserves Db.GroupKeys) := by
  refine .require fun _ => .require fun _ =>
    .orRaise fun _ => .orRaise fun _ =>
    .read fun _ => .require fun _ =>
    .read fun _ => .require fun _ =>
    .read fun _ => .require fun _ =>
    within_bind (within_tx fun db _ db' hok h => ?_) fun _ => within_pure ()
  rcases Db.addGroupRelationship_eq_ok hok with ⟨-, rfl⟩ | ⟨-, -, hp, hc, rfl⟩
  · exact h
  · exact h.addGroupRelationship hp hc

theorem groupKeys_exec (h : db.GroupKeys) (hstep : ClaimsLeaves db step) : (step.exec db).GroupKeys := by
  cases step with
  | signIn =>
    exact (syncUserIdpGroups_wired h (mayWire_of_claimsLeaves hstep)).keys
  | update => exact groupKeys_update db h
  | addChild => exact groupKeys_addChild db h

theorem wiresForward_of_claimsLeaves (h : db.GroupKeys) (hstep : ClaimsLeaves db step) : WiresForward db step := by
  cases step with
  | signIn =>
    intro base g hedge hnew
    exact (syncUserIdpGroups_wired h (mayWire_of_claimsLeaves hstep)).forward hedge hnew
  | update => trivial
  | addChild => trivial

/-- In every run whose sign-ins claim, besides the base group and what is already below it, only groups
without children, the automatic wiring adds no edge to its own start and none that closes a cycle. -/
theorem wiring_closes_no_cycle (db : Db) (h : db.GroupKeys) (steps : List UmbrellaStep)
    (hsteps : Run.Along exec ClaimsLeaves db steps) : Run.Along exec WiresForward db steps := by
  intro before step after hsplit
  have hbefore : Run.Along exec ClaimsLeaves db before := by
    rw [hsplit] at hsteps
    exact hsteps.left
  have hkeys : (Run.run exec db before).GroupKeys :=
    Run.invariant_of_along (fun _ _ hi hP => groupKeys_exec hi hP) h hbefore
  exact wiresForward_of_claimsLeaves hkeys (hsteps before step after hsplit)

def newProvider : Db where
  nextId := 4
  users := [{ id := 1 }]
  identityProviders := [{ id := 2, name := "Okta" }]
  groups := [{ id := 3, name := "Okta", groupType := .idp, idpId := some 2 }]
  lineage := [⟨3, 3, 0⟩]

theorem groupKeys_newProvider : newProvider.GroupKeys := by
  refine ⟨by decide, by decide, fun a b hab => ?_, by decide⟩
  simp [Db.Edge, newProvider] at hab

/-- The provider takes the name of a claimed group, and then the old base group is claimed. -/
theorem renamed_provider_closes_cycle : newProvider.GroupKeys ∧ ¬ Run.Along exec WiresForward newProvider
      [.signIn 1 2 ["Staff"] .saml, .update { id := 1, role := .superAdmin } 2 { name := some "Staff".toList },
        .signIn 1 2 ["Okta"] .saml] := by
  refine ⟨groupKeys_newProvider, fun h => ?_⟩
  have hlast := h [.signIn 1 2 ["Staff"] .saml,
    .update { id := 1, role := .superAdmin } 2 { name := some "Staff".toList }] _ [] rfl
  refine (hlast 4 3 (by decide +kernel) (by decide +kernel)).2 (.single ?_)
  decide +kernel

theorem claimed_leaves_are_wired : Run.Along exec WiresForward newProvider
      [.signIn 1 2 ["Staff", "Admins"] .saml,
        .update { id := 1, role := .superAdmin } 2 { name := some "Staff".toList },
        .signIn 1 2 ["Admins"] .saml] :=
  wiring_closes_no_cycle newProvider groupKeys_newProvider _ (by decide +kernel)

end UmbrellaStep

end WeftId
