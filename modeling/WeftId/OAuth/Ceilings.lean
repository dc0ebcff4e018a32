import WeftId.OAuth.Registration

/-!
What an administrator required of a client that registered itself, against the updates the client makes
later: pushed authorization requests, and the sector of its pairwise subjects.
-/

namespace WeftId

open List hiding lookup

open Proc Run Check

namespace Registration

def submitted (fields : Json.Dict) (name : String) : List Text :=
  match Json.field fields name with
  | .arr items => items.filterMap strItem
  | _ => []

variable {α : Type} {metadata : Json} {maxLength : Nat}

section Metadata

variable {env : RegistrationEnv} {documents : SectorDocuments} {fields : Json.Dict}

theorem filterMap_of_mapM {β : Type} {f : α → Option β} {l : List α} {l' : List β} (h : l.mapM f = some l') :
    l.filterMap f = l' := by
  induction l generalizing l' with
  | nil => simpa using h
  | cons a l ih =>
    cases ha : f a with
    | none => simp [ha] at h
    | some b =>
      cases hl : l.mapM f with
      | none => simp [hl] at h
      | some rest =>
        obtain rfl : b :: rest = l' := by simpa [ha, hl] using h
        simp [ha, ih hl]

variable {accepted : Accepted} {name : String} {supported : List (String × α)}

theorem submitted_of_strList {code : String} {maxItems : Nat} {values : Option (List Text)}
    (h : strList fields name maxItems maxLength code = .ok values) : submitted fields name = values.getD [] := by
  unfold strList at h
  unfold submitted
  cases hfield : Json.field fields name with
  | null =>
    obtain rfl : none = values := by simpa [hfield] using h
    rfl
  | arr items =>
    cases hitems : items.mapM strItem with
    | none => simp [hfield, hitems] at h
    | some found =>
      simp only [hfield, hitems] at h
      split at h
      · obtain rfl := Except.ok.inj h
        exact filterMap_of_mapM hitems
      · cases h
  | _ => simp [hfield] at h

theorem mem_choiceList [BEq α] [LawfulBEq α]
    {default choices : List α} (h : choiceList fields name supported default = .ok choices) {a : α} :
    a ∈ choices ↔ if submitted fields name = [] then a ∈ default
      else ∃ value ∈ submitted fields name, findChoice supported value = some a := by
  simp only [choiceList, bind_eq_ok] at h
  obtain ⟨values, hvalues, h⟩ := h
  rw [submitted_of_strList hvalues]
  cases values with
  | none =>
    obtain rfl : default = choices := by simpa using h
    simp
  | some values =>
    cases values with
    | nil =>
      obtain rfl : default = choices := by simpa using h
      simp
    | cons value values =>
      cases hfound : (value :: values).mapM (findChoice supported) with
      | none => simp [hfound] at h
      | some found =>
        obtain rfl : found.eraseDups = choices := by simpa [hfound] using h
        rw [← filterMap_of_mapM hfound]
        simp

theorem findChoice_eq_some (hnames : (supported.map (·.1)).Nodup)
    {value : Text} {a : α} : findChoice supported value = some a ↔
      ∃ entry ∈ supported, entry.1.toList = value ∧ entry.2 = a := by
  constructor
  · intro h
    obtain ⟨entry, hentry, rfl⟩ := Option.map_eq_some_iff.mp h
    have hname : entry.1.toList = value := by simpa using find?_some hentry
    exact ⟨entry, mem_of_find?_eq_some hentry, hname, rfl⟩
  · rintro ⟨entry, hentry, hname, rfl⟩
    cases hfind : supported.find? (·.1.toList = value) with
    | none =>
      rw [find?_eq_none] at hfind
      exact absurd (by simpa using hname) (hfind entry hentry)
    | some other =>
      have hother : other.1.toList = value := by simpa using find?_some hfind
      have hsame := String.toList_inj.mp (hother.trans hname.symm)
      obtain rfl := inj_on_of_nodup_map hnames (mem_of_find?_eq_some hfind) hentry hsame
      simp [findChoice, hfind]

theorem mem_grantTypes {choices : List GrantType}
    (h : choiceList fields "grant_types" supportedGrantTypes [.authorizationCode] = .ok choices) :
    (.authorizationCode ∈ choices ↔
      submitted fields "grant_types" = [] ∨ "authorization_code".toList ∈ submitted fields "grant_types") ∧
    (.deviceCode ∈ choices ↔ deviceCodeGrantType.toList ∈ submitted fields "grant_types") := by
  have hnames : (supportedGrantTypes.map (·.1)).Nodup := by decide
  rw [mem_choiceList h, mem_choiceList h]
  by_cases hempty : submitted fields "grant_types" = []
  · simp [hempty]
  · simp only [findChoice_eq_some hnames]
    simp [supportedGrantTypes, hempty]

theorem flag_eq_ok {default b : Bool} (h : flag fields name default = .ok b) :
    b = default ∨ Json.field fields name = .bool b := by
  unfold flag at h
  split at h
  · exact .inl (Except.ok.inj h).symm
  · split at h
    · rename_i value hfield
      obtain rfl := Except.ok.inj h
      exact .inr hfield
    · cases h

theorem validateFlow_eq_ok {flow : Flow} (h : validateFlow env fields = .ok flow) : (flow.usesCode ↔
      submitted fields "grant_types" = [] ∨ "authorization_code".toList ∈ submitted fields "grant_types") ∧
    (flow.usesDevice ↔ deviceCodeGrantType.toList ∈ submitted fields "grant_types") ∧
    (flow.redirectUris ≠ [] → ∀ uri, uri ∈ flow.redirectUris ↔ uri ∈ submitted fields "redirect_uris") := by
  simp only [validateFlow, bind_eq_ok] at h
  obtain ⟨applicationType, -, grantTypes, hgrants, _, -, authMethod, -, _, -, h⟩ := h
  obtain ⟨hcode, hdevice⟩ := mem_grantTypes hgrants
  split at h
  · simp only [bind_eq_ok, pure_eq_ok] at h
    obtain ⟨redirectUris, hredirects, responseTypes, -, rfl⟩ := h
    refine ⟨by simpa [Flow.usesCode] using hcode, by simpa [Flow.usesDevice] using hdevice, fun _ uri => ?_⟩
    simp only [validateRedirectUris, bind_eq_ok] at hredirects
    obtain ⟨values, hvalues, h⟩ := hredirects
    rw [submitted_of_strList hvalues]
    split at h
    · cases h
    · cases h
    · split at h
      · cases h
      · obtain rfl := pure_eq_ok.mp h
        simp
  · simp only [bind_eq_ok, pure_eq_ok] at h
    obtain ⟨_, -, _, -, rfl⟩ := h
    exact ⟨by simpa [Flow.usesCode] using hcode, by simpa [Flow.usesDevice] using hdevice, fun hne => absurd rfl hne⟩

structure Accepts (env : RegistrationEnv) (documents : SectorDocuments) (fields : Json.Dict) (accepted : Accepted) :
    Prop where
  usesCode : .authorizationCode ∈ accepted.extra.grantTypes ↔
    submitted fields "grant_types" = [] ∨ "authorization_code".toList ∈ submitted fields "grant_types"
  usesDevice : accepted.deviceGrantEnabled ↔ deviceCodeGrantType.toList ∈ submitted fields "grant_types"
  redirectUris : accepted.redirectUris ≠ [] →
    ∀ uri, uri ∈ accepted.redirectUris ↔ uri ∈ submitted fields "redirect_uris"
  asksForPar : accepted.requirePushedAuthorizationRequests →
    Json.field fields "require_pushed_authorization_requests" = .bool true
  recordsPar : accepted.extra.requirePushedAuthorizationRequests = accepted.requirePushedAuthorizationRequests
  recordsPairwise : accepted.extra.pairwise ↔ accepted.subjectType = .pairwise
  subject : ∃ flow : Flow, flow.redirectUris = accepted.redirectUris ∧ flow.usesDevice = accepted.deviceGrantEnabled ∧
    validateSubject env documents fields flow = .ok (accepted.subjectType, accepted.sectorIdentifierUri)

theorem validateRequests_eq_ok {flow : Flow} {keys : Keys} {requests : RequestSettings}
    (h : validateRequests env fields flow keys = .ok requests) (hpar : requests.requirePar = true) :
    Json.field fields "require_pushed_authorization_requests" = .bool true := by
  simp only [validateRequests, bind_eq_ok, pure_eq_ok] at h
  obtain ⟨_, -, _, -, _, -, _, -, _, -, requirePar, hflag, _, -, rfl⟩ := h
  rcases flag_eq_ok hflag with hfalse | hfield
  · simp [hfalse] at hpar
  · rw [hfield]
    exact congrArg Json.bool hpar

theorem accepts_of_validateClientMetadata
    (h : validateClientMetadata env documents (.obj fields) = .ok accepted) :
    Accepts env documents fields accepted := by
  simp only [validateClientMetadata] at h
  split at h
  · cases h
  · simp only [bind_eq_ok, pure_eq_ok] at h
    obtain ⟨_, -, flow, hflow, _, -, _, -, keys, -, logout, -, requests, hrequests, ⟨subjectType, sectorUri⟩, hsubject,
      _, -, _, -, _, -, _, -, rfl⟩ := h
    obtain ⟨hcode, hdevice, hredirects⟩ := validateFlow_eq_ok hflow
    exact {
      usesCode := by simpa [Flow.usesCode] using hcode
      usesDevice := hdevice
      redirectUris := hredirects
      asksForPar := validateRequests_eq_ok hrequests
      recordsPar := rfl
      recordsPairwise := by simp
      subject := ⟨flow, rfl, rfl, hsubject⟩ }

end Metadata

section Updates

variable {env : RegistrationEnv} {documents : SectorDocuments} {r : Registry} {client : RegisteredClient}
  {metadata : Json} {replacement : Replacement}

structure Resolves (env : RegistrationEnv) (documents : SectorDocuments) (client : RegisteredClient)
    (fields : Json.Dict) (accepted : Accepted) (replacement : Replacement) : Prop where
  accepts : Accepts env documents fields accepted
  kept : keepSubject env documents client
    { accepted with requirePushedAuthorizationRequests := replacement.accepted.requirePushedAuthorizationRequests } =
      .ok replacement
  requirePar : replacement.accepted.requirePushedAuthorizationRequests =
    (accepted.requirePushedAuthorizationRequests ||
      (client.adminRequiredPar && decide (.authorizationCode ∈ accepted.extra.grantTypes)))
  recordsPar : replacement.accepted.extra.requirePushedAuthorizationRequests =
    accepted.extra.requirePushedAuthorizationRequests
  deviceGrant : replacement.accepted.deviceGrantEnabled = accepted.deviceGrantEnabled
  redirectUris : replacement.accepted.redirectUris = accepted.redirectUris

theorem keepSubject_eq_ok (h : keepSubject env documents client accepted = .ok replacement) :
    replacement.accepted.requirePushedAuthorizationRequests = accepted.requirePushedAuthorizationRequests ∧
      replacement.accepted.extra.requirePushedAuthorizationRequests =
        accepted.extra.requirePushedAuthorizationRequests ∧
      replacement.accepted.deviceGrantEnabled = accepted.deviceGrantEnabled ∧
      replacement.accepted.redirectUris = accepted.redirectUris := by
  unfold keepSubject at h
  split at h
  · simp only [bind_eq_ok, pure_eq_ok] at h
    obtain ⟨_, -, rfl⟩ := h
    simp
  · obtain rfl := pure_eq_ok.mp h
    simp

theorem resolveUpdate_eq_ok {stored : Option RegisteredClient}
    (h : resolveUpdate env documents client stored metadata = .ok replacement) :
    ∃ fields accepted, metadata = .obj fields ∧ Resolves env documents client fields accepted replacement := by
  cases metadata with
  | obj fields =>
    simp only [resolveUpdate, bind_eq_ok] at h
    obtain ⟨_, -, _, -, accepted, haccepted, _, -, _, -, h⟩ := h
    obtain ⟨hpar, hrecords, hdevice, hredirects⟩ := keepSubject_eq_ok h
    refine ⟨fields, accepted, rfl, accepts_of_validateClientMetadata haccepted, ?_, hpar, hrecords, hdevice, hredirects⟩
    rw [hpar]
    exact h
  | _ => simp [resolveUpdate] at h

theorem authenticateRegistration_eq_ok (h : authenticateRegistration r clientId token = .ok client) :
    r.getClientByClientId clientId = some client ∧ client.dynamicallyRegistered ∧
      client.registrationAccessToken = token := by
  unfold authenticateRegistration at h
  split at h
  · cases h
  · cases h
  · split at h
    · cases h
    · rename_i found hfound
      split at h
      · rename_i hvalid
        obtain rfl := Except.ok.inj h
        exact ⟨hfound, hvalid.1, hvalid.2.2⟩
      · cases h

theorem getClientByClientId_eq_some (h : r.getClientByClientId clientId = some client) :
    client ∈ r.clients ∧ client.clientId = clientId := by
  have hid : client.clientId = clientId := by simpa using find?_some h
  exact ⟨mem_of_find?_eq_some h, hid⟩

theorem putClient_cases {clientId : Text}
    {token : Option Text} : (∃ e, putClient env documents clientId token metadata r = (.error e, r)) ∨
      ∃ client replacement, (r.getClientByClientId clientId = some client ∧ client.dynamicallyRegistered ∧
          client.registrationAccessToken = token) ∧
        resolveUpdate env documents client (r.getClientByClientId client.clientId) metadata = .ok replacement ∧
        putClient env documents clientId token metadata r = (.ok replacement,
          (r.replaceRegisteredClient clientId replacement.accepted token (env.opaqueToken r.nextId)).2) := by
  cases hclient : authenticateRegistration r clientId token with
  | error e => exact .inl ⟨e, by simp [putClient, lookup, Bind.bind, hclient]⟩
  | ok client =>
    obtain ⟨hfound, hdynamic, htoken⟩ := authenticateRegistration_eq_ok hclient
    obtain ⟨hmem, rfl⟩ := getClientByClientId_eq_some hfound
    subst htoken
    cases hresolve : resolveUpdate env documents client (r.getClientByClientId client.clientId) metadata with
    | error e =>
      exact .inl ⟨e, by simp [putClient, updateClientConfiguration, lookup, Bind.bind, hclient, hresolve]⟩
    | ok replacement =>
      refine .inr ⟨client, replacement, ⟨hfound, hdynamic, rfl⟩, hresolve, ?_⟩
      have hreplaced : ∀ newToken, (r.replaceRegisteredClient client.clientId replacement.accepted
          client.registrationAccessToken newToken).1 = true := by
        intro newToken
        simp only [Registry.replaceRegisteredClient, any_eq_true]
        exact ⟨client, hmem, by simp [hdynamic]⟩
      simp [putClient, updateClientConfiguration, lookup, Bind.bind, hclient, hresolve, hreplaced, require]

end Updates

section PushedRequests

variable {env : RegistrationEnv} {documents : SectorDocuments} {r : Registry} {c : Text} {update : ClientUpdate}
  {user : RequestingUser}

/-- The client exists, pushed authorization requests are required of it, and it did not ask for them. -/
structure RequiredByAdmin (c : Text) (r : Registry) : Prop where
  exists_client : ∃ client ∈ r.clients, client.clientId = c
  required : ∀ client ∈ r.clients, client.clientId = c →
    client.requirePushedAuthorizationRequests ∧ client.askedForPar = false

/-- The update neither asks for pushed authorization requests nor gives up the authorization code grant. -/
def LeavesParAlone (metadata : Json) : Prop :=
  ∀ fields, metadata = .obj fields →
    Json.field fields "require_pushed_authorization_requests" ≠ .bool true ∧
      (submitted fields "grant_types" = [] ∨ "authorization_code".toList ∈ submitted fields "grant_types")

/-- The client's own updates leave the requirement alone, and no administrator switches it off. -/
def RegistrationEvent.LeavesParAlone (c : Text) : RegistrationEvent → Prop
  | .put _ clientId _ metadata => clientId = c → Registration.LeavesParAlone metadata
  | .update _ clientId change => clientId = c → change.requirePushedAuthorizationRequests ≠ some false
  | _ => True

theorem RequiredByAdmin.of_map (h : RequiredByAdmin c r) {r' : Registry} {p : RegisteredClient → Bool}
    {f : RegisteredClient → RegisteredClient}
    (hmap : r'.clients = r.clients.map fun client => if p client then f client else client)
    (hid : ∀ client, (f client).clientId = client.clientId)
    (hf : ∀ client ∈ r.clients, p client → client.clientId = c → client.requirePushedAuthorizationRequests →
      client.askedForPar = false → (f client).requirePushedAuthorizationRequests ∧ (f client).askedForPar = false) :
    RequiredByAdmin c r' := by
  obtain ⟨⟨client, hmem, hc⟩, hrequired⟩ := h
  refine ⟨⟨_, by rw [hmap]; exact mem_map_of_mem hmem, ?_⟩, fun client' hmem' hc' => ?_⟩
  · split
    · rw [hid, hc]
    · exact hc
  · rw [hmap] at hmem'
    obtain ⟨client, hmem, rfl⟩ := mem_map.mp hmem'
    by_cases hp : p client = true
    · rw [if_pos hp, hid] at hc'
      obtain ⟨hpar, hasked⟩ := hrequired client hmem hc'
      rw [if_pos hp]
      exact hf client hmem hp hc' hpar hasked
    · rw [if_neg hp] at hc' ⊢
      exact hrequired client hmem hc'

theorem requiredByAdmin_putClient (h : RequiredByAdmin c r) (halone : clientId = c → LeavesParAlone metadata) :
    RequiredByAdmin c ((putClient env documents clientId token metadata).exec r) := by
  rcases putClient_cases with ⟨e, heq⟩ | ⟨client, replacement, ⟨hfound, -, -⟩, hresolve, heq⟩
  · rw [exec, heq]
    exact h
  · rw [exec, heq]
    obtain ⟨hmem, hid⟩ := getClientByClientId_eq_some hfound
    obtain ⟨fields, accepted, rfl, hresolves⟩ := resolveUpdate_eq_ok hresolve
    refine h.of_map rfl (fun _ => rfl) fun client' hmem' hp hc _ _ => ?_
    obtain rfl : clientId = c := by simp_all
    obtain ⟨hasks, hcode⟩ := halone rfl fields rfl
    obtain ⟨hpar, hasked⟩ := h.required client hmem hid
    have hadmin : client.adminRequiredPar = true := by simp [RegisteredClient.adminRequiredPar, hpar, hasked]
    have hown : accepted.requirePushedAuthorizationRequests = false := by
      rw [← Bool.not_eq_true]
      exact fun hown => hasks (hresolves.accepts.asksForPar hown)
    constructor
    · change replacement.accepted.requirePushedAuthorizationRequests = true
      simp [hresolves.requirePar, hadmin, hresolves.accepts.usesCode.mpr hcode]
    · change Option.any _ (some replacement.accepted.extra) = false
      simp [hresolves.recordsPar, hresolves.accepts.recordsPar, hown]

theorem validateClientUpdate_requirePar {old : RegisteredClient} {validated : ClientUpdate}
    (h : validateClientUpdate env documents old update = .ok validated) :
    validated.requirePushedAuthorizationRequests = update.requirePushedAuthorizationRequests := by
  simp only [validateClientUpdate, bind_eq_ok, pure_eq_ok] at h
  obtain ⟨_, -, _, -, _, -, _, -, _, -, _, -, _, -, _, -, _, -, _, -, _, -, _, -, _, -, _, -, rfl⟩ := h
  rfl

theorem requiredByAdmin_updateClient (h : RequiredByAdmin c r)
    (hupdate : clientId = c → update.requirePushedAuthorizationRequests ≠ some false) :
    (updateClient env documents clientId update).Ensures r fun _ r' => RequiredByAdmin c r' := by
  rw [updateClient, ensures_read_bind]
  cases hfound : r.getClientByClientId clientId with
  | none => exact h
  | some old =>
    refine Ensures.lookup (fun validated hvalidated => ?_) fun e _ => h
    refine h.of_map rfl (fun _ => rfl) fun client _ hp hc hpar hasked => ⟨?_, hasked⟩
    obtain rfl : clientId = c := by simp_all
    change validated.requirePushedAuthorizationRequests.getD client.requirePushedAuthorizationRequests = true
    rw [validateClientUpdate_requirePar hvalidated]
    cases hgiven : update.requirePushedAuthorizationRequests with
    | none => simpa using hpar
    | some required =>
      cases required with
      | true => rfl
      | false => exact absurd hgiven (hupdate rfl)

theorem requiredByAdmin_registerClient (h : RequiredByAdmin c r) :
    (registerClient env documents metadata token).Ensures r fun _ r' => RequiredByAdmin c r' := by
  refine Ensures.lookup (fun tokenId _ => ?_) fun e _ => h
  refine Ensures.lookup (fun accepted _ => ?_) fun e _ => h
  rw [ensures_read_bind, ensures_read_bind]
  refine Ensures.require h fun hfresh => ?_
  obtain ⟨⟨client, hmem, hc⟩, hrequired⟩ := h
  refine ⟨⟨client, mem_append_left _ hmem, hc⟩, fun client' hmem' hc' => ?_⟩
  rcases mem_concat_iff.mp hmem' with hmem' | rfl
  · exact hrequired client' hmem' hc'
  · simp only [any_eq_true, decide_eq_true_eq, not_exists, not_and] at hfresh
    exact absurd (hc.trans hc'.symm) (hfresh client hmem)

theorem requiredByAdmin_setClientSubjectType (h : RequiredByAdmin c r) {subjectType : Text} {sectorUri : Option Text} :
    (setClientSubjectType env documents user clientId subjectType sectorUri).Ensures r
      fun _ r' => RequiredByAdmin c r' := by
  refine Ensures.require h fun _ => Ensures.orRaise h fun old _ => ?_
  refine Ensures.lookup (fun settings _ => ?_) fun e _ => h
  refine ensures_whenever.mpr ⟨fun _ => ?_, fun _ => h⟩
  refine h.of_map rfl (fun _ => rfl) fun client _ _ _ hpar hasked => ⟨hpar, ?_⟩
  simpa [RegisteredClient.askedForPar, Option.any_map] using hasked

theorem requiredByAdmin_resetRegistrationAccessToken (h : RequiredByAdmin c r) :
    (resetRegistrationAccessToken env user clientId).Ensures r fun _ r' => RequiredByAdmin c r' := by
  refine Ensures.require h fun _ => ?_
  rw [ensures_read_bind]
  refine Ensures.orRaise h fun _ _ => ?_
  exact h.of_map rfl (fun _ => rfl) fun client _ _ _ hpar hasked => ⟨hpar, hasked⟩

theorem requiredByAdmin_step (h : RequiredByAdmin c r) {event : RegistrationEvent} (halone : event.LeavesParAlone c) :
    RequiredByAdmin c (r.step env event) := by
  cases event with
  | register => exact requiredByAdmin_registerClient h
  | put => exact requiredByAdmin_putClient h halone
  | setSubjectType => exact requiredByAdmin_setClientSubjectType h
  | update => exact requiredByAdmin_updateClient h halone
  | resetToken => exact requiredByAdmin_resetRegistrationAccessToken h

theorem requiredByAdmin_of_switch (hexists : ∃ client ∈ r.clients, client.clientId = c)
    (hasked : ∀ client ∈ r.clients, client.clientId = c → client.askedForPar = false)
    (hswitch : update.requirePushedAuthorizationRequests = some true) :
    (updateClient env documents c update).Ensures r fun result r' => result = .ok () → RequiredByAdmin c r' := by
  obtain ⟨client, hmem, hc⟩ := hexists
  rw [updateClient, ensures_read_bind]
  cases hfound : r.getClientByClientId c with
  | none =>
    rw [Registry.getClientByClientId, find?_eq_none] at hfound
    exact absurd (by simpa using hc) (hfound client hmem)
  | some old =>
    refine Ensures.lookup (fun validated hvalidated => ?_) fun e _ h => absurd h (by simp)
    intro _
    have hrequired := (validateClientUpdate_requirePar hvalidated).trans hswitch
    refine ⟨⟨_, mem_map_of_mem hmem, by simp [hc, RegisteredClient.withUpdate]⟩, fun client' hmem' hc' => ?_⟩
    obtain ⟨client, hmem, rfl⟩ := mem_map.mp hmem'
    by_cases hid : client.clientId = c
    · simp only [hid]
      exact ⟨by simp [RegisteredClient.withUpdate, hrequired], hasked client hmem hid⟩
    · simp [hid] at hc'

/-- Once an administrator required pushed authorization requests of a client that had not asked for them: in
every run in which the client's own updates leave the requirement alone, it is on in every state in which the
client is registered for the authorization code grant. -/
theorem admin_required_par_stays_required (env : RegistrationEnv) (documents : SectorDocuments)
    (r : Registry) (c : Text)
    (update : ClientUpdate) (hexists : ∃ client ∈ r.clients, client.clientId = c)
    (hasked : ∀ client ∈ r.clients, client.clientId = c → client.askedForPar = false)
    (hswitch : update.requirePushedAuthorizationRequests = some true)
    (hok : (updateClient env documents c update r).1 = .ok ()) (l : List RegistrationEvent)
    (halone : ∀ event ∈ l, event.LeavesParAlone c) :
    ∀ l₁ l₂, l = l₁ ++ l₂ →
      ∀ client ∈ (run (Registry.step env) ((updateClient env documents c update).exec r) l₁).clients,
      client.clientId = c → client.usesCode → client.requirePushedAuthorizationRequests := by
  intro l₁ l₂ hl client hmem hc _
  have hstart : RequiredByAdmin c ((updateClient env documents c update).exec r) :=
    requiredByAdmin_of_switch hexists hasked hswitch hok
  have hrun : RequiredByAdmin c (run (Registry.step env) ((updateClient env documents c update).exec r) l₁) := by
    apply invariant_of_along
    · exact fun r event h halone => requiredByAdmin_step h halone
    · exact hstart
    · intro before event after hsplit
      exact halone event (by simp [hl, hsplit])
  exact (hrun.required client hmem hc).1

def plainEnv : RegistrationEnv where
  toEnv := Env.ascii
  acceptsNetloc := fun _ => true
  ipAddress := fun _ => none
  buildsJwk := fun _ => true

def noDocuments : SectorDocuments := fun _ => .error (sectorError "The sector identifier URI could not be retrieved")

def jsonText (s : String) : Json := .str s.toList

def appMetadata (redirectUri : String) (more : Json.Dict) : Json :=
  .obj ([("client_id".toList, jsonText "0"), ("redirect_uris".toList, .arr [jsonText redirectUri])] ++ more)

def askPar : Json.Dict := [("require_pushed_authorization_requests", .bool true)]

/-- A client registered itself, and an administrator required pushed authorization requests of it. -/
def parRequired : Registry :=
  run (Registry.step plainEnv) { policy := .openToAll }
    [.register noDocuments (appMetadata "https://app.example/cb" []) none,
      .update noDocuments "0" { requirePushedAuthorizationRequests := some true }]

/-- The client asks for pushed authorization requests itself, and then drops them again. -/
theorem client_drops_required_par :
    (parRequired.clients.map fun client => (client.usesCode, client.requirePushedAuthorizationRequests,
      client.askedForPar)) = [(true, true, false)] ∧ ((run (Registry.step plainEnv) parRequired
      [.put noDocuments "0" (some "2") (appMetadata "https://app.example/cb" askPar),
        .put noDocuments "0" (some "3") (appMetadata "https://app.example/cb" [])]).clients.map
          fun client => (client.usesCode, client.requirePushedAuthorizationRequests)) = [(true, false)] := by
  decide +kernel

def selfRegistered : RegisteredClient where
  id := 0
  clientId := "0"
  clientSecret := "1"
  name := "Client"
  redirectUris := ["https://app.example/cb"]
  dynamicallyRegistered := true
  registrationAccessToken := some "2".toList
  registrationMetadata := some {
    applicationType := .web
    responseTypes := [.code]
    grantTypes := [.authorizationCode]
    tokenEndpointAuthMethod := .clientSecretBasic }

theorem renamed_client_keeps_required_par :
    let required := (updateClient plainEnv noDocuments "0".toList
      { requirePushedAuthorizationRequests := some true }).exec { nextId := 3, clients := [selfRegistered] }
    let renamed := run (Registry.step plainEnv) required [.put noDocuments "0".toList (some "2".toList)
      (appMetadata "https://app.example/cb" [("client_name".toList, jsonText "App")])]
    renamed.clients.map (·.name) = ["App".toList] ∧
      ∀ client ∈ renamed.clients, client.clientId = "0".toList → client.usesCode →
        client.requirePushedAuthorizationRequests := by
  intro required renamed
  refine ⟨by decide +kernel, ?_⟩
  apply admin_required_par_stays_required plainEnv noDocuments { nextId := 3, clients := [selfRegistered] } "0".toList
    { requirePushedAuthorizationRequests := some true } ⟨selfRegistered, mem_singleton_self _, rfl⟩ (by decide) rfl
    (by decide +kernel) [.put noDocuments "0".toList (some "2".toList)
      (appMetadata "https://app.example/cb" [("client_name".toList, jsonText "App")])] ?_ _ [] (append_nil _).symm
  intro event hevent
  obtain rfl := mem_singleton.mp hevent
  rintro - fields hfields
  obtain rfl := Json.obj.inj hfields
  refine ⟨?_, .inl rfl⟩
  change Json.null ≠ Json.bool true
  nofun

end PushedRequests

section Sectors

variable {env : RegistrationEnv} {documents : SectorDocuments} {r : Registry} {client : RegisteredClient}
  {fields : Json.Dict} {sectorUri subjectType result value : Option Text} {redirectUris : List Text} {uri : Text}

def RequestsSector (fields : Json.Dict) (uri : Text) : Prop :=
  strItem (Json.field fields "subject_type") = some "pairwise".toList ∧
    (strItem (Json.field fields "sector_identifier_uri")).map Text.strip = some uri ∧ uri ≠ []

/-- The sector of the client is the host of a document that was fetched and lists its redirect URIs. -/
def FetchedSector (env : RegistrationEnv) (documents : SectorDocuments) (fetched : List Text)
    (client : RegisteredClient) :
    Prop :=
  ∃ uri ∈ fetched, sectorHost env client = host env uri ∧
    ∃ listed, documents uri = .ok listed ∧ ∀ redirect ∈ client.redirectUris, redirect ∈ listed

/-- An administrator set pairwise subjects without a sector document, and an update with the device grant names
redirect URIs outside the sector, without a sector document of its own on their host. -/
def MovesSector (env : RegistrationEnv) (client : RegisteredClient) (fields : Json.Dict) : Prop :=
  client.adminSetPairwise ∧ cleanUri client.sectorIdentifierUri = none ∧
    deviceCodeGrantType.toList ∈ submitted fields "grant_types" ∧
    ∃ redirect ∈ submitted fields "redirect_uris", host env redirect ≠ sectorHost env client ∧
      ¬ ∃ uri, RequestsSector fields uri ∧ host env uri = host env redirect

theorem findChoice_pairwise (h : findChoice subjectTypes (Text.orElse subjectType "public") = some .pairwise) :
    subjectType = some "pairwise".toList := by
  have hnames : (subjectTypes.map (·.1)).Nodup := by decide
  rw [findChoice_eq_some hnames] at h
  have hvalue : Text.orElse subjectType "public" = "pairwise" := by
    simpa [subjectTypes, eq_comm] using h
  cases subjectType with
  | none => exact absurd hvalue (by decide)
  | some value =>
    cases value with
    | nil => exact absurd hvalue (by decide)
    | cons c rest => exact congrArg some hvalue

theorem eraseDups_eq_singleton [BEq α] [LawfulBEq α] {l : List α} {a : α} (hne : l ≠ [])
    (h : ∀ x ∈ l, x = a) : l.eraseDups = [a] := by
  cases l with
  | nil => exact absurd rfl hne
  | cons x l =>
    obtain rfl := h x mem_cons_self
    have hrest : l.filter (fun b => !b == x) = [] := by
      rw [filter_eq_nil_iff]
      intro b hb
      simp [h b (mem_cons_of_mem x hb)]
    rw [eraseDups_cons, hrest, eraseDups_nil]

theorem validateSubjectSettings_pairwise
    (h : validateSubjectSettings env documents subjectType sectorUri redirectUris = .ok (.pairwise, result)) :
    subjectType = some "pairwise".toList ∧ result = (cleanUri sectorUri).map Text.strip ∧
      (result = none → ∃ found, redirectUris ≠ [] ∧ ∀ uri ∈ redirectUris, host env uri = some found) ∧
      (∀ uri, result = some uri → ∃ listed, documents uri = .ok listed ∧
        ∀ redirect ∈ redirectUris, redirect ∈ listed) := by
  simp only [validateSubjectSettings] at h
  split at h
  · cases h
  · simp only [bind_eq_ok, pure_eq_ok, Prod.mk.injEq, reduceCtorEq, false_and, and_false, exists_false] at h
  · rename_i hpairwise
    refine ⟨findChoice_pairwise hpairwise, ?_⟩
    cases hclean : cleanUri sectorUri with
    | none =>
      simp only [hclean, bind_eq_ok, ensure_eq_ok, pure_eq_ok, Prod.mk.injEq, true_and] at h
      obtain ⟨_, ⟨hnone, hlength⟩, rfl⟩ := h
      refine ⟨rfl, fun _ => ?_, fun uri huri => absurd huri (by simp)⟩
      obtain ⟨found, hfound⟩ := length_eq_one_iff.mp hlength
      have hall : ∀ uri ∈ redirectUris, host env uri = found := by
        intro uri huri
        have hmem : host env uri ∈ (redirectUris.map (host env)).eraseDups :=
          mem_eraseDups.mpr (mem_map_of_mem huri)
        rw [hfound] at hmem
        exact mem_singleton.mp hmem
      cases found with
      | none => simp [hfound] at hnone
      | some found =>
        refine ⟨found, fun hempty => ?_, hall⟩
        simp [hempty] at hfound
    | some uri =>
      simp only [hclean, bind_eq_ok, validateSectorIdentifierUri, ensure_eq_ok, pure_eq_ok, Prod.mk.injEq,
        true_and] at h
      obtain ⟨_, ⟨_, -, rfl⟩, listed, hlisted, _, hall, rfl⟩ := h
      refine ⟨rfl, fun hnone => absurd hnone (by simp), fun uri' huri' => ?_⟩
      obtain rfl := Option.some.inj huri'
      exact ⟨listed, hlisted, hall⟩

theorem optionalStr_eq_ok (h : optionalStr fields name maxLength = .ok value) :
    value = some uri ↔ (strItem (Json.field fields name)).map Text.strip = some uri ∧ uri ≠ [] := by
  unfold optionalStr at h
  cases hfield : Json.field fields name with
  | null =>
    obtain rfl : none = value := by simpa [hfield] using h
    simp [strItem]
  | str text =>
    simp only [hfield] at h
    split at h
    · obtain rfl := Except.ok.inj h
      by_cases hblank : text.strip = []
      · simp [hblank, strItem]
      · simp only [hblank, if_false, strItem, Option.map_some, Option.some.injEq]
        constructor
        · rintro rfl
          exact ⟨rfl, hblank⟩
        · exact fun h => h.1
    · cases h
  | _ => simp [hfield] at h

theorem cleanUri_optionalStr
    (h : optionalStr fields name maxLength = .ok value) : (cleanUri value).map Text.strip = value := by
  cases value with
  | none => rfl
  | some uri =>
    obtain ⟨hstrip, hne⟩ := (optionalStr_eq_ok h).mp rfl
    obtain ⟨text, -, rfl⟩ := Option.map_eq_some_iff.mp hstrip
    simp [cleanUri, Text.strip_strip, hne]

theorem validateSubjectSettings_public
    (h : validateSubjectSettings env documents subjectType sectorUri redirectUris = .ok (.publicSubject, result)) :
    result = none ∧ subjectType ≠ some "pairwise".toList := by
  simp only [validateSubjectSettings] at h
  split at h
  · cases h
  · rename_i hpublic
    simp only [bind_eq_ok, pure_eq_ok, Prod.mk.injEq, true_and] at h
    obtain ⟨_, -, rfl⟩ := h
    refine ⟨rfl, ?_⟩
    rintro rfl
    exact absurd hpublic (by decide)
  · split at h
    · simp only [bind_eq_ok, pure_eq_ok, Prod.mk.injEq, reduceCtorEq, false_and, and_false, exists_false] at h
    · simp only [bind_eq_ok, pure_eq_ok, Prod.mk.injEq, reduceCtorEq, false_and, and_false, exists_false] at h

theorem requestedSubjectType_eq_ok (h : requestedSubjectType fields = .ok subjectType) :
    strItem (Json.field fields "subject_type") = subjectType := by
  unfold requestedSubjectType at h
  split at h
  · rename_i hfield
    rw [hfield]
    exact Except.ok.inj h
  · rename_i value hfield
    rw [hfield]
    exact Except.ok.inj h
  · cases h

theorem Accepts.requestsSector_iff (h : Accepts env documents fields accepted) :
    accepted.sectorIdentifierUri = some uri ↔ RequestsSector fields uri := by
  obtain ⟨flow, -, -, hsubject⟩ := h.subject
  simp only [validateSubject, bind_eq_ok, pure_eq_ok] at hsubject
  obtain ⟨subjectType, htype, sectorUri, hsector, ⟨found, result⟩, hsettings, _, -, heq⟩ := hsubject
  obtain ⟨rfl, rfl⟩ := Prod.mk.inj heq
  have hsettings := eq_ok_of_mapError hsettings
  have htext := requestedSubjectType_eq_ok htype
  rw [RequestsSector, htext, ← optionalStr_eq_ok hsector]
  cases hfound : accepted.subjectType with
  | pairwise =>
    rw [hfound] at hsettings
    obtain ⟨hpairwise, hresult, -⟩ := validateSubjectSettings_pairwise hsettings
    rw [hresult, cleanUri_optionalStr hsector]
    simp [hpairwise]
  | publicSubject =>
    rw [hfound] at hsettings
    obtain ⟨hresult, hpublic⟩ := validateSubjectSettings_public hsettings
    rw [hresult]
    exact ⟨fun hsome => absurd hsome (by simp), fun hrequest => absurd hrequest.1 hpublic⟩

theorem Accepts.fetched (h : Accepts env documents fields accepted) (huri : accepted.sectorIdentifierUri = some uri) :
    ∃ listed, documents uri = .ok listed ∧ ∀ redirect ∈ accepted.redirectUris, redirect ∈ listed := by
  obtain ⟨flow, hredirects, -, hsubject⟩ := h.subject
  simp only [validateSubject, bind_eq_ok, pure_eq_ok] at hsubject
  obtain ⟨subjectType, -, sectorUri, -, ⟨found, result⟩, hsettings, _, -, heq⟩ := hsubject
  obtain ⟨rfl, rfl⟩ := Prod.mk.inj heq
  have hsettings := eq_ok_of_mapError hsettings
  cases hfound : accepted.subjectType with
  | publicSubject =>
    rw [hfound] at hsettings
    rw [(validateSubjectSettings_public hsettings).1] at huri
    cases huri
  | pairwise =>
    rw [hfound] at hsettings
    rw [← hredirects]
    exact (validateSubjectSettings_pairwise hsettings).2.2.2 uri huri

theorem Accepts.sector_of_device (h : Accepts env documents fields accepted)
    (hpairwise : accepted.subjectType = .pairwise) (hdevice : accepted.deviceGrantEnabled) :
    ∃ uri, accepted.sectorIdentifierUri = some uri := by
  obtain ⟨flow, -, hflow, hsubject⟩ := h.subject
  simp only [validateSubject, bind_eq_ok, pure_eq_ok, ensure_eq_ok] at hsubject
  obtain ⟨subjectType, -, sectorUri, -, ⟨found, result⟩, -, _, hguard, heq⟩ := hsubject
  obtain ⟨rfl, rfl⟩ := Prod.mk.inj heq
  rw [← Option.ne_none_iff_exists']
  intro hnone
  exact hguard ⟨hpairwise, hflow.trans hdevice, hnone⟩

theorem sectorHost_of_uri (huri : client.sectorIdentifierUri = some uri) (hne : uri ≠ []) :
    sectorHost env client = host env uri := by
  cases uri with
  | nil => exact absurd rfl hne
  | cons c rest => simp [sectorHost, huri]

theorem sectorHost_of_redirects {found : Text} (hnone : client.sectorIdentifierUri = none)
    (hne : client.redirectUris ≠ [])
    (hall : ∀ uri ∈ client.redirectUris, host env uri = some found) : sectorHost env client = some found := by
  have hhosts : client.redirectUris.filterMap (host env) ≠ [] := by
    obtain ⟨uri, huri⟩ := exists_mem_of_ne_nil _ hne
    exact ne_nil_of_mem (mem_filterMap.mpr ⟨uri, huri, hall uri huri⟩)
  have hsame : ∀ x ∈ client.redirectUris.filterMap (host env), x = found := by
    intro x hx
    obtain ⟨uri, huri, hhost⟩ := mem_filterMap.mp hx
    rw [hall uri huri] at hhost
    exact (Option.some.inj hhost).symm
  simp [sectorHost, hnone, eraseDups_eq_singleton hhosts hsame]

theorem getClientByClientId_replace {newToken : Text}
    (hfound : r.getClientByClientId clientId = some client) (hdynamic : client.dynamicallyRegistered)
    (htoken : client.registrationAccessToken = token) :
    (r.replaceRegisteredClient clientId accepted token newToken).2.getClientByClientId clientId =
      some { client.withMetadata accepted with registrationAccessToken := some newToken } := by
  have hid := (getClientByClientId_eq_some hfound).2
  change (List.map _ r.clients).find? _ = _
  rw [find?_map]
  have hkeys : ∀ c : RegisteredClient, (if (decide (c.clientId = clientId ∧ c.dynamicallyRegistered = true ∧
      c.registrationAccessToken = token)) = true then
        { c.withMetadata accepted with registrationAccessToken := some newToken } else c).clientId = c.clientId := by
    intro c
    split <;> rfl
  simp only [Function.comp_def, hkeys]
  rw [show r.clients.find? (fun c => decide (c.clientId = clientId)) = some client from hfound]
  simp [hid, hdynamic, htoken]

theorem FetchedSector.of_uri {fetched : List Text} (huri : client.sectorIdentifierUri = some uri)
    (hne : uri ≠ []) (hmem : uri ∈ fetched)
    (hlisted : ∃ listed, documents uri = .ok listed ∧ ∀ redirect ∈ client.redirectUris, redirect ∈ listed) :
    FetchedSector env documents fetched client :=
  ⟨uri, hmem, sectorHost_of_uri huri hne, hlisted⟩

theorem strip_ne_nil_of_cleanUri {raw : Text} (h : cleanUri sectorUri = some raw) : raw.strip ≠ [] := by
  cases sectorUri with
  | none => cases h
  | some uri =>
    simp only [cleanUri, Option.bind_some] at h
    split at h
    · cases h
    · obtain rfl := Option.some.inj h
      rwa [Text.strip_strip]

theorem movesSector_iff {found : Text} (h : Accepts env documents fields accepted)
    (hadmin : client.adminSetPairwise) (hclean : cleanUri client.sectorIdentifierUri = none)
    (hne : accepted.redirectUris ≠ []) (hall : ∀ uri ∈ accepted.redirectUris, host env uri = some found) :
    MovesSector env client fields ↔ accepted.deviceGrantEnabled ∧ some found ≠ sectorHost env client ∧
      ¬ ∃ uri, accepted.sectorIdentifierUri = some uri ∧ host env uri = some found := by
  have hmem := h.redirectUris hne
  simp only [h.usesDevice, h.requestsSector_iff]
  constructor
  · rintro ⟨-, -, hasks, redirect, hredirect, hother, hown⟩
    rw [hall redirect ((hmem redirect).mpr hredirect)] at hother hown
    exact ⟨hasks, hother, hown⟩
  · rintro ⟨hasks, hother, hown⟩
    obtain ⟨redirect, hredirect⟩ := exists_mem_of_ne_nil _ hne
    refine ⟨hadmin, hclean, hasks, redirect, (hmem redirect).mp hredirect, ?_, ?_⟩
    · rwa [hall redirect hredirect]
    · rwa [hall redirect hredirect]

theorem sector_update_iff {replacement : Replacement} {after : RegisteredClient}
    (h : Resolves env documents client fields accepted replacement)
    (htype : after.subjectType = replacement.accepted.subjectType)
    (huri : after.sectorIdentifierUri = replacement.accepted.sectorIdentifierUri)
    (hdevice : after.deviceGrantEnabled = replacement.accepted.deviceGrantEnabled)
    (hredirects : after.redirectUris = replacement.accepted.redirectUris) :
    (after.subjectType = .pairwise → after.deviceGrantEnabled → sectorHost env after ≠ sectorHost env client →
      FetchedSector env documents replacement.documents after) ↔ ¬ MovesSector env client fields := by
  have hkept := h.kept
  rw [h.redirectUris] at hredirects
  rw [h.deviceGrant] at hdevice
  unfold keepSubject at hkept
  by_cases hadmin : client.adminSetPairwise = true
  · simp only [hadmin, if_true, bind_eq_ok, pure_eq_ok] at hkept
    obtain ⟨⟨subjectType, sectorUri⟩, hsettings, heq⟩ := hkept
    have hsettings := eq_ok_of_mapError hsettings
    have hdocuments : replacement.documents = accepted.sectorIdentifierUri.toList ++ sectorUri.toList := by rw [← heq]
    have hsubject : replacement.accepted.subjectType = subjectType := by rw [← heq]
    have hsector : replacement.accepted.sectorIdentifierUri = sectorUri := by rw [← heq]
    cases subjectType with
    | publicSubject => exact absurd rfl (validateSubjectSettings_public hsettings).2
    | pairwise =>
      obtain ⟨-, hresult, hsame, hfetched⟩ := validateSubjectSettings_pairwise hsettings
      cases hclean : cleanUri client.sectorIdentifierUri with
      | some raw =>
        -- the document of the administrator's sector was fetched again
        rw [hclean] at hresult
        refine iff_of_true (fun _ _ _ => ?_) fun hmoves => absurd (hmoves.2.1.symm.trans hclean) (by simp)
        refine FetchedSector.of_uri (huri.trans (hsector.trans hresult)) (strip_ne_nil_of_cleanUri hclean)
          (by simp [hdocuments, hresult]) ?_
        rw [hredirects]
        exact hfetched raw.strip hresult
      | none =>
        -- the sector follows the redirect URIs
        rw [hclean] at hresult
        obtain ⟨found, hne, hall⟩ := hsame hresult
        have hhost :=
          sectorHost_of_redirects (huri.trans (hsector.trans hresult)) (by rwa [hredirects]) (by rwa [hredirects])
        have hown : FetchedSector env documents replacement.documents after ↔
            ∃ uri, accepted.sectorIdentifierUri = some uri ∧ host env uri = some found := by
          constructor
          · rintro ⟨uri, hmem, hsectorHost, -⟩
            exact ⟨uri, by simpa [hdocuments, hresult] using hmem, hsectorHost.symm.trans hhost⟩
          · rintro ⟨uri, haccepted, hsectorHost⟩
            refine ⟨uri, by simp [hdocuments, haccepted], hhost.trans hsectorHost.symm, ?_⟩
            rw [hredirects]
            exact h.accepts.fetched haccepted
        rw [movesSector_iff h.accepts hadmin hclean hne hall, hown, hhost, hdevice]
        have hpairwise := htype.trans hsubject
        simp [hpairwise]
  · -- the client's own pairwise subjects need a fetched document
    simp only [hadmin] at hkept
    have heq := pure_eq_ok.mp hkept
    have hdocuments : replacement.documents = accepted.sectorIdentifierUri.toList := by rw [← heq]
    have hsubject : replacement.accepted.subjectType = accepted.subjectType := by rw [← heq]
    have hsector : replacement.accepted.sectorIdentifierUri = accepted.sectorIdentifierUri := by rw [← heq]
    refine iff_of_true (fun hpairwise hgrant _ => ?_) fun hmoves => hadmin hmoves.1
    have hpairwise := (htype.trans hsubject).symm.trans hpairwise
    obtain ⟨uri, haccepted⟩ := h.accepts.sector_of_device hpairwise (hdevice.symm.trans hgrant)
    obtain ⟨-, -, hne⟩ := h.accepts.requestsSector_iff.mp haccepted
    refine FetchedSector.of_uri (huri.trans (hsector.trans haccepted)) hne (by simp [hdocuments, haccepted]) ?_
    rw [hredirects]
    exact h.accepts.fetched haccepted

theorem fetchedSector_registerClient :
    (registerClient env documents metadata token).Ensures r fun result _ => ∀ client, result = .ok client →
      client.subjectType = .pairwise → client.deviceGrantEnabled →
        FetchedSector env documents client.sectorIdentifierUri.toList client := by
  have herror : ∀ e client, (.error e : Except Error RegisteredClient) = .ok client →
      client.subjectType = .pairwise → client.deviceGrantEnabled →
        FetchedSector env documents client.sectorIdentifierUri.toList client := by
    intro e client he
    cases he
  refine Ensures.lookup (fun tokenId _ => ?_) fun e _ => herror e
  refine Ensures.lookup (fun accepted haccepted => ?_) fun e _ => herror e
  rw [ensures_read_bind, ensures_read_bind]
  refine Ensures.require (herror _) fun _ client hclient hpairwise hdevice => ?_
  obtain rfl := Except.ok.inj hclient
  cases metadata with
  | obj fields =>
    have haccepts := accepts_of_validateClientMetadata haccepted
    obtain ⟨uri, hsector⟩ := haccepts.sector_of_device hpairwise hdevice
    obtain ⟨-, -, hne⟩ := haccepts.requestsSector_iff.mp hsector
    refine FetchedSector.of_uri hsector hne ?_ (haccepts.fetched hsector)
    simp [newClient, RegisteredClient.withMetadata, hsector]
  | _ => simp [validateClientMetadata] at haccepted

/-- In every state of the registry: a registration that leaves the client with pairwise subjects and the device
grant has fetched the document of its sector, and an update that leaves it so in another sector has fetched the
document of the new one just if it does not move a sector that an administrator left to the redirect URIs. -/
theorem device_client_sector_iff (env : RegistrationEnv) (documents : SectorDocuments) (r : Registry) :
    (∀ metadata token client, (registerClient env documents metadata token r).1 = .ok client →
      client.subjectType = .pairwise → client.deviceGrantEnabled →
        FetchedSector env documents client.sectorIdentifierUri.toList client) ∧
    ∀ clientId token fields replacement r',
      putClient env documents clientId token (.obj fields) r = (.ok replacement, r') →
      ∃ before after, r.getClientByClientId clientId = some before ∧ r'.getClientByClientId clientId = some after ∧
        ((after.subjectType = .pairwise → after.deviceGrantEnabled → sectorHost env after ≠ sectorHost env before →
          FetchedSector env documents replacement.documents after) ↔ ¬ MovesSector env before fields) := by
  constructor
  · intro metadata token client hok
    exact fetchedSector_registerClient client hok
  · intro clientId token fields replacement r' hput
    rcases putClient_cases with
      ⟨e, heq⟩ | ⟨client, found, ⟨hfound, hdynamic, htoken⟩, hresolve, heq⟩
    · rw [heq] at hput
      cases hput
    · rw [heq] at hput
      obtain ⟨hreplacement, rfl⟩ := Prod.mk.inj hput
      obtain rfl := Except.ok.inj hreplacement
      obtain ⟨fields', accepted, hfields, hresolves⟩ := resolveUpdate_eq_ok hresolve
      obtain rfl := Json.obj.inj hfields
      exact ⟨client, _, hfound, getClientByClientId_replace hfound hdynamic htoken,
        sector_update_iff hresolves rfl rfl rfl rfl⟩

def codeAndDevice : Json.Dict :=
  [("grant_types", .arr [jsonText "authorization_code", jsonText deviceCodeGrantType])]

def pairwiseSet : Registry :=
  run (Registry.step plainEnv) { policy := .openToAll }
    [.register noDocuments (appMetadata "https://app.example/cb" codeAndDevice) none,
      .setSubjectType noDocuments { id := 9, role := .admin } "0" "pairwise" none]

/-- The client names a redirect URI of another app, and is in that app's sector from then on. -/
theorem client_moves_into_another_sector :
    let update := putClient plainEnv noDocuments "0" (some "2")
      (appMetadata "https://victim.example/cb" codeAndDevice) pairwiseSet
    (pairwiseSet.clients.map fun client => (client.askedForPairwise, sectorHost plainEnv client)) =
        [(false, some "app.example".toList)] ∧
      (update.2.clients.map fun client => (client.subjectType, client.deviceGrantEnabled, sectorHost plainEnv client)) =
        [(.pairwise, true, some "victim.example".toList)] ∧
      update.1.toOption.map (·.documents) = some [] := by
  decide +kernel

/-- The client moves its sector to a host where it has a document of its own. -/
theorem device_client_sector_iff_own_document :
    let documents : SectorDocuments := fun _ => .ok ["https://new.example/cb"]
    let fields : Json.Dict := [("client_id".toList, jsonText "0"),
      ("redirect_uris", .arr [jsonText "https://new.example/cb"]),
      ("subject_type", jsonText "pairwise"), ("sector_identifier_uri", jsonText "https://new.example/sector")] ++
        codeAndDevice
    ∃ replacement r', putClient plainEnv documents "0" (some "2") (.obj fields) pairwiseSet = (.ok replacement, r') ∧
      pairwiseSet.clients.map (sectorHost plainEnv) = [some "app.example".toList] ∧
      r'.clients.map (sectorHost plainEnv) = [some "new.example".toList] ∧
      ∃ before after, pairwiseSet.getClientByClientId "0" = some before ∧ r'.getClientByClientId "0" = some after ∧
        ((after.subjectType = .pairwise → after.deviceGrantEnabled →
          sectorHost plainEnv after ≠ sectorHost plainEnv before →
            FetchedSector plainEnv documents replacement.documents after) ↔ ¬ MovesSector plainEnv before fields) := by
  intro documents fields
  have hok : (putClient plainEnv documents "0" (some "2") (.obj fields) pairwiseSet).1.isOk = true := by
    decide +kernel
  have hmoved : (putClient plainEnv documents "0" (some "2") (.obj fields) pairwiseSet).2.clients.map
      (sectorHost plainEnv) = [some "new.example".toList] := by
    decide +kernel
  rcases hput : putClient plainEnv documents "0" (some "2") (.obj fields) pairwiseSet with ⟨result, r'⟩
  rw [hput] at hok hmoved
  cases result with
  | error e => cases hok
  | ok replacement =>
    have hiff := (device_client_sector_iff plainEnv documents pairwiseSet).2 _ _ fields replacement r' hput
    exact ⟨replacement, r', rfl, by decide +kernel, hmoved, hiff⟩

end Sectors

end Registration
end WeftId
