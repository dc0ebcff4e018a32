import WeftId.OAuth.TokenEndpoint
import WeftId.Lib.Contest

/-!
The device grant under concurrent requests.  The token request of the device and the decision of the user
read the device code first and then run one conditional statement on it; between the two any other request
may run.
-/

namespace WeftId

open List Proc Run

inductive DeviceStage
  | polling (client : OAuth2Client) (deviceCode : Text)
  | recording (requestId : Id)
  | checkingAccess (client : OAuth2Client) (request : DeviceCode)
  | redeeming (client : OAuth2Client) (request : DeviceCode) (userId : Id)
  | issuing (client : OAuth2Client) (request : DeviceCode) (userId : Id)
  /-- The answer, with the device code that was redeemed for it. -/
  | answered (redeemed : Option Id) (answer : Except Error TokenAnswer)
  | choosing (userId : Id) (stash : DeviceVerification) (action : String)
  | allowing (userId : Id) (client : OAuth2Client) (requestId : Id)
  | deciding (userId : Id) (requestId : Id) (approved : Bool)
  /-- The outcome, with the device code that was decided. -/
  | decided (recorded : Option Id) (outcome : DeviceOutcome)

namespace DeviceStage

def outcome (outcome : PollOutcome) : DeviceStage := answered none (.ok outcome.refusal)

/-- `poll` up to `record_poll`. -/
def look (db : Db) (client : OAuth2Client) (deviceCode : Text) : DeviceStage :=
  match db.findDeviceCode deviceCode client.id with
  | none => outcome .invalidGrant
  | some request =>
    if request.status = .redeemed then outcome .invalidGrant
    else if request.expiresAt ≤ db.now then outcome .expiredToken
    else
      match request.status with
      | .denied => outcome .accessDenied
      | .approved => checkingAccess client request
      | _ => recording request.id

/-- `record_poll` looks at the row again; the row may be gone by then. -/
def record (db : Db) (requestId : Id) : DeviceStage :=
  if db.oauth2DeviceCodes.any fun d => d.id = requestId ∧ db.tooSoon d then outcome .slowDown
  else outcome .authorizationPending

def checkAccess (db : Db) (client : OAuth2Client) (request : DeviceCode) : DeviceStage :=
  match request.userId with
  | none => answered none (.error (.exception "DatabaseError"))
  | some userId =>
    if db.mayUse client userId then redeeming client request userId
    else answered none (.ok (.refused "access_denied" "The user does not have access"))

def choose (db : Db) (userId : Id) (stash : DeviceVerification) (action : String) : DeviceStage :=
  if stash.userId ≠ userId ∨ db.time - stash.createdAt > 600 then decided none .expired
  else
    match db.findPendingRequest stash.userCode with
    | none => decided none .expired
    | some (request, client) =>
      if request.id ≠ stash.id then decided none .expired
      else if action = "deny" then deciding userId request.id false
      else if action = "allow" then allowing userId client request.id
      else decided none .expired

variable (env : Env)

def act (db : Db) : DeviceStage → Db × DeviceStage
  | polling client deviceCode => (db, look db client deviceCode)
  | recording requestId => (db.recordPoll requestId, record db requestId)
  | checkingAccess client request => (db, checkAccess db client request)
  | redeeming client request userId =>
    ((db.redeemDeviceCode request.id).2,
      if (db.redeemDeviceCode request.id).1 then issuing client request userId else outcome .invalidGrant)
  | issuing client request userId =>
    ((issueUserTokens env client userId request.scope request.id none db).2,
      answered (some request.id) (issueUserTokens env client userId request.scope request.id none db).1)
  | answered redeemed answer => (db, answered redeemed answer)
  | choosing userId stash action => (db, choose db userId stash action)
  | allowing userId client requestId =>
    (db, if db.mayUse client userId then deciding userId requestId true else decided none .noAccess)
  | deciding userId requestId approved =>
    ((db.decideDeviceCode requestId approved userId).2,
      if (db.decideDeviceCode requestId approved userId).1 then
        decided (some requestId) (if approved then .approved else .denied)
      else decided none .expired)
  | decided recorded outcome => (db, decided recorded outcome)

/-- What else happens to the device codes: time passes, and starting a new authorization sweeps old rows. -/
inductive Other
  | wait (micros : Nat)
  | sweep

def other (db : Db) : Other → Db
  | .wait micros => { db with now := db.now + micros }
  | .sweep => db.cleanupExpiredDeviceCodes

def step : Contest Db DeviceStage → ContestEvent Other → Contest Db DeviceStage := Contest.step (act env) other

def Arrived : DeviceStage → Prop
  | polling _ _ | choosing _ _ _ => True
  | _ => False

def Decided (requestId : Id) : DeviceStage → Prop
  | decided recorded _ => recorded = some requestId
  | _ => False

def Redeemed (requestId : Id) : DeviceStage → Prop
  | issuing _ request _ => request.id = requestId
  | answered redeemed _ => redeemed = some requestId
  | _ => False

def Issued (requestId : Id) : DeviceStage → Prop
  | answered redeemed answer => redeemed = some requestId ∧ ∃ clientId userId, answer = .ok (.issued clientId userId)
  | _ => False

def SlowedDown (stage : DeviceStage) : Prop := stage = outcome .slowDown

def OfUser : DeviceStage → Prop
  | choosing _ _ _ | allowing _ _ _ | deciding _ _ _ | decided _ _ => True
  | _ => False

/-- The device code is redeemed only when it is approved, unexpired and one of the client that polls. -/
def RedeemsOwn (requestId : Id) (x : Contest Db DeviceStage) : ContestEvent Other → Prop
  | .advance i => ∀ t ∈ x.stages[i]?, ¬ Redeemed requestId t → Redeemed requestId (act env x.store t).2 →
    ∃ client request userId, (act env x.store t).2 = issuing client request userId ∧
      ∃ d ∈ x.store.oauth2DeviceCodes, d.id = requestId ∧ d.status = .approved ∧ x.store.now < d.expiresAt ∧
        d.clientId = client.id
  | .other _ => True

/-- A poll is recorded sooner after the poll before than the interval less one second of slack. -/
def PollsTooSoon (x : Contest Db DeviceStage) : ContestEvent Other → Prop
  | .advance i => ∃ requestId, x.stages[i]? = some (recording requestId) ∧
    ∃ d ∈ x.store.oauth2DeviceCodes, d.id = requestId ∧
      ∃ polled, d.lastPolledAt = some polled ∧ x.store.now < polled + (d.pollInterval - 1) * 1000000
  | .other _ => False

end DeviceStage

def DeviceCodeStatus.Moves (status status' : DeviceCodeStatus) : Prop :=
  status' = status ∨ status = .pending ∧ (status' = .approved ∨ status' = .denied) ∨
    status = .approved ∧ status' = .redeemed

structure DeviceCode.Moves (d d' : DeviceCode) : Prop where
  id : d'.id = d.id
  clientId : d'.clientId = d.clientId
  status : d.status.Moves d'.status
  slower : d.pollInterval ≤ d'.pollInterval

theorem DeviceCode.Moves.refl (d : DeviceCode) : d.Moves d := ⟨rfl, rfl, .inl rfl, le_refl _⟩

namespace Db

structure DeviceTable (db : Db) : Prop where
  ids : (db.oauth2DeviceCodes.map (·.id)).Nodup
  capped : ∀ d ∈ db.oauth2DeviceCodes, d.pollInterval ≤ 300

structure DeviceCodesMove (db db' : Db) : Prop where
  table : db'.DeviceTable
  moves : ∀ d' ∈ db'.oauth2DeviceCodes, ∃ d ∈ db.oauth2DeviceCodes, d.Moves d'

variable {db db' : Db}

theorem DeviceTable.eq_of_id (h : db.DeviceTable) {d d' : DeviceCode} (hd : d ∈ db.oauth2DeviceCodes)
    (hd' : d' ∈ db.oauth2DeviceCodes) (hid : d.id = d'.id) : d = d' :=
  inj_on_of_nodup_map h.ids hd hd' hid

theorem DeviceTable.map (h : db.DeviceTable) {f : DeviceCode → DeviceCode}
    (hf : ∀ d ∈ db.oauth2DeviceCodes, d.Moves (f d) ∧ (f d).pollInterval ≤ 300)
    (hcodes : db'.oauth2DeviceCodes = db.oauth2DeviceCodes.map f) : db.DeviceCodesMove db' := by
  refine ⟨⟨?_, ?_⟩, ?_⟩
  · have hids : (db.oauth2DeviceCodes.map f).map (·.id) = db.oauth2DeviceCodes.map (·.id) := by
      rw [map_map]
      exact map_congr_left fun d hd => (hf d hd).1.id
    rw [hcodes, hids]
    exact h.ids
  · intro d' hd'
    rw [hcodes] at hd'
    obtain ⟨d, hd, rfl⟩ := mem_map.mp hd'
    exact (hf d hd).2
  · intro d' hd'
    rw [hcodes] at hd'
    obtain ⟨d, hd, rfl⟩ := mem_map.mp hd'
    exact ⟨d, hd, (hf d hd).1⟩

theorem DeviceTable.sublist (h : db.DeviceTable) (hcodes : db'.oauth2DeviceCodes.Sublist db.oauth2DeviceCodes) :
    db.DeviceCodesMove db' :=
  ⟨⟨(hcodes.map _).nodup h.ids, fun d hd => h.capped d (hcodes.mem hd)⟩, fun d hd => ⟨d, hcodes.mem hd, .refl d⟩⟩

theorem DeviceTable.unchanged (h : db.DeviceTable) (hcodes : db'.oauth2DeviceCodes = db.oauth2DeviceCodes) :
    db.DeviceCodesMove db' :=
  h.sublist (hcodes ▸ List.Sublist.refl _)

theorem DeviceTable.recordPoll (h : db.DeviceTable) (requestId : Id) :
    db.DeviceCodesMove (db.recordPoll requestId) := by
  refine h.map (fun d hd => ?_) rfl
  have hcap := h.capped d hd
  by_cases hid : d.id = requestId
  · rw [if_pos hid]
    refine ⟨⟨rfl, rfl, .inl rfl, ?_⟩, ?_⟩
    · dsimp only
      split_ifs <;> omega
    · dsimp only
      split_ifs <;> omega
  · rw [if_neg hid]
    exact ⟨.refl d, hcap⟩

theorem DeviceTable.redeemDeviceCode (h : db.DeviceTable) (requestId : Id) :
    db.DeviceCodesMove (db.redeemDeviceCode requestId).2 := by
  unfold Db.redeemDeviceCode
  split
  · refine h.map (fun d hd => ?_) rfl
    have hcap := h.capped d hd
    dsimp only
    split_ifs with hid happroved
    · exact ⟨⟨rfl, rfl, .inr (.inr ⟨happroved.1, rfl⟩), le_refl _⟩, hcap⟩
    · exact ⟨.refl d, hcap⟩
    · exact ⟨.refl d, hcap⟩
  · exact h.unchanged rfl

theorem DeviceTable.decideDeviceCode (h : db.DeviceTable) (requestId : Id) (approved : Bool) (userId : Id) :
    db.DeviceCodesMove (db.decideDeviceCode requestId approved userId).2 := by
  unfold Db.decideDeviceCode
  dsimp only
  split
  · refine h.map (fun d hd => ?_) rfl
    have hcap := h.capped d hd
    by_cases hpending : d.id = requestId ∧ d.status = .pending ∧ db.now < d.expiresAt
    · rw [if_pos hpending]
      refine ⟨⟨rfl, rfl, .inr (.inl ⟨hpending.2.1, ?_⟩), le_refl _⟩, hcap⟩
      cases approved with
      | true => exact .inl rfl
      | false => exact .inr rfl
    · rw [if_neg hpending]
      exact ⟨.refl d, hcap⟩
  · exact h.unchanged rfl

end Db

variable {client : OAuth2Client} {event : ContestEvent Other} {userId : Id}

theorem issueUserTokens_deviceCodes {env : Env} {scope : Option Text} {grantId : Id} {sid : Option Id} {db : Db} :
    ((issueUserTokens env client userId scope grantId sid db).2).oauth2DeviceCodes = db.oauth2DeviceCodes := by
  obtain ⟨db', hcreate, hissue⟩ := issueUserTokens_cases env
  obtain ⟨-, rfl⟩ := Db.createAccessToken_eq_ok hcreate
  rw [hissue]
  cases grantSession client scope sid <;> rfl

namespace DeviceStage

variable {env : Env} {db : Db} {requestId : Id}

theorem act_moves (h : db.DeviceTable) (stage : DeviceStage) : db.DeviceCodesMove (act env db stage).1 := by
  cases stage with
  | recording requestId => exact h.recordPoll requestId
  | redeeming client request userId => exact h.redeemDeviceCode request.id
  | issuing => exact h.unchanged issueUserTokens_deviceCodes
  | deciding userId requestId approved => exact h.decideDeviceCode requestId approved userId
  | _ => exact h.unchanged rfl

theorem other_moves (h : db.DeviceTable) {statement : Other} : db.DeviceCodesMove (other db statement) := by
  cases statement with
  | wait micros => exact h.unchanged rfl
  | sweep => exact h.sublist filter_sublist

theorem step_moves {x : Contest Db DeviceStage} (h : x.store.DeviceTable) :
    x.store.DeviceCodesMove (step env x event).store := by
  unfold step
  exact Contest.step_cases (h.unchanged rfl) (fun statement _ => other_moves h) fun i t _ _ =>
    act_moves h t

end DeviceStage

namespace Db

variable {db db' : Db} {requestId : Id}

theorem DeviceCodesMove.status (h : db.DeviceCodesMove db') {S : DeviceCodeStatus → Prop}
    (hS : ∀ status status', DeviceCodeStatus.Moves status status' → S status → S status')
    (hrows : ∀ d ∈ db.oauth2DeviceCodes, d.id = requestId → S d.status) :
    ∀ d ∈ db'.oauth2DeviceCodes, d.id = requestId → S d.status := by
  intro d' hd' hid
  obtain ⟨d, hd, hmoves⟩ := h.moves d' hd'
  exact hS _ _ hmoves.status (hrows d hd (hmoves.id.symm.trans hid))

theorem decideDeviceCode_true {approved : Bool} (htable : db.DeviceTable)
    (h : (db.decideDeviceCode requestId approved userId).1 = true) :
    (∃ d ∈ db.oauth2DeviceCodes, d.id = requestId ∧ d.status = .pending) ∧
      ∀ d ∈ ((db.decideDeviceCode requestId approved userId).2).oauth2DeviceCodes,
        d.id = requestId → d.status ≠ .pending := by
  unfold decideDeviceCode at h ⊢
  dsimp only at h ⊢
  split at h
  case isFalse => cases h
  case isTrue hany =>
    rw [if_pos hany]
    obtain ⟨d, hd, hrow⟩ := any_eq_true.mp hany
    obtain ⟨hid, hpending, hlive⟩ := of_decide_eq_true hrow
    refine ⟨⟨d, hd, hid, hpending⟩, fun d' hd' hid' => ?_⟩
    obtain ⟨c, hc, rfl⟩ := mem_map.mp hd'
    by_cases hcid : c.id = requestId
    · obtain rfl : c = d := htable.eq_of_id hc hd (hcid.trans hid.symm)
      rw [if_pos ⟨hid, hpending, hlive⟩]
      cases approved <;> simp
    · rw [if_neg fun hc => hcid hc.1] at hid'
      exact absurd hid' hcid

end Db

namespace DeviceStage

variable {env : Env} {db : Db} {requestId : Id} {stage : DeviceStage} {deviceCode : Text}

def Unspent : DeviceStage → Prop
  | issuing _ _ _ => False
  | answered redeemed _ => redeemed = none
  | decided recorded _ => recorded = none
  | _ => True

theorem Unspent.not_redeemed (h : stage.Unspent) : ¬ Redeemed requestId stage := by
  cases stage <;> simp_all [Unspent, Redeemed]

theorem Unspent.not_decided (h : stage.Unspent) : ¬ Decided requestId stage := by
  cases stage <;> simp_all [Unspent, Decided]

theorem unspent_of_arrived (h : stage.Arrived) : stage.Unspent := by
  cases stage <;> simp_all [Unspent, Arrived]

theorem look_cases : (∃ o, o ≠ .slowDown ∧ (∀ request, o ≠ .approved request) ∧ look db client deviceCode = outcome o ∧
      poll client deviceCode db = (.ok o, db)) ∨
    ∃ request, db.findDeviceCode deviceCode client.id = some request ∧ db.now < request.expiresAt ∧
      (request.status = .approved ∧ look db client deviceCode = checkingAccess client request ∧
          poll client deviceCode db = (.ok (.approved request), db) ∨
        request.status = .pending ∧ look db client deviceCode = recording request.id ∧ poll client deviceCode db =
            (.ok (if db.tooSoon request then .slowDown else .authorizationPending), db.recordPoll request.id)) := by
  unfold look poll
  rw [read_bind_apply, read_bind_apply]
  cases db.findDeviceCode deviceCode client.id with
  | none => exact .inl ⟨.invalidGrant, by simp, by simp, rfl, rfl⟩
  | some request =>
    dsimp only
    by_cases hredeemed : request.status = .redeemed
    · rw [if_pos hredeemed, if_pos hredeemed]
      exact .inl ⟨.invalidGrant, by simp, by simp, rfl, rfl⟩
    rw [if_neg hredeemed, if_neg hredeemed]
    by_cases hexpired : request.expiresAt ≤ db.now
    · rw [if_pos hexpired, if_pos hexpired]
      exact .inl ⟨.expiredToken, by simp, by simp, rfl, rfl⟩
    rw [if_neg hexpired, if_neg hexpired]
    cases hstatus : request.status with
    | redeemed => exact absurd hstatus hredeemed
    | denied => exact .inl ⟨.accessDenied, by simp, by simp, rfl, rfl⟩
    | approved => exact .inr ⟨request, rfl, not_le.mp hexpired, .inl ⟨hstatus, rfl, rfl⟩⟩
    | pending => exact .inr ⟨request, rfl, not_le.mp hexpired, .inr ⟨hstatus, rfl, rfl⟩⟩

theorem outcome_slowedDown_iff {o : PollOutcome} : SlowedDown (outcome o) ↔ o = .slowDown := by
  cases o <;> simp [SlowedDown, outcome, PollOutcome.refusal]

theorem OfUser.not_slowedDown (h : stage.OfUser) : ¬ SlowedDown stage := by
  rintro rfl
  exact h

/-- What a statement can make of the stage of its request. -/
inductive Becomes (db : Db) : DeviceStage → DeviceStage → Prop
  | settled {now} : Becomes db now now
  | refused {now answer} (hslow : ¬ SlowedDown (answered none answer)) : Becomes db now (answered none answer)
  | found {client deviceCode request} (hfound : db.findDeviceCode deviceCode client.id = some request) :
      Becomes db (polling client deviceCode) (checkingAccess client request)
  | pending {client deviceCode k} : Becomes db (polling client deviceCode) (recording k)
  | recorded {k} : Becomes db (recording k) (record db k)
  | permitted {client request userId} : Becomes db (checkingAccess client request) (redeeming client request userId)
  | redeemed {client request userId} (hdone : (db.redeemDeviceCode request.id).1 = true) :
      Becomes db (redeeming client request userId) (issuing client request userId)
  | issued {client request userId answer} : Becomes db (issuing client request userId)
      (answered (some request.id) answer)
  | chosen {now next} (huser : OfUser next) (hunspent : Unspent next) : Becomes db now next
  | decided {userId k approved outcome} (hdone : (db.decideDeviceCode k approved userId).1 = true) :
      Becomes db (deciding userId k approved) (decided (some k) outcome)

theorem act_becomes (env : Env) (db : Db) (stage : DeviceStage) : Becomes db stage (act env db stage).2 := by
  have hrefused : ∀ {now o}, o ≠ PollOutcome.slowDown → Becomes db now (outcome o) := fun h =>
    .refused (mt outcome_slowedDown_iff.mp h)
  cases stage with
  | polling =>
    simp only [act]
    rcases look_cases with ⟨o, hne, -, heq, -⟩ | ⟨request, hfound, -, ⟨-, heq, -⟩ | ⟨-, heq, -⟩⟩
    · rw [heq]
      exact hrefused hne
    · rw [heq]
      exact .found hfound
    · rw [heq]
      exact .pending
  | recording k => exact .recorded
  | checkingAccess =>
    simp only [act, checkAccess]
    split
    · exact .refused (by simp [SlowedDown, outcome])
    · split
      · exact .permitted
      · exact .refused (by simp [SlowedDown, outcome, PollOutcome.refusal])
  | redeeming =>
    simp only [act]
    split
    case isTrue hdone => exact .redeemed hdone
    case isFalse => exact hrefused (by simp)
  | issuing => exact .issued
  | choosing =>
    simp only [act, choose]
    split
    · exact .chosen trivial rfl
    split
    · exact .chosen trivial rfl
    split
    · exact .chosen trivial rfl
    split
    · exact .chosen trivial trivial
    split
    · exact .chosen trivial trivial
    · exact .chosen trivial rfl
  | allowing =>
    simp only [act]
    split
    · exact .chosen trivial trivial
    · exact .chosen trivial rfl
  | deciding =>
    simp only [act]
    split
    case isTrue hdone => exact .decided hdone
    case isFalse => exact .chosen trivial rfl
  | answered => exact .settled
  | decided => exact .settled

theorem redeeming_of_redeemed (hnot : ¬ Redeemed requestId stage) (h : Redeemed requestId (act env db stage).2) :
    ∃ client request userId, stage = redeeming client request userId ∧ request.id = requestId ∧
      (db.redeemDeviceCode requestId).1 = true := by
  have hbecomes := act_becomes env db stage
  generalize (act env db stage).2 = next at h hbecomes
  cases hbecomes with
  | redeemed hdone =>
    obtain rfl := h
    exact ⟨_, _, _, rfl, rfl, hdone⟩
  | settled => exact absurd h hnot
  | issued => exact absurd (Option.some.inj h) hnot
  | recorded =>
    unfold record at h
    split at h <;> cases h
  | chosen _ hunspent => exact absurd h hunspent.not_redeemed
  | _ => cases h

theorem deciding_of_decided (hnot : ¬ Decided requestId stage) (h : Decided requestId (act env db stage).2) :
    ∃ userId approved, stage = deciding userId requestId approved ∧
      (db.decideDeviceCode requestId approved userId).1 = true := by
  have hbecomes := act_becomes env db stage
  generalize (act env db stage).2 = next at h hbecomes
  cases hbecomes with
  | decided hdone =>
    obtain rfl := Option.some.inj h
    exact ⟨_, _, rfl, hdone⟩
  | settled => exact absurd h hnot
  | recorded =>
    unfold record at h
    split at h <;> cases h
  | chosen _ hunspent => exact absurd h hunspent.not_decided
  | _ => cases h

def CodeRedeemed (requestId : Id) (db : Db) : Prop :=
  ∀ d ∈ db.oauth2DeviceCodes, d.id = requestId → d.status = .redeemed

def CodeDecided (requestId : Id) (db : Db) : Prop :=
  ∀ d ∈ db.oauth2DeviceCodes, d.id = requestId → d.status ≠ .pending

theorem redeemed_moves {status status' : DeviceCodeStatus} (h : status.Moves status') (hs : status = .redeemed) :
    status' = .redeemed := by
  subst hs
  simpa [DeviceCodeStatus.Moves] using h

theorem decided_moves {status status' : DeviceCodeStatus} (h : status.Moves status') (hs : status ≠ .pending) :
    status' ≠ .pending := by
  rcases h with rfl | ⟨hpending, -⟩ | ⟨-, rfl⟩
  · exact hs
  · exact absurd hpending hs
  · simp

theorem taking_redeemed :
    Contest.Taking (act env) other Db.DeviceTable (Redeemed requestId) (CodeRedeemed requestId) where
  base db stage h := (act_moves h stage).table
  base_other db statement h := (other_moves h).table
  take db stage h hnot hredeemed := by
    obtain ⟨client, request, userId, rfl, rfl, hdone⟩ := redeeming_of_redeemed hnot hredeemed
    obtain ⟨⟨d, hd, hid, happroved, -⟩, hafter⟩ := Db.redeemDeviceCode_true h.ids hdone
    refine ⟨fun hspent => ?_, hafter⟩
    have hstatus := hspent d hd hid
    rw [happroved] at hstatus
    cases hstatus
  stays db stage h := (act_moves h stage).status fun _ _ => redeemed_moves
  stays_other db statement h := (other_moves h).status fun _ _ => redeemed_moves

theorem taking_decided : Contest.Taking (act env) other Db.DeviceTable (Decided requestId) (CodeDecided requestId) where
  base db stage h := (act_moves h stage).table
  base_other db statement h := (other_moves h).table
  take db stage h hnot hdecided := by
    obtain ⟨userId, approved, rfl, hdone⟩ := deciding_of_decided hnot hdecided
    obtain ⟨⟨d, hd, hid, hpending⟩, hafter⟩ := Db.decideDeviceCode_true h hdone
    exact ⟨fun hspent => hspent d hd hid hpending, hafter⟩
  stays db stage h := (act_moves h stage).status fun _ _ => decided_moves
  stays_other db statement h := (other_moves h).status fun _ _ => decided_moves

theorem tooSoon_iff {d : DeviceCode} : db.tooSoon d = true ↔
    ∃ polled, d.lastPolledAt = some polled ∧ db.now < polled + (d.pollInterval - 1) * 1000000 := by
  rw [Db.tooSoon, Option.any_eq_true]
  simp

theorem look_eq_recording_iff :
    look db client deviceCode = recording requestId ↔ ∃ request, db.findDeviceCode deviceCode client.id = some request ∧
      request.id = requestId ∧ request.status = .pending ∧ db.now < request.expiresAt := by
  constructor
  · intro h
    rcases look_cases with ⟨o, -, -, heq, -⟩ | ⟨request, hfound, hlive, ⟨-, heq, -⟩ | ⟨hpending, heq, -⟩⟩
    · rw [heq] at h
      cases h
    · rw [heq] at h
      cases h
    · rw [heq] at h
      exact ⟨request, hfound, recording.inj h, hpending, hlive⟩
  · rintro ⟨request, hfound, rfl, hpending, hlive⟩
    simp [look, hfound, hpending, not_le.mpr hlive]

theorem slowedDown_act_iff (hnot : ¬ SlowedDown stage) : SlowedDown (act env db stage).2 ↔
    ∃ k, stage = recording k ∧ ∃ d ∈ db.oauth2DeviceCodes, d.id = k ∧ db.tooSoon d = true := by
  constructor
  · intro hslow
    have hbecomes := act_becomes env db stage
    generalize (act env db stage).2 = next at hslow hbecomes
    cases hbecomes with
    | recorded =>
      refine ⟨_, rfl, ?_⟩
      unfold record at hslow
      split at hslow
      case isTrue hsoon => simpa using hsoon
      case isFalse => cases outcome_slowedDown_iff.mp hslow
    | settled => exact absurd hslow hnot
    | refused hrefused => exact absurd hslow hrefused
    | chosen huser _ => exact absurd hslow huser.not_slowedDown
    | _ => cases hslow
  · rintro ⟨k, rfl, hsoon⟩
    simp only [act, record]
    rw [if_pos (by simpa using hsoon)]
    rfl

def Owns (db : Db) : DeviceStage → Prop
  | checkingAccess client request | redeeming client request _ =>
    ∀ d ∈ db.oauth2DeviceCodes, d.id = request.id → d.clientId = client.id
  | _ => True

theorem Owns.moves {db' : Db} (h : db.DeviceCodesMove db') (howns : Owns db stage) : Owns db' stage := by
  have hkeep : ∀ (client : OAuth2Client) (request : DeviceCode),
      (∀ d ∈ db.oauth2DeviceCodes, d.id = request.id → d.clientId = client.id) →
        ∀ d ∈ db'.oauth2DeviceCodes, d.id = request.id → d.clientId = client.id := by
    intro client request hrows d' hd' hid
    obtain ⟨d, hd, hmoves⟩ := h.moves d' hd'
    exact hmoves.clientId.trans (hrows d hd (hmoves.id.symm.trans hid))
  cases stage with
  | checkingAccess client request => exact hkeep client request howns
  | redeeming client request userId => exact hkeep client request howns
  | _ => trivial

theorem OfUser.owns (h : stage.OfUser) : Owns db stage := by
  cases stage <;> simp_all [OfUser, Owns]

theorem owns_act (h : db.DeviceTable) (howns : Owns db stage) : Owns (act env db stage).1 (act env db stage).2 := by
  refine Owns.moves (act_moves h stage) ?_
  have hbecomes := act_becomes env db stage
  generalize (act env db stage).2 = next at hbecomes
  cases hbecomes with
  | settled => exact howns
  | permitted => exact howns
  | found hfound =>
    intro d hd hid
    have hmatch := find?_some hfound
    rw [h.eq_of_id hd (mem_of_find?_eq_some hfound) hid]
    exact (of_decide_eq_true hmatch).2
  | recorded =>
    unfold record
    split <;> trivial
  | chosen huser _ => exact huser.owns
  | _ => trivial

structure Sound (x : Contest Db DeviceStage) : Prop where
  table : x.store.DeviceTable
  owns : ∀ t ∈ x.stages, Owns x.store t

variable {x : Contest Db DeviceStage} {request : DeviceCode}

theorem sound_step (h : Sound x) (event : ContestEvent Other) : Sound (step env x event) := by
  refine ⟨(step_moves h.table).table, ?_⟩
  unfold step
  refine Contest.step_cases h.owns (fun statement _ t ht => ?_) fun i t _ hi u hu => ?_
  · exact (h.owns t ht).moves (other_moves h.table)
  · rcases mem_or_eq_of_mem_set hu with hold | rfl
    · exact (h.owns u hold).moves (act_moves h.table t)
    · exact owns_act h.table (h.owns t (mem_of_getElem? hi))

theorem Sound.redeemsOwn (h : Sound x) : RedeemsOwn env requestId x event := by
  cases event with
  | other => trivial
  | advance i =>
    intro t ht hnot hredeemed
    obtain ⟨client, request, userId, rfl, rfl, hdone⟩ := redeeming_of_redeemed hnot hredeemed
    obtain ⟨⟨d, hd, hid, happroved, hlive⟩, -⟩ := Db.redeemDeviceCode_true h.table.ids hdone
    refine ⟨client, request, userId, if_pos hdone, d, hd, hid, happroved, hlive, ?_⟩
    exact h.owns _ (mem_of_getElem? ht) d hd hid

theorem slowedDown_step_iff : Contest.Enters (act env) SlowedDown x event ↔ PollsTooSoon x event := by
  cases event with
  | other => exact Iff.rfl
  | advance i =>
    constructor
    · rintro ⟨t, ht, hnot, hslow⟩
      obtain ⟨k, rfl, d, hd, hid, hsoon⟩ := (slowedDown_act_iff hnot).mp hslow
      exact ⟨k, ht, d, hd, hid, tooSoon_iff.mp hsoon⟩
    · rintro ⟨k, hk, d, hd, hid, hsoon⟩
      have hnot : ¬ SlowedDown (recording k) := by simp [SlowedDown, outcome]
      exact ⟨recording k, hk, hnot, (slowedDown_act_iff hnot).mpr ⟨k, rfl, d, hd, hid, tooSoon_iff.mpr hsoon⟩⟩

theorem Issued.redeemed (h : Issued requestId stage) : Redeemed requestId stage := by
  cases stage <;> simp_all [Issued, Redeemed]

theorem Issued.act (h : Issued requestId stage) : Issued requestId (act env db stage).2 := by
  cases stage with
  | answered => exact h
  | _ => exact h.elim

theorem not_issued_act (h : ¬ Redeemed requestId stage) : ¬ Issued requestId (DeviceStage.act env db stage).2 := by
  intro hissued
  obtain ⟨client, request, userId, rfl, rfl, hdone⟩ := redeeming_of_redeemed h hissued.redeemed
  rw [show (DeviceStage.act env db (redeeming client request userId)).2 = issuing client request userId from
    if_pos hdone] at hissued
  exact hissued

def advance (env : Env) (x : Db × DeviceStage) : Db × DeviceStage := act env x.1 x.2

theorem record_eq_of_found (htable : db.DeviceTable) (hmem : request ∈ db.oauth2DeviceCodes) :
    record db request.id = outcome (if db.tooSoon request then .slowDown else .authorizationPending) := by
  have hany : (db.oauth2DeviceCodes.any fun d => d.id = request.id ∧ db.tooSoon d) = true ↔
      db.tooSoon request = true := by
    rw [any_eq_true]
    constructor
    · rintro ⟨d, hd, hrow⟩
      obtain ⟨hid, hsoon⟩ := of_decide_eq_true hrow
      rwa [htable.eq_of_id hd hmem hid] at hsoon
    · exact fun hsoon => ⟨request, hmem, by simp [hsoon]⟩
  unfold record
  by_cases hsoon : db.tooSoon request = true
  · rw [if_pos (hany.mpr hsoon), if_pos hsoon]
  · rw [if_neg (mt hany.mp hsoon), if_neg hsoon]

theorem redeemDevice_alone : ∃ redeemed, (advance env)^[3] (db, checkingAccess client request) =
      ((redeemDevice env client request db).2, answered redeemed (redeemDevice env client request db).1) := by
  have hthree : ∀ x, (advance env)^[3] x =
      advance env (advance env (advance env x)) := fun _ => rfl
  rw [hthree]
  unfold redeemDevice
  cases huser : request.userId with
  | none =>
    refine ⟨none, ?_⟩
    simp only [advance, act, checkAccess, huser]
    rfl
  | some userId =>
    dsimp only
    rw [read_bind_apply]
    by_cases hmay : db.mayUse client userId = true
    · rw [if_neg (not_not.mpr hmay)]
      have hredeem : tx (fun db => .ok (db.redeemDeviceCode request.id)) db =
          (.ok (db.redeemDeviceCode request.id).1, (db.redeemDeviceCode request.id).2) := rfl
      rw [bind_apply_of_ok hredeem]
      by_cases hdone : (db.redeemDeviceCode request.id).1 = true
      · rw [if_neg (not_not.mpr hdone)]
        refine ⟨some request.id, ?_⟩
        simp only [advance, act, checkAccess, huser, if_pos hmay, if_pos hdone]
      · rw [if_pos hdone]
        refine ⟨none, ?_⟩
        simp only [advance, act, checkAccess, huser, if_pos hmay, if_neg hdone]
        rfl
    · rw [if_pos hmay]
      refine ⟨none, ?_⟩
      simp only [advance, act, checkAccess, huser, if_neg hmay]
      rfl

theorem token_request_alone (htable : db.DeviceTable)
    (hcan : client.canUseDeviceGrant = true) (hcode : deviceCode ≠ []) :
    ∃ redeemed, (advance env)^[4] (db, polling client deviceCode) =
      ((deviceCodeGrant env client (some deviceCode) db).2,
        answered redeemed (deviceCodeGrant env client (some deviceCode) db).1) := by
  have hfilter : (some deviceCode).filter (· ≠ []) = some deviceCode := by simp [hcode]
  unfold deviceCodeGrant
  rw [if_neg (not_not.mpr hcan), hfilter]
  dsimp only
  rcases look_cases with ⟨o, -, hnot, heq, hpoll⟩ |
    ⟨request, hfound, -, ⟨-, heq, hpoll⟩ | ⟨-, heq, hpoll⟩⟩
  · rw [bind_apply_of_ok hpoll]
    refine ⟨none, ?_⟩
    have hlooked : advance env (db, polling client deviceCode) = (db, outcome o) := by rw [advance, act, heq]
    rw [Function.iterate_succ_apply, hlooked]
    cases o with
    | approved request => exact absurd rfl (hnot request)
    | _ => rfl
  · rw [bind_apply_of_ok hpoll]
    have hlooked : advance env (db, polling client deviceCode) = (db, checkingAccess client request) := by
      rw [advance, act, heq]
    rw [Function.iterate_succ_apply, hlooked]
    exact redeemDevice_alone
  · rw [bind_apply_of_ok hpoll]
    refine ⟨none, ?_⟩
    have hlooked : advance env (db, polling client deviceCode) = (db, recording request.id) := by rw [advance, act, heq]
    have hrecorded : advance env (db, recording request.id) = (db.recordPoll request.id,
        outcome (if db.tooSoon request then .slowDown else .authorizationPending)) := by
      rw [advance, act, record_eq_of_found htable (mem_of_find?_eq_some hfound)]
    rw [Function.iterate_succ_apply, hlooked, Function.iterate_succ_apply, hrecorded]
    cases db.tooSoon request <;> rfl

theorem decided_alone {recorded : Option Id} {result : DeviceOutcome} {n : Nat} :
    (advance env)^[n] (db, decided recorded result) = (db, decided recorded result) := by
  induction n with
  | zero => rfl
  | succ n ih =>
    exact ih

theorem deciding_alone {k : Id} {approved : Bool} {n : Nat} :
    ∃ recorded, (advance env)^[n + 1] (db, deciding userId k approved) = ((db.decideDeviceCode k approved userId).2,
      decided recorded (if (db.decideDeviceCode k approved userId).1 then if approved then .approved else .denied
        else .expired)) := by
  rw [Function.iterate_succ_apply]
  by_cases hdone : (db.decideDeviceCode k approved userId).1 = true
  · refine ⟨some k, ?_⟩
    simp only [advance, act, if_pos hdone]
    exact decided_alone
  · refine ⟨none, ?_⟩
    simp only [advance, act, if_neg hdone]
    exact decided_alone

theorem decision_alone {session after : Session} {user : User} {db₀ : Db} {stash : DeviceVerification}
    {action : String} (huser : getCurrentUser session db₀ = (.ok (some user, after), db)) :
    ∃ recorded result db', (advance env)^[3] (db, choosing user.id stash action) = (db', decided recorded result) ∧
      deviceDecision session stash action db₀ = (.ok result, db') := by
  unfold deviceDecision
  rw [bind_apply_of_ok huser]
  dsimp only
  rw [read_bind_apply, read_bind_apply, Function.iterate_succ_apply]
  simp only [advance, act, choose]
  by_cases hstale : stash.userId ≠ user.id ∨ db.time - stash.createdAt > 600
  · rw [if_pos hstale, if_pos (by simpa using hstale)]
    exact ⟨none, .expired, db, decided_alone, rfl⟩
  rw [if_neg hstale, if_neg (by simpa using hstale)]
  cases db.findPendingRequest stash.userCode with
  | none => exact ⟨none, .expired, db, decided_alone, rfl⟩
  | some pending =>
    obtain ⟨request, client⟩ := pending
    dsimp only
    by_cases hid : request.id ≠ stash.id
    · rw [if_pos hid, if_pos hid]
      exact ⟨none, .expired, db, decided_alone, rfl⟩
    rw [if_neg hid, if_neg hid]
    by_cases hdeny : action = "deny"
    · rw [if_pos hdeny, if_pos hdeny]
      obtain ⟨recorded, hrun⟩ := deciding_alone
      exact ⟨recorded, _, _, hrun, rfl⟩
    rw [if_neg hdeny, if_neg hdeny]
    by_cases hallow : action = "allow"
    · rw [if_pos hallow, if_neg (not_not.mpr hallow), read_bind_apply, Function.iterate_succ_apply]
      simp only [advance, act]
      by_cases hmay : db.mayUse client user.id = true
      · rw [if_pos hmay, if_neg (not_not.mpr hmay)]
        obtain ⟨recorded, hrun⟩ := deciding_alone
        exact ⟨recorded, _, _, hrun, rfl⟩
      · rw [if_neg hmay, if_pos hmay]
        exact ⟨none, .noAccess, db, decided_alone, rfl⟩
    · rw [if_neg hallow, if_pos hallow]
      exact ⟨none, .expired, db, decided_alone, rfl⟩

/-- The device grant is sound under every interleaving. -/
theorem device_grant_sound (env : Env) (x : Contest Db DeviceStage) (htable : x.store.DeviceTable)
    (harrived : ∀ t ∈ x.stages, t.Arrived) (events : List (ContestEvent Other)) :
    Along (step env) (fun x event => x.store.DeviceCodesMove (step env x event).store) x events ∧
    (∀ requestId, AtMostOnce (step env) (Contest.Enters (act env) (Decided requestId)) x events) ∧
    (∀ requestId, AtMostOnce (step env) (Contest.Enters (act env) (Issued requestId)) x events) ∧
    (∀ requestId, Along (step env) (RedeemsOwn env requestId) x events) ∧
    Along (step env) (fun x event => Contest.Enters (act env) SlowedDown x event ↔ PollsTooSoon x event) x events ∧
    ∀ db client deviceCode requestId, look db client deviceCode = recording requestId ↔
      ∃ request, db.findDeviceCode deviceCode client.id = some request ∧ request.id = requestId ∧
        request.status = .pending ∧ db.now < request.expiresAt := by
  have hstart : Sound x := by
    refine ⟨htable, fun t ht => ?_⟩
    have h := harrived t ht
    cases t <;> simp_all [Arrived, Owns]
  have halong : ∀ {Q : Contest Db DeviceStage → ContestEvent Other → Prop}, (∀ x event, Sound x → Q x event) →
      Along (step env) Q x events := fun hQ =>
    along_of_invariant (P := fun _ _ => True) (fun x event h _ => sound_step h event) (fun x event h _ => hQ x event h)
      hstart fun _ _ _ _ => trivial
  refine ⟨?_, fun requestId => ?_, fun requestId => ?_, fun requestId => ?_, ?_, fun _ _ _ _ => look_eq_recording_iff⟩
  · exact halong fun x event h => step_moves h.table
  · exact taking_decided.once htable
  · refine taking_redeemed.atMostOnce (fun t => Issued.redeemed) (fun s t => Issued.act)
      (fun s t => not_issued_act) (Contest.taken_of_start htable fun t ht => ?_) events
    exact (unspent_of_arrived (harrived t ht)).not_redeemed
  · exact halong fun x event h => h.redeemsOwn
  · exact halong fun x event _ => slowedDown_step_iff

private def tv : OAuth2Client := { id := 1, deviceGrantEnabled := true }

private def tvCode : DeviceCode where
  id := 2
  clientId := 1
  deviceCode := "d"
  userCode := "U"
  expiresAt := 600000000

private def polledTwice : Contest Db DeviceStage where
  store := { oauth2DeviceCodes := [tvCode] }
  stages := [.polling tv "d", .polling tv "d"]

private def halfSecondEarly : List (ContestEvent Other) :=
  [.advance 0, .advance 0, .other (.wait 4500000), .advance 1, .advance 1]

theorem device_grant_sound_early_poll : polledTwice.store.DeviceTable ∧
    Along (step .ascii) (fun x event => Contest.Enters (act .ascii) SlowedDown x event ↔ PollsTooSoon x event)
      polledTwice halfSecondEarly := by
  have htable : polledTwice.store.DeviceTable := ⟨by decide, by decide⟩
  refine ⟨htable, ((device_grant_sound .ascii polledTwice htable ?_ halfSecondEarly).2.2.2.2).1⟩
  intro t ht
  simp only [polledTwice, mem_cons, not_mem_nil, or_false, or_self] at ht
  rw [ht]
  trivial

/-- A poll that comes before the interval is over, by less than the slack, is not slowed down. -/
theorem early_poll_not_slowed_down :
    (∃ d ∈ (run (step .ascii) polledTwice (halfSecondEarly.take 3)).store.oauth2DeviceCodes,
      d.status = .pending ∧ d.lastPolledAt = some 0 ∧ d.pollInterval = 5 ∧
        (run (step .ascii) polledTwice (halfSecondEarly.take 3)).store.now < 0 + d.pollInterval * 1000000) ∧
    (run (step .ascii) polledTwice halfSecondEarly).stages[1]? = some (outcome .authorizationPending) := by
  refine ⟨⟨{ tvCode with lastPolledAt := some 0 }, ?_, ?_⟩, ?_⟩
  · decide
  · decide
  · rfl

end DeviceStage

end WeftId
