import WeftId.Lib.Ledger
import WeftId.OAuth.TokenEndpoint
import WeftId.ForwardAuth.Tokens

/-!
Concurrent redemptions of the one-time credentials: authorization codes, device codes, refresh tokens,
pushed authorization requests and forward-auth nonces.  Every statement is one step and any other request
may run between two of them.  A rotation locks its row: until its transaction ends, statements that would
lock or delete the row wait, and what the transaction writes is seen by nobody else.
-/

namespace WeftId

open List Run

structure PushedRequest where
  id : Id
  clientId : Id
  referenceHash : Text
  parameters : List (Text × Text)
  expiresAt : Nat

inductive Redemption
  | code (request : TokenRequest)
  | device (clientId : Id) (deviceCode : Text)
  | refresh (clientId tokenId : Id)
  | pushed (clientId : Id) (referenceHash : Text)
  | nonce (nonce domain : Text)

inductive Credential
  | code (id : Id)
  | device (id : Id)
  | refresh (id : Id)
  | pushed (id : Id)
  | nonce (id : Id)
  deriving DecidableEq

inductive Stage
  | received
  | foundCode (code : AuthorizationCode)
  | reusedCode (code : AuthorizationCode)
  | foundPending (request : DeviceCode)
  | foundApproved (request : DeviceCode)
  | admittedDevice (request : DeviceCode)
  | foundToken (token : OAuth2Token)
  | admittedToken (token : OAuth2Token)
  | lockedToken (token : OAuth2Token)
  | ended (redeemed : Option Credential)
  deriving DecidableEq

structure Counter where
  db : Db
  pushedRequests : List PushedRequest := []
  nonces : List ForwardAuthNonce := []
  /-- The refresh tokens whose rows a transaction has locked. -/
  locked : List Id := []
  requests : Nat → Redemption
  stages : Nat → Stage := fun _ => .received

/-- Statements of other requests on the same tables; a sweep or a revocation deletes what it selects. -/
inductive OtherStatement
  | createCode (params : AuthorizeParams) (userId : Id) (sid : Option Id)
  | deleteCodes (selected : AuthorizationCode → Bool)
  | createDeviceCode (clientId : Id) (scope : Option Text)
  | decideDeviceCode (requestId : Id) (approved : Bool) (userId : Id)
  | deleteDeviceCodes (selected : DeviceCode → Bool)
  | createRefreshToken (clientId userId : Id) (scope : Option Text) (grantId sid : Option Id)
  | createAccessToken (clientId userId : Id) (parentTokenId : Option Id) (isClientCredentials : Bool)
      (scope : Option Text) (grantId : Option Id)
  | deleteTokens (selected : OAuth2Token → Bool)
  | createPushedRequest (clientId : Id) (referenceHash : Text) (parameters : List (Text × Text)) (lifetime : Nat)
  | deletePushedRequests (selected : PushedRequest → Bool)
  | createNonce (nonce : Text) (tenantId : Id) (domain : Text) (lifetime : Nat)
  | deleteNonces (selected : ForwardAuthNonce → Bool)
  | wait (micros : Nat)

inductive CounterEvent
  | advance (request : Nat)
  /-- A transaction that fails gives up its lock and writes nothing. -/
  | rollback (request : Nat)
  | other (statement : OtherStatement)

namespace Counter

variable (env : Env)

def consumePushedRequest (x : Counter) (clientId : Id) (referenceHash : Text) : Option PushedRequest × Counter :=
  let matching := fun r : PushedRequest =>
    r.referenceHash = referenceHash ∧ r.clientId = clientId ∧ x.db.now < r.expiresAt
  (x.pushedRequests.find? (matching ·), { x with pushedRequests := x.pushedRequests.filter fun r => ¬ matching r })

def consumeNonce (x : Counter) (nonce domain : Text) : Option ForwardAuthNonce × Counter :=
  let matching := fun n : ForwardAuthNonce => n.nonce = nonce ∧ n.domain = domain ∧ x.db.now < n.expiresAt
  (x.nonces.find? (matching ·), { x with nonces := x.nonces.filter fun n => ¬ matching n })

def deleteTokens (x : Counter) (selected : OAuth2Token → Bool) : Option Counter :=
  if x.db.oauth2Tokens.any fun t => t.id ∈ x.locked ∧ (selected t ∨
      x.db.oauth2Tokens.any fun parent => t.parentTokenId = some parent.id ∧ selected parent) then none
  else some { x with db := x.db.deleteTokens selected }

def statement (x : Counter) (request : Redemption) : Stage → Stage × Counter
  | .received =>
    match request with
    | .code request =>
      match x.db.findCode request with
      | none => (.ended none, x)
      | some code =>
        if ¬ code.accepts env request.codeVerifier then (.ended none, x)
        else if code.consumedAt.isSome then (.reusedCode code, x)
        else (.foundCode code, x)
    | .device clientId deviceCode =>
      match x.db.findDeviceCode deviceCode clientId with
      | none => (.ended none, x)
      | some request =>
        if request.status = .redeemed ∨ request.expiresAt ≤ x.db.now ∨ request.status = .denied then (.ended none, x)
        else if request.status = .approved then (.foundApproved request, x)
        else (.foundPending request, x)
    | .refresh clientId tokenId =>
      match x.db.findRefreshToken tokenId clientId with
      | none => (.ended none, x)
      | some token => (.foundToken token, x)
    | .pushed clientId referenceHash =>
      let (row, x) := x.consumePushedRequest clientId referenceHash
      (.ended (row.map fun r => .pushed r.id), x)
    | .nonce nonce domain =>
      let (row, x) := x.consumeNonce nonce domain
      (.ended (row.map fun n => .nonce n.id), x)
  | .foundCode code =>
    match x.db.consumeCode code.id with
    | (true, db) => (.ended (some (.code code.id)), { x with db })
    | (false, db) => (.reusedCode code, { x with db })
  | .reusedCode code =>
    match x.deleteTokens (·.grantId = some code.id) with
    | none => (.reusedCode code, x)
    | some x => (.ended none, x)
  | .foundPending request => (.ended none, { x with db := x.db.recordPoll request.id })
  | .foundApproved request =>
    match x.db.getClientById request.clientId, request.userId with
    | some client, some userId => if x.db.mayUse client userId then (.admittedDevice request, x) else (.ended none, x)
    | _, _ => (.ended none, x)
  | .admittedDevice request =>
    match x.db.redeemDeviceCode request.id with
    | (true, db) => (.ended (some (.device request.id)), { x with db })
    | (false, db) => (.ended none, { x with db })
  | .foundToken token =>
    match x.db.getClientById token.clientId with
    | none => (.ended none, x)
    | some client => if x.db.mayUse client token.userId then (.admittedToken token, x) else (.ended none, x)
  | .admittedToken token =>
    -- `select … for update`
    if token.id ∈ x.locked then (.admittedToken token, x)
    else if x.db.oauth2Tokens.any fun t => t.id = token.id ∧ t.tokenType = .refresh then
      (.lockedToken token, { x with locked := token.id :: x.locked })
    else (.ended none, x)
  | .lockedToken token =>
    (.ended (some (.refresh token.id)),
      { x with db := (x.db.rotateRefreshToken token).2, locked := x.locked.filter (· ≠ token.id) })
  | .ended redeemed => (.ended redeemed, x)

def other (x : Counter) : OtherStatement → Counter
  | .createCode params userId sid => { x with db := (x.db.createAuthorizationCode env params userId sid).2 }
  | .deleteCodes selected =>
    { x with db := { x.db with authorizationCodes := x.db.authorizationCodes.filter fun c => ¬ selected c } }
  | .createDeviceCode clientId scope => { x with db := (x.db.createDeviceCode env clientId scope).getD x.db }
  | .decideDeviceCode requestId approved userId =>
    { x with db := (x.db.decideDeviceCode requestId approved userId).2 }
  | .deleteDeviceCodes selected =>
    { x with db := { x.db with oauth2DeviceCodes := x.db.oauth2DeviceCodes.filter fun d => ¬ selected d } }
  | .createRefreshToken clientId userId scope grantId sid =>
    { x with db := (x.db.createRefreshToken env clientId userId scope grantId sid).2 }
  | .createAccessToken clientId userId parentTokenId isClientCredentials scope grantId =>
    -- the foreign key waits for the lock on the parent
    if parentTokenId.any (· ∈ x.locked) then x
    else
      match x.db.createAccessToken env clientId userId parentTokenId isClientCredentials scope grantId with
      | .ok ((), db) => { x with db }
      | .error _ => x
  | .deleteTokens selected => (x.deleteTokens selected).getD x
  | .createPushedRequest clientId referenceHash parameters lifetime =>
    let kept := x.pushedRequests.filter (x.db.now ≤ ·.expiresAt)
    if kept.any (·.referenceHash = referenceHash) then { x with pushedRequests := kept }
    else { x with
      db := { x.db with nextId := x.db.nextId + 1 }
      pushedRequests := kept ++
        [{ id := x.db.nextId, clientId, referenceHash, parameters, expiresAt := x.db.now + lifetime }] }
  | .deletePushedRequests selected => { x with pushedRequests := x.pushedRequests.filter fun r => ¬ selected r }
  | .createNonce nonce tenantId domain lifetime =>
    if x.nonces.any (·.nonce = nonce) then x
    else { x with
      db := { x.db with nextId := x.db.nextId + 1 }
      nonces := x.nonces ++ [{ id := x.db.nextId, nonce, tenantId, domain, expiresAt := x.db.now + lifetime }] }
  | .deleteNonces selected => { x with nonces := x.nonces.filter fun n => ¬ selected n }
  | .wait micros => { x with db := { x.db with now := x.db.now + micros } }

def step (x : Counter) : CounterEvent → Counter
  | .advance i =>
    let (stage, y) := statement env x (x.requests i) (x.stages i)
    { y with stages := Function.update x.stages i stage }
  | .rollback i =>
    match x.stages i with
    | .lockedToken token =>
      { x with locked := x.locked.filter (· ≠ token.id), stages := Function.update x.stages i (.ended none) }
    | _ => x
  | .other statement => x.other env statement

def Redeems (credential : Credential) (x : Counter) (event : CounterEvent) : Prop :=
  ∃ i, event = .advance i ∧ x.stages i ≠ .ended (some credential) ∧
    (x.step env event).stages i = .ended (some credential)

variable {env} {x y : Counter} {db : Db} {i : Nat} {requestId : Id} {credential : Credential}
  {t token old : OAuth2Token}
  {f : DeviceCode → DeviceCode} {stage : Stage} {event : CounterEvent}

inductive Outcome (x : Counter) (stage : Stage) : Stage → Counter → Prop
  | idle {stage' : Stage} (hlock : ∀ token, stage' ≠ .lockedToken token)
      (hend : ∀ credential, stage' = .ended (some credential) → stage = stage') : Outcome x stage stage' x
  | consumed (codeId : Id) (h : (x.db.consumeCode codeId).1 = true) :
      Outcome x stage (.ended (some (.code codeId))) { x with db := (x.db.consumeCode codeId).2 }
  | revoked {selected : OAuth2Token → Bool} {y : Counter} (h : x.deleteTokens selected = some y) :
      Outcome x stage (.ended none) y
  | polled (requestId : Id) : Outcome x stage (.ended none) { x with db := x.db.recordPoll requestId }
  | redeemed (requestId : Id) (h : (x.db.redeemDeviceCode requestId).1 = true) :
      Outcome x stage (.ended (some (.device requestId))) { x with db := (x.db.redeemDeviceCode requestId).2 }
  | locked (token : OAuth2Token) (hfree : token.id ∉ x.locked) (hrow : ∃ t ∈ x.db.oauth2Tokens, t.id = token.id) :
      Outcome x stage (.lockedToken token) { x with locked := token.id :: x.locked }
  | rotated (token : OAuth2Token) (h : stage = .lockedToken token) :
      Outcome x stage (.ended (some (.refresh token.id)))
        { x with db := (x.db.rotateRefreshToken token).2, locked := x.locked.filter (· ≠ token.id) }
  | pushed (clientId : Id) (referenceHash : Text) :
      Outcome x stage (.ended ((x.consumePushedRequest clientId referenceHash).1.map fun r => .pushed r.id))
        (x.consumePushedRequest clientId referenceHash).2
  | nonce (nonce domain : Text) :
      Outcome x stage (.ended ((x.consumeNonce nonce domain).1.map fun n => .nonce n.id))
        (x.consumeNonce nonce domain).2

theorem statement_outcome {request : Redemption} :
    Outcome x stage (statement env x request stage).1 (statement env x request stage).2 := by
  cases stage with
  | received =>
    cases request with
    | code request | device clientId deviceCode =>
      rw [statement]
      split
      · exact .idle (by simp) (by simp)
      · split_ifs <;> exact .idle (by simp) (by simp)
    | refresh =>
      rw [statement]
      split <;> exact .idle (by simp) (by simp)
    | pushed clientId referenceHash => exact .pushed clientId referenceHash
    | nonce nonce domain => exact .nonce nonce domain
  | foundCode code =>
    have hconsumed : (x.db.consumeCode code.id).1 = true → Outcome x (.foundCode code) _ _ := .consumed code.id
    have hfalse : (x.db.consumeCode code.id).1 = false → (x.db.consumeCode code.id).2 = x.db := by
      unfold Db.consumeCode
      split_ifs <;> simp
    rw [statement]
    split <;> rename_i db hconsume <;> rw [hconsume] at hconsumed hfalse
    · exact hconsumed rfl
    · obtain rfl := hfalse rfl
      exact .idle (by simp) (by simp)
  | reusedCode code =>
    rw [statement]
    split
    · exact .idle (by simp) (by simp)
    · rename_i hdelete
      exact .revoked hdelete
  | foundPending request => exact .polled request.id
  | foundApproved =>
    rw [statement]
    split
    · split_ifs <;> exact .idle (by simp) (by simp)
    · exact .idle (by simp) (by simp)
  | admittedDevice request =>
    have hredeemed : (x.db.redeemDeviceCode request.id).1 = true → Outcome x (.admittedDevice request) _ _ :=
      .redeemed request.id
    have hfalse : (x.db.redeemDeviceCode request.id).1 = false → (x.db.redeemDeviceCode request.id).2 = x.db := by
      unfold Db.redeemDeviceCode
      split_ifs <;> simp
    rw [statement]
    split <;> rename_i db hredeem <;> rw [hredeem] at hredeemed hfalse
    · exact hredeemed rfl
    · obtain rfl := hfalse rfl
      exact .idle (by simp) (by simp)
  | foundToken token =>
    rw [statement]
    split
    · exact .idle (by simp) (by simp)
    · split_ifs <;> exact .idle (by simp) (by simp)
  | admittedToken token =>
    rw [statement]
    split_ifs with hheld hrow
    · exact .idle (by simp) (by simp)
    · obtain ⟨t, ht, hid⟩ := any_eq_true.mp hrow
      exact .locked token hheld ⟨t, ht, (of_decide_eq_true hid).1⟩
    · exact .idle (by simp) (by simp)
  | lockedToken token => exact .rotated token rfl
  | ended => exact .idle (by simp [statement]) fun _ _ => rfl

structure Ages (x y : Counter) : Prop where
  nextId_le : x.db.nextId ≤ y.db.nextId
  codes : Ledger.Follows AuthorizationCode.id (·.consumedAt.isSome) x.db.nextId y.db.nextId
    x.db.authorizationCodes y.db.authorizationCodes
  devices : Ledger.Follows DeviceCode.id (·.status = .redeemed) x.db.nextId y.db.nextId
    x.db.oauth2DeviceCodes y.db.oauth2DeviceCodes
  tokens : Ledger.Follows OAuth2Token.id (fun _ => False) x.db.nextId y.db.nextId x.db.oauth2Tokens y.db.oauth2Tokens
  pushed : Ledger.Follows PushedRequest.id (fun _ => False) x.db.nextId y.db.nextId x.pushedRequests y.pushedRequests
  nonces : Ledger.Follows ForwardAuthNonce.id (fun _ => False) x.db.nextId y.db.nextId x.nonces y.nonces

/-- What a statement can do to the tables. -/
structure Moves (x y : Counter) : Prop extends Ages x y where
  deviceKeys : Ledger.KeepsKeys DeviceCode.id x.db.nextId x.db.oauth2DeviceCodes y.db.oauth2DeviceCodes
  pushedKeys : Ledger.KeepsKeys PushedRequest.id x.db.nextId x.pushedRequests y.pushedRequests
  nonceKeys : Ledger.KeepsKeys ForwardAuthNonce.id x.db.nextId x.nonces y.nonces

/-- A statement that leaves the locks and the rows under them alone. -/
structure Calm (x y : Counter) : Prop extends Moves x y where
  locked : y.locked = x.locked
  stages : y.stages = x.stages
  kept : ∀ t ∈ x.db.oauth2Tokens, t.id ∈ x.locked → t ∈ y.db.oauth2Tokens

theorem Calm.refl (x : Counter) : Calm x x :=
  ⟨⟨⟨le_refl _, .refl, .refl, .refl, .refl, .refl⟩, .refl, .refl, .refl⟩, rfl, rfl, fun _ ht _ => ht⟩

theorem calm_deleteTokens {selected : OAuth2Token → Bool} (h : x.deleteTokens selected = some y) : Calm x y := by
  unfold deleteTokens at h
  split_ifs at h with hany
  obtain rfl := Option.some.inj h
  refine { Calm.refl x with tokens := .filter _, kept := fun t ht hlocked => ?_ }
  refine mem_filter.mpr ⟨ht, ?_⟩
  by_contra hgone
  refine hany (any_eq_true.mpr ⟨t, ht, ?_⟩)
  simp only [decide_not, Bool.not_eq_true', decide_eq_false_iff_not, not_not] at hgone
  exact decide_eq_true ⟨hlocked, hgone⟩

theorem calm_consumePushedRequest {clientId : Id} {referenceHash : Text} :
    Calm x (x.consumePushedRequest clientId referenceHash).2 :=
  { Calm.refl x with pushed := .filter _, pushedKeys := .filter _ }

theorem calm_consumeNonce {nonce domain : Text} : Calm x (x.consumeNonce nonce domain).2 :=
  { Calm.refl x with nonces := .filter _, nonceKeys := .filter _ }

theorem calm_consumeCode (codeId : Id) : Calm x { x with db := (x.db.consumeCode codeId).2 } := by
  unfold Db.consumeCode
  split_ifs
  · refine { Calm.refl x with codes := .map (fun c => ?_) fun c hc => ?_ }
    · split_ifs <;> rfl
    · split_ifs
      · rfl
      · exact hc
  · exact Calm.refl x

theorem calm_mapDevices (hid : ∀ d, (f d).id = d.id) (hf : ∀ d, d.status = .redeemed → (f d).status = .redeemed) :
    Calm x { x with db := { x.db with oauth2DeviceCodes := x.db.oauth2DeviceCodes.map f } } :=
  { Calm.refl x with devices := .map hid hf, deviceKeys := .map hid }

theorem calm_updateDeviceCode (requestId : Id) (hid : ∀ d, (f d).id = d.id)
    (hf : ∀ d, d.status = .redeemed → (f d).status = .redeemed) :
    Calm x { x with db := x.db.updateDeviceCode requestId f } := by
  refine calm_mapDevices (fun d => ?_) fun d hd => ?_
  · split_ifs
    · exact hid d
    · rfl
  · split_ifs
    · exact hf d hd
    · exact hd

theorem calm_recordPoll (requestId : Id) : Calm x { x with db := x.db.recordPoll requestId } :=
  calm_updateDeviceCode requestId (fun _ => rfl) fun _ h => h

theorem calm_redeemDeviceCode (requestId : Id) : Calm x { x with db := (x.db.redeemDeviceCode requestId).2 } := by
  unfold Db.redeemDeviceCode
  split_ifs
  · refine calm_updateDeviceCode requestId (fun d => ?_) fun d hd => ?_
    · split_ifs <;> rfl
    · simp [hd]
  · exact Calm.refl x

theorem calm_decideDeviceCode (requestId : Id) (approved : Bool) (userId : Id) :
    Calm x { x with db := (x.db.decideDeviceCode requestId approved userId).2 } := by
  unfold Db.decideDeviceCode
  dsimp only
  generalize (if approved = true then DeviceCodeStatus.approved else .denied) = status
  split_ifs
  · refine calm_mapDevices (fun d => ?_) fun d hd => ?_
    · split_ifs <;> rfl
    · simp [hd]
  · exact Calm.refl x

theorem mem_rotateRefreshToken (h : t ∈ (db.rotateRefreshToken old).2.oauth2Tokens) :
    t.id ≠ old.id ∧ (t.id = db.nextId ∨ ∃ t₀ ∈ db.oauth2Tokens, t₀.id = t.id) := by
  obtain ⟨hne, rfl | ⟨t₀, ht₀, rfl⟩⟩ := Db.mem_rotateRefreshToken_cases h
  · exact ⟨hne, .inl rfl⟩
  · exact ⟨hne, .inr ⟨t₀, ht₀, Db.reparent_id.symm⟩⟩

theorem moves_rotateRefreshToken (token : OAuth2Token) (locked : List Id) :
    Moves x { x with db := (x.db.rotateRefreshToken token).2, locked } := by
  refine ⟨⟨Nat.le_succ _, .refl, .refl, fun t ht => ?_, .refl, .refl⟩, .refl, .refl, .refl⟩
  obtain ⟨-, hnew | ⟨t₀, ht₀, hid⟩⟩ := mem_rotateRefreshToken ht
  · exact .inl ⟨le_of_eq hnew.symm, by rw [hnew]; exact Nat.lt_succ_self _⟩
  · exact .inr ⟨t₀, ht₀, hid, fun h => h⟩

theorem Outcome.moves {stage' : Stage} (h : Outcome x stage stage' y) : Moves x y := by
  cases h with
  | idle => exact (Calm.refl x).toMoves
  | consumed codeId h => exact (calm_consumeCode codeId).toMoves
  | revoked h => exact (calm_deleteTokens h).toMoves
  | polled requestId => exact (calm_recordPoll requestId).toMoves
  | redeemed requestId h => exact (calm_redeemDeviceCode requestId).toMoves
  | locked => exact { Calm.refl x with }
  | rotated token h => exact moves_rotateRefreshToken token _
  | pushed => exact calm_consumePushedRequest.toMoves
  | nonce => exact calm_consumeNonce.toMoves

theorem calm_addToken (hid : t.id = x.db.nextId) : Calm x { x with
    db := { x.db with nextId := x.db.nextId + 1, oauth2Tokens := x.db.oauth2Tokens ++ [t] } } := by
  refine ⟨⟨⟨Nat.le_succ _, .refl, .refl, ?_, .refl, .refl⟩, .refl, .refl, .refl⟩, rfl, rfl,
    fun t ht _ => mem_append_left _ ht⟩
  exact Ledger.Follows.concat .refl (le_of_eq hid.symm) (by rw [hid]; exact Nat.lt_succ_self _)

theorem calm_other {statement : OtherStatement} : Calm x (x.other env statement) := by
  cases statement with
  | createCode =>
    refine ⟨⟨⟨Nat.le_succ _, ?_, .refl, .refl, .refl, .refl⟩, .refl, .refl, .refl⟩, rfl, rfl, fun _ ht _ => ht⟩
    exact Ledger.Follows.concat (.filter _) (le_refl _) (Nat.lt_succ_self _)
  | deleteCodes => exact { Calm.refl x with codes := .filter _ }
  | createDeviceCode =>
    rw [other, Db.createDeviceCode]
    cases find? _ _ with
    | none => exact Calm.refl x
    | some =>
      refine ⟨⟨⟨Nat.le_add_right _ 5, .refl, ?_, .refl, .refl, .refl⟩, .concat (.refl _) (le_refl _), .refl,
        .refl⟩, rfl, rfl, fun _ ht _ => ht⟩
      exact Ledger.Follows.concat .refl (le_refl _) (Nat.lt_add_of_pos_right (by omega))
  | decideDeviceCode requestId approved userId => exact calm_decideDeviceCode requestId approved userId
  | deleteDeviceCodes => exact { Calm.refl x with devices := .filter _, deviceKeys := .filter _ }
  | createRefreshToken => exact calm_addToken rfl
  | createAccessToken clientId userId parentTokenId isClientCredentials scope grantId =>
    rw [other]
    split_ifs
    · exact Calm.refl x
    · cases hcreate : x.db.createAccessToken env clientId userId parentTokenId isClientCredentials scope grantId with
      | error e => exact Calm.refl x
      | ok result =>
        obtain ⟨_, db'⟩ := result
        obtain ⟨-, rfl⟩ := Db.createAccessToken_eq_ok hcreate
        exact calm_addToken rfl
  | deleteTokens selected =>
    rw [other]
    cases hdelete : x.deleteTokens selected with
    | none => exact Calm.refl x
    | some y => exact calm_deleteTokens hdelete
  | createPushedRequest =>
    rw [other]
    split_ifs
    · exact { Calm.refl x with pushed := .filter _, pushedKeys := .filter _ }
    · refine ⟨⟨⟨Nat.le_succ _, .refl, .refl, .refl, ?_, .refl⟩, .refl, .concat filter_sublist (le_refl _), .refl⟩,
        rfl, rfl, fun _ ht _ => ht⟩
      exact Ledger.Follows.concat (.filter _) (le_refl _) (Nat.lt_succ_self _)
  | deletePushedRequests => exact { Calm.refl x with pushed := .filter _, pushedKeys := .filter _ }
  | createNonce =>
    rw [other]
    split_ifs
    · exact Calm.refl x
    · refine ⟨⟨⟨Nat.le_succ _, .refl, .refl, .refl, .refl, ?_⟩, .refl, .refl, .concat (.refl _) (le_refl _)⟩, rfl,
        rfl, fun _ ht _ => ht⟩
      exact Ledger.Follows.concat .refl (le_refl _) (Nat.lt_succ_self _)
  | deleteNonces => exact { Calm.refl x with nonces := .filter _, nonceKeys := .filter _ }
  | wait micros => exact { Calm.refl x with }

theorem moves_step : Moves x (x.step env event) := by
  cases event with
  | advance i =>
    have h : Moves x (statement env x (x.requests i) (x.stages i)).2 := statement_outcome.moves
    exact { h with }
  | rollback i =>
    rw [step]
    split
    · exact { Calm.refl x with }
    · exact (Calm.refl x).toMoves
  | other => exact calm_other.toMoves

/-- A request that holds a lock holds it alone, on a row that is still there. -/
structure Locks (x : Counter) : Prop where
  held : ∀ i t, x.stages i = .lockedToken t → t.id ∈ x.locked
  sole : ∀ i j t t', x.stages i = .lockedToken t → x.stages j = .lockedToken t' → t.id = t'.id → i = j
  present : ∀ k ∈ x.locked, ∃ t ∈ x.db.oauth2Tokens, t.id = k

structure Keys (x : Counter) : Prop where
  devices : (x.db.oauth2DeviceCodes.map DeviceCode.id).Nodup
  pushed : (x.pushedRequests.map PushedRequest.id).Nodup
  nonces : (x.nonces.map ForwardAuthNonce.id).Nodup

structure Sound (x : Counter) : Prop extends Locks x where
  codes : Ledger.Fresh AuthorizationCode.id x.db.nextId x.db.authorizationCodes
  devices : Ledger.Fresh DeviceCode.id x.db.nextId x.db.oauth2DeviceCodes
  tokens : Ledger.Fresh OAuth2Token.id x.db.nextId x.db.oauth2Tokens
  pushed : Ledger.Fresh PushedRequest.id x.db.nextId x.pushedRequests
  nonces : Ledger.Fresh ForwardAuthNonce.id x.db.nextId x.nonces
  keys : Keys x

theorem Locks.quiet (h : x.Locks) (hlocked : y.locked = x.locked)
    (hstages : ∀ i t, y.stages i = .lockedToken t → x.stages i = .lockedToken t)
    (htokens : ∀ t ∈ x.db.oauth2Tokens, t.id ∈ x.locked → ∃ t' ∈ y.db.oauth2Tokens, t'.id = t.id) : y.Locks where
  held := fun i t hi => hlocked ▸ h.held i t (hstages i t hi)
  sole := fun i j t t' hi hj => h.sole i j t t' (hstages i t hi) (hstages j t' hj)
  present := by
    intro k hk
    rw [hlocked] at hk
    obtain ⟨t, ht, rfl⟩ := h.present k hk
    exact htokens t ht hk

theorem exists_mem_rotateRefreshToken (hold : old.id < db.nextId)
    (ht : t ∈ db.oauth2Tokens) (hne : t.id ≠ old.id) :
    ∃ t' ∈ (db.rotateRefreshToken old).2.oauth2Tokens, t'.id = t.id := by
  have hparent : (db.reparent old t).parentTokenId ≠ some old.id := by
    unfold Db.reparent
    split_ifs with hold'
    · intro heq
      exact ne_of_gt hold (Option.some.inj heq)
    · exact hold'
  refine ⟨_, mem_filter.mpr ⟨mem_map.mpr ⟨t, mem_append_left _ ht, rfl⟩, ?_⟩, Db.reparent_id⟩
  simp only [decide_eq_true_eq, not_or, Db.reparent_id]
  refine ⟨hne, fun hcascade => ?_⟩
  obtain ⟨parent, -, hp⟩ := any_eq_true.mp hcascade
  simp only [decide_eq_true_eq] at hp
  exact hparent (hp.2 ▸ hp.1)

theorem Locks.acquire (h : x.Locks) (hfree : token.id ∉ x.locked) (hrow : ∃ t ∈ x.db.oauth2Tokens, t.id = token.id) :
    Locks { x with locked := token.id :: x.locked, stages := Function.update x.stages i (.lockedToken token) } := by
  have hcases : ∀ j t, Function.update x.stages i (.lockedToken token) j = .lockedToken t →
      j = i ∧ t = token ∨ j ≠ i ∧ x.stages j = .lockedToken t := by
    intro j t hj
    by_cases hji : j = i
    · rw [hji, Function.update_self] at hj
      exact .inl ⟨hji, (Stage.lockedToken.inj hj).symm⟩
    · rw [Function.update_of_ne hji] at hj
      exact .inr ⟨hji, hj⟩
  constructor
  · intro j t hj
    rcases hcases j t hj with ⟨-, rfl⟩ | ⟨-, hold⟩
    · exact mem_cons_self
    · exact mem_cons_of_mem _ (h.held j t hold)
  · intro j k t t' hj hk hid
    rcases hcases j t hj with ⟨rfl, rfl⟩ | ⟨-, hj₀⟩
    · rcases hcases k t' hk with ⟨rfl, -⟩ | ⟨-, hk₀⟩
      · rfl
      · exact absurd (hid ▸ h.held k t' hk₀) hfree
    · rcases hcases k t' hk with ⟨-, rfl⟩ | ⟨-, hk₀⟩
      · exact absurd (hid ▸ h.held j t hj₀) hfree
      · exact h.sole j k t t' hj₀ hk₀ hid
  · intro k hk
    rcases mem_cons.mp hk with rfl | hk
    · exact hrow
    · exact h.present k hk

theorem Locks.release (h : x.Locks) (hi : x.stages i = .lockedToken token)
    {redeemed : Option Credential} (hlocked : y.locked = x.locked.filter (· ≠ token.id))
    (hstages : y.stages = Function.update x.stages i (.ended redeemed))
    (htokens : ∀ t ∈ x.db.oauth2Tokens, t.id ≠ token.id → ∃ t' ∈ y.db.oauth2Tokens, t'.id = t.id) : y.Locks := by
  have hcases : ∀ j t, y.stages j = .lockedToken t → j ≠ i ∧ x.stages j = .lockedToken t := by
    intro j t hj
    rw [hstages] at hj
    by_cases hji : j = i
    · rw [hji, Function.update_self] at hj
      cases hj
    · rw [Function.update_of_ne hji] at hj
      exact ⟨hji, hj⟩
  constructor
  · intro j t hj
    obtain ⟨hji, hold⟩ := hcases j t hj
    rw [hlocked]
    refine mem_filter.mpr ⟨h.held j t hold, decide_eq_true fun hid => ?_⟩
    exact hji (h.sole j i t token hold hi hid)
  · intro j k t t' hj hk
    exact h.sole j k t t' (hcases j t hj).2 (hcases k t' hk).2
  · intro k hk
    rw [hlocked] at hk
    obtain ⟨hmem, hne⟩ := mem_filter.mp hk
    obtain ⟨t, ht, rfl⟩ := h.present k hmem
    exact htokens t ht (of_decide_eq_true hne)

theorem Locks.outcome (h : x.Locks) (hfresh : Ledger.Fresh OAuth2Token.id x.db.nextId x.db.oauth2Tokens)
    (hout : Outcome x (x.stages i) stage y) : Locks { y with stages := Function.update x.stages i stage } := by
  have hcalm : (∀ token, stage ≠ .lockedToken token) → Calm x y →
      Locks { y with stages := Function.update x.stages i stage } := by
    intro hlock hcalm
    refine h.quiet hcalm.locked (fun j t hj => ?_) fun t ht hmem => ⟨t, hcalm.kept t ht hmem, rfl⟩
    change Function.update x.stages i stage j = .lockedToken t at hj
    by_cases hji : j = i
    · rw [hji, Function.update_self] at hj
      exact absurd hj (hlock t)
    · rwa [Function.update_of_ne hji] at hj
  cases hout with
  | idle hlock hend => exact hcalm hlock (Calm.refl x)
  | consumed codeId hc => exact hcalm (by simp) (calm_consumeCode codeId)
  | revoked hdelete => exact hcalm (by simp) (calm_deleteTokens hdelete)
  | polled requestId => exact hcalm (by simp) (calm_recordPoll requestId)
  | redeemed requestId hr => exact hcalm (by simp) (calm_redeemDeviceCode requestId)
  | locked token hfree hrow => exact h.acquire hfree hrow
  | rotated token hi =>
    obtain ⟨t, ht, hid⟩ := h.present token.id (h.held i token hi)
    have hlt := hid ▸ hfresh t ht
    exact h.release hi rfl rfl fun t ht hne => exists_mem_rotateRefreshToken hlt ht hne
  | pushed => exact hcalm (by simp) calm_consumePushedRequest
  | nonce => exact hcalm (by simp) calm_consumeNonce

theorem Sound.step (h : x.Sound) (event : CounterEvent) : (x.step env event).Sound := by
  have hmoves : Moves x (x.step env event) := moves_step
  refine ⟨?_, hmoves.codes.fresh hmoves.nextId_le h.codes, hmoves.devices.fresh hmoves.nextId_le h.devices,
    hmoves.tokens.fresh hmoves.nextId_le h.tokens, hmoves.pushed.fresh hmoves.nextId_le h.pushed,
    hmoves.nonces.fresh hmoves.nextId_le h.nonces, hmoves.deviceKeys h.devices h.keys.devices,
    hmoves.pushedKeys h.pushed h.keys.pushed, hmoves.nonceKeys h.nonces h.keys.nonces⟩
  cases event with
  | advance i => exact h.toLocks.outcome h.tokens statement_outcome
  | rollback i =>
    rw [Counter.step]
    split
    · rename_i token hi
      exact h.toLocks.release hi rfl rfl fun t ht _ => ⟨t, ht, rfl⟩
    · exact h.toLocks
  | other statement =>
    have hcalm : Calm x (x.other env statement) := calm_other
    refine h.toLocks.quiet hcalm.locked (fun j t hj => ?_) fun t ht hmem => ⟨t, hcalm.kept t ht hmem, rfl⟩
    exact hcalm.stages ▸ hj

def Spent : Credential → Counter → Prop
  | .code k, x => Ledger.Spent AuthorizationCode.id (·.consumedAt.isSome) x.db.nextId x.db.authorizationCodes k
  | .device k, x => Ledger.Spent DeviceCode.id (·.status = .redeemed) x.db.nextId x.db.oauth2DeviceCodes k
  | .refresh k, x => Ledger.Spent OAuth2Token.id (fun _ => False) x.db.nextId x.db.oauth2Tokens k
  | .pushed k, x => Ledger.Spent PushedRequest.id (fun _ => False) x.db.nextId x.pushedRequests k
  | .nonce k, x => Ledger.Spent ForwardAuthNonce.id (fun _ => False) x.db.nextId x.nonces k

theorem Ages.spent (h : Ages x y) (hspent : Spent credential x) : Spent credential y := by
  cases credential with
  | code k => exact h.codes.spent h.nextId_le hspent
  | device k => exact h.devices.spent h.nextId_le hspent
  | refresh k => exact h.tokens.spent h.nextId_le hspent
  | pushed k => exact h.pushed.spent h.nextId_le hspent
  | nonce k => exact h.nonces.spent h.nextId_le hspent

theorem consumeCode_true {codeId : Id} (h : (db.consumeCode codeId).1 = true) :
    (∃ c ∈ db.authorizationCodes, c.id = codeId ∧ c.consumedAt = none) ∧
      ∀ c ∈ (db.consumeCode codeId).2.authorizationCodes, c.id = codeId → c.consumedAt.isSome := by
  unfold Db.consumeCode at h ⊢
  split_ifs at h ⊢ with hany
  refine ⟨by simpa using hany, fun c hc hid => ?_⟩
  obtain ⟨c₀, -, rfl⟩ := mem_map.mp hc
  split_ifs at hid ⊢ with hfree
  · rfl
  · rw [Option.isSome_iff_ne_none]
    exact fun hnone => hfree ⟨hid, hnone⟩

theorem Sound.redeemed (h : x.Sound)
    (hout : Outcome x (x.stages i) (.ended (some credential)) y) (hnew : x.stages i ≠ .ended (some credential)) :
    ¬ Spent credential x ∧ Spent credential y := by
  have hle := hout.moves.nextId_le
  generalize hstage : Stage.ended (some credential) = stage at hout
  cases hout with
  | idle hlock hend => exact absurd (hend credential hstage.symm) (hstage ▸ hnew)
  | consumed codeId hc =>
    obtain rfl := Option.some.inj (Stage.ended.inj hstage)
    obtain ⟨⟨c, hmem, hid, hnone⟩, hdone⟩ := consumeCode_true hc
    refine ⟨fun hspent => ?_, lt_of_lt_of_le (hid ▸ h.codes c hmem) hle, hdone⟩
    have hsome := hspent.2 c hmem hid
    simp [hnone] at hsome
  | revoked => cases hstage
  | polled => cases hstage
  | redeemed requestId hr =>
    obtain rfl := Option.some.inj (Stage.ended.inj hstage)
    obtain ⟨⟨d, hmem, hid, hstatus, -⟩, hdone⟩ := Db.redeemDeviceCode_true h.keys.devices hr
    refine ⟨fun hspent => ?_, lt_of_lt_of_le (hid ▸ h.devices d hmem) hle, hdone⟩
    have hredeemed : d.status = .redeemed := hspent.2 d hmem hid
    rw [hstatus] at hredeemed
    cases hredeemed
  | locked => cases hstage
  | rotated token hi =>
    obtain rfl := Option.some.inj (Stage.ended.inj hstage)
    obtain ⟨t, ht, hid⟩ := h.present token.id (h.held i token hi)
    refine ⟨fun hspent => hspent.2 t ht hid, lt_of_lt_of_le (hid ▸ h.tokens t ht) hle, fun t' ht' hid' => ?_⟩
    exact (mem_rotateRefreshToken ht').1 hid'
  | pushed =>
    obtain ⟨r, hfind, rfl⟩ := Option.map_eq_some_iff.mp (Stage.ended.inj hstage).symm
    have hmem := mem_of_find?_eq_some hfind
    have hmatch := find?_some hfind
    refine ⟨fun hspent => hspent.2 r hmem rfl, lt_of_lt_of_le (h.pushed r hmem) hle, fun r' hr' hid => ?_⟩
    exact Ledger.id_ne_of_dropped h.keys.pushed hmem (by simpa using hmatch) hr' hid
  | nonce =>
    obtain ⟨n, hfind, rfl⟩ := Option.map_eq_some_iff.mp (Stage.ended.inj hstage).symm
    have hmem := mem_of_find?_eq_some hfind
    have hmatch := find?_some hfind
    refine ⟨fun hspent => hspent.2 n hmem rfl, lt_of_lt_of_le (h.nonces n hmem) hle, fun n' hn' hid => ?_⟩
    exact Ledger.id_ne_of_dropped h.keys.nonces hmem (by simpa using hmatch) hn' hid

theorem Sound.redeems (h : x.Sound)
    (hredeems : Redeems env credential x event) : ¬ Spent credential x ∧ Spent credential (x.step env event) := by
  obtain ⟨i, rfl, hnew, hend⟩ := hredeems
  have hout : Outcome x (x.stages i) (.ended (some credential)) (statement env x (x.requests i) (x.stages i)).2 := by
    have hupdate : Function.update x.stages i (statement env x (x.requests i) (x.stages i)).1 i =
        .ended (some credential) := hend
    rw [Function.update_self] at hupdate
    rw [← hupdate]
    exact statement_outcome
  obtain ⟨hbefore, hafter⟩ := h.redeemed hout hnew
  refine ⟨hbefore, ?_⟩
  cases credential <;> exact hafter

/-- However the statements of any number of requests interleave, each authorization code, device code, refresh
token, pushed request and forward-auth nonce is redeemed at most once. -/
theorem credential_redeemed_at_most_once (x : Counter) (h : x.Sound) (events : List CounterEvent)
    (credential : Credential) : AtMostOnce (step env) (Redeems env credential) x events :=
  atMostOnce_of_mark (fun _ event h => h.step event)
    (fun _ _ h hredeems => (h.redeems hredeems).2) (fun _ _ _ hspent => moves_step.spent hspent)
    (fun _ _ h hspent hredeems => (h.redeems hredeems).1 hspent) h

def twoCounters : Counter where
  db := {
    nextId := 4
    oauth2Clients := [{ id := 1 }]
    authorizationCodes := [{ id := 2, code := "c", clientId := 1, userId := 0, redirectUri := [], expiresAt := 9 }]
    oauth2Tokens := [{ id := 3, tokenType := .refresh, clientId := 1, userId := 0, expiresAt := 9 }] }
  requests := fun i => if i < 2 then .code { code := "c", clientId := 1, redirectUri := [] } else .refresh 1 3

theorem sound_twoCounters : twoCounters.Sound where
  held := by simp [twoCounters]
  sole := by simp [twoCounters]
  present := by simp [twoCounters]
  codes := by decide
  devices := by decide
  tokens := by decide
  pushed := by decide
  nonces := by decide
  keys := ⟨by decide, by decide, by decide⟩

def race : List CounterEvent :=
  [0, 1, 0, 1, 2, 3, 2, 3, 2, 3, 2, 3].map .advance

theorem race_redeems_once : (run (step Env.ascii) twoCounters race).stages 0 = .ended (some (.code 2)) ∧
    (run (step Env.ascii) twoCounters race).stages 2 = .ended (some (.refresh 3)) ∧
    AtMostOnce (step Env.ascii) (Redeems Env.ascii (.code 2)) twoCounters race ∧
    AtMostOnce (step Env.ascii) (Redeems Env.ascii (.refresh 3)) twoCounters race :=
  ⟨by decide +kernel, by decide +kernel, credential_redeemed_at_most_once _ sound_twoCounters _ _,
    credential_redeemed_at_most_once _ sound_twoCounters _ _⟩

end Counter

end WeftId
