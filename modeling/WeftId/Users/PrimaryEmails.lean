import WeftId.Lib.Ledger
import WeftId.Lib.Fiber
import WeftId.Oidc.AccountLinks

/-!
The addresses of a user under requests that run at the same time, one database call at a time.  Making an address the
primary one takes the flag from the old address and gives it to the new one in two calls, and an address is deleted
some calls after it was seen not to be the primary one.
-/

namespace WeftId

open List Proc Run

namespace Db

def listUserEmails (db : Db) (userId : Id) : List UserEmail := db.userEmails.filter (·.userId = userId)

def getEmailById (db : Db) (emailId userId : Id) : Option UserEmail :=
  db.userEmails.find? fun e => e.id = emailId ∧ e.userId = userId

def findEmail (db : Db) (emailId : Id) : Option UserEmail := db.userEmails.find? (·.id = emailId)

def countUserEmails (db : Db) (userId : Id) : Nat := (db.listUserEmails userId).length

def unsetPrimaryEmails (db : Db) (userId : Id) : Db :=
  { db with userEmails := db.userEmails.map fun e =>
      if e.userId = userId ∧ e.isPrimary then { e with isPrimary := false } else e }

def deleteEmail (db : Db) (emailId : Id) : Db := { db with userEmails := db.userEmails.filter (·.id ≠ emailId) }

def primaryEmails (db : Db) (userId : Id) : Nat := db.userEmails.countP fun e => e.userId = userId ∧ e.isPrimary

end Db

/-- The database calls of the requests.  Those of making an address the primary one carry the user and the address. -/
inductive EmailCall
  | look
  | own (userId emailId : Id)
  | recheck (userId emailId : Id)
  | unset (userId emailId : Id)
  | promote (userId emailId : Id)
  | insert
  | verify
  | delete (emailId : Id)
  deriving DecidableEq

abbrev EmailFiber := Fiber EmailCall Db Error (Option UserEmail)

def canManageEmails (user : RequestingUser) (userId : Id) : Prop :=
  user.role = .admin ∨ user.role = .superAdmin ∨ user.id = userId
  deriving Decidable

def returnRow (row : Option UserEmail) (e : Error) : EmailFiber :=
  match row with
  | some row => pure (some row)
  | none => Fiber.raise e

section Requests

open Fiber (atomic)

variable (env : Env)

def insertEmail (userId : Id) (email : Text) (isAdminAction : Bool) : Service Id :=
  if isAdminAction then tx (·.addVerifiedEmail env userId email false) else tx (·.addEmail env userId email)

def addedRow (db : Db) (id userId : Id) (email : Text) (isAdminAction : Bool) : UserEmail :=
  ((db.listUserEmails userId).find? (·.email = email)).getD
    { id, userId, email, verifiedAt := if isAdminAction then some db.now else none }

def requireUser (user : RequestingUser) (userId : Id) (next : EmailFiber) : EmailFiber :=
  if user.id = userId then next
  else do
    let _ ← atomic .look (orRaise (·.getUserById userId) (.notFound "User not found" "user_not_found"))
    next

def addUserEmail (user : RequestingUser) (userId : Id) (email : Text) (isAdminAction : Bool) : EmailFiber := do
  let emailLower := env.lower (Text.strip email)
  Fiber.require (canManageEmails user userId)
    (.forbidden "Cannot add email to other user's account" "email_access_denied")
  requireUser user userId do
    let found ← atomic .look (read (·.emailExists env emailLower))
    Fiber.require (¬ found) (.conflict "Email address already exists" "email_exists")
    let id ← atomic .insert (insertEmail env userId emailLower isAdminAction)
    let row ← atomic .look (read (addedRow · id userId emailLower isAdminAction))
    pure (some row)

def deleteUserEmail (user : RequestingUser) (userId emailId : Id) : EmailFiber := do
  Fiber.require (canManageEmails user userId) (.forbidden "Cannot delete other user's email" "email_access_denied")
  let email ← atomic .look (orRaise (·.getEmailById emailId userId) (.notFound "Email not found" "email_not_found"))
  Fiber.require (¬ email.isPrimary) (.validation "Cannot delete primary email address" "cannot_delete_primary")
  let emailCount ← atomic .look (read (·.countUserEmails userId))
  Fiber.require (¬ emailCount ≤ 1) (.validation "Cannot delete last email address" "must_keep_one_email")
  atomic (.delete emailId) (write (·.deleteEmail emailId))
  pure none

def movePrimary (userId emailId : Id) : EmailFiber := do
  atomic (.unset userId emailId) (write (·.unsetPrimaryEmails userId))
  atomic (.promote userId emailId) (tx (·.setPrimaryEmail emailId))
  let emails ← atomic .look (read (·.listUserEmails userId))
  returnRow (emails.find? (·.id = emailId)) (.validation "Failed to retrieve updated email" "email_retrieval_failed")

def recheckPrimary (userId emailId : Id) : EmailFiber := do
  let emails ← atomic (.recheck userId emailId) (read (·.listUserEmails userId))
  match emails.find? (·.id = emailId) with
  | some row => pure (some row)
  | none => movePrimary userId emailId

def setPrimaryEmail (user : RequestingUser) (userId emailId : Id) : EmailFiber := do
  Fiber.require (canManageEmails user userId)
    (.forbidden "Cannot modify other user's primary email" "email_access_denied")
  let email ← atomic (.own userId emailId)
    (orRaise (·.getEmailById emailId userId) (.notFound "Email not found" "email_not_found"))
  Fiber.require (email.verifiedAt.isSome) (.validation "Cannot set unverified email as primary" "email_not_verified")
  if email.isPrimary then recheckPrimary userId emailId else movePrimary userId emailId

/-- `nonceMatches` is the comparison of the given nonce with the one of the row. -/
def verifyEmail (emailId userId : Id) (nonceMatches : UserEmail → Bool) : EmailFiber := do
  let email ← atomic .look (orRaise (·.findEmail emailId) (.notFound "Email not found" "email_not_found"))
  Fiber.require (email.userId = userId) (.notFound "Email not found" "email_not_found")
  Fiber.require (email.verifiedAt = none) (.validation "Email already verified" "already_verified")
  Fiber.require (nonceMatches email) (.validation "Invalid verification code" "invalid_nonce")
  atomic .verify (write (·.verifyEmail emailId))
  let emails ← atomic .look (read (·.listUserEmails userId))
  returnRow (emails.find? (·.id = emailId)) (.validation "Failed to retrieve verified email" "email_retrieval_failed")

end Requests

inductive EmailRequest
  | add (user : RequestingUser) (userId : Id) (email : Text) (isAdminAction : Bool)
  | delete (user : RequestingUser) (userId emailId : Id)
  | setPrimary (user : RequestingUser) (userId emailId : Id)
  | verify (emailId userId : Id) (nonceMatches : UserEmail → Bool)

def EmailRequest.steps (env : Env) : EmailRequest → EmailFiber
  | .add user userId email isAdminAction => addUserEmail env user userId email isAdminAction
  | .delete user userId emailId => deleteUserEmail user userId emailId
  | .setPrimary user userId emailId => setPrimaryEmail user userId emailId
  | .verify emailId userId nonceMatches => verifyEmail emailId userId nonceMatches

inductive EmailEvent
  | request (request : EmailRequest)
  | advance (i : Nat)

abbrev EmailServer := Pool EmailCall Db Error (Option UserEmail) EmailRequest

namespace EmailServer

def idle (db : Db) : EmailServer where
  store := db

def step (env : Env) (x : EmailServer) : EmailEvent → EmailServer
  | .request request => x.start request (request.steps env)
  | .advance i => x.advance i

/-- No request is in progress. -/
def Quiet (x : EmailServer) : Prop := ∀ call ∈ x.inFlight, call.2.label = none
  deriving Decidable

def Holding : EmailCall → Id → Id → Prop
  | .recheck userId emailId, u, e | .unset userId emailId, u, e | .promote userId emailId, u, e =>
    userId = u ∧ emailId = e
  | _, _, _ => False

instance (label : EmailCall) (u e : Id) : Decidable (Holding label u e) := by
  cases label <;> unfold Holding <;> infer_instance

def deleted : EmailCall → Option Id
  | .delete emailId => some emailId
  | _ => none

/-- An address of the user is deleted only while it is not the primary one and no request is making it that. -/
def DeletesUnheld (u : Id) (x : EmailServer) : EmailEvent → Prop
  | .request _ => True
  | .advance i => ∀ call ∈ x.inFlight[i]?, ∀ label ∈ call.2.label, ∀ emailId ∈ deleted label,
      ∀ row ∈ x.store.userEmails, row.id = emailId → row.userId = u →
        row.isPrimary = false ∧ ∀ other ∈ x.inFlight, ∀ l ∈ other.2.label, ¬ Holding l u emailId

instance (u : Id) (x : EmailServer) : DecidablePred (DeletesUnheld u x)
  | .request _ => isTrue trivial
  | .advance i => inferInstanceAs (Decidable (∀ call ∈ x.inFlight[i]?, _))

end EmailServer

structure AddressMark where
  id : Id
  userId : Id
  isPrimary : Bool

namespace AddressMark

def unset (u : Id) (m : AddressMark) : AddressMark :=
  if m.userId = u ∧ m.isPrimary then { m with isPrimary := false } else m

def promote (e : Id) (m : AddressMark) : AddressMark := if m.id = e then { m with isPrimary := true } else m

end AddressMark

variable {m : AddressMark} {u e : Id} {isAdminAction : Bool}

namespace Db

variable {db db' : Db}

def marks (db : Db) : List AddressMark := db.userEmails.map fun e => ⟨e.id, e.userId, e.isPrimary⟩

theorem mem_marks : m ∈ db.marks ↔ ∃ e ∈ db.userEmails, (⟨e.id, e.userId, e.isPrimary⟩ : AddressMark) = m :=
  mem_map

theorem mem_marks_of_mem {e : UserEmail} (h : e ∈ db.userEmails) :
    ⟨e.id, e.userId, e.isPrimary⟩ ∈ db.marks := mem_marks.mpr ⟨e, h, rfl⟩

theorem primaryEmails_eq (db : Db) (u : Id) :
    db.primaryEmails u = db.marks.countP fun m => m.userId = u ∧ m.isPrimary := by
  unfold marks
  rw [countP_map]
  rfl

theorem marks_unsetPrimaryEmails : (db.unsetPrimaryEmails u).marks = db.marks.map (AddressMark.unset u) := by
  simp only [marks, unsetPrimaryEmails, map_map]
  apply map_congr_left
  intro e _
  by_cases h : e.userId = u ∧ e.isPrimary <;> simp [AddressMark.unset, h]

theorem marks_deleteEmail : (db.deleteEmail e).marks = db.marks.filter (·.id ≠ e) := by
  simp [marks, deleteEmail, filter_map, Function.comp_def]

theorem marks_verifyEmail : (db.verifyEmail e).marks = db.marks := by
  simp only [marks, verifyEmail, map_map]
  apply map_congr_left
  intro row _
  by_cases h : row.id = e <;> simp [h]

theorem setPrimaryEmail_cases : ((∃ m ∈ db.marks, m.id = e ∧ ∃ m' ∈ db.marks, m'.userId = m.userId ∧ m'.isPrimary) ∧
        ∃ error, db.setPrimaryEmail e = .error error) ∨
      (∀ m ∈ db.marks, m.id = e → ∀ m' ∈ db.marks, m'.id ≠ e → m'.userId = m.userId → m'.isPrimary = false) ∧
        ∃ db', db.setPrimaryEmail e = .ok ((), db') ∧ db'.nextId = db.nextId ∧
          db'.marks = db.marks.map (AddressMark.promote e) := by
  unfold setPrimaryEmail
  split_ifs with hany
  · refine .inl ⟨?_, _, rfl⟩
    obtain ⟨row, hrow, hrest⟩ := any_eq_true.mp hany
    obtain ⟨hid, hother⟩ := of_decide_eq_true hrest
    obtain ⟨other, hmem, hrest'⟩ := any_eq_true.mp hother
    obtain ⟨-, huser, hprimary⟩ := of_decide_eq_true hrest'
    exact ⟨_, mem_marks_of_mem hrow, hid, _, mem_marks_of_mem hmem, huser, hprimary⟩
  · refine .inr ⟨?_, _, rfl, rfl, ?_⟩
    · intro m hm hid m' hm' hne huser
      obtain ⟨row, hrow, rfl⟩ := mem_marks.mp hm
      obtain ⟨other, hother, rfl⟩ := mem_marks.mp hm'
      by_contra hprimary
      apply hany
      refine any_eq_true.mpr ⟨row, hrow, decide_eq_true ⟨hid, any_eq_true.mpr ⟨other, hother, ?_⟩⟩⟩
      exact decide_eq_true ⟨hne, huser, by simpa using hprimary⟩
    · simp only [marks, map_map]
      apply map_congr_left
      intro row _
      by_cases h : row.id = e <;> simp [AddressMark.promote, h]

theorem marks_of_insertEmail {env : Env} {email : Text} :
    ((insertEmail env u email isAdminAction).exec db).marks = db.marks ∧
        ((insertEmail env u email isAdminAction).exec db).nextId = db.nextId ∨
      ((insertEmail env u email isAdminAction).exec db).marks = db.marks ++ [⟨db.nextId, u, false⟩] ∧
        ((insertEmail env u email isAdminAction).exec db).nextId = db.nextId + 1 := by
  have hinsert : insertEmail env u email isAdminAction =
      tx fun db => db.insertEmailRow env u email false (if isAdminAction then some db.now else none) := by
    cases isAdminAction <;> rfl
  rw [hinsert]
  cases hadd : db.insertEmailRow env u email false (if isAdminAction then some db.now else none) with
  | error e =>
    rw [exec_tx_of_error hadd]
    exact .inl ⟨rfl, rfl⟩
  | ok result =>
    rw [exec_tx_of_ok hadd, insertEmailRow_eq_ok hadd]
    exact .inr ⟨by simp [marks], rfl⟩

end Db

namespace EmailServer

def Effect (label : EmailCall) (s s' : Db) (next : EmailFiber) : Prop :=
  match label with
  | .look | .own _ _ | .recheck _ _ | .verify => s'.marks = s.marks ∧ s'.nextId = s.nextId
  | .insert => s'.marks = s.marks ∧ s'.nextId = s.nextId ∨
      ∃ u, s'.marks = s.marks ++ [⟨s.nextId, u, false⟩] ∧ s'.nextId = s.nextId + 1
  | .delete e => s'.marks = s.marks.filter (·.id ≠ e) ∧ s'.nextId = s.nextId ∧ next.label = none
  | .unset u e => s'.marks = s.marks.map (AddressMark.unset u) ∧ s'.nextId = s.nextId ∧ next.label = some (.promote u e)
  | .promote _ e => s'.nextId = s.nextId ∧
      ((∃ m ∈ s.marks, m.id = e ∧ ∃ m' ∈ s.marks, m'.userId = m.userId ∧ m'.isPrimary) ∧ s'.marks = s.marks ∨
        (∀ m ∈ s.marks, m.id = e → ∀ m' ∈ s.marks, m'.id ≠ e → m'.userId = m.userId → m'.isPrimary = false) ∧
          s'.marks = s.marks.map (AddressMark.promote e))

def Enters (label : EmailCall) (s : Db) (next : EmailFiber) : Prop :=
  ∀ l ∈ next.label, ∀ u e, Holding l u e → Holding label u e ∨ ∃ m ∈ s.marks, m.id = e ∧ m.userId = u

def Conforms (label : EmailCall) (s s' : Db) (next : EmailFiber) : Prop := Effect label s s' next ∧ Enters label s next

/-- The next call is not one of a request that is making an address the primary one. -/
def Harmless (x : EmailFiber) : Prop := ∀ l ∈ x.label, ∀ u e, ¬ Holding l u e

theorem harmless_raise {e : Error} : Harmless (Fiber.raise e) := fun _ hl => nomatch hl

variable {row : Option UserEmail} {label : EmailCall}

theorem harmless_pure : Harmless (pure row) := fun _ hl => nomatch hl

theorem harmless_returnRow {e : Error} : Harmless (returnRow row e) := by
  cases row with
  | none => exact harmless_raise
  | some row => exact harmless_pure

theorem harmless_atomic {α : Type} {call : Service α} {f : α → EmailFiber}
    (h : ∀ u e, ¬ Holding label u e) : Harmless (Fiber.atomic label call >>= f) := by
  intro l hl
  obtain rfl : label = l := Option.some.inj hl
  exact h

theorem harmless_require {c : Prop} [Decidable c] {e : Error} {f : Unit → EmailFiber} (h : c → Harmless (f ())) :
    Harmless (Fiber.require c e >>= f) := by
  intro l hl
  obtain ⟨hc, hl'⟩ := Fiber.label_require hl
  exact h hc l hl'

variable {next : EmailFiber}

theorem Harmless.enters (h : Harmless next) {s : Db} : Enters label s next :=
  fun l hl u e hholding => absurd hholding (h l hl u e)

theorem not_holding_look (u e : Id) : ¬ Holding .look u e := id

theorem conforms_look {s : Db} (h : Harmless next) : Conforms .look s s next := ⟨⟨rfl, rfl⟩, h.enters⟩

section Requests

variable (env : Env) (user : RequestingUser) (u e : Id)

theorem obeys_returnRow {error : Error} : (returnRow row error).Obeys Conforms := by
  cases row with
  | none => exact Fiber.obeys_raise
  | some row => exact Fiber.obeys_pure

theorem obeys_requireUser (hnext : next.Obeys Conforms) (hharmless : Harmless next) :
    (requireUser user u next).Obeys Conforms := by
  unfold requireUser
  split_ifs
  · exact hnext
  · apply Fiber.Obeys.orRaise
    · intro s b _
      exact ⟨conforms_look hharmless, hnext⟩
    · intro s
      exact conforms_look harmless_raise

theorem obeys_addUserEmail {email : Text} : (addUserEmail env user u email isAdminAction).Obeys Conforms := by
  refine .require fun _ => obeys_requireUser user u
    (.read fun s => ⟨conforms_look ?_, .require fun _ => .atomic ?_ ?_⟩) ?_
  · exact harmless_require fun _ => harmless_atomic fun _ _ => id
  · intro s id _
    refine ⟨⟨?_, (harmless_atomic not_holding_look).enters⟩, .read fun s' => ⟨conforms_look harmless_pure, trivial⟩⟩
    exact Db.marks_of_insertEmail.imp_right fun h => ⟨u, h⟩
  · intro s error _
    refine ⟨?_, harmless_raise.enters⟩
    exact Db.marks_of_insertEmail.imp_right fun h => ⟨u, h⟩
  · exact harmless_atomic not_holding_look

theorem obeys_deleteUserEmail : (deleteUserEmail user u e).Obeys Conforms := by
  refine .require fun _ =>
    .orRaise (fun s row _ => ⟨conforms_look ?_, .require fun _ => .read fun s => ⟨conforms_look ?_, ?_⟩⟩) ?_
  · exact harmless_require fun _ => harmless_atomic not_holding_look
  · exact harmless_require fun _ => harmless_atomic fun _ _ => id
  · refine .require fun _ => .write (fun s => ?_) Fiber.obeys_pure
    exact ⟨⟨Db.marks_deleteEmail, rfl, rfl⟩, harmless_pure.enters⟩
  · exact fun s => conforms_look harmless_raise

theorem effect_setPrimaryEmail {s : Db} : Effect (.promote u e) s ((tx (·.setPrimaryEmail e)).exec s) next := by
  rcases Db.setPrimaryEmail_cases with ⟨hother, error, hset⟩ | ⟨halone, s', hset, hnext, hmarks⟩
  · rw [exec_tx_of_error hset]
    exact ⟨rfl, .inl ⟨hother, rfl⟩⟩
  · rw [exec_tx_of_ok hset]
    exact ⟨hnext, .inr ⟨halone, hmarks⟩⟩

theorem obeys_movePrimary : (movePrimary u e).Obeys Conforms := by
  refine .write (fun s => ⟨⟨Db.marks_unsetPrimaryEmails, rfl, rfl⟩, ?_⟩) (.atomic ?_ ?_)
  · intro l hl v b hholding
    obtain rfl := Option.some.inj hl
    exact .inl hholding
  · intro s _ _
    exact ⟨⟨effect_setPrimaryEmail u e, (harmless_atomic not_holding_look).enters⟩,
      .read fun s' => ⟨conforms_look harmless_returnRow, obeys_returnRow⟩⟩
  · exact fun s error _ => ⟨effect_setPrimaryEmail u e, harmless_raise.enters⟩

theorem obeys_recheckPrimary : (recheckPrimary u e).Obeys Conforms := by
  refine .read fun s => ?_
  cases (s.listUserEmails u).find? (·.id = e) with
  | some row => exact ⟨⟨⟨rfl, rfl⟩, harmless_pure.enters⟩, trivial⟩
  | none =>
    refine ⟨⟨⟨rfl, rfl⟩, fun l hl v b hholding => ?_⟩, obeys_movePrimary u e⟩
    obtain rfl := Option.some.inj hl
    exact .inl hholding

theorem obeys_setPrimaryEmail : (setPrimaryEmail user u e).Obeys Conforms := by
  refine .require fun _ => .orRaise (fun s row hrow => ⟨⟨⟨rfl, rfl⟩, ?_⟩, .require fun _ => ?_⟩) ?_
  · intro l hl v b hholding
    obtain ⟨-, hl⟩ := Fiber.label_require hl
    have hkeys : v = u ∧ b = e := by
      split_ifs at hl
      · obtain rfl := Option.some.inj hl
        exact ⟨hholding.1.symm, hholding.2.symm⟩
      · obtain rfl := Option.some.inj hl
        exact ⟨hholding.1.symm, hholding.2.symm⟩
    have hfound := find?_some hrow
    obtain ⟨hid, huser⟩ := of_decide_eq_true hfound
    refine .inr ⟨_, Db.mem_marks_of_mem (mem_of_find?_eq_some hrow), ?_, ?_⟩
    · exact hid.trans hkeys.2.symm
    · exact huser.trans hkeys.1.symm
  · split_ifs
    · exact obeys_recheckPrimary u e
    · exact obeys_movePrimary u e
  · exact fun s => ⟨⟨rfl, rfl⟩, harmless_raise.enters⟩

theorem obeys_verifyEmail {nonceMatches : UserEmail → Bool} : (verifyEmail e u nonceMatches).Obeys Conforms := by
  refine .orRaise (fun s row _ => ⟨conforms_look ?_, .require fun _ => .require fun _ => .require fun _ => ?_⟩) ?_
  · exact harmless_require fun _ => harmless_require fun _ => harmless_require fun _ => harmless_atomic fun _ _ => id
  · refine .write (fun s => ⟨⟨Db.marks_verifyEmail, rfl⟩, (harmless_atomic not_holding_look).enters⟩)
      (.read fun s => ?_)
    exact ⟨conforms_look harmless_returnRow, obeys_returnRow⟩
  · exact fun s => conforms_look harmless_raise

theorem obeys_steps {request : EmailRequest} : (request.steps env).Obeys Conforms := by
  cases request with
  | add user userId => exact obeys_addUserEmail env user userId
  | delete user userId emailId => exact obeys_deleteUserEmail user userId emailId
  | setPrimary user userId emailId => exact obeys_setPrimaryEmail user userId emailId
  | verify emailId userId => exact obeys_verifyEmail userId emailId

end Requests

section Effects

variable {label : EmailCall} {s s' : Db} {next : EmailFiber}

theorem unset_id : (m.unset u).id = m.id ∧ (m.unset u).userId = m.userId := by
  unfold AddressMark.unset
  split_ifs <;> exact ⟨rfl, rfl⟩

theorem promote_id : (m.promote e).id = m.id ∧ (m.promote e).userId = m.userId := by
  unfold AddressMark.promote
  split_ifs <;> exact ⟨rfl, rfl⟩

structure MarksSound (db : Db) : Prop where
  ids : (db.marks.map (·.id)).Nodup
  fresh : ∀ m ∈ db.marks, m.id < db.nextId

theorem MarksSound.eq_of_id (h : MarksSound s) {m' : AddressMark} (hm : m ∈ s.marks) (hm' : m' ∈ s.marks)
    (hid : m.id = m'.id) : m = m' := inj_on_of_nodup_map h.ids hm hm' hid

theorem Effect.follows (h : Effect label s s' next) (v : Id) : s.nextId ≤ s'.nextId ∧
    Ledger.Follows AddressMark.id (·.userId = v) s.nextId s'.nextId s.marks s'.marks ∧
    Ledger.KeepsKeys AddressMark.id s.nextId s.marks s'.marks := by
  have hsame : s'.marks = s.marks → s'.nextId = s.nextId → s.nextId ≤ s'.nextId ∧
      Ledger.Follows AddressMark.id (·.userId = v) s.nextId s'.nextId s.marks s'.marks ∧
      Ledger.KeepsKeys AddressMark.id s.nextId s.marks s'.marks := by
    intro hmarks hnext
    rw [hmarks, hnext]
    exact ⟨le_rfl, .refl, .refl⟩
  cases label with
  | insert =>
    rcases h with ⟨hmarks, hnext⟩ | ⟨u, hmarks, hnext⟩
    · exact hsame hmarks hnext
    · rw [hmarks, hnext]
      exact ⟨Nat.le_succ _, .concat .refl le_rfl (Nat.lt_succ_self _), .concat (.refl _) le_rfl⟩
  | delete e =>
    rw [h.1, h.2.1]
    exact ⟨le_rfl, .filter _, .filter _⟩
  | unset u e =>
    rw [h.1, h.2.1]
    exact ⟨le_rfl, .map (fun m => unset_id.1) fun m hm => unset_id.2.trans hm, .map fun m => unset_id.1⟩
  | promote u e =>
    obtain ⟨hnext, ⟨-, hmarks⟩ | ⟨-, hmarks⟩⟩ := h
    · exact hsame hmarks hnext
    · rw [hmarks, hnext]
      exact ⟨le_rfl, .map (fun m => promote_id.1) fun m hm => promote_id.2.trans hm,
        .map fun m => promote_id.1⟩
  | _ => exact hsame h.1 h.2

theorem MarksSound.step (h : MarksSound s) (heffect : Effect label s s' next) : MarksSound s' := by
  obtain ⟨hle, hfollows, hkeys⟩ := heffect.follows 0
  exact ⟨hkeys h.fresh h.ids, hfollows.fresh hle h.fresh⟩

theorem Effect.keeps (h : Effect label s s' next) (hlabel : label ≠ .delete e) (hm : ∃ m ∈ s.marks, m.id = e) :
    ∃ m ∈ s'.marks, m.id = e := by
  obtain ⟨m, hm, rfl⟩ := hm
  have hsame : s'.marks = s.marks → ∃ m' ∈ s'.marks, m'.id = m.id := fun hmarks => ⟨m, hmarks ▸ hm, rfl⟩
  cases label with
  | insert =>
    rcases h with ⟨hmarks, -⟩ | ⟨u, hmarks, -⟩
    · exact hsame hmarks
    · exact ⟨m, hmarks ▸ mem_append_left _ hm, rfl⟩
  | delete e =>
    have hne : m.id ≠ e := fun heq => hlabel (heq ▸ rfl)
    exact ⟨m, h.1 ▸ mem_filter.mpr ⟨hm, by simpa using hne⟩, rfl⟩
  | unset u e => exact ⟨m.unset u, h.1 ▸ mem_map.mpr ⟨m, hm, rfl⟩, unset_id.1⟩
  | promote u e =>
    obtain ⟨-, ⟨-, hmarks⟩ | ⟨-, hmarks⟩⟩ := h
    · exact hsame hmarks
    · exact ⟨m.promote e, hmarks ▸ mem_map.mpr ⟨m, hm, rfl⟩, promote_id.1⟩
  | _ => exact hsame h.1

theorem countP_promote (h : MarksSound s) (hmem : ∃ m ∈ s.marks, m.id = e)
    (howner : ∀ m ∈ s.marks, m.id = e → m.userId = u)
    (halone : ∀ m ∈ s.marks, m.id = e → ∀ m' ∈ s.marks, m'.id ≠ e → m'.userId = m.userId → m'.isPrimary = false) :
    (s.marks.map (AddressMark.promote e)).countP (fun m => m.userId = u ∧ m.isPrimary) = 1 := by
  obtain ⟨m₀, hm₀, hid₀⟩ := hmem
  -- the primary addresses of the user are then the rows with that id
  have hcount : (s.marks.map (AddressMark.promote e)).countP (fun m => m.userId = u ∧ m.isPrimary) =
      (s.marks.map (·.id)).count e := by
    rw [countP_map, count, countP_map]
    apply countP_congr
    intro m hm
    by_cases hid : m.id = e
    · simp [AddressMark.promote, hid, howner m hm hid]
    · have huser : m.userId = u → m.isPrimary = false := fun huser =>
        halone m₀ hm₀ hid₀ m hm hid (huser.trans (howner m₀ hm₀ hid₀).symm)
      simp only [Function.comp_apply, AddressMark.promote, decide_eq_true_eq, beq_iff_eq, hid, iff_false,
        not_and, Bool.not_eq_true]
      exact huser
  rw [hcount]
  exact count_eq_one_of_mem h.ids (mem_map.mpr ⟨m₀, hm₀, hid₀⟩)

def primariesAfter (label : EmailCall) (u : Id) (n : Nat) : Nat :=
  match label with
  | .unset v _ => if v = u then 0 else n
  | .promote v _ => if v = u then 1 else n
  | _ => n

theorem Effect.countP (heffect : Effect label s s' next) (h : MarksSound s) (hatMost : s.primaryEmails u ≤ 1)
    (hdelete : ∀ e, label = .delete e → ∀ m ∈ s.marks, m.id = e → m.userId = u → m.isPrimary = false)
    (howned : ∀ v e, label = .promote v e → ∀ m ∈ s.marks, m.id = e → m.userId = v)
    (hpresent : ∀ e, label = .promote u e → ∃ m ∈ s.marks, m.id = e) :
    s'.primaryEmails u = primariesAfter label u (s.primaryEmails u) := by
  simp only [Db.primaryEmails_eq] at hatMost ⊢
  cases label with
  | insert =>
    rcases heffect with ⟨hmarks, -⟩ | ⟨v, hmarks, -⟩
    · simp only [primariesAfter, hmarks]
    · simp [primariesAfter, hmarks]
  | delete e =>
    rw [heffect.1, countP_filter]
    apply countP_congr
    intro m hm
    have hnot := hdelete e rfl m hm
    by_cases hid : m.id = e
    · simp only [hid, ne_eq, not_true_eq_false, decide_false, Bool.and_false, Bool.false_eq_true, decide_eq_true_eq,
        false_iff, not_and, Bool.not_eq_true]
      exact hnot hid
    · simp [hid]
  | unset v e =>
    by_cases hv : v = u
    · subst hv
      rw [primariesAfter, if_pos rfl, heffect.1, countP_map, countP_eq_zero]
      intro m _
      by_cases hprimary : m.userId = v ∧ m.isPrimary = true <;> simp [AddressMark.unset, hprimary]
    · rw [primariesAfter, if_neg hv, heffect.1, countP_map]
      apply countP_congr
      intro m _
      by_cases hprimary : m.userId = v ∧ m.isPrimary = true
      · simp [AddressMark.unset, hprimary, hv]
      · simp [AddressMark.unset, hprimary]
  | promote v e =>
    obtain ⟨-, ⟨⟨m, hm, hid, m', hm', huser, hprimary⟩, hmarks⟩ | ⟨halone, hmarks⟩⟩ := heffect
    · by_cases hv : v = u
      · subst hv
        have howner := howned v e rfl m hm hid
        have hpos : 0 < s.marks.countP (fun m => m.userId = v ∧ m.isPrimary) :=
          countP_pos_iff.mpr ⟨m', hm', by simp [huser, howner, hprimary]⟩
        rw [primariesAfter, if_pos rfl, hmarks]
        omega
      · rw [primariesAfter, if_neg hv, hmarks]
    · by_cases hv : v = u
      · subst hv
        rw [primariesAfter, if_pos rfl, hmarks]
        exact countP_promote h (hpresent e rfl) (howned v e rfl) halone
      · rw [primariesAfter, if_neg hv, hmarks, countP_map]
        apply countP_congr
        intro m hm
        by_cases hid : m.id = e
        · have hother : m.userId ≠ u := (howned v e rfl m hm hid) ▸ hv
          simp [AddressMark.promote, hid, hother]
        · simp [AddressMark.promote, hid]
  | _ => simp only [primariesAfter, heffect.1]

theorem primariesAfter_le {n : Nat} (h : n ≤ 1) : primariesAfter label u n ≤ 1 := by
  unfold primariesAfter
  split
  · split_ifs <;> omega
  · split_ifs <;> omega
  · exact h

end Effects

/-- The user has one primary address, or a request is about to give the flag to an address that is there. -/
structure Sound (u : Id) (x : EmailServer) : Prop where
  obeys : x.Obeys Conforms
  marks : MarksSound x.store
  atMost : x.store.primaryEmails u ≤ 1
  owned : ∀ call ∈ x.inFlight, ∀ l ∈ call.2.label, ∀ v e, Holding l v e →
    e < x.store.nextId ∧ ∀ m ∈ x.store.marks, m.id = e → m.userId = v
  present : ∀ call ∈ x.inFlight, ∀ l ∈ call.2.label, ∀ e, Holding l u e → ∃ m ∈ x.store.marks, m.id = e
  primary : x.store.primaryEmails u = 1 ∨ ∃ call ∈ x.inFlight, ∃ e, call.2.label = some (.promote u e)

section Runs

variable {env : Env} {u : Id} {x : EmailServer}

theorem sound_idle {db : Db} (hids : (db.userEmails.map (·.id)).Nodup) (hfresh : ∀ e ∈ db.userEmails, e.id < db.nextId)
    (hone : db.primaryEmails u = 1) : Sound u (idle db) where
  obeys := by simp [Pool.Obeys, idle]
  marks := by
    constructor
    · simpa [idle, Db.marks, Function.comp_def] using hids
    · intro m hm
      obtain ⟨e, he, rfl⟩ := Db.mem_marks.mp hm
      exact hfresh e he
  atMost := hone.le
  owned := by simp [idle]
  present := by simp [idle]
  primary := .inl hone

theorem harmless_steps {request : EmailRequest} : Harmless (request.steps env) := by
  cases request with
  | add =>
    apply harmless_require
    intro _
    unfold requireUser
    split_ifs
    · exact harmless_atomic not_holding_look
    · exact harmless_atomic not_holding_look
  | delete => exact harmless_require fun _ => harmless_atomic not_holding_look
  | setPrimary => exact harmless_require fun _ => harmless_atomic fun _ _ => id
  | verify => exact harmless_atomic not_holding_look

theorem Sound.request (h : Sound u x) (request : EmailRequest) : Sound u (x.step env (.request request)) := by
  have hcases : ∀ call ∈ (x.step env (.request request)).inFlight,
      call ∈ x.inFlight ∨ call = (request, request.steps env) := by
    intro call hcall
    rcases mem_concat_iff.mp hcall with hold | rfl
    · exact .inl hold
    · exact .inr rfl
  constructor
  · exact h.obeys.start request (obeys_steps env)
  · exact h.marks
  · exact h.atMost
  · intro call hcall l hl v e hholding
    rcases hcases call hcall with hold | rfl
    · exact h.owned call hold l hl v e hholding
    · exact absurd hholding (harmless_steps l hl v e)
  · intro call hcall l hl e hholding
    rcases hcases call hcall with hold | rfl
    · exact h.present call hold l hl e hholding
    · exact absurd hholding (harmless_steps l hl u e)
  · rcases h.primary with hone | ⟨call, hcall, e, hlabel⟩
    · exact .inl hone
    · exact .inr ⟨call, mem_append_left _ hcall, e, hlabel⟩

theorem Sound.advance (h : Sound u x) {i : Nat} (hdeletes : DeletesUnheld u x (.advance i)) :
    Sound u (x.step env (.advance i)) := by
  obtain ⟨hobeys, ⟨hstore, hold, hkept⟩ | ⟨request, fiber, label, next, hmoved⟩⟩ := h.obeys.advance_cases i
  · -- a request that has ended leaves
    refine ⟨hobeys, ?_, ?_, fun call hcall => ?_, fun call hcall => ?_, ?_⟩
    · exact hstore ▸ h.marks
    · exact hstore ▸ h.atMost
    · exact hstore ▸ h.owned call (hold call hcall)
    · exact hstore ▸ h.present call (hold call hcall)
    · rcases h.primary with hone | ⟨call, hcall, e, hlabel⟩
      · exact .inl (hstore ▸ hone)
      · exact .inr ⟨call, hkept call hcall (by simp [hlabel]), e, hlabel⟩
  · obtain ⟨heffect, henters⟩ := hmoved.effect
    have hhere := mem_of_getElem? hmoved.here
    have hunheld : ∀ e, label = .delete e → ∀ row ∈ x.store.userEmails, row.id = e → row.userId = u →
        row.isPrimary = false ∧ ∀ other ∈ x.inFlight, ∀ l ∈ other.2.label, ¬ Holding l u e := by
      rintro e rfl
      exact hdeletes (request, fiber) hmoved.here _ hmoved.labelled e rfl
    have hcount := heffect.countP h.marks h.atMost
      (by
        intro e heq m hm hid huser
        obtain ⟨row, hrow, rfl⟩ := Db.mem_marks.mp hm
        exact (hunheld e heq row hrow hid huser).1)
      (fun v e heq => (h.owned _ hhere label hmoved.labelled v e (heq ▸ ⟨rfl, rfl⟩)).2)
      (fun e heq => h.present _ hhere label hmoved.labelled e (heq ▸ ⟨rfl, rfl⟩))
    have hcases : ∀ call ∈ (x.advance i).inFlight, call ∈ x.inFlight ∨ call = (request, next) := by
      intro call hcall
      rw [hmoved.inFlight] at hcall
      exact mem_or_eq_of_mem_set hcall
    -- the address that a request is promoting keeps its owner, and stays for this user
    have howned : ∀ v e, (e < x.store.nextId ∧ ∀ m ∈ x.store.marks, m.id = e → m.userId = v) →
        e < (x.advance i).store.nextId ∧ ∀ m ∈ (x.advance i).store.marks, m.id = e → m.userId = v := by
      rintro v e ⟨hlt, howner⟩
      obtain ⟨hgrow, hfollows, -⟩ := heffect.follows v
      refine ⟨lt_of_lt_of_le hlt hgrow, fun m' hm' hid => ?_⟩
      rcases hfollows m' hm' with ⟨hnew, -⟩ | ⟨m, hm, hid', huser⟩
      · exact absurd (hid ▸ hlt) (not_lt.mpr hnew)
      · exact huser (howner m hm (hid'.trans hid))
    have hstay : ∀ e, (∃ call ∈ x.inFlight, ∃ l ∈ call.2.label, Holding l u e) → (∃ m ∈ x.store.marks, m.id = e) →
        ∃ m ∈ (x.advance i).store.marks, m.id = e := by
      rintro e ⟨call, hcall, l, hl, hholding⟩ ⟨m, hm, hid⟩
      apply heffect.keeps _ ⟨m, hm, hid⟩
      intro heq
      obtain ⟨row, hrow, rfl⟩ := Db.mem_marks.mp hm
      have howner := (h.owned call hcall l hl u e hholding).2 _ hm hid
      exact (hunheld e heq row hrow hid howner).2 call hcall l hl hholding
    have hentered : ∀ l ∈ next.label, ∀ v e, Holding l v e →
        (e < x.store.nextId ∧ ∀ m ∈ x.store.marks, m.id = e → m.userId = v) := by
      intro l hl v e hholding
      rcases henters l hl v e hholding with hbefore | ⟨m, hm, hid, huser⟩
      · exact h.owned _ hhere label hmoved.labelled v e hbefore
      · refine ⟨hid ▸ h.marks.fresh m hm, fun m' hm' hid' => ?_⟩
        have hsame := h.marks.eq_of_id hm' hm (hid'.trans hid.symm)
        exact hsame ▸ huser
    constructor
    · exact hobeys
    · exact h.marks.step heffect
    · change (x.advance i).store.primaryEmails u ≤ 1
      rw [hcount]
      exact primariesAfter_le h.atMost
    · intro call hcall l hl v e hholding
      rcases hcases call hcall with hold | rfl
      · exact howned v e (h.owned call hold l hl v e hholding)
      · exact howned v e (hentered l hl v e hholding)
    · intro call hcall l hl e hholding
      rcases hcases call hcall with hold | rfl
      · exact hstay e ⟨call, hold, l, hl, hholding⟩ (h.present call hold l hl e hholding)
      · rcases henters l hl u e hholding with hbefore | ⟨m, hm, hid, -⟩
        · exact hstay e ⟨_, hhere, label, hmoved.labelled, hbefore⟩ (h.present _ hhere label hmoved.labelled e hbefore)
        · -- the call that found the row did not delete it
          apply heffect.keeps _ ⟨m, hm, hid⟩
          rintro rfl
          have hnone := heffect.2.2
          simp [hnone] at hl
    · change (x.advance i).store.primaryEmails u = 1 ∨ _
      rw [hcount]
      rcases h.primary with hone | ⟨call, hcall, e, hlabel⟩
      · -- the flag is taken only by a request that gives it next
        by_cases hunset : ∃ e, label = .unset u e
        · obtain ⟨e, rfl⟩ := hunset
          refine .inr ⟨(request, next), ?_, e, heffect.2.2⟩
          exact mem_iff_getElem?.mpr ⟨i, by
            rw [step, hmoved.inFlight, getElem?_set_self (List.getElem?_eq_some_iff.mp hmoved.here).1]⟩
        · left
          rw [hone]
          cases label with
          | unset v e => simpa [primariesAfter] using fun heq : v = u => hunset ⟨e, heq ▸ rfl⟩
          | promote v e => simp [primariesAfter]
          | _ => rfl
      · obtain ⟨j, hj⟩ := mem_iff_getElem?.mp hcall
        by_cases hij : i = j
        · subst hij
          obtain rfl := Option.some.inj (hmoved.here.symm.trans hj)
          obtain rfl := Option.some.inj (hlabel.symm.trans hmoved.labelled)
          exact .inl (by simp [primariesAfter])
        · refine .inr ⟨call, ?_, e, hlabel⟩
          exact mem_iff_getElem?.mpr ⟨j, by rw [step, hmoved.inFlight, getElem?_set_ne hij, hj]⟩

theorem Sound.step (h : Sound u x) {event : EmailEvent} (hdeletes : DeletesUnheld u x event) :
    Sound u (x.step env event) := by
  cases event with
  | request request => exact h.request request
  | advance i => exact h.advance hdeletes

/-- A user who starts with one primary address has one whenever no request is in progress, if no address of theirs is
deleted while it is the primary one or is being made so. -/
theorem one_primary_email {db : Db} {events : List EmailEvent} (hids : (db.userEmails.map (·.id)).Nodup)
    (hfresh : ∀ e ∈ db.userEmails, e.id < db.nextId) (hone : db.primaryEmails u = 1)
    (hdeletes : Along (EmailServer.step env) (DeletesUnheld u) (idle db) events) :
    ∀ l l', events = l ++ l' → Quiet (run (EmailServer.step env) (idle db) l) →
      (run (EmailServer.step env) (idle db) l).store.primaryEmails u = 1 := by
  rintro l l' rfl hquiet
  have hsound : Sound u (run (EmailServer.step env) (idle db) l) :=
    invariant_of_along (fun x event h hmeets => Sound.step h hmeets) (sound_idle hids hfresh hone) hdeletes.left
  rcases hsound.primary with hprimary | ⟨call, hcall, e, hlabel⟩
  · exact hprimary
  · simp [hquiet call hcall] at hlabel

/-- A user with a primary address and a second one, both verified. -/
def twoAddresses : Db where
  nextId := 3
  users := [{ id := 0, firstName := [], lastName := [] }]
  userEmails := [{ id := 1, userId := 0, email := "a@x", isPrimary := true, verifiedAt := some 0 },
    { id := 2, userId := 0, email := "b@x", verifiedAt := some 0 }]

def owner : RequestingUser := ⟨0, .member⟩

/-- The user makes the second address the primary one and then deletes the first. -/
theorem one_primary_email_moved :
    let x := run (step .ascii) (idle twoAddresses) [.request (.setPrimary owner 0 2), .advance 0, .advance 0,
      .advance 0, .advance 0, .advance 0, .request (.delete owner 0 1), .advance 0, .advance 0, .advance 0]
    x.store.userEmails.map (·.id) = [2] ∧ x.store.primaryEmails 0 = 1 :=
  ⟨by decide +kernel, one_primary_email (by decide) (by decide) (by decide) (by decide +kernel) _ [] (append_nil _).symm
    (by decide +kernel)⟩

/-- The deletion has seen that the second address is not the primary one, and runs after it has become so. -/
theorem primary_email_deleted :
    let x := run (step .ascii) (idle twoAddresses) [.request (.delete owner 0 2), .request (.setPrimary owner 0 2),
      .advance 0, .advance 0, .advance 1, .advance 1, .advance 1, .advance 1, .advance 0]
    twoAddresses.primaryEmails 0 = 1 ∧ Quiet x ∧ x.store.primaryEmails 0 = 0 := by
  decide +kernel

end Runs

end EmailServer

end WeftId
