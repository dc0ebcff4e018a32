import WeftId.Users.State
import WeftId.Lib.Run

/-!
How long an account recovery link works.  The link is made from the stored time of the last password
change and checked against a row that never carries it, so it is accepted exactly while the account had
no recorded password change when the link was made.
-/

namespace WeftId

open Proc Run

variable {env : Env} {db : Db} {user : User} {email baseUrl token : Text} {mail : RecoveryEmail}
  {passwordChangedAt : Option Nat}

def recoveryToken (env : Env) (time : Nat) (user : User) : Text :=
  generateUrlToken env time (Numeral.uuid user.id) .accountRecovery
    (some (recoveryState user.passwordChangedAt user.isInactivated))

def User.EligibleForRecovery (user : User) : Prop :=
  user.isInactivated ∨ user.samlIdpId = none ∧ user.passwordHash.isSome

theorem requestPasswordReset_of_found
    (hfound : db.getUserByEmailForReset env (env.lower email.strip) = some user) :
    (requestPasswordReset env email baseUrl db).1 =
      (if (Numeral.decimal db.time).length ≤ Numeral.maxDigits then .ok (some {
        toEmail := env.lower email.strip
        recoveryUrl := recoveryUrl baseUrl (recoveryToken env db.time user) })
      else .error (.exception "ValueError")) ∧ user.EligibleForRecovery ∨
    (requestPasswordReset env email baseUrl db).1 = .ok none ∧ ¬ user.EligibleForRecovery := by
  rw [requestPasswordReset, read_bind_apply, hfound]
  unfold User.EligibleForRecovery
  by_cases hinactive : user.isInactivated = true <;>
    by_cases htime : (Numeral.decimal db.time).length ≤ Numeral.maxDigits
  · simp [hinactive, recoveryToken, require, htime]
  · simp [hinactive, require, htime]
  · cases hsaml : user.samlIdpId <;> cases hpassword : user.passwordHash <;>
      simp [hinactive, hsaml, hpassword, recoveryToken, require, htime]
  · cases hsaml : user.samlIdpId <;> cases hpassword : user.passwordHash <;>
      simp [hinactive, hsaml, hpassword, require, htime]

theorem requestPasswordReset_eq_some
    (h : (requestPasswordReset env email baseUrl db).1 = .ok (some mail))
    (hurl : mail.recoveryUrl = recoveryUrl baseUrl token) :
    ∃ user, db.getUserByEmailForReset env (env.lower email.strip) = some user ∧
      (Numeral.decimal db.time).length ≤ Numeral.maxDigits ∧ token = recoveryToken env db.time user := by
  cases hfound : db.getUserByEmailForReset env (env.lower email.strip) with
  | none =>
    rw [requestPasswordReset, read_bind_apply, hfound] at h
    cases h
  | some user =>
    rcases requestPasswordReset_of_found hfound with ⟨hsent, -⟩ | ⟨hsent, -⟩
    · by_cases htime : (Numeral.decimal db.time).length ≤ Numeral.maxDigits
      · rw [hsent, if_pos htime] at h
        rw [← Option.some.inj (Except.ok.inj h)] at hurl
        exact ⟨user, rfl, htime, (List.append_cancel_left hurl).symm⟩
      · rw [hsent, if_neg htime] at h
        cases h
    · rw [hsent] at h
      cases h

theorem recoveryState_eq_iff {inactivated inactivated' : Bool} :
    recoveryState passwordChangedAt inactivated = recoveryState none inactivated' ↔
      passwordChangedAt = none ∧ inactivated = inactivated' := by
  constructor
  · intro heq
    cases passwordChangedAt with
    | none => cases inactivated <;> cases inactivated' <;> revert heq <;> decide
    | some micros =>
      obtain ⟨d, hd, rest, hshow⟩ := Numeral.startsWithDigit_showTimestamp micros
      simp only [recoveryState, Option.map_some, hshow] at heq
      have hhead := (List.cons.inj heq).1
      have hdigit : ∀ d < 10, Numeral.digitChar d ≠ 'n' := by decide
      exact absurd hhead (hdigit d hd)
  · rintro ⟨rfl, rfl⟩
    rfl

theorem getUserByIdText_uuid (db : Db) (userId : Id) :
    db.getUserByIdText (Numeral.uuid userId) = db.getUserById userId := by
  have hpred : (fun u : User => decide (Numeral.uuid u.id = Numeral.uuid userId)) =
      fun u => decide (u.id = userId) := by
    funext u
    rw [decide_eq_decide]
    exact Numeral.uuid_injective.eq_iff
  rw [Db.getUserByIdText, Db.getUserById, hpred]

def Recovers (env : Env) (db : Db) (token : Text) (userId : Id) : Prop :=
  ∃ info, (validateRecoveryToken env token db).1 = .ok (some info) ∧ info.userId = Numeral.uuid userId

theorem recovers_iff (db : Db) (hhex : HexDigest env) (hinj : Function.Injective env.hmac) {time : Nat}
    (htime : (Numeral.decimal time).length ≤ Numeral.maxDigits) (user : User) :
    Recovers env db (recoveryToken env time user) user.id ↔ ∃ now, db.getUserById user.id = some now ∧
      db.time ≤ time + recoveryTtl ∧ user.passwordChangedAt = none ∧ user.isInactivated = now.isInactivated := by
  have hdot : '.' ∉ Numeral.uuid user.id := by
    intro hmem
    have hchar := Numeral.mem_uuid hmem
    revert hchar
    decide
  have hextract : extractUserIdFromUrlToken env (recoveryToken env time user) = some (Numeral.uuid user.id) := by
    rw [extractUserIdFromUrlToken, recoveryToken, decodeUrlToken_generateUrlToken hhex htime hdot]
    rfl
  obtain ⟨c, cs, huuid⟩ := List.exists_cons_of_ne_nil Numeral.uuid_ne_nil
  have hlookup := getUserByIdText_uuid db user.id
  rw [huuid] at hextract hlookup
  unfold Recovers validateRecoveryToken
  simp only [hextract, read_bind_apply, hlookup]
  cases hnow : db.getUserById user.id with
  | none => simp
  | some now =>
    have hcolon : ':' ∉ Purpose.accountRecovery := by decide
    have hverify := verifyUrlToken_generateUrlToken db hhex hinj htime hdot hcolon hcolon recoveryTtl
      (some (recoveryState user.passwordChangedAt user.isInactivated)) (some (recoveryState none now.isInactivated))
    simp only [Option.some.injEq, recoveryState_eq_iff, huuid] at hverify
    simp only [User.fetchedPasswordChangedAt, recoveryToken, huuid]
    by_cases hvalid : db.time ≤ time + recoveryTtl ∧ user.passwordChangedAt = none ∧
        user.isInactivated = now.isInactivated
    · rw [bind_apply_of_ok hverify]
      simp [hvalid]
    · rw [bind_apply_of_ok hverify]
      simp [hvalid]

inductive RecoveryCall
  | completeSelfServicePasswordReset (userId : Id) (newPassword : Text)
  | completeForcedPasswordReset (userId : Id) (newPassword : Text)
  | changePassword (user : RequestingUser) (currentPassword newPassword : Text)
  | forcePasswordReset (user : RequestingUser) (targetUserId : Id)
  | inactivateUser (user : RequestingUser) (userId : Id)
  | reactivateUser (user : RequestingUser) (userId : Id)
  | wait (micros : Nat)

def RecoveryCall.exec (env : Env) (db : Db) : RecoveryCall → Db
  | .completeSelfServicePasswordReset userId newPassword =>
    (WeftId.completeSelfServicePasswordReset env userId newPassword).exec db
  | .completeForcedPasswordReset userId newPassword =>
    (WeftId.completeForcedPasswordReset env userId newPassword).exec db
  | .changePassword user currentPassword newPassword =>
    (WeftId.changePassword env user currentPassword newPassword).exec db
  | .forcePasswordReset user targetUserId => (WeftId.forcePasswordReset user targetUserId).exec db
  | .inactivateUser user userId => (WeftId.inactivateUser user userId).exec db
  | .reactivateUser user userId => (WeftId.reactivateUser user userId).exec db
  | .wait micros => { db with now := db.now + micros }

theorem RecoveryCall.isSome_getUserById {userId : Id} {call : RecoveryCall} :
    ((call.exec env db).getUserById userId).isSome = (db.getUserById userId).isSome := by
  cases call with
  | completeSelfServicePasswordReset =>
    rcases (completeSelfServicePasswordReset_spec env).exec_or with h | h <;> rw [exec, h]
    exact Db.isSome_getUserById_updateUser fun _ => rfl
  | completeForcedPasswordReset target newPassword =>
    rcases (completeForcedPasswordReset_spec env target newPassword db).exec_or with h | h <;> rw [exec, h]
    exact Db.isSome_getUserById_updateUser fun _ => rfl
  | changePassword =>
    rcases (changePassword_spec env).exec_or with h | h <;> rw [exec, h]
    exact Db.isSome_getUserById_updateUser fun _ => rfl
  | forcePasswordReset user target =>
    rcases (forcePasswordReset_spec).exec_or with h | ⟨-, h⟩ <;> rw [exec, h]
    exact Db.isSome_getUserById_updateUser fun _ => rfl
  | inactivateUser user target =>
    rcases (inactivateUser_spec).exec_or with h | ⟨-, h⟩ <;> rw [exec, h]
    exact Db.isSome_getUserById_updateUser fun u => by split_ifs <;> rfl
  | reactivateUser =>
    rcases reactivateUser_spec.exec_or with h | ⟨-, h⟩ <;> rw [exec, h]
    rw [Db.clearReactivationDenied, Db.isSome_getUserById_updateUser]
    · exact Db.isSome_getUserById_updateUser fun u => by split_ifs <;> rfl
    · exact fun _ => rfl
  | wait micros => rfl

theorem isSome_getUserById_run (env : Env) (db : Db) (userId : Id) (calls : List RecoveryCall) :
    ((run (RecoveryCall.exec env) db calls).getUserById userId).isSome = (db.getUserById userId).isSome :=
  invariant (I := fun db' : Db => (db'.getUserById userId).isSome = (db.getUserById userId).isSome)
    (fun _ call h => call.isSome_getUserById.trans h) rfl

/-- What a recovery link is meant to depend on: it is young enough, and neither the time of the last
password change nor the inactivation flag differs from when it was made. -/
def LinkCurrent (db db' : Db) (user user' : User) : Prop :=
  db'.time ≤ db.time + recoveryTtl ∧ user'.passwordChangedAt = user.passwordChangedAt ∧
    user'.isInactivated = user.isInactivated

/-- The cases in which the check does not depend on the time of the last password change. -/
def LinkUnaffected (db db' : Db) (user user' : User) : Prop :=
  db.time + recoveryTtl < db'.time ∨ user'.isInactivated ≠ user.isInactivated ∨
    (user.passwordChangedAt = none ∧ user'.passwordChangedAt = none) ∨
    (user.passwordChangedAt.isSome ∧ user'.passwordChangedAt ≠ user.passwordChangedAt)

/-- After any run of resets, inactivations, reactivations and waiting, the link made by a recovery
request is accepted exactly as long as it is current if and only if one of the cases of
`LinkUnaffected` applies. -/
theorem recovery_link_accepted_iff_current (hhex : HexDigest env) (hinj : Function.Injective env.hmac)
    (hrequest :
      (requestPasswordReset env email baseUrl db).1 = .ok (some mail))
    (hurl : mail.recoveryUrl = recoveryUrl baseUrl token) (calls : List RecoveryCall) :
    ∃ user user', db.getUserByEmailForReset env (env.lower email.strip) = some user ∧
      (run (RecoveryCall.exec env) db calls).getUserById user.id = some user' ∧
      ((Recovers env (run (RecoveryCall.exec env) db calls) token user.id ↔
          LinkCurrent db (run (RecoveryCall.exec env) db calls) user user') ↔
        LinkUnaffected db (run (RecoveryCall.exec env) db calls) user user') := by
  obtain ⟨user, huser, htime, htoken⟩ := requestPasswordReset_eq_some hrequest hurl
  obtain ⟨⟨row, found⟩, hfind, hfound⟩ := Option.map_eq_some_iff.mp huser
  have hget : db.getUserById user.id = some user := by
    rw [← hfound]
    exact Db.getUserById_of_findByEmail hfind
  have hsome := isSome_getUserById_run env db user.id calls
  rw [hget] at hsome
  generalize hrun : run (RecoveryCall.exec env) db calls = db' at hsome ⊢
  obtain ⟨user', huser'⟩ := Option.isSome_iff_exists.mp hsome
  refine ⟨user, user', huser, huser', ?_⟩
  rw [htoken, recovers_iff db' hhex hinj htime]
  simp only [huser']
  unfold LinkCurrent LinkUnaffected
  by_cases hage : db'.time ≤ db.time + recoveryTtl
  · have hyoung : ¬ db.time + recoveryTtl < db'.time := by omega
    by_cases hflag : user'.isInactivated = user.isInactivated
    · cases hthen : user.passwordChangedAt <;> cases hnow : user'.passwordChangedAt <;> simp [hage, hflag]
    · have hflag' : ¬ user.isInactivated = user'.isInactivated := fun h => hflag h.symm
      simp [hflag, hflag']
  · have hold : db.time + recoveryTtl < db'.time := by omega
    simp [hold]

def ada (passwordChangedAt : Option Nat) : User where
  id := 2
  passwordHash := some "old".toList
  passwordChangedAt

def recoveryTenant (passwordChangedAt : Option Nat) : Db where
  nextId := 10
  now := 60000000
  users := [ada passwordChangedAt]
  userEmails := [{ id := 3, userId := 2, email := "ada@example.com", isPrimary := true, verifiedAt := some 0 }]

def adaToken (passwordChangedAt : Option Nat) : Text :=
  recoveryToken Env.ascii (recoveryTenant passwordChangedAt).time (ada passwordChangedAt)

def adaMail (passwordChangedAt : Option Nat) : RecoveryEmail where
  toEmail := Env.ascii.lower (Text.strip "ada@example.com")
  recoveryUrl := recoveryUrl "https://id.example" (adaToken passwordChangedAt)

theorem length_time_recoveryTenant (passwordChangedAt : Option Nat) :
    (Numeral.decimal (recoveryTenant passwordChangedAt).time).length ≤ Numeral.maxDigits := by
  rw [show (recoveryTenant passwordChangedAt).time = 60 by simp [Db.time, recoveryTenant]]
  decide

theorem requestPasswordReset_recoveryTenant :
    (requestPasswordReset Env.ascii "ada@example.com" "https://id.example"
      (recoveryTenant passwordChangedAt)).1 = .ok (some (adaMail passwordChangedAt)) := by
  have hfound : (recoveryTenant passwordChangedAt).getUserByEmailForReset Env.ascii
      (Env.ascii.lower (Text.strip "ada@example.com")) = some (ada passwordChangedAt) := rfl
  rcases requestPasswordReset_of_found hfound with ⟨hsent, -⟩ | ⟨-, hineligible⟩
  · exact hsent.trans (if_pos (length_time_recoveryTenant _))
  · exact absurd (.inr ⟨rfl, rfl⟩) hineligible

/-- A link for an account whose password was changed before is refused at once; a link for an account
without a recorded change is still accepted after the reset that it was used for. -/
theorem recovery_links_mistaken : (requestPasswordReset Env.ascii "ada@example.com" "https://id.example"
        (recoveryTenant (some 5))).1 = .ok (some (adaMail (some 5))) ∧
      ¬ Recovers Env.ascii (recoveryTenant (some 5)) (adaToken (some 5)) 2 ∧
      (requestPasswordReset Env.ascii "ada@example.com" "https://id.example"
        (recoveryTenant none)).1 = .ok (some (adaMail none)) ∧
      (completeSelfServicePasswordReset Env.ascii 2 "new" (recoveryTenant none)).1 = .ok () ∧
      Recovers Env.ascii ((completeSelfServicePasswordReset Env.ascii 2 "new").exec (recoveryTenant none))
        (adaToken none) 2 := by
  have hiff := fun db passwordChangedAt =>
    recovers_iff db hexDigest_ascii hmac_injective_ascii (length_time_recoveryTenant passwordChangedAt)
      (ada passwordChangedAt)
  refine ⟨requestPasswordReset_recoveryTenant, ?_, requestPasswordReset_recoveryTenant, by rfl, ?_⟩
  · intro hrecovers
    obtain ⟨now, -, -, hnone, -⟩ := (hiff _ (some 5)).mp hrecovers
    cases hnone
  · exact (hiff _ none).mpr ⟨_, rfl, by decide, rfl, rfl⟩

/-- A second after it was made, the link of an account without a recorded change is accepted. -/
theorem fresh_link_recovers :
    Recovers Env.ascii (run (RecoveryCall.exec Env.ascii) (recoveryTenant none) [.wait 1000000]) (adaToken none) 2 := by
  obtain ⟨user, user', huser, huser', hiff⟩ := recovery_link_accepted_iff_current hexDigest_ascii hmac_injective_ascii
    requestPasswordReset_recoveryTenant rfl [.wait 1000000]
  have hada : ada none = user := Option.some.inj huser
  subst hada
  have hada' : ada none = user' := Option.some.inj huser'
  subst hada'
  exact (hiff.mpr (.inr (.inr (.inl ⟨rfl, rfl⟩)))).mpr ⟨by decide, rfl, rfl⟩

end WeftId
