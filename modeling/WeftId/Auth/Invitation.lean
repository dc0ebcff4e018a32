import WeftId.Auth.Session
import WeftId.Lib.Contest

/-!
Setting the first password through an invitation link.  A submission reads the address row with its nonce,
reads the user, checks the password, sets it and only then replaces the nonce, each in a transaction of its
own and none looking back at what an earlier one has read.
-/

namespace WeftId

open List Proc Run

/-- `get_user_by_id` says whether the user has a password but does not return the hash, so the handler finds
no `password_hash` in the row. -/
def User.fetchedPasswordHash (_ : User) : Option Text := none

/-- The store, with the `set_password_nonce` column of the address table kept beside the rows. -/
structure InvitationStore where
  db : Db
  setPasswordNonce : Id → Text

namespace InvitationStore

def getEmailForVerification (s : InvitationStore) (emailId : Id) : Option (UserEmail × Text) :=
  (s.db.userEmails.find? (·.id = emailId)).map fun row => (row, s.setPasswordNonce row.id)

def regenerateSetPasswordNonce (env : Env) (s : InvitationStore) (emailId : Id) : InvitationStore :=
  if s.db.userEmails.any (·.id = emailId) then
    { db := { s.db with nextId := s.db.nextId + 1 }
      setPasswordNonce := Function.update s.setPasswordNonce emailId (env.opaqueToken s.db.nextId) }
  else s

def wait (s : InvitationStore) (micros : Nat) : InvitationStore := { s with db := s.db.wait micros }

end InvitationStore

structure InvitationLink where
  emailId : Id
  nonce : Text

inductive SubmissionStage
  | received
  | emailRead (email : UserEmail)
  | userRead (email : UserEmail) (user : User)
  | validated (userId : Id)
  | passwordSet (userId : Id)
  | completed
  | redirected (url : String)
  deriving DecidableEq

structure Submission where
  password : Text
  passwordConfirm : Text
  stage : SubmissionStage := .received

namespace Submission

variable (env : Env) (link : InvitationLink)

def backToForm (error : String) : String :=
  "/set-password?email_id=" ++ String.ofList (Numeral.uuid link.emailId) ++ "&nonce=" ++ String.ofList link.nonce ++
    "&error=" ++ error

def readEmail (s : InvitationStore) : SubmissionStage :=
  match s.getEmailForVerification link.emailId with
  | none => .redirected "/login?error=invalid_link"
  | some (email, nonce) =>
    if email.verifiedAt = none then .redirected "/login?error=email_not_verified"
    else if nonce ≠ link.nonce then .redirected "/login?error=invalid_link"
    else .emailRead email

def readUser (s : InvitationStore) (email : UserEmail) : SubmissionStage :=
  match s.db.getUserById email.userId with
  | none => .redirected "/login"
  | some user =>
    if (user.fetchedPasswordHash.filter (· ≠ [])).isSome then .redirected "/login"
    else if user.samlIdpId.isSome then .redirected "/login?success=email_verified_idp"
    else .userRead email user

def validate (s : InvitationStore) (submission : Submission) (email : UserEmail) (user : User) : SubmissionStage :=
  if submission.password ≠ submission.passwordConfirm then .redirected (backToForm link "passwords_dont_match")
  else
    match env.validatePassword submission.password s.db.getPolicy user.role [email.email] with
    | some (_, code) => .redirected (backToForm link code)
    | none => .validated user.id

def act (s : InvitationStore) (submission : Submission) : InvitationStore × Submission :=
  match submission.stage with
  | .received => (s, { submission with stage := readEmail link s })
  | .emailRead email => (s, { submission with stage := readUser s email })
  | .userRead email user => (s, { submission with stage := validate env link s submission email user })
  | .validated userId =>
    ({ s with db := s.db.updatePassword userId (env.hashPassword submission.password) },
      { submission with stage := .passwordSet userId })
  | .passwordSet _ => (s.regenerateSetPasswordNonce env link.emailId, { submission with stage := .completed })
  | .completed | .redirected _ => (s, submission)

abbrev step : Contest InvitationStore Submission → ContestEvent Nat → Contest InvitationStore Submission :=
  Contest.step (act env link) InvitationStore.wait

def Checks (submission : Submission) : Prop := submission.stage = .received
  deriving Decidable

/-- The nonce has been read and not yet replaced. -/
def Holding (submission : Submission) : Prop :=
  match submission.stage with
  | .emailRead _ | .userRead _ _ | .validated _ | .passwordSet _ => True
  | .received | .completed | .redirected _ => False

def Past (submission : Submission) : Prop := submission.Holding ∨ submission.stage = .completed

def SetPassword (submission : Submission) : Prop :=
  match submission.stage with
  | .passwordSet _ | .completed => True
  | .received | .emailRead _ | .userRead _ _ | .validated _ | .redirected _ => False

instance (submission : Submission) : Decidable submission.Holding := by
  unfold Holding
  split <;> infer_instance

instance (submission : Submission) : Decidable submission.SetPassword := by
  unfold SetPassword
  split <;> infer_instance

/-- The nonce of the link is no longer the one of the address row. -/
def Spent (s : InvitationStore) : Prop :=
  ∀ email nonce, s.getEmailForVerification link.emailId = some (email, nonce) → nonce ≠ link.nonce

variable {env link} {s : InvitationStore} {submission : Submission}

theorem not_spent_of_readEmail {email : UserEmail} (h : readEmail link s = .emailRead email) : ¬ Spent link s := by
  unfold readEmail at h
  split at h
  · cases h
  · rename_i row nonce hfind
    split_ifs at h with hverified hnonce
    exact fun hspent => hspent row nonce hfind (not_not.mp hnonce)

theorem readEmail_cases (link : InvitationLink) (s : InvitationStore) :
    (∃ email, readEmail link s = .emailRead email) ∨ ∃ url, readEmail link s = .redirected url := by
  unfold readEmail
  split
  · exact .inr ⟨_, rfl⟩
  · split_ifs
    · exact .inr ⟨_, rfl⟩
    · exact .inr ⟨_, rfl⟩
    · exact .inl ⟨_, rfl⟩

theorem spent_regenerate (hfresh : env.opaqueToken s.db.nextId ≠ link.nonce) :
    Spent link (s.regenerateSetPasswordNonce env link.emailId) := by
  intro email nonce hfind
  unfold InvitationStore.regenerateSetPasswordNonce at hfind
  split_ifs at hfind with hrow
  · obtain ⟨row, hmem, hpair⟩ := Option.map_eq_some_iff.mp hfind
    have hid : row.id = link.emailId := by simpa using find?_some hmem
    obtain ⟨-, rfl⟩ := Prod.mk.inj hpair
    dsimp only
    rw [hid, Function.update_self]
    exact hfresh
  · obtain ⟨row, hmem, -⟩ := Option.map_eq_some_iff.mp hfind
    have hid : row.id = link.emailId := by simpa using find?_some hmem
    have hany : s.db.userEmails.any (·.id = link.emailId) = true :=
      any_eq_true.mpr ⟨row, mem_of_find?_eq_some hmem, by simpa using hid⟩
    exact absurd hany hrow

theorem act_holding (env : Env) (link : InvitationLink) (h : submission.Holding) (s : InvitationStore) :
    (∃ url, (submission.act env link s).2.stage = .redirected url) ∨ (submission.act env link s).2.Holding ∨
      (submission.act env link s).2.stage = .completed ∧
        (submission.act env link s).1 = s.regenerateSetPasswordNonce env link.emailId := by
  unfold Holding at h
  unfold act
  cases hstage : submission.stage with
  | emailRead email =>
    dsimp only [readUser]
    split
    · exact .inl ⟨_, rfl⟩
    · split_ifs
      · exact .inl ⟨_, rfl⟩
      · exact .inl ⟨_, rfl⟩
      · exact .inr (.inl trivial)
  | userRead =>
    dsimp only [validate]
    split_ifs
    · exact .inl ⟨_, rfl⟩
    · split
      · exact .inl ⟨_, rfl⟩
      · exact .inr (.inl trivial)
  | validated userId => exact .inr (.inl trivial)
  | passwordSet userId => exact .inr (.inr ⟨rfl, rfl⟩)
  | _ => simp [hstage] at h

theorem act_of_not_past (h : ¬ submission.Past) (s : InvitationStore) :
    (submission.act env link s).1 = s ∧ ((submission.act env link s).2 = submission ∧ ¬ submission.Checks ∨
      submission.Checks ∧ (submission.act env link s).2 = { submission with stage := readEmail link s }) := by
  unfold Past Holding at h
  unfold act Checks
  cases hstage : submission.stage with
  | received => exact ⟨rfl, .inr ⟨rfl, rfl⟩⟩
  | redirected url => exact ⟨rfl, .inl ⟨rfl, nofun⟩⟩
  | _ => simp [hstage] at h

/-- What a submission may rely on: the draws still to come are not the nonce of the link. -/
def Relies (env : Env) (link : InvitationLink) (s : InvitationStore) (_ : Submission) : Prop :=
  ∀ draw, s.db.nextId ≤ draw → env.opaqueToken draw ≠ link.nonce

theorem nextId_le_act : s.db.nextId ≤ (submission.act env link s).1.db.nextId := by
  unfold act
  cases submission.stage with
  | passwordSet userId =>
    dsimp only [InvitationStore.regenerateSetPasswordNonce]
    split_ifs
    · exact Nat.le_succ _
    · exact le_refl _
  | _ => exact le_refl _

theorem spent_act (hrely : Relies env link s submission) (h : Spent link s) :
    Spent link (submission.act env link s).1 := by
  unfold act
  cases submission.stage with
  | passwordSet userId => exact spent_regenerate (hrely _ (le_refl _))
  | _ => exact h

theorem singleUse (env : Env) (link : InvitationLink) :
    Contest.SingleUse (act env link) InvitationStore.wait (Relies env link) (fun _ _ => True) (fun _ => Checks) Past
      Holding (Spent link) where
  keeps s submission h := fun draw hdraw => h draw (le_trans nextId_le_act hdraw)
  keeps_others s submission _ h _ := fun draw hdraw => h draw (le_trans nextId_le_act hdraw)
  keeps_other _ _ _ h := h
  check s submission _ hpast hpast' := by
    rcases (act_of_not_past hpast s).2 with ⟨hsame, -⟩ | ⟨hchecks, hread⟩
    · rw [hsame] at hpast'
      exact absurd hpast' hpast
    · rw [hread] at hpast' ⊢
      rcases readEmail_cases link s with ⟨email, hemail⟩ | ⟨url, hurl⟩
      · refine ⟨hchecks, ?_, fun _ => not_spent_of_readEmail hemail⟩
        simp only [Holding, hemail]
      · simp [Past, Holding, hurl] at hpast'
  use s submission h hholding hpast hnot := by
    rcases act_holding env link hholding s with ⟨url, hurl⟩ | hstill | ⟨-, hstore⟩
    · simp [Past, Holding, hurl] at hpast
    · exact absurd hstill hnot
    · rw [hstore]
      exact spent_regenerate (h _ (le_refl _))
  stays _ _ h hspent := spent_act h hspent
  stays_other _ _ hspent := hspent

theorem past_of_setPassword (h : submission.SetPassword) : submission.Past := by
  unfold SetPassword at h
  unfold Past Holding
  cases hstage : submission.stage <;> simp_all

theorem setPassword_act (h : submission.SetPassword) : (submission.act env link s).2.SetPassword := by
  unfold SetPassword at h
  unfold act
  cases hstage : submission.stage with
  | passwordSet userId => trivial
  | completed => simp only [SetPassword, hstage]
  | _ => simp [hstage] at h

theorem past_of_setPassword_act (h : (submission.act env link s).2.SetPassword) : submission.Past := by
  by_contra hpast
  rcases (act_of_not_past hpast s).2 with ⟨hsame, -⟩ | ⟨-, hread⟩
  · rw [hsame] at h
    exact hpast (past_of_setPassword h)
  · rw [hread] at h
    rcases readEmail_cases link s with ⟨email, hemail⟩ | ⟨url, hurl⟩
    · simp [SetPassword, hemail] at h
    · simp [SetPassword, hurl] at h

/-- However the submissions with one link interleave, at most one changes the password, provided that each
reads the address row while no other stands between reading the nonce and replacing it; and once one has
completed, none that has not yet read the address row changes it. -/
theorem invitation_sets_password_at_most_once (env : Env) (link : InvitationLink)
    (x : Contest InvitationStore Submission)
    (hnonce : ∀ draw, x.store.db.nextId ≤ draw → env.opaqueToken draw ≠ link.nonce)
    (hstart : ∀ submission ∈ x.stages, submission.stage = .received) (events : List (ContestEvent Nat))
    (halone : Along (step env link) (Contest.ChecksAlone (fun _ _ => True) (fun _ => Checks) Holding) x events) :
    AtMostOnce (step env link) (Contest.Enters (act env link) SetPassword) x events ∧
    ∀ l₁ l₂, events = l₁ ++ l₂ → ∀ (i j : Nat) (done later : Submission),
      (run (step env link) x l₁).stages[i]? = some done → done.stage = .completed →
      (run (step env link) x l₁).stages[j]? = some later → later.stage = .received →
      ∀ submission ∈ (run (step env link) x events).stages[j]?, ¬ submission.SetPassword := by
  have hnot : ∀ submission ∈ x.stages, ¬ submission.Past := by
    intro submission hmem
    simp [Past, Holding, hstart submission hmem]
  have hexclusive : Contest.Exclusive (Relies env link) Past Holding (Spent link) x :=
    Contest.exclusive_of_start (fun _ _ => hnonce) hnot
  refine ⟨(singleUse env link).atMostOnce (fun _ h => past_of_setPassword h) (fun s _ h => setPassword_act h)
    (fun _ _ _ h => past_of_setPassword_act h) hexclusive halone, ?_⟩
  intro l₁ l₂ hl i j done later hi hdone hj hlater
  have hused : Contest.Used (Relies env link) Past Holding (Spent link) (run (step env link) x l₁) :=
    invariant (fun _ event h => (singleUse env link).used_step h) hexclusive.toUsed
  have hlate : ¬ later.Past := by simp [Past, Holding, hlater]
  have hholding : ¬ done.Holding := by simp [Holding, hdone]
  rw [hl, run_append]
  intro submission hsubmission hset
  exact (singleUse env link).refused_of_used (fun _ _ => trivial) hused hi (.inr hdone) hholding hj hlate submission
    hsubmission (past_of_setPassword hset)

def invitation : Contest InvitationStore Submission where
  store := {
    db := {
      nextId := 10
      users := [{ id := 1 }]
      userEmails := [{ id := 2, userId := 1, email := "ann@x.io", isPrimary := true, verifiedAt := some 0 }] }
    setPasswordNonce := fun _ => "invite" }
  stages := [{ password := "one", passwordConfirm := "one" },
    { password := "two", passwordConfirm := "two" }]

def invitationLink : InvitationLink where
  emailId := 2
  nonce := "invite"

/-- Both submissions read the nonce before either replaces it; the second password overwrites the first. -/
theorem invitation_sets_password_twice :
    ¬ AtMostOnce (step Env.ascii invitationLink) (Contest.Enters (act Env.ascii invitationLink) SetPassword) invitation
      ([0, 1, 0, 0, 0, 1, 1, 1].map .advance) := by
  intro h
  refine h ([0, 1, 0, 0].map .advance) (.advance 0) ([1, 1].map .advance) (.advance 1) [] rfl ?_ ?_
  · decide +kernel
  · decide +kernel

theorem ascii_opaqueToken_ne_invite {draw : Id} : Env.ascii.opaqueToken draw ≠ invitationLink.nonce := by
  intro h
  have hletter : 'i' ∈ Numeral.decimal draw := by
    change 'i' ∈ Env.ascii.opaqueToken draw
    rw [h]
    decide
  exact Numeral.notMem_decimal (by decide) hletter

theorem serial_submissions_set_password_once :
    AtMostOnce (step Env.ascii invitationLink) (Contest.Enters (act Env.ascii invitationLink) SetPassword) invitation
      ([0, 0, 0, 0, 0, 1, 1].map .advance) :=
  (invitation_sets_password_at_most_once Env.ascii invitationLink invitation
    (fun draw _ => ascii_opaqueToken_ne_invite) (by decide +kernel) _ (by decide +kernel)).1

end Submission

end WeftId
